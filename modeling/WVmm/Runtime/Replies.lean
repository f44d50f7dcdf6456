import WVmm.Platform.Abort
import WVmm.Runtime.Lines

/-! What a guest load reads and what a guest store writes: the value of a reply is within
the width of the access, so the register holds what the architecture says. -/
namespace WVmm
open Lib.Effect Devices Platform

theorem fromLeBytes_lt (bytes : List UInt8) : fromLeBytes bytes < 2^(8 * bytes.length) := by
  induction bytes with
  | nil => exact Nat.one_pos
  | cons b rest ih =>
    have byte := b.toNat_lt
    rw [fromLeBytes,List.length_cons,Nat.mul_add,Nat.pow_add]
    omega

namespace Devices

variable {B N : Type} [BlockStorage B] [NetDevice N]

def GenerationFits (m : Mmio (Device B N)) : Prop := VirtioDevice.generation m.device < 2^32

theorem readConfig_length (d : Device B N) (offset len : Nat) : (VirtioDevice.readConfig d offset len).length = len := by
  cases d with
  | block d => exact (List.length_map _).trans List.length_range
  | net d => exact (List.length_map _).trans List.length_range
  | mem d => exact (List.length_map _).trans List.length_range

theorem deviceId_lt (d : Device B N) : VirtioDevice.deviceId d < 2^32 := by
  cases d with
  | block d => exact (by decide : (2 : Nat) < 2^32)
  | net d => exact (by decide : (1 : Nat) < 2^32)
  | mem d => exact (by decide : (24 : Nat) < 2^32)

/-- A register or configuration field that is read fits the access. -/
theorem Mmio.read_lt {m : Mmio (Device B N)} (fits : GenerationFits m) {offset width value : Nat}
    (decoded : m.read offset width = some value) : value < 2^(8 * width) := by
  rw [Mmio.read] at decoded
  by_cases odd : (!(width == 1 || width == 2 || width == 4 || width == 8)) = true
  · rw [if_pos odd] at decoded
    cases decoded
  rw [if_neg odd] at decoded
  by_cases field : 0x100 ≤ offset ∧ offset < 0x1000
  · rw [if_pos field] at decoded
    by_cases beyond : offset + width > 0x1000
    · rw [if_pos beyond] at decoded
      cases decoded
    · rw [if_neg beyond] at decoded
      rw [← Option.some.inj decoded]
      exact (fromLeBytes_lt _).trans_eq (by rw [readConfig_length])
  rw [if_neg field] at decoded
  by_cases narrow : width ≠ 4
  · rw [if_pos narrow] at decoded
    cases decoded
  · rw [if_neg narrow] at decoded
    obtain rfl : width = 4 := not_not.mp narrow
    change value < 2^32
    -- the registers one after the other
    rw [← Option.some.inj decoded]
    split
    · decide
    split
    · decide
    split
    · exact deviceId_lt m.device
    split
    · decide
    split
    · rw [BitVec.toNat_and]
      exact Nat.lt_of_le_of_lt Nat.and_le_right (by decide)
    split
    · decide
    split
    · split <;> decide
    split
    · exact m.queues.interrupt.isLt
    split
    · exact m.status.isLt
    split
    · exact fits
    · decide

end Devices

/-- The access as `poll` hands it to the runtime. -/
def Platform.Abort.Access.io {C : Type} (a : Abort.Access) (reply : C) : IoAccess C where
  space := .mmio
  address := a.addr.toNat
  width := a.width
  write := a.write
  value := a.value.toNat
  completion := reply

namespace Runtime

variable {V C B N U : Type} {env : Env} [VirtualMachine V C] [BlockStorage B] [NetDevice N] [Uart U]

def GenerationsFit (s : Runtime V C B N U) : Prop := ∀ m ∈ s.devices, GenerationFits m

omit [VirtualMachine V C] [BlockStorage B] [NetDevice N] in
theorem uartValue_lt {a : IoAccess C} (reads : a.write = false) (offset : Nat) (fact : Runtime V C B N U → Prop) :
    Upon fact (uartValue offset a) (fun decoded _ => ∀ value, decoded = some value → value < 2^(8 * a.width)) := by
  intro s decoded t _ ran value same
  subst same
  by_cases byte : offset < 8 ∧ a.width = 1
  · rw [uartValue,if_pos byte,reads] at ran
    cases ran
    rw [byte.2]
    exact UInt8.toNat_lt _
  · rw [uartValue,if_neg byte] at ran
    cases ran

omit [Uart U] in
theorem virtioValue_lt {a : IoAccess C} (reads : a.write = false) (k : Nat) (region : IoRegion)
    {d : Mmio (Device B N)} (fits : GenerationFits d) (fact : Runtime V C B N U → Prop) :
    Upon fact (virtioValue env k region a d) (fun decoded _ => ∀ value, decoded = some value → value < 2^(8 * a.width)) := by
  intro s decoded t _ ran value same
  subst same
  unfold virtioValue at ran
  dsimp only at ran
  by_cases inside : region.fits a = true
  · rw [inside,reads] at ran
    obtain ⟨read,-⟩ := Prod.mk.inj ran
    exact Mmio.read_lt fits (Except.ok.inj read)
  · rw [Bool.not_eq_true] at inside
    rw [inside] at ran
    cases ran

/-- What an access decodes to is within its width. -/
theorem access_lt (layout : MachineLayout) {a : IoAccess C} (reads : a.write = false) :
    Upon (fun s : Runtime V C B N U => s.GenerationsFit) (access env layout a)
      (fun r _ => ∀ value, r.1 = some value → value < 2^(8 * a.width)) := by
  unfold access
  split
  · exact .bind (uartValue_lt reads _ _) (fun decoded => .get (fun s here => .pure (fun _ _ => here)))
  split
  · split
    · rename_i region _
      intro s r t fits ran
      obtain ⟨d,u,found,decodes⟩ := Prog.bind_success ran
      rw [device_run] at found
      split at found
      · rename_i present
        cases found
        obtain ⟨decoded,w,valued,looks⟩ := Prog.bind_success decodes
        obtain ⟨d',x,_,done⟩ := Prog.bind_success looks
        cases done
        exact virtioValue_lt reads _ region (fits d (List.mem_of_getElem? present)) (fun _ => True) s decoded w trivial valued
      · cases found
    · exact .fail _
  · exact .fail _

omit [VirtualMachine V C] [BlockStorage B] [NetDevice N] [Uart U] in
/-- An access to no register reads all ones. -/
theorem seen_lt (strict : Bool) {a : IoAccess C} (reads : a.write = false) {decoded : Option Nat}
    (within : ∀ value, decoded = some value → value < 2^(8 * a.width)) {s t : Runtime V C B N U} {value : Nat}
    (ran : (seen strict a decoded).run s = (.ok value,t)) : value < 2^(8 * a.width) := by
  cases decoded with
  | some value' =>
    cases ran
    exact within value rfl
  | none =>
    have ones : 0 < 2^(8 * a.width) := Nat.two_pow_pos _
    simp only [seen,reads] at ran
    by_cases forbids : strict = true
    · rw [if_pos forbids] at ran
      cases ran
    rw [if_neg forbids,if_neg Bool.false_ne_true] at ran
    by_cases large : 8 ≤ a.width
    · have enough : 2^64 ≤ 2^(8 * a.width) := Nat.pow_le_pow_right (by decide) (by omega)
      rw [if_pos large] at ran
      obtain ⟨reply,-⟩ := Prod.mk.inj ran
      rw [← Except.ok.inj reply]
      omega
    · rw [if_neg large] at ran
      obtain ⟨reply,-⟩ := Prod.mk.inj ran
      rw [← Except.ok.inj reply]
      omega

theorem answerIo_lt {a : IoAccess C} (reads : a.write = false) :
    Upon (fun s : Runtime V C B N U => s.GenerationsFit) (answerIo env a) (fun value _ => value < 2^(8 * a.width)) := by
  intro s value t fits ran
  obtain ⟨_,_,⟨⟩,decodes⟩ := Prog.bind_success ran
  obtain ⟨decoded,u,accessed,sees⟩ := Prog.bind_success decodes
  obtain ⟨value',w,looked,sets⟩ := Prog.bind_success sees
  obtain ⟨_,x,_,done⟩ := Prog.bind_success sets
  cases done
  exact seen_lt s.strict reads (access_lt s.layout reads s decoded u fits accessed) looked

/-- A reply goes to the access it is for, and that to a load is within its width. -/
theorem handleIo_replies {a : IoAccess C} {s t : Runtime V C B N U} {r : Except (Failure Error) Unit}
    (fits : s.GenerationsFit) (ran : (handleIo env a).run s = (r,t)) {calls : List (Call C B N)}
    (log : t.log = s.log ++ calls) {reply : C} {value : Nat} (replied : .completeIo reply value ∈ calls) :
    reply = a.completion ∧ (a.write = false → value < 2^(8 * a.width)) := by
  have held := @answerIo_holds V C B N U env _ _ _ _ a s
  have within := fun reads => @answerIo_lt V C B N U env _ _ _ _ a reads s
  rw [handleIo_run] at ran
  generalize (answerIo env a).run s = outcome at ran held within
  obtain ⟨answer,u⟩ := outcome
  obtain ⟨_,_,before,extended,silent⟩ := held
  dsimp only at extended
  cases answer with
  | error e =>
    cases ran
    rw [List.append_cancel_left (log.symm.trans extended)] at replied
    cases silent _ replied
  | ok value' =>
    have last : t.log = u.log ++ [.completeIo a.completion value'] := congrArg (fun r => r.2.log) ran.symm
    rw [extended,log,List.append_assoc] at last
    rw [List.append_cancel_left last] at replied
    rcases List.mem_append.mp replied with inside | final
    · cases silent _ inside
    · cases List.mem_singleton.mp final
      exact ⟨rfl,fun reads => within reads value u fits rfl⟩

/-- MMIO loads and stores have the architectural value. A store hands over the low bytes
of its register. The reply to a load is within the width of the access, and the register
then holds it, extended and truncated as the syndrome says. -/
theorem mmio_architectural {esr addr : BitVec 64} {registers : Abort.Registers} {sent : Abort.Access}
    (described : Abort.aborted esr addr registers = .ok sent) (completion : C) {s t : Runtime V C B N U}
    (fits : s.GenerationsFit) {r : Except (Failure Error) Unit}
    (ran : (handleIo env (sent.io completion)).run s = (r,t)) :
    (sent.width = Abort.width esr ∧ (sent.width = 1 ∨ sent.width = 2 ∨ sent.width = 4 ∨ sent.width = 8)) ∧
    (sent.write = true → sent.value.toNat =
      if Abort.reg esr = 31 then 0 else (registers (Abort.reg esr)).toNat % 2^(8 * Abort.width esr)) ∧
    ∀ calls, t.log = s.log ++ calls → ∀ reply value, .completeIo reply value ∈ calls →
      reply = completion ∧ (sent.write = false → value < 2^(8 * Abort.width esr)) ∧
      Abort.writeBack esr (BitVec.ofNat 64 value) registers =
        if sent.write = true ∨ Abort.reg esr = 31 then registers
        else Function.update registers (Abort.reg esr) (Abort.architectural esr value) := by
  have width := Abort.width_cases esr
  have few : Abort.width esr ≤ 8 := by rcases width with same | same | same | same <;> omega
  obtain rfl : Abort.access esr addr registers = sent := by
    unfold Abort.aborted at described
    split at described
    · exact Except.ok.inj described
    · cases described
  refine ⟨⟨rfl,width⟩,?_,?_⟩
  · intro stores
    change Abort.write esr = true at stores
    change (if (Abort.write esr && Abort.reg esr != 31) = true then _ else _ : BitVec 64).toNat = _
    by_cases zero : Abort.reg esr = 31
    · simp [zero]
    · rw [if_pos (by simp [stores,zero]),if_neg zero,Abort.maskWrite_value _ few]
  · intro calls log reply value replied
    obtain ⟨same,within⟩ := handleIo_replies fits ran log replied
    refine ⟨same,within,?_⟩
    have written : (Abort.access esr addr registers).write = Abort.write esr := rfl
    rw [written,Abort.writeBack]
    by_cases kept : Abort.write esr = true ∨ Abort.reg esr = 31
    · rw [if_pos kept,if_neg (by rcases kept with stores | zero <;> simp [*])]
    · obtain ⟨loads,named⟩ := not_or.mp kept
      have loads : Abort.write esr = false := by simpa using loads
      rw [if_neg kept,if_pos (by simp [loads,named]),Abort.loaded_architectural esr (within loads)]

end Runtime

namespace Reference

/-- A signed load of a byte where there is no register, to `w5`. -/
def oddLoad : BitVec 64 := 1#64 <<< 24 ||| 1#64 <<< 21 ||| 5#64 <<< 16

theorem mmio_architectural_odd :
    ∃ t, (Runtime.handleIo env ((Abort.access oddLoad 0x1000 (fun _ => 0)).io 0)).run notified.runtime = (.ok (),t) ∧
      .completeIo 0 0xff ∈ t.log ∧ (0xff : Nat) < 2^8 ∧
      Abort.writeBack oddLoad 0xff#64 (fun _ => 0) = Function.update (fun _ => 0) 5 0xffffffff#64 := by
  obtain ⟨t,ran,log⟩ : ∃ t, (Runtime.handleIo env ((Abort.access oddLoad 0x1000 (fun _ => 0)).io 0)).run
      notified.runtime = (.ok (),t) ∧ t.log = notified.runtime.log ++ [.setIrq 2 false,.completeIo 0 0xff] :=
    ⟨_,rfl,rfl⟩
  have fits : notified.runtime.GenerationsFit := by
    intro m member
    cases List.mem_singleton.mp member
    exact (by decide : (0 : Nat) < 2^32)
  have described : Abort.aborted oddLoad 0x1000 (fun _ => 0) = .ok (Abort.access oddLoad 0x1000 (fun _ => 0)) := rfl
  obtain ⟨_,_,replies⟩ := Runtime.mmio_architectural described 0 fits ran
  obtain ⟨_,within,loaded⟩ := replies _ log 0 0xff (by simp)
  refine ⟨t,ran,by rw [log]; simp,within rfl,loaded.trans ?_⟩
  rfl

end Reference
end WVmm
