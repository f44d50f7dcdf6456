import WVmm.Platform.Abort
import WVmm.Platform.Power

/-! What a worker does with an exit of its vCPU, on the registers the hypervisor keeps
for it. The workers with their registers refine the workers of `Cpus`, and each
exit is completed once before the guest goes on. -/
namespace WVmm.Platform.Cpus
open Abort (Registers)
open Lib.Runs

variable {n : Nat}

structure Exit where
  reason : BitVec 32
  syndrome : BitVec 64
  physicalAddress : BitVec 64

/-- The registers of a vCPU that the monitor reaches. Of the system registers only
SCTLR_EL1 is written after creation. -/
structure Frame where
  regs : Registers
  sctlr : BitVec 64

/-- What an exit leads to. `again` goes back to the loop top with these registers. -/
inductive Action
  | again (regs : Registers)
  | hypercall (call : Hypercall)
  | answer (value : Int)
  | access (access : Abort.Access)
  | fail (e : PlatformError)

def PC : Nat := 31

def CPSR : Nat := 34

/-- CPU_ON re-enters at EL1 with translation and caches disabled. -/
def Frame.boot (f : Frame) (entry context : Nat) : Frame where
  regs :=
    let zeroed : Registers := fun reg => if reg < 31 then 0 else f.regs reg
    Function.update (Function.update (Function.update zeroed CPSR 0x3c5) PC (BitVec.ofNat 64 entry)) 0 (BitVec.ofNat 64 context)
  sctlr := 0x30d00800

/-- Past the instruction; `none` where the addition overflows. -/
def advance (regs : Registers) : Option Registers :=
  if (regs PC).toNat + 4 < 2^64 then some (Function.update regs PC (regs PC + 4)) else none

/-- Retire an instruction that was carried out on these registers. An overflow panics,
which the worker's thread reports. -/
def retire (regs : Registers) : Action := match advance regs with
  | some regs => .again regs
  | none => .fail .vcpuThreadPanicked

/-- A hypervisor call of the guest. The arguments of a 32-bit function are its low halves. -/
def psci (regs : Registers) : Action :=
  let function := regs 0
  let wide := function &&& (1#64 <<< 30) != 0
  let arg := fun i => (if wide then regs i else regs i &&& 0xffffffff#64).toNat
  if function = 0x84000000#64 then .answer 2
  else if function = 0x84000002#64 then .hypercall .cpuOff
  else if function = 0x84000003#64 ∨ function = 0xc4000003#64 then .hypercall (.cpuOn (arg 1) (arg 2) (arg 3))
  else if function = 0x84000004#64 ∨ function = 0xc4000004#64 then .hypercall (.affinityInfo (arg 1) (arg 2))
  else if function = 0x84000006#64 then .answer 2 -- MIGRATE_INFO_TYPE: no trusted OS.
  else if function = 0x84000008#64 ∨ function = 0x84000009#64 then .hypercall .systemOff
  else .answer (-1)

def sysreg (esr : BitVec 64) : BitVec 64 :=
  ((esr >>> 20) &&& 3) <<< 14 ||| ((esr >>> 14) &&& 7) <<< 11 ||| ((esr >>> 10) &&& 15) <<< 7 |||
    ((esr >>> 1) &&& 15) <<< 3 ||| ((esr >>> 17) &&& 7)

def rt (esr : BitVec 64) : Nat := ((esr >>> 5) &&& 31).toNat

def reads (esr : BitVec 64) : Bool := esr &&& 1 != 0

/-- A trapped access to a system register: the OS debug registers read as zero and ignore
writes. -/
def trapped (esr : BitVec 64) (regs : Registers) : Action :=
  if sysreg esr = 0x8084#64 ∨ sysreg esr = 0x808c#64 ∨ sysreg esr = 0x809c#64 then
    retire (if reads esr && rt esr != 31 then Function.update regs (rt esr) 0 else regs)
  else .fail (.unsupportedSysreg (sysreg esr).toNat esr.toNat)

def class_ (esr : BitVec 64) : BitVec 64 := esr >>> 26

def dispatch (exit : Exit) (regs : Registers) : Action :=
  let esr := exit.syndrome
  if exit.reason = 0 then .again regs
  else if exit.reason = 1 then
    if class_ esr = 0x16 then psci regs
    else if class_ esr = 0x24 then match Abort.aborted esr exit.physicalAddress regs with
      | .ok access => .access access
      | .error e => .fail e
    else if class_ esr = 0x18 then trapped esr regs
    else if class_ esr = 1 then retire regs
    else .fail (.unhandledException esr.toNat exit.physicalAddress.toNat (regs PC).toNat)
  else .fail (.unexpectedHvfExit exit.reason.toNat esr.toNat)

/-- Workers with the registers of their vCPUs, the exits they handle and the replies they
got. -/
structure Host (n : Nat) where
  sys : Sys n
  frame : Fin n → Frame
  exit : Fin n → Exit
  reply : Fin n → BitVec 64

inductive Deed (n : Nat)
  | lockTop (i : Fin n)
  /-- The guest ran until this exit and left these registers. -/
  | run (i : Fin n) (exit : Exit) (frame : Frame)
  | handle (i : Fin n)
  | setResult (i : Fin n)
  | receive (i : Fin n) (value : BitVec 64)
  | writeBack (i : Fin n)
  /-- The steps that neither read nor write a register. -/
  | other (l : Label n)

def Label.plain : Label n → Bool
  | .lockTop _ | .exit _ | .again _ | .hypercall _ _ | .answer _ _ | .access _ | .setResult _ | .receive _ | .writeBack _ => false
  | _ => true

namespace Host

def setFrame (m : Host n) (i : Fin n) (f : Frame) : Host n := {m with frame := Function.update m.frame i f}

def setRegs (m : Host n) (i : Fin n) (regs : Registers) : Host n := m.setFrame i {m.frame i with regs := regs}

def under (m : Host n) (l : Label n) : Option (Host n) := (m.sys.next l).map fun s => {m with sys := s}

def entry (m : Host n) (i : Fin n) : Frame := match m.sys.shared.power i with
  | .pending entry context => if m.sys.shared.waiting then m.frame i else (m.frame i).boot entry context
  | _ => m.frame i

def act (m : Host n) (i : Fin n) : Action → Option (Host n)
  | .again regs => (m.setRegs i regs).under (.again i)
  | .hypercall call => m.under (.hypercall i call)
  | .answer value => m.under (.answer i value)
  | .access _ => m.under (.access i)
  | .fail _ => m.under (.fail i)

def next (d : Deed n) (m : Host n) : Option (Host n) :=
  match d with
  | .lockTop i => (m.setFrame i (m.entry i)).under (.lockTop i)
  | .run i exit frame => ({m with exit := Function.update m.exit i exit}.setFrame i frame).under (.exit i)
  | .handle i => if m.sys.pc i = .decode then m.act i (dispatch (m.exit i) (m.frame i).regs) else none
  | .setResult i => match m.sys.pc i with
    | .result value => (m.setRegs i (Function.update (m.frame i).regs 0 (BitVec.ofInt 64 value))).under (.setResult i)
    | _ => none
  | .receive i value => {m with reply := Function.update m.reply i value}.under (.receive i)
  | .writeBack i =>
    if m.sys.pc i = .writeBack then
      match advance (Abort.writeBack (m.exit i).syndrome (m.reply i) (m.frame i).regs) with
      | some regs => (m.setRegs i regs).under (.writeBack i)
      | none => m.under (.fail i)
    else none
  | .other l => if l.plain then m.under l else none

end Host

inductive Passage (n : Nat)
  | booted (i : Fin n) (entry context : Nat) (frame : Frame)
  | resumed (i : Fin n) (frame : Frame)
  | left (i : Fin n) (exit : Exit) (frame : Frame)

namespace Passage

def target : Passage n → Fin n
  | .booted i _ _ _ | .resumed i _ | .left i _ _ => i

def asBoot : Passage n → Option (Fin n × Nat × Nat)
  | .booted i entry context _ => some (i,entry,context)
  | _ => none

end Passage

def Host.passages (m t : Host n) : Deed n → List (Passage n)
  | .lockTop i =>
    if t.sys.pc i = .guest then match m.sys.shared.power i with
      | .pending entry context => [.booted i entry context (t.frame i)]
      | _ => [.resumed i (t.frame i)]
    else []
  | .run i exit frame => [.left i exit frame]
  | _ => []

/-- A machine with the passages so far. -/
inductive Seen (frames : Fin n → Frame) (exits : Fin n → Exit) (replies : Fin n → BitVec 64) : List (Passage n) → Host n → Prop
  | new : Seen frames exits replies [] ⟨Sys.new n,frames,exits,replies⟩
  | step {h : List (Passage n)} {m t : Host n} {d : Deed n} (before : Seen frames exits replies h m)
    (taken : m.next d = some t) : Seen frames exits replies (h ++ m.passages t d) t

/-- The state that CPU_ON promises. -/
structure Booted (entry context : Nat) (f : Frame) : Prop where
  pc : f.regs PC = BitVec.ofNat 64 entry
  context : f.regs 0 = BitVec.ofNat 64 context
  zero : ∀ reg, 0 < reg → reg < 31 → f.regs reg = 0
  masked : f.regs CPSR = 0x3c5
  untranslated : f.sctlr = 0x30d00800

def Hypercall.codes : Hypercall → List Int
  | .cpuOn _ _ _ => [0,-2,-4,-5,-9]
  | .affinityInfo _ _ => [0,1,2,-2]
  | .cpuOff | .systemOff => []

inductive Returns (regs : Registers) : Int → Prop
  | answer {value : Int} (answers : psci regs = .answer value) : Returns regs value
  | call {call : Hypercall} {value : Int} (calls : psci regs = .hypercall call) (code : value ∈ call.codes) : Returns regs value

def op0 (esr : BitVec 64) : Nat := esr.toNat / 2^20 % 4

def op1 (esr : BitVec 64) : Nat := esr.toNat / 2^14 % 8

def crn (esr : BitVec 64) : Nat := esr.toNat / 2^10 % 16

def crm (esr : BitVec 64) : Nat := esr.toNat / 2 % 16

def op2 (esr : BitVec 64) : Nat := esr.toNat / 2^17 % 8

/-- An access to OSLAR_EL1, OSLSR_EL1 or OSDLR_EL1. -/
def OsDebug (esr : BitVec 64) : Prop :=
  op0 esr = 2 ∧ op1 esr = 0 ∧ crn esr = 1 ∧ (crm esr = 0 ∨ crm esr = 1 ∨ crm esr = 3) ∧ op2 esr = 4

/-- How the guest goes on after an exit that it took with these registers. -/
inductive Resumed (exit : Exit) (regs : Registers) : Registers → Prop
  /-- The run was cancelled. -/
  | cancelled (reason : exit.reason = 0) : Resumed exit regs regs
  /-- A hypervisor call returns in `x0`; `pc` is past it already. -/
  | called (value : Int) (reason : exit.reason = 1) (kind : class_ exit.syndrome = 0x16) (returns : Returns regs value) :
    Resumed exit regs (Function.update regs 0 (BitVec.ofInt 64 value))
  /-- A load or store is carried out and retired. -/
  | accessed (value : BitVec 64) {after : Registers} (reason : exit.reason = 1) (kind : class_ exit.syndrome = 0x24)
    (described : Abort.valid exit.syndrome = true)
    (retired : advance (Abort.writeBack exit.syndrome value regs) = some after) : Resumed exit regs after
  /-- A trapped read gives zero, a trapped write nothing, and both are retired. -/
  | trapped {after : Registers} (reason : exit.reason = 1) (kind : class_ exit.syndrome = 0x18) (known : OsDebug exit.syndrome)
    (retired : advance (if reads exit.syndrome && rt exit.syndrome != 31 then Function.update regs (rt exit.syndrome) 0
      else regs) = some after) : Resumed exit regs after
  /-- A wait for an interrupt or event is skipped. -/
  | waited {after : Registers} (reason : exit.reason = 1) (kind : class_ exit.syndrome = 1)
    (retired : advance regs = some after) : Resumed exit regs after

theorem field_value (esr : BitVec 64) (low bits : Nat) (mask : BitVec 64) (ones : mask.toNat = 2^bits - 1) :
    ((esr >>> low) &&& mask).toNat = esr.toNat / 2^low % 2^bits := by
  rw [BitVec.toNat_and,ones,Nat.and_two_pow_sub_one_eq_mod,BitVec.toNat_ushiftRight,Nat.shiftRight_eq_div_pow]

theorem placed_value {x : BitVec 64} {value : Nat} (same : x.toNat = value) (place : Nat) (fits : value * 2^place < 2^64) :
    (x <<< place).toNat = 2^place * value := by
  rw [BitVec.toNat_shiftLeft,same,Nat.shiftLeft_eq,Nat.mod_eq_of_lt fits,Nat.mul_comm]

theorem sysreg_value (esr : BitVec 64) :
    (sysreg esr).toNat = op0 esr * 2^14 + op1 esr * 2^11 + crn esr * 2^7 + crm esr * 2^3 + op2 esr := by
  have h0 : op0 esr < 4 := Nat.mod_lt _ (by decide)
  have h1 : op1 esr < 8 := Nat.mod_lt _ (by decide)
  have hn : crn esr < 16 := Nat.mod_lt _ (by decide)
  have hm : crm esr < 16 := Nat.mod_lt _ (by decide)
  have h2 : op2 esr < 8 := Nat.mod_lt _ (by decide)
  have e0 : _ = 2^14 * op0 esr := placed_value (field_value esr 20 2 3 rfl) 14 (by change op0 esr * _ < _; omega)
  have e1 : _ = 2^11 * op1 esr := placed_value (field_value esr 14 3 7 rfl) 11 (by change op1 esr * _ < _; omega)
  have en : _ = 2^7 * crn esr := placed_value (field_value esr 10 4 15 rfl) 7 (by change crn esr * _ < _; omega)
  have em : _ = 2^3 * crm esr := placed_value (field_value esr 1 4 15 rfl) 3 (by change crm esr * _ < _; omega)
  have e2 : _ = op2 esr := field_value esr 17 3 7 rfl
  -- Each field lies below the fields packed before it, so the disjunctions are sums.
  let high := 8 * op0 esr + op1 esr
  let middle := 16 * high + crn esr
  have p0 := Nat.two_pow_add_eq_or_of_lt (show 2^11 * op1 esr < 2^14 by omega) (op0 esr)
  have p1 := Nat.two_pow_add_eq_or_of_lt (show 2^7 * crn esr < 2^11 by omega) high
  have pn := Nat.two_pow_add_eq_or_of_lt (show 2^3 * crm esr < 2^7 by omega) middle
  have pm := Nat.two_pow_add_eq_or_of_lt (show op2 esr < 2^3 by omega) (16 * middle + crm esr)
  unfold sysreg
  rw [BitVec.toNat_or,BitVec.toNat_or,BitVec.toNat_or,BitVec.toNat_or,e0,e1,en,em,e2,← p0,
    show 2^14 * op0 esr + 2^11 * op1 esr = 2^11 * high by omega,← p1,
    show 2^11 * high + 2^7 * crn esr = 2^7 * middle by omega,← pn,
    show 2^7 * middle + 2^3 * crm esr = 2^3 * (16 * middle + crm esr) by omega,← pm]
  omega

theorem known_iff {esr : BitVec 64} :
    (sysreg esr = 0x8084#64 ∨ sysreg esr = 0x808c#64 ∨ sysreg esr = 0x809c#64) ↔ OsDebug esr := by
  have value := sysreg_value esr
  have h1 : op1 esr < 8 := Nat.mod_lt _ (by decide)
  have hn : crn esr < 16 := Nat.mod_lt _ (by decide)
  have hm : crm esr < 16 := Nat.mod_lt _ (by decide)
  have h2 : op2 esr < 8 := Nat.mod_lt _ (by decide)
  have same : ∀ number : BitVec 64, sysreg esr = number ↔ (sysreg esr).toNat = number.toNat := fun _ => BitVec.toNat_inj.symm
  rw [same,same,same,value]
  simp only [BitVec.toNat_ofNat,OsDebug]
  omega

inductive Handles (exit : Exit) (regs : Registers) : Action → Prop
  | cancelled (reason : exit.reason = 0) : Handles exit regs (.again regs)
  | called (reason : exit.reason = 1) (kind : class_ exit.syndrome = 0x16) : Handles exit regs (psci regs)
  | accessed (reason : exit.reason = 1) (kind : class_ exit.syndrome = 0x24) (described : Abort.valid exit.syndrome = true) :
    Handles exit regs (.access (Abort.access exit.syndrome exit.physicalAddress regs))
  | trapped (reason : exit.reason = 1) (kind : class_ exit.syndrome = 0x18)
    (known : sysreg exit.syndrome = 0x8084#64 ∨ sysreg exit.syndrome = 0x808c#64 ∨ sysreg exit.syndrome = 0x809c#64) :
    Handles exit regs (retire (if reads exit.syndrome && rt exit.syndrome != 31 then
      Function.update regs (rt exit.syndrome) 0 else regs))
  | waited (reason : exit.reason = 1) (kind : class_ exit.syndrome = 1) : Handles exit regs (retire regs)
  | failed (e : PlatformError) : Handles exit regs (.fail e)

theorem dispatch_handles (exit : Exit) (regs : Registers) : Handles exit regs (dispatch exit regs) := by
  unfold dispatch
  dsimp only
  split
  · exact .cancelled ‹_›
  · split
    · rename_i reason
      split
      · exact .called reason ‹_›
      · split
        · rename_i kind
          unfold Abort.aborted
          split
          · rename_i access described
            split at described
            · cases described
              exact .accessed reason kind ‹_›
            · cases described
          · exact .failed _
        · split
          · rename_i kind
            unfold trapped
            split
            · exact .trapped reason kind ‹_›
            · exact .failed _
          · split
            · exact .waited reason ‹_›
            · exact .failed _
    · exact .failed _

/-- A hypervisor call answers at once or enters a section. -/
theorem psci_cases (regs : Registers) : (∃ value, psci regs = .answer value) ∨ ∃ call, psci regs = .hypercall call := by
  unfold psci
  dsimp only
  repeat' split
  all_goals first | exact Or.inl ⟨_,rfl⟩ | exact Or.inr ⟨_,rfl⟩

theorem retire_cases (regs : Registers) :
    (∃ after, advance regs = some after ∧ retire regs = .again after) ∨ ∃ e, retire regs = .fail e := by
  unfold retire
  split
  · rename_i after retired
    exact Or.inl ⟨after,retired,rfl⟩
  · exact Or.inr ⟨_,rfl⟩

section Dispatch
variable {exit : Exit} {regs : Registers}

theorem dispatch_again {after : Registers} (again : dispatch exit regs = .again after) : Resumed exit regs after := by
  have handles := dispatch_handles exit regs
  have retired : ∀ {r}, retire r = .again after → advance r = some after := fun {r} same => by
    rcases retire_cases r with ⟨_,retired,there⟩ | ⟨e,there⟩
    · rw [there] at same
      cases same
      exact retired
    · rw [there] at same
      cases same
  generalize dispatch exit regs = action at handles again
  cases handles with
  | cancelled reason =>
    cases again
    exact .cancelled reason
  | called reason kind => rcases psci_cases regs with ⟨_,other⟩ | ⟨_,other⟩ <;> cases other.symm.trans again
  | accessed reason kind described => cases again
  | trapped reason kind known => exact .trapped reason kind (known_iff.mp known) (retired again)
  | waited reason kind => exact .waited reason kind (retired again)
  | failed e => cases again

theorem retire_not {r : Registers} {action : Action} (same : retire r = action) :
    (∃ after, action = .again after) ∨ ∃ e, action = .fail e := by
  rcases retire_cases r with ⟨after,_,there⟩ | ⟨e,there⟩
  · exact Or.inl ⟨after,same.symm.trans there⟩
  · exact Or.inr ⟨e,same.symm.trans there⟩

theorem dispatch_called {action : Action} (handled : dispatch exit regs = action)
    (calls : (∃ value, action = .answer value) ∨ ∃ call, action = .hypercall call) :
    exit.reason = 1 ∧ class_ exit.syndrome = 0x16 ∧ psci regs = action := by
  have handles := dispatch_handles exit regs
  have other : ∀ {r}, retire r = action → False := fun same => by
    rcases retire_not same with ⟨_,rfl⟩ | ⟨_,rfl⟩ <;> rcases calls with ⟨_,no⟩ | ⟨_,no⟩ <;> cases no
  rw [handled] at handles
  generalize same : action = result at handles
  cases handles with
  | called reason kind => exact ⟨reason,kind,rfl⟩
  | trapped reason kind known => exact (other same.symm).elim
  | waited reason kind => exact (other same.symm).elim
  | cancelled reason | accessed reason kind described | failed e =>
    subst same
    rcases calls with ⟨_,no⟩ | ⟨_,no⟩ <;> cases no

theorem dispatch_access {access : Abort.Access} (handled : dispatch exit regs = .access access) :
    exit.reason = 1 ∧ class_ exit.syndrome = 0x24 ∧ Abort.valid exit.syndrome = true := by
  have handles := dispatch_handles exit regs
  generalize dispatch exit regs = action at handles handled
  cases handles with
  | accessed reason kind described => exact ⟨reason,kind,described⟩
  | called reason kind => rcases psci_cases regs with ⟨_,other⟩ | ⟨_,other⟩ <;> cases other.symm.trans handled
  | trapped reason kind known => rcases retire_not handled with ⟨_,no⟩ | ⟨_,no⟩ <;> cases no
  | waited reason kind => rcases retire_not handled with ⟨_,no⟩ | ⟨_,no⟩ <;> cases no
  | cancelled reason | failed e => cases handled

end Dispatch

theorem boot_booted (f : Frame) (entry context : Nat) : Booted entry context (f.boot entry context) := by
  refine ⟨?_,?_,fun reg some low => ?_,?_,rfl⟩
  · simp [Frame.boot,PC]
  · simp [Frame.boot]
  · simp [Frame.boot,PC,CPSR,show reg ≠ 0 by omega,show reg ≠ 31 by omega,show reg ≠ 34 by omega,low]
  · simp [Frame.boot,PC,CPSR]

inductive Place
  | fresh
  | inside
  | left (exit : Exit) (frame : Frame)

/-- The passages of one vCPU in their order: it enters in the state of a power-on, or as its
last exit has it go on. -/
inductive Stays (i : Fin n) : List (Passage n) → Place → Prop
  | fresh : Stays i [] .fresh
  | booted {ps : List (Passage n)} {place : Place} {entry context : Nat} {f : Frame} (before : Stays i ps place)
    (outside : place ≠ .inside) (state : Booted entry context f) : Stays i (ps ++ [.booted i entry context f]) .inside
  | resumed {ps : List (Passage n)} {exit : Exit} {f g : Frame} (before : Stays i ps (.left exit f))
    (completed : Resumed exit f.regs g.regs) (same : g.sctlr = f.sctlr) : Stays i (ps ++ [.resumed i g]) .inside
  | left {ps : List (Passage n)} {exit : Exit} {f : Frame} (before : Stays i ps .inside) :
    Stays i (ps ++ [.left i exit f]) (.left exit f)

inductive Tracks (exit : Exit) (frame : Frame) (power : Power) : Pc → Place → Prop
  | guest : Tracks exit frame power .guest .inside
  | exited : Tracks exit frame power .exited (.left exit frame)
  | decode : Tracks exit frame power .decode (.left exit frame)
  | calling {call : Hypercall} (handled : dispatch exit frame.regs = .hypercall call) :
    Tracks exit frame power (.calling call) (.left exit frame)
  | result {value : Int} (reason : exit.reason = 1) (kind : class_ exit.syndrome = 0x16) (returns : Returns frame.regs value) :
    Tracks exit frame power (.result value) (.left exit frame)
  | exchange {pc : Pc} (inside : pc = .queued ∨ pc = .awaiting ∨ pc = .replied ∨ pc = .writeBack) (reason : exit.reason = 1)
    (kind : class_ exit.syndrome = 0x24) (described : Abort.valid exit.syndrome = true) :
    Tracks exit frame power pc (.left exit frame)
  | top {place : Place} (outside : place ≠ .inside) (resumes : power = .on → ∃ exit g, place = .left exit g ∧
    Resumed exit g.regs frame.regs ∧ frame.sctlr = g.sctlr) : Tracks exit frame power .top place
  | ended {pc : Pc} {place : Place} (ended : pc.ended = true) : Tracks exit frame power pc place

def Deed.worker : Deed n → Option (Fin n)
  | .lockTop i | .run i _ _ | .handle i | .setResult i | .receive i _ | .writeBack i => some i
  | .other l => l.worker

namespace Host

variable {m t : Host n}

theorem under_cases {l : Label n} (taken : m.under l = some t) : ∃ s, m.sys.next l = some s ∧ t = {m with sys := s} := by
  obtain ⟨s,step,same⟩ := Option.map_eq_some_iff.mp taken
  exact ⟨s,step,same.symm⟩

@[simp] theorem setFrame_sys (m : Host n) (i : Fin n) (f : Frame) : (m.setFrame i f).sys = m.sys := rfl

@[simp] theorem setRegs_sys (m : Host n) (i : Fin n) (regs : Registers) : (m.setRegs i regs).sys = m.sys := rfl

/-- What a step does besides the step of `Cpus`: it changes what belongs to its worker. -/
structure Refines (m t : Host n) (d : Deed n) (l : Label n) : Prop where
  step : m.sys.next l = some t.sys
  worker : l.worker = d.worker
  frame : ∀ i, d.worker ≠ some i → t.frame i = m.frame i
  exit : ∀ i, d.worker ≠ some i → t.exit i = m.exit i
  top : ∀ i, l = .lockTop i → d = .lockTop i

theorem under_refines {d : Deed n} {l : Label n} {u : Host n} (taken : u.under l = some t) (sys : u.sys = m.sys)
    (worker : l.worker = d.worker) (frame : ∀ i, d.worker ≠ some i → u.frame i = m.frame i)
    (exit : ∀ i, d.worker ≠ some i → u.exit i = m.exit i) (top : ∀ i, l = .lockTop i → d = .lockTop i) :
    Refines m t d l := by
  obtain ⟨s,step,rfl⟩ := under_cases taken
  exact ⟨sys ▸ step,worker,frame,exit,top⟩

/-- Every step is one of `Cpus`. -/
theorem next_refines {d : Deed n} (taken : m.next d = some t) : ∃ l, Refines m t d l := by
  have own : ∀ {i : Fin n} {f : Frame} (j : Fin n), (some i : Option (Fin n)) ≠ some j → (m.setFrame i f).frame j = m.frame j := by
    intro i f j other
    have apart : j ≠ i := fun same => other (congrArg some same.symm)
    simp only [setFrame,Function.update_of_ne apart]
  cases d with simp only [next] at taken
  | lockTop i => exact ⟨_,under_refines taken rfl rfl own (fun _ _ => rfl) fun _ same => by cases same; rfl⟩
  | run i exit frame =>
    refine ⟨_,under_refines taken rfl rfl own (fun j other => ?_) nofun⟩
    exact Function.update_of_ne (fun same => other (congrArg some same.symm)) exit m.exit
  | handle i =>
    obtain ⟨_,acts⟩ := Option.ite_none_right_eq_some.mp taken
    generalize dispatch (m.exit i) (m.frame i).regs = action at acts
    cases action with
    | again regs => exact ⟨_,under_refines acts rfl rfl own (fun _ _ => rfl) nofun⟩
    | hypercall call | answer value | access access | fail e =>
      exact ⟨_,under_refines acts rfl rfl (fun _ _ => rfl) (fun _ _ => rfl) nofun⟩
  | setResult i =>
    split at taken
    · exact ⟨_,under_refines taken rfl rfl own (fun _ _ => rfl) nofun⟩
    · cases taken
  | receive i value => exact ⟨_,under_refines taken rfl rfl (fun _ _ => rfl) (fun _ _ => rfl) nofun⟩
  | writeBack i =>
    obtain ⟨_,acts⟩ := Option.ite_none_right_eq_some.mp taken
    split at acts
    · exact ⟨_,under_refines acts rfl rfl own (fun _ _ => rfl) nofun⟩
    · exact ⟨_,under_refines acts rfl rfl (fun _ _ => rfl) (fun _ _ => rfl) nofun⟩
  | other l =>
    obtain ⟨plain,acts⟩ := Option.ite_none_right_eq_some.mp taken
    refine ⟨l,under_refines acts rfl rfl (fun _ _ => rfl) (fun _ _ => rfl) ?_⟩
    rintro i rfl
    cases plain

end Host

/-- The power of a vCPU is turned on by its own worker. -/
theorem Does.power_other {s t : Sys n} {l : Label n} (does : Does s l t) {i : Fin n} (other : l.worker ≠ some i)
    (on : t.shared.power i = .on) : s.shared.power i = .on := by
  have kept : ∀ {j : Fin n} {p : Power}, (p = .on → j ≠ i) → Function.update s.shared.power j p i = .on →
      s.shared.power i = .on := by
    intro j p differs updated
    by_cases same : i = j
    · subst same
      rw [Function.update_self] at updated
      exact absurd rfl (differs updated)
    · rwa [Function.update_of_ne same] at updated
  cases does with
  | boots j entry context before going started power =>
    refine kept (fun _ same => ?_) on
    exact other (congrArg some same)
  | powersOn j k entry context before power => exact kept (fun no => by cases no) on
  | powersOff j before => exact kept (fun no => by cases no) on
  | starts entry dtb first => exact kept (fun no => by cases no) on
  | _ => exact on

theorem Does.boots_kept {s t : Sys n} {l : Label n} (does : Does s l t) (other : ∀ i, l ≠ .lockTop i) : t.boots = s.boots := by
  cases does with
  | boots i entry context before going started power => exact absurd rfl (other i)
  | _ => rfl

def Host.Turns (m t : Host n) (d : Deed n) (i : Fin n) : Prop :=
  ∀ ps place, Stays i ps place → Tracks (m.exit i) (m.frame i) (m.sys.shared.power i) (m.sys.pc i) place →
    ∃ place', Stays i (ps ++ (m.passages t d).filter fun p => decide (p.target = i)) place' ∧
      Tracks (t.exit i) (t.frame i) (t.sys.shared.power i) (t.sys.pc i) place'

namespace Host

variable {m t : Host n} {i : Fin n}

theorem turns_silent {d : Deed n} (none : m.passages t d = [])
    (tracks : ∀ place, Tracks (m.exit i) (m.frame i) (m.sys.shared.power i) (m.sys.pc i) place →
      Tracks (t.exit i) (t.frame i) (t.sys.shared.power i) (t.sys.pc i) place) : Turns m t d i := by
  intro ps place stays before
  refine ⟨place,?_,tracks place before⟩
  rw [none]
  simpa using stays

theorem tracks_power {exit : Exit} {frame : Frame} {p q : Power} {pc : Pc} {place : Place} (tracks : Tracks exit frame p pc place)
    (on : q = .on → p = .on) : Tracks exit frame q pc place := by
  cases tracks with
  | guest => exact .guest
  | exited => exact .exited
  | decode => exact .decode
  | calling handled => exact .calling handled
  | result reason kind returns => exact .result reason kind returns
  | exchange inside reason kind described => exact .exchange inside reason kind described
  | top outside resumes => exact .top outside fun now => resumes (on now)
  | ended ended => exact .ended ended

theorem passages_other {d : Deed n} (other : d.worker ≠ some i) :
    (m.passages t d).filter (fun p => decide (p.target = i)) = [] := by
  have apart : ∀ {j : Fin n}, d.worker = some j → j ≠ i := fun own same => other (same ▸ own)
  cases d with
  | lockTop j =>
    simp only [passages]
    split
    · split <;> simp [Passage.target,apart rfl]
    · rfl
  | run j exit frame => simp [passages,Passage.target,apart rfl]
  | _ => rfl

theorem turns_other {d : Deed n} {l : Label n} (refines : Refines m t d l) (other : d.worker ≠ some i) : Turns m t d i := by
  intro ps place stays before
  have apart : l.worker ≠ some i := by rwa [refines.worker]
  have does := next_does refines.step
  refine ⟨place,?_,?_⟩
  · rw [passages_other other,List.append_nil]
    exact stays
  · rw [refines.exit i other,refines.frame i other,does.pc_other apart]
    exact tracks_power before (does.power_other apart)

/-- The loop top waits or ends, boots a pending vCPU, or enters the guest again. -/
inductive PassesTop (s : Sys n) (i : Fin n) (t : Sys n) : Prop
  | outside (pc : t.pc i = .returned ∨ t.pc i = .top) (power : t.shared.power i = s.shared.power i)
    (quiet : ∀ entry context, s.shared.power i = .pending entry context → s.shared.waiting = true) : PassesTop s i t
  | boots (entry context : Nat) (pc : t.pc i = .guest) (power : s.shared.power i = .pending entry context)
    (ready : s.shared.waiting = false) : PassesTop s i t
  | enters (pc : t.pc i = .guest) (power : s.shared.power i = .on) : PassesTop s i t

theorem lockTop_passes (s : Sys n) (i : Fin n) : PassesTop s i (s.lockTop i) := by
  unfold Sys.lockTop
  split
  · rename_i stop
    exact .outside (Or.inl (s.goto_self i .returned)) rfl fun _ _ _ => by simp [State.waiting,stop]
  · rename_i going
    split
    · rename_i held
      refine .outside (Or.inr (s.goto_self i .top)) rfl fun entry context power => ?_
      have waits : s.shared.started = false ∨ s.shared.paused = true := by simpa [power] using held
      rcases waits with unstarted | paused
      · simp [State.waiting,unstarted]
      · simp [State.waiting,paused]
    · rename_i ready
      split
      · rename_i entry context power
        refine .boots entry context (s.goto_self i .guest) power ?_
        simp only [Bool.or_eq_true,not_or,Bool.not_eq_true] at ready going
        simp [State.waiting,going,ready.1.1,ready.1.2]
      · rename_i other
        refine .enters (s.goto_self i .guest) ?_
        cases power : s.shared.power i with
        | off => simp [power] at ready
        | pending entry context => exact absurd power (other entry context)
        | on => rfl

theorem turns_lockTop (taken : m.next (.lockTop i) = some t) : Turns m t (.lockTop i) i := by
  obtain ⟨s,step,rfl⟩ := under_cases taken
  obtain ⟨top,rfl⟩ := guarded step
  simp only [setFrame_sys] at top ⊢
  intro ps place stays before
  rw [top] at before
  obtain ⟨outside,resumes⟩ : place ≠ .inside ∧ (m.sys.shared.power i = .on → ∃ exit g, place = .left exit g ∧
      Resumed exit g.regs (m.frame i).regs ∧ (m.frame i).sctlr = g.sctlr) := by
    cases before with
    | top outside resumes => exact ⟨outside,resumes⟩
    | exchange inside => simp at inside
    | ended ended => cases ended
  cases lockTop_passes m.sys i with
  | outside pc power quiet =>
    refine ⟨place,?_,?_⟩
    · have none : m.passages {m.setFrame i (m.entry i) with sys := m.sys.lockTop i} (.lockTop i) = [] := by
        simp only [passages]
        rcases pc with there | there <;> simp [there]
      rw [none]
      simpa using stays
    · have same : m.entry i = m.frame i := by
        unfold entry
        split
        · rename_i entry context pending
          rw [if_pos (quiet entry context pending)]
        · rfl
      simp only [setFrame,same,power,Function.update_self]
      rcases pc with there | there
      · rw [there]
        exact .ended rfl
      · rw [there]
        exact .top outside resumes
  | boots entry context pc power ready =>
    refine ⟨.inside,?_,?_⟩
    · have one : m.passages {m.setFrame i (m.entry i) with sys := m.sys.lockTop i} (.lockTop i) =
          [.booted i entry context (m.entry i)] := by
        simp only [passages,pc,if_true,power,setFrame,Function.update_self]
      have state : m.entry i = (m.frame i).boot entry context := by simp [Host.entry,power,ready]
      rw [one,state,List.filter_cons_of_pos (by simp [Passage.target]),List.filter_nil]
      exact .booted stays outside (boot_booted (m.frame i) entry context)
    · rw [pc]
      exact .guest
  | enters pc power =>
    obtain ⟨exit,g,rfl,completed,same⟩ := resumes power
    refine ⟨.inside,?_,?_⟩
    · have one : m.passages {m.setFrame i (m.entry i) with sys := m.sys.lockTop i} (.lockTop i) =
          [.resumed i (m.frame i)] := by
        simp only [passages,pc,if_true,power,setFrame,Function.update_self,Host.entry]
      rw [one,List.filter_cons_of_pos (by simp [Passage.target]),List.filter_nil]
      exact .resumed stays completed same
    · rw [pc]
      exact .guest

theorem turns_run {exit : Exit} {frame : Frame} (taken : m.next (.run i exit frame) = some t) :
    Turns m t (.run i exit frame) i := by
  obtain ⟨s,step,rfl⟩ := under_cases taken
  obtain ⟨guest,rfl⟩ := guarded step
  simp only [setFrame_sys] at guest ⊢
  intro ps place stays before
  rw [guest] at before
  cases before with
  | exchange inside => simp at inside
  | ended ended => cases ended
  | guest =>
    refine ⟨.left exit frame,?_,?_⟩
    · have one : (m.passages {({m with exit := Function.update m.exit i exit}.setFrame i frame) with
          sys := m.sys.goto i .exited} (.run i exit frame)).filter (fun p => decide (p.target = i)) = [.left i exit frame] := by
        simp [passages,Passage.target]
      exact one ▸ .left stays
    · simp only [setFrame,Function.update_self,Sys.goto_self]
      exact .exited

theorem decode_left {exit : Exit} {frame : Frame} {power : Power} {place : Place}
    (tracks : Tracks exit frame power .decode place) : place = .left exit frame := by
  cases tracks with
  | decode => rfl
  | exchange inside => simp at inside
  | ended ended => cases ended

theorem turns_handle (taken : m.next (.handle i) = some t) : Turns m t (.handle i) i := by
  obtain ⟨decode,acts⟩ := Option.ite_none_right_eq_some.mp taken
  refine turns_silent rfl fun place before => ?_
  rw [decode] at before
  obtain rfl := decode_left before
  generalize handled : dispatch (m.exit i) (m.frame i).regs = action at acts
  cases action with
  | again regs =>
    obtain ⟨s,step,rfl⟩ := under_cases acts
    obtain ⟨_,rfl⟩ := guarded step
    simp only [setRegs,setFrame,Function.update_self,Sys.goto_self]
    exact .top (by simp) fun _ => ⟨_,_,rfl,dispatch_again handled,rfl⟩
  | hypercall call =>
    obtain ⟨s,step,rfl⟩ := under_cases acts
    obtain ⟨_,rfl⟩ := guarded step
    simp only [Sys.goto_self]
    exact .calling handled
  | answer value =>
    obtain ⟨s,step,rfl⟩ := under_cases acts
    obtain ⟨_,rfl⟩ := guarded step
    obtain ⟨reason,kind,answers⟩ := dispatch_called handled (Or.inl ⟨value,rfl⟩)
    simp only [Sys.goto_self]
    exact .result reason kind (.answer answers)
  | access access =>
    obtain ⟨s,step,rfl⟩ := under_cases acts
    obtain ⟨_,rfl⟩ := guarded step
    obtain ⟨reason,kind,described⟩ := dispatch_access handled
    simp only [Sys.goto_self]
    exact .exchange (Or.inl rfl) reason kind described
  | fail e =>
    obtain ⟨s,step,rfl⟩ := under_cases acts
    obtain ⟨_,rfl⟩ := guarded step
    simp only [Sys.goto_self]
    exact .ended rfl

theorem turns_setResult (taken : m.next (.setResult i) = some t) : Turns m t (.setResult i) i := by
  simp only [Host.next] at taken
  split at taken
  · rename_i value here
    obtain ⟨s,step,rfl⟩ := under_cases taken
    simp only [Sys.next,setRegs_sys,here,Option.some.injEq] at step
    subst step
    refine turns_silent rfl fun place before => ?_
    rw [here] at before
    cases before with
    | exchange inside => simp at inside
    | ended ended => cases ended
    | result reason kind returns =>
      simp only [setRegs,setFrame,Function.update_self,Sys.goto_self]
      exact .top (by simp) fun _ => ⟨_,_,rfl,.called value reason kind returns,rfl⟩
  · cases taken

theorem turns_receive {value : BitVec 64} (taken : m.next (.receive i value) = some t) : Turns m t (.receive i value) i := by
  obtain ⟨s,step,rfl⟩ := under_cases taken
  obtain ⟨awaiting,rfl⟩ := guarded step
  refine turns_silent rfl fun place before => ?_
  change m.sys.pc i = .awaiting at awaiting
  rw [awaiting] at before
  simp only [Sys.goto_self]
  cases before with
  | ended ended => cases ended
  | exchange inside reason kind described => exact .exchange (by simp) reason kind described

theorem turns_writeBack (taken : m.next (.writeBack i) = some t) : Turns m t (.writeBack i) i := by
  obtain ⟨here,acts⟩ := Option.ite_none_right_eq_some.mp taken
  refine turns_silent rfl fun place before => ?_
  rw [here] at before
  obtain ⟨rfl,reason,kind,described⟩ : place = .left (m.exit i) (m.frame i) ∧ (m.exit i).reason = 1 ∧
      class_ (m.exit i).syndrome = 0x24 ∧ Abort.valid (m.exit i).syndrome = true := by
    cases before with
    | ended ended => cases ended
    | exchange inside reason kind described => exact ⟨rfl,reason,kind,described⟩
  split at acts
  · rename_i regs retired
    obtain ⟨s,step,rfl⟩ := under_cases acts
    obtain ⟨_,rfl⟩ := guarded step
    simp only [setRegs,setFrame,Function.update_self,Sys.goto_self]
    exact .top (by simp) fun _ => ⟨_,_,rfl,.accessed (m.reply i) reason kind described retired,rfl⟩
  · obtain ⟨s,step,rfl⟩ := under_cases acts
    obtain ⟨_,rfl⟩ := guarded step
    simp only [Sys.goto_self]
    exact .ended rfl

/-- CPU_ON and AFFINITY_INFO return one of their codes. -/
theorem on_code (s : State n) (target entry context : Nat) :
    (s.on target entry context).1 ∈ (Hypercall.cpuOn target entry context).codes := by
  have outcome := s.on_cases target entry context
  generalize s.on target entry context = answer at outcome ⊢
  cases outcome <;> simp [Hypercall.codes]

theorem affinity_code (s : State n) (target level : Nat) :
    s.affinity target level ∈ (Hypercall.affinityInfo target level).codes := by
  unfold State.affinity
  repeat' split
  all_goals simp [Hypercall.codes]

theorem enter_tracks {exit : Exit} {frame : Frame} {call : Hypercall} (handled : dispatch exit frame.regs = .hypercall call)
    (s : Sys n) : Tracks exit frame ((s.enter i call).shared.power i) ((s.enter i call).pc i) (.left exit frame) := by
  obtain ⟨reason,kind,calls⟩ := dispatch_called handled (Or.inr ⟨call,rfl⟩)
  have answers : ∀ {value power}, value ∈ call.codes → Tracks exit frame power (.result value) (.left exit frame) :=
    fun code => .result reason kind (.call calls code)
  cases call with
  | cpuOff =>
    simp only [Sys.enter,Sys.goto_self]
    exact .top (by simp) fun on => by simp [State.setPower] at on
  | cpuOn target entry context =>
    simp only [Sys.enter,Sys.goto_self]
    exact answers (on_code s.shared target entry context)
  | affinityInfo target level =>
    simp only [Sys.enter,Sys.goto_self]
    exact answers (affinity_code s.shared target level)
  | systemOff =>
    simp only [Sys.enter,Sys.goto_self]
    exact .ended rfl

/-- The steps of a worker that touch no register. -/
theorem plain_tracks {l : Label n} {s : Sys n} {exit : Exit} {frame : Frame} {place : Place} (plain : l.plain = true)
    (own : l.worker = some i) (step : m.sys.next l = some s)
    (before : Tracks exit frame (m.sys.shared.power i) (m.sys.pc i) place) :
    Tracks exit frame (s.shared.power i) (s.pc i) place := by
  cases l with simp only [Sys.next] at step
  | lockTop j | exit j | again j | hypercall j call | answer j value | setResult j | access j | receive j | writeBack j =>
    cases plain
  | start entry dtb | pause | pauseDone | resume | stop => cases own
  | bootFails j =>
    cases own
    split at step
    · obtain ⟨_,rfl⟩ := guarded step
      simp only [Sys.goto_self]
      exact .ended rfl
    · cases step
  | check j =>
    cases own
    obtain ⟨here,rfl⟩ := guarded step
    rw [here] at before
    simp only [Sys.goto_self]
    cases before with
    | exchange inside => simp at inside
    | ended ended => cases ended
    | exited =>
      split
      · exact .ended rfl
      · exact .decode
  | enter j =>
    cases own
    split at step
    · rename_i call here
      cases step
      rw [here] at before
      cases before with
      | exchange inside => simp at inside
      | ended ended => cases ended
      | calling handled => exact enter_tracks handled m.sys
    · cases step
  | waitIo j =>
    cases own
    obtain ⟨here,rfl⟩ := guarded step
    rw [here] at before
    simp only [Sys.goto_self]
    cases before with
    | ended ended => cases ended
    | exchange inside reason kind described => exact .exchange (by simp) reason kind described
  | completeIo j =>
    cases own
    split at step
    · rename_i here
      rw [here] at before
      unfold Sys.completeIo at step
      split at step
      · cases step
        simp only [Sys.goto_self]
        exact .ended rfl
      · split at step
        · cases step
        · cases step
          simp only [Sys.goto_self]
          cases before with
          | ended ended => cases ended
          | exchange inside reason kind described => exact .exchange (by simp) reason kind described
    · cases step
  | cancelled j | fail j | leave j | destroy j =>
    cases own
    obtain ⟨_,rfl⟩ := guarded step
    simp only [Sys.goto_self]
    exact .ended rfl

theorem turns_next {d : Deed n} (taken : m.next d = some t) (i : Fin n) : Turns m t d i := by
  by_cases own : d.worker = some i
  · cases d with
    | lockTop j =>
      cases own
      exact turns_lockTop taken
    | run j exit frame =>
      cases own
      exact turns_run taken
    | handle j =>
      cases own
      exact turns_handle taken
    | setResult j =>
      cases own
      exact turns_setResult taken
    | receive j value =>
      cases own
      exact turns_receive taken
    | writeBack j =>
      cases own
      exact turns_writeBack taken
    | other l =>
      obtain ⟨plain,acts⟩ := Option.ite_none_right_eq_some.mp taken
      obtain ⟨s,step,rfl⟩ := under_cases acts
      exact turns_silent rfl fun place before => plain_tracks plain own step before
  · obtain ⟨l,refines⟩ := next_refines taken
    exact turns_other refines own

/-- The boots of `Cpus` are the passages that boot. -/
theorem next_boots {d : Deed n} (taken : m.next d = some t) :
    t.sys.boots = m.sys.boots ++ (m.passages t d).filterMap Passage.asBoot := by
  obtain ⟨l,refines⟩ := next_refines taken
  cases d with
  | lockTop i =>
    obtain ⟨s,step,rfl⟩ := under_cases taken
    obtain ⟨_,rfl⟩ := guarded step
    have boots := lockTop_cases m.sys i
    simp only [setFrame_sys,passages]
    cases lockTop_passes m.sys i with
    | outside pc power quiet =>
      rcases boots with ⟨_,_,kept⟩ | ⟨entry,context,one,pending,_⟩
      · rcases pc with there | there <;> simp [there,kept]
      · simp [Sys.powers,pending,quiet entry context pending] at one
    | boots entry context pc power ready =>
      simp only [pc,if_true,power]
      rcases boots with ⟨none,_⟩ | ⟨entry',context',one,pending,_,booted⟩
      · simp [Sys.powers,power,ready] at none
      · cases power.symm.trans pending
        simpa [Passage.asBoot] using booted
    | enters pc power =>
      simp only [pc,if_true,power]
      rcases boots with ⟨_,_,kept⟩ | ⟨entry,context,_,pending,_⟩
      · exact kept.trans (List.append_nil _).symm
      · cases power.symm.trans pending
  | _ =>
    have kept := (next_does refines.step).boots_kept fun i same => by cases refines.top i same
    rw [kept]
    simp [passages,Passage.asBoot]

end Host

section Runs
variable {frames : Fin n → Frame} {exits : Fin n → Exit} {replies : Fin n → BitVec 64} {h : List (Passage n)} {m : Host n}

theorem Seen.reaches (seen : Seen frames exits replies h m) : Reaches (Takes Sys.next) (Sys.new n) m.sys := by
  induction seen with
  | new => exact .refl
  | step _ taken ih =>
    obtain ⟨l,refines⟩ := Host.next_refines taken
    exact ih.tail l refines.step

theorem Seen.tracks (seen : Seen frames exits replies h m) (i : Fin n) :
    ∃ place, Stays i (h.filter fun p => decide (p.target = i)) place ∧
      Tracks (m.exit i) (m.frame i) (m.sys.shared.power i) (m.sys.pc i) place := by
  induction seen with
  | new => exact ⟨.fresh,.fresh,.top (by simp) fun on => by cases on⟩
  | step _ taken ih =>
    obtain ⟨place,stays,tracks⟩ := ih
    rw [List.filter_append]
    exact Host.turns_next taken i _ place stays tracks

theorem Seen.boots (seen : Seen frames exits replies h m) : m.sys.boots = h.filterMap Passage.asBoot := by
  induction seen with
  | new => rfl
  | step _ taken ih => rw [Host.next_boots taken,ih,List.filterMap_append]

end Runs

/-- A retired instruction moves `pc` past it and nothing else. -/
theorem advance_value {regs after : Registers} (retired : advance regs = some after) :
    (after PC).toNat = (regs PC).toNat + 4 ∧ ∀ reg, reg ≠ PC → after reg = regs reg := by
  obtain ⟨fits,rfl⟩ := Option.ite_none_right_eq_some.mp retired |>.imp id Option.some.inj
  refine ⟨?_,fun reg other => Function.update_of_ne other _ _⟩
  rw [Function.update_self,BitVec.toNat_add]
  exact Nat.mod_eq_of_lt fits

def destination (exit : Exit) : Option Nat :=
  if exit.reason = 0 then none
  else if class_ exit.syndrome = 0x16 then some 0
  else if class_ exit.syndrome = 0x24 then
    if Abort.write exit.syndrome || Abort.reg exit.syndrome == 31 then none else some (Abort.reg exit.syndrome)
  else if class_ exit.syndrome = 0x18 then
    if reads exit.syndrome && rt exit.syndrome != 31 then some (rt exit.syndrome) else none
  else none

/-- Completing an exit touches its destination and `pc`, and moves `pc` past the
instruction unless the run was cancelled or the guest made a call. -/
theorem Resumed.frame {exit : Exit} {regs after : Registers} (resumed : Resumed exit regs after) :
    (∀ reg, reg ≠ PC → destination exit ≠ some reg → after reg = regs reg) ∧
    (after PC).toNat = (regs PC).toNat + (if exit.reason = 0 ∨ class_ exit.syndrome = 0x16 then 0 else 4) := by
  cases resumed with
  | cancelled reason => exact ⟨fun _ _ _ => rfl,by simp [reason]⟩
  | called value reason kind returns =>
    refine ⟨fun reg _ other => ?_,?_⟩
    · have differs : reg ≠ 0 := fun same => other (by simp [destination,reason,kind,same])
      rw [Function.update_of_ne differs]
    · rw [Function.update_of_ne (by decide),if_pos (Or.inr kind),Nat.add_zero]
  | accessed value reason kind described retired =>
    obtain ⟨pc,kept⟩ := advance_value retired
    have unwritten : ∀ reg, (reg = PC ∨ destination exit ≠ some reg) →
        Abort.writeBack exit.syndrome value regs reg = regs reg := by
      intro reg beside
      unfold Abort.writeBack
      split
      · rename_i writes
        simp only [Bool.and_eq_true,Bool.not_eq_true',bne_iff_ne] at writes
        refine Function.update_of_ne (fun same => ?_) _ _
        rcases beside with rfl | beside
        · exact writes.2 same.symm
        · exact beside (by simp [destination,reason,kind,writes.1,writes.2,same])
      · rfl
    refine ⟨fun reg other beside => (kept reg other).trans (unwritten reg (Or.inr beside)),?_⟩
    rw [pc,unwritten PC (Or.inl rfl),if_neg (by simp [reason,kind])]
  | trapped reason kind known retired =>
    obtain ⟨pc,kept⟩ := advance_value retired
    generalize cleared : (if reads exit.syndrome && rt exit.syndrome != 31 then
      Function.update regs (rt exit.syndrome) 0 else regs) = middle at pc kept
    have unwritten : ∀ reg, (reg = PC ∨ destination exit ≠ some reg) → middle reg = regs reg := by
      intro reg beside
      subst cleared
      split
      · rename_i writes
        refine Function.update_of_ne (fun same => ?_) _ _
        rcases beside with rfl | beside
        · exact absurd writes (by simp [← same,PC])
        · exact beside (by simp [destination,reason,kind,writes,same])
      · rfl
    refine ⟨fun reg other beside => (kept reg other).trans (unwritten reg (Or.inr beside)),?_⟩
    rw [pc,unwritten PC (Or.inl rfl),if_neg (by simp [reason,kind])]
  | waited reason kind retired =>
    obtain ⟨pc,kept⟩ := advance_value retired
    refine ⟨fun reg other _ => kept reg other,?_⟩
    rw [pc,if_neg (by simp [reason,kind])]

def Passage.inward : Passage n → Bool
  | .booted _ _ _ _ | .resumed _ _ => true
  | .left _ _ _ => false

namespace Stays

variable {i : Fin n} {ps qs : List (Passage n)} {place : Place}

theorem before (stays : Stays i (ps ++ qs) place) : ∃ place', Stays i ps place' := by
  induction qs using List.reverseRecOn generalizing place with
  | nil => exact ⟨place,by simpa using stays⟩
  | append_singleton rest last ih =>
    rw [← List.append_assoc] at stays
    generalize same : ps ++ rest ++ [last] = all at stays
    cases stays with
    | fresh => simp at same
    | booted before outside state => exact ih ((List.append_inj' same rfl).1 ▸ before)
    | resumed before completed kept => exact ih ((List.append_inj' same rfl).1 ▸ before)
    | left before => exact ih ((List.append_inj' same rfl).1 ▸ before)

theorem last_left {exit : Exit} {f : Frame} (stays : Stays i ps (.left exit f)) : ps.getLast? = some (.left i exit f) := by
  cases stays with
  | left before => simp

theorem last_inside (stays : Stays i ps .inside) : ∃ p, ps.getLast? = some p ∧ p.inward = true := by
  cases stays with
  | booted before outside state => exact ⟨_,List.getLast?_concat,rfl⟩
  | resumed before completed kept => exact ⟨_,List.getLast?_concat,rfl⟩

theorem last_outside (stays : Stays i ps place) (outside : place ≠ .inside) : ∀ p, ps.getLast? = some p → p.inward = false := by
  intro p last
  cases stays with
  | fresh => cases last
  | booted before _ state => exact absurd rfl outside
  | resumed before completed kept => exact absurd rfl outside
  | left before =>
    rw [List.getLast?_concat] at last
    cases last
    rfl

theorem of_resumed {g : Frame} (stays : Stays i (ps ++ [.resumed i g]) place) :
    ∃ exit f, Stays i ps (.left exit f) ∧ Resumed exit f.regs g.regs ∧ g.sctlr = f.sctlr := by
  generalize same : ps ++ [.resumed i g] = all at stays
  cases stays with
  | fresh => simp at same
  | booted before outside state => cases (List.append_inj' same rfl).2
  | left before => cases (List.append_inj' same rfl).2
  | resumed before completed kept =>
    obtain ⟨rfl,last⟩ := List.append_inj' same rfl
    cases last
    exact ⟨_,_,before,completed,kept⟩

theorem of_booted {entry context : Nat} {g : Frame} (stays : Stays i (ps ++ [.booted i entry context g]) place) :
    Booted entry context g ∧ ∃ earlier, earlier ≠ .inside ∧ Stays i ps earlier := by
  generalize same : ps ++ [.booted i entry context g] = all at stays
  cases stays with
  | fresh => simp at same
  | resumed before completed kept => cases (List.append_inj' same rfl).2
  | left before => cases (List.append_inj' same rfl).2
  | booted before outside state =>
    obtain ⟨rfl,last⟩ := List.append_inj' same rfl
    cases last
    exact ⟨state,_,outside,before⟩

theorem of_left {exit : Exit} {f : Frame} (stays : Stays i (ps ++ [.left i exit f]) place) : Stays i ps .inside := by
  generalize same : ps ++ [.left i exit f] = all at stays
  cases stays with
  | fresh => simp at same
  | booted before outside state => cases (List.append_inj' same rfl).2
  | resumed before completed kept => cases (List.append_inj' same rfl).2
  | left before => exact (List.append_inj' same rfl).1 ▸ before

end Stays

def ofVcpu (i : Fin n) (h : List (Passage n)) : List (Passage n) := h.filter fun p => decide (p.target = i)

theorem ofVcpu_split {i : Fin n} {h before after : List (Passage n)} {p : Passage n} (split : h = before ++ p::after)
    (own : p.target = i) : ofVcpu i h = (ofVcpu i before ++ [p]) ++ ofVcpu i after := by
  simp [ofVcpu,split,own]

/-- Where a vCPU stands after one of its passages. -/
theorem Seen.ends {frames : Fin n → Frame} {exits : Fin n → Exit} {replies : Fin n → BitVec 64} {h before after : List (Passage n)}
    {m : Host n} (seen : Seen frames exits replies h m) {i : Fin n} {p : Passage n} (split : h = before ++ p::after)
    (own : p.target = i) : ∃ place, Stays i (ofVcpu i before ++ [p]) place := by
  obtain ⟨place,stays,_⟩ := seen.tracks i
  change Stays i (ofVcpu i h) place at stays
  rw [ofVcpu_split split own] at stays
  exact stays.before

/-- Exits are completed once, along every run of the workers with their registers, which
refine those of `Cpus`. A vCPU goes on in the guest only after an exit that was its last
passage, with the registers as it left them save for what that exit calls for: the result
of a call in `x0`, the value loaded, zero from an OS debug register, and `pc` past the
instruction unless the run was cancelled or the guest made a call. Otherwise it enters by
a boot recorded in `Cpus`, in the state that the power-on promises; and it leaves only
what it entered. -/
theorem exits_completed {frames : Fin n → Frame} {exits : Fin n → Exit} {replies : Fin n → BitVec 64} {h : List (Passage n)}
    {m : Host n} (seen : Seen frames exits replies h m) :
    Reaches (Takes Sys.next) (Sys.new n) m.sys ∧ m.sys.boots = h.filterMap Passage.asBoot ∧
    (∀ before i g after, h = before ++ .resumed i g::after → ∃ exit f, (ofVcpu i before).getLast? = some (.left i exit f) ∧
      Resumed exit f.regs g.regs ∧ g.sctlr = f.sctlr ∧
      (∀ reg, reg ≠ PC → destination exit ≠ some reg → g.regs reg = f.regs reg) ∧
      (g.regs PC).toNat = (f.regs PC).toNat + if exit.reason = 0 ∨ class_ exit.syndrome = 0x16 then 0 else 4) ∧
    (∀ before i entry context g after, h = before ++ .booted i entry context g::after → Booted entry context g ∧
      ∀ p, (ofVcpu i before).getLast? = some p → p.inward = false) ∧
    ∀ before i exit f after, h = before ++ .left i exit f::after →
      ∃ p, (ofVcpu i before).getLast? = some p ∧ p.inward = true := by
  refine ⟨seen.reaches,seen.boots,?_,?_,?_⟩
  · intro before i g after split
    obtain ⟨place,stays⟩ := seen.ends (i := i) split rfl
    obtain ⟨exit,f,earlier,completed,kept⟩ := stays.of_resumed
    exact ⟨exit,f,earlier.last_left,completed,kept,completed.frame⟩
  · intro before i entry context g after split
    obtain ⟨place,stays⟩ := seen.ends (i := i) split rfl
    obtain ⟨state,place,outside,earlier⟩ := stays.of_booted
    exact ⟨state,earlier.last_outside outside⟩
  · intro before i exit f after split
    obtain ⟨place,stays⟩ := seen.ends (i := i) split rfl
    exact stays.of_left.last_inside

def Host.log (d : Deed n) (seen : List (Passage n) × Host n) : Option (List (Passage n) × Host n) :=
  (seen.2.next d).map fun t => (seen.1 ++ seen.2.passages t d,t)

theorem seen_run {frames : Fin n → Frame} {exits : Fin n → Exit} {replies : Fin n → BitVec 64} (deeds : List (Deed n))
    {u v : List (Passage n) × Host n} (before : Seen frames exits replies u.1 u.2) (ran : run Host.log deeds u = some v) :
    Seen frames exits replies v.1 v.2 := by
  let logged : List (Passage n) × Host n → Prop := fun v => Seen frames exits replies v.1 v.2
  have start : logged u := before
  have last : logged v := (reaches_of_run deeds ran).invariant start fun s d t seen taken => by
    obtain ⟨m,step,rfl⟩ := Option.map_eq_some_iff.mp taken
    exact seen.step step
  exact last

def blank : Frame := ⟨fun _ => 0,0⟩

def loadExit : Exit := ⟨1,0x24#64 <<< 26 ||| 1#64 <<< 24 ||| 2#64 <<< 16,0x8000⟩

/-- A vCPU boots, loads a byte from a device and goes on. -/
def loadDeeds (i : Fin 1) : List (Deed 1) :=
  [.other (.start 0x8000 7),.lockTop i,.run i loadExit blank,.other (.check i),.handle i,.other (.waitIo i),.receive i 0x1ff,
    .other (.completeIo i),.writeBack i,.lockTop i]

theorem exits_completed_load : ∃ (h : List (Passage 1)) (m : Host 1), Seen (fun _ => blank) (fun _ => loadExit) (fun _ => 0) h m ∧
    m.sys.boots = [(0,0x8000,7)] ∧ (m.frame 0).regs 2 = 0x1ff ∧ (m.frame 0).regs PC = 4 ∧
    h.filterMap Passage.asBoot = [(0,0x8000,7)] := by
  obtain ⟨v,ran,boots,loaded,pc⟩ : ∃ v, run Host.log (loadDeeds 0) ([],⟨Sys.new 1,fun _ => blank,fun _ => loadExit,fun _ => 0⟩) =
      some v ∧ v.2.sys.boots = [(0,0x8000,7)] ∧ (v.2.frame 0).regs 2 = 0x1ff ∧ (v.2.frame 0).regs PC = 4 :=
    ⟨_,rfl,rfl,rfl,rfl⟩
  have seen := seen_run (loadDeeds 0) .new ran
  exact ⟨v.1,v.2,seen,boots,loaded,pc,(exits_completed seen).2.1.symm.trans boots⟩

end WVmm.Platform.Cpus
