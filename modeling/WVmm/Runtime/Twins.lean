import WVmm.Runtime.Visits
import WVmm.Devices.Twins

/-! Two machines side by side: the same machine around twin transports. Every step
of one is matched by the same step of the other, with the same calls. -/
namespace WVmm
open Lib.Effect Lib.Simulation Devices Platform

variable {V C B N U : Type} {l : Likeness (Device B N)} {env : Env}

/-- A likeness of device kinds under which memory devices are equal. -/
structure Devices.Likeness.LawfulKinds [BlockStorage B] [NetDevice N] (l : Likeness (Device B N)) (env : Env) :
    Prop extends Likeness.Lawful l env where
  memory : ∀ d, l.alike (.mem d) (.mem d)
  onlyMemory : ∀ d x, l.alike (.mem d) x → x = .mem d
  otherKind : ∀ d x, l.alike x (.mem d) → x = .mem d

structure Bay.Twin (l : Likeness (Device B N)) (b b' : Bay V (Device B N)) : Prop where
  slot : Slot.Twin l b.slot b'.slot
  vm : b'.vm = b.vm

structure Visit.Twin (l : Likeness (Device B N)) (v v' : Visit B N) : Prop where
  device : v'.device = v.device
  operation : v'.operation = v.operation
  before : Slot.Twin l v.before v'.before
  after : Slot.Twin l v.after v'.after

inductive Call.Twin (l : Likeness (Device B N)) : Call C B N → Call C B N → Prop
  | visit {v v' : Visit B N} (twin : Visit.Twin l v v') : Call.Twin l (.visit v) (.visit v')
  | other {call : Call C B N} (plain : ∀ v, call ≠ .visit v) : Call.Twin l call call

structure Runtime.Twin (l : Likeness (Device B N)) (s t : Runtime V C B N U) : Prop where
  devices : List.Forall₂ (Mmio.Twin l) s.devices t.devices
  log : List.Forall₂ (Call.Twin l) s.log t.log
  shape : t = {s with
    devices := t.devices
    strict := s.strict && l.strict
    log := t.log}

def Runtime.Excuses (l : Likeness (Device B N)) (f : Failure Error) : Prop :=
  l.strict = false ∧ ((∃ e : DeviceError, f = .error (.device e) ∧ e.isGuest = true) ∨
    ∃ address width write, f = .error (.runtime (.invalidAccess address width write)))

namespace Bay

theorem onSlot_simulates {α : Type} {excused : Failure DeviceError → Prop}
    {p : Prog (Slot (Device B N)) (Failure DeviceError) α}
    (simulates : Simulates (Slot.Twin l) excused Eq p p) :
    Simulates (Bay.Twin (V := V) l) excused Eq (onSlot p) (onSlot p) :=
  simulates.zoom (fun _ _ twin => twin.slot) (fun _ _ _ _ twin related => ⟨related,twin.vm⟩)

variable [BlockStorage B] [NetDevice N]

/-- Twins are both the same memory device, or neither is one. -/
theorem twin_kind (lawful : l.LawfulKinds env) {m m' : Mmio (Device B N)} (twin : Mmio.Twin l m m') :
    (∃ d, m.device = .mem d ∧ m'.device = .mem d) ∨
      ((∀ d, m.device ≠ .mem d) ∧ ∀ d, m'.device ≠ .mem d) := by
  have alike := twin.device
  by_cases kind : ∃ d, m.device = .mem d
  · obtain ⟨d,kind⟩ := kind
    rw [kind] at alike
    exact .inl ⟨d,kind,lawful.onlyMemory d _ alike⟩
  · refine .inr ⟨fun d same => kind ⟨d,same⟩,fun d same => ?_⟩
    rw [same] at alike
    exact kind ⟨d,lawful.otherKind d _ alike⟩

theorem syncTarget_simulates (lawful : l.LawfulKinds env) (active : Bool) :
    Simulates (Slot.Twin l) l.Excuses Eq (syncTarget active) (syncTarget active) := by
  refine .get (fun s t twin => ?_)
  rcases twin_kind lawful twin.mmio with ⟨d,left,right⟩ | ⟨left,right⟩
  · rw [left,right]
    have adopts : Simulates (Cell.Twin l) l.Excuses Eq
        (Cell.focus .mem d (VirtioMem.syncTarget active)) (Cell.focus .mem d (VirtioMem.syncTarget active)) := by
      intro c c' related
      have same : (⟨d,c'.queues,c'.world,c'.trace⟩ : Cell VirtioMem) = ⟨d,c.queues,c.world,c.trace⟩ := by
        rw [related.queues,related.world,related.trace]
      rw [Cell.focus,Prog.run_zoom,Prog.run_zoom,same,Runtime.syncTarget_cell]
      dsimp only
      split <;> exact .returned rfl ⟨lawful.memory _,rfl,rfl,rfl⟩
    refine .bind (Slot.Twin.onCell adopts) ?_
    rintro changed _ rfl
    cases changed with
    | true => exact Slot.Twin.update (fun _ _ twin => twin.configChanged)
    | false => exact .pure rfl
  · cases kind : s.mmio.device with
    | mem d => exact absurd kind (left d)
    | _ =>
      cases kind' : t.mmio.device with
      | mem d => exact absurd kind' (right d)
      | _ => exact .pure rfl

variable [Mapper V]

theorem process_simulates (lawful : l.LawfulKinds env) (pinned : List (Nat × Nat)) :
    Simulates (Bay.Twin (V := V) l) Never Eq (process env pinned) (process env pinned) := by
  intro b b' twin
  simp only [process,Prog.run_mk]
  rcases twin_kind lawful twin.slot.mmio with ⟨d,left,right⟩ | ⟨left,right⟩
  · have same : (⟨⟨d,b'.slot.mmio.queues,b'.slot.world,b'.slot.trace⟩,b'.vm⟩ : Txn V) =
        ⟨⟨d,b.slot.mmio.queues,b.slot.world,b.slot.trace⟩,b.vm⟩ := by
      rw [twin.slot.mmio.queues,twin.slot.world,twin.slot.trace,twin.vm]
    rw [left,right]
    dsimp only
    rw [same]
    rcases (VirtioMem.process env pinned).run
      (⟨⟨d,b.slot.mmio.queues,b.slot.world,b.slot.trace⟩,b.vm⟩ : Txn V) with ⟨r,t⟩
    have shape := twin.slot.mmio.shape
    have after : Bay.Twin l
        ⟨b.slot.putCell ⟨.mem t.cell.device,t.cell.queues,t.cell.world,t.cell.trace⟩,t.mapper⟩
        ⟨b'.slot.putCell ⟨.mem t.cell.device,t.cell.queues,t.cell.world,t.cell.trace⟩,t.mapper⟩ := by
      refine ⟨⟨⟨lawful.memory _,twin.slot.mmio.rejected,?_⟩,rfl,rfl⟩,rfl⟩
      simp only [Slot.putCell]
      rw [shape]
    cases r with
    | error f => exact .failed after
    | ok a => exact .returned rfl after
  · cases kind : b.slot.mmio.device with
    | mem d => exact absurd kind (left d)
    | _ =>
      cases kind' : b'.slot.mmio.device with
      | mem d => exact absurd kind' (right d)
      | _ => exact .failed twin

/-- Whatever the runtime asks of two twins, they answer alike. -/
theorem perform_simulates (lawful : l.LawfulKinds env) (op : Operation) :
    Simulates (Bay.Twin (V := V) l) l.Excuses Eq (perform env op) (perform env op) := by
  cases op with
  | write offset value => exact onSlot_simulates (Slot.Twin.write lawful.toLawful offset value)
  | poll => exact onSlot_simulates (Slot.Twin.poll lawful.toLawful)
  | sync active => exact onSlot_simulates (syncTarget_simulates lawful active)
  | available => exact onSlot_simulates (Slot.Twin.contained (Cell.Twin.available 0))
  | pinned =>
    refine onSlot_simulates (.get (fun s t twin => ?_))
    rw [twin.mmio.queues]
    exact Slot.Twin.contained (Cell.Twin.onWorld _)
  | process pinned =>
    refine .bind (.capture (process_simulates lawful pinned)) ?_
    rintro r _ rfl
    exact .bind (onSlot_simulates (Slot.Twin.contain r)) (fun _ _ _ => .pure rfl)

end Bay

namespace Runtime

variable {s t : Runtime V C B N U}

namespace Twin

theorem vm (twin : Twin l s t) : t.vm = s.vm := by rw [twin.shape]

theorem layout (twin : Twin l s t) : t.layout = s.layout := by rw [twin.shape]

theorem hasMemory (twin : Twin l s t) : t.hasMemory = s.hasMemory := by rw [twin.shape]

theorem serial (twin : Twin l s t) : t.serial = s.serial := by rw [twin.shape]

theorem world (twin : Twin l s t) : t.world = s.world := by rw [twin.shape]

theorem strict (twin : Twin l s t) : t.strict = (s.strict && l.strict) := by rw [twin.shape]

theorem update (twin : Twin l s t) {f : Runtime V C B N U → Runtime V C B N U}
    (same : ∀ s devices b log, f {s with devices := devices, strict := b, log := log} =
      {f s with devices := devices, strict := b, log := log}) : Twin l (f s) (f t) := by
  have left := same s s.devices s.strict s.log
  have right := same s t.devices (s.strict && l.strict) t.log
  rw [← twin.shape] at right
  refine ⟨?_,?_,?_⟩
  · rw [left,right]
    exact twin.devices
  · rw [left,right]
    exact twin.log
  · rw [right,left]

theorem found (twin : Twin l s t) (k : Nat) :
    (s.devices[k]? = none ∧ t.devices[k]? = none) ∨
      ∃ m m', s.devices[k]? = some m ∧ t.devices[k]? = some m' ∧ Mmio.Twin l m m' := by
  have both := twin.devices
  revert both
  generalize s.devices = left
  generalize t.devices = right
  intro both
  induction both generalizing k with
  | nil => exact .inl ⟨rfl,rfl⟩
  | cons first _ ih =>
    cases k with
    | zero => exact .inr ⟨_,_,rfl,rfl,first⟩
    | succ k => exact ih k

end Twin

theorem replaced (same : ∀ m, Mmio.Twin l m m) (strict : l.strict = true) {k : Nat} {m m' : Mmio (Device B N)}
    (found : s.devices[k]? = some m) (twin : Mmio.Twin l m m') :
    Twin l s {s with devices := s.devices.set k m'} := by
  refine ⟨Devices.forall₂_set same found twin,List.forall₂_same.mpr ?_,?_⟩
  · intro call _
    cases call with
    | visit v => exact .visit ⟨rfl,rfl,⟨same _,rfl,rfl⟩,⟨same _,rfl,rfl⟩⟩
    | _ => exact .other (fun _ => nofun)
  · simp only [strict,Bool.and_true]

theorem update_simulates {excused : Failure Error → Prop} {f : Runtime V C B N U → Runtime V C B N U}
    (same : ∀ s devices b log, f {s with devices := devices, strict := b, log := log} =
      {f s with devices := devices, strict := b, log := log}) :
    Simulates (Twin l) excused Eq (Prog.modify f) (Prog.modify f) :=
  .modify (fun _ _ twin => twin.update same)

theorem record_simulates {excused : Failure Error → Prop} (call : Call C B N) (plain : ∀ v, call ≠ .visit v) :
    Simulates (Twin (V := V) (U := U) l) excused Eq (record call) (record call) := by
  refine .modify (fun s t twin => ⟨twin.devices,?_,?_⟩)
  · exact List.rel_append twin.log (.cons (.other plain) .nil)
  · rw [twin.shape]

theorem device_simulates {excused : Failure Error → Prop} (k : Nat) :
    Simulates (Twin (V := V) (C := C) (U := U) l) excused (Mmio.Twin l) (device k) (device k) := by
  refine .get (fun s t twin => ?_)
  rcases twin.found k with ⟨left,right⟩ | ⟨m,m',left,right,same⟩
  · rw [left,right]
    exact .fail _
  · rw [left,right]
    exact .pure same

theorem visited_twin (twin : Twin l s t) (k : Nat) (op : Operation) {m m' : Mmio (Device B N)}
    (before : Mmio.Twin l m m') {b b' : Bay V (Device B N)} (after : Bay.Twin l b b') :
    Twin l (s.visited k op m b) (t.visited k op m' b') := by
  refine ⟨rel_set twin.devices k after.slot.mmio,?_,?_⟩
  · refine List.rel_append twin.log (.cons (.visit ⟨rfl,rfl,⟨before,twin.world,rfl⟩,after.slot⟩) .nil)
  · simp only [visited,after.vm,after.slot.world]
    rw [twin.shape]

/-- An access that decodes to no register is an error of the strict machine. -/
theorem seen_simulates (strict : Bool) (a : IoAccess C) (decoded : Option Nat) :
    Simulates (Twin (V := V) (U := U) l) (Excuses l) Eq (seen strict a decoded)
      (seen (strict && l.strict) a decoded) := by
  cases decoded with
  | some value => exact .pure rfl
  | none =>
    unfold seen
    cases strict with
    | true =>
      cases mode : l.strict with
      | true => exact .fail _
      | false => exact .excuse ⟨mode,.inr ⟨_,_,_,rfl⟩⟩
    | false =>
      simp only [Bool.false_and,Bool.false_eq_true,if_false]
      split
      · exact .pure rfl
      split
      · exact .pure rfl
      · exact .pure rfl

section Serial
variable [Uart U] {excused : Failure Error → Prop}

theorem uartWrite_simulates (offset : Nat) (value : UInt8) :
    Simulates (Twin l) excused Eq (uartWrite offset value : Prog (Runtime V C B N U) _ _)
      (uartWrite offset value) := by
  refine .get (fun s t twin => ?_)
  rw [twin.serial]
  refine .bind (update_simulates (fun _ _ _ _ => rfl)) (fun _ _ _ => ?_)
  exact .bind (record_simulates _ (fun _ => nofun)) (fun _ _ _ => .ofExcept _)

theorem uartRead_simulates (offset : Nat) :
    Simulates (Twin l) excused Eq (uartRead offset : Prog (Runtime V C B N U) _ _) (uartRead offset) := by
  refine .get (fun s t twin => ?_)
  rw [twin.serial]
  refine .bind (update_simulates (fun _ _ _ _ => rfl)) (fun _ _ _ => ?_)
  exact .bind (record_simulates _ (fun _ => nofun)) (fun _ _ _ => .pure rfl)

theorem uartValue_simulates (offset : Nat) (a : IoAccess C) :
    Simulates (Twin l) excused Eq (uartValue offset a : Prog (Runtime V C B N U) _ _)
      (uartValue offset a) := by
  unfold uartValue
  split
  · split
    · exact .bind (uartWrite_simulates _ _) (fun _ _ _ => .pure rfl)
    · refine .bind (uartRead_simulates _) ?_
      rintro value _ rfl
      exact .pure rfl
  · exact .pure rfl

end Serial

section Devices
variable [Mapper V] [BlockStorage B] [NetDevice N]

theorem visit_simulates (lawful : l.LawfulKinds env) (k : Nat) (op : Operation) :
    Simulates (Twin (V := V) (C := C) (U := U) l) (Excuses l) Eq (visit env k op) (visit env k op) := by
  intro s t twin
  simp only [visit,Prog.run_mk]
  rcases twin.found k with ⟨left,right⟩ | ⟨m,m',left,right,same⟩
  · rw [left,right]
    exact .failed twin
  · rw [left,right]
    have performed := Bay.perform_simulates lawful op ⟨⟨m,s.world,[]⟩,s.vm⟩ ⟨⟨m',t.world,[]⟩,t.vm⟩
      ⟨⟨same,twin.world,rfl⟩,twin.vm⟩
    dsimp only
    generalize (Bay.perform env op).run ⟨⟨m,s.world,[]⟩,s.vm⟩ = outcome at performed ⊢
    generalize (Bay.perform env op).run ⟨⟨m',t.world,[]⟩,t.vm⟩ = outcome' at performed ⊢
    cases performed with
    | excused allowed =>
      obtain ⟨lenient,e,rfl,guest⟩ := allowed
      exact .excused ⟨lenient,.inl ⟨e,rfl,guest⟩⟩
    | failed after => exact .failed (visited_twin twin k op same after)
    | returned equal after =>
      cases equal
      exact .returned rfl (visited_twin twin k op same after)

end Devices

section Platform
variable [VirtualMachine V C] {excused : Failure Error → Prop}

theorem setIrq_simulates (irq : Nat) (level : Bool) :
    Simulates (Twin (V := V) (U := U) l) excused Eq (setIrq irq level) (setIrq irq level) := by
  refine .get (fun s t twin => ?_)
  rw [twin.vm]
  refine .bind (update_simulates (fun _ _ _ _ => rfl)) (fun _ _ _ => ?_)
  exact .bind (record_simulates _ (fun _ => nofun)) (fun _ _ _ => .ofExcept _)

theorem completeIo_simulates (completion : C) (value : Nat) :
    Simulates (Twin (V := V) (U := U) l) excused Eq (completeIo completion value)
      (completeIo completion value) := by
  refine .get (fun s t twin => ?_)
  rw [twin.vm]
  refine .bind (update_simulates (fun _ _ _ _ => rfl)) (fun _ _ _ => ?_)
  exact .bind (record_simulates _ (fun _ => nofun)) (fun _ _ _ => .ofExcept _)

theorem pause_simulates :
    Simulates (Twin (V := V) (C := C) (U := U) l) excused Eq pause pause := by
  refine .get (fun s t twin => ?_)
  rw [twin.vm]
  refine .bind (update_simulates (fun _ _ _ _ => rfl)) (fun _ _ _ => ?_)
  refine .bind (record_simulates _ (fun _ => nofun)) (fun _ _ _ => ?_)
  refine .bind (.ofExcept _) ?_
  rintro outcome _ rfl
  split
  · exact .bind (update_simulates (fun _ _ _ _ => rfl)) (fun _ _ _ => .pure rfl)
  · exact .pure rfl

theorem resume_simulates :
    Simulates (Twin (V := V) (C := C) (U := U) l) excused Eq resume resume := by
  refine .get (fun s t twin => ?_)
  rw [twin.vm]
  refine .bind (update_simulates (fun _ _ _ _ => rfl)) (fun _ _ _ => ?_)
  refine .bind (record_simulates _ (fun _ => nofun)) (fun _ _ _ => ?_)
  exact .bind (.ofExcept _) (fun _ _ _ => update_simulates (fun _ _ _ _ => rfl))

theorem setLines_simulates {lines lines' : List (Mmio (Device B N) × IoRegion)}
    (same : List.Forall₂ (fun x y => y.1.interruptPending = x.1.interruptPending ∧ y.2 = x.2) lines lines') :
    Simulates (Twin (V := V) (C := C) (U := U) l) excused Eq (setLines lines) (setLines lines') := by
  induction same with
  | nil => exact .pure rfl
  | @cons x y _ _ first _ ih =>
    obtain ⟨d,region⟩ := x
    obtain ⟨d',region'⟩ := y
    obtain ⟨level,rfl⟩ := first
    unfold setLines
    rw [level]
    exact .bind (setIrq_simulates _ _) (fun _ _ _ => ih)

variable [BlockStorage B] [NetDevice N]

theorem pinDevice_simulates (lawful : l.LawfulKinds env) (k : Nat) :
    Simulates (Twin (V := V) (C := C) (U := U) l) (Excuses l) Eq (pinDevice env k) (pinDevice env k) := by
  refine .bind (device_simulates k) (fun m m' twin => ?_)
  rw [twin.needsReset]
  split
  · exact .pure rfl
  · refine .bind (visit_simulates lawful k .pinned) ?_
    rintro pins _ rfl
    exact .pure rfl

theorem pinDevices_simulates (lawful : l.LawfulKinds env) (indices : List Nat) :
    Simulates (Twin (V := V) (C := C) (U := U) l) (Excuses l) Eq (pinDevices env indices)
      (pinDevices env indices) := by
  induction indices with
  | nil => exact .pure rfl
  | cons k rest ih =>
    refine .bind (pinDevice_simulates lawful k) ?_
    rintro pins _ rfl
    refine .bind ih ?_
    rintro others _ rfl
    exact .pure rfl

theorem processLast_simulates (lawful : l.LawfulKinds env) (last : Nat) (pinned : List (Nat × Nat)) :
    Simulates (Twin (V := V) (C := C) (U := U) l) (Excuses l) Eq (processLast env last pinned)
      (processLast env last pinned) := by
  refine .bind (device_simulates last) (fun m m' twin => ?_)
  rw [twin.needsReset]
  split
  · exact .pure rfl
  · exact visit_simulates lawful last (.process pinned)

theorem transact_simulates (lawful : l.LawfulKinds env) (count last : Nat) :
    Simulates (Twin (V := V) (C := C) (U := U) l) (Excuses l) Eq (transact env count last)
      (transact env count last) := by
  refine .bind (visit_simulates lawful last .available) ?_
  rintro available _ rfl
  split
  · exact .pure rfl
  · refine .bind pause_simulates ?_
    rintro outcome _ rfl
    split
    · exact .pure rfl
    · refine .bind (pinDevices_simulates lawful _) ?_
      rintro pinned _ rfl
      refine .bind (processLast_simulates lawful last pinned) (fun _ _ _ => ?_)
      exact .bind resume_simulates (fun _ _ _ => .pure rfl)

theorem processMemory_simulates (lawful : l.LawfulKinds env) :
    Simulates (Twin (V := V) (C := C) (U := U) l) (Excuses l) Eq (processMemory env)
      (processMemory env) := by
  refine .get (fun s t twin => ?_)
  have count : t.devices.length = s.devices.length := twin.devices.length_eq.symm
  rw [twin.hasMemory,count]
  split
  · exact .pure rfl
  · refine .bind (device_simulates _) (fun m m' same => ?_)
    rw [same.active]
    refine .bind (visit_simulates lawful _ (.sync m.active)) (fun _ _ _ => ?_)
    split
    · exact .pure rfl
    · exact transact_simulates lawful _ _

theorem virtioValue_simulates (lawful : l.LawfulKinds env) (k : Nat) (region : IoRegion) (a : IoAccess C)
    {m m' : Mmio (Device B N)} (twin : Mmio.Twin l m m') :
    Simulates (Twin (V := V) (U := U) l) (Excuses l) Eq (virtioValue env k region a m)
      (virtioValue env k region a m') := by
  unfold virtioValue
  dsimp only
  rw [twin.read lawful.toLawful]
  split
  · exact .pure rfl
  split
  · exact .pure rfl
  split
  · exact .bind (visit_simulates lawful k (.write _ _)) (fun _ _ _ => .pure rfl)
  · exact .pure rfl

theorem virtioAccess_simulates (lawful : l.LawfulKinds env) (k : Nat) (region : IoRegion) (a : IoAccess C) :
    Simulates (Twin (V := V) (U := U) l) (Excuses l) Eq (virtioAccess env k region a)
      (virtioAccess env k region a) := by
  refine .bind (device_simulates k) (fun m m' twin => ?_)
  refine .bind (virtioValue_simulates lawful k region a twin) ?_
  rintro value _ rfl
  refine .bind (device_simulates k) (fun m m' twin => ?_)
  rw [twin.interruptPending]
  exact .pure rfl

variable [Uart U]

theorem access_simulates (lawful : l.LawfulKinds env) (layout : MachineLayout) (a : IoAccess C) :
    Simulates (Twin (V := V) (U := U) l) (Excuses l) Eq (access env layout a) (access env layout a) := by
  unfold access
  split
  · refine .bind (uartValue_simulates _ a) ?_
    rintro value _ rfl
    refine .get (fun s t twin => ?_)
    rw [twin.serial]
    exact .pure rfl
  · split
    · split
      · exact virtioAccess_simulates lawful _ _ a
      · exact .fail _
    · exact .fail _

theorem handleIo_simulates (lawful : l.LawfulKinds env) (a : IoAccess C) :
    Simulates (Twin (V := V) (U := U) l) (Excuses l) Eq (handleIo env a) (handleIo env a) := by
  refine .get (fun s t twin => ?_)
  rw [twin.layout,twin.strict]
  refine .bind (access_simulates lawful s.layout a) ?_
  rintro ⟨decoded,irq,level⟩ _ rfl
  refine .bind (seen_simulates s.strict a decoded) ?_
  rintro value _ rfl
  exact .bind (setIrq_simulates irq level) (fun _ _ _ => completeIo_simulates a.completion value)

/-- Every step of a machine is matched by its twin. -/
theorem step_simulates (lawful : l.LawfulKinds env) (label : Label C) :
    Simulates (Twin (V := V) (U := U) l) (Excuses l) Eq (step env label) (step env label) := by
  cases label with
  | io a => exact handleIo_simulates lawful a
  | poll k => exact visit_simulates lawful k .poll
  | memory => exact .bind (processMemory_simulates lawful) (fun _ _ _ => .pure rfl)
  | uartLine =>
    refine .get (fun s t twin => ?_)
    rw [twin.layout,twin.serial]
    exact setIrq_simulates _ _
  | lines =>
    refine .get (fun s t twin => setLines_simulates ?_)
    rw [twin.layout]
    refine rel_zip twin.devices _ ?_
    intro m m' same region
    exact ⟨same.interruptPending,rfl⟩
  | target requested => exact update_simulates (fun _ _ _ _ => rfl)
  | guest => exact update_simulates (fun _ _ _ _ => rfl)

def steps (env : Env) : List (Label C) → Prog (Runtime V C B N U) (Failure Error) Unit
  | [] => return ()
  | label::rest => do
    step env label
    steps env rest

/-- A whole run is matched by the run of its twin. -/
theorem steps_simulates (lawful : l.LawfulKinds env) (labels : List (Label C)) :
    Simulates (Twin (V := V) (U := U) l) (Excuses l) Eq (steps env labels) (steps env labels) := by
  induction labels with
  | nil => exact .pure rfl
  | cons label rest ih => exact .bind (step_simulates lawful label) (fun _ _ _ => ih)

end Platform
end Runtime
end WVmm
