import WVmm.Devices.MemoryLoop
import WVmm.Devices.DeviceSpec
import WVmm.Runtime.Lines

/-! What the mapper of a running VM holds: the base regions, and exactly the blocks in
the table of the memory device, however the loop ends, unless a rollback failed. -/
namespace WVmm
open Lib.Effect Lib.Runs Devices Platform

variable {B N : Type} {env : Env}

namespace Devices

def Device.memory : Device B N → Option VirtioMem
  | .mem d => some d
  | _ => none

/-- View and sizes stay, and a memory device is left alone. -/
def Cell.Untouched (c c' : Cell (Device B N)) : Prop :=
  World.Steady c.world c'.world ∧ c'.device.memory = c.device.memory

instance : IsPreorder (Cell (Device B N)) Cell.Untouched where
  refl c := ⟨refl_of (World.Kept id) c.world,rfl⟩
  trans _ _ _ first second := ⟨trans_of (World.Kept id) first.1 second.1,second.2.trans first.2⟩

def Slot.Untouched (s s' : Slot (Device B N)) : Prop := Cell.Untouched s.cell s'.cell

instance : IsPreorder (Slot (Device B N)) Slot.Untouched where
  refl s := refl_of Cell.Untouched s.cell
  trans _ _ _ first second := trans_of Cell.Untouched first second

theorem dispatch_untouched {onBlock : Prog (Cell (Block B)) (Failure DeviceError) Unit}
    {onNet : Prog (Cell (Net N)) (Failure DeviceError) Unit} {onMem : Prog (Cell VirtioMem) (Failure DeviceError) Unit}
    (block : Steadies Cell.world onBlock) (net : Steadies Cell.world onNet) (mem : Always Cell.Calm onMem) :
    Always Cell.Untouched (Device.dispatch onBlock onNet onMem) := by
  rintro ⟨d,queues,world,trace⟩
  cases d with
  | block d => exact ⟨block ⟨d,queues,world,trace⟩,rfl⟩
  | net d => exact ⟨net ⟨d,queues,world,trace⟩,rfl⟩
  | mem d => exact ⟨(mem ⟨d,queues,world,trace⟩).1,congrArg some (mem ⟨d,queues,world,trace⟩).2⟩

namespace Slot

variable {ε α : Type}

theorem onCell_untouched {p : Prog (Cell (Device B N)) ε α} (untouched : Always Cell.Untouched p) :
    Always Slot.Untouched (Slot.onCell p) := Always.zoom untouched (fun _ _ moved => moved)

theorem update_untouched {f : Mmio (Device B N) → Mmio (Device B N)} (same : ∀ m, (f m).device = m.device) :
    Always Slot.Untouched (Slot.update f : Prog (Slot (Device B N)) ε Unit) :=
  fun s => ⟨.ofControl rfl rfl,congrArg Device.memory (same s.mmio)⟩

end Slot

namespace Mmio

theorem isolate_untouched {ε : Type} : Always Slot.Untouched (Slot.update isolate : Prog (Slot (Device B N)) ε Unit) := by
  refine Slot.update_untouched (fun m => ?_)
  simp only [isolate]
  split <;> rfl

theorem contain_untouched {α : Type} (result : Except (Failure DeviceError) α) :
    Always Slot.Untouched (contain result : Prog (Slot (Device B N)) _ _) := by
  refine .bind .get (fun s => ?_)
  split
  · exact .pure _
  · exact .fail _
  · split
    · exact .bind isolate_untouched (fun _ => .pure _)
    · exact .fail _

theorem contained_untouched {α : Type} {p : Prog (Cell (Device B N)) (Failure DeviceError) α}
    (untouched : Always Cell.Untouched p) :
    Always Slot.Untouched (do
      let result ← Prog.capture (Slot.onCell p)
      contain result) :=
  .bind (Always.capture (Slot.onCell_untouched untouched)) (fun _ => contain_untouched _)

variable [BlockStorage B] [NetDevice N]

theorem notify_untouched (queue : Nat) : Always Slot.Untouched (notify env queue : Prog (Slot (Device B N)) _ Unit) := by
  refine .bind .get (fun s => ?_)
  split
  · have listens : Always Cell.Untouched (VirtioDevice.notify env queue : Prog (Cell (Device B N)) _ Unit) :=
      dispatch_untouched (Block.notify_steadies queue) (Net.notify_steadies queue) (.pure _)
    exact .bind (Always.capture (Slot.onCell_untouched listens)) (fun _ => .bind (contain_untouched _) (fun _ => .pure _))
  · exact .pure _

theorem poll_untouched : Always Slot.Untouched (poll env : Prog (Slot (Device B N)) _ Unit) := by
  refine .bind .get (fun s => ?_)
  split
  · have polls : Always Cell.Untouched (VirtioDevice.poll env : Prog (Cell (Device B N)) _ Unit) :=
      dispatch_untouched (.pure _) Net.poll_steadies (.pure _)
    exact .bind (Always.capture (Slot.onCell_untouched polls)) (fun _ => .bind (contain_untouched _) (fun _ => .pure _))
  · exact .pure _

theorem flush_untouched : Always Slot.Untouched (flush : Prog (Slot (Device B N)) _ Unit) :=
  Slot.onCell_untouched (dispatch_untouched Block.diskFlush_steadies (.pure _) (.pure _))

theorem reset_untouched : Always Slot.Untouched (reset env : Prog (Slot (Device B N)) _ Unit) := by
  have driver : Always Cell.Calm (VirtioDevice.reset : Prog (Cell VirtioMem) _ Unit) :=
    fun c => ⟨⟨rfl,rfl,rfl,rfl,.inl rfl⟩,rfl⟩
  have deferred : Steadies Cell.world (VirtioDevice.reset : Prog (Cell (Net N)) _ Unit) :=
    Steadies.beside (fun _ => rfl) (fun _ => rfl)
  exact .bind (Slot.onCell_untouched (dispatch_untouched Block.diskFlush_steadies deferred driver))
    (fun _ => Slot.update_untouched (fun _ => rfl))

theorem writeStatus_untouched (value : BitVec 32) :
    Always Slot.Untouched (writeStatus env value : Prog (Slot (Device B N)) _ Unit) :=
  .bind .get (fun _ => .bind (.require _ _) (fun _ => .bind (.require _ _) (fun _ => Slot.update_untouched (fun _ => rfl))))

omit [BlockStorage B] [NetDevice N] in
theorem writeRing_untouched (offset : Nat) (value : BitVec 32) (index : Nat) (q : Queue) :
    Always Slot.Untouched (writeRing env offset value index q : Prog (Slot (Device B N)) _ Unit) := by
  have set : ∀ q' : Queue, Always Slot.Untouched
      (Slot.update (setRing index q') : Prog (Slot (Device B N)) (Failure DeviceError) Unit) :=
    fun q' => Slot.update_untouched (fun _ => rfl)
  unfold writeRing
  dsimp only
  split
  · refine .bind (.require _ _) (fun _ => .bind (set _) (fun _ => ?_))
    split
    · exact .pure _
    · exact .fail _
  split
  · refine .bind (.require _ _) (fun _ => .bind (set _) (fun _ => .bind .get (fun s => ?_)))
    split
    · exact .bind (set _) (fun _ => .fail _)
    · exact .pure _
  iterate 6
    split
    · exact set _
  exact .fail _

theorem configure_untouched (offset : Nat) (value : BitVec 32) :
    Always Slot.Untouched (configure env offset value : Prog (Slot (Device B N)) _ Unit) := by
  refine .bind .get (fun s => ?_)
  iterate 4
    split
    · exact Slot.update_untouched (fun _ => rfl)
  split
  · split
    · exact reset_untouched
    · exact writeStatus_untouched value
  split
  · exact Slot.update_untouched (fun _ => rfl)
  split
  · refine .bind .get (fun s => ?_)
    split
    · exact .pure _
    · exact .bind (.require _ _) (fun _ => .bind (.require _ _) (fun _ => writeRing_untouched _ _ _ _))
  · exact .pure _

theorem write_untouched (offset : Nat) (value : BitVec 32) :
    Always Slot.Untouched (write env offset value : Prog (Slot (Device B N)) _ Unit) := by
  unfold write
  split
  · exact notify_untouched _
  · refine .bind .get (fun s => .bind (Always.capture (configure_untouched offset value)) (fun outcome => ?_))
    split
    · exact .pure _
    · exact .fail _
    · split
      · exact Slot.update_untouched (fun _ => rfl)
      · exact .fail _

end Mmio
end Devices

def memories (devices : List (Mmio (Device B N))) : List VirtioMem := devices.filterMap (·.device.memory)

theorem memories_set {devices : List (Mmio (Device B N))} {k : Nat} {m : Mmio (Device B N)}
    (found : devices[k]? = some m) :
    ∃ before after, memories devices = before ++ m.device.memory.toList ++ after ∧
      ∀ m', memories (devices.set k m') = before ++ m'.device.memory.toList ++ after := by
  induction devices generalizing k with
  | nil => cases found
  | cons first rest ih =>
    have split : ∀ (m : Mmio (Device B N)) (ms : List (Mmio (Device B N))),
        memories (m::ms) = m.device.memory.toList ++ memories ms := by
      intro m ms
      simp only [memories,List.filterMap_cons]
      cases m.device.memory <;> rfl
    cases k with
    | zero =>
      cases found
      exact ⟨[],memories rest,split _ _,fun m' => split _ _⟩
    | succ k =>
      obtain ⟨before,after,whole,set⟩ := ih found
      refine ⟨first.device.memory.toList ++ before,after,?_,fun m' => ?_⟩
      · rw [split,whole,List.append_assoc,List.append_assoc,List.append_assoc]
      · rw [List.set_cons_succ,split,set m',List.append_assoc,List.append_assoc,List.append_assoc]

section Booked
variable {V : Type}

/-- The mapper holds what was fixed at the start and the blocks of the memory device,
if there is one. -/
inductive Booked (table : V → Nat → Option Region) (base : List Region) (fixed : Nat → Option Region)
    (devices : List (Mmio (Device B N))) (world : World) (vm : V) : Prop
  | bare (none : memories devices = []) (mapped : table vm = fixed)
  | sparse (d : VirtioMem) (only : memories devices = [d])
      (book : VirtioMem.Book table base fixed ⟨⟨d,⟨[],0,0⟩,world,[]⟩,vm⟩)

namespace Booked

variable {table : V → Nat → Option Region} {base : List Region} {fixed : Nat → Option Region}
  {devices devices' : List (Mmio (Device B N))} {world world' : World} {vm vm' : V} {k : Nat}
  {m : Mmio (Device B N)}

theorem keep (booked : Booked table base fixed devices world vm) (same : memories devices' = memories devices)
    (steady : World.Steady world world') (mapped : table vm' = table vm) :
    Booked table base fixed devices' world' vm' := by
  cases booked with
  | bare none before => exact .bare (same.trans none) (mapped.trans before)
  | sparse d only book => exact .sparse d (same.trans only) (book.steady steady rfl mapped)

theorem visit (booked : Booked table base fixed devices world vm) (found : devices[k]? = some m)
    {slot : Slot (Device B N)} (untouched : Slot.Untouched ⟨m,world,[]⟩ slot) :
    Booked table base fixed (devices.set k slot.mmio) slot.world vm := by
  obtain ⟨before,after,whole,set⟩ := memories_set found
  refine booked.keep ?_ untouched.1 rfl
  rw [set,whole]
  exact congrArg (fun d => before ++ d.toList ++ after) untouched.2

theorem memory (booked : Booked table base fixed devices world vm) (found : devices[k]? = some m) {d : VirtioMem}
    (kind : m.device.memory = some d) :
    VirtioMem.Book table base fixed ⟨⟨d,⟨[],0,0⟩,world,[]⟩,vm⟩ ∧
      ∀ (m' : Mmio (Device B N)) d' world' vm', m'.device.memory = some d' →
        VirtioMem.Book table base fixed ⟨⟨d',⟨[],0,0⟩,world',[]⟩,vm'⟩ →
        Booked table base fixed (devices.set k m') world' vm' := by
  obtain ⟨before,after,whole,set⟩ := memories_set found
  rw [kind,Option.toList_some] at whole
  cases booked with
  | bare none =>
    rw [none] at whole
    simp at whole
  | sparse only single book =>
    rw [single] at whole
    obtain ⟨rfl,rfl,rfl⟩ : before = [] ∧ only = d ∧ after = [] := by
      cases before with
      | nil => simpa using whole
      | cons first rest =>
        have length := congrArg List.length whole
        simp at length
    refine ⟨book,fun m' d' world' vm' kind' book' => .sparse d' ?_ book'⟩
    rw [set m',kind']
    rfl

end Booked
end Booked

/-- The operations of a VM that change its mappings are `map` and `unmap`. -/
structure Vm.Maps (V : Type) {C : Type} [Vm V C] (table : V → Nat → Option Region) : Prop where
  atomic : Mapper.Atomic table
  completeIo : ∀ (vm : V) (completion : C) value, table (VirtualMachine.completeIo vm completion value).2 = table vm
  setIrq : ∀ (vm : V) irq level, table (VirtualMachine.setIrq vm irq level).2 = table vm
  pause : ∀ vm : V, table (VirtualMachine.pause vm).2 = table vm
  resume : ∀ vm : V, table (VirtualMachine.resume vm).2 = table vm
  prepare : ∀ (vm : V) view layout, table (Vm.prepare vm view layout).2 = table vm
  start : ∀ vm : V, table (Vm.start vm).2 = table vm
  pollEvent : ∀ vm : V, table (Vm.pollEvent vm).2 = table vm
  stop : ∀ vm : V, table (Vm.stop vm).2 = table vm

/-- The error that a failed rollback ends a run with. -/
def Lost (f : Failure Error) : Prop :=
  ∃ source failed, f = .error (.device (.memory (.rollbackFailed source failed)))

namespace Runtime

variable {V C U : Type} {table : V → Nat → Option Region} {base : List Region} {fixed : Nat → Option Region}

def Sparse (table : V → Nat → Option Region) (base : List Region) (fixed : Nat → Option Region)
    (s : Runtime V C B N U) : Prop := Booked table base fixed s.devices s.world s.vm

abbrev Safeguards {α : Type} (table : V → Nat → Option Region) (base : List Region) (fixed : Nat → Option Region)
    (m : Prog (Runtime V C B N U) (Failure Error) α) : Prop := Guards (Sparse table base fixed) Lost m

/-- A program that keeps away from devices, view, sizes and mappings. -/
theorem Safeguards.aside {α : Type} {m : Prog (Runtime V C B N U) (Failure Error) α}
    (devices : ∀ s, (m.run s).2.devices = s.devices) (world : ∀ s, World.Steady s.world (m.run s).2.world)
    (mapped : ∀ s, table (m.run s).2.vm = table s.vm) : Safeguards table base fixed m := by
  intro s booked
  exact .inl (booked.keep (congrArg memories (devices s)) (world s) (mapped s))

section Process
variable [Mapper V]

/-- A transaction on the memory device behind its transport. -/
theorem process_bay (lawful : env.vm.Lawful) (atomic : Mapper.Atomic table) (pinned : List (Nat × Nat))
    (b : Bay V (Device B N)) {d : VirtioMem} (kind : b.slot.mmio.device = .mem d)
    (book : VirtioMem.Book table base fixed ⟨⟨d,⟨[],0,0⟩,b.slot.world,[]⟩,b.vm⟩) :
    (∃ d', ((Bay.process env pinned).run b).2.slot.mmio.device = .mem d' ∧ VirtioMem.Book table base fixed
      ⟨⟨d',⟨[],0,0⟩,((Bay.process env pinned).run b).2.slot.world,[]⟩,((Bay.process env pinned).run b).2.vm⟩) ∨
    ∃ f, ((Bay.process env pinned).run b).1 = .error f ∧ Unrestored f := by
  have start : VirtioMem.Book table base fixed ⟨⟨d,b.slot.mmio.queues,b.slot.world,b.slot.trace⟩,b.vm⟩ :=
    book.steady (refl_of (World.Kept id) b.slot.world) rfl rfl
  simp only [Bay.process,Prog.run_mk,kind]
  rcases VirtioMem.process_guards lawful atomic pinned _ start with kept | lost
  · exact .inl ⟨_,rfl,kept.steady (refl_of (World.Kept id) _) rfl rfl⟩
  · exact .inr lost

end Process

theorem device_safe (k : Nat) : Safeguards table base fixed (device k : Prog (Runtime V C B N U) _ _) := by
  refine .still (fun s => ?_)
  rw [device_run]
  cases s.devices[k]? <;> rfl

theorem settled_untouched {α : Type} (s : Slot (Device B N)) (r : Except (Failure DeviceError) α) :
    Slot.Untouched s (Mmio.settled s r).2 := by
  have contained := Mmio.contain_untouched r s
  rwa [Mmio.contain_run] at contained

section Machine
variable [VirtualMachine V C]

variable [BlockStorage B] [NetDevice N]

/-- An operation that leaves the memory device alone. -/
theorem visit_slot_safe {op : Operation} {p : Prog (Slot (Device B N)) (Failure DeviceError) op.Reply}
    (performed : Bay.perform env op = (Bay.onSlot p : Prog (Bay V (Device B N)) _ op.Reply))
    (untouched : Always Slot.Untouched p) (k : Nat) :
    Safeguards table base fixed (visit env k op : Prog (Runtime V C B N U) _ op.Reply) := by
  intro s booked
  left
  simp only [visit,Prog.run_mk]
  cases found : s.devices[k]? with
  | none => exact booked
  | some m =>
    simp only [performed,Bay.onSlot,Prog.run_zoom]
    exact booked.visit found (untouched ⟨m,s.world,[]⟩)

theorem sync_safe (k : Nat) (active : Bool) :
    Safeguards table base fixed (visit env k (.sync active) : Prog (Runtime V C B N U) _ Unit) := by
  intro s booked
  left
  simp only [visit,Prog.run_mk]
  cases found : s.devices[k]? with
  | none => exact booked
  | some m =>
    simp only [Bay.perform,Bay.onSlot,Prog.run_zoom,syncTarget_run,visited]
    cases kind : m.device with
    | mem d =>
      obtain ⟨book,replace⟩ := booked.memory found (d := d) (by rw [kind]; rfl)
      have ready : VirtioMem.Book table base fixed ⟨⟨d,⟨[],0,0⟩,
          {s.world with control := {s.world.control with driverReady := active}},[]⟩,s.vm⟩ := {book with}
      simp only [synced,kind]
      split
      · exact replace m d _ s.vm (by rw [kind]; rfl) ready
      · exact replace _ _ _ s.vm rfl {ready with
          shape := ⟨ready.shape.len,ready.shape.unit,ready.shape.positive,ready.shape.whole,ready.shape.aligned,
            ready.shape.bounded⟩ }
    | _ =>
      simp only [synced,kind]
      exact booked.visit found (refl_of Slot.Untouched ⟨m,s.world,[]⟩)

theorem process_safe (lawful : env.vm.Lawful) (atomic : Mapper.Atomic table) (k : Nat) (pinned : List (Nat × Nat)) :
    Safeguards table base fixed (visit env k (.process pinned) : Prog (Runtime V C B N U) _ Unit) := by
  intro s booked
  simp only [visit,Prog.run_mk]
  cases found : s.devices[k]? with
  | none => exact .inl booked
  | some m =>
    have performed : (Bay.perform env (.process pinned)).run ⟨⟨m,s.world,[]⟩,s.vm⟩ =
        let ran := (Bay.process env pinned).run (⟨⟨m,s.world,[]⟩,s.vm⟩ : Bay V (Device B N))
        ((Mmio.settled ran.2.slot ran.1).1.map (fun _ => ()),{ran.2 with slot := (Mmio.settled ran.2.slot ran.1).2}) :=
      process_performed pinned _
    simp only [performed]
    cases kind : m.device with
    | mem d =>
      obtain ⟨book,replace⟩ := booked.memory found (d := d) (by rw [kind]; rfl)
      rcases process_bay lawful atomic pinned ⟨⟨m,s.world,[]⟩,s.vm⟩ kind book with ⟨d',kind',book'⟩ | ⟨f,failed,how⟩
      · left
        have settled := settled_untouched ((Bay.process env pinned).run (⟨⟨m,s.world,[]⟩,s.vm⟩ : Bay V (Device B N))).2.slot
          ((Bay.process env pinned).run (⟨⟨m,s.world,[]⟩,s.vm⟩ : Bay V (Device B N))).1
        refine replace _ d' _ _ (settled.2.trans ?_) (book'.steady settled.1 rfl rfl)
        exact congrArg Device.memory kind'
      · right
        obtain ⟨source,e,rfl⟩ := how
        refine ⟨.error (.device (.memory (.rollbackFailed source e))),?_,source,e,rfl⟩
        simp only [failed,Mmio.settled,DeviceError.isGuest,MemoryError.isGuest,Bool.and_false]
        rfl
    | _ =>
      left
      simp only [Bay.process,Prog.run_mk,kind,Mmio.settled]
      exact booked.visit found (refl_of Slot.Untouched ⟨m,s.world,[]⟩)

end Machine

section Calls
variable [Vm V C]

theorem setIrq_safe (maps : Vm.Maps V table) (irq : Nat) (level : Bool) :
    Safeguards table base fixed (setIrq irq level : Prog (Runtime V C B N U) _ Unit) :=
  .aside (fun _ => rfl) (fun _ => .ofControl rfl rfl) (fun s => maps.setIrq s.vm irq level)

theorem completeIo_safe (maps : Vm.Maps V table) (completion : C) (value : Nat) :
    Safeguards table base fixed (completeIo completion value : Prog (Runtime V C B N U) _ Unit) :=
  .aside (fun _ => rfl) (fun _ => .ofControl rfl rfl) (fun s => maps.completeIo s.vm completion value)

theorem pollEvent_safe (maps : Vm.Maps V table) :
    Safeguards table base fixed (RunLoop.pollEvent : Prog (Runtime V C B N U) _ _) :=
  .aside (fun _ => rfl) (fun _ => .ofControl rfl rfl) (fun s => maps.pollEvent s.vm)

theorem pause_safe (maps : Vm.Maps V table) :
    Safeguards table base fixed (pause : Prog (Runtime V C B N U) _ PauseOutcome) := by
  have state : ∀ s : Runtime V C B N U, ∃ paused,
      (pause.run s).2 = {s with
        vm := (VirtualMachine.pause s.vm).2
        log := s.log ++ [.pause]
        world := {s.world with paused := paused}} := by
    intro s
    simp only [pause,Prog.run_bind,Prog.run_get,Prog.run_modify,record,platform,Prog.run_ofExcept]
    rcases (VirtualMachine.pause s.vm).1 with e | _ | _
    · exact ⟨s.world.paused,rfl⟩
    · exact ⟨true,rfl⟩
    · exact ⟨s.world.paused,rfl⟩
  refine .aside (fun s => ?_) (fun s => ?_) (fun s => ?_) <;> obtain ⟨paused,same⟩ := state s <;> rw [same]
  · exact .ofControl rfl rfl
  · exact maps.pause s.vm

theorem resume_safe (maps : Vm.Maps V table) :
    Safeguards table base fixed (resume : Prog (Runtime V C B N U) _ Unit) := by
  have state : ∀ s : Runtime V C B N U, ∃ paused,
      (resume.run s).2 = {s with
        vm := (VirtualMachine.resume s.vm).2
        log := s.log ++ [.resume]
        world := {s.world with paused := paused}} := by
    intro s
    simp only [resume,Prog.run_bind,Prog.run_get,Prog.run_modify,record,platform,Prog.run_ofExcept]
    rcases (VirtualMachine.resume s.vm).1 with e | _
    · exact ⟨s.world.paused,rfl⟩
    · exact ⟨false,rfl⟩
  refine .aside (fun s => ?_) (fun s => ?_) (fun s => ?_) <;> obtain ⟨paused,same⟩ := state s <;> rw [same]
  · exact .ofControl rfl rfl
  · exact maps.resume s.vm

theorem setLines_safe (maps : Vm.Maps V table) (lines : List (Mmio (Device B N) × IoRegion)) :
    Safeguards table base fixed (setLines lines : Prog (Runtime V C B N U) _ Unit) := by
  induction lines with
  | nil => exact .pure _
  | cons line rest ih => exact .bind (setIrq_safe maps _ _) (fun _ => ih)

omit [Vm V C] in
theorem seen_safe (strict : Bool) (a : IoAccess C) (decoded : Option Nat) :
    Safeguards table base fixed (seen strict a decoded : Prog (Runtime V C B N U) _ Nat) :=
  .still (seen_still strict a decoded)

variable [BlockStorage B] [NetDevice N]

theorem write_safe (k offset : Nat) (value : BitVec 32) :
    Safeguards table base fixed (visit env k (.write offset value) : Prog (Runtime V C B N U) _ Unit) :=
  visit_slot_safe rfl (Mmio.write_untouched offset value) k

theorem poll_safe (k : Nat) : Safeguards table base fixed (visit env k .poll : Prog (Runtime V C B N U) _ Unit) :=
  visit_slot_safe rfl Mmio.poll_untouched k

theorem available_safe (k : Nat) :
    Safeguards table base fixed (visit env k .available : Prog (Runtime V C B N U) _ (Option Nat)) := by
  refine visit_slot_safe rfl (Mmio.contained_untouched (fun c => ?_)) k
  have calm := @Queues.available_calm env (Device B N) 0 c
  exact ⟨calm.1,congrArg Device.memory calm.2⟩

theorem pinned_safe (k : Nat) :
    Safeguards table base fixed (visit env k .pinned : Prog (Runtime V C B N U) _ (Option (List (Nat × Nat)))) :=
  visit_slot_safe rfl (.bind .get (fun s => Mmio.contained_untouched
    (p := Cell.onWorld (Queues.pinned env s.mmio.queues)) (fun c => ⟨(Queues.pinned_later s.mmio.queues c.world).steady,rfl⟩))) k

theorem pinDevices_safe (ks : List Nat) :
    Safeguards table base fixed (pinDevices env ks : Prog (Runtime V C B N U) _ _) := by
  induction ks with
  | nil => exact .pure _
  | cons k rest ih =>
    have pin : Safeguards table base fixed (pinDevice env k : Prog (Runtime V C B N U) _ _) := by
      refine .bind (device_safe k) (fun d => ?_)
      split
      · exact .pure _
      · exact .bind (pinned_safe k) (fun _ => .pure _)
    exact .bind pin (fun _ => .bind ih (fun _ => .pure _))

theorem processMemory_safe (lawful : env.vm.Lawful) (maps : Vm.Maps V table) :
    Safeguards table base fixed (processMemory env : Prog (Runtime V C B N U) _ ControlFlow) := by
  refine .get (fun s _ => ?_)
  split
  · exact .pure _
  refine .bind (device_safe _) (fun d => .bind (sync_safe _ _) (fun _ => ?_))
  split
  · exact .pure _
  refine .bind (available_safe _) (fun available => ?_)
  split
  · exact .pure _
  refine .bind (pause_safe maps) (fun outcome => ?_)
  split
  · exact .pure _
  refine .bind (pinDevices_safe _) (fun pinned => .bind (.bind (device_safe _) (fun d => ?_)) (fun _ => ?_))
  · split
    · exact .pure _
    · exact process_safe lawful maps.atomic _ pinned
  · exact .bind (resume_safe maps) (fun _ => .pure _)

theorem virtioAccess_safe (k : Nat) (region : IoRegion) (a : IoAccess C) :
    Safeguards table base fixed (virtioAccess env k region a : Prog (Runtime V C B N U) _ _) := by
  refine .bind (device_safe k) (fun d => .bind ?_ (fun value => .bind (device_safe k) (fun _ => .pure _)))
  unfold virtioValue
  dsimp only
  split
  · exact .pure _
  split
  · exact .pure _
  split
  · exact .bind (write_safe k _ _) (fun _ => .pure _)
  · exact .pure _

variable [Uart U]

omit [BlockStorage B] [NetDevice N] [Vm V C] in
theorem uartValue_safe (offset : Nat) (a : IoAccess C) :
    Safeguards table base fixed (uartValue offset a : Prog (Runtime V C B N U) _ _) := by
  unfold uartValue
  split
  · split
    · refine .bind ?_ (fun _ => .pure _)
      refine .get (fun s _ => .bind (.modify (fun _ booked => booked)) (fun _ => ?_))
      exact .bind (.modify (fun _ booked => booked)) (fun _ => .ofExcept _)
    · refine .bind ?_ (fun _ => .pure _)
      refine .get (fun s _ => .bind (.modify (fun _ booked => booked)) (fun _ => ?_))
      exact .bind (.modify (fun _ booked => booked)) (fun _ => .pure _)
  · exact .pure _

theorem handleIo_safe (maps : Vm.Maps V table) (a : IoAccess C) :
    Safeguards table base fixed (handleIo env a : Prog (Runtime V C B N U) _ Unit) := by
  refine .get (fun s _ => .bind ?_ (fun decoded => .bind (seen_safe _ a _) (fun value => ?_)))
  · unfold access
    split
    · exact .bind (uartValue_safe _ a) (fun _ => .get (fun s _ => .pure _))
    split
    · split
      · exact virtioAccess_safe _ _ a
      · exact .fail _
    · exact .fail _
  · exact .bind (setIrq_safe maps _ _) (fun _ => completeIo_safe maps _ _)

end Calls
end Runtime

namespace RunLoop

variable {V C U : Type} {table : V → Nat → Option Region} {base : List Region} {fixed : Nat → Option Region}

/-- The mapper is booked, or the loop has ended with a failed rollback. -/
def Sparse (table : V → Nat → Option Region) (base : List Region) (fixed : Nat → Option Region)
    (l : RunLoop V C B N U) : Prop :=
  l.runtime.Sparse table base fixed ∨ ∃ f, l.pass = .ended (.error f) ∧ Lost f

theorem Sparse.calls {α : Type} {l : RunLoop V C B N U} (sparse : l.runtime.Sparse table base fixed)
    {m : Prog (Runtime V C B N U) (Failure Error) α} (safe : Runtime.Safeguards table base fixed m) (next : α → Pass C) :
    (l.calls m next).Sparse table base fixed := by
  have kept := safe l.runtime sparse
  rcases calls_cases l m next with ⟨a,s,ran,same⟩ | ⟨e,s,ran,same⟩ <;> rw [same] <;> rw [ran] at kept
  · rcases kept with here | ⟨f,failed,_⟩
    · exact .inl here
    · cases failed
  · rcases kept with here | ⟨f,failed,lost⟩
    · exact .inl here
    · cases failed
      exact .inr ⟨_,rfl,lost⟩

theorem Sparse.onWorld {l : RunLoop V C B N U} (sparse : l.Sparse table base fixed) {w : World}
    (steady : World.Steady l.runtime.world w) :
    Sparse table base fixed {l with runtime := {l.runtime with world := w}} := by
  rcases sparse with booked | lost
  · exact .inl (booked.keep rfl steady rfl)
  · exact .inr lost

theorem input_safe [SerialIo U] : Runtime.Safeguards table base fixed (input : Prog (Runtime V C B N U) _ Unit) :=
  fun _ booked => .inl booked

variable [Vm V C]

theorem Sparse.serve (maps : Vm.Maps V table) {l : RunLoop V C B N U} (sparse : l.runtime.Sparse table base fixed)
    (operation : Control.Operation) : (l.serve operation).Sparse table base fixed := by
  cases operation with
  | pause =>
    unfold RunLoop.serve
    dsimp only
    split
    · exact .inl sparse
    · exact Sparse.calls sparse (Runtime.pause_safe maps) _
  | resume =>
    unfold RunLoop.serve
    dsimp only
    split
    · exact Sparse.calls sparse (Runtime.resume_safe maps) _
    · exact .inl sparse

variable [BlockStorage B] [NetDevice N] [SerialIo U]

theorem Sparse.call (lawful : env.vm.Lawful) (maps : Vm.Maps V table) {l t : RunLoop V C B N U}
    (sparse : l.runtime.Sparse table base fixed) (taken : l.call env = some t) : t.Sparse table base fixed := by
  unfold RunLoop.call at taken
  split at taken
  · cases taken
    exact .calls sparse input_safe _
  · cases taken
    exact .calls sparse (Runtime.setIrq_safe maps _ _) _
  · split at taken
    · cases taken
      exact .calls sparse (Runtime.poll_safe _) _
    · cases taken
      exact .inl sparse
  · cases taken
    exact .calls sparse (Runtime.processMemory_safe lawful maps) _
  · cases taken
    exact .calls sparse (Runtime.setLines_safe maps _) _
  · cases taken
    exact .calls sparse (Runtime.pollEvent_safe maps) _
  · cases taken
    exact .calls sparse (Runtime.handleIo_safe maps _) _
  · cases taken

theorem Sparse.step (lawful : env.vm.Lawful) (maps : Vm.Maps V table) {l t : RunLoop V C B N U} (label : Label)
    (sparse : l.Sparse table base fixed) (taken : next env label l = some t) : t.Sparse table base fixed := by
  have running : l.pass = .head ∨ l.pass = .fetch ∨ l.call env ≠ none → l.runtime.Sparse table base fixed := by
    intro here
    rcases sparse with booked | ⟨f,ended,_⟩
    · exact booked
    · simp [ended,RunLoop.call] at here
  cases label with
  | look stopping =>
    simp only [next] at taken
    split at taken
    · cases taken
      exact .inl (running (.inl ‹_›))
    · cases taken
  | next request =>
    simp only [next] at taken
    split at taken
    · cases taken
      exact .serve maps (running (.inr (.inl ‹_›))) _
    · cases taken
      exact .inl (running (.inr (.inl ‹_›)))
    · cases taken
  | call => exact .call lawful maps (running (.inr (.inr (by rw [show l.call env = some t from taken]; rintro ⟨⟩)))) taken
  | target requested =>
    cases taken
    exact sparse.onWorld (World.request_steady _ _)
  | guest =>
    cases taken
    exact sparse.onWorld (World.tick_steady _)

theorem sparse_reached (lawful : env.vm.Lawful) (maps : Vm.Maps V table) {l t : RunLoop V C B N U}
    (start : l.runtime.Sparse table base fixed) (reached : Reaches (Takes (next env)) l t) :
    t.Sparse table base fixed :=
  reached.invariant (.inl start) (fun _ label _ sparse taken => sparse.step lawful maps label taken)

end RunLoop
end WVmm
