import WVmm.Devices.Containment
import WVmm.Devices.PluggedSet
import WVmm.Platform.WellFormed
import WVmm.Runtime.Interrupts
import WVmm.Runtime.LiveQueues

/-! Guest input is never fatal in lenient mode. The transports stay what was negotiated,
the memory device stays booked and in its place, and from there every access, poll and
memory transaction returns. -/
namespace WVmm
open Lib.Effect Lib.Runs Devices Platform

structure VirtualMachine.Dependable (V : Type) {C : Type} [VirtualMachine V C] : Prop where
  completeIo : ∀ (vm : V) (completion : C) value, (VirtualMachine.completeIo vm completion value).1 = .ok ()
  setIrq : ∀ (vm : V) irq level, (VirtualMachine.setIrq vm irq level).1 = .ok ()
  pause : ∀ vm : V, ∃ outcome, (VirtualMachine.pause vm).1 = .ok outcome
  resume : ∀ vm : V, (VirtualMachine.resume vm).1 = .ok ()

def Uart.Dependable (U : Type) [Uart U] : Prop :=
  ∀ (serial : U) offset value, (Uart.write serial offset value).1 = .ok ()

section Machines
variable {V C B N U : Type} {env : Env}

section Operations
variable [VirtualMachine V C] [BlockStorage B] [NetDevice N]

def Devices.Slot.mode (s : Slot (Device B N)) : Bool × Bool := (s.mmio.strict,s.mmio.device.memory.isSome)

namespace Bay

omit [BlockStorage B] [NetDevice N] in
theorem settled_mode {α : Type} (s : Slot (Device B N)) (r : Except (Failure DeviceError) α) :
    (Mmio.settled s r).2.mode = s.mode :=
  Prod.ext (Mmio.settled_strict s r) (congrArg Option.isSome (Runtime.settled_untouched s r).2)

/-- No operation makes a transport strict or puts another device behind it. -/
theorem perform_mode (lawful' : env.vq.Lawful) (op : Operation) (b : Bay V (Device B N)) :
    ((perform env op).run b).2.slot.mode = b.slot.mode := by
  cases op with
  | write offset value =>
    exact Prod.ext (Mmio.write_strict lawful' offset value b.slot)
      (congrArg Option.isSome (Mmio.write_untouched offset value b.slot).2)
  | poll => exact Prod.ext (Mmio.poll_strict b.slot) (congrArg Option.isSome (Mmio.poll_untouched b.slot).2)
  | sync active =>
    have ran : ((perform env (.sync active)).run b).2.slot = Runtime.synced active b.slot :=
      congrArg Prod.snd (Runtime.syncTarget_run active b.slot)
    rw [ran]
    unfold Runtime.synced
    dsimp only
    split
    · rename_i d kind
      split
      · rfl
      · exact Prod.ext rfl (congrArg (fun x => (Device.memory x).isSome) kind.symm)
    · rfl
  | available =>
    rw [Runtime.available_slot,settled_mode]
    have calm : Cell.Calm b.slot.cell ((Queues.available env 0).run b.slot.cell).2 := Queues.available_calm 0 b.slot.cell
    exact Prod.ext rfl (congrArg (fun x => (Device.memory x).isSome) calm.2)
  | pinned =>
    rw [Runtime.pinned_slot,settled_mode]
    rfl
  | process pinned =>
    rw [Runtime.process_slot,settled_mode]
    simp only [process,Prog.run_mk]
    cases kind : b.slot.mmio.device with
    | mem d => exact Prod.ext rfl (congrArg (fun x => (Device.memory x).isSome) kind.symm)
    | _ => rfl

/-- Whatever the guest wrote, a lenient transport carries out what it is asked. -/
theorem perform_returns (lawful : env.vm.Lawful) (lawful' : env.vq.Lawful) (obeys : Device.Obeys B N .unfailing)
    {op : Operation} (other : ∀ pinned, op ≠ .process pinned) {b : Bay V (Device B N)} (agreed : Agreed b.slot)
    (lenient : b.slot.mmio.strict = false) : ∃ r, ((perform env op).run b).1 = .ok r := by
  cases op with
  | write offset value => exact ⟨(),Mmio.write_returns lawful lawful' obeys agreed lenient offset value⟩
  | poll => exact ⟨(),Mmio.poll_returns lawful lawful' obeys agreed lenient⟩
  | sync active => exact ⟨(),congrArg Prod.fst (Runtime.syncTarget_run active b.slot)⟩
  | available =>
    have some : 0 < VirtioDevice.queueCount b.slot.mmio.device := by
      cases b.slot.mmio.device <;> exact Nat.zero_lt_succ _
    have looks : Acts env .unfailing Device.Keeps b.slot.trace.length (Wired b.slot.world.view _ _)
        (Queues.available env 0 : Prog (Cell (Device B N)) _ Nat) _ := Queues.available_acts some
    obtain ⟨r,returned⟩ := Mmio.settled_returns
      (s := b.slot.putCell ((Queues.available env 0).run b.slot.cell).2) lenient
      (looks b.slot.cell agreed.sits.idle.wired).2.2
    exact ⟨r,(congrArg Prod.fst (Mmio.contained_run (Queues.available env 0) b.slot)).trans returned⟩
  | pinned =>
    have looks : Looks env .unfailing b.slot.world.view (Queues.pinned env b.slot.mmio.queues) (fun _ => True) :=
      .pinned agreed.sits.sized
    obtain ⟨r,returned⟩ := Mmio.settled_returns
      (s := b.slot.putCell ((Cell.onWorld (Queues.pinned env b.slot.mmio.queues)).run b.slot.cell).2) lenient
      (looks b.slot.world rfl).2.2
    exact ⟨r,(congrArg Prod.fst (Mmio.contained_run (Cell.onWorld (Queues.pinned env b.slot.mmio.queues)) b.slot)).trans
      returned⟩
  | process pinned => exact absurd rfl (other pinned)

section Process
variable {table : V → Nat → Option Region} {base : List Region} {fixed : Nat → Option Region}

/-- A transaction of a booked memory device, while the mapper refuses nothing. -/
theorem process_returns (lawful : env.vm.Lawful) (lawful' : env.vq.Lawful) (atomic : Mapper.Atomic table)
    (reliable : Mapper.Reliable table) (plenty : ¬Exhausted env) (pinned : List (Nat × Nat)) {b : Bay V (Device B N)}
    {d : VirtioMem} (kind : b.slot.mmio.device = .mem d) (agreed : Agreed b.slot)
    (lenient : b.slot.mmio.strict = false)
    (book : VirtioMem.Book table base fixed ⟨⟨d,⟨[],0,0⟩,b.slot.world,[]⟩,b.vm⟩) :
    ((perform env (.process pinned)).run b).1 = .ok () := by
  have start : VirtioMem.Book table base fixed ⟨⟨d,b.slot.mmio.queues,b.slot.world,b.slot.trace⟩,b.vm⟩ :=
    book.steady (refl_of (World.Kept id) b.slot.world) rfl rfl
  have seated : VirtioMem.Seated (⟨⟨d,b.slot.mmio.queues,b.slot.world,b.slot.trace⟩,b.vm⟩ : Txn V) :=
    ⟨agreed.sits.count.trans (congrArg VirtioDevice.queueCount kind),agreed.sits.sized⟩
  have contained := (VirtioMem.process_contains lawful atomic reliable plenty lawful' pinned _ ⟨start,seated⟩).2.2
  have returned : ∃ a, (Mmio.settled ((process env pinned).run b).2.slot ((process env pinned).run b).1).1 = .ok a := by
    simp only [process,Prog.run_mk,kind]
    refine Mmio.settled_returns ?_ contained
    exact lenient
  obtain ⟨a,settled⟩ := returned
  rw [Runtime.process_performed,settled]
  rfl

end Process
end Bay
end Operations

namespace Runtime

/-- What a run in lenient mode keeps: devices that may be run, each behind its window, and a
memory device that is booked and comes last. -/
structure Lenient (table : V → Nat → Option Region) (base : List Region) (fixed : Nat → Option Region)
    [BlockStorage B] [NetDevice N] (declared : MachineLayout) (present : Bool) (s : Runtime V C B N U) : Prop where
  sparse : s.Sparse table base fixed
  agreed : ∀ m ∈ s.devices, m.strict = false ∧ ∀ world, Agreed (⟨m,world,[]⟩ : Slot (Device B N))
  strict : s.strict = false
  layout : s.layout = declared
  windows : s.devices.length = declared.virtio.length
  hasMemory : s.hasMemory = present
  last : present = true → ∃ m, s.devices[declared.virtio.length - 1]? = some m ∧ m.device.memory.isSome = true

section Delivers
variable [Vm V C] [BlockStorage B] [NetDevice N] {table : V → Nat → Option Region} {base : List Region}
  {fixed : Nat → Option Region} {declared : MachineLayout} {present : Bool} {s t : Runtime V C B N U}

omit [Vm V C] in
theorem Lenient.aside (here : s.Lenient table base fixed declared present) (devices : t.devices = s.devices)
    (strict : t.strict = s.strict) (layout : t.layout = s.layout) (hasMemory : t.hasMemory = s.hasMemory)
    (sparse : t.Sparse table base fixed) : t.Lenient table base fixed declared present := by
  refine ⟨sparse,?_,strict.trans here.strict,layout.trans here.layout,?_,hasMemory.trans here.hasMemory,?_⟩
  · rw [devices]
    exact here.agreed
  · rw [devices]
    exact here.windows
  · rw [devices]
    exact here.last

section Platform
variable (maps : Vm.Maps V table) (dependable : VirtualMachine.Dependable V)
include maps dependable

theorem setIrq_delivers (irq : Nat) (level : Bool) :
    Delivers (Lenient table base fixed declared present) (setIrq irq level : Prog (Runtime V C B N U) _ Unit) := by
  intro s here
  refine ⟨here.aside rfl rfl rfl rfl (here.sparse.keep rfl (.ofControl rfl rfl) (maps.setIrq s.vm irq level)),(),?_⟩
  change (VirtualMachine.setIrq s.vm irq level).1.mapError _ = _
  rw [dependable.setIrq]
  rfl

theorem completeIo_delivers (completion : C) (value : Nat) :
    Delivers (Lenient table base fixed declared present) (completeIo completion value : Prog (Runtime V C B N U) _ Unit) := by
  intro s here
  refine ⟨here.aside rfl rfl rfl rfl (here.sparse.keep rfl (.ofControl rfl rfl) (maps.completeIo s.vm completion value)),
    (),?_⟩
  change (VirtualMachine.completeIo s.vm completion value).1.mapError _ = _
  rw [dependable.completeIo]
  rfl

theorem pause_delivers :
    Delivers (Lenient table base fixed declared present) (pause : Prog (Runtime V C B N U) _ PauseOutcome) := by
  intro s here
  obtain ⟨outcome,answered⟩ := dependable.pause s.vm
  have sparse : ∀ paused, Booked table base fixed s.devices {s.world with paused := paused} (VirtualMachine.pause s.vm).2 :=
    fun paused => here.sparse.keep rfl (.ofControl rfl rfl) (maps.pause s.vm)
  simp only [pause,Prog.run_bind,Prog.run_get,Prog.run_modify,record,platform,Prog.run_ofExcept,answered]
  cases outcome with
  | paused => exact ⟨here.aside rfl rfl rfl rfl (sparse true),.paused,rfl⟩
  | stopping => exact ⟨here.aside rfl rfl rfl rfl (sparse s.world.paused),.stopping,rfl⟩

theorem resume_delivers :
    Delivers (Lenient table base fixed declared present) (resume : Prog (Runtime V C B N U) _ Unit) := by
  intro s here
  simp only [resume,Prog.run_bind,Prog.run_get,Prog.run_modify,record,platform,Prog.run_ofExcept,dependable.resume]
  exact ⟨here.aside rfl rfl rfl rfl (here.sparse.keep rfl (.ofControl rfl rfl) (maps.resume s.vm)),(),rfl⟩

theorem setLines_delivers (lines : List (Mmio (Device B N) × IoRegion)) :
    Delivers (Lenient table base fixed declared present) (setLines lines : Prog (Runtime V C B N U) _ Unit) := by
  induction lines with
  | nil => exact .pure _
  | cons line rest ih => exact .bind (setIrq_delivers maps dependable _ _) (fun _ => ih)

end Platform

omit [Vm V C] in
theorem device_delivers {k : Nat} (bound : k < declared.virtio.length) :
    Delivers (Lenient table base fixed declared present) (device k : Prog (Runtime V C B N U) _ _) := by
  intro s here
  rw [device_run,List.getElem?_eq_getElem (here.windows ▸ bound)]
  exact ⟨here,_,rfl⟩

omit [Vm V C] in
/-- In lenient mode an access that decodes to no register has a value too. -/
theorem seen_delivers (a : IoAccess C) (decoded : Option Nat) :
    Delivers (Lenient table base fixed declared present) (seen false a decoded : Prog (Runtime V C B N U) _ Nat) := by
  cases decoded with
  | some value => exact .pure value
  | none =>
    unfold seen
    dsimp only
    rw [if_neg Bool.false_ne_true]
    split
    · exact .pure _
    split
    · exact .pure _
    · exact .pure _

section Visits
variable (lawful : env.vm.Lawful) (lawful' : env.vq.Lawful)
include lawful lawful'

theorem Lenient.visited (here : s.Lenient table base fixed declared present) {k : Nat} {m : Mmio (Device B N)}
    (found : s.devices[k]? = some m) {op : Operation}
    (safe : Safeguards table base fixed (visit env k op : Prog (Runtime V C B N U) _ op.Reply))
    (returns : ∃ r, ((Bay.perform env op).run ⟨⟨m,s.world,[]⟩,s.vm⟩).1 = .ok r) :
    ((visit env k op).run s).2.Lenient table base fixed declared present ∧ ∃ r, ((visit env k op).run s).1 = .ok r := by
  obtain ⟨r,returned⟩ := returns
  have ran : (visit env k op).run s =
      (.ok r,s.visited k op m ((Bay.perform env op).run ⟨⟨m,s.world,[]⟩,s.vm⟩).2) := by
    simp only [visit,Prog.run_mk,found,returned]
    rfl
  have sparse := safe.returned here.sparse ran
  have mode := Bay.perform_mode lawful' op ⟨⟨m,s.world,[]⟩,s.vm⟩
  obtain ⟨lenient,agreed⟩ := here.agreed m (List.mem_of_getElem? found)
  have after := perform_agreed lawful lawful' op ⟨⟨m,s.world,[]⟩,s.vm⟩ (agreed s.world)
  rw [ran]
  refine ⟨⟨sparse,?_,here.strict,here.layout,List.length_set.trans here.windows,here.hasMemory,?_⟩,r,rfl⟩
  · intro m' member
    rcases List.mem_or_eq_of_mem_set member with old | rfl
    · exact here.agreed m' old
    · exact ⟨(congrArg Prod.fst mode).trans lenient,
        fun world => after.elsewhere rfl rfl rfl rfl after.sits.fits rfl rfl⟩
  · intro memory
    obtain ⟨d,last,kind⟩ := here.last memory
    simp only [Runtime.visited]
    by_cases same : k = declared.virtio.length - 1
    · subst same
      cases found.symm.trans last
      exact ⟨_,List.getElem?_set_self (List.getElem?_eq_some_iff.mp found).1,(congrArg Prod.snd mode).trans kind⟩
    · exact ⟨d,by rw [List.getElem?_set_ne same]; exact last,kind⟩

variable (obeys : Device.Obeys B N .unfailing)
include obeys

theorem visit_delivers {k : Nat} (bound : k < declared.virtio.length) {op : Operation}
    (other : ∀ pinned, op ≠ .process pinned)
    (safe : Safeguards table base fixed (visit env k op : Prog (Runtime V C B N U) _ op.Reply)) :
    Delivers (Lenient table base fixed declared present) (visit env k op : Prog (Runtime V C B N U) _ op.Reply) := by
  intro s here
  have found := List.getElem?_eq_getElem (here.windows ▸ bound)
  obtain ⟨lenient,agreed⟩ := here.agreed _ (List.getElem_mem (here.windows ▸ bound))
  exact here.visited lawful lawful' found safe (Bay.perform_returns lawful lawful' obeys other (agreed s.world) lenient)

theorem pinDevice_delivers {k : Nat} (bound : k < declared.virtio.length) :
    Delivers (Lenient table base fixed declared present) (pinDevice env k : Prog (Runtime V C B N U) _ _) := by
  refine .bind (device_delivers bound) (fun d => ?_)
  split
  · exact .pure _
  · exact .bind (visit_delivers lawful lawful' obeys bound nofun (pinned_safe k)) (fun _ => .pure _)

theorem pinDevices_delivers {ks : List Nat} (bound : ∀ k ∈ ks, k < declared.virtio.length) :
    Delivers (Lenient table base fixed declared present) (pinDevices env ks : Prog (Runtime V C B N U) _ _) := by
  induction ks with
  | nil => exact .pure _
  | cons k rest ih =>
    obtain ⟨first,others⟩ := List.forall_mem_cons.mp bound
    exact .bind (pinDevice_delivers lawful lawful' obeys first) (fun _ => .bind (ih others) (fun _ => .pure _))

theorem virtioAccess_delivers {k : Nat} (bound : k < declared.virtio.length) (region : IoRegion) (a : IoAccess C) :
    Delivers (Lenient table base fixed declared present) (virtioAccess env k region a : Prog (Runtime V C B N U) _ _) := by
  refine .bind (device_delivers bound) (fun d => .bind ?_ (fun _ => .bind (device_delivers bound) (fun _ => .pure _)))
  unfold virtioValue
  dsimp only
  split
  · exact .pure _
  split
  · exact .pure _
  split
  · exact .bind (visit_delivers lawful lawful' obeys bound nofun (write_safe k _ _)) (fun _ => .pure _)
  · exact .pure _

section Ports
variable [Uart U] (takes : Uart.Dependable U)
include takes

omit lawful lawful' obeys in
omit [Vm V C] in
theorem uartValue_delivers (offset : Nat) (a : IoAccess C) :
    Delivers (Lenient table base fixed declared present) (uartValue offset a : Prog (Runtime V C B N U) _ _) := by
  unfold uartValue
  split
  · split
    · refine .bind (fun s here => ⟨here.aside rfl rfl rfl rfl here.sparse,(),?_⟩) (fun _ => .pure _)
      change (Uart.write s.serial offset (UInt8.ofNat a.value)).1.mapError _ = _
      rw [takes]
      rfl
    · exact .bind (fun s here => ⟨here.aside rfl rfl rfl rfl here.sparse,_,rfl⟩) (fun _ => .pure _)
  · exact .pure _

theorem access_delivers (a : IoAccess C)
    (inside : declared.uart.within a = true ∨ ∃ r ∈ declared.virtio, r.within a = true) :
    Delivers (Lenient table base fixed declared present) (access env declared a : Prog (Runtime V C B N U) _ _) := by
  unfold access
  split
  · exact .bind (uartValue_delivers takes _ a) (fun _ => .get (fun s _ => .pure _))
  · rename_i outside
    obtain ⟨r,member,hit⟩ := inside.resolve_left outside
    cases found : declared.virtio.findIdx? (·.within a) with
    | none =>
      have missed := List.findIdx?_eq_none_iff.mp found r member
      rw [hit] at missed
      cases missed
    | some k =>
      obtain ⟨bound,_⟩ := List.findIdx?_eq_some_iff_getElem.mp found
      dsimp only
      rw [List.getElem?_eq_getElem bound]
      exact virtioAccess_delivers lawful lawful' obeys bound _ a

variable (maps : Vm.Maps V table) (dependable : VirtualMachine.Dependable V)
include maps dependable

theorem handleIo_delivers (a : IoAccess C)
    (inside : declared.uart.within a = true ∨ ∃ r ∈ declared.virtio, r.within a = true) :
    Delivers (Lenient table base fixed declared present) (handleIo env a : Prog (Runtime V C B N U) _ Unit) := by
  refine .get (fun s here => ?_)
  rw [here.layout,here.strict]
  refine .bind (access_delivers lawful lawful' obeys takes a inside) (fun decoded => ?_)
  refine .bind (seen_delivers a decoded.1) (fun value => ?_)
  exact .bind (setIrq_delivers maps dependable _ _) (fun _ => completeIo_delivers maps dependable _ _)

end Ports

section Transactions
variable (maps : Vm.Maps V table) (dependable : VirtualMachine.Dependable V) (reliable : Mapper.Reliable table)
  (plenty : ¬Exhausted env)
include maps reliable plenty

omit obeys in
theorem process_delivers (memory : present = true) (pinned : List (Nat × Nat)) :
    Delivers (Lenient table base fixed declared present)
      (visit env (declared.virtio.length - 1) (.process pinned) : Prog (Runtime V C B N U) _ Unit) := by
  intro s here
  obtain ⟨m,found,kind⟩ := here.last memory
  obtain ⟨lenient,agreed⟩ := here.agreed m (List.mem_of_getElem? found)
  obtain ⟨d,device⟩ := Option.isSome_iff_exists.mp kind
  have mem : m.device = .mem d := by
    cases only : m.device with
    | mem d' =>
      rw [only] at device
      cases device
      rfl
    | _ =>
      rw [only] at device
      cases device
  refine here.visited lawful lawful' found (process_safe lawful maps.atomic _ pinned) ⟨(),?_⟩
  exact Bay.process_returns lawful lawful' maps.atomic reliable plenty pinned mem (agreed s.world) lenient
    (here.sparse.memory found device).1

include dependable

theorem transact_delivers (memory : present = true) (bound : declared.virtio.length - 1 < declared.virtio.length) :
    Delivers (Lenient table base fixed declared present)
      (transact env declared.virtio.length (declared.virtio.length - 1) : Prog (Runtime V C B N U) _ ControlFlow) := by
  refine .bind (visit_delivers lawful lawful' obeys bound nofun (available_safe _)) (fun available => ?_)
  split
  · exact .pure _
  refine .bind (pause_delivers maps dependable) (fun outcome => ?_)
  split
  · exact .pure _
  refine .bind (pinDevices_delivers lawful lawful' obeys (fun k member => List.mem_range.mp member)) (fun pinned => ?_)
  refine .bind (.bind (device_delivers bound) (fun d => ?_)) (fun _ => ?_)
  · split
    · exact .pure _
    · exact process_delivers lawful lawful' maps reliable plenty memory pinned
  · exact .bind (resume_delivers maps dependable) (fun _ => .pure _)

theorem processMemory_delivers :
    Delivers (Lenient table base fixed declared present) (processMemory env : Prog (Runtime V C B N U) _ ControlFlow) := by
  refine .get (fun s here => ?_)
  rw [here.hasMemory,here.windows]
  split
  · exact .pure _
  rename_i absent
  have memory : present = true := by simpa using absent
  obtain ⟨_,found,_⟩ := here.last memory
  have bound : declared.virtio.length - 1 < declared.virtio.length := by
    have inside := (List.getElem?_eq_some_iff.mp found).1
    rwa [here.windows] at inside
  refine .bind (device_delivers bound) (fun d => ?_)
  refine .bind (visit_delivers lawful lawful' obeys bound nofun (sync_safe _ _)) (fun _ => ?_)
  split
  · exact .pure _
  · exact transact_delivers lawful lawful' obeys maps dependable reliable plenty memory bound

end Transactions
end Visits

/-- What a lenient run may consist of: accesses start in the window of a device, and the loop
polls the devices there are. -/
def Permits (s : Runtime V C B N U) : Label C → Prop
  | .io a => s.layout.uart.within a = true ∨ ∃ r ∈ s.layout.virtio, r.within a = true
  | .poll k => k < s.devices.length
  | _ => True

section Steps
variable [Uart U] (lawful : env.vm.Lawful) (lawful' : env.vq.Lawful) (obeys : Device.Obeys B N .unfailing)
  (takes : Uart.Dependable U) (maps : Vm.Maps V table) (dependable : VirtualMachine.Dependable V)
  (reliable : Mapper.Reliable table) (plenty : ¬Exhausted env)
include lawful lawful' obeys takes maps dependable reliable plenty

theorem Lenient.step (here : s.Lenient table base fixed declared present) {l : Label C} (permitted : s.Permits l) :
    (s.after env l).Lenient table base fixed declared present ∧ ((Runtime.step env l).run s).1 = .ok () := by
  suffices delivered : ((Runtime.step env l).run s).2.Lenient table base fixed declared present ∧
      ∃ a, ((Runtime.step env l).run s).1 = .ok a by
    obtain ⟨kept,_,returned⟩ := delivered
    exact ⟨kept,returned⟩
  cases l with
  | io a =>
    rw [Permits,here.layout] at permitted
    exact handleIo_delivers lawful lawful' obeys takes maps dependable a permitted s here
  | poll k =>
    rw [Permits,here.windows] at permitted
    have polls : Delivers (Lenient table base fixed declared present) (visit env k .poll : Prog (Runtime V C B N U) _ Unit) :=
      visit_delivers lawful lawful' obeys permitted nofun (poll_safe k)
    exact polls s here
  | memory =>
    have memory : Delivers (Lenient table base fixed declared present)
        (processMemory env : Prog (Runtime V C B N U) _ ControlFlow) :=
      processMemory_delivers lawful lawful' obeys maps dependable reliable plenty
    exact Delivers.bind memory (fun _ => .pure ()) s here
  | uartLine => exact setIrq_delivers maps dependable _ _ s here
  | lines => exact setLines_delivers maps dependable _ s here
  | target requested =>
    exact ⟨here.aside rfl rfl rfl rfl (here.sparse.keep rfl (World.request_steady _ _) rfl),(),rfl⟩
  | guest => exact ⟨here.aside rfl rfl rfl rfl (here.sparse.keep rfl (World.tick_steady _) rfl),(),rfl⟩

omit lawful lawful' obeys takes maps dependable reliable plenty in
/-- What is not permitted changes nothing. -/
theorem forbidden_still {l : Label C} (forbidden : ¬s.Permits l) : s.after env l = s := by
  cases l with
  | io a =>
    rw [Permits,not_or] at forbidden
    have missed : s.layout.virtio.findIdx? (·.within a) = none :=
      List.findIdx?_eq_none_iff.mpr (fun r member =>
        Bool.eq_false_iff.mpr (fun hit => forbidden.2 ⟨r,member,hit⟩))
    simp only [after,Runtime.step,handleIo,access,Prog.run_bind,Prog.run_get]
    rw [if_neg forbidden.1,missed]
    rfl
  | poll k =>
    have absent : s.devices[k]? = none := List.getElem?_eq_none (Nat.le_of_not_lt forbidden)
    simp only [after,Runtime.step,visit,Prog.run_mk,absent]
  | _ => exact absurd trivial forbidden

theorem lenient_reached (start : s.Lenient table base fixed declared present) (reached : Reaches (Happens env) s t) :
    t.Lenient table base fixed declared present := by
  refine reached.invariant start (fun u l v here happened => ?_)
  rw [show v = u.after env l from happened]
  by_cases permitted : u.Permits l
  · exact (here.step lawful lawful' obeys takes maps dependable reliable plenty permitted).1
  · rw [forbidden_still permitted]
    exact here

end Steps
end Delivers
end Runtime

namespace Owned

structure Furnished (s t : Owned V B N) : Prop where
  devices : t.devices = s.devices
  layout : t.layout = s.layout
  hasMemory : t.hasMemory = s.hasMemory
  strict : t.strict = s.strict

instance : IsPreorder (Owned V B N) Furnished where
  refl _ := ⟨rfl,rfl,rfl,rfl⟩
  trans _ _ _ first second := ⟨second.devices.trans first.devices,second.layout.trans first.layout,
    second.hasMemory.trans first.hasMemory,second.strict.trans first.strict⟩

section Init
variable [Vm V C]

omit [Vm V C] in
theorem onVm_furnished {ε α : Type} (wrap : ε → Error) (call : V → Except ε α × V) :
    Always Furnished (onVm wrap call : Prog (Owned V B N) _ α) := by
  intro s
  simp only [onVm,Prog.run_mk]
  split <;> exact ⟨rfl,rfl,rfl,rfl⟩

omit [Vm V C] in
theorem allocateBase_furnished (ram : List MemoryRange) :
    Always Furnished (allocateBase env ram : Prog (Owned V B N) _ Unit) := by
  induction ram with
  | nil => exact .pure _
  | cons r rest ih =>
    refine .bind .get (fun s => .bind (Always.mapError (fun _ => ⟨rfl,rfl,rfl,rfl⟩) _) (fun region => ?_))
    exact .bind (.modify (fun _ => ⟨rfl,rfl,rfl,rfl⟩)) (fun _ => ih)

theorem mapBase_furnished (stopping : Control.Stage → Bool) (k : Nat) (regions : List Region) :
    Always Furnished (mapBase stopping k regions : Prog (Owned V B N) _ Bool) := by
  induction regions generalizing k with
  | nil => exact .pure _
  | cons r rest ih =>
    have mapped : Always Furnished (mapRegion r : Prog (Owned V B N) _ Unit) := by
      refine .bind (Always.capture (onVm_furnished _ _)) (fun outcome => ?_)
      cases outcome with
      | error e => exact .bind (.modify (fun _ => ⟨rfl,rfl,rfl,rfl⟩)) (fun _ => .fail _)
      | ok _ => exact .modify (fun _ => ⟨rfl,rfl,rfl,rfl⟩)
    unfold mapBase
    split
    · exact .pure _
    · exact .bind mapped (fun _ => ih (k + 1))

theorem init_furnished (startup : Startup V) : Always Furnished (init env startup : Prog (Owned V B N) _ Unit) := by
  refine .bind .get (fun s => .bind (allocateBase_furnished s.layout.ram) (fun _ => .bind .get (fun s => ?_)))
  refine .bind (.ofExcept _) (fun view => .bind (.modify (fun _ => ⟨rfl,rfl,rfl,rfl⟩)) (fun _ => ?_))
  split
  · exact .pure _
  refine .bind (.ofExcept _) (fun vm => .bind (.modify (fun _ => ⟨rfl,rfl,rfl,rfl⟩)) (fun _ => ?_))
  refine .bind (mapBase_furnished _ 0 _) (fun all => ?_)
  split
  · unfold launch
    split
    · exact .pure _
    refine .bind (onVm_furnished _ _) (fun _ => ?_)
    split
    · exact .pure _
    · exact .bind (onVm_furnished _ _) (fun _ => .modify (fun _ => ⟨rfl,rfl,rfl,rfl⟩))
  · exact .pure _

end Init

structure Equipped [BlockStorage B] [NetDevice N] (s : Owned V B N) : Prop where
  strict : s.strict = false
  agreed : ∀ m ∈ s.devices, m.strict = false ∧ ∀ world, Agreed (⟨m,world,[]⟩ : Slot (Device B N))
  windows : s.devices.length = s.layout.virtio.length
  last : s.hasMemory = true →
    ∃ m, s.devices[s.layout.virtio.length - 1]? = some m ∧ m.device.memory.isSome = true

section New
variable [BlockStorage B] [NetDevice N] {blocks : List (String × B)} {net : Option N} {memory : Option VirtioMem}

omit [BlockStorage B] in
theorem kinds_fits {d : Device B N} (member : .ok d ∈ kinds blocks net memory) : d.Fits := by
  rcases List.mem_append.mp member with backed | last
  · rcases List.mem_append.mp backed with disk | wire
    · obtain ⟨b,_,made⟩ := List.mem_map.mp disk
      obtain ⟨x,new,rfl⟩ := map_eq_ok.mp made
      simp only [Block.new] at new
      split at new
      · cases new
        exact List.length_take_le _ _
      · cases new
    · obtain ⟨n,_,made⟩ := Option.map_eq_some_iff.mp (Option.mem_toList.mp wire)
      obtain ⟨x,new,rfl⟩ := map_eq_ok.mp made
      simp only [Net.new] at new
      split at new
      · cases new
      split at new
      · cases new
      · cases new
        exact Nat.le_trans (Nat.le_add_right _ _) (Nat.le_of_eq List.length_replicate.symm)
  · obtain ⟨_,_,made⟩ := Option.map_eq_some_iff.mp (Option.mem_toList.mp last)
    cases made
    trivial

omit [BlockStorage B] in
theorem kinds_length (blocks : List (String × B)) (net : Option N) (memory : Option VirtioMem) (status : MemoryStatus)
    {memory' : Option VirtioMem} (same : memory'.isSome = memory.isSome) :
    (kinds blocks net memory').length = (requirements blocks net memory status).devices.length := by
  have lasts : (memory'.map (fun d => (.ok (.mem d) : Except DeviceError (Device B N)))).toList.length =
      (memory.map (fun _ => DeviceKind.memory)).toList.length := by
    cases memory <;> cases memory' <;> first | rfl | cases same
  have wires : (net.map (fun n => (Net.new n).map (Device.net (B := B)))).toList.length =
      (net.map (fun _ => DeviceKind.net)).toList.length := by cases net <;> rfl
  simp only [kinds,requirements,List.length_append,List.length_map,lasts,wires]

theorem transports_agreed (lawful' : env.vq.Lawful) {strict : Bool} {made : List (Except DeviceError (Device B N))}
    {devices : List (Mmio (Device B N))} (fits : ∀ d, .ok d ∈ made → Device.Fits d)
    (built : transports env strict made = .ok devices) :
    ∀ m ∈ devices, m.strict = strict ∧ ∀ world, Agreed (⟨m,world,[]⟩ : Slot (Device B N)) := by
  induction made generalizing devices with
  | nil =>
    cases built
    exact List.forall_mem_nil _
  | cons first rest ih =>
    cases first with
    | error e => cases built
    | ok d =>
      simp only [transports] at built
      split at built
      · cases built
      · rename_i m new
        obtain ⟨others,later,rfl⟩ := map_eq_ok.mp built
        refine List.forall_mem_cons.mpr ⟨⟨rfl,fun world => ?_⟩,
          ih (fun x member => fits x (List.mem_cons_of_mem _ member)) later⟩
        exact (new_agreed lawful' (fits d List.mem_cons_self) new strict world).1

theorem transports_last {strict : Bool} {d : VirtioMem} {devices : List (Mmio (Device B N))}
    (built : transports env strict (kinds blocks net (some d)) = .ok devices) :
    ∃ m, devices[devices.length - 1]? = some m ∧ m.device.memory.isSome = true := by
  have last := congrArg List.getLast? (transports_devices built)
  rw [kinds,Option.map_some,Option.toList_some,List.getLast?_concat,List.getLast?_map] at last
  obtain ⟨m,found,same⟩ := Option.map_eq_some_iff.mp last.symm
  refine ⟨m,List.getLast?_eq_getElem? ▸ found,?_⟩
  rw [Except.ok.inj same]
  rfl

theorem new_equipped (lawful' : env.vq.Lawful) {config : VmConfig}
    {layout : VmConfig → DeviceRequirements → Except PlatformError MachineLayout} {world : World} {first : Owned V B N}
    (lenient : config.strict = false) (made : Owned.new env config layout world blocks net memory = .ok first) :
    first.Equipped := by
  obtain ⟨placed,_,checked⟩ := bind_eq_ok.mp made
  obtain ⟨_,validated,built⟩ := bind_eq_ok.mp checked
  obtain ⟨attached,attaching,transported⟩ := bind_eq_ok.mp built
  obtain ⟨devices,behind,rfl⟩ := map_eq_ok.mp transported
  have kept : attached.isSome = memory.isSome := by
    cases memory with
    | none =>
      cases attaching
      rfl
    | some d =>
      simp only [attach] at attaching
      split at attaching
      · cases attaching
      · obtain ⟨d',_,rfl⟩ := map_eq_ok.mp attaching
        rfl
  have windows : devices.length = placed.virtio.length := by
    calc devices.length = (kinds blocks net attached).length := by rw [transports_devices behind,List.length_map]
      _ = (requirements blocks net memory world.control).devices.length := kinds_length blocks net memory _ kept
      _ = placed.virtio.length := (validate_eq_ok.mp (mapError_eq_ok.mp validated)).windows.symm
  have agreed := transports_agreed lawful' (fun _ => kinds_fits) behind
  rw [lenient] at agreed
  refine ⟨lenient,agreed,windows,fun present => ?_⟩
  obtain ⟨d,rfl⟩ := Option.isSome_iff_exists.mp (kept.trans present)
  have last := transports_last behind
  rwa [windows] at last

theorem Furnished.equipped {s t : Owned V B N} (furnished : Furnished s t) (equipped : s.Equipped) : t.Equipped := by
  obtain ⟨devices,layout,hasMemory,strict⟩ := furnished
  refine ⟨strict.trans equipped.strict,?_,?_,?_⟩
  · rw [devices]
    exact equipped.agreed
  · rw [devices,layout]
    exact equipped.windows
  · rw [devices,layout,hasMemory]
    exact equipped.last

end New

section Whole
variable [BlockStorage B] [NetDevice N] [Vm V C] [Uart U] {startup : Startup V} {serial : U} {first s : Owned V B N}
  {vm : V} {t : Runtime V C B N U} {table : V → Nat → Option Region}

/-- In lenient mode nothing the guest does is fatal. Backends keep their contract and never
fail, and neither do the calls on the platform: the mapper refuses nothing it could do, and
there is memory for every allocation. Then in every run, whatever the guest writes to its
registers and to its memory and whatever targets the host sets, the next access that starts
in a window, poll or memory transaction returns, with no error and no violated assertion. -/
theorem guest_never_fatal (lawful : env.vm.Lawful) (lawful' : env.vq.Lawful) (obeys : Device.Obeys B N .unfailing)
    (takes : Uart.Dependable U) (maps : Vm.Maps V table) (dependable : VirtualMachine.Dependable V)
    (reliable : Mapper.Reliable table) (plenty : ¬Exhausted env) (fresh : Fresh startup table) {config : VmConfig}
    (lenient : config.strict = false) {layout : VmConfig → DeviceRequirements → Except PlatformError MachineLayout}
    {world : World} {blocks : List (String × B)} {net : Option N} {memory : Option VirtioMem}
    (supplied : Supplied memory world.control) (made : Owned.new env config layout world blocks net memory = .ok first)
    (brought : (init env startup).run first = (.ok (),s)) (created : s.vm = some vm)
    (reached : Reaches (Runtime.Happens env) (s.enter vm serial) t) (l : Runtime.Label C) (permitted : t.Permits l) :
    ((Runtime.step env l).run t).1 = .ok () := by
  have furnished : Furnished first s := (init_furnished startup).ran brought
  have equipped := furnished.equipped (new_equipped lawful' lenient made)
  have booked : ∃ base fixed, Booked table base fixed s.devices s.world vm := by
    rcases init_installed made supplied maps fresh brought with absent | ⟨base,_,vm',fixed,created',booked,_⟩
    · rw [absent] at created
      cases created
    · cases created.symm.trans created'
      exact ⟨base,fixed,booked⟩
  obtain ⟨base,fixed,booked⟩ := booked
  have start : (s.enter vm serial : Runtime V C B N U).Lenient table base fixed s.layout s.hasMemory :=
    ⟨booked,equipped.agreed,equipped.strict,rfl,equipped.windows,rfl,equipped.last⟩
  have here := Runtime.lenient_reached lawful lawful' obeys takes maps dependable reliable plenty start reached
  exact (here.step lawful lawful' obeys takes maps dependable reliable plenty permitted).2

end Whole
end Owned
end Machines

namespace Reference
open Owned

/-- A disk in memory that never fails. -/
structure Drum where
  bytes : List UInt8

instance : BlockStorage Drum where
  size d := d.bytes.length
  readOnly _ := false
  read d offset data host := (.ok (),d,fill data (d.bytes.drop offset) host)
  write d offset data host :=
    let raw := World.bytesAt host data
    (.ok (),⟨d.bytes.take offset ++ raw ++ d.bytes.drop (offset + raw.length)⟩)
  flush d := (.ok (),d)

structure Drain where
  sent : Nat

instance : NetDevice Drain where
  mtu := 68
  macAddress _ := [2,0,0,0,0,1]
  maxFrameLen _ := 82
  send w _ _ := (.ok true,⟨w.sent + 1⟩)
  recv w _ host := (.ok none,w,host)

theorem drum_drain_obey : Device.Obeys Drum Drain .unfailing where
  disk := ⟨fun never => absurd trivial never,fun _ _ _ _ _ => rfl,fun _ _ _ _ _ => rfl,fun _ _ => rfl⟩
  wire := ⟨fun never => absurd trivial never,fun _ _ _ _ => ⟨true,rfl⟩,fun _ _ _ _ => ⟨none,rfl,nofun⟩⟩

theorem board_dependable : VirtualMachine.Dependable Board := ⟨fun _ _ _ => rfl,fun _ _ _ => rfl,fun _ => ⟨_,rfl⟩,fun _ => rfl⟩

theorem board_reliable : Mapper.Reliable boardTable where
  maps b r absent := Vm.reliable.maps b.vm r absent
  unmaps b r present := Vm.reliable.unmaps b.vm r present

/-- The guest claims nine available chains in a queue of four. -/
def greedyEnv : Env := {env with guest := fun _ _ => replugMemory 9 0}

def builtGreedy : Except (Failure Error) (Owned Board Drum Drain) :=
  Owned.new greedyEnv ⟨1,1,false⟩ lowRam spareWorld [("disk",⟨List.replicate 512 0⟩)] none (some spare)

def greedyLabels : List (Runtime.Label Nat) :=
  .target 2 :: replugDriver.map (fun w => .io ⟨.mmio,0x10002000 + w.1,4,true,w.2.toNat,0⟩)

def greedy : Option (List Bool × List Bool) := do
  let first ← builtGreedy.toOption
  let (.ok (),s) := (init greedyEnv bootPlug).run first | none
  let vm ← s.vm
  let t := (s.enter vm (⟨[]⟩ : Port)).afterAll greedyEnv greedyLabels
  return (t.devices.map Mmio.needsReset,(t.after greedyEnv .memory).devices.map Mmio.needsReset)

theorem greedy_isolated : greedy = some ([false,false],[false,true]) := by
  decide +kernel

/-- The guest is isolated from its memory device, and the machine goes on. -/
theorem guest_never_fatal_greedy :
    ∃ first s vm, builtGreedy = .ok first ∧ (init greedyEnv bootPlug).run first = (.ok (),s) ∧ s.vm = some vm ∧
      ∃ t, t = (s.enter vm (⟨[]⟩ : Port)).afterAll greedyEnv greedyLabels ∧
        t.devices.map Mmio.needsReset = [false,false] ∧
        (t.after greedyEnv .memory).devices.map Mmio.needsReset = [false,true] ∧
        ((Runtime.step greedyEnv .memory).run t).1 = .ok () := by
  have outcome := greedy_isolated
  unfold greedy at outcome
  obtain ⟨first,made,entered⟩ := Option.bind_eq_some_iff.mp outcome
  split at entered
  next s brought =>
    obtain ⟨vm,created,ended⟩ := Option.bind_eq_some_iff.mp entered
    obtain ⟨before,after⟩ := Prod.mk.inj (Option.some.inj ended)
    have made : builtGreedy = .ok first := by
      cases built : builtGreedy <;> simp_all [Except.toOption]
    have supplied : Supplied (some spare) spareWorld.control := by
      intro d same
      obtain rfl := Option.some.inj same
      exact ⟨128,2,[],_,rfl,rfl⟩
    have lawful : greedyEnv.vm.Lawful := env_vm_lawful
    have lawful' : greedyEnv.vq.Lawful := env_vq_lawful
    have plenty : ¬Exhausted greedyEnv := VirtioMem.env_allocates
    have takes : Uart.Dependable Port := fun _ _ _ => rfl
    refine ⟨first,s,vm,made,brought,created,_,rfl,before,after,?_⟩
    exact Owned.guest_never_fatal lawful lawful' drum_drain_obey takes board_maps board_dependable board_reliable plenty
      bootPlug_fresh rfl supplied made brought created (Runtime.reaches_afterAll _ greedyLabels) .memory trivial
  · cases entered

end Reference
end WVmm
