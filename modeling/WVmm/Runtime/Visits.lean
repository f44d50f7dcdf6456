import WVmm.Runtime.Model
import WVmm.Devices.Configure
import WVmm.Lib.Runs

/-! Every step of the runtime is a sequence of visits, made under the conditions
the runtime checks, with calls on the machine in between. -/
namespace WVmm
open Lib.Effect Lib.Runs Devices Platform

/-- What the runtime knows of a device when it asks for an operation. -/
def Operation.Asked {D : Type} (m : Mmio D) : Operation → Prop
  | .write _ _ => True
  | .poll => True
  | .sync active => active = m.active
  | .available => m.active = true
  | .pinned => m.needsReset = false
  | .process _ => m.active = true ∧ m.needsReset = false

instance {D : Type} (m : Mmio D) : (op : Operation) → Decidable (op.Asked m)
  | .write _ _ => isTrue trivial
  | .poll => isTrue trivial
  | .sync active => inferInstanceAs (Decidable (active = m.active))
  | .available => inferInstanceAs (Decidable (m.active = true))
  | .pinned => inferInstanceAs (Decidable (m.needsReset = false))
  | .process _ => inferInstanceAs (Decidable (m.active = true ∧ m.needsReset = false))

namespace Runtime

variable {V C B N U : Type} {env : Env}

/-- A program that leaves devices and view alone and logs no visit. -/
def Beside {α : Type} (m : Prog (Runtime V C B N U) (Failure Error) α) : Prop :=
  ∀ s, (m.run s).2.devices = s.devices ∧ (m.run s).2.world.view = s.world.view ∧
    ∃ calls, (m.run s).2.log = s.log ++ calls ∧ ∀ v, .visit v ∉ calls

/-- An operation that returned, or whose error was contained, keeps the status or
sets DEVICE_NEEDS_RESET. -/
def Steady (m m' : Mmio (Device B N)) : Prop := m'.status = m.status ∨ m'.needsReset = true

theorem isolate_needsReset {D : Type} (m : Mmio D) : m.isolate.needsReset = true := by
  have set : (m.status ||| NEEDS_RESET) &&& NEEDS_RESET ≠ 0 := by
    intro clear
    have bit := congrArg (fun w => w.getLsbD 6) clear
    simp [NEEDS_RESET] at bit
  have status : m.isolate.status = m.status ||| NEEDS_RESET := by
    simp only [Mmio.isolate]
    split <;> rfl
  rw [Mmio.needsReset,status,bne_iff_ne]
  exact set

theorem settled_steady {α : Type} {s t : Slot (Device B N)} (status : t.mmio.status = s.mmio.status)
    (r : Except (Failure DeviceError) α) : Steady s.mmio (Mmio.settled t r).2.mmio := by
  rcases Mmio.settled_slot t r with same | isolated
  · rw [same]
    exact .inl status
  · rw [isolated]
    exact .inr (isolate_needsReset _)

def Alert (k : Nat) (devices : List (Mmio (Device B N))) : Prop :=
  ∀ m, devices[k]? = some m → m.active = true ∨ m.needsReset = true

theorem Steady.alert {m m' : Mmio (Device B N)} (steady : Steady m m')
    (before : m.active = true ∨ m.needsReset = true) : m'.active = true ∨ m'.needsReset = true := by
  rcases steady with same | isolated
  · rwa [Mmio.active,Mmio.needsReset,same]
  · exact .inr isolated

theorem Alert.set {last k : Nat} {devices : List (Mmio (Device B N))} {m m' : Mmio (Device B N)}
    (alert : Alert last devices) (found : devices[k]? = some m) (steady : Steady m m') :
    Alert last (devices.set k m') := by
  intro d present
  rw [List.getElem?_set] at present
  split at present
  · rename_i same
    split at present
    · cases present
      exact steady.alert (alert m (same ▸ found))
    · cases present
  · exact alert d present

def target (w : World) : Nat := wrappingMul w.control.requestedSizeMib MIB

def synced (active : Bool) (s : Slot (Device B N)) : Slot (Device B N) :=
  let world := {s.world with control := {s.world.control with driverReady := active}}
  match s.mmio.device with
  | .mem d =>
    if target s.world = d.requested then {s with world := world}
    else {s with
      world := world
      mmio := Mmio.configChanged {s.mmio with device := .mem {d with
        requested := target s.world
        generation := (d.generation + 1) % 2^32}}}
  | _ => s

/-- The device adopts a target that differs from its own. -/
theorem syncTarget_cell {ε : Type} (active : Bool) (c : Cell VirtioMem) :
    (VirtioMem.syncTarget active : Prog (Cell VirtioMem) ε Bool).run c =
      let ready := {c with world := {c.world with control := {c.world.control with driverReady := active}}}
      if target c.world = c.device.requested then (.ok false,ready)
      else (.ok true,{ready with device := {c.device with
        requested := target c.world
        generation := (c.device.generation + 1) % 2^32}}) := by
  simp only [VirtioMem.syncTarget,VirtioMem.adopt,Prog.run_bind,Prog.run_modify,Prog.run_get]
  by_cases same : target c.world = c.device.requested
  · rw [if_pos same,if_pos (show wrappingMul c.world.control.requestedSizeMib MIB = _ from same)]
    rfl
  · rw [if_neg same,if_neg (show ¬wrappingMul c.world.control.requestedSizeMib MIB = _ from same)]
    rfl

theorem syncTarget_run (active : Bool) (s : Slot (Device B N)) :
    (Bay.syncTarget active).run s = (.ok (),synced active s) := by
  obtain ⟨⟨device,queues,_,_,_,_,_,_,_⟩,world,trace⟩ := s
  cases device with
  | block d => rfl
  | net d => rfl
  | mem d =>
    simp only [Bay.syncTarget,Prog.run_bind,Prog.run_get,Slot.onCell,Cell.focus,Prog.run_zoom,Slot.cell,
      syncTarget_cell,synced]
    by_cases same : target world = d.requested
    · simp only [if_pos same]
      rfl
    · simp only [if_neg same]
      rfl

theorem synced_status (active : Bool) (s : Slot (Device B N)) :
    (synced active s).mmio.status = s.mmio.status := by
  unfold synced
  split
  · split <;> rfl
  · rfl

theorem synced_quiet (active : Bool) (s : Slot (Device B N)) :
    (synced active s).world.host = s.world.host ∧ (synced active s).world.view = s.world.view ∧
      (synced active s).trace = s.trace ∧
      (synced active s).mmio.queues.rings = s.mmio.queues.rings := by
  unfold synced
  split
  · split <;> exact ⟨rfl,rfl,rfl,rfl⟩
  · exact ⟨rfl,rfl,rfl,rfl⟩

def Awake (k : Nat) (devices : List (Mmio (Device B N))) : Prop :=
  ∀ m, devices[k]? = some m → m.active = true

def afterSync (s : Runtime V C B N U) (k : Nat) (m : Mmio (Device B N)) : Runtime V C B N U :=
  s.visited k (.sync m.active) m ⟨synced m.active ⟨m,s.world,[]⟩,s.vm⟩

theorem afterSync_awake {s : Runtime V C B N U} {k : Nat} {m : Mmio (Device B N)}
    (found : s.devices[k]? = some m) (active : m.active = true) : Awake k (s.afterSync k m).devices := by
  intro m' present
  simp only [afterSync,visited,List.getElem?_set_self (List.getElem?_eq_some_iff.mp found).1] at present
  cases present
  rwa [Mmio.active,synced_status]

theorem device_run (k : Nat) (s : Runtime V C B N U) :
    (device k).run s = match s.devices[k]? with
      | some m => (.ok m,s)
      | none => (.error (.panic .index),s) := by
  simp only [device,Prog.run_bind,Prog.run_get]
  cases s.devices[k]? <;> rfl

theorem uartValue_beside [Uart U] (offset : Nat) (a : IoAccess C) :
    Beside (uartValue offset a : Prog (Runtime V C B N U) (Failure Error) _) := by
  intro s
  unfold uartValue
  split
  · split
    · simp only [uartWrite,Prog.run_bind,Prog.run_get,Prog.run_modify,record,Prog.run_ofExcept]
      rcases (Uart.write s.serial offset (UInt8.ofNat a.value)).1 with e | _
      · exact ⟨rfl,rfl,[.uartWrite _ _],rfl,by simp⟩
      · exact ⟨rfl,rfl,[.uartWrite _ _],rfl,by simp⟩
    · exact ⟨rfl,rfl,[.uartRead _],rfl,by simp⟩
  · exact ⟨rfl,rfl,[],(List.append_nil _).symm,by simp⟩

def visitsTo (k : Nat) (log : List (Call C B N)) : List (Visit B N) :=
  log.filterMap (fun
    | .visit v => if v.device = k then some v else none
    | _ => none)

theorem mem_visitsTo {k : Nat} {calls : List (Call C B N)} {v : Visit B N} (member : v ∈ visitsTo k calls) :
    .visit v ∈ calls ∧ v.device = k := by
  obtain ⟨call,inside,chosen⟩ := List.mem_filterMap.mp member
  cases call with
  | visit w =>
    dsimp only at chosen
    split at chosen
    · cases chosen
      exact ⟨inside,‹_›⟩
    · cases chosen
  | _ => cases chosen

/-- A transport is handed on from visit to visit. -/
def Linked (m : Mmio (Device B N)) : List (Visit B N) → Mmio (Device B N) → Prop
  | [], m' => m' = m
  | v::rest, m' => v.before.mmio = m ∧ Linked v.after.mmio rest m'

theorem Linked.append {m m' m'' : Mmio (Device B N)} {vs ws : List (Visit B N)} (first : Linked m vs m')
    (second : Linked m' ws m'') : Linked m (vs ++ ws) m'' := by
  induction vs generalizing m with
  | nil =>
    cases first
    exact second
  | cons v rest ih => exact ⟨first.1,ih first.2⟩

structure Made (V : Type) [Mapper V] [BlockStorage B] [NetDevice N] (env : Env) (v : Visit B N) : Prop where
  asked : v.operation.Asked v.before.mmio
  untraced : v.before.trace = []
  performed : ∃ vm : V, v.after = ((Bay.perform env v.operation).run ⟨v.before,vm⟩).2.slot

variable [VirtualMachine V C]

theorem setIrq_beside (irq : Nat) (level : Bool) :
    Beside (setIrq irq level : Prog (Runtime V C B N U) (Failure Error) Unit) :=
  fun _ => ⟨rfl,rfl,[.setIrq irq level],rfl,by simp⟩

theorem completeIo_beside (completion : C) (value : Nat) :
    Beside (completeIo completion value : Prog (Runtime V C B N U) (Failure Error) Unit) :=
  fun _ => ⟨rfl,rfl,[.completeIo completion value],rfl,by simp⟩

theorem pause_beside : Beside (pause : Prog (Runtime V C B N U) (Failure Error) PauseOutcome) := by
  intro s
  simp only [pause,Prog.run_bind,Prog.run_get,Prog.run_modify,record,platform,Prog.run_ofExcept]
  rcases (VirtualMachine.pause s.vm).1 with e | _ | _
  · exact ⟨rfl,rfl,[.pause],rfl,by simp⟩
  · exact ⟨rfl,rfl,[.pause],rfl,by simp⟩
  · exact ⟨rfl,rfl,[.pause],rfl,by simp⟩

theorem resume_beside : Beside (resume : Prog (Runtime V C B N U) (Failure Error) Unit) := by
  intro s
  simp only [resume,Prog.run_bind,Prog.run_get,Prog.run_modify,record,platform,Prog.run_ofExcept]
  rcases (VirtualMachine.resume s.vm).1 with e | _
  · exact ⟨rfl,rfl,[.resume],rfl,by simp⟩
  · exact ⟨rfl,rfl,[.resume],rfl,by simp⟩

theorem setLines_beside (lines : List (Mmio (Device B N) × IoRegion)) :
    Beside (setLines lines : Prog (Runtime V C B N U) (Failure Error) Unit) := by
  induction lines with
  | nil => exact fun s => ⟨rfl,rfl,[],by simp [setLines],by simp⟩
  | cons line rest ih =>
    intro s
    simp only [setLines,Prog.run_bind]
    obtain ⟨devices,view,calls,log,none⟩ := setIrq_beside line.2.irq line.1.interruptPending s
    revert devices view log
    rcases (setIrq line.2.irq line.1.interruptPending : Prog (Runtime V C B N U) _ _).run s with ⟨e | _,t⟩
    · exact fun devices view log => ⟨devices,view,calls,log,none⟩
    · intro devices view log
      obtain ⟨devices',view',calls',log',none'⟩ := ih t
      refine ⟨devices'.trans devices,view'.trans view,calls ++ calls',?_,?_⟩
      · exact log'.trans (by rw [log,List.append_assoc])
      · intro v member
        exact (List.mem_append.mp member).elim (none v) (none' v)

theorem process_status (pinned : List (Nat × Nat)) (b : Bay V (Device B N)) :
    ((Bay.process env pinned).run b).2.slot.mmio.status = b.slot.mmio.status := by
  simp only [Bay.process,Prog.run_mk]
  cases b.slot.mmio.device <;> rfl

variable [BlockStorage B] [NetDevice N]

/-- A visit of an allowed kind, or anything that leaves the devices and the view
alone. -/
inductive Small (env : Env) (allowed : Operation → Prop) (s : Runtime V C B N U) : Runtime V C B N U → Prop
  | visit {k : Nat} {op : Operation} {m : Mmio (Device B N)} (found : s.devices[k]? = some m)
      (asked : op.Asked m) (permitted : allowed op) :
      Small env allowed s (s.visited k op m ((Bay.perform env op).run ⟨⟨m,s.world,[]⟩,s.vm⟩).2)
  | aside {t : Runtime V C B N U} (devices : t.devices = s.devices) (view : t.world.view = s.world.view)
      (log : ∃ calls, t.log = s.log ++ calls ∧ ∀ v, .visit v ∉ calls) : Small env allowed s t

def Follows (env : Env) (allowed : Operation → Prop) : Runtime V C B N U → Runtime V C B N U → Prop :=
  Relation.ReflTransGen (Small env allowed)

def Stepwise {α : Type} (env : Env) (allowed : Operation → Prop) (pre : Runtime V C B N U → Prop)
    (m : Prog (Runtime V C B N U) (Failure Error) α) (post : α → Runtime V C B N U → Prop) : Prop :=
  Triple pre (Follows env allowed) (fun _ => True) m post

variable {allowed : Operation → Prop}

namespace Stepwise

variable {α β : Type} {pre : Runtime V C B N U → Prop} {m : Prog (Runtime V C B N U) (Failure Error) α}
  {post : α → Runtime V C B N U → Prop}

theorem pure {a : α} (holds : ∀ s, pre s → post a s) : Stepwise env allowed pre (Pure.pure a) post :=
  Triple.consequence (Triple.pure (fun _ => .refl) a) holds (fun _ _ here => here)

theorem fail {f : Failure Error} : Stepwise env allowed pre (Prog.fail f) post :=
  Triple.fail (fun _ => .refl) f trivial

theorem bind {f : α → Prog (Runtime V C B N U) (Failure Error) β} {after : β → Runtime V C B N U → Prop}
    (first : Stepwise env allowed pre m post) (rest : ∀ a, Stepwise env allowed (post a) (f a) after) :
    Stepwise env allowed pre (m >>= f) after :=
  Triple.bind (fun _ _ _ => .trans) first rest

theorem mono {ends : α → Runtime V C B N U → Prop} (stepwise : Stepwise env allowed pre m post)
    (weaker : ∀ a s, post a s → ends a s) : Stepwise env allowed pre m ends :=
  Triple.consequence stepwise (fun _ here => here) weaker

theorem enter {pre' : Runtime V C B N U → Prop} (stepwise : Stepwise env allowed pre m post)
    (stronger : ∀ s, pre' s → pre s) : Stepwise env allowed pre' m post :=
  Triple.consequence stepwise stronger (fun _ _ holds => holds)

theorem get {f : Runtime V C B N U → Prog (Runtime V C B N U) (Failure Error) β}
    {after : β → Runtime V C B N U → Prop}
    (rest : ∀ s, pre s → Stepwise env allowed (fun now => now = s ∧ pre now) (f s) after) :
    Stepwise env allowed pre (Prog.get >>= f) after :=
  fun s here => rest s here s ⟨rfl,here⟩

theorem aside {f : Runtime V C B N U → Runtime V C B N U} {ends : Runtime V C B N U → Prop}
    (moves : ∀ s, pre s → Small env allowed s (f s) ∧ ends (f s)) :
    Stepwise env allowed pre (Prog.modify f) (fun _ s => ends s) :=
  Triple.modify (fun s here => ⟨.single (moves s here).1,(moves s here).2⟩)

theorem ofExcept {r : Except (Failure Error) α} :
    Stepwise env allowed pre (Prog.ofExcept r) (fun _ s => pre s) :=
  Triple.ofExcept (fun _ => .refl) r (fun _ _ here _ => here) (fun _ _ => trivial)

end Stepwise

theorem Beside.steps {α : Type} {m : Prog (Runtime V C B N U) (Failure Error) α} (beside : Beside m)
    (fact : List (Mmio (Device B N)) → Prop) : Stepwise env allowed (fun s => fact s.devices) m (fun _ s => fact s.devices) := by
  intro s here
  obtain ⟨devices,view,log⟩ := beside s
  refine ⟨.single (.aside devices view log),?_,fun _ _ => trivial⟩
  intro _ _
  rwa [devices]

theorem device_steps (fact : List (Mmio (Device B N)) → Prop) (k : Nat) :
    Stepwise env allowed (fun s : Runtime V C B N U => fact s.devices) (device k)
      (fun m s => fact s.devices ∧ s.devices[k]? = some m) := by
  intro s here
  rw [device_run]
  cases found : s.devices[k]? with
  | none => exact ⟨.refl,fun _ returned => (by cases returned),fun _ _ => trivial⟩
  | some m =>
    refine ⟨.refl,?_,fun _ _ => trivial⟩
    intro m' returned
    cases returned
    exact ⟨here,found⟩

theorem visit_steps (fact ends : List (Mmio (Device B N)) → Prop) (k : Nat) (op : Operation)
    (permitted : allowed op)
    (asked : ∀ s : Runtime V C B N U, fact s.devices → ∀ m, s.devices[k]? = some m → op.Asked m)
    (lasts : ∀ (s : Runtime V C B N U) m, fact s.devices → s.devices[k]? = some m →
      ends (s.devices.set k ((Bay.perform env op).run ⟨⟨m,s.world,[]⟩,s.vm⟩).2.slot.mmio)) :
    Stepwise env allowed (fun s : Runtime V C B N U => fact s.devices) (visit env k op)
      (fun _ s => ends s.devices) := by
  intro s here
  simp only [visit,Prog.run_mk]
  cases found : s.devices[k]? with
  | none => exact ⟨.refl,fun _ returned => (by cases returned),fun _ _ => trivial⟩
  | some m =>
    exact ⟨.single (.visit found (asked s here m found) permitted),fun _ _ => lasts s m here found,fun _ _ => trivial⟩

theorem free_visit_steps (k : Nat) (op : Operation) (permitted : allowed op)
    (asked : ∀ m : Mmio (Device B N), op.Asked m) :
    Stepwise env allowed (fun _ : Runtime V C B N U => True) (visit env k op) (fun _ _ => True) :=
  visit_steps (fun _ => True) (fun _ => True) k op permitted (fun _ _ m _ => asked m) (fun _ _ _ _ => trivial)

/-- What the visits of the memory transaction come to. -/
theorem available_slot (b : Bay V (Device B N)) :
    ((Bay.perform env .available).run b).2.slot =
      (Mmio.settled (b.slot.putCell ((Queues.available env 0).run b.slot.cell).2)
        ((Queues.available env 0).run b.slot.cell).1).2 :=
  congrArg Prod.snd (Mmio.contained_run (Queues.available env 0) b.slot)

theorem pinned_slot (b : Bay V (Device B N)) :
    ((Bay.perform env .pinned).run b).2.slot =
      (Mmio.settled
        {b.slot with world := ((Queues.pinned env b.slot.mmio.queues).run b.slot.world).2}
        ((Queues.pinned env b.slot.mmio.queues).run b.slot.world).1).2 :=
  congrArg Prod.snd (Mmio.contained_run (Cell.onWorld (Queues.pinned env b.slot.mmio.queues)) b.slot)

/-- What is contained of a transaction on the memory device. -/
theorem process_performed (pinned : List (Nat × Nat)) (b : Bay V (Device B N)) :
    (Bay.perform env (.process pinned)).run b =
      ((Mmio.settled ((Bay.process env pinned).run b).2.slot ((Bay.process env pinned).run b).1).1.map (fun _ => ()),
        {((Bay.process env pinned).run b).2 with
          slot := (Mmio.settled ((Bay.process env pinned).run b).2.slot ((Bay.process env pinned).run b).1).2}) := by
  simp only [Bay.perform,Prog.run_bind,Prog.run_capture,Bay.onSlot,Prog.run_zoom,Mmio.contain_run]
  generalize Mmio.settled _ _ = outcome
  rcases outcome with ⟨e | _,t⟩ <;> rfl

theorem process_slot (pinned : List (Nat × Nat)) (b : Bay V (Device B N)) :
    ((Bay.perform env (.process pinned)).run b).2.slot =
      (Mmio.settled ((Bay.process env pinned).run b).2.slot ((Bay.process env pinned).run b).1).2 := by
  rw [process_performed]

theorem available_steady (b : Bay V (Device B N)) :
    Steady b.slot.mmio ((Bay.perform env .available).run b).2.slot.mmio := by
  rw [available_slot]
  exact settled_steady rfl _

theorem pinned_steady (b : Bay V (Device B N)) :
    Steady b.slot.mmio ((Bay.perform env .pinned).run b).2.slot.mmio := by
  rw [pinned_slot]
  exact settled_steady rfl _

theorem pinDevice_steps (permitted : allowed .pinned) (last k : Nat) :
    Stepwise env allowed (fun s : Runtime V C B N U => Alert last s.devices) (pinDevice env k)
      (fun _ s => Alert last s.devices) := by
  refine .bind (device_steps (Alert last) k) (fun d => ?_)
  split
  · exact .pure (fun _ here => here.1)
  · rename_i working
    have pins : Stepwise env allowed
        (fun s : Runtime V C B N U => Alert last s.devices ∧ s.devices[k]? = some d)
        (visit env k .pinned) (fun _ s => Alert last s.devices) := by
      refine visit_steps (fun devices => Alert last devices ∧ devices[k]? = some d) (Alert last) k .pinned
        permitted ?_ ?_
      · intro s here m found
        cases here.2.symm.trans found
        exact Bool.eq_false_iff.mpr working
      · exact fun s m here found => here.1.set found (pinned_steady _)
    exact .bind pins (fun _ => .pure (fun _ alert => alert))

theorem pinDevices_steps (permitted : allowed .pinned) (last : Nat) (ks : List Nat) :
    Stepwise env allowed (fun s : Runtime V C B N U => Alert last s.devices) (pinDevices env ks)
      (fun _ s => Alert last s.devices) := by
  induction ks with
  | nil => exact .pure (fun _ alert => alert)
  | cons k rest ih =>
    exact .bind (pinDevice_steps permitted last k) (fun _ => .bind ih (fun _ => .pure (fun _ alert => alert)))

/-- The memory device is processed while it is active. -/
theorem processLast_steps (last : Nat) (pinned : List (Nat × Nat)) (permitted : allowed (.process pinned)) :
    Stepwise env allowed (fun s : Runtime V C B N U => Alert last s.devices) (processLast env last pinned)
      (fun _ _ => True) := by
  refine .bind (device_steps (Alert last) last) (fun m => ?_)
  split
  · exact .pure (fun _ _ => trivial)
  · rename_i working
    have clear : m.needsReset = false := Bool.eq_false_iff.mpr working
    refine visit_steps (fun devices => Alert last devices ∧ devices[last]? = some m) (fun _ => True) last _
      permitted ?_ (fun _ _ _ _ => trivial)
    intro s here m' found
    cases here.2.symm.trans found
    exact ⟨(here.1 m found).resolve_right (by rw [clear]; nofun),clear⟩

/-- What a memory transaction may ask for once the target is adopted. -/
structure Transacts (allowed : Operation → Prop) : Prop where
  available : allowed .available
  pinned : allowed .pinned
  process : ∀ pinned, allowed (.process pinned)

theorem transact_steps (permitted : Transacts allowed) (count last : Nat) :
    Stepwise env allowed (fun s : Runtime V C B N U => Awake last s.devices) (transact env count last)
      (fun _ _ => True) := by
  have checks : Stepwise env allowed (fun s : Runtime V C B N U => Awake last s.devices)
      (visit env last .available) (fun _ s => Alert last s.devices) := by
    refine visit_steps (Awake last) (Alert last) last .available permitted.available
      (fun s here m found => here m found) ?_
    intro s m here found m' present
    rw [List.getElem?_set_self (List.getElem?_eq_some_iff.mp found).1] at present
    cases present
    exact (available_steady ⟨⟨m,s.world,[]⟩,s.vm⟩).alert (.inl (here m found))
  refine .bind checks (fun available => ?_)
  split
  · exact .pure (fun _ _ => trivial)
  refine .bind (pause_beside.steps (Alert last)) (fun outcome => ?_)
  split
  · exact .pure (fun _ _ => trivial)
  refine .bind (pinDevices_steps permitted.pinned last _) (fun pinned => ?_)
  refine .bind (processLast_steps last pinned (permitted.process pinned)) (fun _ => ?_)
  exact .bind (resume_beside.steps (fun _ => True)) (fun _ => .pure (fun _ _ => trivial))

/-- The memory step: nothing without a memory device; else the target is looked
at once, and whatever follows asks for no further look. -/
theorem processMemory_follows (permitted : Transacts allowed) (s : Runtime V C B N U) :
    ((processMemory env).run s).2 = s ∨ ∃ m, s.hasMemory = true ∧
      s.devices[s.devices.length - 1]? = some m ∧
      Follows env allowed (s.afterSync (s.devices.length - 1) m) ((processMemory env).run s).2 := by
  simp only [processMemory,Prog.run_bind,Prog.run_get]
  split
  · exact .inl rfl
  · rename_i present
    simp only [Prog.run_bind,device_run]
    cases found : s.devices[s.devices.length - 1]? with
    | none => exact .inl rfl
    | some m =>
      refine .inr ⟨m,by simpa using present,rfl,?_⟩
      have synced : (visit env (s.devices.length - 1) (.sync m.active)).run s =
          (.ok (),s.afterSync (s.devices.length - 1) m) := by
        simp only [visit,Prog.run_mk,found,Bay.perform,Bay.onSlot,Prog.run_zoom,syncTarget_run]
        rfl
      dsimp only
      rw [synced]
      dsimp only
      split
      · exact .refl
      · rename_i working
        exact (transact_steps permitted _ _ _ (afterSync_awake found (by simpa using working))).1

theorem virtioValue_steps (permitted : ∀ offset value, allowed (.write offset value)) (k : Nat) (region : IoRegion) (a : IoAccess C) (d : Mmio (Device B N)) :
    Stepwise env allowed (fun _ : Runtime V C B N U => True) (virtioValue env k region a d) (fun _ _ => True) := by
  unfold virtioValue
  dsimp only
  split
  · exact .pure (fun _ _ => trivial)
  split
  · exact .pure (fun _ _ => trivial)
  split
  · exact .bind (free_visit_steps k _ (permitted _ _) (fun _ => trivial)) (fun _ => .pure (fun _ _ => trivial))
  · exact .pure (fun _ _ => trivial)

theorem virtioAccess_steps (permitted : ∀ offset value, allowed (.write offset value)) (k : Nat) (region : IoRegion) (a : IoAccess C) :
    Stepwise env allowed (fun _ : Runtime V C B N U => True) (virtioAccess env k region a) (fun _ _ => True) := by
  have look : Stepwise env allowed (fun _ : Runtime V C B N U => True) (device k) (fun _ _ => True) :=
    (device_steps (fun _ => True) k).mono (fun _ _ _ => trivial)
  exact .bind look (fun d => .bind (virtioValue_steps permitted k region a d) (fun _ => .bind look (fun _ =>
    .pure (fun _ _ => trivial))))

theorem seen_steps (strict : Bool) (a : IoAccess C) (decoded : Option Nat) :
    Stepwise env allowed (fun _ : Runtime V C B N U => True) (seen strict a decoded) (fun _ _ => True) := by
  unfold seen
  split
  · exact .pure (fun _ _ => trivial)
  split
  · exact .fail
  split
  · exact .pure (fun _ _ => trivial)
  split
  · exact .pure (fun _ _ => trivial)
  · exact .pure (fun _ _ => trivial)

/-- What a run tells of each device: its visits, each made by the runtime, lead
from its first transport to its last one. -/
theorem follows_history {s t : Runtime V C B N U} (follows : Follows env allowed s t) :
    ∃ calls, t.log = s.log ++ calls ∧ (∀ v, .visit v ∈ calls → Made V env v) ∧
      ∀ (k : Nat) m, s.devices[k]? = some m → ∃ m', t.devices[k]? = some m' ∧ Linked m (visitsTo k calls) m' := by
  induction follows with
  | refl => exact ⟨[],(List.append_nil _).symm,by simp,fun k m found => ⟨m,found,rfl⟩⟩
  | @tail t u _ taken ih =>
    obtain ⟨calls,log,made,linked⟩ := ih
    cases taken with
    | aside devices view more =>
      obtain ⟨calls',log',none⟩ := more
      have silent : ∀ k, visitsTo k calls' = [] := by
        intro k
        refine List.filterMap_eq_nil_iff.mpr (fun call member => ?_)
        cases call with
        | visit v => exact absurd member (none v)
        | _ => rfl
      refine ⟨calls ++ calls',by rw [log',log,List.append_assoc],?_,?_⟩
      · intro v member
        exact (List.mem_append.mp member).elim (made v) (fun later => absurd later (none v))
      · intro k m found
        obtain ⟨m',found',chain⟩ := linked k m found
        refine ⟨m',by rw [devices]; exact found',?_⟩
        rw [visitsTo,List.filterMap_append]
        change Linked m (visitsTo k calls ++ visitsTo k calls') m'
        rwa [silent k,List.append_nil]
    | @visit k op m present asked _ =>
      refine ⟨calls ++ [.visit ⟨k,op,⟨m,t.world,[]⟩,((Bay.perform env op).run ⟨⟨m,t.world,[]⟩,t.vm⟩).2.slot⟩],
        by simp only [visited,log,List.append_assoc],?_,?_⟩
      · intro v member
        rcases List.mem_append.mp member with old | new
        · exact made v old
        · cases List.mem_singleton.mp new
          exact ⟨asked,rfl,t.vm,rfl⟩
      · intro k' first found
        obtain ⟨m',found',chain⟩ := linked k' first found
        rw [visitsTo,List.filterMap_append]
        simp only [visited]
        by_cases same : k = k'
        · subst same
          cases found'.symm.trans present
          refine ⟨_,List.getElem?_set_self (List.getElem?_eq_some_iff.mp present).1,?_⟩
          refine chain.append ?_
          simp only [List.filterMap_cons,List.filterMap_nil,if_true]
          exact ⟨rfl,rfl⟩
        · refine ⟨m',by rw [List.getElem?_set_ne same]; exact found',?_⟩
          simp only [List.filterMap_cons,List.filterMap_nil,if_neg same,List.append_nil]
          exact chain

/-- What every visit keeps of a device holds of every device along the way. -/
theorem Follows.devices {inv : Mmio (Device B N) → Prop} {s t : Runtime V C B N U}
    (kept : ∀ op (b : Bay V (Device B N)), op.Asked b.slot.mmio → allowed op → inv b.slot.mmio →
      inv ((Bay.perform env op).run b).2.slot.mmio)
    (follows : Follows env allowed s t) (start : ∀ m ∈ s.devices, inv m) : ∀ m ∈ t.devices, inv m := by
  induction follows with
  | refl => exact start
  | tail _ taken ih =>
    cases taken with
    | aside devices _ _ =>
      intro m member
      rw [devices] at member
      exact ih m member
    | visit found asked permitted =>
      intro m member
      rcases List.mem_or_eq_of_mem_set member with old | rfl
      · exact ih m old
      · exact kept _ _ asked permitted (ih _ (List.mem_of_getElem? found))

theorem Follows.count {s t : Runtime V C B N U} (follows : Follows env allowed s t) :
    t.devices.length = s.devices.length := by
  induction follows with
  | refl => rfl
  | tail _ taken ih =>
    cases taken with
    | aside devices _ _ => rw [devices,ih]
    | visit found _ _ => rw [visited,List.length_set,ih]

variable [Uart U]

theorem access_steps (permitted : ∀ offset value, allowed (.write offset value)) (layout : MachineLayout) (a : IoAccess C) :
    Stepwise env allowed (fun _ : Runtime V C B N U => True) (access env layout a) (fun _ _ => True) := by
  unfold access
  split
  · refine .bind ((uartValue_beside _ a).steps (fun _ => True)) (fun _ => .get (fun s _ => ?_))
    exact .pure (fun _ _ => trivial)
  split
  · split
    · exact virtioAccess_steps permitted _ _ a
    · exact .fail
  · exact .fail

theorem handleIo_steps (permitted : ∀ offset value, allowed (.write offset value)) (a : IoAccess C) :
    Stepwise env allowed (fun _ : Runtime V C B N U => True) (handleIo env a) (fun _ _ => True) := by
  refine .get (fun s _ => Stepwise.enter ?_ (fun _ _ => trivial))
  refine .bind (access_steps permitted s.layout a) (fun decoded => ?_)
  refine .bind (seen_steps s.strict a decoded.1) (fun value => ?_)
  exact .bind ((setIrq_beside _ _).steps (fun _ => True)) (fun _ =>
    (completeIo_beside a.completion value).steps (fun _ => True))

theorem step_follows_plain (writes : ∀ offset value, allowed (.write offset value)) (polls : allowed .poll)
    (s : Runtime V C B N U) (l : Label C) (other : l ≠ .memory) : Follows env allowed s (s.after env l) := by
  cases l with
  | io a => exact (handleIo_steps writes a s trivial).1
  | poll k => exact (free_visit_steps k .poll polls (fun _ => trivial) s trivial).1
  | memory => exact absurd rfl other
  | uartLine => exact ((setIrq_beside _ _).steps (fun _ => True) s trivial).1
  | lines => exact ((setLines_beside _).steps (fun _ => True) s trivial).1
  | target requested => exact .single (.aside rfl rfl ⟨[],(List.append_nil _).symm,by simp⟩)
  | guest => exact .single (.aside rfl rfl ⟨[],(List.append_nil _).symm,by simp⟩)

theorem memory_after (s : Runtime V C B N U) : s.after env .memory = ((processMemory env).run s).2 := by
  simp only [after,step,Prog.run_bind]
  rcases (processMemory env).run s with ⟨e | _,t⟩ <;> rfl

/-- Every step is a sequence of small ones. -/
theorem step_follows (s : Runtime V C B N U) (l : Label C) : Follows env (fun _ => True) s (s.after env l) := by
  by_cases memory : l = .memory
  · rw [memory,memory_after]
    have every : Transacts (fun _ => True) := ⟨trivial,trivial,fun _ => trivial⟩
    rcases processMemory_follows every s with same | ⟨m,_,found,later⟩
    · rw [same]
      exact .refl
    · refine .trans (.single ?_) later
      have synced : s.afterSync (s.devices.length - 1) m = s.visited (s.devices.length - 1) (.sync m.active) m
          ((Bay.perform env (.sync m.active)).run ⟨⟨m,s.world,[]⟩,s.vm⟩).2 := by
        simp only [Bay.perform,Bay.onSlot,Prog.run_zoom,syncTarget_run]
        rfl
      rw [synced]
      exact .visit found rfl trivial
  · exact step_follows_plain (fun _ _ => trivial) trivial s l memory

theorem run_follows {s t : Runtime V C B N U} (reached : Reaches (Happens env) s t) :
    Follows env (fun _ => True) s t := by
  induction reached with
  | refl => exact .refl
  | tail l _ taken ih =>
    rw [taken]
    exact ih.trans (step_follows _ l)

end Runtime
end WVmm
