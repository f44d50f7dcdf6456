import WVmm.Devices.LiveQueues
import WVmm.Runtime.Cleanup
import WVmm.Runtime.Effects
import WVmm.Runtime.Confinement

/-! Unplugging beside live queues, over all devices: one scan at the pause pins what the
queues of every device refer to, and no request of the transaction that follows takes
the memory of a pin away. -/
namespace WVmm
open Lib.Effect Lib.Runs Devices Platform Queues

section Transactions
variable {V C B N U : Type} {env : Env} {view : GuestMemoryMmap} {host : Host}

/-- The transports that are not isolated in the end were the same before. -/
def Kept (devices devices' : List (Mmio (Device B N))) : Prop :=
  ∀ (k : Nat) (m : Mmio (Device B N)), devices'[k]? = some m → m.needsReset = false → devices[k]? = some m

namespace Kept

variable {devices devices' devices'' : List (Mmio (Device B N))}

theorem refl (devices : List (Mmio (Device B N))) : Kept devices devices := fun _ _ found _ => found

theorem trans (first : Kept devices devices') (second : Kept devices' devices'') : Kept devices devices'' :=
  fun k m found working => first k m (second k m found working) working

theorem isolate {k : Nat} {m : Mmio (Device B N)} (isolated : m.needsReset = true) :
    Kept devices (devices.set k m) := by
  intro j m' found working
  rw [List.getElem?_set] at found
  split at found
  · split at found
    · cases found
      rw [isolated] at working
      cases working
    · cases found
  · exact found

end Kept

namespace Runtime

variable {s t : Runtime V C B N U}

theorem set_same {α : Type} {xs : List α} {k : Nat} {x : α} (found : xs[k]? = some x) : xs.set k x = xs := by
  obtain ⟨bound,rfl⟩ := List.getElem?_eq_some_iff.mp found
  exact List.set_getElem_self bound

theorem device_success {k : Nat} {m : Mmio (Device B N)} (ran : (device k).run s = (.ok m,t)) :
    s.devices[k]? = some m ∧ t = s := by
  rw [device_run] at ran
  cases found : s.devices[k]? with
  | none =>
    rw [found] at ran
    cases ran
  | some d =>
    rw [found] at ran
    cases ran
    exact ⟨rfl,rfl⟩

section Visits
variable [Mapper V] [BlockStorage B] [NetDevice N]

theorem visit_success {k : Nat} {op : Operation} {r : op.Reply} (ran : (visit env k op).run s = (.ok r,t)) :
    ∃ m b, s.devices[k]? = some m ∧ (Bay.perform env op).run ⟨⟨m,s.world,[]⟩,s.vm⟩ = (.ok r,b) ∧
      t = s.visited k op m b := by
  simp only [visit,Prog.run_mk] at ran
  cases found : s.devices[k]? with
  | none =>
    rw [found] at ran
    cases ran
  | some m =>
    rw [found] at ran
    obtain ⟨outcome,rfl⟩ := Prod.mk.inj ran
    refine ⟨m,_,rfl,Prod.ext ?_ rfl,rfl⟩
    exact Owned.mapError_eq_ok.mp outcome

/-- A scan that returns found all there is to pin, or its device is isolated. -/
theorem pinned_success {k : Nat} {pins : Option (List (Nat × Nat))}
    (ran : (visit env k .pinned : Prog (Runtime V C B N U) _ _).run s = (.ok pins,t)) : ∃ m, s.devices[k]? = some m ∧
      t.world = ((Queues.pinned env m.queues).run s.world).2 ∧
      ((t.devices = s.devices ∧ ∃ own, pins = some own ∧ ((Queues.pinned env m.queues).run s.world).1 = .ok own) ∨
        ∃ m', t.devices = s.devices.set k m' ∧ m'.needsReset = true) := by
  obtain ⟨m,b,found,performed,rfl⟩ := visit_success ran
  refine ⟨m,found,?_⟩
  have settled : Mmio.settled {(⟨m,s.world,[]⟩ : Slot (Device B N)) with
      world := ((Queues.pinned env m.queues).run s.world).2} ((Queues.pinned env m.queues).run s.world).1 =
        (.ok pins,b.slot) := by
    have contained := Mmio.contained_run (Cell.onWorld (Queues.pinned env m.queues))
      (⟨m,s.world,[]⟩ : Slot (Device B N))
    have slot : (Prod.map id Bay.slot ((Bay.perform env .pinned).run ⟨⟨m,s.world,[]⟩,s.vm⟩)) = (.ok pins,b.slot) :=
      congrArg _ performed
    exact contained.symm.trans slot
  generalize (Queues.pinned env m.queues).run s.world = scan at settled ⊢
  obtain ⟨slot,vm⟩ := b
  obtain ⟨(e | p) | own,w⟩ := scan
  · simp only [Mmio.settled] at settled
    split at settled
    · cases settled
      exact ⟨rfl,.inr ⟨_,rfl,isolate_needsReset m⟩⟩
    · cases settled
  · cases settled
  · obtain ⟨same,slot⟩ := Prod.mk.inj settled
    cases same
    cases slot
    exact ⟨rfl,.inl ⟨set_same found,own,rfl,rfl⟩⟩

end Visits

section Scan
variable [VirtualMachine V C] [BlockStorage B] [NetDevice N]

/-- What the pause holds still while devices are scanned, and what was pinned for one. -/
structure Scanned (env : Env) (view : GuestMemoryMmap) (host : Host) (s t : Runtime V C B N U) (k : Nat)
    (pins : List (Nat × Nat)) : Prop where
  kept : Kept s.devices t.devices
  still : World.Snapshot env view host t.world
  live : ∀ m, t.devices[k]? = some m → m.needsReset = false → Pinned env view host m.queues.rings pins

theorem pinDevice_scanned {k : Nat} {pins : List (Nat × Nat)} (here : World.Snapshot env view host s.world)
    (ran : (pinDevice env k).run s = (.ok pins,t)) : Scanned env view host s t k pins := by
  obtain ⟨m,u,looked,then₁⟩ := Prog.bind_success ran
  obtain ⟨found,rfl⟩ := device_success looked
  split at then₁
  · rename_i isolated
    cases then₁
    refine ⟨.refl _,here,fun m' found' working => ?_⟩
    cases found.symm.trans found'
    rw [isolated] at working
    cases working
  · obtain ⟨own,v,scanned,then₂⟩ := Prog.bind_success then₁
    cases then₂
    obtain ⟨m',found',world,outcome⟩ := pinned_success scanned
    cases found.symm.trans found'
    have still : World.Snapshot env view host t.world := world ▸ here.later (pinned_later m.queues u.world)
    rcases outcome with ⟨same,own,rfl,returned⟩ | ⟨m',set,isolated⟩
    · refine ⟨same ▸ .refl _,still,fun m' found' _ => ?_⟩
      rw [same,found] at found'
      cases found'
      exact pinned_live here (Prod.ext returned rfl)
    · refine ⟨set ▸ .isolate isolated,still,fun m' found' working => ?_⟩
      rw [set,List.getElem?_set_self (List.getElem?_eq_some_iff.mp found).1] at found'
      cases found'
      rw [isolated] at working
      cases working

theorem pinDevices_scanned (ks : List Nat) {pins : List (Nat × Nat)} (here : World.Snapshot env view host s.world)
    (ran : (pinDevices env ks).run s = (.ok pins,t)) :
    Kept s.devices t.devices ∧ World.Snapshot env view host t.world ∧ ∀ k ∈ ks, Scanned env view host s t k pins := by
  induction ks generalizing s pins with
  | nil =>
    cases ran
    exact ⟨.refl _,here,List.forall_mem_nil _⟩
  | cons k rest ih =>
    obtain ⟨own,u,first,then₁⟩ := Prog.bind_success ran
    obtain ⟨others,v,second,then₂⟩ := Prog.bind_success then₁
    cases then₂
    have scanned := pinDevice_scanned here first
    obtain ⟨kept,still,each⟩ := ih scanned.still second
    have whole := scanned.kept.trans kept
    refine ⟨whole,still,List.forall_mem_cons.mpr ⟨⟨whole,still,fun m found working => ?_⟩,fun j member =>
      ⟨whole,still,fun m found working => ?_⟩⟩⟩
    · exact (scanned.live m (kept k m found working) working).mono (List.subset_append_left _ _)
    · exact ((each j member).live m found working).mono (List.subset_append_right _ _)

end Scan

section Transaction
variable {table : V → Nat → Option Region} {base : List Region} {fixed : Nat → Option Region}
  [VirtualMachine V C] [BlockStorage B] [NetDevice N]

/-- The transaction of a device leaves what is pinned where it is. -/
theorem process_retains (lawful : env.vm.Lawful) (atomic : Mapper.Atomic table) {k : Nat} {pins : List (Nat × Nat)}
    (booked : s.Sparse table base fixed)
    (ran : (visit env k (.process pins) : Prog (Runtime V C B N U) _ _).run s = (.ok (),t)) :
    s.world.view.Retains pins t.world.view ∧ ∃ m', t.devices = s.devices.set k m' := by
  obtain ⟨m,b,found,performed,rfl⟩ := visit_success ran
  refine ⟨?_,b.slot.mmio,rfl⟩
  have slot : ((Bay.perform env (.process pins)).run _).2.slot = _ :=
    process_slot pins (⟨⟨m,s.world,[]⟩,s.vm⟩ : Bay V (Device B N))
  have settled := settled_untouched ((Bay.process env pins).run (⟨⟨m,s.world,[]⟩,s.vm⟩ : Bay V (Device B N))).2.slot
    ((Bay.process env pins).run (⟨⟨m,s.world,[]⟩,s.vm⟩ : Bay V (Device B N))).1
  rw [← slot,performed] at settled
  change s.world.view.Retains pins b.slot.world.view
  rw [show b.slot.world.view = _ from settled.1.view]
  simp only [Bay.process,Prog.run_mk]
  cases kind : m.device with
  | mem d =>
    obtain ⟨book,_⟩ := booked.memory found (d := d) (by rw [kind]; rfl)
    have start : VirtioMem.Book table base fixed (⟨⟨d,m.queues,s.world,[]⟩,s.vm⟩ : Txn V) :=
      book.steady (refl_of (World.Kept id) s.world) rfl rfl
    exact (VirtioMem.process_retaining lawful atomic _ start).1
  | _ => exact fun _ _ _ member _ => member

theorem processLast_retains (lawful : env.vm.Lawful) (atomic : Mapper.Atomic table) {last : Nat}
    {pins : List (Nat × Nat)} (booked : s.Sparse table base fixed)
    (ran : (processLast env last pins).run s = (.ok (),t)) :
    s.world.view.Retains pins t.world.view ∧ ∀ (k : Nat) (m' : Mmio (Device B N)), t.devices[k]? = some m' →
      m'.needsReset = false → ∃ m, s.devices[k]? = some m ∧ m.needsReset = false := by
  obtain ⟨m,u,looked,then₁⟩ := Prog.bind_success ran
  obtain ⟨found,rfl⟩ := device_success looked
  split at then₁
  · cases then₁
    exact ⟨fun _ _ _ member _ => member,fun k m' found working => ⟨m',found,working⟩⟩
  · rename_i working
    obtain ⟨retains,m',set⟩ := process_retains lawful atomic booked then₁
    refine ⟨retains,fun k d present alive => ?_⟩
    rw [set,List.getElem?_set] at present
    split at present
    · rename_i same
      exact ⟨m,same ▸ found,by simpa using working⟩
    · exact ⟨d,present,alive⟩

end Transaction

def wiring (devices : List (Mmio (Device B N))) : List (List Queue) := devices.map (·.queues.rings)

theorem wiring_set {devices : List (Mmio (Device B N))} {k : Nat} {m m' : Mmio (Device B N)}
    (found : devices[k]? = some m) (rings : m'.queues.rings = m.queues.rings) :
    wiring (devices.set k m') = wiring devices := by
  rw [wiring,List.map_set,rings]
  exact set_same (by rw [List.getElem?_map,found]; rfl)

theorem settled_quiet {α : Type} (slot : Slot (Device B N)) (r : Except (Failure DeviceError) α) :
    (Mmio.settled slot r).2.world.view = slot.world.view ∧
      (Mmio.settled slot r).2.mmio.queues.rings = slot.mmio.queues.rings := by
  rcases Mmio.settled_slot slot r with same | isolated
  · rw [same]
    exact ⟨rfl,rfl⟩
  · rw [isolated]
    exact ⟨rfl,(Mmio.isolate_parts slot.mmio).2⟩

section Beginning
variable [VirtualMachine V C] [BlockStorage B] [NetDevice N]

/-- The transaction that is due in a state, at the pause of the vCPUs before its scan. -/
inductive Begins (env : Env) (s : Runtime V C B N U) : Runtime V C B N U → Prop
  | paused {m : Mmio (Device B N)} {t u p : Runtime V C B N U} {available : Option Nat} (present : s.hasMemory = true)
      (last : s.devices[s.devices.length - 1]? = some m) (active : m.active = true)
      (synced : (visit env (s.devices.length - 1) (.sync m.active)).run s = (.ok (),t))
      (looked : (visit env (s.devices.length - 1) .available).run t = (.ok available,u))
      (waits : available.getD 0 ≠ 0) (pauses : pause.run u = (.ok .paused,p)) : Begins env s p

theorem sync_success {k : Nat} {active : Bool} (ran : (visit env k (.sync active)).run s = (.ok (),t)) :
    t.world.view = s.world.view ∧ wiring t.devices = wiring s.devices := by
  obtain ⟨m,b,found,performed,rfl⟩ := visit_success ran
  have slot : b.slot = synced active ⟨m,s.world,[]⟩ :=
    (congrArg (fun r => r.2.slot) performed).symm.trans (congrArg Prod.snd (syncTarget_run active ⟨m,s.world,[]⟩))
  obtain ⟨_,view,_,rings⟩ := synced_quiet active (⟨m,s.world,[]⟩ : Slot (Device B N))
  rw [← slot] at view rings
  exact ⟨view,wiring_set found rings⟩

theorem available_success {k : Nat} {available : Option Nat}
    (ran : (visit env k .available : Prog (Runtime V C B N U) _ _).run s = (.ok available,t)) :
    t.world.view = s.world.view ∧ wiring t.devices = wiring s.devices := by
  obtain ⟨m,b,found,performed,rfl⟩ := visit_success ran
  have slot : ((Bay.perform env .available).run _).2.slot = _ :=
    available_slot (⟨⟨m,s.world,[]⟩,s.vm⟩ : Bay V (Device B N))
  rw [performed] at slot
  have waits : Cell.Waits env (⟨m,s.world,[]⟩ : Slot (Device B N)).cell _ := Queues.available_waits 0 _
  have view := congrArg (fun s => s.world.view) slot
  have rings := congrArg (fun s => s.mmio.queues.rings) slot
  dsimp only at view rings
  rw [(settled_quiet _ _).1] at view
  rw [(settled_quiet _ _).2] at rings
  exact ⟨view.trans waits.1.view,wiring_set found (rings.trans (congrArg (fun c => c.queues.rings) waits.2))⟩

omit [BlockStorage B] [NetDevice N] in
theorem pause_success {outcome : PauseOutcome} (ran : (pause : Prog (Runtime V C B N U) _ _).run s = (.ok outcome,t)) :
    t.world.view = s.world.view ∧ t.devices = s.devices ∧ (outcome = .paused → t.world.paused = true) := by
  have beside := pause_beside s
  rw [ran] at beside
  refine ⟨beside.2.1,beside.1,?_⟩
  rintro rfl
  obtain ⟨_,_,⟨⟩,then₁⟩ := Prog.bind_success ran
  obtain ⟨_,_,⟨⟩,then₂⟩ := Prog.bind_success then₁
  obtain ⟨_,_,⟨⟩,then₃⟩ := Prog.bind_success then₂
  obtain ⟨outcome,u,_,then₄⟩ := Prog.bind_success then₃
  split at then₄
  · cases then₄
    rfl
  · cases then₄
    exact absurd rfl ‹¬_›

/-- What is live in the queues of a device that a transaction leaves working, is in the
memory that it was in, when the transaction began with these contents. -/
def KeepsLive (env : Env) (host : Host) (s t : Runtime V C B N U) : Prop :=
  ∀ (k : Nat) (m m' : Mmio (Device B N)), s.devices[k]? = some m → t.devices[k]? = some m' → m'.needsReset = false →
    ∀ q ∈ m.queues.rings, q.ready = true → ∀ a, Live env s.world.view host q a →
      ∀ r ∈ s.world.view.regions, r.Holds a → r ∈ t.world.view.regions

end Beginning

section Whole
variable {table : V → Nat → Option Region} {base : List Region} {fixed : Nat → Option Region}
  [Vm V C] [BlockStorage B] [NetDevice N]

theorem Begins.quiet {p : Runtime V C B N U} (begins : Begins env s p) :
    p.world.view = s.world.view ∧ wiring p.devices = wiring s.devices ∧ p.world.paused = true := by
  cases begins with
  | paused _ _ _ synced looked _ pauses =>
    obtain ⟨view,rings⟩ := sync_success synced
    obtain ⟨view',rings'⟩ := available_success looked
    obtain ⟨view'',devices,still⟩ := pause_success pauses
    exact ⟨view''.trans (view'.trans view),devices ▸ rings'.trans rings,still rfl⟩

theorem Begins.sparse (maps : Vm.Maps V table) {p : Runtime V C B N U} (booked : s.Sparse table base fixed)
    (begins : Begins env s p) : p.Sparse table base fixed := by
  cases begins with
  | paused _ _ _ synced looked _ pauses =>
    have first := (sync_safe _ _).returned booked synced
    have second := (available_safe _).returned first looked
    exact (pause_safe maps).returned second pauses

/-- A transaction that returns leaves the view alone, or it began and went on with the scan. -/
theorem processMemory_success {flow : ControlFlow} (ran : (processMemory env).run s = (.ok flow,t)) :
    t.world.view = s.world.view ∨ ∃ p pins u v, Begins env s p ∧
      (pinDevices env (List.range s.devices.length)).run p = (.ok pins,u) ∧
      (processLast env (s.devices.length - 1) pins).run u = (.ok (),v) ∧ resume.run v = (.ok (),t) := by
  obtain ⟨_,_,⟨⟩,then₁⟩ := Prog.bind_success ran
  split at then₁
  · cases then₁
    exact .inl rfl
  rename_i present
  obtain ⟨m,s₁,looked,then₂⟩ := Prog.bind_success then₁
  obtain ⟨found,rfl⟩ := device_success looked
  obtain ⟨_,s₂,synced,then₃⟩ := Prog.bind_success then₂
  have view₂ := (sync_success synced).1
  split at then₃
  · cases then₃
    exact .inl view₂
  rename_i active
  obtain ⟨available,s₃,counted,then₄⟩ := Prog.bind_success then₃
  have view₃ := (available_success counted).1
  split at then₄
  · cases then₄
    exact .inl (view₃.trans view₂)
  rename_i waits
  obtain ⟨outcome,p,paused,then₅⟩ := Prog.bind_success then₄
  have view₄ := (pause_success paused).1
  cases outcome with
  | stopping =>
    cases then₅
    exact .inl (view₄.trans (view₃.trans view₂))
  | paused =>
    obtain ⟨pins,u,scanned,then₆⟩ := Prog.bind_success then₅
    obtain ⟨_,v,processed,then₇⟩ := Prog.bind_success then₆
    obtain ⟨_,_,resumed,then₈⟩ := Prog.bind_success then₇
    cases then₈
    exact .inr ⟨p,pins,u,v,.paused (by simpa using present) found (by simpa using active) synced counted waits paused,
      scanned,processed,resumed⟩

theorem Begins.unique {p p' : Runtime V C B N U} (begins : Begins env s p) (other : Begins env s p') : p' = p := by
  cases begins with
  | paused _ last _ synced looked _ pauses =>
    cases other with
    | paused _ last' _ synced' looked' _ pauses' =>
      cases last.symm.trans last'
      cases synced.symm.trans synced'
      cases looked.symm.trans looked'
      cases pauses.symm.trans pauses'
      rfl

theorem processMemory_live (lawful : env.vm.Lawful) (maps : Vm.Maps V table) (booked : s.Sparse table base fixed)
    {flow : ControlFlow} (ran : (processMemory env).run s = (.ok flow,t)) :
    t.world.view = s.world.view ∨ ∃ p, Begins env s p ∧ KeepsLive env p.world.host s t := by
  rcases processMemory_success ran with same | ⟨p,pins,u,v,begins,scanned,processed,resumed⟩
  · exact .inl same
  right
  obtain ⟨view,rings,paused⟩ := begins.quiet
  have here : World.Snapshot env s.world.view p.world.host p.world := ⟨view,rfl,.inl paused⟩
  obtain ⟨kept,still,each⟩ := pinDevices_scanned _ here scanned
  have sparse : u.Sparse table base fixed := (pinDevices_safe _).returned (begins.sparse maps booked) scanned
  obtain ⟨retains,worked⟩ := processLast_retains lawful maps.atomic sparse processed
  have beside := resume_beside v
  rw [resumed] at beside
  refine ⟨p,begins,fun k m m' before after working q member ready a live r inside holds => ?_⟩
  rw [beside.1] at after
  obtain ⟨d,present,alive⟩ := worked k m' after working
  have wired : d.queues.rings = m.queues.rings := by
    have same := congrArg (fun w => w[k]?) rings
    simp only [wiring,List.getElem?_map,before,kept k d present alive,Option.map_some,Option.some.injEq] at same
    exact same
  have listed : k ∈ List.range s.devices.length := List.mem_range.mpr (List.getElem?_eq_some_iff.mp before).1
  obtain ⟨range,held,i,below,rfl⟩ := (each k listed).live d present alive q (wired ▸ member) ready a live
  rw [beside.2.1]
  refine retains range held r ?_ ⟨i,below,holds⟩
  rw [still.1]
  exact inside

end Whole
end Runtime

namespace Owned

variable [BlockStorage B] [NetDevice N] [Vm V C] [SerialIo U] {startup : Startup V} {serial : U} {first s : Owned V B N}
  {vm : V} {l : RunLoop V C B N U} {t : Runtime V C B N U} {flow : ControlFlow}

/-- In every run, a memory transaction that returns keeps every live byte of the devices that
it leaves working: the tables, rings and pending buffers of their ready queues, as guest
memory was at the pause, are in the same allocations afterwards. A transaction for which
there was no pause does not touch guest memory. -/
theorem live_queues_kept (lawful : env.vm.Lawful) {table : V → Nat → Option Region} (maps : Vm.Maps V table)
    (fresh : Fresh startup table) {config : VmConfig}
    {layout : VmConfig → DeviceRequirements → Except PlatformError MachineLayout} {world : World}
    {blocks : List (String × B)} {net : Option N} {memory : Option VirtioMem} (supplied : Supplied memory world.control)
    (made : Owned.new env config layout world blocks net memory = .ok first)
    (brought : (init env startup).run first = (.ok (),s)) (created : s.vm = some vm)
    (reached : Reaches (Takes (RunLoop.next env)) ⟨s.enter vm serial,false,.head⟩ l) (due : l.pass = .memory)
    (ran : (Runtime.processMemory env).run l.runtime = (.ok flow,t)) :
    (∀ p, Runtime.Begins env l.runtime p → Runtime.KeepsLive env p.world.host l.runtime t) ∧
      ((∀ p, ¬Runtime.Begins env l.runtime p) → t.world.view = l.runtime.world.view) := by
  have booked : ∃ base fixed, l.runtime.Sparse table base fixed := by
    rcases init_installed made supplied maps fresh brought with absent | ⟨base,_,vm',fixed,created',booked,_⟩
    · rw [absent] at created
      cases created
    · cases created.symm.trans created'
      have start : (s.enter vm serial : Runtime V C B N U).Sparse table base fixed := booked
      rcases RunLoop.sparse_reached lawful maps start reached with sparse | ⟨f,ended,_⟩
      · exact ⟨base,fixed,sparse⟩
      · rw [due] at ended
        cases ended
  obtain ⟨base,fixed,booked⟩ := booked
  rcases Runtime.processMemory_live lawful maps booked ran with same | ⟨p,begins,keeps⟩
  · refine ⟨fun p _ k m m' _ _ _ q _ _ a _ r inside _ => ?_,fun _ => same⟩
    rw [same]
    exact inside
  · refine ⟨fun p' other => ?_,fun none => absurd begins (none p)⟩
    rwa [begins.unique other]

end Owned
end Transactions

namespace Reference
open Owned

def diskDriver : List (Nat × BitVec 32) :=
  [(0x70,1),(0x70,3),(0x24,1),(0x20,1),(0x70,0xb),(0x38,4),(0x80,0x40000100),(0x90,0x40000200),(0xa0,0x40000300),
    (0x44,1),(0x70,0xf)]

def plugWrites : List (Nat × BitVec 32) :=
  memoryDriver.map (fun w => (0x10002000 + w.1,w.2)) ++ diskDriver.map (fun w => (0x10001000 + w.1,w.2))

/-- A board whose guest sets up the queue of the memory device, and then that of the disk. -/
def bootPlug : Startup Board where
  collect := collect
  create := .ok ⟨⟨⟨[],0⟩,false⟩,plugWrites.map (fun w => .io ⟨.mmio,w.1,4,true,w.2.toNat,0⟩)⟩
  stopping _ := false

theorem bootPlug_fresh : Fresh bootPlug boardTable where
  view regions view collected := boot_fresh.view regions view collected
  created vm made := by
    cases made
    rfl

def plugPasses : List RunLoop.Label :=
  [.target 4] ++ (plugWrites.map (fun _ => accessPass)).flatten ++ [.look false,.next none] ++ List.replicate 5 .call

structure Unplugging where
  rings : List (List (Bool × Nat))
  before : List Region
  after : List Region
  answers : List UInt8
  isolated : List Bool
deriving DecidableEq

def Unplugging.of (s t : Runtime Board Nat Disk Wire Port) : Unplugging where
  rings := s.devices.map (fun d => d.queues.rings.map (fun q => (q.ready,q.descTable)))
  before := s.world.view.regions
  after := t.world.view.regions
  answers := [t.world.host 0x520,t.world.host 0x540]
  isolated := t.devices.map Mmio.needsReset

def unplugging : Option Unplugging := do
  let first ← (builtLow false).toOption
  let (.ok (),s) := (init plugEnv bootPlug).run first | none
  let vm ← s.vm
  let l ← run (RunLoop.next plugEnv) plugPasses ⟨s.enter vm (⟨[]⟩ : Port),false,.head⟩
  let .memory := l.pass | none
  let (.ok .continue,t) := (Runtime.processMemory plugEnv).run l.runtime | none
  return .of l.runtime t

def unplugged : Unplugging where
  rings := [[(true,2^30 + 0x100)],[(true,0x100)]]
  before := [⟨0,2^20,0,0⟩,⟨2^30,2^21,2^20,1⟩,⟨2^30 + 2^21,2^21,2^20 + 2^21,2⟩]
  after := [⟨0,2^20,0,0⟩,⟨2^30,2^21,2^20,1⟩]
  answers := [0,2]
  isolated := [false,false]

theorem unplugging_eq : unplugging = some unplugged := by decide +kernel

/-- A block is unplugged beside the one that holds a live queue. -/
theorem live_queues_kept_unplug :
    ∃ first s vm l t p, builtLow false = .ok first ∧ (Owned.init plugEnv bootPlug).run first = (.ok (),s) ∧ s.vm = some vm ∧
      run (RunLoop.next plugEnv) plugPasses ⟨s.enter vm (⟨[]⟩ : Port),false,.head⟩ = some l ∧ l.pass = .memory ∧
      (Runtime.processMemory plugEnv).run l.runtime = (.ok .continue,t) ∧ Unplugging.of l.runtime t = unplugged ∧
      Runtime.Begins plugEnv l.runtime p ∧ Runtime.KeepsLive plugEnv p.world.host l.runtime t := by
  have outcome := unplugging_eq
  unfold unplugging at outcome
  obtain ⟨first,made,entered⟩ := Option.bind_eq_some_iff.mp outcome
  split at entered
  next s brought =>
    obtain ⟨vm,created,looping⟩ := Option.bind_eq_some_iff.mp entered
    obtain ⟨l,looped,processing⟩ := Option.bind_eq_some_iff.mp looping
    split at processing
    next due =>
      split at processing
      next t ran =>
        have seen : Unplugging.of l.runtime t = unplugged := Option.some.inj processing
        have made : builtLow false = .ok first := by
          cases built : builtLow false <;> simp_all [Except.toOption]
        have supplied : Supplied (some spare) spareWorld.control := by
          intro d same
          obtain rfl := Option.some.inj same
          exact ⟨128,2,[],_,rfl,rfl⟩
        have lawful : plugEnv.vm.Lawful := env_vm_lawful
        obtain ⟨keeps,still⟩ := Owned.live_queues_kept lawful board_maps bootPlug_fresh supplied made brought
          created (reaches_of_run plugPasses looped) due ran
        have begins : ∃ p, Runtime.Begins plugEnv l.runtime p := by
          by_contra none
          have same := still (fun p begins => none ⟨p,begins⟩)
          have before : l.runtime.world.view.regions = unplugged.before := congrArg Unplugging.before seen
          have after : t.world.view.regions = unplugged.after := congrArg Unplugging.after seen
          rw [same,before] at after
          cases after
        obtain ⟨p,begins⟩ := begins
        exact ⟨first,s,vm,l,t,p,made,brought,created,looped,due,ran,seen,begins,keeps p begins⟩
      · cases processing
    · cases processing
  · cases entered

end Reference
end WVmm
