import WVmm.Devices.Chains
import WVmm.Runtime.Isolation
import WVmm.Runtime.Renewal

/-! Every chain that a device takes is returned once and in order, over whole runs
of the machine: the books of a device are the traces of its visits since its last
reset. -/
namespace WVmm
open Lib.Effect Lib.Runs Devices Platform

variable {V C B N U : Type} {env : Env}

def Operation.resets : Operation → Bool
  | .write offset value => offset == 0x70 && value == 0
  | _ => false

namespace Visit

/-- The device is isolated: DEVICE_NEEDS_RESET is set, and not by the driver. -/
def Isolated (v : Visit B N) : Prop :=
  v.before.mmio.needsReset = false ∧ v.after.mmio.needsReset = true ∧ ∀ value, v.operation ≠ .write 0x70 value

def resume (v : Visit B N) (visits : List (Visit B N)) : List (Visit B N) :=
  if v.operation.resets then [] else visits ++ [v]

def actions (visits : List (Visit B N)) : List Action := visits.flatMap (·.after.trace)

variable [Mapper V] [BlockStorage B] [NetDevice N]

def Answered (V : Type) [Mapper V] (env : Env) (v : Visit B N) : Prop :=
  ∃ (vm : V) (r : v.operation.Reply) (b : Bay V (Device B N)),
    (Bay.perform env v.operation).run ⟨v.before,vm⟩ = (.ok r,b) ∧ v.after = b.slot

end Visit

namespace Runtime

def sinceReset (k : Nat) (s : Runtime V C B N U) : List (Visit B N) := (visitsTo k s.log).foldl (fun visits v => v.resume visits) []

section Answers
variable [VirtualMachine V C] [BlockStorage B] [NetDevice N]

def Clean (env : Env) (s : Runtime V C B N U) : Prop := ∀ v, .visit v ∈ s.log → v.Answered V env

theorem Beside.clean {α : Type} {m : Prog (Runtime V C B N U) (Failure Error) α} (beside : Beside m) :
    Upon (Clean env) m (fun _ => Clean env) := by
  intro s a t clean ran v member
  obtain ⟨_,_,calls,log,none⟩ := beside s
  rw [ran] at log
  dsimp only at log
  rw [log] at member
  rcases List.mem_append.mp member with old | new
  · exact clean v old
  · exact absurd new (none v)

theorem visit_clean (k : Nat) (op : Operation) :
    Upon (Clean env) (visit env k op : Prog (Runtime V C B N U) _ op.Reply) (fun _ => Clean env) := by
  intro s r t clean ran v member
  simp only [visit,Prog.run_mk] at ran
  cases found : s.devices[k]? with
  | none =>
    rw [found] at ran
    cases ran
  | some m =>
    rw [found] at ran
    dsimp only at ran
    rcases performed : (Bay.perform env op).run ⟨⟨m,s.world,[]⟩,s.vm⟩ with ⟨outcome,b⟩
    rw [performed] at ran
    cases outcome with
    | error e => cases ran
    | ok reply =>
      cases ran
      rcases List.mem_append.mp member with old | new
      · exact clean v old
      · cases List.mem_singleton.mp new
        exact ⟨s.vm,_,b,performed,rfl⟩

theorem device_clean (k : Nat) :
    Upon (Clean env) (device k : Prog (Runtime V C B N U) _ _) (fun _ => Clean env) := by
  intro s m t clean ran
  rw [device_run] at ran
  cases found : s.devices[k]? with
  | none =>
    rw [found] at ran
    cases ran
  | some m' =>
    rw [found] at ran
    cases ran
    exact clean

theorem pinDevice_clean (k : Nat) :
    Upon (Clean env) (pinDevice env k : Prog (Runtime V C B N U) _ _) (fun _ => Clean env) := by
  refine .bind (device_clean k) (fun d => ?_)
  split
  · exact .pure (fun _ clean => clean)
  · exact .bind (visit_clean k .pinned) (fun _ => .pure (fun _ clean => clean))

theorem pinDevices_clean (ks : List Nat) :
    Upon (Clean env) (pinDevices env ks : Prog (Runtime V C B N U) _ _) (fun _ => Clean env) := by
  induction ks with
  | nil => exact .pure (fun _ clean => clean)
  | cons k rest ih => exact .bind (pinDevice_clean k) (fun _ => .bind ih (fun _ => .pure (fun _ clean => clean)))

theorem processLast_clean (last : Nat) (pinned : List (Nat × Nat)) :
    Upon (Clean env) (processLast env last pinned : Prog (Runtime V C B N U) _ _) (fun _ => Clean env) := by
  refine .bind (device_clean last) (fun d => ?_)
  split
  · exact .pure (fun _ clean => clean)
  · exact visit_clean last _

theorem transact_clean (count last : Nat) :
    Upon (Clean env) (transact env count last : Prog (Runtime V C B N U) _ _) (fun _ => Clean env) := by
  refine .bind (visit_clean last .available) (fun available => ?_)
  split
  · exact .pure (fun _ clean => clean)
  refine .bind pause_beside.clean (fun outcome => ?_)
  split
  · exact .pure (fun _ clean => clean)
  refine .bind (pinDevices_clean _) (fun pinned => .bind (processLast_clean last pinned) (fun _ => ?_))
  exact .bind resume_beside.clean (fun _ => .pure (fun _ clean => clean))

theorem processMemory_clean :
    Upon (Clean env) (processMemory env : Prog (Runtime V C B N U) _ _) (fun _ => Clean env) := by
  refine .get (fun s clean => ?_)
  have here : ∀ now, now = s → Clean env now := fun now same => same ▸ clean
  split
  · exact .pure here
  refine .bind ((device_clean _).consequence here (fun _ _ kept => kept)) (fun d => ?_)
  refine .bind (visit_clean _ _) (fun _ => ?_)
  split
  · exact .pure (fun _ kept => kept)
  · exact transact_clean _ _

theorem virtioAccess_clean (k : Nat) (region : IoRegion) (a : IoAccess C) :
    Upon (Clean env) (virtioAccess env k region a : Prog (Runtime V C B N U) _ _) (fun _ => Clean env) := by
  refine .bind (device_clean k) (fun d => .bind ?_ (fun value => .bind (device_clean k) (fun _ =>
    .pure (fun _ clean => clean))))
  unfold virtioValue
  dsimp only
  split
  · exact .pure (fun _ clean => clean)
  split
  · exact .pure (fun _ clean => clean)
  split
  · exact .bind (visit_clean k _) (fun _ => .pure (fun _ clean => clean))
  · exact .pure (fun _ clean => clean)

theorem seen_clean (strict : Bool) (a : IoAccess C) (decoded : Option Nat) :
    Upon (Clean env) (seen strict a decoded : Prog (Runtime V C B N U) _ Nat) (fun _ => Clean env) := by
  unfold seen
  split
  · exact .pure (fun _ clean => clean)
  split
  · exact .fail _
  split
  · exact .pure (fun _ clean => clean)
  split
  · exact .pure (fun _ clean => clean)
  · exact .pure (fun _ clean => clean)

variable [Uart U]

theorem access_clean (layout : MachineLayout) (a : IoAccess C) :
    Upon (Clean env) (access env layout a : Prog (Runtime V C B N U) _ _) (fun _ => Clean env) := by
  unfold access
  split
  · exact .bind (uartValue_beside _ a).clean (fun _ => .get (fun s clean => .pure (fun _ same => same ▸ clean)))
  split
  · split
    · exact virtioAccess_clean _ _ a
    · exact .fail _
  · exact .fail _

theorem handleIo_clean (a : IoAccess C) :
    Upon (Clean env) (handleIo env a : Prog (Runtime V C B N U) _ _) (fun _ => Clean env) := by
  refine .get (fun s clean => ?_)
  refine .bind ((access_clean s.layout a).consequence (fun now same => same ▸ clean) (fun _ _ kept => kept))
    (fun decoded => .bind (seen_clean s.strict a decoded.1) (fun value => ?_))
  exact .bind (setIrq_beside _ _).clean (fun _ => (completeIo_beside _ _).clean)

/-- A step that returns has made visits that returned. -/
theorem step_clean (l : Label C) :
    Upon (Clean env) (step env l : Prog (Runtime V C B N U) _ _) (fun _ => Clean env) := by
  cases l with
  | io a => exact handleIo_clean a
  | poll k => exact visit_clean k .poll
  | memory => exact .bind processMemory_clean (fun _ => .pure (fun _ clean => clean))
  | uartLine => exact .get (fun s clean => (setIrq_beside _ _).clean.consequence (fun now same => same ▸ clean) (fun _ _ kept => kept))
  | lines => exact .get (fun s clean => (setLines_beside _).clean.consequence (fun now same => same ▸ clean) (fun _ _ kept => kept))
  | target requested => exact .modify (fun s clean => clean)
  | guest => exact .modify (fun s clean => clean)

theorem steps_clean (labels : List (Label C)) :
    Upon (Clean env) (steps env labels : Prog (Runtime V C B N U) _ _) (fun _ => Clean env) := by
  induction labels with
  | nil => exact .pure (fun _ clean => clean)
  | cons l rest ih => exact .bind (step_clean l) (fun _ => ih)

theorem steps_reach (labels : List (Label C)) {s t : Runtime V C B N U} (ran : (steps env labels).run s = (.ok (),t)) :
    Reaches (Happens env) s t := by
  induction labels generalizing s with
  | nil =>
    cases ran
    exact .refl
  | cons l rest ih =>
    obtain ⟨_,u,first,later⟩ := Prog.bind_success ran
    have taken : Happens env s l u := by
      rw [Happens,after,first]
    exact (Reaches.tail l .refl taken).trans (ih later)

end Answers
end Runtime

def Devices.Mmio.Booked (past : List Action) (m : Mmio (Device B N)) : Prop :=
  Ledger (holding m.device.deferred) past m.queues.rings

section Books
variable {past : List Action} {s : Slot (Device B N)}

/-- Unless the device was isolated, its program returned. -/
theorem settled_success {α : Type} {r : Except (Failure DeviceError) α} {a : Option α} {u : Slot (Device B N)}
    (ran : Mmio.settled s r = (.ok a,u)) (working : u.mmio.needsReset = false) : ∃ value, r = .ok value ∧ u = s := by
  rcases r with (e | p) | value
  · simp only [Mmio.settled] at ran
    split at ran
    · cases ran
      rw [Mmio.isolated,Slot.withMmio,Runtime.isolate_needsReset] at working
      cases working
    · cases ran
  · cases ran
  · cases ran
    exact ⟨value,rfl,rfl⟩

theorem synced_booked (active : Bool) (booked : s.mmio.Booked past) : (Runtime.synced active s).mmio.Booked past := by
  unfold Runtime.synced
  dsimp only
  split
  · rename_i d kind
    split
    · exact booked
    · unfold Mmio.Booked at booked
      rw [kind] at booked
      exact booked
  · exact booked

theorem settled_booked {α : Type} {p : Prog (Cell (Device B N)) (Failure DeviceError) α}
    (books : Upon (Device.Booked past) p (fun _ => Device.Booked past)) (untraced : s.trace = [])
    (booked : s.mmio.Booked past) {a : Option α} {u : Slot (Device B N)}
    (ran : Mmio.settled (s.putCell (p.run s.cell).2) (p.run s.cell).1 = (.ok a,u))
    (working : u.mmio.needsReset = false) : u.mmio.Booked (past ++ u.trace) := by
  obtain ⟨value,returned,rfl⟩ := settled_success ran working
  refine books s.cell value _ ?_ (Prod.ext returned rfl)
  rw [Device.Booked,Slot.cell,untraced,List.append_nil]
  exact booked

theorem contained_booked {α : Type} {p : Prog (Cell (Device B N)) (Failure DeviceError) α}
    (idles : ∀ tx, Idles (fun d : Device B N => d.deferred = tx) p) (untraced : s.trace = [])
    (booked : s.mmio.Booked past) {a : Option α} {u : Slot (Device B N)}
    (ran : (do
      let result ← Prog.capture (Slot.onCell p)
      Mmio.contain result : Prog (Slot (Device B N)) (Failure DeviceError) (Option α)).run s = (.ok a,u))
    (working : u.mmio.needsReset = false) : u.mmio.Booked (past ++ u.trace) := by
  rw [Mmio.contained_run] at ran
  exact settled_booked (Device.idles_booked idles) untraced booked ran working

theorem ran_booked {p : Prog (Cell (Device B N)) (Failure DeviceError) Unit}
    (books : Upon (Device.Booked past) p (fun _ => Device.Booked past)) (untraced : s.trace = [])
    (booked : s.mmio.Booked past) {u : Slot (Device B N)} (ran : Mmio.ran s p = (.ok (),u))
    (working : u.mmio.needsReset = false) : u.mmio.Booked (past ++ u.trace) := by
  unfold Mmio.ran at ran
  rcases outcome : Mmio.settled (s.putCell (p.run s.cell).2) (p.run s.cell).1 with ⟨r,t⟩
  rw [outcome] at ran
  cases r with
  | error e => cases ran
  | ok a =>
    cases ran
    exact settled_booked books untraced booked outcome working

/-- Registers of a ring other than its indices. -/
theorem Devices.Ledger.rewired {held : Nat → List Nat} {rings : List Queue} (ledger : Ledger held past rings)
    {index : Nat} {q q' : Queue} (found : rings[index]? = some q) (same : SameIndices q q') :
    Ledger held past (rings.set index q') := by
  refine ⟨ledger.heads,?_,?_⟩
  · intro i r present
    rcases Ledger.set_cases present with ⟨rfl,rfl⟩ | ⟨_,old⟩
    · rw [same.1]
      exact ledger.avail _ q found
    · exact ledger.avail i r old
  · intro i r present
    rcases Ledger.set_cases present with ⟨rfl,rfl⟩ | ⟨_,old⟩
    · rw [same.2]
      exact ledger.used _ q found
    · exact ledger.used i r old

theorem process_booked [Mapper V] (lawful : env.vq.Lawful) {pinned : List (Nat × Nat)} {vm : V}
    (untraced : s.trace = []) (booked : s.mmio.Booked past) {b : Bay V (Device B N)}
    (ran : (Bay.process env pinned).run ⟨s,vm⟩ = (.ok (),b)) : b.slot.mmio.Booked (past ++ b.slot.trace) := by
  unfold Mmio.Booked at booked
  simp only [Bay.process,Prog.run_mk] at ran
  cases kind : s.mmio.device with
  | mem d =>
    rw [kind] at ran booked
    dsimp only at ran
    obtain ⟨returned,rfl⟩ := Prod.mk.inj ran
    have start : VirtioMem.Owing past (holding none) (⟨⟨d,s.mmio.queues,s.world,s.trace⟩,vm⟩ : Txn V) := by
      refine ⟨trivial,?_⟩
      rw [untraced,List.append_nil]
      exact booked
    exact (VirtioMem.processLoop_owes lawful pinned 128 _ () _ start (Prod.ext returned rfl)).ledger
  | _ =>
    rw [kind] at ran
    cases ran

variable [BlockStorage B] [NetDevice N]

/-- A memory transaction that returns ends as `contain` makes it. -/
theorem process_success [Mapper V] {pinned : List (Nat × Nat)} {b b' : Bay V (Device B N)}
    (ran : (Bay.perform env (.process pinned)).run b = (.ok (),b')) :
    ∃ a, Mmio.settled ((Bay.process env pinned).run b).2.slot ((Bay.process env pinned).run b).1 = (.ok a,b'.slot) := by
  obtain ⟨result,t,captured,later⟩ := Prog.bind_success ran
  obtain ⟨a,u,contained,last⟩ := Prog.bind_success later
  cases captured
  cases last
  obtain ⟨returned,rfl⟩ := Prod.mk.inj contained
  refine ⟨a,?_⟩
  rw [← Mmio.contain_run]
  exact Prod.ext returned rfl

theorem configure_booked (lawful : env.vq.Lawful) {offset : Nat} {value : BitVec 32}
    (other : ¬(offset = 0x70 ∧ value = 0)) (booked : s.mmio.Booked past) :
    ((Mmio.configure env offset value).run s).2.mmio.Booked past ∧
      ((Mmio.configure env offset value).run s).2.trace = s.trace := by
  have outcome := Mmio.configure_cases lawful offset value s
  generalize (Mmio.configure env offset value).run s = result at outcome ⊢
  cases outcome with
  | reset c asked ran => exact absurd asked other
  | resetFailed f c asked ran => exact absurd asked other
  | rewired index q q' found _ _ change => exact ⟨booked.rewired found (rewired_indices change),rfl⟩
  | refused e _ => exact ⟨booked,rfl⟩
  | _ => exact ⟨booked,rfl⟩

theorem write_booked (lawful : env.vq.Lawful) {offset : Nat} {value : BitVec 32}
    (other : ¬(offset = 0x70 ∧ value = 0)) (untraced : s.trace = []) (booked : s.mmio.Booked past)
    {u : Slot (Device B N)} (ran : (Mmio.write env offset value).run s = (.ok (),u))
    (kept : offset = 0x50 → s.mmio.needsReset = false → u.mmio.needsReset = false) :
    u.mmio.Booked (past ++ u.trace) := by
  by_cases register : offset = 0x50
  · rw [Mmio.write,if_pos register,Mmio.notify_run] at ran
    split at ran
    · rename_i listens
      have working := active_working (Bool.and_eq_true_iff.mp listens).1
      exact ran_booked (Device.notify_booked lawful _) untraced booked ran (kept register working)
    · cases ran
      rwa [untraced,List.append_nil]
  · have configured := configure_booked lawful other booked
    rw [Mmio.write_run register] at ran
    generalize (Mmio.configure env offset value).run s = outcome at configured ran
    obtain ⟨r,t⟩ := outcome
    rw [untraced] at configured
    rcases r with (e | p) | ok
    · dsimp only at ran
      split at ran
      · cases ran
        rw [Mmio.counted,Slot.withMmio,configured.2,List.append_nil]
        exact configured.1
      · cases ran
    · cases ran
    · cases ran
      rw [configured.2,List.append_nil]
      exact configured.1

theorem reset_booked (lawful : env.vq.Lawful) {u : Slot (Device B N)}
    (ran : (Mmio.write env 0x70 0).run s = (.ok (),u)) : u.mmio.Booked [] := by
  obtain ⟨c,reset,rfl⟩ := Mmio.reset_succeeds ran
  have idle : c.device.deferred = none := by
    have device := congrArg (fun result => result.2.device) reset
    rw [Device.reset_run] at device
    dsimp only at device
    rw [← device]
    cases s.cell.device <;> rfl
  refine Ledger.fresh (fun index => ?_) ?_
  · change holding c.device.deferred index = []
    rw [idle,holding_none]
  · intro q member
    obtain ⟨q₀,_,rfl⟩ := List.mem_map.mp member
    rw [lawful.reset_fresh]
    exact ⟨rfl,rfl⟩

/-- An operation that returns and does not isolate its device keeps the books. -/
theorem perform_booked [VirtualMachine V C] (lawful : env.vq.Lawful) {op : Operation} {b b' : Bay V (Device B N)}
    {r : op.Reply} (asked : op.Asked b.slot.mmio) (untraced : b.slot.trace = [])
    (other : op.resets = false) (booked : b.slot.mmio.Booked past) (ran : (Bay.perform env op).run b = (.ok r,b'))
    (kept : (∀ value, op ≠ .write 0x70 value) → b.slot.mmio.needsReset = false → b'.slot.mmio.needsReset = false) :
    b'.slot.mmio.Booked (past ++ b'.slot.trace) := by
  cases op with
  | write offset value =>
    obtain ⟨returned,rfl⟩ := Prod.mk.inj ran
    refine write_booked lawful ?_ untraced booked (Prod.ext returned rfl) ?_
    · simpa [Operation.resets] using other
    · rintro rfl working
      exact kept (by simp) working
  | poll =>
    obtain ⟨returned,rfl⟩ := Prod.mk.inj ran
    have polled : (Mmio.poll env).run b.slot = (.ok (),((Mmio.poll env).run b.slot).2) := Prod.ext returned rfl
    change (((Mmio.poll env).run b.slot).2).mmio.Booked (past ++ ((Mmio.poll env).run b.slot).2.trace)
    generalize ((Mmio.poll env).run b.slot).2 = u at polled kept
    rw [Mmio.poll_run] at polled
    split at polled
    · rename_i active
      exact ran_booked (Device.poll_booked lawful) untraced booked polled (kept nofun (active_working active))
    · cases polled
      rwa [untraced,List.append_nil]
  | sync active =>
    have synced : b'.slot = Runtime.synced active b.slot := by
      obtain ⟨_,rfl⟩ := Prod.mk.inj ran
      exact congrArg Prod.snd (Runtime.syncTarget_run active b.slot)
    rw [synced,(Runtime.synced_quiet active b.slot).2.2.1,untraced,List.append_nil]
    exact synced_booked active booked
  | available =>
    obtain ⟨returned,rfl⟩ := Prod.mk.inj ran
    exact contained_booked (fun _ => Idles.available 0) untraced booked (Prod.ext returned rfl)
      (kept nofun (active_working asked))
  | pinned =>
    obtain ⟨returned,rfl⟩ := Prod.mk.inj ran
    exact contained_booked (fun _ => Idles.onWorld (Queues.pinned env b.slot.mmio.queues)) untraced booked
      (Prod.ext returned rfl) (kept nofun asked)
  | process pinned =>
    obtain ⟨a,settled⟩ := process_success ran
    obtain ⟨value,returned,same⟩ := settled_success settled (kept nofun asked.2)
    rw [same]
    exact process_booked lawful untraced booked (Prod.ext returned rfl)

theorem visit_booked [VirtualMachine V C] (lawful : env.vq.Lawful) {v : Visit B N} (made : Runtime.Made V env v)
    (answered : v.Answered V env) {visits : List (Visit B N)}
    (booked : (∀ w ∈ visits, ¬w.Isolated) → v.before.mmio.Booked (Visit.actions visits))
    (kept : ∀ w ∈ v.resume visits, ¬w.Isolated) : v.after.mmio.Booked (Visit.actions (v.resume visits)) := by
  obtain ⟨vm,r,b,ran,same⟩ := answered
  rw [same]
  unfold Visit.resume at kept ⊢
  split
  · rename_i resets
    obtain ⟨device,operation,before,after⟩ := v
    cases operation with
    | write offset value =>
      simp only [Operation.resets,Bool.and_eq_true,beq_iff_eq] at resets
      obtain ⟨rfl,rfl⟩ := resets
      obtain ⟨returned,rfl⟩ := Prod.mk.inj ran
      exact reset_booked lawful (Prod.ext returned rfl)
    | _ => cases resets
  · rename_i other
    rw [if_neg other] at kept
    have past := booked (fun w member => kept w (List.mem_append_left _ member))
    have lasts := kept v (List.mem_append_right _ (List.mem_singleton.mpr rfl))
    have grown : Visit.actions (visits ++ [v]) = Visit.actions visits ++ b.slot.trace := by
      simp only [Visit.actions,List.flatMap_append,List.flatMap_singleton,same]
    rw [grown]
    refine perform_booked lawful made.asked made.untraced (Bool.eq_false_iff.mpr other) past ran ?_
    intro unwritten working
    rw [← same]
    by_contra isolated
    exact lasts ⟨working,(Bool.not_eq_false _).mp isolated,unwritten⟩

theorem linked_booked [VirtualMachine V C] (lawful : env.vq.Lawful) {m m' : Mmio (Device B N)} {vs visits : List (Visit B N)}
    (linked : Runtime.Linked m vs m') (made : ∀ v ∈ vs, Runtime.Made V env v ∧ v.Answered V env)
    (booked : (∀ w ∈ visits, ¬w.Isolated) → m.Booked (Visit.actions visits))
    (kept : ∀ w ∈ vs.foldl (fun visits v => v.resume visits) visits, ¬w.Isolated) :
    m'.Booked (Visit.actions (vs.foldl (fun visits v => v.resume visits) visits)) := by
  induction vs generalizing m visits with
  | nil =>
    cases linked
    exact booked kept
  | cons v rest ih =>
    obtain ⟨rfl,later⟩ := linked
    obtain ⟨honest,answered⟩ := made v List.mem_cons_self
    exact ih later (fun w member => made w (List.mem_cons_of_mem _ member))
      (fun intact => visit_booked lawful honest answered booked intact) kept

end Books

namespace Runtime

variable [BlockStorage B] [NetDevice N]

theorem created_booked (lawful : env.vq.Lawful) {s : Runtime V C B N U} (created : s.Created env)
    {m : Mmio (Device B N)} (member : m ∈ s.devices) : m.Booked [] := by
  obtain ⟨d,x,made,strict,constructed,new,rfl⟩ := created m member
  have idle : x.deferred = none := by
    rw [← (Device.fresh_genuine constructed).2]
    cases x <;> rfl
  rw [Mmio.new_eq lawful] at new
  cases new
  refine Ledger.fresh (fun index => ?_) ?_
  · change holding x.deferred index = []
    rw [idle,holding_none]
  · intro q inside
    rw [List.eq_of_mem_replicate inside]
    exact ⟨rfl,rfl⟩

variable [VirtualMachine V C] [Uart U]

/-- As long as no step has failed and the device has not been isolated since its
last reset: the heads in each used ring are the heads taken from the available
ring, in the same order, but for the transmit chain whose frame waits for the
backend; and the ring indices count both, on 16 bits. -/
theorem chains_returned_in_order (lawful : env.vq.Lawful) {first s : Runtime V C B N U}
    (created : first.Created env) (unused : first.log = []) (labels : List (Label C))
    (ran : (steps env labels).run first = (.ok (),s)) (k : Nat) (m : Mmio (Device B N))
    (found : s.devices[k]? = some m) (kept : ∀ v ∈ s.sinceReset k, ¬v.Isolated) :
    let history := Visit.actions (s.sinceReset k)
    (∀ index, taken index history = returned index history ++ holding m.device.deferred index) ∧
      ∀ (index : Nat) q, m.queues.rings[index]? = some q →
        q.nextAvail = (taken index history).length % 65536 ∧
        q.nextUsed = (returned index history).length % 65536 ∧
        q.nextAvail = (q.nextUsed + (holding m.device.deferred index).length) % 65536 := by
  have fresh : Clean env first := by
    intro v member
    rw [unused] at member
    cases member
  have clean : Clean env s := steps_clean labels first () s fresh ran
  have follows := run_follows (steps_reach labels ran)
  obtain ⟨calls,log,made,linked⟩ := follows_history follows
  rw [unused,List.nil_append] at log
  have present : k < first.devices.length := by
    rw [← follows.count]
    exact (List.getElem?_eq_some_iff.mp found).1
  obtain ⟨m',found',chain⟩ := linked k _ (List.getElem?_eq_getElem present)
  cases found.symm.trans found'
  have ledger : m.Booked (Visit.actions (s.sinceReset k)) := by
    rw [sinceReset,log] at kept ⊢
    refine linked_booked (V := V) (C := C) lawful chain ?_ (fun _ => created_booked lawful created (List.getElem_mem present)) kept
    intro v member
    have inside := (mem_visitsTo member).1
    exact ⟨made v inside,clean v (log ▸ inside)⟩
  refine ⟨ledger.heads,fun index q present => ?_⟩
  have avail := ledger.avail index q present
  have used := ledger.used index q present
  refine ⟨avail,used,?_⟩
  rw [avail,used,ledger.heads,List.length_append]
  omega

end Runtime

namespace Reference

/-- A machine with a net device that may send so many frames. -/
def creditMachine (credit : Nat) : Runtime Vm Nat Disk Wire Port :=
  {wireMachine with
    devices := [{wireTransport 0 0 with device := .net {newWire with backend := ⟨[],credit⟩}}]
    world := {pageWorld with host := txMemory}}

theorem creditMachine_created : (creditMachine 1).Created Reference.env := by
  intro m member
  rw [List.mem_singleton.mp member]
  exact ⟨.net {newWire with backend := ⟨[],1⟩},_,_,true,rfl,rfl,rfl⟩

/-- The backend takes the first frame and declines the second one. -/
theorem chains_returned_in_order_under_backpressure :
    ∃ (s : Runtime Vm Nat Disk Wire Port) (m : Mmio (Device Disk Wire)),
      (Runtime.steps Reference.env (driverSetup ++ [driverWrite 0x50 1])).run (creditMachine 1) = (.ok (),s) ∧
      s.devices[0]? = some m ∧ m.device.deferred = some 1 ∧
      taken 1 (Visit.actions (s.sinceReset 0)) = [0,1] ∧ returned 1 (Visit.actions (s.sinceReset 0)) = [0] := by
  have working : ((((Runtime.steps Reference.env (driverSetup ++ [driverWrite 0x50 1])).run
      (creditMachine 1)).2.sinceReset 0).all (fun v => !v.after.mmio.needsReset)) = true := by decide +kernel
  have waiting : ((((Runtime.steps Reference.env (driverSetup ++ [driverWrite 0x50 1])).run
      (creditMachine 1)).2.devices[0]?).map (fun m => m.device.deferred)) = some (some 1) := by decide +kernel
  have heads : taken 1 (Visit.actions (((Runtime.steps Reference.env (driverSetup ++ [driverWrite 0x50 1])).run
      (creditMachine 1)).2.sinceReset 0)) = [0,1] := by decide +kernel
  have succeeds : ((Runtime.steps Reference.env (driverSetup ++ [driverWrite 0x50 1])).run
      (creditMachine 1)).1.isOk = true := by decide +kernel
  generalize ran : (Runtime.steps Reference.env (driverSetup ++ [driverWrite 0x50 1])).run (creditMachine 1) = outcome
    at working waiting heads succeeds
  obtain ⟨_ | _,s⟩ := outcome
  · cases succeeds
  obtain ⟨m,found,deferred⟩ := Option.map_eq_some_iff.mp waiting
  have kept : ∀ v ∈ s.sinceReset 0, ¬v.Isolated := by
    intro v member isolated
    have clear := List.all_eq_true.mp working v member
    rw [isolated.2.1] at clear
    cases clear
  obtain ⟨order,_⟩ := Runtime.chains_returned_in_order env_vq_lawful creditMachine_created rfl _ ran 0 m found kept
  have split := order 1
  rw [heads,deferred] at split
  exact ⟨s,m,rfl,found,deferred,heads,(List.append_inj_left' split rfl).symm⟩

end Reference
end WVmm
