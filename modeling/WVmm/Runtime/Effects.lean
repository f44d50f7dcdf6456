import WVmm.Runtime.Chains
import WVmm.Devices.ValidChains

/-! What one visit does to a net device, and what follows from it over whole runs:
a property that each visit hands on holds of the visits since the last reset. -/
namespace WVmm
open Lib.Effect Lib.Runs Devices Platform

variable {V C B N U : Type} {env : Env}

namespace Runtime

/-- What each visit hands on holds at the end of a chain of visits. -/
theorem Linked.since {P : Mmio (Device B N) → List (Visit B N) → Prop} {m m' : Mmio (Device B N)}
    {vs visits : List (Visit B N)} (linked : Linked m vs m')
    (step : ∀ v ∈ vs, ∀ visits, P v.before.mmio visits → P v.after.mmio (v.resume visits)) (start : P m visits) :
    P m' (vs.foldl (fun visits v => v.resume visits) visits) := by
  induction vs generalizing m visits with
  | nil =>
    cases linked
    exact start
  | cons v rest ih =>
    obtain ⟨rfl,later⟩ := linked
    exact ih later (fun w member => step w (List.mem_cons_of_mem _ member)) (step v List.mem_cons_self visits start)

/-- The same for every run of a machine and each of its devices. -/
theorem since_reset [VirtualMachine V C] [BlockStorage B] [NetDevice N] [Uart U]
    {P : Mmio (Device B N) → List (Visit B N) → Prop} {first s : Runtime V C B N U} (unused : first.log = [])
    {k : Nat} {m : Mmio (Device B N)} (found : first.devices[k]? = some m) (fresh : P m [])
    (step : ∀ v, Made V env v → ∀ visits, P v.before.mmio visits → P v.after.mmio (v.resume visits))
    (reached : Reaches (Happens env) first s) : ∃ m', s.devices[k]? = some m' ∧ P m' (s.sinceReset k) := by
  obtain ⟨calls,log,made,linked⟩ := follows_history (run_follows reached)
  rw [unused,List.nil_append] at log
  obtain ⟨m',found',chain⟩ := linked k m found
  refine ⟨m',found',?_⟩
  rw [sinceReset,log]
  exact chain.since (fun v member => step v (made v (mem_visitsTo member).1)) fresh

end Runtime

def Devices.Mmio.Driven {D : Type} (m : Mmio D) : Prop := m.status &&& DRIVER_OK ≠ 0

theorem Devices.Mmio.driven_of_active {D : Type} {m : Mmio D} (active : m.active = true) : m.Driven := by
  intro idle
  have accepted : m.status &&& 0xcf = 0xf := beq_iff_eq.mp active
  have bit : m.status &&& 0xcf &&& DRIVER_OK = 0 := by
    rw [BitVec.and_assoc,BitVec.and_comm 0xcf,← BitVec.and_assoc,idle]
    exact BitVec.zero_and
  rw [accepted] at bit
  exact absurd bit (by decide)

theorem Devices.Mmio.Driven.isolate {D : Type} {m : Mmio D} (driven : m.Driven) : m.isolate.Driven := by
  have status : m.isolate.status = m.status ||| NEEDS_RESET := by
    simp only [Mmio.isolate]
    split <;> rfl
  rw [Mmio.Driven,status,bits_beside _ (by decide)]
  exact driven

theorem Devices.Mmio.isolate_parts {D : Type} (m : Mmio D) :
    m.isolate.device = m.device ∧ m.isolate.queues.rings = m.queues.rings := by
  simp only [Mmio.isolate]
  split <;> exact ⟨rfl,rfl⟩

namespace Visit

theorem actions_snoc (visits : List (Visit B N)) (v : Visit B N) :
    actions (visits ++ [v]) = actions visits ++ v.after.trace := by
  simp only [Visit.actions,List.flatMap_append,List.flatMap_singleton]

inductive Rings (m : Mmio (Device B N)) : List Queue → Prop
  | same : Rings m m.queues.rings
  | rewired (index : Nat) (q q' : Queue) (found : m.queues.rings[index]? = some q)
      (early : m.status &&& DRIVER_OK = 0 ∨ q' = {q with ready := false}) (same : SameIndices q q') :
      Rings m (m.queues.rings.set index q')

theorem Rings.indices {m : Mmio (Device B N)} {rings : List Queue} (change : Rings m rings) (index : Nat) {q' : Queue}
    (found' : rings[index]? = some q') : ∃ q, m.queues.rings[index]? = some q ∧ SameIndices q q' := by
  cases change with
  | same => exact ⟨q',found',rfl,rfl⟩
  | rewired i q r found early same =>
    rcases Ledger.set_cases found' with ⟨rfl,rfl⟩ | ⟨_,old⟩
    · exact ⟨q,found,same⟩
    · exact ⟨q',old,rfl,rfl⟩

/-- Past DRIVER_OK registers only disable queues. -/
theorem Rings.driven {m : Mmio (Device B N)} {rings : List Queue} (change : Rings m rings) (driven : m.Driven)
    {index : Nat} {q' : Queue} (found' : rings[index]? = some q') :
    ∃ q, m.queues.rings[index]? = some q ∧ (q' = q ∨ q' = {q with ready := false}) := by
  cases change with
  | same => exact ⟨q',found',.inl rfl⟩
  | rewired i q r found early same =>
    rcases Ledger.set_cases found' with ⟨rfl,rfl⟩ | ⟨_,old⟩
    · exact ⟨q,found,.inr (early.resolve_left driven)⟩
    · exact ⟨q',old,.inl rfl⟩

/-- A visit in which the device itself does not run. -/
structure Plain (v : Visit B N) : Prop where
  device : v.after.mmio.device = v.before.mmio.device
  trace : v.after.trace = []
  rings : Rings v.before.mmio v.after.mmio.queues.rings
  driven : v.before.mmio.Driven → v.after.mmio.Driven

def cell (v : Visit B N) (d : Net N) : Cell (Net N) := ⟨d,v.before.mmio.queues,v.before.world,[]⟩

def put (v : Visit B N) (c : Cell (Net N)) : Slot (Device B N) :=
  v.before.putCell ⟨.net c.device,c.queues,c.world,c.trace⟩

/-- A visit in which the net device runs a program. -/
structure Runs (v : Visit B N) (d : Net N) (p : Prog (Cell (Net N)) (Failure DeviceError) Unit) : Prop where
  device : v.after.mmio.device = .net (p.run (v.cell d)).2.device
  rings : v.after.mmio.queues.rings = (p.run (v.cell d)).2.queues.rings
  trace : v.after.trace = (p.run (v.cell d)).2.trace
  world : v.after.world = (p.run (v.cell d)).2.world
  driven : v.before.mmio.Driven → v.after.mmio.Driven
  returned : (p.run (v.cell d)).1 = .ok () → v.after = v.put (p.run (v.cell d)).2

/-- What a visit of a net device that does not reset it comes to. -/
inductive Acts [NetDevice N] (env : Env) (v : Visit B N) (d : Net N) : Prop
  | plain (quiet : v.Plain)
  | receives (asked : v.operation = .write 0x50 0) (listens : v.before.mmio.listens 0 = true)
      (runs : v.Runs d (Net.receive env))
  | transmits (asked : v.operation = .write 0x50 1) (listens : v.before.mmio.listens 1 = true)
      (runs : v.Runs d (Net.transmit env))
  | polls (asked : v.operation = .poll) (active : v.before.mmio.active = true) (runs : v.Runs d (Net.poll env))

variable {v : Visit B N} {d : Net N}

/-- The device after its program was contained. -/
theorem settled_runs {α : Type} {p : Prog (Cell (Net N)) (Failure DeviceError) Unit}
    {r : Except (Failure DeviceError) α} (returned : (p.run (v.cell d)).1 = .ok () → ∃ a, r = .ok a)
    (after : v.after = (Mmio.settled (v.put (p.run (v.cell d)).2) r).2) : v.Runs d p := by
  rcases Mmio.settled_slot (v.put (p.run (v.cell d)).2) r with same | isolated
  · rw [same] at after
    refine ⟨?_,?_,?_,?_,?_,fun _ => after⟩
    · rw [after]
      rfl
    · rw [after]
      rfl
    · rw [after]
      rfl
    · rw [after]
      rfl
    · intro driven
      rw [after]
      exact driven
  · have parts := (v.put (p.run (v.cell d)).2).mmio.isolate_parts
    have whole : v.after = Mmio.isolated (v.put (p.run (v.cell d)).2) := after.trans isolated
    refine ⟨?_,?_,?_,?_,?_,?_⟩
    · rw [whole]
      exact parts.1
    · rw [whole]
      exact parts.2
    · rw [whole]
      rfl
    · rw [whole]
      rfl
    · intro driven
      rw [whole]
      exact Mmio.Driven.isolate driven
    · intro ok
      obtain ⟨a,rfl⟩ := returned ok
      exact after

theorem settled_plain {α : Type} {w : World} {r : Except (Failure DeviceError) α} (untraced : v.before.trace = [])
    (after : v.after = (Mmio.settled {v.before with world := w} r).2) : v.Plain := by
  rcases Mmio.settled_slot {v.before with world := w} r with same | isolated
  · rw [same] at after
    refine ⟨by rw [after],by rw [after]; exact untraced,?_,?_⟩
    · rw [after]
      exact .same
    · intro driven
      rw [after]
      exact driven
  · have parts := v.before.mmio.isolate_parts
    have whole : v.after = Mmio.isolated {v.before with world := w} := after.trans isolated
    refine ⟨by rw [whole]; exact parts.1,by rw [whole]; exact untraced,?_,?_⟩
    · have rings : v.after.mmio.queues.rings = v.before.mmio.queues.rings := by
        rw [whole]
        exact parts.2
      rw [rings]
      exact .same
    · intro driven
      rw [whole]
      exact Mmio.Driven.isolate driven

theorem dispatch_net {α : Type} (onBlock : Prog (Cell (Block B)) (Failure DeviceError) α)
    (onNet : Prog (Cell (Net N)) (Failure DeviceError) α) (onMem : Prog (Cell VirtioMem) (Failure DeviceError) α)
    (untraced : v.before.trace = []) (kind : v.before.mmio.device = .net d) :
    v.before.putCell ((Device.dispatch onBlock onNet onMem).run v.before.cell).2 = v.put (onNet.run (v.cell d)).2 ∧
      ((Device.dispatch onBlock onNet onMem).run v.before.cell).1 = (onNet.run (v.cell d)).1 := by
  have here : v.before.cell.device = .net d := kind
  have whole : (⟨d,v.before.cell.queues,v.before.cell.world,v.before.cell.trace⟩ : Cell (Net N)) = v.cell d := by
    rw [Visit.cell,Slot.cell,untraced]
  simp only [Device.dispatch,Prog.run_bind,Prog.run_get,here,Cell.focus,Prog.run_zoom,whole]
  exact ⟨rfl,trivial⟩

theorem ran_runs {onBlock : Prog (Cell (Block B)) (Failure DeviceError) Unit}
    {onNet : Prog (Cell (Net N)) (Failure DeviceError) Unit} {onMem : Prog (Cell VirtioMem) (Failure DeviceError) Unit}
    (untraced : v.before.trace = []) (kind : v.before.mmio.device = .net d)
    (after : v.after = (Mmio.ran v.before (Device.dispatch onBlock onNet onMem)).2) : v.Runs d onNet := by
  obtain ⟨put,same⟩ := dispatch_net onBlock onNet onMem untraced kind
  unfold Mmio.ran at after
  rw [put,same] at after
  exact settled_runs (fun ok => ⟨(),ok⟩) after

theorem Acts.net [NetDevice N] (acts : v.Acts env d) (kind : v.before.mmio.device = .net d) : ∃ d', v.after.mmio.device = .net d' := by
  cases acts with
  | plain quiet => exact ⟨d,quiet.device.trans kind⟩
  | receives _ _ runs => exact ⟨_,runs.device⟩
  | transmits _ _ runs => exact ⟨_,runs.device⟩
  | polls _ _ runs => exact ⟨_,runs.device⟩

theorem Rings.length {m : Mmio (Device B N)} {rings : List Queue} (change : Rings m rings) :
    rings.length = m.queues.rings.length := by
  cases change with
  | same => rfl
  | rewired => exact List.length_set

/-- What a visit leaves: the room for a frame, a backend that was called, and as many
queues as before. -/
theorem Acts.lasts [NetDevice N] (acts : v.Acts env d) (kind : v.before.mmio.device = .net d)
    (header : Net.HEADER ≤ d.rx.length) : ∃ d', v.after.mmio.device = .net d' ∧ d'.rx.length = d.rx.length ∧
      Net.Calls d.backend d'.backend ∧ v.after.mmio.queues.rings.length = v.before.mmio.queues.rings.length := by
  have received : ∀ c c' : Cell (Net N), Net.Aside Net.onTx 1 Net.SameTx c c' → Net.HEADER ≤ c.device.rx.length →
      c'.device.rx.length = c.device.rx.length ∧ Net.Calls c.device.backend c'.device.backend ∧
      c'.queues.rings.length = c.queues.rings.length := fun c c' aside header =>
    ⟨aside.device.room header,aside.device.backend,aside.count⟩
  cases acts with
  | plain quiet => exact ⟨d,quiet.device.trans kind,rfl,.refl,quiet.rings.length⟩
  | receives asked listens runs =>
    refine ⟨_,runs.device,?_⟩
    rw [runs.rings]
    exact received (v.cell d) _ (Net.receive_aside _) header
  | transmits asked listens runs =>
    have aside : Net.Aside Net.onRx 0 Net.SameRx (v.cell d) ((Net.transmit env).run (v.cell d)).2 := Net.transmit_aside _
    refine ⟨_,runs.device,aside.device.room,aside.device.backend,?_⟩
    rw [runs.rings]
    exact aside.count
  | polls asked active runs =>
    refine ⟨_,runs.device,?_⟩
    rw [runs.rings]
    have aside : Net.Aside Net.onRx 0 Net.SameRx (v.cell d) ((Net.transmit env).run (v.cell d)).2 := Net.transmit_aside _
    rcases sent : (Net.transmit env).run (v.cell d) with ⟨_ | _,c⟩
    all_goals
      rw [Net.poll,Prog.run_bind,sent]
      rw [sent] at aside
    · exact ⟨aside.device.room,aside.device.backend,aside.count⟩
    · have room : c.device.rx.length = d.rx.length := aside.device.room
      obtain ⟨room',calls,count⟩ := received c _ (Net.receive_aside c) (room ▸ header)
      exact ⟨room'.trans room,aside.device.backend.trans calls,count.trans aside.count⟩

section Registers
variable [BlockStorage B] [NetDevice N]

/-- A register write other than a notification and a reset. -/
theorem configure_plain (lawful : env.vq.Lawful) {offset : Nat} {value : BitVec 32} (register : offset ≠ 0x50)
    (other : ¬(offset = 0x70 ∧ value = 0)) (untraced : v.before.trace = [])
    (after : v.after = ((Mmio.write env offset value).run v.before).2) : v.Plain := by
  have outcome := Mmio.configure_cases lawful offset value v.before
  rw [Mmio.write_run register] at after
  generalize (Mmio.configure env offset value).run v.before = result at outcome after
  have plain : ∀ m : Mmio (Device B N), v.after = v.before.withMmio m → m.device = v.before.mmio.device →
      Rings v.before.mmio m.queues.rings → (v.before.mmio.Driven → m.Driven) → v.Plain := by
    intro m whole device rings driven
    refine ⟨by rw [whole]; exact device,by rw [whole]; exact untraced,by rw [whole]; exact rings,?_⟩
    rw [whole]
    exact driven
  cases outcome with
  | ignored => exact plain v.before.mmio after rfl .same id
  | selected feature driver queue => exact plain _ after rfl .same id
  | negotiated features undecided => exact plain _ after rfl .same id
  | acknowledged bits => exact plain _ after rfl .same id
  | reset c asked ran => exact absurd asked other
  | resetFailed f c asked ran => exact absurd asked other
  | rewired index q q' found early idle change =>
    exact plain _ after rfl (.rewired index q q' found early (rewired_indices change)) id
  | status grown ready asked =>
    refine plain _ after rfl .same ?_
    intro driven
    refine fun clear => driven ?_
    have accepted : v.before.mmio.acceptedStatus value &&& DRIVER_OK = value &&& DRIVER_OK := by
      unfold Mmio.acceptedStatus
      dsimp only
      split
      · rw [BitVec.and_assoc]
        rfl
      · rfl
    change v.before.mmio.acceptedStatus value &&& DRIVER_OK = 0 at clear
    rw [accepted] at clear
    rw [← grown,BitVec.and_assoc,BitVec.and_comm v.before.mmio.status,← BitVec.and_assoc,clear]
    exact BitVec.zero_and
  | refused e guest =>
    dsimp only at after
    split at after
    · exact plain {v.before.mmio with rejected := (v.before.mmio.rejected + 1) % 2^64} after rfl .same id
    · exact plain v.before.mmio after rfl .same id

/-- A notification of a queue that the device does not have is a panic. -/
theorem notify_acts (untraced : v.before.trace = []) (kind : v.before.mmio.device = .net d) {value : BitVec 32}
    (asked : v.operation = .write 0x50 value) (listens : v.before.mmio.listens value.toNat = true)
    (after : v.after = (Mmio.ran v.before (VirtioDevice.notify env value.toNat)).2) : v.Acts env d := by
  have runs : v.Runs d (Net.notify env value.toNat) := ran_runs untraced kind after
  match number : value.toNat with
  | 0 =>
    have zero : value = 0 := BitVec.eq_of_toNat_eq number
    rw [number] at listens runs
    exact .receives (zero ▸ asked) listens runs
  | 1 =>
    have one : value = 1 := BitVec.eq_of_toNat_eq number
    rw [number] at listens runs
    exact .transmits (one ▸ asked) listens runs
  | n+2 =>
    rw [number] at runs
    refine .plain ⟨runs.device.trans kind.symm,runs.trace,?_,runs.driven⟩
    rw [runs.rings]
    exact .same

/-- Every visit of a net device but a reset. -/
theorem acts [VirtualMachine V C] (lawful : env.vq.Lawful) (made : Runtime.Made V env v)
    (other : v.operation.resets = false) (kind : v.before.mmio.device = .net d) : v.Acts env d := by
  obtain ⟨_,untraced,vm,after⟩ := made
  have idle : v.after = v.before → v.Plain := fun same =>
    settled_plain (w := v.before.world) (r := (.ok () : Except _ Unit)) untraced same
  cases op : v.operation with
  | write offset value =>
    rw [op] at after other
    change v.after = ((Mmio.write env offset value).run v.before).2 at after
    by_cases register : offset = 0x50
    · subst register
      rw [Mmio.write,if_pos rfl,Mmio.notify_run] at after
      split at after
      · rename_i listens
        exact notify_acts untraced kind op listens after
      · exact .plain (idle after)
    · refine .plain (configure_plain lawful register ?_ untraced after)
      simpa [Operation.resets] using other
  | poll =>
    rw [op] at after
    change v.after = ((Mmio.poll env).run v.before).2 at after
    rw [Mmio.poll_run] at after
    split at after
    · rename_i active
      exact .polls op active (ran_runs untraced kind after)
    · exact .plain (idle after)
  | sync active =>
    rw [op] at after
    change v.after = ((Bay.syncTarget active).run v.before).2 at after
    rw [Runtime.syncTarget_run] at after
    refine .plain (idle (after.trans ?_))
    simp only [Runtime.synced,kind]
  | available =>
    rw [op,Runtime.available_slot] at after
    have waits : Cell.Waits env v.before.cell ((Queues.available env 0).run v.before.cell).2 :=
      Queues.available_waits 0 v.before.cell
    have put : v.before.putCell ((Queues.available env 0).run v.before.cell).2 =
        {v.before with world := ((Queues.available env 0).run v.before.cell).2.world} := by
      rw [waits.2]
      rfl
    dsimp only at after
    rw [put] at after
    exact .plain (settled_plain untraced after)
  | pinned =>
    rw [op,Runtime.pinned_slot] at after
    exact .plain (settled_plain untraced after)
  | process pinned =>
    rw [op,Runtime.process_slot] at after
    have stuck : (Bay.process env pinned).run ⟨v.before,vm⟩ = (.error (.panic .unreachable),⟨v.before,vm⟩) := by
      simp only [Bay.process,Prog.run_mk,kind]
    rw [stuck] at after
    exact .plain (idle after)

/-- A reset of a net device never fails: it drops the deferred frame. -/
theorem resets_net [VirtualMachine V C] (made : Runtime.Made V env v) (resets : v.operation.resets = true)
    (kind : v.before.mmio.device = .net d) :
    v.after.mmio.device = .net {d with pendingTx := none, tx := []} ∧
      v.after.mmio.queues.rings = v.before.mmio.queues.rings.map env.vq.reset := by
  obtain ⟨_,_,vm,after⟩ := made
  cases op : v.operation with
  | write offset value =>
    rw [op] at after resets
    simp only [Operation.resets,Bool.and_eq_true,beq_iff_eq] at resets
    obtain ⟨rfl,rfl⟩ := resets
    have here : v.before.cell.device = .net d := kind
    have ran : VirtioDevice.reset.run v.before.cell =
        (.ok (),{v.before.cell with device := .net {d with pendingTx := none, tx := []}}) := by
      rw [Device.reset_run,here]
    change v.after = ((Mmio.write env 0x70 0).run v.before).2 at after
    rw [Mmio.reset_run v.before ran] at after
    rw [after]
    exact ⟨rfl,rfl⟩
  | _ =>
    rw [op] at resets
    cases resets

end Registers
end Visit

theorem Runtime.created_net [BlockStorage B] [NetDevice N] {U : Type} (lawful : env.vq.Lawful) {s : Runtime V C B N U}
    (created : s.Created env) {m : Mmio (Device B N)} {d : Net N} (member : m ∈ s.devices) (net : m.device = .net d) :
    d.rx.length = Net.HEADER + NetDevice.maxFrameLen d.backend ∧ NetDevice.maxFrameLen d.backend ≤ 65553 ∧
      d.pendingTx = none ∧ m.queues.rings.length = 2 ∧ ∀ q ∈ m.queues.rings, q.nextAvail = 0 ∧ q.nextUsed = 0 := by
  obtain ⟨x,y,made,strict,constructed,new,rfl⟩ := created m member
  rw [Mmio.new_eq lawful] at new
  cases new
  change y = .net d at net
  subst net
  have fresh : d.rx.length = Net.HEADER + NetDevice.maxFrameLen d.backend ∧ NetDevice.maxFrameLen d.backend ≤ 65553 ∧
      d.pendingTx = none := by
    cases x with
    | net d₀ =>
      cases built : Net.new d₀.backend with
      | error e =>
        rw [Device.fresh,built] at constructed
        cases constructed
      | ok d' =>
        rw [Device.fresh,built] at constructed
        cases constructed
        unfold Net.new at built
        dsimp only at built
        split at built
        · cases built
        rename_i sized
        split at built
        · cases built
        · cases built
          exact ⟨List.length_replicate,(not_not.mp sized).2.2,rfl⟩
    | block b =>
      rw [Device.fresh] at constructed
      cases made : Block.new b.name b.disk with
      | error e =>
        rw [made] at constructed
        cases constructed
      | ok b' =>
        rw [made] at constructed
        cases constructed
    | mem x => cases constructed
  refine ⟨fresh.1,fresh.2.1,fresh.2.2,List.length_replicate,fun q member => ?_⟩
  rw [List.eq_of_mem_replicate member]
  exact ⟨rfl,rfl⟩

end WVmm
