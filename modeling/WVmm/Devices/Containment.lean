import WVmm.Devices.Confinement
import WVmm.Devices.Negotiation

/-! What gets out of a lenient transport. While backends keep their contract and neither
mapper nor allocator refuses what it could do, every failure of a device is a guest error;
it isolates the device or is ignored, and no assertion is violated on the way. -/
namespace WVmm.Devices
open Lib.Effect

/-- Backends that never fail, wherever they write. -/
abbrev Trust.unfailing : Trust := ⟨False,True⟩

variable {env : Env}

namespace Looks

variable {trust : Trust} {view : GuestMemoryMmap} {q : Queue}

theorem ensured {c : Prop} [Decidable c] (f : Failure DeviceError) (holds : c) :
    Looks env trust view (Prog.require c f) (fun _ => True) :=
  (Triple.require (fun w => .refl w) c f (fun broken => absurd holds broken)).consequence (fun _ same => same)
    (fun _ _ _ => trivial)

theorem pinChain (fuel index : Nat) : Looks env trust view (Queues.pinChain env q fuel index) (fun _ => True) := by
  induction fuel generalizing index with
  | zero => exact fail rfl
  | succ fuel ih =>
    refine bind (require _ rfl) (fun _ _ => bind (readDescriptor _) (fun d _ => bind (checkRange _ _) (fun _ _ => ?_)))
    refine bind (require _ rfl) (fun _ _ => ?_)
    dsimp only
    split
    · exact pure trivial
    · exact bind (ih d.next) (fun _ _ => pure trivial)

theorem pinSlots (sized : 0 < q.size) (count i : Nat) :
    Looks env trust view (Queues.pinSlots env q count i) (fun _ => True) := by
  induction count generalizing i with
  | zero => exact pure trivial
  | succ count ih =>
    refine bind (ensured _ (Nat.ne_of_gt sized)) (fun _ _ => bind (readU16 _) (fun index _ => ?_))
    exact bind (pinChain _ _) (fun _ _ => bind (ih (i + 1)) (fun _ _ => pure trivial))

theorem pinRing (sized : 0 < q.size) : Looks env trust view (Queues.pinRing env q) (fun _ => True) := by
  refine get (fun w _ => bind (require _ rfl) (fun _ _ => bind (availIdx q) (fun idx _ => ?_)))
  exact bind (require _ rfl) (fun _ _ => bind (pinSlots sized _ _) (fun _ _ => pure trivial))

/-- A scan reports what the driver did wrong and divides by no empty queue. -/
theorem pinned {queues : Queues} (sized : ∀ q ∈ queues.rings, 0 < q.size) :
    Looks env trust view (Queues.pinned env queues) (fun _ => True) := by
  suffices each : ∀ rings : List Queue, (∀ q ∈ rings, 0 < q.size) →
      Looks env trust view (Queues.pinRings env rings) (fun _ => True) by
    exact each _ (fun q member => sized q (List.mem_of_mem_filter member))
  intro rings
  induction rings with
  | nil => exact fun _ => pure trivial
  | cons first rest ih =>
    intro sized
    obtain ⟨here,later⟩ := List.forall_mem_cons.mp sized
    exact bind (pinRing here) (fun _ _ => bind (ih later) (fun _ _ => pure trivial))

end Looks

namespace Mmio

section Transports
variable {D α : Type} {s : Slot D}

/-- In lenient mode a guest error does not get out. -/
theorem settled_returns (lenient : s.mmio.strict = false) {r : Except (Failure DeviceError) α}
    (contained : ∀ f, r = .error f → Contained .unfailing f) : ∃ a, (settled s r).1 = .ok a := by
  cases r with
  | ok value => exact ⟨some value,rfl⟩
  | error f =>
    obtain ⟨e,rfl,guest⟩ := contained f rfl
    have caused : (!s.mmio.strict && e.isGuest) = true := by
      rw [lenient,guest.resolve_right id]
      rfl
    exact ⟨none,by rw [settled,if_pos caused]⟩

theorem settled_strict (s : Slot D) (r : Except (Failure DeviceError) α) :
    (settled s r).2.mmio.strict = s.mmio.strict := by
  rcases settled_slot s r with same | contained
  · rw [same]
  · rw [contained]
    simp only [isolated,Slot.withMmio,isolate]
    split <;> rfl

theorem ran_returns (lenient : s.mmio.strict = false) {p : Prog (Cell D) (Failure DeviceError) Unit}
    (contained : ∀ f, (p.run s.cell).1 = .error f → Contained .unfailing f) : (ran s p).1 = .ok () := by
  obtain ⟨a,returned⟩ := settled_returns (s := s.putCell (p.run s.cell).2) lenient contained
  rw [ran,returned]
  rfl

theorem ran_strict (s : Slot D) (p : Prog (Cell D) (Failure DeviceError) Unit) :
    (ran s p).2.mmio.strict = s.mmio.strict := settled_strict (s.putCell (p.run s.cell).2) _

variable [VirtioDevice D]

theorem notify_strict (queue : Nat) (s : Slot D) : ((notify env queue).run s).2.mmio.strict = s.mmio.strict := by
  rw [notify_run]
  split
  · exact ran_strict s _
  · rfl

theorem poll_strict (s : Slot D) : ((poll env).run s).2.mmio.strict = s.mmio.strict := by
  rw [poll_run]
  split
  · exact ran_strict s _
  · rfl

theorem configure_strict (lawful : env.vq.Lawful) (offset : Nat) (value : BitVec 32) (s : Slot D) :
    ((configure env offset value).run s).2.mmio.strict = s.mmio.strict := by
  have outcome := configure_cases lawful offset value s
  generalize (configure env offset value).run s = ended at outcome ⊢
  cases outcome <;> rfl

theorem write_strict (lawful : env.vq.Lawful) (offset : Nat) (value : BitVec 32) (s : Slot D) :
    ((write env offset value).run s).2.mmio.strict = s.mmio.strict := by
  by_cases register : offset = 0x50
  · rw [write,if_pos register]
    exact notify_strict _ s
  · have kept := configure_strict lawful offset value s
    rw [write_run register]
    generalize (configure env offset value).run s = ended at kept ⊢
    obtain ⟨(e | p) | _,u⟩ := ended
    · dsimp only
      split <;> exact kept
    · exact kept
    · exact kept

end Transports

section Kinds
variable {B N : Type} [BlockStorage B] [NetDevice N] {s : Slot (Device B N)} (lawful : env.vm.Lawful)
  (lawful' : env.vq.Lawful) (obeys : Device.Obeys B N .unfailing) (agreed : Agreed s)
  (lenient : s.mmio.strict = false)
include lawful lawful' obeys agreed lenient

theorem notify_returns (queue : Nat) : ((notify env queue).run s).1 = .ok () := by
  rw [notify_run]
  split
  · rename_i listens
    rw [Mmio.listens,Bool.and_eq_true] at listens
    have bound : queue < s.mmio.queues.rings.length := by
      by_contra missing
      rw [List.getElem?_eq_none (by omega)] at listens
      cases listens.2
    exact ran_returns lenient (Device.notify_acts lawful lawful' obeys queue s.cell ⟨agreed.sits.idle,bound⟩).2.2
  · rfl

theorem poll_returns : ((poll env).run s).1 = .ok () := by
  rw [poll_run]
  split
  · exact ran_returns lenient (Device.poll_acts lawful lawful' obeys s.cell agreed.sits.idle).2.2
  · rfl

/-- A register write of any value is carried out or ignored. -/
theorem write_returns (offset : Nat) (value : BitVec 32) : ((write env offset value).run s).1 = .ok () := by
  by_cases register : offset = 0x50
  · rw [write,if_pos register]
    exact notify_returns lawful lawful' obeys agreed lenient _
  rw [write_run register]
  have outcome := configure_cases lawful' offset value s
  generalize (configure env offset value).run s = ended at outcome ⊢
  cases outcome with
  | refused e guest =>
    dsimp only
    rw [if_pos (by rw [lenient,guest]; rfl)]
  | resetFailed f c asked ran =>
    have answer := congrArg Prod.fst ran
    rw [Device.reset_run] at answer
    cases kind : s.cell.device with
    | block d =>
      rw [kind] at answer
      dsimp only at answer
      rw [obeys.disk.flushes id] at answer
      cases answer
    | net d =>
      rw [kind] at answer
      cases answer
    | mem d =>
      rw [kind] at answer
      cases answer
  | _ => rfl

end Kinds
end Mmio

namespace VirtioMem

variable {M : Type} {table : M → Nat → Option Region} {base : List Region} {fixed : Nat → Option Region}

theorem readRequest_looks {trust : Trust} {view : GuestMemoryMmap} {room : Nat} {descriptors : List Descriptor}
    (fits : ((descriptors.filter (fun d => !d.isWriteOnly)).map (·.len)).sum ≤ room) (writable : Bool) :
    Looks env trust view (readRequest env room writable descriptors) (fun _ => True) := by
  induction descriptors generalizing room writable with
  | nil => exact .pure trivial
  | cons d rest ih =>
    unfold readRequest
    cases write : d.isWriteOnly with
    | true =>
      rw [List.filter_cons_of_neg (by simp [write])] at fits
      exact ih fits true
    | false =>
      rw [List.filter_cons_of_pos (by simp [write]),List.map_cons,List.sum_cons] at fits
      simp only [Bool.false_eq_true,if_false]
      split
      · exact .fail rfl
      rw [if_neg (by omega)]
      exact .bind (.readSlice _ _) (fun _ _ => .bind (ih (by omega) writable) (fun _ _ => .pure trivial))

/-- Only a bad guest address ends a response early. -/
theorem respond_contained {trust : Trust} (response : List UInt8) (descriptors : List Descriptor) :
    Triple (fun _ : World => True) (fun _ _ => True) (Contained trust) (respond env response descriptors)
      (fun _ _ => True) := by
  have chain : ∀ s t u : World, True → True → True := fun _ _ _ _ => id
  induction descriptors generalizing response with
  | nil => exact .done (fun _ => trivial) ()
  | cons d rest ih =>
    refine Triple.bind chain (?_ : Triple _ _ _ _ (fun _ _ => True)) (fun _ => ?_)
    · refine fun w _ => ⟨trivial,fun _ _ => trivial,fun f failed => ?_⟩
      simp only [World.writeSlice,Prog.run_mk] at failed
      cases outcome : (env.vm.writeSlice w.view w.host d.addr (response.take (min d.len response.length))).1 with
      | ok _ =>
        rw [outcome] at failed
        cases failed
      | error e =>
        rw [outcome] at failed
        cases failed
        exact .guest rfl
    · split
      · exact .done (fun _ => trivial) ()
      · exact ih _

/-- A part of a transaction that begins and ends with records that agree, and fails by
the guest's fault alone. -/
abbrev Contains {α : Type} (table : M → Nat → Option Region) (base : List Region) (fixed : Nat → Option Region)
    (m : Prog (Txn M) (Failure DeviceError) α) : Prop :=
  Triple (Book table base fixed) (Turned queues) (Contained .unfailing) m (fun _ => Book table base fixed)

theorem onWorld_contains {α : Type} {p : Prog World (Failure DeviceError) α} (steadies : Steadies id p)
    (contained : ∀ w f, (p.run w).1 = .error f → Contained .unfailing f) :
    Contains table base fixed (Txn.onWorld p : Prog (Txn M) _ α) :=
  fun t book => ⟨.refl _,fun _ _ => book.steady (steadies t.cell.world) rfl rfl,fun f failed => contained _ f failed⟩

structure Seated (t : Txn M) : Prop where
  count : t.cell.queues.rings.length = 1
  sized : ∀ q ∈ t.cell.queues.rings, 0 < q.size

theorem seated_stable : Stable (Turned queues) (Seated : Txn M → Prop) := by
  intro t u turned seated
  refine ⟨turned.rings.length.trans seated.count,fun q' member => ?_⟩
  obtain ⟨q,old,same⟩ := turned.rings.mem member
  rw [same]
  exact seated.sized q old

theorem ready_stable : Stable (Turned queues) (fun t : Txn M => ReadyRing 0 t.cell) := by
  rintro t u turned ⟨q,found,ready⟩
  obtain ⟨q',found',same⟩ := turned.rings.get found
  rw [same] at found'
  exact ⟨_,found',ready⟩

theorem pop_contains (lawful : env.vq.Lawful) :
    Triple (fun t : Txn M => Book table base fixed t ∧ Seated t) (Turned queues) (Contained .unfailing)
      (Txn.onCell (Queues.pop env 0)) (fun taken t => (Book table base fixed t ∧ Seated t) ∧
        (taken.isSome → ReadyRing 0 t.cell)) := by
  rintro t ⟨book,seated⟩
  have pops : Acts env .unfailing (fun _ _ => True) 0 (Wired t.cell.world.view 1 0)
      (Queues.pop env 0 : Prog (Cell VirtioMem) _ _) _ := Queues.pop_acts lawful Nat.zero_lt_one
  have acts := pops t.cell ⟨rfl,seated.count,Nat.zero_le _,seated.sized⟩
  have turned : Turned queues t ((Txn.onCell (Queues.pop env 0)).run t).2 := Turns.pop lawful 0 t.cell
  refine ⟨turned,fun taken returned => ⟨⟨?_,seated_stable _ _ turned seated⟩,fun some => ?_⟩,acts.2.2⟩
  · exact book.steady (Queues.pop_calm 0 t.cell).1 (Queues.pop_calm 0 t.cell).2 rfl
  · obtain ⟨chain,rfl⟩ := Option.isSome_iff_exists.mp some
    exact (acts.2.1 _ returned chain rfl).ready

section Serving
variable [Mapper M] (lawful : env.vm.Lawful) (atomic : Mapper.Atomic table) (reliable : Mapper.Reliable table)
  (plenty : ¬Exhausted env)
include lawful atomic reliable plenty

/-- Every request is answered while nothing is refused. -/
theorem request_answers (req : List UInt8) (pinned : List (Nat × Nat)) :
    Triple (Book table base fixed) (Turned queues) (fun _ => False) (request env req pinned : Prog (Txn M) _ _)
      (fun _ => Book table base fixed) := by
  intro t book
  refine ⟨?_,fun answer returned => request_book lawful atomic book req pinned answer _ (Prod.ext returned rfl),?_⟩
  · have idle := (@request_idles M env _ req pinned t).queues
    unfold Turned queues
    rw [idle]
    exact .refl _
  · intro f failed
    have outcome := request_outcome lawful atomic book req pinned
    generalize (request env req pinned).run t = ended at failed outcome
    cases outcome with
    | failed e host allocations mapper trace cause =>
      exact cause.elim (reliable_never_refuses reliable) plenty
    | _ => cases failed

variable (lawful' : env.vq.Lawful)
include lawful'

theorem serve_contains (pinned : List (Nat × Nat)) (chain : Chain) :
    Triple (fun t : Txn M => Book table base fixed t ∧ ReadyRing 0 t.cell) (Turned queues) (Contained .unfailing)
      (serve env pinned chain) (fun _ => Book table base fixed) := by
  have chains : ∀ s t u : Txn M, Turned queues s t → Turned queues t u → Turned queues s u :=
    fun _ _ _ first second => first.trans second
  have framed {α : Type} {m : Prog (Txn M) (Failure DeviceError) α} (contains : Contains table base fixed m) :
      Triple (fun t => Book table base fixed t ∧ ReadyRing 0 t.cell) (Turned queues) (Contained .unfailing) m
        (fun _ t => Book table base fixed t ∧ ReadyRing 0 t.cell) := contains.frame ready_stable
  refine Triple.bind chains ((Triple.require (fun _ => .refl _) _ _ (fun _ => .guest rfl)).consequence
    (fun _ here => here) (fun _ _ here => here.symm)) (fun _ => Triple.assume (fun sized => ?_))
  have reads : Contains table base fixed (Txn.onWorld (readRequest env 24 false chain.descriptors) : Prog (Txn M) _ _) :=
    onWorld_contains (.ofLater (readRequest_later _ _ _))
      (fun w => (readRequest_looks (Nat.le_of_eq sized.1) false w rfl).2.2)
  have answers (req : List UInt8) (pins : List (Nat × Nat)) : Contains table base fixed
      (Prog.mapError (Failure.convert .memory) (request env req pins) : Prog (Txn M) _ _) :=
    (request_answers lawful atomic reliable plenty req pins).mapError (fun _ => False.elim)
  have responds (response : List UInt8) (descriptors : List Descriptor) :
      Contains table base fixed (Txn.onWorld (respond env response descriptors) : Prog (Txn M) _ Unit) :=
    onWorld_contains (respond_steadies _ _) (fun w => (respond_contained _ _ w trivial).2.2)
  refine Triple.bind chains (framed reads) (fun req => Triple.bind chains (framed (answers req _)) (fun answer =>
    Triple.bind chains (framed (responds _ _)) (fun _ => ?_)))
  rintro t ⟨book,ready⟩
  have completes : Acts env .unfailing (fun _ _ => True) 0 (ReadyRing 0)
      (Queues.complete env 0 chain.head 10 : Prog (Cell VirtioMem) _ Unit) _ := Queues.complete_acts lawful' _ _
  have calm : Cell.Calm t.cell ((Queues.complete env 0 chain.head 10).run t.cell).2 :=
    Queues.complete_calm 0 chain.head 10 t.cell
  exact ⟨Turns.complete lawful' 0 chain.head 10 t.cell,fun _ _ => book.steady calm.1 calm.2 rfl,(completes t.cell ready).2.2⟩

/-- Up to 128 chains are served, or the guest is to blame. -/
theorem process_contains (pinned : List (Nat × Nat)) :
    Triple (fun t : Txn M => Book table base fixed t ∧ Seated t) (Turned queues) (Contained .unfailing)
      (process env pinned) (fun _ _ => True) := by
  have chains : ∀ s t u : Txn M, Turned queues s t → Turned queues t u → Turned queues s u :=
    fun _ _ _ first second => first.trans second
  unfold process
  generalize 128 = budget
  induction budget with
  | zero => exact .done (fun _ => .refl _) ()
  | succ budget ih =>
    refine Triple.bind chains (pop_contains lawful') (fun taken => ?_)
    cases taken with
    | none => exact .done (fun _ => .refl _) ()
    | some chain =>
      have served : Triple (fun t => (Book table base fixed t ∧ ReadyRing 0 t.cell) ∧ Seated t) (Turned queues)
          (Contained .unfailing) (serve env pinned chain) (fun _ t => Book table base fixed t ∧ Seated t) :=
        (serve_contains lawful atomic reliable plenty lawful' pinned chain).frame seated_stable
      exact Triple.bind chains (served.consequence (fun t here => ⟨⟨here.1.1,here.2 rfl⟩,here.1.2⟩)
        (fun _ _ here => here)) (fun _ => ih)

end Serving
end VirtioMem
end WVmm.Devices
