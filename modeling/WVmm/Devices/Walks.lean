import WVmm.Devices.Ledger
import WVmm.Lib.Trails
import WVmm.Reference

/-! Which chains a queue accepts. At a fixed content of guest memory the walk exceeds
raw links is a bounded walk in a table that the guest has written, so that `pop`
takes exactly the chains that end inside the table. -/
namespace WVmm
open Lib.Effect Lib.Trails

namespace World

variable {env : Env}

/-- A world in which guest memory does not change: the vCPUs are paused, or leave
every byte as it is. -/
def Still (env : Env) (w : World) : Prop := w.paused = true ∨ ∀ n, env.guest n w.host = w.host

theorem Still.tick_host {w : World} (still : w.Still env) : (w.tick env).host = w.host := by
  rcases still with paused | calm
  · exact if_pos paused
  · change (if w.paused then w.host else env.guest w.ticks w.host) = w.host
    split
    · rfl
    · exact calm _

/-- The moments at which the guest memory is `view` with contents `host`. -/
def Snapshot (env : Env) (view : GuestMemoryMmap) (host : Host) (w : World) : Prop :=
  w.view = view ∧ w.host = host ∧ w.Still env

variable {view : GuestMemoryMmap} {host : Host}

theorem Snapshot.tick {w : World} (here : Snapshot env view host w) :
    Snapshot env view host (w.tick env) := by
  obtain ⟨same,bytes,still⟩ := here
  have kept := still.tick_host
  refine ⟨same,kept.trans bytes,?_⟩
  rcases still with paused | calm
  · exact .inl paused
  · exact .inr (fun n => by rw [kept]; exact calm n)

theorem observe_returns {ε : Type} :
    Returns (Snapshot env view host) (observe env : Prog World ε Unit) (.ok ()) :=
  .modify (fun _ here => here.tick)

theorem readSlice_returns (addr n : Nat) : Returns (Snapshot env view host) (readSlice env addr n)
    ((env.vm.readSlice view host addr n).mapError (fun e => .error (.guestAccess e))) := by
  refine .step observe_returns (.get (fun w here => ?_))
  rw [here.1,here.2.1]
  exact .ofExcept _

theorem checkRange_returns (addr n : Nat) : Returns (Snapshot env view host) (checkRange env addr n)
    (.ok (env.vm.checkRange view addr n)) := by
  refine .get (fun w here => ?_)
  rw [here.1]
  exact .pure _

end World

/-- What the packages document about reads inside guest memory. -/
structure Env.Reads (env : Env) : Prop where
  read : ∀ (view : GuestMemoryMmap) (host : Host) a n, (∀ i < n, ∃ p, view.Backs (a + i) p) →
    ∃ raw, env.vm.readSlice view host a n = .ok raw
  index : ∀ (q : Queue) (view : GuestMemoryMmap) (host : Host) raw, q.availRing + 2 < 2^64 →
    env.vm.readSlice view host (q.availRing + 2) 2 = .ok raw →
    env.vq.availIdx q view host = .ok (fromLeBytes raw)

namespace Devices

def Descriptor.link (d : Descriptor) : Option Nat := if d.hasNext then some d.next else none

theorem Descriptor.link_eq_none {d : Descriptor} : Descriptor.link d = none ↔ d.hasNext = false := by
  cases more : d.hasNext <;> simp [link,more]

theorem Descriptor.link_eq_some {d : Descriptor} {n : Nat} : Descriptor.link d = some n ↔ d.hasNext = true ∧ d.next = n := by
  cases more : d.hasNext <;> simp [link,more]

namespace Queues
open World

variable (env : Env) (view : GuestMemoryMmap) (host : Host) (q : Queue)

def descriptorAt (index : Nat) : Option Descriptor :=
  if index < q.size then
    (env.vm.readSlice view host (wrappingAdd q.descTable (index * 16)) 16).toOption.map Descriptor.ofBytes
  else none

/-- Only NEXT and WRITE flags, and a range in guest memory. -/
def Sound (d : Descriptor) : Prop := env.vm.checkRange view d.addr d.len = true ∧ d.onlyNextWrite = true

/-- The links from a head end, every index on the way is in the table, and every
descriptor is sound. -/
structure WellFormed (head : Nat) (descriptors : List Descriptor) : Prop where
  trail : Trail (descriptorAt env view host q) Descriptor.link head descriptors
  sound : ∀ d ∈ descriptors, Sound env view d

def linked (head : Nat) : Nat → Option Nat := visited (descriptorAt env view host q) Descriptor.link head

/-- The links from a head come back to a descriptor. -/
def Revisits (head : Nat) : Prop :=
  ∃ m k index, m < k ∧ index < q.size ∧ linked env view host q head m = some index ∧
    linked env view host q head k = some index

/-- The links from a head pass as many sound descriptors as the table has, and then
leave the table. -/
def RunsOff (head : Nat) : Prop :=
  (∃ index, linked env view host q head q.size = some index ∧ q.size ≤ index) ∧
    ∀ k < q.size, ∀ index d, linked env view host q head k = some index →
      descriptorAt env view host q index = some d → Sound env view d

structure Housed : Prop where
  valid : env.vq.isValid q view = true
  sized : 0 < q.size
  table : q.descTable + 16 * q.size ≤ 2^64 ∧ ∀ i < 16 * q.size, ∃ p, view.Backs (q.descTable + i) p
  avail : q.availRing + 6 + 2 * q.size ≤ 2^64 ∧ ∀ i < 6 + 2 * q.size, ∃ p, view.Backs (q.availRing + i) p

def slotHead (nextAvail : Nat) : Option Nat :=
  (env.vm.readSlice view host (wrappingAdd (wrappingAdd q.availRing 4) (nextAvail % q.size * 2)) 2).toOption.map
    fromLeBytes

/-- The iterator of virtio-queue accepts the ring, and where the driver has
published something it yields the head stored at the next slot. -/
def Iterates : Prop :=
  ∀ nextAvail idx, env.vq.availIdx q view host = .ok idx → 0 < pending idx nextAvail →
    pending idx nextAvail ≤ q.size → ∀ head,
      (env.vq.next {q with nextAvail := nextAvail} view host).1 = .ok (some head) ↔
        slotHead env view host q nextAvail = some head

def fetch (check : Descriptor → Except (Failure DeviceError) Unit) (index : Nat) :
    Except (Failure DeviceError) Descriptor := do
  if index < q.size then
    let raw ← (env.vm.readSlice view host (wrappingAdd q.descTable (index * 16)) 16).mapError
      (fun e => Failure.error (DeviceError.guestAccess e))
    check (Descriptor.ofBytes raw)
    return Descriptor.ofBytes raw
  else .error (.error (.descriptorIndexOutOfRange index q.size))

def popCheck (d : Descriptor) : Except (Failure DeviceError) Unit :=
  if !d.refersToIndirectTable then
    if d.onlyNextWrite && env.vm.checkRange view d.addr d.len then .ok ()
    else .error (.error (.invalidDescriptorFlagsRange d.addr d.len d.flags))
  else .error (.error .unnegotiatedIndirectDescriptor)

def popWalk (head : Nat) : Except (Failure DeviceError) (List Descriptor) :=
  walk (fetch env view host q (popCheck env view)) Descriptor.link (.error .cyclicDescriptorChain) q.size head

variable {env view host q}

theorem fetch_ok {check : Descriptor → Except (Failure DeviceError) Unit}
    (checks : ∀ d, check d = .ok () ↔ Sound env view d) (index : Nat) (d : Descriptor) :
    fetch env view host q check index = .ok d ↔
      descriptorAt env view host q index = some d ∧ Sound env view d := by
  unfold fetch descriptorAt
  split
  · cases env.vm.readSlice view host (wrappingAdd q.descTable (index * 16)) 16 with
    | error e => simp [Except.mapError,Except.toOption,bind,Except.bind]
    | ok raw =>
      simp only [Except.mapError,Except.toOption,bind,Except.bind,Option.map_some,Option.some.injEq]
      cases checked : check (Descriptor.ofBytes raw) with
      | error e =>
        refine ⟨nofun,?_⟩
        rintro ⟨rfl,fine⟩
        rw [(checks _).mpr fine] at checked
        cases checked
      | ok _ =>
        simp only [pure,Except.pure,Except.ok.injEq]
        refine ⟨?_,And.left⟩
        rintro rfl
        exact ⟨rfl,(checks _).mp checked⟩
  · exact ⟨nofun,nofun⟩

theorem fetch_fresh {check : Descriptor → Except (Failure DeviceError) Unit} {f : Failure DeviceError}
    (checks : ∀ d, check d ≠ .error f) (access : ∀ e, f ≠ .error (.guestAccess e))
    (range : ∀ i n, f ≠ .error (.descriptorIndexOutOfRange i n)) (index : Nat) :
    fetch env view host q check index ≠ .error f := by
  unfold fetch
  split
  · cases env.vm.readSlice view host (wrappingAdd q.descTable (index * 16)) 16 with
    | error e =>
      intro failed
      cases failed
      exact access e rfl
    | ok raw =>
      simp only [Except.mapError,bind,Except.bind]
      cases checked : check (Descriptor.ofBytes raw) with
      | error e =>
        intro failed
        cases failed
        exact checks _ checked
      | ok _ => exact nofun
  · intro failed
    cases failed
    exact range _ _ rfl

/-- Flags above WRITE include the one for indirect tables. -/
theorem onlyNextWrite_direct {d : Descriptor} (plain : d.onlyNextWrite = true) :
    d.refersToIndirectTable = false := by
  unfold Descriptor.onlyNextWrite at plain
  unfold Descriptor.refersToIndirectTable
  have clear : d.flags &&& 0xfffc = 0 := by simpa using plain
  have bit : d.flags &&& 4 = (d.flags &&& 0xfffc) &&& 4 := (Nat.and_assoc d.flags 0xfffc 4).symm
  rw [bit,clear]
  rfl

theorem popCheck_ok (d : Descriptor) : popCheck env view d = .ok () ↔ Sound env view d := by
  unfold popCheck Sound
  cases plain : d.onlyNextWrite with
  | true => simp [onlyNextWrite_direct plain]
  | false => cases d.refersToIndirectTable <;> simp

theorem popCheck_fresh (d : Descriptor) : popCheck env view d ≠ .error (.error .cyclicDescriptorChain) := by
  unfold popCheck
  split
  · split <;> exact nofun
  · exact nofun

/-- At a snapshot, reading a descriptor and checking it is a fetch. -/
theorem fetched {β : Type} {check : Descriptor → Except (Failure DeviceError) Unit} {index : Nat}
    {f : Descriptor → Prog World (Failure DeviceError) β} {g : Descriptor → Except (Failure DeviceError) β}
    (rest : ∀ d, Returns (Snapshot env view host) (f d) (check d >>= fun _ => g d)) :
    Returns (Snapshot env view host)
      (Prog.require (index < q.size) (.error (.descriptorIndexOutOfRange index q.size)) >>= fun _ =>
        readDescriptor env (wrappingAdd q.descTable (index * 16)) >>= f)
      (fetch env view host q check index >>= g) := by
  have reads : Returns (Snapshot env view host)
      (readDescriptor env (wrappingAdd q.descTable (index * 16)))
      ((env.vm.readSlice view host (wrappingAdd q.descTable (index * 16)) 16).mapError
        (fun e => .error (.guestAccess e)) >>= fun raw => .ok (Descriptor.ofBytes raw)) :=
    .bind (readSlice_returns _ _) (fun raw => .pure _)
  by_cases inside : index < q.size
  · refine .step ((Returns.require _ _).congr (if_pos inside)) ?_
    cases read : env.vm.readSlice view host (wrappingAdd q.descTable (index * 16)) 16 with
    | error e =>
      rw [read] at reads
      refine (Returns.stop reads).congr ?_
      rw [fetch,if_pos inside,read]
      rfl
    | ok raw =>
      rw [read] at reads
      refine (Returns.step reads (rest _)).congr ?_
      rw [fetch,if_pos inside,read]
      simp only [Except.mapError,bind,Except.bind]
      cases check (Descriptor.ofBytes raw) <;> rfl
  · refine (Returns.stop ((Returns.require _ _).congr (if_neg inside))).congr ?_
    rw [fetch,if_neg inside]
    rfl

/-- At a snapshot the walk exceeds raw links is a bounded walk. -/
theorem popChain_returns (fuel index : Nat) :
    Returns (Snapshot env view host) (popChain env q fuel index)
      (walk (fetch env view host q (popCheck env view)) Descriptor.link
        (.error .cyclicDescriptorChain) fuel index) := by
  induction fuel generalizing index with
  | zero => exact .fail _
  | succ fuel ih =>
    refine fetched (fun d => ?_)
    by_cases direct : (!d.refersToIndirectTable) = true
    · refine .step ((Returns.require _ _).congr (if_pos direct)) (.step (checkRange_returns _ _) ?_)
      by_cases sound : (d.onlyNextWrite && env.vm.checkRange view d.addr d.len) = true
      · have passed : popCheck env view d = .ok () := by rw [popCheck,if_pos direct,if_pos sound]
        rw [passed]
        refine .step ((Returns.require _ _).congr (if_pos sound)) ?_
        cases more : d.hasNext with
        | false =>
          rw [Descriptor.link_eq_none.mpr more]
          exact .pure _
        | true =>
          rw [Descriptor.link_eq_some.mpr ⟨more,rfl⟩]
          exact .bind (ih d.next) (fun rest => .pure _)
      · have refused : popCheck env view d =
            .error (.error (.invalidDescriptorFlagsRange d.addr d.len d.flags)) := by
          rw [popCheck,if_pos direct,if_neg sound]
        rw [refused]
        exact .stop ((Returns.require _ _).congr (if_neg sound))
    · have refused : popCheck env view d = .error (.error .unnegotiatedIndirectDescriptor) := by
        rw [popCheck,if_neg direct]
      rw [refused]
      exact .stop ((Returns.require _ _).congr (if_neg direct))

section Tables
variable {check : Descriptor → Except (Failure DeviceError) Unit} {cyclic : Failure DeviceError}
  (checks : ∀ d, check d = .ok () ↔ Sound env view d)

theorem descriptorAt_inside (index : Nat) (d : Descriptor) (found : descriptorAt env view host q index = some d) :
    index ∈ Finset.range q.size := by
  rw [descriptorAt] at found
  split at found
  · exact Finset.mem_range.mpr ‹_›
  · cases found

theorem WellFormed.length_le {head : Nat} {descriptors : List Descriptor}
    (formed : WellFormed env view host q head descriptors) : descriptors.length ≤ q.size := by
  have short := formed.trail.length_le descriptorAt_inside
  rwa [Finset.card_range] at short

/-- Links that run off the table have not come back to a descriptor. -/
theorem RunsOff.not_revisits {head : Nat} (off : RunsOff env view host q head) :
    ¬Revisits env view host q head := by
  rintro ⟨m,k,index,less,_,first,again⟩
  obtain ⟨⟨last,reached,outside⟩,_⟩ := off
  refine visited_forever less first again (q.size + 1) ?_
  rw [visited_add]
  have missing : descriptorAt env view host q last = none := if_neg (Nat.not_lt.mpr outside)
  exact (congrArg (Option.bind · _) reached).trans (visited_missing missing 0)

include checks

/-- A walk bounded by the size of the table accepts exactly the well-formed chains. -/
theorem walk_accepts {head : Nat} {descriptors : List Descriptor} :
    walk (fetch env view host q check) Descriptor.link cyclic q.size head = .ok descriptors ↔
      WellFormed env view host q head descriptors := by
  rw [walk_ok (fetch_ok checks)]
  constructor
  · rintro ⟨trail,sound,_⟩
    exact ⟨trail,sound⟩
  · intro formed
    exact ⟨formed.trail,formed.sound,formed.length_le⟩

/-- It exhausts its bound on links that come back to a descriptor, or run off the
table. -/
theorem walk_cyclic (fresh : ∀ index, fetch env view host q check index ≠ .error cyclic) {head : Nat}
    (gave : walk (fetch env view host q check) Descriptor.link cyclic q.size head = .error cyclic) :
    Revisits env view host q head ∨ RunsOff env view host q head := by
  obtain ⟨⟨last,reached⟩,sound⟩ := (walk_exhausted (fetch_ok checks) fresh).mp gave
  by_cases inside : last < q.size
  · left
    obtain ⟨m,k,index,less,first,again⟩ :=
      revisits descriptorAt_inside (Nat.le_of_eq (Finset.card_range _)) reached (Finset.mem_range.mpr inside)
    have further := visited_forever less first again (m + 1)
    obtain ⟨d,found⟩ := visited_node first (Nat.lt_succ_self m) further
    exact ⟨m,k,index,less,Finset.mem_range.mp (descriptorAt_inside index d found),first,again⟩
  · exact .inr ⟨⟨last,reached,Nat.not_lt.mp inside⟩,sound⟩

theorem walk_runs_off (fresh : ∀ index, fetch env view host q check index ≠ .error cyclic) {head : Nat}
    (off : RunsOff env view host q head) :
    walk (fetch env view host q check) Descriptor.link cyclic q.size head = .error cyclic := by
  obtain ⟨⟨last,reached,_⟩,sound⟩ := off
  exact (walk_exhausted (fetch_ok checks) fresh).mpr ⟨⟨last,reached⟩,sound⟩

end Tables

theorem popWalk_ok {head : Nat} {descriptors : List Descriptor} :
    popWalk env view host q head = .ok descriptors ↔ WellFormed env view host q head descriptors :=
  walk_accepts popCheck_ok

theorem popWalk_cyclic {head : Nat} (gave : popWalk env view host q head = .error (.error .cyclicDescriptorChain)) :
    Revisits env view host q head ∨ RunsOff env view host q head :=
  walk_cyclic popCheck_ok (fetch_fresh popCheck_fresh nofun nofun) gave

theorem popWalk_runs_off {head : Nat} (off : RunsOff env view host q head) :
    popWalk env view host q head = .error (.error .cyclicDescriptorChain) :=
  walk_runs_off popCheck_ok (fetch_fresh popCheck_fresh nofun nofun) off

theorem readSlice_within (addr n : Nat) : Within World.ticks 1 (World.readSlice env addr n) :=
  .bind (n := 1) (k := 0) (fun _ => Nat.le_refl _) (fun _ => .free (fun _ => rfl))

theorem popChain_within (fuel index : Nat) : Within World.ticks fuel (popChain env q fuel index) := by
  induction fuel generalizing index with
  | zero => exact .free (fun _ => rfl)
  | succ fuel ih =>
    have tail : ∀ d : Descriptor, Within World.ticks fuel
        (if !d.hasNext then return [d] else do
          let rest ← popChain env q fuel d.next
          return d::rest : Prog World (Failure DeviceError) (List Descriptor)) := by
      intro d
      split
      · exact (Within.free (fun _ => rfl)).mono (Nat.zero_le _)
      · exact .bind (k := 0) (ih d.next) (fun _ => .free (fun _ => rfl))
    have checked : ∀ d : Descriptor, Within World.ticks fuel (do
        Prog.require (!d.refersToIndirectTable) (.error .unnegotiatedIndirectDescriptor)
        let inRange ← World.checkRange env d.addr d.len
        Prog.require (d.onlyNextWrite && inRange) (.error (.invalidDescriptorFlagsRange d.addr d.len d.flags))
        if !d.hasNext then return [d]
        let rest ← popChain env q fuel d.next
        return d::rest : Prog World (Failure DeviceError) (List Descriptor)) := by
      intro d
      refine (Within.bind (.require _ _) (fun _ => .bind (.free (fun _ => rfl)) (fun _ =>
        .bind (.require _ _) (fun _ => tail d)))).mono (by omega)
    have read : Within World.ticks 1 (World.readDescriptor env (wrappingAdd q.descTable (index * 16))) :=
      .bind (k := 0) (readSlice_within _ _) (fun _ => .free (fun _ => rfl))
    exact (Within.bind (.require _ _) (fun _ => .bind read checked)).mono (by omega)

section Pops
variable {D : Type} {c : Cell D} {index idx : Nat}

theorem available_not_ready (found : c.queues.rings[index]? = some q) (idle : q.ready = false) :
    (available env index).run c = (.ok 0,c) := by
  rw [available,Prog.run_bind,ring_run found]
  simp only [idle]
  rfl

/-- How many chains a ready queue shows, at the moment after guest and host have moved. -/
theorem available_run (found : c.queues.rings[index]? = some q) (ready : q.ready = true)
    (valid : env.vq.isValid q c.world.view = true)
    (read : env.vq.availIdx q c.world.view (c.world.tick env).host = .ok idx) :
    (available env index).run c =
      (if pending idx q.nextAvail ≤ q.size then .ok (pending idx q.nextAvail)
        else .error (.error (.availableRingOverrun (pending idx q.nextAvail) q.size)),
       {c with world := c.world.tick env}) := by
  have looked : (availIdx env q).run c.world = (.ok idx,c.world.tick env) := by
    change ((env.vq.availIdx q c.world.view (c.world.tick env).host).mapError _,_) = _
    rw [read]
    rfl
  rw [available,Prog.run_bind,ring_run found]
  simp only [ready,Bool.not_true,Bool.false_eq_true,if_false]
  rw [Prog.run_bind,Prog.run_get]
  simp only [Prog.run_guard,if_pos valid]
  rw [Prog.run_bind,Cell.onWorld,Prog.run_zoom,looked]
  simp only [Prog.run_guard]
  split <;> rfl

theorem pop_empty (found : c.queues.rings[index]? = some q) (ready : q.ready = true)
    (valid : env.vq.isValid q c.world.view = true)
    (read : env.vq.availIdx q c.world.view (c.world.tick env).host = .ok idx) (none : pending idx q.nextAvail = 0) :
    (pop env index).run c = (.ok .none,{c with world := c.world.tick env}) := by
  rw [pop,Prog.run_bind,available_run found ready valid read,none]
  rfl

theorem pop_overrun (found : c.queues.rings[index]? = some q) (ready : q.ready = true)
    (valid : env.vq.isValid q c.world.view = true)
    (read : env.vq.availIdx q c.world.view (c.world.tick env).host = .ok idx)
    (exceeds : q.size < pending idx q.nextAvail) :
    (pop env index).run c = (.error (.error (.availableRingOverrun (pending idx q.nextAvail) q.size)),
      {c with world := c.world.tick env}) := by
  rw [pop,Prog.run_bind,available_run found ready valid read,if_neg (Nat.not_le.mpr exceeds)]

def takeChain (env : Env) (index : Nat) : Prog (Cell D) (Failure DeviceError) (Option Chain) := do
  let head ← takeHead env index
  let q ← Cell.ring index
  let descriptors ← Cell.onWorld (popChain env q q.size head)
  Cell.record (.popped index ⟨head,descriptors⟩)
  return some ⟨head,descriptors⟩

/-- A chain is available: what `pop` comes to once the iterator has answered. -/
theorem pop_taking (found : c.queues.rings[index]? = some q) (ready : q.ready = true)
    (valid : env.vq.isValid q c.world.view = true)
    (read : env.vq.availIdx q c.world.view (c.world.tick env).host = .ok idx) (more : 0 < pending idx q.nextAvail)
    (fits : pending idx q.nextAvail ≤ q.size) :
    (pop env index).run c = (takeChain env index).run {c with world := c.world.tick env} := by
  rw [pop,Prog.run_bind,available_run found ready valid read,if_pos fits]
  simp only [Nat.pos_iff_ne_zero.mp more,if_false]
  rfl

/-- What taking a chain comes to once the iterator has yielded its head. -/
theorem takeChain_run (lawful : env.vq.Lawful) (found : c.queues.rings[index]? = some q) {head : Nat}
    (yields : (env.vq.next q c.world.view (c.world.tick env).host).1 = .ok (some head)) :
    (takeChain env index).run c = match (popChain env {q with nextAvail := (q.nextAvail + 1) % 65536} q.size head).run
        (c.world.tick env) with
      | (.ok descriptors,w) => (.ok (some ⟨head,descriptors⟩),
          {Cell.setRing index {q with nextAvail := (q.nextAvail + 1) % 65536} c with
            world := w
            trace := c.trace ++ [.popped index ⟨head,descriptors⟩]})
      | (.error e,w) => (.error e,{Cell.setRing index {q with nextAvail := (q.nextAvail + 1) % 65536} c with world := w}) := by
  have bound : index < c.queues.rings.length := (List.getElem?_eq_some_iff.mp found).1
  have after : (env.vq.next q c.world.view (c.world.tick env).host).2 = {q with nextAvail := (q.nextAvail + 1) % 65536} :=
    lawful.next_taken q c.world.view (c.world.tick env).host head _ (Prod.ext yields rfl)
  rw [takeChain,Prog.run_bind,takeHead_run found]
  simp only [yields,after]
  have placed : (Cell.setRing index {q with nextAvail := (q.nextAvail + 1) % 65536}
      {c with world := c.world.tick env}).queues.rings[index]? =
        some {q with nextAvail := (q.nextAvail + 1) % 65536} := List.getElem?_set_self bound
  rw [Prog.run_bind,ring_run placed]
  simp only [Prog.run_bind]
  rw [Cell.onWorld,Prog.run_zoom]
  have part : (Cell.setRing index {q with nextAvail := (q.nextAvail + 1) % 65536}
      {c with world := c.world.tick env}).world = c.world.tick env := rfl
  rw [part]
  rcases (popChain env {q with nextAvail := (q.nextAvail + 1) % 65536} q.size head).run (c.world.tick env) with ⟨_ | _,w⟩ <;>
    rfl

theorem pop_walk (lawful : env.vq.Lawful) (still : c.world.Still env) (found : c.queues.rings[index]? = some q)
    (ready : q.ready = true) (valid : env.vq.isValid q c.world.view = true)
    (read : env.vq.availIdx q c.world.view c.world.host = .ok idx) (more : 0 < pending idx q.nextAvail)
    (fits : pending idx q.nextAvail ≤ q.size) {head : Nat}
    (yields : (env.vq.next q c.world.view c.world.host).1 = .ok (some head)) :
    ∃ w', Snapshot env c.world.view c.world.host w' ∧ w'.ticks ≤ c.world.ticks + 2 + q.size ∧ (pop env index).run c =
      match popWalk env c.world.view c.world.host q head with
      | .ok descriptors => (.ok (some ⟨head,descriptors⟩),
          {Cell.setRing index {q with nextAvail := (q.nextAvail + 1) % 65536} c with
            world := w'
            trace := c.trace ++ [.popped index ⟨head,descriptors⟩]})
      | .error e => (.error e,
          {Cell.setRing index {q with nextAvail := (q.nextAvail + 1) % 65536} c with world := w'}) := by
  have here : Snapshot env c.world.view c.world.host c.world := ⟨rfl,rfl,still⟩
  have bytes : ((c.world.tick env).tick env).host = c.world.host := here.tick.tick.2.1
  have walked := popChain_returns (q := {q with nextAvail := (q.nextAvail + 1) % 65536}) q.size head
    ((c.world.tick env).tick env) here.tick.tick
  rw [pop_taking found ready valid (still.tick_host.symm ▸ read) more fits]
  rw [takeChain_run (c := {c with world := c.world.tick env}) lawful found (bytes.symm ▸ yields)]
  obtain ⟨outcome,kept⟩ := walked
  refine ⟨_,kept,popChain_within q.size head _,?_⟩
  generalize (popChain env _ q.size head).run ((c.world.tick env).tick env) = ended at outcome ⊢
  obtain ⟨r,w'⟩ := ended
  change r = popWalk env c.world.view c.world.host q head at outcome
  rw [← outcome]
  cases r <;> rfl

/-- Links that run off the table are reported as a cycle. -/
theorem pop_runs_off (lawful : env.vq.Lawful) (still : c.world.Still env) (found : c.queues.rings[index]? = some q)
    (ready : q.ready = true) (valid : env.vq.isValid q c.world.view = true)
    (read : env.vq.availIdx q c.world.view c.world.host = .ok idx) (more : 0 < pending idx q.nextAvail)
    (fits : pending idx q.nextAvail ≤ q.size) {head : Nat}
    (yields : (env.vq.next q c.world.view c.world.host).1 = .ok (some head))
    (off : RunsOff env c.world.view c.world.host q head) :
    ((pop env index).run c).1 = .error (.error .cyclicDescriptorChain) := by
  obtain ⟨w',_,_,ran⟩ := pop_walk lawful still found ready valid read more fits yields
  rw [ran,popWalk_runs_off off]

theorem pop_headless (still : c.world.Still env) (found : c.queues.rings[index]? = some q)
    (ready : q.ready = true) (valid : env.vq.isValid q c.world.view = true)
    (read : env.vq.availIdx q c.world.view c.world.host = .ok idx) (more : 0 < pending idx q.nextAvail)
    (fits : pending idx q.nextAvail ≤ q.size)
    (yields : ∀ head, (env.vq.next q c.world.view c.world.host).1 ≠ .ok (some head)) :
    ∃ e, ((pop env index).run c).1 = .error e := by
  have here : Snapshot env c.world.view c.world.host c.world := ⟨rfl,rfl,still⟩
  have bytes : ((c.world.tick env).tick env).host = c.world.host := here.tick.tick.2.1
  have view : (c.world.tick env).view = c.world.view := rfl
  rw [pop_taking found ready valid (still.tick_host.symm ▸ read) more fits,takeChain,Prog.run_bind]
  rw [takeHead_run (c := {c with world := c.world.tick env}) found]
  simp only [view,bytes]
  rcases answer : (env.vq.next q c.world.view c.world.host).1 with e | _ | head
  · exact ⟨_,rfl⟩
  · exact ⟨_,rfl⟩
  · exact absurd answer (yields head)

variable (env index c q)

/-- `pop` takes exactly the well-formed chain that the driver published next, one
at a time, within as many descriptors as the queue has, and calls only links that
come back cyclic. -/
structure PopsExactly (idx head : Nat) : Prop where
  empty : pending idx q.nextAvail = 0 → (pop env index).run c = (.ok none,{c with world := c.world.tick env})
  overrun : q.size < pending idx q.nextAvail →
    ∃ e, (pop env index).run c = (.error e,{c with world := c.world.tick env})
  accepts : 1 ≤ pending idx q.nextAvail → pending idx q.nextAvail ≤ q.size →
    ((∃ chain, ((pop env index).run c).1 = .ok (some chain)) ↔
      ∃ descriptors, WellFormed env c.world.view c.world.host q head descriptors)
  taken : ∀ chain c', (pop env index).run c = (.ok (some chain),c') →
    chain.head = head ∧ WellFormed env c.world.view c.world.host q head chain.descriptors ∧
      chain.descriptors.length ≤ q.size ∧
      c'.queues = (Cell.setRing index {q with nextAvail := (q.nextAvail + 1) % 65536} c).queues
  cyclic : ((pop env index).run c).1 = .error (.error .cyclicDescriptorChain) →
    Revisits env c.world.view c.world.host q head
  bounded : ((pop env index).run c).2.world.ticks ≤ c.world.ticks + 2 + q.size

variable {env index c q}

theorem Housed.reads (packages : env.Reads) (housed : Housed env view q) (host : Host) (nextAvail : Nat) :
    (∃ idx, env.vq.availIdx q view host = .ok idx) ∧ ∃ head, slotHead env view host q nextAvail = some head := by
  obtain ⟨fits,backed⟩ := housed.avail
  have slot : nextAvail % q.size < q.size := Nat.mod_lt _ housed.sized
  obtain ⟨raw,index⟩ := packages.read view host (q.availRing + 2) 2 (fun i less => by
    rw [Nat.add_assoc]
    exact backed _ (by omega))
  obtain ⟨stored,read⟩ := packages.read view host (q.availRing + 4 + nextAvail % q.size * 2) 2 (fun i less => by
    rw [Nat.add_assoc,Nat.add_assoc]
    exact backed _ (by omega))
  have address : wrappingAdd (wrappingAdd q.availRing 4) (nextAvail % q.size * 2) =
      q.availRing + 4 + nextAvail % q.size * 2 := by
    unfold wrappingAdd
    rw [Nat.mod_eq_of_lt (by omega),Nat.mod_eq_of_lt (by omega)]
  refine ⟨⟨_,packages.index q view host raw (by omega) index⟩,fromLeBytes stored,?_⟩
  rw [slotHead,address,read]
  rfl

/-- Nothing is available, or more than the ring can hold. -/
theorem pops_nothing (still : c.world.Still env) (found : c.queues.rings[index]? = some q)
    (ready : q.ready = true) (valid : env.vq.isValid q c.world.view = true)
    (read : env.vq.availIdx q c.world.view c.world.host = .ok idx) (head : Nat)
    (none : pending idx q.nextAvail = 0 ∨ q.size < pending idx q.nextAvail) :
    PopsExactly env q c index idx head := by
  rcases none with empty | exceeds
  · have ran := pop_empty found ready valid (still.tick_host.symm ▸ read) empty
    constructor
    · exact fun _ => ran
    · intro exceeds
      rw [empty] at exceeds
      cases exceeds
    · intro more
      rw [empty] at more
      cases more
    · intro chain c' taken
      rw [ran] at taken
      cases taken
    · intro failed
      rw [ran] at failed
      cases failed
    · rw [ran]
      change c.world.ticks + 1 ≤ _
      omega
  · have ran := pop_overrun found ready valid (still.tick_host.symm ▸ read) exceeds
    constructor
    · intro empty
      rw [empty] at exceeds
      cases exceeds
    · exact fun _ => ⟨_,ran⟩
    · exact fun _ fits => absurd exceeds (Nat.not_lt.mpr fits)
    · intro chain c' taken
      rw [ran] at taken
      cases taken
    · intro failed
      rw [ran] at failed
      cases failed
    · rw [ran]
      change c.world.ticks + 1 ≤ _
      omega

/-- A chain is available and its links do not run off the table. -/
theorem pops_next (lawful : env.vq.Lawful) (still : c.world.Still env) (found : c.queues.rings[index]? = some q)
    (ready : q.ready = true) (valid : env.vq.isValid q c.world.view = true)
    (read : env.vq.availIdx q c.world.view c.world.host = .ok idx) {head : Nat}
    (more : 0 < pending idx q.nextAvail) (fits : pending idx q.nextAvail ≤ q.size)
    (yields : (env.vq.next q c.world.view c.world.host).1 = .ok (some head))
    (stays : ¬RunsOff env c.world.view c.world.host q head) : PopsExactly env q c index idx head := by
  obtain ⟨w',_,short,ran⟩ := pop_walk lawful still found ready valid read more fits yields
  constructor
  · intro empty
    rw [empty] at more
    cases more
  · exact fun exceeds => absurd exceeds (Nat.not_lt.mpr fits)
  · intro _ _
    rw [ran]
    constructor
    · rintro ⟨chain,taken⟩
      cases walked : popWalk env c.world.view c.world.host q head with
      | error e => simp [walked] at taken
      | ok descriptors => exact ⟨descriptors,popWalk_ok.mp walked⟩
    · rintro ⟨descriptors,formed⟩
      rw [popWalk_ok.mpr formed]
      exact ⟨_,rfl⟩
  · intro chain c' taken
    rw [ran] at taken
    cases walked : popWalk env c.world.view c.world.host q head with
    | error e => simp [walked] at taken
    | ok descriptors =>
      rw [walked] at taken
      cases taken
      have formed := popWalk_ok.mp walked
      exact ⟨rfl,formed,formed.length_le,rfl⟩
  · intro failed
    rw [ran] at failed
    cases walked : popWalk env c.world.view c.world.host q head with
    | ok descriptors => simp [walked] at failed
    | error e =>
      rw [walked] at failed
      cases failed
      exact (popWalk_cyclic walked).resolve_right stays
  · rw [ran]
    cases popWalk env c.world.view c.world.host q head <;> exact short

/-- On a housed queue at a snapshot `pop` takes exactly what was published, unless the
links run through the whole table and then off it. -/
theorem pops_exactly_iff (lawful : env.vq.Lawful) (packages : env.Reads) (still : c.world.Still env)
    (found : c.queues.rings[index]? = some q) (housed : Housed env c.world.view q)
    (iterates : Iterates env c.world.view c.world.host q) :
    ∃ idx head, env.vq.availIdx q c.world.view c.world.host = .ok idx ∧
      slotHead env c.world.view c.world.host q q.nextAvail = some head ∧
      (PopsExactly env q c index idx head ↔
        ¬(1 ≤ pending idx q.nextAvail ∧ pending idx q.nextAvail ≤ q.size ∧
          RunsOff env c.world.view c.world.host q head)) := by
  obtain ⟨⟨idx,read⟩,head,stored⟩ := housed.reads packages c.world.host q.nextAvail
  have ready := lawful.valid_ready q _ housed.valid
  refine ⟨idx,head,read,stored,?_⟩
  by_cases one : 1 ≤ pending idx q.nextAvail ∧ pending idx q.nextAvail ≤ q.size
  · have yields := (iterates q.nextAvail idx read one.1 one.2 head).mpr stored
    constructor
    · rintro exactly ⟨_,_,off⟩
      refine off.not_revisits (exactly.cyclic ?_)
      exact pop_runs_off lawful still found ready housed.valid read one.1 one.2 yields off
    · intro stays
      exact pops_next lawful still found ready housed.valid read one.1 one.2 yields
        (fun off => stays ⟨one.1,one.2,off⟩)
  · refine iff_of_true (pops_nothing still found ready housed.valid read head ?_) (fun both => one ⟨both.1,both.2.1⟩)
    omega

end Pops

end Queues
end Devices

namespace Reference
open Devices Queues

theorem slicesIn_succeeds {regions : List Region}
    (sorted : regions.Pairwise (fun r q => r.start + r.len ≤ q.start)) (a n : Nat)
    (backed : ∀ i < n, ∃ r ∈ regions, r.Holds (a + i)) : ∃ ss, slicesIn regions a n = .ok ss := by
  induction regions generalizing a n with
  | nil =>
    cases n with
    | zero => exact ⟨[],rfl⟩
    | succ n =>
      obtain ⟨r,member,_⟩ := backed 0 (Nat.succ_pos n)
      cases member
  | cons r rest ih =>
    obtain ⟨before,following⟩ := List.pairwise_cons.mp sorted
    cases n with
    | zero => exact ⟨[],rfl⟩
    | succ n =>
      have later : ∀ i < n + 1, r.start + r.len ≤ a + i ∨ a < r.start → ∃ q ∈ rest, q.Holds (a + i) := by
        intro i less outside
        obtain ⟨q,member,holds⟩ := backed i less
        rcases List.mem_cons.mp member with rfl | tail
        · obtain ⟨first,inside,low,high⟩ := backed 0 (Nat.succ_pos n)
          obtain ⟨low',high'⟩ := holds
          rcases List.mem_cons.mp inside with rfl | far
          · omega
          · have := before first far
            omega
        · exact ⟨q,tail,holds⟩
      simp only [slicesIn]
      split
      · rename_i inside
        obtain ⟨low,high⟩ := inside
        obtain ⟨ss,found⟩ := ih following (a + min (n + 1) (r.start + r.len - a))
          (n + 1 - min (n + 1) (r.start + r.len - a)) (fun i less => by
            rw [Nat.add_assoc]
            exact later _ (by omega) (by omega))
        rw [found]
        exact ⟨_,rfl⟩
      · rename_i outside
        refine ih following a (n + 1) (fun i less => later i less ?_)
        by_contra within
        exact outside ⟨by omega,by omega⟩

theorem env_reads : env.Reads where
  read view host a n backed := by
    obtain ⟨ss,found⟩ := slicesIn_succeeds view.sorted a n (fun i less => by
      obtain ⟨p,r,member,holds,_⟩ := backed i less
      exact ⟨r,member,holds⟩)
    change ∃ raw, (slicesIn view.regions a n).map _ = .ok raw
    rw [found]
    exact ⟨_,rfl⟩
  index q view host raw _ read := by
    change (readSlice view host (q.availRing + 2) 2).map fromLeBytes = _
    change readSlice view host (q.availRing + 2) 2 = .ok raw at read
    rw [read]
    rfl

theorem env_iterates {q : Queue} (sized : 0 < q.size) (fits : q.availRing + 6 + 2 * q.size ≤ 2^64)
    (view : GuestMemoryMmap) (host : Host) : Iterates env view host q := by
  intro nextAvail idx index more _ head
  have slot : nextAvail % q.size < q.size := Nat.mod_lt _ sized
  have address : wrappingAdd (wrappingAdd q.availRing 4) (nextAvail % q.size * 2) =
      q.availRing + 4 + 2 * (nextAvail % q.size) := by
    unfold wrappingAdd
    rw [Nat.mod_eq_of_lt (by omega),Nat.mod_eq_of_lt (by omega)]
    omega
  have other : idx ≠ nextAvail := by
    rintro rfl
    simp [pending] at more
  change (next {q with nextAvail := nextAvail} view host).1 = _ ↔
    (readSlice view host _ 2).toOption.map fromLeBytes = _
  change availIdx {q with nextAvail := nextAvail} view host = .ok idx at index
  rw [next,index,address]
  simp only [other,if_false]
  cases readSlice view host (q.availRing + 4 + 2 * (nextAvail % q.size)) 2 with
  | error e => exact ⟨(by rintro ⟨⟩),(by rintro ⟨⟩)⟩
  | ok raw => simp [Except.toOption]

def single : Queue := ⟨128,1,true,0x100,0x200,0x300,0,0⟩

/-- The descriptor has one byte at 0x400 and leads to the descriptor `next`, if any;
the driver has published it. -/
def singleMemory (next : Option UInt8) : Host := fun p =>
  if p = 0x101 then 4
  else if p = 0x108 then 1
  else if p = 0x10c then if next.isSome then 1 else 0
  else if p = 0x10e then next.getD 0
  else if p = 0x202 then 1
  else 0

def singleCell (next : Option UInt8) : Cell Unit :=
  ⟨(),⟨[single],0,0⟩,⟨page,singleMemory next,0,0,true,MemoryStatus.new 0 0⟩,[]⟩

theorem page_backs {a : Nat} (inside : a < 4096) : ∃ p, page.Backs a p :=
  ⟨_,_,List.mem_singleton.mpr rfl,⟨Nat.zero_le a,by simpa using inside⟩,rfl⟩

theorem singleCell_found (next : Option UInt8) : (singleCell next).queues.rings[0]? = some single := rfl

theorem single_housed : Housed env page single where
  valid := by decide
  sized := by decide
  table := ⟨by decide,fun i less => page_backs (by simp only [single] at less ⊢; omega)⟩
  avail := ⟨by decide,fun i less => page_backs (by simp only [single] at less ⊢; omega)⟩

/-- The only descriptor leads to one outside the table. The links visit no
descriptor twice, and the chain is reported as cyclic. -/
theorem pops_exactly_stray :
    Housed env page single ∧ Iterates env page (singleMemory (some 5)) single ∧
      env.vq.availIdx single page (singleMemory (some 5)) = .ok 1 ∧
      slotHead env page (singleMemory (some 5)) single 0 = some 0 ∧
      ((pop env 0).run (singleCell (some 5))).1 = .error (.error .cyclicDescriptorChain) ∧
      ¬Revisits env page (singleMemory (some 5)) single 0 ∧
      ¬PopsExactly env single (singleCell (some 5)) 0 1 0 := by
  have iterates := env_iterates (q := single) (by decide) (by decide) page (singleMemory (some 5))
  have index : env.vq.availIdx single page (singleMemory (some 5)) = .ok 1 := by rfl
  have stored : slotHead env page (singleMemory (some 5)) single 0 = some 0 := by rfl
  have off : RunsOff env page (singleMemory (some 5)) single 0 := by
    refine ⟨⟨5,by rfl,by decide⟩,?_⟩
    intro k less i d linked found
    obtain rfl : k = 0 := Nat.lt_one_iff.mp less
    cases linked
    cases found
    exact ⟨by decide,by decide⟩
  have failed : ((pop env 0).run (singleCell (some 5))).1 = .error (.error .cyclicDescriptorChain) :=
    pop_runs_off env_vq_lawful (.inl rfl) (singleCell_found (some 5)) rfl single_housed.valid index (by decide)
      (by decide) ((iterates 0 1 index (by decide) (by decide) 0).mpr stored) off
  exact ⟨single_housed,iterates,index,stored,failed,off.not_revisits,
    fun exactly => off.not_revisits (exactly.cyclic failed)⟩

/-- A queue of four descriptors whose available index is about to wrap around. -/
def wrapping : Queue := ⟨128,4,true,0x100,0x200,0x300,65535,65535⟩

def beside : Queue := ⟨128,2,true,0x600,0x700,0x780,3,3⟩

/-- The driver has published a chain of three descriptors at head 2 and one of a single
descriptor at head 1, and two chains in a second ring. -/
def linkedMemory : Host := memoryWith [
  (0x100,descriptorBytes 0x410 20 1 3 ++ descriptorBytes 0x480 1 2 0 ++ descriptorBytes 0x400 16 1 0 ++
    descriptorBytes 0x500 100 2 0),
  (0x202,[1,0,1,0,0,0,0,0,2,0]),
  (0x600,descriptorBytes 0x880 0 0 0 ++ descriptorBytes 0x900 64 2 0),
  (0x702,[5,0,0,0,1,0])]

def linkedCell : Cell Unit :=
  ⟨(),⟨[wrapping,⟨128,4,false,0,0,0,0,0⟩,beside],0,0⟩,
    ⟨page,linkedMemory,0,0,true,MemoryStatus.new 0 0⟩,[]⟩

theorem wrapping_housed : Housed env page wrapping where
  valid := by decide
  sized := by decide
  table := ⟨by decide,fun i less => page_backs (by simp only [wrapping] at less ⊢; omega)⟩
  avail := ⟨by decide,fun i less => page_backs (by simp only [wrapping] at less ⊢; omega)⟩

/-- A chain of three descriptors, out of order in the table, is taken at the last
available index before the wrap. -/
theorem pops_exactly_linked : PopsExactly env wrapping linkedCell 0 1 2 ∧
    ∃ chain c', (pop env 0).run linkedCell = (.ok (some chain),c') ∧
      chain.descriptors = [⟨0x400,16,1,0⟩,⟨0x410,20,1,3⟩,⟨0x500,100,2,0⟩] ∧
      WellFormed env page linkedMemory wrapping 2 chain.descriptors ∧
      c'.queues.rings.map Queue.nextAvail = [0,0,3] := by
  have found : linkedCell.queues.rings[0]? = some wrapping := rfl
  obtain ⟨idx,head,index,stored,exactly⟩ := pops_exactly_iff env_vq_lawful env_reads (.inl rfl)
    found wrapping_housed (env_iterates (by decide) (by decide) page linkedMemory)
  cases index
  cases stored
  have exact := exactly.mpr (by
    rintro ⟨_,_,⟨i,linked,_⟩,_⟩
    cases linked)
  obtain ⟨chain,c',ran,descriptors,advanced⟩ : ∃ chain c', (pop env 0).run linkedCell = (.ok (some chain),c') ∧
      chain.descriptors = [⟨0x400,16,1,0⟩,⟨0x410,20,1,3⟩,⟨0x500,100,2,0⟩] ∧
      c'.queues.rings.map Queue.nextAvail = [0,0,3] := ⟨_,_,rfl,rfl,rfl⟩
  exact ⟨exact,chain,c',ran,descriptors,(exact.taken chain c' ran).2.1,advanced⟩

end Reference
end WVmm
