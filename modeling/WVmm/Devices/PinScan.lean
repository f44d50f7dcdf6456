import WVmm.Devices.Walks

/-! The pin scan reads the rings itself. At a fixed content of guest memory it
succeeds exactly when the chains it counts can all be popped, and what it pins are
the rings and the buffers of those chains. -/
namespace WVmm
open Lib.Effect Lib.Trails

/-- Neither the position of a queue decides whether it is valid, nor what its
available index is. -/
structure VirtioQueue.Placed (vq : VirtioQueue) : Prop where
  valid_at : ∀ (q : Queue) n view, vq.isValid {q with nextAvail := n} view = vq.isValid q view
  index_at : ∀ (q : Queue) n view host, vq.availIdx {q with nextAvail := n} view host = vq.availIdx q view host

namespace Devices

/-- The ranges of the descriptors that have any bytes. -/
def Chain.pins (chain : Chain) : List (Nat × Nat) :=
  (chain.descriptors.filter (fun d => d.len ≠ 0)).map (fun d => (d.addr,d.len))

theorem Chain.pins_cons (head head' : Nat) (d : Descriptor) (rest : List Descriptor) :
    Chain.pins ⟨head,[d]⟩ ++ Chain.pins ⟨head',rest⟩ = Chain.pins ⟨head,d::rest⟩ := by
  unfold Chain.pins
  rw [← List.map_append,← List.filter_append]
  rfl

namespace Queues
open World

variable (env : Env) (view : GuestMemoryMmap) (host : Host) (q : Queue)

/-- The well-formed chains in consecutive slots of the available ring. -/
inductive Published : Nat → List Chain → Prop
  | nil (n : Nat) : Published n []
  | cons {n : Nat} {chain : Chain} {rest : List Chain} : slotHead env view host q n = some chain.head →
      WellFormed env view host q chain.head chain.descriptors → Published ((n + 1) % 65536) rest →
      Published n (chain::rest)

/-- The queue is valid and all it shows are well-formed chains. -/
def Scanned (chains : List Chain) : Prop :=
  env.vq.isValid q view = true ∧ ∃ idx, env.vq.availIdx q view host = .ok idx ∧
    pending idx q.nextAvail ≤ q.size ∧ chains.length = pending idx q.nextAvail ∧
    Published env view host q q.nextAvail chains

def pinCheck (d : Descriptor) : Except (Failure DeviceError) Unit :=
  if d.onlyNextWrite && env.vm.checkRange view d.addr d.len then .ok ()
  else .error (.error (.invalidPendingDescriptor d.addr d.len d.flags))

variable {env view host q}

theorem pinCheck_ok (d : Descriptor) : pinCheck env view d = .ok () ↔ Sound env view d := by
  unfold pinCheck Sound
  rw [← Bool.and_eq_true,Bool.and_comm]
  split <;> simp_all

theorem pinChain_returns (fuel index : Nat) :
    Returns (Snapshot env view host) (pinChain env q fuel index)
      (walk (fetch env view host q (pinCheck env view)) Descriptor.link
        (.error .cyclicPendingDescriptorChain) fuel index >>= fun descriptors =>
          .ok (Chain.pins ⟨index,descriptors⟩)) := by
  induction fuel generalizing index with
  | zero => exact .fail _
  | succ fuel ih =>
    rw [walk,bind_assoc]
    refine fetched (fun d => ?_)
    refine .step (checkRange_returns _ _) ?_
    by_cases sound : (d.onlyNextWrite && env.vm.checkRange view d.addr d.len) = true
    · have passed : pinCheck env view d = .ok () := if_pos sound
      rw [passed]
      refine .step ((Returns.require _ _).congr (if_pos sound)) ?_
      have first : (if d.len ≠ 0 then [(d.addr,d.len)] else []) = Chain.pins ⟨index,[d]⟩ := by
        unfold Chain.pins
        by_cases filled : d.len = 0 <;> simp [filled]
      cases more : d.hasNext with
      | false =>
        rw [Descriptor.link_eq_none.mpr more,first]
        exact .pure _
      | true =>
        rw [Descriptor.link_eq_some.mpr ⟨more,rfl⟩,first]
        refine (Returns.bind (ih d.next) (fun rest => .pure _)).congr ?_
        dsimp only
        generalize walk _ _ _ fuel d.next = walked
        cases walked with
        | error e => rfl
        | ok rest => exact congrArg Except.ok (Chain.pins_cons index d.next d rest)
    · have refused : pinCheck env view d = .error (.error (.invalidPendingDescriptor d.addr d.len d.flags)) :=
        if_neg sound
      rw [refused]
      exact .stop ((Returns.require _ _).congr (if_neg sound))

theorem pinChain_grants (head : Nat) : Grants (Snapshot env view host) (pinChain env q q.size head)
    (fun pins => ∃ chain : Chain, chain.head = head ∧ WellFormed env view host q head chain.descriptors ∧
      pins = chain.pins) := by
  refine (Grants.ofReturns (pinChain_returns q.size head)).congr (fun pins => ?_)
  have accepts : ∀ descriptors, walk (fetch env view host q (pinCheck env view)) Descriptor.link
      (.error .cyclicPendingDescriptorChain) q.size head = .ok descriptors ↔
        WellFormed env view host q head descriptors := fun _ => walk_accepts pinCheck_ok
  generalize walk _ _ _ q.size head = walked at accepts ⊢
  cases walked with
  | error e =>
    refine ⟨nofun,?_⟩
    rintro ⟨chain,_,formed,_⟩
    cases (accepts _).mpr formed
  | ok descriptors =>
    constructor
    · intro returned
      cases returned
      exact ⟨⟨head,descriptors⟩,rfl,(accepts _).mp rfl,rfl⟩
    · rintro ⟨chain,rfl,formed,rfl⟩
      cases (accepts _).mpr formed
      rfl

theorem readU16_grants (addr : Nat) : Grants (Snapshot env view host) (readU16 env addr)
    (fun value => (env.vm.readSlice view host addr 2).toOption.map fromLeBytes = some value) := by
  refine (Grants.ofReturns (.bind (readSlice_returns addr 2) (fun raw => .pure _))).congr (fun value => ?_)
  cases env.vm.readSlice view host addr 2 with
  | error e => exact ⟨nofun,nofun⟩
  | ok raw => simp [Except.mapError,Except.toOption,bind,Except.bind]

/-- The slots from an offset on are scanned one after another. -/
theorem pinSlots_grants (count i : Nat) : Grants (Snapshot env view host) (pinSlots env q count i)
    (fun pins => ∃ chains, chains.length = count ∧ (0 < count → q.size ≠ 0) ∧
      Published env view host q ((q.nextAvail + i) % 65536) chains ∧ pins = chains.flatMap Chain.pins) := by
  induction count generalizing i with
  | zero =>
    refine (Grants.pure []).congr (fun pins => ?_)
    constructor
    · rintro rfl
      exact ⟨[],rfl,fun none => absurd none (Nat.lt_irrefl 0),.nil _,rfl⟩
    · rintro ⟨chains,none,_,_,rfl⟩
      rw [List.length_eq_zero_iff.mp none]
      rfl
  | succ count ih =>
    refine (Grants.bind (.require _ _) (fun _ => .bind (readU16_grants _) (fun head =>
      .bind (pinChain_grants head) (fun pins => .bind (ih (i + 1)) (fun rest => .pure _))))).congr (fun pins => ?_)
    have next : ((q.nextAvail + i) % 65536 + 1) % 65536 = (q.nextAvail + (i + 1)) % 65536 := by omega
    constructor
    · rintro ⟨_,sized,head,stored,_,⟨chain,rfl,formed,rfl⟩,_,⟨chains,count,_,published,rfl⟩,rfl⟩
      exact ⟨chain::chains,congrArg (· + 1) count,fun _ => sized,.cons stored formed (next ▸ published),rfl⟩
    · rintro ⟨_ | ⟨chain,chains⟩,count,sized,published,rfl⟩
      · cases count
      cases published with
      | cons stored formed published =>
        rw [next] at published
        exact ⟨(),sized (Nat.succ_pos _),chain.head,stored,chain.pins,⟨chain,rfl,formed,rfl⟩,_,
          ⟨chains,Nat.succ.inj count,fun _ => sized (Nat.succ_pos _),published,rfl⟩,rfl⟩

theorem availIdx_grants : Grants (Snapshot env view host) (availIdx env q)
    (fun idx => env.vq.availIdx q view host = .ok idx) := by
  have returns : Returns (Snapshot env view host) (availIdx env q)
      ((env.vq.availIdx q view host).mapError (fun e => .error (.queue e))) := by
    refine .step observe_returns (.get (fun w here => ?_))
    rw [here.1,here.2.1]
    exact .ofExcept _
  refine (Grants.ofReturns returns).congr (fun idx => ?_)
  cases env.vq.availIdx q view host with
  | error e => exact ⟨nofun,nofun⟩
  | ok value => simp [Except.mapError]

theorem pinRing_grants (small : q.nextAvail < 65536) : Grants (Snapshot env view host) (pinRing env q)
    (fun pins => ∃ chains, Scanned env view host q chains ∧ pins = ringPins q ++ chains.flatMap Chain.pins) := by
  refine .get (fun w here => ?_)
  rw [here.1]
  refine (Grants.bind (.require _ _) (fun _ => .bind availIdx_grants (fun idx => .bind (.require _ _) (fun _ =>
    .bind (pinSlots_grants _ 0) (fun chains => .pure _))))).congr (fun pins => ?_)
  rw [Nat.add_zero,Nat.mod_eq_of_lt small]
  constructor
  · rintro ⟨_,valid,idx,read,_,fits,_,⟨chains,count,_,published,rfl⟩,rfl⟩
    exact ⟨chains,⟨valid,idx,read,fits,count,published⟩,rfl⟩
  · rintro ⟨chains,⟨valid,idx,read,fits,count,published⟩,rfl⟩
    exact ⟨(),valid,idx,read,(),fits,_,⟨chains,count,by omega,published,rfl⟩,rfl⟩

theorem pinRings_grants (rings : List Queue) (small : ∀ q ∈ rings, q.nextAvail < 65536) :
    Grants (Snapshot env view host) (pinRings env rings) (fun pins => ∃ scans : List (List Chain),
      List.Forall₂ (Scanned env view host) rings scans ∧
        pins = (rings.zip scans).flatMap (fun r => ringPins r.1 ++ r.2.flatMap Chain.pins)) := by
  induction rings with
  | nil =>
    refine (Grants.pure []).congr (fun pins => ?_)
    constructor
    · rintro rfl
      exact ⟨[],.nil,rfl⟩
    · rintro ⟨scans,none,rfl⟩
      cases none
      rfl
  | cons q rest ih =>
    refine (Grants.bind (pinRing_grants (small q List.mem_cons_self)) (fun pins =>
      .bind (ih (fun r later => small r (List.mem_cons_of_mem _ later))) (fun others => .pure _))).congr (fun pins => ?_)
    constructor
    · rintro ⟨_,⟨chains,scanned,rfl⟩,_,⟨scans,all,rfl⟩,rfl⟩
      exact ⟨chains::scans,.cons scanned all,rfl⟩
    · rintro ⟨_,all,rfl⟩
      cases all with
      | cons scanned all => exact ⟨_,⟨_,scanned,rfl⟩,_,⟨_,all,rfl⟩,rfl⟩

section Pops
variable {D : Type} (env)

inductive Pops (index : Nat) : Cell D → List Chain → Cell D → Prop
  | nil (c : Cell D) : Pops index c [] c
  | cons {c c' c'' : Cell D} {chain : Chain} {rest : List Chain} :
      (pop env index).run c = (.ok (some chain),c') → Pops index c' rest c'' → Pops index c (chain::rest) c''

/-- As many successive pops succeed as chains are available. -/
def Empties (c : Cell D) (index : Nat) (chains : List Chain) : Prop :=
  (∃ c', (available env index).run c = (.ok chains.length,c')) ∧ ∃ c', Pops env index c chains c'

variable {env} {c : Cell D} {index idx : Nat}

theorem Iterates.advance (placed : env.vq.Placed) (iterates : Iterates env view host q) (n : Nat) :
    Iterates env view host {q with nextAvail := n} := by
  intro nextAvail idx read
  rw [placed.index_at] at read
  exact iterates nextAvail idx read

theorem Published.advance {n m : Nat} {chains : List Chain} :
    Published env view host {q with nextAvail := m} n chains ↔ Published env view host q n chains := by
  constructor
  · intro published
    induction published with
    | nil n => exact .nil n
    | cons stored formed _ ih => exact .cons stored ⟨formed.trail,formed.sound⟩ ih
  · intro published
    induction published with
    | nil n => exact .nil n
    | cons stored formed _ ih => exact .cons stored ⟨formed.trail,formed.sound⟩ ih

theorem pops_published (lawful : env.vq.Lawful) (placed : env.vq.Placed) {chains : List Chain}
    (here : Snapshot env view host c.world) (found : c.queues.rings[index]? = some q)
    (valid : env.vq.isValid q view = true) (iterates : Iterates env view host q)
    (small : q.nextAvail < 65536) (read : env.vq.availIdx q view host = .ok idx)
    (fits : pending idx q.nextAvail ≤ q.size) (count : chains.length = pending idx q.nextAvail) :
    (∃ c', Pops env index c chains c') ↔ Published env view host q q.nextAvail chains := by
  induction chains generalizing c q with
  | nil => exact iff_of_true ⟨c,.nil c⟩ (.nil _)
  | cons chain rest ih =>
    have more : 0 < pending idx q.nextAvail := count ▸ Nat.succ_pos _
    have fewer : rest.length = pending idx ((q.nextAvail + 1) % 65536) := by
      rw [List.length_cons] at count
      unfold pending at count ⊢
      omega
    have ready := lawful.valid_ready q _ valid
    have bound : index < c.queues.rings.length := (List.getElem?_eq_some_iff.mp found).1
    have later : ∀ c' : Cell D, Snapshot env view host c'.world →
        c'.queues.rings = c.queues.rings.set index {q with nextAvail := (q.nextAvail + 1) % 65536} →
        ((∃ c'', Pops env index c' rest c'') ↔ Published env view host q ((q.nextAvail + 1) % 65536) rest) := by
      intro c' here' rings
      rw [← Published.advance (m := (q.nextAvail + 1) % 65536)]
      refine ih here' ?_ ?_ (iterates.advance placed _) (Nat.mod_lt _ (by decide)) ?_ ?_ fewer
      · rw [rings]
        exact List.getElem?_set_self bound
      · rw [placed.valid_at]
        exact valid
      · rw [placed.index_at]
        exact read
      · change pending idx ((q.nextAvail + 1) % 65536) ≤ q.size
        rw [← fewer]
        exact Nat.le_trans (Nat.le_of_lt (Nat.lt_of_lt_of_eq (Nat.lt_succ_self _) count)) fits
    obtain ⟨rfl,rfl,still⟩ := here
    constructor
    · rintro ⟨c'',pops⟩
      cases pops with
      | cons popped others =>
        by_cases yields : ∃ head, (env.vq.next q c.world.view c.world.host).1 = .ok (some head)
        · obtain ⟨head,yields⟩ := yields
          obtain ⟨w',here',_,ran⟩ := pop_walk lawful still found ready valid read more fits yields
          rw [ran] at popped
          cases walked : popWalk env c.world.view c.world.host q head with
          | error e => simp [walked] at popped
          | ok descriptors =>
            rw [walked] at popped
            cases popped
            exact .cons ((iterates q.nextAvail idx read more fits head).mp yields) (popWalk_ok.mp walked)
              ((later _ here' rfl).mp ⟨c'',others⟩)
        · obtain ⟨e,failed⟩ := pop_headless still found ready valid read more fits (fun head got => yields ⟨head,got⟩)
          rw [popped] at failed
          cases failed
    · intro published
      cases published with
      | cons stored formed published =>
        have yields := (iterates q.nextAvail idx read more fits chain.head).mpr stored
        obtain ⟨w',here',_,ran⟩ := pop_walk lawful still found ready valid read more fits yields
        rw [popWalk_ok.mpr formed] at ran
        obtain ⟨c'',others⟩ := (later {Cell.setRing index {q with nextAvail := (q.nextAvail + 1) % 65536} c with
          world := w'
          trace := c.trace ++ [.popped index chain]} here' rfl).mpr published
        exact ⟨c'',.cons ran others⟩

theorem available_counted (still : c.world.Still env) (found : c.queues.rings[index]? = some q)
    (ready : q.ready = true) {count : Nat} {c' : Cell D} (ran : (available env index).run c = (.ok count,c')) :
    env.vq.isValid q c.world.view = true ∧ ∃ idx, env.vq.availIdx q c.world.view c.world.host = .ok idx ∧
      pending idx q.nextAvail ≤ q.size ∧ count = pending idx q.nextAvail := by
  obtain ⟨q',c₁,begun,then₁⟩ := Prog.bind_success ran
  rw [ring_run found] at begun
  cases begun
  rw [ready] at then₁
  obtain ⟨_,c₂,looked,then₂⟩ := Prog.bind_success then₁
  cases looked
  obtain ⟨_,c₃,required,then₃⟩ := Prog.bind_success then₂
  obtain ⟨valid,rfl⟩ := Prog.require_success required
  obtain ⟨idx,c₄,observed,then₄⟩ := Prog.bind_success then₃
  have read := ((availIdx_grants c.world ⟨rfl,rfl,still⟩).2 idx).mp (congrArg Prod.fst observed)
  have counted := available_run found ready valid (still.tick_host.symm ▸ read)
  rw [ran] at counted
  refine ⟨valid,idx,read,?_⟩
  split at counted
  · rename_i fits
    exact ⟨fits,Except.ok.inj (congrArg Prod.fst counted)⟩
  · cases counted

/-- A ring is scanned like it is emptied. -/
theorem empties_iff (lawful : env.vq.Lawful) (placed : env.vq.Placed) (still : c.world.Still env)
    (found : c.queues.rings[index]? = some q) (ready : q.ready = true) (small : q.nextAvail < 65536)
    (iterates : env.vq.isValid q c.world.view = true → Iterates env c.world.view c.world.host q)
    (chains : List Chain) : Empties env c index chains ↔ Scanned env c.world.view c.world.host q chains := by
  have pops : ∀ idx, env.vq.isValid q c.world.view = true → env.vq.availIdx q c.world.view c.world.host = .ok idx →
      pending idx q.nextAvail ≤ q.size → chains.length = pending idx q.nextAvail →
      ((∃ c', Pops env index c chains c') ↔ Published env c.world.view c.world.host q q.nextAvail chains) :=
    fun idx valid read fits count =>
      pops_published lawful placed ⟨rfl,rfl,still⟩ found valid (iterates valid) small read fits count
  constructor
  · rintro ⟨⟨c',counted⟩,popped⟩
    obtain ⟨valid,idx,read,fits,count⟩ := available_counted still found ready counted
    exact ⟨valid,idx,read,fits,count,(pops idx valid read fits count).mp popped⟩
  · rintro ⟨valid,idx,read,fits,count,published⟩
    refine ⟨⟨{c with world := c.world.tick env},?_⟩,(pops idx valid read fits count).mpr published⟩
    rw [available_run found ready valid (still.tick_host.symm ▸ read),if_pos fits,count]

def readyRings (queues : Queues) : List (Queue × Nat) := queues.rings.zipIdx.filter (fun r => r.1.ready)

theorem readyRings_fst (queues : Queues) : (readyRings queues).map Prod.fst = queues.rings.filter (·.ready) := by
  have step : ∀ (rings : List Queue) (k : Nat),
      ((rings.zipIdx k).filter (fun r => r.1.ready)).map Prod.fst = rings.filter (·.ready) := by
    intro rings
    induction rings with
    | nil => intro k; rfl
    | cons q rest ih =>
      intro k
      rw [List.zipIdx_cons,List.filter_cons,List.filter_cons]
      split
      · rw [List.map_cons,ih]
      · exact ih _
  exact step queues.rings 0

/-- At a snapshot, and where the iterator accepts every valid ring: the pin scan
returns exactly when each ready ring can be emptied by successive pops, and it
returns the rings and the non-empty descriptors of the chains in the order in which
they are popped. Rings that are not ready have no part in it. -/
theorem pinned_as_popped (lawful : env.vq.Lawful) (placed : env.vq.Placed) (c : Cell D)
    (still : c.world.Still env) (small : ∀ q ∈ c.queues.rings, q.nextAvail < 65536)
    (iterates : ∀ q ∈ c.queues.rings, q.ready = true → env.vq.isValid q c.world.view = true →
      Iterates env c.world.view c.world.host q) :
    (∀ pins, ((pinned env c.queues).run c.world).1 = .ok pins ↔ ∃ emptied : List (List Chain),
      List.Forall₂ (fun r chains => Empties env c r.2 chains) (readyRings c.queues) emptied ∧
        pins = ((readyRings c.queues).zip emptied).flatMap
          (fun r => ringPins r.1.1 ++ r.2.flatMap Chain.pins)) ∧
      ∀ queues : Queues, readyRings queues = readyRings c.queues → pinned env queues = pinned env c.queues := by
  have same : ∀ scans : List (List Chain),
      List.Forall₂ (Scanned env c.world.view c.world.host) (c.queues.rings.filter (·.ready)) scans ↔
        List.Forall₂ (fun r chains => Empties env c r.2 chains) (readyRings c.queues) scans := by
    intro scans
    have each : ∀ r ∈ readyRings c.queues, ∀ chains, Scanned env c.world.view c.world.host r.1 chains ↔
        Empties env c r.2 chains := by
      rintro ⟨q,index⟩ member chains
      obtain ⟨inside,ready⟩ := List.mem_filter.mp member
      have found : c.queues.rings[index]? = some q := List.mem_zipIdx_iff_getElem?.mp inside
      have here := List.mem_of_getElem? found
      exact (empties_iff lawful placed still found ready (small q here) (iterates q here ready) chains).symm
    rw [← readyRings_fst,List.forall₂_map_left_iff,List.forall₂_iff_get,List.forall₂_iff_get]
    refine and_congr_right (fun _ => forall_congr' (fun i => forall_congr' (fun _ => forall_congr' (fun _ => ?_))))
    exact each _ (List.get_mem _ _) _
  refine ⟨fun pins => ?_,fun queues equal => ?_⟩
  · have scan := (pinRings_grants (c.queues.rings.filter (·.ready))
      (fun q member => small q (List.mem_filter.mp member).1) c.world ⟨rfl,rfl,still⟩).2 pins
    refine scan.trans (exists_congr (fun emptied => and_congr (same emptied) ?_))
    rw [← readyRings_fst,List.zip_map_left,List.flatMap_map]
    rfl
  · rw [pinned,pinned,← readyRings_fst,← readyRings_fst,equal]

end Pops

end Queues
end Devices

namespace Reference
open Devices Queues

theorem env_placed : env.vq.Placed := ⟨fun _ _ _ => rfl,fun _ _ _ _ => rfl⟩

/-- The chains of both rings are pinned, the one that wraps around included, and they are
what two pops of each ring take. A buffer of no bytes is not pinned. -/
theorem pinned_as_popped_linked :
    ((pinned env linkedCell.queues).run linkedCell.world).1 =
      .ok (ringPins wrapping ++ [(0x400,16),(0x410,20),(0x500,100),(0x480,1)] ++
        (ringPins beside ++ [(0x900,64)])) ∧
      ∃ first second, Empties env linkedCell 0 first ∧ Empties env linkedCell 2 second ∧
        first.length = 2 ∧ second.length = 2 ∧
        ringPins wrapping ++ [(0x400,16),(0x410,20),(0x500,100),(0x480,1)] ++
            (ringPins beside ++ [(0x900,64)]) =
          ringPins wrapping ++ first.flatMap Chain.pins ++
            (ringPins beside ++ second.flatMap Chain.pins) := by
  have scanned : ((pinned env linkedCell.queues).run linkedCell.world).1 =
      .ok (ringPins wrapping ++ [(0x400,16),(0x410,20),(0x500,100),(0x480,1)] ++
        (ringPins beside ++ [(0x900,64)])) := by rfl
  have small : ∀ q ∈ linkedCell.queues.rings, q.nextAvail < 65536 := by decide
  have ready : ∀ q ∈ linkedCell.queues.rings, q.ready = true → 0 < q.size ∧ q.availRing + 6 + 2 * q.size ≤ 2^64 := by
    decide
  have exactly := pinned_as_popped env_vq_lawful env_placed linkedCell (.inl rfl) small
    (fun q member on _ => env_iterates (ready q member on).1 (ready q member on).2 page linkedMemory)
  have two : ∀ index ∈ [0,2], ∀ chains, Empties env linkedCell index chains → chains.length = 2 := by
    intro index member chains empties
    obtain ⟨⟨c',ran⟩,_⟩ := empties
    have count : ((available env index).run linkedCell).1 = .ok 2 := by
      rcases List.mem_pair.mp member with rfl | rfl <;> rfl
    rw [ran] at count
    exact Except.ok.inj count
  obtain ⟨emptied,all,pins⟩ := (exactly.1 _).mp scanned
  cases all with
  | cons first rest =>
    cases rest with
    | cons second rest =>
      cases rest
      refine ⟨scanned,_,_,first,second,two 0 (by simp) _ first,two 2 (by simp) _ second,?_⟩
      have listed : readyRings linkedCell.queues = [(wrapping,0),(beside,2)] := rfl
      simpa only [listed,List.zip_cons_cons,List.zip_nil_right,List.flatMap_cons,List.flatMap_nil,List.append_nil] using pins

end Reference
end WVmm
