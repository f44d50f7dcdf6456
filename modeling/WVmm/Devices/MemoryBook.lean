import WVmm.Devices.MemoryTransaction

/-! The four records of plugged memory: the device table, the guest view, the
mappings of the platform and the shared status. They agree in every state that
requests, host targets, synchronisation and resets can reach. -/
namespace WVmm.Devices
open Lib.Effect Lib.Table

namespace VirtioMem

/-- The geometry that `new` and `attachAt` establish. -/
structure Shape (d : VirtioMem) : Prop where
  len : d.blockLen = d.blockSize
  unit : MIB ∣ d.blockSize
  positive : 0 < d.blockSize
  whole : d.blockSize ∣ d.capacity
  aligned : d.blockSize ∣ d.start
  bounded : d.start + d.capacity < 2^64

/-- The address of a block that lies wholly in the device region. -/
def IsBlock (d : VirtioMem) (a : Nat) : Prop :=
  d.blockSize ∣ a ∧ d.start ≤ a ∧ a + d.blockSize ≤ d.start + d.capacity

theorem blocks_apart {size a b : Nat} (left : size ∣ a) (right : size ∣ b) (other : a ≠ b) :
    a + size ≤ b ∨ b + size ≤ a := by
  obtain ⟨i,rfl⟩ := left
  obtain ⟨j,rfl⟩ := right
  rcases Nat.lt_trichotomy i j with less | rfl | more
  · left
    calc size * i + size = size * (i + 1) := rfl
      _ ≤ size * j := Nat.mul_le_mul_left _ less
  · exact absurd rfl other
  · right
    calc size * j + size = size * (j + 1) := rfl
      _ ≤ size * i := Nat.mul_le_mul_left _ more

theorem isPlugged_iff (d : VirtioMem) (a : Nat) : d.isPlugged a = true ↔ ∃ r, d.blocks[a]? = some r := by
  rw [isPlugged,Std.TreeMap.contains_eq_isSome_getElem?,Option.isSome_iff_exists]

theorem not_isPlugged_iff (d : VirtioMem) (a : Nat) : d.isPlugged a = false ↔ d.blocks[a]? = none := by
  rw [isPlugged,Std.TreeMap.contains_eq_isSome_getElem?,Option.isSome_eq_false_iff,
    Option.isNone_iff_eq_none]

theorem mem_addresses (d : VirtioMem) (a : Nat) : a ∈ d.addresses ↔ d.isPlugged a = true := by
  rw [addresses,Std.TreeMap.mem_keys,isPlugged,Std.TreeMap.mem_iff_contains]

theorem addresses_nodup (d : VirtioMem) : d.addresses.Nodup := by
  refine d.blocks.ordered_keys.imp ?_
  rintro a _ less rfl
  simp at less

/-- A checked range of blocks is the range over the unbounded naturals. -/
theorem Request.addresses_range {d : VirtioMem} (shape : d.Shape) {r : Request} (kind : r.kind ≠ 2)
    {listed : List Nat} (accepted : r.addresses d = some listed) :
    0 < r.count ∧ d.blockSize ∣ r.addr ∧ d.start ≤ r.addr ∧
      r.addr + r.count * d.blockSize ≤ d.start + d.capacity ∧
      listed = (List.range r.count).map (fun n => r.addr + n * d.blockSize) := by
  have bounded := shape.bounded
  simp only [Request.addresses,if_neg kind] at accepted
  split at accepted
  · cases accepted
  · rename_i stop computed
    obtain ⟨len,product,sum⟩ := Option.bind_eq_some_iff.mp computed
    obtain ⟨small,rfl⟩ := checkedMul_eq_some.mp product
    obtain ⟨fits,rfl⟩ := checkedAdd_eq_some.mp sum
    rw [Nat.mul_comm] at small fits
    split at accepted
    · cases accepted
    · rename_i refused
      simp only [not_or,wrappingAdd,Nat.mod_eq_of_lt bounded] at refused
      obtain ⟨count,aligned,low,high⟩ := refused
      rw [Nat.mul_comm] at high
      cases accepted
      refine ⟨by omega,Nat.dvd_of_mod_eq_zero (by omega),by omega,by omega,?_⟩
      apply List.map_congr_left
      intro n member
      have less : n * d.blockSize ≤ r.count * d.blockSize :=
        Nat.mul_le_mul_right _ (Nat.le_of_lt (List.mem_range.mp member))
      rw [wrappingMul,wrappingAdd,Nat.mul_comm,Nat.mod_eq_of_lt (by omega),Nat.mod_eq_of_lt (by omega)]

theorem Request.range_nodup {d : VirtioMem} (shape : d.Shape) (addr count : Nat) :
    ((List.range count).map (fun n => addr + n * d.blockSize)).Nodup := by
  refine List.Nodup.map ?_ List.nodup_range
  intro i j same
  have := shape.positive
  exact Nat.eq_of_mul_eq_mul_right shape.positive (Nat.add_left_cancel same)

theorem Request.range_blocks {d : VirtioMem} {addr count : Nat} (aligned : d.blockSize ∣ addr)
    (low : d.start ≤ addr) (high : addr + count * d.blockSize ≤ d.start + d.capacity) :
    ∀ a ∈ (List.range count).map (fun n => addr + n * d.blockSize), d.IsBlock a := by
  intro a member
  obtain ⟨n,inside,rfl⟩ := List.mem_map.mp member
  have next : (n + 1) * d.blockSize ≤ count * d.blockSize :=
    Nat.mul_le_mul_right _ (List.mem_range.mp inside)
  rw [Nat.succ_mul] at next
  exact ⟨Nat.dvd_add aligned (Nat.dvd_mul_left _ _),by omega,by omega⟩

/-- What a request comes to before any mapper call: an answer, or the blocks to
change. -/
def verdict (d : VirtioMem) (requestedSizeMib : Nat) (pinned : List (Nat × Nat)) (r : Request) :
    (Nat × Nat) ⊕ List Nat :=
  if r.kind > 3 then .inl (3,0)
  else match r.addresses d with
    | none => .inl (3,0)
    | some addresses =>
      let plugged := (addresses.filter d.isPlugged).length
      if r.kind = 3 then
        .inl (0,if plugged = 0 then 1 else if plugged = addresses.length then 0 else 2)
      else if (r.kind = 0 ∧ plugged ≠ 0) ∨ (r.kind = 1 ∧ plugged ≠ addresses.length) then .inl (3,0)
      else if r.kind = 0 ∧ r.count > requestedSizeMib / (d.blockSize / MIB) - d.count then .inl (1,0)
      else if r.kind ≠ 0 ∧ addresses.any (fun a => pinned.any (d.meets a)) then .inl (2,0)
      else .inr addresses

/-- The device table holds whole blocks of the region under their addresses. -/
def Keyed (d : VirtioMem) : Prop :=
  ∀ a r, d.blocks[a]? = some r → r.start = a ∧ r.len = d.blockSize ∧ d.IsBlock a

/-- What holds of the blocks that a request is allowed to change. -/
structure Admitted (d : VirtioMem) (requestedSizeMib : Nat) (pinned : List (Nat × Nat)) (r : Request)
    (addresses : List Nat) : Prop where
  kind : r.kind ≤ 2
  listed : r.addresses d = some addresses
  plugged : ∀ a ∈ addresses, d.isPlugged a = !(r.kind == 0)
  within : r.kind = 0 → r.count ≤ requestedSizeMib / (d.blockSize / MIB) - d.count
  unpinned : r.kind ≠ 0 → ∀ a ∈ addresses, ∀ pin ∈ pinned, d.meets a pin = false

theorem verdict_admits {d : VirtioMem} {requestedSizeMib : Nat} {pinned : List (Nat × Nat)}
    {r : Request} {addresses : List Nat}
    (asked : verdict d requestedSizeMib pinned r = .inr addresses) :
    Admitted d requestedSizeMib pinned r addresses := by
  unfold verdict at asked
  split at asked
  · cases asked
  · rename_i known
    split at asked
    · cases asked
    · rename_i listed found
      dsimp only at asked
      split at asked
      · cases asked
      · split at asked
        · cases asked
        · split at asked
          · cases asked
          · split at asked
            · cases asked
            · rename_i notState states within unpinned
              cases asked
              simp only [not_or,not_and,not_not] at states
              refine ⟨by omega,found,?_,fun plug => by have := fun h => within ⟨plug,h⟩; omega,?_⟩
              · intro a member
                rcases (by omega : r.kind = 0 ∨ r.kind = 1 ∨ r.kind = 2) with plug | unplug | all
                · have none := List.filter_eq_nil_iff.mp (List.length_eq_zero_iff.mp (states.1 plug)) a member
                  simpa [plug] using none
                · have every := List.length_filter_eq_length_iff.mp (states.2 unplug) a member
                  simpa [unplug] using every
                · simp only [Request.addresses,if_pos all,Option.some.injEq] at found
                  rw [← found,mem_addresses] at member
                  simpa [all] using member
              · intro removing a member pin pinnedHere
                by_contra met
                simp only [Bool.not_eq_false] at met
                exact unpinned ⟨removing,List.any_eq_true.mpr ⟨a,member,
                  List.any_eq_true.mpr ⟨pin,pinnedHere,met⟩⟩⟩

/-- Only a STATE request is acknowledged without a transaction. -/
theorem verdict_acknowledges {d : VirtioMem} {requestedSizeMib : Nat} {pinned : List (Nat × Nat)}
    {r : Request} {state : Nat} (decided : verdict d requestedSizeMib pinned r = .inl (0,state)) :
    r.kind = 3 := by
  unfold verdict at decided
  split at decided
  · cases decided
  · split at decided
    · cases decided
    · dsimp only at decided
      split at decided
      · assumption
      · repeat' split at decided
        all_goals cases decided

namespace Admitted

variable {d : VirtioMem} {requestedSizeMib : Nat} {pinned : List (Nat × Nat)} {r : Request}
  {addresses : List Nat}

theorem distinct (admitted : Admitted d requestedSizeMib pinned r addresses) (shape : d.Shape) :
    addresses.Nodup := by
  by_cases all : r.kind = 2
  · have listed := admitted.listed
    simp only [Request.addresses,if_pos all,Option.some.injEq] at listed
    exact listed ▸ d.addresses_nodup
  · obtain ⟨_,_,_,_,rfl⟩ := Request.addresses_range shape all admitted.listed
    exact Request.range_nodup shape _ _

theorem blocks (admitted : Admitted d requestedSizeMib pinned r addresses) (shape : d.Shape)
    (keyed : d.Keyed) : ∀ a ∈ addresses, d.IsBlock a := by
  by_cases all : r.kind = 2
  · intro a member
    have plugged := admitted.plugged a member
    simp only [all] at plugged
    obtain ⟨region,found⟩ := (isPlugged_iff d a).mp plugged
    exact (keyed a region found).2.2
  · obtain ⟨_,aligned,low,high,rfl⟩ := Request.addresses_range shape all admitted.listed
    exact Request.range_blocks aligned low high

end Admitted

def index (d : VirtioMem) (a : Nat) : Nat := (a - d.start) / d.blockSize

theorem index_injective {d : VirtioMem} (shape : d.Shape) {a b : Nat} (left : d.IsBlock a)
    (right : d.IsBlock b) (same : d.index a = d.index b) : a = b := by
  have first := Nat.div_mul_cancel (Nat.dvd_sub left.1 shape.aligned)
  have second := Nat.div_mul_cancel (Nat.dvd_sub right.1 shape.aligned)
  rw [← index] at first second
  rw [same] at first
  have := left.2.1
  have := right.2.1
  omega

theorem index_bounded {d : VirtioMem} (shape : d.Shape) {a : Nat} (block : d.IsBlock a) :
    d.index a < d.capacity / d.blockSize := by
  obtain ⟨_,low,high⟩ := block
  have positive := shape.positive
  rw [index,Nat.div_lt_iff_lt_mul positive,Nat.div_mul_cancel shape.whole]
  omega

theorem count_bounded {d : VirtioMem} (shape : d.Shape) (keyed : d.Keyed) :
    d.count * d.blockSize ≤ d.capacity := by
  have block : ∀ a ∈ d.addresses.toFinset, d.IsBlock a := by
    intro a member
    obtain ⟨r,found⟩ := (isPlugged_iff d a).mp ((mem_addresses d a).mp (List.mem_toFinset.mp member))
    exact (keyed a r found).2.2
  have bound : d.addresses.toFinset.card ≤ (Finset.range (d.capacity / d.blockSize)).card := by
    apply Finset.card_le_card_of_injOn d.index
    · intro a member
      exact Finset.mem_coe.mpr (Finset.mem_range.mpr (index_bounded shape (block a member)))
    · intro a left b right same
      exact index_injective shape (block a left) (block b right) same
  rw [List.toFinset_card_of_nodup d.addresses_nodup,Finset.card_range,addresses,
    Std.TreeMap.length_keys] at bound
  exact (Nat.le_div_iff_mul_le shape.positive).mp bound

section Transaction
variable {M : Type}

def settled (t : Txn M) : Txn M :=
  let device := {t.cell.device with
    plugged := wrappingMul t.cell.device.count t.cell.device.blockSize
    generation := (t.cell.device.generation + 1) % 2^32}
  {t with cell := {t.cell with
    device := device
    world := {t.cell.world with
      control := {t.cell.world.control with pluggedSizeMib := device.plugged / 2^20}}}}

/-- The records agree: the view holds the regions of `base` and the plugged
blocks, the mapper the mappings of `fixed` and the plugged blocks, and the
sizes are those of the table. -/
structure Book (table : M → Nat → Option Region) (base : List Region) (fixed : Nat → Option Region)
    (t : Txn M) : Prop where
  shape : t.cell.device.Shape
  keyed : t.cell.device.Keyed
  viewed : ∀ q, q ∈ t.cell.world.view.regions ↔ q ∈ base ∨ t.cell.device.blocks[q.start]? = some q
  mapped : ∀ a, table t.mapper a = (t.cell.device.blocks[a]?).or (fixed a)
  beside : ∀ q ∈ base, q.start + q.len ≤ t.cell.device.start ∨
    t.cell.device.start + t.cell.device.capacity ≤ q.start
  unclaimed : ∀ a, t.cell.device.start ≤ a → a < t.cell.device.start + t.cell.device.capacity →
    fixed a = none
  plugged : t.cell.device.plugged = t.cell.device.count * t.cell.device.blockSize
  reported : t.cell.world.control.pluggedSizeMib = t.cell.device.plugged / MIB
  blockUnit : MIB * t.cell.world.control.blockSizeMib = t.cell.device.blockSize
  regionUnit : MIB * t.cell.world.control.regionSizeMib = t.cell.device.capacity
  multiple : t.cell.world.control.blockSizeMib ∣ t.cell.world.control.requestedSizeMib
  within : t.cell.world.control.requestedSizeMib ≤ t.cell.world.control.regionSizeMib

def committed (t : Txn M) (view : GuestMemoryMmap) (blocks : Std.TreeMap Nat Region) : Txn M :=
  {t with cell := {t.cell with
    world := {t.cell.world with view := view}
    device := {t.cell.device with blocks := blocks}}}

/-- What a committed change has done to view and mapper. -/
structure Carried (table : M → Nat → Option Region) (plug : Bool) (addresses : List Nat) (t : Txn M)
    (mapper : M) (trace : List Action) (regions : List Region) (view : GuestMemoryMmap) : Prop where
  starts : regions.map Region.start = addresses
  ready : Ready Region.start plug regions (table t.mapper)
  lengths : ∀ r ∈ regions, r.len = t.cell.device.blockSize
  viewed : ∀ q, q ∈ view.regions ↔
    if plug then q ∈ regions ∨ q ∈ t.cell.world.view.regions
    else q ∈ t.cell.world.view.regions ∧ q ∉ regions
  mapped : table mapper = overlay Region.start plug regions (table t.mapper)
  traced : trace = t.cell.trace ++ regions.map (Txn.call plug)

variable {env : Env} {table : M → Nat → Option Region} {base : List Region}
  {fixed : Nat → Option Region} {t : Txn M} {addresses : List Nat} {plug : Bool}

theorem Book.entry (book : Book table base fixed t) {a : Nat} (block : t.cell.device.IsBlock a) :
    table t.mapper a = t.cell.device.blocks[a]? := by
  have positive := book.shape.positive
  obtain ⟨_,low,high⟩ := block
  rw [book.mapped a,book.unclaimed a low (by omega),Option.or_none]

theorem Book.room (book : Book table base fixed t) (distinct : addresses.Nodup)
    (blocks : ∀ a ∈ addresses, t.cell.device.IsBlock a)
    (absent : ∀ a ∈ addresses, t.cell.device.isPlugged a = false) :
    Room t.cell.device addresses t.cell.world.view := by
  have length := book.shape.len
  refine ⟨length ▸ book.shape.positive,?_,?_⟩
  · rw [length]
    refine distinct.imp_of_mem ?_
    intro a b left right other
    exact blocks_apart (blocks a left).1 (blocks b right).1 other
  · intro a member q inView
    rw [length]
    obtain ⟨aligned,low,high⟩ := blocks a member
    rcases (book.viewed q).mp inView with fixedRegion | found
    · have := book.beside q fixedRegion
      omega
    · obtain ⟨_,width,block⟩ := book.keyed q.start q found
      have other : a ≠ q.start := by
        rintro rfl
        rw [(not_isPlugged_iff _ _).mp (absent _ member)] at found
        cases found
      rw [width]
      exact blocks_apart aligned block.1 other

theorem Book.present (book : Book table base fixed t) (distinct : addresses.Nodup)
    (plugged : ∀ a ∈ addresses, t.cell.device.isPlugged a = true) :
    Present t.cell.device addresses t.cell.world.view := by
  refine ⟨book.shape.positive,distinct,?_⟩
  intro a member
  obtain ⟨r,found⟩ := (isPlugged_iff _ _).mp (plugged a member)
  obtain ⟨atStart,length,_⟩ := book.keyed a r found
  exact ⟨r,found,(book.viewed r).mpr (Or.inr (atStart ▸ found)),atStart,length⟩

namespace Carried

variable {mapper : M} {trace : List Action} {regions : List Region} {view : GuestMemoryMmap}

theorem lookup (carried : Carried table plug addresses t mapper trace regions view) (a : Nat) :
    (commit plug addresses regions t.cell.device.blocks)[a]? =
      overlay Region.start plug regions (fun a => t.cell.device.blocks[a]?) a := by
  rw [← carried.starts,commit_lookup]

theorem keyed (carried : Carried table plug addresses t mapper trace regions view)
    (book : Book table base fixed t) (blocks : ∀ a ∈ addresses, t.cell.device.IsBlock a) (a : Nat)
    (r : Region) (found : (commit plug addresses regions t.cell.device.blocks)[a]? = some r) :
    r.start = a ∧ r.len = t.cell.device.blockSize ∧ t.cell.device.IsBlock a := by
  rw [carried.lookup] at found
  cases plug with
  | true =>
    rcases overlay_added carried.ready.distinct found with ⟨added,rfl⟩ | ⟨_,old⟩
    · exact ⟨rfl,carried.lengths r added,blocks _ (carried.starts ▸ List.mem_map_of_mem added)⟩
    · exact book.keyed a r old
  | false => exact book.keyed a r (overlay_kept carried.ready.distinct found).2

theorem viewed_iff (carried : Carried table plug addresses t mapper trace regions view)
    (book : Book table base fixed t) (blocks : ∀ a ∈ addresses, t.cell.device.IsBlock a) (q : Region) :
    q ∈ view.regions ↔
      q ∈ base ∨ (commit plug addresses regions t.cell.device.blocks)[q.start]? = some q := by
  have entry : ∀ r ∈ regions, t.cell.device.blocks[r.start]? = if plug then none else some r := by
    intro r member
    rw [← book.entry (blocks _ (carried.starts ▸ List.mem_map_of_mem member))]
    exact carried.ready.before r member
  rw [carried.viewed,carried.lookup]
  cases plug with
  | true =>
    simp only [if_true,book.viewed q] at entry ⊢
    constructor
    · rintro (added | fixedRegion | old)
      · exact Or.inr (overlay_inside true regions _ carried.ready.distinct q added)
      · exact Or.inl fixedRegion
      · right
        rw [overlay_outside true regions _ q.start]
        · exact old
        · intro member
          obtain ⟨r,added,same⟩ := List.mem_map.mp member
          rw [← same,entry r added] at old
          cases old
    · rintro (fixedRegion | found)
      · exact Or.inr (Or.inl fixedRegion)
      · rcases overlay_added carried.ready.distinct found with ⟨added,_⟩ | ⟨_,old⟩
        · exact Or.inl added
        · exact Or.inr (Or.inr old)
  | false =>
    simp only [Bool.false_eq_true,if_false,book.viewed q] at entry ⊢
    constructor
    · rintro ⟨fixedRegion | old,kept⟩
      · exact Or.inl fixedRegion
      · right
        rw [overlay_outside false regions _ q.start]
        · exact old
        · intro member
          obtain ⟨r,removed,same⟩ := List.mem_map.mp member
          rw [← same,entry r removed] at old
          cases old
          exact kept removed
    · rintro (fixedRegion | found)
      · refine ⟨Or.inl fixedRegion,fun removed => ?_⟩
        -- A region of the base lies beside every block.
        have beside := book.beside q fixedRegion
        have length := carried.lengths q removed
        have block := blocks _ (carried.starts ▸ List.mem_map_of_mem removed)
        have positive := book.shape.positive
        obtain ⟨_,low,high⟩ := block
        omega
      · obtain ⟨outside,old⟩ := overlay_kept carried.ready.distinct found
        exact ⟨Or.inr old,fun removed => outside (List.mem_map_of_mem removed)⟩

theorem mapped_eq (carried : Carried table plug addresses t mapper trace regions view)
    (book : Book table base fixed t) (blocks : ∀ a ∈ addresses, t.cell.device.IsBlock a) (a : Nat) :
    table mapper a =
      ((commit plug addresses regions t.cell.device.blocks)[a]?).or (fixed a) := by
  rw [carried.mapped,carried.lookup]
  by_cases member : a ∈ regions.map Region.start
  · have block := blocks a (carried.starts ▸ member)
    have positive := book.shape.positive
    obtain ⟨_,low,high⟩ := block
    obtain ⟨r,inside,rfl⟩ := List.mem_map.mp member
    rw [overlay_inside plug regions _ carried.ready.distinct r inside,
      overlay_inside plug regions _ carried.ready.distinct r inside,
      book.unclaimed _ low (by omega),Option.or_none]
  · rw [overlay_outside plug regions _ a member,overlay_outside plug regions _ a member]
    exact book.mapped a

/-- A committed change with its size update leaves the records in agreement. -/
theorem book (carried : Carried table plug addresses t mapper trace regions view)
    (book : Book table base fixed t) (blocks : ∀ a ∈ addresses, t.cell.device.IsBlock a) (host : Host)
    (allocations : Nat) :
    Book table base fixed (settled (committed ((t.withMemory host allocations).withMapper mapper trace)
      view (commit plug addresses regions t.cell.device.blocks))) := by
  let d : VirtioMem := {t.cell.device with
    blocks := commit plug addresses regions t.cell.device.blocks}
  have shape : d.Shape := ⟨book.shape.len,book.shape.unit,book.shape.positive,book.shape.whole,
    book.shape.aligned,book.shape.bounded⟩
  have keyed : d.Keyed := carried.keyed book blocks
  have bounded : d.count * d.blockSize < 2^64 := by
    have := count_bounded shape keyed
    have := shape.bounded
    omega
  exact {
    shape := ⟨book.shape.len,book.shape.unit,book.shape.positive,book.shape.whole,
      book.shape.aligned,book.shape.bounded⟩
    keyed := keyed
    viewed := carried.viewed_iff book blocks
    mapped := carried.mapped_eq book blocks
    beside := book.beside
    unclaimed := book.unclaimed
    plugged := (Nat.mod_eq_of_lt (Nat.mul_comm _ _ ▸ bounded)).trans (Nat.mul_comm _ _)
    reported := rfl
    blockUnit := book.blockUnit
    regionUnit := book.regionUnit
    multiple := book.multiple
    within := book.within }

end Carried

variable [Mapper M]

/-- A request is its verdict, followed by the transaction it asks for. -/
theorem request_run (env : Env) (req : List UInt8) (pinned : List (Nat × Nat)) (t : Txn M) :
    (request env req pinned).run t =
      match verdict t.cell.device t.cell.world.control.requestedSizeMib pinned (Request.decode req) with
      | .inl answer => (.ok answer,t)
      | .inr addresses =>
        match (change env addresses ((Request.decode req).kind == 0)).run t with
        | (.error f,u) => (.error f,u)
        | (.ok false,u) => (.ok (2,0),u)
        | (.ok true,u) => (.ok (0,0),settled u) := by
  simp only [request,verdict]
  split
  · rfl
  · rw [Prog.run_bind,Prog.run_get]
    dsimp only
    cases (Request.decode req).addresses t.cell.device with
    | none => rfl
    | some addresses =>
      dsimp only
      split
      · rfl
      · split
        · rfl
        · split
          · rfl
          · split
            · rfl
            · rw [Prog.run_bind]
              dsimp only
              rcases (change env addresses _).run t with ⟨result,u⟩
              rcases result with f | done
              · rfl
              · cases done <;> rfl

/-- The mapper operations of a staged change, and what follows them. -/
theorem change_staged (atomic : Mapper.Atomic table) (host : Host) (allocations : Nat)
    {regions : List Region} {view : GuestMemoryMmap}
    (staged : (stage env plug addresses t.cell.world.view).run t =
      (.ok (regions,view),t.withMemory host allocations))
    (ready : Ready Region.start plug regions (table t.mapper)) :
    ∃ mapper trace,
      ((change env addresses plug).run t = (.ok true,committed
          ((t.withMemory host allocations).withMapper mapper trace) view
          (commit plug addresses regions t.cell.device.blocks)) ∧
        table mapper = overlay Region.start plug regions (table t.mapper) ∧
        trace = t.cell.trace ++ regions.map (Txn.call plug)) ∨
      ((change env addresses plug).run t =
          (.ok false,(t.withMemory host allocations).withMapper mapper trace) ∧
        table mapper = table t.mapper ∧ Refused table) ∨
      (∃ e, (change env addresses plug).run t =
          (.error (.error e),(t.withMemory host allocations).withMapper mapper trace) ∧
        Refused table) := by
  obtain ⟨mapper,trace,outcome⟩ := apply_outcome atomic plug [] regions (table t.mapper) ready
    (t.withMemory host allocations) rfl
  refine ⟨mapper,trace,?_⟩
  simp only [change,Prog.run_bind,Prog.run_get,staged]
  rcases outcome with ⟨ran,final,extended⟩ | ⟨ran,same,refused⟩ | ⟨source,failed,ran,refused⟩
  · left
    rw [ran]
    exact ⟨rfl,final,extended⟩
  · right; left
    rw [ran]
    exact ⟨rfl,same,refused⟩
  · right; right
    rw [ran]
    exact ⟨_,rfl,refused⟩

/-- Every way a change of admitted blocks can end. -/
theorem change_outcome (lawful : env.vm.Lawful) (atomic : Mapper.Atomic table)
    (book : Book table base fixed t) (distinct : addresses.Nodup)
    (blocks : ∀ a ∈ addresses, t.cell.device.IsBlock a)
    (plugged : ∀ a ∈ addresses, t.cell.device.isPlugged a = !plug) :
    ∃ host allocations mapper trace,
      (∃ regions view, (change env addresses plug).run t = (.ok true,committed
          ((t.withMemory host allocations).withMapper mapper trace) view
          (commit plug addresses regions t.cell.device.blocks)) ∧
        Carried table plug addresses t mapper trace regions view) ∨
      ((change env addresses plug).run t =
          (.ok false,(t.withMemory host allocations).withMapper mapper trace) ∧
        table mapper = table t.mapper ∧ Refused table) ∨
      (∃ e, (change env addresses plug).run t =
          (.error (.error e),(t.withMemory host allocations).withMapper mapper trace) ∧
        (Refused table ∨ Exhausted env)) := by
  cases plug with
  | true =>
    obtain ⟨result,host,allocations,staged,good,bad⟩ := stage_plug env lawful addresses
      t.cell.world.view t (book.room distinct blocks plugged)
    rcases result with f | ⟨regions,view⟩
    · obtain ⟨⟨e,rfl⟩,exhausted⟩ := bad f rfl
      refine ⟨host,allocations,t.mapper,t.cell.trace,Or.inr (Or.inr ⟨.guestMemory e,?_,Or.inr exhausted⟩)⟩
      simp only [change,Prog.run_bind,Prog.run_get,staged]
      rfl
    · obtain ⟨starts,lengths,viewed⟩ := good regions view rfl
      have ready : Ready Region.start true regions (table t.mapper) := by
        refine ⟨starts ▸ distinct,?_⟩
        intro r member
        have listed : r.start ∈ addresses := starts ▸ List.mem_map_of_mem member
        rw [book.entry (blocks _ listed),(not_isPlugged_iff _ _).mp (plugged _ listed)]
        rfl
      obtain ⟨mapper,trace,outcome⟩ := change_staged atomic host allocations staged ready
      refine ⟨host,allocations,mapper,trace,?_⟩
      rcases outcome with ⟨ran,mapped,traced⟩ | failed | ⟨e,ran,refused⟩
      · exact Or.inl ⟨regions,view,ran,starts,ready,book.shape.len ▸ lengths,viewed,mapped,traced⟩
      · exact Or.inr (Or.inl failed)
      · exact Or.inr (Or.inr ⟨e,ran,Or.inl refused⟩)
  | false =>
    obtain ⟨regions,view,staged,starts,sources,viewed⟩ := stage_unplug env lawful addresses
      t.cell.world.view t (book.present distinct plugged)
    have ready : Ready Region.start false regions (table t.mapper) := by
      refine ⟨starts ▸ distinct,?_⟩
      intro r member
      have listed : r.start ∈ addresses := starts ▸ List.mem_map_of_mem member
      rw [book.entry (blocks _ listed),sources r member]
      rfl
    have lengths : ∀ r ∈ regions, r.len = t.cell.device.blockSize :=
      fun r member => (book.keyed _ r (sources r member)).2.1
    obtain ⟨mapper,trace,outcome⟩ := change_staged atomic t.cell.world.host
      t.cell.world.allocations staged ready
    refine ⟨t.cell.world.host,t.cell.world.allocations,mapper,trace,?_⟩
    rcases outcome with ⟨ran,mapped,traced⟩ | failed | ⟨e,ran,refused⟩
    · exact Or.inl ⟨regions,view,ran,starts,ready,lengths,viewed,mapped,traced⟩
    · exact Or.inr (Or.inl failed)
    · exact Or.inr (Or.inr ⟨e,ran,Or.inl refused⟩)

inductive Outcome (env : Env) (table : M → Nat → Option Region) (t : Txn M) (r : Request)
    (pinned : List (Nat × Nat)) : Except (Failure MemoryError) (Nat × Nat) × Txn M → Prop
  | answered (answer : Nat × Nat)
      (decided : verdict t.cell.device t.cell.world.control.requestedSizeMib pinned r = .inl answer) :
      Outcome env table t r pinned (.ok answer,t)
  | acknowledged (addresses : List Nat) (host : Host) (allocations : Nat) (mapper : M)
      (trace : List Action) (regions : List Region) (view : GuestMemoryMmap)
      (decided : verdict t.cell.device t.cell.world.control.requestedSizeMib pinned r = .inr addresses)
      (carried : Carried table (r.kind == 0) addresses t mapper trace regions view) :
      Outcome env table t r pinned (.ok (0,0),settled (committed
        ((t.withMemory host allocations).withMapper mapper trace) view
        (commit (r.kind == 0) addresses regions t.cell.device.blocks)))
  | rolledBack (host : Host) (allocations : Nat) (mapper : M) (trace : List Action)
      (same : table mapper = table t.mapper) (refused : Refused table) :
      Outcome env table t r pinned (.ok (2,0),(t.withMemory host allocations).withMapper mapper trace)
  | failed (e : MemoryError) (host : Host) (allocations : Nat) (mapper : M) (trace : List Action)
      (cause : Refused table ∨ Exhausted env) :
      Outcome env table t r pinned
        (.error (.error e),(t.withMemory host allocations).withMapper mapper trace)

theorem request_outcome (lawful : env.vm.Lawful) (atomic : Mapper.Atomic table)
    (book : Book table base fixed t) (req : List UInt8) (pinned : List (Nat × Nat)) :
    Outcome env table t (Request.decode req) pinned ((request env req pinned).run t) := by
  rw [request_run]
  cases decided : verdict t.cell.device t.cell.world.control.requestedSizeMib pinned
      (Request.decode req) with
  | inl answer => exact .answered answer decided
  | inr addresses =>
    have admitted := verdict_admits decided
    obtain ⟨host,allocations,mapper,trace,outcome⟩ := change_outcome lawful atomic book
      (admitted.distinct book.shape) (admitted.blocks book.shape book.keyed) admitted.plugged
    rcases outcome with ⟨regions,view,ran,carried⟩ | ⟨ran,same,refused⟩ | ⟨e,ran,cause⟩
    · simp only [ran]
      exact .acknowledged addresses host allocations mapper trace regions view decided carried
    · simp only [ran]
      exact .rolledBack host allocations mapper trace same refused
    · simp only [ran]
      exact .failed e host allocations mapper trace cause

theorem request_book (lawful : env.vm.Lawful) (atomic : Mapper.Atomic table)
    (book : Book table base fixed t) (req : List UInt8) (pinned : List (Nat × Nat))
    (answer : Nat × Nat) (u : Txn M) (ran : (request env req pinned).run t = (.ok answer,u)) :
    Book table base fixed u := by
  have outcome := request_outcome lawful atomic book req pinned
  rw [ran] at outcome
  cases outcome with
  | answered => exact book
  | acknowledged addresses host allocations mapper trace regions view decided carried =>
    exact carried.book book ((verdict_admits decided).blocks book.shape book.keyed) host allocations
  | rolledBack host allocations mapper trace same =>
    exact {
      shape := book.shape
      keyed := book.keyed
      viewed := book.viewed
      mapped := fun a => (congrFun same a).trans (book.mapped a)
      beside := book.beside
      unclaimed := book.unclaimed
      plugged := book.plugged
      reported := book.reported
      blockUnit := book.blockUnit
      regionUnit := book.regionUnit
      multiple := book.multiple
      within := book.within }

end Transaction
end VirtioMem
end WVmm.Devices
