import WVmm.Devices.MemoryRuns

/-! virtio-mem requests as operations on the set of plugged blocks. The machine
here counts blocks and computes over unbounded naturals; the device answers and
moves exactly as it does. -/
namespace WVmm.Devices
open Lib.Effect Lib.Table

namespace PluggedSet

structure Layout where
  start : Nat
  size : Nat
  blocks : Nat

def Layout.block (g : Layout) (i : Nat) : Nat := g.start + i * g.size

def Intersects (size a : Nat) (pin : Nat × Nat) : Prop :=
  ∃ x, (a ≤ x ∧ x < a + size) ∧ pin.1 ≤ x ∧ x < pin.1 + pin.2

/-- The pin ends after the block begins and begins before the block ends. An
empty pin inside a block meets it without intersecting it. -/
def Meets (size a : Nat) (pin : Nat × Nat) : Prop := pin.1 < a + size ∧ a < pin.1 + pin.2

def Malformed (g : Layout) (r : VirtioMem.Request) : Prop :=
  r.count = 0 ∨ ¬g.size ∣ r.addr ∨ r.addr < g.start ∨
    g.start + g.blocks * g.size < r.addr + r.count * g.size

def named (g : Layout) (r : VirtioMem.Request) : Finset Nat :=
  Finset.Ico ((r.addr - g.start) / g.size) ((r.addr - g.start) / g.size + r.count)

open Classical in
/-- One request: the answer with the state of a STATE request, and the plugged
set after it. `touches` says when a pin keeps the block at an address. -/
noncomputable def step (g : Layout) (touches : Nat → Nat × Nat → Prop) (target : Nat)
    (pins : List (Nat × Nat)) (r : VirtioMem.Request) (plugged : Finset Nat) :
    (Nat × Nat) × Finset Nat :=
  let held (blocks : Finset Nat) := ∃ i ∈ blocks, ∃ pin ∈ pins, touches (g.block i) pin
  if r.kind > 3 then ((3,0),plugged)
  else if r.kind = 2 then if held plugged then ((2,0),plugged) else ((0,0),∅)
  else if Malformed g r then ((3,0),plugged)
  else if r.kind = 3 then
    ((0,if Disjoint (named g r) plugged then 1 else if named g r ⊆ plugged then 0 else 2),plugged)
  else if r.kind = 0 then
    if ¬Disjoint (named g r) plugged then ((3,0),plugged)
    else if r.count + plugged.card > target then ((1,0),plugged)
    else ((0,0),plugged ∪ named g r)
  else if ¬named g r ⊆ plugged then ((3,0),plugged)
  else if held (named g r) then ((2,0),plugged)
  else ((0,0),plugged \ named g r)

end PluggedSet

namespace VirtioMem
open PluggedSet

def layout (d : VirtioMem) : Layout := ⟨d.start,d.blockSize,d.capacity / d.blockSize⟩

def pluggedSet (d : VirtioMem) : Finset Nat :=
  (Finset.range (d.capacity / d.blockSize)).filter (fun i => d.isPlugged (d.layout.block i))

section Sets
variable {d : VirtioMem} (shape : d.Shape) (keyed : d.Keyed)
include shape

theorem block_injective {i j : Nat} (same : d.layout.block i = d.layout.block j) : i = j :=
  Nat.eq_of_mul_eq_mul_right shape.positive (Nat.add_left_cancel same)

theorem whole_region : d.layout.blocks * d.layout.size = d.capacity := Nat.div_mul_cancel shape.whole

theorem block_index {a : Nat} (block : d.IsBlock a) : d.layout.block (d.index a) = a := by
  have exact := Nat.div_mul_cancel (Nat.dvd_sub block.1 shape.aligned)
  have := block.2.1
  simp only [Layout.block,layout,index,exact]
  omega

include keyed

theorem mem_pluggedSet (i : Nat) : i ∈ d.pluggedSet ↔ d.isPlugged (d.layout.block i) = true := by
  rw [pluggedSet,Finset.mem_filter,Finset.mem_range]
  refine ⟨And.right,fun plugged => ⟨?_,plugged⟩⟩
  obtain ⟨r,found⟩ := (isPlugged_iff _ _).mp plugged
  have block := (keyed _ r found).2.2
  have bounded := index_bounded shape block
  have same : d.index (d.layout.block i) = i := block_injective shape (block_index shape block)
  omega

theorem addresses_toFinset : d.addresses.toFinset = d.pluggedSet.image d.layout.block := by
  ext a
  rw [List.mem_toFinset,mem_addresses,Finset.mem_image]
  constructor
  · intro plugged
    obtain ⟨r,found⟩ := (isPlugged_iff _ _).mp plugged
    have place := block_index shape (keyed _ r found).2.2
    exact ⟨d.index a,(mem_pluggedSet shape keyed _).mpr (by rw [place]; exact plugged),place⟩
  · rintro ⟨i,member,rfl⟩
    exact (mem_pluggedSet shape keyed i).mp member

theorem card_pluggedSet : d.pluggedSet.card = d.count := by
  have injective : Set.InjOn d.layout.block d.pluggedSet := fun i _ j _ same => block_injective shape same
  rw [← Finset.card_image_of_injOn injective,← addresses_toFinset shape keyed,
    List.toFinset_card_of_nodup d.addresses_nodup,addresses,Std.TreeMap.length_keys,count]

end Sets

section Requests
variable {d : VirtioMem} (shape : d.Shape) {r : Request}
include shape

/-- The checked 64-bit arithmetic refuses exactly the malformed ranges. -/
theorem addresses_eq_none (kind : r.kind ≠ 2) : r.addresses d = none ↔ Malformed d.layout r := by
  have bounded := shape.bounded
  have whole := whole_region shape
  constructor
  · intro refused
    by_contra wellFormed
    simp only [Malformed,not_or,not_not,not_lt,whole] at wellFormed
    obtain ⟨count,aligned,low,high⟩ := wellFormed
    have stop : (checkedMul r.count d.blockSize).bind (fun len => checkedAdd r.addr len) =
        some (r.addr + d.blockSize * r.count) := by
      have commuted := Nat.mul_comm r.count d.blockSize
      simp only [layout] at high
      rw [checkedMul_eq_some.mpr ⟨by omega,rfl⟩,Option.bind_some]
      exact checkedAdd_eq_some.mpr ⟨by omega,rfl⟩
    simp only [Request.addresses,if_neg kind,stop,wrappingAdd,Nat.mod_eq_of_lt bounded] at refused
    split at refused
    · rename_i wrong
      have commuted := Nat.mul_comm r.count d.blockSize
      have := Nat.mod_eq_zero_of_dvd aligned
      simp only [layout] at *
      omega
    · cases refused
  · intro malformed
    cases accepted : r.addresses d with
    | none => rfl
    | some listed =>
      obtain ⟨count,aligned,low,high,_⟩ := Request.addresses_range shape kind accepted
      simp only [Malformed,whole] at malformed
      simp only [layout] at malformed
      rcases malformed with none | unaligned | before | beyond
      · omega
      · exact absurd aligned unaligned
      · omega
      · omega

/-- The listed addresses are those of the named blocks. -/
theorem listed_blocks (kind : r.kind ≠ 2) {listed : List Nat} (accepted : r.addresses d = some listed)
    (p : Nat → Prop) : (∀ a ∈ listed, p a) ↔ ∀ i ∈ named d.layout r, p (d.layout.block i) := by
  obtain ⟨_,aligned,low,_,rfl⟩ := Request.addresses_range shape kind accepted
  have origin : d.layout.block ((r.addr - d.start) / d.blockSize) = r.addr := by
    have exact := Nat.div_mul_cancel (Nat.dvd_sub aligned shape.aligned)
    simp only [Layout.block,layout,exact]
    omega
  have shifted : ∀ n, d.layout.block ((r.addr - d.start) / d.blockSize + n) = r.addr + n * d.blockSize := by
    intro n
    simp only [Layout.block,layout,Nat.add_mul] at origin ⊢
    omega
  constructor
  · intro all i member
    obtain ⟨first,last⟩ := Finset.mem_Ico.mp member
    obtain ⟨n,rfl⟩ := Nat.exists_eq_add_of_le first
    rw [show d.layout.start = d.start from rfl,show d.layout.size = d.blockSize from rfl,shifted]
    refine all _ (List.mem_map.mpr ⟨n,List.mem_range.mpr ?_,rfl⟩)
    simpa using last
  · intro all a member
    obtain ⟨n,inside,rfl⟩ := List.mem_map.mp member
    rw [← shifted]
    refine all _ (Finset.mem_Ico.mpr ⟨Nat.le_add_right _ _,?_⟩)
    exact Nat.add_lt_add_left (List.mem_range.mp inside) _

/-- The saturating ends of a block and a pin compare as the real ones. -/
theorem meets_iff {a : Nat} (block : d.IsBlock a) (pin : Nat × Nat) :
    d.meets a pin = true ↔ Meets d.blockSize a pin := by
  have bounded := shape.bounded
  have positive := shape.positive
  obtain ⟨_,_,high⟩ := block
  rw [meets,wrappingAdd,saturatingAdd,Nat.mod_eq_of_lt (by omega),Bool.and_eq_true,decide_eq_true_iff,
    decide_eq_true_iff,Meets]
  omega

theorem named_disjoint (keyed : d.Keyed) (kind : r.kind ≠ 2) {listed : List Nat}
    (accepted : r.addresses d = some listed) :
    (listed.filter d.isPlugged).length = 0 ↔ Disjoint (named d.layout r) d.pluggedSet := by
  rw [List.length_eq_zero_iff,List.filter_eq_nil_iff,
    listed_blocks shape kind accepted (fun a => ¬d.isPlugged a = true),Finset.disjoint_left]
  simp only [mem_pluggedSet shape keyed]

theorem named_subset (keyed : d.Keyed) (kind : r.kind ≠ 2) {listed : List Nat}
    (accepted : r.addresses d = some listed) :
    (listed.filter d.isPlugged).length = listed.length ↔ named d.layout r ⊆ d.pluggedSet := by
  rw [List.length_filter_eq_length_iff,
    listed_blocks shape kind accepted (fun a => d.isPlugged a = true),Finset.subset_iff]
  simp only [mem_pluggedSet shape keyed]

theorem pinned_iff (pinned : List (Nat × Nat)) {listed : List Nat}
    (blocks : ∀ a ∈ listed, d.IsBlock a) :
    listed.any (fun a => pinned.any (d.meets a)) = true ↔
      ∃ a ∈ listed, ∃ pin ∈ pinned, Meets d.blockSize a pin := by
  simp only [List.any_eq_true]
  constructor
  · rintro ⟨a,member,pin,held,met⟩
    exact ⟨a,member,pin,held,(meets_iff shape (blocks a member) pin).mp met⟩
  · rintro ⟨a,member,pin,held,met⟩
    exact ⟨a,member,pin,held,(meets_iff shape (blocks a member) pin).mpr met⟩

def changed (d : VirtioMem) (r : Request) : Finset Nat :=
  if r.kind = 0 then d.pluggedSet ∪ named d.layout r
  else if r.kind = 1 then d.pluggedSet \ named d.layout r
  else ∅

/-- The verdict of the device is the answer of the machine. -/
theorem verdict_step (keyed : d.Keyed) (requestedSizeMib : Nat) (pinned : List (Nat × Nat)) :
    step d.layout (Meets d.blockSize) (requestedSizeMib / (d.blockSize / MIB)) pinned r d.pluggedSet =
      match verdict d requestedSizeMib pinned r with
      | .inl answer => (answer,d.pluggedSet)
      | .inr _ => ((0,0),d.changed r) := by
  unfold step verdict
  by_cases unknown : r.kind > 3
  · simp only [if_pos unknown]
  simp only [if_neg unknown]
  by_cases all : r.kind = 2
  · -- UNPLUG_ALL: the listed blocks are the plugged ones.
    have plugged : ∀ a ∈ d.addresses, d.IsBlock a := by
      intro a member
      obtain ⟨region,found⟩ := (isPlugged_iff d a).mp ((mem_addresses d a).mp member)
      exact (keyed a region found).2.2
    have held : d.addresses.any (fun a => pinned.any (d.meets a)) = true ↔
        ∃ i ∈ d.pluggedSet, ∃ pin ∈ pinned, Meets d.blockSize (d.layout.block i) pin := by
      rw [pinned_iff shape pinned plugged]
      simp only [← List.mem_toFinset,addresses_toFinset shape keyed,Finset.exists_mem_image]
    simp only [if_pos all,Request.addresses]
    have other : ¬r.kind = 3 ∧ ¬r.kind = 0 ∧ ¬r.kind = 1 := by omega
    simp only [other.1,other.2.1,other.2.2,false_and,or_self,if_false]
    split
    · rename_i pins
      rw [if_pos ⟨other.2.1,held.mpr pins⟩]
    · rename_i free
      rw [if_neg (fun both => free (held.mp both.2))]
      simp only [changed,other.2.1,other.2.2,if_false]
  simp only [if_neg all]
  cases accepted : r.addresses d with
  | none => simp only [if_pos ((addresses_eq_none shape all).mp accepted)]
  | some listed =>
    have wellFormed : ¬Malformed d.layout r := by
      rw [← addresses_eq_none shape all,accepted]
      simp
    obtain ⟨count,aligned,low,high,same⟩ := Request.addresses_range shape all accepted
    have blocks : ∀ a ∈ listed, d.IsBlock a := same ▸ Request.range_blocks aligned low high
    have disjoint := named_disjoint shape keyed all accepted
    have subset := named_subset shape keyed all accepted
    have held : listed.any (fun a => pinned.any (d.meets a)) = true ↔
        ∃ i ∈ named d.layout r, ∃ pin ∈ pinned, Meets d.blockSize (d.layout.block i) pin := by
      rw [pinned_iff shape pinned blocks]
      have := listed_blocks shape all accepted (fun a => ¬∃ pin ∈ pinned, Meets d.blockSize a pin)
      constructor
      · rintro ⟨a,member,met⟩
        by_contra none
        push Not at none
        refine this.mpr (fun i inside met' => ?_) a member met
        obtain ⟨pin,held,meets⟩ := met'
        exact none i inside pin held meets
      · rintro ⟨i,inside,met⟩
        by_contra none
        push Not at none
        refine this.mp (fun a member met' => ?_) i inside met
        obtain ⟨pin,held,meets⟩ := met'
        exact none a member pin held meets
    simp only [if_neg wellFormed,disjoint,subset]
    by_cases state : r.kind = 3
    · simp only [if_pos state]
    simp only [if_neg state]
    by_cases plug : r.kind = 0
    · -- PLUG: the target comes before any allocation.
      have target : r.count > requestedSizeMib / (d.blockSize / MIB) - d.count ↔
          r.count + d.pluggedSet.card > requestedSizeMib / (d.blockSize / MIB) := by
        rw [card_pluggedSet shape keyed]
        omega
      have other : ¬r.kind = 1 := by omega
      simp only [plug,true_and,target,ne_eq,not_true_eq_false,false_and,if_false,if_true,
        zero_ne_one,or_false,disjoint]
      split
      · rfl
      · split
        · rfl
        · simp only [changed,plug,if_true]
    · -- UNPLUG: every block must be plugged and free of pins.
      have unplug : r.kind = 1 := by omega
      simp only [unplug,one_ne_zero,false_and,true_and,false_or,if_false,ne_eq,subset]
      split
      · rfl
      · split
        · rename_i pins
          rw [if_pos ⟨not_false,held.mpr pins⟩]
        · rename_i free
          rw [if_neg (fun both => free (held.mp both.2))]
          simp only [changed,unplug,one_ne_zero,if_false,if_true]

theorem mem_listed (kind : r.kind ≠ 2) {listed : List Nat} (accepted : r.addresses d = some listed)
    (i : Nat) : d.layout.block i ∈ listed ↔ i ∈ named d.layout r := by
  have blocks := listed_blocks shape kind accepted (fun a => a ≠ d.layout.block i)
  constructor
  · intro member
    by_contra outside
    exact blocks.mpr (fun j inside same => outside (block_injective shape same ▸ inside)) _ member rfl
  · intro member
    by_contra outside
    exact blocks.mp (fun a inside same => outside (same ▸ inside)) i member rfl

end Requests

section Refinement
variable {M : Type} {table : M → Nat → Option Region} {base : List Region}
  {fixed : Nat → Option Region} {t : Txn M} {addresses : List Nat} {plug : Bool} {mapper : M}
  {trace : List Action} {regions : List Region} {view : GuestMemoryMmap}

/-- Which blocks are plugged after a change. -/
theorem Carried.isPlugged_iff (carried : Carried table plug addresses t mapper trace regions view)
    (a : Nat) :
    (commit plug addresses regions t.cell.device.blocks).contains a = true ↔
      if plug then a ∈ addresses ∨ t.cell.device.isPlugged a = true
      else t.cell.device.isPlugged a = true ∧ a ∉ addresses := by
  rw [Std.TreeMap.contains_eq_isSome_getElem?,carried.lookup,← carried.starts,
    isPlugged,Std.TreeMap.contains_eq_isSome_getElem?]
  by_cases member : a ∈ regions.map Region.start
  · obtain ⟨r,inside,rfl⟩ := List.mem_map.mp member
    rw [overlay_inside plug regions _ carried.ready.distinct r inside]
    cases plug <;> simp [member]
  · rw [overlay_outside plug regions _ a member]
    cases plug <;> simp [member]

theorem Carried.pluggedSet_eq {r : Request} {requestedSizeMib : Nat} {pinned : List (Nat × Nat)}
    {u : VirtioMem} (book : Book table base fixed t)
    (admitted : Admitted t.cell.device requestedSizeMib pinned r addresses)
    (carried : Carried table (r.kind == 0) addresses t mapper trace regions view)
    (shape : u.Shape) (keyed : u.Keyed) (same : u.layout = t.cell.device.layout)
    (blocks : u.blocks = commit (r.kind == 0) addresses regions t.cell.device.blocks) :
    u.pluggedSet = t.cell.device.changed r := by
  ext i
  have known := admitted.kind
  rw [mem_pluggedSet shape keyed,isPlugged,blocks,carried.isPlugged_iff,same,changed]
  by_cases plugging : r.kind = 0
  · simp only [plugging,beq_self_eq_true,if_true,Finset.mem_union,
      mem_listed book.shape (by omega) admitted.listed,mem_pluggedSet book.shape book.keyed]
    tauto
  · simp only [beq_eq_false_iff_ne.mpr plugging,if_neg plugging,Bool.false_eq_true,if_false]
    by_cases one : r.kind = 1
    · simp only [if_pos one,Finset.mem_sdiff,mem_listed book.shape (by omega) admitted.listed,
        mem_pluggedSet book.shape book.keyed]
    · have all : r.kind = 2 := by omega
      have listed := admitted.listed
      simp only [Request.addresses,if_pos all,Option.some.injEq] at listed
      simp [if_neg one,← listed,mem_addresses]

variable [Mapper M] {env : Env}

/-- A device whose mapper and allocator do not fail answers every request as the
machine does and moves to the set the machine moves to. -/
theorem request_refines (lawful : env.vm.Lawful) (atomic : Mapper.Atomic table)
    (reliable : Mapper.Reliable table) (allocates : ¬Exhausted env) (book : Book table base fixed t)
    (req : List UInt8) (pinned : List (Nat × Nat)) :
    let machine := step t.cell.device.layout (Meets t.cell.device.blockSize)
      (t.cell.world.control.requestedSizeMib / t.cell.world.control.blockSizeMib) pinned
      (Request.decode req) t.cell.device.pluggedSet
    ∃ u, (request env req pinned).run t = (.ok machine.1,u) ∧
      u.cell.device.layout = t.cell.device.layout ∧ u.cell.device.pluggedSet = machine.2 ∧
      Book table base fixed u ∧ (machine.1.1 ≠ 0 ∨ (Request.decode req).kind = 3 → u = t) := by
  have unit : t.cell.device.blockSize / MIB = t.cell.world.control.blockSizeMib := by
    rw [← book.blockUnit]
    exact Nat.mul_div_cancel_left _ (by decide)
  have decided := verdict_step book.shape book.keyed t.cell.world.control.requestedSizeMib pinned
    (r := Request.decode req)
  rw [unit] at decided
  rw [decided]
  have outcome := request_outcome lawful atomic book req pinned
  rcases ran : (request env req pinned).run t with ⟨result,u⟩
  rw [ran] at outcome
  have never : ¬(Refused table ∨ Exhausted env) := by
    rintro (refused | exhausted)
    · exact reliable_never_refuses reliable refused
    · exact allocates exhausted
  cases outcome with
  | answered answer chosen =>
    rw [chosen]
    exact ⟨t,rfl,rfl,rfl,book,fun _ => rfl⟩
  | acknowledged _ host allocations _ _ _ _ chosen carried =>
    rw [chosen]
    have admitted := verdict_admits chosen
    have after := carried.book book (admitted.blocks book.shape book.keyed) host allocations
    refine ⟨_,rfl,rfl,carried.pluggedSet_eq book admitted after.shape after.keyed rfl rfl,after,?_⟩
    rintro (refused | state)
    · exact absurd rfl refused
    · have := admitted.kind
      omega
  | rolledBack _ _ _ _ _ refused => exact absurd (Or.inl refused) never
  | failed _ _ _ _ _ cause => exact absurd cause never

end Refinement


theorem env_allocates : ¬Exhausted Reference.env := by
  rintro ⟨_,_,_,_,_,failed⟩
  cases failed

/-- PLUG of two blocks of the sample device, as the machine sees it. -/
theorem plugTwo_refines :
    ∃ u, plugTwo (sample (fun _ => false)) =
        (.ok (step sampleCell.device.layout (Meets (2^21)) 4 [] (Request.decode (encode 0 (2^30) 2))
          sampleCell.device.pluggedSet).1,u) ∧
      u.cell.device.pluggedSet = (step sampleCell.device.layout (Meets (2^21)) 4 []
        (Request.decode (encode 0 (2^30) 2)) sampleCell.device.pluggedSet).2 := by
  obtain ⟨u,ran,_,set,_⟩ := request_refines Reference.vmMemory_lawful Reference.TableMapper.atomic
    Reference.TableMapper.reliable env_allocates (sample_attached (fun _ => false)).book
    (encode 0 (2^30) 2) []
  exact ⟨u,ran,set⟩

def pluggedSample : Txn (Reference.TableMapper (fun _ => false)) := (plugTwo (sample (fun _ => false))).2

/-- An empty pin inside a plugged block: no byte of the block is pinned, and the
device still answers BUSY. -/
theorem empty_pin_keeps_block :
    ((request Reference.env (encode 1 (2^30) 1) [(2^30 + 1,0)]).run pluggedSample).1 = .ok (2,0) ∧
      (step pluggedSample.cell.device.layout (Intersects pluggedSample.cell.device.blockSize) 4
        [(2^30 + 1,0)] (Request.decode (encode 1 (2^30) 1)) pluggedSample.cell.device.pluggedSet).1 =
        (0,0) := by
  refine ⟨rfl,?_⟩
  have decoded : Request.decode (encode 1 (2^30) 1) = ⟨1,2^30,1⟩ := by decide
  have layout : pluggedSample.cell.device.layout = ⟨2^30,2^21,64⟩ := rfl
  have blocks : named ⟨2^30,2^21,64⟩ ⟨1,2^30,1⟩ = {0} := by decide
  have plugged : 0 ∈ pluggedSample.cell.device.pluggedSet := by decide
  have free : ¬∃ i ∈ named ⟨2^30,2^21,64⟩ ⟨1,2^30,1⟩, ∃ pin ∈ [(2^30 + 1,0)],
      Intersects pluggedSample.cell.device.blockSize (Layout.block ⟨2^30,2^21,64⟩ i) pin := by
    rintro ⟨_,_,_,listed,x,_,low,high⟩
    rw [List.mem_singleton.mp listed] at low high
    omega
  have formed : ¬Malformed ⟨2^30,2^21,64⟩ ⟨1,2^30,1⟩ := by
    simp only [Malformed]
    decide
  rw [decoded,layout]
  simp only [step,blocks,Finset.singleton_subset_iff,plugged,not_true_eq_false,if_false]
  rw [if_neg (by decide),if_neg (by decide),if_neg formed,if_neg (by decide),if_neg (by decide),
    if_neg free]

end VirtioMem
end WVmm.Devices
