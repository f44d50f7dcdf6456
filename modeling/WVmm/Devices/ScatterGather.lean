import WVmm.Devices.BlockRequests
import WVmm.Devices.Registers
import WVmm.Storage.Transfer

/-! The laws of the scatter-gather helpers. A range of some slices covers its bytes in
place, copies take and store bytes in order, and the sorted overlap test finds out
whether any two slices share a byte. -/
namespace WVmm.Devices.Buffers
open Lib.Effect Lib.Stores

variable {env : Env} {slices : List VolatileSlice}

/-- Two slices at different places of the list share a byte. -/
def Shares (slices : List VolatileSlice) : Prop :=
  ∃ (i j : Nat) (s t : VolatileSlice) (p : Nat), i ≠ j ∧ slices[i]? = some s ∧ slices[j]? = some t ∧ p ∈ s.bytes ∧ p ∈ t.bytes

/-- A relation between some two places of a list, where it does not matter which is first. -/
theorem exists_places {α : Type} {xs : List α} {R : α → α → Prop} (symmetric : ∀ a b, R a b → R b a) :
    (∃ (i j : Nat) (a b : α), i ≠ j ∧ xs[i]? = some a ∧ xs[j]? = some b ∧ R a b) ↔ ¬xs.Pairwise (fun a b => ¬R a b) := by
  rw [List.pairwise_iff_getElem]
  push Not
  constructor
  · rintro ⟨i,j,a,b,apart,first,second,related⟩
    obtain ⟨inside,rfl⟩ := List.getElem?_eq_some_iff.mp first
    obtain ⟨inside',rfl⟩ := List.getElem?_eq_some_iff.mp second
    rcases Nat.lt_or_gt_of_ne apart with less | more
    · exact ⟨i,j,inside,inside',less,related⟩
    · exact ⟨j,i,inside',inside,more,symmetric _ _ related⟩
  · rintro ⟨i,j,inside,inside',less,related⟩
    exact ⟨i,j,_,_,Nat.ne_of_lt less,List.getElem?_eq_getElem inside,List.getElem?_eq_getElem inside',related⟩

theorem shares_iff : Shares slices ↔ ¬slices.Pairwise (fun s t => s.bytes.Disjoint t.bytes) := by
  have places := @exists_places _ slices (fun s t => ∃ p, p ∈ s.bytes ∧ p ∈ t.bytes)
    (fun s t shared => shared.imp fun p both => both.symm)
  have apart : (fun s t : VolatileSlice => ¬∃ p, p ∈ s.bytes ∧ p ∈ t.bytes) = fun s t => s.bytes.Disjoint t.bytes := by
    funext s t
    simp only [not_exists,not_and,List.Disjoint,imp_false]
  rw [apart] at places
  rw [← places]
  constructor
  · rintro ⟨i,j,s,t,p,distinct,first,second,left,right⟩
    exact ⟨i,j,s,t,distinct,first,second,p,left,right⟩
  · rintro ⟨i,j,s,t,distinct,first,second,p,left,right⟩
    exact ⟨i,j,s,t,p,distinct,first,second,left,right⟩

/-- Filled slices share no byte exactly where their ranges lie apart. -/
theorem disjoint_iff {s t : VolatileSlice} (filled : s.len ≠ 0) (filled' : t.len ≠ 0) :
    s.bytes.Disjoint t.bytes ↔ s.ptr + s.len ≤ t.ptr ∨ t.ptr + t.len ≤ s.ptr := by
  simp only [List.Disjoint,VolatileSlice.bytes,List.mem_range'_1]
  constructor
  · intro disjoint
    by_contra close
    exact disjoint (a := max s.ptr t.ptr) (by omega) (by omega)
  · intro apart p left right
    omega

def before (a b : Nat × Nat) : Bool := decide (a.1 < b.1 ∨ (a.1 = b.1 ∧ a.2 ≤ b.2))

theorem before_total (a b : Nat × Nat) : (before a b || before b a) = true := by
  simp only [before,Bool.or_eq_true,decide_eq_true_eq]
  omega

theorem before_trans (a b c : Nat × Nat) (first : before a b = true) (second : before b c = true) :
    before a c = true := by
  simp only [before,decide_eq_true_eq] at *
  omega

theorem before_antisymm (a b : Nat × Nat) (first : before a b = true) (second : before b a = true) : a = b := by
  simp only [before,decide_eq_true_eq] at first second
  exact Prod.ext (by omega) (by omega)

def sorted (slices : List VolatileSlice) : List (Nat × Nat) :=
  (slices.map (fun s => (s.ptr,s.ptr + s.len))).mergeSort before

theorem overlaps_eq (slices : List VolatileSlice) :
    overlaps slices = ((sorted slices).zip (sorted slices).tail).any (fun w => decide (w.2.1 < w.1.2)) := rfl

theorem sorted_ordered (slices : List VolatileSlice) : (sorted slices).Pairwise (fun a b => before a b = true) :=
  List.pairwise_mergeSort before_trans before_total _

theorem overlaps_perm {other : List VolatileSlice} (perm : slices.Perm other) : overlaps other = overlaps slices := by
  have same : (sorted other).Perm (sorted slices) :=
    ((List.mergeSort_perm _ _).trans (perm.symm.map _)).trans (List.mergeSort_perm _ _).symm
  rw [overlaps_eq,overlaps_eq,same.eq_of_pairwise (fun a b _ _ => before_antisymm a b) (sorted_ordered other)
    (sorted_ordered slices)]

/-- Slices that share no byte pass the test if they are filled. -/
theorem overlaps_complete (filled : ∀ s ∈ slices, s.len ≠ 0)
    (apart : slices.Pairwise (fun s t => s.bytes.Disjoint t.bytes)) : overlaps slices = false := by
  rw [overlaps_eq]
  have perm : (sorted slices).Perm (slices.map (fun s => (s.ptr,s.ptr + s.len))) := List.mergeSort_perm _ _
  refine Lib.Ranges.apart_neighbours ?_ ((sorted_ordered slices).imp ?_) ?_
  · intro r member
    obtain ⟨s,inside,rfl⟩ := List.mem_map.mp (perm.mem_iff.mp member)
    exact Nat.lt_add_of_pos_right (Nat.pos_of_ne_zero (filled s inside))
  · intro a b first
    simp only [before,decide_eq_true_eq] at first
    omega
  · have beside : (slices.map (fun s => (s.ptr,s.ptr + s.len))).Pairwise (fun a b => a.2 ≤ b.1 ∨ b.2 ≤ a.1) := by
      refine List.pairwise_map.mpr (apart.imp_of_mem ?_)
      intro s t first second disjoint
      exact (disjoint_iff (filled s first) (filled t second)).mp disjoint
    exact perm.symm.pairwise beside (fun side => side.symm)

/-- On filled slices that do not wrap, the test of storage requests is for a shared byte. -/
theorem storage_overlaps_iff {s t : VolatileSlice} (filled : s.len ≠ 0) (filled' : t.len ≠ 0)
    (inside : s.ptr + s.len < 2^64) (inside' : t.ptr + t.len < 2^64) :
    Storage.overlaps s t = true ↔ ∃ p, p ∈ s.bytes ∧ p ∈ t.bytes := by
  have shared : (∃ p, p ∈ s.bytes ∧ p ∈ t.bytes) ↔ ¬s.bytes.Disjoint t.bytes := by
    simp only [List.Disjoint,not_forall,exists_prop,imp_false,not_not]
  rw [shared,disjoint_iff filled filled']
  simp only [Storage.overlaps,Bool.and_eq_true,decide_eq_true_eq]
  unfold saturatingAdd
  omega

/-- The sorted overlap test is sound and complete. Slices that pass it share no byte,
empty ones or not; filled slices fail it exactly if some two of them share a byte,
which is when some pair fails the pairwise test of storage requests. The order of the
slices does not matter. -/
theorem overlaps_exact (inside : ∀ s ∈ slices, s.ptr + s.len < 2^64) :
    (overlaps slices = false → ¬Shares slices) ∧
    (∀ other, slices.Perm other → overlaps other = overlaps slices) ∧
    ((∀ s ∈ slices, s.len ≠ 0) → (overlaps slices = true ↔ Shares slices) ∧
      (overlaps slices = true ↔
        ∃ (i j : Nat) (s t : VolatileSlice), i ≠ j ∧ slices[i]? = some s ∧ slices[j]? = some t ∧
          Storage.overlaps s t = true)) := by
  have sound : overlaps slices = false → ¬Shares slices := by
    intro clear shared
    refine shares_iff.mp shared ?_
    exact (List.nodup_flatMap.mp (overlaps_sound clear)).2
  refine ⟨sound,fun _ => overlaps_perm,fun filled => ?_⟩
  have exact : overlaps slices = true ↔ Shares slices := by
    constructor
    · intro overlapping
      refine shares_iff.mpr (fun apart => ?_)
      rw [overlaps_complete filled apart] at overlapping
      cases overlapping
    · intro shared
      by_contra clear
      exact sound (Bool.eq_false_iff.mpr clear) shared
  refine ⟨exact,exact.trans ⟨?_,?_⟩⟩
  · rintro ⟨i,j,s,t,p,distinct,first,second,left,right⟩
    have here := List.mem_of_getElem? first
    have there := List.mem_of_getElem? second
    exact ⟨i,j,s,t,distinct,first,second,(storage_overlaps_iff (filled s here) (filled t there) (inside s here)
      (inside t there)).mpr ⟨p,left,right⟩⟩
  · rintro ⟨i,j,s,t,distinct,first,second,overlap⟩
    have here := List.mem_of_getElem? first
    have there := List.mem_of_getElem? second
    obtain ⟨p,left,right⟩ := (storage_overlaps_iff (filled s here) (filled t there) (inside s here)
      (inside t there)).mp overlap
    exact ⟨i,j,s,t,p,distinct,first,second,left,right⟩

/-- A slice inside of another is found. -/
theorem overlaps_exact_nested :
    overlaps [⟨8,4⟩,⟨40,1⟩,⟨0,32⟩] = true ∧ overlaps [⟨0,32⟩,⟨40,1⟩,⟨8,4⟩] = true := by
  have inside : ∀ s ∈ [(⟨8,4⟩ : VolatileSlice),⟨40,1⟩,⟨0,32⟩], s.ptr + s.len < 2^64 := by decide
  have filled : ∀ s ∈ [(⟨8,4⟩ : VolatileSlice),⟨40,1⟩,⟨0,32⟩], s.len ≠ 0 := by decide
  obtain ⟨_,perm,exact⟩ := overlaps_exact inside
  have found : overlaps [⟨8,4⟩,⟨40,1⟩,⟨0,32⟩] = true :=
    (exact filled).1.mpr ⟨0,2,⟨8,4⟩,⟨0,32⟩,8,by decide,rfl,rfl,by decide,by decide⟩
  exact ⟨found,(perm _ (by decide)).trans found⟩

/-- Bytes are copied out in order. Each slice is read at a moment of its own, so the
bytes are those of the first moment where the guest leaves the slices alone. -/
theorem copyTo_exact {n : Nat} (fits : n ≤ (hostBytes slices).length) (w : World) :
    ∃ raw ticks, (copyTo env slices n).run w = (.ok raw,(World.tick env)^[ticks] w) ∧
      Glimpsed env w ticks ((hostBytes slices).take n) raw ∧
      ((∀ i ≤ ticks, ∀ p ∈ hostBytes slices, ((World.tick env)^[i] w).host p = w.host p) →
        raw = (World.bytesAt w.host slices).take n) := by
  obtain ⟨raw,w',copied⟩ := Block.copyTo_succeeds fits w
  obtain ⟨ticks,_,rfl,glimpsed⟩ := copyTo_glimpses copied
  refine ⟨raw,ticks,copied,glimpsed,fun still => ?_⟩
  rw [glimpsed.still (fun p member i bound => still i bound p (List.mem_of_mem_take member)),List.map_take]
  rfl

/-- The laws of the helpers, for slices of any lengths. A range within the slices is
made of filled slices and covers just its bytes, in place. Bytes within the slices are
copied out in order. Bytes stored in slices that share none are found there in order,
nothing else changes, and copying out gives them back. No assertion fails. -/
theorem scatter_gather (env : Env) (slices : List VolatileSlice) :
    (∀ skip len, skip + len ≤ (hostBytes slices).length → ∃ part, range slices skip len = .ok part ∧
      (∀ s ∈ part, 0 < s.len) ∧ hostBytes part = ((hostBytes slices).drop skip).take len) ∧
    (∀ n w, n ≤ (hostBytes slices).length → ∃ raw ticks,
      (copyTo env slices n).run w = (.ok raw,(World.tick env)^[ticks] w) ∧
      Glimpsed env w ticks ((hostBytes slices).take n) raw ∧
      ((∀ i ≤ ticks, ∀ p ∈ hostBytes slices, ((World.tick env)^[i] w).host p = w.host p) →
        raw = (World.bytesAt w.host slices).take n)) ∧
    (∀ src w, src.length ≤ (hostBytes slices).length → slices.Pairwise (fun s t => s.bytes.Disjoint t.bytes) →
      ∃ t, (copyFrom slices src).run w = (.ok (),t) ∧ ((hostBytes slices).take src.length).map t.host = src ∧
        (∀ p ∉ (hostBytes slices).take src.length, t.host p = w.host p) ∧ t = {w with host := t.host} ∧
        ∃ raw ticks, (copyTo env slices src.length).run t = (.ok raw,(World.tick env)^[ticks] t) ∧
          ((∀ i ≤ ticks, ∀ p ∈ hostBytes slices, ((World.tick env)^[i] t).host p = t.host p) → raw = src)) := by
  refine ⟨fun skip len fits => ?_,fun n w fits => copyTo_exact fits w,fun src w fits apart => ?_⟩
  · obtain ⟨part,ranged,covers⟩ := range_covers fits
    exact ⟨part,ranged,range_filled ranged,covers⟩
  · have distinct : (hostBytes slices).Nodup := List.nodup_flatMap.mpr ⟨fun s _ => List.nodup_range',apart⟩
    have read : ((hostBytes slices).take src.length).map (store w.host (hostBytes slices) src) = src :=
      store_read distinct fits
    refine ⟨_,copyFrom_stores fits w,read,?_,rfl,?_⟩
    · intro p outside
      dsimp only
      rw [← store_take]
      exact store_outside outside
    · obtain ⟨raw,ticks,copied,_,still⟩ := @copyTo_exact env _ _ fits
        {w with host := store w.host (hostBytes slices) src}
      refine ⟨raw,ticks,copied,fun calm => (still calm).trans ?_⟩
      rw [World.bytesAt,← List.map_take]
      exact read

/-- Five bytes through slices of which one is empty. -/
theorem scatter_gather_five : ∃ t, (copyFrom [⟨16,3⟩,⟨64,0⟩,⟨0,4⟩] [1,2,3,4,5]).run emptyWorld = (.ok (),t) ∧
    t.host 1 = 5 ∧ t.host 2 = emptyWorld.host 2 := by
  obtain ⟨_,_,stores⟩ := scatter_gather Reference.env [⟨16,3⟩,⟨64,0⟩,⟨0,4⟩]
  have distinct : (hostBytes [⟨16,3⟩,⟨64,0⟩,⟨0,4⟩]).Nodup := by decide
  obtain ⟨t,ran,read,kept,_⟩ := stores [1,2,3,4,5] emptyWorld (by decide) (List.nodup_flatMap.mp distinct).2
  refine ⟨t,ran,?_,kept 2 (by decide)⟩
  exact List.head_eq_of_cons_eq (congrArg (List.drop 4) read)

end WVmm.Devices.Buffers
