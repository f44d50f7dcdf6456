import Mathlib

/-! Half-open ranges. Two that hold something meet where each starts before the
other stops. Ranges that lie apart take no more room than there is, and the last of
them to start before a given end decides whether any meets a new range. In a list
that is ordered by start, neighbours decide whether any two meet. -/
namespace WVmm.Lib.Ranges

section Order
variable {α : Type*} [LinearOrder α] {a b c d : α}

/-- The comparisons that decide whether two filled ranges meet. -/
theorem meet_iff (first : a < b) (second : c < d) :
    (a < d ∧ c < b) ↔ ¬Disjoint (Set.Ico a b) (Set.Ico c d) := by
  rw [Set.Ico_disjoint_Ico,not_le,max_lt_iff,lt_min_iff,lt_min_iff]
  constructor
  · rintro ⟨below,above⟩
    exact ⟨⟨first,below⟩,above,second⟩
  · rintro ⟨⟨_,below⟩,above,_⟩
    exact ⟨below,above⟩

theorem disjoint_iff (first : a < b) (second : c < d) :
    Disjoint (Set.Ico a b) (Set.Ico c d) ↔ b ≤ c ∨ d ≤ a := by
  rw [← not_iff_not,← meet_iff first second,not_or,not_le,not_le]
  exact And.comm

variable {κ : Type*} {start stop : κ → α} {table : Set κ}

/-- Of ranges that lie apart, the last to start before an end decides whether any
of them meets the range up to that end. -/
theorem last_decides (filled : ∀ k ∈ table, start k < stop k)
    (apart : ∀ k ∈ table, ∀ l ∈ table, k ≠ l → Disjoint (Set.Ico (start k) (stop k)) (Set.Ico (start l) (stop l)))
    {last : κ} (member : last ∈ table) (below : start last < d)
    (latest : ∀ k ∈ table, start k < d → start k ≤ start last) :
    (∃ k ∈ table, start k < d ∧ c < stop k) ↔ c < stop last := by
  constructor
  · rintro ⟨k,inside,before,after⟩
    by_cases same : k = last
    · exact same ▸ after
    · rcases (disjoint_iff (filled k inside) (filled last member)).mp (apart k inside last member same) with
        early | late
      · exact after.trans_le early |>.trans (filled last member)
      · exact absurd (late.trans (latest k inside before)) (filled last member).not_ge
  · exact fun after => ⟨last,member,below,after⟩

/-- If no range reaches into its neighbour, each stops before any later one starts. -/
theorem neighbours_apart {ranges : List (α × α)} (proper : ∀ r ∈ ranges, r.1 ≤ r.2)
    (clear : (ranges.zip ranges.tail).any (fun w => decide (w.2.1 < w.1.2)) = false) :
    ranges.Pairwise (fun r s => r.2 ≤ s.1) := by
  induction ranges with
  | nil => exact .nil
  | cons r rest ih =>
    cases rest with
    | nil => exact List.pairwise_singleton _ _
    | cons s rest =>
      simp only [List.tail_cons,List.zip_cons_cons,List.any_cons,Bool.or_eq_false_iff,decide_eq_false_iff_not,
        not_lt] at clear
      have later := ih (fun t member => proper t (List.mem_cons_of_mem _ member)) clear.2
      refine List.pairwise_cons.mpr ⟨?_,later⟩
      intro t member
      rcases List.mem_cons.mp member with rfl | far
      · exact clear.1
      · have middle := proper s (List.mem_cons_of_mem _ List.mem_cons_self)
        exact (clear.1.trans middle).trans ((List.pairwise_cons.mp later).1 t far)

/-- Filled ranges in the order of their starts: if they lie apart, no neighbours meet. -/
theorem apart_neighbours {ranges : List (α × α)} (filled : ∀ r ∈ ranges, r.1 < r.2)
    (ordered : ranges.Pairwise (fun r s => r.1 ≤ s.1)) (apart : ranges.Pairwise (fun r s => r.2 ≤ s.1 ∨ s.2 ≤ r.1)) :
    (ranges.zip ranges.tail).any (fun w => decide (w.2.1 < w.1.2)) = false := by
  induction ranges with
  | nil => rfl
  | cons r rest ih =>
    cases rest with
    | nil => rfl
    | cons s rest =>
      obtain ⟨first,ordered⟩ := List.pairwise_cons.mp ordered
      obtain ⟨beside,apart⟩ := List.pairwise_cons.mp apart
      have later := ih (fun t member => filled t (List.mem_cons_of_mem _ member)) ordered apart
      have clear : ¬s.1 < r.2 := by
        -- The second range cannot lie before the first, which starts no later.
        rcases beside s List.mem_cons_self with before | after
        · exact not_lt.mpr before
        · have starts := first s List.mem_cons_self
          have inside := filled s (List.mem_cons_of_mem _ List.mem_cons_self)
          exact absurd (after.trans starts) (not_le.mpr inside)
      simp only [List.tail_cons] at later
      simp only [List.tail_cons,List.zip_cons_cons,List.any_cons,Bool.or_eq_false_iff,decide_eq_false_iff_not]
      exact ⟨clear,later⟩

end Order

/-- Ranges of numbers below a bound that lie apart fit below it together. -/
theorem sum_le_of_apart {ι : Type*} {start size : ι → ℕ} {bound : ℕ} (ranges : List ι)
    (within : ∀ r ∈ ranges, start r + size r ≤ bound)
    (apart : ranges.Pairwise fun r s =>
      Disjoint (Set.Ico (start r) (start r + size r)) (Set.Ico (start s) (start s + size s))) :
    (ranges.map size).sum ≤ bound := by
  -- The places taken so far, and that later ranges are apart from them.
  suffices count : ∃ taken : Finset ℕ, taken.card = (ranges.map size).sum ∧ ∀ x ∈ taken, ∃ r ∈ ranges, x ∈ Set.Ico (start r) (start r + size r) by
    obtain ⟨taken,card,placed⟩ := count
    have low : taken ⊆ Finset.range bound := by
      intro x member
      obtain ⟨r,inside,_,high⟩ := placed x member
      exact Finset.mem_range.mpr (high.trans_le (within r inside))
    rw [← card]
    exact (Finset.card_le_card low).trans_eq (Finset.card_range bound)
  clear within
  induction ranges with
  | nil => exact ⟨∅,rfl,by simp⟩
  | cons r rest ih =>
    obtain ⟨ahead,apart⟩ := List.pairwise_cons.mp apart
    obtain ⟨taken,card,placed⟩ := ih apart
    have new : Disjoint (Finset.Ico (start r) (start r + size r)) taken := by
      rw [Finset.disjoint_left]
      intro x here there
      obtain ⟨s,inside,held⟩ := placed x there
      exact Set.disjoint_left.mp (ahead s inside) (Finset.mem_Ico.mp here) held
    refine ⟨Finset.Ico (start r) (start r + size r) ∪ taken,?_,?_⟩
    · rw [Finset.card_union_of_disjoint new,card,Nat.card_Ico,Nat.add_sub_cancel_left,List.map_cons,List.sum_cons]
    · intro x member
      rcases Finset.mem_union.mp member with here | there
      · exact ⟨r,List.mem_cons_self,Finset.mem_Ico.mp here⟩
      · obtain ⟨s,inside,held⟩ := placed x there
        exact ⟨s,List.mem_cons_of_mem _ inside,held⟩

end WVmm.Lib.Ranges
