import Mathlib

/-! Tables of keyed entries under lists of insertions or removals. A list that
fits the table it is applied to can be taken back entry by entry, last first. -/
namespace WVmm.Lib.Table

variable {κ α : Type} [DecidableEq κ] (key : α → κ)

def overlay (add : Bool) (entries : List α) (table : κ → Option α) : κ → Option α :=
  entries.foldl (fun table x => Function.update table (key x) (if add then some x else none)) table

/-- The entries have distinct keys, and the table is as the operation expects it. -/
structure Ready (add : Bool) (entries : List α) (table : κ → Option α) : Prop where
  distinct : (entries.map key).Nodup
  before : ∀ x ∈ entries, table (key x) = if add then none else some x

variable {key}

theorem overlay_cons (add : Bool) (x : α) (rest : List α) (table : κ → Option α) :
    overlay key add (x::rest) table =
      overlay key add rest (Function.update table (key x) (if add then some x else none)) := rfl

theorem overlay_snoc (add : Bool) (entries : List α) (x : α) (table : κ → Option α) :
    overlay key add (entries ++ [x]) table =
      Function.update (overlay key add entries table) (key x) (if add then some x else none) := by
  simp [overlay,List.foldl_append]

theorem overlay_outside (add : Bool) (entries : List α) (table : κ → Option α) (k : κ)
    (outside : k ∉ entries.map key) : overlay key add entries table k = table k := by
  induction entries generalizing table with
  | nil => rfl
  | cons x rest ih =>
    simp only [List.map_cons,List.mem_cons,not_or] at outside
    rw [overlay_cons,ih _ outside.2,Function.update_of_ne outside.1]

theorem overlay_inside (add : Bool) (entries : List α) (table : κ → Option α)
    (distinct : (entries.map key).Nodup) (x : α) (member : x ∈ entries) :
    overlay key add entries table (key x) = if add then some x else none := by
  induction entries generalizing table with
  | nil => cases member
  | cons y rest ih =>
    simp only [List.map_cons,List.nodup_cons] at distinct
    rw [overlay_cons]
    rcases List.mem_cons.mp member with rfl | inside
    · rw [overlay_outside add rest _ _ distinct.1,Function.update_self]
    · exact ih _ distinct.2 inside

/-- An entry of the table after additions is one of them or was there before. -/
theorem overlay_added {entries : List α} {table : κ → Option α} {k : κ} {x : α}
    (distinct : (entries.map key).Nodup) (entry : overlay key true entries table k = some x) :
    (x ∈ entries ∧ key x = k) ∨ (k ∉ entries.map key ∧ table k = some x) := by
  by_cases member : k ∈ entries.map key
  · obtain ⟨y,inside,rfl⟩ := List.mem_map.mp member
    rw [overlay_inside true entries table distinct y inside] at entry
    cases entry
    exact Or.inl ⟨inside,rfl⟩
  · rw [overlay_outside true entries table k member] at entry
    exact Or.inr ⟨member,entry⟩

/-- An entry of the table after removals was there before under another key. -/
theorem overlay_kept {entries : List α} {table : κ → Option α} {k : κ} {x : α}
    (distinct : (entries.map key).Nodup) (entry : overlay key false entries table k = some x) :
    k ∉ entries.map key ∧ table k = some x := by
  have outside : k ∉ entries.map key := by
    intro member
    obtain ⟨y,inside,rfl⟩ := List.mem_map.mp member
    rw [overlay_inside false entries table distinct y inside] at entry
    cases entry
  exact ⟨outside,overlay_outside false entries table k outside ▸ entry⟩

namespace Ready

variable {add : Bool} {first rest : List α} {x : α} {table : κ → Option α}

omit [DecidableEq κ] in
theorem front (ready : Ready key add (first ++ rest) table) : Ready key add first table := by
  refine ⟨?_,fun x member => ready.before x (List.mem_append_left _ member)⟩
  have distinct := ready.distinct
  rw [List.map_append] at distinct
  exact (List.nodup_append.mp distinct).1

/-- The entry of the last key is untouched by the entries before it. -/
theorem last_entry (ready : Ready key add (first ++ [x]) table) :
    overlay key add first table (key x) = if add then none else some x := by
  have absent : key x ∉ first.map key := by
    intro member
    have distinct := ready.distinct
    rw [List.map_append] at distinct
    exact (List.nodup_append.mp distinct).2.2 _ member _ (by simp) rfl
  rw [overlay_outside add first table _ absent]
  exact ready.before x (by simp)

/-- Taking the last entry back gives the table before it. -/
theorem undo_last (ready : Ready key add (first ++ [x]) table) :
    Function.update (overlay key add (first ++ [x]) table) (key x)
      (if !add then some x else none) = overlay key add first table := by
  rw [overlay_snoc,Function.update_idem]
  have entry := ready.last_entry
  cases add <;> simpa [Function.update_eq_self_iff] using entry.symm

end Ready
end WVmm.Lib.Table
