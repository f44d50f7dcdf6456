import Mathlib

/-! Values stored one after another at a list of places. Where the places are
distinct the order does not matter and every value can be read back; where they are
not, the last store to a place wins. -/
namespace WVmm.Lib.Stores

variable {ι α : Type} [DecidableEq ι]

/-- Store values at places, in order, until one of the lists ends. -/
def store (h : ι → α) : List ι → List α → ι → α
  | p::ps, a::xs => store (Function.update h p a) ps xs
  | [], _ => h
  | _::_, [] => h

variable {h : ι → α} {ps qs : List ι} {xs ys : List α}

@[simp] theorem store_nil_left : store h [] xs = h := by
  cases xs <;> rfl

@[simp] theorem store_nil_right : store h ps [] = h := by
  cases ps <;> rfl

theorem store_cons (p : ι) (a : α) : store h (p::ps) (a::xs) = store (Function.update h p a) ps xs := rfl

theorem store_append (aligned : ps.length = xs.length) :
    store h (ps ++ qs) (xs ++ ys) = store (store h ps xs) qs ys := by
  induction ps generalizing h xs with
  | nil =>
    cases xs with
    | nil => rfl
    | cons a xs => cases aligned
  | cons p ps ih =>
    cases xs with
    | nil => cases aligned
    | cons a xs =>
      rw [List.cons_append,List.cons_append,store_cons,store_cons]
      exact ih (Nat.succ.inj aligned)

/-- The first places take as many values as there are, the others the rest. -/
theorem store_split : store (store h ps (xs.take ps.length)) qs (xs.drop ps.length) = store h (ps ++ qs) xs := by
  induction ps generalizing h xs with
  | nil => rw [store_nil_left,List.length_nil,List.drop_zero,List.nil_append]
  | cons p ps ih =>
    cases xs with
    | nil => rw [List.take_nil,List.drop_nil,store_nil_right,store_nil_right,store_nil_right]
    | cons a xs =>
      rw [List.length_cons,List.take_succ_cons,List.drop_succ_cons,List.cons_append,store_cons,store_cons]
      exact ih

theorem store_take : store h (ps.take xs.length) xs = store h ps xs := by
  induction ps generalizing h xs with
  | nil => rw [List.take_nil]
  | cons p ps ih =>
    cases xs with
    | nil => rw [store_nil_right,store_nil_right]
    | cons a xs =>
      rw [List.length_cons,List.take_succ_cons,store_cons,store_cons]
      exact ih

theorem store_take_of_le {n : Nat} (fits : xs.length ≤ n) : store h (ps.take n) xs = store h ps xs := by
  rw [← @store_take _ _ _ _ (ps.take n),List.take_take,Nat.min_eq_left fits,store_take]

theorem store_outside {p : ι} (outside : p ∉ ps) : store h ps xs p = h p := by
  induction ps generalizing h xs with
  | nil => rw [store_nil_left]
  | cons q ps ih =>
    cases xs with
    | nil => rfl
    | cons a xs =>
      have other : p ≠ q := fun same => outside (same ▸ List.mem_cons_self)
      rw [store_cons,ih (fun later => outside (List.mem_cons_of_mem _ later)),Function.update_of_ne other]

theorem store_update {p : ι} {a : α} (outside : p ∉ ps) :
    store (Function.update h p a) ps xs = Function.update (store h ps xs) p a := by
  induction ps generalizing h xs with
  | nil => rw [store_nil_left,store_nil_left]
  | cons q ps ih =>
    cases xs with
    | nil => rfl
    | cons b xs =>
      have other : q ≠ p := fun same => outside (same ▸ List.mem_cons_self)
      rw [store_cons,store_cons,Function.update_comm other.symm,ih (fun later => outside (List.mem_cons_of_mem _ later))]

/-- Stores to separate places commute. -/
theorem store_comm (apart : ps.Disjoint qs) : store (store h ps xs) qs ys = store (store h qs ys) ps xs := by
  induction ps generalizing h xs with
  | nil => rw [store_nil_left,store_nil_left]
  | cons p ps ih =>
    cases xs with
    | nil => rfl
    | cons a xs =>
      obtain ⟨outside,apart⟩ := List.disjoint_cons_left.mp apart
      rw [store_cons,store_cons,ih apart,store_update outside]

theorem store_read (distinct : ps.Nodup) (fits : xs.length ≤ ps.length) :
    (ps.take xs.length).map (store h ps xs) = xs := by
  induction ps generalizing h xs with
  | nil =>
    rw [List.length_eq_zero_iff.mp (Nat.le_zero.mp fits)]
    rfl
  | cons p ps ih =>
    cases xs with
    | nil => rfl
    | cons a xs =>
      obtain ⟨outside,distinct⟩ := List.nodup_cons.mp distinct
      rw [List.length_cons,List.take_succ_cons,List.map_cons,store_cons,store_outside outside,Function.update_self,
        ih distinct (Nat.le_of_succ_le_succ fits)]

theorem store_get (distinct : ps.Nodup) {i : Nat} (place : i < ps.length) (inside : i < xs.length) :
    store h ps xs ps[i] = xs[i] := by
  induction ps generalizing h xs i with
  | nil => cases place
  | cons p ps ih =>
    obtain ⟨outside,distinct⟩ := List.nodup_cons.mp distinct
    cases xs with
    | nil => cases inside
    | cons a xs =>
      rw [store_cons]
      cases i with
      | zero => exact (store_outside outside).trans (Function.update_self ..)
      | succ i => exact ih distinct (Nat.lt_of_succ_lt_succ place) (Nat.lt_of_succ_lt_succ inside)

end WVmm.Lib.Stores
