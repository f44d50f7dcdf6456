import WVmm.Lib.Effect

/-! Two programs run side by side from related states. Either the first one fails
in a way that is excused, or both fail alike, or both succeed with related values;
in the last two cases they end in related states. -/
namespace WVmm.Lib.Simulation
open Effect

variable {σ τ σ' τ' ε δ α β γ κ : Type}

inductive Matches (rel : σ → τ → Prop) (excused : ε → Prop) (same : α → β → Prop) :
    Except ε α × σ → Except ε β × τ → Prop
  | excused {e : ε} {s : σ} {r : Except ε β × τ} (allowed : excused e) : Matches rel excused same (.error e,s) r
  | failed {e : ε} {s : σ} {t : τ} (related : rel s t) : Matches rel excused same (.error e,s) (.error e,t)
  | returned {a : α} {b : β} {s : σ} {t : τ} (alike : same a b) (related : rel s t) :
      Matches rel excused same (.ok a,s) (.ok b,t)

def Simulates (rel : σ → τ → Prop) (excused : ε → Prop) (same : α → β → Prop) (m : Prog σ ε α)
    (m' : Prog τ ε β) : Prop :=
  ∀ s t, rel s t → Matches rel excused same (m.run s) (m'.run t)

/-- Sequencing from given states. -/
theorem Matches.bind {rel : σ → τ → Prop} {excused : ε → Prop} {same : α → β → Prop} {m : Prog σ ε α}
    {m' : Prog τ ε β} {f : α → Prog σ ε γ} {f' : β → Prog τ ε κ} {ends : γ → κ → Prop} {s : σ} {t : τ}
    (begun : Matches rel excused same (m.run s) (m'.run t))
    (rest : ∀ a b s' t', m.run s = (.ok a,s') → m'.run t = (.ok b,t') → same a b → rel s' t' →
      Matches rel excused ends ((f a).run s') ((f' b).run t')) :
    Matches rel excused ends ((m >>= f).run s) ((m' >>= f').run t) := by
  rw [Prog.run_bind,Prog.run_bind]
  generalize m.run s = left at begun rest ⊢
  generalize m'.run t = right at begun rest ⊢
  cases begun with
  | excused allowed => exact .excused allowed
  | failed after => exact .failed after
  | returned alike after => exact rest _ _ _ _ rfl rfl alike after

namespace Simulates

variable {rel : σ → τ → Prop} {excused : ε → Prop} {same : α → β → Prop} {m : Prog σ ε α} {m' : Prog τ ε β}

theorem pure {a : α} {b : β} (alike : same a b) :
    Simulates rel excused same (Pure.pure a) (Pure.pure b) :=
  fun _ _ related => .returned alike related

theorem fail (e : ε) : Simulates rel excused same (Prog.fail e) (Prog.fail e) :=
  fun _ _ related => .failed related

/-- A failure of the first program that needs no match. -/
theorem excuse {e : ε} (allowed : excused e) : Simulates rel excused same (Prog.fail e) m' :=
  fun _ _ _ => .excused allowed

theorem bind {f : α → Prog σ ε γ} {f' : β → Prog τ ε κ} {ends : γ → κ → Prop}
    (first : Simulates rel excused same m m')
    (rest : ∀ a b, same a b → Simulates rel excused ends (f a) (f' b)) :
    Simulates rel excused ends (m >>= f) (m' >>= f') := by
  intro s t related
  refine Matches.bind (first s t related) ?_
  intro a b s' t' _ _ alike after
  exact rest a b alike s' t' after

theorem get {f : σ → Prog σ ε γ} {f' : τ → Prog τ ε κ} {ends : γ → κ → Prop}
    (rest : ∀ s t, rel s t → Simulates rel excused ends (f s) (f' t)) :
    Simulates rel excused ends (Prog.get >>= f) (Prog.get >>= f') :=
  fun s t related => rest s t related s t related

theorem modify {g : σ → σ} {g' : τ → τ} (moves : ∀ s t, rel s t → rel (g s) (g' t)) :
    Simulates rel excused Eq (Prog.modify g) (Prog.modify g') :=
  fun s t related => .returned rfl (moves s t related)

theorem ofExcept (r : Except ε α) : Simulates rel excused Eq (Prog.ofExcept r) (Prog.ofExcept r) := by
  intro s t related
  cases r with
  | error e => exact .failed related
  | ok a => exact .returned rfl related

theorem require (c : Prop) [Decidable c] (e : ε) :
    Simulates rel excused Eq (Prog.require c e) (Prog.require c e) := by
  unfold Prog.require
  split
  · exact pure rfl
  · exact fail e

theorem zoom {part : σ' → σ} {put : σ' → σ → σ'} {part' : τ' → τ} {put' : τ' → τ → τ'}
    {whole : σ' → τ' → Prop} (simulates : Simulates rel excused same m m')
    (enters : ∀ s t, whole s t → rel (part s) (part' t))
    (leaves : ∀ s t u v, whole s t → rel u v → whole (put s u) (put' t v)) :
    Simulates whole excused same (Prog.zoom part put m) (Prog.zoom part' put' m') := by
  intro s t related
  have ended := simulates (part s) (part' t) (enters s t related)
  rw [Prog.run_zoom,Prog.run_zoom]
  generalize m.run (part s) = left at ended ⊢
  generalize m'.run (part' t) = right at ended ⊢
  cases ended with
  | excused allowed => exact .excused allowed
  | failed after => exact .failed (leaves _ _ _ _ related after)
  | returned alike after => exact .returned alike (leaves _ _ _ _ related after)

theorem mapError {f : ε → δ} {excused' : δ → Prop} (simulates : Simulates rel excused same m m')
    (converts : ∀ e, excused e → excused' (f e)) :
    Simulates rel excused' same (Prog.mapError f m) (Prog.mapError f m') := by
  intro s t related
  have ended := simulates s t related
  rw [Prog.run_mapError,Prog.run_mapError]
  generalize m.run s = left at ended ⊢
  generalize m'.run t = right at ended ⊢
  cases ended with
  | excused allowed => exact .excused (converts _ allowed)
  | failed after => exact .failed after
  | returned alike after => exact .returned alike after

/-- Outcomes as values; nothing can be excused any more. -/
theorem capture {excused' : δ → Prop} {m' : Prog τ ε α}
    (simulates : Simulates rel (fun _ => False) Eq m m') :
    Simulates rel excused' Eq (Prog.capture m) (Prog.capture m') := by
  intro s t related
  have ended := simulates s t related
  rw [Prog.run_capture,Prog.run_capture]
  generalize m.run s = left at ended ⊢
  generalize m'.run t = right at ended ⊢
  cases ended with
  | excused never => exact never.elim
  | failed after => exact .returned rfl after
  | returned alike after => exact .returned (congrArg Except.ok alike) after

/-- Any program simulates itself when related states are equal. -/
theorem same_program {rel : σ → σ → Prop} (equal : ∀ s t, rel s t → t = s) (reflexive : ∀ s, rel s s)
    (m : Prog σ ε α) : Simulates rel excused Eq m m := by
  intro s t related
  rw [equal s t related]
  rcases m.run s with ⟨r,u⟩
  cases r with
  | error e => exact .failed (reflexive u)
  | ok a => exact .returned rfl (reflexive u)

end Simulates

section Lists
variable {r : α → β → Prop} {xs : List α} {ys : List β}

/-- The same update of two related lists. -/
theorem rel_set (related : List.Forall₂ r xs ys) (k : Nat) {x : α} {y : β} (new : r x y) :
    List.Forall₂ r (xs.set k x) (ys.set k y) := by
  induction related generalizing k with
  | nil => exact .nil
  | cons first rest ih =>
    cases k with
    | zero => exact .cons new rest
    | succ k => exact .cons first (ih k)

/-- Related lists zipped with the same list. -/
theorem rel_zip {ends : α × γ → β × γ → Prop} (related : List.Forall₂ r xs ys) (zs : List γ)
    (zips : ∀ x y, r x y → ∀ z, ends (x,z) (y,z)) : List.Forall₂ ends (xs.zip zs) (ys.zip zs) := by
  induction related generalizing zs with
  | nil => exact .nil
  | cons first rest ih =>
    cases zs with
    | nil => exact .nil
    | cons z zs => exact .cons (zips _ _ first z) (ih zs)

end Lists
end WVmm.Lib.Simulation
