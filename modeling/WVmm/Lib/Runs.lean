import Mathlib

/-! Systems that take labelled steps, what their runs reach and what their runs
preserve. A step relation may be given by a partial function, which runs a list
of labels. -/
namespace WVmm.Lib.Runs

variable {σ ℓ : Type}

inductive Reaches (step : σ → ℓ → σ → Prop) (s : σ) : σ → Prop
  | refl : Reaches step s s
  | tail {t u : σ} (l : ℓ) (before : Reaches step s t) (taken : step t l u) : Reaches step s u

namespace Reaches

variable {step : σ → ℓ → σ → Prop} {s t u : σ}

theorem trans (first : Reaches step s t) (second : Reaches step t u) : Reaches step s u := by
  induction second with
  | refl => exact first
  | tail l _ taken ih => exact ih.tail l taken

/-- What holds at first and is kept by every step holds along every run. -/
theorem invariant {inv : σ → Prop} (start : inv s) (kept : ∀ t l u, inv t → step t l u → inv u)
    (reaches : Reaches step s t) : inv t := by
  induction reaches with
  | refl => exact start
  | tail l _ taken ih => exact kept _ l _ ih taken

end Reaches

def Takes (next : ℓ → σ → Option σ) (s : σ) (l : ℓ) (t : σ) : Prop := next l s = some t

def run (next : ℓ → σ → Option σ) : List ℓ → σ → Option σ
  | [], s => some s
  | l::rest, s => (next l s).bind (run next rest)

theorem reaches_of_run {next : ℓ → σ → Option σ} (labels : List ℓ) {s t : σ}
    (ran : run next labels s = some t) : Reaches (Takes next) s t := by
  induction labels generalizing s with
  | nil =>
    cases ran
    exact .refl
  | cons l rest ih =>
    obtain ⟨u,taken,later⟩ := Option.bind_eq_some_iff.mp ran
    exact (Reaches.tail l .refl taken).trans (ih later)

theorem guarded {c : Prop} [Decidable c] {s t : σ} (taken : (if c then some s else none) = some t) :
    c ∧ s = t := by
  split at taken
  · exact ⟨‹c›,Option.some.inj taken⟩
  · cases taken

theorem unguarded {c : Prop} [Decidable c] {s t : σ} (taken : (if c then none else some s) = some t) :
    ¬c ∧ s = t := by
  split at taken
  · cases taken
  · exact ⟨‹¬c›,Option.some.inj taken⟩

/-- What holds of every event of a log, given the events before it. -/
def Along {α : Type} (holds : List α → α → Prop) (log : List α) : Prop :=
  ∀ before event after, log = before ++ event::after → holds before event

namespace Along

variable {α : Type} {holds : List α → α → Prop} {log : List α}

theorem nil : Along holds [] := by
  intro before event after split
  cases before <;> cases split

theorem snoc (along : Along holds log) {last : α} (new : holds log last) : Along holds (log ++ [last]) := by
  intro before event after split
  rcases List.eq_nil_or_concat after with rfl | ⟨rest,final,rfl⟩
  · obtain ⟨rfl,same⟩ := List.append_inj' split rfl
    cases same
    exact new
  · rw [List.concat_eq_append,← List.cons_append,← List.append_assoc] at split
    exact along before event rest (List.append_inj_left' split rfl)

end Along
end WVmm.Lib.Runs
