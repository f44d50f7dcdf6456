import WVmm.Lib.Runs

/-! Systems that come to an end. A measure that some steps lower and no step raises
bounds how often these steps are taken along any run; where one of them can be taken
until the end is reached, every run that keeps taking them ends there and stays. -/
namespace WVmm.Lib.Runs

variable {σ ℓ : Type}

inductive Counts (step counted : σ → ℓ → σ → Prop) (s : σ) : Nat → σ → Prop
  | refl : Counts step counted s 0 s
  | free {k : Nat} {t u : σ} (l : ℓ) (before : Counts step counted s k t) (taken : step t l u)
    (other : ¬counted t l u) : Counts step counted s k u
  | counts {k : Nat} {t u : σ} (l : ℓ) (before : Counts step counted s k t) (taken : step t l u)
    (moved : counted t l u) : Counts step counted s (k + 1) u

/-- Counted steps lower the measure and no step raises it, while the invariant holds. -/
structure Lowers (step counted : σ → ℓ → σ → Prop) (inv : σ → Prop) (measure : σ → Nat) : Prop where
  kept : ∀ s l t, inv s → step s l t → inv t
  level : ∀ s l t, inv s → step s l t → measure t ≤ measure s
  lower : ∀ s l t, inv s → step s l t → counted s l t → measure t < measure s

/-- An endless run, in which nothing may happen for a while. Whenever a counted step is
due, one is taken sooner or later. -/
structure Fair (step counted : σ → ℓ → σ → Prop) (due : σ → Prop) (state : Nat → σ) : Prop where
  steps : ∀ m, state (m + 1) = state m ∨ ∃ l, step (state m) l (state (m + 1))
  moves : ∀ m, due (state m) → ∃ k, m ≤ k ∧ ∃ l, step (state k) l (state (k + 1)) ∧ counted (state k) l (state (k + 1))

theorem Counts.reaches {step counted : σ → ℓ → σ → Prop} {s t : σ} {k : Nat} (counts : Counts step counted s k t) :
    Reaches step s t := by
  induction counts with
  | refl => exact .refl
  | free l _ taken _ ih => exact ih.tail l taken
  | counts l _ taken _ ih => exact ih.tail l taken

namespace Fair

variable {step counted : σ → ℓ → σ → Prop} {due : σ → Prop} {state : Nat → σ}

theorem reaches (fair : Fair step counted due state) (m : Nat) : Reaches step (state 0) (state m) := by
  induction m with
  | zero => exact .refl
  | succ m ih =>
    rcases fair.steps m with same | ⟨l,taken⟩
    · exact same ▸ ih
    · exact ih.tail l taken

end Fair

namespace Lowers

variable {step counted : σ → ℓ → σ → Prop} {inv : σ → Prop} {measure : σ → Nat} {s t : σ}

theorem inv_reached (lowers : Lowers step counted inv measure) (start : inv s) (reaches : Reaches step s t) : inv t :=
  reaches.invariant start lowers.kept

/-- The measure bounds the counted steps of a run. -/
theorem bounds (lowers : Lowers step counted inv measure) (start : inv s) {k : Nat}
    (counts : Counts step counted s k t) : k + measure t ≤ measure s := by
  induction counts with
  | refl => exact Nat.le_of_eq (Nat.zero_add _)
  | free l before taken _ ih =>
    have level := lowers.level _ l _ (lowers.inv_reached start before.reaches) taken
    omega
  | counts l before taken moved ih =>
    have less := lowers.lower _ l _ (lowers.inv_reached start before.reaches) taken moved
    omega

theorem level_fair (lowers : Lowers step counted inv measure) {due : σ → Prop} {state : Nat → σ}
    (fair : Fair step counted due state) (start : inv (state 0)) {m k : Nat} (after : m ≤ k) :
    measure (state k) ≤ measure (state m) := by
  induction k, after using Nat.le_induction with
  | base => exact Nat.le_refl _
  | succ k _ ih =>
    refine Nat.le_trans ?_ ih
    rcases fair.steps k with same | ⟨l,taken⟩
    · exact Nat.le_of_eq (congrArg measure same)
    · exact lowers.level _ l _ (lowers.inv_reached start (fair.reaches k)) taken

/-- Where a counted step is due until the end is reached, a fair run comes to the end
and stays there: at its least measure no counted step is left to take. -/
theorem settles (lowers : Lowers step counted inv measure) {due : σ → Prop} (done : σ → Prop) {state : Nat → σ}
    (fair : Fair step counted due state) (start : inv (state 0)) (moving : ∀ s, inv s → ¬done s → due s) :
    ∃ m, ∀ k, m ≤ k → done (state k) := by
  obtain ⟨m,least⟩ : ∃ m, ∀ k, measure (state m) ≤ measure (state k) := by
    obtain ⟨low,⟨m,rfl⟩,least⟩ := WellFounded.has_min Nat.lt_wfRel.wf (Set.range fun m => measure (state m)) ⟨_,0,rfl⟩
    exact ⟨m,fun k => Nat.not_lt.mp (least _ ⟨k,rfl⟩)⟩
  refine ⟨m,fun k after => ?_⟩
  by_contra unfinished
  obtain ⟨j,later,l,taken,moved⟩ := fair.moves k (moving _ (lowers.inv_reached start (fair.reaches k)) unfinished)
  have less := lowers.lower _ l _ (lowers.inv_reached start (fair.reaches j)) taken moved
  have before := lowers.level_fair fair start (after.trans later)
  exact absurd (least (j + 1)) (by omega)

end Lowers
end WVmm.Lib.Runs
