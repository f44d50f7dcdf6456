import WVmm.Lib.Effect

/-! Weaker forms of a triple. `Always` relates the first and the last state of
every run, however the run ends. `Upon` speaks about the runs that return: from a
state that meets the precondition, they end in the postcondition. `Returns` gives
the outcome of a program that only looks at what an invariant fixes, and `Grants`
says with which values such a program returns. `Guards` keeps an invariant except for
some ways to fail; what `Delivers` cannot fail. `Within` bounds what a run adds to a
clock, and `turns` repeats a program within a budget. -/
namespace WVmm.Lib.Effect

variable {σ τ ε δ α β : Type}

def Always (rel : σ → σ → Prop) (m : Prog σ ε α) : Prop := ∀ s, rel s (m.run s).2

theorem Always.ran {rel : σ → σ → Prop} {m : Prog σ ε α} (always : Always rel m) {s t : σ} {r : Except ε α}
    (ran : m.run s = (r,t)) : rel s t := by
  have moved := always s
  rwa [ran] at moved

namespace Always

variable {rel : σ → σ → Prop} [IsPreorder σ rel] {m : Prog σ ε α}

theorem still (same : ∀ s, (m.run s).2 = s) : Always rel m := by
  intro s
  rw [same s]
  exact refl_of rel s

theorem pure (a : α) : Always rel (Pure.pure a : Prog σ ε α) := still (fun _ => rfl)

theorem fail (e : ε) : Always rel (Prog.fail e : Prog σ ε α) := still (fun _ => rfl)

theorem get : Always rel (Prog.get : Prog σ ε σ) := still (fun _ => rfl)

theorem ofExcept (r : Except ε α) : Always rel (Prog.ofExcept r) := still (fun _ => rfl)

theorem require (c : Prop) [Decidable c] (e : ε) : Always rel (Prog.require c e) := by
  refine still (fun s => ?_)
  rw [Prog.run_require]
  split <;> rfl

theorem bind {f : α → Prog σ ε β} (first : Always rel m) (rest : ∀ a, Always rel (f a)) :
    Always rel (m >>= f) := by
  intro s
  have begun := first s
  rw [Prog.run_bind]
  generalize m.run s = outcome at begun ⊢
  obtain ⟨r,t⟩ := outcome
  cases r with
  | error e => exact begun
  | ok a => exact trans_of rel begun (rest a t)

end Always

theorem Always.modify {rel : σ → σ → Prop} {f : σ → σ} (moves : ∀ s, rel s (f s)) :
    Always rel (Prog.modify f : Prog σ ε Unit) := moves

/-- The outcome as a value, or with another error, leaves the same state. -/
theorem Always.capture {rel : σ → σ → Prop} {m : Prog σ ε α} (always : Always rel m) :
    Always rel (Prog.capture m : Prog σ δ (Except ε α)) := always

theorem Always.mapError {rel : σ → σ → Prop} {m : Prog σ ε α} (always : Always rel m) (f : ε → δ) :
    Always rel (Prog.mapError f m) := always

theorem Always.zoom {rel : σ → σ → Prop} {whole : τ → τ → Prop} {m : Prog σ ε α} {part : τ → σ}
    {put : τ → σ → τ} (always : Always rel m) (lifts : ∀ s u, rel (part s) u → whole s (put s u)) :
    Always whole (Prog.zoom part put m) :=
  fun s => lifts s _ (always (part s))

/-- A program that always moves by a relation, where its failures do not matter. -/
theorem Triple.ofAlways {rel guarantee : σ → σ → Prop} {pre : σ → Prop} {fails : ε → Prop} {post : α → σ → Prop}
    {m : Prog σ ε α} (always : Always rel m) (moves : ∀ s t, rel s t → guarantee s t)
    (ends : ∀ s t a, pre s → rel s t → post a t) (free : ∀ e, fails e) : Triple pre guarantee fails m post :=
  fun s here => ⟨moves s _ (always s),fun a _ => ends s _ a here (always s),fun e _ => free e⟩

def Upon (pre : σ → Prop) (m : Prog σ ε α) (post : α → σ → Prop) : Prop :=
  ∀ s a t, pre s → m.run s = (.ok a,t) → post a t

namespace Upon

variable {pre : σ → Prop} {m : Prog σ ε α} {post : α → σ → Prop}

theorem pure {a : α} (holds : ∀ s, pre s → post a s) : Upon pre (Pure.pure a : Prog σ ε α) post := by
  intro s b t here ran
  cases ran
  exact holds s here

theorem fail (e : ε) : Upon pre (Prog.fail e : Prog σ ε α) post := by
  intro s a t _ ran
  cases ran

theorem bind {f : α → Prog σ ε β} {ends : β → σ → Prop} (first : Upon pre m post)
    (rest : ∀ a, Upon (post a) (f a) ends) : Upon pre (m >>= f) ends := by
  intro s b u here ran
  obtain ⟨a,t,begun,later⟩ := Prog.bind_success ran
  exact rest a t b u (first s a t here begun) later

theorem get {f : σ → Prog σ ε β} {ends : β → σ → Prop}
    (rest : ∀ s, pre s → Upon (fun now => now = s) (f s) ends) : Upon pre (Prog.get >>= f) ends :=
  fun s b t here ran => rest s here s b t rfl ran

theorem modify {f : σ → σ} {ends : Unit → σ → Prop} (moves : ∀ s, pre s → ends () (f s)) :
    Upon pre (Prog.modify f : Prog σ ε Unit) ends := by
  intro s a t here ran
  cases ran
  exact moves s here

theorem require (c : Prop) [Decidable c] (e : ε) :
    Upon pre (Prog.require c e) (fun _ s => c ∧ pre s) := by
  intro s a t here ran
  rw [Prog.run_require] at ran
  split at ran
  · cases ran
    exact ⟨‹c›,here⟩
  · cases ran

theorem ofExcept (r : Except ε α) : Upon pre (Prog.ofExcept r) (fun a s => r = .ok a ∧ pre s) := by
  intro s a t here ran
  obtain ⟨rfl,rfl⟩ := Prod.mk.inj ran
  exact ⟨rfl,here⟩

theorem consequence {pre' : σ → Prop} {post' : α → σ → Prop} (upon : Upon pre m post)
    (stronger : ∀ s, pre' s → pre s) (weaker : ∀ a s, post a s → post' a s) : Upon pre' m post' :=
  fun s a t here ran => weaker a t (upon s a t (stronger s here) ran)

/-- What a relation keeps, a program that always moves by it keeps. -/
theorem ofAlways {rel : σ → σ → Prop} (always : Always rel m) (stable : Stable rel pre) :
    Upon pre m (fun _ => pre) := by
  intro s a t here ran
  have moved := always s
  rw [ran] at moved
  exact stable s t moved here

theorem zoom {part : τ → σ} {put : τ → σ → τ} {before : τ → Prop} {after : α → τ → Prop}
    (upon : Upon pre m post) (enters : ∀ s, before s → pre (part s))
    (leaves : ∀ a s u, before s → post a u → after a (put s u)) :
    Upon before (Prog.zoom part put m) after := by
  intro s a t here ran
  rw [Prog.run_zoom] at ran
  obtain ⟨returned,rfl⟩ := Prod.mk.inj ran
  exact leaves a s _ here (upon (part s) a _ (enters s here) (Prod.ext returned rfl))

theorem mapError {f : ε → δ} (upon : Upon pre m post) : Upon pre (Prog.mapError f m) post := by
  intro s a t here ran
  rw [Prog.run_mapError] at ran
  obtain ⟨returned,rfl⟩ := Prod.mk.inj ran
  refine upon s a _ here (Prod.ext ?_ rfl)
  cases outcome : (m.run s).1 with
  | error e => simp [outcome,Except.mapError] at returned
  | ok b =>
    simp only [outcome,Except.mapError,Except.ok.injEq] at returned
    rw [returned]

end Upon

/-- From every state of the invariant the outcome is `r`, and the invariant is kept. -/
def Returns (invariant : σ → Prop) (m : Prog σ ε α) (r : Except ε α) : Prop :=
  ∀ s, invariant s → (m.run s).1 = r ∧ invariant (m.run s).2

namespace Returns

variable {invariant : σ → Prop} {m : Prog σ ε α} {r : Except ε α}

theorem pure (a : α) : Returns invariant (Pure.pure a : Prog σ ε α) (.ok a) := fun _ here => ⟨rfl,here⟩

theorem fail (e : ε) : Returns invariant (Prog.fail e : Prog σ ε α) (.error e) := fun _ here => ⟨rfl,here⟩

theorem ofExcept (r : Except ε α) : Returns invariant (Prog.ofExcept r) r := fun _ here => ⟨rfl,here⟩

theorem require (c : Prop) [Decidable c] (e : ε) :
    Returns invariant (Prog.require c e) (if c then .ok () else .error e) := by
  intro s here
  rw [Prog.run_require]
  split <;> exact ⟨rfl,here⟩

theorem modify {f : σ → σ} (keeps : ∀ s, invariant s → invariant (f s)) :
    Returns invariant (Prog.modify f : Prog σ ε Unit) (.ok ()) := fun s here => ⟨rfl,keeps s here⟩

theorem bind {f : α → Prog σ ε β} {g : α → Except ε β} (first : Returns invariant m r)
    (rest : ∀ a, Returns invariant (f a) (g a)) : Returns invariant (m >>= f) (r >>= g) := by
  intro s here
  obtain ⟨returned,kept⟩ := first s here
  rw [Prog.run_bind]
  rcases ran : m.run s with ⟨outcome,t⟩
  rw [ran] at returned kept
  subst returned
  cases outcome with
  | error e => exact ⟨rfl,kept⟩
  | ok a => exact rest a t kept

theorem step {f : α → Prog σ ε β} {a : α} {r : Except ε β} (first : Returns invariant m (.ok a))
    (rest : Returns invariant (f a) r) : Returns invariant (m >>= f) r := by
  intro s here
  obtain ⟨returned,kept⟩ := first s here
  rw [Prog.run_bind]
  rcases ran : m.run s with ⟨outcome,t⟩
  rw [ran] at returned kept
  subst returned
  exact rest t kept

theorem stop {f : α → Prog σ ε β} {e : ε} (first : Returns invariant m (.error e)) :
    Returns invariant (m >>= f) (.error e) := by
  intro s here
  obtain ⟨returned,kept⟩ := first s here
  rw [Prog.run_bind]
  rcases ran : m.run s with ⟨outcome,t⟩
  rw [ran] at returned kept
  subst returned
  exact ⟨rfl,kept⟩

/-- Looking at the state, of which only what the invariant fixes is used. -/
theorem get {f : σ → Prog σ ε β} {r : Except ε β} (rest : ∀ s, invariant s → Returns invariant (f s) r) :
    Returns invariant (Prog.get >>= f) r := fun s here => rest s here s here

theorem congr {r' : Except ε α} (returns : Returns invariant m r) (same : r = r') : Returns invariant m r' :=
  same ▸ returns

end Returns

/-- From every state of the invariant the values returned are those of `yields`, and
the invariant is kept. -/
def Grants (invariant : σ → Prop) (m : Prog σ ε α) (yields : α → Prop) : Prop :=
  ∀ s, invariant s → invariant (m.run s).2 ∧ ∀ a, (m.run s).1 = .ok a ↔ yields a

namespace Grants

variable {invariant : σ → Prop} {m : Prog σ ε α} {yields : α → Prop}

theorem ofReturns {r : Except ε α} (returns : Returns invariant m r) :
    Grants invariant m (fun a => r = .ok a) := by
  intro s here
  obtain ⟨returned,kept⟩ := returns s here
  refine ⟨kept,fun a => ?_⟩
  rw [returned]

theorem pure (a : α) : Grants invariant (Pure.pure a : Prog σ ε α) (fun b => a = b) :=
  fun _ here => ⟨here,fun _ => ⟨fun returned => by cases returned; rfl,fun same => by rw [← same]; rfl⟩⟩

theorem require (c : Prop) [Decidable c] (e : ε) : Grants invariant (Prog.require c e) (fun _ => c) := by
  intro s here
  rw [Prog.run_require]
  split
  · exact ⟨here,fun _ => iff_of_true rfl ‹_›⟩
  · exact ⟨here,fun _ => iff_of_false nofun ‹_›⟩

theorem bind {f : α → Prog σ ε β} {ends : α → β → Prop} (first : Grants invariant m yields)
    (rest : ∀ a, Grants invariant (f a) (ends a)) :
    Grants invariant (m >>= f) (fun b => ∃ a, yields a ∧ ends a b) := by
  intro s here
  obtain ⟨kept,values⟩ := first s here
  rw [Prog.run_bind]
  generalize m.run s = outcome at kept values ⊢
  obtain ⟨r,t⟩ := outcome
  cases r with
  | error e =>
    refine ⟨kept,fun b => ⟨nofun,?_⟩⟩
    rintro ⟨a,holds,_⟩
    cases (values a).mpr holds
  | ok a =>
    obtain ⟨kept',values'⟩ := rest a t kept
    refine ⟨kept',fun b => (values' b).trans ⟨fun holds => ⟨a,(values a).mp rfl,holds⟩,?_⟩⟩
    rintro ⟨a',holds,holds'⟩
    cases (values a').mpr holds
    exact holds'

theorem get {f : σ → Prog σ ε β} {ends : β → Prop} (rest : ∀ s, invariant s → Grants invariant (f s) ends) :
    Grants invariant (Prog.get >>= f) ends := fun s here => rest s here s here

theorem ran (grants : Grants invariant m yields) {s t : σ} {a : α} (here : invariant s) (returned : m.run s = (.ok a,t)) :
    invariant t ∧ yields a := by
  obtain ⟨kept,exactly⟩ := grants s here
  rw [returned] at kept exactly
  exact ⟨kept,(exactly a).mp rfl⟩

theorem congr {yields' : α → Prop} (grants : Grants invariant m yields) (same : ∀ a, yields a ↔ yields' a) :
    Grants invariant m yields' :=
  fun s here => ⟨(grants s here).1,fun a => ((grants s here).2 a).trans (same a)⟩

end Grants

/-- The invariant is kept, unless the run fails in one of the ways `broken`. -/
def Guards (invariant : σ → Prop) (broken : ε → Prop) (m : Prog σ ε α) : Prop :=
  ∀ s, invariant s → invariant (m.run s).2 ∨ ∃ e, (m.run s).1 = .error e ∧ broken e

namespace Guards

variable {invariant : σ → Prop} {broken : ε → Prop} {m : Prog σ ε α}

theorem returned (guards : Guards invariant broken m) {s t : σ} {a : α} (here : invariant s) (ran : m.run s = (.ok a,t)) :
    invariant t := by
  have kept := guards s here
  rw [ran] at kept
  rcases kept with kept | ⟨e,failed,_⟩
  · exact kept
  · cases failed

/-- What a relation keeps, a program that always moves by it keeps. -/
theorem ofAlways {rel : σ → σ → Prop} (always : Always rel m) (stable : Stable rel invariant) :
    Guards invariant broken m := fun s here => .inl (stable s _ (always s) here)

theorem still (same : ∀ s, (m.run s).2 = s) : Guards invariant broken m := fun s here => .inl ((same s).symm ▸ here)

theorem pure (a : α) : Guards invariant broken (Pure.pure a : Prog σ ε α) := still (fun _ => rfl)

theorem fail (e : ε) : Guards invariant broken (Prog.fail e : Prog σ ε α) := still (fun _ => rfl)

theorem ofExcept (r : Except ε α) : Guards invariant broken (Prog.ofExcept r) := still (fun _ => rfl)

theorem require (c : Prop) [Decidable c] (e : ε) : Guards invariant broken (Prog.require c e) := by
  refine still (fun s => ?_)
  rw [Prog.run_require]
  split <;> rfl

theorem modify {f : σ → σ} (keeps : ∀ s, invariant s → invariant (f s)) :
    Guards invariant broken (Prog.modify f : Prog σ ε Unit) := fun s here => .inl (keeps s here)

theorem bind {f : α → Prog σ ε β} (first : Guards invariant broken m) (rest : ∀ a, Guards invariant broken (f a)) :
    Guards invariant broken (m >>= f) := by
  intro s here
  have begun := first s here
  rw [Prog.run_bind]
  generalize m.run s = outcome at begun ⊢
  obtain ⟨r,t⟩ := outcome
  rcases begun with kept | ⟨e,failed,how⟩
  · cases r with
    | error e => exact .inl kept
    | ok a => exact rest a t kept
  · cases r with
    | error _ =>
      cases failed
      exact .inr ⟨_,rfl,how⟩
    | ok a => cases failed

theorem get {f : σ → Prog σ ε β} (rest : ∀ s, invariant s → Guards invariant broken (f s)) :
    Guards invariant broken (Prog.get >>= f) := fun s here => rest s here s here

theorem mapError {f : ε → δ} {broken' : δ → Prop} (guards : Guards invariant broken m)
    (converts : ∀ e, broken e → broken' (f e)) : Guards invariant broken' (Prog.mapError f m) := by
  intro s here
  rcases guards s here with kept | ⟨e,failed,how⟩
  · exact .inl kept
  · refine .inr ⟨f e,?_,converts e how⟩
    rw [Prog.run_mapError,failed]
    rfl

end Guards

def Delivers (invariant : σ → Prop) (m : Prog σ ε α) : Prop :=
  ∀ s, invariant s → invariant (m.run s).2 ∧ ∃ a, (m.run s).1 = .ok a

namespace Delivers

variable {invariant : σ → Prop} {m : Prog σ ε α}

theorem pure (a : α) : Delivers invariant (Pure.pure a : Prog σ ε α) := fun _ here => ⟨here,a,rfl⟩

theorem modify {f : σ → σ} (keeps : ∀ s, invariant s → invariant (f s)) :
    Delivers invariant (Prog.modify f : Prog σ ε Unit) := fun s here => ⟨keeps s here,(),rfl⟩

theorem ofExcept {r : Except ε α} (returned : ∃ a, r = .ok a) : Delivers invariant (Prog.ofExcept r) :=
  fun _ here => ⟨here,returned⟩

theorem bind {f : α → Prog σ ε β} (first : Delivers invariant m) (rest : ∀ a, Delivers invariant (f a)) :
    Delivers invariant (m >>= f) := by
  intro s here
  obtain ⟨kept,a,returned⟩ := first s here
  rw [Prog.run_bind]
  generalize m.run s = outcome at kept returned ⊢
  obtain ⟨r,t⟩ := outcome
  subst returned
  exact rest a t kept

theorem get {f : σ → Prog σ ε β} (rest : ∀ s, invariant s → Delivers invariant (f s)) :
    Delivers invariant (Prog.get >>= f) := fun s here => rest s here s here

end Delivers

/-- However it ends, a run adds at most `n` to the clock. -/
def Within (clock : σ → Nat) (n : Nat) (m : Prog σ ε α) : Prop := ∀ s, clock (m.run s).2 ≤ clock s + n

namespace Within

variable {clock : σ → Nat} {n k : Nat} {m : Prog σ ε α}

/-- A program that does not touch the clock. -/
theorem free (same : ∀ s, clock (m.run s).2 = clock s) : Within clock 0 m :=
  fun s => Nat.le_of_eq (same s)

theorem require (c : Prop) [Decidable c] (e : ε) : Within clock 0 (Prog.require c e) := by
  refine free (fun s => ?_)
  rw [Prog.run_require]
  split <;> rfl

theorem bind {f : α → Prog σ ε β} (first : Within clock n m) (rest : ∀ a, Within clock k (f a)) :
    Within clock (n + k) (m >>= f) := by
  intro s
  have begun := first s
  rw [Prog.run_bind]
  generalize m.run s = outcome at begun ⊢
  obtain ⟨r,t⟩ := outcome
  cases r with
  | error e => exact Nat.le_trans begun (Nat.add_le_add_left (Nat.le_add_right n k) _)
  | ok a =>
    calc clock ((f a).run t).2 ≤ clock t + k := rest a t
      _ ≤ clock s + n + k := Nat.add_le_add_right begun k
      _ = clock s + (n + k) := Nat.add_assoc ..

theorem mono (within : Within clock n m) (more : n ≤ k) : Within clock k m :=
  fun s => Nat.le_trans (within s) (Nat.add_le_add_left more _)

theorem zoom {part : τ → σ} {put : τ → σ → τ} {whole : τ → Nat} (within : Within clock n m)
    (before : ∀ s, whole s = clock (part s)) (after : ∀ s u, whole (put s u) = clock u) :
    Within whole n (Prog.zoom part put m) := by
  intro s
  rw [Prog.run_zoom,after,before]
  exact within (part s)

end Within

section Turns
variable {invariant fact : σ → Prop} {turn : Prog σ ε Bool}

/-- At most so many turns; `false` ends them. -/
def turns (turn : Prog σ ε Bool) : Nat → Prog σ ε Unit
  | 0 => return ()
  | budget+1 => do
    let more ← turn
    if more then turns turn budget else return ()

theorem turns_step {loop : Nat → Prog σ ε Unit} {budget : Nat} (same : ∀ s, (loop budget).run s = (turns turn budget).run s) (s : σ) :
    (turns turn (budget + 1)).run s = (turn >>= fun more => if more then loop budget else Pure.pure ()).run s := by
  rw [turns,Prog.run_bind,Prog.run_bind]
  rcases turn.run s with ⟨_ | _ | _,t⟩
  · rfl
  · rfl
  · exact (same t).symm

def Throughout (turn : Prog σ ε Bool) (fact : σ → Prop) : Nat → σ → Prop
  | 0, _ => True
  | budget+1, s => fact s ∧ ∀ t, turn.run s = (.ok true,t) → Throughout turn fact budget t

theorem turns_return (each : ∀ s, invariant s → fact s → invariant (turn.run s).2 ∧ ∃ more, (turn.run s).1 = .ok more)
    {budget : Nat} {s : σ} (start : invariant s) (throughout : Throughout turn fact budget s) :
    invariant ((turns turn budget).run s).2 ∧ ((turns turn budget).run s).1 = .ok () := by
  induction budget generalizing s with
  | zero => exact ⟨start,rfl⟩
  | succ budget ih =>
    obtain ⟨here,later⟩ := throughout
    obtain ⟨kept,more,returned⟩ := each s start here
    rw [turns,Prog.run_bind]
    rcases ran : turn.run s with ⟨r,t⟩
    rw [ran] at kept returned
    subst returned
    cases more with
    | false => exact ⟨kept,rfl⟩
    | true => exact ih kept (later t ran)

def throughout (turn : Prog σ ε Bool) (check : σ → Bool) : Nat → σ → Bool
  | 0, _ => true
  | budget+1, s => check s && match turn.run s with
    | (.ok true,t) => throughout turn check budget t
    | _ => true

theorem throughout_sound {check : σ → Bool} (sound : ∀ s, check s = true → fact s) {budget : Nat} {s : σ}
    (checked : throughout turn check budget s = true) : Throughout turn fact budget s := by
  induction budget generalizing s with
  | zero => trivial
  | succ budget ih =>
    rw [throughout,Bool.and_eq_true] at checked
    refine ⟨sound s checked.1,fun t ran => ih ?_⟩
    have later := checked.2
    rwa [ran] at later

end Turns
end WVmm.Lib.Effect
