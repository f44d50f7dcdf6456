import Mathlib

/-! Computations that thread a state and may fail, keeping the state they had
reached when they fail, with triples that bound every transition they make.
A triple states a precondition, a guarantee that relates the first state to the
last one on success and on failure alike, what a failure may be, and a
postcondition on success. -/
namespace WVmm.Lib.Effect

/-- A failing state transformer. Effects before a failure are not undone. -/
structure Prog (σ ε α : Type) where
  exec : σ → Except ε α × σ

variable {σ τ ε δ α β : Type}

namespace Prog

/-- Running is a function of its own, so that terms compare by program and state. -/
def run (m : Prog σ ε α) (s : σ) : Except ε α × σ := m.exec s

def pure (a : α) : Prog σ ε α := ⟨fun s => (.ok a,s)⟩

def bind (m : Prog σ ε α) (f : α → Prog σ ε β) : Prog σ ε β where
  exec s := match m.run s with
    | (.ok a,t) => (f a).run t
    | (.error e,t) => (.error e,t)

instance : Monad (Prog σ ε) where
  pure := Prog.pure
  bind := Prog.bind

def fail (e : ε) : Prog σ ε α := ⟨fun s => (.error e,s)⟩

def get : Prog σ ε σ := ⟨fun s => (.ok s,s)⟩

def modify (f : σ → σ) : Prog σ ε Unit := ⟨fun s => (.ok (),f s)⟩

def require (c : Prop) [Decidable c] (e : ε) : Prog σ ε Unit := if c then Prog.pure () else fail e

def ofExcept (r : Except ε α) : Prog σ ε α := ⟨fun s => (r,s)⟩

/-- Run on a part of the state; the rest is kept. -/
def zoom (part : τ → σ) (put : τ → σ → τ) (m : Prog σ ε α) : Prog τ ε α where
  exec s := ((m.run (part s)).1,put s (m.run (part s)).2)

def mapError (f : ε → δ) (m : Prog σ ε α) : Prog σ δ α where
  exec s := ((m.run s).1.mapError f,(m.run s).2)

/-- The outcome as a value, so that the caller decides what a failure means. -/
def capture (m : Prog σ ε α) : Prog σ δ (Except ε α) where
  exec s := (.ok (m.run s).1,(m.run s).2)

@[simp] theorem run_mk (f : σ → Except ε α × σ) (s : σ) : (⟨f⟩ : Prog σ ε α).run s = f s := rfl

@[simp] theorem run_pure (a : α) (s : σ) : (Pure.pure a : Prog σ ε α).run s = (.ok a,s) := rfl

theorem run_bind (m : Prog σ ε α) (f : α → Prog σ ε β) (s : σ) :
    (m >>= f).run s = match m.run s with
      | (.ok a,t) => (f a).run t
      | (.error e,t) => (.error e,t) := rfl

@[simp] theorem run_fail (e : ε) (s : σ) : (fail e : Prog σ ε α).run s = (.error e,s) := rfl

@[simp] theorem run_get (s : σ) : (get : Prog σ ε σ).run s = (.ok s,s) := rfl

@[simp] theorem run_modify (f : σ → σ) (s : σ) :
    (modify f : Prog σ ε Unit).run s = (.ok (),f s) := rfl

theorem run_require (c : Prop) [Decidable c] (e : ε) (s : σ) :
    (require c e : Prog σ ε Unit).run s = if c then (.ok (),s) else (.error e,s) := by
  unfold require
  split <;> rfl

@[simp] theorem run_ofExcept (r : Except ε α) (s : σ) : (ofExcept r : Prog σ ε α).run s = (r,s) := rfl

@[simp] theorem run_zoom (part : τ → σ) (put : τ → σ → τ) (m : Prog σ ε α) (s : τ) :
    (zoom part put m).run s = ((m.run (part s)).1,put s (m.run (part s)).2) := rfl

@[simp] theorem run_mapError (f : ε → δ) (m : Prog σ ε α) (s : σ) :
    (mapError f m).run s = ((m.run s).1.mapError f,(m.run s).2) := rfl

@[simp] theorem run_capture (m : Prog σ ε α) (s : σ) :
    (capture m : Prog σ δ (Except ε α)).run s = (.ok (m.run s).1,(m.run s).2) := rfl

/-- A guarded rest runs where the condition holds. -/
theorem run_guard (c : Prop) [Decidable c] (e : ε) (f : Unit → Prog σ ε β) (s : σ) :
    (require c e >>= f).run s = if c then (f ()).run s else (.error e,s) := by
  rw [run_bind,run_require]
  by_cases met : c <;> simp only [met,if_true,if_false]

/-- A successful sequence is a successful first part and a successful rest. -/
theorem bind_success {m : Prog σ ε α} {f : α → Prog σ ε β} {s u : σ} {b : β}
    (ran : (m >>= f).run s = (.ok b,u)) :
    ∃ a t, m.run s = (.ok a,t) ∧ (f a).run t = (.ok b,u) := by
  rw [run_bind] at ran
  rcases first : m.run s with ⟨r,t⟩
  rw [first] at ran
  cases r with
  | error e => simp at ran
  | ok a => exact ⟨a,t,rfl,ran⟩

/-- A sequence that fails has failed in its first part or in its rest. -/
theorem bind_failure {m : Prog σ ε α} {f : α → Prog σ ε β} {s u : σ} {e : ε}
    (ran : (m >>= f).run s = (.error e,u)) :
    m.run s = (.error e,u) ∨ ∃ a t, m.run s = (.ok a,t) ∧ (f a).run t = (.error e,u) := by
  rw [run_bind] at ran
  rcases first : m.run s with ⟨r,t⟩
  rw [first] at ran
  cases r with
  | error e' =>
    cases ran
    exact .inl rfl
  | ok a => exact .inr ⟨a,t,rfl,ran⟩

theorem require_success {c : Prop} [Decidable c] {e : ε} {s t : σ} {u : Unit}
    (ran : (require c e).run s = (.ok u,t)) : c ∧ s = t := by
  rw [run_require] at ran
  split at ran
  · cases ran
    exact ⟨‹c›,rfl⟩
  · cases ran

theorem ofExcept_success {r : Except δ α} {f : δ → ε} {s t : σ} {a : α}
    (ran : (ofExcept (r.mapError f)).run s = (.ok a,t)) : r = .ok a ∧ s = t := by
  cases r with
  | error e => cases ran
  | ok b =>
    cases ran
    exact ⟨rfl,rfl⟩

end Prog

/-- Facts that a guarantee cannot destroy. -/
def Stable (guarantee : σ → σ → Prop) (fact : σ → Prop) : Prop :=
  ∀ s t, guarantee s t → fact s → fact t

theorem Stable.and {guarantee : σ → σ → Prop} {fact fact' : σ → Prop} (first : Stable guarantee fact)
    (second : Stable guarantee fact') : Stable guarantee (fun s => fact s ∧ fact' s) :=
  fun s t moved holds => ⟨first s t moved holds.1,second s t moved holds.2⟩

/-- From every state that meets `pre`, the program relates its first and last
states by `guarantee`, fails only in ways `fails` allows and ends in `post`. -/
def Triple (pre : σ → Prop) (guarantee : σ → σ → Prop) (fails : ε → Prop)
    (m : Prog σ ε α) (post : α → σ → Prop) : Prop :=
  ∀ s, pre s → guarantee s (m.run s).2 ∧ (∀ a, (m.run s).1 = .ok a → post a (m.run s).2) ∧
    ∀ e, (m.run s).1 = .error e → fails e

namespace Triple

variable {pre : σ → Prop} {guarantee : σ → σ → Prop} {fails : ε → Prop} {m : Prog σ ε α}
  {post : α → σ → Prop}

theorem pure (reflexive : ∀ s, guarantee s s) (a : α) :
    Triple (post a) guarantee fails (Pure.pure a) post := by
  intro s holds
  refine ⟨reflexive s,?_,?_⟩
  · intro b returned
    cases returned
    exact holds
  · intro e failed
    cases failed

theorem fail (reflexive : ∀ s, guarantee s s) (e : ε) (allowed : fails e) :
    Triple pre guarantee fails (Prog.fail e) post := by
  intro s _
  refine ⟨reflexive s,?_,?_⟩
  · intro a returned
    cases returned
  · intro e' failed
    cases failed
    exact allowed

theorem get (reflexive : ∀ s, guarantee s s) :
    Triple pre guarantee fails Prog.get (fun a s => a = s ∧ pre s) := by
  intro s holds
  refine ⟨reflexive s,?_,?_⟩
  · intro a returned
    cases returned
    exact ⟨rfl,holds⟩
  · intro e failed
    cases failed

theorem modify {f : σ → σ} {after : Unit → σ → Prop}
    (moves : ∀ s, pre s → guarantee s (f s) ∧ after () (f s)) :
    Triple pre guarantee fails (Prog.modify f) after := by
  intro s holds
  refine ⟨(moves s holds).1,?_,?_⟩
  · intro a _
    exact (moves s holds).2
  · intro e failed
    cases failed

theorem require (reflexive : ∀ s, guarantee s s) (c : Prop) [Decidable c] (e : ε)
    (allowed : ¬c → fails e) :
    Triple pre guarantee fails (Prog.require c e) (fun _ s => c ∧ pre s) := by
  intro s holds
  rw [Prog.run_require]
  split
  · rename_i met
    refine ⟨reflexive s,fun _ _ => ⟨met,holds⟩,?_⟩
    intro e' failed
    cases failed
  · rename_i missed
    refine ⟨reflexive s,?_,?_⟩
    · intro a returned
      cases returned
    · intro e' failed
      cases failed
      exact allowed missed

theorem ofExcept (reflexive : ∀ s, guarantee s s) (r : Except ε α)
    (good : ∀ a s, pre s → r = .ok a → post a s) (bad : ∀ e, r = .error e → fails e) :
    Triple pre guarantee fails (Prog.ofExcept r) post := by
  intro s holds
  exact ⟨reflexive s,fun a returned => good a s holds returned,fun e failed => bad e failed⟩

/-- Sequencing composes the guarantees of the two parts. -/
theorem bind {f : α → Prog σ ε β} {after : β → σ → Prop}
    (transitive : ∀ s t u, guarantee s t → guarantee t u → guarantee s u)
    (first : Triple pre guarantee fails m post)
    (rest : ∀ a, Triple (post a) guarantee fails (f a) after) :
    Triple pre guarantee fails (m >>= f) after := by
  intro s holds
  obtain ⟨moved,good,bad⟩ := first s holds
  rw [Prog.run_bind]
  rcases ran : m.run s with ⟨r,t⟩
  rw [ran] at moved good bad
  cases r with
  | error e =>
    refine ⟨moved,?_,?_⟩
    · intro b returned
      cases returned
    · intro e' failed
      cases failed
      exact bad e rfl
  | ok a =>
    obtain ⟨further,ended,broken⟩ := rest a t (good a rfl)
    exact ⟨transitive s t _ moved further,ended,broken⟩

theorem consequence {pre' : σ → Prop} {post' : α → σ → Prop}
    (triple : Triple pre guarantee fails m post)
    (stronger : ∀ s, pre' s → pre s) (weaker : ∀ a s, post a s → post' a s) :
    Triple pre' guarantee fails m post' := by
  intro s holds
  obtain ⟨moved,good,bad⟩ := triple s (stronger s holds)
  exact ⟨moved,fun a returned => weaker a _ (good a returned),bad⟩

/-- What the guarantee keeps still holds after the program. -/
theorem keep (stable : Stable guarantee pre) (triple : Triple pre guarantee fails m post) :
    Triple pre guarantee fails m (fun a s => pre s ∧ post a s) := by
  intro s holds
  obtain ⟨moved,good,bad⟩ := triple s holds
  exact ⟨moved,fun a returned => ⟨stable s _ moved holds,good a returned⟩,bad⟩

theorem step {f : α → Prog σ ε β} {after : β → σ → Prop}
    (transitive : ∀ s t u, guarantee s t → guarantee t u → guarantee s u)
    (stable : Stable guarantee pre) (first : Triple pre guarantee fails m post)
    (rest : ∀ a, Triple (fun s => pre s ∧ post a s) guarantee fails (f a) after) :
    Triple pre guarantee fails (m >>= f) after :=
  (first.keep stable).bind transitive rest

/-- Sequencing where only the precondition matters to the rest. -/
theorem chain {f : α → Prog σ ε β} {after : β → σ → Prop}
    (transitive : ∀ s t u, guarantee s t → guarantee t u → guarantee s u)
    (stable : Stable guarantee pre) (first : Triple pre guarantee fails m (fun _ _ => True))
    (rest : ∀ a, Triple pre guarantee fails (f a) after) : Triple pre guarantee fails (m >>= f) after :=
  first.step transitive stable (fun a => (rest a).consequence (fun _ here => here.1) (fun _ _ here => here))

/-- A fact about no state may be assumed once. -/
theorem assume {fact : Prop} (triple : fact → Triple pre guarantee fails m post) :
    Triple (fun s => pre s ∧ fact) guarantee fails m post :=
  fun s holds => triple holds.2 s holds.1

/-- A fact the guarantee cannot destroy may be carried over any program. -/
theorem frame {fact : σ → Prop} (stable : Stable guarantee fact)
    (triple : Triple pre guarantee fails m post) :
    Triple (fun s => pre s ∧ fact s) guarantee fails m (fun a s => post a s ∧ fact s) := by
  intro s holds
  obtain ⟨moved,good,bad⟩ := triple s holds.1
  exact ⟨moved,fun a returned => ⟨good a returned,stable s _ moved holds.2⟩,bad⟩

theorem zoom {part : τ → σ} {put : τ → σ → τ} {before : τ → Prop} {whole : τ → τ → Prop}
    {after : α → τ → Prop} (triple : Triple pre guarantee fails m post)
    (enters : ∀ s, before s → pre (part s))
    (moves : ∀ s t, before s → guarantee (part s) t → whole s (put s t))
    (leaves : ∀ a s t, before s → guarantee (part s) t → post a t → after a (put s t)) :
    Triple before whole fails (Prog.zoom part put m) after := by
  intro s holds
  obtain ⟨moved,good,bad⟩ := triple (part s) (enters s holds)
  rw [Prog.run_zoom]
  exact ⟨moves s _ holds moved,fun a returned => leaves a s _ holds moved (good a returned),bad⟩

theorem mapError {f : ε → δ} {broken : δ → Prop} (triple : Triple pre guarantee fails m post)
    (converts : ∀ e, fails e → broken (f e)) :
    Triple pre guarantee broken (Prog.mapError f m) post := by
  intro s holds
  obtain ⟨moved,good,bad⟩ := triple s holds
  rw [Prog.run_mapError]
  refine ⟨moved,?_,?_⟩
  · intro a returned
    cases outcome : (m.run s).1 with
    | error e => simp [outcome,Except.mapError] at returned
    | ok b =>
      simp only [outcome,Except.mapError,Except.ok.injEq] at returned
      exact returned ▸ good b outcome
  · intro d failed
    cases outcome : (m.run s).1 with
    | ok b => simp [outcome,Except.mapError] at failed
    | error e =>
      simp only [outcome,Except.mapError,Except.error.injEq] at failed
      exact failed ▸ converts e (bad e outcome)

/-- A captured failure becomes a value: what the triple said about failures
moves into the postcondition. -/
theorem capture {broken : δ → Prop} (triple : Triple pre guarantee fails m post) :
    Triple pre guarantee broken (Prog.capture m)
      (fun r s => (∀ a, r = .ok a → post a s) ∧ ∀ e, r = .error e → fails e) := by
  intro s holds
  obtain ⟨moved,good,bad⟩ := triple s holds
  rw [Prog.run_capture]
  refine ⟨moved,?_,?_⟩
  · intro r returned
    cases returned
    exact ⟨good,bad⟩
  · intro d failed
    cases failed

theorem done (reflexive : ∀ s, guarantee s s) (a : α) :
    Triple pre guarantee fails (Pure.pure a) (fun _ _ => True) := by
  intro s _
  refine ⟨reflexive s,fun _ _ => trivial,?_⟩
  intro e failed
  cases failed

theorem look {f : σ → Prog σ ε β} {after : β → σ → Prop}
    (rest : ∀ s, pre s → Triple (fun now => now = s) guarantee fails (f s) after) :
    Triple pre guarantee fails (Prog.get >>= f) after :=
  fun s holds => rest s holds s rfl

/-- A weaker guarantee. -/
theorem relax {wider : σ → σ → Prop} (triple : Triple pre guarantee fails m post)
    (weaker : ∀ s t, guarantee s t → wider s t) : Triple pre wider fails m post :=
  fun s holds => ⟨weaker s _ (triple s holds).1,(triple s holds).2⟩

end Triple
end WVmm.Lib.Effect
