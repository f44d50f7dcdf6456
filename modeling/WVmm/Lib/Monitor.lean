import WVmm.Lib.Progress

/-! Threads that share a lock and one condition variable. Below, a thread whose condition
does not hold goes to sleep, and looks again when it is notified or for no reason at all;
above, it waits for its condition. Where whoever ends a wait notifies, the two levels have
the same runs, and what comes to an end above does so below. -/
namespace WVmm.Lib.Runs

variable {σ ℓ ι : Type}

structure Monitor (σ ℓ ι : Type) where
  next : ℓ → σ → Option σ
  /-- The thread that takes a step, if it is one that waits. -/
  thread : ℓ → σ → Option ι
  /-- The step notifies all that sleep. -/
  notifies : ℓ → σ → Bool
  /-- The thread is at a wait, and its condition does not hold. -/
  blocked : σ → ι → Bool

/-- The state behind the lock, and who sleeps. -/
structure Waits (σ ι : Type) where
  state : σ
  asleep : ι → Bool

inductive Turn (ℓ ι : Type)
  /-- A step of a thread that is awake. -/
  | act (l : ℓ)
  /-- A thread looks at its condition and goes to sleep. -/
  | sleep (i : ι)
  /-- A thread wakes without a notification. -/
  | wake (i : ι)

namespace Monitor

variable (m : Monitor σ ℓ ι)

def start (s : σ) : Waits σ ι := ⟨s,fun _ => false⟩

def turn [DecidableEq ι] (t : Turn ℓ ι) (w : Waits σ ι) : Option (Waits σ ι) :=
  match t with
  | .act l =>
    if ∀ i ∈ m.thread l w.state, w.asleep i = false then
      (m.next l w.state).map fun s => ⟨s,if m.notifies l w.state then fun _ => false else w.asleep⟩
    else none
  | .sleep i => if m.blocked w.state i then some {w with asleep := Function.update w.asleep i true} else none
  | .wake i => some {w with asleep := Function.update w.asleep i false}

/-- Whoever ends the wait of another thread notifies, while the invariant holds. -/
def Notifies (inv : σ → Prop) : Prop := ∀ l s t i, inv s → m.next l s = some t → m.thread l s ≠ some i →
  m.blocked s i = true → m.notifies l s = false → m.blocked t i = true

def Awake (w : Waits σ ι) : Prop := ∀ i, w.asleep i = true → m.blocked w.state i = true

def Acts (counted : σ → ℓ → σ → Prop) (w : Waits σ ι) (t : Turn ℓ ι) (w' : Waits σ ι) : Prop :=
  ∃ l, t = .act l ∧ counted w.state l w'.state

variable {m} {inv : σ → Prop}

theorem Notifies.mono {inv' : σ → Prop} (notifies : m.Notifies inv) (stronger : ∀ s, inv' s → inv s) : m.Notifies inv' :=
  fun l s t i holds => notifies l s t i (stronger s holds)

theorem Awake.start (s : σ) : m.Awake (Monitor.start s) := by
  intro i asleep
  cases asleep

variable [DecidableEq ι] {w w' : Waits σ ι}

theorem turn_cases {t : Turn ℓ ι} (taken : m.turn t w = some w') :
    (∃ l, t = .act l ∧ m.next l w.state = some w'.state ∧ (∀ i ∈ m.thread l w.state, w.asleep i = false) ∧
      w'.asleep = if m.notifies l w.state then fun _ => false else w.asleep) ∨
    w'.state = w.state ∧ (∀ l, t ≠ .act l) ∧
      ∀ i, w'.asleep i = true → w.asleep i = true ∨ m.blocked w.state i = true := by
  have updated : ∀ (i j : ι) (b : Bool), Function.update w.asleep i b j = true →
      w.asleep j = true ∨ (j = i ∧ b = true) := by
    intro i j b asleep
    by_cases same : j = i
    · subst same
      rw [Function.update_self] at asleep
      exact .inr ⟨rfl,asleep⟩
    · rw [Function.update_of_ne same] at asleep
      exact .inl asleep
  cases t with
  | act l =>
    obtain ⟨awake,ran⟩ := Option.ite_none_right_eq_some.mp taken
    obtain ⟨s,step,rfl⟩ := Option.map_eq_some_iff.mp ran
    exact .inl ⟨l,rfl,step,awake,rfl⟩
  | sleep i =>
    obtain ⟨blocked,rfl⟩ := guarded taken
    refine .inr ⟨rfl,by simp,fun j asleep => ?_⟩
    rcases updated i j true asleep with before | ⟨rfl,_⟩
    · exact .inl before
    · exact .inr blocked
  | wake i =>
    cases taken
    refine .inr ⟨rfl,by simp,fun j asleep => ?_⟩
    rcases updated i j false asleep with before | ⟨_,never⟩
    · exact .inl before
    · cases never

theorem Awake.step (awake : m.Awake w) (notifies : m.Notifies inv) (holds : inv w.state) {t : Turn ℓ ι}
    (taken : m.turn t w = some w') : m.Awake w' := by
  intro i asleep
  rcases turn_cases taken with ⟨l,rfl,step,up,after⟩ | ⟨same,_,before⟩
  · rw [after] at asleep
    cases notified : m.notifies l w.state with
    | true =>
      rw [notified] at asleep
      cases asleep
    | false =>
      simp only [notified,Bool.false_eq_true,if_false] at asleep
      refine notifies l w.state w'.state i holds step (fun own => ?_) (awake i asleep) notified
      rw [up i own] at asleep
      cases asleep
  · rw [same]
    rcases before i asleep with asleep | blocked
    · exact awake i asleep
    · exact blocked

/-- A run below is a run above. -/
theorem projects (reached : Reaches (Takes m.turn) w w') : Reaches (Takes m.next) w.state w'.state := by
  induction reached with
  | refl => exact .refl
  | tail t before taken ih =>
    rcases turn_cases taken with ⟨l,_,step,_⟩ | ⟨same,_⟩
    · exact ih.tail l step
    · rw [same]
      exact ih

theorem awake_reached (notifies : m.Notifies inv) {s : σ} (holds : inv s)
    (kept : ∀ s l t, inv s → m.next l s = some t → inv t)
    (reached : Reaches (Takes m.turn) (start s) w) : m.Awake w := by
  induction reached with
  | refl => exact .start s
  | tail t before taken ih => exact ih.step notifies ((projects before).invariant holds kept) taken

/-- A step above that does not wait can be taken below. -/
theorem Awake.acts (awake : m.Awake w) {l : ℓ} {t : σ} (taken : m.next l w.state = some t)
    (free : ∀ i ∈ m.thread l w.state, m.blocked w.state i = false) :
    ∃ w', m.turn (.act l) w = some w' ∧ w'.state = t := by
  have up : ∀ i ∈ m.thread l w.state, w.asleep i = false := by
    intro i own
    refine Bool.eq_false_iff.mpr fun asleep => ?_
    have blocked := awake i asleep
    rw [free i own] at blocked
    cases blocked
  refine ⟨⟨t,if m.notifies l w.state then fun _ => false else w.asleep⟩,?_,rfl⟩
  simp only [turn,if_pos up,taken,Option.map_some]

/-- What comes to an end above comes to an end below. -/
theorem lowers {counted : σ → ℓ → σ → Prop} {measure : σ → Nat} (notifies : m.Notifies inv)
    (lowers : Lowers (Takes m.next) counted inv measure) :
    Lowers (Takes m.turn) (Acts counted) (fun w => inv w.state ∧ m.Awake w) (fun w => measure w.state) where
  kept w t w' holds taken := by
    refine ⟨?_,holds.2.step notifies holds.1 taken⟩
    rcases turn_cases taken with ⟨l,_,step,_⟩ | ⟨same,_⟩
    · exact lowers.kept _ l _ holds.1 step
    · rw [same]
      exact holds.1
  level w t w' holds taken := by
    rcases turn_cases taken with ⟨l,_,step,_⟩ | ⟨same,_⟩
    · exact lowers.level _ l _ holds.1 step
    · exact Nat.le_of_eq (congrArg measure same)
  lower w t w' holds taken acts := by
    obtain ⟨l,rfl,moved⟩ := acts
    rcases turn_cases taken with ⟨l',same,step,_⟩ | ⟨_,other,_⟩
    · cases same
      exact lowers.lower _ l _ holds.1 step moved
    · exact absurd rfl (other l)

end Monitor
end WVmm.Lib.Runs
