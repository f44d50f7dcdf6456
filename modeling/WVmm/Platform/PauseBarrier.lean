import WVmm.Platform.Cpus

/-! The pause barrier: once `pause` has returned `Paused`, no worker touches the
guest or its registers until `resume` or `stop`. -/
namespace WVmm.Platform.Cpus
open Lib.Runs

variable {n : Nat}

/-- A worker in the guest is marked as running, a held machine is paused with no
worker running, and the machine stays paused while `pause` waits. -/
structure Barrier (s : Sys n) : Prop where
  marked : ∀ i, (s.pc i).active = true → s.shared.running i = true
  quiet : s.held = true → s.shared.paused = true ∧ ∀ i, s.shared.running i = false
  waiting : s.pausing = true → s.shared.paused = true

theorem barrier_new (n : Nat) : Barrier (Sys.new n) :=
  ⟨by simp [Sys.new,Pc.active],by simp [Sys.new],by simp [Sys.new]⟩

namespace Barrier

variable {s : Sys n}

theorem inactive (barrier : Barrier s) (held : s.held = true) (i : Fin n) :
    (s.pc i).active = false := by
  by_contra active
  have running := barrier.marked i (by simpa using active)
  rw [(barrier.quiet held).2 i] at running
  cases running

/-- A worker that moves on without leaving or entering the guest. -/
theorem goto (barrier : Barrier s) (i : Fin n) (pc : Pc)
    (entered : pc.active = true → (s.pc i).active = true) (events : List (Event n)) :
    Barrier {(s.goto i pc) with events := events} := by
  refine ⟨?_,barrier.quiet,barrier.waiting⟩
  intro j active
  by_cases same : j = i
  · subst same
    simp only [Sys.goto,Function.update_self] at active
    exact barrier.marked j (entered active)
  · simp only [Sys.goto,Function.update_of_ne same] at active
    exact barrier.marked j active

theorem leave (barrier : Barrier s) (i : Fin n) (pc : Pc) (out : pc.active = false)
    (shared : State n) (running : shared.running = Function.update s.shared.running i false)
    (paused : shared.paused = s.shared.paused) (events : List (Event n)) :
    Barrier {(s.goto i pc) with shared := shared, events := events} := by
  refine ⟨?_,?_,fun inside => paused.trans (barrier.waiting inside)⟩
  · intro j active
    by_cases same : j = i
    · subst same
      simp only [Sys.goto,Function.update_self,out] at active
      cases active
    · simp only [Sys.goto,Function.update_of_ne same] at active
      rw [running,Function.update_of_ne same]
      exact barrier.marked j active
  · intro held
    obtain ⟨pausedBefore,quiet⟩ := barrier.quiet held
    refine ⟨paused.trans pausedBefore,?_⟩
    intro j
    rw [running]
    by_cases same : j = i
    · rw [same,Function.update_self]
    · rw [Function.update_of_ne same]
      exact quiet j

/-- A worker that marks itself as running, which needs a machine that is not
paused. -/
theorem run (barrier : Barrier s) (i : Fin n) (pc : Pc) (released : s.shared.paused = false)
    (shared : State n) (running : shared.running = Function.update s.shared.running i true)
    (paused : shared.paused = s.shared.paused) (boots : List (Fin n × Nat × Nat)) :
    Barrier {(s.goto i pc) with shared := shared, boots := boots} := by
  refine ⟨?_,?_,fun inside => paused.trans (barrier.waiting inside)⟩
  · intro j active
    by_cases same : j = i
    · rw [running,same,Function.update_self]
    · simp only [Sys.goto,Function.update_of_ne same] at active
      rw [running,Function.update_of_ne same]
      exact barrier.marked j active
  · intro held
    rw [(barrier.quiet held).1] at released
    cases released

theorem shared (barrier : Barrier s) (shared : State n)
    (running : shared.running = s.shared.running) (paused : shared.paused = s.shared.paused) :
    Barrier {s with shared := shared} := by
  refine ⟨?_,?_,fun inside => paused.trans (barrier.waiting inside)⟩
  · intro i active
    rw [running]
    exact barrier.marked i active
  · intro held
    rw [running,paused]
    exact barrier.quiet held

/-- The loop top enters the guest only when the machine is not paused. -/
theorem lockTop (barrier : Barrier s) (i : Fin n) : Barrier (s.lockTop i) := by
  unfold Sys.lockTop
  split
  · exact barrier.leave i .returned rfl (s.shared.setRunning i false) rfl rfl s.events
  · split
    · exact barrier.leave i .top rfl (s.shared.setRunning i false) rfl rfl s.events
    · rename_i ready
      simp only [Bool.or_eq_true,not_or,Bool.not_eq_true] at ready
      split
      · exact barrier.run i .guest ready.1.2 ((s.shared.setPower i .on).setRunning i true) rfl rfl _
      · exact barrier.run i .guest ready.1.2 (s.shared.setRunning i true) rfl rfl s.boots

theorem enter (barrier : Barrier s) (i : Fin n) (call : Hypercall) (calling : s.pc i = .calling call) :
    Barrier (s.enter i call) := by
  have active : (s.pc i).active = true := by rw [calling]; rfl
  have moved : ∀ pc, Barrier (s.goto i pc) := fun pc => barrier.goto i pc (fun _ => active) s.events
  cases call with
  | cpuOff => exact (moved .top).shared _ rfl rfl
  | cpuOn target entry context =>
    have kept : (s.shared.on target entry context).2.running = s.shared.running ∧
        (s.shared.on target entry context).2.paused = s.shared.paused := by
      unfold State.on
      split
      · split
        · exact ⟨rfl,rfl⟩
        · split <;> exact ⟨rfl,rfl⟩
      · exact ⟨rfl,rfl⟩
    exact (moved _).shared _ kept.1 kept.2
  | affinityInfo target level => exact moved _
  | systemOff => exact (moved .returned).shared _ rfl rfl

/-- `pause` returns `Paused` only when no worker is marked as running. -/
theorem pauseDone (barrier : Barrier s) (inside : s.pausing = true) {t : Sys n}
    (done : s.pauseDone = some t) : Barrier t := by
  unfold Sys.pauseDone at done
  split at done
  · cases done
    exact ⟨barrier.marked,barrier.quiet,fun _ => barrier.waiting inside⟩
  · split at done
    · cases done
    · rename_i quiet
      cases done
      refine ⟨barrier.marked,fun _ => ⟨barrier.waiting inside,?_⟩,fun _ => barrier.waiting inside⟩
      intro i
      by_contra running
      exact quiet (decide_eq_true ⟨i,by simpa using running⟩)

theorem completeIo (barrier : Barrier s) (i : Fin n) {t : Sys n}
    (done : s.completeIo i = some t) : Barrier t := by
  unfold Sys.completeIo at done
  split at done
  · cases done
    exact barrier.goto i .returned (by simp [Pc.active]) s.events
  · split at done
    · cases done
    · rename_i released
      cases done
      exact barrier.run i .writeBack (by simpa using released) (s.shared.setRunning i true) rfl rfl s.boots

theorem step (barrier : Barrier s) (l : Label n) {t : Sys n} (taken : s.next l = some t) :
    Barrier t := by
  have stays : ∀ i pc, (s.pc i).active = true → ∀ events,
      Barrier {(s.goto i pc) with events := events} :=
    fun i pc active events => barrier.goto i pc (fun _ => active) events
  have leaves : ∀ i pc, pc.active = false → ∀ events,
      Barrier {(s.goto i pc) with events := events} :=
    fun i pc out events => barrier.goto i pc (fun active => by rw [out] at active; cases active) events
  cases l with simp only [Sys.next] at taken
  | lockTop i =>
    obtain ⟨_,rfl⟩ := guarded taken
    exact barrier.lockTop i
  | bootFails i =>
    split at taken
    · obtain ⟨_,rfl⟩ := guarded taken
      exact barrier.leave i .returned rfl (s.shared.setRunning i false) rfl rfl _
    · cases taken
  | exit i =>
    obtain ⟨here,rfl⟩ := guarded taken
    exact stays i .exited (by rw [here]; rfl) s.events
  | check i =>
    obtain ⟨here,rfl⟩ := guarded taken
    exact stays i _ (by rw [here]; rfl) s.events
  | again i =>
    obtain ⟨here,rfl⟩ := guarded taken
    exact stays i .top (by rw [here]; rfl) s.events
  | hypercall i call =>
    obtain ⟨here,rfl⟩ := guarded taken
    exact stays i (.calling call) (by rw [here]; rfl) _
  | answer i value =>
    obtain ⟨here,rfl⟩ := guarded taken
    exact stays i (.result value) (by rw [here]; rfl) s.events
  | enter i =>
    split at taken
    · rename_i call here
      cases taken
      exact barrier.enter i call here
    · cases taken
  | setResult i =>
    split at taken
    · cases taken
      exact leaves i .top rfl s.events
    · cases taken
  | access i =>
    obtain ⟨here,rfl⟩ := guarded taken
    exact stays i .queued (by rw [here]; rfl) _
  | waitIo i =>
    obtain ⟨_,rfl⟩ := guarded taken
    exact barrier.leave i .awaiting rfl (s.shared.setRunning i false) rfl rfl s.events
  | receive i =>
    obtain ⟨_,rfl⟩ := guarded taken
    exact leaves i .replied rfl s.events
  | cancelled i =>
    obtain ⟨_,rfl⟩ := guarded taken
    exact leaves i .returned rfl s.events
  | completeIo i =>
    split at taken
    · exact barrier.completeIo i taken
    · cases taken
  | writeBack i =>
    obtain ⟨_,rfl⟩ := guarded taken
    exact leaves i .top rfl s.events
  | fail i =>
    obtain ⟨_,rfl⟩ := guarded taken
    exact leaves i .returned rfl _
  | leave i =>
    obtain ⟨_,rfl⟩ := guarded taken
    exact barrier.leave i .draining rfl {(s.shared.setRunning i false) with stop := true} rfl rfl s.events
  | destroy i =>
    obtain ⟨_,rfl⟩ := guarded taken
    exact leaves i .gone rfl s.events
  | start entry dtb =>
    split at taken
    · cases taken
    · split at taken
      · cases taken
        exact barrier.shared _ rfl rfl
      · cases taken
  | pause =>
    obtain ⟨_,rfl⟩ := unguarded taken
    exact ⟨barrier.marked,fun held => ⟨rfl,(barrier.quiet held).2⟩,fun _ => rfl⟩
  | pauseDone =>
    obtain ⟨inside,done⟩ := Option.ite_none_right_eq_some.mp taken
    exact barrier.pauseDone inside done
  | resume =>
    obtain ⟨outside,rfl⟩ := unguarded taken
    exact ⟨barrier.marked,by simp,fun inside => absurd inside outside⟩
  | stop =>
    obtain ⟨_,rfl⟩ := unguarded taken
    exact ⟨barrier.marked,by simp,barrier.waiting⟩

end Barrier

theorem barrier_reached {s : Sys n} (reached : Reaches (Takes Sys.next) (Sys.new n) s) : Barrier s :=
  reached.invariant (barrier_new n) (fun _ l _ barrier taken => barrier.step l taken)

theorem lockTop_held (s : Sys n) (i : Fin n) : (s.lockTop i).held = s.held := by
  unfold Sys.lockTop
  split
  · rfl
  · split
    · rfl
    · split <;> rfl

theorem enter_held (s : Sys n) (i : Fin n) (call : Hypercall) : (s.enter i call).held = s.held := by
  cases call <;> rfl

theorem completeIo_held {s t : Sys n} {i : Fin n} (done : s.completeIo i = some t) :
    t.held = s.held := by
  unfold Sys.completeIo at done
  split at done
  · cases done
    rfl
  · split at done <;> cases done
    rfl

theorem pauseDone_held {s t : Sys n} (held : s.held = true) (done : s.pauseDone = some t) :
    t.held = true := by
  unfold Sys.pauseDone at done
  split at done
  · cases done
    exact held
  · split at done <;> cases done
    rfl

/-- Only `resume` and `stop` end a hold. -/
theorem held_kept {s t : Sys n} (l : Label n) (taken : s.next l = some t) (held : s.held = true)
    (resume : l ≠ .resume) (stop : l ≠ .stop) : t.held = true := by
  cases l with simp only [Sys.next] at taken
  | resume => exact absurd rfl resume
  | stop => exact absurd rfl stop
  | lockTop i =>
    obtain ⟨_,rfl⟩ := guarded taken
    exact (lockTop_held s i).trans held
  | completeIo i =>
    obtain ⟨_,done⟩ := Option.ite_none_right_eq_some.mp taken
    exact (completeIo_held done).trans held
  | pauseDone =>
    obtain ⟨_,done⟩ := Option.ite_none_right_eq_some.mp taken
    exact pauseDone_held held done
  | bootFails i =>
    split at taken
    · split at taken <;> cases taken
      exact held
    · cases taken
  | start entry dtb =>
    split at taken
    · cases taken
    · split at taken <;> cases taken
      exact held
  | enter i =>
    split at taken <;> cases taken
    exact (enter_held s i _).trans held
  | setResult i | pause | exit i | check i | again i | hypercall i call | answer i value | access i
  | waitIo i | receive i | cancelled i | writeBack i | fail i | leave i | destroy i =>
    split at taken <;> cases taken
    exact held

/-- Once `pause` has returned `Paused` and until the next `resume` or `stop`, no
worker is in guest execution, exit decoding, register access or write-back, no
step carries such work out, and no step begins any. -/
theorem pause_barrier {s : Sys n} (reached : Reaches (Takes Sys.next) (Sys.new n) s)
    (held : s.held = true) :
    (∀ i, (s.pc i).active = false) ∧
    ∀ l t, s.next l = some t → l ≠ .resume → l ≠ .stop →
      l.activity = none ∧ t.held = true ∧ ∀ i, (t.pc i).active = false := by
  have barrier := barrier_reached reached
  refine ⟨barrier.inactive held,?_⟩
  intro l t taken resume stop
  have heldAfter := held_kept l taken held resume stop
  refine ⟨?_,heldAfter,(barrier.step l taken).inactive heldAfter⟩
  -- A step of activity starts at a worker that is in the guest.
  have idle : ∀ i pc, pc.active = true → s.pc i ≠ pc := by
    rintro i _ active rfl
    rw [barrier.inactive held i] at active
    cases active
  cases l with simp only [Sys.next] at taken
  | bootFails i =>
    have paused := (barrier.quiet held).1
    split at taken
    · have runs := (guarded taken).1.2.2.2
      rw [paused] at runs
      cases runs
    · cases taken
  | exit i => exact absurd (guarded taken).1 (idle i .guest rfl)
  | again i | hypercall i call | answer i value | access i =>
    exact absurd (guarded taken).1 (idle i .decode rfl)
  | writeBack i => exact absurd (guarded taken).1 (idle i .writeBack rfl)
  | setResult i =>
    split at taken
    · exact absurd ‹_› (idle i _ rfl)
    · cases taken
  | _ => rfl

/-- Two vCPUs; the first runs when the controller pauses, waits for an access
and gets its reply during the hold, while the second is powered on. -/
def sampleLabels : List (Label 2) :=
  [.start 0x8000 0,.lockTop 0,.exit 0,.check 0,.hypercall 0 (.cpuOn 1 0x9000 7),.enter 0,.setResult 0,
    .lockTop 0,.exit 0,.check 0,.access 0,.pause,.waitIo 0,.pauseDone,.receive 0,.lockTop 1]

theorem pause_barrier_sample :
    ∃ s, run Sys.next sampleLabels (Sys.new 2) = some s ∧ s.held = true ∧ s.pc 0 = .replied ∧
      s.shared.power 1 = .pending 0x9000 7 ∧ ∀ i, (s.pc i).active = false := by
  refine ⟨_,rfl,rfl,rfl,rfl,?_⟩
  exact (pause_barrier (reaches_of_run sampleLabels rfl) rfl).1

end WVmm.Platform.Cpus
