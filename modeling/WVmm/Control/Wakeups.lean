import WVmm.Control.Progress
import WVmm.Lib.Monitor

/-! The condition variable of the control state. The VMM thread waits for it while the VM is
paused, and every `stop` waits for it until the VM is stopped. -/
namespace WVmm.Control
open Lib.Runs

inductive Waiter
  | vmm
  | stop (k : Nat)
deriving DecidableEq

namespace Sys

def blocked (s : Sys) : Waiter → Bool
  | .vmm => match s.pc with
    | .waiting => s.state.waits
    | _ => false
  | .stop k => decide (k < s.waiting) && !decide (s.state.lifecycle = .stopped)

/-- The sections that call `notify_all`: an accepted request or stop, `reject_stopping` and
`finish`. -/
def notifies (l : Label) (s : Sys) : Bool :=
  match l with
  | .submit thread operation => (s.state.submit thread ⟨operation,s.accepted⟩).isOk
  | .stop thread => (s.state.stop thread).isOk
  | .vmm _ => match s.pc with
    | .rejecting _ | .finishing _ _ => true
    | _ => false
  | _ => false

/-- The waiter that takes a step. Those in `stop` are alike; the last one returns. -/
def waiter (l : Label) (s : Sys) : Option Waiter :=
  match l with
  | .vmm _ | .panic => some .vmm
  | .stopReturns => some (.stop (s.waiting - 1))
  | _ => none

end Sys

def monitor (m : Machine) : Monitor Sys Label Waiter where
  next := Sys.next m
  thread := Sys.waiter
  notifies := Sys.notifies
  blocked := Sys.blocked

section Steps
variable {m : Machine} {s t : Sys}

/-- A step of the VMM thread that ends the wait of a `stop` is `finish`. -/
theorem vmm_stopped (step : VmmStep m s t) (alive : s.state.lifecycle ≠ .stopped)
    (quiet : ∀ outcome dropping, s.pc ≠ .finishing outcome dropping) : t.state.lifecycle ≠ .stopped := by
  cases step with
  | silent silent => rwa [silent.state]
  | running here =>
    rcases s.state.running_cases with ⟨_,runs⟩ | ⟨_,same⟩
    · simp [Sys.locked,runs]
    · simpa [Sys.locked,same] using alive
  | answered r outcome here =>
    cases outcome with
    | error e => exact alive
    | ok =>
      rcases s.state.complete_cases m.diagnostic r with ⟨_,same⟩ | ⟨_,moved⟩
      · simpa [Sys.answer,Sys.locked,Sys.record,same] using alive
      · rcases State.served_cases r.operation with running | paused
        · simp [Sys.answer,Sys.locked,Sys.record,moved,running]
        · simp [Sys.answer,Sys.locked,Sys.record,moved,paused]
  | rejected r here => simp [Sys.locked,Sys.leave,State.rejectStopping,State.cancel,State.setLifecycle,State.lifecycle]
  | cleaning here => simp [Sys.locked,State.cleaning,State.cancel,State.setLifecycle,State.lifecycle]
  | finished outcome dropping here => exact absurd here (quiet outcome dropping)
  | _ => exact alive

theorem quiet_stop {thread : Nat} (quiet : s.notifies (.stop thread) = false) : s.hostStop thread = s := by
  simp only [Sys.notifies] at quiet
  unfold Sys.hostStop
  split
  · rfl
  · rename_i accepted
    rw [accepted] at quiet
    cases quiet

theorem quiet_submit {thread : Nat} {operation : Operation} (quiet : s.notifies (.submit thread operation) = false) :
    s.hostSubmit thread operation = s := by
  simp only [Sys.notifies] at quiet
  unfold Sys.hostSubmit
  split
  · rfl
  · rename_i accepted
    rw [accepted] at quiet
    cases quiet

/-- A step that does not notify leaves a `stop` waiting. -/
theorem stop_waits {l : Label} {k : Nat} (mapped : Mapped m s) (taken : s.next m l = some t)
    (waits : s.blocked (.stop k) = true) (quiet : s.notifies l = false) : t.blocked (.stop k) = true := by
  have kept : t.waiting = s.waiting → t.state.lifecycle ≠ .stopped → t.blocked (.stop k) = true := by
    intro waiting alive
    simp only [Sys.blocked,Bool.and_eq_true,decide_eq_true_eq] at waits ⊢
    simp [waiting,waits.1,alive]
  have alive : s.state.lifecycle ≠ .stopped := by
    simp only [Sys.blocked,Bool.and_eq_true] at waits
    simpa using waits.2
  cases l with
  | submit thread operation =>
    cases taken
    rw [quiet_submit quiet]
    exact waits
  | stop thread =>
    cases taken
    rw [quiet_stop quiet]
    exact waits
  | stopReturns =>
    obtain ⟨⟨_,stopped⟩,_⟩ := guarded taken
    exact absurd stopped alive
  | status | setRequested mib =>
    cases taken
    exact kept rfl alive
  | begin thread =>
    simp only [Sys.next] at taken
    split at taken
    · cases taken
      have begun : (s.beginRun thread).waiting = s.waiting ∧ (s.beginRun thread).state.lifecycle ≠ .stopped := by
        unfold Sys.beginRun
        split
        · exact ⟨rfl,alive⟩
        · rename_i after accepted
          obtain ⟨_,rfl⟩ := State.begin_accepted accepted
          exact ⟨rfl,by simp [State.setLifecycle,State.lifecycle]⟩
      exact kept begun.1 begun.2
    · cases taken
  | drop panicking | dropFails =>
    simp only [Sys.next] at taken
    split at taken
    · cases taken
      exact kept rfl alive
    · cases taken
  | vmm a =>
    refine kept (vmm_sinks mapped taken).1.2 (vmm_stopped (vmm_cases taken) alive ?_)
    intro outcome dropping here
    simp only [Sys.notifies,here] at quiet
    cases quiet
  | panic =>
    obtain ⟨_,rfl⟩ := guarded taken
    exact kept rfl alive

/-- A step of a client that does not notify leaves a paused VM waiting. -/
theorem vmm_waits {l : Label} (taken : s.next m l = some t) (other : s.waiter l ≠ some .vmm) (waits : s.blocked .vmm = true)
    (quiet : s.notifies l = false) : t.blocked .vmm = true := by
  have here : s.pc = .waiting := by
    simp only [Sys.blocked] at waits
    split at waits
    · assumption
    · cases waits
  cases l with
  | submit thread operation =>
    cases taken
    rw [quiet_submit quiet]
    exact waits
  | stop thread =>
    cases taken
    rw [quiet_stop quiet]
    exact waits
  | stopReturns =>
    obtain ⟨_,rfl⟩ := guarded taken
    exact waits
  | status | setRequested mib =>
    cases taken
    exact waits
  | begin thread | drop panicking | dropFails =>
    simp only [Sys.next,here] at taken
    cases taken
  | vmm a | panic => exact absurd rfl other

theorem blocked_stopped {k : Nat} (stopped : s.state.lifecycle = .stopped) : s.blocked (.stop k) = false := by
  simp [Sys.blocked,stopped]

/-- What waits has no step but a panic. -/
theorem next_free {l : Label} (taken : s.next m l = some t) (calm : l ≠ .panic) (i : Waiter) (own : i ∈ s.waiter l) :
    s.blocked i = false := by
  cases l with
  | vmm a =>
    cases own
    refine Bool.eq_false_iff.mpr fun waits => ?_
    simp only [Sys.blocked] at waits
    split at waits
    · rename_i here
      simp only [Sys.next,Sys.vmm,here,Sys.part,Sys.requestStep,waits,if_true] at taken
      cases taken
    · cases waits
  | stopReturns =>
    cases own
    obtain ⟨⟨_,stopped⟩,_⟩ := guarded taken
    exact blocked_stopped stopped
  | panic => exact absurd rfl calm
  | _ => cases own

theorem monitor_notifies : (monitor m).Notifies (Mapped m) := by
  intro l s t i mapped taken other waits quiet
  cases i with
  | vmm => exact vmm_waits taken other waits quiet
  | stop k => exact stop_waits mapped taken waits quiet

def AwakeReady (m : Machine) (w : Waits Sys Waiter) : Prop :=
  ∃ a w', (monitor m).turn (.act (.vmm a)) w = some w' ∧ w'.state.pc ≠ w.state.pc

theorem over_awake {error : Option String} {w : Waits Sys Waiter} (awake : (monitor m).Awake w)
    (ended : Over m error w.state)
    (i : Waiter) : w.asleep i = false := by
  refine Bool.eq_false_iff.mpr fun asleep => ?_
  have waits := awake i asleep
  cases i with
  | vmm =>
    simp only [monitor,Sys.blocked,ended.gone] at waits
    cases waits
  | stop k =>
    have free : (monitor m).blocked w.state (.stop k) = false := blocked_stopped ended.stopped
    rw [free] at waits
    cases waits

end Steps

/-- No wakeup is lost. Whoever sleeps on the condition variable is the VMM thread of a paused
VM without requests or a `stop` of a VM that is not stopped, and any step that does not wait
can be taken. Once the VM is stopping, every run in which the VMM thread moves on when it
can ends with nobody asleep and every `stop` returning one and the same outcome. -/
theorem no_control_wakeup_lost (m : Machine) (memory : Option MemoryStatus) {w : Waits Sys Waiter}
    (reached : Reaches (Takes (monitor m).turn) (Monitor.start (Sys.new memory)) w) :
    (∀ i, w.asleep i = true → w.state.blocked i = true) ∧
    (∀ l t, l ≠ .panic → w.state.next m l = some t → ∃ w', (monitor m).turn (.act l) w = some w' ∧ w'.state = t) ∧
    (w.state.state.lifecycle = .stopping → ∀ turns, turns 0 = w →
      Fair (Takes (monitor m).turn) (Monitor.Acts Sys.Moves) (AwakeReady m) turns →
        ∃ n error, ∀ k, n ≤ k → Over m error (turns k).state ∧ ∀ i, (turns k).asleep i = false) := by
  have kept : ∀ s l t, Mapped m s → s.next m l = some t → Mapped m t := fun s l t mapped taken => mapped.step l taken
  have unmapped : Mapped m (Sys.new memory) := rfl
  have awake := Monitor.awake_reached monitor_notifies unmapped kept reached
  refine ⟨awake,fun l t calm taken => awake.acts taken (next_free taken calm),?_⟩
  intro stopping turns first fair
  have above : Reaches (Takes (Sys.next m)) (Sys.new memory) w.state := Monitor.projects reached
  have lowers := Monitor.lowers (m := monitor m) (monitor_notifies.mono fun _ ending => ending.mapped) Ending.lowers
  have start : Ending m (turns 0).state ∧ (monitor m).Awake (turns 0) := by
    rw [first]
    exact ⟨ending_of above stopping,awake⟩
  obtain ⟨n,gone⟩ := lowers.settles (fun w => w.state.pc = .gone) fair start (by
    intro w holds alive
    obtain ⟨a,t,taken,moved⟩ := holds.1.ready alive
    have step : (monitor m).next (.vmm a) w.state = some t := taken
    obtain ⟨w',turn,same⟩ := holds.2.acts step (next_free (l := .vmm a) taken (by simp))
    exact ⟨a,w',turn,by rwa [same]⟩)
  have holds := fun k => lowers.inv_reached start (fair.reaches k)
  have steps : ∀ k, (turns (k + 1)).state = (turns k).state ∨
      ∃ l, (turns k).state.next m l = some (turns (k + 1)).state := by
    intro k
    rcases fair.steps k with same | ⟨t,taken⟩
    · exact .inl (congrArg Waits.state same)
    · rcases Monitor.turn_cases taken with ⟨l,_,step,_⟩ | ⟨same,_⟩
      · exact .inr ⟨l,step⟩
      · exact .inl same
  obtain ⟨error,ended⟩ := over_from steps (fun k => (holds k).1) gone
  exact ⟨n,error,fun k later => ⟨ended k later,over_awake (holds k).2 (ended k later)⟩⟩

/-- A client pauses the VM, and the VMM thread falls asleep. -/
def asleepTurns : List (Turn Label Waiter) :=
  [.act (.begin 0)] ++ List.replicate 13 (.act (.vmm .ok)) ++ [.act (.submit 1 .pause)] ++
    List.replicate 6 (.act (.vmm .ok)) ++ [.sleep .vmm]

theorem no_control_wakeup_lost_paused : ∃ v w u,
    run (monitor sampleMachine).turn asleepTurns (Monitor.start (Sys.new none)) = some v ∧
    v.asleep .vmm = true ∧ v.state.blocked .vmm = true ∧
    (monitor sampleMachine).turn (.act (.stop 2)) v = some w ∧ w.state.state.lifecycle = .stopping ∧
    (monitor sampleMachine).turn (.act (.vmm .ok)) w = some u ∧ u.state.pc = .head := by
  obtain ⟨v,w,t,ran,asleep,stop,stopping,taken,head⟩ : ∃ v w t,
      run (monitor sampleMachine).turn asleepTurns (Monitor.start (Sys.new none)) = some v ∧ v.asleep .vmm = true ∧
      (monitor sampleMachine).turn (.act (.stop 2)) v = some w ∧ w.state.state.lifecycle = .stopping ∧
      w.state.next sampleMachine (.vmm .ok) = some t ∧ t.pc = .head := ⟨_,_,_,rfl,rfl,rfl,rfl,rfl,rfl⟩
  have reached := reaches_of_run asleepTurns ran
  have later := no_control_wakeup_lost sampleMachine none (reached.tail (.act (.stop 2)) stop)
  obtain ⟨u,turn,same⟩ := later.2.1 (.vmm .ok) t (by simp) taken
  exact ⟨v,w,u,ran,asleep,(no_control_wakeup_lost sampleMachine none reached).1 .vmm asleep,stop,stopping,turn,
    by rw [same,head]⟩

end WVmm.Control
