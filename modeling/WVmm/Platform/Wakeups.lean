import WVmm.Lib.Monitor
import WVmm.Platform.Progress

/-! The condition variable of the vCPUs. A worker waits for it at the loop top and, with a
reply in hand, in `complete_io`; every other wait has a timeout. Whoever makes something of
what these two wait for come true notifies, so none of them sleeps longer than it has to. -/
namespace WVmm.Platform.Cpus
open Lib.Runs

variable {n : Nat}

namespace Sys

/-- The worker is at a wait, and what it waits for does not hold. It clears its flag before
it waits. -/
def blocked (s : Sys n) (i : Fin n) : Bool :=
  !s.shared.stop && !s.shared.running i && match s.pc i with
    | .top => !s.shared.started || s.shared.paused || s.shared.power i == .off
    | .replied => s.shared.paused
    | _ => false

/-- The sections that end with `notify_all`. The loop top notifies when a worker comes to
it, which is left out where the worker had no flag to clear. -/
def notifies (l : Label n) (s : Sys n) : Bool :=
  match l with
  | .lockTop i => s.shared.running i
  | .enter i => match s.pc i with
    | .calling (.cpuOn target entry context) => (s.shared.on target entry context).1 == 0
    | .calling .systemOff => true
    | _ => false
  | .waitIo _ | .leave _ | .start _ _ | .resume | .stop => true
  | _ => false

end Sys

structure Waiting (s t : Sys n) (i : Fin n) : Prop where
  stop : t.shared.stop = s.shared.stop
  started : t.shared.started = s.shared.started
  paused : s.shared.paused = true → t.shared.paused = true
  power : t.shared.power i = s.shared.power i

section Steps
variable {s t : Sys n} {i : Fin n}

theorem waiting_same (same : t.shared = s.shared) : Waiting s t i :=
  ⟨by rw [same],by rw [same],by rw [same]; exact id,by rw [same]⟩

theorem waiting_flag {j : Fin n} {b : Bool} (same : t.shared = s.shared.setRunning j b) : Waiting s t i :=
  ⟨by rw [same]; rfl,by rw [same]; rfl,by rw [same]; exact id,by rw [same]; rfl⟩

theorem lockTop_waiting {j : Fin n} (other : i ≠ j) : Waiting s (s.lockTop j) i := by
  unfold Sys.lockTop
  split
  · exact waiting_flag rfl
  · split
    · exact waiting_flag rfl
    · split
      · exact ⟨rfl,rfl,id,Function.update_of_ne other _ _⟩
      · exact waiting_flag rfl

theorem on_waiting {target entry context : Nat} (failed : (s.shared.on target entry context).1 ≠ 0) :
    (s.shared.on target entry context).2 = s.shared := by
  have outcome := s.shared.on_cases target entry context
  generalize s.shared.on target entry context = answer at outcome failed ⊢
  cases outcome with
  | success => exact absurd rfl failed
  | _ => rfl

theorem enter_waiting {j : Fin n} {call : Hypercall} (other : i ≠ j) (before : s.pc j = .calling call)
    (quiet : s.notifies (.enter j) = false) : Waiting s (s.enter j call) i := by
  simp only [Sys.notifies,before] at quiet
  cases call with
  | cpuOff => exact ⟨rfl,rfl,id,Function.update_of_ne other _ _⟩
  | cpuOn target entry context => exact waiting_same (on_waiting (by simpa using quiet))
  | affinityInfo target level => exact waiting_same rfl
  | systemOff => cases quiet

/-- A step that does not notify leaves the other workers with what they wait for. -/
theorem next_waiting {l : Label n} (taken : s.next l = some t) (other : l.worker ≠ some i)
    (quiet : s.notifies l = false) : Waiting s t i := by
  have apart : ∀ j, l.worker = some j → i ≠ j := by
    rintro j own rfl
    exact other own
  cases l with simp only [Sys.next] at taken
  | lockTop j =>
    obtain ⟨_,rfl⟩ := guarded taken
    exact lockTop_waiting (apart j rfl)
  | bootFails j =>
    split at taken
    · obtain ⟨_,rfl⟩ := guarded taken
      exact waiting_flag rfl
    · cases taken
  | enter j =>
    split at taken
    · cases taken
      exact enter_waiting (apart j rfl) ‹_› quiet
    · cases taken
  | setResult j =>
    split at taken
    · cases taken
      exact waiting_same rfl
    · cases taken
  | completeIo j =>
    obtain ⟨_,done⟩ := Option.ite_none_right_eq_some.mp taken
    unfold Sys.completeIo at done
    split at done
    · cases done
      exact waiting_same rfl
    · obtain ⟨_,rfl⟩ := unguarded done
      exact waiting_flag rfl
  | pause =>
    obtain ⟨_,rfl⟩ := unguarded taken
    exact ⟨rfl,rfl,fun _ => rfl,rfl⟩
  | pauseDone =>
    obtain ⟨_,done⟩ := Option.ite_none_right_eq_some.mp taken
    unfold Sys.pauseDone at done
    split at done
    · cases done
      exact waiting_same rfl
    · obtain ⟨_,rfl⟩ := unguarded done
      exact waiting_same rfl
  | waitIo j | leave j | start entry dtb | resume | stop => cases quiet
  | exit j | check j | again j | hypercall j call | answer j value | access j | receive j | cancelled j | writeBack j
  | fail j | destroy j =>
    obtain ⟨_,rfl⟩ := guarded taken
    exact waiting_same rfl

theorem Waiting.blocked (waiting : Waiting s t i) (pc : t.pc i = s.pc i)
    (running : t.shared.running i = s.shared.running i) (blocked : s.blocked i = true) : t.blocked i = true := by
  unfold Sys.blocked at blocked ⊢
  rw [waiting.stop,running,pc,waiting.started,waiting.power]
  cases paused : s.shared.paused with
  | true =>
    rw [paused] at blocked
    rwa [waiting.paused paused]
  | false =>
    simp only [Bool.and_eq_true] at blocked ⊢
    refine ⟨blocked.1,?_⟩
    have condition := blocked.2
    rw [paused] at condition
    split at condition
    · simp only [Bool.or_false] at condition
      rw [Bool.or_right_comm,condition,Bool.true_or]
    · cases condition
    · cases condition

/-- A worker that waits goes on waiting until somebody notifies. -/
theorem next_blocked {l : Label n} (taken : s.next l = some t) (other : l.worker ≠ some i)
    (blocked : s.blocked i = true) (quiet : s.notifies l = false) : t.blocked i = true :=
  (next_waiting taken other quiet).blocked ((next_does taken).pc_other other) ((next_does taken).running_other other) blocked

end Steps

namespace Fleet

def monitor (n : Nat) : Monitor (Fleet n) (Act n) (Fin n) where
  next := Fleet.next
  thread a _ := match a with
    | .create i | .drop i => some i
    | .work l => l.worker
  notifies a f := match a with
    | .create _ | .drop _ => false
    | .work l => f.sys.notifies l
  blocked f i := f.vcpu i == .live && f.sys.blocked i

theorem monitor_notifies (inv : Fleet n → Prop) : (monitor n).Notifies inv := by
  intro a f g i _ taken other blocked quiet
  obtain ⟨live,waits⟩ := Bool.and_eq_true_iff.mp blocked
  cases a with
  | create j | drop j =>
    obtain ⟨_,rfl⟩ := guarded taken
    have apart : i ≠ j := by
      rintro rfl
      exact other rfl
    refine Bool.and_eq_true_iff.mpr ⟨?_,waits⟩
    simpa only [Function.update_of_ne apart] using live
  | work l =>
    obtain ⟨_,ran⟩ := Option.ite_none_right_eq_some.mp taken
    obtain ⟨s,step,rfl⟩ := Option.map_eq_some_iff.mp ran
    exact Bool.and_eq_true_iff.mpr ⟨live,next_blocked step other waits quiet⟩

/-- A thread of a vCPU that is awake can take a step that nobody can withhold. -/
def AwakeReady (w : Waits (Fleet n) (Fin n)) : Prop :=
  ∃ a w', a.ofWorker = true ∧ a.certain = true ∧ (monitor n).turn (.act a) w = some w'

/-- Nobody sleeps once the machine stops. -/
theorem stop_awake {w : Waits (Fleet n) (Fin n)} (awake : (monitor n).Awake w) (stop : w.state.sys.shared.stop = true)
    (i : Fin n) : w.asleep i = false := by
  refine Bool.eq_false_iff.mpr fun asleep => ?_
  have blocked := (Bool.and_eq_true_iff.mp (awake i asleep)).2
  simp [Sys.blocked,stop] at blocked

/-- No wakeup is lost. Whoever sleeps on the condition variable is a worker that waits at
the loop top or for the end of a pause, and what it waits for does not hold; any other
thread takes every step that its next section allows. Once the machine stops nobody sleeps,
and in every run in which the threads that are awake and can move do move, no vCPU is live
from some point on. -/
theorem no_vcpu_wakeup_lost {w : Waits (Fleet n) (Fin n)}
    (reached : Reaches (Takes (monitor n).turn) (Monitor.start (Fleet.new n)) w) :
    (∀ i, w.asleep i = true → w.state.sys.blocked i = true) ∧
    (∀ a g, w.state.next a = some g → (∀ i ∈ (monitor n).thread a w.state, (monitor n).blocked w.state i = false) →
      ∃ w', (monitor n).turn (.act a) w = some w' ∧ w'.state = g) ∧
    (w.state.sys.shared.stop = true → (∀ i, w.asleep i = false) ∧
      ∀ turns, turns 0 = w → Fair (Takes (monitor n).turn) (Monitor.Acts Moves) AwakeReady turns →
        ∃ m, ∀ k, m ≤ k → ∀ i, (turns k).state.vcpu i ≠ .live ∧ (turns k).asleep i = false) := by
  have awake := Monitor.awake_reached (monitor_notifies fun _ => True) trivial (fun _ _ _ _ _ => trivial) reached
  refine ⟨fun i asleep => (Bool.and_eq_true_iff.mp (awake i asleep)).2,fun a g taken free => awake.acts taken free,?_⟩
  intro stop
  refine ⟨stop_awake awake stop,?_⟩
  intro turns first fair
  have above : Reaches (Takes Fleet.next) (Fleet.new n) w.state := Monitor.projects reached
  have kept : w.state.Kept := above.invariant (kept_new n) fun _ _ _ kept taken => kept.step taken
  have falling : w.state.Falling := ⟨reached_safe above,kept,stop⟩
  have lowers := Monitor.lowers (m := monitor n) (monitor_notifies Falling) Falling.lowers
  have start : (turns 0).state.Falling ∧ (monitor n).Awake (turns 0) := by
    rw [first]
    exact ⟨falling,awake⟩
  obtain ⟨m,ended⟩ := lowers.settles (fun w => ∀ i, w.state.vcpu i ≠ .live) fair start (by
    intro w holds unfinished
    obtain ⟨i,live⟩ := not_forall.mp unfinished
    obtain ⟨a,g,own,certain,taken⟩ := holds.1.ready (not_not.mp live)
    obtain ⟨w',turn,_⟩ := holds.2.acts taken (fun j _ => by simp [monitor,Sys.blocked,holds.1.stop])
    exact ⟨a,w',own,certain,turn⟩)
  refine ⟨m,fun k after i => ⟨ended k after i,?_⟩⟩
  have holds := lowers.inv_reached start (fair.reaches k)
  exact stop_awake holds.2 holds.1.stop i

/-- The second of two vCPUs sleeps until it is powered on, and a stop comes before that. -/
def sleepTurns (i j : Fin 2) : List (Turn (Act 2) (Fin 2)) :=
  [.act (.create i),.act (.create j),.act (.work (.start 0x8000 0)),.act (.work (.lockTop i)),.sleep j]

theorem no_vcpu_wakeup_lost_stop : ∃ v w, run (monitor 2).turn (sleepTurns 0 1) (Monitor.start (Fleet.new 2)) = some v ∧
    v.asleep 1 = true ∧ v.state.sys.blocked 1 = true ∧ (monitor 2).turn (.act (.work .stop)) v = some w ∧
    ∀ i, w.asleep i = false := by
  obtain ⟨v,w,ran,asleep,stop,stopped⟩ : ∃ v w,
      run (monitor 2).turn (sleepTurns 0 1) (Monitor.start (Fleet.new 2)) = some v ∧ v.asleep 1 = true ∧
      (monitor 2).turn (.act (.work .stop)) v = some w ∧ w.state.sys.shared.stop = true := ⟨_,_,rfl,rfl,rfl,rfl⟩
  have reached := reaches_of_run (sleepTurns 0 1) ran
  exact ⟨v,w,ran,asleep,(no_vcpu_wakeup_lost reached).1 1 asleep,stop,
    ((no_vcpu_wakeup_lost (reached.tail (.act (.work .stop)) stop)).2.2 stopped).1⟩

end Fleet
end WVmm.Platform.Cpus
