import WVmm.Lib.Progress
import WVmm.Platform.Teardown

/-! What a pause and a stop wait for comes. Neither lets a worker enter the guest, so
every worker comes closer to the end of its loop with each step, and a worker that
others wait for can always take one. -/
namespace WVmm.Platform.Cpus
open Lib.Runs

variable {n : Nat}

/-- Outside the guest with its flag cleared: in an exchange with the VMM thread, or on
the exit path. -/
def Pc.aside : Pc → Bool
  | .awaiting | .replied | .draining | .gone => true
  | _ => false

def Pc.left : Pc → Nat
  | .gone => 0
  | .draining => 1
  | .returned => 2
  | .top => 3
  | .replied | .writeBack | .result _ => 4
  | .awaiting | .calling _ => 5
  | .queued => 6
  | .decode => 7
  | .exited => 8
  | .guest => 9

theorem Pc.left_le (pc : Pc) : pc.left ≤ 9 := by
  cases pc <;> simp [Pc.left]

theorem Pc.left_running {pc : Pc} (here : pc.ended = false) : Pc.returned.left < pc.left := by
  cases pc with
  | returned | draining | gone => cases here
  | _ => simp [Pc.left]

/-- A step that no party can withhold: the hypervisor returns from the guest when it is
kicked, and a wait ends with the stop. -/
def Label.certain : Label n → Bool
  | .fail _ | .bootFails _ | .receive _ | .start _ _ | .pause | .resume | .stop => false
  | _ => true

namespace Sys

def closed (s : Sys n) : Prop := s.shared.stop = true ∨ s.shared.paused = true

def left (s : Sys n) (i : Fin n) : Nat := (s.pc i).left + (s.shared.running i).toNat

def remaining (s : Sys n) : Nat := ∑ i, s.left i

theorem left_le (s : Sys n) (i : Fin n) : s.left i ≤ 10 := by
  have far := (s.pc i).left_le
  have flag := (s.shared.running i).toNat_le
  unfold left
  omega

def Cleared (s : Sys n) : Prop := ∀ i, (s.pc i).aside = true → s.shared.running i = false

end Sys

theorem cleared_new (n : Nat) : (Sys.new n).Cleared := fun _ _ => rfl

/-- A step of a worker changes its own place and flag, and brings it closer to its end
unless it changes nothing. -/
structure Descends (s t : Sys n) (i : Fin n) : Prop where
  other : ∀ j, j ≠ i → t.left j = s.left j
  own : (s.shared.stop = false ∧ t = s) ∨ t.left i < s.left i

section Steps
variable {s t : Sys n} {i : Fin n}

theorem descends_of {pc : Pc} {b : Bool} (place : t.pc = Function.update s.pc i pc)
    (flag : t.shared.running = Function.update s.shared.running i b) (less : pc.left + b.toNat < s.left i) :
    Descends s t i := by
  refine ⟨fun j other => ?_,Or.inr ?_⟩
  · simp only [Sys.left,place,flag,Function.update_of_ne other]
  · simpa only [Sys.left,place,flag,Function.update_self] using less

theorem descends_goto {pc : Pc} (place : t.pc = Function.update s.pc i pc) (flag : t.shared.running = s.shared.running)
    (less : pc.left < (s.pc i).left) : Descends s t i := by
  refine descends_of place (flag.trans (Function.update_eq_self i _).symm) ?_
  exact Nat.add_lt_add_right less _

theorem descends_clear {pc : Pc} (place : t.pc = Function.update s.pc i pc)
    (flag : t.shared.running = Function.update s.shared.running i false) (less : pc.left < (s.pc i).left) :
    Descends s t i :=
  descends_of place flag (Nat.lt_of_lt_of_le less (Nat.le_add_right _ _))

/-- The loop top, when nothing enters the guest: the worker ends, or waits with its flag
cleared. -/
theorem lockTop_descends (closed : s.closed) (before : s.pc i = .top) : Descends s (s.lockTop i) i := by
  unfold Sys.lockTop
  split
  · exact descends_clear rfl rfl (by rw [before]; decide)
  · rename_i going
    have paused : s.shared.paused = true := closed.resolve_left going
    rw [if_pos (by simp [paused])]
    cases running : s.shared.running i with
    | true => exact descends_of rfl rfl (by simp [Sys.left,before,running])
    | false =>
      have place : Function.update s.pc i .top = s.pc := by rw [← before,Function.update_eq_self]
      have flag : Function.update s.shared.running i false = s.shared.running := by rw [← running,Function.update_eq_self]
      have same : {(s.goto i .top) with shared := s.shared.setRunning i false} = s := by
        simp only [Sys.goto,State.setRunning,place,flag]
      exact ⟨fun j _ => congrArg (fun u => Sys.left u j) same,Or.inl ⟨by simpa using going,same⟩⟩

theorem on_running (s : State n) (target entry context : Nat) : (s.on target entry context).2.running = s.running := by
  have outcome := s.on_cases target entry context
  generalize s.on target entry context = answer at outcome ⊢
  cases outcome <;> rfl

theorem enter_descends {call : Hypercall} (before : s.pc i = .calling call) : Descends s (s.enter i call) i := by
  cases call with
  | cpuOff => exact descends_goto rfl rfl (by rw [before]; simp [Pc.left])
  | cpuOn target entry context => exact descends_goto rfl (on_running _ _ _ _) (by rw [before]; simp [Pc.left])
  | affinityInfo target level => exact descends_goto rfl rfl (by rw [before]; simp [Pc.left])
  | systemOff => exact descends_goto rfl rfl (by rw [before]; simp [Pc.left])

theorem completeIo_descends (closed : s.closed) (before : s.pc i = .replied) (done : s.completeIo i = some t) :
    Descends s t i := by
  unfold Sys.completeIo at done
  split at done
  · cases done
    exact descends_goto rfl rfl (by rw [before]; decide)
  · rename_i going
    rw [if_pos (closed.resolve_left going)] at done
    cases done

/-- Every step of a worker brings it closer to its end. -/
theorem worker_descends {l : Label n} (closed : s.closed) (taken : s.next l = some t) (own : l.worker = some i) :
    Descends s t i := by
  cases l with simp only [Sys.next] at taken
  | start entry dtb | pause | pauseDone | resume | stop => cases own
  | lockTop j =>
    cases own
    obtain ⟨before,rfl⟩ := guarded taken
    exact lockTop_descends closed before
  | bootFails j =>
    cases own
    split at taken
    · obtain ⟨⟨before,_⟩,rfl⟩ := guarded taken
      exact descends_clear rfl rfl (by rw [before]; decide)
    · cases taken
  | check j =>
    cases own
    obtain ⟨before,rfl⟩ := guarded taken
    refine descends_goto rfl rfl ?_
    rw [before]
    split <;> decide
  | enter j =>
    cases own
    split at taken
    · rename_i call before
      cases taken
      exact enter_descends before
    · cases taken
  | setResult j =>
    cases own
    split at taken
    · rename_i value before
      cases taken
      exact descends_goto rfl rfl (by rw [before]; simp [Pc.left])
    · cases taken
  | waitIo j =>
    cases own
    obtain ⟨before,rfl⟩ := guarded taken
    exact descends_clear rfl rfl (by rw [before]; decide)
  | completeIo j =>
    cases own
    split at taken
    · rename_i before
      exact completeIo_descends closed before taken
    · cases taken
  | fail j =>
    cases own
    obtain ⟨⟨returned,draining,gone⟩,rfl⟩ := guarded taken
    refine descends_goto rfl rfl (Pc.left_running ?_)
    cases here : s.pc i with
    | returned => exact absurd here returned
    | draining => exact absurd here draining
    | gone => exact absurd here gone
    | _ => rfl
  | leave j =>
    cases own
    obtain ⟨before,rfl⟩ := guarded taken
    exact descends_clear rfl rfl (by rw [before]; decide)
  | cancelled j | destroy j =>
    cases own
    obtain ⟨⟨before,_⟩,rfl⟩ := guarded taken
    exact descends_goto rfl rfl (by rw [before]; decide)
  | exit j | again j | hypercall j call | answer j value | access j | receive j | writeBack j =>
    cases own
    obtain ⟨before,rfl⟩ := guarded taken
    exact descends_goto rfl rfl (by rw [before]; simp [Pc.left])

theorem controller_left {l : Label n} (taken : s.next l = some t) (none : l.worker = none) (i : Fin n) :
    t.left i = s.left i := by
  have does := next_does taken
  cases does with
  | starts entry dtb first => rfl
  | controls stop paused pausing held stopped => rfl
  | works j pc events own before after entered => exact absurd own (by simp [none])
  | rests j pc events own before after => exact absurd own (by simp [none])
  | waits j pc events own before after => exact absurd own (by simp [none])
  | _ => cases none

theorem next_level {l : Label n} (closed : s.closed) (taken : s.next l = some t) (j : Fin n) : t.left j ≤ s.left j := by
  cases own : l.worker with
  | none => exact Nat.le_of_eq (controller_left taken own j)
  | some i =>
    have descends := worker_descends closed taken own
    by_cases same : j = i
    · subst same
      rcases descends.own with ⟨_,rfl⟩ | less
      · exact Nat.le_refl _
      · exact Nat.le_of_lt less
    · exact Nat.le_of_eq (descends.other j same)

/-- A step of another worker, or of the controller, leaves the flag of a worker as it is. -/
theorem Does.running_other {l : Label n} (does : Does s l t) (other : l.worker ≠ some i) :
    t.shared.running i = s.shared.running i := by
  have apart : ∀ (j : Fin n) (b : Bool), l.worker = some j → Function.update s.shared.running j b i = s.shared.running i := by
    intro j b own
    refine Function.update_of_ne ?_ b s.shared.running
    rintro rfl
    exact other own
  cases does with
  | waits j pc events own before after => exact apart j false own
  | enters j before going => exact apart j true rfl
  | boots j entry context before going => exact apart j true rfl
  | awaits j before => exact apart j false rfl
  | completes j before going => exact apart j true rfl
  | leaves j before => exact apart j false rfl
  | _ => rfl

theorem goto_aside {pc : Pc} (present : pc.aside = false) (u : Sys n) (place : u.pc = (s.goto i pc).pc) :
    (u.pc i).aside = false := by
  rw [place,Sys.goto_self,present]

theorem lockTop_aside (s : Sys n) (i : Fin n) : ((s.lockTop i).pc i).aside = false := by
  unfold Sys.lockTop
  split
  · exact goto_aside rfl _ rfl
  · split
    · exact goto_aside rfl _ rfl
    · split <;> exact goto_aside rfl _ rfl

theorem enter_aside (s : Sys n) (i : Fin n) (call : Hypercall) : ((s.enter i call).pc i).aside = false := by
  cases call with
  | cpuOff | systemOff => exact goto_aside rfl _ rfl
  | cpuOn target entry context => exact goto_aside rfl _ rfl
  | affinityInfo target level => exact goto_aside rfl _ rfl

theorem completeIo_aside (done : s.completeIo i = some t) : (t.pc i).aside = false := by
  unfold Sys.completeIo at done
  split at done
  · cases done
    exact goto_aside rfl _ rfl
  · split at done
    · cases done
    · cases done
      exact goto_aside rfl _ rfl

/-- A worker comes to an exchange, and to the exit path, with its flag cleared. -/
theorem own_cleared {l : Label n} (cleared : s.Cleared) (taken : s.next l = some t) (own : l.worker = some i)
    (aside : (t.pc i).aside = true) : t.shared.running i = false := by
  have absurdly : (t.pc i).aside = false → t.shared.running i = false := fun present => by
    rw [present] at aside
    cases aside
  cases l with simp only [Sys.next] at taken
  | start entry dtb | pause | pauseDone | resume | stop => cases own
  | waitIo j | leave j =>
    cases own
    obtain ⟨_,rfl⟩ := guarded taken
    exact Function.update_self i false s.shared.running
  | receive j =>
    cases own
    obtain ⟨before,rfl⟩ := guarded taken
    exact cleared i (by rw [before]; rfl)
  | destroy j =>
    cases own
    obtain ⟨⟨before,_⟩,rfl⟩ := guarded taken
    exact cleared i (by rw [before]; rfl)
  | lockTop j =>
    cases own
    obtain ⟨_,rfl⟩ := guarded taken
    exact absurdly (lockTop_aside s i)
  | bootFails j =>
    cases own
    split at taken
    · obtain ⟨_,rfl⟩ := guarded taken
      exact Function.update_self i false s.shared.running
    · cases taken
  | check j =>
    cases own
    obtain ⟨_,rfl⟩ := guarded taken
    exact absurdly (goto_aside (by split <;> rfl) _ rfl)
  | enter j =>
    cases own
    split at taken
    · cases taken
      exact absurdly (enter_aside s i _)
    · cases taken
  | setResult j =>
    cases own
    split at taken
    · cases taken
      exact absurdly (goto_aside rfl _ rfl)
    · cases taken
  | completeIo j =>
    cases own
    split at taken
    · exact absurdly (completeIo_aside taken)
    · cases taken
  | exit j | again j | hypercall j call | answer j value | access j | cancelled j | writeBack j | fail j =>
    cases own
    obtain ⟨_,rfl⟩ := guarded taken
    exact absurdly (goto_aside rfl _ rfl)

/-- A worker that is aside has its flag cleared, whatever the others do. -/
theorem cleared_next {l : Label n} (cleared : s.Cleared) (taken : s.next l = some t) : t.Cleared := by
  intro j aside
  by_cases own : l.worker = some j
  · exact own_cleared cleared taken own aside
  · have does := next_does taken
    rw [does.running_other own]
    exact cleared j (by rwa [← does.pc_other own])

theorem remaining_level {l : Label n} (closed : s.closed) (taken : s.next l = some t) : t.remaining ≤ s.remaining :=
  Finset.sum_le_sum fun j _ => next_level closed taken j

theorem moved_ne {pc : Pc} (place : t.pc i = pc) (other : s.pc i ≠ pc) : t ≠ s := by
  rintro rfl
  exact other place

/-- A worker that can take a step of its own which changes something and which nobody
can withhold. -/
def Sys.Movable (s : Sys n) (i : Fin n) : Prop :=
  ∃ l t, l.certain = true ∧ l.worker = some i ∧ s.next l = some t ∧ t ≠ s

theorem lockTop_movable (here : s.pc i = .top) (closed : s.closed)
    (waits : s.shared.stop = true ∨ s.shared.running i = true) : s.Movable i := by
  refine ⟨.lockTop i,s.lockTop i,rfl,rfl,if_pos here,?_⟩
  unfold Sys.lockTop
  split
  · exact moved_ne (s.goto_self i .returned) (by simp [here])
  · rename_i going
    rw [if_pos (by simp [closed.resolve_left going])]
    intro same
    have flag := congrArg (fun u => u.shared.running i) same
    simp only [State.setRunning,Function.update_self,waits.resolve_left going] at flag
    cases flag

/-- A worker that is not aside can always move, unless it waits at the loop top. -/
theorem present_movable (closed : s.closed) (present : (s.pc i).aside = false)
    (waits : s.shared.stop = true ∨ s.shared.running i = true) : s.Movable i := by
  cases here : s.pc i with
  | awaiting | replied | draining | gone =>
    rw [here] at present
    cases present
  | top => exact lockTop_movable here closed waits
  | guest => exact ⟨.exit i,_,rfl,rfl,if_pos here,moved_ne (s.goto_self i .exited) (by simp [here])⟩
  | exited =>
    refine ⟨.check i,_,rfl,rfl,if_pos here,moved_ne (s.goto_self i _) ?_⟩
    rw [here]
    split <;> simp
  | decode => exact ⟨.again i,_,rfl,rfl,if_pos here,moved_ne (s.goto_self i .top) (by simp [here])⟩
  | calling call =>
    refine ⟨.enter i,s.enter i call,rfl,rfl,by simp only [Sys.next,here],?_⟩
    cases call with
    | cpuOff => exact moved_ne (s.goto_self i .top) (by simp [here])
    | cpuOn target entry context => exact moved_ne (s.goto_self i (.result _)) (by simp [here])
    | affinityInfo target level => exact moved_ne (s.goto_self i (.result _)) (by simp [here])
    | systemOff => exact moved_ne (s.goto_self i .returned) (by simp [here])
  | result value =>
    exact ⟨.setResult i,s.goto i .top,rfl,rfl,by simp only [Sys.next,here],moved_ne (s.goto_self i .top) (by simp [here])⟩
  | queued => exact ⟨.waitIo i,_,rfl,rfl,if_pos here,moved_ne (s.goto_self i .awaiting) (by simp [here])⟩
  | writeBack => exact ⟨.writeBack i,_,rfl,rfl,if_pos here,moved_ne (s.goto_self i .top) (by simp [here])⟩
  | returned => exact ⟨.leave i,_,rfl,rfl,if_pos here,moved_ne (s.goto_self i .draining) (by simp [here])⟩

end Steps

theorem Sys.remaining_le (s : Sys n) : s.remaining ≤ 10 * n := by
  have bound := Finset.sum_le_card_nsmul Finset.univ s.left 10 fun i _ => s.left_le i
  rw [Finset.card_univ,Fintype.card_fin,smul_eq_mul,mul_comm] at bound
  exact bound

namespace Sys

variable {s t : Sys n}

def Within (s : Sys n) (l : Label n) (t : Sys n) : Prop := Takes next s l t ∧ l ≠ .pauseDone

def Stirs (s : Sys n) (l : Label n) (t : Sys n) : Prop := l.worker.isSome = true ∧ t ≠ s

def Advances (s : Sys n) (l : Label n) (t : Sys n) : Prop := l = .pauseDone ∨ Stirs s l t

/-- A worker can change something, or `pause` can return, and nobody can withhold it. -/
def Ready (s : Sys n) : Prop := ∃ l t, l.certain = true ∧ s.next l = some t ∧ Advances s l t

structure Pausing (s : Sys n) : Prop where
  barrier : Barrier s
  cleared : s.Cleared
  inside : s.pausing = true

theorem lockTop_pausing (s : Sys n) (i : Fin n) : (s.lockTop i).pausing = s.pausing := by
  unfold lockTop
  split
  · rfl
  · split
    · rfl
    · split <;> rfl

theorem enter_pausing (s : Sys n) (i : Fin n) (call : Hypercall) : (s.enter i call).pausing = s.pausing := by
  cases call <;> rfl

theorem completeIo_pausing {i : Fin n} (done : s.completeIo i = some t) : t.pausing = s.pausing := by
  unfold completeIo at done
  split at done
  · cases done
    rfl
  · split at done
    · cases done
    · cases done
      rfl

/-- Only its own return ends `pause`. -/
theorem within_pausing {l : Label n} (inside : s.pausing = true) (within : Within s l t) : t.pausing = true := by
  obtain ⟨taken,other⟩ := within
  cases l with simp only [Takes,next] at taken
  | pauseDone => exact absurd rfl other
  | start entry dtb | pause | resume | stop =>
    rw [if_pos inside] at taken
    cases taken
  | lockTop i =>
    obtain ⟨_,rfl⟩ := guarded taken
    exact (s.lockTop_pausing i).trans inside
  | bootFails i =>
    split at taken
    · obtain ⟨_,rfl⟩ := guarded taken
      exact inside
    · cases taken
  | enter i =>
    split at taken
    · cases taken
      exact (s.enter_pausing i _).trans inside
    · cases taken
  | setResult i =>
    split at taken
    · cases taken
      exact inside
    · cases taken
  | completeIo i =>
    split at taken
    · exact (completeIo_pausing taken).trans inside
    · cases taken
  | exit i | check i | again i | hypercall i call | answer i value | access i | waitIo i | receive i | cancelled i
  | writeBack i | fail i | leave i | destroy i =>
    obtain ⟨_,rfl⟩ := guarded taken
    exact inside

namespace Pausing

theorem closed (pausing : Pausing s) : s.closed := Or.inr (pausing.barrier.waiting pausing.inside)

theorem step {l : Label n} (pausing : Pausing s) (within : Within s l t) : Pausing t :=
  ⟨pausing.barrier.step l within.1,cleared_next pausing.cleared within.1,within_pausing pausing.inside within⟩

theorem lowers : Lowers (Within (n := n)) Stirs Pausing remaining := by
  refine ⟨fun s l t pausing within => pausing.step within,fun s l t pausing within => ?_,fun s l t pausing within stirs => ?_⟩
  · exact remaining_level pausing.closed within.1
  · obtain ⟨own,moved⟩ := stirs
    obtain ⟨i,own⟩ := Option.isSome_iff_exists.mp own
    have less := (worker_descends pausing.closed within.1 own).own.resolve_left fun same => moved same.2
    exact Finset.sum_lt_sum (fun j _ => next_level pausing.closed within.1 j) ⟨i,Finset.mem_univ i,less⟩

theorem ready (pausing : Pausing s) : s.Ready := by
  cases stop : s.shared.stop with
  | true =>
    refine ⟨.pauseDone,{s with pausing := false},rfl,?_,Or.inl rfl⟩
    simp only [next,pausing.inside,pauseDone,stop,if_true]
  | false =>
    cases busy : s.shared.anyRunning with
    | false =>
      refine ⟨.pauseDone,{s with pausing := false, held := true},rfl,?_,Or.inl rfl⟩
      simp [next,pausing.inside,pauseDone,stop,busy]
    | true =>
      obtain ⟨i,running⟩ := of_decide_eq_true busy
      have present : (s.pc i).aside = false := Bool.eq_false_iff.mpr fun aside => by
        rw [pausing.cleared i aside] at running
        cases running
      obtain ⟨l,t,certain,own,taken,moved⟩ := present_movable pausing.closed present (Or.inr running)
      exact ⟨l,t,certain,taken,Or.inr ⟨by rw [own]; rfl,moved⟩⟩

end Pausing

theorem cleared_reached (reached : Reaches (Takes next) (new n) s) : s.Cleared :=
  reached.invariant (cleared_new n) fun _ _ _ cleared taken => cleared_next cleared taken

/-- `pause` comes to its return, whatever the guest does and however the threads are
scheduled. While the controller is inside it, the workers of `n` vCPUs change something
at most `10 * n` times; until it returns a worker can change something or `pause` can
return; and so it returns in every run in which the threads that can move do move. -/
theorem pause_returns (reached : Reaches (Takes next) (new n) s) (inside : s.pausing = true) :
    (∀ k t, Counts Within Stirs s k t → k ≤ 10 * n) ∧ (∀ t, Reaches Within s t → t.Ready) ∧
    ∀ state, state 0 = s → Fair (Takes next) Advances Ready state → ∃ m, (state m).pausing = false := by
  have barrier : Barrier s := reached.invariant (barrier_new n) fun _ l _ barrier taken => barrier.step l taken
  have pausing : Pausing s := ⟨barrier,cleared_reached reached,inside⟩
  refine ⟨fun k t counts => ?_,fun t reaches => ?_,fun state first fair => ?_⟩
  · exact (Nat.le_of_add_right_le (Pausing.lowers.bounds pausing counts)).trans s.remaining_le
  · exact (Pausing.lowers.inv_reached pausing reaches).ready
  · by_contra never
    have always : ∀ m, (state m).pausing = true := fun m => by
      cases ended : (state m).pausing with
      | true => rfl
      | false => exact absurd ⟨m,ended⟩ never
    have unreturned : ∀ m l, Takes next (state m) l (state (m + 1)) → l ≠ .pauseDone := by
      rintro m l taken rfl
      obtain ⟨_,done⟩ := Option.ite_none_right_eq_some.mp taken
      have undone := always (m + 1)
      unfold pauseDone at done
      split at done
      · rw [← Option.some.inj done] at undone
        cases undone
      · split at done
        · cases done
        · rw [← Option.some.inj done] at undone
          cases undone
    have inside : Fair Within Stirs Ready state := by
      refine ⟨fun m => ?_,fun m due => ?_⟩
      · exact (fair.steps m).imp id fun ⟨l,taken⟩ => ⟨l,taken,unreturned m l taken⟩
      · obtain ⟨k,after,l,taken,advances⟩ := fair.moves m due
        have other := unreturned k l taken
        exact ⟨k,after,l,⟨taken,other⟩,advances.resolve_left other⟩
    obtain ⟨m,done⟩ := Pausing.lowers.settles (fun _ => False) inside (first ▸ pausing) fun t pausing _ => pausing.ready
    exact done m (Nat.le_refl m)

/-- One vCPU of two in the guest when the controller pauses. -/
def pauseLabels (i : Fin 2) : List (Label 2) := [.start 0x8000 0,.lockTop i,.pause]

theorem pause_returns_guest : ∃ s, run next (pauseLabels 0) (new 2) = some s ∧ s.pc 0 = .guest ∧ s.Ready ∧
    ∀ k t, Counts Within Stirs s k t → k ≤ 20 := by
  obtain ⟨s,ran,inside,guest⟩ : ∃ s, run next (pauseLabels 0) (new 2) = some s ∧ s.pausing = true ∧ s.pc 0 = .guest :=
    ⟨_,rfl,rfl,rfl⟩
  obtain ⟨bound,ready,_⟩ := pause_returns (reaches_of_run (pauseLabels 0) ran) inside
  exact ⟨s,ran,guest,ready s .refl,bound⟩

end Sys

namespace Act

def ofWorker : Act n → Bool
  | .create _ | .drop _ => true
  | .work l => l.worker.isSome

def certain : Act n → Bool
  | .create _ => false
  | .drop _ => true
  | .work l => l.certain

end Act

namespace Fleet

variable {f g : Fleet n}

def left (f : Fleet n) (i : Fin n) : Nat := match f.vcpu i with
  | .absent => 12
  | .live => f.sys.left i + 1
  | .destroyed => 0

def remaining (f : Fleet n) : Nat := ∑ i, f.left i

theorem left_le (f : Fleet n) (i : Fin n) : f.left i ≤ 12 := by
  have far := f.sys.left_le i
  unfold left
  split <;> omega

theorem remaining_le (f : Fleet n) : f.remaining ≤ 12 * n := by
  have bound := Finset.sum_le_card_nsmul Finset.univ f.left 12 fun i _ => f.left_le i
  rw [Finset.card_univ,Fintype.card_fin,smul_eq_mul,mul_comm] at bound
  exact bound

def Moves (_ : Fleet n) (a : Act n) (_ : Fleet n) : Prop := a.ofWorker = true

/-- A thread of a vCPU can take a step that nobody can withhold. -/
def Ready (f : Fleet n) : Prop := ∃ a g, a.ofWorker = true ∧ a.certain = true ∧ f.next a = some g

/-- A worker is aside only with its flag cleared, and the thread of a vCPU that is not
created yet has not set it. -/
structure Kept (f : Fleet n) : Prop where
  cleared : f.sys.Cleared
  fresh : ∀ i, f.vcpu i = .absent → f.sys.shared.running i = false

theorem kept_new (n : Nat) : (Fleet.new n).Kept := ⟨cleared_new n,fun _ _ => rfl⟩

theorem Kept.step (kept : f.Kept) {a : Act n} (taken : f.next a = some g) : g.Kept := by
  have updated : ∀ (i j : Fin n) (v : Vcpu), v ≠ .absent → Function.update f.vcpu i v j = .absent → f.vcpu j = .absent := by
    intro i j v present absent
    by_cases same : j = i
    · rw [same,Function.update_self] at absent
      exact absurd absent present
    · rwa [Function.update_of_ne same] at absent
  cases a with
  | create i =>
    obtain ⟨_,rfl⟩ := guarded taken
    exact ⟨kept.cleared,fun j absent => kept.fresh j (updated i j .live (by decide) absent)⟩
  | work l =>
    obtain ⟨live,ran⟩ := Option.ite_none_right_eq_some.mp taken
    obtain ⟨s,step,rfl⟩ := Option.map_eq_some_iff.mp ran
    refine ⟨cleared_next kept.cleared step,fun j absent => ?_⟩
    have other : l.worker ≠ some j := fun own => by cases (live j own).symm.trans absent
    exact ((next_does step).running_other other).trans (kept.fresh j absent)
  | drop i =>
    obtain ⟨_,rfl⟩ := guarded taken
    exact ⟨kept.cleared,fun j absent => kept.fresh j (updated i j .destroyed (by decide) absent)⟩

structure Falling (f : Fleet n) : Prop where
  safe : f.Safe
  kept : f.Kept
  stop : f.sys.shared.stop = true

namespace Falling

theorem step (falling : f.Falling) {a : Act n} (taken : f.next a = some g) : g.Falling :=
  ⟨falling.safe.step taken,falling.kept.step taken,
    (halted_reached falling.stop (Reaches.refl.tail a taken)).stop⟩

/-- Only its own steps move a thread, and towards its end. -/
theorem level (falling : f.Falling) {a : Act n} (taken : f.next a = some g) (i : Fin n) : g.left i ≤ f.left i := by
  cases a with
  | create j =>
    obtain ⟨⟨absent,_⟩,rfl⟩ := guarded taken
    have far := f.sys.left_le i
    by_cases same : i = j
    · subst same
      simp only [left,Function.update_self,absent]
      omega
    · simp only [left,Function.update_of_ne same]
      exact Nat.le_refl _
  | work l =>
    obtain ⟨live,ran⟩ := Option.ite_none_right_eq_some.mp taken
    obtain ⟨s,step,rfl⟩ := Option.map_eq_some_iff.mp ran
    have less := next_level (Or.inl falling.stop) step i
    cases vcpu : f.vcpu i with
    | absent | destroyed => simp only [left,vcpu,Nat.le_refl]
    | live =>
      simp only [left,vcpu]
      exact Nat.succ_le_succ less
  | drop j =>
    obtain ⟨_,rfl⟩ := guarded taken
    by_cases same : i = j
    · subst same
      simp only [left,Function.update_self]
      exact Nat.zero_le _
    · simp only [left,Function.update_of_ne same]
      exact Nat.le_refl _

theorem lower (falling : f.Falling) {a : Act n} (taken : f.next a = some g) (moves : a.ofWorker = true) :
    ∃ i, g.left i < f.left i := by
  cases a with
  | create i =>
    obtain ⟨⟨absent,_⟩,rfl⟩ := guarded taken
    have far := f.sys.left_le i
    refine ⟨i,?_⟩
    simp only [left,Function.update_self,absent]
    omega
  | work l =>
    obtain ⟨live,ran⟩ := Option.ite_none_right_eq_some.mp taken
    obtain ⟨s,step,rfl⟩ := Option.map_eq_some_iff.mp ran
    obtain ⟨i,own⟩ := Option.isSome_iff_exists.mp moves
    have less := (worker_descends (Or.inl falling.stop) step own).own.resolve_left fun same => by
      rw [falling.stop] at same
      cases same.1
    refine ⟨i,?_⟩
    simp only [left,live i own]
    omega
  | drop i =>
    obtain ⟨⟨_,live⟩,rfl⟩ := guarded taken
    refine ⟨i,?_⟩
    simp only [left,Function.update_self,live]
    omega

theorem lowers : Lowers (Takes (Fleet.next (n := n))) Moves Falling remaining := by
  refine ⟨fun f a g falling taken => falling.step taken,fun f a g falling taken => ?_,fun f a g falling taken moves => ?_⟩
  · exact Finset.sum_le_sum fun i _ => falling.level taken i
  · obtain ⟨i,less⟩ := falling.lower taken moves
    exact Finset.sum_lt_sum (fun j _ => falling.level taken j) ⟨i,Finset.mem_univ i,less⟩

/-- A live vCPU whose worker can move. -/
theorem ready_of_movable {i : Fin n} (live : f.vcpu i = .live) (movable : f.sys.Movable i) : f.Ready := by
  obtain ⟨l,s,certain,own,taken,_⟩ := movable
  have allowed : ∀ j, l.worker = some j → f.vcpu j = .live := fun j other => by
    rw [own] at other
    cases other
    exact live
  refine ⟨.work l,{f with sys := s},by simp [Act.ofWorker,own],certain,?_⟩
  simp only [next,if_pos allowed,taken,Option.map_some]

/-- A worker that others wait for can move. -/
theorem ready (falling : f.Falling) {i : Fin n} (live : f.vcpu i = .live) : f.Ready := by
  have present : ∀ j, f.vcpu j = .live → (f.sys.pc j).aside = false → f.Ready := fun j live present =>
    ready_of_movable live (present_movable (Or.inl falling.stop) present (Or.inl falling.stop))
  cases here : f.sys.pc i with
  | awaiting =>
    refine ready_of_movable live ⟨.cancelled i,_,rfl,rfl,if_pos ⟨here,falling.stop⟩,?_⟩
    exact moved_ne (f.sys.goto_self i .returned) (by simp [here])
  | replied =>
    refine ready_of_movable live ⟨.completeIo i,f.sys.goto i .returned,rfl,rfl,?_,?_⟩
    · simp only [Sys.next,if_pos here,Sys.completeIo,if_pos falling.stop]
    · exact moved_ne (f.sys.goto_self i .returned) (by simp [here])
  | gone => exact ⟨.drop i,_,rfl,rfl,if_pos ⟨here,live⟩⟩
  | draining =>
    cases busy : f.sys.shared.anyRunning with
    | false =>
      refine ready_of_movable live ⟨.destroy i,_,rfl,rfl,if_pos ⟨here,busy⟩,?_⟩
      exact moved_ne (f.sys.goto_self i .gone) (by simp [here])
    | true =>
      -- The worker `j` that is waited for is created, and not yet past its last section.
      obtain ⟨j,running⟩ := of_decide_eq_true busy
      have inside : (f.sys.pc j).aside = false := Bool.eq_false_iff.mpr fun aside => by
        rw [falling.kept.cleared j aside] at running
        cases running
      cases other : f.vcpu j with
      | absent =>
        rw [falling.kept.fresh j other] at running
        cases running
      | live => exact present j other inside
      | destroyed =>
        rw [falling.safe.past j other] at inside
        cases inside
  | top | guest | exited | decode | queued | writeBack | returned => exact present i live (by rw [here]; rfl)
  | calling call => exact present i live (by rw [here]; rfl)
  | result value => exact present i live (by rw [here]; rfl)

end Falling

/-- A stop brings every vCPU to its destruction, whatever the workers are doing when it
comes and however the threads are scheduled: with errors, panics and a cancelled startup
on the way. From then on the threads of `n` vCPUs take at most `12 * n` steps; while a
vCPU is live one of them can take a step; and so, in every run in which the threads that
can move do move, no vCPU is live from some point on, and `join` returns. -/
theorem teardown_completes (reached : Reaches (Takes Fleet.next) (Fleet.new n) f) (stop : f.sys.shared.stop = true) :
    (∀ k g, Counts (Takes Fleet.next) Moves f k g → k ≤ 12 * n) ∧
    (∀ g, Reaches (Takes Fleet.next) f g → ∀ i, g.vcpu i = .live → g.Ready) ∧
    ∀ state, state 0 = f → Fair (Takes Fleet.next) Moves Ready state →
      ∃ m, ∀ k, m ≤ k → ∀ i, (state k).vcpu i ≠ .live := by
  have kept : f.Kept := reached.invariant (kept_new n) fun _ _ _ kept taken => kept.step taken
  have falling : f.Falling := ⟨reached_safe reached,kept,stop⟩
  refine ⟨fun k g counts => ?_,fun g reaches i live => ?_,fun state first fair => ?_⟩
  · exact (Nat.le_of_add_right_le (Falling.lowers.bounds falling counts)).trans f.remaining_le
  · exact (Falling.lowers.inv_reached falling reaches).ready live
  · refine Falling.lowers.settles (fun g => ∀ i, g.vcpu i ≠ .live) fair (first ▸ falling) fun g falling unfinished => ?_
    obtain ⟨i,live⟩ := not_forall.mp unfinished
    exact falling.ready (not_not.mp live)

theorem teardown_completes_shutdown : ∃ f, run Fleet.next (shutdownActs 0 1) (Fleet.new 2) = some f ∧ f.vcpu 1 = .live ∧
    f.Ready ∧ ∀ k g, Counts (Takes Fleet.next) Moves f k g → k ≤ 24 := by
  obtain ⟨f,ran,stop,live⟩ : ∃ f, run Fleet.next (shutdownActs 0 1) (Fleet.new 2) = some f ∧
      f.sys.shared.stop = true ∧ f.vcpu 1 = .live := ⟨_,rfl,rfl,rfl⟩
  obtain ⟨bound,ready,_⟩ := teardown_completes (reaches_of_run (shutdownActs 0 1) ran) stop
  exact ⟨f,ran,live,ready f .refl 1 live,bound⟩

end Fleet
end WVmm.Platform.Cpus
