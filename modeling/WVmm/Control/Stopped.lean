import WVmm.Control.Requests

/-! What a stopped VM reports. The looks of `dropped` at the status and its later
sections are not one step: while an unwinding thread drops a VM that never ran, a
client stop in between ends the VM first, and its result is overwritten. Without
such a stop everything a stopped VM reports is final. -/
namespace WVmm.Control
open Lib.Runs

/-- A client stop that finds the VM not run, after an unwinding thread has looked
at the status in order to report its panic. -/
def Interrupts (s : Sys) (l : Label) : Prop :=
  (∃ thread, l = .stop thread) ∧ s.state.lifecycle = .created ∧ s.pc.phase = .undo Sys.panicError

/-- The steps that do not interrupt `dropped`. -/
def Calm (m : Machine) (s : Sys) (l : Label) (t : Sys) : Prop :=
  Takes (Sys.next m) s l t ∧ ¬Interrupts s l

def Settled (memory : Option MemoryStatus) : Prop :=
  ∀ status ∈ memory, status.lifecycle = .stopped ∧ status.driverReady = false

def Pc.cleanedUp : Pc → Bool
  | .saving | .stopMemory _ _ | .finishing _ _ | .dropping _ | .savePanic | .gone => true
  | _ => false

def Phase.early : Phase → Bool
  | .idle | .start | .loop | .leave => true
  | _ => false

theorem early_not_cleanedUp {pc : Pc} (early : pc.phase.early = true) : pc.cleanedUp = false := by
  cases pc with
  | stopMemory outcome dropping | finishing outcome dropping => cases dropping <;> cases early
  | saving | dropping | savePanic | gone => cases early
  | _ => rfl

structure Swept (m : Machine) (s : Sys) : Prop where
  early : s.pc.phase.early = true → s.cleaned = []
  idle : s.pc = .idle → s.assembled = false
  todo : ∀ todo, s.pc = .cleanup todo → s.cleaned ++ todo = s.plan m
  done : s.pc.cleanedUp = true → s.assembled = true → s.panicked = false → s.cleaned = s.plan m

structure Final (s : Sys) : Prop where
  unreported : s.state.lifecycle ≠ .stopped → s.state.status.finalError = none
  unowned : s.state.lifecycle = .created ∨ s.state.lifecycle = .stopped → s.state.owner = none
  settled : s.state.lifecycle = .stopped → Settled s.memory
  finishing : ∀ outcome dropping, s.pc = .finishing outcome dropping → Settled s.memory
  undone : ∀ outcome, s.pc.phase = .undo outcome →
    (outcome = .ok () ∧ s.state.status.finalError = none) ∨
      (outcome = Sys.panicError ∧ s.state.lifecycle ≠ .stopped)
  returned : ∀ r ∈ s.returns, s.state.lifecycle = .stopped ∧ r = Control.result s.state.cleanupError
  seen : s.seen = true → s.state.lifecycle = .stopped

theorem settled_stop (memory : Option MemoryStatus) : Settled (memory.map MemoryStatus.stop) := by
  intro status present
  obtain ⟨before,_,rfl⟩ := Option.map_eq_some_iff.mp present
  exact ⟨rfl,rfl⟩

theorem stop_settled {memory : Option MemoryStatus} (settled : Settled memory) :
    memory.map MemoryStatus.stop = memory := by
  cases memory with
  | none => rfl
  | some status =>
    obtain ⟨stopped,unready⟩ := settled status rfl
    cases status
    simp_all [MemoryStatus.stop]

/-- A stopped VM refuses every target. -/
theorem setRequestedMib_settled {memory : Option MemoryStatus} (settled : Settled memory) (mib : Nat) :
    ∃ e, setRequestedMib memory mib = .error e := by
  cases memory with
  | none => exact ⟨_,rfl⟩
  | some status =>
    have stopped := (settled status rfl).1
    exact ⟨.memory .stopped,by simp [setRequestedMib,MemoryStatus.setRequestedMib,stopped,Except.mapError]⟩

theorem afterRequest_settled {memory : Option MemoryStatus} (settled : Settled memory) (mib : Nat) :
    memory.map (·.afterRequest mib) = memory := by
  cases memory with
  | none => rfl
  | some status =>
    rcases status.afterRequest_cases mib with same | ⟨_,_,_,alive⟩
    · simp [same]
    · exact absurd (settled status rfl).1 alive

theorem final_new (memory : Option MemoryStatus) : Final (Sys.new memory) where
  unreported _ := rfl
  unowned _ := rfl
  settled stopped := by cases stopped
  finishing _ _ here := by cases here
  undone _ here := by cases here
  returned r member := by cases member
  seen reported := by cases reported

theorem swept_new (m : Machine) (memory : Option MemoryStatus) : Swept m (Sys.new memory) :=
  ⟨fun _ => rfl,fun _ => rfl,nofun,nofun⟩

namespace Swept

variable {m : Machine} {s t : Sys}

theorem silent (swept : Swept m s) (silent : Silent s t) : Swept m t := by
  have before : s.pc.phase.early = true := by
    rcases silent.running with start | loop
    · rw [start]
      rfl
    · rw [loop]
      rfl
  have after : t.pc.phase.early = true := by
    rcases silent.phase with same | leave
    · rw [same]
      exact before
    · rw [leave]
      rfl
  refine ⟨fun _ => silent.cleaned.trans (swept.early before),?_,?_,?_⟩
  · intro idle
    have phase := silent.phase
    rw [idle] at phase
    rcases silent.running with start | loop <;> rcases phase with same | leave
    · rw [start] at same
      cases same
    · cases leave
    · rw [loop] at same
      cases same
    · cases leave
  · intro todo here
    rw [here] at after
    cases after
  · intro cleanedUp
    rw [early_not_cleanedUp after] at cleanedUp
    cases cleanedUp

theorem before (swept : Swept m s) (early : s.pc.phase.early = true) (after : t.pc.phase = .loop ∨
    t.pc.phase = .leave) (cleaned : t.cleaned = s.cleaned) : Swept m t := by
  have late : t.pc.phase.early = true := by rcases after with h | h <;> rw [h] <;> rfl
  refine ⟨fun _ => cleaned.trans (swept.early early),?_,?_,?_⟩
  · intro idle
    rw [idle] at after
    rcases after with h | h <;> cases h
  · intro todo here
    rw [here] at late
    cases late
  · intro cleanedUp
    rw [early_not_cleanedUp late] at cleanedUp
    cases cleanedUp

theorem beyond (swept : Swept m s) (cleanedUp : s.pc.cleanedUp = true) (after : t.pc.cleanedUp = true)
    (assembled : t.assembled = s.assembled) (panicked : t.panicked = s.panicked)
    (cleaned : t.cleaned = s.cleaned) (plan : t.plan m = s.plan m) : Swept m t := by
  have late : t.pc.phase.early = false := by
    by_contra early
    rw [early_not_cleanedUp (by simpa using early)] at after
    cases after
  refine ⟨?_,?_,?_,?_⟩
  · intro early
    rw [late] at early
    cases early
  · intro idle
    rw [idle] at after
    cases after
  · intro todo here
    rw [here] at after
    cases after
  · intro _ isAssembled calm
    rw [cleaned,plan]
    exact swept.done cleanedUp (assembled ▸ isAssembled) (panicked ▸ calm)

theorem vmm (swept : Swept m s) (step : VmmStep m s t) : Swept m t := by
  cases step with
  | silent silent => exact swept.silent silent
  | refused e here => exact ⟨(by rintro ⟨⟩),(by rintro ⟨⟩),(by rintro _ ⟨⟩),(by rintro _ ⟨⟩)⟩
  | running here => exact swept.before (by rw [here]; rfl) (.inl rfl) rfl
  | fetched r rest here queued => exact swept.before (by rw [here]; rfl) (.inl rfl) rfl
  | answered r outcome here =>
    cases outcome with
    | ok done => exact swept.before (by rw [here]; rfl) (.inl rfl) rfl
    | error e => exact swept.before (by rw [here]; rfl) (.inr rfl) rfl
  | rejected r here => exact swept.before (by rw [here]; rfl) (.inr rfl) rfl
  | cleaning here =>
    refine ⟨(by rintro ⟨⟩),(by rintro ⟨⟩),?_,(by rintro ⟨⟩)⟩
    intro todo same
    have none : s.cleaned = [] := swept.early (by rw [here]; rfl)
    cases same
    simp only [Sys.locked,none,List.nil_append]
    rfl
  | cleaned c rest found here =>
    refine ⟨(by rintro ⟨⟩),(by rintro ⟨⟩),?_,(by rintro ⟨⟩)⟩
    intro todo same
    cases same
    have planned := swept.todo _ here
    simp only [Sys.clean,List.append_assoc,List.singleton_append]
    exact planned
  | swept here =>
    refine ⟨(by rintro ⟨⟩),(by rintro ⟨⟩),(by rintro _ ⟨⟩),?_⟩
    intro _ _ _
    have planned := swept.todo _ here
    rw [List.append_nil] at planned
    exact planned
  | saved here | stopped outcome dropping here | panicSaved here =>
    exact swept.beyond (by rw [here]; rfl) rfl rfl rfl rfl rfl
  | finished outcome dropping here =>
    exact swept.beyond (by rw [here]; rfl) (by cases dropping <;> rfl) rfl rfl rfl rfl
  | checked panicking here =>
    refine swept.beyond (by rw [here]; rfl) ?_ rfl rfl rfl rfl
    simp only [Sys.goto]
    split
    · rfl
    · split <;> rfl

theorem client (swept : Swept m s) (pc : t.pc = s.pc) (assembled : t.assembled = s.assembled)
    (panicked : t.panicked = s.panicked) (cleaned : t.cleaned = s.cleaned)
    (plan : t.plan m = s.plan m) : Swept m t where
  early := by rw [pc,cleaned]; exact swept.early
  idle := by rw [pc,assembled]; exact swept.idle
  todo := by rw [pc,cleaned,plan]; exact swept.todo
  done := by rw [pc,cleaned,plan,assembled,panicked]; exact swept.done

/-- Leaving `idle`: nothing was assembled, so nothing has to be cleaned. -/
theorem unassembled (none : t.assembled = false) (started : t.pc ≠ .idle) (cleaned : t.cleaned = [])
    (todo : ∀ todo, t.pc ≠ .cleanup todo) : Swept m t where
  early _ := cleaned
  idle here := absurd here started
  todo todo' here := absurd here (todo todo')
  done _ assembled := by rw [none] at assembled; cases assembled

theorem step (swept : Swept m s) (l : Label) (taken : s.next m l = some t) : Swept m t := by
  cases l with
  | submit thread operation =>
    cases taken
    unfold Sys.hostSubmit
    split <;> exact swept.client rfl rfl rfl rfl rfl
  | stop thread =>
    cases taken
    unfold Sys.hostStop
    split <;> exact swept.client rfl rfl rfl rfl rfl
  | stopReturns =>
    obtain ⟨_,rfl⟩ := guarded taken
    exact swept.client rfl rfl rfl rfl rfl
  | status | setRequested mib =>
    cases taken
    exact swept.client rfl rfl rfl rfl rfl
  | begin thread =>
    simp only [Sys.next] at taken
    split at taken <;> cases taken
    rename_i idle
    have cleaned := swept.early (by rw [idle]; rfl)
    unfold Sys.beginRun
    split <;> exact unassembled (swept.idle idle) (by rintro ⟨⟩) cleaned (by rintro _ ⟨⟩)
  | drop | dropFails =>
    simp only [Sys.next] at taken
    split at taken <;> cases taken
    rename_i idle
    exact unassembled (swept.idle idle) (by rintro ⟨⟩) (swept.early (by rw [idle]; rfl)) (by rintro _ ⟨⟩)
  | vmm a => exact swept.vmm (vmm_cases taken)
  | panic =>
    obtain ⟨_,rfl⟩ := guarded taken
    exact ⟨(by rintro ⟨⟩),(by rintro ⟨⟩),(by rintro _ ⟨⟩),fun _ _ calm => by cases calm⟩

end Swept

namespace Final

variable {m : Machine} {s t : Sys}

theorem unreturned (final : Final s) (alive : s.state.lifecycle ≠ .stopped) : s.returns = [] := by
  cases found : s.returns with
  | nil => rfl
  | cons r rest => exact absurd (final.returned r (by simp [found])).1 alive

/-- A step that does not touch what a stopped VM reports. -/
theorem kept (final : Final s) (state : t.state = s.state) (returns : t.returns = s.returns)
    (seen : t.seen = s.seen) (settled : s.state.lifecycle = .stopped → Settled t.memory)
    (finishing : ∀ outcome dropping, t.pc = .finishing outcome dropping → Settled t.memory)
    (undone : ∀ outcome, t.pc.phase = .undo outcome →
      (outcome = .ok () ∧ s.state.status.finalError = none) ∨
        (outcome = Sys.panicError ∧ s.state.lifecycle ≠ .stopped)) : Final t where
  unreported := by rw [state]; exact final.unreported
  unowned := by rw [state]; exact final.unowned
  settled := by rw [state]; exact settled
  finishing := finishing
  undone := by rw [state]; exact undone
  returned := by rw [state,returns]; exact final.returned
  seen := by rw [state,seen]; exact final.seen

/-- A step inside a run, where the VM has begun and not ended. -/
theorem inside (final : Final s) (alive : s.state.lifecycle ≠ .stopped)
    (after : t.state.lifecycle ≠ .created ∧ t.state.lifecycle ≠ .stopped)
    (report : t.state.status.finalError = s.state.status.finalError) (returns : t.returns = s.returns)
    (seen : t.seen = s.seen) (undo : ∀ outcome, t.pc.phase ≠ .undo outcome)
    (finishing : ∀ outcome dropping, t.pc ≠ .finishing outcome dropping) : Final t where
  unreported _ := report.trans (final.unreported alive)
  unowned here := absurd here (not_or.mpr after)
  settled stopped := absurd stopped after.2
  finishing outcome dropping here := absurd here (finishing outcome dropping)
  undone outcome here := absurd here (undo outcome)
  returned r member := by
    rw [returns,final.unreturned alive] at member
    cases member
  seen reported := by
    rw [seen] at reported
    exact absurd (final.seen reported) alive

theorem silent (final : Final s) (safe : Safe s) (silent : Silent s t) : Final t := by
  have alive := fits_alive safe.fits silent.running
  have phase : t.pc.phase = .start ∨ t.pc.phase = .loop ∨ t.pc.phase = .leave := by
    rcases silent.phase with same | leave
    · rw [same]
      exact silent.running.imp_right .inl
    · exact .inr (.inr leave)
  refine final.inside alive.2 (by rw [silent.state]; exact alive) (by rw [silent.state])
    silent.returns silent.seen ?_ ?_
  · intro outcome here
    rw [here] at phase
    rcases phase with h | h | h <;> cases h
  · intro outcome dropping here
    rw [here] at phase
    cases dropping <;> rcases phase with h | h | h <;> cases h

theorem finish (final : Final s) {outcome : Except Error Unit} {dropping : Bool}
    (here : s.pc = .finishing outcome dropping) :
    Final (s.locked (s.state.finish m.diagnostic outcome)
      (if dropping then .gone else .dropping false)) where
  unreported alive := absurd rfl alive
  unowned _ := rfl
  settled _ := final.finishing outcome dropping here
  finishing o d same := by cases dropping <;> cases same
  undone o phase := by cases dropping <;> cases phase
  returned r member := ⟨rfl,(final.returned r member).2⟩
  seen _ := rfl

theorem vmm (final : Final s) (safe : Safe s) (step : VmmStep m s t) : Final t := by
  have fits := safe.fits
  have after := (safe.vmm step).fits
  cases step with
  | silent silent => exact final.silent safe silent
  | refused e here =>
    rw [here] at fits
    have alive := fits_alive fits (.inl rfl)
    exact final.inside alive.2 alive rfl rfl rfl (by rintro _ ⟨⟩) (by rintro _ _ ⟨⟩)
  | running here =>
    rw [here] at fits
    refine final.inside (fits_alive fits (.inl rfl)).2 (fits_alive after (.inr rfl)) ?_ rfl rfl (by rintro _ ⟨⟩) (by rintro _ _ ⟨⟩)
    rcases s.state.running_cases with ⟨_,moved⟩ | ⟨_,same⟩
    · rw [Sys.locked,moved]
      rfl
    · rw [Sys.locked,same]
  | fetched r rest here queued =>
    rw [here] at fits
    have alive := fits_alive fits (.inr rfl)
    exact final.inside alive.2 alive rfl rfl rfl (by rintro _ ⟨⟩) (by rintro _ _ ⟨⟩)
  | answered r outcome here =>
    rw [here] at fits
    have alive := fits_alive fits (.inr rfl)
    cases outcome with
    | error e => exact final.inside alive.2 alive rfl rfl rfl (by rintro _ ⟨⟩) (by rintro _ _ ⟨⟩)
    | ok done =>
      refine final.inside alive.2 (fits_alive after (.inr rfl)) ?_ rfl rfl (by rintro _ ⟨⟩) (by rintro _ _ ⟨⟩)
      rcases s.state.complete_cases m.diagnostic r with ⟨_,same⟩ | ⟨_,moved⟩
      · rw [Sys.answer,Sys.record,Sys.locked,same]
      · rw [Sys.answer,Sys.record,Sys.locked,moved]
        rfl
  | rejected r here =>
    rw [here] at fits
    exact final.inside (fits_alive fits (.inr rfl)).2 ⟨by rintro ⟨⟩,by rintro ⟨⟩⟩ rfl rfl rfl (by rintro _ ⟨⟩) (by rintro _ _ ⟨⟩)
  | cleaning here =>
    rw [here] at fits
    exact final.inside fits.2 ⟨by rintro ⟨⟩,by rintro ⟨⟩⟩ rfl rfl rfl (by rintro _ ⟨⟩) (by rintro _ _ ⟨⟩)
  | cleaned c rest found here | swept here | saved here =>
    rw [here] at fits
    have stopping : s.state.lifecycle = .stopping := fits
    have alive : s.state.lifecycle ≠ .created ∧ s.state.lifecycle ≠ .stopped := by
      rw [stopping]
      exact ⟨by rintro ⟨⟩,by rintro ⟨⟩⟩
    exact final.inside alive.2 alive rfl rfl rfl (by rintro _ ⟨⟩) (by rintro _ _ ⟨⟩)
  | stopped outcome dropping here =>
    refine final.kept rfl rfl rfl (fun _ => settled_stop _) (fun _ _ _ => settled_stop _) ?_
    intro o phase
    cases dropping with
    | false => cases phase
    | true => exact final.undone o (by rw [here]; exact phase)
  | finished outcome dropping here => exact final.finish here
  | checked panicking here =>
    split
    · exact final.kept rfl rfl rfl final.settled (by rintro _ _ ⟨⟩) (by rintro _ ⟨⟩)
    · rename_i alive
      split
      · refine final.kept rfl rfl rfl final.settled (by rintro _ _ ⟨⟩) ?_
        rintro o phase
        cases phase
        exact .inr ⟨rfl,alive⟩
      · refine final.kept rfl rfl rfl final.settled (by rintro _ _ ⟨⟩) ?_
        rintro o phase
        cases phase
        exact .inl ⟨rfl,final.unreported alive⟩
  | panicSaved here =>
    obtain ⟨ok,_⟩ | ⟨_,alive⟩ := final.undone Sys.panicError (by rw [here]; rfl)
    · cases ok
    · exact {
        unreported := final.unreported
        unowned := final.unowned
        settled := fun stopped => absurd stopped alive
        finishing := by rintro _ _ ⟨⟩
        undone := fun o phase => by cases phase; exact .inr ⟨rfl,alive⟩
        returned := fun r member => by
          rw [show (s.locked _ _).returns = [] from final.unreturned alive] at member
          cases member
        seen := final.seen }

theorem hostStop (final : Final s) (thread : Nat) (calm : ¬Interrupts s (.stop thread)) :
    Final (s.hostStop thread) := by
  unfold Sys.hostStop
  split
  · exact final
  · rename_i after accepted
    obtain ⟨_,rfl⟩ := State.stop_accepted accepted
    have memory : Settled s.memory →
        Settled (if s.state.lifecycle = .created then s.memory.map MemoryStatus.stop else s.memory) := by
      intro settled
      split
      · exact settled_stop _
      · exact settled
    have target : State.stopTarget s.state.lifecycle = .stopped →
        s.state.lifecycle = .created ∨ s.state.lifecycle = .stopped := by
      cases s.state.lifecycle <;> simp [State.stopTarget]
    exact {
      unreported := by
        intro alive
        refine final.unreported ?_
        intro stopped
        refine alive ?_
        change State.stopTarget s.state.lifecycle = .stopped
        rw [stopped]
        rfl
      unowned := by
        rintro (created | stopped)
        · change State.stopTarget s.state.lifecycle = .created at created
          revert created
          cases s.state.lifecycle <;> simp [State.stopTarget]
        · exact final.unowned (target stopped)
      settled := by
        intro stopped
        rcases target stopped with created | ended
        · simp only [created,if_true]
          exact settled_stop _
        · exact memory (final.settled ended)
      finishing := fun outcome dropping here => memory (final.finishing outcome dropping here)
      undone := by
        intro outcome phase
        rcases final.undone outcome phase with good | ⟨rfl,alive⟩
        · exact .inl good
        · refine .inr ⟨rfl,?_⟩
          intro stopped
          rcases target stopped with created | ended
          · exact calm ⟨⟨thread,rfl⟩,created,phase⟩
          · exact alive ended
      returned := by
        intro r member
        obtain ⟨stopped,same⟩ := final.returned r member
        refine ⟨?_,same⟩
        change State.stopTarget s.state.lifecycle = .stopped
        rw [stopped]
        rfl
      seen := by
        intro reported
        change State.stopTarget s.state.lifecycle = .stopped
        rw [final.seen reported]
        rfl }

theorem step (final : Final s) (safe : Safe s) (l : Label) (taken : Calm m s l t) : Final t := by
  obtain ⟨taken,calm⟩ := taken
  have fits := safe.fits
  cases l with
  | submit thread operation =>
    cases taken
    unfold Sys.hostSubmit
    split
    · exact final
    · rename_i after accepted
      obtain ⟨_,_,rfl⟩ := State.submit_accepted accepted
      exact ⟨final.unreported,final.unowned,final.settled,final.finishing,final.undone,final.returned,
        final.seen⟩
  | stop thread =>
    cases taken
    exact final.hostStop thread calm
  | stopReturns =>
    obtain ⟨⟨_,stopped⟩,rfl⟩ := guarded taken
    refine ⟨final.unreported,final.unowned,final.settled,final.finishing,final.undone,?_,final.seen⟩
    intro r member
    rcases List.mem_append.mp member with old | new
    · exact final.returned r old
    · rw [List.mem_singleton.mp new]
      exact ⟨stopped,rfl⟩
  | status =>
    cases taken
    refine ⟨final.unreported,final.unowned,final.settled,final.finishing,final.undone,final.returned,?_⟩
    intro reported
    rcases Bool.or_eq_true_iff.mp reported with old | new
    · exact final.seen old
    · exact of_decide_eq_true new
  | setRequested mib =>
    cases taken
    have same : Settled s.memory → Settled (s.onMemory (·.afterRequest mib)).memory := by
      intro settled
      rw [Sys.onMemory,afterRequest_settled settled mib]
      exact settled
    exact final.kept rfl rfl rfl (fun stopped => same (final.settled stopped))
      (fun outcome dropping here => same (final.finishing outcome dropping here)) final.undone
  | begin thread =>
    simp only [Takes,Sys.next] at taken
    split at taken <;> cases taken
    unfold Sys.beginRun
    split
    · exact final.kept rfl rfl rfl final.settled (by rintro _ _ ⟨⟩) (by rintro _ ⟨⟩)
    · rename_i after accepted
      obtain ⟨created,rfl⟩ := State.begin_accepted accepted
      exact final.inside (by rw [created]; rintro ⟨⟩) ⟨by rintro ⟨⟩,by rintro ⟨⟩⟩ rfl rfl rfl (by rintro _ ⟨⟩) (by rintro _ _ ⟨⟩)
  | drop | dropFails =>
    simp only [Takes,Sys.next] at taken
    split at taken <;> cases taken
    exact final.kept rfl rfl rfl final.settled (by rintro _ _ ⟨⟩) (by rintro _ ⟨⟩)
  | vmm a => exact final.vmm safe (vmm_cases taken)
  | panic =>
    obtain ⟨_,rfl⟩ := guarded taken
    exact final.kept rfl rfl rfl final.settled (by rintro _ _ ⟨⟩) (by rintro _ ⟨⟩)

end Final

def Sys.report (s : Sys) : VmStatus × Option String × Option MemoryStatus :=
  (s.state.status,s.state.cleanupError,s.memory)

section Unchanged
variable {m : Machine} {s t : Sys}

theorem vmm_unchanged (safe : Safe s) (final : Final s) (stopped : s.state.lifecycle = .stopped)
    (step : VmmStep m s t) : t.report = s.report := by
  have fits := safe.fits
  rw [stopped] at fits
  cases step with
  | silent silent => exact absurd rfl (fits_alive fits silent.running).2
  | refused e here | running here =>
    rw [here] at fits
    exact absurd rfl (fits_alive fits (.inl rfl)).2
  | fetched r rest here queued | answered r outcome here | rejected r here =>
    rw [here] at fits
    exact absurd rfl (fits_alive fits (.inr rfl)).2
  | cleaning here =>
    rw [here] at fits
    exact absurd rfl fits.2
  | cleaned c rest found here | swept here | saved here =>
    rw [here] at fits
    cases fits
  | stopped outcome dropping here =>
    simp only [Sys.report,Sys.goto,Sys.onMemory,stop_settled (final.settled stopped)]
  | finished outcome dropping here =>
    cases dropping with
    | false =>
      rw [here] at fits
      rcases fits with h | ⟨h,_⟩ <;> cases h
    | true =>
      obtain ⟨rfl,unreported⟩ | ⟨_,alive⟩ := final.undone outcome (by rw [here]; rfl)
      · have same : s.state.status = ⟨.stopped,none⟩ := by
          rw [← stopped,← unreported]
          rfl
        simp only [Sys.report,same]
        rfl
      · exact absurd stopped alive
  | checked panicking here => rfl
  | panicSaved here =>
    obtain ⟨ok,_⟩ | ⟨_,alive⟩ := final.undone Sys.panicError (by rw [here]; rfl)
    · cases ok
    · exact absurd stopped alive

theorem report_unchanged (safe : Safe s) (final : Final s) (stopped : s.state.lifecycle = .stopped)
    (l : Label) (taken : s.next m l = some t) : t.report = s.report := by
  cases l with
  | submit thread operation =>
    cases taken
    unfold Sys.hostSubmit
    split
    · rfl
    · rename_i after accepted
      obtain ⟨_,_,rfl⟩ := State.submit_accepted accepted
      rfl
  | stop thread =>
    cases taken
    unfold Sys.hostStop
    split
    · rfl
    · rename_i after accepted
      obtain ⟨_,rfl⟩ := State.stop_accepted accepted
      rw [stopped]
      simp only [Sys.report,State.stopTarget,reduceCtorEq,if_false]
      rw [show (s.state.setLifecycle .stopped).cancel.1.status = s.state.status by
        rw [← stopped]; rfl]
      rfl
  | begin thread =>
    simp only [Sys.next] at taken
    split at taken <;> cases taken
    unfold Sys.beginRun
    split
    · rfl
    · rename_i after accepted
      obtain ⟨created,_⟩ := State.begin_accepted accepted
      cases stopped.symm.trans created
  | setRequested mib =>
    cases taken
    simp only [Sys.report,Sys.onMemory,afterRequest_settled (final.settled stopped) mib]
  | vmm a => exact vmm_unchanged safe final stopped (vmm_cases taken)
  | stopReturns | panic =>
    obtain ⟨_,rfl⟩ := guarded taken
    rfl
  | status =>
    cases taken
    rfl
  | drop | dropFails =>
    simp only [Sys.next] at taken
    split at taken <;> cases taken
    rfl

end Unchanged

theorem final_reached {m : Machine} {memory : Option MemoryStatus} {s : Sys}
    (reached : Reaches (Calm m) (Sys.new memory) s) : Safe s ∧ Final s ∧ Swept m s := by
  have kept : ∀ t l u, Safe t ∧ Final t ∧ Swept m t → Calm m t l u → Safe u ∧ Final u ∧ Swept m u := by
    rintro t l u ⟨safe,final,swept⟩ taken
    exact ⟨safe.step l taken.1,final.step safe l taken,swept.step l taken.1⟩
  exact @Reaches.invariant _ _ _ _ _ (fun s => Safe s ∧ Final s ∧ Swept m s)
    ⟨safe_new memory,final_new memory,swept_new m memory⟩ kept reached

/-- The vCPUs were stopped, every flush was attempted and the mappings were torn
down. -/
structure CleanedUp (m : Machine) (s : Sys) : Prop where
  stopped : s.created = true → .stopVm ∈ s.cleaned
  flushed : ∀ slot < m.devices.length, .flush slot ∈ s.cleaned
  memory : s.created = true → ∀ slot : Nat, m.devices[slot]? = some .memory → .stopMemory slot ∈ s.cleaned
  unmapped : s.created = true → ∀ region < s.mapped, .unmap region ∈ s.cleaned
  destroyed : .destroy ∈ s.cleaned

theorem plan_complete {m : Machine} {s : Sys} (planned : s.cleaned = s.plan m) : CleanedUp m s := by
  rw [Sys.plan] at planned
  constructor
  · intro created
    simp [planned,created]
  · intro slot inside
    simp [planned,inside]
  · intro created slot found
    obtain ⟨inside,kind⟩ := List.getElem?_eq_some_iff.mp found
    simp [planned,created,inside,kind]
  · intro created region inside
    simp [planned,created,inside]
  · rw [planned]
    split <;> simp

/-- What a later state reports, once a stop has returned or the VM was seen as
stopped in `s`. -/
structure Ended (s t : Sys) : Prop where
  status : t.state.status = s.state.status
  memory : t.memory = s.memory
  returns : ∀ r ∈ t.returns, r = Control.result s.state.cleanupError
  admitted : t.state.owner = none
  refuses : ∀ mib, ∃ e, setRequestedMib t.memory mib = .error e

def Sys.Observed (s : Sys) : Prop := s.returns ≠ [] ∨ s.seen = true

theorem observed_stopped {s : Sys} (final : Final s) (observed : s.Observed) :
    s.state.lifecycle = .stopped := by
  rcases observed with returned | seen
  · obtain ⟨r,member⟩ := List.exists_mem_of_ne_nil _ returned
    exact (final.returned r member).1
  · exact final.seen seen

/-- In every run in which no client stop interrupts the drop of a VM by an
unwinding thread: once a stop has returned or the VM was seen as stopped, status,
memory status and stop results are final and targets are refused; and if
`Runtime::new` succeeded and the VMM thread did not panic, the cleanup was complete
by then. -/
theorem stopped_is_final (m : Machine) (memory : Option MemoryStatus) {s t : Sys}
    (reached : Reaches (Calm m) (Sys.new memory) s) (observed : s.Observed)
    (later : Reaches (Calm m) s t) :
    Ended s t ∧ (s.assembled = true → s.panicked = false → CleanedUp m s) := by
  obtain ⟨safe,final,swept⟩ := final_reached reached
  have stopped := observed_stopped final observed
  have kept : ∀ u l v, (Safe u ∧ Final u) ∧ u.report = s.report → Calm m u l v →
      (Safe v ∧ Final v) ∧ v.report = s.report := by
    rintro u l v ⟨⟨safe,final⟩,same⟩ taken
    have ended : u.state.lifecycle = .stopped := by
      rw [← stopped]
      exact congrArg (fun report => report.1.lifecycle) same
    exact ⟨⟨safe.step l taken.1,final.step safe l taken⟩,
      (report_unchanged safe final ended l taken.1).trans same⟩
  obtain ⟨⟨_,finalAfter⟩,same⟩ := @Reaches.invariant _ _ _ _ _
    (fun u => (Safe u ∧ Final u) ∧ u.report = s.report) ⟨⟨safe,final⟩,rfl⟩ kept later
  have status : t.state.status = s.state.status := congrArg Prod.fst same
  have cleanup : t.state.cleanupError = s.state.cleanupError := congrArg (fun report => report.2.1) same
  have ended : t.state.lifecycle = .stopped := by
    rw [← stopped,State.lifecycle,status]
    rfl
  refine ⟨⟨status,congrArg (fun report => report.2.2) same,?_,finalAfter.unowned (.inr ended),
    setRequestedMib_settled (finalAfter.settled ended)⟩,?_⟩
  · intro r member
    rw [← cleanup]
    exact (finalAfter.returned r member).2
  · intro assembled calm
    have done : s.pc.cleanedUp = true := by
      have fits := safe.fits
      rw [stopped] at fits
      cases here : s.pc with
      | idle =>
        rw [swept.idle here] at assembled
        cases assembled
      | saving | stopMemory | finishing | dropping | savePanic | gone => rfl
      | leaving =>
        rw [here] at fits
        exact absurd rfl fits.2
      | cleanup todo =>
        rw [here] at fits
        cases fits
      | building | built | allocating | checking | calling | startMemory | started =>
        rw [here] at fits
        exact absurd rfl (fits_alive fits (.inl rfl)).2
      | _ =>
        rw [here] at fits
        exact absurd rfl (fits_alive fits (.inr rfl)).2
    exact plan_complete (swept.done done assembled calm)

/-- Steps other than a client stop interrupt nothing. -/
theorem calm_run {m : Machine} (labels : List Label) (unstopped : ∀ thread, .stop thread ∉ labels)
    {s t : Sys} (ran : run (Sys.next m) labels s = some t) : Reaches (Calm m) s t := by
  induction labels generalizing s with
  | nil =>
    cases ran
    exact .refl
  | cons l rest ih =>
    obtain ⟨u,taken,later⟩ := Option.bind_eq_some_iff.mp ran
    have calm : ¬Interrupts s l := by
      rintro ⟨⟨thread,rfl⟩,_⟩
      exact unstopped thread List.mem_cons_self
    exact (Reaches.tail l .refl ⟨taken,calm⟩).trans
      (ih (fun thread member => unstopped thread (List.mem_cons_of_mem _ member)) later)

/-- A client stop of a VM that began interrupts nothing. -/
theorem calm_stop {m : Machine} {s : Sys} (begun : s.state.lifecycle ≠ .created) (thread : Nat) :
    Reaches (Calm m) s (s.hostStop thread) :=
  .tail (.stop thread) .refl ⟨rfl,fun interrupts => begun interrupts.2.1⟩

def spareMachine : Machine where
  ram := 2
  devices := [.block "disk",.memory]
  diagnostic _ := "disk is full"

def spareStatus : Option MemoryStatus := some (MemoryStatus.new 128 2)

/-- The VM starts, and a client asks for memory. -/
def startLabels : List Label := .begin 0::List.replicate 15 (.vmm .ok) ++ [.setRequested 64]

def endLabels : List Label :=
  List.replicate 3 (.vmm .ok) ++ [.vmm (.err (.serial (.io ⟨"disk is full"⟩)))] ++ List.replicate 10 (.vmm .ok) ++ [.stopReturns]

def askLabels : List Label := [.status,.setRequested 2]

/-- A run that a client stops in its loop: when the stop returns, the failed flush is
reported, the memory device has been stopped and every range unmapped, and nothing of
that changes when clients ask again. -/
theorem stopped_is_final_sample :
    ∃ s, run (Sys.next spareMachine) startLabels (Sys.new spareStatus) = some s ∧
      s.memory.map (·.lifecycle) = some .running ∧
    ∃ t, run (Sys.next spareMachine) endLabels (s.hostStop 1) = some t ∧ t.Observed ∧
      t.returns = [.error (.cleanupFailed "disk is full")] ∧ t.memory.map (·.requestedSizeMib) = some 64 ∧
    ∃ u, run (Sys.next spareMachine) askLabels t = some u ∧
    ∃ v, run (Sys.next spareMachine) [.stopReturns] (u.hostStop 4) = some v ∧ v.returns.length = 2 ∧ Ended t v ∧
      CleanupCall.stopMemory 1 ∈ t.cleaned ∧ ∀ region < 2, CleanupCall.unmap region ∈ t.cleaned := by
  obtain ⟨s,started,running,working,t,ended,returned,asked,assembled,calm,made,mapped,u,later,stopped,v,again,twice⟩ :
      ∃ s, run (Sys.next spareMachine) startLabels (Sys.new spareStatus) = some s ∧
        s.state.lifecycle = .running ∧ s.memory.map (·.lifecycle) = some .running ∧
      ∃ t, run (Sys.next spareMachine) endLabels (s.hostStop 1) = some t ∧
        t.returns = [.error (.cleanupFailed "disk is full")] ∧ t.memory.map (·.requestedSizeMib) = some 64 ∧
        t.assembled = true ∧ t.panicked = false ∧ t.created = true ∧ t.mapped = 2 ∧
      ∃ u, run (Sys.next spareMachine) askLabels t = some u ∧ u.state.lifecycle = .stopped ∧
      ∃ v, run (Sys.next spareMachine) [.stopReturns] (u.hostStop 4) = some v ∧ v.returns.length = 2 :=
    ⟨_,rfl,rfl,rfl,_,rfl,rfl,rfl,rfl,rfl,rfl,rfl,_,rfl,rfl,_,rfl,rfl⟩
  have observed : t.Observed := .inl (by rw [returned]; exact List.cons_ne_nil _ _)
  have reached := ((calm_run startLabels (by simp [startLabels]) started).trans
    (calm_stop (by rw [running]; nofun) 1)).trans (calm_run endLabels (by simp [endLabels]) ended)
  have after : Reaches (Calm spareMachine) t v := ((calm_run askLabels (by simp [askLabels]) later).trans
    (calm_stop (by rw [stopped]; nofun) 4)).trans (calm_run _ (by simp) again)
  have final := stopped_is_final spareMachine spareStatus reached observed after
  have cleaned := final.2 assembled calm
  exact ⟨s,started,working,t,ended,observed,returned,asked,u,later,v,again,twice,final.1,cleaned.memory made 1 rfl,
    fun region less => cleaned.unmapped made region (by rw [mapped]; exact less)⟩

def panicMachine : Machine where
  ram := 1
  devices := []
  diagnostic _ := "VMM thread panicked"

/-- A thread unwinds and drops a VM that never ran. It has looked at the status
when a client stops the VM and is told that this went well. -/
def overtaken : List Label := [.drop true,.vmm .ok,.stop 1,.stopReturns]

/-- The unwinding thread saves its panic; the client stops once more. -/
def overwriting : List Label := [.vmm .ok,.vmm .ok,.vmm .ok,.stop 1,.stopReturns]

theorem stop_result_overwritten :
    ∃ s, run (Sys.next panicMachine) overtaken (Sys.new none) = some s ∧ s.Observed ∧
    ∃ t, run (Sys.next panicMachine) overwriting s = some t ∧ ¬Ended s t ∧
      s.state.status = ⟨.stopped,none⟩ ∧ t.state.status = ⟨.stopped,some "VMM thread panicked"⟩ ∧
      t.returns = [.ok (),.error (.cleanupFailed "VMM thread panicked")] := by
  refine ⟨_,rfl,?_⟩
  refine ⟨.inl (List.cons_ne_nil _ _),?_⟩
  refine ⟨_,rfl,?_⟩
  refine ⟨?_,rfl,rfl,rfl⟩
  intro ended
  have same := congrArg VmStatus.finalError ended.status
  cases same

end WVmm.Control
