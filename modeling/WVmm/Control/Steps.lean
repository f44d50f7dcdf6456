import WVmm.Control.Machine

/-! What one step of the VMM thread can do to the state it shares with clients. -/
namespace WVmm.Control
open Lib.Runs

inductive Phase
  | idle
  | start
  | loop
  | leave
  | clean
  | finish (outcome : Except Error Unit)
  | drop (panicking : Bool)
  | undo (outcome : Except Error Unit)
  | gone

def Pc.phase : Pc → Phase
  | .idle => .idle
  | .building | .built | .allocating | .checking _ | .calling _ | .startMemory | .started => .start
  | .head | .fetch | .serving _ | .completing _ _ | .rejecting _ | .waiting | .input | .uartIrq
  | .polling _ | .syncing | .probing | .pausing | .transacting | .resuming | .irqs _ | .events
  | .accessing | .accessIrq | .completeIo => .loop
  | .leaving => .leave
  | .cleanup _ | .saving => .clean
  | .stopMemory outcome false | .finishing outcome false => .finish outcome
  | .dropping panicking => .drop panicking
  | .savePanic => .undo Sys.panicError
  | .stopMemory outcome true | .finishing outcome true => .undo outcome
  | .gone => .gone

/-- A step of a run that takes no lock of the control state. -/
structure Silent (s t : Sys) : Prop where
  running : s.pc.phase = .start ∨ s.pc.phase = .loop
  phase : t.pc.phase = s.pc.phase ∨ t.pc.phase = .leave
  held : t.pc.held = s.pc.held
  state : t.state = s.state
  replies : t.replies = s.replies
  dropped : t.dropped = s.dropped
  accepted : t.accepted = s.accepted
  panicked : t.panicked = s.panicked
  returns : t.returns = s.returns
  seen : t.seen = s.seen
  cleaned : t.cleaned = s.cleaned

inductive VmmStep (m : Machine) (s : Sys) : Sys → Prop
  | silent {t : Sys} (silent : Silent s t) : VmmStep m s t
  | refused (e : Error) (here : s.pc = .building) :
    VmmStep m s {s with result := .error e, assembled := false, pc := .stopMemory (.error e) false}
  | running (here : s.pc = .started) : VmmStep m s (s.locked (s.state.running,[]) .head)
  | fetched (r : Request) (rest : List Request) (here : s.pc = .fetch)
    (queued : s.state.queue = r::rest) :
    VmmStep m s {(s.record (.serving r.operation)) with
      state := {s.state with queue := rest}
      pc := .serving r}
  | answered (r : Request) (outcome : Except Error Unit) (here : s.pc = .completing r outcome) :
    VmmStep m s (s.answer m r outcome)
  | rejected (r : Request) (here : s.pc = .rejecting r) :
    VmmStep m s ((s.locked (s.state.rejectStopping r) .head).leave (.ok ()))
  | cleaning (here : s.pc = .leaving) :
    VmmStep m s (s.locked s.state.cleaning (.cleanup (s.plan m)))
  | cleaned (c : CleanupCall) (rest : List CleanupCall) (found : Except Error Unit)
    (here : s.pc = .cleanup (c::rest)) : VmmStep m s (s.clean c rest found)
  | swept (here : s.pc = .cleanup []) : VmmStep m s (s.goto .saving)
  | saved (here : s.pc = .saving) :
    VmmStep m s (s.locked (s.state.cleanupResult m.diagnostic s.cleanup,[]) (.stopMemory s.outcome false))
  | stopped (outcome : Except Error Unit) (dropping : Bool) (here : s.pc = .stopMemory outcome dropping) :
    VmmStep m s ((s.onMemory MemoryStatus.stop).goto (.finishing outcome dropping))
  | finished (outcome : Except Error Unit) (dropping : Bool) (here : s.pc = .finishing outcome dropping) :
    VmmStep m s (s.locked (s.state.finish m.diagnostic outcome)
      (if dropping then .gone else .dropping false))
  | checked (panicking : Bool) (here : s.pc = .dropping panicking) :
    VmmStep m s (s.goto (if s.state.lifecycle = .stopped then .gone
      else if panicking then .savePanic
      else .stopMemory (.ok ()) true))
  | panicSaved (here : s.pc = .savePanic) :
    VmmStep m s (s.locked (s.state.cleanupResult m.diagnostic Sys.panicError,[])
      (.stopMemory Sys.panicError true))

namespace VmmStep

variable {m : Machine} {s t : Sys} {a : Answer}

theorem certain {u : Sys} (taken : u.certain a = some t) : t = u := by
  cases a <;> simp_all [Sys.certain]

theorem call {u v : Sys} (taken : u.call v a = some t) : t = v ∨ ∃ e, t = u.leave (.error e) := by
  cases a <;> simp only [Sys.call,Option.some.injEq,reduceCtorEq] at taken
  · exact .inl taken.symm
  · exact .inr ⟨_,taken.symm⟩

/-- A call of a run that takes no lock. -/
theorem silent_call {u v : Sys} (taken : u.call v a = some t) (back : Silent s v)
    (out : ∀ e, Silent s (u.leave (.error e))) : VmmStep m s t := by
  rcases call taken with rfl | ⟨e,rfl⟩
  · exact .silent back
  · exact .silent (out e)

theorem moves {p : Pc} (here : s.pc = p) (running : p.phase = .start ∨ p.phase = .loop)
    (phase : t.pc.phase = p.phase ∨ t.pc.phase = .leave) (held : t.pc.held = p.held)
    (kept : (t.state,t.replies,t.dropped,t.accepted,t.panicked,t.returns,t.seen,t.cleaned) =
      (s.state,s.replies,s.dropped,s.accepted,s.panicked,s.returns,s.seen,s.cleaned)) : Silent s t := by
  simp only [Prod.mk.injEq] at kept
  obtain ⟨state,replies,dropped,accepted,panicked,returns,seen,cleaned⟩ := kept
  subst here
  exact ⟨running,phase,held,state,replies,dropped,accepted,panicked,returns,seen,cleaned⟩

theorem startStep (taken : s.startStep m a = some t) : VmmStep m s t := by
  unfold Sys.startStep at taken
  split at taken
  case h_1 here =>
    split at taken
    · cases taken
      exact .silent (moves here (.inl rfl) (.inl rfl) rfl rfl)
    · cases taken
      exact .refused _ here
    · cases taken
  case h_2 here =>
    rw [certain taken]
    split
    · exact .silent (moves here (.inl rfl) (.inr rfl) rfl rfl)
    · exact .silent (moves here (.inl rfl) (.inl rfl) rfl rfl)
  case h_3 here =>
    exact silent_call taken (moves here (.inl rfl) (.inl rfl) rfl rfl)
      (fun _ => moves here (.inl rfl) (.inr rfl) rfl rfl)
  case h_4 stage here =>
    rw [certain taken]
    split <;> exact .silent (moves here (.inl rfl) (.inl rfl) rfl rfl)
  case h_5 stage here =>
    cases stage <;> exact silent_call taken (moves here (.inl rfl) (.inl rfl) rfl rfl)
      (fun _ => moves here (.inl rfl) (.inr rfl) rfl rfl)
  case h_6 here =>
    rw [certain taken]
    exact .silent (moves here (.inl rfl) (.inl rfl) rfl rfl)
  case h_7 here =>
    rw [certain taken]
    exact .running here
  case h_8 => cases taken

theorem serve {r : Request} (here : s.pc = .serving r) (taken : s.serve r a = some t) :
    VmmStep m s t := by
  unfold Sys.serve at taken
  split at taken <;> cases taken <;>
    exact .silent (moves here (.inr rfl) (.inl rfl) rfl rfl)

theorem requestStep (taken : s.requestStep m a = some t) : VmmStep m s t := by
  unfold Sys.requestStep at taken
  split at taken
  case h_1 here =>
    rw [certain taken]
    split
    · exact .silent (moves here (.inr rfl) (.inr rfl) rfl rfl)
    · exact .silent (moves here (.inr rfl) (.inl rfl) rfl rfl)
  case h_2 here =>
    rw [certain taken]
    split
    · exact .fetched _ _ here ‹_›
    · split <;> exact .silent (moves here (.inr rfl) (.inl rfl) rfl rfl)
  case h_3 r here => exact serve here taken
  case h_4 r outcome here =>
    rw [certain taken]
    exact .answered r outcome here
  case h_5 r here =>
    rw [certain taken]
    exact .rejected r here
  case h_6 here =>
    split at taken
    · cases taken
    · rw [certain taken]
      exact .silent (moves here (.inr rfl) (.inl rfl) rfl rfl)
  case h_7 => cases taken

theorem back {p : Pc} (here : s.pc = p) (running : p.phase = .loop) (looping : t.pc.phase = .loop)
    (held : t.pc.held = p.held)
    (kept : (t.state,t.replies,t.dropped,t.accepted,t.panicked,t.returns,t.seen,t.cleaned) =
      (s.state,s.replies,s.dropped,s.accepted,s.panicked,s.returns,s.seen,s.cleaned)) : Silent s t :=
  moves here (.inr running) (.inl (looping.trans running.symm)) held kept

theorem out {p : Pc} (here : s.pc = p) (running : p.phase = .loop) (leaving : t.pc = .leaving)
    (held : p.held = [])
    (kept : (t.state,t.replies,t.dropped,t.accepted,t.panicked,t.returns,t.seen,t.cleaned) =
      (s.state,s.replies,s.dropped,s.accepted,s.panicked,s.returns,s.seen,s.cleaned)) : Silent s t :=
  moves here (.inr running) (.inr (by rw [leaving]; rfl)) (by rw [leaving,held]; rfl) kept

theorem memoryStep (taken : s.memoryStep m a = some t) : VmmStep m s t := by
  unfold Sys.memoryStep at taken
  split at taken
  case h_1 here =>
    split at taken
    · split at taken <;> cases taken
      split <;> exact .silent (back here rfl rfl rfl rfl)
    · rw [certain taken]
      exact .silent (back here rfl rfl rfl rfl)
  case h_2 here =>
    split at taken
    · cases taken
      exact .silent (back here rfl rfl rfl rfl)
    · exact silent_call taken (back here rfl rfl rfl rfl) (fun _ => out here rfl rfl rfl rfl)
  case h_3 here =>
    split at taken <;> cases taken
    · exact .silent (back here rfl rfl rfl rfl)
    · exact .silent (out here rfl rfl rfl rfl)
    · exact .silent (out here rfl rfl rfl rfl)
  case h_4 here =>
    split at taken
    · cases taken
      exact .silent (back here rfl rfl rfl rfl)
    · cases taken
      exact .silent (back here rfl rfl rfl rfl)
    · exact silent_call taken (back here rfl rfl rfl rfl) (fun _ => out here rfl rfl rfl rfl)
  case h_5 here =>
    split at taken <;> cases taken
    · exact .silent (back here rfl rfl rfl rfl)
    · exact .silent (out here rfl rfl rfl rfl)
  case h_6 => cases taken

theorem passStep (taken : s.passStep m a = some t) : VmmStep m s t := by
  unfold Sys.passStep at taken
  split at taken
  case h_1 here | h_6 here =>
    split at taken
    · cases taken
      exact .silent (back here rfl rfl rfl rfl)
    · exact silent_call taken (back here rfl rfl rfl rfl) (fun _ => out here rfl rfl rfl rfl)
  case h_5 here =>
    split at taken
    · cases taken
      exact .silent (back here rfl rfl rfl rfl)
    · cases taken
      exact .silent (out here rfl rfl rfl rfl)
    · exact silent_call taken (back here rfl rfl rfl rfl) (fun _ => out here rfl rfl rfl rfl)
  case h_2 here | h_7 here | h_8 here =>
    exact silent_call taken (back here rfl rfl rfl rfl) (fun _ => out here rfl rfl rfl rfl)
  case h_3 k here | h_4 k here =>
    split at taken
    · exact silent_call taken (back here rfl rfl rfl rfl) (fun _ => out here rfl rfl rfl rfl)
    · rw [certain taken]
      exact .silent (back here rfl rfl rfl rfl)
  case h_9 => cases taken

theorem endStep (taken : s.endStep m a = some t) : VmmStep m s t := by
  unfold Sys.endStep at taken
  split at taken
  case h_1 here =>
    rw [certain taken]
    exact .cleaning here
  case h_2 here =>
    rw [certain taken]
    exact .swept here
  case h_3 c rest here =>
    split at taken
    · cases taken
      exact .cleaned c rest _ here
    · obtain ⟨_,rfl⟩ := unguarded taken
      exact .cleaned c rest _ here
    · cases taken
  case h_4 here =>
    rw [certain taken]
    exact .saved here
  case h_5 outcome dropping here =>
    rw [certain taken]
    exact .stopped outcome dropping here
  case h_6 outcome dropping here =>
    rw [certain taken]
    exact .finished outcome dropping here
  case h_7 panicking here =>
    rw [certain taken]
    exact .checked panicking here
  case h_8 here =>
    rw [certain taken]
    exact .panicSaved here
  case h_9 => cases taken

end VmmStep

theorem vmm_cases {m : Machine} {s t : Sys} {a : Answer} (taken : s.vmm m a = some t) :
    VmmStep m s t := by
  unfold Sys.vmm at taken
  split at taken
  · cases taken
  · exact VmmStep.startStep taken
  · exact VmmStep.requestStep taken
  · exact VmmStep.passStep taken
  · exact VmmStep.memoryStep taken
  · exact VmmStep.endStep taken

end WVmm.Control
