import WVmm.Control.Steps

/-! Safety of the control protocol: how the lifecycle moves, when requests are
queued, and that every accepted request is answered once. -/
namespace WVmm.Control
open Lib.Runs

/-- The lifecycles a phase of the VMM thread goes with. -/
def Fits (panicked : Bool) (phase : Phase) (l : VmLifecycle) : Prop :=
  match phase with
  | .idle | .gone | .drop false => l = .created ∨ l = .stopped
  | .start => l = .starting ∨ l = .stopping
  | .loop => l = .running ∨ l = .paused ∨ l = .stopping
  | .leave => l ≠ .created ∧ l ≠ .stopped
  | .clean => l = .stopping
  | .finish outcome => l = .stopping ∨ (l = .starting ∧ outcome ≠ .ok ())
  | .drop true | .undo _ => l = .created ∨ l = .stopped ∨ panicked = true

/-- Inside a run the VM has begun and not ended. -/
theorem fits_alive {panicked : Bool} {phase : Phase} {l : VmLifecycle} (fits : Fits panicked phase l)
    (running : phase = .start ∨ phase = .loop) : l ≠ .created ∧ l ≠ .stopped := by
  rcases running with rfl | rfl
  · rcases fits with rfl | rfl <;> exact ⟨nofun,nofun⟩
  · rcases fits with rfl | rfl | rfl <;> exact ⟨nofun,nofun⟩

def occurs (id : Nat) (requests : List Request) : Nat := (requests.map (·.reply)).count id

def answers (id : Nat) (replies : List Reply) : Nat := (replies.map Prod.fst).count id

structure Safe (s : Sys) : Prop where
  fits : Fits s.panicked s.pc.phase s.state.lifecycle
  empty : s.state.lifecycle ≠ .running → s.state.lifecycle ≠ .paused → s.state.queue = []
  /-- Every accepted request is queued, in hand, answered or dropped, and only
  one of these. -/
  pool : ∀ id, occurs id s.state.queue + occurs id s.pc.held + answers id s.replies +
    s.dropped.count id = if id < s.accepted then 1 else 0
  unwound : s.dropped ≠ [] → s.panicked = true

theorem safe_new (memory : Option MemoryStatus) : Safe (Sys.new memory) :=
  ⟨.inl rfl,fun _ _ => rfl,by simp [Sys.new,State.new,occurs,answers,Pc.held],by simp [Sys.new]⟩

/-- The edges of the lifecycle, and what a direct edge to `stopped` needs. -/
inductive Move (s : Sys) : VmLifecycle → VmLifecycle → Prop
  | stay (l : VmLifecycle) : Move s l l
  | begun : Move s .created .starting
  | running : Move s .starting .running
  | paused : Move s .running .paused
  | resumed : Move s .paused .running
  | stopping (l : VmLifecycle) (alive : l = .starting ∨ l = .running ∨ l = .paused) :
    Move s l .stopping
  | finished : Move s .stopping .stopped
  | cancelled : Move s .created .stopped
  | failed (e : Error) (here : s.pc = .finishing (.error e) false) : Move s .starting .stopped
  | unwound (panicked : s.panicked = true) (l : VmLifecycle) : Move s l .stopped

section Counting
variable (id : Nat)

@[simp] theorem occurs_nil : occurs id [] = 0 := rfl

@[simp] theorem occurs_append (a b : List Request) : occurs id (a ++ b) = occurs id a + occurs id b := by
  simp [occurs]

theorem occurs_cons (r : Request) (rest : List Request) :
    occurs id (r::rest) = occurs id [r] + occurs id rest := occurs_append id [r] rest

@[simp] theorem answers_nil : answers id [] = 0 := rfl

@[simp] theorem answers_append (a b : List Reply) : answers id (a ++ b) = answers id a + answers id b := by
  simp [answers]

@[simp] theorem answers_cancel (s : State) : answers id s.cancel.2 = occurs id s.queue := by
  simp [State.cancel,answers,occurs,Function.comp_def]

@[simp] theorem answers_complete (diagnostic : Error → String) (s : State) (r : Request)
    (outcome : Except Error Unit) : answers id (s.complete diagnostic r outcome).2 = occurs id [r] := rfl

end Counting

namespace Safe

variable {m : Machine} {s t : Sys}

/-- A step that hands requests around and sends replies. -/
theorem update (safe : Safe s) (sent : List Reply) (replies : t.replies = s.replies ++ sent)
    (dropped : t.dropped = s.dropped) (accepted : t.accepted = s.accepted)
    (panicked : t.panicked = s.panicked) (fits : Fits s.panicked t.pc.phase t.state.lifecycle)
    (empty : t.state.lifecycle ≠ .running → t.state.lifecycle ≠ .paused → t.state.queue = [])
    (balance : ∀ id, occurs id t.state.queue + occurs id t.pc.held + answers id sent =
      occurs id s.state.queue + occurs id s.pc.held) : Safe t where
  fits := by rw [panicked]; exact fits
  empty := empty
  pool id := by
    have before := safe.pool id
    have moved := balance id
    rw [replies,dropped,accepted,answers_append]
    omega
  unwound := by rw [dropped,panicked]; exact safe.unwound

theorem kept (safe : Safe s) (state : t.state = s.state) (replies : t.replies = s.replies)
    (dropped : t.dropped = s.dropped) (accepted : t.accepted = s.accepted)
    (panicked : t.panicked = s.panicked) (held : t.pc.held = s.pc.held)
    (fits : Fits s.panicked t.pc.phase s.state.lifecycle) : Safe t :=
  safe.update [] (by simp [replies]) dropped accepted panicked (by rw [state]; exact fits)
    (by rw [state]; exact safe.empty) (by simp [state,held])

theorem silent (safe : Safe s) (silent : Silent s t) : Safe t := by
  refine safe.kept silent.state silent.replies silent.dropped silent.accepted silent.panicked
    silent.held ?_
  rcases silent.phase with same | leave
  · rw [same]
    exact safe.fits
  · rw [leave]
    exact fits_alive safe.fits silent.running

/-- A section that cancels every queued request. -/
theorem cancels (safe : Safe s) (before : State) (queue : before.queue = s.pc.held ++ s.state.queue)
    (state : t.state = before.cancel.1) (replies : t.replies = s.replies ++ before.cancel.2)
    (dropped : t.dropped = s.dropped) (accepted : t.accepted = s.accepted)
    (panicked : t.panicked = s.panicked) (held : t.pc.held = [])
    (fits : Fits s.panicked t.pc.phase before.lifecycle) : Safe t := by
  refine safe.update before.cancel.2 replies dropped accepted panicked ?_ ?_ ?_
  · rw [state]
    exact fits
  · intro _ _
    rw [state]
    rfl
  · intro id
    rw [answers_cancel,state,held,queue,occurs_append]
    simp only [State.cancel,occurs_nil]
    omega

theorem vmm (safe : Safe s) (step : VmmStep m s t) : Safe t := by
  have fits := safe.fits
  cases step with
  | silent silent => exact safe.silent silent
  | refused e here =>
    rw [here] at fits
    refine safe.kept rfl rfl rfl rfl rfl (by rw [here]; rfl) ?_
    rcases fits with starting | stopping
    · exact .inr ⟨starting,nofun⟩
    · exact .inl stopping
  | running here =>
    rw [here] at fits
    have held : ∀ id, occurs id s.pc.held = 0 := by simp [here,Pc.held]
    rcases s.state.running_cases with ⟨starting,moved⟩ | ⟨other,same⟩
    · refine safe.update [] rfl rfl rfl rfl (.inl (by rw [Sys.locked,moved]; rfl)) ?_ ?_
      · intro running
        exact absurd (by rw [Sys.locked,moved]; rfl) running
      · intro id
        rw [held,Sys.locked,moved]
        rfl
    · refine safe.update [] rfl rfl rfl rfl ?_ ?_ ?_
      · rw [Sys.locked,same]
        exact .inr (.inr (fits.resolve_left other))
      · rw [Sys.locked,same]
        exact safe.empty
      · intro id
        rw [held,Sys.locked,same]
        rfl
  | fetched r rest here queued =>
    rw [here] at fits
    refine safe.update [] (by simp [Sys.record]) rfl rfl rfl fits ?_ ?_
    · intro running paused
      have empty := safe.empty running paused
      rw [queued] at empty
      cases empty
    · intro id
      rw [queued,occurs_cons,here]
      simp only [Pc.held,occurs_nil,answers_nil]
      omega
  | answered r outcome here =>
    rw [here] at fits
    have held : ∀ id, occurs id s.pc.held = occurs id [r] := by simp [here,Pc.held]
    cases outcome with
    | error e =>
      refine safe.update _ rfl rfl rfl rfl ?_ safe.empty ?_
      · exact fits_alive fits (.inr rfl)
      · intro id
        rw [answers_complete,held]
        rfl
    | ok done =>
      rcases s.state.complete_cases m.diagnostic r with ⟨stopping,same⟩ | ⟨alive,moved⟩
      · refine safe.update (s.state.complete m.diagnostic r (.ok ())).2 rfl rfl rfl rfl ?_ ?_ ?_
        · rw [Sys.answer,Sys.record,Sys.locked,same]
          exact fits
        · rw [Sys.answer,Sys.record,Sys.locked,same]
          exact safe.empty
        · intro id
          rw [answers_complete,held,Sys.answer,Sys.record,Sys.locked,same]
          rfl
      · refine safe.update (s.state.complete m.diagnostic r (.ok ())).2 rfl rfl rfl rfl ?_ ?_ ?_
        · rw [Sys.answer,Sys.record,Sys.locked,moved]
          exact (State.served_cases r.operation).imp_right .inl
        · rw [Sys.answer,Sys.record,Sys.locked,moved]
          intro running paused
          exact absurd (State.served_cases r.operation) (not_or.mpr ⟨running,paused⟩)
        · intro id
          rw [answers_complete,held,Sys.answer,Sys.record,Sys.locked,moved]
          rfl
  | rejected r here =>
    exact safe.cancels {(s.state.setLifecycle .stopping) with queue := r::s.state.queue}
      (by rw [here]; rfl) rfl rfl rfl rfl rfl rfl ⟨nofun,nofun⟩
  | cleaning here =>
    exact safe.cancels (s.state.setLifecycle .stopping) (by rw [here]; rfl) rfl rfl rfl rfl rfl rfl rfl
  | cleaned c rest found here =>
    rw [here] at fits
    exact safe.kept rfl rfl rfl rfl rfl (by rw [here]; rfl) fits
  | swept here =>
    rw [here] at fits
    exact safe.kept rfl rfl rfl rfl rfl (by rw [here]; rfl) fits
  | saved here =>
    rw [here] at fits
    exact safe.update [] rfl rfl rfl rfl (.inl fits) safe.empty (by simp [Sys.locked,State.cleanupResult,here,Pc.held])
  | stopped outcome dropping here =>
    rw [here] at fits
    refine safe.kept rfl rfl rfl rfl rfl (by rw [here]; rfl) ?_
    cases dropping <;> exact fits
  | finished outcome dropping here =>
    refine safe.cancels {s.state with status := ⟨.stopped,errorText m.diagnostic outcome⟩, owner := none}
      (by rw [here]; rfl) rfl rfl rfl rfl rfl ?_ ?_
    · cases dropping <;> rfl
    · cases dropping <;> exact .inr rfl
  | checked panicking here =>
    rw [here] at fits
    have held : ∀ p : Pc, p.held = [] → p.held = s.pc.held := fun p none => by rw [none,here]; rfl
    split
    · rename_i stopped
      exact safe.kept rfl rfl rfl rfl rfl (held _ rfl) (.inr stopped)
    · split
      · rename_i flag
        subst flag
        exact safe.kept rfl rfl rfl rfl rfl (held _ rfl) fits
      · rename_i flag
        cases panicking with
        | true => exact absurd rfl flag
        | false => exact safe.kept rfl rfl rfl rfl rfl (held _ rfl) (fits.imp_right .inl)
  | panicSaved here =>
    rw [here] at fits
    exact safe.update [] rfl rfl rfl rfl fits safe.empty (by simp [Sys.locked,State.cleanupResult,here,Pc.held])

theorem fits_stopTarget {panicked : Bool} {phase : Phase} {l : VmLifecycle}
    (fits : Fits panicked phase l) : Fits panicked phase (State.stopTarget l) := by
  match phase, fits with
  | .idle, fits | .gone, fits | .drop false, fits => rcases fits with rfl | rfl <;> exact .inr rfl
  | .start, fits => rcases fits with rfl | rfl <;> exact .inr rfl
  | .loop, fits => rcases fits with rfl | rfl | rfl <;> exact .inr (.inr rfl)
  | .leave, fits => cases l <;> simp_all [Fits,State.stopTarget]
  | .clean, fits => subst fits; rfl
  | .finish _, fits => rcases fits with rfl | ⟨rfl,_⟩ <;> exact .inl rfl
  | .drop true, fits | .undo _, fits =>
    rcases fits with rfl | rfl | unwound
    · exact .inr (.inl rfl)
    · exact .inr (.inl rfl)
    · exact .inr (.inr unwound)

theorem hostStop (safe : Safe s) (thread : Nat) : Safe (s.hostStop thread) := by
  unfold Sys.hostStop
  split
  · exact safe
  · rename_i after accepted
    obtain ⟨_,rfl⟩ := State.stop_accepted accepted
    refine safe.update _ rfl rfl rfl rfl (fits_stopTarget safe.fits) (fun _ _ => rfl) ?_
    intro id
    rw [answers_cancel]
    simp only [State.cancel,occurs_nil,State.queue_setLifecycle]
    omega

theorem hostSubmit (safe : Safe s) (thread : Nat) (operation : Operation) :
    Safe (s.hostSubmit thread operation) := by
  unfold Sys.hostSubmit
  split
  · exact safe
  · rename_i after accepted
    obtain ⟨_,alive,rfl⟩ := State.submit_accepted accepted
    refine ⟨safe.fits,?_,?_,safe.unwound⟩
    · intro running paused
      exact absurd alive (not_or.mpr ⟨running,paused⟩)
    · intro id
      have before := safe.pool id
      have own : occurs id [⟨operation,s.accepted⟩] = if id = s.accepted then 1 else 0 := by
        by_cases same : id = s.accepted
        · simp [occurs,same]
        · simp [occurs,same,Ne.symm same]
      simp only [occurs_append,own]
      split <;> split at before <;> split <;> omega

theorem beginRun (safe : Safe s) (idle : s.pc = .idle) (thread : Nat) : Safe (s.beginRun thread) := by
  have fits := safe.fits
  rw [idle] at fits
  have held : ∀ id, occurs id s.pc.held = 0 := by simp [idle,Pc.held]
  unfold Sys.beginRun
  split
  · exact safe.kept rfl rfl rfl rfl rfl (by rw [idle]; rfl) fits
  · rename_i after accepted
    obtain ⟨created,rfl⟩ := State.begin_accepted accepted
    have empty := safe.empty (by rw [created]; nofun) (by rw [created]; nofun)
    refine safe.update [] (by simp) rfl rfl rfl (.inl rfl) (fun _ _ => empty) ?_
    intro id
    rw [held]
    rfl

theorem unwind (safe : Safe s) : Safe s.unwind := by
  refine ⟨.inr (.inr rfl),safe.empty,?_,fun _ => rfl⟩
  intro id
  have before := safe.pool id
  have dropped : s.unwind.dropped.count id = s.dropped.count id + occurs id s.pc.held :=
    List.count_append
  have held : occurs id s.unwind.pc.held = 0 := rfl
  rw [dropped,held]
  change occurs id s.state.queue + 0 + answers id s.replies + _ = if id < s.accepted then 1 else 0
  omega

theorem step (safe : Safe s) (l : Label) (taken : s.next m l = some t) : Safe t := by
  have fits := safe.fits
  cases l with
  | submit thread operation =>
    cases taken
    exact safe.hostSubmit thread operation
  | stop thread =>
    cases taken
    exact safe.hostStop thread
  | stopReturns =>
    obtain ⟨_,rfl⟩ := guarded taken
    exact safe.kept rfl rfl rfl rfl rfl rfl fits
  | status | setRequested mib =>
    cases taken
    exact safe.kept rfl rfl rfl rfl rfl rfl fits
  | begin thread =>
    simp only [Sys.next] at taken
    split at taken <;> cases taken
    exact safe.beginRun ‹_› thread
  | drop panicking =>
    simp only [Sys.next] at taken
    split at taken <;> cases taken
    rename_i idle
    rw [idle] at fits
    refine safe.kept rfl rfl rfl rfl rfl (by rw [idle]; rfl) ?_
    cases panicking
    · exact fits
    · exact fits.imp_right .inl
  | dropFails =>
    simp only [Sys.next] at taken
    split at taken <;> cases taken
    rename_i idle
    rw [idle] at fits
    exact safe.kept rfl rfl rfl rfl rfl (by rw [idle]; rfl) fits
  | vmm a => exact safe.vmm (vmm_cases taken)
  | panic =>
    obtain ⟨_,rfl⟩ := guarded taken
    exact safe.unwind

end Safe

theorem safe_reached {m : Machine} {memory : Option MemoryStatus} {s : Sys}
    (reached : Reaches (Takes (Sys.next m)) (Sys.new memory) s) : Safe s :=
  reached.invariant (safe_new memory) (fun _ l _ safe taken => safe.step l taken)

section Moves
variable {m : Machine} {s t : Sys}

theorem stopTarget_moves (l : VmLifecycle) : Move s l (State.stopTarget l) := by
  cases l with
  | created => exact .cancelled
  | starting => exact .stopping _ (.inl rfl)
  | running => exact .stopping _ (.inr (.inl rfl))
  | paused => exact .stopping _ (.inr (.inr rfl))
  | stopping | stopped => exact .stay _

/-- The sections that move the lifecycle to `stopping`. -/
theorem stopping_moves {l : VmLifecycle} (alive : l ≠ .created ∧ l ≠ .stopped) : Move s l .stopping := by
  cases l with
  | created => exact absurd rfl alive.1
  | stopped => exact absurd rfl alive.2
  | stopping => exact .stay _
  | starting => exact .stopping _ (.inl rfl)
  | running => exact .stopping _ (.inr (.inl rfl))
  | paused => exact .stopping _ (.inr (.inr rfl))

theorem finish_moves (safe : Safe s) {outcome : Except Error Unit} {dropping : Bool}
    (here : s.pc = .finishing outcome dropping) : Move s s.state.lifecycle .stopped := by
  have fits := safe.fits
  rw [here] at fits
  cases dropping with
  | false =>
    rcases fits with stopping | ⟨starting,failed⟩
    · rw [stopping]
      exact .finished
    · rw [starting]
      cases outcome with
      | ok _ => exact absurd rfl failed
      | error e => exact .failed e here
  | true =>
    rcases fits with created | stopped | panicked
    · rw [created]
      exact .cancelled
    · rw [stopped]
      exact .stay _
    · exact .unwound panicked _

theorem vmm_moves (safe : Safe s) (step : VmmStep m s t) :
    Move s s.state.lifecycle t.state.lifecycle := by
  have fits := safe.fits
  cases step with
  | silent silent =>
    rw [silent.state]
    exact .stay _
  | running here =>
    rcases s.state.running_cases with ⟨starting,moved⟩ | ⟨_,same⟩
    · rw [starting,Sys.locked,moved]
      exact .running
    · rw [Sys.locked,same]
      exact .stay _
  | answered r outcome here =>
    rw [here] at fits
    cases outcome with
    | error e => exact .stay _
    | ok done =>
      rcases s.state.complete_cases m.diagnostic r with ⟨_,same⟩ | ⟨alive,moved⟩
      · rw [Sys.answer,Sys.record,Sys.locked,same]
        exact .stay _
      · rw [Sys.answer,Sys.record,Sys.locked,moved,State.lifecycle_setLifecycle]
        rcases fits with running | paused | stopping
        · rw [running]
          cases r.operation
          · exact .paused
          · exact .stay _
        · rw [paused]
          cases r.operation
          · exact .stay _
          · exact .resumed
        · exact absurd stopping alive
  | rejected r here =>
    rw [here] at fits
    exact stopping_moves (fits_alive fits (.inr rfl))
  | cleaning here =>
    rw [here] at fits
    exact stopping_moves fits
  | finished outcome dropping here => exact finish_moves safe here
  | refused | fetched | cleaned | swept | saved | stopped | checked | panicSaved => exact .stay _

theorem next_moves (safe : Safe s) (l : Label) (taken : s.next m l = some t) :
    Move s s.state.lifecycle t.state.lifecycle := by
  cases l with
  | submit thread operation =>
    cases taken
    unfold Sys.hostSubmit
    split
    · exact .stay _
    · rename_i after accepted
      obtain ⟨_,_,rfl⟩ := State.submit_accepted accepted
      exact .stay _
  | stop thread =>
    cases taken
    unfold Sys.hostStop
    split
    · exact .stay _
    · rename_i after accepted
      obtain ⟨_,rfl⟩ := State.stop_accepted accepted
      exact stopTarget_moves _
  | begin thread =>
    simp only [Sys.next] at taken
    split at taken <;> cases taken
    unfold Sys.beginRun
    split
    · exact .stay _
    · rename_i after accepted
      obtain ⟨created,rfl⟩ := State.begin_accepted accepted
      rw [created]
      exact .begun
  | vmm a => exact vmm_moves safe (vmm_cases taken)
  | stopReturns | panic =>
    obtain ⟨_,rfl⟩ := guarded taken
    exact .stay _
  | status | setRequested mib =>
    cases taken
    exact .stay _
  | drop | dropFails =>
    simp only [Sys.next] at taken
    split at taken <;> cases taken
    exact .stay _

/-- Only an unwinding VMM thread drops a channel: the one in its hands. -/
theorem vmm_drops (step : VmmStep m s t) : t.dropped = s.dropped := by
  cases step with
  | silent silent => exact silent.dropped
  | answered r outcome here => cases outcome <;> rfl
  | _ => rfl

theorem next_drops (l : Label) (taken : s.next m l = some t) :
    t.dropped = s.dropped ∨ (l = .panic ∧ t.dropped = s.dropped ++ s.pc.held.map (·.reply)) := by
  cases l with
  | submit thread operation =>
    cases taken
    unfold Sys.hostSubmit
    split <;> exact .inl rfl
  | stop thread =>
    cases taken
    unfold Sys.hostStop
    split <;> exact .inl rfl
  | begin thread =>
    simp only [Sys.next] at taken
    split at taken <;> cases taken
    unfold Sys.beginRun
    split <;> exact .inl rfl
  | vmm a => exact .inl (vmm_drops (vmm_cases taken))
  | panic =>
    obtain ⟨_,rfl⟩ := guarded taken
    exact .inr ⟨rfl,rfl⟩
  | stopReturns =>
    obtain ⟨_,rfl⟩ := guarded taken
    exact .inl rfl
  | status | setRequested mib =>
    cases taken
    exact .inl rfl
  | drop | dropFails =>
    simp only [Sys.next] at taken
    split at taken <;> cases taken
    exact .inl rfl

end Moves

/-- Nothing is in hand once the VM has stopped. -/
theorem stopped_empty_handed {s : Sys} (safe : Safe s) (stopped : s.state.lifecycle = .stopped) :
    s.pc.held = [] := by
  have fits := safe.fits
  rw [stopped] at fits
  cases here : s.pc with
  | serving r | completing r outcome | rejecting r =>
    rw [here] at fits
    exact absurd rfl (fits_alive fits (.inr rfl)).2
  | _ => rfl

/-- In every reachable state the next step moves the lifecycle along an edge of
`Move`, nothing is queued unless the VM is running or paused, no request is
answered twice, and once the VM has stopped every accepted request was answered
once or its channel was dropped by a panic while it was served. -/
theorem control_safety (m : Machine) (memory : Option MemoryStatus) {s : Sys}
    (reached : Reaches (Takes (Sys.next m)) (Sys.new memory) s) :
    (∀ l t, s.next m l = some t → Move s s.state.lifecycle t.state.lifecycle) ∧
    (s.state.lifecycle ≠ .running → s.state.lifecycle ≠ .paused → s.state.queue = []) ∧
    (∀ id, answers id s.replies + s.dropped.count id ≤ if id < s.accepted then 1 else 0) ∧
    (s.state.lifecycle = .stopped →
      ∀ id < s.accepted, answers id s.replies + s.dropped.count id = 1) ∧
    ∀ l t, s.next m l = some t →
      t.dropped = s.dropped ∨ (l = .panic ∧ t.dropped = s.dropped ++ s.pc.held.map (·.reply)) := by
  have safe := safe_reached reached
  refine ⟨fun l t taken => next_moves safe l taken,safe.empty,?_,?_,fun l t taken => next_drops l taken⟩
  · intro id
    have pool := safe.pool id
    omega
  · intro stopped id accepted
    have pool := safe.pool id
    have idle := safe.empty (by rw [stopped]; nofun) (by rw [stopped]; nofun)
    rw [idle,stopped_empty_handed safe stopped,if_pos accepted] at pool
    simpa using pool

def sampleMachine : Machine where
  ram := 1
  devices := [.block "disk"]
  diagnostic _ := "error"

/-- A client pauses, a second request is overtaken by a stop while the loop
serves the first one, and the run ends. -/
def sampleLabels : List Label :=
  [.begin 0] ++ List.replicate 13 (.vmm .ok) ++
    [.submit 1 .pause,.submit 2 .resume,.vmm .ok,.vmm .ok,.vmm .ok,.stop 3] ++
    List.replicate 12 (.vmm .ok) ++ [.stopReturns]

theorem control_safety_sample :
    ∃ s, run (Sys.next sampleMachine) sampleLabels (Sys.new none) = some s ∧
      s.state.lifecycle = .stopped ∧ s.accepted = 2 ∧
      ∀ id < 2, answers id s.replies + s.dropped.count id = 1 := by
  refine ⟨_,rfl,?_⟩
  refine ⟨rfl,rfl,?_⟩
  exact (control_safety sampleMachine none (reaches_of_run sampleLabels rfl)).2.2.2.1 rfl

end WVmm.Control
