import WVmm.Memory

/-! The state a control handle shares with the VMM thread. Every definition here
is one critical section: what it does to the locked state and which replies it
sends. -/
namespace WVmm

inductive VmLifecycle
  | created
  | starting
  | running
  | paused
  | stopping
  | stopped
deriving DecidableEq

structure VmStatus where
  lifecycle : VmLifecycle
  /-- Final startup, runtime or cleanup error, retained after termination. -/
  finalError : Option String
deriving DecidableEq

namespace Control

inductive Operation
  | pause
  | resume
deriving DecidableEq

/-- A request, with the number of its reply channel. -/
structure Request where
  operation : Operation
  reply : Nat
deriving DecidableEq

structure State where
  status : VmStatus
  owner : Option Nat
  queue : List Request
  cleanupError : Option String

abbrev Reply := Nat × Except String Unit

def STOPPING : String := "VM is stopping"

def result (error : Option String) : Except ControlError Unit :=
  match error with
  | some e => .error (.cleanupFailed e)
  | none => .ok ()

def errorText (diagnostic : Error → String) : Except Error Unit → Option String
  | .ok () => none
  | .error e => some (diagnostic e)

def memoryStatus (memory : Option MemoryStatus) : Except ControlError MemoryStatus :=
  match memory with
  | none => .error .memoryNotConfigured
  | some status => .ok status

def setRequestedMib (memory : Option MemoryStatus) (requested : Nat) :
    Except ControlError MemoryStatus :=
  match memory with
  | none => .error .memoryNotConfigured
  | some status => (status.setRequestedMib requested).mapError .memory

namespace State

def new : State := ⟨⟨.created,none⟩,none,[],none⟩

def lifecycle (s : State) : VmLifecycle := s.status.lifecycle

def setLifecycle (s : State) (lifecycle : VmLifecycle) : State :=
  {s with status := {s.status with lifecycle := lifecycle}}

def stopping (s : State) : Bool := s.lifecycle = .stopping

def cancel (s : State) : State × List Reply :=
  ({s with queue := []},s.queue.map (fun r => (r.reply,.error STOPPING)))

def submit (s : State) (thread : Nat) (request : Request) : Except ControlError State :=
  if s.owner = some thread then .error .ownerThread
  else if s.lifecycle ≠ .running ∧ s.lifecycle ≠ .paused then .error .notRunning
  else .ok {s with queue := s.queue ++ [request]}

def stopTarget : VmLifecycle → VmLifecycle
  | .created | .stopped => .stopped
  | _ => .stopping

def stop (s : State) (thread : Nat) : Except ControlError (State × List Reply) :=
  if s.owner = some thread then .error .ownerThread
  else .ok (s.setLifecycle (stopTarget s.lifecycle)).cancel

def begin (s : State) (thread : Nat) : Except ControlError State :=
  if s.lifecycle ≠ .created then .error .cancelled
  else .ok {(s.setLifecycle .starting) with owner := some thread}

def running (s : State) : State :=
  if s.lifecycle = .starting then s.setLifecycle .running else s

def served : Operation → VmLifecycle
  | .pause => .paused
  | .resume => .running

def complete (diagnostic : Error → String) (s : State) (request : Request)
    (outcome : Except Error Unit) : State × List Reply :=
  (match outcome with
    | .ok () => if s.lifecycle ≠ .stopping then s.setLifecycle (served request.operation) else s
    | .error _ => s,
   [(request.reply,outcome.mapError diagnostic)])

/-- The VM began terminating while serving this request; reject it and every
queued request like a host stop would. -/
def rejectStopping (s : State) (request : Request) : State × List Reply :=
  {(s.setLifecycle .stopping) with queue := request::s.queue}.cancel

def waits (s : State) : Bool := s.lifecycle = .paused && s.queue.isEmpty

def cleaning (s : State) : State × List Reply := (s.setLifecycle .stopping).cancel

def cleanupResult (diagnostic : Error → String) (s : State) (outcome : Except Error Unit) : State :=
  {s with cleanupError := errorText diagnostic outcome}

/-- The locked part of `finish`; memory was stopped before. -/
def finish (diagnostic : Error → String) (s : State) (outcome : Except Error Unit) :
    State × List Reply :=
  {s with status := ⟨.stopped,errorText diagnostic outcome⟩, owner := none}.cancel

@[simp] theorem lifecycle_setLifecycle (s : State) (l : VmLifecycle) :
    (s.setLifecycle l).lifecycle = l := rfl

@[simp] theorem queue_setLifecycle (s : State) (l : VmLifecycle) :
    (s.setLifecycle l).queue = s.queue := rfl

theorem running_cases (s : State) :
    (s.lifecycle = .starting ∧ s.running = s.setLifecycle .running) ∨
      (s.lifecycle ≠ .starting ∧ s.running = s) := by
  unfold running
  split
  · exact .inl ⟨‹_›,rfl⟩
  · exact .inr ⟨‹_›,rfl⟩

/-- A served request moves the lifecycle unless the VM is stopping. -/
theorem complete_cases (diagnostic : Error → String) (s : State) (r : Request) :
    (s.lifecycle = .stopping ∧ (s.complete diagnostic r (.ok ())).1 = s) ∨
      (s.lifecycle ≠ .stopping ∧
        (s.complete diagnostic r (.ok ())).1 = s.setLifecycle (served r.operation)) := by
  by_cases stopping : s.lifecycle = .stopping
  · exact .inl ⟨stopping,by simp [complete,stopping]⟩
  · exact .inr ⟨stopping,by simp [complete,stopping]⟩

theorem served_cases (operation : Operation) :
    served operation = .running ∨ served operation = .paused := by
  cases operation
  · exact .inr rfl
  · exact .inl rfl

theorem stop_accepted {s : State} {thread : Nat} {after : State × List Reply}
    (accepted : s.stop thread = .ok after) :
    s.owner ≠ some thread ∧ after = (s.setLifecycle (stopTarget s.lifecycle)).cancel := by
  unfold stop at accepted
  split at accepted
  · cases accepted
  · exact ⟨‹_›,(Except.ok.inj accepted).symm⟩

theorem submit_accepted {s after : State} {thread : Nat} {request : Request}
    (accepted : s.submit thread request = .ok after) :
    s.owner ≠ some thread ∧ (s.lifecycle = .running ∨ s.lifecycle = .paused) ∧
      after = {s with queue := s.queue ++ [request]} := by
  unfold submit at accepted
  split at accepted
  · cases accepted
  · split at accepted
    · cases accepted
    · rename_i alive
      refine ⟨‹_›,?_,(Except.ok.inj accepted).symm⟩
      by_contra dead
      exact alive (not_or.mp dead)

theorem begin_accepted {s after : State} {thread : Nat} (accepted : s.begin thread = .ok after) :
    s.lifecycle = .created ∧ after = {(s.setLifecycle .starting) with owner := some thread} := by
  unfold begin at accepted
  split at accepted
  · cases accepted
  · exact ⟨not_not.mp ‹_›,(Except.ok.inj accepted).symm⟩

end State
end Control
end WVmm
