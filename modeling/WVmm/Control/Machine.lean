import WVmm.Control.State
import WVmm.Platform.Machine
import WVmm.Lib.Runs

/-! One VMM thread and any number of client threads on a shared control state.
The VMM thread follows `run_with_platform`, `runtime::run`, `init`, the run loop
and `cleanup`, or drops a VM that never ran; it may unwind from any point of a
run. Whatever a platform or a device answers is part of the step's label. -/
namespace WVmm.Control
open Platform

structure Machine where
  /-- The number of base RAM ranges. -/
  ram : Nat
  devices : List DeviceKind
  diagnostic : Error → String

/-- The boundaries of `init`, each behind a look at `stopping`. -/
inductive Stage
  | create
  | map (region : Nat)
  | prepare
  | start
deriving DecidableEq

def Stage.following (m : Machine) : Stage → Stage
  | .create => if 0 < m.ram then .map 0 else .prepare
  | .map k => if k + 1 < m.ram then .map (k + 1) else .prepare
  | _ => .start

inductive CleanupCall
  | stopVm
  | flush (slot : Nat)
  | stopMemory (slot : Nat)
  | unmap (region : Nat)
  | destroy
deriving DecidableEq

def CleanupCall.stopsMemory : CleanupCall → Bool
  | .stopMemory _ => true
  | _ => false

inductive Pc
  /-- The VM is owned and neither run nor dropped. -/
  | idle
  /-- `begin` succeeded; about to call `Runtime::new`. -/
  | building
  | built
  | allocating
  | checking (stage : Stage)
  | calling (stage : Stage)
  | startMemory
  /-- `init` returned a view; about to call `running`. -/
  | started
  /-- The head of the run loop. -/
  | head
  | fetch
  | serving (r : Request)
  | completing (r : Request) (outcome : Except Error Unit)
  | rejecting (r : Request)
  | waiting
  | input
  | uartIrq
  | polling (slot : Nat)
  | syncing
  | probing
  | pausing
  | transacting
  | resuming
  | irqs (slot : Nat)
  | events
  | accessing
  | accessIrq
  | completeIo
  /-- The run ended; about to call `cleaning`. -/
  | leaving
  | cleanup (todo : List CleanupCall)
  | saving
  /-- `finish`, before and after it stopped memory. -/
  | stopMemory (outcome : Except Error Unit) (dropping : Bool)
  | finishing (outcome : Except Error Unit) (dropping : Bool)
  /-- `dropped`, before its look at the status. -/
  | dropping (panicking : Bool)
  | savePanic
  | gone

inductive Event
  | serving (operation : Operation)
  | replied (operation : Operation) (accepted : Bool)
  | pause (host : Bool) (answer : Option PauseOutcome)
  | resume (host : Bool) (answer : Option Unit)
  | recv
  | setIrq
  | poll (slot : Nat)
  | map
  | unmap
  | pollEvent
  | access
  | completeIo
  | left
deriving DecidableEq

structure Sys where
  state : State
  memory : Option MemoryStatus
  pc : Pc
  assembled : Bool
  created : Bool
  mapped : Nat
  /-- The flag of the run loop. -/
  paused : Bool
  result : Except Error Unit
  fault : Except Error Unit
  cleanup : Except Error Unit
  cleaned : List CleanupCall
  panicked : Bool
  /-- How many requests were accepted; their channels are numbered from zero. -/
  accepted : Nat
  replies : List Reply
  /-- Channels dropped by an unwinding VMM thread. -/
  dropped : List Nat
  waiting : Nat
  returns : List (Except ControlError Unit)
  /-- Some `status` call reported `stopped`. -/
  seen : Bool
  log : List Event

inductive Answer
  | ok
  | err (e : Error)
  /-- `pause` found the VM terminating, or `poll_event` returned a shutdown. -/
  | ending
  /-- The FIFO is full, no request is available or no event is pending. -/
  | nothing
  /-- The memory device took over the target; whether its driver is ready. -/
  | synced (ready : Bool)
  /-- One mapper call of a transaction. -/
  | mapped (plug : Bool)
  /-- A transaction updated the plugged size. -/
  | plugged (mib : Nat)
  | reset

inductive Label
  | submit (thread : Nat) (operation : Operation)
  | stop (thread : Nat)
  | stopReturns
  | status
  | setRequested (mib : Nat)
  | begin (thread : Nat)
  | drop (panicking : Bool)
  /-- A device panics while the VM is dropped. -/
  | dropFails
  | vmm (answer : Answer)
  | panic

def Pc.held : Pc → List Request
  | .serving r | .completing r _ | .rejecting r => [r]
  | _ => []

def Pc.inRun : Pc → Bool
  | .idle | .stopMemory _ _ | .finishing _ _ | .dropping _ | .savePanic | .gone => false
  | _ => true

namespace Sys

def new (memory : Option MemoryStatus) : Sys where
  state := State.new
  memory := memory
  pc := .idle
  assembled := false
  created := false
  mapped := 0
  paused := false
  result := .ok ()
  fault := .ok ()
  cleanup := .ok ()
  cleaned := []
  panicked := false
  accepted := 0
  replies := []
  dropped := []
  waiting := 0
  returns := []
  seen := false
  log := []

def hasMemory (m : Machine) : Bool := m.devices.contains .memory

def plan (m : Machine) (s : Sys) : List CleanupCall :=
  (if s.created then [.stopVm] else []) ++ (List.range m.devices.length).map .flush ++
    if s.created then
      ((List.range m.devices.length).filter (fun k => m.devices[k]? = some .memory)).map .stopMemory ++
        (List.range s.mapped).map .unmap ++ [.destroy]
    else [.destroy]

def outcome (s : Sys) : Except Error Unit :=
  match s.result, s.fault with
  | .error e, _ => .error e
  | _, .error e => .error e
  | _, _ => s.cleanup

def goto (s : Sys) (pc : Pc) : Sys := {s with pc := pc}

def record (s : Sys) (event : Event) : Sys := {s with log := s.log ++ [event]}

def leave (s : Sys) (result : Except Error Unit) : Sys :=
  {s with pc := .leaving, result := result, log := s.log ++ [.left]}

def locked (s : Sys) (after : State × List Reply) (pc : Pc) : Sys :=
  {s with state := after.1, replies := s.replies ++ after.2, pc := pc}

/-- A change to the memory status behind its own lock. -/
def onMemory (s : Sys) (f : MemoryStatus → MemoryStatus) : Sys := {s with memory := s.memory.map f}

def certain (s : Sys) : Answer → Option Sys
  | .ok => some s
  | _ => none

def call (s : Sys) (next : Sys) : Answer → Option Sys
  | .ok => some next
  | .err e => some (s.leave (.error e))
  | _ => none

def initCall (m : Machine) (s : Sys) : Stage → Answer → Option Sys
  | .create => s.call {s with created := true, pc := .checking (Stage.create.following m)}
  | .map k => s.call {s with mapped := s.mapped + 1, pc := .checking ((Stage.map k).following m)}
  | .prepare => s.call (s.goto (.checking .start))
  | .start => s.call (s.goto .startMemory)

/-- Serve a request: `pause` on a running VM, `resume` on a paused one, nothing
otherwise. -/
def serve (s : Sys) (r : Request) (a : Answer) : Option Sys :=
  match r.operation, s.paused, a with
  | .pause, false, .ok =>
    some {(s.record (.pause true (some .paused))) with pc := .completing r (.ok ()), paused := true}
  | .pause, false, .ending => some ((s.record (.pause true (some .stopping))).goto (.rejecting r))
  | .pause, false, .err e => some ((s.record (.pause true none)).goto (.completing r (.error e)))
  | .resume, true, .ok =>
    some {(s.record (.resume true (some ()))) with pc := .completing r (.ok ()), paused := false}
  | .resume, true, .err e => some ((s.record (.resume true none)).goto (.completing r (.error e)))
  | .pause, true, .ok => some (s.goto (.completing r (.ok ())))
  | .resume, false, .ok => some (s.goto (.completing r (.ok ())))
  | _, _, _ => none

def answer (m : Machine) (s : Sys) (r : Request) (outcome : Except Error Unit) : Sys :=
  match outcome with
  | .ok () =>
    (s.locked (s.state.complete m.diagnostic r outcome) .head).record (.replied r.operation true)
  | .error e =>
    ((s.locked (s.state.complete m.diagnostic r outcome) .head).record
      (.replied r.operation false)).leave (.error e)

def requestStep (m : Machine) (s : Sys) (a : Answer) : Option Sys :=
  match s.pc with
  | .head => (if s.state.stopping then s.leave (.ok ()) else s.goto .fetch).certain a
  | .fetch => (match s.state.queue with
    | r::rest => {(s.record (.serving r.operation)) with
        state := {s.state with queue := rest}
        pc := .serving r}
    | [] => s.goto (if s.paused then .waiting else .input)).certain a
  | .serving r => s.serve r a
  | .completing r outcome => (s.answer m r outcome).certain a
  | .rejecting r => ((s.locked (s.state.rejectStopping r) .head).leave (.ok ())).certain a
  | .waiting => if s.state.waits then none else (s.goto .head).certain a
  | _ => none

def memoryStep (m : Machine) (s : Sys) (a : Answer) : Option Sys :=
  match s.pc with
  | .syncing =>
    if hasMemory m then match a with
      | .synced ready => some ((s.onMemory (fun status => {status with driverReady := ready})).goto
          (if ready then .probing else .irqs 0))
      | _ => none
    else (s.goto (.irqs 0)).certain a
  | .probing => match a with
    | .nothing => some (s.goto (.irqs 0))
    | _ => s.call (s.goto .pausing) a
  | .pausing => match a with
    | .ok => some ((s.record (.pause false (some .paused))).goto .transacting)
    | .ending => some ((s.record (.pause false (some .stopping))).leave (.ok ()))
    | .err e => some ((s.record (.pause false none)).leave (.error e))
    | _ => none
  | .transacting => match a with
    | .mapped plug => some ((s.record (if plug then .map else .unmap)).goto .transacting)
    | .plugged mib =>
      some ((s.onMemory (fun status => {status with pluggedSizeMib := mib})).goto .transacting)
    | _ => s.call (s.goto .resuming) a
  | .resuming => match a with
    | .ok => some ((s.record (.resume false (some ()))).goto (.irqs 0))
    | .err e => some ((s.record (.resume false none)).leave (.error e))
    | _ => none
  | _ => none

def passStep (m : Machine) (s : Sys) (a : Answer) : Option Sys :=
  match s.pc with
  | .input => match a with
    | .nothing => some (s.goto .uartIrq)
    | _ => (s.record .recv).call ((s.record .recv).goto .uartIrq) a
  | .uartIrq => (s.record .setIrq).call ((s.record .setIrq).goto (.polling 0)) a
  | .polling k =>
    if k < m.devices.length then
      (s.record (.poll k)).call ((s.record (.poll k)).goto (.polling (k + 1))) a
    else (s.goto .syncing).certain a
  | .irqs k =>
    if k < m.devices.length then
      (s.record .setIrq).call ((s.record .setIrq).goto (.irqs (k + 1))) a
    else (s.goto .events).certain a
  | .events => match a with
    | .nothing => some ((s.record .pollEvent).goto .head)
    | .ending => some ((s.record .pollEvent).leave (.ok ()))
    | _ => (s.record .pollEvent).call ((s.record .pollEvent).goto .accessing) a
  | .accessing => match a with
    | .reset =>
      some (((s.record .access).onMemory (fun status => {status with driverReady := false})).goto
        .accessIrq)
    | _ => (s.record .access).call ((s.record .access).goto .accessIrq) a
  | .accessIrq => (s.record .setIrq).call ((s.record .setIrq).goto .completeIo) a
  | .completeIo => (s.record .completeIo).call ((s.record .completeIo).goto .head) a
  | _ => none

def startStep (m : Machine) (s : Sys) (a : Answer) : Option Sys :=
  match s.pc with
  | .building => match a with
    | .ok => some {s with assembled := true, pc := .built}
    | .err e => some {s with result := .error e, assembled := false, pc := .stopMemory (.error e) false}
    | _ => none
  | .built => (if s.state.stopping then s.leave (.ok ()) else s.goto .allocating).certain a
  | .allocating => s.call (s.goto (.checking .create)) a
  | .checking stage => (s.goto (if s.state.stopping then .started else .calling stage)).certain a
  | .calling stage => s.initCall m stage a
  | .startMemory =>
    ((s.onMemory (fun status => {status with lifecycle := .running})).goto .started).certain a
  | .started => (s.locked (s.state.running,[]) .head).certain a
  | _ => none

def firstError (kept found : Except Error Unit) : Except Error Unit :=
  match kept with
  | .ok () => found
  | .error e => .error e

def clean (s : Sys) (c : CleanupCall) (rest : List CleanupCall) (found : Except Error Unit) : Sys :=
  {s with
    memory := if c.stopsMemory then s.memory.map MemoryStatus.stop else s.memory
    fault := if c = .stopVm then found else s.fault
    cleanup := if c = .stopVm then s.cleanup else firstError s.cleanup found
    cleaned := s.cleaned ++ [c]
    pc := .cleanup rest}

def panicError : Except Error Unit := .error (.runtime .vmmThreadPanicked)

def endStep (m : Machine) (s : Sys) (a : Answer) : Option Sys :=
  match s.pc with
  | .leaving => (s.locked s.state.cleaning (.cleanup (s.plan m))).certain a
  | .cleanup [] => (s.goto .saving).certain a
  | .cleanup (c::rest) => match a with
    | .ok => some (s.clean c rest (.ok ()))
    | .err e => if c = .destroy then none else some (s.clean c rest (.error e))
    | _ => none
  | .saving =>
    (s.locked (s.state.cleanupResult m.diagnostic s.cleanup,[]) (.stopMemory s.outcome false)).certain a
  | .stopMemory outcome dropping =>
    ((s.onMemory MemoryStatus.stop).goto (.finishing outcome dropping)).certain a
  | .finishing outcome dropping =>
    (s.locked (s.state.finish m.diagnostic outcome) (if dropping then .gone else .dropping false)).certain a
  | .dropping panicking =>
    (s.goto (if s.state.lifecycle = .stopped then .gone
      else if panicking then .savePanic
      else .stopMemory (.ok ()) true)).certain a
  | .savePanic =>
    (s.locked (s.state.cleanupResult m.diagnostic panicError,[]) (.stopMemory panicError true)).certain a
  | _ => none

inductive Part
  | outside
  | start
  | request
  | pass
  | memory
  | ending

def part : Pc → Part
  | .idle | .gone => .outside
  | .building | .built | .allocating | .checking _ | .calling _ | .startMemory | .started => .start
  | .head | .fetch | .serving _ | .completing _ _ | .rejecting _ | .waiting => .request
  | .input | .uartIrq | .polling _ | .irqs _ | .events | .accessing | .accessIrq | .completeIo => .pass
  | .syncing | .probing | .pausing | .transacting | .resuming => .memory
  | .leaving | .cleanup _ | .saving | .stopMemory _ _ | .finishing _ _ | .dropping _ | .savePanic => .ending

def vmm (m : Machine) (s : Sys) (a : Answer) : Option Sys :=
  match part s.pc with
  | .outside => none
  | .start => s.startStep m a
  | .request => s.requestStep m a
  | .pass => s.passStep m a
  | .memory => s.memoryStep m a
  | .ending => s.endStep m a

def unwind (s : Sys) : Sys := {s with
  pc := .dropping true
  panicked := true
  dropped := s.dropped ++ s.pc.held.map (·.reply)
  log := s.log ++ [.left]}

/-- A host stop up to its wait; it stops memory itself when the VM never ran. -/
def hostStop (s : Sys) (thread : Nat) : Sys :=
  match s.state.stop thread with
  | .error _ => s
  | .ok after => {s with
      state := after.1
      replies := s.replies ++ after.2
      memory := if s.state.lifecycle = .created then s.memory.map MemoryStatus.stop else s.memory
      waiting := s.waiting + 1}

def hostSubmit (s : Sys) (thread : Nat) (operation : Operation) : Sys :=
  match s.state.submit thread ⟨operation,s.accepted⟩ with
  | .error _ => s
  | .ok after => {s with state := after, accepted := s.accepted + 1}

/-- `begin`, after which a cancelled run drops the VM. -/
def beginRun (s : Sys) (thread : Nat) : Sys :=
  match s.state.begin thread with
  | .error _ => s.goto (.dropping false)
  | .ok after => {s with state := after, pc := .building}

/-- One step; `none` when the label does not apply. -/
def next (m : Machine) (l : Label) (s : Sys) : Option Sys :=
  match l with
  | .submit thread operation => some (s.hostSubmit thread operation)
  | .stop thread => some (s.hostStop thread)
  | .stopReturns =>
    if 0 < s.waiting ∧ s.state.lifecycle = .stopped then some {s with
      waiting := s.waiting - 1
      returns := s.returns ++ [Control.result s.state.cleanupError]}
    else none
  | .status => some {s with seen := s.seen || s.state.lifecycle = .stopped}
  | .setRequested mib => some (s.onMemory (·.afterRequest mib))
  | .begin thread => match s.pc with
    | .idle => some (s.beginRun thread)
    | _ => none
  | .drop panicking => match s.pc with
    | .idle => some (s.goto (.dropping panicking))
    | _ => none
  | .dropFails => match s.pc with
    | .idle => some (s.goto .gone)
    | _ => none
  | .vmm a => s.vmm m a
  | .panic => if s.pc.inRun then some s.unwind else none

end Sys
end WVmm.Control
