import WVmm.Runtime.Model
import WVmm.Control.State
import WVmm.Lib.Runs

/-! The run loop. It takes one call at a time, so that host and guest can move
between any two of them; what the control handle answers is part of the label. -/
namespace WVmm
open Lib.Effect Devices Platform

namespace Platform

inductive Event (C : Type)
  | io (a : IoAccess C)
  | shutdown

end Platform

class Vm (V : Type) (C : outParam Type) extends VirtualMachine V C where
  prepare : V → GuestMemoryMmap → MachineLayout → Except PlatformError Unit × V
  start : V → Except PlatformError Unit × V
  pollEvent : V → Except PlatformError (Option (Event C)) × V
  stop : V → Except PlatformError Unit × V

/-- What a serial backend has for the guest: a count and the buffer it filled, no
input now, or an error. -/
inductive Received
  | bytes (count : Nat) (buffer : List UInt8)
  | wouldBlock
  | interrupted
  | failed (e : Foreign)

class SerialIo (U : Type) extends Uart U where
  fifoCapacity : U → Nat
  recv : U → Nat → Received × U
  enqueueRawBytes : U → List UInt8 → Except Foreign Nat × U

/-- Poll once, respecting UART FIFO backpressure. -/
def pollInput {U : Type} [SerialIo U] : Prog U (Failure Error) Unit := do
  let serial ← Prog.get
  let capacity := SerialIo.fifoCapacity serial
  if capacity = 0 then return ()
  let (received,serial) := SerialIo.recv serial capacity
  Prog.modify (fun _ => serial)
  match received with
  | .failed e => Prog.fail (.error (.serial (.io e)))
  | .wouldBlock => return ()
  | .interrupted => return ()
  | .bytes count buffer =>
    Prog.require (count ≤ capacity) (.error (.serial (.invalidReceiveLength count capacity)))
    if count = 0 then return ()
    let (r,serial) := SerialIo.enqueueRawBytes serial (buffer.take count)
    Prog.modify (fun _ => serial)
    let _ ← Prog.ofExcept (r.mapError (fun e => .error (.serial (.uart e))))
    return ()

inductive Pass (C : Type)
  | head
  | fetch
  | input
  | uartIrq
  | polling (slot : Nat)
  | memory
  | irqs
  | events
  | accessing (a : IoAccess C)
  | ended (result : Except (Failure Error) Unit)

structure RunLoop (V C B N U : Type) where
  runtime : Runtime V C B N U
  /-- The flag of the loop: the host paused the machine. -/
  paused : Bool
  pass : Pass C

namespace RunLoop

/-- One step: a look at the control handle, its next request, a call, or a move of
the host or the guest. -/
inductive Label
  | look (stopping : Bool)
  | next (request : Option Control.Operation)
  | call
  | target (requested : Nat)
  | guest

variable {V C B N U : Type}

def goto (l : RunLoop V C B N U) (pass : Pass C) : RunLoop V C B N U := {l with pass := pass}

/-- Make a call; its error ends the loop. -/
def calls {α : Type} (l : RunLoop V C B N U) (m : Prog (Runtime V C B N U) (Failure Error) α) (next : α → Pass C) :
    RunLoop V C B N U :=
  let (r,runtime) := m.run l.runtime
  {l with
    runtime := runtime
    pass := match r with
      | .ok a => next a
      | .error e => .ended (.error e)}

variable [Vm V C]

def pollEvent : Prog (Runtime V C B N U) (Failure Error) (Option (Event C)) := do
  let s ← Prog.get
  let (r,vm) := Vm.pollEvent s.vm
  Prog.modify (fun s => {s with vm := vm})
  Runtime.platform r

/-- Serve a request of the host. A machine that is already ending is not resumed. -/
def serve (l : RunLoop V C B N U) : Control.Operation → RunLoop V C B N U
  | .pause =>
    if l.paused then l.goto .head
    else {(l.calls Runtime.pause (fun o => if o = .stopping then .ended (.ok ()) else .head)) with paused := true}
  | .resume =>
    if l.paused then {(l.calls Runtime.resume (fun _ => .head)) with paused := false}
    else l.goto .head

variable [BlockStorage B] [NetDevice N] [SerialIo U]

def input : Prog (Runtime V C B N U) (Failure Error) Unit :=
  Prog.zoom Runtime.serial (fun s serial => {s with serial := serial}) pollInput

def call (env : Env) (l : RunLoop V C B N U) : Option (RunLoop V C B N U) :=
  match l.pass with
  | .input => some (l.calls input (fun _ => .uartIrq))
  | .uartIrq =>
    some (l.calls (Runtime.setIrq l.runtime.layout.uart.irq (uartLevel l.runtime.serial)) (fun _ => .polling 0))
  | .polling slot =>
    if slot < l.runtime.devices.length then
      some (l.calls (Runtime.visit env slot .poll) (fun _ => .polling (slot + 1)))
    else some (l.goto .memory)
  | .memory => some (l.calls (Runtime.processMemory env) (fun
    | .continue => .irqs
    | .break => .ended (.ok ())))
  | .irqs => some (l.calls (Runtime.setLines (l.runtime.devices.zip l.runtime.layout.virtio)) (fun _ => .events))
  | .events => some (l.calls pollEvent (fun
    | none => .head
    | some .shutdown => .ended (.ok ())
    | some (.io a) => .accessing a))
  | .accessing a => some (l.calls (Runtime.handleIo env a) (fun _ => .head))
  | _ => none

def next (env : Env) : Label → RunLoop V C B N U → Option (RunLoop V C B N U)
  | .look stopping, l => match l.pass with
    | .head => some (l.goto (if stopping then .ended (.ok ()) else .fetch))
    | _ => none
  | .next request, l => match l.pass, request with
    | .fetch, some operation => some (l.serve operation)
    -- `wait` returns once there is something to do.
    | .fetch, none => some (l.goto (if l.paused then .head else .input))
    | _, _ => none
  | .call, l => l.call env
  | .target requested, l => some {l with runtime := l.runtime.after env (.target requested)}
  | .guest, l => some {l with runtime := l.runtime.after env .guest}

/-- A relation that the host, the guest and every call of the loop keep to, except for
`poll_event`. -/
structure Quiet (env : Env) (R : Runtime V C B N U → Runtime V C B N U → Prop) : Prop where
  input : ∀ s, R s (input.run s).2
  setIrq : ∀ irq level s, R s ((Runtime.setIrq irq level).run s).2
  poll : ∀ k s, R s ((Runtime.visit env k .poll).run s).2
  memory : ∀ s, R s ((Runtime.processMemory env).run s).2
  lines : ∀ s : Runtime V C B N U, R s ((Runtime.setLines (s.devices.zip s.layout.virtio)).run s).2
  access : ∀ a s, R s ((Runtime.handleIo env a).run s).2
  pause : ∀ s, R s (Runtime.pause.run s).2
  resume : ∀ s, R s (Runtime.resume.run s).2
  target : ∀ requested s, R s (s.after env (.target requested))
  guest : ∀ s, R s (s.after env .guest)

structure Bound (env : Env) (R : Runtime V C B N U → Runtime V C B N U → Prop) : Prop extends Quiet env R where
  events : ∀ s, R s (pollEvent.run s).2

section Bound
variable {env : Env} {R : Runtime V C B N U → Runtime V C B N U → Prop} [IsPreorder _ R] {l t : RunLoop V C B N U}

theorem Quiet.serve (quiet : Quiet env R) (l : RunLoop V C B N U) (request : Control.Operation) :
    R l.runtime (l.serve request).runtime := by
  have still : R l.runtime l.runtime := refl_of R l.runtime
  cases request with
  | pause =>
    by_cases held : l.paused = true
    · rw [show l.serve .pause = l.goto .head from if_pos held]
      exact still
    · rw [show l.serve .pause = {l.calls Runtime.pause (fun o => if o = .stopping then .ended (.ok ()) else .head) with
        paused := true} from if_neg held]
      exact quiet.pause l.runtime
  | resume =>
    by_cases held : l.paused = true
    · rw [show l.serve .resume = {l.calls Runtime.resume (fun _ => .head) with paused := false} from if_pos held]
      exact quiet.resume l.runtime
    · rw [show l.serve .resume = l.goto .head from if_neg held]
      exact still

/-- A step of the loop keeps to it, or polls for an event. -/
theorem Quiet.step (quiet : Quiet env R) {label : Label} (taken : next env label l = some t) :
    R l.runtime t.runtime ∨ l.pass = .events ∧ l.call env = some t := by
  have still : R l.runtime l.runtime := refl_of R l.runtime
  cases label with
  | look stopping =>
    simp only [RunLoop.next] at taken
    split at taken <;> cases taken
    exact .inl still
  | next request =>
    simp only [RunLoop.next] at taken
    split at taken <;> cases taken
    · exact .inl (quiet.serve l _)
    · exact .inl still
  | call =>
    change l.call env = some t at taken
    by_cases events : l.pass = .events
    · exact .inr ⟨events,taken⟩
    left
    unfold RunLoop.call at taken
    split at taken
    · cases taken
      exact quiet.input l.runtime
    · cases taken
      exact quiet.setIrq _ _ l.runtime
    · split at taken
      · cases taken
        exact quiet.poll _ l.runtime
      · cases taken
        exact still
    · cases taken
      exact quiet.memory l.runtime
    · cases taken
      exact quiet.lines l.runtime
    · exact absurd ‹l.pass = .events› events
    · cases taken
      exact quiet.access _ l.runtime
    · cases taken
  | target requested =>
    cases taken
    exact .inl (quiet.target requested l.runtime)
  | guest =>
    cases taken
    exact .inl (quiet.guest l.runtime)

theorem Bound.step (bound : Bound env R) {label : Label} (taken : next env label l = some t) :
    R l.runtime t.runtime := by
  rcases bound.toQuiet.step taken with kept | ⟨here,called⟩
  · exact kept
  · simp only [RunLoop.call,here,Option.some.injEq] at called
    subst called
    exact bound.events l.runtime

theorem Bound.reached (bound : Bound env R) (reached : Lib.Runs.Reaches (Lib.Runs.Takes (next env)) l t) :
    R l.runtime t.runtime := by
  induction reached with
  | refl => exact refl_of R _
  | tail _ _ taken ih => exact trans_of R ih (bound.step taken)

end Bound
end RunLoop
end WVmm
