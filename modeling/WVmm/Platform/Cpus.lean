import WVmm.Lib.Runs

/-! vCPU ownership, PSCI power state and cancellable quiescence. Every worker is
a program counter; its critical sections and its unlocked work are separate
steps. What the hypervisor reports and what registers hold is left open: a label
says which way a worker goes. The controller is the VMM thread, which has
exclusive use of `pause`, `resume` and `stop`. -/
namespace WVmm.Platform.Cpus

inductive Power
  | off
  | pending (entry context : Nat)
  | on
deriving DecidableEq

/-- The state behind the lock, for `n` vCPUs. -/
structure State (n : Nat) where
  stop : Bool
  paused : Bool
  started : Bool
  power : Fin n → Power
  running : Fin n → Bool

namespace State

variable {n : Nat}

def new (n : Nat) : State n where
  stop := false
  paused := false
  started := false
  power _ := .off
  running _ := false

def setRunning (s : State n) (i : Fin n) (b : Bool) : State n :=
  {s with running := Function.update s.running i b}

def setPower (s : State n) (i : Fin n) (p : Power) : State n :=
  {s with power := Function.update s.power i p}

/-- CPU_ON: the PSCI code and the state after it. -/
def on (s : State n) (target entry context : Nat) : Int × State n :=
  if inside : target < n then
    if entry &&& 3 ≠ 0 then (-9,s)
    else match s.power ⟨target,inside⟩ with
      | .on => (-4,s)
      | .pending _ _ => (-5,s)
      | .off => (0,s.setPower ⟨target,inside⟩ (.pending entry context))
  else (-2,s)

def affinity (s : State n) (target level : Nat) : Int :=
  if level > 3 then -2
  else if level = 0 then
    if inside : target < n then match s.power ⟨target,inside⟩ with
      | .on => 0
      | .off => 1
      | .pending _ _ => 2
    else -2
  else if target < 2^(level * 8) then
    if ∃ i, s.power i ≠ .off then 0 else 1
  else -2

def anyRunning (s : State n) : Bool := decide (∃ i, s.running i = true)

end State

inductive Hypercall
  | cpuOff
  | cpuOn (target entry context : Nat)
  | affinityInfo (target level : Nat)
  | systemOff
deriving DecidableEq

inductive Pc
  /-- About to lock at the top of the loop, or waiting there. -/
  | top
  | guest
  /-- `cpu.run` returned; about to look at `stop`. -/
  | exited
  | decode
  | calling (call : Hypercall)
  | result (value : Int)
  /-- The access is queued; about to call `wait_io`. -/
  | queued
  | awaiting
  /-- The reply is here; about to call `complete_io`, or waiting in it. -/
  | replied
  | writeBack
  /-- `worker` returned or panicked. -/
  | returned
  /-- On the exit path, waiting for the others to leave the guest. -/
  | draining
  | gone
deriving DecidableEq

def Pc.active : Pc → Bool
  | .guest | .exited | .decode | .calling _ | .result _ | .queued | .writeBack => true
  | .top | .awaiting | .replied | .returned | .draining | .gone => false

inductive Event (n : Nat)
  | access (i : Fin n)
  | failed (i : Fin n)
  | shutdown
deriving DecidableEq

structure Sys (n : Nat) where
  shared : State n
  pc : Fin n → Pc
  events : List (Event n)
  /-- Every boot with its entry point and context, in order. -/
  boots : List (Fin n × Nat × Nat)
  pausing : Bool
  /-- `pause` has returned `Paused`, and neither `resume` nor `stop` has been
  called since. -/
  held : Bool

/-- Steps of the workers and of the controller. `again` is an exit that needs no
section: it was cancelled, or the instruction is emulated and skipped. -/
inductive Label (n : Nat)
  | lockTop (i : Fin n)
  | bootFails (i : Fin n)
  | exit (i : Fin n)
  | check (i : Fin n)
  | again (i : Fin n)
  | hypercall (i : Fin n) (call : Hypercall)
  | answer (i : Fin n) (value : Int)
  | enter (i : Fin n)
  | setResult (i : Fin n)
  | access (i : Fin n)
  | waitIo (i : Fin n)
  | receive (i : Fin n)
  | cancelled (i : Fin n)
  | completeIo (i : Fin n)
  | writeBack (i : Fin n)
  | fail (i : Fin n)
  | leave (i : Fin n)
  | destroy (i : Fin n)
  | start (entry dtb : Nat)
  | pause
  | pauseDone
  | resume
  | stop
deriving DecidableEq

namespace Sys

variable {n : Nat}

def new (n : Nat) : Sys n where
  shared := State.new n
  pc _ := .top
  events := []
  boots := []
  pausing := false
  held := false

def goto (s : Sys n) (i : Fin n) (pc : Pc) : Sys n := {s with pc := Function.update s.pc i pc}

/-- The loop top: leave the guest, wait while there is nothing to run, boot a
pending vCPU and enter the guest. -/
def lockTop (s : Sys n) (i : Fin n) : Sys n :=
  if s.shared.stop then {(s.goto i .returned) with shared := s.shared.setRunning i false}
  else if !s.shared.started || s.shared.paused || s.shared.power i == .off then
    {(s.goto i .top) with shared := s.shared.setRunning i false}
  else match s.shared.power i with
    | .pending entry context =>
      {(s.goto i .guest) with
        shared := (s.shared.setPower i .on).setRunning i true
        boots := s.boots ++ [(i,entry,context)]}
    | _ => {(s.goto i .guest) with shared := s.shared.setRunning i true}

def enter (s : Sys n) (i : Fin n) : Hypercall → Sys n
  | .cpuOff => {(s.goto i .top) with shared := s.shared.setPower i .off}
  | .cpuOn target entry context =>
    {(s.goto i (.result (s.shared.on target entry context).1)) with
      shared := (s.shared.on target entry context).2}
  | .affinityInfo target level => s.goto i (.result (s.shared.affinity target level))
  | .systemOff => {(s.goto i .returned) with shared := {s.shared with stop := true}}

def completeIo (s : Sys n) (i : Fin n) : Option (Sys n) :=
  if s.shared.stop then some (s.goto i .returned)
  else if s.shared.paused then none
  else some {(s.goto i .writeBack) with shared := s.shared.setRunning i true}

/-- The loop of `pause`: it returns when no vCPU runs or the machine stops. -/
def pauseDone (s : Sys n) : Option (Sys n) :=
  if s.shared.stop then some {s with pausing := false}
  else if s.shared.anyRunning then none
  else some {s with pausing := false, held := true}

def next (l : Label n) (s : Sys n) : Option (Sys n) :=
  match l with
  | .lockTop i => if s.pc i = .top then some (s.lockTop i) else none
  | .bootFails i => match s.shared.power i with
    | .pending _ _ =>
      if s.pc i = .top ∧ !s.shared.stop ∧ s.shared.started ∧ !s.shared.paused then
        some {(s.goto i .returned) with
          shared := s.shared.setRunning i false
          events := s.events ++ [.failed i]}
      else none
    | _ => none
  | .exit i => if s.pc i = .guest then some (s.goto i .exited) else none
  | .check i =>
    if s.pc i = .exited then some (s.goto i (if s.shared.stop then .returned else .decode)) else none
  | .again i => if s.pc i = .decode then some (s.goto i .top) else none
  | .hypercall i call =>
    if s.pc i = .decode then some {(s.goto i (.calling call)) with
      events := if call = .systemOff then s.events ++ [.shutdown] else s.events}
    else none
  | .answer i value => if s.pc i = .decode then some (s.goto i (.result value)) else none
  | .enter i => match s.pc i with
    | .calling call => some (s.enter i call)
    | _ => none
  | .setResult i => match s.pc i with
    | .result _ => some (s.goto i .top)
    | _ => none
  | .access i =>
    if s.pc i = .decode then some {(s.goto i .queued) with events := s.events ++ [.access i]} else none
  | .waitIo i =>
    if s.pc i = .queued then some {(s.goto i .awaiting) with shared := s.shared.setRunning i false}
    else none
  | .receive i => if s.pc i = .awaiting then some (s.goto i .replied) else none
  | .cancelled i =>
    if s.pc i = .awaiting ∧ s.shared.stop = true then some (s.goto i .returned) else none
  | .completeIo i => if s.pc i = .replied then s.completeIo i else none
  | .writeBack i => if s.pc i = .writeBack then some (s.goto i .top) else none
  | .fail i =>
    -- An error or a panic outside the exit path; the report is sent on the way out.
    if s.pc i ≠ .returned ∧ s.pc i ≠ .draining ∧ s.pc i ≠ .gone then
      some {(s.goto i .returned) with events := s.events ++ [.failed i]}
    else none
  | .leave i =>
    if s.pc i = .returned then some {(s.goto i .draining) with
      shared := {(s.shared.setRunning i false) with stop := true}}
    else none
  | .destroy i =>
    if s.pc i = .draining ∧ s.shared.anyRunning = false then some (s.goto i .gone) else none
  | .start entry dtb =>
    if s.pausing then none
    else if first : 0 < n then some {s with
      shared := {(s.shared.setPower ⟨0,first⟩ (.pending entry dtb)) with started := true}}
    else none
  | .pause => if s.pausing then none else some {s with
      shared := {s.shared with paused := true}
      pausing := true}
  | .pauseDone => if s.pausing then s.pauseDone else none
  | .resume => if s.pausing then none else some {s with
      shared := {s.shared with paused := false}
      held := false}
  | .stop => if s.pausing then none else some {s with
      shared := {s.shared with stop := true}
      held := false}

end Sys

/-- The worker whose guest execution, exit decoding, register access or
write-back a step carries out. -/
def Label.activity {n : Nat} : Label n → Option (Fin n)
  | .bootFails i | .exit i | .again i | .hypercall i _ | .answer i _ | .setResult i | .access i | .writeBack i => some i
  | _ => none

end WVmm.Platform.Cpus
