import WVmm.Devices.Device
import WVmm.Platform.Machine

/-! Architecture-independent device runtime: what it does with one access, one
poll and one memory transaction. A machine keeps a log of the calls made on it;
a visit is one operation on one device, with the transport before and after it. -/
namespace WVmm
open Lib.Effect Devices Platform

/-- Values are little-endian; width is in bytes. -/
structure IoAccess (C : Type) where
  space : IoSpace
  address : Nat
  width : Nat
  write : Bool
  value : Nat
  completion : C

class VirtualMachine (V : Type) (C : outParam Type) extends Mapper V where
  completeIo : V → C → Nat → Except PlatformError Unit × V
  setIrq : V → Nat → Bool → Except PlatformError Unit × V
  pause : V → Except PlatformError PauseOutcome × V
  resume : V → Except PlatformError Unit × V

/-- The 16550 model of vm-superio over the serial backend. -/
class Uart (U : Type) where
  write : U → Nat → UInt8 → Except Foreign Unit × U
  read : U → Nat → UInt8 × U
  interruptIdentification : U → UInt8

def uartLevel {U : Type} [Uart U] (serial : U) : Bool :=
  Uart.interruptIdentification serial &&& 1 == 0

structure Bay (V D : Type) where
  slot : Slot D
  vm : V

inductive Operation
  | write (offset : Nat) (value : BitVec 32)
  | poll
  | sync (active : Bool)
  | available
  | pinned
  | process (pinned : List (Nat × Nat))

@[reducible] def Operation.Reply : Operation → Type
  | .write _ _ => Unit
  | .poll => Unit
  | .sync _ => Unit
  | .available => Option Nat
  | .pinned => Option (List (Nat × Nat))
  | .process _ => Unit

namespace Bay

variable {V B N C : Type} {D ε α : Type}

def onSlot (m : Prog (Slot D) ε α) : Prog (Bay V D) ε α :=
  Prog.zoom Bay.slot (fun b s => {b with slot := s}) m

def syncTarget (active : Bool) : Prog (Slot (Device B N)) (Failure DeviceError) Unit := do
  let s ← Prog.get
  match s.mmio.device with
  | .mem d =>
    if ← Slot.onCell (Cell.focus .mem d (VirtioMem.syncTarget active)) then
      Slot.update Mmio.configChanged
  | _ => return ()

variable [Mapper V]

def process (env : Env) (pinned : List (Nat × Nat)) :
    Prog (Bay V (Device B N)) (Failure DeviceError) Unit where
  exec b := match b.slot.mmio.device with
    | .mem d =>
      let (r,t) := (VirtioMem.process env pinned).run
        ⟨⟨d,b.slot.mmio.queues,b.slot.world,b.slot.trace⟩,b.vm⟩
      (r,⟨b.slot.putCell ⟨.mem t.cell.device,t.cell.queues,t.cell.world,t.cell.trace⟩,t.mapper⟩)
    | _ => (.error (.panic .unreachable),b)

variable [BlockStorage B] [NetDevice N]

/-- Carry out an operation; guest errors are contained. -/
def perform (env : Env) : (op : Operation) → Prog (Bay V (Device B N)) (Failure DeviceError) op.Reply
  | .write offset value => onSlot (Mmio.write env offset value)
  | .poll => onSlot (Mmio.poll env)
  | .sync active => onSlot (syncTarget active)
  | .available => onSlot do
    let available ← Prog.capture (Slot.onCell (Queues.available env 0))
    Mmio.contain available
  | .pinned => onSlot do
    let s ← Prog.get
    let pins ← Prog.capture (Slot.onCell (Cell.onWorld (Queues.pinned env s.mmio.queues)))
    Mmio.contain pins
  | .process pinned => do
    let result ← Prog.capture (process env pinned)
    let _ ← onSlot (Mmio.contain result)
    return ()

end Bay

structure Visit (B N : Type) where
  device : Nat
  operation : Operation
  before : Slot (Device B N)
  after : Slot (Device B N)

inductive Call (C B N : Type)
  | visit (v : Visit B N)
  | uartWrite (offset : Nat) (value : UInt8)
  | uartRead (offset : Nat)
  | setIrq (irq : Nat) (level : Bool)
  | completeIo (completion : C) (value : Nat)
  | pause
  | resume

/-- Break means the VM began stopping before the transaction; it never resumes. -/
inductive ControlFlow
  | continue
  | break
deriving DecidableEq

structure Runtime (V C B N U : Type) where
  vm : V
  layout : MachineLayout
  devices : List (Mmio (Device B N))
  hasMemory : Bool
  strict : Bool
  serial : U
  world : World
  log : List (Call C B N)

namespace Platform.IoRegion

variable {C : Type}

def within (r : IoRegion) (a : IoAccess C) : Bool :=
  decide (a.space = r.space ∧ r.address ≤ a.address ∧ a.address - r.address < r.size)

def fits (r : IoRegion) (a : IoAccess C) : Bool :=
  [1,2,4,8].contains a.width &&
    (checkedAdd (a.address - r.address) a.width).any (fun stop => decide (stop ≤ r.size))

end Platform.IoRegion

namespace Runtime

variable {V C B N U : Type}

def record (call : Call C B N) : Prog (Runtime V C B N U) (Failure Error) Unit :=
  Prog.modify (fun s => {s with log := s.log ++ [call]})

/-- The transport at an index; the source indexes the vector. -/
def device (k : Nat) : Prog (Runtime V C B N U) (Failure Error) (Mmio (Device B N)) := do
  let s ← Prog.get
  match s.devices[k]? with
  | some m => return m
  | none => Prog.fail (.panic .index)

def visited (s : Runtime V C B N U) (k : Nat) (op : Operation) (m : Mmio (Device B N))
    (b : Bay V (Device B N)) : Runtime V C B N U :=
  {s with
    vm := b.vm
    devices := s.devices.set k b.slot.mmio
    world := b.slot.world
    log := s.log ++ [.visit ⟨k,op,⟨m,s.world,[]⟩,b.slot⟩]}

section Devices
variable [Mapper V] [BlockStorage B] [NetDevice N]

def visit (env : Env) (k : Nat) (op : Operation) : Prog (Runtime V C B N U) (Failure Error) op.Reply where
  exec s := match s.devices[k]? with
    | none => (.error (.panic .index),s)
    | some m =>
      let (r,b) := (Bay.perform env op).run ⟨⟨m,s.world,[]⟩,s.vm⟩
      (r.mapError (Failure.convert .device),s.visited k op m b)

end Devices

section Platform
variable [VirtualMachine V C]

def platform {α : Type} (r : Except PlatformError α) : Prog (Runtime V C B N U) (Failure Error) α :=
  Prog.ofExcept (r.mapError (fun e => .error (.platform e)))

def setIrq (irq : Nat) (level : Bool) : Prog (Runtime V C B N U) (Failure Error) Unit := do
  let s ← Prog.get
  let (r,vm) := VirtualMachine.setIrq s.vm irq level
  Prog.modify (fun s => {s with vm := vm})
  record (.setIrq irq level)
  platform r

def completeIo (completion : C) (value : Nat) : Prog (Runtime V C B N U) (Failure Error) Unit := do
  let s ← Prog.get
  let (r,vm) := VirtualMachine.completeIo s.vm completion value
  Prog.modify (fun s => {s with vm := vm})
  record (.completeIo completion value)
  platform r

/-- Guest memory is still from a successful pause on. -/
def pause : Prog (Runtime V C B N U) (Failure Error) PauseOutcome := do
  let s ← Prog.get
  let (r,vm) := VirtualMachine.pause s.vm
  Prog.modify (fun s => {s with vm := vm})
  record .pause
  let outcome ← platform r
  if outcome = .paused then Prog.modify (fun s => {s with world := {s.world with paused := true}})
  return outcome

def resume : Prog (Runtime V C B N U) (Failure Error) Unit := do
  let s ← Prog.get
  let (r,vm) := VirtualMachine.resume s.vm
  Prog.modify (fun s => {s with vm := vm})
  record .resume
  platform r
  Prog.modify (fun s => {s with world := {s.world with paused := false}})

variable [BlockStorage B] [NetDevice N]

/-- The pins of one device. An isolated one has none: its queues are stopped. -/
def pinDevice (env : Env) (k : Nat) : Prog (Runtime V C B N U) (Failure Error) (List (Nat × Nat)) := do
  let d ← device k
  if d.needsReset then return []
  let pins ← visit env k .pinned
  return pins.getD []

/-- Scan each device separately: in lenient mode a corrupt queue isolates only
its device. -/
def pinDevices (env : Env) : List Nat → Prog (Runtime V C B N U) (Failure Error) (List (Nat × Nat))
  | [] => return []
  | k::rest => do
    let pins ← pinDevice env k
    let others ← pinDevices env rest
    return pins ++ others

/-- Run the transaction, unless the scan isolated the memory device itself. -/
def processLast (env : Env) (last : Nat) (pinned : List (Nat × Nat)) :
    Prog (Runtime V C B N U) (Failure Error) Unit := do
  let d ← device last
  if d.needsReset then return () else visit env last (.process pinned)

def transact (env : Env) (count last : Nat) : Prog (Runtime V C B N U) (Failure Error) ControlFlow := do
  let available ← visit env last .available
  if available.getD 0 = 0 then return .continue
  let outcome ← pause
  if outcome = .stopping then return .break
  let pinned ← pinDevices env (List.range count)
  processLast env last pinned
  resume
  return .continue

def processMemory (env : Env) : Prog (Runtime V C B N U) (Failure Error) ControlFlow := do
  let s ← Prog.get
  if !s.hasMemory then return .continue
  let last := s.devices.length - 1
  let d ← device last
  visit env last (.sync d.active)
  if !d.active then return .continue
  transact env s.devices.length last

/-- The value of an access to a virtio window, or `none` when it decodes to no
register. -/
def virtioValue (env : Env) (k : Nat) (region : IoRegion) (a : IoAccess C) (d : Mmio (Device B N)) :
    Prog (Runtime V C B N U) (Failure Error) (Option Nat) :=
  let offset := a.address - region.address
  if !region.fits a then pure none
  else if !a.write then pure (d.read offset a.width)
  else if a.width = 4 then do
    visit env k (.write offset (BitVec.ofNat 32 a.value))
    return some 0
  else pure none

def virtioAccess (env : Env) (k : Nat) (region : IoRegion) (a : IoAccess C) :
    Prog (Runtime V C B N U) (Failure Error) (Option Nat × Nat × Bool) := do
  let d ← device k
  let value ← virtioValue env k region a d
  let d ← device k
  return (value,region.irq,d.interruptPending)

variable [Uart U]

def uartWrite (offset : Nat) (value : UInt8) : Prog (Runtime V C B N U) (Failure Error) Unit := do
  let s ← Prog.get
  let (r,serial) := Uart.write s.serial offset value
  Prog.modify (fun s => {s with serial := serial})
  record (.uartWrite offset value)
  Prog.ofExcept (r.mapError (fun e => .error (.serial (.uart e))))

def uartRead (offset : Nat) : Prog (Runtime V C B N U) (Failure Error) UInt8 := do
  let s ← Prog.get
  let (value,serial) := Uart.read s.serial offset
  Prog.modify (fun s => {s with serial := serial})
  record (.uartRead offset)
  return value

def uartValue (offset : Nat) (a : IoAccess C) :
    Prog (Runtime V C B N U) (Failure Error) (Option Nat) :=
  if offset < 8 ∧ a.width = 1 then
    if a.write then do
      uartWrite offset (UInt8.ofNat a.value)
      return some 0
    else do
      let value ← uartRead offset
      return some value.toNat
  else pure none

def uartAccess (region : IoRegion) (a : IoAccess C) :
    Prog (Runtime V C B N U) (Failure Error) (Option Nat × Nat × Bool) := do
  let value ← uartValue (a.address - region.address) a
  let s ← Prog.get
  return (value,region.irq,uartLevel s.serial)

def access (env : Env) (layout : MachineLayout) (a : IoAccess C) :
    Prog (Runtime V C B N U) (Failure Error) (Option Nat × Nat × Bool) :=
  if layout.uart.within a then uartAccess layout.uart a
  else match layout.virtio.findIdx? (·.within a) with
    | some k => match layout.virtio[k]? with
      | some region => virtioAccess env k region a
      | none => Prog.fail (.panic .index)
    | none => Prog.fail (.error (.runtime (.unmappedIo a.address a.width)))

/-- The value the guest sees. An access that decodes to no register is an error
in strict mode. Lenient: no side effects; reads see an unclaimed bus. -/
def seen (strict : Bool) (a : IoAccess C) : Option Nat → Prog (Runtime V C B N U) (Failure Error) Nat
  | some value => pure value
  | none =>
    if strict then Prog.fail (.error (.runtime (.invalidAccess a.address a.width a.write)))
    else if a.write then pure 0
    else if 8 ≤ a.width then pure (2^64 - 1)
    else pure (2^(8 * a.width) - 1)

def handleIo (env : Env) (a : IoAccess C) : Prog (Runtime V C B N U) (Failure Error) Unit := do
  let s ← Prog.get
  let (decoded,irq,level) ← access env s.layout a
  let value ← seen s.strict a decoded
  -- The vCPU must not resume and observe the device before the GIC does.
  setIrq irq level
  completeIo a.completion value

/-- Drive the line of each device to its interrupt status. -/
def setLines : List (Mmio (Device B N) × IoRegion) → Prog (Runtime V C B N U) (Failure Error) Unit
  | [] => return ()
  | (d,region)::rest => do
    setIrq region.irq d.interruptPending
    setLines rest

/-- What can happen to a running machine: an access, a poll of one device, a
memory transaction, an update of the interrupt lines, and moves of the host and
of the guest in between. -/
inductive Label (C : Type)
  | io (a : IoAccess C)
  | poll (k : Nat)
  | memory
  | uartLine
  | lines
  | target (requested : Nat)
  | guest

def step (env : Env) : Label C → Prog (Runtime V C B N U) (Failure Error) Unit
  | .io a => handleIo env a
  | .poll k => visit env k .poll
  | .memory => do
    let _ ← processMemory env
    return ()
  | .uartLine => do
    let s ← Prog.get
    setIrq s.layout.uart.irq (uartLevel s.serial)
  | .lines => do
    let s ← Prog.get
    setLines (s.devices.zip s.layout.virtio)
  | .target requested => Prog.modify (fun s => {s with world := {s.world with
      control := s.world.control.afterRequest requested}})
  | .guest => Prog.modify (fun s => {s with world := s.world.tick env})

def after (env : Env) (s : Runtime V C B N U) (l : Label C) : Runtime V C B N U := ((step env l).run s).2

def Happens (env : Env) (s : Runtime V C B N U) (l : Label C) (t : Runtime V C B N U) : Prop :=
  t = s.after env l

end Platform
end Runtime
end WVmm
