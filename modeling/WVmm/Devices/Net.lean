import WVmm.Devices.Block

/-! virtio-net over a caller-provided frame backend. The receive and transmit
buffers of the device are its own memory: a backend that is handed one of them
runs on that buffer alone. -/
namespace WVmm.Devices
open Lib.Effect

/-- Nonblocking, complete Ethernet frames. `send` true accepts the whole frame;
`recv` none means no packet is available. -/
class NetDevice (N : Type) where
  mtu : Nat
  macAddress : N → List UInt8
  maxFrameLen : N → Nat
  send : N → List VolatileSlice → Host → Except NetError Bool × N
  recv : N → List VolatileSlice → Host → Except NetError (Option Nat) × N × Host

structure Net (N : Type) where
  backend : N
  config : List UInt8
  rx : List UInt8
  pendingTx : Option Nat
  tx : List UInt8

namespace Net

/-- VERSION_1 includes num_buffers even without MRG_RXBUF. -/
def HEADER : Nat := 12

def BUDGET : Nat := 64

def F_MTU : BitVec 64 := 1 <<< 3

def F_MAC : BitVec 64 := 1 <<< 5

/-- A private buffer as memory of its own, starting at address zero. -/
def bufferHost (buffer : List UInt8) : Host := fun p => buffer.getD p 0

variable {N : Type} [NetDevice N]

def new (backend : N) : Except DeviceError (Net N) :=
  let mtu := @NetDevice.mtu N _
  let max := NetDevice.maxFrameLen backend
  let mac := NetDevice.macAddress backend
  if ¬(mtu ≥ 68 ∧ max ≥ mtu + 14 ∧ max ≤ 65535 + 18) then
    .error (.invalidNetworkMtuFrameCapacity mtu max)
  else if ¬((mac.headD 0).toNat % 2 = 0 ∧ mac ≠ List.replicate 6 0) then
    .error .networkMacMustBeNonzeroUnicast
  else .ok {
    backend := backend
    config := mac ++ List.replicate 4 0 ++ toLeBytes 2 mtu
    rx := List.replicate (HEADER + max) 0
    pendingTx := none
    tx := [] }

def backendSend (frame : List VolatileSlice) (host : Host) :
    Prog (Cell (Net N)) (Failure DeviceError) Bool := do
  let c ← Prog.get
  let (r,backend) := NetDevice.send c.device.backend frame host
  Prog.modify (fun c => {c with device := {c.device with backend := backend}})
  Cell.record (.send (World.bytesAt host frame) (answer r))
  Prog.ofExcept (r.mapError (fun e => .error (.net e)))

/-- Retry the deferred frame; `false` means the backend is still full. -/
def retry (env : Env) (head : Nat) : Prog (Cell (Net N)) (Failure DeviceError) Bool := do
  let c ← Prog.get
  let sent ← backendSend [⟨0,c.device.tx.length⟩] (bufferHost c.device.tx)
  if sent then
    Prog.modify (fun c => {c with device := {c.device with pendingTx := none}})
    Queues.complete env 1 head 0
    return true
  else return false

/-- Send the frame of one chain; `false` means it was deferred. -/
def sendChain (env : Env) (chain : Chain) : Prog (Cell (Net N)) (Failure DeviceError) Bool := do
  Prog.require (chain.descriptors.all (fun d => !d.isWriteOnly)) (.error .txDescriptorMustBeReadable)
  match Buffers.totalLength chain.descriptors with
  | none => Prog.fail (.error .txLengthOverflow)
  | some total =>
    let c ← Prog.get
    Prog.require (HEADER + 14 ≤ total ∧ total ≤ c.device.rx.length)
      (.error (.invalidTxPacketSize total c.device.rx.length))
    let slices ← Prog.ofExcept ((Buffers.slices env.vm c.world.view chain.descriptors).mapError
      (fun e => .error (.guestAccess e)))
    let header ← Cell.onWorld (Buffers.copyTo env slices HEADER)
    Prog.require (¬(header.getD 0 0 ≠ 0 ∨ header.getD 1 0 ≠ 0))
      (.error .unnegotiatedTxChecksumGsoOffload)
    let payload ← Prog.ofExcept ((Buffers.range slices HEADER (total - HEADER)).mapError .panic)
    Cell.onWorld (World.observe env)
    let c ← Prog.get
    let sent ← backendSend payload c.world.host
    if sent then
      Queues.complete env 1 chain.head 0
      return true
    else
      -- The snapshot is taken after the backend declined the frame.
      let tx ← Cell.onWorld (Buffers.copyTo env payload (total - HEADER))
      Prog.modify (fun c => {c with device := {c.device with tx := tx, pendingTx := some chain.head}})
      return false

def transmitLoop (env : Env) : Nat → Prog (Cell (Net N)) (Failure DeviceError) Unit
  | 0 => return ()
  | budget+1 => do
    let c ← Prog.get
    match c.device.pendingTx with
    | some head =>
      let sent ← retry env head
      if sent then transmitLoop env budget else return ()
    | none =>
      match ← Queues.pop env 1 with
      | none => return ()
      | some chain =>
        let sent ← sendChain env chain
        if sent then transmitLoop env budget else return ()

/-- A deferred frame belongs to the TX queue; once disabled it waits for reset. -/
def transmit (env : Env) : Prog (Cell (Net N)) (Failure DeviceError) Unit := do
  let q ← Cell.ring 1
  if q.ready then transmitLoop env BUDGET else return ()

def directRange (direct : Bool) (slices : List VolatileSlice) (rxLen : Nat) :
    Except Panic (List VolatileSlice) :=
  if direct then Buffers.range slices HEADER (rxLen - HEADER) else .ok []

/-- Receive into the guest slices or into the private buffer after its header. -/
def backendRecv (direct : Bool) (payload : List VolatileSlice) :
    Prog (Cell (Net N)) (Failure DeviceError) (Option Nat) := do
  let c ← Prog.get
  if direct then
    let (r,backend,host) := NetDevice.recv c.device.backend payload c.world.host
    Prog.modify (fun c => {c with
      device := {c.device with backend := backend}
      world := {c.world with host := host}})
    Cell.record (.recv payload (answer r))
    Prog.ofExcept (r.mapError (fun e => .error (.net e)))
  else
    let own := [⟨HEADER,c.device.rx.length - HEADER⟩]
    let (r,backend,memory) := NetDevice.recv c.device.backend own (bufferHost c.device.rx)
    Prog.modify (fun c => {c with device := {c.device with
      backend := backend
      rx := (List.range c.device.rx.length).map memory}})
    Cell.record (.recv own (answer r))
    Prog.ofExcept (r.mapError (fun e => .error (.net e)))

/-- The virtio-net header of a received frame: num_buffers is one. -/
def rxHeader : List UInt8 := List.replicate 10 0 ++ toLeBytes 2 1

def deliver (direct : Bool) (slices : List VolatileSlice) (total : Nat) :
    Prog (Cell (Net N)) (Failure DeviceError) Unit := do
  if direct then Cell.onWorld (Buffers.copyFrom slices rxHeader)
  else
    Prog.modify (fun c => {c with device := {c.device with rx := rxHeader ++ c.device.rx.drop HEADER}})
    let c ← Prog.get
    Cell.onWorld (Buffers.copyFrom slices (c.device.rx.take total))

/-- Fill one chain with a frame; `false` means that no packet was waiting and
the chain went back to the available ring. -/
def recvChain (env : Env) (chain : Chain) : Prog (Cell (Net N)) (Failure DeviceError) Bool := do
  Prog.require (chain.descriptors.all (·.isWriteOnly)) (.error .rxDescriptorMustBeWritable)
  match Buffers.totalLength chain.descriptors with
  | none => Prog.fail (.error .rxLengthOverflow)
  | some capacity =>
    let c ← Prog.get
    let slices ← Prog.ofExcept ((Buffers.slices env.vm c.world.view chain.descriptors).mapError
      (fun e => .error (.guestAccess e)))
    let direct := decide (capacity ≥ c.device.rx.length) && !Buffers.overlaps slices
    let payload ← Prog.ofExcept ((directRange direct slices c.device.rx.length).mapError .panic)
    match ← backendRecv direct payload with
    | none =>
      let q ← Cell.ring 0
      Prog.modify (Cell.setRing 0 {q with nextAvail := (65535 + q.nextAvail) % 65536})
      return false
    | some len =>
      let c ← Prog.get
      Prog.require (14 ≤ len ∧ len ≤ c.device.rx.length - HEADER)
        (.error (.invalidBackendRxPacketSize len (c.device.rx.length - HEADER)))
      let total := HEADER + len
      if capacity < total then
        Queues.complete env 0 chain.head 0
        return true
      else
        deliver direct slices total
        Queues.complete env 0 chain.head total
        return true

def receiveLoop (env : Env) : Nat → Prog (Cell (Net N)) (Failure DeviceError) Unit
  | 0 => return ()
  | budget+1 => do
    match ← Queues.pop env 0 with
    | none => return ()
    | some chain =>
      let more ← recvChain env chain
      if more then receiveLoop env budget else return ()

def receive (env : Env) : Prog (Cell (Net N)) (Failure DeviceError) Unit := receiveLoop env BUDGET

def notify (env : Env) (queue : Nat) : Prog (Cell (Net N)) (Failure DeviceError) Unit :=
  match queue with
  | 0 => receive env
  | 1 => transmit env
  | _ => Prog.fail (.panic .unreachable)

def poll (env : Env) : Prog (Cell (Net N)) (Failure DeviceError) Unit := do
  transmit env
  receive env

instance : VirtioDevice (Net N) where
  requiredFeatures _ := 0
  generation _ := 0
  deviceId _ := 1
  features _ := F_MAC ||| F_MTU
  queueCount _ := 2
  readConfig d offset len := readConfig d.config offset len
  notify := notify
  poll := poll
  reset := Prog.modify (fun c => {c with device := {c.device with pendingTx := none, tx := []}})
  flush := return ()

end Net
end WVmm.Devices
