import WVmm.Devices.Buffers

/-! Shared modern virtio-mmio transport and checked split-queue access. Every
device step leaves a trace of the chains it took and returned, and of the calls
it made on its backend or on the mapper. -/
namespace WVmm.Devices
open Lib.Effect

def MAX_QUEUE : Nat := 128

def DRIVER_OK : BitVec 32 := 4

def FEATURES_OK : BitVec 32 := 8

def NEEDS_RESET : BitVec 32 := 0x40

def VERSION_1 : BitVec 64 := 1 <<< 32

structure Chain where
  head : Nat
  descriptors : List Descriptor
deriving DecidableEq

structure Queues where
  rings : List Queue
  negotiated : BitVec 64
  interrupt : BitVec 32

/-- What a device step did, in order. An answer is `none` when the call failed. -/
inductive Action
  | popped (queue : Nat) (chain : Chain)
  | completed (queue head len : Nat)
  | diskRead (offset : Nat) (data : List VolatileSlice) (answer : Option Unit)
  | diskWrite (offset : Nat) (data : List UInt8) (answer : Option Unit)
  | diskFlush (answer : Option Unit)
  | send (frame : List UInt8) (answer : Option Bool)
  | recv (buffer : List VolatileSlice) (answer : Option (Option Nat))
  | map (region : Region) (answer : Option Unit)
  | unmap (region : Region) (answer : Option Unit)
deriving DecidableEq

def answer {ε α : Type} : Except ε α → Option α
  | .ok a => some a
  | .error _ => none

structure Cell (D : Type) where
  device : D
  queues : Queues
  world : World
  trace : List Action

namespace Cell

variable {D A : Type} {ε α : Type}

def onWorld (m : Prog World ε α) : Prog (Cell D) ε α :=
  Prog.zoom Cell.world (fun c w => {c with world := w}) m

def record (action : Action) : Prog (Cell D) ε Unit :=
  Prog.modify (fun c => {c with trace := c.trace ++ [action]})

def setRing (index : Nat) (q : Queue) (c : Cell D) : Cell D :=
  {c with queues := {c.queues with rings := c.queues.rings.set index q}}

/-- The ring at an index; the source indexes the vector. -/
def ring (index : Nat) : Prog (Cell D) (Failure ε) Queue := do
  let c ← Prog.get
  match c.queues.rings[index]? with
  | some q => return q
  | none => Prog.fail (.panic .index)

/-- Run the program of one device kind inside a sum of device kinds. -/
def focus (wrap : A → D) (a : A) (m : Prog (Cell A) ε α) : Prog (Cell D) ε α :=
  Prog.zoom (fun c => ⟨a,c.queues,c.world,c.trace⟩)
    (fun _ t => ⟨wrap t.device,t.queues,t.world,t.trace⟩) m

end Cell

class VirtioDevice (D : Type) where
  requiredFeatures : D → BitVec 64
  generation : D → Nat
  deviceId : D → Nat
  features : D → BitVec 64
  queueCount : D → Nat
  readConfig : D → Nat → Nat → List UInt8
  notify : Env → Nat → Prog (Cell D) (Failure DeviceError) Unit
  poll : Env → Prog (Cell D) (Failure DeviceError) Unit
  reset : Prog (Cell D) (Failure DeviceError) Unit
  flush : Prog (Cell D) (Failure DeviceError) Unit

namespace Queues
open World

/-- Entries the driver has published and the device has not taken, on 16-bit
indices. -/
def pending (idx nextAvail : Nat) : Nat := (65536 + idx - nextAvail) % 65536

def pinChain (env : Env) (q : Queue) :
    Nat → Nat → Prog World (Failure DeviceError) (List (Nat × Nat))
  | 0, _ => Prog.fail (.error .cyclicPendingDescriptorChain)
  | fuel+1, index => do
    Prog.require (index < q.size) (.error (.descriptorIndexOutOfRange index q.size))
    let d ← readDescriptor env (wrappingAdd q.descTable (index * 16))
    let inRange ← checkRange env d.addr d.len
    Prog.require (d.onlyNextWrite && inRange)
      (.error (.invalidPendingDescriptor d.addr d.len d.flags))
    let pin := if d.len ≠ 0 then [(d.addr,d.len)] else []
    if !d.hasNext then return pin
    let rest ← pinChain env q fuel d.next
    return pin ++ rest

/-- Pin the pending chains at offsets `i, i+1, ..` from the next available slot. -/
def pinSlots (env : Env) (q : Queue) :
    Nat → Nat → Prog World (Failure DeviceError) (List (Nat × Nat))
  | 0, _ => return []
  | count+1, i => do
    Prog.require (q.size ≠ 0) (.panic .division)
    let slot := (q.nextAvail + i) % 65536 % q.size
    let index ← readU16 env (wrappingAdd (wrappingAdd q.availRing 4) (slot * 2))
    let pins ← pinChain env q q.size index
    let rest ← pinSlots env q count (i + 1)
    return pins ++ rest

def availIdx (env : Env) (q : Queue) : Prog World (Failure DeviceError) Nat := do
  observe env
  let w ← Prog.get
  Prog.ofExcept ((env.vq.availIdx q w.view w.host).mapError (fun e => .error (.queue e)))

def ringPins (q : Queue) : List (Nat × Nat) :=
  [(q.descTable,q.size * 16),(q.availRing,6 + q.size * 2),(q.usedRing,6 + q.size * 8)]

def pinRing (env : Env) (q : Queue) : Prog World (Failure DeviceError) (List (Nat × Nat)) := do
  let w ← Prog.get
  Prog.require (env.vq.isValid q w.view) (.error .invalidLiveQueue)
  let idx ← availIdx env q
  let available := pending idx q.nextAvail
  Prog.require (available ≤ q.size) (.error (.availableRingOverrun available q.size))
  let chains ← pinSlots env q available 0
  return ringPins q ++ chains

def pinRings (env : Env) : List Queue → Prog World (Failure DeviceError) (List (Nat × Nat))
  | [] => return []
  | q::rest => do
    let pins ← pinRing env q
    let others ← pinRings env rest
    return pins ++ others

/-- Every guest range a ready queue or one of its pending chains refers to. -/
def pinned (env : Env) (queues : Queues) : Prog World (Failure DeviceError) (List (Nat × Nat)) :=
  pinRings env (queues.rings.filter (·.ready))

variable {D : Type}

/-- A disabled queue has nothing available; it cannot restart before reset. -/
def available (env : Env) (index : Nat) : Prog (Cell D) (Failure DeviceError) Nat := do
  let q ← Cell.ring index
  if !q.ready then return 0
  let c ← Prog.get
  Prog.require (env.vq.isValid q c.world.view) (.error .invalidVirtqueue)
  let idx ← Cell.onWorld (availIdx env q)
  let count := pending idx q.nextAvail
  Prog.require (count ≤ q.size) (.error (.availableRingOverrun count q.size))
  return count

def takeHead (env : Env) (index : Nat) : Prog (Cell D) (Failure DeviceError) Nat := do
  let q ← Cell.ring index
  Cell.onWorld (observe env)
  let c ← Prog.get
  let (taken,q') := env.vq.next q c.world.view c.world.host
  Prog.modify (Cell.setRing index q')
  match taken with
  | .error e => Prog.fail (.error (.queue e))
  | .ok none => Prog.fail (.error .invalidAvailableDescriptor)
  | .ok (some head) => return head

/-- Walk raw links before any indirect table can be expanded. The fuel bounds
the traversal for guest-made cycles. -/
def popChain (env : Env) (q : Queue) :
    Nat → Nat → Prog World (Failure DeviceError) (List Descriptor)
  | 0, _ => Prog.fail (.error .cyclicDescriptorChain)
  | fuel+1, index => do
    Prog.require (index < q.size) (.error (.descriptorIndexOutOfRange index q.size))
    let d ← readDescriptor env (wrappingAdd q.descTable (index * 16))
    Prog.require (!d.refersToIndirectTable) (.error .unnegotiatedIndirectDescriptor)
    let inRange ← checkRange env d.addr d.len
    Prog.require (d.onlyNextWrite && inRange)
      (.error (.invalidDescriptorFlagsRange d.addr d.len d.flags))
    if !d.hasNext then return [d]
    let rest ← popChain env q fuel d.next
    return d::rest

def pop (env : Env) (index : Nat) : Prog (Cell D) (Failure DeviceError) (Option Chain) := do
  let count ← available env index
  if count = 0 then return none
  let head ← takeHead env index
  let q ← Cell.ring index
  let descriptors ← Cell.onWorld (popChain env q q.size head)
  Cell.record (.popped index ⟨head,descriptors⟩)
  return some ⟨head,descriptors⟩

def complete (env : Env) (index head len : Nat) : Prog (Cell D) (Failure DeviceError) Unit := do
  let q ← Cell.ring index
  let c ← Prog.get
  let (added,q',host) := env.vq.addUsed q c.world.view c.world.host head len
  Prog.modify (fun c => Cell.setRing index q' {c with world := {c.world with host := host}})
  match added with
  | .error e => Prog.fail (.error (.queue e))
  | .ok () =>
    Prog.modify (fun c => {c with queues := {c.queues with interrupt := c.queues.interrupt ||| 1}})
    Cell.record (.completed index head len)

end Queues

structure Mmio (D : Type) where
  device : D
  queues : Queues
  featureSel : BitVec 32
  driverSel : BitVec 32
  queueSel : BitVec 32
  features : BitVec 64
  status : BitVec 32
  strict : Bool
  rejected : Nat

structure Slot (D : Type) where
  mmio : Mmio D
  world : World
  trace : List Action

namespace Slot

variable {D : Type} {ε α : Type}

def cell (s : Slot D) : Cell D := ⟨s.mmio.device,s.mmio.queues,s.world,s.trace⟩

def putCell (s : Slot D) (c : Cell D) : Slot D where
  mmio := {s.mmio with device := c.device, queues := c.queues}
  world := c.world
  trace := c.trace

def onCell (m : Prog (Cell D) ε α) : Prog (Slot D) ε α := Prog.zoom cell putCell m

def update (f : Mmio D → Mmio D) : Prog (Slot D) ε Unit :=
  Prog.modify (fun s => {s with mmio := f s.mmio})

end Slot

namespace Mmio

variable {D : Type}

/-- A fresh transport; `Queue::new(MAX_QUEUE).unwrap()` is the only way to fail. -/
def new [VirtioDevice D] (env : Env) (device : D) : Except Panic (Mmio D) :=
  match env.vq.new MAX_QUEUE with
  | none => .error .unwrap
  | some q => .ok {
      device := device
      queues := ⟨List.replicate (VirtioDevice.queueCount device) q,0,0⟩
      featureSel := 0
      driverSel := 0
      queueSel := 0
      features := VirtioDevice.features device ||| VERSION_1
      status := 0
      strict := true
      rejected := 0 }

def withStrict (m : Mmio D) (strict : Bool) : Mmio D := {m with strict := strict}

def needsReset (m : Mmio D) : Bool := m.status &&& NEEDS_RESET != 0

def interruptPending (m : Mmio D) : Bool := m.queues.interrupt != 0

def configChanged (m : Mmio D) : Mmio D :=
  {m with queues := {m.queues with interrupt := m.queues.interrupt ||| 2}}

/-- DEVICE_NEEDS_RESET, notified only once DRIVER_OK is set (virtio 1.2, 2.1.2). -/
def isolate (m : Mmio D) : Mmio D :=
  let m := {m with status := m.status ||| NEEDS_RESET}
  if m.status &&& DRIVER_OK ≠ 0 then m.configChanged else m

def active (m : Mmio D) : Bool := m.status &&& 0xcf == 0xf

/-- Pass through results and fatal errors. In lenient mode a guest error isolates
the device instead, and `none` reports that isolation. -/
def contain {α : Type} (result : Except (Failure DeviceError) α) :
    Prog (Slot D) (Failure DeviceError) (Option α) := do
  let s ← Prog.get
  match result with
  | .ok value => return some value
  | .error (.panic p) => Prog.fail (.panic p)
  | .error (.error e) =>
    if !s.mmio.strict && e.isGuest then do
      Slot.update isolate
      return none
    else Prog.fail (.error e)

variable [VirtioDevice D]

def flush : Prog (Slot D) (Failure DeviceError) Unit := Slot.onCell VirtioDevice.flush

def poll (env : Env) : Prog (Slot D) (Failure DeviceError) Unit := do
  let s ← Prog.get
  if s.mmio.active then
    let result ← Prog.capture (Slot.onCell (VirtioDevice.poll env))
    let _ ← contain result

/-- The value of a register or configuration field; `none` means the access
decodes to neither. -/
def read (m : Mmio D) (offset width : Nat) : Option Nat :=
  if !(width == 1 || width == 2 || width == 4 || width == 8) then none
  else if 0x100 ≤ offset ∧ offset < 0x1000 then
    if offset + width > 0x1000 then none
    else some (fromLeBytes (VirtioDevice.readConfig m.device (offset - 0x100) width))
  else if width ≠ 4 then none
  else some (
    if offset = 0 then 0x74726976
    else if offset = 4 then 2
    else if offset = 8 then VirtioDevice.deviceId m.device
    else if offset = 12 then 0x57564d4d
    else if offset = 0x10 ∧ m.featureSel.toNat < 2 then
      ((m.features >>> (m.featureSel.toNat * 32)) &&& 0xffffffff).toNat
    else if offset = 0x34 ∧ m.queueSel.toNat < m.queues.rings.length then MAX_QUEUE
    else if offset = 0x44 then
      if (m.queues.rings[m.queueSel.toNat]?).any (·.ready) then 1 else 0
    else if offset = 0x60 then m.queues.interrupt.toNat
    else if offset = 0x70 then m.status.toNat
    else if offset = 0xfc then VirtioDevice.generation m.device
    else 0)

/-- A status write of zero: the device first, then every register. -/
def reset (env : Env) : Prog (Slot D) (Failure DeviceError) Unit := do
  Slot.onCell VirtioDevice.reset
  Slot.update (fun m => {m with
    queues := ⟨m.queues.rings.map env.vq.reset,0,0⟩
    featureSel := 0
    driverSel := 0
    queueSel := 0
    status := 0})

/-- Leaving FEATURES_OK clear rejects the negotiated subset. -/
def acceptedStatus (m : Mmio D) (value : BitVec 32) : BitVec 32 :=
  let required := VirtioDevice.requiredFeatures m.device
  if value &&& FEATURES_OK ≠ 0 ∧
      (m.queues.negotiated &&& ~~~m.features ≠ 0 ∨ m.queues.negotiated &&& VERSION_1 = 0 ∨
        m.queues.negotiated &&& required ≠ required) then
    value &&& ~~~FEATURES_OK
  else value

def writeStatus (env : Env) (value : BitVec 32) : Prog (Slot D) (Failure DeviceError) Unit := do
  let s ← Prog.get
  Prog.require (value &&& s.mmio.status = s.mmio.status) (.error .statusBitsCleared)
  let status := s.mmio.acceptedStatus value
  Prog.require (¬(status &&& DRIVER_OK ≠ 0 ∧ s.mmio.status &&& DRIVER_OK = 0 ∧
      ¬(status &&& 0xb = 0xb ∧ s.mmio.queues.rings.all (env.vq.isValid · s.world.view))))
    (.error .driverNotReady)
  Slot.update (fun m => {m with status := status})

def setRing (index : Nat) (q : Queue) (m : Mmio D) : Mmio D :=
  {m with queues := {m.queues with rings := m.queues.rings.set index q}}

def writeRing (env : Env) (offset : Nat) (value : BitVec 32) (index : Nat) (q : Queue) :
    Prog (Slot D) (Failure DeviceError) Unit := do
  let v := value.toNat
  if offset = 0x38 then
    Prog.require (v ≤ MAX_QUEUE) (.error (.queueTooLarge v MAX_QUEUE))
    let (r,q') := env.vq.trySetSize q v
    Slot.update (setRing index q')
    match r with
    | .ok () => return ()
    | .error e => Prog.fail (.error (.queue e))
  else if offset = 0x44 then
    Prog.require (v ≤ 1) (.error (.invalidQueueReady v))
    -- The flag is set before the ring is validated, and taken back on failure.
    Slot.update (setRing index {q with ready := v == 1})
    let s ← Prog.get
    if v = 1 ∧ ¬env.vq.isValid {q with ready := true} s.world.view then
      Slot.update (setRing index {q with ready := false})
      Prog.fail (.error .invalidQueueMemory)
    else return ()
  else if offset = 0x80 then Slot.update (setRing index (env.vq.setDescTableAddress q (some v) none))
  else if offset = 0x84 then Slot.update (setRing index (env.vq.setDescTableAddress q none (some v)))
  else if offset = 0x90 then Slot.update (setRing index (env.vq.setAvailRingAddress q (some v) none))
  else if offset = 0x94 then Slot.update (setRing index (env.vq.setAvailRingAddress q none (some v)))
  else if offset = 0xa0 then Slot.update (setRing index (env.vq.setUsedRingAddress q (some v) none))
  else if offset = 0xa4 then Slot.update (setRing index (env.vq.setUsedRingAddress q none (some v)))
  else Prog.fail (.panic .unreachable)

def queueRegister (offset : Nat) : Bool :=
  [0x38,0x44,0x80,0x84,0x90,0x94,0xa0,0xa4].contains offset

def configureQueue (env : Env) (offset : Nat) (value : BitVec 32) :
    Prog (Slot D) (Failure DeviceError) Unit := do
  let s ← Prog.get
  match s.mmio.queues.rings[s.mmio.queueSel.toNat]? with
  | none => return ()
  | some q =>
    -- A driver may disable a queue after DRIVER_OK but not restart it.
    let disable := offset = 0x44 ∧ value = 0
    Prog.require (¬(s.mmio.status &&& DRIVER_OK ≠ 0 ∧ ¬disable))
      (.error .queueConfigurationAfterDriverOk)
    Prog.require (¬(q.ready ∧ ¬disable)) (.error .queueConfigurationWhileReady)
    writeRing env offset value s.mmio.queueSel.toNat q

def configure (env : Env) (offset : Nat) (value : BitVec 32) :
    Prog (Slot D) (Failure DeviceError) Unit := do
  let s ← Prog.get
  if offset = 0x14 then Slot.update (fun m => {m with featureSel := value})
  else if offset = 0x24 then Slot.update (fun m => {m with driverSel := value})
  else if offset = 0x30 then Slot.update (fun m => {m with queueSel := value})
  else if offset = 0x20 ∧ s.mmio.status &&& FEATURES_OK = 0 ∧ s.mmio.driverSel.toNat < 2 then
    let shift := s.mmio.driverSel.toNat * 32
    Slot.update (fun m => {m with queues := {m.queues with
      negotiated := (m.queues.negotiated &&& ~~~((0xffffffff : BitVec 64) <<< shift)) |||
        (value.setWidth 64 <<< shift)}})
  else if offset = 0x70 then
    if value = 0 then reset env else writeStatus env value
  else if offset = 0x64 then
    Slot.update (fun m => {m with queues := {m.queues with
      interrupt := m.queues.interrupt &&& ~~~value}})
  else if queueRegister offset then configureQueue env offset value
  else return ()

/-- A notification reaches an active device for a ready queue; others are ignored. -/
def notify (env : Env) (queue : Nat) : Prog (Slot D) (Failure DeviceError) Unit := do
  let s ← Prog.get
  if s.mmio.active && (s.mmio.queues.rings[queue]?).any (·.ready) then
    let result ← Prog.capture (Slot.onCell (VirtioDevice.notify env queue))
    let _ ← contain result

/-- A 32-bit register write. Lenient mode counts a rejected one and ignores it. -/
def write (env : Env) (offset : Nat) (value : BitVec 32) :
    Prog (Slot D) (Failure DeviceError) Unit := do
  if offset = 0x50 then notify env value.toNat
  else
    let s ← Prog.get
    match ← Prog.capture (configure env offset value) with
    | .ok () => return ()
    | .error (.panic p) => Prog.fail (.panic p)
    | .error (.error e) =>
      if !s.mmio.strict && e.isGuest then
        Slot.update (fun m => {m with rejected := (m.rejected + 1) % 2^64})
      else Prog.fail (.error e)

end Mmio

/-- Copy a read-only device configuration, zero-filling unimplemented fields. -/
def readConfig (config : List UInt8) (offset len : Nat) : List UInt8 :=
  (List.range len).map (fun i => config.getD (offset + i) 0)

end WVmm.Devices
