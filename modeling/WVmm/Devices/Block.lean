import WVmm.Devices.Mmio

/-! virtio-blk over a caller-provided disk. For a chain that passed queue
validation only an untrustworthy status descriptor is an error; any other
malformed request is completed with IOERR and an unknown one with UNSUPP. -/
namespace WVmm.Devices
open Lib.Effect

/-- Complete synchronous requests on host memory. A failed read may have
modified part of the destination. -/
class BlockStorage (B : Type) where
  size : B → Nat
  readOnly : B → Bool
  read : B → Nat → List VolatileSlice → Host → Except StorageError Unit × B × Host
  write : B → Nat → List VolatileSlice → Host → Except StorageError Unit × B
  flush : B → Except StorageError Unit × B

namespace Storage

def bounds (size offset len : Nat) : Except StorageError Unit :=
  match checkedAdd offset len with
  | some stop => if stop ≤ size then .ok () else .error (.outOfBounds size offset len)
  | none => .error (.outOfBounds size offset len)

end Storage

structure Block (B : Type) where
  disk : B
  name : String
  id : List UInt8

namespace Block

def SEG_MAX : Nat := MAX_QUEUE - 2

def F_FLUSH : BitVec 64 := 1 <<< 9

def F_SEG_MAX : BitVec 64 := 1 <<< 2

def F_RO : BitVec 64 := 1 <<< 5

def T_IN : Nat := 0

def T_OUT : Nat := 1

def T_FLUSH : Nat := 4

def T_GET_ID : Nat := 8

def S_OK : UInt8 := 0

def S_IOERR : UInt8 := 1

def S_UNSUPP : UInt8 := 2

def validName (name : String) : Bool :=
  !name.toList.isEmpty && name.utf8ByteSize ≤ 20 &&
    name.toList.all (fun c => c.isAlphanum || ['.','_','-'].contains c)

/-- The name, zero-filled to 20 bytes, is the serial GET_ID returns. -/
def new {B : Type} (name : String) (disk : B) : Except DeviceError (Block B) :=
  if validName name then
    .ok ⟨disk,name,(name.toList.map (fun c : Char => UInt8.ofNat c.toNat) ++ List.replicate 20 0).take 20⟩
  else .error (.invalidBlockName name)

/-- The descriptors with payload bytes. Header bytes must be device-readable. -/
def payload : Nat → List Descriptor → Except DeviceError (List Descriptor)
  | _, [] => .ok []
  | remaining, d::rest =>
    let headerLen := min remaining d.len
    if headerLen ≠ 0 ∧ d.isWriteOnly then .error .invalidBlockHeaderStatus
    else match payload (remaining - headerLen) rest with
      | .error e => .error e
      | .ok data => .ok (if d.len > headerLen then d::data else data)

variable {B : Type} [BlockStorage B]

def diskRead (env : Env) (offset : Nat) (data : List VolatileSlice) :
    Prog (Cell (Block B)) (Failure DeviceError) Unit := do
  Cell.onWorld (World.observe env)
  let c ← Prog.get
  let (r,disk,host) := BlockStorage.read c.device.disk offset data c.world.host
  Prog.modify (fun c => {c with
    device := {c.device with disk := disk}
    world := {c.world with host := host}})
  Cell.record (.diskRead offset data (answer r))
  Prog.ofExcept (r.mapError (fun e => .error (.storage e)))

def diskWrite (env : Env) (offset : Nat) (data : List VolatileSlice) :
    Prog (Cell (Block B)) (Failure DeviceError) Unit := do
  Cell.onWorld (World.observe env)
  let c ← Prog.get
  let (r,disk) := BlockStorage.write c.device.disk offset data c.world.host
  Prog.modify (fun c => {c with device := {c.device with disk := disk}})
  Cell.record (.diskWrite offset (World.bytesAt c.world.host data) (answer r))
  Prog.ofExcept (r.mapError (fun e => .error (.storage e)))

def diskFlush : Prog (Cell (Block B)) (Failure DeviceError) Unit := do
  let c ← Prog.get
  let (r,disk) := BlockStorage.flush c.device.disk
  Prog.modify (fun c => {c with device := {c.device with disk := disk}})
  Cell.record (.diskFlush (answer r))
  Prog.ofExcept (r.mapError (fun e => .error (.storage e)))

/-- Without FLUSH negotiation every write is flushed. -/
def writeThrough (negotiated : BitVec 64) : Prog (Cell (Block B)) (Failure DeviceError) Unit :=
  if negotiated &&& F_FLUSH = 0 then diskFlush else pure ()

/-- IN and OUT. The used length covers payload plus status and must fit before
any I/O. -/
def transfer (env : Env) (read : Bool) (sector total : Nat) (data : List Descriptor)
    (buffers : List VolatileSlice) (negotiated : BitVec 64) :
    Prog (Cell (Block B)) (Failure DeviceError) (UInt8 × Nat) := do
  Prog.require (data.all (fun d => d.isWriteOnly == read)) (.error .blockDescriptorDirectionMismatch)
  Prog.require (total % 512 = 0) (.error (.unalignedBlockRequest total))
  let c ← Prog.get
  Prog.require (read || !BlockStorage.readOnly c.device.disk) (.error .writeToReadOnlyDisk)
  Prog.require (read → total + 1 < 2^32) (.error .requestLengthOverflow)
  match checkedMul sector 512 with
  | none => Prog.fail (.error (.sectorOverflow sector))
  | some offset =>
    Prog.ofExcept ((Storage.bounds (BlockStorage.size c.device.disk) offset total).mapError
      (fun e => .error (.storage e)))
    if read then
      diskRead env offset buffers
      return (S_OK,total + 1)
    else
      diskWrite env offset buffers
      writeThrough negotiated
      return (S_OK,1)

/-- The status byte and used length of a request. Errors become IOERR. -/
def execute (env : Env) (request : List Descriptor) (negotiated : BitVec 64) :
    Prog (Cell (Block B)) (Failure DeviceError) (UInt8 × Nat) := do
  -- Validate the entire request before any backend access.
  let c ← Prog.get
  let all ← Prog.ofExcept ((Buffers.slices env.vm c.world.view request).mapError
    (fun e => .error (.guestAccess e)))
  match Buffers.totalLength request with
  | none => Prog.fail (.error .requestLengthOverflow)
  | some requestLen =>
    Prog.require (16 ≤ requestLen) (.error .invalidBlockHeaderStatus)
    let total := requestLen - 16
    let data ← Prog.ofExcept ((payload 16 request).mapError .error)
    let h ← Cell.onWorld (Buffers.copyTo env all 16)
    let k := fromLeBytes (h.take 4)
    let sector := fromLeBytes (h.drop 8)
    let buffers ← Prog.ofExcept ((Buffers.range all 16 total).mapError .panic)
    if k = T_IN ∨ k = T_OUT then
      transfer env (k == T_IN) sector total data buffers negotiated
    else if k = T_FLUSH then
      Prog.require (total == 0 && negotiated &&& F_FLUSH != 0) (.error .invalidFlush)
      diskFlush
      return (S_OK,1)
    else if k = T_GET_ID then
      Prog.require (decide (total ≥ 20) && data.all (·.isWriteOnly)) (.error .invalidGetId)
      let c ← Prog.get
      Cell.onWorld (Buffers.copyFrom buffers c.device.id)
      return (S_OK,21)
    else return (S_UNSUPP,1)

def request (env : Env) (descriptors : List Descriptor) (negotiated : BitVec 64) :
    Prog (Cell (Block B)) (Failure DeviceError) Nat := do
  match descriptors.getLast? with
  | none => Prog.fail (.error .truncatedBlockDescriptorChain)
  | some status =>
    let trusted ← Cell.onWorld (World.checkRange env status.addr 1)
    Prog.require (status.isWriteOnly && status.len == 1 && trusted) (.error .invalidBlockHeaderStatus)
    match ← Prog.capture (execute env descriptors.dropLast negotiated) with
    | .ok (value,used) =>
      Cell.onWorld (World.writeSlice env status.addr [value])
      return used
    | .error (.error _) =>
      Cell.onWorld (World.writeSlice env status.addr [S_IOERR])
      return 1
    | .error (.panic p) => Prog.fail (.panic p)

def serve (env : Env) : Nat → Prog (Cell (Block B)) (Failure DeviceError) Unit
  | 0 => return ()
  | count+1 => do
    match ← Queues.pop env 0 with
    | none => Prog.fail (.error .missingBlockChain)
    | some chain =>
      let c ← Prog.get
      let used ← request env chain.descriptors c.queues.negotiated
      Queues.complete env 0 chain.head used
      serve env count

def notify (env : Env) (_queue : Nat) : Prog (Cell (Block B)) (Failure DeviceError) Unit := do
  let count ← Queues.available env 0
  serve env count

instance : VirtioDevice (Block B) where
  requiredFeatures _ := 0
  generation _ := 0
  deviceId _ := 2
  -- SIZE_MAX is deliberately absent: requests have no size cap.
  features d := F_FLUSH ||| F_SEG_MAX ||| (if BlockStorage.readOnly d.disk then F_RO else 0)
  queueCount _ := 1
  readConfig d offset len :=
    readConfig (toLeBytes 8 (BlockStorage.size d.disk / 512) ++ [0,0,0,0] ++ toLeBytes 4 SEG_MAX)
      offset len
  notify := notify
  poll _ := return ()
  reset := diskFlush
  flush := diskFlush

end Block
end WVmm.Devices
