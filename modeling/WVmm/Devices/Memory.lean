import WVmm.Devices.Mmio
import Std.Data.TreeMap

/-! virtio-mem and transactional, sparse guest-memory mappings. The device keeps
only committed blocks; the shared status lives in the world, where the host
reaches it through its control handle. -/
namespace WVmm.Devices
open Lib.Effect

/-- Sparse virtio-mem device. Initial requested and plugged capacity are zero. -/
structure VirtioMem where
  start : Nat
  capacity : Nat
  blockSize : Nat
  blockLen : Nat
  requested : Nat
  plugged : Nat
  generation : Nat
  blocks : Std.TreeMap Nat Region

structure Txn (M : Type) where
  cell : Cell VirtioMem
  mapper : M

namespace Txn

variable {M : Type} {ε α : Type}

def onCell (m : Prog (Cell VirtioMem) ε α) : Prog (Txn M) ε α :=
  Prog.zoom Txn.cell (fun t c => {t with cell := c}) m

def onWorld (m : Prog World ε α) : Prog (Txn M) ε α := onCell (Cell.onWorld m)

def updateDevice (f : VirtioMem → VirtioMem) : Prog (Txn M) ε Unit :=
  Prog.modify (fun t => {t with cell := {t.cell with device := f t.cell.device}})

variable [Mapper M]

/-- A mapper call as a value: the caller decides about rollback. -/
def map (region : Region) : Prog (Txn M) ε (Except MemoryError Unit) where
  exec t :=
    let (r,mapper) := Mapper.map t.mapper region
    (.ok r,{t with
      mapper := mapper
      cell := {t.cell with trace := t.cell.trace ++ [.map region (answer r)]}})

def unmap (region : Region) : Prog (Txn M) ε (Except MemoryError Unit) where
  exec t :=
    let (r,mapper) := Mapper.unmap t.mapper region
    (.ok r,{t with
      mapper := mapper
      cell := {t.cell with trace := t.cell.trace ++ [.unmap region (answer r)]}})

end Txn

namespace VirtioMem

def isPowerOfTwo (n : Nat) : Bool := n == 2^n.log2

def new (regionSizeMib blockSizeMib : Nat) : Except MemoryError (VirtioMem × MemoryStatus) :=
  if !isPowerOfTwo blockSizeMib then .error (.invalidBlockSize blockSizeMib)
  else (mibBytes blockSizeMib).bind fun blockSize =>
    (mibBytes regionSizeMib).bind fun capacity =>
      let alignment := max HOTPLUG_BLOCK_SIZE blockSize
      if capacity = 0 ∨ capacity % alignment ≠ 0 then
        .error (.invalidRegionSize regionSizeMib (alignment / MIB))
      else .ok ({
        start := 0
        capacity := capacity
        blockSize := blockSize
        blockLen := blockSize
        requested := 0
        plugged := 0
        generation := 0
        blocks := ∅ },MemoryStatus.new regionSizeMib blockSizeMib)

def alignment (d : VirtioMem) : Nat := max HOTPLUG_BLOCK_SIZE d.blockSize

def attachAt (d : VirtioMem) (status : MemoryStatus) (start : Nat) : Except MemoryError VirtioMem :=
  if start % d.alignment ≠ 0 then .error (.hotplugAlignment start d.alignment)
  else if (checkedAdd start d.capacity).isNone then .error .hotplugOverflow
  else (mibBytes status.requestedSizeMib).map fun requested =>
    {d with start := start, requested := requested}

def isPlugged (d : VirtioMem) (addr : Nat) : Bool := d.blocks.contains addr

def count (d : VirtioMem) : Nat := d.blocks.size

def addresses (d : VirtioMem) : List Nat := d.blocks.keys

/-- Adopt a target in bytes; true when the driver has to be told. -/
def adopt {ε : Type} (requested : Nat) : Prog (Cell VirtioMem) ε Bool := do
  let c ← Prog.get
  if requested = c.device.requested then return false
  Prog.modify (fun c => {c with device := {c.device with
    requested := requested
    generation := (c.device.generation + 1) % 2^32}})
  return true

def syncTarget {ε : Type} (ready : Bool) : Prog (Cell VirtioMem) ε Bool := do
  Prog.modify (fun c => {c with world := {c.world with
    control := {c.world.control with driverReady := ready}}})
  let c ← Prog.get
  -- Accepted targets are bounded by the byte-checked region capacity.
  adopt (wrappingMul c.world.control.requestedSizeMib MIB)

section Transaction
variable {M : Type} [Mapper M]

/-- The region of one address: a fresh allocation, or the one in the table. -/
def stageRegion (env : Env) (plug : Bool) (addr : Nat) (next : GuestMemoryMmap) (d : VirtioMem) :
    Prog (Txn M) (Failure MemoryError) Region :=
  if plug then Txn.onWorld (World.fromRange env next.regions addr d.blockLen)
  else match d.blocks[addr]? with
    | some region => pure region
    | none => Prog.fail (.panic .index)

/-- The regions of a change and the view it would commit, one address at a time. -/
def stage (env : Env) (plug : Bool) :
    List Nat → GuestMemoryMmap → Prog (Txn M) (Failure MemoryError) (List Region × GuestMemoryMmap)
  | [], next => return ([],next)
  | addr::rest, next => do
    let t ← Prog.get
    let d := t.cell.device
    let region ← stageRegion env plug addr next d
    let next ← Prog.ofExcept ((if plug then env.vm.insertRegion next region
      else env.vm.removeRegion next addr d.blockSize).mapError (fun e => .error (.regions e)))
    let (regions,last) ← stage env plug rest next
    return (region::regions,last)

def operate (plug : Bool) (r : Region) : Prog (Txn M) (Failure MemoryError) (Except MemoryError Unit) :=
  if plug then Txn.map r else Txn.unmap r

/-- Undo the given operations in order and keep the first error. -/
def rollback (plug : Bool) : List Region → Prog (Txn M) (Failure MemoryError) (Option MemoryError)
  | [] => return none
  | r::rest => do
    let undone ← operate (!plug) r
    let later ← rollback plug rest
    match undone with
    | .error e => return some e
    | .ok () => return later

/-- Map or unmap every region. `done` holds the finished ones, last first. False
means failure with successful rollback. -/
def apply (plug : Bool) : List Region → List Region → Prog (Txn M) (Failure MemoryError) Bool
  | _, [] => return true
  | done, r::rest => do
    match ← operate plug r with
    | .ok () => apply plug (r::done) rest
    | .error source =>
      match ← rollback plug done with
      | some failed => Prog.fail (.error (.rollbackFailed source failed))
      | none => return false

def commit (plug : Bool) (addresses : List Nat) (regions : List Region)
    (blocks : Std.TreeMap Nat Region) : Std.TreeMap Nat Region :=
  (addresses.zip regions).foldl
    (fun blocks (addr,region) => if plug then blocks.insert addr region else blocks.erase addr) blocks

/-- Called only with every vCPU quiescent and device processing suspended. False
means failure with successful rollback; a failed rollback is an error. -/
def change (env : Env) (addresses : List Nat) (plug : Bool) :
    Prog (Txn M) (Failure MemoryError) Bool := do
  let t ← Prog.get
  let (regions,next) ← stage env plug addresses t.cell.world.view
  if ← apply plug [] regions then
    Prog.modify (fun t => {t with cell := {t.cell with
      world := {t.cell.world with view := next}
      device := {t.cell.device with
        blocks := commit plug addresses regions t.cell.device.blocks}}})
    return true
  else return false

structure Request where
  kind : Nat
  addr : Nat
  count : Nat
deriving DecidableEq

def Request.decode (req : List UInt8) : Request where
  kind := fromLeBytes (req.take 2)
  addr := fromLeBytes ((req.drop 8).take 8)
  count := fromLeBytes ((req.drop 16).take 2)

/-- The blocks a request is about; `none` is a malformed range. -/
def Request.addresses (r : Request) (d : VirtioMem) : Option (List Nat) :=
  if r.kind = 2 then some d.addresses
  else match (checkedMul r.count d.blockSize).bind (fun len => checkedAdd r.addr len) with
    | none => none
    | some stop =>
      if r.count = 0 ∨ r.addr % d.blockSize ≠ 0 ∨ r.addr < d.start ∨
          stop > wrappingAdd d.start d.capacity then none
      else some ((List.range r.count).map
        (fun n => wrappingAdd r.addr (wrappingMul n d.blockSize)))

/-- Whether a block and a pinned range meet, on saturating 64-bit ends. -/
def meets (d : VirtioMem) (a : Nat) (pin : Nat × Nat) : Bool :=
  decide (pin.1 < wrappingAdd a d.blockSize) && decide (saturatingAdd pin.1 pin.2 > a)

/-- Answer one request: 0 ACK, 1 NACK, 2 BUSY, 3 ERROR, with the state of a
STATE request. -/
def request (env : Env) (req : List UInt8) (pinned : List (Nat × Nat)) :
    Prog (Txn M) (Failure MemoryError) (Nat × Nat) := do
  let r := Request.decode req
  if r.kind > 3 then return (3,0)
  let t ← Prog.get
  let d := t.cell.device
  match r.addresses d with
  | none => return (3,0)
  | some addresses =>
    let plugged := (addresses.filter d.isPlugged).length
    if r.kind = 3 then
      return (0,if plugged = 0 then 1 else if plugged = addresses.length then 0 else 2)
    if (r.kind = 0 ∧ plugged ≠ 0) ∨ (r.kind = 1 ∧ plugged ≠ addresses.length) then return (3,0)
    -- The status stays locked from the target check to the size update.
    if r.kind = 0 ∧
        r.count > t.cell.world.control.requestedSizeMib / (d.blockSize / MIB) - d.count then
      return (1,0)
    if r.kind ≠ 0 ∧ addresses.any (fun a => pinned.any (d.meets a)) then return (2,0)
    if !(← change env addresses (r.kind == 0)) then return (2,0)
    Txn.updateDevice (fun d => {d with
      plugged := wrappingMul d.count d.blockSize
      generation := (d.generation + 1) % 2^32})
    Prog.modify (fun t => {t with cell := {t.cell with world := {t.cell.world with
      control := {t.cell.world.control with
        pluggedSizeMib := t.cell.device.plugged / 2^20}}}})
    return (0,0)

/-- The readable bytes of a request chain. `room` is what is left of the 24-byte
buffer; `writable` is whether a writable descriptor has been seen. -/
def readRequest (env : Env) :
    Nat → Bool → List Descriptor → Prog World (Failure DeviceError) (List UInt8)
  | _, _, [] => return []
  | room, writable, d::rest =>
    if d.isWriteOnly then readRequest env room true rest
    else if writable then Prog.fail (.error (.memory .readableDescriptorAfterWritableDescriptor))
    else if d.len > room then Prog.fail (.panic .index)
    else do
      let raw ← World.readSlice env d.addr d.len
      let others ← readRequest env (room - d.len) writable rest
      return raw ++ others

def respond (env : Env) : List UInt8 → List Descriptor → Prog World (Failure DeviceError) Unit
  | _, [] => return ()
  | response, d::rest => do
    World.writeSlice env d.addr (response.take (min d.len response.length))
    if response.drop (min d.len response.length) = [] then return ()
    else respond env (response.drop (min d.len response.length)) rest

def responseBytes (code state : Nat) : List UInt8 :=
  toLeBytes 2 code ++ List.replicate 6 0 ++ toLeBytes 2 state

def serve (env : Env) (pinned : List (Nat × Nat)) (chain : Chain) :
    Prog (Txn M) (Failure DeviceError) Unit := do
  let read := ((chain.descriptors.filter (fun d => !d.isWriteOnly)).map (·.len)).sum
  let write := ((chain.descriptors.filter (·.isWriteOnly)).map (·.len)).sum
  Prog.require (read = 24 ∧ write ≥ 10)
    (.error (.memory (.invalidVirtioMemRequestBuffers read write)))
  let pins := pinned ++ chain.descriptors.map (fun d => (d.addr,d.len))
  let req ← Txn.onWorld (readRequest env 24 false chain.descriptors)
  let (code,state) ← Prog.mapError (Failure.convert .memory) (request env req pins)
  Txn.onWorld (respond env (responseBytes code state) (chain.descriptors.filter (·.isWriteOnly)))
  Txn.onCell (Queues.complete env 0 chain.head 10)

/-- Bounded so that host stop and input requests remain responsive. -/
def processLoop (env : Env) (pinned : List (Nat × Nat)) :
    Nat → Prog (Txn M) (Failure DeviceError) Unit
  | 0 => return ()
  | budget+1 => do
    match ← Txn.onCell (Queues.pop env 0) with
    | none => return ()
    | some chain =>
      serve env pinned chain
      processLoop env pinned budget

def process (env : Env) (pinned : List (Nat × Nat)) : Prog (Txn M) (Failure DeviceError) Unit :=
  processLoop env pinned 128

/-- Unmap every block, whatever fails, and keep the first error. -/
def unmapAll : List Region → Prog (Txn M) (Failure MemoryError) (Option MemoryError)
  | [] => return none
  | r::rest => do
    let undone ← Txn.unmap r
    let later ← unmapAll rest
    match undone with
    | .error e => return some e
    | .ok () => return later

/-- vCPUs must be joined first. -/
def stop : Prog (Txn M) (Failure MemoryError) (Option MemoryError) := do
  Txn.onWorld (Prog.modify (fun w => {w with control := w.control.stop}))
  let t ← Prog.get
  unmapAll t.cell.device.blocks.values

end Transaction

/-- The 56-byte configuration: block size, region address and size, usable size,
plugged and requested size. -/
def config (d : VirtioMem) : List UInt8 :=
  toLeBytes 8 d.blockSize ++ List.replicate 8 0 ++ toLeBytes 8 d.start ++ toLeBytes 8 d.capacity ++
    toLeBytes 8 d.capacity ++ toLeBytes 8 d.plugged ++ toLeBytes 8 d.requested

instance : VirtioDevice VirtioMem where
  requiredFeatures _ := 2
  generation d := d.generation
  deviceId _ := 24
  features _ := 2
  queueCount _ := 1
  readConfig d offset len := readConfig d.config offset len
  notify _ _ := return ()
  poll _ := return ()
  reset := Cell.onWorld (Prog.modify (fun w =>
    {w with control := {w.control with driverReady := false}}))
  flush := return ()

end VirtioMem
end WVmm.Devices
