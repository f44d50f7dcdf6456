import WVmm.Network.Address
import WVmm.Devices.NetSpec

/-! macOS shared-mode NAT interface. The framework is a parameter with a state of
its own: it answers each call, and a completion handler either runs with its
arguments or the wait for it fails. The calls on the framework are logged. -/
namespace WVmm.Network
open Lib.Effect

/-- A C string as `to_str` reads it. -/
abbrev CString := Except Foreign (List Char)

/-- A live parameter dictionary as its getters show it; a missing number is zero. -/
structure Dictionary where
  macAddress : Option CString
  mtu : UInt64
  maxPacketSize : UInt64
  startAddress : Option CString
  endAddress : Option CString
  subnetMask : Option CString

abbrev Interface := Nat

/-- The flags are always zero, and the count of buffers is that of the list. -/
structure Packet where
  size : Nat
  iov : List VolatileSlice
deriving DecidableEq

/-- vmnet.framework and the XPC dictionaries it takes. -/
structure Framework where
  State : Type
  create : State → Bool × State
  startInterface : State → Option Interface × Except Foreign (Nat × Option Dictionary) × State
  stopInterface : State → Interface → Nat × Except Foreign Nat × State
  read : State → Interface → Packet → Host → Nat × Int × Nat × State × Host
  write : State → Interface → Packet → Host → Nat × Int × State

/-- A call on an interface; a start is logged with the interface it returned. -/
inductive Call
  | start (interface : Option Interface)
  | read (interface : Interface) (packet : Packet)
  | write (interface : Interface) (packet : Packet)
  | stop (interface : Interface)
deriving DecidableEq

structure Outside (fw : Framework) where
  state : fw.State
  calls : List Call

def SUCCESS : Nat := 1000

def BUFFER_EXHAUSTED : Nat := 1007

def check (status : Nat) (operation : String) : Except NetError Unit :=
  if status = SUCCESS then .ok ()
  else if status = 1005 ∨ status = 1010 then .error (.permissionDenied operation status)
  else .error (.vmnet operation status)

def string (value : Option CString) : Except NetError (Option (List Char)) :=
  match value with
  | none => .ok none
  | some text => (text.mapError .utf8).map some

structure SharedIpv4 where
  gateway : Option (List Char) := none
  poolEnd : Option (List Char) := none
  subnetMask : Option (List Char) := none
deriving DecidableEq

structure Parameters where
  mac : List UInt8
  maxFrame : Nat
  ipv4 : SharedIpv4

def MTU : Nat := 1500

def outOfRange : Foreign := ⟨"out of range integral type conversion attempted"⟩

def address (value : Option (List Char)) : Except NetError (List UInt8) :=
  match value with
  | none => .error .missingMac
  | some text => parseMac text

def parameters (dict : Option Dictionary) : Except NetError Parameters :=
  match dict with
  | none => .error .missingVmnetInterfaceParameters
  | some dict => do
    let text ← string dict.macAddress
    let mac ← address text
    let mtu := dict.mtu.toNat
    if ¬mtu < 65536 then .error (.integer outOfRange)
    else
      let maxFrame := dict.maxPacketSize.toNat
      if mtu ≠ MTU then .error (.unexpectedMtu mtu)
      else if ¬(mtu ≥ 68 ∧ maxFrame ≥ mtu + 14 ∧ maxFrame ≤ 65535 + 18) then .error .invalidVmnetFrameCapacity
      else
        let gateway ← string dict.startAddress
        let poolEnd ← string dict.endAddress
        let subnetMask ← string dict.subnetMask
        .ok ⟨mac,maxFrame,⟨gateway,poolEnd,subnetMask⟩⟩

/-- Owns its interface; dropping it stops I/O. -/
structure Vmnet where
  interface : Option Interface
  mac : List UInt8
  maxFrame : Nat
  ipv4 : SharedIpv4

/-- A backend with the framework it runs on and the errors that its device got to see. -/
structure Session (fw : Framework) where
  backend : Vmnet
  outside : Outside fw
  errors : List NetError

variable {fw : Framework}

namespace Vmnet

def stopInterface (interface : Interface) : Prog (Session fw) NetError (Nat × Except Foreign Nat) where
  exec s :=
    let (status,completion,state) := fw.stopInterface s.outside.state interface
    (.ok (status,completion),{s with outside := ⟨state,s.outside.calls ++ [.stop interface]⟩})

/-- Stop once; the interface is given up before the call. -/
def close : Prog (Session fw) NetError Unit := do
  let s ← Prog.get
  match s.backend.interface with
  | none => return ()
  | some interface =>
    Prog.modify (fun s => {s with backend := {s.backend with interface := none}})
    let (status,completion) ← stopInterface interface
    Prog.ofExcept (check status "stop vmnet")
    let status ← Prog.ofExcept (completion.mapError (.wait "waiting for vmnet stop"))
    Prog.ofExcept (check status "stop vmnet completion")

/-- A failure to stop is only reported. -/
def drop : Prog (Session fw) NetError Unit := do
  let _ ← Prog.capture close
  return ()

def create : Prog (Outside fw) NetError Bool where
  exec out := (.ok (fw.create out.state).1,{out with state := (fw.create out.state).2})

def startInterface : Prog (Outside fw) NetError (Option Interface × Except Foreign (Nat × Option Dictionary)) where
  exec out :=
    let (interface,completion,state) := fw.startInterface out.state
    (.ok (interface,completion),⟨state,out.calls ++ [.start interface]⟩)

def started (completion : Except Foreign (Nat × Option Dictionary)) : Except NetError Parameters := do
  let (status,dict) ← completion.mapError (.wait "waiting for vmnet start")
  ((check status "start vmnet").bind (fun _ => parameters dict)).mapError .start

/-- A backend that goes out of scope in the function that made it. -/
def discard (backend : Vmnet) : Prog (Outside fw) NetError Unit :=
  ⟨fun out => (.ok (),(drop.run ⟨backend,out,[]⟩).2.outside)⟩

/-- Ownership is established before waiting, so every later failure stops the
interface. -/
def shared : Prog (Outside fw) NetError Vmnet := do
  let described ← create
  Prog.require (described = true) .createVmnetDescription
  let (interface,completion) ← startInterface
  match interface with
  | none => Prog.fail .missingInterface
  | some interface =>
    let backend : Vmnet := ⟨some interface,List.replicate 6 0,0,{}⟩
    match started completion with
    | .error e => do
      discard backend
      Prog.fail e
    | .ok params => return {backend with mac := params.mac, maxFrame := params.maxFrame, ipv4 := params.ipv4}

def opened (d : Vmnet) : Except NetError Interface :=
  match d.interface with
  | none => .error .closed
  | some interface => .ok interface

def total (slices : List VolatileSlice) : Nat := (slices.map VolatileSlice.len).sum

/-- The buffers of one packet: the segments that are not empty. -/
def gather (slices : List VolatileSlice) : List VolatileSlice := slices.filter (fun s => s.len ≠ 0)

def write (interface : Interface) (packet : Packet) (host : Host) : Prog (Session fw) NetError (Nat × Int) where
  exec s :=
    let (status,count,state) := fw.write s.outside.state interface packet host
    (.ok (status,count),{s with outside := ⟨state,s.outside.calls ++ [.write interface packet]⟩})

def send (frame : List VolatileSlice) (host : Host) : Prog (Session fw) NetError Bool := do
  let s ← Prog.get
  let length := total frame
  Prog.require (14 ≤ length ∧ length ≤ s.backend.maxFrame) (.invalidVmnetTxFrameSize length s.backend.maxFrame)
  Prog.require ((gather frame).length < 2 ^ 32) (.integer outOfRange)
  let interface ← Prog.ofExcept s.backend.opened
  let (status,count) ← write interface ⟨length,gather frame⟩ host
  if status = BUFFER_EXHAUSTED then return false
  else
    Prog.ofExcept (check status "vmnet write")
    Prog.require (0 ≤ count ∧ count ≤ 1) (.invalidVmnetTxCount count)
    return decide (count = 1)

/-- A read stores into memory as well. -/
def read (interface : Interface) (packet : Packet) : Prog (Session fw × Host) NetError (Nat × Int × Nat) where
  exec s :=
    let (status,count,size,state,host) := fw.read s.1.outside.state interface packet s.2
    (.ok (status,count,size),{s.1 with outside := ⟨state,s.1.outside.calls ++ [.read interface packet]⟩},host)

def recv (buffer : List VolatileSlice) : Prog (Session fw × Host) NetError (Option Nat) := do
  let s ← Prog.get
  let max := s.1.backend.maxFrame
  let length := total buffer
  Prog.require (max ≤ length) (.vmnetRxBufferTooSmall length max)
  Prog.require ((gather buffer).length < 2 ^ 32) (.integer outOfRange)
  let interface ← Prog.ofExcept s.1.backend.opened
  let (status,count,size) ← read interface ⟨length,gather buffer⟩
  Prog.ofExcept (check status "vmnet read")
  Prog.require (0 ≤ count ∧ count ≤ 1) (.invalidVmnetRxCount count)
  if count = 0 then return none
  else
    Prog.require (14 ≤ size ∧ size ≤ max) (.invalidVmnetRxFrameSize size max)
    return some size

end Vmnet

def Session.answered {α : Type} (s : Session fw) (r : Except NetError α) : Session fw :=
  {s with errors := s.errors ++ match r with
    | .error e => [e]
    | .ok _ => []}

instance : Devices.NetDevice (Session fw) where
  mtu := MTU
  macAddress s := s.backend.mac
  maxFrameLen s := s.backend.maxFrame
  send s frame host :=
    let (r,s) := (Vmnet.send frame host).run s
    (r,s.answered r)
  recv s buffer host :=
    let (r,s,host) := (Vmnet.recv buffer).run (s,host)
    (r,s.answered r,host)

end WVmm.Network
