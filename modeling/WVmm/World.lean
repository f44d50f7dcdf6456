import WVmm.Memory
import WVmm.Lib.Effect

/-! Guest memory as the devices reach it. Running vCPUs may write any byte
between two device reads, so every read first lets the guest move; while the
vCPUs are paused the guest is still. The host may set a new memory target at any
of these moments, paused or not. -/
namespace WVmm
open Lib.Effect

/-- Everything outside the repository that a device step depends on. The guest
is an arbitrary schedule of writes and the host one of requested sizes, each with
one entry before each device read; the allocator answers each request knowing
the regions that are in use. -/
structure Env where
  vm : VmMemory
  vq : VirtioQueue
  guest : Nat → Host → Host
  target : Nat → Option Nat
  allocate : Nat → List Region → Nat → Nat → Except Foreign Nat

def Env.FreshAllocations (env : Env) : Prop :=
  ∀ n live addr len ptr, env.allocate n live addr len = .ok ptr →
    ∀ r ∈ live, ptr + len ≤ r.ptr ∨ r.ptr + r.len ≤ ptr

/-- The memory every device of a machine shares, with the one virtio-mem status
that the host may read and change through its control handle. -/
structure World where
  view : GuestMemoryMmap
  host : Host
  ticks : Nat
  allocations : Nat
  paused : Bool
  control : MemoryStatus

namespace World

def tick (env : Env) (w : World) : World := {w with
  host := if w.paused then w.host else env.guest w.ticks w.host
  control := (env.target w.ticks).elim w.control w.control.afterRequest
  ticks := w.ticks + 1}

/-- Let guest and host move before a device read. -/
def observe {ε : Type} (env : Env) : Prog World ε Unit := Prog.modify (tick env)

def readSlice (env : Env) (addr n : Nat) : Prog World (Failure DeviceError) (List UInt8) := do
  observe env
  let w ← Prog.get
  Prog.ofExcept ((env.vm.readSlice w.view w.host addr n).mapError (fun e => .error (.guestAccess e)))

def readU16 (env : Env) (addr : Nat) : Prog World (Failure DeviceError) Nat := do
  let raw ← readSlice env addr 2
  return fromLeBytes raw

def readDescriptor (env : Env) (addr : Nat) : Prog World (Failure DeviceError) Descriptor := do
  let raw ← readSlice env addr 16
  return Descriptor.ofBytes raw

def writeSlice (env : Env) (addr : Nat) (raw : List UInt8) :
    Prog World (Failure DeviceError) Unit where
  exec w := ((env.vm.writeSlice w.view w.host addr raw).1.mapError (fun e => .error (.guestAccess e)),
    {w with host := (env.vm.writeSlice w.view w.host addr raw).2})

def checkRange (env : Env) (addr n : Nat) : Prog World (Failure DeviceError) Bool := do
  let w ← Prog.get
  return env.vm.checkRange w.view addr n

def bytesAt (host : Host) (slices : List VolatileSlice) : List UInt8 :=
  (slices.flatMap VolatileSlice.bytes).map host

def storeAt (host : Host) (ptr : Nat) (raw : List UInt8) : Host := fun p =>
  if ptr ≤ p ∧ p < ptr + raw.length then raw.getD (p - ptr) 0 else host p

/-- `GuestRegionMmap::from_range`: fresh zeroed memory at a guest address. -/
def fromRange (env : Env) (live : List Region) (addr len : Nat) :
    Prog World (Failure MemoryError) Region where
  exec w := match env.allocate w.allocations live addr len with
    | .error e => (.error (.error (.guestMemory e)),{w with allocations := w.allocations + 1})
    | .ok ptr => (.ok ⟨addr,len,ptr,w.allocations⟩,{w with
        allocations := w.allocations + 1
        host := fun p => if ptr ≤ p ∧ p < ptr + len then 0 else w.host p})

end World
end WVmm
