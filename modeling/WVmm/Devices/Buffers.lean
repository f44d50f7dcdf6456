import WVmm.World

/-! Synchronous descriptor views: scatter-gather helpers over volatile slices.
Each final assertion of the source is a `Panic.assertion` here. -/
namespace WVmm.Devices.Buffers
open Lib.Effect

/-- All slices of a descriptor list, or the first bad address. -/
def slices (vm : VmMemory) (view : GuestMemoryMmap) :
    List Descriptor → Except Foreign (List VolatileSlice)
  | [] => .ok []
  | d::rest =>
    match vm.getSlices view d.addr d.len with
    | .error e => .error e
    | .ok first =>
      match slices vm view rest with
      | .error e => .error e
      | .ok others => .ok (first ++ others)

def range : List VolatileSlice → Nat → Nat → Except Panic (List VolatileSlice)
  | [], _, len => if len = 0 then .ok [] else .error .assertion
  | s::rest, skip, len =>
    let offset := min skip s.len
    let n := min (s.len - offset) len
    match (if 0 < n then (s.subslice offset n).map (fun part => [part]) else some []) with
    | none => .error .unwrap
    | some head =>
      if len - n = 0 then .ok head
      else (range rest (skip - offset) (len - n)).map (head ++ ·)

/-- Copy `n` bytes out of the slices. Each slice is read at its own moment. -/
def copyTo (env : Env) : List VolatileSlice → Nat → Prog World (Failure DeviceError) (List UInt8)
  | [], n => if n = 0 then pure [] else Prog.fail (.panic .assertion)
  | s::rest, n =>
    if n = 0 then pure []
    else do
      World.observe env
      let w ← Prog.get
      let others ← copyTo env rest (n - min s.len n)
      return World.bytesAt w.host [⟨s.ptr,min s.len n⟩] ++ others

def copyFrom : List VolatileSlice → List UInt8 → Prog World (Failure DeviceError) Unit
  | [], src => if src = [] then pure () else Prog.fail (.panic .assertion)
  | s::rest, src =>
    if src = [] then pure ()
    else do
      Prog.modify (fun w => {w with host := World.storeAt w.host s.ptr (src.take (min s.len src.length))})
      copyFrom rest (src.drop (min s.len src.length))

/-- Whether some two slices overlap: sort by host range and compare neighbours. -/
def overlaps (slices : List VolatileSlice) : Bool :=
  let ranges := (slices.map (fun s => (s.ptr,s.ptr + s.len))).mergeSort
    (fun a b => decide (a.1 < b.1 ∨ (a.1 = b.1 ∧ a.2 ≤ b.2)))
  (ranges.zip ranges.tail).any (fun w => decide (w.1.2 > w.2.1))

/-- The length of a descriptor list in a 64-bit `usize`. -/
def totalLength (descriptors : List Descriptor) : Option Nat :=
  descriptors.foldlM (fun n d => checkedAdd n d.len) 0

end WVmm.Devices.Buffers
