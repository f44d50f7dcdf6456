import WVmm.Error
import WVmm.Lib.Stores

/-! The parts of vm-memory and virtio-queue that the devices are written against.
Regions, views, slices, descriptors and queues are plain data, as their getters
show them. Their operations are parameters: the devices run over any value of
`VmMemory` and `VirtioQueue`, and what the packages document about an operation
is a field of the corresponding `Lawful` structure. -/
namespace WVmm

/-- Host memory that guests and devices share, by host address. -/
abbrev Host := Nat → UInt8

/-- A `GuestRegionMmap`: a guest range with the host range that backs it. The
number `alloc` identifies the allocation, since a freed host range may be used
again by a later one. -/
structure Region where
  start : Nat
  len : Nat
  ptr : Nat
  alloc : Nat
deriving DecidableEq

namespace Region

def Holds (r : Region) (a : Nat) : Prop := r.start ≤ a ∧ a < r.start + r.len

def Overlaps (r q : Region) : Prop := r.start < q.start + q.len ∧ q.start < r.start + r.len

instance (r : Region) (a : Nat) : Decidable (r.Holds a) := inferInstanceAs (Decidable (_ ∧ _))

instance (r q : Region) : Decidable (r.Overlaps q) := inferInstanceAs (Decidable (_ ∧ _))

end Region

/-- A `GuestMemoryMmap`: regions in address order that do not overlap. -/
structure GuestMemoryMmap where
  regions : List Region
  sorted : regions.Pairwise (fun r q => r.start + r.len ≤ q.start)

namespace GuestMemoryMmap

def Backs (view : GuestMemoryMmap) (a p : Nat) : Prop :=
  ∃ r ∈ view.regions, r.Holds a ∧ p = r.ptr + (a - r.start)

theorem unique (view : GuestMemoryMmap) {r q : Region} (left : r ∈ view.regions)
    (right : q ∈ view.regions) (same : r.start = q.start) (filled : 0 < r.len) (filled' : 0 < q.len) :
    r = q := by
  obtain ⟨regions,sorted⟩ := view
  simp only at left right
  induction regions with
  | nil => cases left
  | cons first rest ih =>
    obtain ⟨before,following⟩ := List.pairwise_cons.mp sorted
    rcases List.mem_cons.mp left with rfl | later <;> rcases List.mem_cons.mp right with rfl | later'
    · rfl
    · have := before q later'
      omega
    · have := before r later
      omega
    · exact ih following later later'

end GuestMemoryMmap

structure VolatileSlice where
  ptr : Nat
  len : Nat
deriving DecidableEq

namespace VolatileSlice

def bytes (s : VolatileSlice) : List Nat := List.range' s.ptr s.len

def subslice (s : VolatileSlice) (offset n : Nat) : Option VolatileSlice :=
  if offset + n ≤ s.len then some ⟨s.ptr + offset,n⟩ else none

end VolatileSlice

def fromLeBytes : List UInt8 → Nat
  | [] => 0
  | b::rest => b.toNat + 256 * fromLeBytes rest

def toLeBytes : Nat → Nat → List UInt8
  | 0, _ => []
  | width+1, value => UInt8.ofNat value :: toLeBytes width (value / 256)

structure Descriptor where
  addr : Nat
  len : Nat
  flags : Nat
  next : Nat
deriving DecidableEq

namespace Descriptor

def ofBytes (raw : List UInt8) : Descriptor where
  addr := fromLeBytes (raw.take 8)
  len := fromLeBytes ((raw.drop 8).take 4)
  flags := fromLeBytes ((raw.drop 12).take 2)
  next := fromLeBytes ((raw.drop 14).take 2)

def hasNext (d : Descriptor) : Bool := d.flags &&& 1 != 0

def isWriteOnly (d : Descriptor) : Bool := d.flags &&& 2 != 0

def refersToIndirectTable (d : Descriptor) : Bool := d.flags &&& 4 != 0

/-- `flags & !3 == 0` on 16-bit flags. -/
def onlyNextWrite (d : Descriptor) : Bool := d.flags &&& 0xfffc == 0

end Descriptor

/-- A split virtqueue as its getters show it. Indices are 16-bit. -/
structure Queue where
  maxSize : Nat
  size : Nat
  ready : Bool
  descTable : Nat
  availRing : Nat
  usedRing : Nat
  nextAvail : Nat
  nextUsed : Nat
deriving DecidableEq

/-- Little-endian device reads and writes, views and slices. -/
structure VmMemory where
  getSlices : GuestMemoryMmap → Nat → Nat → Except Foreign (List VolatileSlice)
  checkRange : GuestMemoryMmap → Nat → Nat → Bool
  readSlice : GuestMemoryMmap → Host → Nat → Nat → Except Foreign (List UInt8)
  writeSlice : GuestMemoryMmap → Host → Nat → List UInt8 → Except Foreign Unit × Host
  insertRegion : GuestMemoryMmap → Region → Except Foreign GuestMemoryMmap
  removeRegion : GuestMemoryMmap → Nat → Nat → Except Foreign GuestMemoryMmap

/-- What vm-memory documents. Failures are otherwise unconstrained. -/
structure VmMemory.Lawful (vm : VmMemory) : Prop where
  slices : ∀ view a n ss, vm.getSlices view a n = .ok ss →
    List.Forall₂ view.Backs (List.range' a n) (ss.flatMap VolatileSlice.bytes)
  read : ∀ view host a n raw, vm.readSlice view host a n = .ok raw →
    ∃ ps, List.Forall₂ view.Backs (List.range' a n) ps ∧ raw = ps.map host
  /-- A write, also one that fails part of the way, stays in its range. -/
  write : ∀ view host a raw p, (vm.writeSlice view host a raw).2 p ≠ host p →
    ∃ i < raw.length, view.Backs (a + i) p
  insert_succeeds : ∀ (view : GuestMemoryMmap) (r : Region), 0 < r.len →
    (∀ q ∈ view.regions, ¬r.Overlaps q) → ∃ next, vm.insertRegion view r = .ok next
  insert_regions : ∀ view r next, vm.insertRegion view r = .ok next →
    ∀ q, q ∈ next.regions ↔ q = r ∨ q ∈ view.regions
  remove_succeeds : ∀ (view : GuestMemoryMmap) (r : Region), r ∈ view.regions →
    ∃ next, vm.removeRegion view r.start r.len = .ok next
  remove_regions : ∀ view base size next, vm.removeRegion view base size = .ok next →
    ∃ r ∈ view.regions, r.start = base ∧ r.len = size ∧
      ∀ q, q ∈ next.regions ↔ q ∈ view.regions ∧ q ≠ r

def Stored (view : GuestMemoryMmap) (host : Host) (address : Nat) (bytes : List UInt8) (host' : Host) : Prop :=
  ∃ places, List.Forall₂ view.Backs (List.range' address bytes.length) places ∧ host' = Lib.Stores.store host places bytes

/-- A `write_slice` that succeeds stores the whole slice. -/
def VmMemory.Stores (vm : VmMemory) : Prop := ∀ view host address bytes host',
  vm.writeSlice view host address bytes = (.ok (),host') → Stored view host address bytes host'

/-- The queue operations. `next` is one step of the available iterator and
returns the head it read. -/
structure VirtioQueue where
  new : Nat → Option Queue
  isValid : Queue → GuestMemoryMmap → Bool
  availIdx : Queue → GuestMemoryMmap → Host → Except Foreign Nat
  next : Queue → GuestMemoryMmap → Host → Except Foreign (Option Nat) × Queue
  addUsed : Queue → GuestMemoryMmap → Host → Nat → Nat → Except Foreign Unit × Queue × Host
  trySetSize : Queue → Nat → Except Foreign Unit × Queue
  setDescTableAddress : Queue → Option Nat → Option Nat → Queue
  setAvailRingAddress : Queue → Option Nat → Option Nat → Queue
  setUsedRingAddress : Queue → Option Nat → Option Nat → Queue
  reset : Queue → Queue

/-- What virtio-queue documents. Which ring addresses a setter refuses, and when
a queue is valid beyond being ready, stays open. -/
structure VirtioQueue.Lawful (vq : VirtioQueue) : Prop where
  new_max : ∀ n, 0 < n → n ≤ 32768 → n.isPowerOfTwo →
    vq.new n = some ⟨n,n,false,0,0,0,0,0⟩
  valid_ready : ∀ q view, vq.isValid q view = true → q.ready = true
  next_taken : ∀ q view host head q', vq.next q view host = (.ok (some head),q') →
    q' = {q with nextAvail := (q.nextAvail + 1) % 65536}
  next_failed : ∀ q view host r, (vq.next q view host).1 = r → (∀ head, r ≠ .ok (some head)) →
    (vq.next q view host).2 = q
  used_added : ∀ q view host head len q' host', vq.addUsed q view host head len = (.ok (),q',host') →
    q' = {q with nextUsed := (q.nextUsed + 1) % 65536}
  used_queue : ∀ q view host head len, (vq.addUsed q view host head len).2.1 = q ∨
    (vq.addUsed q view host head len).2.1 = {q with nextUsed := (q.nextUsed + 1) % 65536}
  used_writes : ∀ q view host head len p, (vq.addUsed q view host head len).2.2 p ≠ host p →
    ∃ i < 6 + 8 * q.size, view.Backs (q.usedRing + i) p
  size_set : ∀ q n q', vq.trySetSize q n = (.ok (),q') →
    q' = {q with size := n} ∧ 0 < n ∧ n ≤ q.maxSize ∧ n.isPowerOfTwo
  size_refused : ∀ q n e q', vq.trySetSize q n = (.error e,q') → q' = q
  descTable_set : ∀ q low high, vq.setDescTableAddress q low high =
    {q with descTable := (vq.setDescTableAddress q low high).descTable}
  availRing_set : ∀ q low high, vq.setAvailRingAddress q low high =
    {q with availRing := (vq.setAvailRingAddress q low high).availRing}
  usedRing_set : ∀ q low high, vq.setUsedRingAddress q low high =
    {q with usedRing := (vq.setUsedRingAddress q low high).usedRing}
  reset_fresh : ∀ q, vq.reset q = ⟨q.maxSize,q.maxSize,false,0,0,0,0,0⟩

end WVmm
