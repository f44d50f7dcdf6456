import WVmm.Devices.Block

/-! qcow2 disk backed by imago: a request is cut into batches for the vectored I/O
of the image. The calls on the image are logged. -/
namespace WVmm.Storage
open Lib.Effect

/-- The synchronous operations of an image that the disk calls. -/
class Image (I : Type) where
  readv : I → List VolatileSlice → Nat → Host → Except Foreign Unit × I × Host
  writev : I → List VolatileSlice → Nat → Host → Except Foreign Unit × I
  flush : I → Except Foreign Unit × I
  sync : I → Except Foreign Unit × I

structure Disk (I : Type) where
  image : I
  readonly : Bool
  size : Nat
  path : String

/-- One call of `readv` or `writev`; the answer is `none` when it failed. -/
structure ImageCall where
  write : Bool
  offset : Nat
  vector : List VolatileSlice
  answer : Option Unit

structure Io (I : Type) where
  image : I
  host : Host
  calls : List ImageCall

/-- The batch limit that the host reports, or 16 when it reports none. -/
def iovMax (limit : Int) : {n : Nat // 0 < n} :=
  if reported : 0 < limit then ⟨limit.toNat,by omega⟩ else ⟨16,by decide⟩

def overlaps (a b : VolatileSlice) : Bool :=
  decide (a.ptr < saturatingAdd b.ptr b.len) && decide (b.ptr < saturatingAdd a.ptr a.len)

def totalLen (data : List VolatileSlice) : Option Nat :=
  data.foldlM (fun len segment => checkedAdd len segment.len) 0

structure Batch where
  members : List VolatileSlice
  bytes : Nat

/-- Fill a batch up to the limit; destinations of one read do not overlap. -/
def gather (limit : Nat) (write : Bool) : Batch → List VolatileSlice → Batch × List VolatileSlice
  | batch, [] => (batch,[])
  | batch, segment::rest =>
    if batch.members.length = limit ∨ (write = false ∧ batch.members.any (overlaps segment)) then
      (batch,segment::rest)
    else gather limit write ⟨batch.members ++ [segment],wrappingAdd batch.bytes segment.len⟩ rest

theorem gather_length (limit : Nat) (write : Bool) (batch : Batch) (segments : List VolatileSlice) :
    (gather limit write batch segments).2.length ≤ segments.length := by
  fun_induction gather limit write batch segments with
  | case1 batch => exact Nat.le_refl _
  | case2 batch segment rest full => exact Nat.le_refl _
  | case3 batch segment rest room ih => exact Nat.le_succ_of_le ih

/-- An empty batch takes the first segment. -/
theorem gather_takes {limit : Nat} (positive : 0 < limit) (write : Bool) (segment : VolatileSlice)
    (rest : List VolatileSlice) :
    gather limit write ⟨[],0⟩ (segment::rest) = gather limit write ⟨[segment],wrappingAdd 0 segment.len⟩ rest := by
  rw [gather,if_neg]
  · rfl
  · rintro (full | ⟨_,clash⟩)
    · exact absurd full.symm (Nat.ne_of_gt positive)
    · cases clash

section Transfer
variable {I : Type} [Image I]

def context (write : Bool) (path : String) (source : Foreign) : StorageError :=
  .operation (if write then "qcow2 write" else "qcow2 read") path source

def issue (write : Bool) (path : String) (vector : List VolatileSlice) (offset : Nat) :
    Prog (Io I) StorageError Unit where
  exec io :=
    if write then
      let (r,image) := Image.writev io.image vector offset io.host
      (r.mapError (context write path),⟨image,io.host,io.calls ++ [⟨write,offset,vector,Devices.answer r⟩]⟩)
    else
      let (r,image,host) := Image.readv io.image vector offset io.host
      (r.mapError (context write path),⟨image,host,io.calls ++ [⟨write,offset,vector,Devices.answer r⟩]⟩)

/-- Batch after batch; the limit is positive, so each takes a segment. -/
def transferLoop (limit : {n : Nat // 0 < n}) (write : Bool) (path : String) (offset : Nat)
    (segments : List VolatileSlice) : Prog (Io I) StorageError Unit :=
  match segments with
  | [] => return ()
  | segment::rest => do
    let next := gather limit write ⟨[],0⟩ (segment::rest)
    issue write path next.1.members offset
    transferLoop limit write path (wrappingAdd offset next.1.bytes) next.2
termination_by segments.length
decreasing_by
  rw [gather_takes limit.2,List.length_cons]
  exact Nat.lt_succ_of_le (gather_length _ _ _ _)

/-- The complete request is validated before any batch can change the disk or the
guest. -/
def transfer (limit : Int) (size : Nat) (path : String) (offset : Nat) (data : List VolatileSlice) (write : Bool) :
    Prog (Io I) StorageError Unit :=
  match totalLen data with
  | none => Prog.fail (context write path ⟨"disk request length overflow"⟩)
  | some len => do
    Prog.ofExcept (Devices.Storage.bounds size offset len)
    transferLoop (iovMax limit) write path offset (data.filter (fun segment => segment.len ≠ 0))

namespace Disk

def read (limit : Int) (d : Disk I) (offset : Nat) (data : List VolatileSlice) (host : Host) :
    Except StorageError Unit × Disk I × Host :=
  let (r,io) := (transfer limit d.size d.path offset data false).run ⟨d.image,host,[]⟩
  (r,{d with image := io.image},io.host)

def write (limit : Int) (d : Disk I) (offset : Nat) (data : List VolatileSlice) (host : Host) :
    Except StorageError Unit × Disk I :=
  if d.readonly then (.error .readOnly,d)
  else
    let (r,io) := (transfer limit d.size d.path offset data true).run ⟨d.image,host,[]⟩
    (r,{d with image := io.image})

/-- The cache of the image, and then the host file under it. -/
def flush (d : Disk I) : Except StorageError Unit × Disk I :=
  if d.readonly then (.ok (),d)
  else match Image.flush d.image with
    | (.error source,image) => (.error (.operation "qcow2 cache flush" d.path source),{d with image := image})
    | (.ok (),image) =>
      let (r,image) := Image.sync image
      (r.mapError (.operation "qcow2 host sync" d.path),{d with image := image})

@[reducible] def storage (limit : Int) : Devices.BlockStorage (Disk I) where
  size := Disk.size
  readOnly := Disk.readonly
  read := Disk.read limit
  write := Disk.write limit
  flush := Disk.flush

end Disk
end Transfer
end WVmm.Storage
