import WVmm.Storage.Disk
import WVmm.Devices.BufferSpec
import WVmm.Lib.Stores

/-! A batched transfer moves the same bytes as one that moves segment after segment:
batches are consecutive, and the destinations of one read are apart. -/
namespace WVmm.Storage
open Lib.Effect Lib.Stores Devices

structure Media where
  disk : Nat → UInt8
  host : Host

namespace Media

def move (write : Bool) (offset : Nat) (m : Media) (segment : VolatileSlice) : Media :=
  if write then {m with disk := store m.disk (List.range' offset segment.len) (segment.bytes.map m.host)}
  else {m with host := store m.host segment.bytes ((List.range' offset segment.len).map m.disk)}

/-- The segments are moved one by one, at consecutive offsets. -/
def moveEach (write : Bool) : Nat → Media → List VolatileSlice → Media
  | _, m, [] => m
  | offset, m, segment::rest => moveEach write (offset + segment.len) (m.move write offset segment) rest

end Media

def span (segments : List VolatileSlice) : Nat := (segments.map VolatileSlice.len).sum

theorem span_cons (segment : VolatileSlice) (rest : List VolatileSlice) : span (segment::rest) = segment.len + span rest :=
  List.sum_cons

theorem span_append (some more : List VolatileSlice) : span (some ++ more) = span some + span more := by
  rw [span,List.map_append,List.sum_append]
  rfl

theorem span_filter (data : List VolatileSlice) : span (data.filter (fun segment => segment.len ≠ 0)) = span data := by
  induction data with
  | nil => rfl
  | cons segment rest ih =>
    rw [List.filter_cons]
    split
    · rw [span_cons,span_cons,ih]
    · rename_i empty
      have none : segment.len = 0 := by simpa using empty
      rw [span_cons,none,Nat.zero_add,ih]

namespace Media

variable {write : Bool} {offset : Nat} {m : Media}

theorem moveEach_append (some more : List VolatileSlice) :
    moveEach write offset m (some ++ more) = moveEach write (offset + span some) (moveEach write offset m some) more := by
  induction some generalizing offset m with
  | nil => rfl
  | cons segment rest ih =>
    rw [List.cons_append,moveEach,moveEach,ih,span_cons,Nat.add_assoc]

/-- Empty segments move nothing. -/
theorem moveEach_filter (segments : List VolatileSlice) :
    moveEach write offset m (segments.filter (fun segment => segment.len ≠ 0)) = moveEach write offset m segments := by
  induction segments generalizing offset m with
  | nil => rfl
  | cons segment rest ih =>
    rw [List.filter_cons]
    split
    · rw [moveEach,moveEach,ih]
    · rename_i empty
      have none : segment.len = 0 := by simpa using empty
      have same : m.move write offset segment = m := by
        unfold move
        rw [none]
        cases write with
        | true =>
          rw [if_pos rfl,List.range'_zero,store_nil_left]
        | false =>
          rw [if_neg (by decide),List.range'_zero,List.map_nil,store_nil_right]
      rw [moveEach,same,none,Nat.add_zero,ih]

theorem moveEach_write (segments : List VolatileSlice) :
    moveEach true offset m segments =
      {m with disk := store m.disk (List.range' offset (span segments)) (World.bytesAt m.host segments)} := by
  induction segments generalizing offset m with
  | nil => rfl
  | cons segment rest ih =>
    rw [moveEach,ih,span_cons,← List.range'_append_1]
    have bytes : World.bytesAt m.host (segment::rest) = segment.bytes.map m.host ++ World.bytesAt m.host rest := by
      simp only [World.bytesAt,List.flatMap_cons,List.map_append]
    rw [bytes,store_append (by rw [List.length_range',List.length_map,VolatileSlice.bytes,List.length_range'])]
    rfl

theorem moveEach_read (segments : List VolatileSlice) :
    moveEach false offset m segments =
      {m with host := store m.host (hostBytes segments) ((List.range' offset (span segments)).map m.disk)} := by
  induction segments generalizing offset m with
  | nil => rfl
  | cons segment rest ih =>
    have bytes : hostBytes (segment::rest) = segment.bytes ++ hostBytes rest := rfl
    rw [moveEach,ih,span_cons,← List.range'_append_1,bytes,List.map_append,
      store_append (by rw [List.length_map,List.length_range',VolatileSlice.bytes,List.length_range'])]
    rfl

end Media

/-- A vector that the disk may hand to the image. -/
structure Allotted (limit : Nat) (write : Bool) (vector : List VolatileSlice) : Prop where
  filled : vector ≠ []
  segments : ∀ segment ∈ vector, segment.len ≠ 0
  bounded : vector.length ≤ limit
  apart : write = false → (hostBytes vector).Nodup

/-- Segments of host memory that do not overlap have no byte in common. -/
theorem overlaps_apart {a b : VolatileSlice} (inside : a.ptr + a.len < 2^64) (inside' : b.ptr + b.len < 2^64)
    (apart : overlaps b a = false) : a.bytes.Disjoint b.bytes := by
  intro p first second
  simp only [VolatileSlice.bytes,List.mem_range'_1] at first second
  rcases Bool.and_eq_false_iff.mp apart with clear | clear
  · have beyond := of_decide_eq_false clear
    unfold saturatingAdd at beyond
    omega
  · have beyond := of_decide_eq_false clear
    unfold saturatingAdd at beyond
    omega

theorem apart_nodup {vector : List VolatileSlice} (inside : ∀ segment ∈ vector, segment.ptr + segment.len < 2^64)
    (apart : vector.Pairwise (fun a b => overlaps b a = false)) : (hostBytes vector).Nodup := by
  refine List.nodup_flatMap.mpr ⟨fun segment _ => List.nodup_range',?_⟩
  refine apart.imp_of_mem ?_
  intro a b first second clear
  exact overlaps_apart (inside a first) (inside b second) clear

structure Gathered (limit : Nat) (write : Bool) (batch : Batch) (segments : List VolatileSlice)
    (taken : List VolatileSlice) (next : Batch × List VolatileSlice) : Prop where
  split : segments = taken ++ next.2
  members : next.1.members = batch.members ++ taken
  bytes : batch.bytes < 2^64 → next.1.bytes = (batch.bytes + span taken) % 2^64
  bounded : batch.members.length ≤ limit → next.1.members.length ≤ limit
  apart : write = false → batch.members.Pairwise (fun a b => overlaps b a = false) →
    next.1.members.Pairwise (fun a b => overlaps b a = false)

theorem gather_gathers (limit : Nat) (write : Bool) (batch : Batch) (segments : List VolatileSlice) :
    ∃ taken, Gathered limit write batch segments taken (gather limit write batch segments) := by
  fun_induction gather limit write batch segments with
  | case1 batch =>
    refine ⟨[],rfl,(List.append_nil _).symm,fun small => ?_,id,fun _ => id⟩
    exact (Nat.mod_eq_of_lt small).symm
  | case2 batch segment rest full =>
    refine ⟨[],rfl,(List.append_nil _).symm,fun small => ?_,id,fun _ => id⟩
    exact (Nat.mod_eq_of_lt small).symm
  | case3 batch segment rest room ih =>
    obtain ⟨taken,split,members,bytes,bounded,apart⟩ := ih
    refine ⟨segment::taken,?_,?_,fun small => ?_,fun fits => bounded ?_,fun read before => apart read ?_⟩
    · rw [List.cons_append,← split]
    · rw [members,List.append_assoc]
      rfl
    · rw [bytes (Nat.mod_lt _ (by decide)),span_cons]
      simp only [wrappingAdd]
      omega
    · have short : batch.members.length ≠ limit := fun full => room (.inl full)
      rw [List.length_append,List.length_singleton]
      omega
    · refine List.pairwise_append.mpr ⟨before,List.pairwise_singleton _ _,?_⟩
      intro a member b last
      rw [List.mem_singleton.mp last]
      by_contra clash
      exact room (.inr ⟨read,List.any_eq_true.mpr ⟨a,member,(Bool.not_eq_false _).mp clash⟩⟩)

theorem gather_allotted (limit : {n : Nat // 0 < n}) (write : Bool) {segment : VolatileSlice} {rest : List VolatileSlice}
    (inside : ∀ s ∈ segment::rest, s.len ≠ 0 ∧ s.ptr + s.len < 2^64) (small : span (segment::rest) < 2^64) :
    let next := gather limit write ⟨[],0⟩ (segment::rest)
    Allotted limit write next.1.members ∧ segment::rest = next.1.members ++ next.2 ∧
      next.1.bytes = span next.1.members := by
  obtain ⟨taken,split,members,bytes,bounded,apart⟩ := gather_gathers limit write ⟨[],0⟩ (segment::rest)
  rw [List.nil_append] at members
  rw [← members] at split bytes
  have within : ∀ s ∈ (gather limit write ⟨[],0⟩ (segment::rest)).1.members, s ∈ segment::rest := by
    intro s member
    rw [split]
    exact List.mem_append_left _ member
  refine ⟨⟨?_,fun s member => (inside s (within s member)).1,bounded (Nat.zero_le _),fun read => ?_⟩,split,?_⟩
  · obtain ⟨_,_,more,_,_,_⟩ := gather_gathers limit write ⟨[segment],wrappingAdd 0 segment.len⟩ rest
    rw [gather_takes limit.2,more]
    exact List.cons_ne_nil _ _
  · exact apart_nodup (fun s member => (inside s (within s member)).2) (apart read .nil)
  · have part : span (gather limit write ⟨[],0⟩ (segment::rest)).1.members ≤ span (segment::rest) := by
      have whole := congrArg span split
      rw [span_append] at whole
      omega
    rw [bytes (by decide),Nat.zero_add,Nat.mod_eq_of_lt (Nat.lt_of_le_of_lt part small)]

section Runs
variable {I : Type} [Image I]

/-- What the disk relies on: a vector with separate destinations is transferred
segment after segment, within the size of the image. -/
structure Image.Consecutive (contents : I → Nat → UInt8) (size : Nat) : Prop where
  readv : ∀ i vector offset host i' host', (hostBytes vector).Nodup → offset + span vector ≤ size →
    Image.readv i vector offset host = (.ok (),i',host') →
      contents i' = contents i ∧
        host' = store host (hostBytes vector) ((List.range' offset (span vector)).map (contents i))
  writev : ∀ i vector offset host i', offset + span vector ≤ size →
    Image.writev i vector offset host = (.ok (),i') →
      contents i' = store (contents i) (List.range' offset (span vector)) (World.bytesAt host vector)

def Io.media (contents : I → Nat → UInt8) (io : Io I) : Media := ⟨contents io.image,io.host⟩

theorem issue_moves {contents : I → Nat → UInt8} {size limit offset : Nat} (lawful : Image.Consecutive contents size)
    (write : Bool) (path : String) {vector : List VolatileSlice} (allotted : Allotted limit write vector)
    (fits : offset + span vector ≤ size) (io : Io I) :
    ∃ answer, ((issue write path vector offset).run io).2.calls = io.calls ++ [⟨write,offset,vector,answer⟩] ∧
      (answer = some () → ((issue write path vector offset).run io).1 = .ok () ∧
        ((issue write path vector offset).run io).2.media contents =
          Media.moveEach write offset (io.media contents) vector) ∧
      (answer = none → ∃ e, ((issue write path vector offset).run io).1 = .error e) := by
  cases write with
  | true =>
    rcases outcome : Image.writev io.image vector offset io.host with ⟨e | _,image⟩
    · refine ⟨none,by simp [issue,outcome,Devices.answer],nofun,fun _ => ⟨context true path e,?_⟩⟩
      simp [issue,outcome,Except.mapError]
    · refine ⟨some (),by simp [issue,outcome,Devices.answer],fun _ => ⟨?_,?_⟩,nofun⟩
      · simp [issue,outcome,Except.mapError]
      · rw [Media.moveEach_write]
        have moved := lawful.writev _ _ _ _ _ fits outcome
        simp only [issue,Prog.run_mk,if_true,outcome,Io.media,moved]
  | false =>
    rcases outcome : Image.readv io.image vector offset io.host with ⟨e | _,image,host⟩
    · refine ⟨none,by simp [issue,outcome,Devices.answer],nofun,fun _ => ⟨context false path e,?_⟩⟩
      simp [issue,outcome,Except.mapError]
    · refine ⟨some (),by simp [issue,outcome,Devices.answer],fun _ => ⟨?_,?_⟩,nofun⟩
      · simp [issue,outcome,Except.mapError]
      · rw [Media.moveEach_read]
        obtain ⟨kept,moved⟩ := lawful.readv _ _ _ _ _ _ (allotted.apart rfl) fits outcome
        simp [issue,outcome,Io.media,kept,moved]

/-- The batches of a transfer, whether it comes to an end or not: each is one that
the image may get, and if all of them succeed the bytes have moved. -/
theorem transferLoop_moves {contents : I → Nat → UInt8} {size : Nat} (lawful : Image.Consecutive contents size)
    (bounded : size < 2^64) (limit : {n : Nat // 0 < n}) (write : Bool) (path : String) (offset : Nat)
    (segments : List VolatileSlice) (inside : ∀ s ∈ segments, s.len ≠ 0 ∧ s.ptr + s.len < 2^64)
    (fits : offset + span segments ≤ size) (io : Io I) :
    ∃ issued, ((transferLoop limit write path offset segments).run io).2.calls = io.calls ++ issued ∧
      (∀ call ∈ issued, Allotted limit write call.vector) ∧
      ((∀ call ∈ issued, call.answer = some ()) →
        ((transferLoop limit write path offset segments).run io).1 = .ok () ∧
        ((transferLoop limit write path offset segments).run io).2.media contents =
          Media.moveEach write offset (io.media contents) segments) := by
  induction count : segments.length using Nat.strong_induction_on generalizing offset segments io with
  | _ count ih =>
  subst count
  cases segments with
  | nil =>
    rw [transferLoop]
    exact ⟨[],(List.append_nil _).symm,List.forall_mem_nil _,fun _ => ⟨rfl,rfl⟩⟩
  | cons segment rest =>
    obtain ⟨allotted,split,bytes⟩ := gather_allotted limit write inside (by omega)
    have shorter : (gather limit write ⟨[],0⟩ (segment::rest)).2.length < (segment::rest).length := by
      rw [gather_takes limit.2,List.length_cons]
      exact Nat.lt_succ_of_le (gather_length _ _ _ _)
    rw [transferLoop]
    generalize gather limit write ⟨[],0⟩ (segment::rest) = next at allotted split bytes shorter
    rw [split,span_append] at fits
    have room : offset + span next.1.members ≤ size := by omega
    obtain ⟨answer,logged,moves,fails⟩ := issue_moves lawful write path allotted room io
    rw [Prog.run_bind]
    rcases first : (issue write path next.1.members offset).run io with ⟨r,io'⟩
    rw [first] at logged moves fails
    cases answer with
    | none =>
      obtain ⟨e,failed⟩ := fails rfl
      dsimp only at failed logged
      rw [failed]
      refine ⟨_,logged,?_,fun all => ?_⟩
      · intro call member
        rw [List.mem_singleton.mp member]
        exact allotted
      · cases all _ (List.mem_singleton.mpr rfl)
    | some _ =>
      obtain ⟨returned,moved⟩ := moves rfl
      dsimp only at returned moved logged
      rw [returned]
      have advanced : wrappingAdd offset next.1.bytes = offset + span next.1.members := by
        rw [wrappingAdd,bytes,Nat.mod_eq_of_lt (by omega)]
      dsimp only
      rw [advanced]
      obtain ⟨issued,log,allot,ends⟩ := ih next.2.length shorter (offset + span next.1.members) next.2
        (fun s member => inside s (by rw [split]; exact List.mem_append_right _ member)) (by omega) io' rfl
      refine ⟨⟨write,offset,next.1.members,some ()⟩::issued,?_,?_,fun all => ?_⟩
      · rw [log,logged,List.append_assoc]
        rfl
      · intro call member
        rcases List.mem_cons.mp member with rfl | later
        · exact allotted
        · exact allot call later
      · obtain ⟨ok,media⟩ := ends (fun call member => all call (List.mem_cons_of_mem _ member))
        refine ⟨ok,?_⟩
        rw [media,moved,split,Media.moveEach_append]

theorem totalLen_eq (data : List VolatileSlice) : totalLen data = if span data < 2^64 then some (span data) else none := by
  have sum := foldlM_checkedAdd VolatileSlice.len data (show 0 < 2^64 by decide)
  simp only [Nat.zero_add] at sum
  exact sum

/-- Batched and unbatched transfers agree. A request that is too long or out of
bounds fails before any call on the image; any other one makes only calls that the
image may get, and when all of them succeed it ends as if the segments had been
moved one by one. -/
theorem transfer_moves_each {contents : I → Nat → UInt8} {size : Nat} (lawful : Image.Consecutive contents size)
    (bounded : size < 2^64) (limit : Int) (path : String) (offset : Nat) (data : List VolatileSlice) (write : Bool)
    (inside : ∀ s ∈ data, s.ptr + s.len < 2^64) (io : Io I) :
    let run := (transfer limit size path offset data write).run io
    (size < offset + span data ∨ 2^64 ≤ span data → ∃ e, run = (.error e,io)) ∧
    (offset + span data ≤ size → ∃ issued, run.2.calls = io.calls ++ issued ∧
      (∀ call ∈ issued, Allotted (iovMax limit) write call.vector) ∧
      ((∀ call ∈ issued, call.answer = some ()) → run.1 = .ok () ∧
        run.2.media contents = Media.moveEach write offset (io.media contents) data)) := by
  refine ⟨?_,?_⟩
  · intro refused
    simp only [transfer,totalLen_eq]
    by_cases small : span data < 2^64
    · have out : Devices.Storage.bounds size offset (span data) = .error (.outOfBounds size offset (span data)) := by
        unfold Devices.Storage.bounds
        split
        · rename_i stop sum
          obtain ⟨_,rfl⟩ := checkedAdd_eq_some.mp sum
          exact if_neg (by omega)
        · rfl
      rw [if_pos small]
      simp only [Prog.run_bind,Prog.run_ofExcept,out]
      exact ⟨_,rfl⟩
    · rw [if_neg small]
      exact ⟨_,rfl⟩
  · intro fits
    have within : Devices.Storage.bounds size offset (span data) = .ok () := by
      have sum : checkedAdd offset (span data) = some (offset + span data) :=
        checkedAdd_eq_some.mpr ⟨by omega,rfl⟩
      simp only [Devices.Storage.bounds,sum,if_pos fits]
    obtain ⟨issued,log,allot,ends⟩ := transferLoop_moves lawful bounded (iovMax limit) write path offset
      (data.filter (fun segment => segment.len ≠ 0))
      (fun s member => ⟨by simpa using (List.mem_filter.mp member).2,inside s (List.mem_filter.mp member).1⟩)
      (by rw [span_filter]; exact fits) io
    have same : (transfer limit size path offset data write).run io =
        (transferLoop (iovMax limit) write path offset (data.filter (fun segment => segment.len ≠ 0))).run io := by
      simp only [transfer,totalLen_eq,if_pos (show span data < 2^64 by omega),Prog.run_bind,Prog.run_ofExcept,within]
    rw [same]
    refine ⟨issued,log,allot,fun all => ?_⟩
    obtain ⟨ok,media⟩ := ends all
    exact ⟨ok,media.trans (Media.moveEach_filter data)⟩

end Runs
end WVmm.Storage

namespace WVmm.Reference
open Lib.Effect Lib.Stores Devices Storage

/-- An image of plain bytes. -/
structure Tape where
  bytes : Nat → UInt8

instance : Image Tape where
  readv tape vector offset host :=
    (.ok (),tape,store host (hostBytes vector) ((List.range' offset (span vector)).map tape.bytes))
  writev tape vector offset host :=
    (.ok (),⟨store tape.bytes (List.range' offset (span vector)) (World.bytesAt host vector)⟩)
  flush tape := (.ok (),tape)
  sync tape := (.ok (),tape)

theorem Tape.consecutive (size : Nat) : Image.Consecutive Tape.bytes size where
  readv _ _ _ _ _ _ _ _ moved := by
    cases moved
    exact ⟨rfl,rfl⟩
  writev _ _ _ _ _ _ moved := by
    cases moved
    rfl

def numbered : Io Tape := ⟨⟨fun p => UInt8.ofNat (p + 1)⟩,fun _ => 0,[]⟩

def shared : List VolatileSlice := [⟨0,2⟩,⟨7,0⟩,⟨1,2⟩]

theorem shared_calls : ((transfer 16 512 "tape" 0 shared false).run numbered).2.calls =
    [⟨false,0,[⟨0,2⟩],some ()⟩,⟨false,2,[⟨1,2⟩],some ()⟩] := by
  have last : (transferLoop (iovMax 16) false "tape" 2 [⟨1,2⟩] : Prog (Io Tape) StorageError Unit) =
      issue false "tape" [⟨1,2⟩] 2 >>= fun _ => transferLoop (iovMax 16) false "tape" 4 [] := by
    conv_lhs => rw [transferLoop]
    rfl
  have first : (transferLoop (iovMax 16) false "tape" 0 [⟨0,2⟩,⟨1,2⟩] : Prog (Io Tape) StorageError Unit) =
      issue false "tape" [⟨0,2⟩] 0 >>= fun _ => transferLoop (iovMax 16) false "tape" 2 [⟨1,2⟩] := by
    rw [transferLoop]
    rfl
  have whole : (transfer 16 512 "tape" 0 shared false).run numbered =
      (transferLoop (iovMax 16) false "tape" 0 [⟨0,2⟩,⟨1,2⟩]).run numbered := rfl
  rw [whole,first,last,transferLoop]
  rfl

theorem transfer_moves_each_shared :
    let run := (transfer 16 512 "tape" 0 shared false).run numbered
    run.1 = .ok () ∧ run.2.calls.map ImageCall.vector = [[⟨0,2⟩],[⟨1,2⟩]] ∧ [0,1,2].map run.2.host = [1,3,4] := by
  have moves := (transfer_moves_each (Tape.consecutive 512) (by decide) 16 "tape" 0 shared false (by decide) numbered).2
    (by decide)
  obtain ⟨issued,log,_,ends⟩ := moves
  have calls := shared_calls
  rw [log] at calls
  obtain ⟨ok,media⟩ := ends (fun call member => by
    have listed : call ∈ numbered.calls ++ issued := List.mem_append_right _ member
    rw [calls] at listed
    rcases List.mem_cons.mp listed with rfl | later
    · rfl
    · rw [List.mem_singleton.mp later])
  refine ⟨ok,by rw [shared_calls]; rfl,?_⟩
  have host := congrArg Media.host media
  change ((transfer 16 512 "tape" 0 shared false).run numbered).2.host = _ at host
  rw [host]
  decide

end WVmm.Reference
