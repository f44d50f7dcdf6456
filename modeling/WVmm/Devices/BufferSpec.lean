import WVmm.Devices.QueueSpec

/-! Specifications of the scatter-gather helpers, in terms of the bytes that
slices and descriptors cover. With the lengths their callers establish, no
assertion of a helper is violated. -/
namespace WVmm.Devices
open Lib.Effect

def hostBytes (slices : List VolatileSlice) : List Nat := slices.flatMap VolatileSlice.bytes

def guestBytes (descriptors : List Descriptor) : List Nat :=
  descriptors.flatMap (fun d => List.range' d.addr d.len)

variable {env : Env} {trust : Trust} {view : GuestMemoryMmap}

namespace Buffers

theorem slices_backed (lawful : env.vm.Lawful) {descriptors : List Descriptor}
    {all : List VolatileSlice} (found : slices env.vm view descriptors = .ok all) :
    List.Forall₂ view.Backs (guestBytes descriptors) (hostBytes all) := by
  induction descriptors generalizing all with
  | nil =>
    cases found
    exact .nil
  | cons d rest ih =>
    simp only [slices] at found
    split at found
    · cases found
    · rename_i first backed
      split at found
      · cases found
      · rename_i others later
        cases found
        rw [hostBytes,List.flatMap_append]
        exact List.rel_append (lawful.slices _ _ _ _ backed) (ih later)

theorem totalLength_eq {descriptors : List Descriptor} {n : Nat}
    (total : totalLength descriptors = some n) : n = (guestBytes descriptors).length := by
  have general : ∀ (descriptors : List Descriptor) (start n : Nat),
      descriptors.foldlM (fun n d => checkedAdd n d.len) start = some n →
        n = start + (guestBytes descriptors).length := by
    intro descriptors
    induction descriptors with
    | nil =>
      intro start n total
      cases total
      rfl
    | cons d rest ih =>
      intro start n total
      rw [List.foldlM_cons] at total
      obtain ⟨sum,added,later⟩ := Option.bind_eq_some_iff.mp total
      obtain ⟨_,rfl⟩ := checkedAdd_eq_some.mp added
      rw [ih _ n later]
      simp [guestBytes,Nat.add_assoc]
  simpa using general descriptors 0 n total

theorem guestBytes_sum (descriptors : List Descriptor) :
    (guestBytes descriptors).length = (descriptors.map Descriptor.len).sum := by
  rw [guestBytes,List.length_flatMap]
  simp only [List.length_range']

theorem totalLength_bytes {descriptors : List Descriptor} (fits : (guestBytes descriptors).length < 2^64) :
    totalLength descriptors = some (guestBytes descriptors).length := by
  rw [guestBytes_sum] at fits ⊢
  rw [totalLength,foldlM_checkedAdd Descriptor.len descriptors (by decide),Nat.zero_add,if_pos fits]

theorem part_bytes (ptr n skip len : Nat) :
    ((List.range' ptr n).drop skip).take len =
      List.range' (ptr + min skip n) (min (n - min skip n) len) := by
  rw [List.drop_range',Nat.mul_one]
  rcases Nat.le_total n skip with past | inside
  · simp [past]
  · rw [Nat.min_eq_left inside]
    rcases Nat.le_total len (n - skip) with less | more
    · rw [List.take_range'_of_length_ge less,Nat.min_eq_right less]
    · rw [List.take_range'_of_length_le more,Nat.min_eq_left more]

/-- The part of one slice that a range takes. -/
theorem subslice_bytes (s : VolatileSlice) {offset n : Nat} (fits : offset + n ≤ s.len) :
    ∃ head, (if 0 < n then (s.subslice offset n).map (fun part => [part]) else some []) = some head ∧
      hostBytes head = List.range' (s.ptr + offset) n := by
  by_cases some : 0 < n
  · exact ⟨[⟨s.ptr + offset,n⟩],by simp [VolatileSlice.subslice,some,fits],by
      simp [hostBytes,VolatileSlice.bytes]⟩
  · have none : n = 0 := by omega
    exact ⟨[],if_neg some,by simp [hostBytes,none]⟩

/-- A range within the slices covers just its bytes. -/
theorem range_covers {all : List VolatileSlice} {skip len : Nat}
    (fits : skip + len ≤ (hostBytes all).length) :
    ∃ part, range all skip len = .ok part ∧ hostBytes part = ((hostBytes all).drop skip).take len := by
  induction all generalizing skip len with
  | nil =>
    have none : len = 0 := by simp [hostBytes] at fits; omega
    exact ⟨[],by simp [range,none],by simp [hostBytes]⟩
  | cons s rest ih =>
    have bytes : hostBytes (s::rest) = List.range' s.ptr s.len ++ hostBytes rest := rfl
    rw [bytes,List.length_append,List.length_range'] at fits
    obtain ⟨head,taken,covered⟩ := @subslice_bytes s (min skip s.len) (min (s.len - min skip s.len) len)
      (by omega)
    -- The slice gives what it has after the skipped bytes; the rest gives the rest.
    have split : ((hostBytes (s::rest)).drop skip).take len =
        List.range' (s.ptr + min skip s.len) (min (s.len - min skip s.len) len) ++
          ((hostBytes rest).drop (skip - min skip s.len)).take (len - min (s.len - min skip s.len) len) := by
      rw [bytes,List.drop_append,List.take_append,List.length_drop,List.length_range',part_bytes]
      have skipped : skip - min skip s.len = skip - s.len := by omega
      have rest : s.len - min skip s.len = s.len - skip := by omega
      have taken : ∀ n, len - min n len = len - n := by omega
      rw [taken,skipped,rest]
    simp only [range,taken]
    split
    · rename_i done
      refine ⟨head,rfl,?_⟩
      rw [split,done,List.take_zero,List.append_nil,covered]
    · rename_i more
      obtain ⟨others,ranged,later⟩ := @ih (skip - min skip s.len)
        (len - min (s.len - min skip s.len) len) (by omega)
      refine ⟨head ++ others,by rw [ranged]; rfl,?_⟩
      rw [split,← covered,← later]
      simp [hostBytes]

theorem bytesAt_length (host : Host) (slices : List VolatileSlice) :
    (World.bytesAt host slices).length = (hostBytes slices).length := by
  simp [World.bytesAt,hostBytes]

theorem copyTo_looks {all : List VolatileSlice} {n : Nat} (fits : n ≤ (hostBytes all).length) :
    Looks env trust view (copyTo env all n) (fun raw => raw.length = n) := by
  induction all generalizing n with
  | nil =>
    have none : n = 0 := by simpa [hostBytes] using fits
    rw [copyTo,if_pos none]
    exact .pure (by simp [none])
  | cons s rest ih =>
    have bytes : (hostBytes (s::rest)).length = s.len + (hostBytes rest).length := by
      simp [hostBytes,VolatileSlice.bytes]
    rw [copyTo]
    split
    · rename_i none
      exact .pure (by simp [none])
    · refine .bind .observe (fun _ _ => .get (fun w _ => ?_))
      refine .bind (@ih (n - min s.len n) (by omega)) (fun others length => .pure ?_)
      rw [List.length_append,bytesAt_length,length]
      simp only [hostBytes,List.flatMap_cons,List.flatMap_nil,List.append_nil,VolatileSlice.bytes,
        List.length_range']
      omega

/-- A program on the world that writes no host byte but the allowed ones. -/
def Writes (env : Env) (trust : Trust) (view : GuestMemoryMmap) (allowed : Nat → Prop)
    (m : Prog World (Failure DeviceError) Unit) : Prop :=
  Triple (fun w => w.view = view) (World.Moves env allowed) (Contained trust) m (fun _ _ => True)

theorem Writes.done {allowed : Nat → Prop} : Writes env trust view allowed (pure ()) :=
  fun w _ => ⟨.refl w,fun _ _ => trivial,fun _ failed => by cases failed⟩

theorem storeAt_moves (w : World) (ptr : Nat) (raw : List UInt8) :
    World.Moves env (fun p => ptr ≤ p ∧ p < ptr + raw.length) w
      {w with host := World.storeAt w.host ptr raw} :=
  ⟨rfl,rfl,rfl,⟨[],rfl⟩,fun _ _ outside => if_neg outside⟩

theorem copyFrom_writes {all : List VolatileSlice} {src : List UInt8}
    (fits : src.length ≤ (hostBytes all).length) :
    Writes env trust view (fun p => p ∈ hostBytes all) (copyFrom all src) := by
  induction all generalizing src with
  | nil =>
    have none : src = [] := by simpa [hostBytes] using fits
    rw [copyFrom,if_pos none]
    exact Writes.done
  | cons s rest ih =>
    have bytes : hostBytes (s::rest) = List.range' s.ptr s.len ++ hostBytes rest := rfl
    rw [copyFrom]
    split
    · exact Writes.done
    · rw [bytes,List.length_append,List.length_range'] at fits
      have first : Writes env trust view (fun p => p ∈ hostBytes (s::rest)) (Prog.modify (fun w =>
          {w with host := World.storeAt w.host s.ptr (src.take (min s.len src.length))})) := by
        refine .modify (fun w _ => ⟨(storeAt_moves w _ _).widen ?_,trivial⟩)
        intro p inside
        rw [bytes,List.mem_append,List.mem_range'_1]
        rw [List.length_take] at inside
        exact .inl ⟨inside.1,by omega⟩
      have later := @ih (src.drop (min s.len src.length)) (by rw [List.length_drop]; omega)
      refine Triple.step (fun _ _ _ => .trans) (fun _ _ moves same => moves.view.trans same) first
        (fun _ => ?_)
      intro w here
      obtain ⟨moved,good,bad⟩ := later w here.1
      exact ⟨moved.widen (fun p inside => List.mem_append_right _ inside),good,bad⟩

theorem writeSlice_writes (lawful : env.vm.Lawful) (addr : Nat) (raw : List UInt8) :
    Writes env trust view (fun p => ∃ i < raw.length, view.Backs (addr + i) p)
      (World.writeSlice env addr raw) := by
  rintro w rfl
  refine ⟨World.writeSlice_moves lawful addr raw w,fun _ _ => trivial,?_⟩
  intro f failed
  simp only [World.writeSlice,Prog.run_mk] at failed
  cases outcome : (env.vm.writeSlice w.view w.host addr raw).1 with
  | ok _ =>
    rw [outcome] at failed
    cases failed
  | error e =>
    rw [outcome] at failed
    cases failed
    exact .guest rfl

end Buffers

section Cells
variable {D : Type} {keeps : D → D → Prop} {k : Nat} {α : Type}

/-- Host bytes that lie in device-writable descriptors of popped chains. -/
def Granted (k : Nat) (bytes : List Nat) (c : Cell D) : Prop :=
  ∀ p ∈ bytes, InWritable c.world.view (c.trace.drop k) p

theorem Granted.lasting {bytes : List Nat} :
    Lasting env trust keeps k (Granted k bytes : Cell D → Prop) := by
  intro c c' moves granted p member
  obtain ⟨queue,chain,popped,rest⟩ := granted p member
  rw [moves.world.view]
  exact ⟨queue,chain,Popped.lasting c c' moves popped,rest⟩

/-- Bytes of writable descriptors of a taken chain are granted. -/
theorem Taken.grants {index : Nat} {chain : Chain} {c : Cell D} (taken : Taken env view k index chain c)
    (viewed : c.world.view = view) {guest host : List Nat} (backed : List.Forall₂ view.Backs guest host)
    (writable : ∀ a ∈ guest, ∃ d ∈ chain.descriptors, d.isWriteOnly = true ∧ a ∈ List.range' d.addr d.len) :
    Granted k host c := by
  intro p member
  obtain ⟨a,inside,backs⟩ : ∃ a ∈ guest, view.Backs a p := by
    induction backed with
    | nil => cases member
    | cons first _ ih =>
      rcases List.mem_cons.mp member with rfl | later
      · exact ⟨_,List.mem_cons_self,first⟩
      · obtain ⟨a,inside,backs⟩ := ih (fun a there => writable a (List.mem_cons_of_mem _ there)) later
        exact ⟨a,List.mem_cons_of_mem _ inside,backs⟩
  obtain ⟨d,listed,write,low,high⟩ := by simpa only [List.mem_range'_1] using writable a inside
  refine ⟨index,chain,taken.popped,d,listed,write,a - d.addr,by omega,?_⟩
  rwa [viewed,Nat.add_sub_cancel' low]

variable [kept : Kept keeps] {pre : Cell D → Prop}

theorem Acts.write {allowed : Nat → Prop} {m : Prog World (Failure DeviceError) Unit}
    (viewed : ∀ c, pre c → c.world.view = view)
    (granted : ∀ c, pre c → ∀ p, allowed p → InWritable c.world.view (c.trace.drop k) p)
    (writes : Buffers.Writes env trust view allowed m) :
    Acts env trust keeps k pre (Cell.onWorld m) (fun _ _ => True) :=
  Triple.zoom writes viewed
    (fun c _ here moves => .ofWorld kept.refl
      (moves.widen (fun p inside => .inr (.inr (granted c here p inside)))))
    (fun _ _ _ _ _ _ => trivial)

theorem Acts.copyFrom {all : List VolatileSlice} {src : List UInt8}
    (viewed : ∀ c, pre c → c.world.view = view) (fits : src.length ≤ (hostBytes all).length)
    (granted : ∀ c, pre c → Granted k (hostBytes all) c) :
    Acts env trust keeps k pre (Cell.onWorld (Buffers.copyFrom all src)) (fun _ _ => True) :=
  .write viewed (fun c here p inside => granted c here p inside) (Buffers.copyFrom_writes fits)

end Cells
end WVmm.Devices
