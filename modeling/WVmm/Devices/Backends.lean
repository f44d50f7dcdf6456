import WVmm.Devices.Device
import WVmm.Devices.BlockSpec
import WVmm.Devices.NetSpec
import WVmm.Reference

/-! Backends that keep their contract, for concrete machines: a disk in memory
and a wire with frames to deliver and room for frames to send. -/
namespace WVmm.Reference
open Devices

def fill : List VolatileSlice → List UInt8 → Host → Host
  | [], _, host => host
  | s::rest, raw, host => fill rest (raw.drop s.len) (World.storeAt host s.ptr (raw.take s.len))

theorem fill_writes (slices : List VolatileSlice) (raw : List UInt8) (host : Host) (p : Nat)
    (changed : fill slices raw host p ≠ host p) : p ∈ hostBytes slices := by
  induction slices generalizing raw host with
  | nil => exact absurd rfl changed
  | cons s rest ih =>
    by_cases later : fill rest (raw.drop s.len) (World.storeAt host s.ptr (raw.take s.len)) p =
        World.storeAt host s.ptr (raw.take s.len) p
    · simp only [fill,later,World.storeAt,List.length_take] at changed
      split at changed
      · rename_i inside
        refine List.mem_flatMap.mpr ⟨s,List.mem_cons_self,?_⟩
        rw [VolatileSlice.bytes,List.mem_range'_1]
        omega
      · exact absurd rfl changed
    · exact List.mem_append_right _ (ih _ _ later)

/-- What is stored does not depend on what was there before. -/
theorem fill_agrees (slices : List VolatileSlice) (raw : List UInt8) {host host' : Host} {p : Nat}
    (same : host' p = host p) : fill slices raw host' p = fill slices raw host p := by
  induction slices generalizing raw host host' with
  | nil => exact same
  | cons s rest ih =>
    refine ih _ ?_
    unfold World.storeAt
    split
    · rfl
    · exact same

theorem fill_determined (slices : List VolatileSlice) (raw : List UInt8) (host host' : Host) {p : Nat}
    (inside : p ∈ (hostBytes slices).take raw.length) : fill slices raw host' p = fill slices raw host p := by
  induction slices generalizing raw host host' with
  | nil => simp [hostBytes] at inside
  | cons s rest ih =>
    have bytes : hostBytes (s::rest) = s.bytes ++ hostBytes rest := rfl
    rw [bytes,List.take_append,List.mem_append] at inside
    rcases inside with first | later
    · refine fill_agrees rest _ ?_
      have bounds : s.ptr ≤ p ∧ p < s.ptr + (raw.take s.len).length := by
        obtain ⟨i,bound,rfl⟩ := List.mem_take_iff_getElem.mp first
        simp only [VolatileSlice.bytes,List.length_range',List.getElem_range',List.length_take] at bound ⊢
        omega
      rw [World.storeAt,World.storeAt,if_pos bounds,if_pos bounds]
    · have length : s.bytes.length = s.len := List.length_range'
      refine ih _ _ _ ?_
      rwa [List.length_drop,← length]

/-- A disk in memory; `dirty` makes its flush fail. -/
structure Disk where
  bytes : List UInt8
  dirty : Bool

instance : BlockStorage Disk where
  size d := d.bytes.length
  readOnly _ := false
  read d offset data host := (.ok (),d,fill data (d.bytes.drop offset) host)
  write d offset data host :=
    let raw := World.bytesAt host data
    (.ok (),{d with bytes := d.bytes.take offset ++ raw ++ d.bytes.drop (offset + raw.length)})
  flush d := (if d.dirty then .error (.io ⟨"flush"⟩) else .ok (),d)

theorem Disk.obeys : BlockStorage.Obeys Disk ⟨True,False⟩ where
  confined _ _ _ _ _ _ changed := fill_writes _ _ _ _ changed
  reads never := absurd trivial never
  writes never := absurd trivial never
  flushes never := absurd trivial never

/-- Frames that wait to be received, and how many frames will be accepted. -/
structure Wire where
  inbox : List (List UInt8)
  credit : Nat

instance : NetDevice Wire where
  mtu := 68
  macAddress _ := [2,0,0,0,0,1]
  maxFrameLen _ := 82
  send w _ _ := if w.credit = 0 then (.ok false,w) else (.ok true,{w with credit := w.credit - 1})
  recv w buffer host := match w.inbox with
    | [] => (.ok none,w,host)
    | frame::rest => (.ok (some frame.length),{w with inbox := rest},fill buffer frame host)

theorem Wire.obeys : NetDevice.Obeys Wire ⟨True,False⟩ where
  confined _ w buffer host p changed := by
    obtain ⟨inbox,credit⟩ := w
    cases inbox with
    | nil => exact absurd rfl changed
    | cons frame rest => exact fill_writes _ _ _ _ changed
  sends never := absurd trivial never
  receives never := absurd trivial never

end WVmm.Reference
