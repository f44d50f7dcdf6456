import WVmm.Error
import WVmm.Lib.DeviceTree

/-! The header of a qcow2 image. Only plain images are served: no backing file, no
encryption, no internal snapshots and no incompatible features. -/
namespace WVmm.Storage
open Lib.DeviceTree

/-- `QFI\xfb`. -/
def MAGIC : List UInt8 := [0x51,0x46,0x49,0xfb]

def numberAt (width p : Nat) (h : List UInt8) : Nat := fromBytes ((h.drop p).take width)

def validateHeader (h : List UInt8) : Except StorageError Nat :=
  if ¬(h.length ≥ 104 ∧ h.take 4 = MAGIC) then .error .invalidHeader
  else
    let u32at := fun p => numberAt 4 p h
    let u64at := fun p => numberAt 8 p h
    let version := u32at 4
    if ¬(version = 2 ∨ version = 3) then .error (.unsupportedVersion version)
    else if ¬(u64at 8 = 0 ∧ u32at 16 = 0) then .error .backingChainsUnsupported
    else if ¬(9 ≤ u32at 20 ∧ u32at 20 ≤ 21) then .error (.invalidQcow2ClusterSize (u32at 20))
    else if u32at 32 ≠ 0 then .error .encryptedImagesUnsupported
    else if ¬(u32at 60 = 0 ∧ u64at 64 = 0) then .error .internalSnapshotsUnsupported
    else if version = 3 ∧ u64at 72 ≠ 0 then .error (.incompatibleFeatures (u64at 72))
    else if version = 3 ∧ ¬(u32at 100 ≥ 104 ∧ u32at 100 ≤ 2 ^ u32at 20) then .error (.invalidHeaderLength (u32at 100))
    else if ¬(u64at 24 > 0 ∧ u64at 24 % 512 = 0) then .error (.invalidCapacity (u64at 24))
    else .ok (u64at 24)

/-- The fields of the header after the magic number, in the order of the format. -/
structure Header where
  version : UInt32
  backingFileOffset : UInt64
  backingFileSize : UInt32
  clusterBits : UInt32
  size : UInt64
  cryptMethod : UInt32
  l1Size : UInt32
  l1TableOffset : UInt64
  refcountTableOffset : UInt64
  refcountTableClusters : UInt32
  nbSnapshots : UInt32
  snapshotsOffset : UInt64
  incompatibleFeatures : UInt64
  compatibleFeatures : UInt64
  autoclearFeatures : UInt64
  refcountOrder : UInt32
  headerLength : UInt32
deriving DecidableEq

def pack (fields : List (Nat × Nat)) : List UInt8 := fields.flatMap (fun field => toBytes field.1 field.2)

def unpack : List Nat → List UInt8 → List (Nat × Nat)
  | [], _ => []
  | width::rest, bytes => (width,fromBytes (bytes.take width))::unpack rest (bytes.drop width)

namespace Header

def fields (h : Header) : List (Nat × Nat) := [
  (4,h.version.toNat),(8,h.backingFileOffset.toNat),(4,h.backingFileSize.toNat),(4,h.clusterBits.toNat),
  (8,h.size.toNat),(4,h.cryptMethod.toNat),(4,h.l1Size.toNat),(8,h.l1TableOffset.toNat),
  (8,h.refcountTableOffset.toNat),(4,h.refcountTableClusters.toNat),(4,h.nbSnapshots.toNat),
  (8,h.snapshotsOffset.toNat),(8,h.incompatibleFeatures.toNat),(8,h.compatibleFeatures.toNat),
  (8,h.autoclearFeatures.toNat),(4,h.refcountOrder.toNat),(4,h.headerLength.toNat)]

def encode (h : Header) : List UInt8 := MAGIC ++ pack h.fields

def ofBytes (bytes : List UInt8) : Header where
  version := UInt32.ofNat (numberAt 4 4 bytes)
  backingFileOffset := UInt64.ofNat (numberAt 8 8 bytes)
  backingFileSize := UInt32.ofNat (numberAt 4 16 bytes)
  clusterBits := UInt32.ofNat (numberAt 4 20 bytes)
  size := UInt64.ofNat (numberAt 8 24 bytes)
  cryptMethod := UInt32.ofNat (numberAt 4 32 bytes)
  l1Size := UInt32.ofNat (numberAt 4 36 bytes)
  l1TableOffset := UInt64.ofNat (numberAt 8 40 bytes)
  refcountTableOffset := UInt64.ofNat (numberAt 8 48 bytes)
  refcountTableClusters := UInt32.ofNat (numberAt 4 56 bytes)
  nbSnapshots := UInt32.ofNat (numberAt 4 60 bytes)
  snapshotsOffset := UInt64.ofNat (numberAt 8 64 bytes)
  incompatibleFeatures := UInt64.ofNat (numberAt 8 72 bytes)
  compatibleFeatures := UInt64.ofNat (numberAt 8 80 bytes)
  autoclearFeatures := UInt64.ofNat (numberAt 8 88 bytes)
  refcountOrder := UInt32.ofNat (numberAt 4 96 bytes)
  headerLength := UInt32.ofNat (numberAt 4 100 bytes)

def widths : List Nat := [4,8,4,4,8,4,4,8,8,4,4,8,8,8,8,4,4]

/-- What the disk asks of a header, in order, with what it reports otherwise. -/
def demands (h : Header) : List (Bool × StorageError) := [
  (h.version.toNat = 2 ∨ h.version.toNat = 3,.unsupportedVersion h.version.toNat),
  (h.backingFileOffset.toNat = 0 ∧ h.backingFileSize.toNat = 0,.backingChainsUnsupported),
  (9 ≤ h.clusterBits.toNat ∧ h.clusterBits.toNat ≤ 21,.invalidQcow2ClusterSize h.clusterBits.toNat),
  (h.cryptMethod.toNat = 0,.encryptedImagesUnsupported),
  (h.nbSnapshots.toNat = 0 ∧ h.snapshotsOffset.toNat = 0,.internalSnapshotsUnsupported),
  (h.version.toNat = 3 → h.incompatibleFeatures.toNat = 0,.incompatibleFeatures h.incompatibleFeatures.toNat),
  (h.version.toNat = 3 → 104 ≤ h.headerLength.toNat ∧ h.headerLength.toNat ≤ 2 ^ h.clusterBits.toNat,
    .invalidHeaderLength h.headerLength.toNat),
  (0 < h.size.toNat ∧ 512 ∣ h.size.toNat,.invalidCapacity h.size.toNat)]

end Header

/-- The report of the first demand that is not met, or else the size. -/
def report : List (Bool × StorageError) → Nat → Except StorageError Nat
  | [], size => .ok size
  | (met,e)::rest, size => if met then report rest size else .error e

section Fields

theorem foldl_fromBytes (bytes : List UInt8) (start : Nat) :
    bytes.foldl (fun value b => 256 * value + b.toNat) start = start * 256 ^ bytes.length + fromBytes bytes := by
  induction bytes generalizing start with
  | nil => simp [fromBytes]
  | cons b rest ih =>
    have whole : fromBytes (b::rest) = (256 * 0 + b.toNat) * 256 ^ rest.length + fromBytes rest := ih _
    rw [List.foldl_cons,ih,whole,List.length_cons,Nat.pow_succ]
    ring

theorem fromBytes_cons (b : UInt8) (rest : List UInt8) :
    fromBytes (b::rest) = b.toNat * 256 ^ rest.length + fromBytes rest := by
  have whole : fromBytes (b::rest) = (256 * 0 + b.toNat) * 256 ^ rest.length + fromBytes rest := foldl_fromBytes rest _
  rwa [Nat.mul_zero,Nat.zero_add] at whole

theorem fromBytes_lt (bytes : List UInt8) : fromBytes bytes < 256 ^ bytes.length := by
  induction bytes with
  | nil => exact Nat.one_pos
  | cons b rest ih =>
    have small : b.toNat + 1 ≤ 256 := b.toNat_lt
    rw [fromBytes_cons,List.length_cons,Nat.pow_succ']
    calc b.toNat * 256 ^ rest.length + fromBytes rest
      _ < b.toNat * 256 ^ rest.length + 256 ^ rest.length := Nat.add_lt_add_left ih _
      _ = (b.toNat + 1) * 256 ^ rest.length := by rw [Nat.add_mul,Nat.one_mul]
      _ ≤ 256 * 256 ^ rest.length := Nat.mul_le_mul_right _ small

/-- Higher bytes do not matter to the lower ones. -/
theorem toBytes_add (width high value : Nat) : toBytes width (high * 256 ^ width + value) = toBytes width value := by
  induction width generalizing high value with
  | zero => rfl
  | succ width ih =>
    have shift : high * 256 ^ (width + 1) + value = high * 256 * 256 ^ width + value := by
      rw [Nat.pow_succ']
      ring
    have digit : (high * 256 * 256 ^ width + value) / 256 ^ width = high * 256 + value / 256 ^ width := by
      rw [Nat.add_comm,Nat.add_mul_div_right _ _ (by positivity),Nat.add_comm]
    rw [toBytes,toBytes,shift,digit,ih]
    congr 1
    exact UInt8.toNat_inj.mp (by simp)

theorem toBytes_fromBytes (bytes : List UInt8) : toBytes bytes.length (fromBytes bytes) = bytes := by
  induction bytes with
  | nil => rfl
  | cons b rest ih =>
    have digit : (b.toNat * 256 ^ rest.length + fromBytes rest) / 256 ^ rest.length = b.toNat := by
      rw [Nat.add_comm,Nat.add_mul_div_right _ _ (by positivity),Nat.div_eq_of_lt (fromBytes_lt rest),Nat.zero_add]
    rw [fromBytes_cons,List.length_cons,toBytes,digit,toBytes_add,ih,UInt8.ofNat_toNat]

theorem pack_unpack (widths : List Nat) (bytes : List UInt8) (enough : widths.sum ≤ bytes.length) :
    pack (unpack widths bytes) = bytes.take widths.sum := by
  induction widths generalizing bytes with
  | nil => rfl
  | cons width rest ih =>
    rw [List.sum_cons] at enough ⊢
    have length : (bytes.take width).length = width := by
      rw [List.length_take]
      omega
    have first : toBytes width (fromBytes (bytes.take width)) = bytes.take width := by
      have same := toBytes_fromBytes (bytes.take width)
      rwa [length] at same
    have later := ih (bytes.drop width) (by rw [List.length_drop]; omega)
    have split : pack (unpack (width::rest) bytes) =
        toBytes width (fromBytes (bytes.take width)) ++ pack (unpack rest (bytes.drop width)) := List.flatMap_cons
    rw [split,first,later,List.take_add]

theorem unpack_pack (fields : List (Nat × Nat)) (fit : ∀ field ∈ fields, field.2 < 256 ^ field.1) (rest : List UInt8) :
    unpack (fields.map Prod.fst) (pack fields ++ rest) = fields := by
  induction fields with
  | nil => rfl
  | cons field fields ih =>
    have split : pack (field::fields) ++ rest = toBytes field.1 field.2 ++ (pack fields ++ rest) := by
      rw [pack,List.flatMap_cons,List.append_assoc]
      rfl
    have first : (toBytes field.1 field.2 ++ (pack fields ++ rest)).take field.1 = toBytes field.1 field.2 :=
      List.take_left' (toBytes_length field.1 field.2)
    have later : (toBytes field.1 field.2 ++ (pack fields ++ rest)).drop field.1 = pack fields ++ rest :=
      List.drop_left' (toBytes_length field.1 field.2)
    rw [split,List.map_cons,unpack,first,later,ih (fun f member => fit f (List.mem_cons_of_mem _ member)),
      fromBytes_toBytes (fit field List.mem_cons_self)]

/-- A number is read at the place where it was packed. -/
theorem numberAt_pack {before after : List (Nat × Nat)} {width value : Nat} (fits : value < 256 ^ width)
    (start rest : List UInt8) :
    numberAt width (start.length + (before.map Prod.fst).sum) (start ++ pack (before ++ (width,value)::after) ++ rest) =
      value := by
  have sized : ∀ fields : List (Nat × Nat), (pack fields).length = (fields.map Prod.fst).sum := by
    intro fields
    induction fields with
    | nil => rfl
    | cons field fields ih =>
      have split : pack (field::fields) = toBytes field.1 field.2 ++ pack fields := List.flatMap_cons
      rw [split,List.length_append,toBytes_length,ih,List.map_cons,List.sum_cons]
  have split : pack (before ++ (width,value)::after) = pack before ++ (toBytes width value ++ pack after) := by
    rw [pack,List.flatMap_append,List.flatMap_cons]
    rfl
  have place : start.length + (before.map Prod.fst).sum = (start ++ pack before).length := by
    rw [List.length_append,sized]
  have layout : start ++ pack (before ++ (width,value)::after) ++ rest =
      (start ++ pack before) ++ (toBytes width value ++ (pack after ++ rest)) := by
    rw [split]
    simp only [List.append_assoc]
  rw [numberAt,layout,place,List.drop_left,List.take_left' (toBytes_length width value)]
  exact fromBytes_toBytes fits

end Fields

namespace Header

theorem field_reads (h : Header) (rest : List UInt8) (k width value p : Nat)
    (split : h.fields = h.fields.take k ++ (width,value)::h.fields.drop (k + 1)) (place : 4 + (widths.take k).sum = p)
    (fits : value < 256 ^ width) : numberAt width p (h.encode ++ rest) = value := by
  have before : (h.fields.take k).map Prod.fst = widths.take k := by
    rw [List.map_take]
    rfl
  generalize h.fields.take k = first at split before
  rw [← place,encode,split,← before]
  exact numberAt_pack fits MAGIC rest

/-- Each number that the disk reads is a field of the header. -/
theorem encode_reads (h : Header) (rest : List UInt8) :
    numberAt 4 4 (h.encode ++ rest) = h.version.toNat ∧ numberAt 8 8 (h.encode ++ rest) = h.backingFileOffset.toNat ∧
      numberAt 4 16 (h.encode ++ rest) = h.backingFileSize.toNat ∧
      numberAt 4 20 (h.encode ++ rest) = h.clusterBits.toNat ∧ numberAt 8 24 (h.encode ++ rest) = h.size.toNat ∧
      numberAt 4 32 (h.encode ++ rest) = h.cryptMethod.toNat ∧
      numberAt 4 60 (h.encode ++ rest) = h.nbSnapshots.toNat ∧
      numberAt 8 64 (h.encode ++ rest) = h.snapshotsOffset.toNat ∧
      numberAt 8 72 (h.encode ++ rest) = h.incompatibleFeatures.toNat ∧
      numberAt 4 100 (h.encode ++ rest) = h.headerLength.toNat := by
  have small (n : UInt32) : n.toNat < 256 ^ 4 := n.toNat_lt
  have large (n : UInt64) : n.toNat < 256 ^ 8 := n.toNat_lt
  have reads := h.field_reads rest
  exact ⟨reads 0 4 _ 4 rfl (by decide) (small _),reads 1 8 _ 8 rfl (by decide) (large _),
    reads 2 4 _ 16 rfl (by decide) (small _),reads 3 4 _ 20 rfl (by decide) (small _),
    reads 4 8 _ 24 rfl (by decide) (large _),reads 5 4 _ 32 rfl (by decide) (small _),
    reads 10 4 _ 60 rfl (by decide) (small _),reads 11 8 _ 64 rfl (by decide) (large _),
    reads 12 8 _ 72 rfl (by decide) (large _),reads 16 4 _ 100 rfl (by decide) (small _)⟩

theorem fields_fit (h : Header) : ∀ field ∈ h.fields, field.2 < 256 ^ field.1 := by
  have small (n : UInt32) : n.toNat < 256 ^ 4 := n.toNat_lt
  have large (n : UInt64) : n.toNat < 256 ^ 8 := n.toNat_lt
  simp only [fields,List.forall_mem_cons]
  exact ⟨small _,large _,small _,small _,large _,small _,small _,large _,large _,small _,small _,large _,large _,
    large _,large _,small _,small _,List.forall_mem_nil _⟩

theorem encode_length (h : Header) : h.encode.length = 104 := by
  have sized : (pack h.fields).length = 100 := by
    simp only [pack,fields,List.length_flatMap,List.map_cons,List.map_nil,toBytes_length,List.sum_cons,List.sum_nil,
      Nat.reduceAdd]
  rw [encode,List.length_append,sized]
  rfl

theorem fields_injective {h h' : Header} (same : h.fields = h'.fields) : h = h' := by
  simp only [fields,List.cons.injEq,Prod.mk.injEq,true_and,and_true,UInt32.toNat_inj,UInt64.toNat_inj] at same
  cases h
  cases h'
  simp only [mk.injEq]
  exact same

/-- Two headers with the same bytes are the same. -/
theorem encode_injective {h h' : Header} (same : h.encode = h'.encode) : h = h' := by
  have packed : pack h.fields = pack h'.fields := List.append_cancel_left same
  have first := unpack_pack h.fields h.fields_fit []
  have second := unpack_pack h'.fields h'.fields_fit []
  have layout : h.fields.map Prod.fst = h'.fields.map Prod.fst := rfl
  rw [packed,layout,second] at first
  exact (fields_injective first).symm

/-- The header of some bytes has just these bytes. -/
theorem encode_ofBytes {bytes : List UInt8} (long : 104 ≤ bytes.length) (magic : bytes.take 4 = MAGIC) :
    (ofBytes bytes).encode = bytes.take 104 := by
  have room (width p : Nat) : numberAt width p bytes < 256 ^ width := by
    refine Nat.lt_of_lt_of_le (fromBytes_lt _) (Nat.pow_le_pow_right (by decide) ?_)
    rw [List.length_take]
    exact Nat.min_le_left _ _
  have small (p : Nat) : (UInt32.ofNat (numberAt 4 p bytes)).toNat = numberAt 4 p bytes := by
    rw [UInt32.toNat_ofNat']
    exact Nat.mod_eq_of_lt (room 4 p)
  have large (p : Nat) : (UInt64.ofNat (numberAt 8 p bytes)).toNat = numberAt 8 p bytes := by
    rw [UInt64.toNat_ofNat']
    exact Nat.mod_eq_of_lt (room 8 p)
  have parts : (ofBytes bytes).fields = unpack widths (bytes.drop 4) := by
    simp only [fields,ofBytes,small,large]
    simp only [widths,unpack,List.drop_drop]
    rfl
  rw [encode,parts,pack_unpack _ _ (by rw [List.length_drop]; change 100 ≤ _; omega),← magic]
  change bytes.take 4 ++ (bytes.drop 4).take 100 = bytes.take 104
  rw [← List.take_add]

end Header

theorem report_ok {demands : List (Bool × StorageError)} {size n : Nat} :
    report demands size = .ok n ↔ n = size ∧ ∀ demand ∈ demands, demand.1 = true := by
  induction demands with
  | nil =>
    rw [report,Except.ok.injEq]
    exact ⟨fun same => ⟨same.symm,List.forall_mem_nil _⟩,fun holds => holds.1.symm⟩
  | cons demand rest ih =>
    obtain ⟨met,e⟩ := demand
    cases met <;> simp [report,ih]

theorem report_error {demands : List (Bool × StorageError)} {size : Nat} {e : StorageError} :
    report demands size = .error e ↔
      ∃ before after, demands = before ++ (false,e)::after ∧ ∀ demand ∈ before, demand.1 = true := by
  induction demands with
  | nil => simp [report]
  | cons demand rest ih =>
    obtain ⟨met,e'⟩ := demand
    cases met with
    | true =>
      rw [report,if_pos rfl,ih]
      constructor
      · rintro ⟨before,after,rfl,all⟩
        exact ⟨(true,e')::before,after,rfl,List.forall_mem_cons.mpr ⟨rfl,all⟩⟩
      · rintro ⟨before,after,split,all⟩
        cases before with
        | nil => cases split
        | cons first before =>
          obtain ⟨rfl,rfl⟩ := List.cons.inj split
          exact ⟨before,after,rfl,(List.forall_mem_cons.mp all).2⟩
    | false =>
      rw [report,if_neg (by decide)]
      constructor
      · intro same
        cases same
        exact ⟨[],rest,rfl,List.forall_mem_nil _⟩
      · rintro ⟨before,after,split,all⟩
        cases before with
        | nil =>
          cases split
          rfl
        | cons first before =>
          obtain ⟨rfl,_⟩ := List.cons.inj split
          cases (List.forall_mem_cons.mp all).1

/-- The checks of the disk are the demands on the header, in order. -/
theorem validate_encode (h : Header) (rest : List UInt8) :
    validateHeader (h.encode ++ rest) = report h.demands h.size.toNat := by
  have long : (h.encode ++ rest).length ≥ 104 ∧ (h.encode ++ rest).take 4 = MAGIC := by
    refine ⟨?_,rfl⟩
    rw [List.length_append,h.encode_length]
    exact Nat.le_add_right _ _
  obtain ⟨version,backing,backingSize,bits,size,crypt,snapshots,table,features,length⟩ := h.encode_reads rest
  unfold validateHeader
  rw [if_neg (not_not.mpr long)]
  simp only [version,backing,backingSize,bits,size,crypt,snapshots,table,features,length,Header.demands,report,
    decide_eq_true_eq]
  simp only [ne_eq,← Classical.not_imp,ite_not,Nat.dvd_iff_mod_eq_zero,gt_iff_lt,ge_iff_le]

/-- Some bytes that begin as an image does, and are long enough, begin with exactly one
header; others are refused for that. A header is accepted, with its size, when it meets
every demand, and otherwise the report is that of the first demand it does not meet. -/
theorem header_exact :
    (∀ bytes, (104 ≤ bytes.length ∧ bytes.take 4 = MAGIC → ∃! h : Header, bytes = h.encode ++ bytes.drop 104) ∧
      (¬(104 ≤ bytes.length ∧ bytes.take 4 = MAGIC) → validateHeader bytes = .error .invalidHeader)) ∧
    ∀ (h : Header) rest,
      (∀ size, validateHeader (h.encode ++ rest) = .ok size ↔
        size = h.size.toNat ∧ ∀ demand ∈ h.demands, demand.1 = true) ∧
      ∀ e, validateHeader (h.encode ++ rest) = .error e ↔
        ∃ before after, h.demands = before ++ (false,e)::after ∧ ∀ demand ∈ before, demand.1 = true := by
  refine ⟨fun bytes => ⟨?_,?_⟩,fun h rest => ⟨fun size => ?_,fun e => ?_⟩⟩
  · rintro ⟨long,magic⟩
    refine ⟨Header.ofBytes bytes,?_,?_⟩
    · dsimp only
      rw [Header.encode_ofBytes long magic,List.take_append_drop]
    · intro h same
      refine Header.encode_injective ?_
      have start : bytes.take 104 = h.encode := by
        rw [same,List.take_left' h.encode_length]
      rw [Header.encode_ofBytes long magic,start]
  · intro other
    unfold validateHeader
    rw [if_pos other]
  · rw [validate_encode,report_ok]
  · rw [validate_encode,report_error]

end WVmm.Storage
