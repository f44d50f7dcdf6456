import WVmm.Platform.Machine

/-! Where the kernel, the initial RAM disk and the device tree are placed in RAM, and
the windows of the devices. Arithmetic that the source leaves unchecked is a panic
where it overflows. -/
namespace WVmm.Platform.Boot

def RAM : Nat := 0x40000000
def UART : Nat := 0x09000000
def UART_SIZE : Nat := 8
def VIRTIO_BASE : Nat := 0x0a000000
def VIRTIO_STRIDE : Nat := 0x1000
def GIC_REDIST : Nat := 0x10000000
def UART_IRQ : Nat := 33
def VIRTIO_IRQ_BASE : Nat := 34

inductive BootError
  | tooManyVirtioDevicesForGicSpis (count : Nat)
  | kernelInitramfsFdtOverlapOrExceedRam
  | imageSizeOverflow
  | initrdTooLarge (length : Nat)
  | ramAddressOverflow
  | ramExceedsHostAllocationSize (size : Nat)
  | kernelOffsetOverflow (offset : Nat)
  | unalignedKernelTextOffset (offset : Nat)
  | bigEndianKernelUnsupported
  | legacyImageWithoutImageSizeIsUnsupported
  | invalidArm64Image
  | memoryMustBeAtLeast128Mib (mib : Nat)
  | ipaRange (start stop bits : Nat)
  | memoryAddressOverflow (start size : Nat)
  | invalidIpaWidth (bits : Nat)
  | memoryCapacityConversionOverflow (mib : Nat)
deriving DecidableEq

def hex (n : Nat) : String := "0x" ++ String.ofList (Nat.toDigits 16 n)

def BootError.text : BootError → String
  | tooManyVirtioDevicesForGicSpis count => "too many virtio devices for GIC SPIs: " ++ toString count
  | kernelInitramfsFdtOverlapOrExceedRam => "kernel/initramfs/FDT overlap or exceed RAM"
  | imageSizeOverflow => "Image size overflow"
  | initrdTooLarge length => "initrd too large: " ++ toString length
  | ramAddressOverflow => "RAM address overflow"
  | ramExceedsHostAllocationSize size => "RAM size " ++ toString size ++ " exceeds host allocation size"
  | kernelOffsetOverflow offset => "kernel offset overflow: " ++ hex offset
  | unalignedKernelTextOffset offset => "unaligned kernel text offset " ++ hex offset
  | bigEndianKernelUnsupported => "big endian kernel unsupported"
  | legacyImageWithoutImageSizeIsUnsupported => "legacy Image without image_size is unsupported"
  | invalidArm64Image => "invalid ARM64 Image"
  | memoryMustBeAtLeast128Mib mib => "memory must be at least 128 MiB (got " ++ toString mib ++ ")"
  | ipaRange start stop bits =>
    "memory range " ++ hex start ++ ".." ++ hex stop ++ " exceeds HVF " ++ toString bits ++ "-bit IPA range"
  | memoryAddressOverflow start size =>
    "memory address overflow: start " ++ hex start ++ ", size " ++ toString size
  | invalidIpaWidth bits => "invalid HVF IPA width " ++ toString bits
  | memoryCapacityConversionOverflow mib => "memory capacity conversion overflow: " ++ toString mib ++ " MiB"

abbrev Result (α : Type) := Except (Failure BootError) α

def fail {α : Type} (e : BootError) : Result α := .error (.error e)

def okOr {α : Type} (e : BootError) : Option α → Result α
  | some a => .ok a
  | none => fail e

/-- A sum that the source does not check, in this many bits. -/
def exact (bits n : Nat) : Result Nat := if n < 2^bits then .ok n else .error (.panic .overflow)

/-- A difference that the source does not check. -/
def minus (a b : Nat) : Result Nat := if b ≤ a then .ok (a - b) else .error (.panic .overflow)

def checkedSub (a b : Nat) : Option Nat := if b ≤ a then some (a - b) else none

def mibBytes (mib : Nat) : Result Nat := okOr (.memoryCapacityConversionOverflow mib) (checkedMul mib MIB)

def validateIpaRange (start size bits : Nat) : Except BootError Unit :=
  if ¬(1 ≤ bits ∧ bits ≤ 64) then .error (.invalidIpaWidth bits)
  else match checkedAdd start size with
    | none => .error (.memoryAddressOverflow start size)
    | some stop => if ¬(bits = 64 ∨ stop ≤ 2^bits) then .error (.ipaRange start stop bits) else .ok ()

def word (kernel : List UInt8) (p : Nat) : Result Nat :=
  if p + 8 ≤ kernel.length then .ok (fromLeBytes ((kernel.drop p).take 8)) else .error (.panic .index)

def magic : List UInt8 := [0x41,0x52,0x4d,0x64]

structure Layout where
  size : Nat
  entry : Nat
  initrd : Nat
  dtb : Nat
deriving DecidableEq

/-- Where everything goes in this much RAM, for a kernel at its entry. -/
def Layout.place (bytes entry imageSize kernelLen initrdLen : Nat) : Result Layout :=
  -- `isize::MAX` of a 64-bit host.
  if bytes > 2^63 - 1 then fail (.ramExceedsHostAllocationSize bytes)
  else (okOr .ramAddressOverflow (checkedAdd RAM bytes)).bind fun stop =>
    (minus stop 0x200000).bind fun dtb =>
      (okOr (.initrdTooLarge initrdLen) (checkedSub dtb initrdLen)).bind fun free =>
        let initrd := free &&& (2^64 - 1 - 0xffff)
        (okOr .imageSizeOverflow (checkedAdd entry (max imageSize kernelLen))).bind fun kernelEnd =>
          if ¬(initrd ≥ RAM ∧ kernelEnd ≤ initrd) then fail .kernelInitramfsFdtOverlapOrExceedRam
          else .ok ⟨bytes,entry,initrd,dtb⟩

def Layout.new (mib : Nat) (kernel : List UInt8) (initrdLen : Nat) : Result Layout :=
  if mib < 128 then fail (.memoryMustBeAtLeast128Mib mib)
  else if ¬(kernel.length ≥ 64 ∧ (kernel.drop 56).take 4 = magic) then fail .invalidArm64Image
  else (word kernel 16).bind fun imageSize =>
    if imageSize = 0 then fail .legacyImageWithoutImageSizeIsUnsupported
    else (word kernel 24).bind fun flags =>
      if flags &&& 1 ≠ 0 then fail .bigEndianKernelUnsupported
      else (word kernel 8).bind fun offset =>
        if offset % 4096 ≠ 0 then fail (.unalignedKernelTextOffset offset)
        else (okOr (.kernelOffsetOverflow offset) (checkedAdd RAM offset)).bind fun entry =>
          (mibBytes mib).bind fun bytes => Layout.place bytes entry imageSize kernel.length initrdLen

/-- A header that can be booted: little endian, with a size and a text offset. -/
structure Bootable (kernel : List UInt8) (imageSize offset : Nat) : Prop where
  header : 64 ≤ kernel.length
  magic : (kernel.drop 56).take 4 = magic
  size : word kernel 16 = .ok imageSize
  filled : imageSize ≠ 0
  little : ∃ flags, word kernel 24 = .ok flags ∧ flags &&& 1 = 0
  text : word kernel 8 = .ok offset
  aligned : 4096 ∣ offset

/-- A placement at the top of RAM: the kernel, the initial RAM disk and the device
tree one after another, without overlap. -/
structure Placement (bytes entry room initrdLen : Nat) (l : Layout) : Prop where
  size : l.size = bytes
  entry : l.entry = entry
  kernel : l.entry + room ≤ l.initrd
  aligned : 65536 ∣ l.initrd
  ramdisk : l.initrd + initrdLen ≤ l.dtb
  top : l.dtb + 0x200000 = RAM + l.size

theorem bind_panic {α β : Type} {x : Result α} {f : α → Result β} {p : Panic} (panicked : x.bind f = .error (.panic p)) :
    x = .error (.panic p) ∨ ∃ a, x = .ok a ∧ f a = .error (.panic p) := by
  cases x with
  | error e =>
    cases panicked
    exact Or.inl rfl
  | ok a => exact Or.inr ⟨a,rfl,panicked⟩

theorem okOr_panic {α : Type} {e : BootError} {o : Option α} {p : Panic} : okOr e o ≠ .error (.panic p) := by
  cases o <;> simp [okOr,fail]

theorem okOr_eq_ok {α : Type} {e : BootError} {o : Option α} {a : α} : okOr e o = .ok a ↔ o = some a := by
  cases o <;> simp [okOr,fail]

theorem checkedSub_eq_some {a b c : Nat} : checkedSub a b = some c ↔ b ≤ a ∧ c = a - b := by
  unfold checkedSub
  split <;> simp [*,eq_comm]

theorem mibBytes_eq_ok {mib bytes : Nat} : mibBytes mib = .ok bytes ↔ MIB * mib < 2^64 ∧ bytes = MIB * mib :=
  okOr_eq_ok.trans checkedMul_eq_some

theorem word_eq_ok {kernel : List UInt8} {p : Nat} (inside : p + 8 ≤ kernel.length) :
    word kernel p = .ok (fromLeBytes ((kernel.drop p).take 8)) := if_pos inside

/-- The mask clears the low sixteen bits. -/
theorem aligned_down {n : Nat} (small : n < 2^64) : n &&& (2^64 - 1 - 0xffff) = 65536 * (n / 65536) := by
  have mask : 2^64 - 1 - 0xffff = (2^48 - 1) <<< 16 := by decide
  refine Nat.eq_of_testBit_eq fun i => ?_
  rw [mask,Nat.testBit_and,Nat.testBit_shiftLeft,Nat.testBit_two_pow_sub_one,show 65536 = 2^16 by rfl,
    Nat.testBit_two_pow_mul,Nat.testBit_div_two_pow]
  by_cases low : 16 ≤ i
  · by_cases high : i < 64
    · simp [low,show i - 16 < 48 by omega,show i - 16 + 16 = i by omega]
    · have none : n.testBit i = false :=
        Nat.testBit_lt_two_pow (small.trans_le (Nat.pow_le_pow_right (by decide) (not_lt.mp high)))
      simp [low,none,show i - 16 + 16 = i by omega]
  · simp [low]

theorem place_panics {bytes entry imageSize kernelLen initrdLen : Nat} {p : Panic} (low : 128 * MIB ≤ bytes) :
    Layout.place bytes entry imageSize kernelLen initrdLen ≠ .error (.panic p) := by
  intro panicked
  unfold Layout.place at panicked
  split at panicked
  · cases panicked
  · rcases bind_panic panicked with asked | ⟨stop,added,panicked⟩
    · exact okOr_panic asked
    · obtain ⟨_,rfl⟩ := checkedAdd_eq_some.mp (okOr_eq_ok.mp added)
      have room : 0x200000 ≤ RAM + bytes := le_trans (by decide) (Nat.add_le_add_left low RAM)
      rcases bind_panic panicked with asked | ⟨dtb,_,panicked⟩
      · rw [minus,if_pos room] at asked
        cases asked
      · rcases bind_panic panicked with asked | ⟨free,_,panicked⟩
        · exact okOr_panic asked
        · rcases bind_panic panicked with asked | ⟨kernelEnd,_,panicked⟩
          · exact okOr_panic asked
          · split at panicked
            · cases panicked
            · cases panicked

/-- A layout is placed where the device tree ends with RAM and the RAM disk lies as
high below it as its alignment lets it. -/
theorem place_eq_ok {bytes entry imageSize kernelLen initrdLen : Nat} {l : Layout} (low : 128 * MIB ≤ bytes)
    (above : RAM ≤ entry) : Layout.place bytes entry imageSize kernelLen initrdLen = .ok l ↔
      bytes < 2^63 ∧ initrdLen ≤ RAM + bytes - 0x200000 ∧
      entry + max imageSize kernelLen ≤ 65536 * ((RAM + bytes - 0x200000 - initrdLen) / 65536) ∧
      l = ⟨bytes,entry,65536 * ((RAM + bytes - 0x200000 - initrdLen) / 65536),RAM + bytes - 0x200000⟩ := by
  have room : 0x200000 ≤ RAM + bytes := le_trans (by decide) (Nat.add_le_add_left low RAM)
  constructor
  · intro made
    unfold Layout.place at made
    split at made
    · cases made
    · rename_i fits
      obtain ⟨stop,added,made⟩ := bind_eq_ok.mp made
      obtain ⟨bounded,rfl⟩ := checkedAdd_eq_some.mp (okOr_eq_ok.mp added)
      rw [minus,if_pos room] at made
      obtain ⟨dtb,same,made⟩ := bind_eq_ok.mp made
      rw [← Except.ok.inj same] at made
      obtain ⟨free,taken,made⟩ := bind_eq_ok.mp made
      obtain ⟨ramdisk,rfl⟩ := checkedSub_eq_some.mp (okOr_eq_ok.mp taken)
      obtain ⟨kernelEnd,summed,made⟩ := bind_eq_ok.mp made
      obtain ⟨_,rfl⟩ := checkedAdd_eq_some.mp (okOr_eq_ok.mp summed)
      rw [aligned_down (by omega)] at made
      split at made
      · cases made
      · rename_i beside
        exact ⟨by omega,ramdisk,(not_not.mp beside).2,(Except.ok.inj made).symm⟩
  · rintro ⟨bounded,ramdisk,beside,rfl⟩
    have ends : RAM + bytes < 2^64 := by
      have base : RAM < 2^63 := by decide
      omega
    have summed : entry + max imageSize kernelLen < 2^64 := by omega
    unfold Layout.place
    rw [if_neg (by omega),checkedAdd_eq_some.mpr ⟨ends,rfl⟩]
    refine bind_eq_ok.mpr ⟨_,rfl,?_⟩
    rw [minus,if_pos room]
    refine bind_eq_ok.mpr ⟨_,rfl,?_⟩
    rw [checkedSub_eq_some.mpr ⟨ramdisk,rfl⟩]
    refine bind_eq_ok.mpr ⟨_,rfl,?_⟩
    rw [checkedAdd_eq_some.mpr ⟨summed,rfl⟩,aligned_down (by omega)]
    refine bind_eq_ok.mpr ⟨_,rfl,?_⟩
    rw [if_neg (by omega)]

theorem header_word {kernel : List UInt8} (header : 64 ≤ kernel.length) {p : Nat} (low : p ≤ 56) :
    word kernel p = .ok (fromLeBytes ((kernel.drop p).take 8)) :=
  word_eq_ok (le_trans (Nat.add_le_add_right low 8) header)

theorem enough_bytes {mib : Nat} (enough : 128 ≤ mib) : 128 * MIB ≤ MIB * mib := by
  rw [Nat.mul_comm]
  exact Nat.mul_le_mul_left MIB enough

theorem new_panics (mib : Nat) (kernel : List UInt8) (initrdLen : Nat) (p : Panic) :
    Layout.new mib kernel initrdLen ≠ .error (.panic p) := by
  intro panicked
  unfold Layout.new at panicked
  split at panicked
  · cases panicked
  · rename_i enough
    split at panicked
    · cases panicked
    · rename_i image
      obtain ⟨header,_⟩ := not_not.mp image
      rw [header_word header (by decide),header_word header (by decide),header_word header (by decide)] at panicked
      rcases bind_panic panicked with asked | ⟨imageSize,_,panicked⟩
      · cases asked
      · split at panicked
        · cases panicked
        · rcases bind_panic panicked with asked | ⟨flags,_,panicked⟩
          · cases asked
          · split at panicked
            · cases panicked
            · rcases bind_panic panicked with asked | ⟨offset,_,panicked⟩
              · cases asked
              · split at panicked
                · cases panicked
                · rcases bind_panic panicked with asked | ⟨entry,_,panicked⟩
                  · exact okOr_panic asked
                  · rcases bind_panic panicked with asked | ⟨bytes,sized,panicked⟩
                    · exact okOr_panic asked
                    · obtain ⟨_,rfl⟩ := mibBytes_eq_ok.mp sized
                      exact place_panics (enough_bytes (not_lt.mp enough)) panicked

/-- The checks of `Layout::new`, in terms of the header. -/
theorem new_eq_ok {mib : Nat} {kernel : List UInt8} {initrdLen : Nat} {l : Layout} :
    Layout.new mib kernel initrdLen = .ok l ↔ 128 ≤ mib ∧ MIB * mib < 2^64 ∧
      ∃ imageSize offset, Bootable kernel imageSize offset ∧ RAM + offset < 2^64 ∧
        Layout.place (MIB * mib) (RAM + offset) imageSize kernel.length initrdLen = .ok l := by
  constructor
  · intro made
    unfold Layout.new at made
    split at made
    · cases made
    · rename_i enough
      split at made
      · cases made
      · rename_i image
        obtain ⟨header,magic⟩ := not_not.mp image
        obtain ⟨imageSize,size,made⟩ := bind_eq_ok.mp made
        split at made
        · cases made
        · rename_i filled
          obtain ⟨flags,read,made⟩ := bind_eq_ok.mp made
          split at made
          · cases made
          · rename_i little
            obtain ⟨offset,text,made⟩ := bind_eq_ok.mp made
            split at made
            · cases made
            · rename_i aligned
              obtain ⟨entry,summed,made⟩ := bind_eq_ok.mp made
              obtain ⟨bounded,rfl⟩ := checkedAdd_eq_some.mp (okOr_eq_ok.mp summed)
              obtain ⟨bytes,sized,made⟩ := bind_eq_ok.mp made
              obtain ⟨fits,rfl⟩ := mibBytes_eq_ok.mp sized
              exact ⟨not_lt.mp enough,fits,imageSize,offset,⟨header,magic,size,filled,⟨flags,read,not_not.mp little⟩,
                text,Nat.dvd_of_mod_eq_zero (not_not.mp aligned)⟩,bounded,made⟩
  · rintro ⟨enough,fits,imageSize,offset,bootable,bounded,made⟩
    obtain ⟨flags,read,little⟩ := bootable.little
    unfold Layout.new
    rw [if_neg (not_lt.mpr enough),if_neg (not_not.mpr ⟨bootable.header,bootable.magic⟩)]
    refine bind_eq_ok.mpr ⟨_,bootable.size,?_⟩
    rw [if_neg bootable.filled]
    refine bind_eq_ok.mpr ⟨_,read,?_⟩
    rw [if_neg (not_not.mpr little)]
    refine bind_eq_ok.mpr ⟨_,bootable.text,?_⟩
    rw [if_neg (not_not.mpr (Nat.mod_eq_zero_of_dvd bootable.aligned))]
    refine bind_eq_ok.mpr ⟨_,okOr_eq_ok.mpr (checkedAdd_eq_some.mpr ⟨bounded,rfl⟩),?_⟩
    exact bind_eq_ok.mpr ⟨_,mibBytes_eq_ok.mpr ⟨fits,rfl⟩,made⟩

/-- `Layout::new` does not panic, places nothing over anything else, and finds a
placement for every kernel that can be booted and has one. -/
theorem new_places (mib : Nat) (kernel : List UInt8) (initrdLen : Nat) :
    (∀ p, Layout.new mib kernel initrdLen ≠ .error (.panic p)) ∧
    (∀ l, Layout.new mib kernel initrdLen = .ok l → ∃ imageSize offset, Bootable kernel imageSize offset ∧
      RAM ≤ l.entry ∧ Placement (MIB * mib) (RAM + offset) (max imageSize kernel.length) initrdLen l) ∧
    ∀ imageSize offset, Bootable kernel imageSize offset → 128 ≤ mib → MIB * mib < 2^63 →
      (∃ l, Placement (MIB * mib) (RAM + offset) (max imageSize kernel.length) initrdLen l) →
      ∃ l, Layout.new mib kernel initrdLen = .ok l := by
  refine ⟨new_panics mib kernel initrdLen,?_,?_⟩
  · intro l made
    obtain ⟨enough,_,imageSize,offset,bootable,_,placed⟩ := new_eq_ok.mp made
    have low := enough_bytes enough
    obtain ⟨_,ramdisk,beside,rfl⟩ := (place_eq_ok low (Nat.le_add_right RAM offset)).mp placed
    have below := Nat.mul_div_le (RAM + MIB * mib - 0x200000 - initrdLen) 65536
    have room : 0x200000 ≤ RAM + MIB * mib := le_trans (by decide) (Nat.add_le_add_left low RAM)
    refine ⟨imageSize,offset,bootable,Nat.le_add_right RAM offset,rfl,rfl,beside,Nat.dvd_mul_right _ _,?_,?_⟩
    · exact (Nat.add_le_add_right below _).trans_eq (Nat.sub_add_cancel ramdisk)
    · exact Nat.sub_add_cancel room
  · rintro imageSize offset bootable enough fits ⟨l,placement⟩
    have low := enough_bytes enough
    have base : RAM < 2^63 := by decide
    obtain ⟨start,aligned⟩ := placement.aligned
    have top := placement.top
    have ramdisk := placement.ramdisk
    have beside := placement.kernel
    rw [placement.size] at top
    rw [placement.entry] at beside
    refine ⟨_,new_eq_ok.mpr ⟨enough,by omega,imageSize,offset,bootable,by omega,
      (place_eq_ok low (Nat.le_add_right RAM offset)).mpr ⟨fits,by omega,?_,rfl⟩⟩⟩
    -- A lower aligned place for the RAM disk leaves less room for the kernel.
    have highest : l.initrd ≤ 65536 * ((RAM + MIB * mib - 0x200000 - initrdLen) / 65536) := by
      rw [aligned]
      exact Nat.mul_le_mul_left _ ((Nat.le_div_iff_mul_le (by decide)).mpr (by omega))
    exact beside.trans highest

structure VirtioRegion where
  address : Nat
  irq : Nat
deriving DecidableEq

def virtioRegion (i : Nat) : Result VirtioRegion :=
  (exact 64 (VIRTIO_BASE + i * VIRTIO_STRIDE)).bind fun address =>
    (exact 32 (VIRTIO_IRQ_BASE + i)).map fun irq => ⟨address,irq⟩

def virtioRegions (count : Nat) : Result (List VirtioRegion) :=
  if count > 1020 - VIRTIO_IRQ_BASE then fail (.tooManyVirtioDevicesForGicSpis count)
  else (List.range count).mapM virtioRegion

theorem virtioRegion_ok {i : Nat} (few : i < 986) :
    virtioRegion i = .ok ⟨VIRTIO_BASE + i * VIRTIO_STRIDE,VIRTIO_IRQ_BASE + i⟩ := by
  have address : VIRTIO_BASE + i * VIRTIO_STRIDE < 2^64 := by
    simp only [VIRTIO_BASE,VIRTIO_STRIDE]
    omega
  have irq : VIRTIO_IRQ_BASE + i < 2^32 := by
    simp only [VIRTIO_IRQ_BASE]
    omega
  rw [virtioRegion,exact,exact,if_pos address,if_pos irq]
  rfl

theorem mapM_ok {α β : Type} {f : α → Result β} {g : α → β} (xs : List α) (each : ∀ x ∈ xs, f x = .ok (g x)) :
    xs.mapM f = .ok (xs.map g) := by
  induction xs with
  | nil => rfl
  | cons x rest ih =>
    rw [List.mapM_cons,each x List.mem_cons_self,ih (fun y later => each y (List.mem_cons_of_mem x later))]
    rfl

/-- Few enough devices get a window each, one after another. -/
theorem virtioRegions_run (count : Nat) : virtioRegions count =
    if count > 986 then fail (.tooManyVirtioDevicesForGicSpis count)
    else .ok ((List.range count).map fun i => ⟨VIRTIO_BASE + i * VIRTIO_STRIDE,VIRTIO_IRQ_BASE + i⟩) := by
  have limit : 1020 - VIRTIO_IRQ_BASE = 986 := rfl
  rw [virtioRegions,limit]
  split
  · rfl
  · rename_i few
    exact mapM_ok _ fun i member => virtioRegion_ok (Nat.lt_of_lt_of_le (List.mem_range.mp member) (not_lt.mp few))

theorem validateIpaRange_eq_ok {start size bits : Nat} : validateIpaRange start size bits = .ok () ↔
    (1 ≤ bits ∧ bits ≤ 64) ∧ start + size < 2^64 ∧ (bits = 64 ∨ start + size ≤ 2^bits) := by
  constructor
  · intro accepted
    unfold validateIpaRange at accepted
    split at accepted
    · cases accepted
    · rename_i width
      split at accepted
      · cases accepted
      · rename_i stop added
        obtain ⟨fits,rfl⟩ := checkedAdd_eq_some.mp added
        split at accepted
        · cases accepted
        · rename_i within
          exact ⟨not_not.mp width,fits,not_not.mp within⟩
  · rintro ⟨width,fits,within⟩
    unfold validateIpaRange
    rw [if_neg (not_not.mpr width),checkedAdd_eq_some.mpr ⟨fits,rfl⟩]
    exact if_neg (not_not.mpr within)

end WVmm.Platform.Boot
