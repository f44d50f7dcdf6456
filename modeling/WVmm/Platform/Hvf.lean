import WVmm.Platform.Boot
import WVmm.Platform.WellFormed
import WVmm.Devices.MemoryRuns

/-! The layout of the built-in platform, and that everything it lays out passes the
checks that are made of any layout. -/
namespace WVmm.Platform.Hvf
open Devices Boot

structure Host where
  maxVcpus : Except PlatformError Nat
  ipaBits : Except PlatformError Nat

abbrev Outcome (α : Type) := Except (Failure PlatformError) α

variable {α β : Type}

def fromBoot (r : Boot.Result α) : Outcome α := r.mapError (Failure.convert fun e => .boot ⟨e.text⟩)

def ofBoot (r : Except BootError α) : Except PlatformError α := r.mapError fun e => .boot ⟨e.text⟩

def fromHost (r : Except PlatformError α) : Outcome α := r.mapError .error

def checkedNextMultipleOf (a b : Nat) : Option Nat :=
  if b = 0 then none else if a % b = 0 then some a else checkedAdd a (b - a % b)

/-- The region for dynamic memory, above RAM. -/
def placeHotplug (ram : MemoryRange) : Option MemoryRequirement → Outcome (Option MemoryRange)
  | none => .ok none
  | some n => match (checkedAdd ram.address ram.size).bind (checkedNextMultipleOf · n.alignment) with
    | some address => .ok (some ⟨address,n.capacity⟩)
    | none => .error (.error .hotplugOverflow)

def checkRanges (host : Host) : List MemoryRange → Outcome Unit
  | [] => .ok ()
  | r::rest => (fromHost host.ipaBits).bind fun bits =>
    (fromHost (ofBoot (validateIpaRange r.address r.size bits))).bind fun _ => checkRanges host rest

def layout (host : Host) (kernel : List UInt8) (initrdLen : Nat) (config : VmConfig) (devices : DeviceRequirements) :
    Outcome MachineLayout :=
  (fromBoot (Layout.new config.memoryMib kernel initrdLen)).bind fun boot =>
    (fromHost host.maxVcpus).bind fun most =>
      if ¬(1 ≤ config.vcpuCount ∧ config.vcpuCount ≤ most) then .error (.error .unsupportedVcpuCount)
      else
        let ram : MemoryRange := ⟨RAM,boot.size⟩
        (placeHotplug ram devices.hotplug).bind fun hotplug =>
          (checkRanges host (ram :: hotplug.toList)).bind fun _ =>
            (fromBoot (virtioRegions devices.devices.length)).map fun regions => {
              ram := [ram]
              hotplug := hotplug
              uart := ⟨.mmio,UART,UART_SIZE,UART_IRQ⟩
              virtio := regions.map fun r => ⟨.mmio,r.address,VIRTIO_STRIDE,r.irq⟩ }

theorem fromBoot_eq_ok {r : Boot.Result α} {a : α} : fromBoot r = .ok a ↔ r = .ok a := by
  cases r <;> simp [fromBoot,Except.mapError]

theorem fromBoot_panic {r : Boot.Result α} {p : Panic} (panicked : fromBoot r = .error (.panic p)) :
    r = .error (.panic p) := by
  cases r with
  | ok a => cases panicked
  | error e => cases e with
    | error e => cases panicked
    | panic q =>
      cases panicked
      rfl

theorem fromHost_eq_ok {r : Except PlatformError α} {a : α} : fromHost r = .ok a ↔ r = .ok a := by
  cases r <;> simp [fromHost,Except.mapError]

theorem ofBoot_eq_ok {r : Except BootError α} {a : α} : ofBoot r = .ok a ↔ r = .ok a := by
  cases r <;> simp [ofBoot,Except.mapError]

theorem fromHost_panic {r : Except PlatformError α} {p : Panic} : fromHost r ≠ .error (.panic p) := by
  cases r <;> simp [fromHost,Except.mapError]

theorem bind_panics {x : Outcome α} {f : α → Outcome β} {p : Panic} (panicked : x.bind f = .error (.panic p)) :
    x = .error (.panic p) ∨ ∃ a, x = .ok a ∧ f a = .error (.panic p) := by
  cases x with
  | error e =>
    cases panicked
    exact Or.inl rfl
  | ok a => exact Or.inr ⟨a,rfl,panicked⟩

theorem placeHotplug_panic {ram : MemoryRange} {n : Option MemoryRequirement} {p : Panic} :
    placeHotplug ram n ≠ .error (.panic p) := by
  cases n with
  | none => nofun
  | some n =>
    unfold placeHotplug
    dsimp only
    split <;> nofun

theorem checkRanges_panic {host : Host} {ranges : List MemoryRange} {p : Panic} :
    checkRanges host ranges ≠ .error (.panic p) := by
  induction ranges with
  | nil => nofun
  | cons r rest ih =>
    intro panicked
    rcases bind_panics panicked with asked | ⟨bits,_,panicked⟩
    · exact fromHost_panic asked
    · rcases bind_panics panicked with asked | ⟨_,_,panicked⟩
      · exact fromHost_panic asked
      · exact ih panicked

/-- Nothing overflows on the way to a layout, and nothing else panics. -/
theorem layout_panic (host : Host) (kernel : List UInt8) (initrdLen : Nat) (config : VmConfig)
    (devices : DeviceRequirements) (p : Panic) : layout host kernel initrdLen config devices ≠ .error (.panic p) := by
  intro panicked
  rcases bind_panics panicked with asked | ⟨boot,_,panicked⟩
  · exact new_panics _ _ _ p (fromBoot_panic asked)
  · rcases bind_panics panicked with asked | ⟨most,_,panicked⟩
    · exact fromHost_panic asked
    · split at panicked
      · cases panicked
      · rcases bind_panics panicked with asked | ⟨hotplug,_,panicked⟩
        · exact placeHotplug_panic asked
        · rcases bind_panics panicked with asked | ⟨_,_,panicked⟩
          · exact checkRanges_panic asked
          · cases regions : fromBoot (virtioRegions devices.devices.length) with
            | ok rs =>
              rw [regions] at panicked
              cases panicked
            | error e =>
              rw [regions] at panicked
              cases panicked
              have asked := fromBoot_panic regions
              rw [virtioRegions_run] at asked
              split at asked <;> cases asked

theorem checkedNextMultipleOf_eq_some {a b c : Nat} (found : checkedNextMultipleOf a b = some c) : b ∣ c ∧ a ≤ c := by
  unfold checkedNextMultipleOf at found
  split at found
  · cases found
  · rename_i positive
    split at found
    · rename_i multiple
      cases found
      exact ⟨Nat.dvd_of_mod_eq_zero multiple,le_rfl⟩
    · obtain ⟨_,rfl⟩ := checkedAdd_eq_some.mp found
      refine ⟨⟨a / b + 1,?_⟩,Nat.le_add_right _ _⟩
      have below := Nat.mod_lt a (Nat.pos_of_ne_zero positive)
      have whole := Nat.div_add_mod a b
      rw [Nat.mul_add,Nat.mul_one]
      omega

/-- A region for dynamic memory is there if one is asked for: as large as asked,
aligned, and above RAM. -/
theorem placeHotplug_accepts {ram : MemoryRange} {n : Option MemoryRequirement} {hotplug : Option MemoryRange}
    (placed : placeHotplug ram n = .ok hotplug) :
    Meant hotplug n ∧ ∀ h, hotplug = some h → ram.address + ram.size ≤ h.address := by
  cases n with
  | none =>
    cases placed
    exact ⟨⟨fun _ => rfl,nofun⟩,nofun⟩
  | some n =>
    unfold placeHotplug at placed
    dsimp only at placed
    split at placed
    · rename_i address found
      obtain ⟨stop,added,found⟩ := Option.bind_eq_some_iff.mp found
      obtain ⟨_,rfl⟩ := checkedAdd_eq_some.mp added
      obtain ⟨aligned,above⟩ := checkedNextMultipleOf_eq_some found
      cases placed
      refine ⟨⟨nofun,?_⟩,?_⟩
      · intro m same
        cases same
        exact ⟨_,rfl,rfl,aligned⟩
      · intro h same
        cases same
        exact above
    · cases placed

theorem checkRanges_accepts {host : Host} {ranges : List MemoryRange} {bits : Nat} (reported : host.ipaBits = .ok bits)
    (checked : checkRanges host ranges = .ok ()) :
    ∀ r ∈ ranges, bits ≤ 64 ∧ 1 ≤ bits ∧ r.address + r.size < 2^64 ∧ r.address + r.size ≤ 2^bits := by
  induction ranges with
  | nil => nofun
  | cons r rest ih =>
    obtain ⟨found,asked,checked⟩ := bind_eq_ok.mp checked
    cases reported.symm.trans (fromHost_eq_ok.mp asked)
    obtain ⟨_,first,others⟩ := bind_eq_ok.mp checked
    obtain ⟨⟨low,high⟩,fits,within⟩ := validateIpaRange_eq_ok.mp (ofBoot_eq_ok.mp (fromHost_eq_ok.mp first))
    refine List.forall_mem_cons.mpr ⟨⟨high,low,fits,?_⟩,ih others⟩
    rcases within with rfl | within
    · exact fits.le
    · exact within

theorem layout_accepts {host : Host} {kernel : List UInt8} {initrdLen : Nat} {config : VmConfig}
    {devices : DeviceRequirements} {l : MachineLayout} (made : layout host kernel initrdLen config devices = .ok l) :
    128 ≤ config.memoryMib ∧ 1 ≤ config.vcpuCount ∧ devices.devices.length ≤ 986 ∧ l.ram = [⟨RAM,MIB * config.memoryMib⟩] ∧
      l.uart = ⟨.mmio,UART,UART_SIZE,UART_IRQ⟩ ∧
      l.virtio = (List.range devices.devices.length).map
        (fun i => ⟨.mmio,VIRTIO_BASE + i * VIRTIO_STRIDE,VIRTIO_STRIDE,VIRTIO_IRQ_BASE + i⟩) ∧
      (Meant l.hotplug devices.hotplug ∧ ∀ h, l.hotplug = some h → RAM + MIB * config.memoryMib ≤ h.address) ∧
      ∃ bits, host.ipaBits = .ok bits ∧ ∀ r ∈ l.ram ++ l.hotplug.toList,
        bits ≤ 64 ∧ 1 ≤ bits ∧ r.address + r.size < 2^64 ∧ r.address + r.size ≤ 2^bits := by
  obtain ⟨boot,booted,made⟩ := bind_eq_ok.mp made
  obtain ⟨enough,_,imageSize,offset,_,_,placed⟩ := new_eq_ok.mp (fromBoot_eq_ok.mp booted)
  obtain ⟨_,_,_,rfl⟩ := (place_eq_ok (enough_bytes enough) (Nat.le_add_right RAM offset)).mp placed
  obtain ⟨most,_,made⟩ := bind_eq_ok.mp made
  split at made
  · cases made
  · rename_i count
    obtain ⟨hotplug,found,made⟩ := bind_eq_ok.mp made
    obtain ⟨_,checked,made⟩ := bind_eq_ok.mp made
    obtain ⟨regions,windows,rfl⟩ := map_eq_ok.mp made
    have listed := fromBoot_eq_ok.mp windows
    rw [virtioRegions_run] at listed
    split at listed
    · cases listed
    · rename_i few
      cases listed
      obtain ⟨bits,reported⟩ : ∃ bits, host.ipaBits = .ok bits := by
        obtain ⟨bits,asked,_⟩ := bind_eq_ok.mp checked
        exact ⟨bits,fromHost_eq_ok.mp asked⟩
      refine ⟨enough,(not_not.mp count).1,not_lt.mp few,rfl,rfl,?_,placeHotplug_accepts found,bits,reported,
        checkRanges_accepts reported checked⟩
      rw [List.map_map]
      rfl

/-- The windows lie one after another, between the UART and the redistributor. -/
theorem windows_within {count : Nat} (few : count ≤ 986) {d : Declared}
    (member : d ∈ windowRanges ((List.range count).map
      fun i => ⟨.mmio,VIRTIO_BASE + i * VIRTIO_STRIDE,VIRTIO_STRIDE,VIRTIO_IRQ_BASE + i⟩)) :
    d.space = .mmio ∧ d.size = VIRTIO_STRIDE ∧ UART + UART_SIZE ≤ d.address ∧ d.stop ≤ GIC_REDIST := by
  rw [windowRanges,List.map_map] at member
  obtain ⟨i,inside,rfl⟩ := List.mem_map.mp member
  have below := List.mem_range.mp inside
  refine ⟨rfl,rfl,?_,?_⟩
  · simp only [Function.comp_apply,UART,UART_SIZE,VIRTIO_BASE]
    omega
  · simp only [Function.comp_apply,Declared.stop,VIRTIO_BASE,VIRTIO_STRIDE,GIC_REDIST]
    omega

theorem windows_apart (count : Nat) : (windowRanges ((List.range count).map
    fun i => ⟨.mmio,VIRTIO_BASE + i * VIRTIO_STRIDE,VIRTIO_STRIDE,VIRTIO_IRQ_BASE + i⟩)).Pairwise
      fun r d => Disjoint r.places d.places := by
  rw [windowRanges,List.map_map,List.pairwise_map]
  refine List.pairwise_lt_range.imp fun before => Declared.disjoint_of_le (Or.inl ?_)
  simp only [Function.comp_apply,Declared.stop,VIRTIO_BASE,VIRTIO_STRIDE]
  omega

/-- The layout of the platform is well formed, if a region asked for holds something. -/
theorem layout_formed {host : Host} {kernel : List UInt8} {initrdLen : Nat} {config : VmConfig}
    {devices : DeviceRequirements} {l : MachineLayout} (made : layout host kernel initrdLen config devices = .ok l)
    (filled : ∀ n, devices.hotplug = some n → 0 < n.capacity) : WellFormed l config devices := by
  obtain ⟨enough,count,few,ram,uart,virtio,⟨meant,above⟩,bits,_,ranges⟩ := layout_accepts made
  have size : 0 < MIB * config.memoryMib := Nat.mul_pos (by decide) (by omega)
  have uartEnd : UART + UART_SIZE ≤ RAM := by decide
  have redist : GIC_REDIST ≤ RAM := by decide
  -- Memory lies above every window.
  have high : ∀ d ∈ ramRanges l.hotplug.toList, RAM + MIB * config.memoryMib ≤ d.address ∧ d.Fits := by
    intro d member
    obtain ⟨h,there,rfl⟩ := List.mem_map.mp member
    have found := Option.mem_toList.mp there
    obtain ⟨_,_,fits,_⟩ := ranges h (List.mem_append_right _ there)
    refine ⟨above h found,?_,fits,nofun⟩
    cases asked : devices.hotplug with
    | none =>
      rw [meant.1 asked] at found
      cases found
    | some n =>
      obtain ⟨h',same,capacity,_⟩ := meant.2 n asked
      cases same.symm.trans found
      exact (filled n asked).trans_eq capacity.symm
  have middle : ∀ d ∈ windowRanges l.virtio, d.space = .mmio ∧ d.size = VIRTIO_STRIDE ∧
      UART + UART_SIZE ≤ d.address ∧ d.stop ≤ GIC_REDIST := fun d member => windows_within few (virtio ▸ member)
  have base : (⟨.mmio,RAM,MIB * config.memoryMib⟩ : Declared).Fits := by
    have member : (⟨RAM,MIB * config.memoryMib⟩ : MemoryRange) ∈ l.ram ++ l.hotplug.toList := by
      rw [ram]
      exact List.mem_cons_self
    exact ⟨size,(ranges _ member).2.2.1,nofun⟩
  have declared : l.declared = [⟨.mmio,RAM,MIB * config.memoryMib⟩] ++ ([⟨.mmio,UART,UART_SIZE⟩] ++
      (windowRanges l.virtio ++ ramRanges l.hotplug.toList)) := by
    rw [MachineLayout.declared,ram,uart]
    rfl
  refine ⟨count,by simp [ram],by simp [virtio],by rw [uart]; decide,?_,?_,?_,meant,?_⟩
  · rw [declared]
    simp only [List.forall_mem_append,List.forall_mem_singleton]
    refine ⟨base,⟨by decide,by decide,nofun⟩,?_,fun d member => (high d member).2⟩
    intro d member
    obtain ⟨space,size,_,below⟩ := middle d member
    refine ⟨size ▸ by decide,below.trans_lt (by decide),?_⟩
    rw [space]
    nofun
  · intro r member
    rw [virtio] at member
    obtain ⟨i,_,rfl⟩ := List.mem_map.mp member
    exact ⟨rfl,show 0x200 ≤ VIRTIO_STRIDE by decide⟩
  · rw [ram]
    simp [MIB,Nat.mul_comm]
  · rw [declared]
    refine List.pairwise_append.mpr ⟨List.pairwise_singleton _ _,?_,?_⟩
    · refine List.pairwise_append.mpr ⟨List.pairwise_singleton _ _,?_,?_⟩
      · refine List.pairwise_append.mpr ⟨virtio ▸ windows_apart _,?_,?_⟩
        · cases l.hotplug with
          | none => exact .nil
          | some h => exact List.pairwise_singleton _ _
        · intro w window d member
          have := (middle w window).2.2.2
          have := (high d member).1
          exact Declared.disjoint_of_le (Or.inl (by omega))
      · intro u there d member
        obtain rfl := List.mem_singleton.mp there
        refine Declared.disjoint_of_le (Or.inl ?_)
        rcases List.mem_append.mp member with window | memory
        · exact (middle d window).2.2.1
        · have := (high d memory).1
          simp only [Declared.stop]
          omega
    · intro m there d member
      obtain rfl := List.mem_singleton.mp there
      refine Declared.disjoint_of_le ?_
      rcases List.mem_append.mp member with serial | member
      · obtain rfl := List.mem_singleton.mp serial
        exact Or.inr uartEnd
      · rcases List.mem_append.mp member with window | memory
        · exact Or.inr ((middle d window).2.2.2.trans redist)
        · exact Or.inl (high d memory).1

def needs (devices : List DeviceKind) (memory : Option VirtioMem) (status : MemoryStatus) : DeviceRequirements where
  devices := devices
  hotplug := memory.map fun d => ⟨wrappingMul status.regionSizeMib MIB,d.alignment⟩

/-- A memory device as `new` makes it, after targets of the host. -/
def Accepted (d : VirtioMem) (status : MemoryStatus) : Prop :=
  ∃ (regionSizeMib blockSizeMib : Nat) (targets : List Nat) (first : MemoryStatus),
    VirtioMem.new regionSizeMib blockSizeMib = .ok (d,first) ∧ status = targets.foldl MemoryStatus.afterRequest first

/-- A device is not made without a region. -/
theorem new_filled {regionSizeMib blockSizeMib : Nat} {made : VirtioMem × MemoryStatus}
    (new : VirtioMem.new regionSizeMib blockSizeMib = .ok made) : 0 < made.1.capacity := by
  unfold VirtioMem.new at new
  split at new
  · cases new
  · obtain ⟨blockSize,_,new⟩ := bind_eq_ok.mp new
    obtain ⟨capacity,_,new⟩ := bind_eq_ok.mp new
    dsimp only at new
    split at new
    · cases new
    · rename_i fits
      cases new
      exact Nat.pos_of_ne_zero (not_or.mp fits).1

theorem Accepted.sizes {d : VirtioMem} {status : MemoryStatus} (accepted : Accepted d status) :
    0 < d.capacity ∧ MIB * status.regionSizeMib < 2^64 ∧ d.capacity = MIB * status.regionSizeMib ∧
      status.requestedSizeMib ≤ status.regionSizeMib := by
  obtain ⟨region,block,targets,first,made,rfl⟩ := accepted
  have filled := new_filled made
  obtain ⟨_,bounded,_,rfl,rfl⟩ := VirtioMem.new_accepts made
  obtain ⟨n,same,_,within⟩ := VirtioMem.targets_accepted targets (MemoryStatus.new region block) (Nat.dvd_zero _)
    (Nat.zero_le _)
  rw [same]
  exact ⟨filled,bounded,rfl,within⟩

theorem attachAt_ok {d : VirtioMem} {status : MemoryStatus} {start : Nat} (aligned : start % d.alignment = 0)
    (fits : start + d.capacity < 2^64) (requested : MIB * status.requestedSizeMib < 2^64) :
    d.attachAt status start = .ok {d with start := start, requested := MIB * status.requestedSizeMib} := by
  rw [VirtioMem.attachAt,if_neg (not_not.mpr aligned),checkedAdd_eq_some.mpr ⟨fits,rfl⟩,if_neg (by simp),
    WVmm.mibBytes,checkedMul_eq_some.mpr ⟨requested,rfl⟩]
  rfl

/-- Whatever the built-in platform lays out is accepted by the checks of a layout and
by the memory device, lies within the guest's physical addresses, and keeps the
windows below the redistributor and RAM. Nothing overflows on the way. -/
theorem layout_valid (host : Host) (kernel : List UInt8) (initrdLen : Nat) (config : VmConfig)
    (devices : List DeviceKind) (memory : Option VirtioMem) (status : MemoryStatus)
    (accepted : ∀ d ∈ memory, Accepted d status) :
    (∀ d ∈ memory, MIB * status.regionSizeMib < 2^64) ∧
    (∀ p, layout host kernel initrdLen config (needs devices memory status) ≠ .error (.panic p)) ∧
    ∀ l, layout host kernel initrdLen config (needs devices memory status) = .ok l →
      l.validate config (needs devices memory status) = .ok () ∧
      (∀ d ∈ memory, ∃ h d', l.hotplug = some h ∧ d.attachAt status h.address = .ok d') ∧
      (∃ bits, host.ipaBits = .ok bits ∧ ∀ r ∈ l.ram ++ l.hotplug.toList,
        1 ≤ bits ∧ bits ≤ 64 ∧ r.address + r.size ≤ 2^bits) ∧
      ∀ r ∈ l.virtio, r.address + r.size ≤ GIC_REDIST ∧ ∀ m ∈ l.ram, r.address + r.size ≤ m.address := by
  refine ⟨fun d member => (accepted d member).sizes.2.1,layout_panic host kernel initrdLen config _,?_⟩
  intro l made
  obtain ⟨_,_,few,ram,_,virtio,⟨meant,_⟩,bits,reported,ranges⟩ := layout_accepts made
  have filled : ∀ n, (needs devices memory status).hotplug = some n → 0 < n.capacity := by
    intro n asked
    obtain ⟨d,member,rfl⟩ := Option.map_eq_some_iff.mp asked
    obtain ⟨positive,bounded,capacity,_⟩ := (accepted d member).sizes
    rw [capacity] at positive
    exact positive.trans_eq (Nat.mod_eq_of_lt bounded).symm
  refine ⟨validate_eq_ok.mpr (layout_formed made filled),?_,?_,?_⟩
  · rintro d rfl
    obtain ⟨_,bounded,capacity,within⟩ := (accepted d rfl).sizes
    obtain ⟨h,found,size,aligned⟩ := meant.2 ⟨wrappingMul status.regionSizeMib MIB,d.alignment⟩ rfl
    have fits := (ranges h (List.mem_append_right _ (Option.mem_toList.mpr found))).2.2.1
    have whole : h.size = d.capacity := size.trans ((Nat.mod_eq_of_lt bounded).trans capacity.symm)
    rw [whole] at fits
    have requested : MIB * status.requestedSizeMib < 2^64 := (Nat.mul_le_mul_left MIB within).trans_lt bounded
    exact ⟨h,_,found,attachAt_ok (Nat.mod_eq_zero_of_dvd aligned) fits requested⟩
  · exact ⟨bits,reported,fun r member => ⟨(ranges r member).2.1,(ranges r member).1,(ranges r member).2.2.2⟩⟩
  · intro r member
    have declared : (⟨r.space,r.address,r.size⟩ : Declared) ∈ windowRanges l.virtio := List.mem_map_of_mem member
    rw [virtio] at declared
    have window : r.address + r.size ≤ GIC_REDIST := (windows_within few declared).2.2.2
    refine ⟨window,fun m there => ?_⟩
    rw [ram] at there
    obtain rfl := List.mem_singleton.mp there
    exact window.trans (show GIC_REDIST ≤ RAM by decide)

/-- A header of a little-endian kernel of a few pages. -/
def smallKernel : List UInt8 :=
  List.replicate 16 0 ++ [0,0x40] ++ List.replicate 38 0 ++ magic ++ List.replicate 4 0

/-- With 512 MiB of RAM, two devices and 256 MiB of dynamic memory in blocks of 2 MiB. -/
theorem layout_valid_small : ∃ d status l,
    VirtioMem.new 256 2 = .ok (d,status) ∧
    layout ⟨.ok 8,.ok 36⟩ smallKernel 0x1000 ⟨512,2,false⟩ (needs [.net,.memory] (some d) status) = .ok l ∧
      l.validate ⟨512,2,false⟩ (needs [.net,.memory] (some d) status) = .ok () := by
  obtain ⟨d,status,made⟩ : ∃ d status, VirtioMem.new 256 2 = .ok (d,status) := ⟨_,_,rfl⟩
  have valid := layout_valid ⟨.ok 8,.ok 36⟩ smallKernel 0x1000 ⟨512,2,false⟩ [.net,.memory] (some d) status
    (by
      rintro _ ⟨⟩
      exact ⟨256,2,[],status,made,rfl⟩)
  obtain ⟨l,laid⟩ : ∃ l, layout ⟨.ok 8,.ok 36⟩ smallKernel 0x1000 ⟨512,2,false⟩
      (needs [.net,.memory] (some d) status) = .ok l := by
    cases made
    exact ⟨_,rfl⟩
  exact ⟨d,status,l,made,laid,(valid.2.2 l laid).1⟩

end WVmm.Platform.Hvf
