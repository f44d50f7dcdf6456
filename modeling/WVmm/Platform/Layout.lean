import WVmm.Platform.Machine

/-! What the runtime checks of a layout before it builds anything on it: every range
is filled and beside the others, and there is one window for each device. -/
namespace WVmm.Platform

structure Added where
  space : IoSpace
  start : Nat
  stop : Nat

def add (ranges : List Added) (space : IoSpace) (address size : Nat) : Except PlatformError (List Added) :=
  if size = 0 then .error .emptyRegion
  else match checkedAdd address size with
    | none => .error (.regionOverflow address size)
    | some stop =>
      if space = .port ∧ ¬stop ≤ 65536 then .error (.portRangeOverflow address size)
      else if ranges.any (fun r => r.space == space && decide (address < r.stop) && decide (r.start < stop)) then
        .error (.overlappingRegions address size)
      else .ok (ranges ++ [⟨space,address,stop⟩])

/-- Add the RAM ranges and their sizes; `usize` has 64 bits. -/
def addRam : List MemoryRange → Nat → List Added → Except PlatformError (Nat × List Added)
  | [], total, ranges => .ok (total,ranges)
  | r::rest, total, ranges =>
    match checkedAdd total r.size with
    | none => .error (.ramCapacityOverflow total r.size)
    | some total => (add ranges .mmio r.address r.size).bind (addRam rest total)

def addVirtio : List IoRegion → List Added → Except PlatformError (List Added)
  | [], ranges => .ok ranges
  | r::rest, ranges =>
    if ¬(r.space = .mmio ∧ r.size ≥ 0x200) then .error .invalidVirtioMmioRegion
    else (add ranges r.space r.address r.size).bind (addVirtio rest)

def addHotplug (ranges : List Added) : Option MemoryRange → Option MemoryRequirement → Except PlatformError Unit
  | some r, some n =>
    if ¬(r.size = n.capacity ∧ r.address % n.alignment = 0) then
      .error (.invalidHotplugCapacityAlignment r.address r.size n.capacity n.alignment)
    else (add ranges .mmio r.address r.size).map (fun _ => ())
  | none, none => .ok ()
  | _, _ => .error .hotplugLayoutMismatch

namespace MachineLayout

def validate (layout : MachineLayout) (config : VmConfig) (needs : DeviceRequirements) :
    Except PlatformError Unit :=
  if config.vcpuCount = 0 then .error .invalidVcpuCount
  else if layout.ram = [] then .error .noBaseRam
  else if layout.virtio.length ≠ needs.devices.length then
    .error (.deviceCountMismatch needs.devices.length layout.virtio.length)
  else if layout.uart.size < 8 then .error (.uartRegionTooSmall layout.uart.size)
  else (addRam layout.ram 0 []).bind fun (total,ranges) =>
    ((mibBytes config.memoryMib).mapError .memory).bind fun bytes =>
      if total ≠ bytes then .error (.ramCapacityMismatch config.memoryMib total)
      else (add ranges layout.uart.space layout.uart.address layout.uart.size).bind fun ranges =>
        (addVirtio layout.virtio ranges).bind fun ranges => addHotplug ranges layout.hotplug needs.hotplug

end MachineLayout

def Beside (ranges : List Added) (address size : Nat) : Prop :=
  ∀ r ∈ ranges, r.space = .mmio → address + size ≤ r.start ∨ r.stop ≤ address

theorem add_accepts {ranges ranges' : List Added} {space : IoSpace} {address size : Nat}
    (accepted : add ranges space address size = .ok ranges') :
    0 < size ∧ (space = .mmio → Beside ranges address size) ∧ ranges' = ranges ++ [⟨space,address,address + size⟩] := by
  unfold add at accepted
  split at accepted
  · cases accepted
  · rename_i filled
    split at accepted
    · cases accepted
    · rename_i stop sum
      obtain ⟨_,rfl⟩ := checkedAdd_eq_some.mp sum
      split at accepted
      · cases accepted
      · split at accepted
        · cases accepted
        · rename_i apart
          refine ⟨Nat.pos_of_ne_zero filled,?_,(Except.ok.inj accepted).symm⟩
          rintro rfl r member same
          by_contra met
          rw [not_or,Nat.not_le,Nat.not_le] at met
          refine apart (List.any_eq_true.mpr ⟨r,member,?_⟩)
          simp [same,met.1,met.2]

theorem addRam_accepts {ram : List MemoryRange} {total total' : Nat} {ranges ranges' : List Added}
    (accepted : addRam ram total ranges = .ok (total',ranges')) :
    (∀ r ∈ ram, 0 < r.size) ∧ (∀ r ∈ ranges, r ∈ ranges') ∧
      ∀ r ∈ ram, ⟨.mmio,r.address,r.address + r.size⟩ ∈ ranges' := by
  induction ram generalizing total ranges with
  | nil =>
    cases accepted
    exact ⟨nofun,fun _ member => member,nofun⟩
  | cons first rest ih =>
    unfold addRam at accepted
    split at accepted
    · cases accepted
    · obtain ⟨between,added,later⟩ := bind_eq_ok.mp accepted
      obtain ⟨filled,_,rfl⟩ := add_accepts added
      obtain ⟨others,kept,placed⟩ := ih later
      refine ⟨?_,fun r member => kept r (List.mem_append_left _ member),?_⟩
      · intro r member
        rcases List.mem_cons.mp member with rfl | later
        · exact filled
        · exact others r later
      · intro r member
        rcases List.mem_cons.mp member with rfl | later
        · exact kept _ (List.mem_append_right _ List.mem_cons_self)
        · exact placed r later

theorem addVirtio_keeps {regions : List IoRegion} {ranges ranges' : List Added}
    (accepted : addVirtio regions ranges = .ok ranges') : ∀ r ∈ ranges, r ∈ ranges' := by
  induction regions generalizing ranges with
  | nil =>
    cases accepted
    exact fun _ member => member
  | cons first rest ih =>
    unfold addVirtio at accepted
    split at accepted
    · cases accepted
    · obtain ⟨between,added,later⟩ := bind_eq_ok.mp accepted
      obtain ⟨_,_,rfl⟩ := add_accepts added
      exact fun r member => ih later r (List.mem_append_left _ member)

/-- What an accepted layout says about memory. -/
structure Sound (layout : MachineLayout) (needs : DeviceRequirements) : Prop where
  filled : ∀ r ∈ layout.ram, 0 < r.size
  unasked : needs.hotplug = none → layout.hotplug = none
  asked : ∀ n, needs.hotplug = some n → ∃ h, layout.hotplug = some h ∧ h.size = n.capacity ∧
    ∀ r ∈ layout.ram, h.address + h.size ≤ r.address ∨ r.address + r.size ≤ h.address

theorem validate_accepts {layout : MachineLayout} {config : VmConfig} {needs : DeviceRequirements}
    (accepted : layout.validate config needs = .ok ()) : Sound layout needs := by
  unfold MachineLayout.validate at accepted
  iterate 4
    split at accepted
    · cases accepted
  obtain ⟨⟨total,ranges⟩,ram,sized⟩ := bind_eq_ok.mp accepted
  obtain ⟨bytes,_,whole⟩ := bind_eq_ok.mp sized
  split at whole
  · cases whole
  obtain ⟨ranges',uart,windows⟩ := bind_eq_ok.mp whole
  obtain ⟨ranges'',virtio,hot⟩ := bind_eq_ok.mp windows
  obtain ⟨filled,_,placed⟩ := addRam_accepts ram
  obtain ⟨_,_,rfl⟩ := add_accepts uart
  have kept : ∀ r ∈ layout.ram, ⟨.mmio,r.address,r.address + r.size⟩ ∈ ranges'' :=
    fun r member => addVirtio_keeps virtio _ (List.mem_append_left _ (placed r member))
  refine ⟨filled,?_,?_⟩
  · intro unasked
    rw [unasked] at hot
    cases hotplug : layout.hotplug with
    | none => rfl
    | some h =>
      rw [hotplug] at hot
      cases hot
  · intro n asked
    rw [asked] at hot
    cases hotplug : layout.hotplug with
    | none =>
      rw [hotplug] at hot
      cases hot
    | some h =>
      rw [hotplug] at hot
      simp only [addHotplug] at hot
      split at hot
      · cases hot
      · rename_i fits
        obtain ⟨final,added,_⟩ := map_eq_ok.mp hot
        refine ⟨h,rfl,(not_not.mp fits).1,?_⟩
        intro r member
        exact (add_accepts added).2.1 rfl _ (kept r member) rfl

end WVmm.Platform
