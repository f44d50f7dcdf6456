import WVmm.Platform.Layout
import WVmm.Lib.Ranges

/-! What the checks of a layout amount to: an accepted layout is a well-formed one,
and every access belongs to at most one of the ranges it declares. -/
namespace WVmm.Platform
open Lib.Ranges

structure Declared where
  space : IoSpace
  address : Nat
  size : Nat

namespace Declared

def stop (d : Declared) : Nat := d.address + d.size

def added (d : Declared) : Added := ⟨d.space,d.address,d.stop⟩

def places (d : Declared) : Set (IoSpace × Nat) := {x | x.1 = d.space ∧ x.2 ∈ Set.Ico d.address d.stop}

/-- A range is non-empty and ends within the address space, and within the ports. -/
structure Fits (d : Declared) : Prop where
  filled : 0 < d.size
  representable : d.stop < 2^64
  port : d.space = .port → d.stop ≤ 65536

def Clear (r d : Declared) : Prop := ¬(r.space = d.space ∧ d.address < r.stop ∧ r.address < d.stop)

theorem clear_iff {r d : Declared} (first : r.Fits) (second : d.Fits) : r.Clear d ↔ Disjoint r.places d.places := by
  have filled : r.address < r.stop := Nat.lt_add_of_pos_right first.filled
  have filled' : d.address < d.stop := Nat.lt_add_of_pos_right second.filled
  unfold Clear
  rw [@and_comm (d.address < r.stop),meet_iff filled filled',not_and,not_not]
  constructor
  · intro apart
    rw [Set.disjoint_left]
    rintro x ⟨same,here⟩ ⟨same',there⟩
    exact Set.disjoint_left.mp (apart (same.symm.trans same')) here there
  · intro apart same
    rw [Set.disjoint_left] at apart ⊢
    intro x here there
    exact @apart (r.space,x) ⟨rfl,here⟩ ⟨same,there⟩

theorem disjoint_of_le {r d : Declared} (beside : r.stop ≤ d.address ∨ d.stop ≤ r.address) :
    Disjoint r.places d.places := by
  rw [Set.disjoint_left]
  rintro x ⟨_,low,high⟩ ⟨_,low',high'⟩
  rcases beside with before | after
  · exact absurd (high.trans_le before) (not_lt.mpr low')
  · exact absurd (high'.trans_le after) (not_lt.mpr low)

end Declared

def ramRanges (ram : List MemoryRange) : List Declared := ram.map fun r => ⟨.mmio,r.address,r.size⟩

def windowRanges (regions : List IoRegion) : List Declared := regions.map fun r => ⟨r.space,r.address,r.size⟩

def MachineLayout.declared (layout : MachineLayout) : List Declared :=
  ramRanges layout.ram ++ ([⟨layout.uart.space,layout.uart.address,layout.uart.size⟩] ++
    (windowRanges layout.virtio ++ ramRanges layout.hotplug.toList))

/-- The region for dynamic memory is there if it was asked for, as it was asked for. -/
def Meant (hotplug : Option MemoryRange) (asked : Option MemoryRequirement) : Prop :=
  (asked = none → hotplug = none) ∧
    ∀ n, asked = some n → ∃ h, hotplug = some h ∧ h.size = n.capacity ∧ n.alignment ∣ h.address

/-- A layout that serves a configuration with these devices. -/
structure WellFormed (layout : MachineLayout) (config : VmConfig) (needs : DeviceRequirements) : Prop where
  vcpus : 0 < config.vcpuCount
  ram : layout.ram ≠ []
  windows : layout.virtio.length = needs.devices.length
  uart : 8 ≤ layout.uart.size
  fits : ∀ d ∈ layout.declared, d.Fits
  virtio : ∀ r ∈ layout.virtio, r.space = .mmio ∧ 0x200 ≤ r.size
  capacity : (layout.ram.map (·.size)).sum = config.memoryMib * 2^20
  hotplug : Meant layout.hotplug needs.hotplug
  apart : layout.declared.Pairwise fun r d => Disjoint r.places d.places

structure Joins (earlier new : List Declared) : Prop where
  fits : ∀ d ∈ new, d.Fits
  clear : ∀ r ∈ earlier, ∀ d ∈ new, r.Clear d
  among : new.Pairwise Declared.Clear

namespace Joins

theorem nil (earlier : List Declared) : Joins earlier [] := ⟨nofun,fun _ _ _ => nofun,.nil⟩

theorem append_iff {earlier first second : List Declared} :
    Joins earlier (first ++ second) ↔ Joins earlier first ∧ Joins (earlier ++ first) second := by
  constructor
  · rintro ⟨fits,clear,among⟩
    obtain ⟨among,among',across⟩ := List.pairwise_append.mp among
    refine ⟨⟨fun d member => fits d (List.mem_append_left _ member),
      fun r before d member => clear r before d (List.mem_append_left _ member),among⟩,
      ⟨fun d member => fits d (List.mem_append_right _ member),?_,among'⟩⟩
    intro r before d member
    rcases List.mem_append.mp before with early | late
    · exact clear r early d (List.mem_append_right _ member)
    · exact across r late d member
  · rintro ⟨first,second⟩
    refine ⟨?_,?_,List.pairwise_append.mpr ⟨first.among,second.among,
      fun r before d member => second.clear r (List.mem_append_right _ before) d member⟩⟩
    · intro d member
      rcases List.mem_append.mp member with early | late
      · exact first.fits d early
      · exact second.fits d late
    · intro r before d member
      rcases List.mem_append.mp member with early | late
      · exact first.clear r before d early
      · exact second.clear r (List.mem_append_left _ before) d late

theorem apart {ds : List Declared} (joins : Joins [] ds) : ds.Pairwise fun r d => Disjoint r.places d.places :=
  joins.among.imp_of_mem fun here there clear =>
    (Declared.clear_iff (joins.fits _ here) (joins.fits _ there)).mp clear

theorem of_apart {ds : List Declared} (fits : ∀ d ∈ ds, d.Fits)
    (apart : ds.Pairwise fun r d => Disjoint r.places d.places) : Joins [] ds :=
  ⟨fits,nofun,apart.imp_of_mem fun here there disjoint =>
    (Declared.clear_iff (fits _ here) (fits _ there)).mpr disjoint⟩

end Joins

theorem add_eq_ok {earlier : List Declared} {d : Declared} {ranges : List Added} :
    add (earlier.map Declared.added) d.space d.address d.size = .ok ranges ↔
      Joins earlier [d] ∧ ranges = (earlier ++ [d]).map Declared.added := by
  have clear : (earlier.map Declared.added).any (fun r => r.space == d.space &&
      decide (d.address < r.stop) && decide (r.start < d.stop)) = false ↔ ∀ r ∈ earlier, r.Clear d := by
    simp only [List.any_eq_false,List.forall_mem_map,Bool.and_eq_true,beq_iff_eq,decide_eq_true_eq,and_assoc]
    rfl
  constructor
  · intro accepted
    unfold add at accepted
    split at accepted
    · cases accepted
    · rename_i filled
      split at accepted
      · cases accepted
      · rename_i stop sum
        obtain ⟨representable,rfl⟩ := checkedAdd_eq_some.mp sum
        split at accepted
        · cases accepted
        · rename_i port
          split at accepted
          · cases accepted
          · rename_i apart
            refine ⟨⟨?_,?_,List.pairwise_singleton _ _⟩,?_⟩
            · rintro _ (_ | ⟨_,⟨⟩⟩)
              exact ⟨Nat.pos_of_ne_zero filled,representable,fun same => by_contra fun above => port ⟨same,above⟩⟩
            · rintro r before _ (_ | ⟨_,⟨⟩⟩)
              exact clear.mp (Bool.eq_false_iff.mpr apart) r before
            · rw [List.map_append]
              exact (Except.ok.inj accepted).symm
  · rintro ⟨joins,rfl⟩
    obtain ⟨filled,representable,port⟩ := joins.fits d List.mem_cons_self
    have sum : checkedAdd d.address d.size = some d.stop := checkedAdd_eq_some.mpr ⟨representable,rfl⟩
    have apart := clear.mpr fun r before => joins.clear r before d List.mem_cons_self
    unfold add
    rw [if_neg filled.ne',sum]
    dsimp only
    rw [if_neg (fun ⟨same,above⟩ => above (port same)),apart,List.map_append]
    rfl

/-- The sum never falls, so the last one tells whether any of them overflows. -/
theorem addRam_eq_ok {ram : List MemoryRange} {total total' : Nat} {earlier : List Declared} {ranges : List Added}
    (small : total < 2^64) :
    addRam ram total (earlier.map Declared.added) = .ok (total',ranges) ↔
      total + (ram.map (·.size)).sum < 2^64 ∧ total' = total + (ram.map (·.size)).sum ∧
        Joins earlier (ramRanges ram) ∧ ranges = (earlier ++ ramRanges ram).map Declared.added := by
  induction ram generalizing total earlier with
  | nil =>
    rw [addRam,Except.ok.injEq,Prod.mk.injEq]
    simp only [List.map_nil,List.sum_nil,Nat.add_zero,ramRanges,List.append_nil,Joins.nil,true_and,small]
    exact and_congr eq_comm eq_comm
  | cons r rest ih =>
    have joined : Joins earlier (ramRanges (r::rest)) ↔ Joins earlier [⟨.mmio,r.address,r.size⟩] ∧
        Joins (earlier ++ [⟨.mmio,r.address,r.size⟩]) (ramRanges rest) :=
      @Joins.append_iff earlier [⟨.mmio,r.address,r.size⟩] (ramRanges rest)
    have listed : earlier ++ ramRanges (r::rest) = earlier ++ [⟨.mmio,r.address,r.size⟩] ++ ramRanges rest := by
      rw [List.append_assoc]
      rfl
    rw [joined,listed,List.map_cons,List.sum_cons,← Nat.add_assoc,addRam]
    constructor
    · intro accepted
      split at accepted
      · cases accepted
      · rename_i sum
        obtain ⟨fits,rfl⟩ := checkedAdd_eq_some.mp sum
        obtain ⟨between,added,later⟩ := bind_eq_ok.mp accepted
        obtain ⟨first,rfl⟩ := (@add_eq_ok earlier ⟨.mmio,r.address,r.size⟩ between).mp added
        obtain ⟨bounded,total,others,same⟩ := (ih fits).mp later
        exact ⟨bounded,total,⟨first,others⟩,same⟩
    · rintro ⟨bounded,rfl,⟨first,others⟩,rfl⟩
      have fits : total + r.size < 2^64 := by omega
      rw [checkedAdd_eq_some.mpr ⟨fits,rfl⟩]
      exact bind_eq_ok.mpr ⟨_,(@add_eq_ok earlier ⟨.mmio,r.address,r.size⟩ _).mpr ⟨first,rfl⟩,
        (ih fits).mpr ⟨bounded,rfl,others,rfl⟩⟩

theorem addVirtio_eq_ok {regions : List IoRegion} {earlier : List Declared} {ranges : List Added} :
    addVirtio regions (earlier.map Declared.added) = .ok ranges ↔
      (∀ r ∈ regions, r.space = .mmio ∧ 0x200 ≤ r.size) ∧ Joins earlier (windowRanges regions) ∧
        ranges = (earlier ++ windowRanges regions).map Declared.added := by
  induction regions generalizing earlier with
  | nil =>
    rw [addVirtio,Except.ok.injEq]
    simp only [List.not_mem_nil,false_implies,implies_true,windowRanges,List.map_nil,List.append_nil,Joins.nil,true_and]
    exact eq_comm
  | cons r rest ih =>
    have joined : Joins earlier (windowRanges (r::rest)) ↔ Joins earlier [⟨r.space,r.address,r.size⟩] ∧
        Joins (earlier ++ [⟨r.space,r.address,r.size⟩]) (windowRanges rest) :=
      @Joins.append_iff earlier [⟨r.space,r.address,r.size⟩] (windowRanges rest)
    have listed : earlier ++ windowRanges (r::rest) = earlier ++ [⟨r.space,r.address,r.size⟩] ++ windowRanges rest := by
      rw [List.append_assoc]
      rfl
    rw [joined,listed,addVirtio,List.forall_mem_cons]
    constructor
    · intro accepted
      split at accepted
      · cases accepted
      · rename_i window
        obtain ⟨between,added,later⟩ := bind_eq_ok.mp accepted
        obtain ⟨first,rfl⟩ := (@add_eq_ok earlier ⟨r.space,r.address,r.size⟩ between).mp added
        obtain ⟨windows,others,same⟩ := ih.mp later
        exact ⟨⟨not_not.mp window,windows⟩,⟨first,others⟩,same⟩
    · rintro ⟨⟨window,windows⟩,⟨first,others⟩,rfl⟩
      rw [if_neg (not_not.mpr window)]
      exact bind_eq_ok.mpr ⟨_,(@add_eq_ok earlier ⟨r.space,r.address,r.size⟩ _).mpr ⟨first,rfl⟩,
        ih.mpr ⟨windows,others,rfl⟩⟩

theorem addHotplug_eq_ok {earlier : List Declared} {hotplug : Option MemoryRange} {asked : Option MemoryRequirement} :
    addHotplug (earlier.map Declared.added) hotplug asked = .ok () ↔
      Meant hotplug asked ∧ Joins earlier (ramRanges hotplug.toList) := by
  cases hotplug with
  | none =>
    cases asked with
    | none => simp [addHotplug,Meant,ramRanges,Joins.nil]
    | some n => simp [addHotplug,Meant]
  | some h =>
    cases asked with
    | none => simp [addHotplug,Meant]
    | some n =>
      have meant : Meant (some h) (some n) ↔ h.size = n.capacity ∧ h.address % n.alignment = 0 := by
        simp [Meant,Nat.dvd_iff_mod_eq_zero]
      rw [meant,addHotplug]
      constructor
      · intro accepted
        split at accepted
        · cases accepted
        · rename_i fits
          obtain ⟨final,added,_⟩ := map_eq_ok.mp accepted
          exact ⟨not_not.mp fits,((@add_eq_ok earlier ⟨.mmio,h.address,h.size⟩ final).mp added).1⟩
      · rintro ⟨fits,joins⟩
        rw [if_neg (not_not.mpr fits)]
        exact map_eq_ok.mpr ⟨_,(@add_eq_ok earlier ⟨.mmio,h.address,h.size⟩ _).mpr ⟨joins,rfl⟩,rfl⟩

/-- RAM whose ranges lie apart has a size that can be represented. -/
theorem Joins.capacity {ram : List MemoryRange} (joins : Joins [] (ramRanges ram)) :
    (ram.map (·.size)).sum < 2^64 := by
  refine Nat.lt_of_le_of_lt (@sum_le_of_apart _ (·.address) (·.size) (2^64 - 1) ram ?_ ?_) (by decide)
  · intro r member
    exact Nat.le_sub_one_of_lt (joins.fits _ (List.mem_map_of_mem member)).representable
  · refine (List.pairwise_map.mp joins.apart).imp fun apart => ?_
    rw [Set.disjoint_left] at apart ⊢
    intro x here there
    exact @apart (.mmio,x) ⟨rfl,here⟩ ⟨rfl,there⟩

theorem mibBytes_eq_ok {mib bytes : Nat} :
    (mibBytes mib).mapError PlatformError.memory = .ok bytes ↔ mib * 2^20 < 2^64 ∧ bytes = mib * 2^20 := by
  rw [Nat.mul_comm]
  unfold mibBytes checkedMul
  split
  · rename_i fits
    change Except.ok _ = Except.ok _ ↔ _
    rw [Except.ok.injEq]
    exact ⟨fun same => ⟨fits,same.symm⟩,fun same => same.2.symm⟩
  · rename_i overflow
    exact ⟨nofun,fun same => absurd same.1 overflow⟩

/-- A layout is accepted exactly when it is well formed. -/
theorem validate_eq_ok {layout : MachineLayout} {config : VmConfig} {needs : DeviceRequirements} :
    layout.validate config needs = .ok () ↔ WellFormed layout config needs := by
  constructor
  · intro accepted
    unfold MachineLayout.validate at accepted
    split at accepted
    · cases accepted
    · rename_i vcpus
      split at accepted
      · cases accepted
      · rename_i ram
        split at accepted
        · cases accepted
        · rename_i windows
          split at accepted
          · cases accepted
          · rename_i uart
            obtain ⟨⟨total,ranges⟩,added,sized⟩ := bind_eq_ok.mp accepted
            obtain ⟨_,rfl,first,rfl⟩ := (@addRam_eq_ok layout.ram 0 total [] ranges (by decide)).mp added
            obtain ⟨bytes,converted,whole⟩ := bind_eq_ok.mp sized
            obtain ⟨_,rfl⟩ := mibBytes_eq_ok.mp converted
            split at whole
            · cases whole
            · rename_i capacity
              obtain ⟨_,added,later⟩ := bind_eq_ok.mp whole
              obtain ⟨second,rfl⟩ := (@add_eq_ok _ ⟨layout.uart.space,layout.uart.address,layout.uart.size⟩ _).mp added
              obtain ⟨_,added,last⟩ := bind_eq_ok.mp later
              obtain ⟨virtio,third,rfl⟩ := addVirtio_eq_ok.mp added
              obtain ⟨hotplug,fourth⟩ := addHotplug_eq_ok.mp last
              have joins : Joins [] layout.declared := Joins.append_iff.mpr ⟨first,Joins.append_iff.mpr
                ⟨second,Joins.append_iff.mpr ⟨third,fourth⟩⟩⟩
              exact ⟨Nat.pos_of_ne_zero vcpus,ram,not_not.mp windows,not_lt.mp uart,joins.fits,virtio,
                (Nat.zero_add _).symm.trans (not_not.mp capacity),hotplug,joins.apart⟩
  · intro formed
    have joins := Joins.of_apart formed.fits formed.apart
    obtain ⟨first,rest⟩ := Joins.append_iff.mp joins
    obtain ⟨second,rest⟩ := Joins.append_iff.mp rest
    obtain ⟨third,fourth⟩ := Joins.append_iff.mp rest
    have bounded := first.capacity
    unfold MachineLayout.validate
    rw [if_neg formed.vcpus.ne',if_neg formed.ram,if_neg (not_not.mpr formed.windows),if_neg (not_lt.mpr formed.uart)]
    refine bind_eq_ok.mpr ⟨(_,_),(@addRam_eq_ok layout.ram 0 _ [] _ (by decide)).mpr
      ⟨(Nat.zero_add _).symm ▸ bounded,rfl,first,rfl⟩,?_⟩
    refine bind_eq_ok.mpr ⟨_,mibBytes_eq_ok.mpr ⟨formed.capacity ▸ bounded,rfl⟩,?_⟩
    rw [if_neg (not_not.mpr ((Nat.zero_add _).trans formed.capacity))]
    refine bind_eq_ok.mpr ⟨_,(@add_eq_ok _ ⟨layout.uart.space,layout.uart.address,layout.uart.size⟩ _).mpr
      ⟨second,rfl⟩,?_⟩
    exact bind_eq_ok.mpr ⟨_,addVirtio_eq_ok.mpr ⟨formed.virtio,third,rfl⟩,addHotplug_eq_ok.mpr ⟨formed.hotplug,fourth⟩⟩

end WVmm.Platform
