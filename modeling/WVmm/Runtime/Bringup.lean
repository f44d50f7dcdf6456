import WVmm.Runtime.Life
import WVmm.Runtime.Holdings

/-! What bringing a machine up leaves, wherever it ends: the count of the mapped base
regions is the record of the successful calls, and the mapper holds exactly those
regions and the empty table of the memory device. -/
namespace WVmm
open Lib.Effect Devices Platform
namespace Owned

variable {V C B N : Type} {env : Env}

def placed (s : Owned V B N) : List Region := (s.maps.filter (·.2)).map (·.1)

/-- The count of mapped regions stands for the regions themselves. -/
def Recorded (s : Owned V B N) : Prop := s.base.take s.mapped = s.placed

structure Allocated (ram : List MemoryRange) (s t : Owned V B N) : Prop where
  vm : t.vm = s.vm
  layout : t.layout = s.layout
  devices : t.devices = s.devices
  mapped : t.mapped = s.mapped
  maps : t.maps = s.maps
  control : t.world.control = s.world.control
  base : ∀ q ∈ t.base, q ∈ s.base ∨ ∃ r ∈ ram, q.start = r.address ∧ q.len = r.size

namespace Allocated

variable {ram : List MemoryRange} {s t u : Owned V B N}

theorem refl (s : Owned V B N) : Allocated ram s s := ⟨rfl,rfl,rfl,rfl,rfl,rfl,fun _ member => .inl member⟩

theorem trans (first : Allocated ram s t) (second : Allocated ram t u) : Allocated ram s u := by
  refine ⟨second.vm.trans first.vm,second.layout.trans first.layout,second.devices.trans first.devices,
    second.mapped.trans first.mapped,second.maps.trans first.maps,second.control.trans first.control,?_⟩
  intro q member
  rcases second.base q member with earlier | fresh
  · exact first.base q earlier
  · exact .inr fresh

end Allocated

instance (ram : List MemoryRange) : IsPreorder (Owned V B N) (Allocated ram) where
  refl := .refl
  trans _ _ _ := .trans

theorem allocateBase_allocated (ram rest : List MemoryRange) (inside : ∀ r ∈ rest, r ∈ ram) :
    Always (Allocated ram) (allocateBase env rest : Prog (Owned V B N) _ Unit) := by
  induction rest with
  | nil => exact .pure _
  | cons r rest ih =>
    intro s
    simp only [allocateBase,Prog.run_bind,Prog.run_get]
    simp only [Prog.run_mapError,onWorld,Prog.run_zoom,World.fromRange,Prog.run_mk]
    cases env.allocate s.world.allocations s.base r.address r.size with
    | error e => exact ⟨rfl,rfl,rfl,rfl,rfl,rfl,fun _ member => .inl member⟩
    | ok ptr =>
      simp only [Except.mapError,Prog.run_modify]
      refine .trans (t := _) ?_ (ih (fun q member => inside q (List.mem_cons_of_mem _ member)) _)
      refine ⟨rfl,rfl,rfl,rfl,rfl,rfl,?_⟩
      intro q member
      rcases List.mem_append.mp member with earlier | fresh
      · exact .inl earlier
      · rw [List.mem_singleton.mp fresh]
        exact .inr ⟨r,inside r List.mem_cons_self,rfl,rfl⟩

section Install
variable [Vm V C]

def install (stopping : Control.Stage → Bool) (view : GuestMemoryMmap) (layout : MachineLayout) (base : List Region) :
    Prog (Owned V B N) (Failure Error) Unit := do
  let all ← mapBase stopping 0 base
  if all then launch stopping view layout else return ()

/-- Where `init` ends: before it created a VM, or on its way from there. -/
theorem init_inversion {startup : Startup V} {s t : Owned V B N} {r : Except (Failure Error) Unit}
    (ran : (init env startup).run s = (r,t)) :
    Allocated s.layout.ram s t ∨ ∃ u view vm, Allocated s.layout.ram s u ∧ startup.collect u.base = .ok view ∧
      startup.create = .ok vm ∧ (install startup.stopping view u.layout u.base).run
        {u with vm := some vm, world := {u.world with view := view}} = (r,t) := by
  simp only [init,Prog.run_bind,Prog.run_get] at ran
  have allocated : Allocated s.layout.ram s ((allocateBase env s.layout.ram).run s).2 :=
    allocateBase_allocated s.layout.ram s.layout.ram (fun _ member => member) s
  rcases brought : (allocateBase env s.layout.ram).run s with ⟨result,u⟩
  rw [brought] at ran allocated
  cases result with
  | error e =>
    cases ran
    exact .inl allocated
  | ok _ =>
    simp only [Prog.run_ofExcept] at ran
    cases collected : startup.collect u.base with
    | error e =>
      rw [collected] at ran
      cases ran
      exact .inl allocated
    | ok view =>
      have shown : Allocated s.layout.ram s {u with world := {u.world with view := view}} := {allocated with}
      rw [collected] at ran
      simp only [Except.mapError,Prog.run_modify] at ran
      split at ran
      · cases ran
        exact .inl shown
      · simp only [Prog.run_bind,Prog.run_ofExcept] at ran
        cases made : startup.create with
        | error e =>
          rw [made] at ran
          cases ran
          exact .inl shown
        | ok vm =>
          rw [made] at ran
          exact .inr ⟨u,view,vm,allocated,collected,rfl,ran⟩

theorem mapRegion_cases (region : Region) {s : Owned V B N} {vm : V} (created : s.vm = some vm) :
    (∃ vm', Mapper.map vm region = (.ok (),vm') ∧ (mapRegion region).run s =
      (.ok (),{s with vm := some vm', maps := s.maps ++ [(region,true)], mapped := s.mapped + 1})) ∨
    ∃ e vm', Mapper.map vm region = (.error e,vm') ∧ (mapRegion region).run s =
      (.error (.error (.memory e)),{s with vm := some vm', maps := s.maps ++ [(region,false)]}) := by
  simp only [mapRegion,Prog.run_bind,Prog.run_capture,onVm,Prog.run_mk,created]
  rcases Mapper.map vm region with ⟨e | _,vm'⟩
  · exact .inr ⟨e,vm',rfl,rfl⟩
  · exact .inl ⟨vm',rfl,rfl⟩

theorem mapBase_records (stopping : Control.Stage → Bool) (k : Nat) (rest : List Region) {s t : Owned V B N}
    (created : s.vm.isSome) {r : Except (Failure Error) Bool} (ran : (mapBase stopping k rest).run s = (r,t)) :
    t.base = s.base ∧ ∃ taken, taken <+: rest ∧ t.placed = s.placed ++ taken ∧ t.mapped = s.mapped + taken.length := by
  induction rest generalizing k s with
  | nil =>
    cases ran
    exact ⟨rfl,[],List.nil_prefix,(List.append_nil _).symm,rfl⟩
  | cons region rest ih =>
    simp only [mapBase] at ran
    split at ran
    · cases ran
      exact ⟨rfl,[],List.nil_prefix,(List.append_nil _).symm,rfl⟩
    · obtain ⟨vm,present⟩ := Option.isSome_iff_exists.mp created
      rcases mapRegion_cases (B := B) (N := N) region present with ⟨vm',_,called⟩ | ⟨e,vm',_,called⟩
      all_goals rw [Prog.run_bind,called] at ran
      · obtain ⟨base,taken,inside,placed,mapped⟩ := ih (k + 1) rfl ran
        refine ⟨base,region::taken,List.cons_prefix_cons.mpr ⟨rfl,inside⟩,?_,?_⟩
        · rw [placed]
          simp [Owned.placed]
        · simp only [mapped,List.length_cons]
          omega
      · cases ran
        refine ⟨rfl,[],List.nil_prefix,?_,rfl⟩
        simp [placed]

structure Filed (s t : Owned V B N) : Prop where
  base : t.base = s.base
  mapped : t.mapped = s.mapped
  maps : t.maps = s.maps

omit [Vm V C] in
theorem Filed.recorded {s t : Owned V B N} (filed : Filed s t) (recorded : s.Recorded) : t.Recorded := by
  unfold Recorded placed
  rw [filed.base,filed.mapped,filed.maps]
  exact recorded

instance : IsPreorder (Owned V B N) Filed where
  refl _ := ⟨rfl,rfl,rfl⟩
  trans _ _ _ first second :=
    ⟨second.base.trans first.base,second.mapped.trans first.mapped,second.maps.trans first.maps⟩

omit [Vm V C] in
theorem onVm_filed {ε α : Type} (wrap : ε → Error) (call : V → Except ε α × V) :
    Always Filed (onVm wrap call : Prog (Owned V B N) _ α) := by
  intro s
  simp only [onVm,Prog.run_mk]
  split <;> exact ⟨rfl,rfl,rfl⟩

theorem launch_filed (stopping : Control.Stage → Bool) (view : GuestMemoryMmap) (layout : MachineLayout) :
    Always Filed (launch stopping view layout : Prog (Owned V B N) _ Unit) := by
  unfold launch
  split
  · exact .pure _
  refine .bind (onVm_filed _ _) (fun _ => ?_)
  split
  · exact .pure _
  · exact .bind (onVm_filed _ _) (fun _ => .modify (fun _ => ⟨rfl,rfl,rfl⟩))

/-- Wherever `init` ends, the regions it counted are those it mapped. -/
theorem init_recorded {startup : Startup V} {s t : Owned V B N} {r : Except (Failure Error) Unit}
    (ran : (init env startup).run s = (r,t)) (unmapped : s.mapped = 0) (unused : s.maps = []) : t.Recorded := by
  rcases init_inversion ran with allocated | ⟨u,view,vm,allocated,_,_,installed⟩
  · simp [Recorded,placed,allocated.mapped,allocated.maps,unmapped,unused]
  · rw [install,Prog.run_bind] at installed
    rcases mapped : (mapBase startup.stopping 0 u.base).run
      {u with vm := some vm, world := {u.world with view := view}} with ⟨result,v⟩
    obtain ⟨base,taken,inside,placed,count⟩ := mapBase_records startup.stopping 0 u.base rfl mapped
    have recorded : v.Recorded := by
      have none : Owned.placed {u with vm := some vm, world := {u.world with view := view}} = [] := by
        simp [Owned.placed,allocated.maps,unused]
      rw [none,List.nil_append] at placed
      rw [Recorded,base,count,placed,allocated.mapped,unmapped,Nat.zero_add]
      exact (List.prefix_iff_eq_take.mp inside).symm
    rw [mapped] at installed
    cases result with
    | error e =>
      cases installed
      exact recorded
    | ok all =>
      dsimp only at installed
      split at installed
      · exact (launch_filed _ _ _).ran installed |>.recorded recorded
      · cases installed
        exact recorded

end Install
end Owned

section Extend
variable {V B N : Type} [Mapper V] {table : V → Nat → Option Region} {base : List Region}
  {fixed : Nat → Option Region} {devices : List (Mmio (Device B N))} {world : World} {vm vm' : V} {r : Region}

/-- A base region is beside the memory device, so mapping it adds to what is fixed. -/
theorem Booked.extend (atomic : Mapper.Atomic table) (booked : Booked table base fixed devices world vm)
    (member : r ∈ base) (filled : 0 < r.len) (mapped : Mapper.map vm r = (.ok (),vm')) :
    Booked table base (Function.update fixed r.start (some r)) devices world vm' := by
  have after := atomic.map_ok vm r vm' mapped
  cases booked with
  | bare none same => exact .bare none (by rw [after,same])
  | sparse d only book =>
    have outside := book.beside r member
    refine .sparse d only {book with mapped := ?_, unclaimed := ?_}
    · intro a
      have old := book.mapped a
      dsimp only at old ⊢
      rw [after]
      by_cases here : a = r.start
      · subst here
        have absent : d.blocks[r.start]? = none := by
          by_contra some
          obtain ⟨q,found⟩ := Option.ne_none_iff_exists'.mp some
          have block := (book.keyed r.start q found).2.2
          have positive := book.shape.positive
          obtain ⟨_,low,high⟩ := block
          dsimp only at low high outside positive
          omega
        rw [Function.update_self,Function.update_self,absent,Option.none_or]
      · rw [Function.update_of_ne here,Function.update_of_ne here]
        exact old
    · intro a low high
      have other : a ≠ r.start := by
        rintro rfl
        dsimp only at low high outside
        omega
      rw [Function.update_of_ne other]
      exact book.unclaimed a low high

end Extend

namespace Owned
variable {V C B N : Type} {env : Env}

/-- The mapper holds the mapped base regions and the blocks of the memory device. -/
structure Installed (table : V → Nat → Option Region) (base : List Region) (s : Owned V B N) : Prop where
  allocated : s.base = base
  held : ∃ vm fixed, s.vm = some vm ∧ Booked table base fixed s.devices s.world vm ∧
    ∀ a, fixed a ≠ none → a ∈ s.placed.map Region.start

section Install
variable [Vm V C] {table : V → Nat → Option Region} {base : List Region}

/-- A call on the VM that keeps the mappings. -/
theorem onVm_installed {ε α : Type} (wrap : ε → Error) (call : V → Except ε α × V)
    (same : ∀ vm, table (call vm).2 = table vm) :
    Guards (Installed table base) (fun _ => False) (onVm wrap call : Prog (Owned V B N) _ α) := by
  rintro s ⟨here,vm,fixed,created,booked,inside⟩
  left
  simp only [onVm,Prog.run_mk,created]
  exact ⟨here,_,fixed,rfl,booked.keep rfl (refl_of (World.Kept id) s.world) (same vm),inside⟩

theorem mapRegion_installed (atomic : Mapper.Atomic table) {region : Region} (member : region ∈ base)
    (filled : 0 < region.len) :
    Guards (Installed table base) (fun _ => False) (mapRegion region : Prog (Owned V B N) _ Unit) := by
  rintro s ⟨here,vm,fixed,created,booked,inside⟩
  left
  rcases mapRegion_cases (B := B) (N := N) region created with ⟨vm',mapped,called⟩ | ⟨e,vm',refused,called⟩
  all_goals rw [called]
  · refine ⟨here,vm',_,rfl,booked.extend atomic member filled mapped,?_⟩
    intro a present
    simp only [placed,List.filter_append,List.map_append,List.mem_append]
    by_cases other : a = region.start
    · right
      simp [other]
    · left
      rw [Function.update_of_ne other] at present
      exact inside a present
  · refine ⟨here,vm',fixed,rfl,booked.keep rfl (refl_of (World.Kept id) s.world) (atomic.map_error vm region e vm' refused),?_⟩
    simpa [placed] using inside

theorem mapBase_installed (atomic : Mapper.Atomic table) (stopping : Control.Stage → Bool) (k : Nat)
    (rest : List Region) (inside : ∀ r ∈ rest, r ∈ base ∧ 0 < r.len) :
    Guards (Installed table base) (fun _ => False) (mapBase stopping k rest : Prog (Owned V B N) _ Bool) := by
  induction rest generalizing k with
  | nil => exact .pure _
  | cons r rest ih =>
    obtain ⟨⟨member,filled⟩,others⟩ := List.forall_mem_cons.mp inside
    unfold mapBase
    split
    · exact .pure _
    · exact .bind (mapRegion_installed atomic member filled) (fun _ => ih (k + 1) others)

theorem install_installed (maps : Vm.Maps V table) (stopping : Control.Stage → Bool) (view : GuestMemoryMmap)
    (layout : MachineLayout) (filled : ∀ r ∈ base, 0 < r.len) :
    Guards (Installed table base) (fun _ => False)
      (install stopping view layout base : Prog (Owned V B N) _ Unit) := by
  refine .bind (mapBase_installed maps.atomic stopping 0 base (fun r member => ⟨member,filled r member⟩)) (fun all => ?_)
  split
  · unfold launch
    split
    · exact .pure _
    refine .bind (onVm_installed _ _ (fun vm => maps.prepare vm view layout)) (fun _ => ?_)
    split
    · exact .pure _
    refine .bind (onVm_installed _ _ maps.start) (fun _ => .modify ?_)
    rintro s ⟨here,vm,fixed,created,booked,inside⟩
    refine ⟨here,vm,fixed,created,booked.keep rfl ?_ rfl,inside⟩
    split
    · exact ⟨rfl,rfl,rfl,rfl,.inl rfl⟩
    · exact refl_of (World.Kept id) s.world
  · exact .pure _

end Install
section New
variable [BlockStorage B] [NetDevice N]

theorem transports_devices {strict : Bool} {made : List (Except DeviceError (Device B N))}
    {devices : List (Mmio (Device B N))} (built : transports env strict made = .ok devices) :
    made = devices.map (fun m => .ok m.device) := by
  induction made generalizing devices with
  | nil =>
    cases built
    rfl
  | cons first rest ih =>
    cases first with
    | error e => cases built
    | ok d =>
      simp only [transports] at built
      split at built
      · cases built
      · rename_i m new
        obtain ⟨others,later,rfl⟩ := map_eq_ok.mp built
        have device : m.device = d := by
          simp only [Mmio.new] at new
          split at new
          · cases new
          · cases new
            rfl
        rw [ih later,← device]
        rfl

/-- The memory device among the devices of a configuration. -/
theorem kinds_memories {strict : Bool} {blocks : List (String × B)} {net : Option N} {memory : Option VirtioMem}
    {devices : List (Mmio (Device B N))} (built : transports env strict (kinds blocks net memory) = .ok devices) :
    memories devices = memory.toList := by
  have known : memories devices =
      (kinds blocks net memory).filterMap (fun made => made.toOption.bind Device.memory) := by
    rw [transports_devices built,List.filterMap_map]
    rfl
  have disks : (blocks.map (fun b => (Block.new b.1 b.2).map (Device.block (N := N)))).filterMap
      (fun made => made.toOption.bind Device.memory) = [] := by
    rw [List.filterMap_map,List.filterMap_eq_nil_iff]
    intro b _
    change ((Block.new b.1 b.2).map Device.block).toOption.bind Device.memory = none
    cases Block.new b.1 b.2 <;> rfl
  have nets : (net.map (fun n => (Net.new n).map (Device.net (B := B)))).toList.filterMap
      (fun made => made.toOption.bind Device.memory) = [] := by
    cases net with
    | none => rfl
    | some n =>
      change List.filterMap _ [(Net.new n).map Device.net] = []
      cases Net.new n <;> rfl
  rw [known,kinds,List.filterMap_append,List.filterMap_append,disks,nets]
  cases memory <;> rfl

/-- How the memory device comes with its control handle: made together, with targets
of the host since then. -/
def Supplied (memory : Option VirtioMem) (status : MemoryStatus) : Prop :=
  ∀ d, memory = some d → ∃ (regionSizeMib blockSizeMib : Nat) (targets : List Nat) (original : MemoryStatus),
    VirtioMem.new regionSizeMib blockSizeMib = .ok (d,original) ∧
      status = targets.foldl MemoryStatus.afterRequest original

theorem mapError_eq_ok {ε δ α : Type} {x : Except ε α} {f : ε → δ} {a : α} : x.mapError f = .ok a ↔ x = .ok a := by
  cases x <;> simp [Except.mapError]

theorem targets_region (targets : List Nat) (status : MemoryStatus) :
    (targets.foldl MemoryStatus.afterRequest status).regionSizeMib = status.regionSizeMib := by
  induction targets generalizing status with
  | nil => rfl
  | cons target rest ih =>
    rw [List.foldl_cons,ih]
    rcases status.afterRequest_cases target with same | ⟨changed,_⟩
    · rw [same]
    · rw [changed]

/-- A memory device is the only one, at its place beside the RAM. -/
theorem new_memories {config : VmConfig} {layout : VmConfig → DeviceRequirements → Except PlatformError MachineLayout}
    {world : World} {blocks : List (String × B)} {net : Option N} {memory : Option VirtioMem} {first : Owned V B N}
    (made : Owned.new env config layout world blocks net memory = .ok first) (supplied : Supplied memory world.control) :
    (∀ r ∈ first.layout.ram, 0 < r.size) ∧
      (memories first.devices = [] ∨ ∃ d d', memories first.devices = [d'] ∧ memory = some d ∧
        d.attachAt world.control d'.start = .ok d' ∧ ∀ r ∈ first.layout.ram,
          r.address + r.size ≤ d'.start ∨ d'.start + d'.capacity ≤ r.address) := by
  obtain ⟨placed,asked,checked⟩ := bind_eq_ok.mp made
  obtain ⟨_,validated,built⟩ := bind_eq_ok.mp checked
  obtain ⟨attached,attaching,transported⟩ := bind_eq_ok.mp built
  obtain ⟨devices,transports,rfl⟩ := map_eq_ok.mp transported
  have sound := validate_accepts (mapError_eq_ok.mp validated)
  refine ⟨sound.filled,?_⟩
  rw [kinds_memories transports]
  cases memory with
  | none =>
    cases attaching
    exact .inl rfl
  | some d =>
    obtain ⟨h,place,size,beside⟩ := sound.asked _ rfl
    simp only [attach,place] at attaching
    obtain ⟨d',attachedAt,rfl⟩ := map_eq_ok.mp attaching
    have located := mapError_eq_ok.mp attachedAt
    obtain ⟨regionSizeMib,blockSizeMib,targets,status,new,controlled⟩ := supplied d rfl
    obtain ⟨_,bounded,_,geometry,rfl⟩ := VirtioMem.new_accepts new
    obtain ⟨_,_,moved⟩ := VirtioMem.attachAt_accepts located
    have start : d'.start = h.address := by rw [moved]
    have capacity : d'.capacity = h.size := by
      have region : world.control.regionSizeMib = regionSizeMib := by
        rw [controlled,targets_region]
        rfl
      rw [moved,size,geometry]
      change MIB * regionSizeMib = MIB * world.control.regionSizeMib % 2^64
      rw [region,Nat.mod_eq_of_lt bounded]
    refine .inr ⟨d,d',rfl,rfl,start ▸ located,?_⟩
    rw [start,capacity]
    exact fun r member => (beside r member).symm

end New
structure Unbuilt (world : World) (first : Owned V B N) : Prop where
  vm : first.vm = none
  base : first.base = []
  mapped : first.mapped = 0
  maps : first.maps = []
  world : first.world = world

theorem new_unbuilt [BlockStorage B] [NetDevice N] {config : VmConfig}
    {layout : VmConfig → DeviceRequirements → Except PlatformError MachineLayout}
    {world : World} {blocks : List (String × B)} {net : Option N} {memory : Option VirtioMem} {first : Owned V B N}
    (made : Owned.new env config layout world blocks net memory = .ok first) : Unbuilt world first := by
  obtain ⟨_,_,checked⟩ := bind_eq_ok.mp made
  obtain ⟨_,_,built⟩ := bind_eq_ok.mp checked
  obtain ⟨_,_,transported⟩ := bind_eq_ok.mp built
  obtain ⟨_,_,rfl⟩ := map_eq_ok.mp transported
  exact ⟨rfl,rfl,rfl,rfl,rfl⟩

/-- A fresh VM holds no mappings, and the view collects the base regions. -/
structure Fresh (startup : Startup V) (table : V → Nat → Option Region) : Prop where
  view : ∀ regions view, startup.collect regions = .ok view → view.regions = regions
  created : ∀ vm, startup.create = .ok vm → table vm = fun _ => none

/-- Wherever `init` ends, the mapper holds what the record says. -/
theorem init_installed [BlockStorage B] [NetDevice N] [Vm V C] {config : VmConfig}
    {layout : VmConfig → DeviceRequirements → Except PlatformError MachineLayout}
    {world : World} {blocks : List (String × B)} {net : Option N} {memory : Option VirtioMem}
    {first s : Owned V B N} {startup : Startup V} {table : V → Nat → Option Region} {r : Except (Failure Error) Unit}
    (made : Owned.new env config layout world blocks net memory = .ok first)
    (supplied : Supplied memory world.control) (maps : Vm.Maps V table) (fresh : Fresh startup table)
    (ran : (init env startup).run first = (r,s)) : s.vm = none ∨ ∃ base, Installed table base s := by
  have unbuilt := new_unbuilt made
  obtain ⟨filled,device⟩ := new_memories made supplied
  rcases init_inversion ran with allocated | ⟨u,view,vm,allocated,collected,created,installed⟩
  · exact .inl (allocated.vm.trans unbuilt.vm)
  · right
    have ranges : ∀ q ∈ u.base, ∃ r ∈ first.layout.ram, q.start = r.address ∧ q.len = r.size := by
      intro q member
      have source := allocated.base q member
      simpa [unbuilt.base] using source
    have shown := fresh.view u.base view collected
    have start : Installed table u.base {u with vm := some vm, world := {u.world with view := view}} := by
      refine ⟨rfl,vm,fun _ => none,rfl,?_,fun _ some => absurd rfl some⟩
      rcases device with none | ⟨d,d',only,rfl,attached,beside⟩
      · exact .bare (allocated.devices ▸ none) (fresh.created vm created)
      · refine .sparse d' (allocated.devices ▸ only) ?_
        obtain ⟨region,block,targets,status,new,controlled⟩ := supplied d rfl
        have control : u.world.control = world.control := allocated.control.trans (congrArg World.control unbuilt.world)
        have here : VirtioMem.Attached table (⟨⟨d',⟨[],0,0⟩,{u.world with view := view},[]⟩,vm⟩ : Txn V) := by
          refine ⟨⟨region,block,targets,d,status,new,control.trans controlled,control ▸ attached⟩,?_,?_⟩
          · intro q member
            obtain ⟨r,inside,start,len⟩ := ranges q (shown ▸ member)
            change q.start + q.len ≤ d'.start ∨ d'.start + d'.capacity ≤ q.start
            rw [start,len]
            exact beside r inside
          · intro a _ _
            exact congrFun (fresh.created vm created) a
        have book := here.book
        rw [fresh.created vm created] at book
        exact shown ▸ book
    have kept := install_installed (B := B) (N := N) maps startup.stopping view u.layout
      (fun q member => by
        obtain ⟨r,inside,_,len⟩ := ranges q member
        exact len ▸ filled r inside) _ start
    rw [installed] at kept
    rcases kept with holds | ⟨_,_,impossible⟩
    · exact ⟨u.base,holds⟩
    · exact impossible.elim

end Owned
end WVmm
