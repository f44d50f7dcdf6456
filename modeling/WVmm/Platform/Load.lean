import WVmm.Platform.Exits
import WVmm.Platform.Fdt
import WVmm.Reference

/-! Preparing and starting a machine: the kernel, the initial RAM disk and the device tree
are written into RAM, where the boot vCPU and the tree say they are. -/
namespace WVmm
open Lib.Stores

namespace Platform.Cpus
open Lib.Runs

variable {n : Nat}

/-- Where the boot vCPU boots before any other boot of it. -/
def State.Boots (entry dtb : Nat) (booted : Option (Fin n × Nat × Nat)) (s : State n) : Prop := match booted with
  | some (_,first,context) => first = entry ∧ context = dtb
  | none => s.started = true → ∀ first : 0 < n, s.power ⟨0,first⟩ = .pending entry dtb

def primary (boot : Fin n × Nat × Nat) : Bool := boot.1.val == 0

/-- A machine that is started with these values boots with them first. -/
structure Primed (entry dtb : Nat) (s : Sys n) : Prop where
  powered : Powered s
  boots : s.shared.Boots entry dtb (s.boots.find? primary)

theorem primed_new (entry dtb : Nat) : Primed entry dtb (Sys.new n) := ⟨powered_new n,by rintro ⟨⟩⟩

theorem State.Boots.kept {entry dtb : Nat} {booted : Option (Fin n × Nat × Nat)} {s t : State n} (boots : s.Boots entry dtb booted)
    (started : t.started = s.started) (power : ∀ first : 0 < n, s.power ⟨0,first⟩ = .pending entry dtb →
      t.power ⟨0,first⟩ = .pending entry dtb) : t.Boots entry dtb booted := by
  cases booted with
  | some boot => exact boots
  | none =>
    intro here first
    exact power first (boots (started.symm.trans here) first)

theorem Primed.step {entry dtb : Nat} {s t : Sys n} {l : Label n} (primed : Primed entry dtb s) (taken : s.next l = some t)
    (once : ∀ e c, l = .start e c → s.shared.started = false ∧ e = entry ∧ c = dtb) : Primed entry dtb t := by
  refine ⟨primed.powered.step taken fun e c same => (once e c same).1,?_⟩
  have same : ∀ {p : Power} {q : Fin n → Power} {i : Fin n} {first : 0 < n}, (i = ⟨0,first⟩ → q i ≠ .pending entry dtb) →
      q ⟨0,first⟩ = .pending entry dtb → Function.update q i p ⟨0,first⟩ = .pending entry dtb := by
    intro p q i first other pending
    rw [Function.update_of_ne (fun here => ?_)]
    · exact pending
    · exact other here.symm (here ▸ pending)
  cases next_does taken with
  | boots i e c before going started power =>
    change State.Boots _ _ ((s.boots ++ [(i,e,c)]).find? primary) _
    rw [List.find?_append]
    cases found : s.boots.find? primary with
    | some boot =>
      have boots := primed.boots
      rw [found] at boots
      exact boots
    | none =>
      have boots := primed.boots
      rw [found] at boots
      rw [Option.none_or]
      by_cases here : i.val = 0
      · have some : 0 < n := i.pos
        obtain rfl : i = ⟨0,some⟩ := Fin.ext here
        obtain ⟨rfl,rfl⟩ := Power.pending.inj (power.symm.trans (boots started _))
        exact ⟨rfl,rfl⟩
      · have none : [(i,e,c)].find? primary = none := by simp [primary,here]
        rw [none]
        intro _ first
        refine same (fun target => absurd (congrArg Fin.val target) here) (boots started first)
  | powersOn i j e c before power =>
    exact primed.boots.kept rfl fun first => same fun _ pending => by rw [power] at pending; cases pending
  | powersOff i before =>
    have on : s.shared.power i = .on := primed.powered.online i (by rw [before]; rfl)
    exact primed.boots.kept rfl fun first => same fun _ pending => by rw [on] at pending; cases pending
  | starts e c first =>
    obtain ⟨_,rfl,rfl⟩ := once e c rfl
    cases found : s.boots.find? primary with
    | some boot =>
      have boots := primed.boots
      rw [found] at boots
      exact boots
    | none =>
      intro _ _
      exact Function.update_self (⟨0,first⟩ : Fin n) _ s.shared.power
  | _ => exact primed.boots.kept rfl fun _ pending => pending

/-- A step of the workers with their registers is a start only where the VMM makes one. -/
theorem Host.next_starts {m t : Host n} {d : Deed n} (taken : m.next d = some t) :
    ∃ l, m.sys.next l = some t.sys ∧ ∀ entry dtb, l = .start entry dtb → d = .other (.start entry dtb) := by
  cases d with
  | other l =>
    obtain ⟨_,acts⟩ := Option.ite_none_right_eq_some.mp taken
    obtain ⟨s,step,rfl⟩ := under_cases acts
    refine ⟨l,step,?_⟩
    rintro entry dtb rfl
    rfl
  | _ =>
    obtain ⟨l,refines⟩ := Host.next_refines taken
    refine ⟨l,refines.step,?_⟩
    rintro entry dtb rfl
    cases refines.worker

/-- `Vm::start`: where the kept layout puts the kernel and the tree is what the boot vCPU
is told. -/
def start (boot : Option Boot.Layout) : Except PlatformError (Deed n) := match boot with
  | some b => .ok (.other (.start b.entry b.dtb))
  | none => .error .vmNotPrepared

/-- The workers of a VM that keeps this layout, started once. -/
inductive Launched (l : Boot.Layout) (frames : Fin n → Frame) (exits : Fin n → Exit) (replies : Fin n → BitVec 64) :
    List (Passage n) → Host n → Prop
  | new : Launched l frames exits replies [] ⟨Sys.new n,frames,exits,replies⟩
  | step {h : List (Passage n)} {m t : Host n} {d : Deed n} (before : Launched l frames exits replies h m)
    (taken : m.next d = some t) (once : ∀ entry dtb, d = .other (.start entry dtb) →
      m.sys.shared.started = false ∧ start (some l) = .ok d) : Launched l frames exits replies (h ++ m.passages t d) t

section Launches
variable {l : Boot.Layout} {frames : Fin n → Frame} {exits : Fin n → Exit} {replies : Fin n → BitVec 64}
  {h : List (Passage n)} {m : Host n}

theorem Launched.seen (launched : Launched l frames exits replies h m) : Seen frames exits replies h m := by
  induction launched with
  | new => exact .new
  | step before taken once ih => exact ih.step taken

theorem Launched.primed (launched : Launched l frames exits replies h m) : Primed l.entry l.dtb m.sys := by
  induction launched with
  | new => exact primed_new l.entry l.dtb
  | step before taken once ih =>
    obtain ⟨label,step,starts⟩ := Host.next_starts taken
    refine ih.step step fun entry dtb same => ?_
    obtain ⟨unstarted,told⟩ := once entry dtb (starts entry dtb same)
    rw [starts entry dtb same] at told
    cases told
    exact ⟨unstarted,rfl,rfl⟩

/-- The boot vCPU first enters the guest where the kept layout puts the kernel, with the
address of the tree in `x0`. -/
theorem Launched.boots (launched : Launched l frames exits replies h m) {before after : List (Passage n)} {i : Fin n}
    {entry context : Nat} {f : Frame} (split : h = before ++ .booted i entry context f::after) (first : i.val = 0)
    (earlier : ∀ j e c g, .booted j e c g ∈ before → j ≠ i) :
    f.regs PC = BitVec.ofNat 64 l.entry ∧ f.regs 0 = BitVec.ofNat 64 l.dtb := by
  obtain ⟨_,stays⟩ := launched.seen.ends (i := i) split rfl
  obtain ⟨state,_⟩ := stays.of_booted
  have none : (before.filterMap Passage.asBoot).find? primary = none := by
    refine List.find?_eq_none.mpr fun boot member main => ?_
    obtain ⟨p,inside,asked⟩ := List.mem_filterMap.mp member
    cases p with
    | booted j e c g =>
      cases asked
      exact earlier j e c g inside (Fin.ext ((by simpa [primary] using main : j.val = 0).trans first.symm))
    | resumed j g => cases asked
    | left j exit g => cases asked
  have found : m.sys.boots.find? primary = some (i,entry,context) := by
    have own : primary (i,entry,context) = true := by simp [primary,first]
    rw [launched.seen.boots,split,List.filterMap_append,List.find?_append,none,Option.none_or]
    change ((i,entry,context)::after.filterMap Passage.asBoot).find? primary = _
    rw [List.find?_cons_of_pos own]
  have boots := launched.primed.boots
  rw [found] at boots
  obtain ⟨rfl,rfl⟩ := boots
  exact ⟨state.pc,state.context⟩

end Launches

end Platform.Cpus

namespace Platform.Boot
open Lib.DeviceTree

/-- The kernel loader: the memory it leaves and where it loaded the kernel, if it
succeeds. -/
abbrev Loader := GuestMemoryMmap → Host → Option (Host × Nat)

def Loader.Stores (pe : Loader) (kernel : List UInt8) : Prop :=
  ∀ view host host' address, pe view host = some (host',address) → Stored view host address kernel host'

def written (done : Except Foreign Unit × Host) : LoadResult Host := match done with
  | (.ok (),host) => .ok host
  | (.error _,_) => .error (.error .guestMemory)

def load (vm : VmMemory) (pe : Loader) (initrd : List UInt8) (view : GuestMemoryMmap) (l : Layout) (dtb : List UInt8)
    (host : Host) : LoadResult Host :=
  if dtb.length > 0x200000 then .error (.error (.fdtExceedsReservedSpace dtb.length))
  else match pe view host with
    | none => .error (.error .loader)
    | some (host,entry) =>
      if entry ≠ l.entry then .error (.error .loaderLayoutDisagreement)
      else (written (vm.writeSlice view host l.initrd initrd)).bind fun host =>
        written (vm.writeSlice view host l.dtb dtb)

/-- What `gic` and `validate_irqs` learn from the hypervisor. -/
structure Gic where
  redistSize : Nat
  timers : Nat × Nat
  spiBase : Nat
  spiCount : Nat

/-- The redistributor is to end below RAM. -/
def Gic.fits (g : Gic) : Hvf.Outcome Unit :=
  if GIC_REDIST + g.redistSize < 2^64 then
    if GIC_REDIST + g.redistSize > RAM then .error (.error .gicOverlapsRam) else .ok ()
  else .error (.panic .overflow)

def validateIrqs (g : Gic) (regions : List VirtioRegion) : Except PlatformError Unit :=
  if g.spiBase + g.spiCount < 2^32 then
    if (g.spiBase ≤ UART_IRQ ∧ UART_IRQ < g.spiBase + g.spiCount) ∧
        ∀ r ∈ regions, g.spiBase ≤ r.irq ∧ r.irq < g.spiBase + g.spiCount then .ok ()
    else .error (.gicSpiRange g.spiBase (g.spiBase + g.spiCount))
  else .error .invalidGicSpiRange

def fromLoad {α : Type} (r : LoadResult α) : Hvf.Outcome α := r.mapError (Failure.convert fun e => .boot ⟨e.text⟩)

/-- `prepare` up to the creation of the vCPUs: the memory it leaves and the boot layout it
keeps. -/
def prepare (gic : Except PlatformError Gic) (w : FdtWriter) (vm : VmMemory) (pe : Loader) (kernel initrd : List UInt8)
    (config : VmConfig) (machine : MachineLayout) (view : GuestMemoryMmap) (host : Host) : Hvf.Outcome (Host × Layout) :=
  (Hvf.fromBoot (Layout.new config.memoryMib kernel initrd.length)).bind fun l =>
    (Hvf.fromHost gic).bind fun g =>
    g.fits.bind fun _ =>
    (Hvf.fromHost (validateIrqs g (regionsOf machine))).bind fun _ =>
    (fromLoad (fdt w l (regionsOf machine) g.redistSize g.timers config.vcpuCount machine.hotplug.isSome initrd.length)).bind
      fun tokens =>
    (fromLoad (match w.finish tokens with
      | some dtb => .ok dtb
      | none => .error (.error .fdt))).bind fun dtb =>
    (fromLoad (load vm pe initrd view l dtb host)).map fun host => (host,l)

def Finds (view : GuestMemoryMmap) (host : Host) (address : Nat) (bytes : List UInt8) : Prop :=
  List.Forall₂ (fun a b => ∃ p, view.Backs a p ∧ host p = b) (List.range' address bytes.length) bytes

def Beside (address : Nat) (bytes : List UInt8) (a : Nat) : Prop := a < address ∨ address + bytes.length ≤ a

section Storing
variable {view : GuestMemoryMmap} {host host' : Host} {address other : Nat} {bytes more : List UInt8} {r : Region}

theorem backs_single (only : view.regions = [r]) {a p : Nat} : view.Backs a p ↔ r.Holds a ∧ p = r.ptr + (a - r.start) := by
  simp [GuestMemoryMmap.Backs,only]

/-- In memory of one region a range has its places next to each other. -/
theorem places_single (only : view.regions = [r]) {guest places : List Nat} (backed : List.Forall₂ view.Backs guest places) :
    places = guest.map (fun a => r.ptr + (a - r.start)) ∧ ∀ a ∈ guest, r.Holds a := by
  induction backed with
  | nil => exact ⟨rfl,List.forall_mem_nil _⟩
  | cons first _ ih =>
    obtain ⟨holds,rfl⟩ := (backs_single only).mp first
    exact ⟨congrArg _ ih.1,List.forall_mem_cons.mpr ⟨holds,ih.2⟩⟩

theorem places_nodup (only : view.regions = [r]) {guest places : List Nat} (backed : List.Forall₂ view.Backs guest places)
    (distinct : guest.Nodup) : places.Nodup := by
  obtain ⟨rfl,holds⟩ := places_single only backed
  refine distinct.map_on fun a left b right same => ?_
  have low := (holds a left).1
  have low' := (holds b right).1
  omega

theorem stored_finds (only : view.regions = [r]) (stored : Stored view host address bytes host') :
    Finds view host' address bytes := by
  obtain ⟨places,backed,rfl⟩ := stored
  have distinct := places_nodup only backed List.nodup_range'
  have sizes : places.length = bytes.length := by simpa using backed.length_eq.symm
  refine List.forall₂_iff_get.mpr ⟨by simp,fun i inside there => ?_⟩
  have place : i < places.length := sizes ▸ there
  exact ⟨places.get ⟨i,place⟩,(List.forall₂_iff_get.mp backed).2 i inside place,store_get distinct place there⟩

theorem stored_kept (stored : Stored view host address bytes host') {p : Nat}
    (beside : ∀ a, view.Backs a p → Beside address bytes a) : host' p = host p := by
  obtain ⟨places,backed,rfl⟩ := stored
  refine store_outside fun member => ?_
  obtain ⟨i,place,rfl⟩ := List.getElem_of_mem member
  have inside : i < (List.range' address bytes.length).length := backed.length_eq.symm ▸ place
  have here := beside _ ((List.forall₂_iff_get.mp backed).2 i inside place)
  simp only [List.get_eq_getElem,List.getElem_range',Beside] at here
  simp only [List.length_range'] at inside
  omega

theorem finds_apart (only : view.regions = [r]) (finds : Finds view host other more)
    (stored : Stored view host address bytes host')
    (apart : other + more.length ≤ address ∨ address + bytes.length ≤ other) : Finds view host' other more := by
  refine List.forall₂_iff_get.mpr ⟨by simp,fun i inside there => ?_⟩
  obtain ⟨p,backs,same⟩ := (List.forall₂_iff_get.mp finds).2 i inside there
  refine ⟨p,backs,(stored_kept stored fun a also => ?_).trans same⟩
  -- One region has one guest address for a place.
  obtain ⟨holds,rfl⟩ := (backs_single only).mp backs
  obtain ⟨holds',same⟩ := (backs_single only).mp also
  have low := holds.1
  have low' := holds'.1
  simp only [List.get_eq_getElem,List.getElem_range'] at *
  unfold Beside
  omega

end Storing

theorem written_eq_ok {done : Except Foreign Unit × Host} {host : Host} : written done = .ok host ↔ done = (.ok (),host) := by
  obtain ⟨result,after⟩ := done
  cases result <;> simp [written]

/-- What `load` does when it succeeds: three images, one after another. -/
theorem load_stores {vm : VmMemory} {pe : Loader} {kernel initrd dtb : List UInt8} {view : GuestMemoryMmap} {l : Layout}
    {host host' : Host} (loads : pe.Stores kernel) (stores : vm.Stores)
    (loaded : load vm pe initrd view l dtb host = .ok host') : ∃ first second, Stored view host l.entry kernel first ∧
      Stored view first l.initrd initrd second ∧ Stored view second l.dtb dtb host' := by
  unfold load at loaded
  split at loaded
  · cases loaded
  · split at loaded
    · cases loaded
    · rename_i first entry ran
      split at loaded
      · cases loaded
      · rename_i agrees
        have agrees : entry = l.entry := not_not.mp agrees
        obtain ⟨second,disk,tree⟩ := bind_eq_ok.mp loaded
        exact ⟨first,second,agrees ▸ loads _ _ _ _ ran,stores _ _ _ _ _ (written_eq_ok.mp disk),
          stores _ _ _ _ _ (written_eq_ok.mp tree)⟩

theorem load_fits {vm : VmMemory} {pe : Loader} {initrd dtb : List UInt8} {view : GuestMemoryMmap} {l : Layout}
    {host host' : Host} (loaded : load vm pe initrd view l dtb host = .ok host') : dtb.length ≤ 0x200000 := by
  unfold load at loaded
  split at loaded
  · cases loaded
  · exact Nat.not_lt.mp ‹_›

theorem fromLoad_eq_ok {α : Type} {r : LoadResult α} {a : α} : fromLoad r = .ok a ↔ r = .ok a := by
  cases r <;> simp [fromLoad,Except.mapError]

/-- What is in memory when the boot vCPU starts. -/
structure Ready (w : FdtWriter) (kernel initrd dtb : List UInt8) (config : VmConfig) (machine : MachineLayout)
    (view : GuestMemoryMmap) (host host' : Host) (l : Layout) : Prop where
  /-- The device tree describes the machine. -/
  tree : ∃ tokens root, w.tokens dtb = some tokens ∧ read tokens = some root ∧
    Describes root machine config.vcpuCount initrd.length l
  /-- It lies at the top of RAM. -/
  blob : Finds view host' l.dtb dtb ∧ l.dtb + dtb.length ≤ RAM + l.size
  /-- Where the tree says lies the initial RAM disk, below the tree. -/
  ramdisk : Finds view host' l.initrd initrd ∧ l.initrd + initrd.length ≤ l.dtb
  /-- At the entry lies the kernel, below the RAM disk. -/
  image : Finds view host' l.entry kernel ∧ RAM ≤ l.entry ∧ l.entry + kernel.length ≤ l.initrd
  /-- No other byte is written. -/
  rest : ∀ p, (∀ a, view.Backs a p → Beside l.entry kernel a ∧ Beside l.initrd initrd a ∧ Beside l.dtb dtb a) →
    host' p = host p

open Platform.Cpus (Frame Exit Passage Launched) in
/-- When `prepare` succeeds in the RAM of the layout, guest memory holds the kernel, the
initial RAM disk and the device tree, each whole and apart from the others, and is
otherwise as it was; the tree describes the machine of the layout. Started so, the boot
vCPU enters the guest at the kernel with the address of the tree in `x0`. -/
theorem prepare_boots {hvf : Hvf.Host} {gic : Except PlatformError Gic} {w : FdtWriter} {vm : VmMemory} {pe : Loader}
    {kernel initrd : List UInt8} {config : VmConfig} {devices : DeviceRequirements} {machine : MachineLayout}
    {view : GuestMemoryMmap} {host host' : Host} {l : Layout}
    (prepared : prepare gic w vm pe kernel initrd config machine view host = .ok (host',l))
    (made : Hvf.layout hvf kernel initrd.length config devices = .ok machine) (few : config.vcpuCount < 2^32)
    (ram : view.regions.map (fun r => (r.start,r.len)) = machine.ram.map fun r => (r.address,r.size))
    (loads : pe.Stores kernel) (stores : vm.Stores) (encodes : w.Encodes) (faithful : w.Faithful) :
    ∃ dtb, Ready w kernel initrd dtb config machine view host host' l ∧
      ∀ (frames : Fin config.vcpuCount → Frame) (exits : Fin config.vcpuCount → Exit)
        (replies : Fin config.vcpuCount → BitVec 64) (h : List (Passage config.vcpuCount))
        (m : Platform.Cpus.Host config.vcpuCount), Launched l frames exits replies h m →
        ∀ before after i entry context f, h = before ++ .booted i entry context f::after → i.val = 0 →
          (∀ j e c g, .booted j e c g ∈ before → j ≠ i) →
          f.regs Platform.Cpus.PC = BitVec.ofNat 64 l.entry ∧ f.regs 0 = BitVec.ofNat 64 l.dtb := by
  obtain ⟨l',booted,prepared⟩ := bind_eq_ok.mp prepared
  obtain ⟨g,_,prepared⟩ := bind_eq_ok.mp prepared
  obtain ⟨_,_,prepared⟩ := bind_eq_ok.mp prepared
  obtain ⟨_,_,prepared⟩ := bind_eq_ok.mp prepared
  obtain ⟨tokens,told,prepared⟩ := bind_eq_ok.mp prepared
  obtain ⟨dtb,finished,prepared⟩ := bind_eq_ok.mp prepared
  obtain ⟨after,loaded,same⟩ := map_eq_ok.mp prepared
  cases same
  have booted := Hvf.fromBoot_eq_ok.mp booted
  obtain ⟨_,_,_,_,_,rfl⟩ := (fdt_eq_ok encodes).mp (fromLoad_eq_ok.mp told)
  have loaded := fromLoad_eq_ok.mp loaded
  have short := load_fits loaded
  obtain ⟨first,second,kernelStored,initrdStored,dtbStored⟩ := load_stores loads stores loaded
  have blob : w.finish (tree l (regionsOf machine) g.redistSize g.timers config.vcpuCount machine.hotplug.isSome
      initrd.length).tokens = some dtb := by
    have found := fromLoad_eq_ok.mp finished
    split at found
    · rename_i there
      cases found
      exact there
    · cases found
  obtain ⟨_,_,_,only,_⟩ := Hvf.layout_accepts made
  obtain ⟨r,single⟩ : ∃ r, view.regions = [r] := by
    rw [only] at ram
    exact List.length_eq_one_iff.mp (by simpa using congrArg List.length ram)
  obtain ⟨⟨imageSize,offset,placement⟩,_⟩ := placed_within booted
  have kernelEnd := placement.kernel
  have entry := placement.entry
  have image := Nat.le_max_right imageSize kernel.length
  have ramdisk := placement.ramdisk
  have top := placement.top
  refine ⟨dtb,⟨⟨_,_,faithful _ _ blob,read_tokens _,tree_describes made few booted _ _ _⟩,
    ⟨stored_finds single dtbStored,by omega⟩,⟨?_,ramdisk⟩,⟨?_,by omega,by omega⟩,?_⟩,?_⟩
  · exact finds_apart single (stored_finds single initrdStored) dtbStored (.inl ramdisk)
  · exact finds_apart single (finds_apart single (stored_finds single kernelStored) initrdStored (.inl (by omega)))
      dtbStored (.inl (by omega))
  · intro p beside
    rw [stored_kept dtbStored fun a backs => (beside a backs).2.2,
      stored_kept initrdStored fun a backs => (beside a backs).2.1,
      stored_kept kernelStored fun a backs => (beside a backs).1]
  · intro frames exits replies h m launched before after i entry context f split boot earlier
    exact launched.boots split boot earlier

def smallRam : GuestMemoryMmap := ⟨[⟨RAM,512 * MIB,0x1000,0⟩],List.pairwise_singleton _ _⟩

def plainLoader (kernel : List UInt8) : Loader := fun view host =>
  match Reference.writeSlice view host RAM kernel with
  | (.ok (),host) => some (host,RAM)
  | (.error _,_) => none

theorem plainLoader_stores (kernel : List UInt8) : (plainLoader kernel).Stores kernel := by
  intro view host host' address ran
  unfold plainLoader at ran
  split at ran
  · rename_i done
    cases ran
    exact Reference.vmMemory_stores _ _ _ _ _ done
  · cases ran

theorem oneBlob_faithful (tokens : List Token) : (oneBlob tokens).Faithful := by
  intro found blob finished
  obtain ⟨rfl,same⟩ := Option.ite_none_right_eq_some.mp finished
  cases same
  rfl

open Platform.Cpus (Frame Launched blank loadExit) in
/-- A RAM disk of three bytes, one device and one vCPU, which finds the tree by its `x0`. -/
theorem prepare_boots_small : ∃ machine w host' l,
    prepare (.ok ⟨0x20000,(30,27),32,988⟩) w Reference.vmMemory (plainLoader Hvf.smallKernel) Hvf.smallKernel [1,2,3]
      ⟨512,1,true⟩ machine smallRam (fun _ => 0) = .ok (host',l) ∧ Finds smallRam host' l.initrd [1,2,3] ∧
    ∃ (f : Frame) (m : Platform.Cpus.Host 1), Launched l (fun _ => blank) (fun _ => loadExit) (fun _ => 0)
      [.booted 0 l.entry l.dtb f] m ∧ f.regs 0 = BitVec.ofNat 64 l.dtb := by
  obtain ⟨machine,made,irqs,ram⟩ : ∃ machine,
      Hvf.layout ⟨.ok 8,.ok 36⟩ Hvf.smallKernel 3 ⟨512,1,true⟩ ⟨[.net],none⟩ = .ok machine ∧
      validateIrqs ⟨0x20000,(30,27),32,988⟩ (regionsOf machine) = .ok () ∧
      smallRam.regions.map (fun r => (r.start,r.len)) = machine.ram.map fun r => (r.address,r.size) := ⟨_,rfl,rfl,rfl⟩
  obtain ⟨l,booted,initrd,host',loaded⟩ : ∃ l, Layout.new 512 Hvf.smallKernel 3 = .ok l ∧ l.initrd + 3 < 2^64 ∧
      ∃ host', load Reference.vmMemory (plainLoader Hvf.smallKernel) [1,2,3] smallRam l [0xd0,0x0d,0xfe,0xed]
        (fun _ => 0) = .ok host' := ⟨_,rfl,by decide,_,rfl⟩
  obtain ⟨tokens,same⟩ : ∃ tokens,
      tokens = (tree l (regionsOf machine) 0x20000 (30,27) 1 machine.hotplug.isSome 3).tokens := ⟨_,rfl⟩
  have told : fdt (oneBlob tokens) l (regionsOf machine) 0x20000 (30,27) 1 machine.hotplug.isSome 3 = .ok tokens :=
    (fdt_eq_ok (oneBlob_encodes tokens)).mpr
      ⟨by decide,initrd,by decide,by decide,fun d member => ((regions_within made).1 d member).2.1,same⟩
  have prepared : prepare (.ok ⟨0x20000,(30,27),32,988⟩) (oneBlob tokens) Reference.vmMemory (plainLoader Hvf.smallKernel)
      Hvf.smallKernel [1,2,3] ⟨512,1,true⟩ machine smallRam (fun _ => 0) = .ok (host',l) := by
    refine bind_eq_ok.mpr ⟨l,Hvf.fromBoot_eq_ok.mpr booted,bind_eq_ok.mpr ⟨_,rfl,bind_eq_ok.mpr ⟨(),rfl,?_⟩⟩⟩
    refine bind_eq_ok.mpr ⟨(),Hvf.fromHost_eq_ok.mpr irqs,bind_eq_ok.mpr ⟨tokens,fromLoad_eq_ok.mpr told,?_⟩⟩
    refine bind_eq_ok.mpr ⟨[0xd0,0x0d,0xfe,0xed],fromLoad_eq_ok.mpr ?_,?_⟩
    · simp only [oneBlob,if_true]
    · exact map_eq_ok.mpr ⟨host',fromLoad_eq_ok.mpr loaded,rfl⟩
  obtain ⟨_,ready,boots⟩ := prepare_boots prepared made (by decide) ram (plainLoader_stores _) Reference.vmMemory_stores
    (oneBlob_encodes tokens) (oneBlob_faithful tokens)
  obtain ⟨m,f,launched⟩ : ∃ (m : Platform.Cpus.Host 1) (f : Frame), Launched l (fun _ => blank) (fun _ => loadExit) (fun _ => 0)
      [.booted 0 l.entry l.dtb f] m := by
    have fresh : Launched (n := 1) l (fun _ => blank) (fun _ => loadExit) (fun _ => 0) [] _ := .new
    have started := fresh.step (d := .other (.start l.entry l.dtb)) rfl (fun _ _ _ => ⟨rfl,rfl⟩)
    exact ⟨_,_,started.step (d := .lockTop 0) rfl nofun⟩
  exact ⟨machine,_,host',l,prepared,ready.ramdisk.1,f,m,launched,
    (boots _ _ _ _ _ launched [] [] 0 _ _ f rfl rfl (fun _ _ _ _ member => by cases member)).2⟩

end Platform.Boot
end WVmm
