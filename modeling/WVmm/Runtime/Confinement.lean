import WVmm.Runtime.Visits
import WVmm.Runtime.Reference
import WVmm.Devices.Confinement
import WVmm.Devices.Negotiation
import WVmm.Devices.MemoryRuns

/-! DMA confinement, for every step of every device: what the negotiation invariant says
of a transport, the runtime keeps, and from it a device runs as its kind may. -/
namespace WVmm
open Lib.Effect Lib.Runs Devices

variable {V C B N : Type} [BlockStorage B] [NetDevice N]

namespace Devices.Agreed

variable {s : Slot (Device B N)}

theorem moved (env : Env) (agreed : Agreed s) {c : Cell (Device B N)}
    (advances : Advances LawfulDevice.fits s.cell c) : Agreed (s.putCell c) :=
  (Evolves.ofAdvances advances : Evolves env s _).agreed agreed

/-- Interrupts, selectors, counters, memory and trace do not matter. -/
theorem elsewhere (agreed : Agreed s) {t : Slot (Device B N)} (rings : t.mmio.queues.rings = s.mmio.queues.rings)
    (negotiated : t.mmio.queues.negotiated = s.mmio.queues.negotiated) (features : t.mmio.features = s.mmio.features)
    (status : t.mmio.status = s.mmio.status) (fits : t.mmio.device.Fits)
    (count : VirtioDevice.queueCount t.mmio.device = VirtioDevice.queueCount s.mmio.device)
    (required : VirtioDevice.requiredFeatures t.mmio.device = VirtioDevice.requiredFeatures s.mmio.device) :
    Agreed t := by
  refine ⟨⟨fits,?_,?_⟩,?_,?_,?_⟩
  · exact (congrArg List.length rings).trans (agreed.sits.count.trans count.symm)
  · intro q member
    exact agreed.sits.sized q (rings ▸ member)
  · rw [rings]
    exact agreed.rings
  · rw [status,Slot.Accepted,negotiated,features,required]
    exact agreed.accepted
  · rw [Slot.Running,status]
    exact agreed.running

theorem settled {α : Type} (env : Env) (agreed : Agreed s) (r : Except (Failure DeviceError) α) :
    Agreed (Mmio.settled s r).2 := by
  have still : Evolves env s s := .still rfl rfl (fun _ => rfl) (forall₂_kept _) agreed.sits.fits rfl rfl
  rcases Mmio.settled_slot s r with same | isolated
  · rwa [same]
  · rw [isolated]
    exact (still.isolate rfl).agreed agreed

end Devices.Agreed

section Operations
variable {env : Env} (lawful : env.vm.Lawful) (lawful' : env.vq.Lawful)
include lawful'

theorem process_agreed [Mapper V] {b : Bay V (Device B N)} (agreed : Agreed b.slot) (pinned : List (Nat × Nat)) :
    Agreed ((Bay.process env pinned).run b).2.slot := by
  simp only [Bay.process,Prog.run_mk]
  cases kind : b.slot.mmio.device with
  | mem d =>
    have turned := VirtioMem.processLoop_turns (M := V) lawful' pinned 128
      ⟨⟨d,b.slot.mmio.queues,b.slot.world,b.slot.trace⟩,b.vm⟩
    dsimp only
    change Queues.Turned b.slot.mmio.queues ((VirtioMem.process env pinned).run
      (⟨⟨d,b.slot.mmio.queues,b.slot.world,b.slot.trace⟩,b.vm⟩ : Txn V)).2.cell.queues at turned
    generalize (VirtioMem.process env pinned).run
      (⟨⟨d,b.slot.mmio.queues,b.slot.world,b.slot.trace⟩,b.vm⟩ : Txn V) = outcome at turned ⊢
    refine agreed.moved env ⟨turned.rings,turned.negotiated,trivial,?_,?_⟩
    · exact (congrArg VirtioDevice.queueCount kind.symm : VirtioDevice.queueCount (Device.mem d : Device B N) = _)
    · exact (congrArg VirtioDevice.requiredFeatures kind.symm :
        VirtioDevice.requiredFeatures (Device.mem d : Device B N) = _)
  | _ => exact agreed

include lawful

/-- Nothing the runtime asks of a device breaks the negotiation. -/
theorem perform_agreed [VirtualMachine V C] (op : Operation) (b : Bay V (Device B N)) (agreed : Agreed b.slot) :
    Agreed ((Bay.perform env op).run b).2.slot := by
  cases op with
  | write offset value => exact happens_agreed lawful lawful' agreed (rfl : Happens env _ (.write offset value) _)
  | poll => exact happens_agreed lawful lawful' agreed (rfl : Happens env _ .poll _)
  | sync active =>
    have ran : ((Bay.perform env (.sync active)).run b).2.slot = Runtime.synced active b.slot :=
      congrArg Prod.snd (Runtime.syncTarget_run active b.slot)
    rw [ran]
    unfold Runtime.synced
    dsimp only
    split
    · rename_i d kind
      split
      · exact agreed.elsewhere rfl rfl rfl rfl agreed.sits.fits rfl rfl
      · exact agreed.elsewhere rfl rfl rfl rfl trivial (by rw [kind]; rfl) (by rw [kind]; rfl)
    · exact agreed
  | available =>
    rw [Runtime.available_slot]
    have some : 0 < VirtioDevice.queueCount b.slot.mmio.device := by
      cases b.slot.mmio.device <;> exact Nat.zero_lt_succ _
    have looks : Acts env ⟨True,True⟩ Device.Keeps b.slot.trace.length (Wired b.slot.world.view _ _)
        (Queues.available env 0 : Prog (Cell (Device B N)) _ Nat) _ := Queues.available_acts some
    have moves := (looks b.slot.cell agreed.sits.idle.wired).1
    exact (agreed.moved env (.ofMoves agreed.sits moves)).settled env _
  | pinned =>
    rw [Runtime.pinned_slot]
    refine Agreed.settled env ?_ _
    exact agreed.elsewhere rfl rfl rfl rfl agreed.sits.fits rfl rfl
  | process pinned =>
    rw [Runtime.process_slot]
    exact (process_agreed lawful' agreed pinned).settled env _

end Operations

/-- The operations that serve queues: notifications, polls and memory transactions. -/
def Operation.Serves : Operation → Prop
  | .write offset _ => offset = 0x50
  | .poll => True
  | .process _ => True
  | _ => False

/-- What a visit leaves of guest memory: everything when its device is not active, and
otherwise every byte that stays in its allocation and is neither under a device-writable
descriptor that was popped nor in the used ring of a ready queue. Guests that run may
write as well. -/
structure Visit.Confined (env : Env) (v : Visit B N) : Prop where
  inactive : v.before.mmio.active = false → v.after.world.view = v.before.world.view ∧
    ∀ p, v.before.world.paused = true ∨ env.Leaves p → v.after.world.host p = v.before.world.host p
  active : ∀ r ∈ v.before.world.view.regions, r ∈ v.after.world.view.regions → ∀ a, r.Holds a →
    (v.before.world.paused = true ∨ env.Leaves (r.byte a)) →
    v.after.world.host (r.byte a) ≠ v.before.world.host (r.byte a) →
    Touches v.after.trace v.before.mmio.queues.rings a

/-- The same for every address that is in the view before and after, in whatever allocation. -/
def Visit.AddressConfined (env : Env) (v : Visit B N) : Prop :=
  ∀ a p p', v.before.world.view.Backs a p → v.after.world.view.Backs a p' →
    (v.before.world.paused = true ∨ env.Leaves p ∧ env.Leaves p') → v.after.world.host p' ≠ v.before.world.host p →
    Touches v.after.trace v.before.mmio.queues.rings a

section Steps
variable {env : Env} {s : Slot (Device B N)}

omit [BlockStorage B] [NetDevice N] in
theorem Devices.Cell.Confined.settled {α : Type} {n : Nat} {t : Slot (Device B N)}
    (confined : s.cell.Confined env n t.cell) (r : Except (Failure DeviceError) α) :
    s.cell.Confined env n (Mmio.settled t r).2.cell := by
  rcases Mmio.settled_slot t r with same | isolated
  · rwa [same]
  · rw [isolated]
    have rings : (Mmio.isolated t).cell.queues.rings = t.cell.queues.rings := by
      simp only [Mmio.isolated,Slot.withMmio,Slot.cell,Mmio.isolate]
      split <;> rfl
    exact ⟨confined.grown,rings ▸ confined.rings,confined.paused,confined.counted,confined.unshared,confined.older,
      confined.bytes⟩

variable (lawful : env.vm.Lawful) (lawful' : env.vq.Lawful) (obeys : Device.Obeys B N ⟨True,False⟩)
include lawful lawful' obeys

theorem notify_confined (agreed : Agreed s) (n queue : Nat) :
    ((Mmio.notify env queue).run s).2 = s ∨
      s.mmio.active = true ∧ s.cell.Confined env n ((Mmio.notify env queue).run s).2.cell := by
  rw [Mmio.notify_run]
  split
  · rename_i listens
    rw [Mmio.listens,Bool.and_eq_true] at listens
    have bound : queue < s.mmio.queues.rings.length := by
      by_contra missing
      rw [List.getElem?_eq_none (by omega)] at listens
      cases listens.2
    have idle : Device.Idle s.world.view 0 s.cell :=
      ⟨⟨rfl,agreed.sits.count,Nat.zero_le _,agreed.sits.sized⟩,agreed.sits.fits⟩
    have moves := (Device.notify_acts (k := 0) lawful lawful' obeys queue s.cell ⟨idle,bound⟩).1
    exact .inr ⟨listens.1,Cell.Confined.settled (.ofMoves moves) _⟩
  · exact .inl rfl

theorem poll_confined (agreed : Agreed s) (n : Nat) :
    ((Mmio.poll env).run s).2 = s ∨
      s.mmio.active = true ∧ s.cell.Confined env n ((Mmio.poll env).run s).2.cell := by
  rw [Mmio.poll_run]
  split
  · rename_i active
    have idle : Device.Idle s.world.view 0 s.cell :=
      ⟨⟨rfl,agreed.sits.count,Nat.zero_le _,agreed.sits.sized⟩,agreed.sits.fits⟩
    have moves := (Device.poll_acts (k := 0) lawful lawful' obeys s.cell idle).1
    exact .inr ⟨active,Cell.Confined.settled (.ofMoves moves) _⟩
  · exact .inl rfl

omit obeys in
theorem process_confined [Mapper V] (fresh : env.FreshAllocations) {b : Bay V (Device B N)} (agreed : Agreed b.slot)
    (pinned : List (Nat × Nat)) :
    b.slot.cell.Confined env b.slot.world.allocations ((Bay.process env pinned).run b).2.slot.cell := by
  simp only [Bay.process,Prog.run_mk]
  cases kind : b.slot.mmio.device with
  | mem d =>
    have count : b.slot.mmio.queues.rings.length = 1 :=
      agreed.sits.count.trans (congrArg VirtioDevice.queueCount kind)
    have wires : VirtioMem.Wires b.slot.world.allocations
        (⟨⟨d,b.slot.mmio.queues,b.slot.world,b.slot.trace⟩,b.vm⟩ : Txn V) :=
      ⟨Nat.le_refl _,count,agreed.sits.sized⟩
    have confined := (VirtioMem.processLoop_confined lawful lawful' fresh _ pinned 128 _ wires).1
    exact ⟨confined.grown,confined.rings,confined.paused,confined.counted,confined.unshared,confined.older,confined.bytes⟩
  | _ => exact .refl _

end Steps

section Histories
variable {env : Env}

theorem visit_confined [VirtualMachine V C] (lawful : env.vm.Lawful) (lawful' : env.vq.Lawful)
    (fresh : env.FreshAllocations) (obeys : Device.Obeys B N ⟨True,False⟩) {v : Visit B N} (made : Runtime.Made V env v)
    (agreed : Agreed v.before) (serves : v.operation.Serves)
    (unshared : v.before.world.view.Unshared v.before.world.allocations) : v.Confined env := by
  obtain ⟨asked,_,vm,performed⟩ := made
  have outcome : v.after = v.before ∨ v.before.mmio.active = true ∧
      v.before.cell.Confined env v.before.world.allocations v.after.cell := by
    obtain ⟨k,op,before,after⟩ := v
    change after = ((Bay.perform env op).run ⟨before,vm⟩).2.slot at performed
    subst performed
    cases op with
    | write offset value =>
      cases serves
      exact notify_confined lawful lawful' obeys agreed _ value.toNat
    | poll => exact poll_confined lawful lawful' obeys agreed _
    | process pinned =>
      refine .inr ⟨asked.1,?_⟩
      rw [Runtime.process_slot]
      exact (process_confined (V := V) (b := ⟨before,vm⟩) lawful lawful' fresh agreed pinned).settled _
    | sync => cases serves
    | available => cases serves
    | pinned => cases serves
  refine ⟨fun stopped => ?_,fun r member later a holds quiet changed => ?_⟩
  · rcases outcome with same | ⟨active,_⟩
    · rw [same]
      exact ⟨rfl,fun _ _ => rfl⟩
    · rw [stopped] at active
      cases active
  · rcases outcome with same | ⟨_,confined⟩
    · rw [same] at changed
      exact absurd rfl changed
    · exact confined.bytes unshared r member later (unshared.counted r member) a holds quiet changed

/-- Every visit of a history finds the negotiation unbroken, whatever is in memory. -/
theorem linked_agreed [VirtualMachine V C] (lawful : env.vm.Lawful) (lawful' : env.vq.Lawful)
    {first last : Mmio (Device B N)} {visits : List (Visit B N)} (agreed : ∀ world, Agreed ⟨first,world,[]⟩)
    (linked : Runtime.Linked first visits last) (made : ∀ v ∈ visits, Runtime.Made V env v) :
    ∀ v ∈ visits, Agreed v.before := by
  induction visits generalizing first with
  | nil => exact List.forall_mem_nil _
  | cons v rest ih =>
    obtain ⟨same,later⟩ := linked
    obtain ⟨_,untraced,vm,performed⟩ := made v List.mem_cons_self
    have before : Agreed v.before := by
      have here := agreed v.before.world
      rw [← same,← untraced] at here
      exact here
    have after : Agreed v.after := by
      rw [performed]
      exact perform_agreed lawful lawful' v.operation ⟨v.before,vm⟩ before
    refine List.forall_mem_cons.mpr ⟨before,ih (fun world => ?_) later (fun w member => made w (List.mem_cons_of_mem _ member))⟩
    exact after.elsewhere rfl rfl rfl rfl after.sits.fits rfl rfl

/-- In every history of a transport, whatever is in memory before each of its visits,
notifications, polls and memory transactions are confined. -/
theorem dma_confined [VirtualMachine V C] (lawful : env.vm.Lawful) (lawful' : env.vq.Lawful)
    (fresh : env.FreshAllocations) (obeys : Device.Obeys B N ⟨True,False⟩) (device : Device B N) (fits : device.Fits)
    (m : Mmio (Device B N)) (new : Mmio.new env device = .ok m) (strict : Bool) (visits : List (Visit B N))
    (last : Mmio (Device B N)) (linked : Runtime.Linked (m.withStrict strict) visits last)
    (made : ∀ v ∈ visits, Runtime.Made V env v) :
    ∀ v ∈ visits, v.operation.Serves → v.before.world.view.Unshared v.before.world.allocations → v.Confined env := by
  intro v member serves unshared
  have agreed := linked_agreed lawful lawful' (fun world => (new_agreed lawful' fits new strict world).1) linked made
  exact visit_confined lawful lawful' fresh obeys (made v member) (agreed v member) serves unshared

def visitsIn [Mapper V] (env : Env) (m : Mmio (Device B N)) (vm : V) : List (Operation × World) → List (Visit B N)
  | [] => []
  | (op,world)::rest =>
    let ended := ((Bay.perform env op).run ⟨⟨m,world,[]⟩,vm⟩).2
    ⟨0,op,⟨m,world,[]⟩,ended.slot⟩::visitsIn env ended.slot.mmio ended.vm rest

theorem visitsIn_linked [Mapper V] (operations : List (Operation × World)) (m : Mmio (Device B N)) (vm : V) :
    ∃ last, Runtime.Linked m (visitsIn env m vm operations) last := by
  induction operations generalizing m vm with
  | nil => exact ⟨m,rfl⟩
  | cons first rest ih =>
    obtain ⟨last,linked⟩ := ih ((Bay.perform env first.1).run ⟨⟨m,first.2,[]⟩,vm⟩).2.slot.mmio
      ((Bay.perform env first.1).run ⟨⟨m,first.2,[]⟩,vm⟩).2.vm
    exact ⟨last,rfl,linked⟩

theorem visitsIn_made [Mapper V] (operations : List (Operation × World)) (m : Mmio (Device B N)) (vm : V)
    (asked : ∀ v ∈ visitsIn env m vm operations, v.operation.Asked v.before.mmio) :
    ∀ v ∈ visitsIn env m vm operations, Runtime.Made V env v := by
  induction operations generalizing m vm with
  | nil => exact List.forall_mem_nil _
  | cons first rest ih =>
    obtain ⟨here,later⟩ := List.forall_mem_cons.mp asked
    exact List.forall_mem_cons.mpr ⟨⟨here,rfl,vm,rfl⟩,ih _ _ later⟩

end Histories

namespace Reference

/-- A new memory device that may plug up to four blocks. -/
def replugMmio : Mmio (Device Disk Wire) where
  device := .mem VirtioMem.sampleCell.device
  queues := ⟨[⟨128,128,false,0,0,0,0,0⟩],0,0⟩
  featureSel := 0
  driverSel := 0
  queueSel := 0
  features := 2 ||| VERSION_1
  status := 0
  strict := false
  rejected := 0

def replugDriver : List (Nat × BitVec 32) :=
  [(0x70,1),(0x70,3),(0x20,2),(0x24,1),(0x20,1),(0x70,0xb),(0x38,4),(0x80,0x100),(0x90,0x200),(0xa0,0x300),
    (0x44,1),(0x70,0xf)]

/-- Two chains, at heads 0 and 2, about the block at 1 GiB: the first asks for `kind` and
the second for a plug. So many heads are available. The byte at 1 MiB is 7. -/
def replugMemory (available kind : UInt8) : Host := fun p =>
  if p = 0x101 then 4
  else if p = 0x108 then 24
  else if p = 0x10c then 1
  else if p = 0x10e then 1
  else if p = 0x111 then 5
  else if p = 0x118 then 10
  else if p = 0x11c then 2
  else if p = 0x120 then 0x20
  else if p = 0x121 then 4
  else if p = 0x128 then 24
  else if p = 0x12c then 1
  else if p = 0x12e then 3
  else if p = 0x130 then 0x20
  else if p = 0x131 then 5
  else if p = 0x138 then 10
  else if p = 0x13c then 2
  else if p = 0x202 then available
  else if p = 0x208 then 2
  else if p = 0x400 then kind
  else if p = 0x40b then 0x40
  else if p = 0x410 then 1
  else if p = 0x42b then 0x40
  else if p = 0x430 then 1
  else if p = 2^20 then 7
  else 0

def plugWorld : World := {VirtioMem.sampleCell.world with host := replugMemory 1 0}

def replugWorld : World := {VirtioMem.sampleCell.world with
  view := ⟨[⟨0,2^20,0,0⟩,⟨2^30,2^21,2^20,1⟩],by decide⟩
  host := replugMemory 3 1
  allocations := 2}

def replugVisits : List (Visit Disk Wire) :=
  visitsIn env replugMmio (⟨⟨[],0⟩,false⟩ : Vm) (replugDriver.map (fun w => (.write w.1 w.2,plugWorld)) ++
    [(.process [],plugWorld),(.process [],replugWorld)])

theorem replugVisits_linked : ∃ last, Runtime.Linked replugMmio replugVisits last :=
  visitsIn_linked _ _ _

theorem replugVisits_made : ∀ v ∈ replugVisits, Runtime.Made Vm env v := by
  refine visitsIn_made (V := Vm) _ replugMmio ⟨⟨[],0⟩,false⟩ ?_
  change ∀ v ∈ replugVisits, v.operation.Asked v.before.mmio
  decide +kernel

/-- The block has come back in another allocation. -/
theorem replugVisits_last : ∃ v, replugVisits[13]? = some v ∧ v.operation = .process [] ∧ v.before.world = replugWorld ∧
    v.after.world.view.regions = [⟨0,2^20,0,0⟩,⟨2^30,2^21,2^20,2⟩] ∧ v.after.world.host (2^20) = 0 ∧
    v.before.mmio.queues.rings = [⟨128,4,true,0x100,0x200,0x300,1,1⟩] ∧
    v.after.trace.filterMap (fun | .popped _ chain => some chain.descriptors | _ => none) =
      [[⟨0x400,24,1,1⟩,⟨0x500,10,2,0⟩],[⟨0x420,24,1,3⟩,⟨0x520,10,2,0⟩]] := by
  refine ⟨_,rfl,rfl,rfl,?_,?_,?_,?_⟩ <;> decide +kernel

theorem replugWorld_unshared : replugWorld.view.Unshared replugWorld.allocations := by
  have regions : replugWorld.view.regions = [⟨0,2^20,0,0⟩,⟨2^30,2^21,2^20,1⟩] := rfl
  constructor
  · intro r member q member' other
    rw [regions,List.mem_pair] at member member'
    rcases member with rfl | rfl <;> rcases member' with rfl | rfl
    · exact absurd rfl other
    · exact .inl (Nat.le_of_eq (Nat.zero_add _))
    · exact .inr (Nat.le_of_eq (Nat.zero_add _))
    · exact absurd rfl other
  · intro r member
    rw [regions,List.mem_pair] at member
    rcases member with rfl | rfl
    · exact Nat.zero_lt_succ 1
    · exact Nat.one_lt_two

/-- A block that is unplugged and plugged again in one batch keeps its address but not
its bytes, and no buffer of the driver lies there. -/
theorem replugged_bytes_change :
    ∃ (m : Mmio (Device Disk Wire)) (last : Mmio (Device Disk Wire)) (v : Visit Disk Wire),
      Mmio.new env (.mem VirtioMem.sampleCell.device) = .ok m ∧
      Runtime.Linked (m.withStrict false) replugVisits last ∧ (∀ v ∈ replugVisits, Runtime.Made Vm env v) ∧
      v ∈ replugVisits ∧ v.operation.Serves ∧ v.before.world.view.Unshared v.before.world.allocations ∧
      ¬v.AddressConfined env := by
  obtain ⟨last,linked⟩ := replugVisits_linked
  obtain ⟨v,found,operation,before,regions,zero,rings,popped⟩ := replugVisits_last
  refine ⟨_,last,v,rfl,linked,replugVisits_made,List.mem_of_getElem? found,by rw [operation]; trivial,
    by rw [before]; exact replugWorld_unshared,fun confined => ?_⟩
  have old : v.before.world.view.Backs (2^30) (2^20) := by
    rw [before]
    exact ⟨⟨2^30,2^21,2^20,1⟩,List.mem_cons_of_mem _ List.mem_cons_self,⟨Nat.le_refl _,by decide⟩,rfl⟩
  have new : v.after.world.view.Backs (2^30) (2^20) := by
    refine ⟨⟨2^30,2^21,2^20,2⟩,?_,⟨Nat.le_refl _,by decide⟩,rfl⟩
    rw [regions]
    exact List.mem_cons_of_mem _ List.mem_cons_self
  have changed : v.after.world.host (2^20) ≠ v.before.world.host (2^20) := by
    rw [zero,before]
    decide
  rcases confined _ _ _ old new (.inr ⟨fun _ _ => rfl,fun _ _ => rfl⟩) changed with
    ⟨queue,chain,taken,d,listed,_,low,high⟩ | ⟨q,member,_,low,high⟩
  · have descriptors : chain.descriptors ∈ v.after.trace.filterMap
        (fun | .popped _ chain => some chain.descriptors | _ => none) := by
      rw [List.mem_filterMap]
      exact ⟨_,taken,rfl⟩
    rw [popped,List.mem_pair] at descriptors
    rcases descriptors with same | same <;> rw [same,List.mem_pair] at listed <;> rcases listed with rfl | rfl <;>
      exact absurd high (by decide)
  · rw [rings,List.mem_singleton] at member
    subst member
    exact absurd high (by decide)

/-- Every chain of these visits is answered in its own buffers. -/
theorem dma_confined_replug :
    ∃ v ∈ replugVisits, v.operation = .process [] ∧ v.before.world = replugWorld ∧ v.Confined env := by
  obtain ⟨last,linked⟩ := replugVisits_linked
  obtain ⟨v,found,operation,before,_⟩ := replugVisits_last
  have member := List.mem_of_getElem? found
  refine ⟨v,member,operation,before,?_⟩
  exact dma_confined env_vm_lawful env_vq_lawful env_fresh ⟨Disk.obeys,Wire.obeys⟩ (.mem VirtioMem.sampleCell.device)
    trivial _ rfl false replugVisits last linked replugVisits_made v member (by rw [operation]; trivial)
    (by rw [before]; exact replugWorld_unshared)

end Reference
end WVmm
