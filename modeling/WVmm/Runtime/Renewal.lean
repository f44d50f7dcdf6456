import WVmm.Runtime.Twins
import WVmm.Devices.Chains
import WVmm.Devices.Renewal
import WVmm.Devices.MemorySpec
import WVmm.Runtime.Interrupts

/-! After a reset a transport cannot be told from a new one over the same backend,
by anything that happens to the machine later. -/
namespace WVmm
open Lib.Effect Lib.Simulation Lib.Runs Devices Platform

variable {V C B N U : Type} [BlockStorage B] [NetDevice N] {env : Env}

structure Devices.Mmio.Built (m : Mmio (Device B N)) : Prop where
  genuine : m.device.Genuine
  count : m.queues.rings.length = VirtioDevice.queueCount m.device
  rings : ∀ q ∈ m.queues.rings, q.maxSize = MAX_QUEUE ∧ 0 < q.size
  features : m.features = VirtioDevice.features m.device ||| VERSION_1

namespace Devices.Mmio.Built

variable {m : Mmio (Device B N)}

theorem registers (built : m.Built) {m' : Mmio (Device B N)} (device : m'.device = m.device)
    (rings : m'.queues.rings = m.queues.rings) (features : m'.features = m.features) : m'.Built := by
  refine ⟨device ▸ built.genuine,?_,?_,?_⟩
  · rw [rings,device]
    exact built.count
  · rw [rings]
    exact built.rings
  · rw [features,device]
    exact built.features

theorem isolate (built : m.Built) : m.isolate.Built := by
  unfold Mmio.isolate
  dsimp only
  split <;> exact built.registers rfl rfl rfl

theorem setRing (built : m.Built) {index : Nat} {q q' : Queue} (found : m.queues.rings[index]? = some q)
    (largest : q'.maxSize = q.maxSize) (sized : 0 < q'.size) : (m.setRing index q').Built := by
  refine ⟨built.genuine,?_,?_,built.features⟩
  · simp only [Mmio.setRing,List.length_set]
    exact built.count
  · intro r member
    rcases List.mem_or_eq_of_mem_set member with old | rfl
    · exact built.rings r old
    · exact ⟨largest.trans (built.rings q (List.mem_of_getElem? found)).1,sized⟩

theorem rewired {view : GuestMemoryMmap} (built : m.Built) {index : Nat} {q q' : Queue}
    (found : m.queues.rings[index]? = some q) (change : Rewired env view q q') :
    (m.setRing index q').Built := by
  have sized := (built.rings q (List.mem_of_getElem? found)).2
  cases change with
  | size n positive _ _ => exact built.setRing found rfl positive
  | _ => exact built.setRing found rfl sized

theorem turned (disk : BlockStorage.Constant B) (wire : NetDevice.Constant N) {s : Slot (Device B N)}
    (built : s.mmio.Built) {c : Cell (Device B N)} (kept : Device.Keeps s.mmio.device c.device)
    (rings : SameRings s.mmio.queues.rings c.queues.rings) : (s.putCell c).mmio.Built := by
  refine ⟨kept.genuine wire built.genuine,?_,?_,?_⟩
  · exact rings.length.trans (built.count.trans kept.kind.1.symm)
  · intro q member
    obtain ⟨q₀,old,same⟩ := rings.mem member
    obtain ⟨largest,sized⟩ := built.rings q₀ old
    rw [same]
    exact ⟨largest,sized⟩
  · exact built.features.trans (by rw [← kept.features disk]; rfl)

theorem cleared (lawful : env.vq.Lawful) (built : m.Built) : (m.cleared env).Built := by
  refine ⟨built.genuine,?_,?_,built.features⟩
  · simp only [Mmio.cleared,List.length_map]
    exact built.count
  · intro q member
    obtain ⟨q₀,old,rfl⟩ := List.mem_map.mp member
    have largest := (built.rings q₀ old).1
    rw [lawful.reset_fresh]
    refine ⟨largest,?_⟩
    change 0 < q₀.maxSize
    rw [largest]
    decide

theorem sits {s : Slot (Device B N)} (built : s.mmio.Built) : Sits Device.Fits s.cell :=
  ⟨built.genuine.fits,built.count,fun q member => (built.rings q member).2⟩

theorem settled {α : Type} {s : Slot (Device B N)} (built : s.mmio.Built)
    (r : Except (Failure DeviceError) α) : (Mmio.settled s r).2.mmio.Built := by
  rcases Mmio.settled_slot s r with same | isolated
  · rwa [same]
  · rw [isolated]
    exact built.isolate

end Devices.Mmio.Built

theorem synced_built {s : Slot (Device B N)} (built : s.mmio.Built) (active : Bool) : (Runtime.synced active s).mmio.Built := by
  unfold Runtime.synced
  dsimp only
  split
  · rename_i d kind
    split
    · exact built
    · have same : VirtioDevice.features (Device.mem d : Device B N) = VirtioDevice.features s.mmio.device := by
        rw [kind]
      refine ⟨rfl,?_,built.rings,?_⟩
      · have count := built.count
        rwa [kind] at count
      · exact built.features.trans (by rw [← same]; rfl)
  · exact built

/-- Everything outside of the devices behaves as documented. -/
structure Sound (B N : Type) [BlockStorage B] [NetDevice N] (env : Env) : Prop where
  vm : env.vm.Lawful
  vq : env.vq.Lawful
  disk : BlockStorage.Constant B
  wire : NetDevice.Constant N

section Operations
variable {s : Slot (Device B N)} (sound : Sound B N env)
include sound

theorem ran_built (built : s.mmio.Built) {p : Prog (Cell (Device B N)) (Failure DeviceError) Unit}
    (moves : Cell.Moves env ⟨True,True⟩ Device.Keeps s.cell.trace.length s.cell (p.run s.cell).2) :
    (Mmio.ran s p).2.mmio.Built :=
  (built.turned sound.disk sound.wire moves.device moves.rings).settled _

theorem notify_built (built : s.mmio.Built) (queue : Nat) :
    ((Mmio.notify env queue).run s).2.mmio.Built := by
  rw [Mmio.notify_run]
  split
  · rename_i listens
    have bound : queue < s.mmio.queues.rings.length := by
      simp only [Mmio.listens,Bool.and_eq_true] at listens
      by_contra missing
      rw [List.getElem?_eq_none (by omega)] at listens
      cases listens.2
    exact ran_built sound built (Device.notify_acts sound.vm sound.vq .unknown queue s.cell
      ⟨built.sits.idle,bound⟩).1
  · exact built

theorem poll_built (built : s.mmio.Built) : ((Mmio.poll env).run s).2.mmio.Built := by
  rw [Mmio.poll_run]
  split
  · exact ran_built sound built (Device.poll_acts sound.vm sound.vq .unknown s.cell built.sits.idle).1
  · exact built

theorem reset_built (built : s.mmio.Built) {r : Except (Failure DeviceError) Unit} {c : Cell (Device B N)}
    (ran : VirtioDevice.reset.run s.cell = (r,c)) : (s.putCell c).mmio.Built := by
  have kept := Device.reset_keeps s.cell
  have queues := ResetsAlone.queues s.cell
  rw [ran] at kept queues
  refine built.turned sound.disk sound.wire kept ?_
  rw [show c.queues = s.mmio.queues from queues]
  exact .refl _

theorem configure_built (built : s.mmio.Built) (offset : Nat) (value : BitVec 32) :
    ((Mmio.configure env offset value).run s).2.mmio.Built := by
  have outcome := Mmio.configure_cases sound.vq offset value s
  generalize (Mmio.configure env offset value).run s = result at outcome ⊢
  cases outcome with
  | reset c _ ran => exact (reset_built sound built ran).cleared sound.vq
  | resetFailed f c _ ran => exact reset_built sound built ran
  | rewired index q q' found _ _ change => exact built.rewired found change
  | refused e _ => exact built
  | ignored => exact built
  | _ => exact built.registers rfl rfl rfl

theorem write_built (built : s.mmio.Built) (offset : Nat) (value : BitVec 32) :
    ((Mmio.write env offset value).run s).2.mmio.Built := by
  by_cases register : offset = 0x50
  · rw [Mmio.write,if_pos register]
    exact notify_built sound built _
  · have configured := configure_built sound built offset value
    rw [Mmio.write_run register]
    generalize (Mmio.configure env offset value).run s = outcome at configured ⊢
    obtain ⟨r,u⟩ := outcome
    rcases r with (e | p) | ok
    · dsimp only
      split
      · exact configured.registers rfl rfl rfl
      · exact configured
    · exact configured
    · exact configured

theorem process_built [Mapper V] (built : s.mmio.Built) (pinned : List (Nat × Nat)) (vm : V) :
    ((Bay.process env pinned).run ⟨s,vm⟩).2.slot.mmio.Built := by
  simp only [Bay.process,Prog.run_mk]
  cases kind : s.mmio.device with
  | mem d =>
    have turned := VirtioMem.processLoop_turns (M := V) sound.vq pinned 128
      ⟨⟨d,s.mmio.queues,s.world,s.trace⟩,vm⟩
    dsimp only
    change Queues.Turned s.mmio.queues ((VirtioMem.process env pinned).run
      (⟨⟨d,s.mmio.queues,s.world,s.trace⟩,vm⟩ : Txn V)).2.cell.queues at turned
    generalize (VirtioMem.process env pinned).run
      (⟨⟨d,s.mmio.queues,s.world,s.trace⟩,vm⟩ : Txn V) = outcome at turned ⊢
    refine ⟨rfl,?_,?_,?_⟩
    · have count := built.count
      rw [kind] at count
      exact turned.rings.length.trans count
    · intro q member
      obtain ⟨q₀,old,same⟩ := turned.rings.mem member
      obtain ⟨largest,sized⟩ := built.rings q₀ old
      rw [same]
      exact ⟨largest,sized⟩
    · have features := built.features
      rw [kind] at features
      exact features
  | _ => exact built

variable [VirtualMachine V C]

/-- Nothing the runtime asks of a device changes what construction fixed. -/
theorem perform_built (op : Operation) (b : Bay V (Device B N)) (built : b.slot.mmio.Built) :
    ((Bay.perform env op).run b).2.slot.mmio.Built := by
  cases op with
  | write offset value => exact write_built sound built offset value
  | poll => exact poll_built sound built
  | sync active =>
    have synced := synced_built built active
    have ran : ((Bay.perform env (.sync active)).run b).2.slot = Runtime.synced active b.slot :=
      congrArg Prod.snd (Runtime.syncTarget_run active b.slot)
    rwa [ran]
  | available =>
    rw [Runtime.available_slot]
    have moves : Cell.Moves env ⟨True,True⟩ Device.Keeps b.slot.cell.trace.length b.slot.cell
        ((Queues.available env 0).run b.slot.cell).2 := by
      have some : 0 < VirtioDevice.queueCount b.slot.mmio.device := by
        cases b.slot.mmio.device <;> exact Nat.zero_lt_succ _
      exact (Queues.available_acts some b.slot.cell built.sits.idle.wired).1
    exact (built.turned sound.disk sound.wire moves.device moves.rings).settled _
  | pinned =>
    rw [Runtime.pinned_slot]
    refine Mmio.Built.settled ?_ _
    exact built
  | process pinned =>
    rw [Runtime.process_slot]
    exact (process_built sound built pinned b.vm).settled _

end Operations

def newRing : Queue := ⟨MAX_QUEUE,MAX_QUEUE,false,0,0,0,0,0⟩

theorem Devices.Mmio.new_eq (lawful : env.vq.Lawful) (x : Device B N) :
    Mmio.new env x = .ok ⟨x,⟨List.replicate (VirtioDevice.queueCount x) newRing,0,0⟩,0,0,0,
      VirtioDevice.features x ||| VERSION_1,0,true,0⟩ := by
  have made := lawful.new_max MAX_QUEUE (by decide) (by decide) ⟨7,rfl⟩
  simp only [Mmio.new,made]
  rfl

theorem Devices.Mmio.new_built (lawful : env.vq.Lawful) {d x : Device B N} {m : Mmio (Device B N)}
    (made : d.fresh = .ok x) (new : Mmio.new env x = .ok m) (strict : Bool) : (m.withStrict strict).Built := by
  rw [Mmio.new_eq lawful] at new
  cases new
  refine ⟨(Device.fresh_genuine made).1,List.length_replicate,?_,rfl⟩
  intro q member
  rw [List.eq_of_mem_replicate member]
  exact ⟨rfl,by decide⟩

namespace Runtime

def Created (env : Env) (s : Runtime V C B N U) : Prop :=
  ∀ m ∈ s.devices, ∃ d x made strict, Device.fresh d = .ok x ∧ Mmio.new env x = .ok made ∧
    m = made.withStrict strict

theorem reached_built [VirtualMachine V C] [Uart U] (sound : Sound B N env) {first s : Runtime V C B N U}
    (created : first.Created env) (reached : Reaches (Happens env) first s) : ∀ m ∈ s.devices, m.Built := by
  refine (run_follows reached).devices (fun op b _ _ built => perform_built sound op b built) ?_
  intro m member
  obtain ⟨d,x,made,strict,constructed,new,rfl⟩ := created m member
  exact Mmio.new_built sound.vq constructed new strict

end Runtime

/-- Once reset, a device is like a new one. -/
theorem Devices.Device.reset_alike {c c' : Cell (Device B N)} (ran : VirtioDevice.reset.run c = (.ok (),c')) :
    Device.renewal.alike c'.device c'.device.rested := by
  have device := congrArg (fun result => result.2.device) ran
  rw [Device.reset_run] at device
  cases kind : c.device with
  | net d =>
    rw [kind] at device
    dsimp only at device
    rw [← device]
    exact .net ⟨by simp,rfl⟩
  | block d =>
    rw [kind] at device
    dsimp only at device
    rw [← device]
    exact .same _
  | mem d =>
    rw [kind] at device
    dsimp only at device
    rw [← device]
    exact .same _

theorem Devices.Device.rested_same (d : Device B N) :
    VirtioDevice.queueCount d.rested = VirtioDevice.queueCount d ∧
      VirtioDevice.features d.rested = VirtioDevice.features d := by
  cases d <;> exact ⟨rfl,rfl⟩

/-- A status write of zero succeeds only if the device goes along with it: its
errors are never the guest's. -/
theorem Devices.Mmio.reset_succeeds {s after : Slot (Device B N)}
    (reset : (Mmio.write env 0x70 0).run s = (.ok (),after)) :
    ∃ c, VirtioDevice.reset.run s.cell = (.ok (),c) ∧
      after = (s.putCell c).withMmio ((s.putCell c).mmio.cleared env) := by
  rcases ran : VirtioDevice.reset.run s.cell with ⟨r,c⟩
  cases r with
  | ok _ =>
    rw [Mmio.reset_run s ran] at reset
    cases reset
    exact ⟨c,rfl,rfl⟩
  | error f =>
    have failed : (Mmio.configure env 0x70 0).run s = (.error f,s.putCell c) := by
      change (Mmio.reset env).run s = _
      simp only [Mmio.reset,Prog.run_bind,Slot.onCell,Prog.run_zoom,ran]
    rw [Mmio.write_run (by decide),failed] at reset
    cases f with
    | panic p => cases reset
    | error e =>
      dsimp only at reset
      rw [ResetsAlone.host _ _ _ ran,Bool.and_false] at reset
      cases reset

/-- A transport after a reset is the twin of a new one. -/
theorem Devices.Mmio.cleared_twin (lawful : env.vq.Lawful) {m made : Mmio (Device B N)} (built : m.Built)
    (alike : Device.renewal.alike m.device m.device.rested)
    (new : Mmio.new env m.device.rested = .ok made) :
    Mmio.Twin Device.renewal (m.cleared env) (made.withStrict m.strict) := by
  obtain ⟨count,features⟩ := m.device.rested_same
  have rings : m.queues.rings.map env.vq.reset =
      List.replicate (VirtioDevice.queueCount m.device.rested) newRing := by
    rw [List.eq_replicate_iff]
    refine ⟨by rw [List.length_map,built.count,count],?_⟩
    intro q member
    obtain ⟨q₀,old,rfl⟩ := List.mem_map.mp member
    rw [lawful.reset_fresh,(built.rings q₀ old).1]
    rfl
  rw [Mmio.new_eq lawful] at new
  cases new
  refine ⟨alike,trivial,?_⟩
  simp only [Mmio.withStrict,Mmio.cleared,rings,built.features,features,Device.renewal,Bool.and_true]

/-- Calls that show the same: visits may differ in the inside of the device. -/
inductive Call.Shows : Call C B N → Call C B N → Prop
  | visit {v v' : Visit B N} (device : v'.device = v.device) (operation : v'.operation = v.operation)
      (world : v'.after.world = v.after.world) (trace : v'.after.trace = v.after.trace) :
      Shows (.visit v) (.visit v')
  | other {call : Call C B N} (plain : ∀ v, call ≠ .visit v) : Shows call call

namespace Runtime

/-- Machines that guest, host and backends cannot tell apart: the same calls with
the same effects, the same memory, and registers that read the same. -/
structure Indistinguishable (s t : Runtime V C B N U) : Prop where
  calls : List.Forall₂ Call.Shows s.log t.log
  vm : t.vm = s.vm
  serial : t.serial = s.serial
  world : t.world = s.world
  registers : List.Forall₂ (fun m m' : Mmio (Device B N) =>
    (∀ offset width, m'.read offset width = m.read offset width) ∧
      m'.interruptPending = m.interruptPending) s.devices t.devices

theorem Twin.indistinguishable {l : Likeness (Device B N)} (lawful : l.Lawful env) {s t : Runtime V C B N U}
    (twin : Twin l s t) : Indistinguishable s t := by
  refine ⟨twin.log.imp ?_,twin.vm,twin.serial,twin.world,twin.devices.imp ?_⟩
  · intro call call' same
    cases same with
    | visit visited =>
      exact .visit visited.device visited.operation visited.after.world visited.after.trace
    | other plain => exact .other plain
  · exact fun m m' same => ⟨same.read lawful,same.interruptPending⟩

variable [VirtualMachine V C] [Uart U]

def replies (env : Env) : List (Label C) → Runtime V C B N U →
    List (Except (Failure Error) Unit) × Runtime V C B N U
  | [], s => ([],s)
  | label::rest, s =>
    let (r,t) := (step env label).run s
    let (others,u) := replies env rest t
    (r::others,u)

theorem replies_twin (fills : NetDevice.Fills N) (labels : List (Label C)) {s t : Runtime V C B N U}
    (twin : Twin Device.renewal s t) :
    (replies env labels t).1 = (replies env labels s).1 ∧
      Twin Device.renewal (replies env labels s).2 (replies env labels t).2 := by
  have lawful : (Device.renewal : Likeness (Device B N)).LawfulKinds env := by
    refine ⟨Device.renewal_lawful fills,fun _ => .same _,?_,?_⟩
    · rintro d x ⟨⟩
      rfl
    · rintro d x ⟨⟩
      rfl
  induction labels generalizing s t with
  | nil => exact ⟨rfl,twin⟩
  | cons label rest ih =>
    have matched := step_simulates lawful label s t twin
    simp only [replies]
    generalize (step env label).run s = left at matched ⊢
    generalize (step env label).run t = right at matched ⊢
    cases matched with
    | excused allowed => cases allowed.1
    | failed related =>
      obtain ⟨same,ended⟩ := ih related
      exact ⟨by rw [same],ended⟩
    | returned _ related =>
      obtain ⟨same,ended⟩ := ih related
      exact ⟨by rw [same],ended⟩

/-- Put a new transport over the same backend in the place of one that a reset
succeeded on: whatever happens to the machine later, the results are the same and
nobody can tell the two machines apart. -/
theorem reset_equals_new (sound : Sound B N env) (fills : NetDevice.Fills N) {first s : Runtime V C B N U}
    (created : first.Created env) (reached : Reaches (Happens env) first s) (m : Mmio (Device B N))
    (member : m ∈ s.devices) (w : World) (trace : List Action) (after : Slot (Device B N))
    (reset : (Mmio.write env 0x70 0).run ⟨m,w,trace⟩ = (.ok (),after)) :
    ∃ x made, after.mmio.device.fresh = .ok x ∧ Mmio.new env x = .ok made ∧
      ∀ (u : Runtime V C B N U) k, u.devices[k]? = some after.mmio → ∀ labels : List (Label C),
        let t := {u with devices := u.devices.set k (made.withStrict after.mmio.strict)}
        (replies env labels t).1 = (replies env labels u).1 ∧
          Indistinguishable (replies env labels u).2 (replies env labels t).2 := by
  have built := reached_built sound created reached m member
  obtain ⟨c,ran,rfl⟩ := Mmio.reset_succeeds reset
  have settled : ((⟨m,w,trace⟩ : Slot (Device B N)).putCell c).mmio.Built :=
    reset_built (s := ⟨m,w,trace⟩) sound built ran
  have alike := Device.reset_alike ran
  refine ⟨_,_,settled.genuine,Mmio.new_eq sound.vq _,?_⟩
  intro u k found labels
  have twin := Mmio.cleared_twin sound.vq settled alike (Mmio.new_eq sound.vq _)
  have same : ∀ m : Mmio (Device B N), Mmio.Twin Device.renewal m m :=
    fun m => ⟨.same _,trivial,by simp only [Device.renewal,Bool.and_true]⟩
  obtain ⟨results,ended⟩ := @replies_twin V C B N U _ _ env _ _ fills labels _ _ (replaced same rfl found twin)
  exact ⟨results,ended.indistinguishable (Device.renewal_lawful fills : Device.renewal.Lawful env)⟩

end Runtime

namespace Reference

theorem Wire.fills : NetDevice.Fills Wire where
  blind w buffer host host' := by
    obtain ⟨inbox,credit⟩ := w
    cases inbox <;> exact ⟨rfl,rfl⟩
  fills w buffer host host' n received p inside := by
    obtain ⟨inbox,credit⟩ := w
    cases inbox with
    | nil => cases received
    | cons frame rest =>
      cases received
      exact fill_determined buffer frame host host' inside

theorem sound : Sound Disk Wire Reference.env where
  vm := env_vm_lawful
  vq := env_vq_lawful
  disk _ _ _ := rfl
  wire _ _ _ := ⟨rfl,rfl⟩

def newWire : Net Wire where
  backend := ⟨[],0⟩
  config := [2,0,0,0,0,1,0,0,0,0,68,0]
  rx := List.replicate 94 0
  pendingTx := none
  tx := []

def wireTransport (featureSel status : BitVec 32) : Mmio (Device Disk Wire) where
  device := .net newWire
  queues := ⟨[newRing,newRing],0,0⟩
  featureSel := featureSel
  driverSel := 0
  queueSel := 0
  features := Net.F_MAC ||| Net.F_MTU ||| VERSION_1
  status := status
  strict := true
  rejected := 0

def wireMachine : Runtime Vm Nat Disk Wire Port where
  vm := ⟨⟨[],0⟩,false⟩
  layout := Runtime.diskLayout
  devices := [wireTransport 0 0]
  hasMemory := false
  strict := true
  serial := ⟨[]⟩
  world := emptyWorld
  log := []

/-- Two frames of 14 bytes, in the transmit queue of a page of memory. -/
def txMemory : Host := fun p =>
  if p = 0x101 ∨ p = 0x111 then 4
  else if p = 0x108 ∨ p = 0x118 then 26
  else if p = 0x202 then 2
  else if p = 0x206 then 1
  else 0

def driverWrite (offset value : Nat) : Runtime.Label Nat := .io ⟨.mmio,0x1000 + offset,4,true,value,0⟩

def queueSetup (index desc avail used : Nat) : List (Runtime.Label Nat) :=
  [driverWrite 0x30 index,driverWrite 0x38 2,driverWrite 0x80 desc,driverWrite 0x90 avail,
    driverWrite 0xa0 used,driverWrite 0x44 1]

def driverSetup : List (Runtime.Label Nat) :=
  [driverWrite 0x70 3,driverWrite 0x24 1,driverWrite 0x20 1,driverWrite 0x70 0xb] ++
    queueSetup 0 0x500 0x600 0x700 ++ queueSetup 1 0x100 0x200 0x300 ++ [driverWrite 0x70 0xf]

/-- A lenient machine whose net device may send one frame, while the guest claims nine
available buffers in a receive queue of two. -/
def stuckMachine : Runtime Vm Nat Disk Wire Port :=
  {wireMachine with
    devices := [{wireTransport 0 0 with device := .net {newWire with backend := ⟨[List.replicate 14 7],1⟩}, strict := false}]
    strict := false
    world := {pageWorld with host := fun p => if p = 0x602 then 9 else txMemory p}}

theorem stuckMachine_created : stuckMachine.Created Reference.env := by
  intro m member
  rw [List.mem_singleton.mp member]
  exact ⟨.net {newWire with backend := ⟨[List.replicate 14 7],1⟩},_,_,false,rfl,rfl,rfl⟩

def stuckLabels : List (Runtime.Label Nat) := driverSetup ++ [driverWrite 0x50 1,driverWrite 0x50 0]

/-- The driver resets the device that is isolated with a frame in hand. -/
theorem reset_equals_new_for_wire :
    ∃ (s : Runtime Vm Nat Disk Wire Port) (m made : Mmio (Device Disk Wire)) (after : Slot (Device Disk Wire)),
      s = stuckMachine.afterAll Reference.env stuckLabels ∧ s.devices[0]? = some m ∧
      m.needsReset = true ∧ m.device.deferred = some 1 ∧
      (Mmio.write Reference.env 0x70 0).run ⟨m,s.world,[]⟩ = (.ok (),after) ∧
      made.status = 0 ∧
      ∀ (u : Runtime Vm Nat Disk Wire Port) k, u.devices[k]? = some after.mmio → ∀ labels : List (Runtime.Label Nat),
        (Runtime.replies Reference.env labels
          {u with devices := u.devices.set k (made.withStrict after.mmio.strict)}).1 =
            (Runtime.replies Reference.env labels u).1 := by
  have seen : ((stuckMachine.afterAll Reference.env stuckLabels).devices[0]?).map (fun m =>
      (m.needsReset,m.device.deferred,((Mmio.write Reference.env 0x70 0).run
        ⟨m,(stuckMachine.afterAll Reference.env stuckLabels).world,[]⟩).1.isOk)) = some (true,some 1,true) := by
    decide +kernel
  have reached : Reaches (Runtime.Happens Reference.env) stuckMachine
      (stuckMachine.afterAll Reference.env stuckLabels) := Runtime.reaches_afterAll _ _
  generalize stuckMachine.afterAll Reference.env stuckLabels = s at seen reached
  obtain ⟨m,found,facts⟩ := Option.map_eq_some_iff.mp seen
  obtain ⟨isolated,rest⟩ := Prod.mk.inj facts
  obtain ⟨deferred,succeeds⟩ := Prod.mk.inj rest
  cases reset : (Mmio.write Reference.env 0x70 0).run ⟨m,s.world,[]⟩ with
  | mk outcome after =>
    rw [reset] at succeeds
    obtain _ | _ := outcome
    · cases succeeds
    obtain ⟨x,made,fresh,new,same⟩ := Runtime.reset_equals_new sound Wire.fills stuckMachine_created reached
      m (List.mem_of_getElem? found) s.world [] after reset
    rw [Mmio.new_eq env_vq_lawful] at new
    cases new
    exact ⟨s,m,_,after,rfl,found,isolated,deferred,reset,rfl,fun u k found labels => (same u k found labels).1⟩

end Reference
end WVmm
