import WVmm.Runtime.Visits
import WVmm.Runtime.Reference
import WVmm.Devices.Negotiation

/-! An isolated device stays silent: from the moment DEVICE_NEEDS_RESET is set
until a reset that its device goes along with, no visit lets it touch its
backend, its rings, its blocks or guest memory. -/
namespace WVmm
open Lib.Effect Lib.Runs Devices Platform

theorem active_working {D : Type} {m : Mmio D} (active : m.active = true) : m.needsReset = false := by
  have bits : m.status &&& 0xcf = 0xf := by simpa [Mmio.active] using active
  have clear : m.status &&& NEEDS_RESET = 0 := by
    calc m.status &&& NEEDS_RESET = m.status &&& (0xcf &&& NEEDS_RESET) := by
          rw [show (0xcf : BitVec 32) &&& NEEDS_RESET = NEEDS_RESET by decide]
      _ = (m.status &&& 0xcf) &&& NEEDS_RESET := (BitVec.and_assoc _ _ _).symm
      _ = 0 := by rw [bits]; decide
  rw [Mmio.needsReset,clear]
  rfl

def SameIndices (q q' : Queue) : Prop := q'.nextAvail = q.nextAvail ∧ q'.nextUsed = q.nextUsed

namespace Visit

variable {B N : Type} [BlockStorage B] [NetDevice N]

def Resets (v : Visit B N) : Prop :=
  v.operation = .write 0x70 0 ∧ (VirtioDevice.reset.run v.before.cell).1 = .ok ()

/-- What is left to a device that needs a reset: registers, and the flush of a
reset. -/
structure Silent (v : Visit B N) : Prop where
  operation : v.operation ≠ .available ∧ v.operation ≠ .pinned ∧ ∀ pinned, v.operation ≠ .process pinned
  host : v.after.world.host = v.before.world.host
  view : v.after.world.view = v.before.world.view
  trace : ∀ action ∈ v.after.trace, action ∈ v.before.trace ∨
    (v.operation = .write 0x70 0 ∧ ∃ answer, action = .diskFlush answer)
  indices : v.Resets ∨ List.Forall₂ SameIndices v.before.mmio.queues.rings v.after.mmio.queues.rings
  lasts : v.Resets ∨ v.after.mmio.needsReset = true

/-- The driver wrote the bit itself, or it is told about the isolation. -/
def Raised (v : Visit B N) : Prop :=
  v.before.mmio.needsReset = false → v.after.mmio.needsReset = true → v.before.Running →
    (∃ value, v.operation = .write 0x70 value ∧ value &&& NEEDS_RESET ≠ 0) ∨
      v.after.mmio.queues.interrupt &&& 2 ≠ 0

end Visit

section Slots
variable {B N : Type} {env : Env}

theorem isolate_interrupt {D : Type} {m : Mmio D} (running : m.status &&& DRIVER_OK ≠ 0) :
    m.isolate.queues.interrupt &&& 2 ≠ 0 := by
  have still : (m.status ||| NEEDS_RESET) &&& DRIVER_OK ≠ 0 := by
    rw [bits_beside _ (by decide)]
    exact running
  have raised : m.isolate.queues.interrupt = m.queues.interrupt ||| 2 := by
    simp only [Mmio.isolate,if_pos still]
    rfl
  intro clear
  rw [raised] at clear
  have bit := congrArg (fun w => w.getLsbD 1) clear
  simp at bit

/-- A contained error raises the interrupt of a device in use. -/
theorem settled_raised {α : Type} {s t : Slot (Device B N)} (status : t.mmio.status = s.mmio.status)
    (r : Except (Failure DeviceError) α) (k : Nat) (op : Operation) :
    (⟨k,op,s,(Mmio.settled t r).2⟩ : Visit B N).Raised := by
  intro clear set running
  rcases Mmio.settled_slot t r with same | isolated
  · change (Mmio.settled t r).2.mmio.needsReset = true at set
    rw [same,Mmio.needsReset,status] at set
    exact absurd set (Bool.eq_false_iff.mp clear)
  · refine .inr ?_
    change (Mmio.settled t r).2.mmio.queues.interrupt &&& 2 ≠ 0
    rw [isolated]
    exact isolate_interrupt (by rw [status]; exact running)

theorem ran_raised (k : Nat) (op : Operation) (s : Slot (Device B N))
    (p : Prog (Cell (Device B N)) (Failure DeviceError) Unit) :
    (⟨k,op,s,(Mmio.ran s p).2⟩ : Visit B N).Raised := by
  refine settled_raised ?_ _ k op
  rfl

/-- A visit that keeps the status isolates nothing. -/
theorem Visit.Raised.still {k : Nat} {op : Operation} {s t : Slot (Device B N)}
    (status : t.mmio.status = s.mmio.status) : (⟨k,op,s,t⟩ : Visit B N).Raised := by
  intro clear set _
  change t.mmio.needsReset = true at set
  rw [Mmio.needsReset,status] at set
  exact absurd set (Bool.eq_false_iff.mp clear)

variable [BlockStorage B] [NetDevice N]

/-- A reset gets no guest memory; at most it flushes a disk. -/
theorem reset_quiet (c : Cell (Device B N)) :
    (VirtioDevice.reset.run c).2.world.host = c.world.host ∧
      ∀ action ∈ (VirtioDevice.reset.run c).2.trace, action ∈ c.trace ∨ ∃ answer, action = .diskFlush answer := by
  rw [Device.reset_run]
  cases c.device with
  | block d =>
    refine ⟨rfl,fun action member => ?_⟩
    rcases List.mem_append.mp member with old | new
    · exact .inl old
    · exact .inr ⟨_,List.mem_singleton.mp new⟩
  | net d => exact ⟨rfl,fun _ member => .inl member⟩
  | mem d => exact ⟨rfl,fun _ member => .inl member⟩

theorem indices_kept (rings : List Queue) : List.Forall₂ SameIndices rings rings :=
  List.forall₂_same.mpr (fun _ _ => ⟨rfl,rfl⟩)

theorem rewired_indices {view : GuestMemoryMmap} {q q' : Queue} (change : Rewired env view q q') :
    SameIndices q q' := by
  cases change <;> exact ⟨rfl,rfl⟩

/-- The bits of an accepted status besides FEATURES_OK are those written. -/
theorem acceptedStatus_bits {D : Type} [VirtioDevice D] (m : Mmio D) (value bits : BitVec 32)
    (apart : FEATURES_OK &&& bits = 0) : m.acceptedStatus value &&& bits = value &&& bits := by
  unfold Mmio.acceptedStatus
  dsimp only
  split
  · rw [BitVec.and_assoc]
    congr 1
    rw [BitVec.and_comm]
    exact bits_without (by rwa [BitVec.and_comm])
  · rfl

theorem Visit.Silent.registers {k : Nat} {op : Operation} {s : Slot (Device B N)} {m : Mmio (Device B N)}
    (operation : op ≠ .available ∧ op ≠ .pinned ∧ ∀ pinned, op ≠ .process pinned)
    (indices : List.Forall₂ SameIndices s.mmio.queues.rings m.queues.rings) (lasts : m.needsReset = true) :
    (⟨k,op,s,s.withMmio m⟩ : Visit B N).Silent :=
  ⟨operation,rfl,rfl,fun _ member => .inl member,.inr indices,.inr lasts⟩

theorem configure_silent (lawful : env.vq.Lawful) (k offset : Nat) (value : BitVec 32)
    (s : Slot (Device B N)) (isolated : s.mmio.needsReset = true) :
    (⟨k,.write offset value,s,((Mmio.configure env offset value).run s).2⟩ : Visit B N).Silent := by
  have outcome := Mmio.configure_cases lawful offset value s
  generalize (Mmio.configure env offset value).run s = ended at outcome ⊢
  have write : (.write offset value : Operation) ≠ .available ∧ (.write offset value : Operation) ≠ .pinned ∧
      ∀ pinned, (.write offset value : Operation) ≠ .process pinned := ⟨nofun,nofun,nofun⟩
  cases outcome with
  | ignored => exact .registers (m := s.mmio) write (indices_kept _) isolated
  | selected => exact .registers write (indices_kept _) isolated
  | negotiated => exact .registers write (indices_kept _) isolated
  | reset c asked ran =>
    obtain ⟨rfl,rfl⟩ := asked
    have quiet := reset_quiet s.cell
    have view := ResetsAlone.view s.cell
    rw [ran] at quiet view
    have resets : (⟨k,.write 0x70 0,s,(s.putCell c).withMmio ((s.putCell c).mmio.cleared env)⟩ : Visit B N).Resets :=
      ⟨rfl,by rw [ran]⟩
    exact ⟨write,quiet.1,view,fun action member => (quiet.2 action member).imp id (fun flushed => ⟨rfl,flushed⟩),
      .inl resets,.inl resets⟩
  | resetFailed f c asked ran =>
    obtain ⟨rfl,rfl⟩ := asked
    have quiet := reset_quiet s.cell
    have view := ResetsAlone.view s.cell
    have queues := ResetsAlone.queues s.cell
    rw [ran] at quiet view queues
    refine ⟨write,quiet.1,view,fun action member => (quiet.2 action member).imp id (fun flushed => ⟨rfl,flushed⟩),
      .inr ?_,.inr isolated⟩
    change List.Forall₂ SameIndices s.cell.queues.rings c.queues.rings
    rw [queues]
    exact indices_kept _
  | status grown ready =>
    refine .registers write (indices_kept _) ?_
    have set : s.mmio.status &&& NEEDS_RESET ≠ 0 := by simpa [Mmio.needsReset] using isolated
    have kept := bits_set (by rw [BitVec.and_comm]; exact grown) set
    rw [← acceptedStatus_bits s.mmio value NEEDS_RESET (by decide)] at kept
    rw [Mmio.needsReset,bne_iff_ne]
    exact kept
  | acknowledged => exact .registers write (indices_kept _) isolated
  | rewired index q q' found early idle change =>
    exact .registers write (forall₂_set (fun _ => ⟨rfl,rfl⟩) found (rewired_indices change)) isolated
  | refused => exact .registers (m := s.mmio) write (indices_kept _) isolated

theorem write_silent (lawful : env.vq.Lawful) (k offset : Nat) (value : BitVec 32)
    (s : Slot (Device B N)) (isolated : s.mmio.needsReset = true) :
    (⟨k,.write offset value,s,((Mmio.write env offset value).run s).2⟩ : Visit B N).Silent := by
  by_cases register : offset = 0x50
  · have deaf : s.mmio.listens value.toNat = false := by
      by_contra listens
      rw [Bool.not_eq_false,Mmio.listens,Bool.and_eq_true] at listens
      rw [active_working listens.1] at isolated
      cases isolated
    rw [Mmio.write,if_pos register,Mmio.notify_run,if_neg (by rw [deaf]; exact Bool.false_ne_true)]
    exact .registers (m := s.mmio) ⟨by rintro ⟨⟩,by rintro ⟨⟩,by rintro _ ⟨⟩⟩ (indices_kept _) isolated
  · have silent := configure_silent lawful k offset value s isolated
    rw [Mmio.write_run register]
    revert silent
    rcases (Mmio.configure env offset value).run s with ⟨(e | p) | ok,t⟩ <;> intro silent
    · dsimp only
      split
      · exact ⟨silent.operation,silent.host,silent.view,silent.trace,silent.indices,silent.lasts⟩
      · exact silent
    · exact silent
    · exact silent

variable {V C U : Type} [VirtualMachine V C]

/-- Whatever the runtime asks of an isolated device, it stays silent. -/
theorem perform_silent (lawful : env.vq.Lawful) (k : Nat) (op : Operation) (b : Bay V (Device B N))
    (asked : op.Asked b.slot.mmio) (isolated : b.slot.mmio.needsReset = true) :
    (⟨k,op,b.slot,((Bay.perform env op).run b).2.slot⟩ : Visit B N).Silent := by
  have working : b.slot.mmio.active = false := by
    by_contra active
    rw [active_working (Bool.not_eq_false _ ▸ active)] at isolated
    cases isolated
  cases op with
  | write offset value => exact write_silent lawful k offset value b.slot isolated
  | poll =>
    change (⟨k,.poll,b.slot,((Mmio.poll env).run b.slot).2⟩ : Visit B N).Silent
    rw [Mmio.poll_run,if_neg (by rw [working]; nofun)]
    exact .registers (m := b.slot.mmio) ⟨nofun,nofun,nofun⟩ (indices_kept _) isolated
  | sync active =>
    change (⟨k,.sync active,b.slot,((Bay.syncTarget active).run b.slot).2⟩ : Visit B N).Silent
    rw [Runtime.syncTarget_run]
    obtain ⟨host,view,trace,rings⟩ := Runtime.synced_quiet active b.slot
    refine ⟨⟨nofun,nofun,nofun⟩,host,view,fun _ member => .inl (trace ▸ member),.inr ?_,.inr ?_⟩
    · change List.Forall₂ SameIndices _ (Runtime.synced active b.slot).mmio.queues.rings
      rw [rings]
      exact indices_kept _
    · change (Runtime.synced active b.slot).mmio.needsReset = true
      rw [Mmio.needsReset,Runtime.synced_status]
      exact isolated
  | available =>
    rw [show b.slot.mmio.active = true from asked] at working
    cases working
  | pinned =>
    rw [show b.slot.mmio.needsReset = false from asked] at isolated
    cases isolated
  | process pinned =>
    rw [asked.2] at isolated
    cases isolated

theorem configure_raised (lawful : env.vq.Lawful) (k offset : Nat) (value : BitVec 32)
    (s : Slot (Device B N)) :
    (⟨k,.write offset value,s,((Mmio.configure env offset value).run s).2⟩ : Visit B N).Raised := by
  have outcome := Mmio.configure_cases lawful offset value s
  generalize (Mmio.configure env offset value).run s = ended at outcome ⊢
  cases outcome with
  | reset c asked ran =>
    intro _ set _
    exact absurd (show (0 : BitVec 32) &&& NEEDS_RESET != 0 from set) (by decide)
  | status grown ready asked =>
    intro _ set _
    refine .inl ⟨value,by rw [asked],?_⟩
    change (s.mmio.acceptedStatus value &&& NEEDS_RESET != 0) = true at set
    rwa [acceptedStatus_bits s.mmio value NEEDS_RESET (by decide),bne_iff_ne] at set
  | _ => exact .still rfl

theorem write_raised (lawful : env.vq.Lawful) (k offset : Nat) (value : BitVec 32) (s : Slot (Device B N)) :
    (⟨k,.write offset value,s,((Mmio.write env offset value).run s).2⟩ : Visit B N).Raised := by
  by_cases register : offset = 0x50
  · rw [Mmio.write,if_pos register,Mmio.notify_run]
    split
    · exact ran_raised k _ s _
    · exact .still rfl
  · have raised := configure_raised lawful k offset value s
    rw [Mmio.write_run register]
    revert raised
    rcases (Mmio.configure env offset value).run s with ⟨(e | p) | ok,t⟩ <;> intro raised
    · dsimp only
      split <;> exact raised
    · exact raised
    · exact raised

/-- An error that isolates a device in use raises its interrupt. -/
theorem perform_raised (lawful : env.vq.Lawful) (k : Nat) (op : Operation) (b : Bay V (Device B N)) :
    (⟨k,op,b.slot,((Bay.perform env op).run b).2.slot⟩ : Visit B N).Raised := by
  cases op with
  | write offset value => exact write_raised lawful k offset value b.slot
  | poll =>
    change (⟨k,.poll,b.slot,((Mmio.poll env).run b.slot).2⟩ : Visit B N).Raised
    rw [Mmio.poll_run]
    split
    · exact ran_raised k _ b.slot _
    · exact .still rfl
  | sync active =>
    change (⟨k,.sync active,b.slot,((Bay.syncTarget active).run b.slot).2⟩ : Visit B N).Raised
    rw [Runtime.syncTarget_run]
    exact .still (Runtime.synced_status active b.slot)
  | available =>
    rw [Runtime.available_slot]
    refine settled_raised ?_ _ k _
    rfl
  | pinned =>
    rw [Runtime.pinned_slot]
    refine settled_raised ?_ _ k _
    rfl
  | process pinned =>
    rw [Runtime.process_slot]
    exact settled_raised (Runtime.process_status pinned b) _ k _

end Slots

namespace Runtime

variable {V C B N U : Type} [VirtualMachine V C] [BlockStorage B] [NetDevice N] {env : Env}

theorem Made.silent (lawful : env.vq.Lawful) {v : Visit B N} (made : Made V env v)
    (isolated : v.before.mmio.needsReset = true) : v.Silent := by
  obtain ⟨k,op,before,after⟩ := v
  obtain ⟨vm,performed⟩ := made.performed
  have silent := perform_silent lawful k op ⟨before,vm⟩ made.asked isolated
  dsimp only at performed
  rwa [performed]

theorem Made.raised (lawful : env.vq.Lawful) {v : Visit B N} (made : Made V env v) : v.Raised := by
  obtain ⟨k,op,before,after⟩ := v
  obtain ⟨vm,performed⟩ := made.performed
  have raised := perform_raised lawful k op ⟨before,vm⟩
  dsimp only at performed
  rwa [performed]

/-- Without a reset, an isolated device stays isolated from visit to visit. -/
theorem Linked.isolated {m m' : Mmio (Device B N)} {vs : List (Visit B N)} (linked : Linked m vs m')
    (silent : ∀ v ∈ vs, v.before.mmio.needsReset = true → v.Silent) (start : m.needsReset = true)
    (alive : ∀ v ∈ vs, ¬v.Resets) :
    (∀ v ∈ vs, v.before.mmio.needsReset = true ∧ v.Silent) ∧ m'.needsReset = true := by
  induction vs generalizing m with
  | nil =>
    cases linked
    exact ⟨by simp,start⟩
  | cons v rest ih =>
    obtain ⟨same,later⟩ := linked
    have isolated : v.before.mmio.needsReset = true := same ▸ start
    have quiet := silent v List.mem_cons_self isolated
    obtain ⟨others,last⟩ := ih later (fun w member => silent w (List.mem_cons_of_mem _ member))
      (quiet.lasts.resolve_left (alive v List.mem_cons_self))
      (fun w member => alive w (List.mem_cons_of_mem _ member))
    refine ⟨?_,last⟩
    intro w member
    rcases List.mem_cons.mp member with rfl | after
    · exact ⟨isolated,quiet⟩
    · exact others w after

/-- In every run, a device whose DEVICE_NEEDS_RESET bit is set keeps it and stays
silent until a reset that it goes along with, and an error that isolates a device
in use raises its interrupt. -/
theorem isolated_device_silent [Uart U] (lawful : env.vq.Lawful) {s t : Runtime V C B N U}
    (reached : Reaches (Happens env) s t) (k : Nat) (m : Mmio (Device B N)) (found : s.devices[k]? = some m) :
    ∃ calls m', t.log = s.log ++ calls ∧ t.devices[k]? = some m' ∧ Linked m (visitsTo k calls) m' ∧
      (∀ v ∈ visitsTo k calls, v.Raised ∧ (v.before.mmio.needsReset = true → v.Silent)) ∧
      ∀ earlier middle later, visitsTo k calls = earlier ++ middle ++ later →
        ∀ first last, Linked m earlier first → Linked first middle last → first.needsReset = true →
          (∀ v ∈ middle, ¬v.Resets) →
          (∀ v ∈ middle, v.before.mmio.needsReset = true ∧ v.Silent) ∧ last.needsReset = true := by
  obtain ⟨calls,log,made,linked⟩ := follows_history (run_follows reached)
  obtain ⟨m',found',chain⟩ := linked k m found
  have silent : ∀ v ∈ visitsTo k calls, v.before.mmio.needsReset = true → v.Silent :=
    fun v member isolated => (made v (mem_visitsTo member).1).silent lawful isolated
  refine ⟨calls,m',log,found',chain,?_,?_⟩
  · exact fun v member => ⟨(made v (mem_visitsTo member).1).raised lawful,silent v member⟩
  · intro earlier middle later split first last _ within start alive
    refine within.isolated (fun v member => silent v ?_) start alive
    rw [split]
    exact List.mem_append_left _ (List.mem_append_right _ member)

/-- A lenient disk in use whose queue lies outside guest memory. -/
def brokenDisk : Mmio (Device Reference.Disk Reference.Wire) where
  device := cleanDisk
  queues := ⟨[⟨128,128,true,0,0,0,0,0⟩],VERSION_1,0⟩
  featureSel := 0
  driverSel := 0
  queueSel := 0
  features := VirtioDevice.features cleanDisk ||| VERSION_1
  status := 0xf
  strict := false
  rejected := 0

def diskLayout : MachineLayout where
  ram := []
  uart := ⟨.mmio,0,8,1⟩
  virtio := [⟨.mmio,0x1000,0x200,2⟩]
  hotplug := none

def brokenMachine : Runtime Reference.Vm Nat Reference.Disk Reference.Wire Reference.Port where
  vm := ⟨⟨[],0⟩,false⟩
  layout := diskLayout
  devices := [brokenDisk]
  hasMemory := false
  strict := false
  serial := ⟨[]⟩
  world := emptyWorld
  log := []

/-- A notification isolates the disk; a poll later it is still silent. -/
theorem isolated_device_silent_after_notification :
    ∃ m, ((brokenMachine.after Reference.env (.io ⟨.mmio,0x1050,4,true,0,0⟩)).after Reference.env
        (.poll 0)).devices[0]? = some m ∧ m.status = 0x4f ∧ m.queues.interrupt = 2 ∧
      ∃ calls : List (Call Nat Reference.Disk Reference.Wire), Linked brokenDisk (visitsTo 0 calls) m ∧
        ∀ v ∈ visitsTo 0 calls, v.Raised ∧ (v.before.mmio.needsReset = true → v.Silent) := by
  have ran : Reaches (Happens Reference.env) brokenMachine
      ((brokenMachine.after Reference.env (.io ⟨.mmio,0x1050,4,true,0,0⟩)).after Reference.env (.poll 0)) :=
    (Reaches.refl.tail (.io ⟨.mmio,0x1050,4,true,0,0⟩) rfl).tail (.poll 0) rfl
  obtain ⟨calls,m,_,found,linked,quiet,_⟩ :=
    isolated_device_silent Reference.env_vq_lawful ran 0 brokenDisk rfl
  have state : (((brokenMachine.after Reference.env (.io ⟨.mmio,0x1050,4,true,0,0⟩)).after Reference.env
      (.poll 0)).devices[0]?).map (fun m => (m.status,m.queues.interrupt)) = some (0x4f,2) := by decide
  rw [found] at state
  simp only [Option.map_some,Option.some.injEq,Prod.mk.injEq] at state
  exact ⟨m,found,state.1,state.2,calls,linked,quiet⟩

end Runtime
end WVmm
