import WVmm.Runtime.Isolation
import WVmm.Devices.MemoryRuns

/-! When a device may have an interrupt pending. Completions and isolation raise
one only once DRIVER_OK is set; a new memory target raises one at any time. -/
namespace WVmm
open Lib.Effect Lib.Runs Devices Platform

/-- A pending interrupt has a driver to receive it. -/
def Announced {D : Type} (m : Mmio D) : Prop := m.queues.interrupt ≠ 0 → m.status &&& DRIVER_OK ≠ 0

theorem active_running {D : Type} {m : Mmio D} (active : m.active = true) : m.status &&& DRIVER_OK ≠ 0 := by
  have bits : m.status &&& 0xcf = 0xf := by simpa [Mmio.active] using active
  have set : m.status &&& DRIVER_OK = DRIVER_OK := by
    calc m.status &&& DRIVER_OK = m.status &&& (0xcf &&& DRIVER_OK) := by
          rw [show (0xcf : BitVec 32) &&& DRIVER_OK = DRIVER_OK by decide]
      _ = (m.status &&& 0xcf) &&& DRIVER_OK := (BitVec.and_assoc _ _ _).symm
      _ = DRIVER_OK := by rw [bits]; decide
  rw [set]
  decide

/-- Isolation is announced only to a driver that runs. -/
theorem isolate_announced {D : Type} {m : Mmio D} (announced : Announced m) : Announced m.isolate := by
  intro pending
  have status : m.isolate.status = m.status ||| NEEDS_RESET := by
    simp only [Mmio.isolate]
    split <;> rfl
  rw [status,bits_beside _ (by decide)]
  by_contra stopped
  refine pending ?_
  have early : ¬((m.status ||| NEEDS_RESET) &&& DRIVER_OK ≠ 0) := by
    rw [bits_beside _ (by decide),stopped]
    exact fun set => set rfl
  have quiet : m.queues.interrupt = 0 := by_contra (fun raised => announced raised stopped)
  simp only [Mmio.isolate,if_neg early]
  exact quiet

theorem settled_announced {D α : Type} {t : Slot D} (announced : Announced t.mmio)
    (r : Except (Failure DeviceError) α) : Announced (Mmio.settled t r).2.mmio := by
  rcases Mmio.settled_slot t r with same | isolated
  · rwa [same]
  · rw [isolated]
    exact isolate_announced announced

theorem ran_announced {D : Type} {s : Slot D} (active : s.mmio.active = true)
    (p : Prog (Cell D) (Failure DeviceError) Unit) : Announced (Mmio.ran s p).2.mmio := by
  have running : Announced (s.putCell (p.run s.cell).2).mmio := fun _ => active_running active
  exact settled_announced running _

section Visits
variable {B N : Type} [BlockStorage B] [NetDevice N] {env : Env}

theorem configure_announced (lawful : env.vq.Lawful) (offset : Nat) (value : BitVec 32)
    (s : Slot (Device B N)) (announced : Announced s.mmio) :
    Announced ((Mmio.configure env offset value).run s).2.mmio := by
  have outcome := Mmio.configure_cases lawful offset value s
  generalize (Mmio.configure env offset value).run s = ended at outcome ⊢
  cases outcome with
  | reset => exact fun pending => absurd rfl pending
  | resetFailed f c asked ran =>
    have queues := ResetsAlone.queues s.cell
    rw [ran] at queues
    intro pending
    exact announced (fun quiet => pending ((congrArg Queues.interrupt queues).trans quiet))
  | status grown ready asked =>
    intro pending
    change s.mmio.acceptedStatus value &&& DRIVER_OK ≠ 0
    rw [acceptedStatus_bits s.mmio value DRIVER_OK (by decide)]
    exact bits_set (by rw [BitVec.and_comm]; exact grown) (announced pending)
  | acknowledged bits =>
    intro pending
    refine announced (fun quiet => pending ?_)
    change s.mmio.queues.interrupt &&& bits = 0
    rw [quiet]
    exact BitVec.zero_and
  | _ => exact announced

theorem write_announced (lawful : env.vq.Lawful) (offset : Nat) (value : BitVec 32)
    (s : Slot (Device B N)) (announced : Announced s.mmio) :
    Announced ((Mmio.write env offset value).run s).2.mmio := by
  by_cases register : offset = 0x50
  · rw [Mmio.write,if_pos register,Mmio.notify_run]
    split
    · rename_i listens
      rw [Mmio.listens,Bool.and_eq_true] at listens
      exact ran_announced listens.1 _
    · exact announced
  · have after := configure_announced lawful offset value s announced
    rw [Mmio.write_run register]
    revert after
    rcases (Mmio.configure env offset value).run s with ⟨(e | p) | ok,t⟩ <;> intro after
    · dsimp only
      split <;> exact after
    · exact after
    · exact after

variable {V C U : Type} [VirtualMachine V C]

/-- Every operation but a look at the target announces what it raises. -/
theorem perform_announced (lawful : env.vq.Lawful) (op : Operation) (b : Bay V (Device B N))
    (asked : op.Asked b.slot.mmio) (other : ∀ active, op ≠ .sync active)
    (announced : Announced b.slot.mmio) : Announced ((Bay.perform env op).run b).2.slot.mmio := by
  cases op with
  | write offset value => exact write_announced lawful offset value b.slot announced
  | poll =>
    change Announced ((Mmio.poll env).run b.slot).2.mmio
    rw [Mmio.poll_run]
    split
    · exact ran_announced ‹_› _
    · exact announced
  | sync active => exact absurd rfl (other active)
  | available =>
    rw [Runtime.available_slot]
    refine settled_announced ?_ _
    exact fun _ => active_running asked
  | pinned =>
    rw [Runtime.pinned_slot]
    refine settled_announced ?_ _
    exact announced
  | process pinned =>
    rw [Runtime.process_slot]
    refine settled_announced ?_ _
    intro _
    rw [Runtime.process_status]
    exact active_running asked.1

end Visits

namespace Runtime

variable {V C B N U : Type} {env : Env}

def Quiet (s : Runtime V C B N U) : Prop := ∀ m ∈ s.devices, Announced m

/-- A memory transaction that would adopt a new target while the driver of the
memory device has not set DRIVER_OK. -/
def Early (s : Runtime V C B N U) (l : Label C) : Prop :=
  l = .memory ∧ s.hasMemory = true ∧ ∃ m d, s.devices[s.devices.length - 1]? = some m ∧
    m.device = .mem d ∧ target s.world ≠ d.requested ∧ m.status &&& DRIVER_OK = 0

def Fresh [BlockStorage B] [NetDevice N] (env : Env) (s : Runtime V C B N U) : Prop :=
  ∀ m ∈ s.devices, ∃ d made strict, Mmio.new env d = .ok made ∧ m = made.withStrict strict

theorem Fresh.quiet [BlockStorage B] [NetDevice N] {s : Runtime V C B N U} (fresh : s.Fresh env) : s.Quiet := by
  intro m member pending
  obtain ⟨d,made,strict,new,rfl⟩ := fresh m member
  refine absurd ?_ pending
  unfold Mmio.new at new
  split at new
  · cases new
  · cases new
    rfl

/-- The memory device looked at the target; nothing else changed. -/
theorem afterSync_quiet {s : Runtime V C B N U} {m : Mmio (Device B N)} (quiet : s.Quiet)
    (memory : s.hasMemory = true) (found : s.devices[s.devices.length - 1]? = some m)
    (timely : ¬s.Early .memory) : (s.afterSync (s.devices.length - 1) m).Quiet := by
  intro m' member
  rcases List.mem_or_eq_of_mem_set member with old | rfl
  · exact quiet m' old
  · have before := quiet m (List.mem_of_getElem? found)
    intro pending
    rw [synced_status]
    change m.status &&& DRIVER_OK ≠ 0
    unfold synced at pending
    split at pending
    · rename_i d kind
      split at pending
      · exact before pending
      · rename_i changed
        exact fun stopped => timely ⟨rfl,memory,m,d,found,kind,changed,stopped⟩
    · exact before pending

variable [VirtualMachine V C] [BlockStorage B] [NetDevice N]

/-- Visits that do not look at the target announce what they raise. -/
theorem follows_quiet (lawful : env.vq.Lawful) {s t : Runtime V C B N U}
    (follows : Follows env (fun op => ∀ active, op ≠ .sync active) s t) (quiet : s.Quiet) : t.Quiet :=
  follows.devices (fun op b asked other => perform_announced lawful op b asked other) quiet

/-- A new target reaches a driver that does not run yet. -/
theorem early_raises [Uart U] {s : Runtime V C B N U} {l : Label C} (early : s.Early l) :
    ¬(s.after env l).Quiet := by
  obtain ⟨rfl,memory,m,d,found,kind,changed,stopped⟩ := early
  have idle : m.active = false := by
    by_contra active
    exact active_running (Bool.not_eq_false _ ▸ active) stopped
  have ends : s.after env .memory = s.afterSync (s.devices.length - 1) m := by
    rw [memory_after]
    simp only [processMemory,Prog.run_bind,Prog.run_get,memory,Bool.not_true,Bool.false_eq_true,if_false,
      device_run,found,visit,Prog.run_mk,Bay.perform,Bay.onSlot,Prog.run_zoom,syncTarget_run,idle,
      Bool.not_false,if_true,afterSync]
    rfl
  intro quiet
  rw [ends] at quiet
  have bound := (List.getElem?_eq_some_iff.mp found).1
  have announced := quiet _ (List.mem_of_getElem? (List.getElem?_set_self bound))
  refine announced ?_ (by rw [synced_status]; exact stopped)
  simp only [synced,kind,if_neg changed,Mmio.configChanged]
  intro clear
  have bit := congrArg (fun w => w.getLsbD 1) clear
  simp at bit

variable [Uart U]

theorem after_quiet (lawful : env.vq.Lawful) {s : Runtime V C B N U} {l : Label C} (quiet : s.Quiet)
    (timely : ¬s.Early l) : (s.after env l).Quiet := by
  by_cases memory : l = .memory
  · subst memory
    rw [memory_after]
    have other : Transacts (fun op => ∀ active, op ≠ .sync active) :=
      ⟨fun _ => nofun,fun _ => nofun,fun _ _ => nofun⟩
    rcases processMemory_follows other s with same | ⟨m,present,found,later⟩
    · rw [same]
      exact quiet
    · exact follows_quiet lawful later (afterSync_quiet quiet present found timely)
  · exact follows_quiet lawful (step_follows_plain (fun _ _ _ => nofun) (fun _ => nofun) s l memory) quiet

def afterAll (env : Env) (s : Runtime V C B N U) (labels : List (Label C)) : Runtime V C B N U :=
  labels.foldl (after env) s

theorem reaches_afterAll (s : Runtime V C B N U) (labels : List (Label C)) :
    Reaches (Happens env) s (s.afterAll env labels) := by
  induction labels using List.reverseRecOn with
  | nil => exact .refl
  | append_singleton earlier l ih =>
    rw [afterAll,List.foldl_append]
    exact ih.tail l rfl

/-- Along a run from fresh devices, every pending interrupt has a running driver
exactly if no step adopts a new target before DRIVER_OK. -/
theorem interrupts_announced_iff (lawful : env.vq.Lawful) (first : Runtime V C B N U)
    (fresh : first.Fresh env) (labels : List (Label C)) :
    (∀ earlier later, labels = earlier ++ later → (first.afterAll env earlier).Quiet) ↔
      ∀ earlier l later, labels = earlier ++ l::later → ¬(first.afterAll env earlier).Early l := by
  constructor
  · intro quiet earlier l later split early
    refine @early_raises V C B N U env _ _ _ _ _ l early ?_
    have next := quiet (earlier ++ [l]) later (by rw [split,List.append_assoc]; rfl)
    rwa [afterAll,List.foldl_append] at next
  · intro timely earlier
    induction earlier using List.reverseRecOn with
    | nil => exact fun _ _ => fresh.quiet
    | append_singleton earlier l ih =>
      intro later split
      rw [List.append_assoc] at split
      rw [afterAll,List.foldl_append]
      exact after_quiet lawful (ih _ split) (timely earlier l later split)

/-- A machine with a fresh virtio-mem device that plugs nothing yet. -/
def memoryMachine (m : Mmio (Device Reference.Disk Reference.Wire)) :
    Runtime Reference.Vm Nat Reference.Disk Reference.Wire Reference.Port where
  vm := ⟨⟨[],0⟩,false⟩
  layout := diskLayout
  devices := [m]
  hasMemory := true
  strict := false
  serial := ⟨[]⟩
  world := {VirtioMem.sampleCell.world with paused := false}
  log := []

def freshMemory : Mmio (Device Reference.Disk Reference.Wire) where
  device := .mem VirtioMem.sampleCell.device
  queues := ⟨[⟨128,128,false,0,0,0,0,0⟩],0,0⟩
  featureSel := 0
  driverSel := 0
  queueSel := 0
  features := 2 ||| VERSION_1
  status := 0
  strict := false
  rejected := 0

theorem memoryMachine_fresh : (memoryMachine freshMemory).Fresh Reference.env := by
  intro m member
  rw [List.mem_singleton.mp member]
  exact ⟨.mem VirtioMem.sampleCell.device,_,false,rfl,rfl⟩

/-- Before the driver has written a register, the host asks for a new target:
the device raises its interrupt with status zero. -/
theorem new_target_raises_early :
    ∃ m, ((memoryMachine freshMemory).afterAll Reference.env [.target 6,.memory]).devices = [m] ∧
      m.queues.interrupt ≠ 0 ∧ m.status &&& DRIVER_OK = 0 := ⟨_,rfl,by decide,by decide⟩

/-- The same machine, asked for nothing new. -/
theorem interrupts_announced_without_target :
    ((memoryMachine freshMemory).afterAll Reference.env [.memory]).Quiet := by
  refine (interrupts_announced_iff Reference.env_vq_lawful _ memoryMachine_fresh [.memory]).mpr ?_ [.memory] [] rfl
  intro earlier l later split
  have none : earlier = [] := by
    have length := congrArg List.length split
    simp only [List.length_append,List.length_cons,List.length_nil] at length
    exact List.length_eq_zero_iff.mp (by omega)
  rintro ⟨_,_,m,d,found,kind,changed,_⟩
  subst none
  cases found
  cases kind
  exact changed rfl

end Runtime
end WVmm
