import WVmm.Devices.DeviceSpec
import WVmm.Devices.Backends

/-! Rejected register writes change nothing. -/
namespace WVmm.Devices
open Lib.Effect

variable {D : Type}

structure SameRegisters (m m' : Mmio D) : Prop where
  status : m'.status = m.status
  features : m'.features = m.features
  featureSel : m'.featureSel = m.featureSel
  driverSel : m'.driverSel = m.driverSel
  queueSel : m'.queueSel = m.queueSel
  negotiated : m'.queues.negotiated = m.queues.negotiated
  interrupt : m'.queues.interrupt = m.queues.interrupt
  rings : m'.queues.rings = m.queues.rings

namespace Mmio

variable [VirtioDevice D] [ResetsAlone D] {env : Env}

/-- A write that `configure` refuses, also a reset that the device refuses,
leaves every register and queue as it was. If lenient mode ignores it, nothing at
all changes but the count of rejected writes. -/
theorem rejected_write_changes_nothing (lawful : env.vq.Lawful) (s u : Slot D) (offset : Nat)
    (value : BitVec 32) (register : offset ≠ 0x50) (f : Failure DeviceError)
    (rejected : (configure env offset value).run s = (.error f,u)) :
    SameRegisters s.mmio u.mmio ∧ (u.mmio.strict = s.mmio.strict ∧ u.mmio.rejected = s.mmio.rejected) ∧
      (∀ e, f = .error e → s.mmio.strict = false → e.isGuest = true →
        (write env offset value).run s =
          (.ok (),{s with mmio := {s.mmio with rejected := (s.mmio.rejected + 1) % 2^64}})) := by
  have outcome := configure_cases lawful offset value s
  have written : (write env offset value).run s = _ := write_run register value s
  rw [rejected] at outcome written
  cases outcome with
  | resetFailed _ c _ ran =>
    have kept : c.queues = s.mmio.queues := by
      have same := ResetsAlone.queues s.cell
      rw [ran] at same
      exact same
    refine ⟨⟨rfl,rfl,rfl,rfl,rfl,congrArg _ kept,congrArg _ kept,congrArg _ kept⟩,⟨rfl,rfl⟩,?_⟩
    rintro e rfl _ guest
    rw [ResetsAlone.host _ _ _ ran] at guest
    cases guest
  | refused e guest =>
    refine ⟨⟨rfl,rfl,rfl,rfl,rfl,rfl,rfl,rfl⟩,⟨rfl,rfl⟩,?_⟩
    rintro _ same lenient _
    cases same
    have ignored : (!s.mmio.strict && e.isGuest) = true := by
      rw [lenient,guest]
      rfl
    rw [written]
    exact if_pos ignored

end Mmio

/-- A fresh lenient transport over a disk of four sectors whose flush fails. -/
def dirtyDisk : Device Reference.Disk Reference.Wire :=
  .block ⟨⟨List.replicate 2048 0,true⟩,"disk",List.replicate 20 0⟩

def emptyWorld : World where
  view := ⟨[],List.Pairwise.nil⟩
  host := fun _ => 0
  ticks := 0
  allocations := 0
  paused := false
  control := MemoryStatus.new 0 1

def dirtySlot : Slot (Device Reference.Disk Reference.Wire) where
  mmio := ⟨dirtyDisk,⟨[⟨128,128,false,0,0,0,0,0⟩],0,0⟩,0,0,0,
    VirtioDevice.features dirtyDisk ||| VERSION_1,3,false,0⟩
  world := emptyWorld
  trace := []

/-- A reset that the disk refuses, and DRIVER_OK before the queue is ready. -/
theorem rejected_write_changes_nothing_samples :
    (∃ f u, (Mmio.configure Reference.env 0x70 0).run dirtySlot = (.error f,u) ∧
      SameRegisters dirtySlot.mmio u.mmio) ∧
    (Mmio.write Reference.env 0x70 7).run dirtySlot =
      (.ok (),{dirtySlot with mmio := {dirtySlot.mmio with rejected := 1}}) := by
  have reset := Mmio.rejected_write_changes_nothing Reference.env_vq_lawful dirtySlot _ 0x70 0
    (by decide) _ rfl
  have early := Mmio.rejected_write_changes_nothing Reference.env_vq_lawful dirtySlot _ 0x70 7
    (by decide) _ rfl
  exact ⟨⟨_,_,rfl,reset.1⟩,early.2.2 _ rfl rfl rfl⟩

end WVmm.Devices
