import WVmm.Memory

/-! The platform contract: layouts, events and the operations of a VM. -/
namespace WVmm

structure VmConfig where
  memoryMib : Nat
  vcpuCount : Nat
  /-- Fail-stop on guest protocol errors. -/
  strict : Bool

namespace Platform

inductive IoSpace
  | mmio
  | port
deriving DecidableEq

structure MemoryRange where
  address : Nat
  size : Nat
deriving DecidableEq

structure IoRegion where
  space : IoSpace
  address : Nat
  size : Nat
  irq : Nat
deriving DecidableEq

inductive DeviceKind
  | block (name : String)
  | net
  | memory
deriving DecidableEq

structure MemoryRequirement where
  capacity : Nat
  alignment : Nat

structure DeviceRequirements where
  /-- Sorted disks, followed by network and dynamic memory. -/
  devices : List DeviceKind
  hotplug : Option MemoryRequirement

structure MachineLayout where
  ram : List MemoryRange
  uart : IoRegion
  virtio : List IoRegion
  hotplug : Option MemoryRange

/-- Successful result of `pause`: every vCPU is quiescent until `resume`, or the
VM is already terminating and will never resume. -/
inductive PauseOutcome
  | paused
  | stopping
deriving DecidableEq

end Platform
end WVmm
