import WVmm.Runtime.Model
import WVmm.Devices.Backends

/-! A virtual machine and a serial port that keep their contracts, for concrete
runtimes. -/
namespace WVmm.Reference
open Lib.Effect Devices Platform

structure Vm where
  mappings : TableMapper (fun _ => false)
  stopping : Bool

namespace Vm

instance : VirtualMachine Vm Nat where
  map v r :=
    let (outcome,mappings) := Mapper.map v.mappings r
    (outcome,{v with mappings := mappings})
  unmap v r :=
    let (outcome,mappings) := Mapper.unmap v.mappings r
    (outcome,{v with mappings := mappings})
  completeIo v _ _ := (.ok (),v)
  setIrq v _ _ := (.ok (),v)
  pause v := (.ok (if v.stopping then .stopping else .paused),v)
  resume v := (.ok (),v)

def table (v : Vm) : Nat → Option Region := v.mappings.table

theorem map_mappings {v v' : Vm} {r : Region} {outcome : Except MemoryError Unit}
    (mapped : Mapper.map v r = (outcome,v')) : Mapper.map v.mappings r = (outcome,v'.mappings) := by
  have result := congrArg Prod.fst mapped
  have mappings := congrArg (fun x => x.2.mappings) mapped
  exact Prod.ext result mappings

theorem unmap_mappings {v v' : Vm} {r : Region} {outcome : Except MemoryError Unit}
    (unmapped : Mapper.unmap v r = (outcome,v')) : Mapper.unmap v.mappings r = (outcome,v'.mappings) := by
  have result := congrArg Prod.fst unmapped
  have mappings := congrArg (fun x => x.2.mappings) unmapped
  exact Prod.ext result mappings

theorem atomic : Mapper.Atomic Vm.table where
  map_ok v r _ mapped := TableMapper.atomic.map_ok v.mappings r _ (map_mappings mapped)
  map_error v r e _ refused := TableMapper.atomic.map_error v.mappings r e _ (map_mappings refused)
  unmap_ok v r _ unmapped := TableMapper.atomic.unmap_ok v.mappings r _ (unmap_mappings unmapped)
  unmap_error v r e _ refused := TableMapper.atomic.unmap_error v.mappings r e _ (unmap_mappings refused)

theorem reliable : Mapper.Reliable Vm.table where
  maps v r absent := TableMapper.reliable.maps v.mappings r absent
  unmaps v r present := TableMapper.reliable.unmaps v.mappings r present

end Vm

structure Port where
  written : List UInt8

instance : Uart Port where
  write p _ value := (.ok (),⟨p.written ++ [value]⟩)
  read p _ := (0,p)
  interruptIdentification _ := 1

end WVmm.Reference
