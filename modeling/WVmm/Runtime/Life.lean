import WVmm.Runtime.Loop
import WVmm.Control.Machine
import WVmm.Platform.Layout

/-! The life of a runtime around its loop: what it is built from, how `init` brings
the VM up as far as no stop and no failure ends it, and how everything is undone. -/
namespace WVmm
open Lib.Effect Lib.Runs Devices Platform

/-- The runtime and what it owns; the VM is there once `init` created it. -/
structure Owned (V B N : Type) where
  vm : Option V
  layout : MachineLayout
  devices : List (Mmio (Device B N))
  base : List Region
  mapped : Nat
  hasMemory : Bool
  strict : Bool
  world : World
  /-- The regions `init` passed to `map`, and whether that succeeded. -/
  maps : List (Region × Bool)

/-- What startup asks of the platform and of vm-memory, and at which of its
boundaries a stop is seen. -/
structure Startup (V : Type) where
  /-- `GuestMemoryMmap::from_arc_regions`. -/
  collect : List Region → Except Foreign GuestMemoryMmap
  create : Except PlatformError V
  stopping : Control.Stage → Bool

namespace Owned

variable {V C B N U ε α : Type}

section New
variable [BlockStorage B] [NetDevice N]

def requirements (blocks : List (String × B)) (net : Option N) (memory : Option VirtioMem)
    (status : MemoryStatus) : DeviceRequirements where
  devices := blocks.map (fun b => .block b.1) ++ (net.map (fun _ => DeviceKind.net)).toList ++
    (memory.map (fun _ => DeviceKind.memory)).toList
  hotplug := memory.map (fun d => ⟨wrappingMul status.regionSizeMib MIB,d.alignment⟩)

def attach (layout : MachineLayout) (status : MemoryStatus) :
    Option VirtioMem → Except (Failure Error) (Option VirtioMem)
  | none => .ok none
  | some d => match layout.hotplug with
    | none => .error (.panic .unwrap)
    | some r => ((d.attachAt status r.address).mapError (fun e => .error (.memory e))).map some

/-- Every device behind its transport, up to the first that is refused. -/
def transports (env : Env) (strict : Bool) :
    List (Except DeviceError (Device B N)) → Except (Failure Error) (List (Mmio (Device B N)))
  | [] => .ok []
  | made::rest => match made with
    | .error e => .error (.error (.device e))
    | .ok d => match Mmio.new env d with
      | .error p => .error (.panic p)
      | .ok m => (transports env strict rest).map (m.withStrict strict :: ·)

/-- Sorted disks, followed by network and dynamic memory. -/
def kinds (blocks : List (String × B)) (net : Option N) (memory : Option VirtioMem) :
    List (Except DeviceError (Device B N)) :=
  blocks.map (fun b => (Block.new b.1 b.2).map Device.block) ++
    (net.map (fun n => (Net.new n).map Device.net)).toList ++ (memory.map (fun d => .ok (.mem d))).toList

def new (env : Env) (config : VmConfig)
    (layout : VmConfig → DeviceRequirements → Except PlatformError MachineLayout) (world : World)
    (blocks : List (String × B)) (net : Option N) (memory : Option VirtioMem) :
    Except (Failure Error) (Owned V B N) :=
  let needs := requirements blocks net memory world.control
  ((layout config needs).mapError (fun e => .error (.platform e))).bind fun layout =>
    ((layout.validate config needs).mapError (fun e => .error (.platform e))).bind fun _ =>
      (attach layout world.control memory).bind fun attached =>
        (transports env config.strict (kinds blocks net attached)).map fun devices => {
          vm := none
          layout := layout
          devices := devices
          base := []
          mapped := 0
          hasMemory := memory.isSome
          strict := config.strict
          world := world
          maps := [] }

end New

def onWorld (m : Prog World ε α) : Prog (Owned V B N) ε α :=
  Prog.zoom Owned.world (fun s w => {s with world := w}) m

/-- A call on the VM, which is unwrapped. -/
def onVm (wrap : ε → Error) (call : V → Except ε α × V) : Prog (Owned V B N) (Failure Error) α where
  exec s := match s.vm with
    | none => (.error (.panic .unwrap),s)
    | some vm => ((call vm).1.mapError (fun e => .error (wrap e)),{s with vm := some (call vm).2})

def allocateBase (env : Env) : List MemoryRange → Prog (Owned V B N) (Failure Error) Unit
  | [] => return ()
  | r::rest => do
    let s ← Prog.get
    let region ← Prog.mapError (Failure.convert .memory) (onWorld (World.fromRange env s.base r.address r.size))
    Prog.modify (fun s => {s with base := s.base ++ [region]})
    allocateBase env rest

section Init
variable [Vm V C]

def mapRegion (region : Region) : Prog (Owned V B N) (Failure Error) Unit := do
  match ← Prog.capture (onVm .memory (fun vm => Mapper.map vm region)) with
  | .error e =>
    Prog.modify (fun s => {s with maps := s.maps ++ [(region,false)]})
    Prog.fail e
  | .ok () => Prog.modify (fun s => {s with maps := s.maps ++ [(region,true)], mapped := s.mapped + 1})

/-- Map the base regions from the `k`th on; `false` means that a stop was seen. -/
def mapBase (stopping : Control.Stage → Bool) : Nat → List Region → Prog (Owned V B N) (Failure Error) Bool
  | _, [] => return true
  | k, region::rest => do
    if stopping (.map k) then return false
    mapRegion region
    mapBase stopping (k + 1) rest

/-- The memory device of a runtime accepts targets for as long as it runs. -/
def startMemory : Prog (Owned V B N) (Failure Error) Unit :=
  Prog.modify (fun s => {s with world := if s.hasMemory then
    {s.world with control := {s.world.control with lifecycle := .running}} else s.world})

/-- `prepare` and `start`, each behind a look at `stopping`. -/
def launch (stopping : Control.Stage → Bool) (view : GuestMemoryMmap) (layout : MachineLayout) :
    Prog (Owned V B N) (Failure Error) Unit := do
  if stopping .prepare then return ()
  onVm .platform (fun vm => Vm.prepare vm view layout)
  if stopping .start then return ()
  onVm .platform Vm.start
  startMemory

/-- Bring the VM up. A stop that is seen on the way is no error. -/
def init (env : Env) (startup : Startup V) : Prog (Owned V B N) (Failure Error) Unit := do
  let s ← Prog.get
  allocateBase env s.layout.ram
  let s ← Prog.get
  let view ← Prog.ofExcept ((startup.collect s.base).mapError (fun e => .error (.memory (.regions e))))
  Prog.modify (fun s => {s with world := {s.world with view := view}})
  if startup.stopping .create then return ()
  let vm ← Prog.ofExcept (startup.create.mapError (fun e => .error (.platform e)))
  Prog.modify (fun s => {s with vm := some vm})
  let all ← mapBase startup.stopping 0 s.base
  if all then launch startup.stopping view s.layout else return ()

end Init

/-- The runtime in its loop, and back. -/
def enter (s : Owned V B N) (vm : V) (serial : U) : Runtime V C B N U where
  vm := vm
  layout := s.layout
  devices := s.devices
  hasMemory := s.hasMemory
  strict := s.strict
  serial := serial
  world := s.world
  log := []

def leave (s : Owned V B N) (r : Runtime V C B N U) : Owned V B N :=
  {s with vm := some r.vm, devices := r.devices, world := r.world}

section Cleanup

/-- A step whose error does not end the cleanup. -/
def attempt (m : Prog (Owned V B N) (Failure Error) Unit) :
    Prog (Owned V B N) (Failure Error) (Except Error Unit) where
  exec s := match m.run s with
    | (.ok (),t) => (.ok (.ok ()),t)
    | (.error (.error e),t) => (.ok (.error e),t)
    | (.error (.panic p),t) => (.error (.panic p),t)

def attemptAll : List (Prog (Owned V B N) (Failure Error) Unit) → Except Error Unit →
    Prog (Owned V B N) (Failure Error) (Except Error Unit)
  | [], cleanup => return cleanup
  | m::rest, cleanup => do
    let done ← attempt m
    attemptAll rest (Control.Sys.firstError cleanup done)

def flushDevice [BlockStorage B] [NetDevice N] (k : Nat) : Prog (Owned V B N) (Failure Error) Unit where
  exec s := match s.devices[k]? with
    | none => (.error (.panic .index),s)
    | some m =>
      let (r,slot) := Mmio.flush.run ⟨m,s.world,[]⟩
      (r.mapError (Failure.convert .device),{s with
        devices := s.devices.set k slot.mmio
        world := slot.world})

variable [Mapper V]

def unmapRegion (region : Region) : Prog (Owned V B N) (Failure Error) Unit :=
  onVm .memory (fun vm => Mapper.unmap vm region)

def stopMemory (k : Nat) : Prog (Owned V B N) (Failure Error) Unit where
  exec s := match s.vm, (s.devices[k]?).map (fun m => (m.device,m.queues)) with
    | some vm, some (Device.mem d,queues) =>
      let (r,t) := VirtioMem.stop.run ⟨⟨d,queues,s.world,[]⟩,vm⟩
      (match r with
        | .ok none => .ok ()
        | .ok (some e) => .error (.error (.memory e))
        | .error f => .error (f.convert .memory),{s with vm := some t.mapper, world := t.cell.world})
    | _, _ => (.ok (),s)

end Cleanup

/-- The vCPU fault from `stop` and the first cleanup error. Every step runs
regardless of earlier failures. -/
def cleanup [Vm V C] [BlockStorage B] [NetDevice N] :
    Prog (Owned V B N) (Failure Error) (Except Error Unit × Except Error Unit) := do
  let s ← Prog.get
  let slots := List.range s.devices.length
  let fault ← if s.vm.isSome then attempt (onVm .platform Vm.stop) else pure (.ok ())
  let flushed ← attemptAll (slots.map flushDevice) (.ok ())
  if s.vm.isSome then
    let stopped ← attemptAll (slots.map stopMemory) flushed
    let cleanup ← attemptAll ((s.base.take s.mapped).map unmapRegion) stopped
    return (fault,cleanup)
  else return (fault,flushed)

/-- `result.and(fault).and(cleanup)`: the true cause is the first error in this order. -/
def outcome (result fault cleanup : Except Error Unit) : Except Error Unit :=
  Control.Sys.firstError (Control.Sys.firstError result fault) cleanup

inductive Ended [Vm V C] [BlockStorage B] [NetDevice N] [SerialIo U] (env : Env) (startup : Startup V)
    (serial : U) (first : Owned V B N) : Owned V B N → Except Error Unit → Prop
  /-- Stopped before `init`. -/
  | cancelled : Ended env startup serial first first (.ok ())
  | failed {s : Owned V B N} {e : Error} (ran : (init env startup).run first = (.error (.error e),s)) :
      Ended env startup serial first s (.error e)
  /-- `init` saw a stop before it created a VM; the loop sees it at its first look. -/
  | uncreated {s : Owned V B N} (ran : (init env startup).run first = (.ok (),s)) (absent : s.vm = none) :
      Ended env startup serial first s (.ok ())
  | looped {s : Owned V B N} {vm : V} {l : RunLoop V C B N U} {result : Except Error Unit}
      (ran : (init env startup).run first = (.ok (),s)) (created : s.vm = some vm)
      (reached : Reaches (Takes (RunLoop.next env)) ⟨s.enter vm serial,false,.head⟩ l)
      (concluded : l.pass = .ended (result.mapError .error)) :
      Ended env startup serial first (s.leave l.runtime) result

end Owned
end WVmm
