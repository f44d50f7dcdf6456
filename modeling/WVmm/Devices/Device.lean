import WVmm.Devices.Net
import WVmm.Devices.Memory

/-! The device kinds of a machine behind one transport type. -/
namespace WVmm.Devices
open Lib.Effect

/-- Different device types share a transport without erasing backend types. -/
inductive Device (B N : Type)
  | block (d : Block B)
  | net (d : Net N)
  | mem (d : VirtioMem)

namespace Device

variable {B N : Type} [BlockStorage B] [NetDevice N]

def dispatch {ε α : Type} (onBlock : Prog (Cell (Block B)) ε α) (onNet : Prog (Cell (Net N)) ε α)
    (onMem : Prog (Cell VirtioMem) ε α) : Prog (Cell (Device B N)) ε α := do
  let c ← Prog.get
  match c.device with
  | .block d => Cell.focus .block d onBlock
  | .net d => Cell.focus .net d onNet
  | .mem d => Cell.focus .mem d onMem

instance : VirtioDevice (Device B N) where
  requiredFeatures
    | .mem d => VirtioDevice.requiredFeatures d
    | _ => 0
  generation
    | .mem d => VirtioDevice.generation d
    | _ => 0
  deviceId
    | .block d => VirtioDevice.deviceId d
    | .net d => VirtioDevice.deviceId d
    | .mem d => VirtioDevice.deviceId d
  features
    | .block d => VirtioDevice.features d
    | .net d => VirtioDevice.features d
    | .mem d => VirtioDevice.features d
  queueCount
    | .block d => VirtioDevice.queueCount d
    | .net d => VirtioDevice.queueCount d
    | .mem d => VirtioDevice.queueCount d
  readConfig
    | .block d => VirtioDevice.readConfig d
    | .net d => VirtioDevice.readConfig d
    | .mem d => VirtioDevice.readConfig d
  notify env queue := dispatch (VirtioDevice.notify env queue) (VirtioDevice.notify env queue)
    (VirtioDevice.notify env queue)
  poll env := dispatch (VirtioDevice.poll env) (VirtioDevice.poll env) (VirtioDevice.poll env)
  reset := dispatch VirtioDevice.reset VirtioDevice.reset VirtioDevice.reset
  flush := dispatch VirtioDevice.flush VirtioDevice.flush VirtioDevice.flush

end Device
end WVmm.Devices
