import WVmm.Lib.DeviceTree
import WVmm.Platform.Hvf

/-! The device tree of the built-in platform. What a guest reads in it is the machine that
the layout describes: its RAM, its device windows with their interrupts, its vCPUs and
the place of the initial RAM disk. -/
namespace WVmm.Platform.Boot
open Lib.DeviceTree

def GIC_DIST : Nat := 0x08000000

inductive LoadError
  | loaderLayoutDisagreement
  | fdtExceedsReservedSpace (length : Nat)
  | atLeastOneCpuRequired
  /-- An error of the kernel loader. -/
  | loader
  /-- An error of guest memory. -/
  | guestMemory
  /-- An error of the writer of device trees. -/
  | fdt
deriving DecidableEq

def LoadError.text : LoadError → String
  | loaderLayoutDisagreement => "loader/layout disagreement"
  | fdtExceedsReservedSpace length => "FDT exceeds reserved space: " ++ toString length
  | atLeastOneCpuRequired => "at least one CPU required"
  | loader => "kernel loader"
  | guestMemory => "guest memory"
  | fdt => "device tree"

abbrev LoadResult (α : Type) := Except (Failure LoadError) α

/-- A difference that the source does not check. -/
def less (a b : Nat) : LoadResult Nat := if b ≤ a then .ok (a - b) else .error (.panic .overflow)

/-- A 64-bit sum that the source does not check. -/
def sum64 (a b : Nat) : LoadResult Nat := if a + b < 2^64 then .ok (a + b) else .error (.panic .overflow)

def text (s : String) : List UInt8 := s.toByteArray.data.toList ++ [0]

def hexDigits (n : Nat) : String := String.ofList (Nat.toDigits 16 n)

/-- vm-fdt's writer: the bytes it makes of the value of a property, the blob it makes of
some tokens, and the tokens that a reader finds in a blob. -/
structure FdtWriter where
  string : String → List UInt8
  u32 : Nat → List UInt8
  u64 : Nat → List UInt8
  arrayU32 : List Nat → List UInt8
  arrayU64 : List Nat → List UInt8
  null : List UInt8
  finish : List Token → Option (List UInt8)
  tokens : List UInt8 → Option (List Token)

namespace FdtWriter

/-- A string without a zero byte gets its terminator, and numbers are big-endian words. -/
structure Encodes (w : FdtWriter) : Prop where
  string : ∀ s : String, 0 ∉ s.toByteArray.data.toList → w.string s = text s
  u32 : ∀ value, w.u32 value = toBytes 4 value
  u64 : ∀ value, w.u64 value = toBytes 8 value
  arrayU32 : ∀ values, w.arrayU32 values = cells 4 values
  arrayU64 : ∀ values, w.arrayU64 values = cells 8 values
  null : w.null = []

def Faithful (w : FdtWriter) : Prop := ∀ tokens blob, w.finish tokens = some blob → w.tokens blob = some tokens

variable (w : FdtWriter)

def propertyString (name value : String) : Token := .property name (w.string value)

def propertyU32 (name : String) (value : Nat) : Token := .property name (w.u32 value)

def propertyU64 (name : String) (value : Nat) : Token := .property name (w.u64 value)

def propertyArrayU32 (name : String) (values : List Nat) : Token := .property name (w.arrayU32 values)

def propertyArrayU64 (name : String) (values : List Nat) : Token := .property name (w.arrayU64 values)

def propertyNull (name : String) : Token := .property name w.null

end FdtWriter

def bootargs (virtioMem : Bool) : String :=
  "console=ttyS0,115200 earlycon=uart8250,mmio,0x09000000 rdinit=/init panic=-1" ++
    if virtioMem then
      " memory_hotplug.online_policy=auto-movable memory_hotplug.auto_movable_ratio=301 memhp_default_state=online"
    else ""

section Writer
variable (w : FdtWriter)

def cpu (id : Nat) : List Token :=
  [.beginNode ("cpu@" ++ hexDigits id),w.propertyString "device_type" "cpu",w.propertyString "compatible" "arm,arm-v8",
    w.propertyU32 "reg" id,w.propertyString "enable-method" "psci",.endNode]

/-- The node of a virtio window, with its interrupt number among the SPIs. -/
def virtioMmio (device : VirtioRegion) : LoadResult (List Token) :=
  (less device.irq 32).map fun number =>
    [.beginNode ("virtio_mmio@" ++ hexDigits device.address),w.propertyString "compatible" "virtio,mmio",
      w.propertyArrayU64 "reg" [device.address,VIRTIO_STRIDE],w.propertyArrayU32 "interrupts" [0,number,4],
      w.propertyNull "dma-coherent",.endNode]

def virtioMmios : List VirtioRegion → LoadResult (List Token)
  | [] => .ok []
  | device::rest => (virtioMmio w device).bind fun node => (virtioMmios rest).map fun nodes => node ++ nodes

def fixedTokens (l : Layout) (redistSize physical virtual vcpuCount : Nat) (virtioMem : Bool) (initrdEnd : Nat) : List Token :=
  [.beginNode "",w.propertyString "compatible" "w-vmm,arm64",w.propertyU32 "#address-cells" 2,
    w.propertyU32 "#size-cells" 2,w.propertyU32 "interrupt-parent" 1] ++
  [.beginNode "chosen",w.propertyString "bootargs" (bootargs virtioMem),w.propertyString "stdout-path" "/serial@9000000",
    w.propertyU64 "linux,initrd-start" l.initrd,w.propertyU64 "linux,initrd-end" initrdEnd,.endNode] ++
  [.beginNode "memory@40000000",w.propertyString "device_type" "memory",w.propertyArrayU64 "reg" [RAM,l.size],.endNode] ++
  [.beginNode "cpus",w.propertyU32 "#address-cells" 1,w.propertyU32 "#size-cells" 0] ++
  (List.range vcpuCount).flatMap (cpu w) ++ [.endNode] ++
  [.beginNode "psci",w.propertyString "compatible" "arm,psci-0.2",w.propertyString "method" "hvc",.endNode] ++
  [.beginNode "interrupt-controller@8000000",w.propertyString "compatible" "arm,gic-v3",
    w.propertyNull "interrupt-controller",w.propertyU32 "#interrupt-cells" 3,w.propertyU32 "phandle" 1,
    w.propertyArrayU64 "reg" [GIC_DIST,0x10000,GIC_REDIST,redistSize],.endNode] ++
  [.beginNode "timer",w.propertyString "compatible" "arm,armv8-timer",w.propertyNull "always-on",
    w.propertyArrayU32 "interrupts" [1,13,4,1,physical,4,1,virtual,4,1,10,4],.endNode] ++
  [.beginNode "serial@9000000",w.propertyString "compatible" "ns16550a",w.propertyArrayU64 "reg" [UART,UART_SIZE],
    w.propertyU32 "clock-frequency" 1843200,w.propertyU32 "reg-io-width" 1,
    w.propertyArrayU32 "interrupts" [0,UART_IRQ - 32,4],.endNode]

def fdt (l : Layout) (devices : List VirtioRegion) (redistSize : Nat) (timers : Nat × Nat) (vcpuCount : Nat)
    (virtioMem : Bool) (initrdLen : Nat) : LoadResult (List Token) :=
  if vcpuCount = 0 then .error (.error .atLeastOneCpuRequired)
  else
    (sum64 l.initrd initrdLen).bind fun initrdEnd =>
    (less timers.1 16).bind fun physical =>
    (less timers.2 16).bind fun virtual =>
    (virtioMmios w devices).map fun windows =>
      fixedTokens w l redistSize physical virtual vcpuCount virtioMem initrdEnd ++ windows ++ [.endNode]

end Writer

section Reading

structure Window where
  address : Nat
  size : Nat
  irq : Nat
deriving DecidableEq

def pairs : List Nat → List (Nat × Nat)
  | a::b::rest => (a,b)::pairs rest
  | _ => []

/-- The ranges of a node below a parent with two address and two size cells. -/
def ranges (n : Node) : List (Nat × Nat) := match n.get "reg" with
  | some bytes => pairs (words 8 bytes)
  | none => []

/-- The first SPI of a node; the SPIs start at 32. -/
def spi (n : Node) : Option Nat := match (n.get "interrupts").map (words 4) with
  | some (0::number::_) => some (32 + number)
  | _ => none

def window (n : Node) : Option Window := match ranges n, spi n with
  | [(address,size)], some irq => some ⟨address,size,irq⟩
  | _, _ => none

def windowsOf (root : Node) (kind : String) : List Window :=
  (root.children.filter fun n => n.get "compatible" = some (text kind)).filterMap window

def memoryOf (root : Node) : List (Nat × Nat) :=
  (root.children.filter fun n => n.get "device_type" = some (text "memory")).flatMap ranges

/-- The vCPUs that PSCI can power on. -/
def cpusOf (root : Node) : List Nat :=
  (root.children.filter fun n => n.name = "cpus").flatMap fun cpus =>
    (cpus.children.filter fun n => n.get "enable-method" = some (text "psci")).filterMap fun n =>
      (n.get "reg").map fromBytes

def initrdOf (root : Node) : List (Nat × Nat) :=
  (root.children.filter fun n => n.name = "chosen").filterMap fun chosen =>
    match chosen.get "linux,initrd-start", chosen.get "linux,initrd-end" with
    | some first, some past => some (fromBytes first,fromBytes past)
    | _, _ => none

end Reading

def cpuNode (id : Nat) : Node :=
  .mk ("cpu@" ++ hexDigits id) [("device_type",text "cpu"),("compatible",text "arm,arm-v8"),("reg",toBytes 4 id),
    ("enable-method",text "psci")] []

def deviceNode (device : VirtioRegion) : Node :=
  .mk ("virtio_mmio@" ++ hexDigits device.address) [("compatible",text "virtio,mmio"),
    ("reg",cells 8 [device.address,VIRTIO_STRIDE]),("interrupts",cells 4 [0,device.irq - 32,4]),("dma-coherent",[])] []

def serialNode : Node :=
  .mk "serial@9000000" [("compatible",text "ns16550a"),("reg",cells 8 [UART,UART_SIZE]),
    ("clock-frequency",toBytes 4 1843200),("reg-io-width",toBytes 4 1),("interrupts",cells 4 [0,UART_IRQ - 32,4])] []

def fixedNodes (l : Layout) (redistSize : Nat) (timers : Nat × Nat) (vcpuCount : Nat) (virtioMem : Bool) (initrdLen : Nat) :
    List Node := [
  .mk "chosen" [("bootargs",text (bootargs virtioMem)),("stdout-path",text "/serial@9000000"),
    ("linux,initrd-start",toBytes 8 l.initrd),("linux,initrd-end",toBytes 8 (l.initrd + initrdLen))] [],
  .mk "memory@40000000" [("device_type",text "memory"),("reg",cells 8 [RAM,l.size])] [],
  .mk "cpus" [("#address-cells",toBytes 4 1),("#size-cells",toBytes 4 0)] ((List.range vcpuCount).map cpuNode),
  .mk "psci" [("compatible",text "arm,psci-0.2"),("method",text "hvc")] [],
  .mk "interrupt-controller@8000000" [("compatible",text "arm,gic-v3"),("interrupt-controller",[]),
    ("#interrupt-cells",toBytes 4 3),("phandle",toBytes 4 1),("reg",cells 8 [GIC_DIST,0x10000,GIC_REDIST,redistSize])] [],
  .mk "timer" [("compatible",text "arm,armv8-timer"),("always-on",[]),
    ("interrupts",cells 4 [1,13,4,1,timers.1 - 16,4,1,timers.2 - 16,4,1,10,4])] [],
  serialNode]

def tree (l : Layout) (devices : List VirtioRegion) (redistSize : Nat) (timers : Nat × Nat) (vcpuCount : Nat)
    (virtioMem : Bool) (initrdLen : Nat) : Node :=
  .mk "" [("compatible",text "w-vmm,arm64"),("#address-cells",toBytes 4 2),("#size-cells",toBytes 4 2),
    ("interrupt-parent",toBytes 4 1)] (fixedNodes l redistSize timers vcpuCount virtioMem initrdLen ++ devices.map deviceNode)

theorem less_eq_ok {a b c : Nat} : less a b = .ok c ↔ b ≤ a ∧ c = a - b := by
  unfold less
  split
  · simp only [Except.ok.injEq]
    exact ⟨fun same => ⟨‹_›,same.symm⟩,fun same => same.2.symm⟩
  · simp only [reduceCtorEq,false_iff,not_and]
    exact fun fits => absurd fits ‹_›

theorem sum64_eq_ok {a b c : Nat} : sum64 a b = .ok c ↔ a + b < 2^64 ∧ c = a + b := by
  unfold sum64
  split
  · simp only [Except.ok.injEq]
    exact ⟨fun same => ⟨‹_›,same.symm⟩,fun same => same.2.symm⟩
  · simp only [reduceCtorEq,false_iff,not_and]
    exact fun fits => absurd fits ‹_›

section Writing
variable {l : Layout} {devices : List VirtioRegion} {redistSize vcpuCount initrdLen : Nat} {timers : Nat × Nat}
  {virtioMem : Bool} {tokens : List Token} {w : FdtWriter} (encodes : w.Encodes)
include encodes

theorem cpu_tokens (id : Nat) : cpu w id = (cpuNode id).tokens := by
  simp (disch := decide) [cpu,cpuNode,Node.tokens,forest,propertyTokens,FdtWriter.propertyString,FdtWriter.propertyU32,
    encodes.string,encodes.u32]

theorem virtioMmio_eq_ok {device : VirtioRegion} :
    virtioMmio w device = .ok tokens ↔ 32 ≤ device.irq ∧ tokens = (deviceNode device).tokens := by
  have node : [Token.beginNode ("virtio_mmio@" ++ hexDigits device.address),w.propertyString "compatible" "virtio,mmio",
      w.propertyArrayU64 "reg" [device.address,VIRTIO_STRIDE],w.propertyArrayU32 "interrupts" [0,device.irq - 32,4],
      w.propertyNull "dma-coherent",.endNode] = (deviceNode device).tokens := by
    simp (disch := decide) [deviceNode,Node.tokens,forest,propertyTokens,FdtWriter.propertyString,
      FdtWriter.propertyArrayU64,FdtWriter.propertyArrayU32,FdtWriter.propertyNull,encodes.string,encodes.arrayU64,
      encodes.arrayU32,encodes.null]
  unfold virtioMmio
  cases fits : less device.irq 32 with
  | ok number =>
    obtain ⟨above,rfl⟩ := less_eq_ok.mp fits
    simp only [Except.map,Except.ok.injEq,node]
    exact ⟨fun same => ⟨above,same.symm⟩,fun same => same.2.symm⟩
  | error e =>
    simp only [Except.map,reduceCtorEq,false_iff,not_and]
    intro above
    rw [less_eq_ok.mpr ⟨above,rfl⟩] at fits
    cases fits

/-- The windows are written when every interrupt is an SPI. -/
theorem virtioMmios_eq_ok :
    virtioMmios w devices = .ok tokens ↔ (∀ d ∈ devices, 32 ≤ d.irq) ∧ tokens = forest (devices.map deviceNode) := by
  induction devices generalizing tokens with
  | nil => simp [virtioMmios,forest,eq_comm]
  | cons device rest ih =>
    unfold virtioMmios
    constructor
    · intro written
      cases first : virtioMmio w device with
      | error e =>
        rw [first] at written
        cases written
      | ok node =>
        obtain ⟨above,rfl⟩ := (virtioMmio_eq_ok encodes).mp first
        rw [first] at written
        cases later : virtioMmios w rest with
        | error e =>
          rw [later] at written
          cases written
        | ok nodes =>
          obtain ⟨spis,rfl⟩ := ih.mp later
          rw [later] at written
          cases written
          exact ⟨List.forall_mem_cons.mpr ⟨above,spis⟩,rfl⟩
    · rintro ⟨spis,rfl⟩
      rw [(virtioMmio_eq_ok encodes).mpr ⟨spis device List.mem_cons_self,rfl⟩,
        ih.mpr ⟨fun d member => spis d (List.mem_cons_of_mem _ member),rfl⟩]
      rfl

omit encodes in
theorem bootargs_plain (virtioMem : Bool) : 0 ∉ (bootargs virtioMem).toByteArray.data.toList := by
  cases virtioMem <;> decide +kernel

/-- What is written after the checks is one tree. -/
theorem written_tokens (l : Layout) (devices : List VirtioRegion) (redistSize vcpuCount initrdLen : Nat) (timers : Nat × Nat)
    (virtioMem : Bool) : (tree l devices redistSize timers vcpuCount virtioMem initrdLen).tokens =
      fixedTokens w l redistSize (timers.1 - 16) (timers.2 - 16) vcpuCount virtioMem (l.initrd + initrdLen) ++
        forest (devices.map deviceNode) ++ [.endNode] := by
  have cpus : forest ((List.range vcpuCount).map cpuNode) = (List.range vcpuCount).flatMap (cpu w) := by
    rw [forest_map]
    exact congrArg (fun f => (List.range vcpuCount).flatMap f) (funext fun id => (cpu_tokens encodes id).symm)
  simp (disch := decide) only [tree,fixedNodes,serialNode,fixedTokens,Node.tokens,forest,propertyTokens,List.map_cons,
    List.map_nil,cpus,FdtWriter.propertyString,FdtWriter.propertyU32,FdtWriter.propertyU64,FdtWriter.propertyArrayU32,
    FdtWriter.propertyArrayU64,FdtWriter.propertyNull,encodes.string,encodes.string _ (bootargs_plain virtioMem),
    encodes.u32,encodes.u64,encodes.arrayU32,encodes.arrayU64,encodes.null,List.cons_append,List.nil_append,
    List.append_assoc]

/-- What is written is one tree, which is written for any vCPU when the timers are PPIs
and the interrupts of the devices SPIs. -/
theorem fdt_eq_ok : fdt w l devices redistSize timers vcpuCount virtioMem initrdLen = .ok tokens ↔
    vcpuCount ≠ 0 ∧ l.initrd + initrdLen < 2^64 ∧ 16 ≤ timers.1 ∧ 16 ≤ timers.2 ∧ (∀ d ∈ devices, 32 ≤ d.irq) ∧
      tokens = (tree l devices redistSize timers vcpuCount virtioMem initrdLen).tokens := by
  unfold fdt
  rw [written_tokens encodes]
  constructor
  · intro made
    split at made
    · cases made
    · rename_i vcpus
      obtain ⟨initrdEnd,added,made⟩ := bind_eq_ok.mp made
      obtain ⟨physical,first,made⟩ := bind_eq_ok.mp made
      obtain ⟨virtual,second,made⟩ := bind_eq_ok.mp made
      obtain ⟨fits,rfl⟩ := sum64_eq_ok.mp added
      obtain ⟨ppi,rfl⟩ := less_eq_ok.mp first
      obtain ⟨ppi',rfl⟩ := less_eq_ok.mp second
      cases windows : virtioMmios w devices with
      | error e =>
        rw [windows] at made
        cases made
      | ok nodes =>
        obtain ⟨spis,rfl⟩ := (virtioMmios_eq_ok encodes).mp windows
        rw [windows] at made
        exact ⟨vcpus,fits,ppi,ppi',spis,(Except.ok.inj made).symm⟩
  · rintro ⟨vcpus,fits,ppi,ppi',spis,rfl⟩
    rw [if_neg vcpus,sum64_eq_ok.mpr ⟨fits,rfl⟩,less_eq_ok.mpr ⟨ppi,rfl⟩,less_eq_ok.mpr ⟨ppi',rfl⟩,
      (virtioMmios_eq_ok encodes).mpr ⟨spis,rfl⟩]
    rfl

end Writing

theorem text_inj {s t : String} : text s = text t ↔ s = t := by
  refine ⟨fun same => ?_,congrArg text⟩
  have bytes : s.toByteArray.data.toList = t.toByteArray.data.toList := List.append_cancel_right same
  exact String.toByteArray_inj.mp (ByteArray.ext (Array.toList_inj.mp bytes))

theorem digitChar_inj {m n : Nat} (left : m < 16) (right : n < 16) (same : m.digitChar = n.digitChar) : m = n := by
  interval_cases m <;> interval_cases n <;> first | rfl | (exact absurd same (by decide))

theorem toDigits_inj {m n : Nat} (same : Nat.toDigits 16 m = Nat.toDigits 16 n) : m = n := by
  induction m using Nat.strongRecOn generalizing n with
  | ind m ih =>
    have single : ∀ k, (Nat.toDigits 16 k).length ≤ 1 ↔ k < 16 := fun k => by
      rw [Nat.length_toDigits_le_iff (by decide) (by decide),Nat.pow_one]
    have sizes := congrArg List.length same
    by_cases small : m < 16
    · have other : n < 16 := (single n).mp (sizes ▸ (single m).mpr small)
      rw [Nat.toDigits_of_lt_base small,Nat.toDigits_of_lt_base other] at same
      exact digitChar_inj small other (List.singleton_inj.mp same)
    · have other : ¬n < 16 := fun other => small ((single m).mp (sizes.symm ▸ (single n).mpr other))
      rw [Nat.toDigits_of_base_le (by decide) (Nat.not_lt.mp small),
        Nat.toDigits_of_base_le (by decide) (Nat.not_lt.mp other)] at same
      obtain ⟨high,low⟩ := List.append_inj' same rfl
      have quotients := ih (m / 16) (by omega) high
      have remainders := digitChar_inj (Nat.mod_lt m (by decide)) (Nat.mod_lt n (by decide)) (List.singleton_inj.mp low)
      omega

theorem hexDigits_inj {m n : Nat} (same : hexDigits m = hexDigits n) : m = n :=
  toDigits_inj (String.ofList_inj.mp same)

section Windows

theorem window_device {device : VirtioRegion} (address : device.address < 2^64) (above : 32 ≤ device.irq)
    (irq : device.irq < 2^32) : window (deviceNode device) = some ⟨device.address,VIRTIO_STRIDE,device.irq⟩ := by
  have reg : words 8 (cells 8 [device.address,VIRTIO_STRIDE]) = [device.address,VIRTIO_STRIDE] :=
    words_cells (by decide) (by simpa [VIRTIO_STRIDE] using address)
  have interrupts : words 4 (cells 4 [0,device.irq - 32,4]) = [0,device.irq - 32,4] :=
    words_cells (by decide) (by simp; omega)
  simp [window,ranges,spi,deviceNode,Node.get,Node.properties,List.lookup,reg,interrupts,pairs]
  omega

/-- A sub-list that all elements satisfy, or none. -/
theorem filter_devices_all {devices : List VirtioRegion} {p : Node → Bool} (all : ∀ d, p (deviceNode d) = true) :
    (devices.map deviceNode).filter p = devices.map deviceNode :=
  List.filter_eq_self.mpr fun n member => by
    obtain ⟨d,_,rfl⟩ := List.mem_map.mp member
    exact all d

theorem filter_devices_none {devices : List VirtioRegion} {p : Node → Bool} (none : ∀ d, p (deviceNode d) = false) :
    (devices.map deviceNode).filter p = [] :=
  List.filter_eq_nil_iff.mpr fun n member => by
    obtain ⟨d,_,rfl⟩ := List.mem_map.mp member
    simp [none d]

variable (l : Layout) (devices : List VirtioRegion) (redistSize vcpuCount initrdLen : Nat) (timers : Nat × Nat)
  (virtioMem : Bool)

theorem filter_tree (p : Node → Bool) : (tree l devices redistSize timers vcpuCount virtioMem initrdLen).children.filter p =
    (fixedNodes l redistSize timers vcpuCount virtioMem initrdLen).filter p ++ (devices.map deviceNode).filter p := by
  rw [tree,Node.children,List.filter_append]

theorem serial_read : windowsOf (tree l devices redistSize timers vcpuCount virtioMem initrdLen) "ns16550a" =
    [⟨UART,UART_SIZE,UART_IRQ⟩] := by
  have reg : words 8 (cells 8 [UART,UART_SIZE]) = [UART,UART_SIZE] := words_cells (by decide) (by decide)
  have interrupts : words 4 (cells 4 [0,UART_IRQ - 32,4]) = [0,UART_IRQ - 32,4] := words_cells (by decide) (by decide)
  have found : window serialNode = some ⟨UART,UART_SIZE,UART_IRQ⟩ := by
    simp only [window,ranges,spi,serialNode,Node.get,Node.properties,List.lookup,String.reduceBEq,reg,interrupts,pairs,
      Option.map_some]
    rfl
  have picked : (fixedNodes l redistSize timers vcpuCount virtioMem initrdLen).filter
      (fun n => n.get "compatible" = some (text "ns16550a")) = [serialNode] := by
    simp [fixedNodes,serialNode,List.filter,Node.get,Node.properties,List.lookup,text_inj]
  rw [windowsOf,filter_tree,filter_devices_none fun d => by simp [deviceNode,Node.get,Node.properties,text_inj],picked]
  simp [found]

theorem virtio_read (address : ∀ d ∈ devices, d.address < 2^64) (spis : ∀ d ∈ devices, 32 ≤ d.irq)
    (irqs : ∀ d ∈ devices, d.irq < 2^32) :
    windowsOf (tree l devices redistSize timers vcpuCount virtioMem initrdLen) "virtio,mmio" =
      devices.map fun d => ⟨d.address,VIRTIO_STRIDE,d.irq⟩ := by
  rw [windowsOf,filter_tree,filter_devices_all fun d => by simp [deviceNode,Node.get,Node.properties]]
  have none : (fixedNodes l redistSize timers vcpuCount virtioMem initrdLen).filter
      (fun n => n.get "compatible" = some (text "virtio,mmio")) = [] := by
    simp [fixedNodes,serialNode,List.filter,Node.get,Node.properties,List.lookup,text_inj]
  rw [none,List.nil_append,List.filterMap_map]
  refine List.filterMap_eq_map_iff_forall_eq_some.mpr fun d member => ?_
  exact window_device (address d member) (spis d member) (irqs d member)

theorem memory_read (size : l.size < 2^64) :
    memoryOf (tree l devices redistSize timers vcpuCount virtioMem initrdLen) = [(RAM,l.size)] := by
  have reg : words 8 (cells 8 [RAM,l.size]) = [RAM,l.size] := words_cells (by decide) (by simpa [RAM] using size)
  rw [memoryOf,filter_tree,filter_devices_none fun d => by simp [deviceNode,Node.get,Node.properties,List.lookup]]
  simp [fixedNodes,serialNode,List.filter,Node.get,Node.properties,List.lookup,ranges,reg,pairs]

theorem cpus_read (few : vcpuCount < 2^32) :
    cpusOf (tree l devices redistSize timers vcpuCount virtioMem initrdLen) = List.range vcpuCount := by
  have prefixed : ∀ d, (deviceNode d).name ≠ "cpus" := fun d same => by
    have first := congrArg (fun s => s.toList.head?) same
    simp [deviceNode,Node.name] at first
  have psci : ((List.range vcpuCount).map cpuNode).filter (fun n => n.get "enable-method" = some (text "psci")) =
      (List.range vcpuCount).map cpuNode := List.filter_eq_self.mpr fun n member => by
    obtain ⟨id,_,rfl⟩ := List.mem_map.mp member
    simp [cpuNode,Node.get,Node.properties,List.lookup]
  have ids : ((List.range vcpuCount).map cpuNode).filterMap (fun n => (n.get "reg").map fromBytes) = List.range vcpuCount := by
    have each : ∀ id ∈ List.range vcpuCount, (((fun n => (n.get "reg").map fromBytes) ∘ cpuNode) id) = some id := by
      intro id member
      have fits : id < 256^4 := (List.mem_range.mp member).trans few
      simp [cpuNode,Node.get,Node.properties,List.lookup,fromBytes_toBytes fits]
    rw [List.filterMap_map,List.filterMap_congr each,List.filterMap_some]
  rw [cpusOf,filter_tree,filter_devices_none fun d => by simpa using prefixed d]
  have picked : (fixedNodes l redistSize timers vcpuCount virtioMem initrdLen).filter (fun n => n.name = "cpus") =
      [.mk "cpus" [("#address-cells",toBytes 4 1),("#size-cells",toBytes 4 0)] ((List.range vcpuCount).map cpuNode)] := by
    simp [fixedNodes,serialNode,List.filter,Node.name]
  rw [picked,List.append_nil,List.flatMap_cons,List.flatMap_nil,List.append_nil,Node.children,psci,ids]

theorem initrd_read (fits : l.initrd + initrdLen < 2^64) :
    initrdOf (tree l devices redistSize timers vcpuCount virtioMem initrdLen) = [(l.initrd,l.initrd + initrdLen)] := by
  have prefixed : ∀ d, (deviceNode d).name ≠ "chosen" := fun d same => by
    have first := congrArg (fun s => s.toList.head?) same
    simp [deviceNode,Node.name] at first
  have first : fromBytes (toBytes 8 l.initrd) = l.initrd :=
    fromBytes_toBytes (show l.initrd < 2^64 from (Nat.le_add_right _ _).trans_lt fits)
  have past : fromBytes (toBytes 8 (l.initrd + initrdLen)) = l.initrd + initrdLen := fromBytes_toBytes fits
  rw [initrdOf,filter_tree,filter_devices_none fun d => by simpa using prefixed d]
  simp [fixedNodes,serialNode,List.filter,Node.name,Node.get,Node.properties,List.lookup,first,past]

theorem children_apart (distinct : (devices.map VirtioRegion.address).Nodup) :
    ((tree l devices redistSize timers vcpuCount virtioMem initrdLen).children.map Node.name).Nodup := by
  have virtioNames : (devices.map deviceNode).map Node.name =
      (devices.map VirtioRegion.address).map fun a => "virtio_mmio@" ++ hexDigits a := by
    rw [List.map_map,List.map_map]
    rfl
  rw [tree,Node.children,List.map_append,virtioNames]
  refine List.Nodup.append (by simp [fixedNodes,serialNode,Node.name]) (distinct.map fun a b same => ?_) ?_
  · exact hexDigits_inj (String.append_right_inj _ |>.mp same)
  · intro name fixed device
    obtain ⟨a,_,rfl⟩ := List.mem_map.mp device
    have first : ∀ s, s = "virtio_mmio@" ++ hexDigits a → s.toList.head? = some 'v' := by
      rintro _ rfl
      simp
    simp only [fixedNodes,serialNode,List.map_cons,List.map_nil,Node.name,List.mem_cons,List.not_mem_nil,or_false] at fixed
    rcases fixed with same | same | same | same | same | same | same <;> simpa using first _ same.symm

theorem cpus_apart (name : String) (properties : List (String × List UInt8)) :
    (Node.mk name properties ((List.range vcpuCount).map cpuNode)).Distinct := by
  refine .mk ?_ (List.forall_mem_map.mpr fun id _ => Node.distinct_leaf _ _)
  rw [List.map_map]
  exact List.nodup_range.map fun a b same => hexDigits_inj (String.append_right_inj _ |>.mp same)

/-- Nodes next to each other have names of their own, the windows by their addresses and
the vCPUs by their numbers. -/
theorem names_apart (distinct : (devices.map VirtioRegion.address).Nodup) :
    (tree l devices redistSize timers vcpuCount virtioMem initrdLen).Distinct := by
  refine .mk (children_apart l devices redistSize vcpuCount initrdLen timers virtioMem distinct) ?_
  refine List.forall_mem_append.mpr ⟨?_,List.forall_mem_map.mpr fun d _ => Node.distinct_leaf _ _⟩
  simp only [fixedNodes,serialNode,List.forall_mem_cons]
  exact ⟨Node.distinct_leaf _ _,Node.distinct_leaf _ _,cpus_apart vcpuCount _ _,Node.distinct_leaf _ _,
    Node.distinct_leaf _ _,Node.distinct_leaf _ _,Node.distinct_leaf _ _,List.forall_mem_nil _⟩

end Windows

def regionsOf (machine : MachineLayout) : List VirtioRegion := machine.virtio.map fun r => ⟨r.address,r.irq⟩

def seen (r : IoRegion) : Window := ⟨r.address,r.size,r.irq⟩

/-- What a guest reads in a tree is the machine of a layout: its base RAM and nothing of the
region for dynamic memory, the UART and the virtio windows in order, each with the interrupt
that the platform raises for it, a node for each vCPU under the number that PSCI knows it
by, and the initial RAM disk where the boot layout puts it. Names of nodes next to each
other differ. -/
structure Describes (root : Node) (machine : MachineLayout) (vcpuCount initrdLen : Nat) (l : Layout) : Prop where
  memory : memoryOf root = machine.ram.map fun r => (r.address,r.size)
  uart : windowsOf root "ns16550a" = [seen machine.uart]
  virtio : windowsOf root "virtio,mmio" = machine.virtio.map seen
  cpus : cpusOf root = List.range vcpuCount
  initrd : initrdOf root = [(l.initrd,l.initrd + initrdLen)]
  names : root.Distinct

section Layouts
variable {host : Hvf.Host} {kernel : List UInt8} {initrdLen : Nat} {config : VmConfig} {devices : DeviceRequirements}
  {machine : MachineLayout} {l : Layout}

/-- The windows that are passed on lie below 4 GiB and raise SPIs. -/
theorem regions_within (made : Hvf.layout host kernel initrdLen config devices = .ok machine) :
    (∀ d ∈ regionsOf machine, d.address < 2^64 ∧ 32 ≤ d.irq ∧ d.irq < 2^32) ∧
      ((regionsOf machine).map VirtioRegion.address).Nodup := by
  obtain ⟨_,_,count,_,_,virtio,_,_⟩ := Hvf.layout_accepts made
  have regions : regionsOf machine = (List.range devices.devices.length).map fun i =>
      ⟨VIRTIO_BASE + i * VIRTIO_STRIDE,VIRTIO_IRQ_BASE + i⟩ := by
    rw [regionsOf,virtio,List.map_map]
    rfl
  rw [regions]
  refine ⟨fun d member => ?_,?_⟩
  · obtain ⟨i,inside,rfl⟩ := List.mem_map.mp member
    have small := List.mem_range.mp inside
    simp only [VIRTIO_BASE,VIRTIO_STRIDE,VIRTIO_IRQ_BASE]
    omega
  · rw [List.map_map]
    refine List.nodup_range.map fun i j same => ?_
    simp only [Function.comp_apply,VIRTIO_BASE,VIRTIO_STRIDE] at same
    omega

/-- The boot layout lies in RAM, which ends below the top of the address space. -/
theorem placed_within (booted : Layout.new config.memoryMib kernel initrdLen = .ok l) :
    (∃ imageSize offset, Placement (MIB * config.memoryMib) (RAM + offset) (max imageSize kernel.length) initrdLen l) ∧
      l.size < 2^63 := by
  obtain ⟨imageSize,offset,_,_,placement⟩ := (new_places config.memoryMib kernel initrdLen).2.1 l booted
  obtain ⟨enough,_,_,offset',_,_,placed⟩ := new_eq_ok.mp booted
  obtain ⟨bounded,_⟩ := (place_eq_ok (enough_bytes enough) (Nat.le_add_right RAM offset')).mp placed
  exact ⟨⟨imageSize,offset,placement⟩,placement.size ▸ bounded⟩

theorem tree_describes (made : Hvf.layout host kernel initrdLen config devices = .ok machine) (few : config.vcpuCount < 2^32)
    (booted : Layout.new config.memoryMib kernel initrdLen = .ok l) (redistSize : Nat) (timers : Nat × Nat) (virtioMem : Bool) :
    Describes (tree l (regionsOf machine) redistSize timers config.vcpuCount virtioMem initrdLen) machine config.vcpuCount
      initrdLen l := by
  obtain ⟨_,_,_,ram,uart,virtio,_,_⟩ := Hvf.layout_accepts made
  obtain ⟨within,distinct⟩ := regions_within made
  obtain ⟨⟨_,_,placement⟩,size⟩ := placed_within booted
  have top := placement.top
  have ramdisk := placement.ramdisk
  have base : RAM < 2^63 := by decide
  refine ⟨?_,?_,?_,cpus_read _ _ _ _ _ _ _ few,initrd_read _ _ _ _ _ _ _ (by omega),names_apart _ _ _ _ _ _ _ distinct⟩
  · rw [memory_read _ _ _ _ _ _ _ (by omega),ram,placement.size]
    rfl
  · rw [serial_read,uart]
    rfl
  · rw [virtio_read _ _ _ _ _ _ _ (fun d member => (within d member).1) (fun d member => (within d member).2.1)
      (fun d member => (within d member).2.2),regionsOf,virtio,List.map_map,List.map_map,List.map_map]
    rfl

/-- The device tree that is written for a layout is one tree, in which a guest reads the
machine of that layout and no other. Nothing overflows on the way when the timers are
private interrupts. -/
theorem fdt_describes {w : FdtWriter} (encodes : w.Encodes)
    (made : Hvf.layout host kernel initrdLen config devices = .ok machine) (few : config.vcpuCount < 2^32)
    (redistSize : Nat) (timers : Nat × Nat) (physical : 16 ≤ timers.1) (virtual : 16 ≤ timers.2) :
    ∃ l tokens root, Layout.new config.memoryMib kernel initrdLen = .ok l ∧
      fdt w l (regionsOf machine) redistSize timers config.vcpuCount machine.hotplug.isSome initrdLen = .ok tokens ∧
      read tokens = some root ∧ Describes root machine config.vcpuCount initrdLen l := by
  obtain ⟨_,vcpus,_⟩ := Hvf.layout_accepts made
  obtain ⟨l,booted⟩ : ∃ l, Layout.new config.memoryMib kernel initrdLen = .ok l := by
    obtain ⟨l,booted,_⟩ := bind_eq_ok.mp made
    exact ⟨l,Hvf.fromBoot_eq_ok.mp booted⟩
  obtain ⟨within,_⟩ := regions_within made
  obtain ⟨⟨_,_,placement⟩,size⟩ := placed_within booted
  have top := placement.top
  have ramdisk := placement.ramdisk
  have base : RAM < 2^63 := by decide
  exact ⟨l,_,_,booted,(fdt_eq_ok encodes).mpr ⟨by omega,by omega,physical,virtual,fun d member => (within d member).2.1,rfl⟩,
    read_tokens _,tree_describes made few booted _ _ _⟩

end Layouts

/-- A writer that knows the blob of some tokens only. -/
def oneBlob (written : List Token) : FdtWriter where
  string := text
  u32 := toBytes 4
  u64 := toBytes 8
  arrayU32 := cells 4
  arrayU64 := cells 8
  null := []
  finish found := if found = written then some [0xd0,0x0d,0xfe,0xed] else none
  tokens blob := if blob = [0xd0,0x0d,0xfe,0xed] then some written else none

theorem oneBlob_encodes (written : List Token) : (oneBlob written).Encodes :=
  ⟨fun _ _ => rfl,fun _ => rfl,fun _ => rfl,fun _ => rfl,fun _ => rfl,rfl⟩

/-- 512 MiB of RAM, two vCPUs and two devices, one of them dynamic memory. -/
theorem fdt_describes_small : ∃ machine l tokens root,
    Hvf.layout ⟨.ok 8,.ok 36⟩ Hvf.smallKernel 0x1000 ⟨512,2,false⟩ ⟨[.net,.memory],some ⟨0x10000000,0x8000000⟩⟩ = .ok machine ∧
    Layout.new 512 Hvf.smallKernel 0x1000 = .ok l ∧
    fdt (oneBlob []) l (regionsOf machine) 0x20000 (30,27) 2 true 0x1000 = .ok tokens ∧
    read tokens = some root ∧ root.Distinct ∧ cpusOf root = [0,1] ∧ windowsOf root "ns16550a" = [⟨0x9000000,8,33⟩] := by
  obtain ⟨machine,made,hotplug,uart⟩ : ∃ machine, Hvf.layout ⟨.ok 8,.ok 36⟩ Hvf.smallKernel 0x1000 ⟨512,2,false⟩
      ⟨[.net,.memory],some ⟨0x10000000,0x8000000⟩⟩ = .ok machine ∧ machine.hotplug.isSome = true ∧
      machine.uart = ⟨.mmio,0x9000000,8,33⟩ := ⟨_,rfl,rfl,rfl⟩
  obtain ⟨l,tokens,root,booted,written,reads,describes⟩ :=
    fdt_describes (oneBlob_encodes []) made (by decide) 0x20000 (30,27) (by decide) (by decide)
  rw [hotplug] at written
  exact ⟨machine,l,tokens,root,made,booted,written,reads,describes.names,describes.cpus,
    describes.uart.trans (by rw [uart]; rfl)⟩

end WVmm.Platform.Boot
