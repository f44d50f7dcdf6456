import WVmm.Devices.Device
import WVmm.Devices.BlockSpec
import WVmm.Devices.NetSpec
import WVmm.Devices.Configure

/-! The device kinds together: what notifications, polls and resets may do. -/
namespace WVmm.Devices
open Lib.Effect

namespace Device

variable {B N : Type} [BlockStorage B] [NetDevice N] {env : Env} {trust : Trust} {view : GuestMemoryMmap}
  {k : Nat}

/-- A device stays of its kind and keeps what its kind keeps. -/
inductive Keeps : Device B N → Device B N → Prop
  | block {d d' : Block B} (kept : Block.Keeps d d') : Keeps (.block d) (.block d')
  | net {d d' : Net N} (kept : Net.Keeps d d') : Keeps (.net d) (.net d')
  | mem (d : VirtioMem) : Keeps (.mem d) (.mem d)

instance : Kept (Keeps : Device B N → Device B N → Prop) where
  refl d := by
    cases d with
    | block d => exact .block (Kept.refl d)
    | net d => exact .net (Kept.refl d)
    | mem d => exact .mem d
  trans a b d first second := by
    cases first with
    | block kept =>
      cases second with
      | block kept' => exact .block (Kept.trans _ _ _ kept kept')
    | net kept =>
      cases second with
      | net kept' => exact .net (Kept.trans _ _ _ kept kept')
    | mem d => exact second

def Fits : Device B N → Prop
  | .block d => d.id.length ≤ 20
  | .net d => Net.HEADER ≤ d.rx.length
  | .mem _ => True

theorem Keeps.fits {d d' : Device B N} (kept : Keeps d d') (fits : d.Fits) : d'.Fits := by
  cases kept with
  | block kept => exact Nat.le_trans (Nat.le_of_eq (congrArg List.length kept.id)) fits
  | net kept => exact Nat.le_trans fits (Nat.le_of_eq kept.size.symm)
  | mem d => exact fits

/-- The program of one kind, seen from the sum of kinds. -/
theorem focus_acts {A : Type} {keeps : A → A → Prop} {wrap : A → Device B N} {a : A}
    {m : Prog (Cell A) (Failure DeviceError) Unit} {pre : Cell A → Prop} {before : Cell (Device B N) → Prop}
    (acts : Acts env trust keeps k pre m (fun _ _ => True))
    (enters : ∀ c, before c → c.device = wrap a ∧ pre ⟨a,c.queues,c.world,c.trace⟩)
    (wraps : ∀ b, keeps a b → Keeps (wrap a) (wrap b)) :
    Acts env trust Keeps k before (Cell.focus wrap a m) (fun _ _ => True) := by
  refine Triple.zoom acts (fun c here => (enters c here).2) ?_ (fun _ _ _ _ _ _ => trivial)
  intro c t here moves
  refine ⟨moves.grown,moves.world,moves.rings,moves.negotiated,moves.interrupt,?_⟩
  rw [(enters c here).1]
  exact wraps _ moves.device

structure Idle (view : GuestMemoryMmap) (k : Nat) (c : Cell (Device B N)) : Prop where
  wired : Wired view (VirtioDevice.queueCount c.device) k c
  fits : c.device.Fits

theorem Idle.lasting : Lasting env trust Keeps k (Idle view k : Cell (Device B N) → Prop) := by
  intro c c' moves idle
  have same : VirtioDevice.queueCount c'.device = VirtioDevice.queueCount c.device := by
    have kept := moves.device
    revert kept
    generalize c.device = d
    generalize c'.device = d'
    intro kept
    cases kept <;> rfl
  exact ⟨same ▸ .lasting c c' moves idle.wired,moves.device.fits idle.fits⟩

theorem dispatch_acts {onBlock : Prog (Cell (Block B)) (Failure DeviceError) Unit}
    {onNet : Prog (Cell (Net N)) (Failure DeviceError) Unit}
    {onMem : Prog (Cell VirtioMem) (Failure DeviceError) Unit} {before : Cell (Device B N) → Prop}
    (entered : ∀ c, before c → Idle view k c)
    (block : ∀ c d, before c → c.device = .block d →
      Acts env trust Block.Keeps k (Block.Idle view k) onBlock (fun _ _ => True))
    (net : ∀ c d, before c → c.device = .net d →
      Acts env trust Net.Keeps k (Net.Idle view k) onNet (fun _ _ => True))
    (mem : onMem = pure ()) :
    Acts env trust Keeps k before (dispatch onBlock onNet onMem) (fun _ _ => True) := by
  refine Acts.get (fun c here => ?_)
  obtain ⟨wired,fits⟩ := entered c here
  cases kind : c.device with
  | block d =>
    rw [kind] at wired fits
    refine focus_acts (block c d here kind) ?_ (fun _ => .block)
    rintro _ ⟨rfl,_⟩
    exact ⟨kind,⟨wired.view,wired.count,wired.earlier,wired.sized⟩,fits⟩
  | net d =>
    rw [kind] at wired fits
    refine focus_acts (net c d here kind) ?_ (fun _ => .net)
    rintro _ ⟨rfl,_⟩
    exact ⟨kind,⟨wired.view,wired.count,wired.earlier,wired.sized⟩,fits⟩
  | mem d =>
    rw [mem]
    rintro _ ⟨rfl,_⟩
    refine ⟨⟨List.prefix_refl _,.refl _,.refl _,rfl,.inl rfl,?_⟩,fun _ _ => trivial,?_⟩
    · rw [kind]
      exact .mem d
    · intro f failed
      cases failed

structure Obeys (B N : Type) [BlockStorage B] [NetDevice N] (trust : Trust) : Prop where
  disk : BlockStorage.Obeys B trust
  wire : NetDevice.Obeys N trust

theorem notify_acts (lawful : env.vm.Lawful) (lawful' : env.vq.Lawful) (obeys : Obeys B N trust)
    (queue : Nat) :
    Acts env trust Keeps k (fun c => Idle view k c ∧ queue < c.queues.rings.length)
      (VirtioDevice.notify env queue) (fun _ (_ : Cell (Device B N)) => True) := by
  refine dispatch_acts (fun _ here => here.1) (fun _ _ _ _ => Block.notify_acts lawful lawful' obeys.disk queue)
    (fun c d here kind => Net.notify_acts lawful lawful' obeys.wire queue ?_) rfl
  have bound := here.2
  rw [here.1.wired.count,kind] at bound
  exact bound

theorem poll_acts (lawful : env.vm.Lawful) (lawful' : env.vq.Lawful) (obeys : Obeys B N trust) :
    Acts env trust Keeps k (Idle view k) (VirtioDevice.poll env) (fun _ (_ : Cell (Device B N)) => True) :=
  dispatch_acts (fun _ here => here) (fun _ _ _ _ => Acts.pure (fun _ _ => trivial))
    (fun _ _ _ _ => Net.poll_acts lawful lawful' obeys.wire) rfl

/-- A reset flushes a disk, forgets a deferred frame or clears the driver flag. -/
theorem reset_run (c : Cell (Device B N)) :
    VirtioDevice.reset.run c = match c.device with
      | .block d => ((BlockStorage.flush d.disk).1.mapError (fun e => .error (.storage e)),
          {c with
            device := .block {d with disk := (BlockStorage.flush d.disk).2}
            trace := c.trace ++ [.diskFlush (answer (BlockStorage.flush d.disk).1)]})
      | .net d => (.ok (),{c with device := .net {d with pendingTx := none, tx := []}})
      | .mem d => (.ok (),{c with
          device := .mem d
          world := {c.world with control := {c.world.control with driverReady := false}}}) := by
  obtain ⟨d,queues,world,trace⟩ := c
  cases d <;> rfl

instance : ResetsAlone (Device B N) where
  queues c := by
    rw [reset_run]
    cases c.device <;> rfl
  view c := by
    rw [reset_run]
    cases c.device <;> rfl
  host c c' e failed := by
    have result := congrArg Prod.fst failed
    rw [reset_run] at result
    cases kind : c.device with
    | block d =>
      simp only [kind] at result
      cases outcome : (BlockStorage.flush d.disk).1 with
      | ok _ =>
        rw [outcome] at result
        cases result
      | error source =>
        rw [outcome] at result
        cases result
        rfl
    | net d =>
      simp only [kind] at result
      cases result
    | mem d =>
      simp only [kind] at result
      cases result

end Device
end WVmm.Devices
