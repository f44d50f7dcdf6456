import WVmm.Devices.Moves

/-! Every way a register write or a poll can end. A refused write is the guest's
error and leaves the transport as it was; a device is asked by a reset, by a
notification or by a poll, and an error of the guest isolates it in lenient mode. -/
namespace WVmm.Devices
open Lib.Effect

/-- What a reset of a device may do: it gets neither queues nor memory, and it
fails for reasons of the host. -/
class ResetsAlone (D : Type) [VirtioDevice D] : Prop where
  queues : ∀ c : Cell D, (VirtioDevice.reset.run c).2.queues = c.queues
  view : ∀ c : Cell D, (VirtioDevice.reset.run c).2.world.view = c.world.view
  host : ∀ (c c' : Cell D) e, VirtioDevice.reset.run c = (.error (.error e),c') → e.isGuest = false

variable {D : Type} {env : Env}

/-- An accepted change of one ring. -/
inductive Rewired (env : Env) (view : GuestMemoryMmap) (q : Queue) : Queue → Prop
  | size (n : Nat) (positive : 0 < n) (bounded : n ≤ MAX_QUEUE) (power : n.isPowerOfTwo) :
      Rewired env view q {q with size := n}
  | enabled (valid : env.vq.isValid {q with ready := true} view = true) :
      Rewired env view q {q with ready := true}
  | disabled : Rewired env view q {q with ready := false}
  | descTable (a : Nat) : Rewired env view q {q with descTable := a}
  | availRing (a : Nat) : Rewired env view q {q with availRing := a}
  | usedRing (a : Nat) : Rewired env view q {q with usedRing := a}

def Slot.withMmio (s : Slot D) (m : Mmio D) : Slot D := {s with mmio := m}

def Mmio.cleared (env : Env) (m : Mmio D) : Mmio D := {m with
  queues := ⟨m.queues.rings.map env.vq.reset,0,0⟩
  featureSel := 0
  driverSel := 0
  queueSel := 0
  status := 0}

namespace Mmio

theorem setRing_same (m : Mmio D) {index : Nat} {q : Queue} (found : m.queues.rings[index]? = some q) :
    m.setRing index q = m := by
  have same : m.queues.rings.set index q = m.queues.rings := by
    obtain ⟨bound,rfl⟩ := List.getElem?_eq_some_iff.mp found
    exact List.set_getElem_self bound
  simp only [setRing,same]

theorem setRing_setRing (m : Mmio D) (index : Nat) (q q' : Queue) :
    (m.setRing index q).setRing index q' = m.setRing index q' := by
  simp [setRing]

/-- The slot after a register write that lenient mode ignored. -/
def counted (s : Slot D) : Slot D := s.withMmio {s.mmio with rejected := (s.mmio.rejected + 1) % 2^64}

def isolated (s : Slot D) : Slot D := s.withMmio s.mmio.isolate

def settled {α : Type} (s : Slot D) :
    Except (Failure DeviceError) α → Except (Failure DeviceError) (Option α) × Slot D
  | .ok value => (.ok (some value),s)
  | .error (.panic p) => (.error (.panic p),s)
  | .error (.error e) =>
    if !s.mmio.strict && e.isGuest then (.ok none,isolated s) else (.error (.error e),s)

theorem contain_run {α : Type} (r : Except (Failure DeviceError) α) (s : Slot D) :
    (contain r).run s = settled s r := by
  rw [contain,Prog.run_bind,Prog.run_get]
  rcases r with (e | p) | value
  · simp only [settled]
    split <;> rfl
  · rfl
  · rfl

theorem settled_slot {α : Type} (s : Slot D) (r : Except (Failure DeviceError) α) :
    (settled s r).2 = s ∨ (settled s r).2 = isolated s := by
  rcases r with (e | p) | value
  · simp only [settled]
    split
    · exact .inr rfl
    · exact .inl rfl
  · exact .inl rfl
  · exact .inl rfl

theorem contained_run {α : Type} (p : Prog (Cell D) (Failure DeviceError) α) (s : Slot D) :
    (do
      let result ← Prog.capture (Slot.onCell p)
      contain result : Prog (Slot D) (Failure DeviceError) (Option α)).run s =
      settled (s.putCell (p.run s.cell).2) (p.run s.cell).1 := by
  rw [Prog.run_bind,Prog.run_capture,Slot.onCell,Prog.run_zoom]
  exact contain_run _ _

def listens (m : Mmio D) (queue : Nat) : Bool := m.active && (m.queues.rings[queue]?).any (·.ready)

def ran (s : Slot D) (p : Prog (Cell D) (Failure DeviceError) Unit) :
    Except (Failure DeviceError) Unit × Slot D :=
  ((settled (s.putCell (p.run s.cell).2) (p.run s.cell).1).1.map (fun _ => ()),
    (settled (s.putCell (p.run s.cell).2) (p.run s.cell).1).2)

theorem ran_eq (p : Prog (Cell D) (Failure DeviceError) Unit) (s : Slot D) :
    (do
      let result ← Prog.capture (Slot.onCell p)
      let _ ← contain result : Prog (Slot D) (Failure DeviceError) Unit).run s = ran s p := by
  rw [Prog.run_bind,Prog.run_capture,Slot.onCell,Prog.run_zoom]
  dsimp only
  rw [Prog.run_bind,contain_run]
  unfold ran
  rcases settled (s.putCell (p.run s.cell).2) (p.run s.cell).1 with ⟨r,u⟩
  cases r <;> rfl

end Mmio

variable [VirtioDevice D]

/-- Every way `configure` can end. -/
inductive Configured (env : Env) (offset : Nat) (value : BitVec 32) (s : Slot D) :
    Except (Failure DeviceError) Unit × Slot D → Prop
  | ignored : Configured env offset value s (.ok (),s)
  | selected (feature driver queue : BitVec 32) : Configured env offset value s
      (.ok (),s.withMmio {s.mmio with featureSel := feature, driverSel := driver, queueSel := queue})
  | negotiated (features : BitVec 64) (undecided : s.mmio.status &&& FEATURES_OK = 0) :
      Configured env offset value s
        (.ok (),s.withMmio {s.mmio with queues := {s.mmio.queues with negotiated := features}})
  | reset (c : Cell D) (asked : offset = 0x70 ∧ value = 0)
      (ran : VirtioDevice.reset.run s.cell = (.ok (),c)) :
      Configured env offset value s
        (.ok (),(s.putCell c).withMmio ((s.putCell c).mmio.cleared env))
  | resetFailed (f : Failure DeviceError) (c : Cell D) (asked : offset = 0x70 ∧ value = 0)
      (ran : VirtioDevice.reset.run s.cell = (.error f,c)) :
      Configured env offset value s (.error f,s.putCell c)
  | status (grown : value &&& s.mmio.status = s.mmio.status)
      (ready : s.mmio.acceptedStatus value &&& DRIVER_OK ≠ 0 → s.mmio.status &&& DRIVER_OK = 0 →
        s.mmio.acceptedStatus value &&& 0xb = 0xb ∧
          ∀ q ∈ s.mmio.queues.rings, env.vq.isValid q s.world.view = true)
      (asked : offset = 0x70) :
      Configured env offset value s
        (.ok (),s.withMmio {s.mmio with status := s.mmio.acceptedStatus value})
  | acknowledged (bits : BitVec 32) : Configured env offset value s (.ok (),s.withMmio
      {s.mmio with queues := {s.mmio.queues with interrupt := s.mmio.queues.interrupt &&& bits}})
  | rewired (index : Nat) (q q' : Queue) (found : s.mmio.queues.rings[index]? = some q)
      (early : s.mmio.status &&& DRIVER_OK = 0 ∨ q' = {q with ready := false})
      (idle : q.ready = false ∨ q' = {q with ready := false}) (change : Rewired env s.world.view q q') :
      Configured env offset value s (.ok (),s.withMmio (s.mmio.setRing index q'))
  | refused (e : DeviceError) (guest : e.isGuest = true) :
      Configured env offset value s (.error (.error e),s)

namespace Mmio

theorem writeStatus_cases (s : Slot D) (value : BitVec 32) :
    Configured env 0x70 value s ((writeStatus env value).run s) := by
  rw [writeStatus,Prog.run_bind,Prog.run_get]
  dsimp only
  rw [Prog.run_guard]
  split
  · rename_i grown
    rw [Prog.run_guard]
    split
    · rename_i early
      refine .status grown ?_ rfl
      intro set clear
      by_contra unready
      rw [← List.all_eq_true] at unready
      exact early ⟨set,clear,unready⟩
    · exact .refused _ rfl
  · exact .refused _ rfl

theorem reset_cases (s : Slot D) : Configured env 0x70 0 s ((reset env).run s) := by
  simp only [reset,Prog.run_bind,Slot.onCell,Prog.run_zoom]
  rcases ran : VirtioDevice.reset.run s.cell with ⟨r,c⟩
  cases r with
  | error f => exact .resetFailed f c ⟨rfl,rfl⟩ ran
  | ok _ => exact .reset c ⟨rfl,rfl⟩ ran

section Rings
variable {offset : Nat} {value : BitVec 32} (s : Slot D) {index : Nat} {q : Queue}
  (found : s.mmio.queues.rings[index]? = some q)
include found

theorem writeSize_cases (lawful : env.vq.Lawful) (early : s.mmio.status &&& DRIVER_OK = 0)
    (idle : q.ready = false) (known : offset = 0x38) :
    Configured env offset value s ((writeRing env offset value index q).run s) := by
  rw [writeRing,if_pos known,Prog.run_guard]
  split
  · rename_i bounded
    rcases set : env.vq.trySetSize q value.toNat with ⟨r,q'⟩
    cases r with
    | ok _ =>
      obtain ⟨rfl,positive,_,power⟩ := lawful.size_set q value.toNat q' set
      exact .rewired index q _ found (.inl early) (.inl idle) (.size _ positive bounded power)
    | error e =>
      have same := lawful.size_refused q value.toNat e q' set
      have kept : Configured env offset value s
          (.error (.error (.queue e)),s.withMmio (s.mmio.setRing index q)) := by
        rw [setRing_same s.mmio found]
        exact .refused _ rfl
      rw [same]
      exact kept
  · exact .refused _ rfl

theorem writeReady_cases (early : s.mmio.status &&& DRIVER_OK = 0 ∨ value = 0)
    (idle : q.ready = false ∨ value = 0) (known : offset = 0x44) :
    Configured env offset value s ((writeRing env offset value index q).run s) := by
  rw [writeRing,if_neg (by omega),if_pos known,Prog.run_guard]
  split
  · rename_i small
    change Configured env offset value s ((if value.toNat = 1 ∧
        ¬env.vq.isValid {q with ready := true} s.world.view then do
          Slot.update (setRing index {q with ready := false})
          Prog.fail (.error .invalidQueueMemory)
        else return () : Prog (Slot D) (Failure DeviceError) Unit).run
          (s.withMmio (s.mmio.setRing index {q with ready := value.toNat == 1})))
    split
    · rename_i invalid
      -- The flag was clear before, so taking it back restores the ring.
      have clear : q.ready = false := idle.resolve_right (fun zero => by rw [zero] at invalid; exact absurd invalid.1 (by decide))
      have same : {q with ready := false} = q := by rw [← clear]
      change Configured env offset value s (.error (.error .invalidQueueMemory),s.withMmio
        ((s.mmio.setRing index {q with ready := value.toNat == 1}).setRing index {q with ready := false}))
      rw [setRing_setRing,same,setRing_same s.mmio found]
      exact .refused _ rfl
    · rename_i valid
      change Configured env offset value s
        (.ok (),s.withMmio (s.mmio.setRing index {q with ready := value.toNat == 1}))
      by_cases one : value.toNat = 1
      · have nonzero : value ≠ 0 := fun zero => by rw [zero] at one; exact absurd one (by decide)
        have accepted : env.vq.isValid {q with ready := true} s.world.view = true := by
          by_contra invalid
          exact valid ⟨one,invalid⟩
        rw [one]
        exact .rewired index q _ found (.inl (early.resolve_right nonzero))
          (.inl (idle.resolve_right nonzero)) (.enabled accepted)
      · have off : (value.toNat == 1) = false := beq_eq_false_iff_ne.mpr one
        rw [off]
        exact .rewired index q _ found (.inr rfl) (.inr rfl) .disabled
  · exact .refused _ rfl

/-- What a write to a queue register of an existing queue leads to, once the
transport lets it through. -/
theorem writeRing_cases (lawful : env.vq.Lawful) (known : queueRegister offset = true)
    (early : s.mmio.status &&& DRIVER_OK = 0 ∨ (offset = 0x44 ∧ value = 0))
    (idle : q.ready = false ∨ (offset = 0x44 ∧ value = 0)) :
    Configured env offset value s ((writeRing env offset value index q).run s) := by
  by_cases size : offset = 0x38
  · exact writeSize_cases s found lawful (early.resolve_right (by omega)) (idle.resolve_right (by omega)) size
  by_cases ready : offset = 0x44
  · exact writeReady_cases s found (early.imp id And.right) (idle.imp id And.right) ready
  have free := early.resolve_right (fun disable => ready disable.1)
  have stopped := idle.resolve_right (fun disable => ready disable.1)
  rw [writeRing,if_neg size,if_neg ready]
  split_ifs with d d' a a' u u'
  · rw [lawful.descTable_set]
    exact .rewired index q _ found (.inl free) (.inl stopped) (.descTable _)
  · rw [lawful.descTable_set]
    exact .rewired index q _ found (.inl free) (.inl stopped) (.descTable _)
  · rw [lawful.availRing_set]
    exact .rewired index q _ found (.inl free) (.inl stopped) (.availRing _)
  · rw [lawful.availRing_set]
    exact .rewired index q _ found (.inl free) (.inl stopped) (.availRing _)
  · rw [lawful.usedRing_set]
    exact .rewired index q _ found (.inl free) (.inl stopped) (.usedRing _)
  · rw [lawful.usedRing_set]
    exact .rewired index q _ found (.inl free) (.inl stopped) (.usedRing _)
  · simp only [queueRegister,List.contains_eq_mem,List.mem_cons,List.not_mem_nil,or_false,
      decide_eq_true_iff] at known
    omega

end Rings

theorem configureQueue_cases (lawful : env.vq.Lawful) (offset : Nat) (value : BitVec 32) (s : Slot D)
    (known : queueRegister offset = true) :
    Configured env offset value s ((configureQueue env offset value).run s) := by
  simp only [configureQueue,Prog.run_bind,Prog.run_get]
  cases found : s.mmio.queues.rings[s.mmio.queueSel.toNat]? with
  | none => exact .ignored
  | some q =>
    dsimp only
    rw [Prog.run_guard]
    split
    · rename_i early
      rw [Prog.run_guard]
      split
      · rename_i idle
        refine writeRing_cases s found lawful known ?_ ?_
        · by_cases disable : offset = 0x44 ∧ value = 0
          · exact .inr disable
          · exact .inl (by_contra (fun set => early ⟨set,disable⟩))
        · by_cases disable : offset = 0x44 ∧ value = 0
          · exact .inr disable
          · exact .inl (Bool.eq_false_iff.mpr (fun ready => idle ⟨ready,disable⟩))
      · exact .refused _ rfl
    · exact .refused _ rfl

theorem configure_cases (lawful : env.vq.Lawful) (offset : Nat) (value : BitVec 32) (s : Slot D) :
    Configured env offset value s ((configure env offset value).run s) := by
  simp only [configure,Prog.run_bind,Prog.run_get]
  split_ifs with feature driver queue negotiate status zero acknowledge known
  · exact .selected value _ _
  · exact .selected _ value _
  · exact .selected _ _ value
  · exact .negotiated _ negotiate.2.1
  · rw [status,zero]
    exact reset_cases s
  · rw [status]
    exact writeStatus_cases s value
  · exact .acknowledged (~~~value)
  · exact configureQueue_cases lawful offset value s known
  · exact .ignored

/-- A register write other than a notification is `configure`, with guest errors
ignored in lenient mode. -/
theorem write_run {offset : Nat} (register : offset ≠ 0x50) (value : BitVec 32) (s : Slot D) :
    (write env offset value).run s = match (configure env offset value).run s with
      | (.ok (),u) => (.ok (),u)
      | (.error (.panic p),u) => (.error (.panic p),u)
      | (.error (.error e),u) =>
        if !s.mmio.strict && e.isGuest then (.ok (),counted u) else (.error (.error e),u) := by
  rw [write,if_neg register,Prog.run_bind,Prog.run_get]
  dsimp only
  rw [Prog.run_bind,Prog.run_capture]
  rcases (configure env offset value).run s with ⟨(e | p) | ok,u⟩
  · dsimp only
    split <;> rfl
  · rfl
  · rfl

/-- A reset starts over. -/
theorem reset_run (s : Slot D) {c : Cell D} (ran : VirtioDevice.reset.run s.cell = (.ok (),c)) :
    (write env 0x70 0).run s = (.ok (),(s.putCell c).withMmio ((s.putCell c).mmio.cleared env)) := by
  have ends : (reset env).run s =
      (.ok (),(s.putCell c).withMmio ((s.putCell c).mmio.cleared env)) := by
    simp only [reset,Prog.run_bind,Slot.onCell,Prog.run_zoom,ran]
    rfl
  rw [write_run (by decide)]
  have same : (configure env 0x70 0).run s = (reset env).run s := rfl
  rw [same,ends]

theorem poll_run (s : Slot D) :
    (poll env).run s = if s.mmio.active then ran s (VirtioDevice.poll env) else (.ok (),s) := by
  rw [poll,Prog.run_bind,Prog.run_get]
  dsimp only
  split
  · exact ran_eq _ s
  · rfl

theorem notify_run (queue : Nat) (s : Slot D) :
    (notify env queue).run s =
      if s.mmio.listens queue then ran s (VirtioDevice.notify env queue) else (.ok (),s) := by
  rw [notify,Prog.run_bind,Prog.run_get]
  change (if s.mmio.listens queue then _ else _ : Prog (Slot D) (Failure DeviceError) Unit).run s = _
  cases s.mmio.listens queue with
  | true => exact ran_eq _ s
  | false => rfl

end Mmio
end WVmm.Devices
