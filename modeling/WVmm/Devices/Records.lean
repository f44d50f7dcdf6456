import WVmm.Devices.Device
import WVmm.Devices.TransmitPass

/-! What the work of disks and network devices leaves of the memory shared with the
memory device: the view, and the sizes of its status except for the host's target. -/
namespace WVmm
open Lib.Effect

variable {env : Env}

namespace World

/-- View and sizes stay; a new target is an accepted one. -/
structure Steady (w w' : World) : Prop where
  view : w'.view = w.view
  plugged : w'.control.pluggedSizeMib = w.control.pluggedSizeMib
  block : w'.control.blockSizeMib = w.control.blockSizeMib
  region : w'.control.regionSizeMib = w.control.regionSizeMib
  target : w'.control.requestedSizeMib = w.control.requestedSizeMib ∨
    w'.control.blockSizeMib ∣ w'.control.requestedSizeMib ∧
      w'.control.requestedSizeMib ≤ w'.control.regionSizeMib

theorem Steady.ofControl {w w' : World} (view : w'.view = w.view) (control : w'.control = w.control) : Steady w w' := by
  refine ⟨view,?_,?_,?_,.inl ?_⟩ <;> rw [control]

def Kept {σ : Type} (world : σ → World) (s t : σ) : Prop := Steady (world s) (world t)

instance {σ : Type} (world : σ → World) : IsPreorder σ (Kept world) where
  refl _ := .ofControl rfl rfl
  trans s t u first second := by
    refine ⟨second.view.trans first.view,second.plugged.trans first.plugged,second.block.trans first.block,
      second.region.trans first.region,?_⟩
    rcases second.target with same | accepted
    · rcases first.target with same' | accepted
      · exact .inl (same.trans same')
      · refine .inr ?_
        rw [same,second.block,second.region]
        exact accepted
    · exact .inr accepted

theorem request_steady (w : World) (requested : Nat) :
    Steady w {w with control := w.control.afterRequest requested} := by
  rcases w.control.afterRequest_cases requested with same | ⟨changed,multiple,within,_⟩
  · exact .ofControl rfl same
  · refine ⟨rfl,?_,?_,?_,.inr ?_⟩ <;> simp only [changed]
    exact ⟨multiple,within⟩

theorem tick_steady (w : World) : Steady w (w.tick env) := by
  cases asked : env.target w.ticks with
  | none => exact .ofControl rfl (by simp [tick,asked])
  | some requested =>
    have control : (w.tick env).control = w.control.afterRequest requested := by simp [tick,asked]
    have same := request_steady w requested
    exact ⟨rfl,control ▸ same.plugged,control ▸ same.block,control ▸ same.region,control ▸ same.target⟩

theorem Later.steady {w w' : World} (later : Later env w w') : Steady w w' := by
  obtain ⟨n,rfl⟩ := later
  induction n with
  | zero => exact .ofControl rfl rfl
  | succ n ih =>
    rw [Function.iterate_succ_apply']
    exact trans_of (Kept id) ih (tick_steady _)

end World

abbrev Steadies {σ ε α : Type} (world : σ → World) (m : Prog σ ε α) : Prop := Always (World.Kept world) m

namespace Steadies

theorem beside {σ ε α : Type} {world : σ → World} {m : Prog σ ε α}
    (view : ∀ s, (world (m.run s).2).view = (world s).view)
    (control : ∀ s, (world (m.run s).2).control = (world s).control) : Steadies world m :=
  fun s => .ofControl (view s) (control s)

theorem ofLater {ε α : Type} {m : Prog World ε α} (later : Always (World.Later env) m) : Steadies id m :=
  fun w => (later w).steady

end Steadies

namespace Devices

theorem Buffers.copyFrom_steadies (slices : List VolatileSlice) (src : List UInt8) :
    Steadies id (copyFrom slices src) := by
  induction slices generalizing src with
  | nil =>
    unfold copyFrom
    split
    · exact .pure _
    · exact .fail _
  | cons s rest ih =>
    unfold copyFrom
    split
    · exact .pure _
    · exact .bind (Steadies.beside (fun _ => rfl) (fun _ => rfl)) (fun _ => ih _)

theorem writeSlice_steadies (addr : Nat) (raw : List UInt8) : Steadies id (World.writeSlice env addr raw) :=
  Steadies.beside (fun _ => rfl) (fun _ => rfl)

section Pins

theorem Queues.pinChain_later (q : Queue) (fuel index : Nat) : Always (World.Later env) (pinChain env q fuel index) := by
  induction fuel generalizing index with
  | zero => exact .fail _
  | succ fuel ih =>
    refine .bind (.require _ _) (fun _ => .bind (.bind (World.readSlice_later _ _) (fun _ => .pure _)) (fun d => ?_))
    refine .bind (.bind .get (fun _ => .pure _)) (fun inRange => .bind (.require _ _) (fun _ => ?_))
    dsimp only
    split
    · exact .pure _
    · exact .bind (ih _) (fun _ => .pure _)

theorem Queues.pinSlots_later (q : Queue) (count i : Nat) : Always (World.Later env) (pinSlots env q count i) := by
  induction count generalizing i with
  | zero => exact .pure _
  | succ count ih =>
    refine .bind (.require _ _) (fun _ => .bind (.bind (World.readSlice_later _ _) (fun _ => .pure _)) (fun head => ?_))
    exact .bind (pinChain_later q _ _) (fun _ => .bind (ih _) (fun _ => .pure _))

theorem Queues.pinned_later (queues : Queues) : Always (World.Later env) (pinned env queues) := by
  unfold pinned
  induction queues.rings.filter (·.ready) with
  | nil => exact .pure _
  | cons q rest ih =>
    have ring : Always (World.Later env) (pinRing env q) := by
      refine .bind .get (fun w => .bind (.require _ _) (fun _ => .bind (availIdx_later q) (fun idx => ?_)))
      exact .bind (.require _ _) (fun _ => .bind (pinSlots_later q _ _) (fun _ => .pure _))
    exact .bind ring (fun _ => .bind ih (fun _ => .pure _))

end Pins

section Cells
variable {D α : Type}

theorem Cell.onWorld_steadies {ε : Type} {p : Prog World ε α} (steadies : Steadies id p) :
    Steadies Cell.world (Cell.onWorld p : Prog (Cell D) ε α) := Always.zoom steadies (fun _ _ moved => moved)

theorem Cell.later_steadies {p : Prog World (Failure DeviceError) α} (later : Always (World.Later env) p) :
    Steadies Cell.world (Cell.onWorld p : Prog (Cell D) _ α) := onWorld_steadies (.ofLater later)

def Cell.Calm (c c' : Cell D) : Prop := World.Steady c.world c'.world ∧ c'.device = c.device

instance : IsPreorder (Cell D) Cell.Calm where
  refl c := ⟨refl_of (World.Kept id) c.world,rfl⟩
  trans _ _ _ first second := ⟨trans_of (World.Kept id) first.1 second.1,second.2.trans first.2⟩

namespace Queues

theorem ring_calm (index : Nat) : Always Cell.Calm (Cell.ring index : Prog (Cell D) (Failure DeviceError) Queue) := by
  refine .bind .get (fun c => ?_)
  split
  · exact .pure _
  · exact .fail _

theorem onWorld_calm {p : Prog World (Failure DeviceError) α} (later : Always (World.Later env) p) :
    Always Cell.Calm (Cell.onWorld p : Prog (Cell D) _ α) := fun c => ⟨(later c.world).steady,rfl⟩

theorem update_calm {ε : Type} {f : Cell D → Cell D} (view : ∀ c, (f c).world.view = c.world.view)
    (control : ∀ c, (f c).world.control = c.world.control) (device : ∀ c, (f c).device = c.device) :
    Always Cell.Calm (Prog.modify f : Prog (Cell D) ε Unit) :=
  fun c => ⟨.ofControl (view c) (control c),device c⟩

theorem available_calm (index : Nat) : Always Cell.Calm (available env index : Prog (Cell D) _ Nat) := by
  intro c
  have waits := @available_waits env D index c
  exact ⟨waits.1.steady,by rw [waits.2]⟩

theorem takeHead_calm (index : Nat) : Always Cell.Calm (takeHead env index : Prog (Cell D) _ Nat) := by
  refine .bind (ring_calm index) (fun q => .bind (onWorld_calm World.observe_later) (fun _ => .bind .get (fun c => ?_)))
  refine .bind (update_calm (fun _ => rfl) (fun _ => rfl) (fun _ => rfl)) (fun _ => ?_)
  split
  · exact .fail _
  · exact .fail _
  · exact .pure _

theorem pop_calm (index : Nat) : Always Cell.Calm (pop env index : Prog (Cell D) _ (Option Chain)) := by
  refine .bind (available_calm index) (fun count => ?_)
  split
  · exact .pure _
  · refine .bind (takeHead_calm index) (fun head => .bind (ring_calm index) (fun q => ?_))
    refine .bind (onWorld_calm (popChain_later q _ _)) (fun _ => ?_)
    exact .bind (update_calm (fun _ => rfl) (fun _ => rfl) (fun _ => rfl)) (fun _ => .pure _)

theorem complete_calm (index head len : Nat) : Always Cell.Calm (complete env index head len : Prog (Cell D) _ Unit) := by
  refine .bind (ring_calm index) (fun q => .bind .get (fun c => ?_))
  refine .bind (update_calm (fun _ => rfl) (fun _ => rfl) (fun _ => rfl)) (fun _ => ?_)
  split
  · exact .fail _
  · exact .bind (update_calm (fun _ => rfl) (fun _ => rfl) (fun _ => rfl))
      (fun _ => update_calm (fun _ => rfl) (fun _ => rfl) (fun _ => rfl))

end Queues

/-- What leaves the device alone keeps view and sizes. -/
theorem Cell.Calm.steadies {ε : Type} {m : Prog (Cell D) ε α} (calm : Always Cell.Calm m) : Steadies Cell.world m :=
  fun c => (calm c).1

end Cells

namespace Block

variable {B : Type} [BlockStorage B]

theorem diskRead_steadies (offset : Nat) (data : List VolatileSlice) :
    Steadies Cell.world (diskRead env offset data : Prog (Cell (Block B)) _ Unit) := by
  refine .bind (Cell.later_steadies World.observe_later) (fun _ => .bind .get (fun c => ?_))
  refine Steadies.beside (fun _ => rfl) (fun _ => rfl)

theorem diskWrite_steadies (offset : Nat) (data : List VolatileSlice) :
    Steadies Cell.world (diskWrite env offset data : Prog (Cell (Block B)) _ Unit) := by
  refine .bind (Cell.later_steadies World.observe_later) (fun _ => .bind .get (fun c => ?_))
  refine Steadies.beside (fun _ => rfl) (fun _ => rfl)

theorem diskFlush_steadies : Steadies Cell.world (diskFlush : Prog (Cell (Block B)) _ Unit) :=
  Steadies.beside (fun _ => rfl) (fun _ => rfl)

theorem transfer_steadies (read : Bool) (sector total : Nat) (data : List Descriptor)
    (buffers : List VolatileSlice) (negotiated : BitVec 64) :
    Steadies Cell.world (transfer env read sector total data buffers negotiated : Prog (Cell (Block B)) _ _) := by
  refine .bind (.require _ _) (fun _ => .bind (.require _ _) (fun _ => .bind .get (fun c => ?_)))
  refine .bind (.require _ _) (fun _ => .bind (.require _ _) (fun _ => ?_))
  split
  · exact .fail _
  · refine .bind (.ofExcept _) (fun _ => ?_)
    split
    · exact .bind (diskRead_steadies _ _) (fun _ => .pure _)
    · refine .bind (diskWrite_steadies _ _) (fun _ => .bind ?_ (fun _ => .pure _))
      unfold writeThrough
      split
      · exact diskFlush_steadies
      · exact .pure _

theorem execute_steadies (request : List Descriptor) (negotiated : BitVec 64) :
    Steadies Cell.world (execute env request negotiated : Prog (Cell (Block B)) _ _) := by
  refine .bind .get (fun c => .bind (.ofExcept _) (fun all => ?_))
  split
  · exact .fail _
  refine .bind (.require _ _) (fun _ => .bind (.ofExcept _) (fun data => ?_))
  refine .bind (Cell.later_steadies (Buffers.copyTo_later _ _)) (fun h => .bind (.ofExcept _) (fun buffers => ?_))
  split
  · exact transfer_steadies _ _ _ _ _ _
  split
  · exact .bind (.require _ _) (fun _ => .bind diskFlush_steadies (fun _ => .pure _))
  split
  · refine .bind (.require _ _) (fun _ => .bind .get (fun c => ?_))
    exact .bind (Cell.onWorld_steadies (Buffers.copyFrom_steadies _ _)) (fun _ => .pure _)
  · exact .pure _

theorem request_steadies (descriptors : List Descriptor) (negotiated : BitVec 64) :
    Steadies Cell.world (request env descriptors negotiated : Prog (Cell (Block B)) _ _) := by
  unfold request
  split
  · exact .fail _
  refine .bind (Steadies.beside (fun _ => rfl) (fun _ => rfl)) (fun trusted => .bind (.require _ _) (fun _ => ?_))
  refine .bind (Always.capture (execute_steadies _ _)) (fun outcome => ?_)
  split
  · exact .bind (Cell.onWorld_steadies (writeSlice_steadies _ _)) (fun _ => .pure _)
  · exact .bind (Cell.onWorld_steadies (writeSlice_steadies _ _)) (fun _ => .pure _)
  · exact .fail _

theorem notify_steadies (queue : Nat) : Steadies Cell.world (notify env queue : Prog (Cell (Block B)) _ Unit) := by
  refine .bind (Cell.Calm.steadies (Queues.available_calm 0)) (fun count => ?_)
  induction count with
  | zero => exact .pure _
  | succ count ih =>
    refine .bind (Cell.Calm.steadies (Queues.pop_calm 0)) (fun taken => ?_)
    split
    · exact .fail _
    · refine .bind .get (fun c => .bind (request_steadies _ _) (fun used => ?_))
      exact .bind (Cell.Calm.steadies (Queues.complete_calm _ _ _)) (fun _ => ih)

end Block

namespace Net

variable {N : Type}

theorem deliver_steadies (direct : Bool) (slices : List VolatileSlice) (total : Nat) :
    Steadies Cell.world (deliver direct slices total : Prog (Cell (Net N)) _ Unit) := by
  unfold deliver
  split
  · exact Cell.onWorld_steadies (Buffers.copyFrom_steadies _ _)
  · refine .bind (Steadies.beside (fun _ => rfl) (fun _ => rfl)) (fun _ => .bind .get (fun c => ?_))
    exact Cell.onWorld_steadies (Buffers.copyFrom_steadies _ _)

variable [NetDevice N]

theorem backendSend_steadies (frame : List VolatileSlice) (host : Host) :
    Steadies Cell.world (backendSend frame host : Prog (Cell (Net N)) _ Bool) :=
  Steadies.beside (fun _ => rfl) (fun _ => rfl)

theorem retry_steadies (head : Nat) : Steadies Cell.world (retry env head : Prog (Cell (Net N)) _ Bool) := by
  refine .bind .get (fun c => .bind (backendSend_steadies _ _) (fun sent => ?_))
  split
  · refine .bind (Steadies.beside (fun _ => rfl) (fun _ => rfl)) (fun _ => ?_)
    exact .bind (Cell.Calm.steadies (Queues.complete_calm _ _ _)) (fun _ => .pure _)
  · exact .pure _

theorem sendChain_steadies (chain : Chain) :
    Steadies Cell.world (sendChain env chain : Prog (Cell (Net N)) _ Bool) := by
  refine .bind (.require _ _) (fun _ => ?_)
  split
  · exact .fail _
  refine .bind .get (fun c => .bind (.require _ _) (fun _ => .bind (.ofExcept _) (fun slices => ?_)))
  refine .bind (Cell.later_steadies (Buffers.copyTo_later _ _)) (fun header => .bind (.require _ _) (fun _ => ?_))
  refine .bind (.ofExcept _) (fun payload => .bind (Cell.later_steadies World.observe_later) (fun _ => ?_))
  refine .bind .get (fun c => .bind (backendSend_steadies _ _) (fun sent => ?_))
  split
  · exact .bind (Cell.Calm.steadies (Queues.complete_calm _ _ _)) (fun _ => .pure _)
  · refine .bind (Cell.later_steadies (Buffers.copyTo_later _ _)) (fun tx => ?_)
    exact .bind (Steadies.beside (fun _ => rfl) (fun _ => rfl)) (fun _ => .pure _)

theorem transmit_steadies : Steadies Cell.world (transmit env : Prog (Cell (Net N)) _ Unit) := by
  refine .bind (Cell.Calm.steadies (Queues.ring_calm 1)) (fun q => ?_)
  split
  · induction BUDGET with
    | zero => exact .pure _
    | succ budget ih =>
      refine .bind .get (fun c => ?_)
      split
      · refine .bind (retry_steadies _) (fun sent => ?_)
        split
        · exact ih
        · exact .pure _
      · refine .bind (Cell.Calm.steadies (Queues.pop_calm 1)) (fun taken => ?_)
        split
        · exact .pure _
        · refine .bind (sendChain_steadies _) (fun sent => ?_)
          split
          · exact ih
          · exact .pure _
  · exact .pure _

theorem backendRecv_steadies (direct : Bool) (payload : List VolatileSlice) :
    Steadies Cell.world (backendRecv direct payload : Prog (Cell (Net N)) _ _) := by
  refine .bind .get (fun c => ?_)
  split <;> exact Steadies.beside (fun _ => rfl) (fun _ => rfl)

theorem recvChain_steadies (chain : Chain) :
    Steadies Cell.world (recvChain env chain : Prog (Cell (Net N)) _ Bool) := by
  refine .bind (.require _ _) (fun _ => ?_)
  split
  · exact .fail _
  refine .bind .get (fun c => .bind (.ofExcept _) (fun slices => .bind (.ofExcept _) (fun payload => ?_)))
  refine .bind (backendRecv_steadies _ _) (fun received => ?_)
  split
  · refine .bind (Cell.Calm.steadies (Queues.ring_calm 0)) (fun q => ?_)
    exact .bind (Steadies.beside (fun _ => rfl) (fun _ => rfl)) (fun _ => .pure _)
  · refine .bind .get (fun c => .bind (.require _ _) (fun _ => ?_))
    dsimp only
    split
    · exact .bind (Cell.Calm.steadies (Queues.complete_calm _ _ _)) (fun _ => .pure _)
    · exact .bind (deliver_steadies _ _ _) (fun _ => .bind (Cell.Calm.steadies (Queues.complete_calm _ _ _)) (fun _ => .pure _))

theorem receive_steadies : Steadies Cell.world (receive env : Prog (Cell (Net N)) _ Unit) := by
  unfold receive
  induction BUDGET with
  | zero => exact .pure _
  | succ budget ih =>
    refine .bind (Cell.Calm.steadies (Queues.pop_calm 0)) (fun taken => ?_)
    split
    · exact .pure _
    · refine .bind (recvChain_steadies _) (fun more => ?_)
      split
      · exact ih
      · exact .pure _

theorem notify_steadies (queue : Nat) : Steadies Cell.world (notify env queue : Prog (Cell (Net N)) _ Unit) := by
  unfold notify
  split
  · exact receive_steadies
  · exact transmit_steadies
  · exact .fail _

theorem poll_steadies : Steadies Cell.world (poll env : Prog (Cell (Net N)) _ Unit) :=
  .bind transmit_steadies (fun _ => receive_steadies)

end Net
end Devices
end WVmm
