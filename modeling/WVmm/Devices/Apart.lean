import WVmm.Devices.TransmitPass
import WVmm.Devices.NetSpec

/-! The two queues of a net device are apart: a pass over one of them leaves the
other one, and what the device keeps for it, as they were. -/
namespace WVmm.Devices
open Lib.Effect

namespace Net

variable {N β : Type} {env : Env}

def onRx : Action → Bool
  | .popped queue _ => queue == 0
  | .completed queue _ _ => queue == 0
  | .recv _ _ => true
  | _ => false

def rxActions (history : List Action) : List Action := history.filter onRx

/-- What is left alone: actions of a kind, a ring, and the device as far as a
relation tells. -/
structure Aside (kind : Action → Bool) (index : Nat) (keeps : Net N → Net N → Prop) (c c' : Cell (Net N)) : Prop where
  trace : ∃ more, c'.trace = c.trace ++ more ∧ more.filter kind = []
  ring : c'.queues.rings[index]? = c.queues.rings[index]?
  count : c'.queues.rings.length = c.queues.rings.length
  ages : World.Ages c.world c'.world
  device : keeps c.device c'.device

variable {kind : Action → Bool} {index : Nat} {keeps : Net N → Net N → Prop}

theorem Aside.silent {f : Cell (Net N) → Cell (Net N)} (frame : ∀ c, f c = {c with device := (f c).device})
    (same : ∀ c, keeps c.device (f c).device) :
    Always (Aside kind index keeps) (Prog.modify f : Prog _ (Failure DeviceError) Unit) := by
  refine .modify (fun c => ⟨⟨[],?_,rfl⟩,?_,?_,?_,same c⟩)
  · rw [frame,List.append_nil]
  · rw [frame]
  · rw [frame]
  · rw [frame]
    exact refl_of World.Ages c.world

variable [IsPreorder (Net N) keeps]

instance : IsPreorder (Cell (Net N)) (Aside kind index keeps) where
  refl c := ⟨⟨[],(List.append_nil _).symm,rfl⟩,rfl,rfl,refl_of World.Ages _,refl_of keeps _⟩
  trans := by
    rintro c c' c'' ⟨⟨more,trace,none⟩,ring,count,ages,device⟩ ⟨⟨more',trace',none'⟩,ring',count',ages',device'⟩
    refine ⟨⟨more ++ more',?_,?_⟩,ring'.trans ring,count'.trans count,trans_of World.Ages ages ages',
      trans_of keeps device device'⟩
    · rw [trace',trace,List.append_assoc]
    · rw [List.filter_append,none,none',List.append_nil]

namespace Aside

theorem record {a : Action} (other : kind a = false) :
    Always (Aside kind index keeps) (Cell.record a : Prog _ (Failure DeviceError) Unit) :=
  .modify (fun c => ⟨⟨[a],rfl,List.filter_eq_nil_iff.mpr (by simp [other])⟩,rfl,rfl,refl_of World.Ages _,refl_of keeps _⟩)

theorem onWorld {p : Prog World (Failure DeviceError) β} (ages : Always World.Ages p) :
    Always (Aside kind index keeps) (Cell.onWorld p : Prog (Cell (Net N)) _ β) :=
  fun c => ⟨⟨[],(List.append_nil _).symm,rfl⟩,rfl,rfl,ages c.world,refl_of keeps _⟩

theorem glance {p : Prog World (Failure DeviceError) β} (later : Always (World.Later env) p) :
    Always (Aside kind index keeps) (Cell.onWorld p : Prog (Cell (Net N)) _ β) :=
  onWorld (fun w => (later w).ages)

theorem look (i : Nat) : Always (Aside kind index keeps) (Cell.ring i : Prog (Cell (Net N)) (Failure DeviceError) Queue) := by
  refine .bind .get (fun c => ?_)
  split
  · exact .pure _
  · exact .fail _

theorem setRing {i : Nat} (other : i ≠ index) (q : Queue) :
    Always (Aside kind index keeps) (Prog.modify (Cell.setRing i q) : Prog _ (Failure DeviceError) Unit) :=
  .modify (fun c => ⟨⟨[],(List.append_nil _).symm,rfl⟩,List.getElem?_set_ne other,List.length_set,
    refl_of World.Ages c.world,refl_of keeps _⟩)

theorem pop {i : Nat} (other : i ≠ index) (quiet : ∀ chain, kind (.popped i chain) = false) :
    Always (Aside kind index keeps) (Queues.pop env i : Prog (Cell (Net N)) _ _) := by
  refine .bind ?_ (fun count => ?_)
  · refine .bind (look i) (fun q => ?_)
    split
    · exact .pure 0
    · exact .bind .get (fun c => .bind (.require _ _) (fun _ => .bind (glance (Queues.availIdx_later q)) (fun _ =>
        .bind (.require _ _) (fun _ => .pure _))))
  split
  · exact .pure none
  refine .bind ?_ (fun head => ?_)
  · refine .bind (look i) (fun q => .bind (glance World.observe_later) (fun _ => .bind .get (fun c => ?_)))
    refine .bind (setRing other _) (fun _ => ?_)
    split
    · exact .fail _
    · exact .fail _
    · exact .pure _
  · exact .bind (look i) (fun q => .bind (glance (Queues.popChain_later q _ _)) (fun descriptors =>
      .bind (record (quiet _)) (fun _ => .pure _)))

theorem complete {i : Nat} (other : i ≠ index) (quiet : ∀ head len, kind (.completed i head len) = false)
    (head len : Nat) : Always (Aside kind index keeps) (Queues.complete env i head len : Prog (Cell (Net N)) _ _) := by
  refine .bind (look i) (fun q => .bind .get (fun c => ?_))
  refine .bind (.modify (fun c => ⟨⟨[],(List.append_nil _).symm,rfl⟩,List.getElem?_set_ne other,List.length_set,
    refl_of World.Ages c.world,refl_of keeps _⟩)) (fun _ => ?_)
  split
  · exact .fail _
  · refine .bind (.modify (fun c => ?_)) (fun _ => record (quiet head len))
    exact ⟨⟨[],(List.append_nil _).symm,rfl⟩,rfl,rfl,refl_of World.Ages c.world,refl_of keeps _⟩

end Aside

variable [NetDevice N]

abbrev Calls : N → N → Prop := Relation.ReflTransGen NetDevice.Called

/-- What receiving leaves of the device: the deferred frame, and the room for the
next one. -/
structure SameTx (d d' : Net N) : Prop where
  pending : d'.pendingTx = d.pendingTx
  frame : d'.tx = d.tx
  room : HEADER ≤ d.rx.length → d'.rx.length = d.rx.length
  backend : Calls d.backend d'.backend

instance : IsPreorder (Net N) SameTx where
  refl d := ⟨rfl,rfl,fun _ => rfl,.refl⟩
  trans := by
    rintro d d' d'' ⟨pending,frame,room,calls⟩ ⟨pending',frame',room',calls'⟩
    refine ⟨pending'.trans pending,frame'.trans frame,fun header => ?_,calls.trans calls'⟩
    rw [room' (by rw [room header]; exact header),room header]

structure SameRx (d d' : Net N) : Prop where
  room : d'.rx.length = d.rx.length
  backend : Calls d.backend d'.backend

instance : IsPreorder (Net N) SameRx where
  refl _ := ⟨rfl,.refl⟩
  trans _ _ _ first second := ⟨second.room.trans first.room,first.backend.trans second.backend⟩

theorem backendRecv_aside (direct : Bool) (payload : List VolatileSlice) :
    Always (Aside onTx 1 SameTx) (backendRecv (N := N) direct payload) := by
  intro c
  cases direct with
  | true =>
    have called : NetDevice.Called c.device.backend _ := .recv payload c.world.host
    exact ⟨⟨[.recv payload _],rfl,rfl⟩,rfl,rfl,refl_of World.Ages c.world,rfl,rfl,fun _ => rfl,.single called⟩
  | false =>
    have called : NetDevice.Called c.device.backend _ :=
      .recv [⟨HEADER,c.device.rx.length - HEADER⟩] (bufferHost c.device.rx)
    refine ⟨⟨[.recv [⟨HEADER,c.device.rx.length - HEADER⟩] _],rfl,rfl⟩,rfl,rfl,refl_of World.Ages c.world,rfl,rfl,
      fun _ => ?_,.single called⟩
    exact (List.length_map _).trans List.length_range

theorem recvChain_aside (chain : Chain) : Always (Aside onTx 1 SameTx) (recvChain (N := N) env chain) := by
  refine .bind (.require _ _) (fun _ => ?_)
  split
  · exact .fail _
  refine .bind .get (fun c => .bind (.ofExcept _) (fun slices => ?_))
  refine .bind (.ofExcept _) (fun payload => .bind (backendRecv_aside _ _) (fun received => ?_))
  split
  · exact .bind (Aside.look 0) (fun q => .bind (Aside.setRing (by decide) _) (fun _ => .pure _))
  refine .bind .get (fun c => .bind (.require _ _) (fun _ => ?_))
  dsimp only
  split
  · exact .bind (Aside.complete (by decide) (fun _ _ => rfl) _ _) (fun _ => .pure _)
  · refine .bind ?_ (fun _ => .bind (Aside.complete (by decide) (fun _ _ => rfl) _ _) (fun _ => .pure _))
    unfold deliver
    split
    · exact Aside.onWorld (Buffers.copyFrom_ages _ _)
    · refine .bind (Aside.silent (fun _ => rfl) (fun c => ⟨rfl,rfl,fun header => ?_,.refl⟩)) (fun _ =>
        .bind .get (fun c => Aside.onWorld (Buffers.copyFrom_ages _ _)))
      have length : (rxHeader ++ c.device.rx.drop HEADER).length = HEADER + (c.device.rx.length - HEADER) := by
        rw [List.length_append,List.length_drop]
        rfl
      exact length.trans (Nat.add_sub_cancel' header)

/-- Receiving leaves the transmit queue alone. -/
theorem receive_aside : Always (Aside onTx 1 SameTx) (receive (N := N) env) := by
  have loop : ∀ budget, Always (Aside onTx 1 SameTx) (receiveLoop (N := N) env budget) := by
    intro budget
    induction budget with
    | zero => exact .pure ()
    | succ budget ih =>
      refine .bind (Aside.pop (by decide) (fun _ => rfl)) (fun popped => ?_)
      split
      · exact .pure ()
      · refine .bind (recvChain_aside _) (fun more => ?_)
        split
        · exact ih
        · exact .pure ()
  exact loop BUDGET

theorem backendSend_aside (frame : List VolatileSlice) (host : Host) :
    Always (Aside onRx 0 SameRx) (backendSend (N := N) frame host) := by
  intro c
  have called : NetDevice.Called c.device.backend _ := .send frame host
  exact ⟨⟨[.send (World.bytesAt host frame) _],rfl,rfl⟩,rfl,rfl,refl_of World.Ages c.world,rfl,.single called⟩

theorem retry_aside (head : Nat) : Always (Aside onRx 0 SameRx) (retry (N := N) env head) := by
  refine .bind .get (fun c => .bind (backendSend_aside _ _) (fun sent => ?_))
  split
  · exact .bind (Aside.silent (fun _ => rfl) (fun _ => ⟨rfl,.refl⟩)) (fun _ =>
      .bind (Aside.complete (by decide) (fun _ _ => rfl) _ _) (fun _ => .pure _))
  · exact .pure _

def offerFrame (env : Env) (chain : Chain) (total : Nat) (slices : List VolatileSlice) (header : List UInt8) :
    Prog (Cell (Net N)) (Failure DeviceError) Bool := do
  Prog.require (¬(header.getD 0 0 ≠ 0 ∨ header.getD 1 0 ≠ 0))
    (.error .unnegotiatedTxChecksumGsoOffload)
  let payload ← Prog.ofExcept ((Buffers.range slices HEADER (total - HEADER)).mapError .panic)
  Cell.onWorld (World.observe env)
  let c ← Prog.get
  let sent ← backendSend payload c.world.host
  if sent then
    Queues.complete env 1 chain.head 0
    return true
  else
    let tx ← Cell.onWorld (Buffers.copyTo env payload (total - HEADER))
    Prog.modify (fun c => {c with device := {c.device with tx := tx, pendingTx := some chain.head}})
    return false

theorem offerFrame_aside (chain : Chain) (total : Nat) (slices : List VolatileSlice) (header : List UInt8) :
    Always (Aside onRx 0 SameRx) (offerFrame (N := N) env chain total slices header) := by
  refine .bind (.require _ _) (fun _ => .bind (.ofExcept _) (fun payload => ?_))
  refine .bind (Aside.glance World.observe_later) (fun _ => .bind .get (fun c => .bind (backendSend_aside _ _) (fun sent => ?_)))
  split
  · exact .bind (Aside.complete (by decide) (fun _ _ => rfl) _ _) (fun _ => .pure _)
  · exact .bind (Aside.glance (Buffers.copyTo_later _ _)) (fun tx =>
      .bind (Aside.silent (fun _ => rfl) (fun _ => ⟨rfl,.refl⟩)) (fun _ => .pure _))

theorem sendChain_aside (chain : Chain) : Always (Aside onRx 0 SameRx) (sendChain (N := N) env chain) := by
  refine .bind (.require _ _) (fun _ => ?_)
  split
  · exact .fail _
  refine .bind .get (fun c => .bind (.require _ _) (fun _ => .bind (.ofExcept _) (fun slices => ?_)))
  exact .bind (Aside.glance (Buffers.copyTo_later _ _)) (fun header => offerFrame_aside chain _ slices header)

/-- Transmitting leaves the receive queue alone. -/
theorem transmit_aside : Always (Aside onRx 0 SameRx) (transmit (N := N) env) := by
  have loop : ∀ budget, Always (Aside onRx 0 SameRx) (transmitLoop (N := N) env budget) := by
    intro budget
    induction budget with
    | zero => exact .pure ()
    | succ budget ih =>
      refine .bind .get (fun c => ?_)
      split
      · refine .bind (retry_aside _) (fun sent => ?_)
        split
        · exact ih
        · exact .pure ()
      · refine .bind (Aside.pop (by decide) (fun _ => rfl)) (fun popped => ?_)
        split
        · exact .pure ()
        · refine .bind (sendChain_aside _) (fun sent => ?_)
          split
          · exact ih
          · exact .pure ()
  refine .bind (Aside.look 1) (fun q => ?_)
  split
  · exact loop BUDGET
  · exact .pure ()

end Net
end WVmm.Devices
