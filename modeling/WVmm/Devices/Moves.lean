import WVmm.Devices.Mmio

/-! What a device program may do to the cell it runs in, whatever it returns. The
view, the shape of the queues and the negotiated features stay; interrupts are
raised, not cleared; the trace grows; and a host byte that the guest leaves alone
changes only in the used ring of a ready queue or in a device-writable descriptor
of a chain that was popped. Failures are guest errors unless a backend may fail,
and never panics. -/
namespace WVmm
open Lib.Effect

def Env.Leaves (env : Env) (p : Nat) : Prop := ∀ n host, env.guest n host p = host p

namespace World

/-- A step of the world that keeps view and allocations and writes only where it
is allowed to. -/
structure Moves (env : Env) (allowed : Nat → Prop) (w w' : World) : Prop where
  view : w'.view = w.view
  allocations : w'.allocations = w.allocations
  paused : w'.paused = w.paused
  control : ∃ targets : List Nat, w'.control = targets.foldl MemoryStatus.afterRequest w.control
  host : ∀ p, (w.paused = true ∨ env.Leaves p) → ¬allowed p → w'.host p = w.host p

namespace Moves

variable {env : Env} {allowed : Nat → Prop} {w w' w'' : World}

theorem refl (w : World) : Moves env allowed w w := ⟨rfl,rfl,rfl,⟨[],rfl⟩,fun _ _ _ => rfl⟩

theorem trans (first : Moves env allowed w w') (second : Moves env allowed w' w'') :
    Moves env allowed w w'' := by
  obtain ⟨targets,control⟩ := first.control
  obtain ⟨targets',control'⟩ := second.control
  refine ⟨second.view.trans first.view,second.allocations.trans first.allocations,
    second.paused.trans first.paused,⟨targets ++ targets',?_⟩,?_⟩
  · rw [control',control,List.foldl_append]
  · intro p quiet outside
    rw [second.host p (first.paused ▸ quiet) outside,first.host p quiet outside]

theorem widen {allowed' : Nat → Prop} (moves : Moves env allowed w w')
    (wider : ∀ p, allowed p → allowed' p) : Moves env allowed' w w' :=
  ⟨moves.view,moves.allocations,moves.paused,moves.control,
    fun p quiet outside => moves.host p quiet (fun inside => outside (wider p inside))⟩

end Moves

variable {env : Env}

theorem tick_moves (w : World) : Moves env (fun _ => False) w (w.tick env) := by
  refine ⟨rfl,rfl,rfl,?_,?_⟩
  · cases asked : env.target w.ticks with
    | none => exact ⟨[],by simp [tick,asked]⟩
    | some requested => exact ⟨[requested],by simp [tick,asked]⟩
  · intro p quiet _
    simp only [tick]
    split
    · rfl
    · rename_i running
      exact (quiet.resolve_left running) _ _

theorem writeSlice_moves (lawful : env.vm.Lawful) (addr : Nat) (raw : List UInt8) (w : World) :
    Moves env (fun p => ∃ i < raw.length, w.view.Backs (addr + i) p) w
      ((writeSlice env addr raw).run w).2 := by
  refine ⟨rfl,rfl,rfl,⟨[],rfl⟩,?_⟩
  intro p _ outside
  by_contra changed
  exact outside (lawful.write _ _ _ _ _ changed)

end World

namespace Devices

def SameRing (q q' : Queue) : Prop := q' = {q with nextAvail := q'.nextAvail, nextUsed := q'.nextUsed}

theorem SameRing.refl (q : Queue) : SameRing q q := rfl

theorem SameRing.trans {q q' q'' : Queue} (first : SameRing q q') (second : SameRing q' q'') :
    SameRing q q'' := by
  unfold SameRing at *
  rw [second,first]

section Lists
variable {α : Type} {rel : α → α → Prop} {items items' : List α}

theorem forall₂_get (related : List.Forall₂ rel items items') {index : Nat} {a : α}
    (found : items[index]? = some a) : ∃ b, items'[index]? = some b ∧ rel a b := by
  induction related generalizing index with
  | nil => cases found
  | cons head _ ih =>
    cases index with
    | zero =>
      cases found
      exact ⟨_,rfl,head⟩
    | succ index => exact ih found

theorem forall₂_set (reflexive : ∀ a, rel a a) {index : Nat} {a b : α} (found : items[index]? = some a)
    (related : rel a b) : List.Forall₂ rel items (items.set index b) := by
  induction items generalizing index with
  | nil => cases found
  | cons first rest ih =>
    cases index with
    | zero =>
      cases found
      exact .cons related (List.forall₂_same.mpr (fun a _ => reflexive a))
    | succ index => exact .cons (reflexive first) (ih found)

end Lists

def SameRings (rings rings' : List Queue) : Prop := List.Forall₂ SameRing rings rings'

namespace SameRings

variable {rings rings' rings'' : List Queue}

theorem refl (rings : List Queue) : SameRings rings rings := List.forall₂_same.mpr (fun q _ => .refl q)

theorem trans (first : SameRings rings rings') (second : SameRings rings' rings'') :
    SameRings rings rings'' := by
  induction first generalizing rings'' with
  | nil => exact second
  | cons head _ ih =>
    cases second with
    | cons head' tail' => exact .cons (head.trans head') (ih tail')

theorem length (same : SameRings rings rings') : rings'.length = rings.length :=
  (List.Forall₂.length_eq same).symm

theorem get (same : SameRings rings rings') {index : Nat} {q : Queue} (found : rings[index]? = some q) :
    ∃ q', rings'[index]? = some q' ∧ SameRing q q' := forall₂_get same found

theorem set {index : Nat} {q q' : Queue} (found : rings[index]? = some q) (same : SameRing q q') :
    SameRings rings (rings.set index q') := forall₂_set SameRing.refl found same

theorem mem (same : SameRings rings rings') {q' : Queue} (member : q' ∈ rings') :
    ∃ q ∈ rings, SameRing q q' := by
  induction same with
  | nil => cases member
  | cons head _ ih =>
    rcases List.mem_cons.mp member with rfl | later
    · exact ⟨_,List.mem_cons_self,head⟩
    · obtain ⟨q,inside,ring⟩ := ih later
      exact ⟨q,List.mem_cons_of_mem _ inside,ring⟩

end SameRings

def InUsedRing (view : GuestMemoryMmap) (rings : List Queue) (p : Nat) : Prop :=
  ∃ q ∈ rings, q.ready = true ∧ ∃ i < 6 + 8 * q.size, view.Backs (q.usedRing + i) p

def InWritable (view : GuestMemoryMmap) (trace : List Action) (p : Nat) : Prop :=
  ∃ queue chain, .popped queue chain ∈ trace ∧
    ∃ d ∈ chain.descriptors, d.isWriteOnly = true ∧ ∃ i < d.len, view.Backs (d.addr + i) p

/-- What is left open about backends: whether their calls may fail or break
their contract, and whether they may write outside the slices they are given. -/
structure Trust where
  faults : Prop
  wild : Prop

namespace Cell

variable {D : Type}

def Writable (c : Cell D) (trace : List Action) (p : Nat) : Prop :=
  InUsedRing c.world.view c.queues.rings p ∨ InWritable c.world.view trace p

/-- What a device program may do, counting chains popped after the first `k`
actions of the trace. The device itself moves by `keeps`. -/
structure Moves (env : Env) (trust : Trust) (keeps : D → D → Prop) (k : Nat) (c c' : Cell D) : Prop where
  grown : c.trace <+: c'.trace
  world : World.Moves env (fun p => trust.wild ∨ c.Writable (c'.trace.drop k) p) c.world c'.world
  rings : SameRings c.queues.rings c'.queues.rings
  negotiated : c'.queues.negotiated = c.queues.negotiated
  interrupt : c'.queues.interrupt = c.queues.interrupt ∨ c'.queues.interrupt = c.queues.interrupt ||| 1
  device : keeps c.device c'.device

theorem Writable.mono {c c' : Cell D} (view : c'.world.view = c.world.view)
    (rings : SameRings c.queues.rings c'.queues.rings) {trace trace' : List Action}
    (grown : ∀ a ∈ trace, a ∈ trace') {p : Nat} (inside : c'.Writable trace p) : c.Writable trace' p := by
  unfold Writable at *
  rw [view] at inside
  refine inside.imp ?_ ?_
  · rintro ⟨q',member,ready,i,bound,backs⟩
    obtain ⟨q,inside,same⟩ := rings.mem member
    rw [same] at ready bound backs
    exact ⟨q,inside,ready,i,bound,backs⟩
  · rintro ⟨queue,chain,popped,rest⟩
    exact ⟨queue,chain,grown _ popped,rest⟩

namespace Moves

variable {env : Env} {trust : Trust} {keeps : D → D → Prop} {k : Nat} {c c' c'' : Cell D}

theorem refl (reflexive : ∀ d, keeps d d) (c : Cell D) : Moves env trust keeps k c c :=
  ⟨List.prefix_refl _,.refl _,.refl _,rfl,.inl rfl,reflexive _⟩

theorem trans (transitive : ∀ a b d, keeps a b → keeps b d → keeps a d)
    (first : Moves env trust keeps k c c') (second : Moves env trust keeps k c' c'') : Moves env trust keeps k c c'' := by
  have later : ∀ a ∈ c'.trace.drop k, a ∈ c''.trace.drop k := by
    intro a member
    obtain ⟨rest,grown⟩ := second.grown
    rw [← grown,List.drop_append]
    exact List.mem_append_left _ member
  refine ⟨first.grown.trans second.grown,?_,first.rings.trans second.rings,
    second.negotiated.trans first.negotiated,?_,transitive _ _ _ first.device second.device⟩
  · have widened : World.Moves env (fun p => trust.wild ∨ c.Writable (c''.trace.drop k) p) c.world c'.world :=
      first.world.widen (fun p inside => inside.imp id (.mono rfl (.refl _) later))
    refine widened.trans (second.world.widen ?_)
    intro p inside
    exact inside.imp id (.mono first.world.view first.rings (fun _ member => member))
  · rcases first.interrupt with same | raised <;> rcases second.interrupt with same' | raised'
    · exact .inl (same'.trans same)
    · exact .inr (by rw [raised',same])
    · exact .inr (by rw [same',raised])
    · refine .inr ?_
      rw [raised',raised,BitVec.or_assoc,BitVec.or_self]

theorem ofWorld (reflexive : ∀ d, keeps d d) {w : World}
    (moves : World.Moves env (fun p => trust.wild ∨ c.Writable (c.trace.drop k) p) c.world w) :
    Moves env trust keeps k c {c with world := w} :=
  ⟨List.prefix_refl _,moves,.refl _,rfl,.inl rfl,reflexive _⟩

/-- Recording an action that pops nothing. -/
theorem recorded (reflexive : ∀ d, keeps d d) (action : Action) :
    Moves env trust keeps k c {c with trace := c.trace ++ [action]} :=
  ⟨List.prefix_append _ _,.refl _,.refl _,rfl,.inl rfl,reflexive _⟩

theorem setDevice {d : D} (kept : keeps c.device d) : Moves env trust keeps k c {c with device := d} :=
  ⟨List.prefix_refl _,.refl _,.refl _,rfl,.inl rfl,kept⟩

theorem setRing (reflexive : ∀ d, keeps d d) {index : Nat} {q q' : Queue}
    (found : c.queues.rings[index]? = some q) (same : SameRing q q') :
    Moves env trust keeps k c (c.setRing index q') :=
  ⟨List.prefix_refl _,.refl _,.set found same,rfl,.inl rfl,reflexive _⟩

end Moves
end Cell
end Devices
end WVmm
