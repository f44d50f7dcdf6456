import WVmm.Devices.MemoryLoop
import WVmm.Devices.MemorySpec
import WVmm.Devices.DeviceSpec

/-! What a device does to the bytes of the guest. A byte that stays in the view in
one allocation changes only under a device-writable descriptor that was popped or in
the used ring of a ready queue. -/
namespace WVmm
open Lib.Effect

def Region.byte (r : Region) (a : Nat) : Nat := r.ptr + (a - r.start)

def Region.Beside (r q : Region) : Prop := r.ptr + r.len ≤ q.ptr ∨ q.ptr + q.len ≤ r.ptr

def GuestMemoryMmap.Apart (view : GuestMemoryMmap) : Prop :=
  ∀ r ∈ view.regions, ∀ q ∈ view.regions, r ≠ q → r.Beside q

/-- Every region is host memory of its own, from one of the allocations so far. -/
structure GuestMemoryMmap.Unshared (view : GuestMemoryMmap) (allocations : Nat) : Prop where
  apart : view.Apart
  counted : ∀ r ∈ view.regions, r.alloc < allocations

/-- Different addresses are different bytes. -/
theorem GuestMemoryMmap.Unshared.injective {view : GuestMemoryMmap} {allocations : Nat}
    (unshared : view.Unshared allocations) {r : Region} (member : r ∈ view.regions) {a b : Nat} (holds : r.Holds a)
    (backs : view.Backs b (r.byte a)) : b = a := by
  obtain ⟨q,member',holds',same⟩ := backs
  obtain ⟨low,high⟩ := holds
  obtain ⟨low',high'⟩ := holds'
  unfold Region.byte at same
  by_cases other : r = q
  · subst other
    omega
  · have beside := unshared.apart r member q member' other
    unfold Region.Beside at beside
    omega

namespace Devices

/-- The address lies under a device-writable descriptor that was popped, or in the used
ring of a ready queue. -/
def Touches (trace : List Action) (rings : List Queue) (a : Nat) : Prop :=
  (∃ queue chain, .popped queue chain ∈ trace ∧
    ∃ d ∈ chain.descriptors, d.isWriteOnly = true ∧ d.addr ≤ a ∧ a < d.addr + d.len) ∨
  ∃ q ∈ rings, q.ready = true ∧ q.usedRing ≤ a ∧ a < q.usedRing + (6 + 8 * q.size)

theorem Touches.mono {trace trace' : List Action} {rings rings' : List Queue} {a : Nat}
    (touches : Touches trace rings' a) (grown : trace <+: trace') (same : SameRings rings rings') :
    Touches trace' rings a := by
  refine touches.imp ?_ ?_
  · rintro ⟨queue,chain,popped,rest⟩
    exact ⟨queue,chain,grown.subset popped,rest⟩
  · rintro ⟨q',member,ready,inside⟩
    obtain ⟨q,old,kept⟩ := same.mem member
    rw [kept] at ready inside
    exact ⟨q,old,ready,inside⟩

namespace Cell

variable {D : Type}

/-- What a step may do to guest memory. Regions with numbers below `n` are the
allocations that were there when the step began. -/
structure Confined (env : Env) (n : Nat) (c c' : Cell D) : Prop where
  grown : c.trace <+: c'.trace
  rings : SameRings c.queues.rings c'.queues.rings
  paused : c'.world.paused = c.world.paused
  counted : c.world.allocations ≤ c'.world.allocations
  unshared : c.world.view.Unshared c.world.allocations → c'.world.view.Unshared c'.world.allocations
  older : ∀ r ∈ c'.world.view.regions, r.alloc < n → r ∈ c.world.view.regions
  bytes : c.world.view.Unshared c.world.allocations →
    ∀ r ∈ c.world.view.regions, r ∈ c'.world.view.regions → r.alloc < n → ∀ a, r.Holds a →
      (c.world.paused = true ∨ env.Leaves (r.byte a)) → c'.world.host (r.byte a) ≠ c.world.host (r.byte a) →
      Touches c'.trace c.queues.rings a

namespace Confined

variable {env : Env} {n : Nat} {c c' c'' : Cell D}

theorem refl (c : Cell D) : Confined env n c c :=
  ⟨List.prefix_refl _,.refl _,rfl,Nat.le_refl _,id,fun _ member _ => member,
    fun _ _ _ _ _ _ _ _ changed => absurd rfl changed⟩

theorem trans (first : Confined env n c c') (second : Confined env n c' c'') : Confined env n c c'' := by
  refine ⟨first.grown.trans second.grown,first.rings.trans second.rings,second.paused.trans first.paused,
    first.counted.trans second.counted,fun before => second.unshared (first.unshared before),
    fun r member old => first.older r (second.older r member old) old,?_⟩
  intro before r member later old a holds quiet changed
  have between := second.older r later old
  by_cases same : c'.world.host (r.byte a) = c.world.host (r.byte a)
  · rw [← same] at changed
    exact (second.bytes (first.unshared before) r between later old a holds (first.paused ▸ quiet) changed).mono
      (List.prefix_refl _) first.rings
  · exact (first.bytes before r member between old a holds quiet same).mono second.grown (.refl _)

theorem ofWorld (grown : c.trace <+: c'.trace) (rings : SameRings c.queues.rings c'.queues.rings)
    {allowed : Nat → Prop} (moves : World.Moves env allowed c.world c'.world)
    (touched : ∀ a p, c.world.view.Backs a p → allowed p →
      ∃ b, c.world.view.Backs b p ∧ Touches c'.trace c.queues.rings b) : Confined env n c c' := by
  refine ⟨grown,rings,moves.paused,Nat.le_of_eq moves.allocations.symm,?_,?_,?_⟩
  · rw [moves.view,moves.allocations]
    exact id
  · rw [moves.view]
    exact fun _ member _ => member
  · intro unshared r member _ _ a holds quiet changed
    have inside : allowed (r.byte a) := by
      by_contra outside
      exact changed (moves.host _ quiet outside)
    obtain ⟨b,backs,touches⟩ := touched a _ ⟨r,member,holds,rfl⟩ inside
    rwa [unshared.injective member holds backs] at touches

theorem ofMoves {faults : Prop} {keeps : D → D → Prop} (moves : Cell.Moves env ⟨faults,False⟩ keeps 0 c c') :
    Confined env n c c' := by
  refine .ofWorld moves.grown moves.rings moves.world ?_
  rintro _ p _ (⟨⟨⟩⟩ | ⟨q,member,ready,i,bound,backs⟩ | ⟨queue,chain,popped,d,listed,write,i,bound,backs⟩)
  · exact ⟨_,backs,.inr ⟨q,member,ready,Nat.le_add_right _ _,Nat.add_lt_add_left bound _⟩⟩
  · exact ⟨_,backs,.inl ⟨queue,chain,popped,d,listed,write,Nat.le_add_right _ _,Nat.add_lt_add_left bound _⟩⟩

end Confined
end Cell

theorem later_moves {env : Env} {w w' : World} (later : World.Later env w w') :
    World.Moves env (fun _ => False) w w' := by
  obtain ⟨ticks,rfl⟩ := later
  induction ticks with
  | zero => exact .refl w
  | succ ticks ih =>
    rw [Function.iterate_succ_apply']
    exact ih.trans (World.tick_moves _)

namespace VirtioMem

variable {M : Type} {env : Env}

/-- A response is written under the descriptors it is given. -/
theorem respond_moves (lawful : env.vm.Lawful) (response : List UInt8) (descriptors : List Descriptor) (w : World) :
    World.Moves env (fun p => ∃ d ∈ descriptors, ∃ i < d.len, w.view.Backs (d.addr + i) p) w
      ((respond env response descriptors).run w).2 := by
  induction descriptors generalizing response w with
  | nil => exact .refl w
  | cons d rest ih =>
    have wrote := World.writeSlice_moves lawful d.addr (response.take (min d.len response.length)) w
    have here : World.Moves env (fun p => ∃ d' ∈ d::rest, ∃ i < d'.len, w.view.Backs (d'.addr + i) p) w
        ((World.writeSlice env d.addr (response.take (min d.len response.length))).run w).2 := by
      refine wrote.widen ?_
      rintro p ⟨i,bound,backs⟩
      rw [List.length_take] at bound
      exact ⟨d,List.mem_cons_self,i,by omega,backs⟩
    rw [respond,Prog.run_bind]
    generalize (World.writeSlice env d.addr (response.take (min d.len response.length))).run w = written at here
    obtain ⟨r,w'⟩ := written
    cases r with
    | error f => exact here
    | ok _ =>
      dsimp only
      split
      · exact here
      · refine here.trans ((ih _ w').widen ?_)
        rintro p ⟨d',member,i,bound,backs⟩
        rw [show w'.view = w.view from here.view] at backs
        exact ⟨d',List.mem_cons_of_mem _ member,i,bound,backs⟩

/-- A part of a transaction that keeps the view and the bytes of its regions. -/
structure Spares (t u : Txn M) : Prop where
  grown : t.cell.trace <+: u.cell.trace
  queues : u.cell.queues = t.cell.queues
  view : u.cell.world.view = t.cell.world.view
  paused : u.cell.world.paused = t.cell.world.paused
  counted : t.cell.world.allocations ≤ u.cell.world.allocations
  bytes : ∀ r ∈ t.cell.world.view.regions, ∀ a, r.Holds a →
    u.cell.world.host (r.byte a) = t.cell.world.host (r.byte a)

instance : IsPreorder (Txn M) Spares where
  refl _ := ⟨List.prefix_refl _,rfl,rfl,rfl,Nat.le_refl _,fun _ _ _ _ => rfl⟩
  trans _ _ _ first second := by
    refine ⟨first.grown.trans second.grown,second.queues.trans first.queues,second.view.trans first.view,
      second.paused.trans first.paused,first.counted.trans second.counted,fun r member a holds => ?_⟩
    exact (second.bytes r (first.view ▸ member) a holds).trans (first.bytes r member a holds)

theorem Spares.confined {n : Nat} {t u : Txn M} (spares : Spares t u) : t.cell.Confined env n u.cell := by
  refine ⟨spares.grown,?_,spares.paused,spares.counted,?_,?_,?_⟩
  · rw [spares.queues]
    exact .refl _
  · rw [spares.view]
    exact fun unshared => ⟨unshared.apart,fun r member => Nat.lt_of_lt_of_le (unshared.counted r member) spares.counted⟩
  · rw [spares.view]
    exact fun _ member _ => member
  · exact fun _ r member _ _ a holds _ changed => absurd (spares.bytes r member a holds) changed

/-- A view that a change stages over the world it began in: its regions are the old ones
or new allocations, and a plug keeps the old ones. -/
structure Staged (plug : Bool) (w : World) (next : GuestMemoryMmap) (t : Txn M) : Prop where
  view : t.cell.world.view = w.view
  counted : w.allocations ≤ t.cell.world.allocations
  apart : w.view.Apart → next.Apart
  known : ∀ r ∈ next.regions, r ∈ w.view.regions ∨ (w.allocations ≤ r.alloc ∧ r.alloc < t.cell.world.allocations)
  kept : plug = true → ∀ r ∈ w.view.regions, r ∈ next.regions

structure Calls (t u : Txn M) : Prop where
  grown : t.cell.trace <+: u.cell.trace
  queues : u.cell.queues = t.cell.queues
  world : u.cell.world = t.cell.world

instance : IsPreorder (Txn M) Calls where
  refl _ := ⟨List.prefix_refl _,rfl,rfl⟩
  trans _ _ _ first second :=
    ⟨first.grown.trans second.grown,second.queues.trans first.queues,second.world.trans first.world⟩

/-- The region of one block. One to plug is host memory that no staged region uses. -/
theorem stageRegion_spares (fresh : env.FreshAllocations) (plug : Bool) (a : Nat) (w : World) (next : GuestMemoryMmap)
    (d : VirtioMem) :
    Triple (Staged plug w next) Spares (fun _ => True) (stageRegion env plug a next d : Prog (Txn M) _ Region)
      (fun r t => Staged plug w next t ∧ (plug = true →
        (w.allocations ≤ r.alloc ∧ r.alloc < t.cell.world.allocations) ∧ ∀ q ∈ next.regions, r.Beside q)) := by
  intro t staged
  cases plug with
  | false =>
    simp only [stageRegion,Bool.false_eq_true,if_false]
    cases d.blocks[a]? with
    | none => exact ⟨refl_of Spares t,fun _ returned => (by cases returned),fun _ _ => trivial⟩
    | some r => exact ⟨refl_of Spares t,fun _ _ => ⟨staged,False.elim⟩,fun _ _ => trivial⟩
  | true =>
    simp only [stageRegion,if_true,Txn.onWorld,Txn.onCell,Cell.onWorld,Prog.run_zoom,World.fromRange,Prog.run_mk]
    cases allocated : env.allocate t.cell.world.allocations next.regions a d.blockLen with
    | error e =>
      exact ⟨⟨List.prefix_refl _,rfl,rfl,rfl,Nat.le_succ _,fun _ _ _ _ => rfl⟩,fun _ returned => (by cases returned),
        fun _ _ => trivial⟩
    | ok ptr =>
      have apart := fresh _ _ _ _ _ allocated
      refine ⟨⟨List.prefix_refl _,rfl,rfl,rfl,Nat.le_succ _,fun r member b holds => if_neg ?_⟩,?_,fun _ _ => trivial⟩
      · have beside := apart r (staged.kept rfl r (staged.view ▸ member))
        obtain ⟨low,high⟩ := holds
        unfold Region.byte
        omega
      · intro r returned
        cases returned
        have known : ∀ r ∈ next.regions, r ∈ w.view.regions ∨
            (w.allocations ≤ r.alloc ∧ r.alloc < t.cell.world.allocations + 1) :=
          fun r member => (staged.known r member).imp id (fun new => ⟨new.1,Nat.lt_succ_of_lt new.2⟩)
        exact ⟨⟨staged.view,Nat.le_succ_of_le staged.counted,staged.apart,known,staged.kept⟩,
          fun _ => ⟨⟨staged.counted,Nat.lt_succ_self _⟩,apart⟩⟩

theorem Staged.insert {w : World} {next next' : GuestMemoryMmap} {t : Txn M} {r : Region}
    (staged : Staged true w next t) (regions : ∀ q, q ∈ next'.regions ↔ q = r ∨ q ∈ next.regions)
    (counted : w.allocations ≤ r.alloc ∧ r.alloc < t.cell.world.allocations) (apart : ∀ q ∈ next.regions, r.Beside q) :
    Staged true w next' t := by
  refine ⟨staged.view,staged.counted,?_,?_,fun _ q member => (regions q).mpr (.inr (staged.kept rfl q member))⟩
  · intro before p first q second other
    rcases (regions p).mp first with rfl | old <;> rcases (regions q).mp second with rfl | old'
    · exact absurd rfl other
    · exact apart q old'
    · exact (apart p old).symm
    · exact staged.apart before p old q old' other
  · intro q member
    rcases (regions q).mp member with rfl | old
    · exact .inr counted
    · exact staged.known q old

theorem Staged.remove {w : World} {next next' : GuestMemoryMmap} {t : Txn M} (staged : Staged false w next t)
    (old : ∀ q ∈ next'.regions, q ∈ next.regions) : Staged false w next' t :=
  ⟨staged.view,staged.counted,fun before p first q second => staged.apart before p (old p first) q (old q second),
    fun q member => staged.known q (old q member),fun plugs => by cases plugs⟩

theorem stage_spares (lawful : env.vm.Lawful) (fresh : env.FreshAllocations) (plug : Bool) (addresses : List Nat)
    (w : World) (next : GuestMemoryMmap) :
    Triple (Staged plug w next) Spares (fun _ => True) (stage env plug addresses next : Prog (Txn M) _ _)
      (fun staged t => Staged plug w staged.2 t) := by
  have chain : ∀ s t u : Txn M, Spares s t → Spares t u → Spares s u := fun _ _ _ => trans_of Spares
  induction addresses generalizing next with
  | nil => exact Triple.consequence (Triple.pure (refl_of Spares) ([],next)) (fun _ here => here) (fun _ _ here => here)
  | cons a rest ih =>
    refine fun t here => Triple.bind (m := stageRegion env plug a next t.cell.device) chain
      (stageRegion_spares fresh plug a w next t.cell.device) (fun r => ?_) t here
    refine Triple.bind chain (Triple.ofExcept (refl_of Spares) _ ?_ (fun _ _ => trivial))
      (fun next' => Triple.bind chain (ih next') (fun staged => ?_))
    · rintro next' u ⟨staged,new⟩ changed
      cases plug with
      | true =>
        obtain ⟨counted,apart⟩ := new rfl
        cases result : env.vm.insertRegion next r with
        | ok view =>
          rw [if_pos rfl,result] at changed
          cases changed
          exact staged.insert (lawful.insert_regions _ _ _ result) counted apart
        | error e =>
          rw [if_pos rfl,result] at changed
          cases changed
      | false =>
        cases result : env.vm.removeRegion next a t.cell.device.blockSize with
        | ok view =>
          rw [if_neg Bool.false_ne_true,result] at changed
          cases changed
          obtain ⟨_,_,_,_,regions⟩ := lawful.remove_regions _ _ _ _ result
          exact staged.remove (fun q member => ((regions q).mp member).1)
        | error e =>
          rw [if_neg Bool.false_ne_true,result] at changed
          cases changed
    · exact Triple.consequence (Triple.pure (refl_of Spares) (r::staged.1,staged.2)) (fun _ here => here) (fun _ _ here => here)

theorem Staged.confined {n : Nat} {plug : Bool} {w : World} {next : GuestMemoryMmap} {t : Txn M}
    (staged : Staged plug w next t) (old : n ≤ w.allocations) (blocks : Std.TreeMap Nat Region) :
    t.cell.Confined env n (committed t next blocks).cell := by
  refine ⟨List.prefix_refl _,.refl _,rfl,Nat.le_refl _,?_,?_,fun _ _ _ _ _ _ _ _ changed => absurd rfl changed⟩
  · rw [staged.view]
    refine fun unshared => ⟨staged.apart unshared.apart,fun r member => ?_⟩
    exact (staged.known r member).elim (unshared.counted r) (·.2)
  · rw [staged.view]
    intro r member before
    exact (staged.known r member).resolve_right (fun new => by omega)

theorem Calls.spares {t u : Txn M} (calls : Calls t u) : Spares t u := by
  refine ⟨calls.grown,calls.queues,?_,?_,?_,?_⟩
  all_goals rw [calls.world]
  exact fun _ _ _ _ => rfl

variable [Mapper M]

theorem apply_calls (plug : Bool) (done rest : List Region) :
    Always (Calls : Txn M → Txn M → Prop) (apply plug done rest) := by
  refine apply_always (fun plug r => ?_) plug done rest
  unfold operate
  split <;> exact fun _ => ⟨List.prefix_append _ _,rfl,rfl⟩

/-- What a memory transaction does to the bytes of the guest. -/
abbrev Confines (env : Env) (n : Nat) (t u : Txn M) : Prop := t.cell.Confined env n u.cell

theorem change_confined (lawful : env.vm.Lawful) (fresh : env.FreshAllocations) (n : Nat) (addresses : List Nat)
    (plug : Bool) :
    Triple (fun t : Txn M => n ≤ t.cell.world.allocations) (Confines env n) (fun _ => True)
      (change env addresses plug) (fun _ _ => True) := by
  have chain : ∀ s t u : Txn M, Confines env n s t → Confines env n t u → Confines env n s u := fun _ _ _ => .trans
  have still : ∀ t : Txn M, Confines env n t t := fun t => .refl t.cell
  refine Triple.look (fun t old => Triple.bind chain (Triple.consequence
    ((stage_spares lawful fresh plug addresses t.cell.world t.cell.world.view).relax (fun _ _ spares => spares.confined))
    ?_ (fun _ _ here => here)) (fun staged => ?_))
  · rintro _ rfl
    exact ⟨rfl,Nat.le_refl _,id,fun _ => .inl,fun _ _ => id⟩
  have applied : Triple (Staged plug t.cell.world staged.2) (Confines env n) (fun _ => True)
      (apply plug [] staged.1 : Prog (Txn M) _ Bool) (fun _ => Staged plug t.cell.world staged.2) := by
    refine Triple.ofAlways (apply_calls plug [] staged.1) (fun _ _ calls => calls.spares.confined) ?_ (fun _ => trivial)
    intro s u _ here calls
    refine ⟨?_,?_,here.apart,?_,here.kept⟩
    all_goals rw [calls.world]
    · exact here.view
    · exact here.counted
    · exact here.known
  refine Triple.bind chain applied (fun done => ?_)
  split
  · refine Triple.bind chain (?_ : Triple _ _ _ _ (fun _ _ => True)) (fun _ => .done still true)
    exact Triple.modify (fun u here => ⟨here.confined old _,trivial⟩)
  · exact .done still false

theorem request_confined (lawful : env.vm.Lawful) (fresh : env.FreshAllocations) (req : List UInt8)
    (pinned : List (Nat × Nat)) {n : Nat} (t : Txn M) (old : n ≤ t.cell.world.allocations) :
    Confines env n t ((request env req pinned).run t).2 := by
  rw [request_run]
  cases verdict t.cell.device t.cell.world.control.requestedSizeMib pinned (Request.decode req) with
  | inl answer => exact .refl _
  | inr addresses =>
    have changed := (change_confined lawful fresh n addresses ((Request.decode req).kind == 0) t old).1
    dsimp only
    generalize (change env addresses ((Request.decode req).kind == 0)).run t = outcome at changed ⊢
    obtain ⟨r,u⟩ := outcome
    rcases r with f | done
    · exact changed
    · cases done with
      | false => exact changed
      | true =>
        exact changed.trans ⟨List.prefix_refl _,.refl _,rfl,Nat.le_refl _,id,fun _ member _ => member,
          fun _ _ _ _ _ _ _ _ moved => absurd rfl moved⟩

structure Wires (n : Nat) (t : Txn M) : Prop where
  old : n ≤ t.cell.world.allocations
  count : t.cell.queues.rings.length = 1
  sized : ∀ q ∈ t.cell.queues.rings, 0 < q.size

structure Fetched (n : Nat) (chain : Chain) (t : Txn M) : Prop where
  wires : Wires n t
  ready : ReadyRing 0 t.cell
  popped : .popped 0 chain ∈ t.cell.trace

omit [Mapper M] in
theorem wires_stable {n : Nat} : Stable (Confines env n) (Wires n : Txn M → Prop) := by
  intro t u confines wires
  refine ⟨Nat.le_trans wires.old confines.counted,confines.rings.length.trans wires.count,fun q' member => ?_⟩
  obtain ⟨q,old,same⟩ := confines.rings.mem member
  rw [same]
  exact wires.sized q old

omit [Mapper M] in
theorem fetched_stable {n : Nat} {chain : Chain} : Stable (Confines env n) (Fetched n chain : Txn M → Prop) := by
  intro t u confines fetched
  obtain ⟨q,found,ready⟩ := fetched.ready
  obtain ⟨q',found',same⟩ := confines.rings.get found
  refine ⟨wires_stable t u confines fetched.wires,⟨q',found',?_⟩,confines.grown.subset fetched.popped⟩
  rw [same]
  exact ready

omit [Mapper M] in
theorem pop_confined (lawful : env.vq.Lawful) (n : Nat) :
    Triple (Wires n : Txn M → Prop) (Confines env n) (fun _ => True) (Txn.onCell (Queues.pop env 0))
      (fun taken t => ∀ chain, taken = some chain → Fetched n chain t) := by
  intro t wires
  have pops : Acts env ⟨True,False⟩ (fun _ _ => True) 0 (Wired t.cell.world.view 1 0)
      (Queues.pop env 0 : Prog (Cell VirtioMem) _ _) _ := Queues.pop_acts lawful Nat.zero_lt_one
  have acts := pops t.cell ⟨rfl,wires.count,Nat.zero_le _,wires.sized⟩
  have confines : Confines env n t ((Txn.onCell (Queues.pop env 0)).run t).2 := .ofMoves acts.1
  refine ⟨confines,fun taken returned chain found => ?_,fun _ _ => trivial⟩
  have fetched := acts.2.1 taken returned chain found
  exact ⟨wires_stable _ _ confines wires,fetched.ready,fetched.popped⟩

theorem serve_confined (lawful : env.vm.Lawful) (lawful' : env.vq.Lawful) (fresh : env.FreshAllocations) (n : Nat)
    (pinned : List (Nat × Nat)) (chain : Chain) :
    Triple (Fetched n chain : Txn M → Prop) (Confines env n) (fun _ => True) (serve env pinned chain)
      (fun _ _ => True) := by
  have chains : ∀ s t u : Txn M, Confines env n s t → Confines env n t u → Confines env n s u := fun _ _ _ => .trans
  have still : ∀ t : Txn M, Confines env n t t := fun t => .refl t.cell
  have keep : Stable (Confines env n) (Fetched n chain : Txn M → Prop) := fetched_stable
  refine Triple.chain chains keep ?_ (fun _ => Triple.chain chains keep ?_ (fun req =>
    Triple.chain chains keep ?_ (fun answer => Triple.chain chains keep ?_ (fun _ => ?_))))
  · exact (Triple.require still _ _ (fun _ => trivial)).consequence (fun _ here => here) (fun _ _ _ => trivial)
  · intro t _
    have moves := later_moves ((readRequest_later 24 false chain.descriptors : Always (World.Later env) _) t.cell.world)
    exact ⟨.ofWorld (List.prefix_refl _) (.refl _) moves (fun _ _ _ => False.elim),fun _ _ => trivial,fun _ _ => trivial⟩
  · exact fun t here => ⟨request_confined lawful fresh req _ t here.wires.old,fun _ _ => trivial,fun _ _ => trivial⟩
  · intro t here
    refine ⟨.ofWorld (List.prefix_refl _) (.refl _) (respond_moves lawful _ _ t.cell.world) ?_,fun _ _ => trivial,
      fun _ _ => trivial⟩
    rintro _ p _ ⟨d,member,i,bound,backs⟩
    obtain ⟨listed,write⟩ := List.mem_filter.mp member
    exact ⟨_,backs,.inl ⟨0,chain,here.popped,d,listed,write,Nat.le_add_right _ _,Nat.add_lt_add_left bound _⟩⟩
  · intro t here
    have completes : Acts env ⟨True,False⟩ (fun _ _ => True) 0 (ReadyRing 0)
        (Queues.complete env 0 chain.head 10 : Prog (Cell VirtioMem) _ Unit) _ := Queues.complete_acts lawful' _ _
    exact ⟨.ofMoves (completes t.cell here.ready).1,fun _ _ => trivial,fun _ _ => trivial⟩

theorem processLoop_confined (lawful : env.vm.Lawful) (lawful' : env.vq.Lawful) (fresh : env.FreshAllocations) (n : Nat)
    (pinned : List (Nat × Nat)) (budget : Nat) :
    Triple (Wires n : Txn M → Prop) (Confines env n) (fun _ => True) (processLoop env pinned budget)
      (fun _ _ => True) := by
  have chains : ∀ s t u : Txn M, Confines env n s t → Confines env n t u → Confines env n s u := fun _ _ _ => .trans
  have still : ∀ t : Txn M, Confines env n t t := fun t => .refl t.cell
  induction budget with
  | zero => exact .done still ()
  | succ budget ih =>
    refine Triple.step chains wires_stable (pop_confined lawful' n) (fun taken => ?_)
    cases taken with
    | none => exact .done still ()
    | some chain =>
      refine Triple.chain chains (wires_stable.and ?_)
        ((serve_confined lawful lawful' fresh n pinned chain).consequence (fun t here => here.2 chain rfl)
          (fun _ _ here => here)) (fun _ => ih.consequence (fun _ here => here.1) (fun _ _ here => here))
      exact fun t u confines holds other same => fetched_stable t u confines (holds other same)

end VirtioMem
end Devices
end WVmm
