import WVmm.Devices.Answers
import WVmm.Devices.PinScan

/-! Memory transactions and the queues that are in use: what a scan has pinned keeps its
memory through every request of a batch, and a scan pins the rings of a queue and all
descriptors of the chains that wait in it. -/
namespace WVmm
open Lib.Effect Lib.Trails World

/-- A snapshot lasts as long as only time passes. -/
theorem World.Snapshot.later {env : Env} {view : GuestMemoryMmap} {host : Host} {w w' : World}
    (here : Snapshot env view host w) (later : Later env w w') : Snapshot env view host w' := by
  obtain ⟨n,rfl⟩ := later
  induction n with
  | zero => exact here
  | succ n ih =>
    rw [Function.iterate_succ_apply']
    exact ih.tick

namespace Devices

namespace Queues

variable {env : Env} {view : GuestMemoryMmap} {host : Host}

/-- A descriptor of a chain that is available in a ring and was not taken yet. -/
structure Pends (env : Env) (view : GuestMemoryMmap) (host : Host) (q : Queue) (d : Descriptor) : Prop where
  waits : ∃ idx, env.vq.availIdx q view host = .ok idx ∧ ∃ i < pending idx q.nextAvail, ∃ head,
    slotHead env view host q ((q.nextAvail + i) % 65536) = some head ∧ ∃ n index,
      linked env view host q head n = some index ∧ descriptorAt env view host q index = some d

/-- A byte of the descriptor table, of a ring, or of a buffer that waits. -/
inductive Live (env : Env) (view : GuestMemoryMmap) (host : Host) (q : Queue) : Nat → Prop
  | table {i : Nat} (below : i < 16 * q.size) : Live env view host q (q.descTable + i)
  | avail {i : Nat} (below : i < 6 + 2 * q.size) : Live env view host q (q.availRing + i)
  | used {i : Nat} (below : i < 6 + 8 * q.size) : Live env view host q (q.usedRing + i)
  | buffer {d : Descriptor} {i : Nat} (pends : Pends env view host q d) (below : i < d.len) :
      Live env view host q (d.addr + i)

/-- Every live byte of the ready queues is in a pinned range. -/
def Pinned (env : Env) (view : GuestMemoryMmap) (host : Host) (rings : List Queue) (pins : List (Nat × Nat)) : Prop :=
  ∀ q ∈ rings, q.ready = true → ∀ a, Live env view host q a → ∃ range ∈ pins, ∃ i < range.2, a = range.1 + i

theorem Pinned.mono {rings : List Queue} {pins pins' : List (Nat × Nat)} (pinned : Pinned env view host rings pins)
    (more : pins ⊆ pins') : Pinned env view host rings pins' := by
  intro q member ready a live
  obtain ⟨range,held,within⟩ := pinned q member ready a live
  exact ⟨range,more held,within⟩

theorem Published.waits {q : Queue} {n : Nat} {chains : List Chain} (published : Published env view host q n chains)
    {i : Nat} (less : i < chains.length) {head : Nat} (stored : slotHead env view host q ((n + i) % 65536) = some head)
    (small : n < 65536) : ∃ chain ∈ chains, WellFormed env view host q head chain.descriptors := by
  induction published generalizing i with
  | nil => cases less
  | @cons n chain rest first formed _ ih =>
    cases i with
    | zero =>
      rw [Nat.add_zero,Nat.mod_eq_of_lt small] at stored
      cases first.symm.trans stored
      exact ⟨chain,List.mem_cons_self,formed⟩
    | succ i =>
      have next : ((n + 1) % 65536 + i) % 65536 = (n + (i + 1)) % 65536 := by omega
      obtain ⟨later,member,other⟩ := ih (Nat.lt_of_succ_lt_succ less) (by rwa [next]) (Nat.mod_lt _ (by decide))
      exact ⟨later,List.mem_cons_of_mem _ member,other⟩

theorem pinRing_live {q : Queue} {pins : List (Nat × Nat)} {w w' : World} (here : Snapshot env view host w)
    (ran : (pinRing env q).run w = (.ok pins,w')) : Snapshot env view host w' ∧ ∀ a, Live env view host q a →
      ∃ range ∈ pins, ∃ i < range.2, a = range.1 + i := by
  obtain ⟨_,_,⟨⟩,then₁⟩ := Prog.bind_success ran
  obtain ⟨_,w₁,valid,then₂⟩ := Prog.bind_success then₁
  obtain ⟨_,rfl⟩ := Prog.require_success valid
  obtain ⟨idx,w₂,looked,then₃⟩ := Prog.bind_success then₂
  obtain ⟨_,w₃,fits,then₄⟩ := Prog.bind_success then₃
  obtain ⟨_,rfl⟩ := Prog.require_success fits
  obtain ⟨own,w₄,scanned,then₅⟩ := Prog.bind_success then₄
  cases then₅
  obtain ⟨here₂,read⟩ := availIdx_grants.ran here looked
  obtain ⟨here₄,chains,count,_,published,rfl⟩ := (pinSlots_grants _ 0).ran here₂ scanned
  refine ⟨here₄,fun a live => ?_⟩
  have ring : ∀ range ∈ ringPins q, range ∈ ringPins q ++ chains.flatMap Chain.pins :=
    fun range => List.mem_append_left _
  cases live with
  | table below => exact ⟨(q.descTable,q.size * 16),ring _ (by simp [ringPins]),_,by dsimp only; omega,rfl⟩
  | avail below => exact ⟨(q.availRing,6 + q.size * 2),ring _ (by simp [ringPins]),_,by dsimp only; omega,rfl⟩
  | used below => exact ⟨(q.usedRing,6 + q.size * 8),ring _ (by simp [ringPins]),_,by dsimp only; omega,rfl⟩
  | @buffer d i pends below =>
    obtain ⟨idx',read',k,less,head,stored,n,index,linked,held⟩ := pends.waits
    cases read.symm.trans read'
    have place : ((q.nextAvail + 0) % 65536 + k) % 65536 = (q.nextAvail + k) % 65536 := by omega
    obtain ⟨chain,member,formed⟩ := published.waits (count ▸ less) (place ▸ stored) (Nat.mod_lt _ (by decide))
    have listed : d ∈ chain.descriptors := formed.trail.contains linked held
    have filled : d.len ≠ 0 := by omega
    refine ⟨(d.addr,d.len),List.mem_append_right _ (List.mem_flatMap.mpr ⟨chain,member,?_⟩),i,below,rfl⟩
    exact List.mem_map.mpr ⟨d,List.mem_filter.mpr ⟨listed,by simpa using filled⟩,rfl⟩

/-- The scan of a device pins all that is live in its queues. -/
theorem pinned_live {queues : Queues} {pins : List (Nat × Nat)} {w w' : World} (here : Snapshot env view host w)
    (ran : (pinned env queues).run w = (.ok pins,w')) : Pinned env view host queues.rings pins := by
  suffices each : ∀ rings : List Queue, ∀ {w pins}, Snapshot env view host w →
      (pinRings env rings).run w = (.ok pins,w') → ∀ q ∈ rings, ∀ a, Live env view host q a →
        ∃ range ∈ pins, ∃ i < range.2, a = range.1 + i by
    exact fun q member ready => each _ here ran q (List.mem_filter.mpr ⟨member,ready⟩)
  intro rings
  induction rings with
  | nil => exact fun _ _ _ none => absurd none List.not_mem_nil
  | cons first rest ih =>
    intro w pins here ran q member a live
    obtain ⟨own,w₁,scanned,then₁⟩ := Prog.bind_success ran
    obtain ⟨others,w₂,later,then₂⟩ := Prog.bind_success then₁
    cases then₂
    obtain ⟨here₁,covers⟩ := pinRing_live here scanned
    rcases List.mem_cons.mp member with rfl | inside
    · obtain ⟨range,held,within⟩ := covers a live
      exact ⟨range,List.mem_append_left _ held,within⟩
    · obtain ⟨range,held,within⟩ := ih here₁ later q inside a live
      exact ⟨range,List.mem_append_right _ held,within⟩

end Queues

namespace VirtioMem

variable {M : Type} {env : Env} {table : M → Nat → Option Region} {base : List Region}
  {fixed : Nat → Option Region} {pins : List (Nat × Nat)}

def Retained (pins : List (Nat × Nat)) (t u : Txn M) : Prop :=
  t.cell.world.view.Retains pins u.cell.world.view

instance : IsPreorder (Txn M) (Retained pins) where
  refl _ _ _ _ member _ := member
  trans _ _ _ first second range held r member inside :=
    second range held r (first range held r member inside) inside

structure Beside (t u : Txn M) : Prop where
  world : World.Steady t.cell.world u.cell.world
  device : u.cell.device = t.cell.device
  mapper : u.mapper = t.mapper

theorem Beside.book {t u : Txn M} (beside : Beside t u) (book : Book table base fixed t) : Book table base fixed u :=
  book.steady beside.world beside.device (congrArg table beside.mapper)

theorem Beside.retained {t u : Txn M} (beside : Beside t u) : Retained pins t u := by
  intro range _ r member _
  rw [beside.world.view]
  exact member

theorem onWorld_beside {α : Type} {m : Prog World (Failure DeviceError) α} (steady : Always World.Steady m) :
    Always Beside (Txn.onWorld m : Prog (Txn M) _ α) :=
  fun t => ⟨steady t.cell.world,rfl,rfl⟩

theorem onCell_beside {α : Type} {m : Prog (Cell VirtioMem) (Failure DeviceError) α} (calm : Always Cell.Calm m) :
    Always Beside (Txn.onCell m : Prog (Txn M) _ α) :=
  fun t => ⟨(calm t.cell).1,(calm t.cell).2,rfl⟩

/-- A part of a transaction that keeps its records, whatever it does to the view. -/
abbrev Retaining {α : Type} (table : M → Nat → Option Region) (base : List Region) (fixed : Nat → Option Region)
    (pins : List (Nat × Nat)) (m : Prog (Txn M) (Failure DeviceError) α) : Prop :=
  Triple (Book table base fixed) (Retained pins) (fun _ => True) m (fun _ => Book table base fixed)

theorem Retaining.ofBeside {α : Type} {m : Prog (Txn M) (Failure DeviceError) α} (beside : Always Beside m) :
    Retaining table base fixed pins m :=
  Triple.ofAlways beside (fun _ _ here => here.retained) (fun _ _ _ book here => here.book book) (fun _ => trivial)

theorem Retaining.bind {α β : Type} {m : Prog (Txn M) (Failure DeviceError) α}
    {f : α → Prog (Txn M) (Failure DeviceError) β} (first : Retaining table base fixed pins m)
    (rest : ∀ a, Retaining table base fixed pins (f a)) : Retaining table base fixed pins (m >>= f) :=
  Triple.bind (fun _ _ _ => trans_of (Retained pins)) first rest

theorem Retaining.pure {α : Type} (a : α) :
    Retaining table base fixed pins (Pure.pure a : Prog (Txn M) (Failure DeviceError) α) :=
  (Triple.pure (refl_of (Retained pins)) a : Triple _ _ _ _ (fun _ => Book table base fixed))

variable [Mapper M]

theorem request_retaining (lawful : env.vm.Lawful) (atomic : Mapper.Atomic table) (req : List UInt8)
    {all : List (Nat × Nat)} (held : ∀ pin ∈ pins, pin ∈ all) :
    Retaining table base fixed pins (Prog.mapError (Failure.convert .memory) (request env req all)) := by
  have asked : Triple (Book table base fixed) (Retained pins) (fun _ => True) (request env req all : Prog (Txn M) _ _)
      (fun _ => Book table base fixed) := by
    refine fun t book => ⟨fun range inside => ?_,fun answer returned => ?_,fun _ _ => trivial⟩
    · exact request_retains lawful atomic book req all range (held range inside)
    · exact request_book lawful atomic book req all answer _ (Prod.ext returned rfl)
  exact asked.mapError (fun _ _ => trivial)

theorem serve_retaining (lawful : env.vm.Lawful) (atomic : Mapper.Atomic table) (chain : Chain) :
    Retaining table base fixed pins (serve env pins chain) := by
  refine .bind ((Triple.require (refl_of (Retained pins)) _ _ (fun _ => trivial)).consequence (fun _ here => here)
    (fun _ _ here => here.2)) (fun _ => .bind (.ofBeside (onWorld_beside ?_)) (fun req => .bind
      (request_retaining lawful atomic req (fun _ => List.mem_append_left _)) (fun answer => .bind
        (.ofBeside (onWorld_beside (respond_steadies _ _))) (fun _ => .ofBeside (onCell_beside
          (Queues.complete_calm 0 chain.head 10))))))
  exact fun world => (readRequest_later 24 false chain.descriptors world).steady

/-- Up to 128 requests keep what is pinned. -/
theorem process_retaining (lawful : env.vm.Lawful) (atomic : Mapper.Atomic table) :
    Retaining table base fixed pins (process env pins : Prog (Txn M) _ Unit) := by
  unfold process
  generalize 128 = budget
  induction budget with
  | zero => exact .pure ()
  | succ budget ih =>
    refine .bind (.ofBeside (onCell_beside (Queues.pop_calm 0))) (fun taken => ?_)
    split
    · exact .pure ()
    · exact .bind (serve_retaining lawful atomic _) (fun _ => ih)

end VirtioMem
end Devices
end WVmm
