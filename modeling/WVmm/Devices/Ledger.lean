import WVmm.Devices.Device
import WVmm.Devices.QueueSpec
import WVmm.Lib.Outcomes

/-! The chains of a device as a ledger over the trace of what it did: the heads
that the available ring of a queue gave, the heads that went to its used ring, and
the heads that the device holds. -/
namespace WVmm.Devices
open Lib.Effect

/-- The heads a queue has given after one more action. A receive that finds no
packet puts the last head of the receive queue back. -/
def Action.take (queue : Nat) (heads : List Nat) : Action → List Nat
  | .popped q chain => if q = queue then heads ++ [chain.head] else heads
  | .recv _ (some none) => if queue = 0 then heads.dropLast else heads
  | _ => heads

def Action.give (queue : Nat) : Action → Option Nat
  | .completed q head _ => if q = queue then some head else none
  | _ => none

def taken (queue : Nat) (history : List Action) : List Nat := history.foldl (Action.take queue) []

def returned (queue : Nat) (history : List Action) : List Nat := history.filterMap (Action.give queue)

/-- Neither takes nor returns a chain. -/
def Action.Neutral (a : Action) : Prop :=
  (∀ queue heads, a.take queue heads = heads) ∧ ∀ queue, a.give queue = none

theorem taken_snoc (queue : Nat) (history : List Action) (a : Action) :
    taken queue (history ++ [a]) = a.take queue (taken queue history) := by
  rw [taken,List.foldl_append]
  rfl

theorem returned_snoc (queue : Nat) (history : List Action) (a : Action) :
    returned queue (history ++ [a]) = returned queue history ++ (a.give queue).toList := by
  rw [returned,List.filterMap_append]
  congr 1

/-- What was taken was returned or is held, and the ring indices count both. -/
structure Ledger (held : Nat → List Nat) (history : List Action) (rings : List Queue) : Prop where
  heads : ∀ index, taken index history = returned index history ++ held index
  avail : ∀ index q, rings[index]? = some q → q.nextAvail = (taken index history).length % 65536
  used : ∀ index q, rings[index]? = some q → q.nextUsed = (returned index history).length % 65536

namespace Ledger

variable {held : Nat → List Nat} {history : List Action} {rings : List Queue} {index : Nat} {q : Queue}

theorem neutral (ledger : Ledger held history rings) {a : Action} (neutral : a.Neutral) :
    Ledger held (history ++ [a]) rings := by
  have takes : ∀ index, taken index (history ++ [a]) = taken index history := by
    intro index
    rw [taken_snoc,neutral.1]
  have gives : ∀ index, returned index (history ++ [a]) = returned index history := by
    intro index
    rw [returned_snoc,neutral.2,Option.toList_none,List.append_nil]
  refine ⟨?_,?_,?_⟩
  · intro index
    rw [takes,gives]
    exact ledger.heads index
  · intro index q found
    rw [takes]
    exact ledger.avail index q found
  · intro index q found
    rw [gives]
    exact ledger.used index q found

theorem neutrals (ledger : Ledger held history rings) {actions : List Action}
    (neutral : ∀ a ∈ actions, a.Neutral) : Ledger held (history ++ actions) rings := by
  induction actions generalizing history with
  | nil => rwa [List.append_nil]
  | cons a rest ih =>
    rw [← List.singleton_append,← List.append_assoc]
    exact ih (ledger.neutral (neutral a List.mem_cons_self)) (fun b later => neutral b (List.mem_cons_of_mem _ later))

theorem fresh (idle : ∀ index, held index = []) (unused : ∀ q ∈ rings, q.nextAvail = 0 ∧ q.nextUsed = 0) :
    Ledger held [] rings := by
  refine ⟨fun index => (idle index).symm,?_,?_⟩
  · exact fun index q found => (unused q (List.mem_of_getElem? found)).1
  · exact fun index q found => (unused q (List.mem_of_getElem? found)).2

theorem set_cases {i : Nat} {q' r : Queue} (found : (rings.set index q')[i]? = some r) :
    (i = index ∧ r = q') ∨ (i ≠ index ∧ rings[i]? = some r) := by
  rw [List.getElem?_set] at found
  split at found
  · rename_i same
    split at found
    · cases found
      exact .inl ⟨same.symm,rfl⟩
    · cases found
  · rename_i other
    exact .inr ⟨fun same => other same.symm,found⟩

theorem pop (ledger : Ledger held history rings) (found : rings[index]? = some q) (chain : Chain) :
    Ledger (Function.update held index (held index ++ [chain.head])) (history ++ [.popped index chain])
      (rings.set index {q with nextAvail := (q.nextAvail + 1) % 65536}) := by
  have gives : ∀ i, returned i (history ++ [.popped index chain]) = returned i history := by
    intro i
    rw [returned_snoc]
    exact List.append_nil _
  refine ⟨?_,?_,?_⟩
  · intro i
    rw [taken_snoc,gives]
    by_cases same : index = i
    · subst same
      simp only [Action.take,if_pos,Function.update_self]
      rw [ledger.heads,List.append_assoc]
    · simp only [Action.take,if_neg same,Function.update_of_ne (Ne.symm same)]
      exact ledger.heads i
  · intro i r present
    rw [taken_snoc]
    rcases set_cases present with ⟨rfl,rfl⟩ | ⟨other,old⟩
    · simp only [Action.take,if_pos,List.length_append,List.length_singleton,ledger.avail _ _ found]
      omega
    · simp only [Action.take,if_neg (Ne.symm other)]
      exact ledger.avail i r old
  · intro i r present
    rw [gives]
    rcases set_cases present with ⟨rfl,rfl⟩ | ⟨_,old⟩
    · exact ledger.used _ q found
    · exact ledger.used i r old

theorem complete (ledger : Ledger held history rings) (found : rings[index]? = some q) {head : Nat}
    (only : held index = [head]) (len : Nat) :
    Ledger (Function.update held index []) (history ++ [.completed index head len])
      (rings.set index {q with nextUsed := (q.nextUsed + 1) % 65536}) := by
  have takes : ∀ i, taken i (history ++ [.completed index head len]) = taken i history := by
    intro i
    rw [taken_snoc]
    rfl
  refine ⟨?_,?_,?_⟩
  · intro i
    rw [takes,returned_snoc,ledger.heads]
    by_cases same : index = i
    · subst same
      simp only [Action.give,if_pos,Option.toList_some,Function.update_self,only,List.append_nil]
    · simp only [Action.give,if_neg same,Option.toList_none,Function.update_of_ne (Ne.symm same),List.append_nil]
  · intro i r present
    rw [takes]
    rcases set_cases present with ⟨rfl,rfl⟩ | ⟨_,old⟩
    · exact ledger.avail _ q found
    · exact ledger.avail i r old
  · intro i r present
    rw [returned_snoc]
    rcases set_cases present with ⟨rfl,rfl⟩ | ⟨other,old⟩
    · simp only [Action.give,if_pos,Option.toList_some,List.length_append,List.length_singleton,
        ledger.used _ _ found]
      omega
    · simp only [Action.give,if_neg (Ne.symm other),Option.toList_none,List.append_nil]
      exact ledger.used i r old

/-- A chain for which no packet was waiting goes back to the available ring. -/
theorem putBack (ledger : Ledger held history rings) (found : rings[0]? = some q) {head : Nat}
    (only : held 0 = [head]) (buffer : List VolatileSlice) :
    Ledger (Function.update held 0 []) (history ++ [.recv buffer (some none)])
      (rings.set 0 {q with nextAvail := (65535 + q.nextAvail) % 65536}) := by
  have gives : ∀ i, returned i (history ++ [.recv buffer (some none)]) = returned i history := by
    intro i
    rw [returned_snoc]
    exact List.append_nil _
  have last := ledger.heads 0
  rw [only] at last
  refine ⟨?_,?_,?_⟩
  · intro i
    rw [taken_snoc,gives]
    by_cases same : i = 0
    · subst same
      simp only [Action.take,if_pos,Function.update_self,last,List.dropLast_concat,List.append_nil]
    · simp only [Action.take,if_neg same,Function.update_of_ne same]
      exact ledger.heads i
  · intro i r present
    rw [taken_snoc]
    rcases set_cases present with ⟨rfl,rfl⟩ | ⟨other,old⟩
    · simp only [Action.take,if_pos,ledger.avail _ _ found,last,List.dropLast_concat,List.length_append,
        List.length_singleton]
      omega
    · simp only [Action.take,if_neg other]
      exact ledger.avail i r old
  · intro i r present
    rw [gives]
    rcases set_cases present with ⟨rfl,rfl⟩ | ⟨_,old⟩
    · exact ledger.used _ q found
    · exact ledger.used i r old

end Ledger

variable {D α : Type} {env : Env}

structure Cell.Owes (fact : D → Prop) (past : List Action) (held : Nat → List Nat) (c : Cell D) : Prop where
  device : fact c.device
  ledger : Ledger held (past ++ c.trace) c.queues.rings

/-- The queues are left alone, and the new actions neither take nor return a chain. -/
structure Cell.Idly (fact : D → Prop) (c c' : Cell D) : Prop where
  device : fact c.device → fact c'.device
  queues : c'.queues = c.queues
  trace : ∃ actions, c'.trace = c.trace ++ actions ∧ ∀ a ∈ actions, a.Neutral

instance (fact : D → Prop) : IsPreorder (Cell D) (Cell.Idly fact) where
  refl c := ⟨id,rfl,[],(List.append_nil _).symm,nofun⟩
  trans := by
    rintro c c' c'' ⟨keeps,queues,actions,grown,neutral⟩ ⟨keeps',queues',actions',grown',neutral'⟩
    refine ⟨fun here => keeps' (keeps here),queues'.trans queues,actions ++ actions',?_,?_⟩
    · rw [grown',grown,List.append_assoc]
    · intro a member
      rcases List.mem_append.mp member with first | second
      · exact neutral a first
      · exact neutral' a second

theorem Cell.Owes.idly {fact : D → Prop} {past : List Action} {held : Nat → List Nat} :
    Stable (Cell.Idly fact) (Cell.Owes fact past held) := by
  rintro c c' ⟨keeps,queues,actions,grown,neutral⟩ ⟨device,ledger⟩
  refine ⟨keeps device,?_⟩
  rw [queues,grown,← List.append_assoc]
  exact ledger.neutrals neutral

abbrev Idles (fact : D → Prop) (m : Prog (Cell D) (Failure DeviceError) α) : Prop := Always (Cell.Idly fact) m

namespace Idles

variable {fact : D → Prop}

theorem onWorld (p : Prog World (Failure DeviceError) α) : Idles fact (Cell.onWorld p : Prog (Cell D) _ α) :=
  fun _ => ⟨id,rfl,[],(List.append_nil _).symm,nofun⟩

theorem record {a : Action} (neutral : a.Neutral) : Idles fact (Cell.record a : Prog (Cell D) _ Unit) := by
  refine fun c => ⟨id,rfl,[a],rfl,?_⟩
  intro b member
  rwa [List.mem_singleton.mp member]

theorem change {f : Cell D → Cell D} (keeps : ∀ c, fact c.device → fact (f c).device)
    (queues : ∀ c, (f c).queues = c.queues) (trace : ∀ c, (f c).trace = c.trace) :
    Idles fact (Prog.modify f : Prog (Cell D) _ Unit) :=
  fun c => ⟨keeps c,queues c,[],by rw [List.append_nil]; exact trace c,nofun⟩

theorem call {f : Cell D → Cell D} (keeps : ∀ c, fact c.device → fact (f c).device)
    (queues : ∀ c, (f c).queues = c.queues) (trace : ∀ c, (f c).trace = c.trace) {a : Action}
    (neutral : a.Neutral) {r : Except (Failure DeviceError) α} :
    Idles fact (Prog.modify f >>= fun _ => Cell.record a >>= fun _ => Prog.ofExcept r) :=
  .bind (change keeps queues trace) (fun _ => .bind (record neutral) (fun _ => .ofExcept r))

theorem ring (index : Nat) : Idles fact (Cell.ring index : Prog (Cell D) (Failure DeviceError) Queue) := by
  refine .bind .get (fun c => ?_)
  split
  · exact .pure _
  · exact .fail _

theorem available (index : Nat) : Idles fact (Queues.available env index : Prog (Cell D) _ Nat) := by
  refine .bind (ring index) (fun q => ?_)
  split
  · exact .pure 0
  · refine .bind .get (fun c => .bind (.require _ _) (fun _ => ?_))
    exact .bind (onWorld _) (fun idx => .bind (.require _ _) (fun _ => .pure _))

end Idles

section Chains
variable {fact : D → Prop} {past : List Action} {held : Nat → List Nat}

/-- A program that takes and returns nothing leaves the books as they are. -/
theorem Idles.owes {m : Prog (Cell D) (Failure DeviceError) α} (idles : Idles fact m) :
    Upon (Cell.Owes fact past held) m (fun _ => Cell.Owes fact past held) :=
  .ofAlways idles Cell.Owes.idly

/-- The books after the available ring was asked for a chain. -/
def Cell.Took (fact : D → Prop) (past : List Action) (held : Nat → List Nat) (index : Nat) :
    Option Chain → Cell D → Prop
  | none => Cell.Owes fact past held
  | some chain => Cell.Owes fact past (Function.update held index (held index ++ [chain.head]))

theorem ring_success {c c' : Cell D} {index : Nat} {q : Queue}
    (ran : (Cell.ring index : Prog (Cell D) (Failure DeviceError) Queue).run c = (.ok q,c')) :
    c.queues.rings[index]? = some q ∧ c' = c := by
  cases found : c.queues.rings[index]? with
  | none =>
    simp only [Cell.ring,Prog.run_bind,Prog.run_get,found] at ran
    cases ran
  | some q' =>
    rw [Queues.ring_run found] at ran
    cases ran
    exact ⟨rfl,rfl⟩

theorem takeHead_success (lawful : env.vq.Lawful) {c c' : Cell D} {index head : Nat}
    (ran : (Queues.takeHead env index).run c = (.ok head,c')) :
    ∃ q, c.queues.rings[index]? = some q ∧
      c' = Cell.setRing index {q with nextAvail := (q.nextAvail + 1) % 65536} {c with world := c.world.tick env} := by
  obtain ⟨q,_,begun,_⟩ := Prog.bind_success ran
  obtain ⟨found,_⟩ := ring_success begun
  refine ⟨q,found,?_⟩
  rw [Queues.takeHead_run found] at ran
  obtain ⟨taken,rfl⟩ := Prod.mk.inj ran
  rcases outcome : env.vq.next q c.world.view (c.world.tick env).host with ⟨r,q'⟩
  rw [outcome] at taken
  rcases r with e | _ | head'
  · cases taken
  · cases taken
  · rw [lawful.next_taken q _ _ head' q' outcome]

theorem complete_success (lawful : env.vq.Lawful) {c c' : Cell D} {index head len : Nat}
    (ran : (Queues.complete env index head len).run c = (.ok (),c')) :
    ∃ q, c.queues.rings[index]? = some q ∧ c'.device = c.device ∧
      c'.queues.rings = c.queues.rings.set index {q with nextUsed := (q.nextUsed + 1) % 65536} ∧
      c'.world = {c.world with host := (env.vq.addUsed q c.world.view c.world.host head len).2.2} ∧
      c'.trace = c.trace ++ [.completed index head len] := by
  obtain ⟨q,_,begun,_⟩ := Prog.bind_success ran
  obtain ⟨found,_⟩ := ring_success begun
  refine ⟨q,found,?_⟩
  rw [Queues.complete_run found] at ran
  rcases outcome : env.vq.addUsed q c.world.view c.world.host head len with ⟨r,q',host⟩
  have counted := lawful.used_added q c.world.view c.world.host head len q' host
  rw [outcome] at ran
  rcases r with e | _
  · cases ran
  · cases ran
    refine ⟨rfl,?_,?_,rfl⟩
    · simp only [Queues.offered,Cell.setRing,outcome]
      rw [counted outcome]
    · simp only [Queues.offered,Cell.setRing,outcome]

/-- The ring has advanced past a head whose chain is yet to be walked and recorded. -/
def Cell.Ahead (fact : D → Prop) (past : List Action) (held : Nat → List Nat) (index head : Nat) (c : Cell D) : Prop :=
  ∀ descriptors, fact c.device ∧ Ledger (Function.update held index (held index ++ [head]))
    (past ++ (c.trace ++ [.popped index ⟨head,descriptors⟩])) c.queues.rings

theorem takeHead_ahead (lawful : env.vq.Lawful) (index : Nat) :
    Upon (Cell.Owes fact past held) (Queues.takeHead env index) (Cell.Ahead fact past held index) := by
  intro c head c' owes ran descriptors
  obtain ⟨q,found,rfl⟩ := takeHead_success lawful ran
  refine ⟨owes.device,?_⟩
  rw [← List.append_assoc]
  exact owes.ledger.pop found ⟨head,descriptors⟩

theorem pop_owes (lawful : env.vq.Lawful) (index : Nat) :
    Upon (Cell.Owes fact past held) (Queues.pop env index : Prog (Cell D) _ (Option Chain))
      (Cell.Took fact past held index) := by
  refine .bind (Idles.available index).owes (fun count => ?_)
  split
  · exact .pure (fun _ here => here)
  refine .bind (takeHead_ahead lawful index) (fun head => ?_)
  intro c popped c' ahead ran
  obtain ⟨q,c₁,found,ran⟩ := Prog.bind_success ran
  obtain ⟨descriptors,c₂,walked,ran⟩ := Prog.bind_success ran
  rw [(ring_success found).2] at walked
  obtain ⟨_,rfl⟩ := Prod.mk.inj walked
  cases ran
  exact ⟨(ahead descriptors).1,(ahead descriptors).2⟩

/-- The one chain that is held from a queue goes back to it. -/
theorem complete_owes (lawful : env.vq.Lawful) {index head : Nat} (clear : held index = []) (len : Nat) :
    Upon (Cell.Owes fact past (Function.update held index (held index ++ [head])))
      (Queues.complete env index head len : Prog (Cell D) _ Unit) (fun _ => Cell.Owes fact past held) := by
  intro c _ c' owes ran
  obtain ⟨q,found,device,rings,_,trace⟩ := complete_success lawful ran
  refine ⟨device ▸ owes.device,?_⟩
  have only : Function.update held index (held index ++ [head]) index = [head] := by
    rw [Function.update_self,clear,List.nil_append]
  have balanced := owes.ledger.complete found only len
  rw [Function.update_idem,← clear,Function.update_eq_self] at balanced
  rw [rings,trace,← List.append_assoc]
  exact balanced

end Chains
end WVmm.Devices
