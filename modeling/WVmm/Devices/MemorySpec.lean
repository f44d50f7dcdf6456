import WVmm.Devices.MemoryBook
import WVmm.Devices.Ledger

/-! What a memory transaction does to the transport of its device, whatever the
requests ask for and whatever fails: changes of the memory map leave the queues
alone and take no chain, and serving chains moves the indices of the rings. -/
namespace WVmm.Devices
open Lib.Effect

/-- The indices of the rings and the first interrupt bit may move. -/
structure Queues.Turned (queues queues' : Queues) : Prop where
  rings : SameRings queues.rings queues'.rings
  negotiated : queues'.negotiated = queues.negotiated
  interrupt : queues'.interrupt = queues.interrupt ∨ queues'.interrupt = queues.interrupt ||| 1

namespace Queues.Turned

variable {queues queues' queues'' : Queues}

theorem refl (queues : Queues) : Turned queues queues := ⟨.refl _,rfl,.inl rfl⟩

theorem trans (first : Turned queues queues') (second : Turned queues' queues'') : Turned queues queues'' := by
  refine ⟨first.rings.trans second.rings,second.negotiated.trans first.negotiated,?_⟩
  rcases second.interrupt with same | raised
  · rw [same]
    exact first.interrupt
  · rw [raised]
    rcases first.interrupt with same' | raised'
    · exact .inr (by rw [same'])
    · exact .inr (by rw [raised',BitVec.or_assoc,BitVec.or_self])

end Queues.Turned

def Turned {σ : Type} (queues : σ → Queues) (s t : σ) : Prop := Queues.Turned (queues s) (queues t)

instance {σ : Type} (queues : σ → Queues) : IsPreorder σ (Turned queues) where
  refl s := .refl (queues s)
  trans _ _ _ first second := first.trans second

/-- A program on a state with queues that takes and returns chains. -/
abbrev Turns {σ ε α : Type} (queues : σ → Queues) (m : Prog σ ε α) : Prop := Always (Turned queues) m

namespace Turns

theorem beside {σ ε α : Type} {queues : σ → Queues} {m : Prog σ ε α}
    (same : ∀ s, queues (m.run s).2 = queues s) : Turns queues m := by
  intro s
  unfold Turned
  rw [same s]
  exact .refl _

section Cells
variable {D α : Type} {env : Env}

theorem onWorld (p : Prog World (Failure DeviceError) α) : Turns Cell.queues (Cell.onWorld p : Prog (Cell D) _ α) :=
  beside (fun _ => rfl)

theorem ring (index : Nat) : Turns Cell.queues (Cell.ring index : Prog (Cell D) (Failure DeviceError) Queue) := by
  refine beside (fun c => ?_)
  simp only [Cell.ring,Prog.run_bind,Prog.run_get]
  cases c.queues.rings[index]? <;> rfl

theorem available (index : Nat) : Turns Cell.queues (Queues.available env index : Prog (Cell D) _ Nat) := by
  refine Always.bind (ring index) (fun q => ?_)
  split
  · exact .pure 0
  · refine .bind .get (fun c => .bind (.require _ _) (fun _ => ?_))
    exact .bind (onWorld _) (fun idx => .bind (.require _ _) (fun _ => .pure _))

theorem takeHead (lawful : env.vq.Lawful) (index : Nat) :
    Turns Cell.queues (Queues.takeHead env index : Prog (Cell D) _ Nat) := by
  intro c
  cases found : c.queues.rings[index]? with
  | none =>
    have missing : (Queues.takeHead env index).run c = (.error (.panic .index),c) := by
      simp only [Queues.takeHead,Cell.ring,Prog.run_bind,Prog.run_get,found]
      rfl
    rw [missing]
    exact .refl c.queues
  | some q =>
    rw [Queues.takeHead_run found]
    exact ⟨.set found (Queues.next_same lawful q _ _),rfl,.inl rfl⟩

theorem pop (lawful : env.vq.Lawful) (index : Nat) :
    Turns Cell.queues (Queues.pop env index : Prog (Cell D) _ (Option Chain)) := by
  refine .bind (available index) (fun count => ?_)
  split
  · exact .pure none
  · refine .bind (takeHead lawful index) (fun head => .bind (ring index) (fun q => ?_))
    exact .bind (onWorld _) (fun _ => .bind (beside (fun _ => rfl)) (fun _ => .pure _))

theorem complete (lawful : env.vq.Lawful) (index head len : Nat) :
    Turns Cell.queues (Queues.complete env index head len : Prog (Cell D) _ Unit) := by
  intro c
  cases found : c.queues.rings[index]? with
  | none =>
    have missing : (Queues.complete env index head len).run c = (.error (.panic .index),c) := by
      simp only [Queues.complete,Cell.ring,Prog.run_bind,Prog.run_get,found]
      rfl
    rw [missing]
    exact .refl c.queues
  | some q =>
    have moved := (Queues.offered_same lawful found head len)
    rw [Queues.complete_run found]
    cases (env.vq.addUsed q c.world.view c.world.host head len).1 with
    | error e => exact ⟨moved,rfl,.inl rfl⟩
    | ok _ => exact ⟨moved,rfl,.inr rfl⟩

end Cells
end Turns

/-- A part of a transaction that takes and returns no chain. -/
abbrev Txn.Idly {M : Type} (t u : Txn M) : Prop := Cell.Idly (fun _ => True) t.cell u.cell

instance {M : Type} : IsPreorder (Txn M) Txn.Idly where
  refl t := refl_of (Cell.Idly _) t.cell
  trans _ _ _ first second := trans_of (Cell.Idly _) first second

namespace VirtioMem

variable {M : Type} {env : Env}

def queues (t : Txn M) : Queues := t.cell.queues

theorem onCell_turns {α : Type} {p : Prog (Cell VirtioMem) (Failure DeviceError) α}
    (turns : Turns Cell.queues p) : Turns (queues : Txn M → Queues) (Txn.onCell p) :=
  fun t => turns t.cell

theorem onWorld_idles {ε α : Type} (p : Prog World ε α) : Always Txn.Idly (Txn.onWorld p : Prog (Txn M) ε α) :=
  fun _ => ⟨id,rfl,[],(List.append_nil _).symm,List.forall_mem_nil _⟩

theorem stage_always {rel : Txn M → Txn M → Prop} [IsPreorder (Txn M) rel]
    (worlds : ∀ (ε α : Type) (p : Prog World ε α), Always rel (Txn.onWorld p)) (plug : Bool) (addresses : List Nat)
    (view : GuestMemoryMmap) : Always rel (stage env plug addresses view) := by
  induction addresses generalizing view with
  | nil => exact .pure _
  | cons a rest ih =>
    refine .bind .get (fun t => .bind ?_ (fun region => .bind (.ofExcept _)
      (fun next => .bind (ih next) (fun _ => .pure _))))
    unfold stageRegion
    split
    · exact worlds _ _ _
    · split
      · exact .pure _
      · exact .fail _

variable [Mapper M]

theorem rollback_always {rel : Txn M → Txn M → Prop} [IsPreorder (Txn M) rel]
    (calls : ∀ plug r, Always rel (operate plug r)) (plug : Bool) (done : List Region) :
    Always rel (rollback plug done) := by
  induction done with
  | nil => exact .pure _
  | cons r rest ih =>
    refine .bind (calls _ r) (fun undone => .bind ih (fun later => ?_))
    split <;> exact .pure _

theorem apply_always {rel : Txn M → Txn M → Prop} [IsPreorder (Txn M) rel]
    (calls : ∀ plug r, Always rel (operate plug r)) (plug : Bool) (done rest : List Region) :
    Always rel (apply plug done rest) := by
  induction rest generalizing done with
  | nil => exact .pure _
  | cons r rest ih =>
    refine .bind (calls plug r) (fun result => ?_)
    split
    · exact ih _
    · refine .bind (rollback_always calls plug done) (fun failed => ?_)
      split
      · exact .fail _
      · exact .pure _

/-- What allocations, mapper calls and the commit do, a change does. -/
theorem change_always {rel : Txn M → Txn M → Prop} [IsPreorder (Txn M) rel]
    (worlds : ∀ (ε α : Type) (p : Prog World ε α), Always rel (Txn.onWorld p))
    (calls : ∀ plug r, Always rel (operate plug r))
    (commits : ∀ (t : Txn M) view blocks, rel t (committed t view blocks)) (addresses : List Nat) (plug : Bool) :
    Always rel (change env addresses plug) := by
  refine .bind .get (fun t => .bind (stage_always worlds plug addresses _) (fun staged => ?_))
  refine .bind (apply_always calls plug [] _) (fun done => ?_)
  split
  · exact .bind (Always.modify (fun t => commits t _ _)) (fun _ => .pure _)
  · exact .pure _

theorem operate_idles (plug : Bool) (r : Region) : Always (Txn.Idly : Txn M → Txn M → Prop) (operate plug r) := by
  have neutral (a : Action) (call : a.Neutral) : ∀ b ∈ [a], b.Neutral := by
    intro b member
    rwa [List.mem_singleton.mp member]
  unfold operate
  split
  · exact fun t => ⟨id,rfl,_,rfl,neutral _ ⟨fun _ _ => rfl,fun _ => rfl⟩⟩
  · exact fun t => ⟨id,rfl,_,rfl,neutral _ ⟨fun _ _ => rfl,fun _ => rfl⟩⟩

theorem change_idles (addresses : List Nat) (plug : Bool) :
    Always (Txn.Idly : Txn M → Txn M → Prop) (change env addresses plug) :=
  change_always (fun _ _ => onWorld_idles) operate_idles
    (fun _ _ _ => ⟨id,rfl,[],(List.append_nil _).symm,List.forall_mem_nil _⟩) addresses plug

theorem request_idles (req : List UInt8) (pinned : List (Nat × Nat)) :
    Always (Txn.Idly : Txn M → Txn M → Prop) (request env req pinned) := by
  intro t
  rw [request_run]
  cases verdict t.cell.device t.cell.world.control.requestedSizeMib pinned (Request.decode req) with
  | inl answer => exact refl_of Txn.Idly t
  | inr addresses =>
    have changed := @change_idles M env _ addresses ((Request.decode req).kind == 0) t
    dsimp only
    generalize (change env addresses ((Request.decode req).kind == 0)).run t = outcome at changed ⊢
    obtain ⟨r,u⟩ := outcome
    rcases r with f | done
    · exact changed
    · cases done <;> exact ⟨changed.device,changed.queues,changed.trace⟩

theorem serve_turns (lawful : env.vq.Lawful) (pinned : List (Nat × Nat)) (chain : Chain) :
    Turns (queues : Txn M → Queues) (serve env pinned chain) := by
  refine .bind (.require _ _) (fun _ => .bind (Turns.beside (fun _ => rfl)) (fun req => .bind ?_ (fun answer => ?_)))
  · exact Turns.beside (fun t => (request_idles req _ t).queues)
  · exact .bind (Turns.beside (fun _ => rfl)) (fun _ => onCell_turns (Turns.complete lawful 0 chain.head 10))

theorem processLoop_turns (lawful : env.vq.Lawful) (pinned : List (Nat × Nat)) (budget : Nat) :
    Turns (queues : Txn M → Queues) (processLoop env pinned budget) := by
  induction budget with
  | zero => exact .pure _
  | succ budget ih =>
    refine .bind (onCell_turns (Turns.pop lawful 0)) (fun taken => ?_)
    split
    · exact .pure _
    · exact .bind (serve_turns lawful pinned _) (fun _ => ih)

end VirtioMem
end WVmm.Devices
