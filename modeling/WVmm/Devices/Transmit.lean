import WVmm.Devices.Ledger
import WVmm.Devices.BufferSpec

/-! What transmitting leaves in the history of a net device: the chains of the
transmit queue are offered to the backend one after another, each until it is
accepted, as the bytes it holds in guest memory or as the copy that was made of
them. -/
namespace WVmm
open Lib.Effect

namespace World

variable {env : Env}

def Later (env : Env) (w w' : World) : Prop := ∃ n, w' = (tick env)^[n] w

instance : IsPreorder World (Later env) where
  refl w := ⟨0,rfl⟩
  trans := by
    rintro w w' w'' ⟨n,rfl⟩ ⟨m,rfl⟩
    exact ⟨m + n,(Function.iterate_add_apply _ m n w).symm⟩

theorem observe_later {ε : Type} : Always (Later env) (observe env : Prog World ε Unit) := fun _ => ⟨1,rfl⟩

theorem readSlice_later (addr n : Nat) : Always (Later env) (readSlice env addr n) :=
  .bind observe_later (fun _ => .bind .get (fun _ => .ofExcept _))

theorem Later.view {w w' : World} (later : Later env w w') : w'.view = w.view := by
  obtain ⟨n,rfl⟩ := later
  induction n with
  | zero => rfl
  | succ n ih => rwa [Function.iterate_succ_apply']

def Ages (w w' : World) : Prop := w.ticks ≤ w'.ticks

instance : IsPreorder World Ages where
  refl _ := Nat.le_refl _
  trans _ _ _ := Nat.le_trans

theorem tick_ages (w : World) : Ages w (w.tick env) := Nat.le_succ w.ticks

theorem Later.ages {w w' : World} (later : Later env w w') : Ages w w' := by
  obtain ⟨n,rfl⟩ := later
  induction n with
  | zero => exact refl_of Ages w
  | succ n ih =>
    rw [Function.iterate_succ_apply']
    exact trans_of Ages ih (tick_ages _)

theorem Later.tick {w w' : World} (later : Later env w w') (ages : Ages (w.tick env) w') : Later env (w.tick env) w' := by
  obtain ⟨n,rfl⟩ := later
  cases n with
  | zero => exact absurd ages (Nat.not_succ_le_self w.ticks)
  | succ n => exact ⟨n,(Function.iterate_succ_apply _ n w)⟩

end World

namespace Devices

variable {env : Env}

theorem Queues.availIdx_later (q : Queue) : Always (World.Later env) (availIdx env q) :=
  .bind World.observe_later (fun _ => .bind .get (fun _ => .ofExcept _))

theorem Queues.popChain_later (q : Queue) (fuel index : Nat) : Always (World.Later env) (popChain env q fuel index) := by
  induction fuel generalizing index with
  | zero => exact .fail _
  | succ fuel ih =>
    refine .bind (.require _ _) (fun _ => .bind ?_ (fun d => ?_))
    · exact .bind (World.readSlice_later _ _) (fun _ => .pure _)
    refine .bind (.require _ _) (fun _ => .bind (.bind .get (fun _ => .pure _)) (fun _ => ?_))
    refine .bind (.require _ _) (fun _ => ?_)
    split
    · exact .pure _
    · exact .bind (ih _) (fun _ => .pure _)

/-- Bytes that are read one moment after another, starting after `w`. -/
def Glimpsed (env : Env) (w : World) (limit : Nat) (bytes : List Nat) (raw : List UInt8) : Prop :=
  List.Forall₂ (fun p b => ∃ n, n ≤ limit ∧ b = ((World.tick env)^[n] w).host p) bytes raw

theorem Glimpsed.still {w : World} {limit : Nat} {bytes : List Nat} {raw : List UInt8}
    (glimpsed : Glimpsed env w limit bytes raw)
    (still : ∀ p ∈ bytes, ∀ n ≤ limit, ((World.tick env)^[n] w).host p = w.host p) : raw = bytes.map w.host := by
  unfold Glimpsed at glimpsed
  induction glimpsed with
  | nil => rfl
  | cons seen _ ih =>
    obtain ⟨n,bound,rfl⟩ := seen
    rw [List.map_cons,still _ List.mem_cons_self n bound,
      ih (fun p member => still p (List.mem_cons_of_mem _ member))]

/-- Each slice is copied at a moment of its own. -/
theorem Buffers.copyTo_glimpses {slices : List VolatileSlice} {n : Nat}
    {w w' : World} {raw : List UInt8} (ran : (copyTo env slices n).run w = (.ok raw,w')) :
    ∃ ticks, ((∀ s ∈ slices, 0 < s.len) → ticks ≤ n) ∧ w' = (World.tick env)^[ticks] w ∧
      Glimpsed env w ticks ((hostBytes slices).take n) raw := by
  induction slices generalizing n w w' raw with
  | nil =>
    unfold copyTo at ran
    split at ran
    · rename_i none
      cases ran
      exact ⟨0,fun _ => Nat.zero_le n,rfl,by simp [hostBytes,Glimpsed]⟩
    · cases ran
  | cons s rest ih =>
    unfold copyTo at ran
    split at ran
    · rename_i none
      cases ran
      exact ⟨0,fun _ => Nat.zero_le n,rfl,by simp [none,Glimpsed]⟩
    · rename_i some
      obtain ⟨_,w₁,observed,then₁⟩ := Prog.bind_success ran
      obtain ⟨now,w₂,looked,then₂⟩ := Prog.bind_success then₁
      obtain ⟨others,w₃,copied,then₃⟩ := Prog.bind_success then₂
      cases observed
      cases looked
      cases then₃
      obtain ⟨ticks,less,rfl,glimpsed⟩ := ih copied
      refine ⟨ticks + 1,fun filled => ?_,(Function.iterate_succ_apply _ ticks w).symm,?_⟩
      · have bound := less (fun s member => filled s (List.mem_cons_of_mem _ member))
        have positive := filled s List.mem_cons_self
        omega
      have bytes : (hostBytes (s::rest)).take n = List.range' s.ptr (min s.len n) ++
          (hostBytes rest).take (n - min s.len n) := by
        have split : hostBytes (s::rest) = List.range' s.ptr s.len ++ hostBytes rest := rfl
        rw [split,List.take_append,List.length_range']
        congr 1
        · rcases Nat.le_total n s.len with less | more
          · rw [List.take_range'_of_length_ge less,Nat.min_eq_right less]
          · rw [List.take_range'_of_length_le more,Nat.min_eq_left more]
        · congr 1
          omega
      rw [Glimpsed,bytes]
      refine List.rel_append ?_ (glimpsed.imp ?_)
      · simp only [World.bytesAt,List.flatMap_cons,List.flatMap_nil,List.append_nil,VolatileSlice.bytes]
        rw [List.forall₂_map_right_iff]
        exact List.forall₂_same.mpr (fun p _ => ⟨1,by omega,rfl⟩)
      · rintro p b ⟨i,bound,rfl⟩
        exact ⟨i + 1,by omega,rfl⟩

theorem Buffers.copyTo_later (slices : List VolatileSlice) (n : Nat) :
    Always (World.Later env) (copyTo env slices n) := by
  induction slices generalizing n with
  | nil =>
    unfold copyTo
    split
    · exact .pure _
    · exact .fail _
  | cons s rest ih =>
    unfold copyTo
    split
    · exact .pure _
    · exact .bind World.observe_later (fun _ => .bind .get (fun _ => .bind (ih _) (fun _ => .pure _)))

theorem Buffers.copyFrom_ages (slices : List VolatileSlice) (src : List UInt8) :
    Always World.Ages (copyFrom slices src) := by
  induction slices generalizing src with
  | nil =>
    unfold copyFrom
    split
    · exact .pure _
    · exact .fail _
  | cons s rest ih =>
    unfold copyFrom
    split
    · exact .pure _
    · exact .bind (.modify (fun w => Nat.le_refl w.ticks)) (fun _ => ih _)

theorem Buffers.range_filled {all part : List VolatileSlice} {skip len : Nat}
    (ranged : range all skip len = .ok part) : ∀ s ∈ part, 0 < s.len := by
  induction all generalizing skip len part with
  | nil =>
    unfold range at ranged
    split at ranged
    · cases ranged
      exact List.forall_mem_nil _
    · cases ranged
  | cons s rest ih =>
    have head_filled : ∀ offset n head, (if 0 < n then (s.subslice offset n).map (fun part => [part]) else some []) =
        some head → ∀ t ∈ head, 0 < t.len := by
      intro offset n head taken t member
      split at taken
      · rename_i positive
        obtain ⟨piece,cut,rfl⟩ := Option.map_eq_some_iff.mp taken
        unfold VolatileSlice.subslice at cut
        split at cut
        · cases cut
          rwa [List.mem_singleton.mp member]
        · cases cut
      · cases taken
        cases member
    simp only [range] at ranged
    split at ranged
    · cases ranged
    rename_i head taken
    split at ranged
    · cases ranged
      exact head_filled _ _ _ taken
    · cases later : range rest (skip - min skip s.len) (len - min (s.len - min skip s.len) len) with
      | error e =>
        rw [later] at ranged
        cases ranged
      | ok others =>
        rw [later] at ranged
        cases ranged
        intro t member
        rcases List.mem_append.mp member with first | second
        · exact head_filled _ _ _ taken t first
        · exact ih later t second

namespace Net

/-- How the first offer of a frame ended: the backend took it, or a copy was made
that it has declined so many times since. -/
inductive Fate
  | taken
  | deferred (snapshot : List UInt8) (declines : Nat) (sent : Bool)

/-- A chain of the transmit queue with the bytes that were offered at first. -/
structure Offer where
  chain : Chain
  moment : World
  frame : List UInt8
  fate : Fate

namespace Offer

def payload (o : Offer) : List UInt8 :=
  match o.fate with
  | .taken => o.frame
  | .deferred snapshot _ _ => snapshot

def done (o : Offer) : Bool :=
  match o.fate with
  | .taken => true
  | .deferred _ _ sent => sent

def actions (o : Offer) : List Action :=
  .popped 1 o.chain :: match o.fate with
    | .taken => [.send o.frame (some true),.completed 1 o.chain.head 0]
    | .deferred snapshot declines sent =>
      .send o.frame (some false) :: (List.replicate declines (.send snapshot (some false)) ++
        if sent then [.send snapshot (some true),.completed 1 o.chain.head 0] else [])

def addresses (o : Offer) : List Nat := (guestBytes o.chain.descriptors).drop HEADER

/-- The frame is what guest memory held behind the header when it was offered,
and a copy is what it held in the moments after. -/
structure Genuine (env : Env) (o : Offer) (bytes : List Nat) : Prop where
  backed : List.Forall₂ o.moment.view.Backs o.addresses bytes
  frame : o.frame = bytes.map o.moment.host
  snapshot : ∀ snapshot declines sent, o.fate = .deferred snapshot declines sent →
    ∃ ticks, ticks ≤ bytes.length ∧ Glimpsed env o.moment ticks bytes snapshot

def Undisturbed (env : Env) (o : Offer) (bytes : List Nat) : Prop :=
  ∀ p ∈ bytes, ∀ n ≤ bytes.length, ((World.tick env)^[n] o.moment).host p = o.moment.host p

theorem Genuine.payload_eq {o : Offer} {bytes : List Nat} (genuine : o.Genuine env bytes)
    (undisturbed : o.Undisturbed env bytes) : o.payload = o.frame := by
  cases outcome : o.fate with
  | taken => rw [payload,outcome]
  | deferred snapshot declines sent =>
    obtain ⟨ticks,bound,glimpsed⟩ := genuine.snapshot snapshot declines sent outcome
    rw [payload,outcome,genuine.frame]
    exact glimpsed.still (fun p member n less => undisturbed p member n (Nat.le_trans less bound))

end Offer

def accepted (history : List Action) : List (List UInt8) :=
  history.filterMap (fun
    | .send frame (some true) => some frame
    | _ => none)

def offered (history : List Action) : List Chain :=
  history.filterMap (fun
    | .popped queue chain => if queue = 1 then some chain else none
    | _ => none)

def onTx : Action → Bool
  | .popped queue _ => queue == 1
  | .completed queue _ _ => queue == 1
  | .send _ _ => true
  | _ => false

def txActions (history : List Action) : List Action := history.filter onTx

theorem filterMap_kind {α : Type} {kind : Action → Bool} {f : Action → Option α}
    (none : ∀ a, kind a = false → f a = none) (history : List Action) :
    (history.filter kind).filterMap f = history.filterMap f := by
  rw [List.filterMap_filter]
  congr 1
  funext a
  cases known : kind a with
  | true => rfl
  | false => exact (none a known).symm

/-- What is picked once of each part that is kept. -/
theorem filterMap_parts {α β : Type} {f : Action → Option α} {actions : β → List Action} {keep : β → Bool} {pick : β → α}
    (each : ∀ part, (actions part).filterMap f = if keep part then [pick part] else []) (parts : List β) :
    (parts.flatMap actions).filterMap f = (parts.filter keep).map pick := by
  induction parts with
  | nil => rfl
  | cons part rest ih =>
    rw [List.flatMap_cons,List.filterMap_append,each,ih,List.filter_cons]
    split <;> rfl

theorem accepted_tx (history : List Action) : accepted (txActions history) = accepted history := by
  refine filterMap_kind (fun a quiet => ?_) history
  cases a <;> first | rfl | cases quiet

theorem offered_tx (history : List Action) : offered (txActions history) = offered history := by
  refine filterMap_kind (fun a quiet => ?_) history
  cases a with
  | popped queue chain =>
    simp only [onTx,beq_eq_false_iff_ne] at quiet
    exact if_neg quiet
  | _ => rfl

theorem returned_tx (history : List Action) : returned 1 (txActions history) = returned 1 history := by
  refine filterMap_kind (fun a quiet => ?_) history
  cases a with
  | completed queue head len =>
    simp only [onTx,beq_eq_false_iff_ne] at quiet
    simp only [Action.give,if_neg quiet]
  | _ => rfl

theorem Offer.accepted_actions (o : Offer) : accepted o.actions = if o.done then [o.payload] else [] := by
  obtain ⟨chain,moment,frame,fate⟩ := o
  cases fate with
  | taken => rfl
  | deferred snapshot declines sent =>
    cases sent <;> simp [accepted,actions,done,payload,List.filterMap_append]

theorem Offer.offered_actions (o : Offer) : offered o.actions = [o.chain] := by
  obtain ⟨chain,moment,frame,fate⟩ := o
  cases fate with
  | taken => rfl
  | deferred snapshot declines sent =>
    cases sent <;> simp [offered,actions,List.filterMap_append]

theorem Offer.returned_actions (o : Offer) : returned 1 o.actions = if o.done then [o.chain.head] else [] := by
  obtain ⟨chain,moment,frame,fate⟩ := o
  cases fate with
  | taken => rfl
  | deferred snapshot declines sent =>
    cases sent <;> simp [returned,actions,done,List.filterMap_cons,List.filterMap_append,Action.give]

theorem offered_offers (offers : List Offer) : offered (offers.flatMap Offer.actions) = offers.map Offer.chain := by
  induction offers with
  | nil => rfl
  | cons o rest ih =>
    have split : offered (o.actions ++ rest.flatMap Offer.actions) =
        offered o.actions ++ offered (rest.flatMap Offer.actions) := List.filterMap_append
    rw [List.flatMap_cons,split,ih,o.offered_actions]
    rfl

/-- Every offer is done, but perhaps for the last one, whose frame is deferred. -/
inductive Standing {N : Type} (offers : List Offer) (d : Net N) : Prop
  | settled (idle : d.pendingTx = none) (done : ∀ o ∈ offers, o.done = true)
  | waiting (before : List Offer) (o : Offer) (declines : Nat) (split : offers = before ++ [o])
      (done : ∀ o ∈ before, o.done = true) (fate : o.fate = .deferred d.tx declines false)
      (pending : d.pendingTx = some o.chain.head)

theorem Standing.initial {N : Type} {offers : List Offer} {d : Net N} (standing : Standing offers d) :
    offers.filter Offer.done <+: offers := by
  cases standing with
  | settled idle done =>
    exact (List.filter_eq_self.mpr done).symm ▸ List.prefix_refl offers
  | waiting before o declines split done fate pending =>
    have unsent : o.done = false := by rw [Offer.done,fate]
    rw [split,List.filter_append,List.filter_eq_self.mpr done,List.filter_cons_of_neg (by rw [unsent]; nofun),
      List.filter_nil,List.append_nil]
    exact List.prefix_append _ _

/-- What a standing history tells: the accepted frames are the first payloads, and
the chains of just these frames went to the used ring. -/
theorem Standing.delivered {N : Type} {offers : List Offer} {d : Net N} {history : List Action}
    (standing : Standing offers d) (actions : txActions history = offers.flatMap Offer.actions) :
    offered history = offers.map Offer.chain ∧ accepted history <+: offers.map Offer.payload ∧
      returned 1 history = (offers.map (fun o => o.chain.head)).take (accepted history).length := by
  have frames : accepted history = (offers.filter Offer.done).map Offer.payload := by
    rw [← accepted_tx,actions]
    exact filterMap_parts Offer.accepted_actions offers
  have heads : returned 1 history = (offers.filter Offer.done).map (fun o => o.chain.head) := by
    rw [← returned_tx,actions]
    exact filterMap_parts Offer.returned_actions offers
  have first := standing.initial
  refine ⟨?_,?_,?_⟩
  · rw [← offered_tx,actions,offered_offers]
  · rw [frames]
    exact first.map Offer.payload
  · rw [heads,frames,List.length_map]
    exact (List.prefix_iff_eq_take.mp (first.map _)).trans (by rw [List.length_map])

end Net
end Devices
end WVmm
