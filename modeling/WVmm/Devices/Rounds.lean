import WVmm.Devices.Receive
import WVmm.Devices.Apart

/-! A pass over the receive queue that returns, as a list of rounds: each takes a
chain and asks the backend for a frame, and then either delivers the frame into the
chain or gives the chain back and ends the pass. -/
namespace WVmm.Devices
open Lib.Effect Lib.Stores

/-- A backend that always answers with no packet, and then leaves the buffer as it
is, or with a frame of legal length that it stores at the start of the buffer. -/
def NetDevice.Delivers {N : Type} [NetDevice N] (backend : N) (max : Nat) : Prop :=
  ∀ now, Net.Calls backend now → ∀ buffer host, (hostBytes buffer).Nodup → max ≤ (hostBytes buffer).length →
    ∃ next, NetDevice.recv now buffer host = (.ok none,next,host) ∨
      ∃ frame : List UInt8, 14 ≤ frame.length ∧ frame.length ≤ max ∧
        NetDevice.recv now buffer host = (.ok (some frame.length),next,store host (hostBytes buffer) frame)

theorem NetDevice.Delivers.later {N : Type} [NetDevice N] {backend now : N} {max : Nat}
    (delivers : NetDevice.Delivers backend max) (calls : Net.Calls backend now) : NetDevice.Delivers now max :=
  fun next calls' => delivers next (calls.trans calls')

namespace Net

variable {N : Type} {env : Env}

/-- What the backend did with the buffer it was handed, which is the guest buffers
behind the header or the private buffer in a memory of its own: it had no frame, or
stored this one at the start of it. -/
def Fetches [NetDevice N] (slices buffer : List VolatileSlice) (frame : Option (List UInt8)) (c : Cell (Net N))
    (next : N) : Prop :=
  ∃ memory : Host,
    ((memory = c.world.host ∧ hostBytes buffer = ((hostBytes slices).drop HEADER).take (c.device.rx.length - HEADER)) ∨
      (memory = bufferHost c.device.rx ∧ buffer = ownBuffer c.device)) ∧
    NetDevice.recv c.device.backend buffer memory =
      (.ok (frame.map List.length),next,frame.elim memory (store memory (hostBytes buffer)))

/-- One chain of the receive queue with the answer of the backend. The position is
the index of the chain in the available ring, on 16 bits. -/
structure Round where
  position : Nat
  chain : Chain
  capacity : Nat
  slices : List VolatileSlice
  buffer : List VolatileSlice
  frame : Option (List UInt8)

namespace Round

def used (r : Round) : Option Nat := r.frame.map (fun frame => usedLength r.capacity frame.length)

def actions (r : Round) : List Action :=
  [.popped 0 r.chain,.recv r.buffer (some (r.frame.map List.length))] ++
    (r.used.map (fun len => .completed 0 r.chain.head len)).toList

/-- A round from its first state to its last: without a frame the queues are as they
were and the guest alone has moved; with a frame the chain is filled and completed. -/
structure Made [NetDevice N] (env : Env) (max : Nat) (r : Round) (c c' : Cell (Net N)) : Prop where
  found : ∃ q, c.queues.rings[0]? = some q ∧ q.nextAvail = r.position
  counted : Buffers.totalLength r.chain.descriptors = some r.capacity
  sliced : Buffers.slices env.vm c.world.view r.chain.descriptors = .ok r.slices
  trace : c'.trace = c.trace ++ r.actions
  effect : ∃ popped next, (Queues.pop env 0).run c = (.ok (some r.chain),popped) ∧
    Fetches r.slices r.buffer r.frame popped next ∧ c'.device.backend = next ∧
    match r.frame with
    | none => c'.queues = c.queues ∧ c'.world = popped.world ∧ World.Later env c.world c'.world
    | some frame => 14 ≤ frame.length ∧ frame.length ≤ max ∧
        Fills env r.chain r.capacity r.slices frame popped (.ok true,c')

/-- The length of the frame; a round without one is never asked for it. -/
def length (r : Round) : Nat := (r.frame.map List.length).getD 0

def fed (rounds : List Round) : List Round := rounds.filter (·.frame.isSome)

/-- Each round takes the chain after those that were fed before it. -/
def Numbered : Nat → List Round → Prop
  | _, [] => True
  | n, r::rest => r.position = n % 65536 ∧ Numbered (n + (fed [r]).length) rest

theorem fed_cons (r : Round) (rest : List Round) : fed (r::rest) = fed [r] ++ fed rest := by
  rw [← List.singleton_append,fed,List.filter_append]
  rfl

theorem Numbered.append {n : Nat} {rounds more : List Round} (first : Numbered n rounds)
    (second : Numbered (n + (fed rounds).length) more) : Numbered n (rounds ++ more) := by
  induction rounds generalizing n with
  | nil => exact second
  | cons r rest ih =>
    refine ⟨first.1,ih first.2 ?_⟩
    rwa [fed_cons,List.length_append,← Nat.add_assoc] at second

/-- The frames go to the chains of the ring one by one. -/
theorem Numbered.positions {n : Nat} {rounds : List Round} (numbered : Numbered n rounds) :
    (fed rounds).map position = (List.range' n (fed rounds).length).map (· % 65536) := by
  induction rounds generalizing n with
  | nil => rfl
  | cons r rest ih =>
    obtain ⟨here,later⟩ := numbered
    rw [fed_cons,List.map_append,ih later]
    cases known : r.frame with
    | none =>
      have empty : fed [r] = [] := by simp [fed,known]
      rw [empty]
      rfl
    | some frame =>
      have single : fed [r] = [r] := by simp [fed,known]
      rw [single,List.length_append,List.length_singleton,Nat.add_comm 1,List.range'_succ,List.map_cons,List.map_cons,here]
      rfl

end Round

def Stands (n : Nat) (rings : List Queue) : Prop :=
  ∀ q, rings[0]? = some q → q.nextAvail = n % 65536 ∧ q.nextUsed = n % 65536

/-- Rounds one after another; the last look at the ring may find nothing. -/
inductive Receives [NetDevice N] (env : Env) (max : Nat) : Cell (Net N) → List Round → Cell (Net N) → Prop
  | done (c : Cell (Net N)) : Receives env max c [] c
  | empty {c c' : Cell (Net N)} : Cell.Waits env c c' → Receives env max c [] c'
  | round {c c' c'' : Cell (Net N)} {r : Round} {rest : List Round} :
      r.Made env max c c' → Receives env max c' rest c'' → Receives env max c (r::rest) c''

theorem Receives.trace [NetDevice N] {max : Nat} {c c' : Cell (Net N)} {rounds : List Round}
    (receives : Receives env max c rounds c') : c'.trace = c.trace ++ rounds.flatMap Round.actions := by
  induction receives with
  | done c => exact (List.append_nil _).symm
  | empty waits =>
    rw [waits.2]
    exact (List.append_nil _).symm
  | round made _ ih => rw [ih,made.trace,List.flatMap_cons,List.append_assoc]

/-- A chain that was taken and given back leaves its queue as it was. -/
theorem giveBack_success {c c' : Cell (Net N)} {q : Queue} {queues : Queues} {more : Bool}
    (found : queues.rings[0]? = some q) (small : q.nextAvail < 65536)
    (taken : c.queues = {queues with rings := queues.rings.set 0 {q with nextAvail := (q.nextAvail + 1) % 65536}})
    (ran : giveBack.run c = (.ok more,c')) : more = false ∧ c' = {c with queues := queues} := by
  have bound := (List.getElem?_eq_some_iff.mp found).1
  have here : c.queues.rings[0]? = some {q with nextAvail := (q.nextAvail + 1) % 65536} := by
    rw [taken]
    exact List.getElem?_set_self bound
  rw [giveBack,Prog.run_bind,Queues.ring_run here] at ran
  cases ran
  refine ⟨rfl,?_⟩
  have back : (65535 + (q.nextAvail + 1) % 65536) % 65536 = q.nextAvail := by omega
  have same : queues.rings.set 0 q = queues.rings := by
    obtain ⟨bound,rfl⟩ := List.getElem?_eq_some_iff.mp found
    exact List.set_getElem_self bound
  simp only [Cell.setRing,taken,back,List.set_set]
  rw [same]

theorem Filled.completed (lawful : env.vq.Lawful) {chain : Chain} {capacity : Nat} {slices buffer : List VolatileSlice}
    {frame : List UInt8} {next : N} {c c' : Cell (Net N)} {more : Bool}
    (filled : Filled env chain capacity slices frame buffer next c (.ok more,c')) :
    more = true ∧ c'.device.rx.length = c.device.rx.length ∧ c'.device.backend = next ∧
      c'.trace = c.trace ++ [.recv buffer (some (some frame.length)),
        .completed 0 chain.head (usedLength capacity frame.length)] ∧
      ∃ q, c.queues.rings[0]? = some q ∧
        c'.queues.rings = c.queues.rings.set 0 {q with nextUsed := (q.nextUsed + 1) % 65536} := by
  obtain ⟨d,backend,size,_,_,ran⟩ := filled
  obtain ⟨_,c₁,completed,last⟩ := Prog.bind_success ran.symm
  cases last
  obtain ⟨q,found,device,rings,_,trace⟩ := complete_success lawful completed
  refine ⟨rfl,?_,?_,?_,q,found,rings⟩
  · rw [device]
    exact size
  · rw [device]
    exact backend
  · rw [trace,List.append_assoc]
    rfl

def obtained (history : List Action) : List Nat :=
  history.filterMap (fun
    | .recv _ (some (some len)) => some len
    | _ => none)

def posted (history : List Action) : List (Nat × Nat) :=
  history.filterMap (fun
    | .completed queue head len => if queue = 0 then some (head,len) else none
    | _ => none)

theorem obtained_rounds {history : List Action} {rounds : List Round}
    (actions : rxActions history = rounds.flatMap Round.actions) :
    obtained history = (Round.fed rounds).map Round.length := by
  have rx : obtained (rxActions history) = obtained history := by
    refine filterMap_kind (fun a quiet => ?_) history
    cases a <;> first | rfl | cases quiet
  rw [← rx,actions]
  refine filterMap_parts (fun r => ?_) rounds
  obtain ⟨position,chain,capacity,slices,buffer,frame⟩ := r
  cases frame <;> rfl

theorem posted_rounds {history : List Action} {rounds : List Round}
    (actions : rxActions history = rounds.flatMap Round.actions) :
    posted history = (Round.fed rounds).map (fun r => (r.chain.head,usedLength r.capacity r.length)) := by
  have rx : posted (rxActions history) = posted history := by
    refine filterMap_kind (fun a quiet => ?_) history
    cases a with
    | completed queue head len =>
      simp only [onRx,beq_eq_false_iff_ne] at quiet
      exact if_neg quiet
    | _ => rfl
  rw [← rx,actions]
  refine filterMap_parts (fun r => ?_) rounds
  obtain ⟨position,chain,capacity,slices,buffer,frame⟩ := r
  cases frame <;> rfl

variable [NetDevice N]

/-- A chain that is served has writable descriptors in guest memory. -/
theorem recvChain_checked {c c' : Cell (Net N)} {chain : Chain} {more : Bool}
    (ran : (recvChain env chain).run c = (.ok more,c')) :
    chain.descriptors.all (·.isWriteOnly) = true ∧ ∃ capacity slices,
      Buffers.totalLength chain.descriptors = some capacity ∧
      Buffers.slices env.vm c.world.view chain.descriptors = .ok slices := by
  obtain ⟨_,_,required,then₁⟩ := Prog.bind_success ran
  obtain ⟨writable,rfl⟩ := Prog.require_success required
  split at then₁
  · cases then₁
  rename_i capacity counted
  obtain ⟨_,_,looked,then₂⟩ := Prog.bind_success then₁
  cases looked
  obtain ⟨slices,_,sliced,_⟩ := Prog.bind_success then₂
  obtain ⟨found,_⟩ := Prog.ofExcept_success sliced
  exact ⟨writable,capacity,slices,counted,found⟩

def Refused (env : Env) (chain : Chain) (buffer : List VolatileSlice) (next : N) (c : Cell (Net N)) : Prop :=
  ∃ d, d.backend = next ∧ d.rx.length = c.device.rx.length ∧ d.pendingTx = c.device.pendingTx ∧ d.tx = c.device.tx ∧
    (recvChain env chain).run c =
      giveBack.run {c with device := d, trace := c.trace ++ [.recv buffer (some none)]}

/-- What asking the backend for a chain comes to. -/
theorem recvChain_outcome (packages : env.vm.Lawful) {max capacity : Nat} {c : Cell (Net N)} {chain : Chain}
    {slices : List VolatileSlice} (delivers : NetDevice.Delivers c.device.backend max)
    (room : c.device.rx.length = HEADER + max) (writable : chain.descriptors.all (·.isWriteOnly) = true)
    (counted : Buffers.totalLength chain.descriptors = some capacity)
    (found : Buffers.slices env.vm c.world.view chain.descriptors = .ok slices) :
    ∃ buffer next, (Fetches slices buffer none c next ∧ Refused env chain buffer next c) ∨
      ∃ frame : List UInt8, 14 ≤ frame.length ∧ frame.length ≤ max ∧ Fetches slices buffer (some frame) c next ∧
        Filled env chain capacity slices frame buffer next c ((recvChain env chain).run c) := by
  have length : (hostBytes slices).length = capacity := by
    rw [Buffers.totalLength_eq counted]
    exact (Buffers.slices_backed packages found).length_eq.symm
  have header : HEADER ≤ c.device.rx.length := by omega
  have path := recvChain_path writable counted found
  cases taken : decide (capacity ≥ c.device.rx.length) && !Buffers.overlaps slices with
  | false =>
    rw [taken] at path
    obtain ⟨backend,none | ⟨frame,long,short,some⟩⟩ := delivers c.device.backend .refl (ownBuffer c.device)
      (bufferHost c.device.rx) (by rw [ownBuffer_bytes]; exact List.nodup_range')
      (by rw [ownBuffer_bytes,List.length_range']; omega)
    · refine ⟨ownBuffer c.device,backend,.inl ⟨⟨_,.inr ⟨rfl,rfl⟩,none⟩,?_⟩⟩
      rw [fillChain_empty rfl (backendRecv_private none)] at path
      exact ⟨{c.device with backend := backend, rx := _},rfl,by simp,rfl,rfl,path⟩
    · refine ⟨ownBuffer c.device,backend,.inr ⟨frame,long,short,⟨_,.inr ⟨rfl,rfl⟩,some⟩,?_⟩⟩
      rw [path]
      exact filled_own some ⟨long,by omega⟩ header length
  | true =>
    rw [taken] at path
    rw [Bool.and_eq_true,decide_eq_true_eq,Bool.not_eq_true'] at taken
    have apart := Buffers.overlaps_sound taken.2
    obtain ⟨payload,ranged,distinct,holds,bytes⟩ := direct_payload header length taken.1 apart
    obtain ⟨backend,none | ⟨frame,long,short,some⟩⟩ := delivers c.device.backend .refl payload c.world.host distinct
      (by omega)
    · refine ⟨payload,backend,.inl ⟨⟨_,.inl ⟨rfl,bytes⟩,none⟩,?_⟩⟩
      rw [fillChain_empty ranged (backendRecv_guest none)] at path
      exact ⟨{c.device with backend := backend},rfl,rfl,rfl,rfl,path⟩
    · refine ⟨payload,backend,.inr ⟨frame,long,short,⟨_,.inl ⟨rfl,bytes⟩,some⟩,?_⟩⟩
      rw [path]
      exact filled_direct ranged bytes some ⟨long,by omega⟩ header length taken.1 apart

/-- The rounds of a pass that returns. -/
theorem receiveLoop_rounds (packages : env.vm.Lawful) (lawful : env.vq.Lawful) {max : Nat}
    (budget : Nat) {n : Nat} {c c' : Cell (Net N)} (delivers : NetDevice.Delivers c.device.backend max)
    (buffer : c.device.rx.length = HEADER + max) (stands : Stands n c.queues.rings)
    (ran : (receiveLoop env budget).run c = (.ok (),c')) :
    ∃ rounds, Receives env max c rounds c' ∧ Round.Numbered n rounds ∧
      Stands (n + (Round.fed rounds).length) c'.queues.rings ∧ c'.device.rx.length = c.device.rx.length := by
  induction budget generalizing n c with
  | zero =>
    cases ran
    exact ⟨[],.done _,trivial,stands,rfl⟩
  | succ budget ih =>
    unfold receiveLoop at ran
    obtain ⟨popped,c₁,taken,then₁⟩ := Prog.bind_success ran
    obtain ⟨later,device,effect⟩ := Queues.pop_success lawful taken
    cases popped with
    | none =>
      cases then₁
      obtain ⟨queues,trace⟩ := effect
      refine ⟨[],.empty ⟨later,?_⟩,trivial,by rw [queues]; exact stands,by rw [device]⟩
      obtain ⟨d',queues',w',trace'⟩ := c'
      cases device
      cases queues
      cases trace
      rfl
    | some chain =>
      obtain ⟨trace,q,found,queues⟩ := effect
      have here := stands q found
      obtain ⟨more,c₂,received,then₂⟩ := Prog.bind_success then₁
      obtain ⟨writable,capacity,slices,counted,sliced⟩ := recvChain_checked received
      obtain ⟨given,next,outcome⟩ := recvChain_outcome packages (by rw [device]; exact delivers)
        (by rw [device]; exact buffer) writable counted sliced
      rw [later.view] at sliced
      rcases outcome with ⟨fetches,d,backend,size,_,_,back⟩ | ⟨frame,long,short,fetches,filled⟩
      · have small : q.nextAvail < 65536 := by
          rw [here.1]
          exact Nat.mod_lt _ (by decide)
        rw [received] at back
        obtain ⟨rfl,rfl⟩ := giveBack_success (c := {c₁ with device := d, trace := c₁.trace ++ [.recv given (some none)]})
          found small queues back.symm
        have made : (⟨n % 65536,chain,capacity,slices,given,none⟩ : Round).Made env max c
            {c₁ with device := d, queues := c.queues, trace := c₁.trace ++ [.recv given (some none)]} := by
          refine ⟨⟨q,found,here.1⟩,counted,sliced,?_,c₁,next,taken,fetches,backend,rfl,rfl,later⟩
          change c₁.trace ++ [.recv given (some none)] = _
          rw [trace,List.append_assoc]
          rfl
        cases then₂
        refine ⟨_,.round made (.done _),⟨rfl,trivial⟩,stands,?_⟩
        rw [← device]
        exact size
      · rw [received] at filled
        obtain ⟨rfl,size,backend,log,q',found',rings⟩ := filled.completed lawful
        have made : (⟨n % 65536,chain,capacity,slices,given,some frame⟩ : Round).Made env max c c₂ := by
          refine ⟨⟨q,found,here.1⟩,counted,sliced,?_,c₁,next,taken,fetches,backend,long,short,filled.fills⟩
          rw [log,trace,List.append_assoc]
          rfl
        have bound := (List.getElem?_eq_some_iff.mp found).1
        have advanced : Stands (n + 1) c₂.queues.rings := by
          intro r present
          rw [rings] at present
          rw [queues] at found' present
          cases (List.getElem?_set_self bound).symm.trans found'
          cases (List.getElem?_set_self (by rw [List.length_set]; exact bound)).symm.trans present
          dsimp only
          rw [here.1,here.2]
          exact ⟨by omega,by omega⟩
        have calls := ((recvChain_aside chain).ran received).device.backend
        rw [device] at calls
        obtain ⟨rest,receives,numbered,ends,room⟩ := ih (delivers.later calls) (by rw [size,device]; exact buffer) advanced then₂
        refine ⟨_,.round made receives,⟨rfl,numbered⟩,?_,by rw [room,size,device]⟩
        rw [Round.fed_cons,List.length_append,← Nat.add_assoc]
        exact ends

end Net
end WVmm.Devices
