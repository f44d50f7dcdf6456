import WVmm.Devices.Published
import WVmm.Devices.Rounds

/-! Passes of a net device over queues that hold valid chains return: what the driver
owes at each turn is a fact about guest memory, and nothing else can go wrong. -/
namespace WVmm.Devices
open Lib.Effect

/-- A backend that answers every offer, also after other calls. -/
def NetDevice.Answers {N : Type} [NetDevice N] (backend : N) : Prop :=
  ∀ now, Net.Calls backend now → ∀ frame host, ∃ sent next, NetDevice.send now frame host = (.ok sent,next)

theorem NetDevice.Answers.later {N : Type} [NetDevice N] {backend now : N} (answers : NetDevice.Answers backend)
    (calls : Net.Calls backend now) : NetDevice.Answers now := fun next calls' => answers next (calls.trans calls')

namespace Net

variable {N : Type} {env : Env}

/-- Buffers that the device may read as a frame: a header that asks for no offload,
and then as many bytes as a frame has. -/
structure Sendable (max : Nat) (chain : Chain) (w : World) : Prop where
  readable : chain.descriptors.all (fun d => !d.isWriteOnly) = true
  long : HEADER + 14 ≤ (guestBytes chain.descriptors).length
  short : (guestBytes chain.descriptors).length ≤ HEADER + max
  plain : ∀ a ∈ (guestBytes chain.descriptors).take 2, ∀ p, w.view.Backs a p → w.host p = 0

structure Writable (chain : Chain) (_ : World) : Prop where
  writable : chain.descriptors.all (·.isWriteOnly) = true
  counted : (guestBytes chain.descriptors).length < 2^64

variable [NetDevice N]

def transmitTurn (env : Env) : Prog (Cell (Net N)) (Failure DeviceError) Bool := do
  let c ← Prog.get
  match c.device.pendingTx with
  | some head => retry env head
  | none => Queues.serveNext env 1 (sendChain env)

def receiveTurn (env : Env) : Prog (Cell (Net N)) (Failure DeviceError) Bool := Queues.serveNext env 0 (recvChain env)

theorem transmitLoop_turns (budget : Nat) (c : Cell (Net N)) :
    (transmitLoop env budget).run c = (turns (transmitTurn env) budget).run c := by
  induction budget generalizing c with
  | zero => rfl
  | succ budget ih =>
    rw [turns_step ih,transmitLoop,transmitTurn]
    simp only [Prog.run_bind,Prog.run_get]
    cases c.device.pendingTx with
    | some head => rfl
    | none =>
      simp only [Prog.run_bind,Queues.serveNext]
      rcases (Queues.pop env 1).run c with ⟨_ | _ | chain,c'⟩ <;> rfl

theorem receiveLoop_turns (budget : Nat) (c : Cell (Net N)) :
    (receiveLoop env budget).run c = (turns (receiveTurn env) budget).run c := by
  induction budget generalizing c with
  | zero => rfl
  | succ budget ih =>
    rw [turns_step ih,receiveLoop,receiveTurn]
    simp only [Prog.run_bind,Queues.serveNext]
    rcases (Queues.pop env 0).run c with ⟨_ | _ | chain,c'⟩ <;> rfl

/-- What the driver owes a turn of a transmit pass: a deferred frame goes back to a
queue in guest memory, and else the next chain is one that can be sent, if there is
one. -/
def Transmittable (env : Env) (max : Nat) (c : Cell (Net N)) : Prop :=
  match c.device.pendingTx with
  | some _ => ∀ q, c.queues.rings[1]? = some q → q.ready = true → Queues.Placed env c.world.view q
  | none => Queues.Supplied env 1 (Sendable max) ((transmitTurn env).run c).2.world.ticks c

/-- What the driver owes a turn of a receive pass: the next chain is one that can be
filled, if there is one. -/
def Receivable (env : Env) (c : Cell (Net N)) : Prop :=
  Queues.Supplied env 0 Writable ((receiveTurn env).run c).2.world.ticks c

theorem header_plain (packages : env.vm.Lawful) {max last : Nat} {chain : Chain} {seen w w' : World}
    {slices : List VolatileSlice} {header : List UInt8} (during : Queues.During env seen last w)
    (fits : ∀ x, Queues.During env seen last x → Sendable max chain x)
    (found : Buffers.slices env.vm w.view chain.descriptors = .ok slices)
    (read : (Buffers.copyTo env slices HEADER).run w = (.ok header,w')) (ends : w'.ticks ≤ last) :
    header.getD 0 0 = 0 ∧ header.getD 1 0 = 0 := by
  obtain ⟨ticks,_,rfl,glimpsed⟩ := Buffers.copyTo_glimpses read
  have backed := Buffers.slices_backed packages found
  obtain ⟨same,each⟩ := List.forall₂_iff_get.mp backed
  obtain ⟨length,bytes⟩ := List.forall₂_iff_get.mp glimpsed
  have long := (fits w during).long
  have size : header.length = HEADER := by
    rw [← length,List.length_take]
    omega
  have zero : ∀ i < 2, header.getD i 0 = 0 := by
    intro i less
    have inside : i < header.length := by rw [size]; exact Nat.lt_trans less (by decide)
    have listed : i < ((hostBytes slices).take HEADER).length := by rw [length]; exact inside
    have place : i < (guestBytes chain.descriptors).length := by unfold HEADER at long; omega
    obtain ⟨n,bound,value⟩ := bytes i listed inside
    have moment : World.Later env ((World.tick env)^[n] w) ((World.tick env)^[ticks] w) := by
      refine ⟨ticks - n,?_⟩
      rw [← Function.iterate_add_apply,Nat.sub_add_cancel bound]
    have here : Queues.During env seen last ((World.tick env)^[n] w) :=
      during.next ⟨n,rfl⟩ (Nat.le_trans moment.ages ends)
    have backs := each i place (by rw [← same]; exact place)
    have view : ((World.tick env)^[n] w).view = w.view := World.Later.view ⟨n,rfl⟩
    rw [List.getD_eq_getElem?_getD,List.getElem?_eq_getElem inside,Option.getD_some]
    rw [List.get_eq_getElem,List.get_eq_getElem,List.getElem_take] at value
    refine value.trans ?_
    refine (fits _ here).plain _ ?_ _ (view ▸ backs)
    exact List.mem_take_iff_getElem.mpr ⟨i,by omega,rfl⟩
  exact ⟨zero 0 (by decide),zero 1 (by decide)⟩

theorem backendSend_answers {c : Cell (Net N)} (answers : NetDevice.Answers c.device.backend) (frame : List VolatileSlice)
    (host : Host) : ∃ sent next, (backendSend frame host).run c = (.ok sent,answered next (World.bytesAt host frame) sent c) := by
  obtain ⟨sent,next,same⟩ := answers c.device.backend .refl frame host
  refine ⟨sent,next,?_⟩
  simp only [backendSend,Prog.run_bind,Prog.run_get,Prog.run_modify,Cell.record,Prog.run_ofExcept,same]
  rfl

section Transmits
variable {c : Cell (Net N)} {q : Queue}

theorem retry_returns (covering : env.Covering) (answers : NetDevice.Answers c.device.backend)
    (found : c.queues.rings[1]? = some q) (used : c.world.view.Covers (q.usedRing,6 + q.size * 8)) {head : Nat}
    (inside : head < q.size) : ∃ sent c', (retry env head).run c = (.ok sent,c') := by
  obtain ⟨sent,next,offered⟩ := backendSend_answers answers [⟨0,c.device.tx.length⟩] (bufferHost c.device.tx)
  rw [retry,Prog.run_bind,Prog.run_get]
  simp only [Prog.run_bind,offered]
  cases sent with
  | false => exact ⟨false,_,rfl⟩
  | true =>
    simp only [if_true,Prog.run_bind,Prog.run_modify]
    obtain ⟨c',completed⟩ := complete_covered (c := {(answered next _ true c) with device := _}) covering found used
      inside 0
    rw [completed]
    exact ⟨true,c',rfl⟩

theorem offerFrame_returns (covering : env.Covering) (answers : NetDevice.Answers c.device.backend)
    (found : c.queues.rings[1]? = some q) (used : c.world.view.Covers (q.usedRing,6 + q.size * 8)) {chain : Chain}
    (inside : chain.head < q.size) {slices : List VolatileSlice} {total : Nat} (long : HEADER ≤ total)
    (sized : (hostBytes slices).length = total) {header : List UInt8}
    (plain : header.getD 0 0 = 0 ∧ header.getD 1 0 = 0) :
    ∃ sent c', (offerFrame env chain total slices header).run c = (.ok sent,c') := by
  obtain ⟨payload,ranged,bytes⟩ := @Buffers.range_covers slices HEADER (total - HEADER) (by omega)
  have length : (hostBytes payload).length = total - HEADER := by
    rw [bytes,List.length_take,List.length_drop,sized,Nat.min_self]
  rw [offerFrame,Prog.run_guard,if_pos (by rw [plain.1,plain.2]; decide)]
  simp only [ranged,Except.mapError,Prog.run_bind,Prog.run_ofExcept,Prog.run_get]
  have observed : (Cell.onWorld (World.observe env) : Prog (Cell (Net N)) (Failure DeviceError) Unit).run c =
      (.ok (),{c with world := c.world.tick env}) := rfl
  obtain ⟨sent,next,offered⟩ := @backendSend_answers N _ {c with world := c.world.tick env} answers payload
    (c.world.tick env).host
  simp only [observed,offered]
  cases sent with
  | true =>
    obtain ⟨c',completed⟩ := complete_covered covering (c := answered next
      (World.bytesAt (c.world.tick env).host payload) true {c with world := c.world.tick env}) found used inside 0
    simp only [if_true,Prog.run_bind,completed]
    exact ⟨true,c',rfl⟩
  | false =>
    obtain ⟨tx,w,copied⟩ := @Block.copyTo_succeeds env payload (total - HEADER) (by omega) (c.world.tick env)
    have taken := Cell.onWorld_run (c := answered next (World.bytesAt (c.world.tick env).host payload) false
      {c with world := c.world.tick env}) copied
    simp only [Bool.false_eq_true,if_false,Prog.run_bind,taken]
    exact ⟨false,_,rfl⟩

theorem sendChain_returns (packages : env.vm.Lawful) (rings : env.Rings) (answers : NetDevice.Answers c.device.backend)
    {max : Nat} (room : c.device.rx.length = HEADER + max) (small : HEADER + max < 2^64)
    (found : c.queues.rings[1]? = some q) (used : c.world.view.Covers (q.usedRing,6 + q.size * 8)) {chain : Chain}
    (inside : chain.head < q.size) (covered : ∀ d ∈ chain.descriptors, c.world.view.Covers (d.addr,d.len))
    {seen : World} {last : Nat} (later : World.Later env seen c.world)
    (fits : ∀ w, Queues.During env seen last w → Sendable max chain w)
    (ends : ((sendChain env chain).run c).2.world.ticks ≤ last) :
    ∃ sent c', (sendChain env chain).run c = (.ok sent,c') := by
  have during : Queues.During env seen last c.world :=
    ⟨later,Nat.le_trans (@sendChain_aside N env _ chain c).ages ends⟩
  obtain ⟨readable,long,short,_⟩ := fits c.world during
  have counted := Buffers.totalLength_bytes (Nat.lt_of_le_of_lt short small)
  obtain ⟨slices,sliced⟩ := slices_covered rings.accesses covered
  have sized : (hostBytes slices).length = (guestBytes chain.descriptors).length :=
    (Buffers.slices_backed packages sliced).length_eq.symm
  obtain ⟨header,w,read⟩ := @Block.copyTo_succeeds env slices HEADER (by omega) c.world
  have onward : (sendChain env chain).run c =
      (offerFrame env chain (guestBytes chain.descriptors).length slices header).run {c with world := w} := by
    rw [sendChain,Prog.run_guard,if_pos readable,counted]
    dsimp only
    rw [Prog.run_bind,Prog.run_get]
    dsimp only
    rw [Prog.run_guard,if_pos ⟨long,by rw [room]; exact short⟩,sliced,Prog.run_bind,Except.mapError,Prog.run_ofExcept]
    dsimp only
    rw [Prog.run_bind,Cell.onWorld_run read]
    rfl
  rw [onward] at ends ⊢
  have finished : w.ticks ≤ last :=
    Nat.le_trans (@offerFrame_aside N env _ chain _ slices header {c with world := w}).ages ends
  have view : w.view = c.world.view := (Buffers.copyTo_later slices HEADER).ran read |>.view
  have plain := header_plain packages during fits sliced read finished
  exact offerFrame_returns (c := {c with world := w}) rings.covering answers found (view ▸ used) inside (by omega) sized
    plain

structure Sending (max : Nat) (c : Cell (Net N)) : Prop where
  room : c.device.rx.length = HEADER + max
  answers : NetDevice.Answers c.device.backend
  ring : ∃ q, c.queues.rings[1]? = some q ∧ q.ready = true ∧ ∀ head, c.device.pendingTx = some head → head < q.size

theorem Sending.after {max : Nat} {c' : Cell (Net N)} (sending : Sending max c) (aside : Aside onRx 0 SameRx c c')
    (ring : ∃ q, c'.queues.rings[1]? = some q ∧ q.ready = true ∧ ∀ head, c'.device.pendingTx = some head → head < q.size) :
    Sending max c' := ⟨aside.device.room.trans sending.room,sending.answers.later aside.device.backend,ring⟩

theorem transmitTurn_retries (lawful : env.vq.Lawful) (rings : env.Rings) {max head : Nat}
    (sending : Sending max c) (pending : c.device.pendingTx = some head) (fair : Transmittable env max c) :
    ∃ more c', (transmitTurn env).run c = (.ok more,c') ∧ Sending max c' := by
  obtain ⟨q,found,ready,held⟩ := sending.ring
  have turn : (transmitTurn env).run c = (retry env head).run c := by
    rw [transmitTurn,Prog.run_bind,Prog.run_get]
    simp only [pending]
  rw [Transmittable,pending] at fair
  obtain ⟨sent,c',ran⟩ := retry_returns rings.covering sending.answers found (fair q found ready).used (held head pending)
  refine ⟨sent,c',turn.trans ran,sending.after ((retry_aside head).ran ran) ?_⟩
  obtain ⟨backend,ended⟩ := retry_success ran
  cases sent with
  | false =>
    rw [if_neg (by decide)] at ended
    rw [ended]
    exact ⟨q,found,ready,held⟩
  | true =>
    rw [if_pos rfl] at ended
    obtain ⟨q',found',device,rings',_⟩ := complete_success lawful ended
    cases found.symm.trans found'
    refine ⟨{q with nextUsed := (q.nextUsed + 1) % 65536},?_,ready,fun head pending => ?_⟩
    · rw [rings']
      exact List.getElem?_set_self (List.getElem?_eq_some_iff.mp found').1
    · rw [device] at pending
      cases pending

theorem transmitTurn_sends (packages : env.vm.Lawful) (lawful : env.vq.Lawful) (rings : env.Rings) {max : Nat}
    (small : HEADER + max < 2^64) (sending : Sending max c) (idle : c.device.pendingTx = none)
    (fair : Transmittable env max c) : ∃ more c', (transmitTurn env).run c = (.ok more,c') ∧ Sending max c' := by
  obtain ⟨q,found,ready,_⟩ := sending.ring
  have bound := (List.getElem?_eq_some_iff.mp found).1
  have turn : (transmitTurn env).run c = (Queues.serveNext env 1 (sendChain env)).run c := by
    rw [transmitTurn,Prog.run_bind,Prog.run_get]
    simp only [idle]
  rw [Transmittable,idle,turn] at fair
  obtain ⟨popped,c₁,taken,none,some⟩ := Queues.serveNext_supplied lawful rings found
    (fun chain c => (sendChain_aside chain c).ages) fair
  obtain ⟨_,device,effect⟩ := Queues.pop_success lawful taken
  have passes : Aside onRx 0 SameRx c c₁ := (Aside.pop (by decide) (fun _ => rfl)).ran taken
  rw [turn]
  cases popped with
  | none =>
    refine ⟨false,c₁,none rfl,sending.after passes ⟨q,?_,ready,fun head pending => ?_⟩⟩
    · rw [effect.1]
      exact found
    · rw [device,idle] at pending
      cases pending
  | some chain =>
    obtain ⟨served,_,placed,inside,covered,later,fits⟩ := some chain rfl
    obtain ⟨_,q',found',queues⟩ := effect
    cases found.symm.trans found'
    have here : c₁.queues.rings[1]? = Option.some {q with nextAvail := (q.nextAvail + 1) % 65536} := by
      rw [queues]
      exact List.getElem?_set_self bound
    have view : c₁.world.view = c.world.view := later.view
    obtain ⟨sent,c',ran⟩ := sendChain_returns packages rings (sending.answers.later passes.device.backend)
      (passes.device.room.trans sending.room) small here (view ▸ placed.used) inside (view ▸ covered) later fits (Nat.le_refl _)
    refine ⟨sent,c',served.trans ran,sending.after (trans_of _ passes ((sendChain_aside chain).ran ran)) ?_⟩
    obtain ⟨o,_,backend,_,_,_,ended⟩ := sendChain_success packages ran
    cases sent with
    | true =>
      rw [if_pos rfl] at ended
      obtain ⟨q'',found'',device',rings',_⟩ := complete_success lawful ended.2
      cases here.symm.trans found''
      refine ⟨{q with nextAvail := (q.nextAvail + 1) % 65536, nextUsed := (q.nextUsed + 1) % 65536},?_,ready,
        fun head pending => ?_⟩
      · rw [rings']
        exact List.getElem?_set_self (List.getElem?_eq_some_iff.mp here).1
      · rw [device'] at pending
        change c₁.device.pendingTx = _ at pending
        rw [device,idle] at pending
        cases pending
    | false =>
      rw [if_neg (by decide)] at ended
      obtain ⟨tx,w,_,_,rfl⟩ := ended
      refine ⟨_,here,ready,fun head pending => ?_⟩
      cases pending
      exact inside

theorem transmitTurn_returns (packages : env.vm.Lawful) (lawful : env.vq.Lawful) (rings : env.Rings) {max : Nat}
    (small : HEADER + max < 2^64) (sending : Sending max c) (fair : Transmittable env max c) :
    ∃ more c', (transmitTurn env).run c = (.ok more,c') ∧ Sending max c' := by
  cases pending : c.device.pendingTx with
  | some head => exact transmitTurn_retries lawful rings sending pending fair
  | none => exact transmitTurn_sends packages lawful rings small sending pending fair

/-- A pass over valid chains returns, and a frame that it deferred is of a chain in
the ring. -/
theorem transmit_returns (packages : env.vm.Lawful) (lawful : env.vq.Lawful) (rings : env.Rings) {max : Nat}
    (small : HEADER + max < 2^64) (found : c.queues.rings[1]? = some q) (room : c.device.rx.length = HEADER + max)
    (answers : NetDevice.Answers c.device.backend) (held : ∀ head, c.device.pendingTx = some head → head < q.size)
    (valid : Throughout (transmitTurn env) (Transmittable env max) BUDGET c) :
    ∃ c', (transmit env).run c = (.ok (),c') ∧
      ∃ q', c'.queues.rings[1]? = some q' ∧ ∀ head, c'.device.pendingTx = some head → head < q'.size := by
  rw [transmit,Prog.run_bind,Queues.ring_run found]
  dsimp only
  split
  · rename_i ready
    have sending : Sending max c := ⟨room,answers,q,found,ready,held⟩
    have returned := turns_return (fun c sending fair => by
      obtain ⟨more,c',ran,next⟩ := transmitTurn_returns packages lawful rings small sending fair
      rw [ran]
      exact ⟨next,more,rfl⟩) sending valid
    rw [← transmitLoop_turns] at returned
    obtain ⟨⟨_,_,q',found',_,held'⟩,ok⟩ := returned
    exact ⟨_,Prod.ext ok rfl,q',found',held'⟩
  · exact ⟨c,rfl,q,found,held⟩

end Transmits

section Receives
variable {c : Cell (Net N)}

structure Receiving (max : Nat) (c : Cell (Net N)) : Prop where
  room : c.device.rx.length = HEADER + max
  delivers : NetDevice.Delivers c.device.backend max
  ring : 0 < c.queues.rings.length

theorem Receiving.after {max : Nat} {c' : Cell (Net N)} (receiving : Receiving max c) (aside : Aside onTx 1 SameTx c c') :
    Receiving max c' := by
  have header : HEADER ≤ c.device.rx.length := by
    rw [receiving.room]
    exact Nat.le_add_right _ _
  exact ⟨(aside.device.room header).trans receiving.room,receiving.delivers.later aside.device.backend,
    aside.count ▸ receiving.ring⟩

/-- A chain that can be filled is filled or given back. -/
theorem recvChain_returns (packages : env.vm.Lawful) (rings : env.Rings) {max : Nat} (receiving : Receiving max c)
    {q : Queue} (found : c.queues.rings[0]? = some q) (used : c.world.view.Covers (q.usedRing,6 + q.size * 8))
    {chain : Chain} (inside : chain.head < q.size)
    (covered : ∀ d ∈ chain.descriptors, c.world.view.Covers (d.addr,d.len))
    (fits : Writable chain c.world) : ∃ more c', (recvChain env chain).run c = (.ok more,c') := by
  obtain ⟨slices,sliced⟩ := slices_covered rings.accesses covered
  obtain ⟨buffer,next,⟨_,d,_,_,_,_,refused⟩ | ⟨frame,_,_,_,d,_,_,_,_,filled⟩⟩ := recvChain_outcome packages receiving.delivers
    receiving.room fits.writable (Buffers.totalLength_bytes fits.counted) sliced
  · have looked := Queues.ring_run (c := {c with device := d, trace := c.trace ++ [.recv buffer (some none)]}) found
    rw [refused,giveBack,Prog.run_bind,looked]
    exact ⟨false,_,rfl⟩
  · obtain ⟨c',completed⟩ := complete_covered rings.covering (c := {c with
      device := d
      world := {c.world with host := delivered slices _ frame c.world.host}
      trace := c.trace ++ [.recv buffer (some (some frame.length))]}) found used inside (usedLength _ frame.length)
    rw [filled,Prog.run_bind,completed]
    exact ⟨true,c',rfl⟩

theorem receiveTurn_returns (packages : env.vm.Lawful) (lawful : env.vq.Lawful) (rings : env.Rings) {max : Nat}
    (receiving : Receiving max c) (fair : Receivable env c) :
    ∃ more c', (receiveTurn env).run c = (.ok more,c') ∧ Receiving max c' := by
  obtain ⟨q,found⟩ : ∃ q, c.queues.rings[0]? = some q := ⟨_,List.getElem?_eq_getElem receiving.ring⟩
  have aged : ∀ chain, Always Queues.Aged (recvChain (N := N) env chain) := fun chain c => (recvChain_aside chain c).ages
  obtain ⟨popped,c₁,taken,none,some⟩ := Queues.serveNext_supplied lawful rings found aged fair
  obtain ⟨_,_,effect⟩ := Queues.pop_success lawful taken
  have passes : Aside onTx 1 SameTx c c₁ := (Aside.pop (by decide) (fun _ => rfl)).ran taken
  cases popped with
  | none => exact ⟨false,c₁,none rfl,receiving.after passes⟩
  | some chain =>
    obtain ⟨served,_,placed,inside,covered,later,fits⟩ := some chain rfl
    obtain ⟨_,q',found',queues⟩ := effect
    cases found.symm.trans found'
    have here : c₁.queues.rings[0]? = Option.some {q with nextAvail := (q.nextAvail + 1) % 65536} := by
      rw [queues]
      exact List.getElem?_set_self receiving.ring
    have view : c₁.world.view = c.world.view := later.view
    obtain ⟨more,c',ran⟩ := recvChain_returns packages rings (receiving.after passes) here (view ▸ placed.used) inside
      (view ▸ covered) (fits _ ⟨later,aged chain c₁⟩)
    exact ⟨more,c',served.trans ran,(receiving.after passes).after ((recvChain_aside chain).ran ran)⟩

/-- A pass over valid chains returns. -/
theorem receive_returns (packages : env.vm.Lawful) (lawful : env.vq.Lawful) (rings : env.Rings) {max : Nat}
    (receiving : Receiving max c) (valid : Throughout (receiveTurn env) (Receivable env) BUDGET c) :
    ((receive env).run c).1 = .ok () := by
  rw [receive,receiveLoop_turns]
  refine (turns_return (fun c receiving fair => ?_) receiving valid).2
  obtain ⟨more,c',ran,next⟩ := receiveTurn_returns packages lawful rings receiving fair
  rw [ran]
  exact ⟨next,more,rfl⟩

end Receives

section Checks
variable {c : Cell (Net N)} {max : Nat}

def sendable (max : Nat) (chain : Chain) (w : World) : Bool :=
  chain.descriptors.all (fun d => !d.isWriteOnly) &&
    decide (HEADER + 14 ≤ (guestBytes chain.descriptors).length ∧ (guestBytes chain.descriptors).length ≤ HEADER + max) &&
    ((guestBytes chain.descriptors).take 2).all (fun a => (w.view.place a).all (fun p => w.host p == 0))

def writable (chain : Chain) (_ : World) : Bool :=
  chain.descriptors.all (·.isWriteOnly) && decide ((guestBytes chain.descriptors).length < 2^64)

def transmittable (env : Env) (max : Nat) (c : Cell (Net N)) : Bool :=
  match c.device.pendingTx with
  | some _ => match c.queues.rings[1]? with
    | none => true
    | some q => !q.ready || Queues.places env c.world.view q
  | none => Queues.supplies env 1 (sendable max) c

theorem transmittable_sound (covering : env.Covering) (still : c.world.Still env)
    (checked : transmittable env max c = true) : Transmittable env max c := by
  rw [Transmittable]
  rw [transmittable] at checked
  cases pending : c.device.pendingTx with
  | some head =>
    intro q found ready
    rw [pending] at checked
    dsimp only at checked
    rw [found] at checked
    dsimp only at checked
    rw [ready,Bool.not_true,Bool.false_or] at checked
    exact Queues.places_sound covering checked
  | none =>
    rw [pending] at checked
    refine Queues.supplies_sound covering still (fun chain w view host fine => ?_) checked
    simp only [sendable,Bool.and_eq_true,decide_eq_true_eq,List.all_eq_true] at fine
    obtain ⟨⟨readable,long,short⟩,plain⟩ := fine
    refine ⟨by simpa using readable,long,short,fun a member p backs => ?_⟩
    have zero := plain a member
    rw [view] at backs
    rw [c.world.view.place_eq_some.mpr backs] at zero
    rw [host]
    exact beq_iff_eq.mp zero

theorem receivable_sound (covering : env.Covering) (still : c.world.Still env)
    (checked : Queues.supplies env 0 writable c = true) : Receivable env c := by
  refine Queues.supplies_sound covering still (fun chain w _ _ fine => ?_) checked
  rw [writable,Bool.and_eq_true,decide_eq_true_eq] at fine
  exact ⟨fine.1,fine.2⟩

end Checks
end Net
end WVmm.Devices
