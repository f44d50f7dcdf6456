import WVmm.Devices.Transmit

/-! A pass over the transmit queue that returns: which chains it offers, at which
moments, and what it leaves to the next pass. -/
namespace WVmm.Devices
open Lib.Effect

variable {env : Env} {D : Type}

/-- Looking at guest memory takes time and changes nothing else. -/
def Cell.Waits (env : Env) (c c' : Cell D) : Prop :=
  World.Later env c.world c'.world ∧ c' = {c with world := c'.world}

instance : IsPreorder (Cell D) (Cell.Waits env) where
  refl c := ⟨refl_of (World.Later env) c.world,rfl⟩
  trans := by
    rintro c c' c'' ⟨first,same⟩ ⟨second,same'⟩
    refine ⟨trans_of (World.Later env) first second,?_⟩
    rw [same',same]

theorem Cell.Waits.onWorld {α : Type} {p : Prog World (Failure DeviceError) α} (later : Always (World.Later env) p) :
    Always (Cell.Waits env) (Cell.onWorld p : Prog (Cell D) _ α) :=
  Always.zoom later (fun _ _ moved => ⟨moved,rfl⟩)

theorem Cell.onWorld_run {α : Type} {p : Prog World (Failure DeviceError) α} {c : Cell D} {a : α} {w : World}
    (ran : p.run c.world = (.ok a,w)) : (Cell.onWorld p : Prog (Cell D) _ α).run c = (.ok a,{c with world := w}) := by
  rw [Cell.onWorld,Prog.run_zoom,ran]

namespace Queues

theorem available_waits (index : Nat) : Always (Cell.Waits env) (available env index : Prog (Cell D) _ Nat) := by
  refine .bind ?_ (fun q => ?_)
  · refine .bind .get (fun c => ?_)
    split
    · exact .pure _
    · exact .fail _
  split
  · exact .pure 0
  · refine .bind .get (fun c => .bind (.require _ _) (fun _ => ?_))
    exact .bind (Cell.Waits.onWorld (availIdx_later q)) (fun idx => .bind (.require _ _) (fun _ => .pure _))

theorem pop_success (lawful : env.vq.Lawful) {c c' : Cell D} {index : Nat} {popped : Option Chain}
    (ran : (pop env index).run c = (.ok popped,c')) :
    World.Later env c.world c'.world ∧ c'.device = c.device ∧
      match popped with
      | none => c'.queues = c.queues ∧ c'.trace = c.trace
      | some chain => c'.trace = c.trace ++ [.popped index chain] ∧ ∃ q, c.queues.rings[index]? = some q ∧
          c'.queues = {c.queues with
            rings := c.queues.rings.set index {q with nextAvail := (q.nextAvail + 1) % 65536}} := by
  obtain ⟨count,c₁,counted,then₁⟩ := Prog.bind_success ran
  obtain ⟨later,same⟩ := (available_waits index).ran counted
  split at then₁
  · cases then₁
    exact ⟨later,by rw [same],by rw [same],by rw [same]⟩
  obtain ⟨head,c₂,advanced,then₂⟩ := Prog.bind_success then₁
  obtain ⟨q,found,rfl⟩ := takeHead_success lawful advanced
  obtain ⟨_,c₃,looked,then₃⟩ := Prog.bind_success then₂
  obtain ⟨descriptors,c₄,walked,then₄⟩ := Prog.bind_success then₃
  obtain ⟨_,rfl⟩ := ring_success looked
  obtain ⟨later',same'⟩ := (Cell.Waits.onWorld (popChain_later _ _ _)).ran walked
  cases then₄
  rw [same] at found
  refine ⟨?_,by rw [same',same]; rfl,by rw [same',same]; rfl,q,found,by rw [same',same]; rfl⟩
  exact trans_of (World.Later env) later (trans_of (World.Later env) ⟨1,rfl⟩ later')

end Queues

namespace Net

theorem bytesAt_buffer (buffer : List UInt8) : World.bytesAt (bufferHost buffer) [⟨0,buffer.length⟩] = buffer := by
  simp only [World.bytesAt,List.flatMap_cons,List.flatMap_nil,List.append_nil,VolatileSlice.bytes]
  refine List.ext_getElem (by simp) ?_
  intro i left right
  simp [bufferHost,List.getElem?_eq_getElem right]

variable {N : Type}

def used (queue : Nat) (history : List Action) : List (Nat × Nat) :=
  history.filterMap (fun
    | .completed index head len => if index = queue then some (head,len) else none
    | _ => none)

/-- The worlds of a pass over a queue, from its first one on: guest and host move, and
these elements have gone to its used ring. -/
inductive Passes (env : Env) (ring : Queue) (start : World) : List (Nat × Nat) → World → Prop
  | start : Passes env ring start [] start
  | tick {elements : List (Nat × Nat)} {w : World} :
      Passes env ring start elements w → Passes env ring start elements (w.tick env)
  | used {elements : List (Nat × Nat)} {w : World} (q : Queue) (same : SameRing ring q) (head len : Nat) :
      Passes env ring start elements w → Passes env ring start (elements ++ [(head,len)])
        {w with host := (env.vq.addUsed q w.view w.host head len).2.2}

theorem Passes.later {ring : Queue} {start w w' : World} {elements : List (Nat × Nat)}
    (passes : Passes env ring start elements w) (later : World.Later env w w') : Passes env ring start elements w' := by
  obtain ⟨n,rfl⟩ := later
  induction n with
  | zero => exact passes
  | succ n ih =>
    rw [Function.iterate_succ_apply']
    exact .tick ih

structure Offer.Retries (o o' : Offer) : Prop where
  chain : o'.chain = o.chain
  moment : o'.moment = o.moment
  frame : o'.frame = o.frame
  fate : ∀ snapshot declines sent, o'.fate = .deferred snapshot declines sent →
    ∃ declines' sent', o.fate = .deferred snapshot declines' sent'

theorem Offer.Retries.refl (o : Offer) : o.Retries o := ⟨rfl,rfl,rfl,fun _ declines sent same => ⟨declines,sent,same⟩⟩

theorem Offer.Retries.trans {o o' o'' : Offer} (first : o.Retries o') (second : o'.Retries o'') : o.Retries o'' := by
  refine ⟨second.chain.trans first.chain,second.moment.trans first.moment,second.frame.trans first.frame,?_⟩
  intro snapshot declines sent same
  obtain ⟨declines',sent',same'⟩ := second.fate snapshot declines sent same
  exact first.fate snapshot declines' sent' same'

theorem Offer.Retries.again {o : Offer} {snapshot : List UInt8} {declines : Nat} {sent : Bool}
    (fate : o.fate = .deferred snapshot declines sent) (declines' : Nat) (sent' : Bool) :
    o.Retries {o with fate := .deferred snapshot declines' sent'} := by
  refine ⟨rfl,rfl,rfl,?_⟩
  rintro _ _ _ ⟨⟩
  exact ⟨declines,sent,fate⟩

theorem Offer.actions_declined {o : Offer} {snapshot : List UInt8} {declines : Nat}
    (fate : o.fate = .deferred snapshot declines false) :
    Offer.actions {o with fate := .deferred snapshot (declines + 1) false} =
      o.actions ++ [.send snapshot (some false)] := by
  simp [Offer.actions,fate,List.replicate_succ']

theorem Offer.actions_sent {o : Offer} {snapshot : List UInt8} {declines : Nat}
    (fate : o.fate = .deferred snapshot declines false) :
    Offer.actions {o with fate := .deferred snapshot declines true} =
      o.actions ++ [.send snapshot (some true),.completed 1 o.chain.head 0] := by
  simp [Offer.actions,fate]

theorem Offer.Retries.genuine {o o' : Offer} (retries : o.Retries o') {bytes : List Nat}
    (genuine : o.Genuine env bytes) : o'.Genuine env bytes := by
  refine ⟨?_,?_,?_⟩
  · rw [Offer.addresses,retries.moment,retries.chain]
    exact genuine.backed
  · rw [retries.frame,retries.moment]
    exact genuine.frame
  · intro snapshot declines sent same
    obtain ⟨declines',sent',same'⟩ := retries.fate snapshot declines sent same
    rw [retries.moment]
    exact genuine.snapshot snapshot declines' sent' same'

/-- The chain was taken in this pass, and its bytes were offered at a moment of it,
after the elements that were used before. -/
structure Offer.Seen (env : Env) (start : World) (ring : Queue) (trace : List Action) (last : World) (o : Offer) : Prop where
  taken : ∃ before after, trace = before ++ .popped 1 o.chain::after ∧
    Passes env ring start (used 1 before) o.moment
  ages : World.Ages o.moment last
  genuine : ∃ bytes, o.Genuine env bytes

theorem Offer.Seen.retries {start last : World} {ring : Queue} {trace : List Action} {o o' : Offer}
    (seen : o.Seen env start ring trace last) (retries : o.Retries o') : o'.Seen env start ring trace last := by
  refine ⟨?_,?_,seen.genuine.imp (fun bytes genuine => retries.genuine genuine)⟩
  · rw [retries.chain,retries.moment]
    exact seen.taken
  · rw [retries.moment]
    exact seen.ages

theorem Offer.Seen.extend {start last last' : World} {ring : Queue} {trace more : List Action} {o : Offer}
    (seen : o.Seen env start ring trace last) (ages : World.Ages last last') :
    o.Seen env start ring (trace ++ more) last' := by
  obtain ⟨before,after,rfl,passes⟩ := seen.taken
  refine ⟨⟨before,after ++ more,?_,passes⟩,trans_of World.Ages seen.ages ages,seen.genuine⟩
  rw [List.append_assoc,List.cons_append]

/-- A pass that began in `start` on `ring`, with the offers `old`: the offers so
far, and the actions of the one that is being made. -/
structure Pass (env : Env) (start : World) (ring : Queue) (past : List Action) (old offers : List Offer)
    (tail : List Action) (c : Cell (Net N)) : Prop where
  world : Passes env ring start (used 1 c.trace) c.world
  rings : ∃ q, c.queues.rings[1]? = some q ∧ SameRing ring q
  actions : txActions (past ++ c.trace) = offers.flatMap Offer.actions ++ tail
  news : ∀ o ∈ offers, (∃ first ∈ old, first.Retries o) ∨ o.Seen env start ring c.trace c.world

namespace Pass

variable {start : World} {ring : Queue} {past : List Action} {old offers : List Offer} {tail : List Action}
  {c c' : Cell (Net N)}

theorem extend (pass : Pass env start ring past old offers tail c) {more : List Action}
    (world : Passes env ring start (used 1 c.trace ++ used 1 more) c'.world) (ages : World.Ages c.world c'.world)
    (rings : ∃ q, c'.queues.rings[1]? = some q ∧ SameRing ring q) (trace : c'.trace = c.trace ++ more) :
    Pass env start ring past old offers (tail ++ txActions more) c' := by
  have elements : used 1 c'.trace = used 1 c.trace ++ used 1 more := by
    rw [trace]
    exact List.filterMap_append
  refine ⟨elements ▸ world,rings,?_,?_⟩
  · rw [trace,← List.append_assoc]
    unfold txActions
    rw [List.filter_append]
    change txActions (past ++ c.trace) ++ _ = _
    rw [pass.actions,List.append_assoc]
  · intro o member
    refine (pass.news o member).imp_right (fun seen => ?_)
    rw [trace]
    exact seen.extend ages

/-- The device and time go on, and no element is used. -/
theorem calm (pass : Pass env start ring past old offers tail c) {more : List Action} (none : used 1 more = [])
    (later : World.Later env c.world c'.world) (rings : ∃ q, c'.queues.rings[1]? = some q ∧ SameRing ring q)
    (trace : c'.trace = c.trace ++ more) : Pass env start ring past old offers (tail ++ txActions more) c' := by
  refine pass.extend ?_ later.ages rings trace
  rw [none,List.append_nil]
  exact pass.world.later later

theorem complete (lawful : env.vq.Lawful) (pass : Pass env start ring past old offers tail c) {head len : Nat}
    (ran : (Queues.complete env 1 head len).run c = (.ok (),c')) :
    Pass env start ring past old offers (tail ++ [.completed 1 head len]) c' ∧ c'.device = c.device := by
  obtain ⟨q,found,device,rings,world,trace⟩ := complete_success lawful ran
  obtain ⟨q',found',same⟩ := pass.rings
  cases found.symm.trans found'
  refine ⟨pass.extend ?_ ?_ ?_ trace,device⟩
  · rw [world]
    exact .used q same head len pass.world
  · rw [world]
    exact refl_of World.Ages c.world
  · refine ⟨_,?_,same.trans (rfl : SameRing q {q with nextUsed := (q.nextUsed + 1) % 65536})⟩
    rw [rings,List.getElem?_set_self (List.getElem?_eq_some_iff.mp found).1]

/-- The last offer takes in the actions that were made on it. -/
theorem renew {before : List Offer} {o o' : Offer} (pass : Pass env start ring past old (before ++ [o]) tail c)
    (retries : o.Retries o') (actions : o'.actions = o.actions ++ tail) :
    Pass env start ring past old (before ++ [o']) [] c := by
  refine ⟨pass.world,pass.rings,?_,?_⟩
  · rw [pass.actions]
    simp only [List.flatMap_append,List.flatMap_cons,List.flatMap_nil,List.append_nil,actions,List.append_assoc]
  · intro p member
    rcases List.mem_append.mp member with earlier | last
    · exact pass.news p (List.mem_append_left _ earlier)
    · rw [List.mem_singleton.mp last]
      rcases pass.news o (List.mem_append_right _ (List.mem_singleton.mpr rfl)) with ⟨first,inside,same⟩ | seen
      · exact .inl ⟨first,inside,same.trans retries⟩
      · exact .inr (seen.retries retries)

/-- The actions since a chain was taken are its first offer. -/
theorem offer {o : Offer} (pass : Pass env start ring past old offers tail c) (actions : o.actions = tail)
    (seen : o.Seen env start ring c.trace c.world) : Pass env start ring past old (offers ++ [o]) [] c := by
  refine ⟨pass.world,pass.rings,?_,?_⟩
  · rw [pass.actions]
    simp only [List.flatMap_append,List.flatMap_cons,List.flatMap_nil,List.append_nil,actions]
  · intro p member
    rcases List.mem_append.mp member with earlier | last
    · exact pass.news p earlier
    · rw [List.mem_singleton.mp last]
      exact .inr seen

end Pass

def Paused (env : Env) (start : World) (ring : Queue) (past : List Action) (old : List Offer) (c : Cell (Net N)) : Prop :=
  ∃ offers, Pass env start ring past old offers [] c ∧ Standing offers c.device

variable [NetDevice N]

def answered (backend : N) (frame : List UInt8) (sent : Bool) (c : Cell (Net N)) : Cell (Net N) :=
  {c with
    device := {c.device with backend := backend}
    trace := c.trace ++ [.send frame (some sent)]}

theorem backendSend_success {c c' : Cell (Net N)} {frame : List VolatileSlice} {host : Host} {sent : Bool}
    (ran : (backendSend frame host).run c = (.ok sent,c')) :
    ∃ backend, c' = answered backend (World.bytesAt host frame) sent c := by
  simp only [backendSend,Prog.run_bind,Prog.run_get,Prog.run_modify,Cell.record,Prog.run_ofExcept] at ran
  rcases outcome : NetDevice.send c.device.backend frame host with ⟨r,backend⟩
  rw [outcome] at ran
  cases r with
  | error e => cases ran
  | ok sent' =>
    cases ran
    exact ⟨backend,rfl⟩

theorem retry_success {c c' : Cell (Net N)} {head : Nat} {sent : Bool}
    (ran : (retry env head).run c = (.ok sent,c')) : ∃ backend,
      if sent then (Queues.complete env 1 head 0).run
        {(answered backend c.device.tx true c) with
          device := {c.device with backend := backend, pendingTx := none}} = (.ok (),c')
      else c' = answered backend c.device.tx false c := by
  obtain ⟨_,_,looked,then₁⟩ := Prog.bind_success ran
  cases looked
  obtain ⟨accepts,c₁,offered,then₂⟩ := Prog.bind_success then₁
  obtain ⟨backend,rfl⟩ := backendSend_success offered
  rw [bytesAt_buffer] at then₂
  refine ⟨backend,?_⟩
  cases accepts with
  | false =>
    cases then₂
    rfl
  | true =>
    obtain ⟨_,c₂,cancelled,then₃⟩ := Prog.bind_success then₂
    cases cancelled
    obtain ⟨_,c₃,completed,then₄⟩ := Prog.bind_success then₃
    cases then₄
    exact completed

/-- The bytes behind the header of a chain that was checked. -/
theorem payload_bytes (lawful : env.vm.Lawful) {view : GuestMemoryMmap} {chain : Chain} {total : Nat}
    {slices payload : List VolatileSlice} (counted : Buffers.totalLength chain.descriptors = some total)
    (long : HEADER ≤ total) (found : Buffers.slices env.vm view chain.descriptors = .ok slices)
    (ranged : Buffers.range slices HEADER (total - HEADER) = .ok payload) :
    List.Forall₂ view.Backs ((guestBytes chain.descriptors).drop HEADER) (hostBytes payload) ∧
      (hostBytes payload).length = total - HEADER := by
  have backed := Buffers.slices_backed lawful found
  have length : (hostBytes slices).length = total := by
    rw [← backed.length_eq,← Buffers.totalLength_eq counted]
  obtain ⟨part,same,covers⟩ := @Buffers.range_covers slices HEADER (total - HEADER) (by omega)
  rw [ranged] at same
  cases same
  have whole : hostBytes payload = (hostBytes slices).drop HEADER := by
    rw [covers,List.take_of_length_le (by simp [length])]
  refine ⟨?_,by rw [whole,List.length_drop,length]⟩
  rw [whole]
  exact List.forall₂_drop HEADER backed

/-- The first offer of a frame: what memory holds is offered; if the backend takes
it, the chain is completed, and else a copy is kept for later. -/
theorem sendChain_success (lawful : env.vm.Lawful) {c c' : Cell (Net N)} {chain : Chain} {sent : Bool}
    (ran : (sendChain env chain).run c = (.ok sent,c')) :
    ∃ (o : Offer) (bytes : List Nat) (backend : N), o.chain = chain ∧ World.Later env c.world o.moment ∧
      o.Genuine env bytes ∧
      if sent then o.fate = .taken ∧ (Queues.complete env 1 chain.head 0).run
        (answered backend o.frame true {c with world := o.moment}) = (.ok (),c')
      else ∃ tx w, o.fate = .deferred tx 0 false ∧ World.Later env o.moment w ∧
        c' = {(answered backend o.frame false {c with world := w}) with
          device := {c.device with backend := backend, tx := tx, pendingTx := some chain.head}} := by
  obtain ⟨_,_,readable,then₁⟩ := Prog.bind_success ran
  obtain ⟨_,rfl⟩ := Prog.require_success readable
  split at then₁
  · cases then₁
  rename_i total counted
  obtain ⟨_,_,looked,then₂⟩ := Prog.bind_success then₁
  cases looked
  obtain ⟨_,_,sized,then₃⟩ := Prog.bind_success then₂
  obtain ⟨bounds,rfl⟩ := Prog.require_success sized
  obtain ⟨slices,_,sliced,then₄⟩ := Prog.bind_success then₃
  obtain ⟨found,rfl⟩ := Prog.ofExcept_success sliced
  obtain ⟨header,c₅,copied,then₅⟩ := Prog.bind_success then₄
  obtain ⟨later,same⟩ := (Cell.Waits.onWorld (Buffers.copyTo_later _ _)).ran copied
  obtain ⟨_,_,plain,then₆⟩ := Prog.bind_success then₅
  obtain ⟨_,rfl⟩ := Prog.require_success plain
  obtain ⟨payload,_,cut,then₇⟩ := Prog.bind_success then₆
  obtain ⟨ranged,rfl⟩ := Prog.ofExcept_success cut
  obtain ⟨_,c₈,observed,then₈⟩ := Prog.bind_success then₇
  cases observed
  obtain ⟨_,_,looked,then₉⟩ := Prog.bind_success then₈
  cases looked
  obtain ⟨accepts,_,offered,then₁₀⟩ := Prog.bind_success then₉
  obtain ⟨backend,rfl⟩ := backendSend_success offered
  have waits : World.Later env c.world (c₅.world.tick env) := trans_of (World.Later env) later ⟨1,rfl⟩
  obtain ⟨backed,length⟩ := payload_bytes lawful counted (by omega) found ranged
  have view : (c₅.world.tick env).view = c.world.view := waits.view
  rw [← view] at backed
  cases accepts with
  | true =>
    obtain ⟨_,_,completed,last⟩ := Prog.bind_success then₁₀
    cases last
    refine ⟨⟨chain,c₅.world.tick env,World.bytesAt (c₅.world.tick env).host payload,.taken⟩,hostBytes payload,
      backend,rfl,waits,⟨backed,rfl,nofun⟩,rfl,?_⟩
    rw [same] at completed
    exact completed
  | false =>
    obtain ⟨tx,_,copied,then₁₁⟩ := Prog.bind_success then₁₀
    cases then₁₁
    obtain ⟨returned,rfl⟩ := Prod.mk.inj copied
    rw [← length] at returned
    obtain ⟨ticks,bounded,ended,glimpsed⟩ := Buffers.copyTo_glimpses (Prod.ext returned rfl)
    have bound := bounded (Buffers.range_filled ranged)
    rw [List.take_length] at glimpsed
    refine ⟨⟨chain,c₅.world.tick env,World.bytesAt (c₅.world.tick env).host payload,.deferred tx 0 false⟩,
      hostBytes payload,backend,rfl,waits,⟨backed,rfl,?_⟩,tx,
      ((Buffers.copyTo env payload (total - HEADER)).run (c₅.world.tick env)).2,rfl,?_,?_⟩
    · rintro _ _ _ ⟨⟩
      exact ⟨ticks,bound,glimpsed⟩
    · exact Buffers.copyTo_later payload (total - HEADER) _
    · rw [same]
      rfl

section Passes
variable {start : World} {ring : Queue} {past : List Action} {old : List Offer} {c c' : Cell (Net N)}

theorem retry_pass (lawful : env.vq.Lawful) {before : List Offer} {o : Offer} {declines : Nat} {sent : Bool}
    (pass : Pass env start ring past old (before ++ [o]) [] c) (done : ∀ o ∈ before, o.done = true)
    (fate : o.fate = .deferred c.device.tx declines false) (pending : c.device.pendingTx = some o.chain.head)
    (ran : (retry env o.chain.head).run c = (.ok sent,c')) : Paused env start ring past old c' := by
  obtain ⟨backend,ended⟩ := retry_success ran
  have offered : ∀ (d : Net N) answer, Pass env start ring past old (before ++ [o]) [.send c.device.tx (some answer)]
      {c with device := d, trace := c.trace ++ [.send c.device.tx (some answer)]} :=
    fun d answer => @Pass.calm _ _ _ _ _ _ _ _ c {c with
      device := d
      trace := c.trace ++ [.send c.device.tx (some answer)]} pass [.send c.device.tx (some answer)] rfl
        (refl_of (World.Later env) c.world) pass.rings rfl
  cases sent with
  | false =>
    rw [if_neg (by decide)] at ended
    subst ended
    refine ⟨_,(offered {c.device with backend := backend} false).renew (.again fate (declines + 1) false)
      (Offer.actions_declined fate),?_⟩
    exact .waiting before _ (declines + 1) rfl done rfl pending
  | true =>
    rw [if_pos rfl] at ended
    obtain ⟨completed,device⟩ := (offered {c.device with backend := backend, pendingTx := none} true).complete lawful ended
    refine ⟨_,completed.renew (.again fate declines true) (Offer.actions_sent fate),?_⟩
    rw [device]
    refine .settled rfl (fun p member => ?_)
    rcases List.mem_append.mp member with earlier | last
    · exact done p earlier
    · rw [List.mem_singleton.mp last]
      rfl

theorem sendChain_pass (packages : env.vm.Lawful) (lawful : env.vq.Lawful) {offers : List Offer} {chain : Chain}
    {sent : Bool} (pass : Pass env start ring past old offers [.popped 1 chain] c) {before : List Action}
    (popped : c.trace = before ++ [.popped 1 chain]) (done : ∀ o ∈ offers, o.done = true) (idle : c.device.pendingTx = none)
    (ran : (sendChain env chain).run c = (.ok sent,c')) : Paused env start ring past old c' := by
  obtain ⟨o,bytes,backend,rfl,later,genuine,ended⟩ := sendChain_success packages ran
  have moment : Passes env ring start (used 1 before) o.moment := by
    have none : used 1 c.trace = used 1 before := by
      rw [popped,used,List.filterMap_append]
      exact List.append_nil _
    exact none ▸ pass.world.later later
  have offered : ∀ (d : Net N) w answer, World.Later env c.world w → Pass env start ring past old offers
      [.popped 1 o.chain,.send o.frame (some answer)]
      {c with device := d, world := w, trace := c.trace ++ [.send o.frame (some answer)]} :=
    fun d w answer later => @Pass.calm _ _ _ _ _ _ _ _ c {c with
      device := d
      world := w
      trace := c.trace ++ [.send o.frame (some answer)]} pass [.send o.frame (some answer)] rfl later pass.rings rfl
  cases sent with
  | true =>
    rw [if_pos rfl] at ended
    obtain ⟨taken,ended⟩ := ended
    obtain ⟨completed,device⟩ := (offered {c.device with backend := backend} o.moment true later).complete lawful ended
    obtain ⟨_,_,_,_,world,trace⟩ := complete_success lawful ended
    have seen : o.Seen env start ring c'.trace c'.world := by
      refine ⟨⟨before,[.send o.frame (some true),.completed 1 o.chain.head 0],?_,moment⟩,?_,bytes,genuine⟩
      · rw [trace]
        change (c.trace ++ [.send o.frame (some true)]) ++ [.completed 1 o.chain.head 0] = _
        rw [popped]
        simp only [List.append_assoc,List.cons_append,List.nil_append]
      · rw [world]
        exact refl_of World.Ages o.moment
    refine ⟨_,completed.offer (by rw [Offer.actions,taken]; rfl) seen,?_⟩
    rw [device]
    refine .settled idle (fun p member => ?_)
    rcases List.mem_append.mp member with earlier | last
    · exact done p earlier
    · rw [List.mem_singleton.mp last,Offer.done,taken]
  | false =>
    rw [if_neg (by decide)] at ended
    obtain ⟨tx,w,fate,waits,rfl⟩ := ended
    have seen : o.Seen env start ring (c.trace ++ [.send o.frame (some false)]) w := by
      refine ⟨⟨before,[.send o.frame (some false)],?_,moment⟩,waits.ages,bytes,genuine⟩
      rw [popped]
      simp only [List.append_assoc,List.cons_append,List.nil_append]
    refine ⟨_,(offered {c.device with backend := backend, tx := tx, pendingTx := some o.chain.head} w false
      (trans_of (World.Later env) later waits)).offer (by rw [Offer.actions,fate]; rfl) seen,?_⟩
    exact .waiting offers o 0 rfl done fate rfl

/-- The turns of a pass that returns. -/
theorem transmitLoop_pass (packages : env.vm.Lawful) (lawful : env.vq.Lawful) (budget : Nat)
    (paused : Paused env start ring past old c) (ran : (transmitLoop env budget).run c = (.ok (),c')) :
    Paused env start ring past old c' := by
  induction budget generalizing c with
  | zero =>
    cases ran
    exact paused
  | succ budget ih =>
    obtain ⟨offers,pass,standing⟩ := paused
    unfold transmitLoop at ran
    obtain ⟨_,_,looked,then₁⟩ := Prog.bind_success ran
    cases looked
    cases standing with
    | waiting before o declines split done fate pending =>
      subst split
      rw [pending] at then₁
      obtain ⟨sent,c₁,retried,then₂⟩ := Prog.bind_success then₁
      have next := retry_pass lawful pass done fate pending retried
      cases sent with
      | true => exact ih next then₂
      | false =>
        cases then₂
        exact next
    | settled idle done =>
      rw [idle] at then₁
      obtain ⟨popped,c₁,taken,then₂⟩ := Prog.bind_success then₁
      obtain ⟨later,device,effect⟩ := Queues.pop_success lawful taken
      cases popped with
      | none =>
        cases then₂
        obtain ⟨queues,trace⟩ := effect
        refine ⟨offers,@Pass.calm _ _ _ _ _ _ _ _ c c' pass [] rfl later ?_ ?_,?_⟩
        · rw [queues]
          exact pass.rings
        · rw [trace,List.append_nil]
        · exact .settled (by rw [device]; exact idle) done
      | some chain =>
        obtain ⟨trace,q,found,queues⟩ := effect
        obtain ⟨sent,c₂,offered,then₃⟩ := Prog.bind_success then₂
        obtain ⟨q',found',same⟩ := pass.rings
        cases found.symm.trans found'
        have began : Pass env start ring past old offers [.popped 1 chain] c₁ := by
          refine @Pass.calm _ _ _ _ _ _ _ _ c c₁ pass [.popped 1 chain] rfl later ?_ trace
          refine ⟨_,?_,same.trans (rfl : SameRing q {q with nextAvail := (q.nextAvail + 1) % 65536})⟩
          rw [queues]
          exact List.getElem?_set_self (List.getElem?_eq_some_iff.mp found).1
        have next := sendChain_pass packages lawful began trace done (by rw [device]; exact idle) offered
        cases sent with
        | true => exact ih next then₃
        | false =>
          cases then₃
          exact next

/-- A pass over the transmit queue that returns. On a queue that is not ready it
does nothing. -/
theorem transmit_pass (packages : env.vm.Lawful) (lawful : env.vq.Lawful) (found : c.queues.rings[1]? = some ring)
    (fresh : c.trace = []) (actions : txActions past = old.flatMap Offer.actions) (standing : Standing old c.device)
    (ran : (transmit env).run c = (.ok (),c')) :
    Paused env c.world ring past old c' ∧ (ring.ready = false → c' = c) := by
  obtain ⟨q,c₁,looked,then₁⟩ := Prog.bind_success ran
  rw [Queues.ring_run found] at looked
  cases looked
  have start : Paused env c.world ring past old c := by
    refine ⟨old,⟨?_,⟨ring,found,.refl ring⟩,?_,?_⟩,standing⟩
    · rw [fresh]
      exact .start
    · rw [fresh,List.append_nil,List.append_nil]
      exact actions
    · exact fun o member => .inl ⟨o,member,.refl o⟩
  split at then₁
  · rename_i ready
    exact ⟨transmitLoop_pass packages lawful BUDGET start then₁,fun idle => absurd ready (by rw [idle]; decide)⟩
  · cases then₁
    exact ⟨start,fun _ => rfl⟩

end Passes
end Net
end WVmm.Devices
