import WVmm.Devices.MemorySpec

/-! Each device kind returns every chain it takes before it is done, except for a
transmit chain whose frame the backend has declined. -/
namespace WVmm.Devices
open Lib.Effect

variable {env : Env} {past : List Action}

/-- Of the queues only the transmit queue of a network device may have a chain out. -/
def holding (tx : Option Nat) : Nat → List Nat := fun index => if index = 1 then tx.toList else []

@[simp] theorem holding_none (index : Nat) : holding none index = [] := by
  unfold holding
  split <;> rfl

theorem holding_some (head : Nat) :
    holding (some head) = Function.update (holding none) 1 (holding none 1 ++ [head]) := by
  funext index
  by_cases same : index = 1
  · subst same
    rw [Function.update_self]
    rfl
  · rw [Function.update_of_ne same]
    simp only [holding,if_neg same]

namespace Block

variable {B : Type} [BlockStorage B]

abbrev Any (_ : Block B) : Prop := True

theorem diskRead_idles (offset : Nat) (data : List VolatileSlice) :
    Idles Any (diskRead env offset data : Prog (Cell (Block B)) _ Unit) := by
  refine .bind (Idles.onWorld _) (fun _ => .bind .get (fun c => ?_))
  apply Idles.call
  · exact fun _ _ => trivial
  · exact fun _ => rfl
  · exact fun _ => rfl
  · exact ⟨fun _ _ => rfl,fun _ => rfl⟩

theorem diskWrite_idles (offset : Nat) (data : List VolatileSlice) :
    Idles Any (diskWrite env offset data : Prog (Cell (Block B)) _ Unit) := by
  refine .bind (Idles.onWorld _) (fun _ => .bind .get (fun c => ?_))
  apply Idles.call
  · exact fun _ _ => trivial
  · exact fun _ => rfl
  · exact fun _ => rfl
  · exact ⟨fun _ _ => rfl,fun _ => rfl⟩

theorem diskFlush_idles : Idles Any (diskFlush : Prog (Cell (Block B)) _ Unit) := by
  refine .bind .get (fun c => ?_)
  apply Idles.call
  · exact fun _ _ => trivial
  · exact fun _ => rfl
  · exact fun _ => rfl
  · exact ⟨fun _ _ => rfl,fun _ => rfl⟩

theorem transfer_idles (read : Bool) (sector total : Nat) (data : List Descriptor)
    (buffers : List VolatileSlice) (negotiated : BitVec 64) :
    Idles Any (transfer env read sector total data buffers negotiated : Prog (Cell (Block B)) _ _) := by
  refine .bind (.require _ _) (fun _ => .bind (.require _ _) (fun _ => .bind .get (fun c => ?_)))
  refine .bind (.require _ _) (fun _ => .bind (.require _ _) (fun _ => ?_))
  split
  · exact .fail _
  refine .bind (.ofExcept _) (fun _ => ?_)
  split
  · exact .bind (diskRead_idles _ _) (fun _ => .pure _)
  · refine .bind (diskWrite_idles _ _) (fun _ => .bind ?_ (fun _ => .pure _))
    unfold writeThrough
    split
    · exact diskFlush_idles
    · exact .pure _

theorem execute_idles (request : List Descriptor) (negotiated : BitVec 64) :
    Idles Any (execute env request negotiated : Prog (Cell (Block B)) _ _) := by
  refine .bind .get (fun c => .bind (.ofExcept _) (fun all => ?_))
  split
  · exact .fail _
  refine .bind (.require _ _) (fun _ => .bind (.ofExcept _) (fun data => ?_))
  refine .bind (Idles.onWorld _) (fun h => .bind (.ofExcept _) (fun buffers => ?_))
  split
  · exact transfer_idles _ _ _ _ _ _
  split
  · exact .bind (.require _ _) (fun _ => .bind diskFlush_idles (fun _ => .pure _))
  split
  · exact .bind (.require _ _) (fun _ => .bind .get (fun c => .bind (Idles.onWorld _) (fun _ => .pure _)))
  · exact .pure _

theorem request_idles (descriptors : List Descriptor) (negotiated : BitVec 64) :
    Idles Any (request env descriptors negotiated : Prog (Cell (Block B)) _ Nat) := by
  unfold request
  split
  · exact .fail _
  refine .bind (Idles.onWorld _) (fun trusted => .bind (.require _ _) (fun _ => ?_))
  refine .bind (Always.capture (execute_idles _ _)) (fun outcome => ?_)
  split
  · exact .bind (Idles.onWorld _) (fun _ => .pure _)
  · exact .bind (Idles.onWorld _) (fun _ => .pure _)
  · exact .fail _

theorem serve_owes (lawful : env.vq.Lawful) (count : Nat) :
    Upon (Cell.Owes Any past (holding none)) (serve env count : Prog (Cell (Block B)) _ Unit)
      (fun _ => Cell.Owes Any past (holding none)) := by
  induction count with
  | zero => exact .pure (fun _ here => here)
  | succ count ih =>
    refine .bind (pop_owes lawful 0) (fun popped => ?_)
    cases popped with
    | none => exact .fail _
    | some chain =>
      refine .bind (Idles.owes .get) (fun c => .bind (request_idles _ _).owes (fun used => ?_))
      exact .bind (complete_owes lawful rfl used) (fun _ => ih)

theorem notify_owes (lawful : env.vq.Lawful) (queue : Nat) :
    Upon (Cell.Owes Any past (holding none)) (notify env queue : Prog (Cell (Block B)) _ Unit)
      (fun _ => Cell.Owes Any past (holding none)) :=
  .bind (Idles.available 0).owes (fun count => serve_owes lawful count)

end Block

namespace Net

variable {N : Type}

def Defers (tx : Option Nat) (d : Net N) : Prop := d.pendingTx = tx

/-- The device holds the chain of the deferred frame and no other. -/
def Settled (past : List Action) (c : Cell (Net N)) : Prop :=
  Cell.Owes (Defers c.device.pendingTx) past (holding c.device.pendingTx) c

theorem Settled.of {tx : Option Nat} {c : Cell (Net N)} (owes : Cell.Owes (Defers tx) past (holding tx) c) :
    Settled past c := by
  have same : c.device.pendingTx = tx := owes.device
  rw [← same] at owes
  exact owes

/-- The chain that was taken is out of the books again, but not back in its ring. -/
def Behind (tx : Option Nat) (past : List Action) (c : Cell (Net N)) : Prop :=
  Defers tx c.device ∧ ∀ q, c.queues.rings[0]? = some q → Ledger (holding tx) (past ++ c.trace)
    (c.queues.rings.set 0 {q with nextAvail := (65535 + q.nextAvail) % 65536})

/-- The books after the backend was asked for a packet. -/
def Received (tx : Option Nat) (past : List Action) (head : Nat) : Option Nat → Cell (Net N) → Prop
  | none => Behind tx past
  | some _ => Cell.Owes (Defers tx) past (Function.update (holding tx) 0 (holding tx 0 ++ [head]))

theorem record_behind {tx : Option Nat} {head : Nat} (buffer : List VolatileSlice) :
    Upon (Cell.Owes (Defers tx) past (Function.update (holding tx) 0 (holding tx 0 ++ [head])))
      (Cell.record (.recv buffer (some none)) : Prog (Cell (Net N)) (Failure DeviceError) Unit)
      (fun _ => Behind tx past) := by
  refine .modify (fun c here => ⟨here.device,fun q found => ?_⟩)
  have only : Function.update (holding tx) 0 (holding tx 0 ++ [head]) 0 = [head] := by
    rw [Function.update_self]
    rfl
  have back := here.ledger.putBack found only buffer
  have same : Function.update (holding tx) 0 [] = holding tx := Function.update_eq_self 0 (holding tx)
  rw [Function.update_idem,same,List.append_assoc] at back
  exact back

theorem recorded_recv {tx : Option Nat} {head : Nat} (buffer : List VolatileSlice)
    (r : Except NetError (Option Nat)) {f : Cell (Net N) → Cell (Net N)}
    (keeps : ∀ c, Defers tx c.device → Defers tx (f c).device) (queues : ∀ c, (f c).queues = c.queues)
    (trace : ∀ c, (f c).trace = c.trace) :
    Upon (Cell.Owes (Defers tx) past (Function.update (holding tx) 0 (holding tx 0 ++ [head])))
      (Prog.modify f >>= fun _ => Cell.record (.recv buffer (answer r)) >>= fun _ =>
        Prog.ofExcept (r.mapError (fun e => Failure.error (DeviceError.net e))))
      (Received tx past head) := by
  rcases r with e | _ | len
  · exact .bind (Idles.change keeps queues trace).owes (fun _ => .bind (Idles.record ⟨fun _ _ => rfl,fun _ => rfl⟩).owes
      (fun _ => .fail _))
  · exact .bind (Idles.change keeps queues trace).owes (fun _ => .bind (record_behind buffer)
      (fun _ => .pure (fun _ here => here)))
  · exact .bind (Idles.change keeps queues trace).owes (fun _ => .bind (Idles.record ⟨fun _ _ => rfl,fun _ => rfl⟩).owes
      (fun _ => .pure (fun _ here => here)))

theorem deliver_idles (tx : Option Nat) (direct : Bool) (slices : List VolatileSlice) (total : Nat) :
    Idles (Defers tx) (deliver direct slices total : Prog (Cell (Net N)) _ Unit) := by
  unfold deliver
  split
  · exact Idles.onWorld _
  · refine .bind (Idles.change (fun _ here => here) (fun _ => rfl) (fun _ => rfl)) (fun _ => .bind .get (fun c => ?_))
    exact Idles.onWorld _

variable [NetDevice N]

theorem backendSend_idles (tx : Option Nat) (frame : List VolatileSlice) (host : Host) :
    Idles (Defers tx) (backendSend frame host : Prog (Cell (Net N)) _ Bool) := by
  refine .bind .get (fun c => ?_)
  apply Idles.call
  · exact fun _ here => here
  · exact fun _ => rfl
  · exact fun _ => rfl
  · exact ⟨fun _ _ => rfl,fun _ => rfl⟩

theorem retry_owes (lawful : env.vq.Lawful) (head : Nat) :
    Upon (Cell.Owes (Defers (some head)) past (holding (some head)))
      (retry env head : Prog (Cell (Net N)) _ Bool) (fun _ => Settled past) := by
  refine .bind (Idles.owes .get) (fun c => .bind (backendSend_idles (some head) _ _).owes (fun sent => ?_))
  split
  · have cancelled : Upon (Cell.Owes (Defers (some head)) past (holding (some head)))
        (Prog.modify (fun c : Cell (Net N) => {c with device := {c.device with pendingTx := none}}) :
          Prog _ (Failure DeviceError) Unit)
        (fun _ => Cell.Owes (Defers none) past (Function.update (holding none) 1 (holding none 1 ++ [head]))) := by
      rw [holding_some]
      exact .modify (fun c here => ⟨rfl,here.ledger⟩)
    exact .bind cancelled (fun _ => .bind (complete_owes lawful rfl 0) (fun _ => .pure (fun _ here => .of here)))
  · exact .pure (fun _ here => .of here)

theorem sendChain_owes (lawful : env.vq.Lawful) (chain : Chain) :
    Upon (Cell.Owes (Defers none) past (Function.update (holding none) 1 (holding none 1 ++ [chain.head])))
      (sendChain env chain : Prog (Cell (Net N)) _ Bool) (fun _ => Settled past) := by
  refine .bind (Idles.owes (.require _ _)) (fun _ => ?_)
  split
  · exact .fail _
  refine .bind (Idles.owes .get) (fun c => .bind (Idles.owes (.require _ _)) (fun _ => ?_))
  refine .bind (Idles.owes (.ofExcept _)) (fun slices => .bind (Idles.onWorld _).owes (fun header => ?_))
  refine .bind (Idles.owes (.require _ _)) (fun _ => .bind (Idles.owes (.ofExcept _)) (fun payload => ?_))
  refine .bind (Idles.onWorld _).owes (fun _ => .bind (Idles.owes .get) (fun c => ?_))
  refine .bind (backendSend_idles none _ _).owes (fun sent => ?_)
  split
  · exact .bind (complete_owes lawful rfl 0) (fun _ => .pure (fun _ here => .of here))
  · refine .bind (Idles.onWorld _).owes (fun tx => .bind (.modify (fun c here => ?_)) (fun _ => .pure (fun _ here => here)))
    refine Settled.of ⟨rfl,?_⟩
    rw [holding_some]
    exact here.ledger

theorem transmitLoop_owes (lawful : env.vq.Lawful) (budget : Nat) :
    Upon (Settled past) (transmitLoop env budget : Prog (Cell (Net N)) _ Unit) (fun _ => Settled past) := by
  induction budget with
  | zero => exact .pure (fun _ here => here)
  | succ budget ih =>
    have again (sent : Bool) : Upon (Settled past)
        (if sent then transmitLoop env budget else Pure.pure () : Prog (Cell (Net N)) _ Unit)
        (fun _ => Settled past) := by
      split
      · exact ih
      · exact .pure (fun _ here => here)
    refine .get (fun c settled => ?_)
    have here : ∀ now, now = c → Cell.Owes (Defers c.device.pendingTx) past (holding c.device.pendingTx) now := by
      rintro _ rfl
      exact settled
    generalize c.device.pendingTx = tx at here
    cases tx with
    | some head =>
      exact .bind ((retry_owes lawful head).consequence here (fun _ _ owes => owes)) (fun sent => again sent)
    | none =>
      refine .bind ((pop_owes lawful 1).consequence here (fun _ _ took => took)) (fun popped => ?_)
      cases popped with
      | none => exact .pure (fun _ here => .of here)
      | some chain => exact .bind (sendChain_owes lawful chain) (fun sent => again sent)

theorem transmit_owes (lawful : env.vq.Lawful) :
    Upon (Settled past) (transmit env : Prog (Cell (Net N)) _ Unit) (fun _ => Settled past) := by
  have finding : Upon (Settled past) (Cell.ring 1 : Prog (Cell (Net N)) (Failure DeviceError) Queue)
      (fun _ => Settled past) := by
    intro c q c' here ran
    rwa [(ring_success ran).2]
  refine .bind finding (fun q => ?_)
  split
  · exact transmitLoop_owes lawful BUDGET
  · exact .pure (fun _ here => here)

theorem backendRecv_owes {tx : Option Nat} {head : Nat} (direct : Bool) (payload : List VolatileSlice) :
    Upon (Cell.Owes (Defers tx) past (Function.update (holding tx) 0 (holding tx 0 ++ [head])))
      (backendRecv direct payload : Prog (Cell (Net N)) _ (Option Nat)) (Received tx past head) := by
  refine .bind (Idles.owes .get) (fun c => ?_)
  split
  · apply recorded_recv
    · exact fun _ here => here
    · exact fun _ => rfl
    · exact fun _ => rfl
  · apply recorded_recv
    · exact fun _ here => here
    · exact fun _ => rfl
    · exact fun _ => rfl

theorem recvChain_owes (lawful : env.vq.Lawful) {tx : Option Nat} (chain : Chain) :
    Upon (Cell.Owes (Defers tx) past (Function.update (holding tx) 0 (holding tx 0 ++ [chain.head])))
      (recvChain env chain : Prog (Cell (Net N)) _ Bool) (fun _ => Cell.Owes (Defers tx) past (holding tx)) := by
  refine .bind (Idles.owes (.require _ _)) (fun _ => ?_)
  split
  · exact .fail _
  refine .bind (Idles.owes .get) (fun c => .bind (Idles.owes (.ofExcept _)) (fun slices => ?_))
  refine .bind (Idles.owes (.ofExcept _)) (fun payload => .bind (backendRecv_owes _ _) (fun received => ?_))
  cases received with
  | none =>
    intro c more c' behind ran
    obtain ⟨q,_,finding,later⟩ := Prog.bind_success ran
    obtain ⟨found,rfl⟩ := ring_success finding
    cases later
    exact ⟨behind.1,behind.2 q found⟩
  | some len =>
    refine .bind (Idles.owes .get) (fun c => .bind (Idles.owes (.require _ _)) (fun _ => ?_))
    dsimp only
    split
    · exact .bind (complete_owes lawful rfl 0) (fun _ => .pure (fun _ here => here))
    · refine .bind (deliver_idles tx _ _ _).owes (fun _ => ?_)
      exact .bind (complete_owes lawful rfl _) (fun _ => .pure (fun _ here => here))

theorem receiveLoop_owes (lawful : env.vq.Lawful) {tx : Option Nat} (budget : Nat) :
    Upon (Cell.Owes (Defers tx) past (holding tx)) (receiveLoop env budget : Prog (Cell (Net N)) _ Unit)
      (fun _ => Cell.Owes (Defers tx) past (holding tx)) := by
  induction budget with
  | zero => exact .pure (fun _ here => here)
  | succ budget ih =>
    refine .bind (pop_owes lawful 0) (fun popped => ?_)
    cases popped with
    | none => exact .pure (fun _ here => here)
    | some chain =>
      refine .bind (recvChain_owes lawful chain) (fun more => ?_)
      split
      · exact ih
      · exact .pure (fun _ here => here)

theorem receive_owes (lawful : env.vq.Lawful) :
    Upon (Settled past) (receive env : Prog (Cell (Net N)) _ Unit) (fun _ => Settled past) :=
  fun c u c' settled ran => .of (receiveLoop_owes lawful BUDGET c u c' settled ran)

theorem notify_owes (lawful : env.vq.Lawful) (queue : Nat) :
    Upon (Settled past) (notify env queue : Prog (Cell (Net N)) _ Unit) (fun _ => Settled past) := by
  unfold notify
  split
  · exact receive_owes lawful
  · exact transmit_owes lawful
  · exact .fail _

theorem poll_owes (lawful : env.vq.Lawful) :
    Upon (Settled past) (poll env : Prog (Cell (Net N)) _ Unit) (fun _ => Settled past) :=
  .bind (transmit_owes lawful) (fun _ => receive_owes lawful)

end Net

namespace VirtioMem

variable {M : Type}

/-- A memory device in a transaction whose chains are in the books. -/
abbrev Owing (past : List Action) (held : Nat → List Nat) (t : Txn M) : Prop :=
  Cell.Owes (fun _ => True) past held t.cell

theorem idles_owing {ε α : Type} {held : Nat → List Nat} {m : Prog (Txn M) ε α} (idles : Always Txn.Idly m) :
    Upon (Owing past held) m (fun _ => Owing past held) :=
  .ofAlways idles (fun _ _ moved owes => Cell.Owes.idly _ _ moved owes)

variable [Mapper M]

theorem serve_owes (lawful : env.vq.Lawful) (pinned : List (Nat × Nat)) (chain : Chain) :
    Upon (Owing past (Function.update (holding none) 0 (holding none 0 ++ [chain.head])))
      (serve env pinned chain : Prog (Txn M) _ Unit) (fun _ => Owing past (holding none)) := by
  refine .bind (idles_owing (.require _ _)) (fun _ => .bind (idles_owing (onWorld_idles _)) (fun req => ?_))
  refine .bind (idles_owing (Always.mapError (request_idles req _) _)) (fun answer => ?_)
  refine .bind (idles_owing (onWorld_idles _)) (fun _ => ?_)
  exact .zoom (complete_owes lawful rfl 10) (fun _ here => here) (fun _ _ _ _ owes => owes)

theorem processLoop_owes (lawful : env.vq.Lawful) (pinned : List (Nat × Nat)) (budget : Nat) :
    Upon (Owing past (holding none)) (processLoop env pinned budget : Prog (Txn M) _ Unit)
      (fun _ => Owing past (holding none)) := by
  induction budget with
  | zero => exact .pure (fun _ here => here)
  | succ budget ih =>
    have taking : Upon (Owing past (holding none)) (Txn.onCell (Queues.pop env 0) : Prog (Txn M) _ _)
        (fun popped t => Cell.Took (fun _ => True) past (holding none) 0 popped t.cell) :=
      .zoom (pop_owes lawful 0) (fun _ here => here) (fun _ _ _ _ took => took)
    refine .bind taking (fun popped => ?_)
    cases popped with
    | none => exact .pure (fun _ here => here)
    | some chain => exact .bind (serve_owes lawful pinned chain) (fun _ => ih)

end VirtioMem

namespace Device

variable {B N : Type}

def deferred : Device B N → Option Nat
  | .net d => d.pendingTx
  | _ => none

def Booked (past : List Action) (c : Cell (Device B N)) : Prop :=
  Ledger (holding c.device.deferred) (past ++ c.trace) c.queues.rings

theorem idles_booked {α : Type} {p : Prog (Cell (Device B N)) (Failure DeviceError) α}
    (idles : ∀ tx, Idles (fun d : Device B N => d.deferred = tx) p) :
    Upon (Booked past) p (fun _ => Booked past) := by
  intro c a c' booked ran
  have owes := (idles c.device.deferred).owes c a c' ⟨rfl,booked⟩ ran
  unfold Booked
  rw [owes.device]
  exact owes.ledger

theorem dispatch_booked {onBlock : Prog (Cell (Block B)) (Failure DeviceError) Unit}
    {onNet : Prog (Cell (Net N)) (Failure DeviceError) Unit}
    {onMem : Prog (Cell VirtioMem) (Failure DeviceError) Unit}
    (block : Upon (Cell.Owes Block.Any past (holding none)) onBlock (fun _ => Cell.Owes Block.Any past (holding none)))
    (net : Upon (Net.Settled past) onNet (fun _ => Net.Settled past))
    (mem : Upon (Cell.Owes (fun _ => True) past (holding none)) onMem
      (fun _ => Cell.Owes (fun _ => True) past (holding none))) :
    Upon (Booked past) (dispatch onBlock onNet onMem) (fun _ => Booked past) := by
  intro c u c' booked ran
  rw [dispatch,Prog.run_bind,Prog.run_get] at ran
  dsimp only at ran
  unfold Booked at booked
  cases kind : c.device with
  | block d =>
    rw [kind] at ran booked
    obtain ⟨returned,rfl⟩ := Prod.mk.inj ran
    exact (block ⟨d,c.queues,c.world,c.trace⟩ u _ ⟨trivial,booked⟩ (Prod.ext returned rfl)).ledger
  | net d =>
    rw [kind] at ran booked
    obtain ⟨returned,rfl⟩ := Prod.mk.inj ran
    exact (net ⟨d,c.queues,c.world,c.trace⟩ u _ ⟨rfl,booked⟩ (Prod.ext returned rfl)).ledger
  | mem d =>
    rw [kind] at ran booked
    obtain ⟨returned,rfl⟩ := Prod.mk.inj ran
    exact (mem ⟨d,c.queues,c.world,c.trace⟩ u _ ⟨trivial,booked⟩ (Prod.ext returned rfl)).ledger

variable [BlockStorage B] [NetDevice N]

theorem notify_booked (lawful : env.vq.Lawful) (queue : Nat) :
    Upon (Booked past) (VirtioDevice.notify env queue : Prog (Cell (Device B N)) _ Unit) (fun _ => Booked past) :=
  dispatch_booked (Block.notify_owes lawful queue) (Net.notify_owes lawful queue) (.pure (fun _ here => here))

theorem poll_booked (lawful : env.vq.Lawful) :
    Upon (Booked past) (VirtioDevice.poll env : Prog (Cell (Device B N)) _ Unit) (fun _ => Booked past) :=
  dispatch_booked (.pure (fun _ here => here)) (Net.poll_owes lawful) (.pure (fun _ here => here))

end Device
end WVmm.Devices
