import WVmm.Devices.Net
import WVmm.Devices.BufferSpec

/-! Specification of the net device: received frames go to writable descriptors
of popped chains, sent ones are only read, and a backend that keeps its contract
causes no failure. -/
namespace WVmm.Devices
open Lib.Effect

structure NetDevice.Obeys (N : Type) [NetDevice N] (trust : Trust) : Prop where
  confined : ¬trust.wild → ∀ (backend : N) buffer host p,
    (NetDevice.recv backend buffer host).2.2 p ≠ host p → p ∈ hostBytes buffer
  sends : ¬trust.faults → ∀ (backend : N) frame host, ∃ sent, (NetDevice.send backend frame host).1 = .ok sent
  receives : ¬trust.faults → ∀ (backend : N) buffer host, ∃ received,
    (NetDevice.recv backend buffer host).1 = .ok received ∧
      ∀ len, received = some len → 14 ≤ len ∧ len ≤ (hostBytes buffer).length

inductive NetDevice.Called {N : Type} [NetDevice N] (backend : N) : N → Prop
  | send (frame : List VolatileSlice) (host : Host) : Called backend (NetDevice.send backend frame host).2
  | recv (buffer : List VolatileSlice) (host : Host) : Called backend (NetDevice.recv backend buffer host).2.1

namespace Net

variable {N : Type} {env : Env} {trust : Trust} {view : GuestMemoryMmap} {k : Nat}

structure Serving (env : Env) (view : GuestMemoryMmap) (k index : Nat) (chain : Chain) (size : Nat)
    (c : Cell (Net N)) : Prop where
  wired : Wired view 2 k c
  taken : Taken env view k index chain c
  size : c.device.rx.length = size

theorem Serving.viewed {index : Nat} {chain : Chain} {size : Nat} (c : Cell (Net N))
    (serving : Serving env view k index chain size c) : c.world.view = view := serving.wired.view

theorem rxHeader_length : rxHeader.length = HEADER := rfl

variable [NetDevice N]

/-- The receive buffer keeps its size, the configuration never changes, and the
backend changes by calls. -/
structure Keeps (d d' : Net N) : Prop where
  size : d'.rx.length = d.rx.length
  config : d'.config = d.config
  backend : Relation.ReflTransGen NetDevice.Called d.backend d'.backend

instance : Kept (Keeps : Net N → Net N → Prop) where
  refl _ := ⟨rfl,rfl,.refl⟩
  trans _ _ _ first second :=
    ⟨second.size.trans first.size,second.config.trans first.config,first.backend.trans second.backend⟩

theorem Keeps.called {d : Net N} {backend : N} {rx : List UInt8} (called : NetDevice.Called d.backend backend)
    (size : rx.length = d.rx.length) : Keeps d {d with backend := backend, rx := rx} :=
  ⟨size,rfl,.single called⟩

structure Idle (view : GuestMemoryMmap) (k : Nat) (c : Cell (Net N)) : Prop where
  wired : Wired view 2 k c
  room : HEADER ≤ c.device.rx.length

theorem Idle.lasting : Lasting env trust Keeps k (Idle view k : Cell (Net N) → Prop) :=
  fun c c' moves idle => ⟨.lasting c c' moves idle.wired,
    moves.device.size ▸ idle.room⟩

theorem Serving.lasting {index : Nat} {chain : Chain} {size : Nat} :
    Lasting env trust Keeps k (Serving env view k index chain size : Cell (Net N) → Prop) :=
  fun c c' moves serving => ⟨.lasting c c' moves serving.wired,.lasting c c' moves serving.taken,
    moves.device.size.trans serving.size⟩

/-- A backend call that may fail only as far as the backend is not trusted. -/
theorem net_acts {α : Type} {pre : Cell (Net N) → Prop} {r : Except NetError α}
    (reliable : ¬trust.faults → ∃ a, r = .ok a) :
    Acts env trust Keeps k pre (Prog.ofExcept (r.mapError (fun e => .error (.net e))))
      (fun a _ => r = .ok a) := by
  refine Acts.ofExcept ?_ ?_
  · intro a returned
    cases r with
    | error e => cases returned
    | ok b =>
      cases returned
      rfl
  · intro f failed
    cases r with
    | ok _ => cases failed
    | error e =>
      cases failed
      refine ⟨_,rfl,.inr ?_⟩
      by_contra never
      obtain ⟨a,same⟩ := reliable never
      cases same

theorem deliver_acts {chain : Chain} {size : Nat} (direct : Bool) {slices : List VolatileSlice}
    {total : Nat} (room : HEADER ≤ size) (fits : total ≤ (hostBytes slices).length) (long : HEADER ≤ total)
    (granted : ∀ c, Serving env view k 0 chain size c → Granted k (hostBytes slices) (c : Cell (Net N))) :
    Acts env trust Keeps k (Serving env view k 0 chain size) (deliver direct slices total)
      (fun _ (_ : Cell (Net N)) => True) := by
  have lasting : Lasting env trust Keeps k (Serving env view k 0 chain size : Cell (Net N) → Prop) :=
    Serving.lasting
  unfold deliver
  split
  · exact Acts.copyFrom Serving.viewed (by rw [rxHeader_length]; omega) granted
  · refine Acts.bind lasting (Acts.modify (fun c here => ⟨.setDevice ⟨?_,rfl,.refl⟩,trivial⟩)) (fun _ _ => ?_)
    · change (rxHeader ++ c.device.rx.drop HEADER).length = c.device.rx.length
      rw [List.length_append,List.length_drop,rxHeader_length,here.size]
      omega
    · refine Acts.glance (fun c _ => Acts.copyFrom Serving.viewed ?_ granted)
      rw [List.length_take]
      omega

variable {pre : Cell (Net N) → Prop}

theorem backendSend_acts (obeys : NetDevice.Obeys N trust) (lasting : Lasting env trust Keeps k pre)
    (frame : List VolatileSlice) (host : Host) :
    Acts env trust Keeps k pre (backendSend frame host) (fun _ _ => True) := by
  refine Acts.get (fun c here => ?_)
  have reliable := fun never => obeys.sends never c.device.backend frame host
  have called : NetDevice.Called c.device.backend _ := .send frame host
  generalize NetDevice.send c.device.backend frame host = outcome at reliable called ⊢
  obtain ⟨r,backend⟩ := outcome
  refine Acts.change lasting (fun _ => .setDevice (.called called rfl)) ?_
  exact Acts.bind lasting (Acts.record _) (fun _ _ => (net_acts reliable).mono (fun _ _ _ => trivial))

theorem retry_acts (lawful : env.vq.Lawful) (obeys : NetDevice.Obeys N trust) (head : Nat) :
    Acts env trust Keeps k (fun c => Idle view k c ∧ ReadyRing 1 c) (retry env head)
      (fun _ (_ : Cell (Net N)) => True) := by
  have lasting : Lasting env trust Keeps k (fun c : Cell (Net N) => Idle view k c ∧ ReadyRing 1 c) :=
    Idle.lasting.and ReadyRing.lasting
  refine Acts.glance (fun c _ => Acts.bind lasting (backendSend_acts obeys lasting _ _) (fun sent _ => ?_))
  split
  · refine Acts.bind lasting (Acts.modify (fun c _ => ⟨.setDevice ⟨rfl,rfl,.refl⟩,trivial⟩)) (fun _ _ => ?_)
    exact Acts.bind lasting ((Queues.complete_acts lawful head 0).enter (fun _ here => here.2))
      (fun _ _ => Acts.pure (fun _ _ => trivial))
  · exact Acts.pure (fun _ _ => trivial)

theorem sendChain_acts (lawful : env.vm.Lawful) (lawful' : env.vq.Lawful) (obeys : NetDevice.Obeys N trust)
    (chain : Chain) (size : Nat) :
    Acts env trust Keeps k (Serving env view k 1 chain size) (sendChain env chain)
      (fun _ (_ : Cell (Net N)) => True) := by
  have lasting : Lasting env trust Keeps k (Serving env view k 1 chain size : Cell (Net N) → Prop) :=
    Serving.lasting
  refine Acts.bind lasting (Acts.require _ rfl) (fun _ _ => ?_)
  cases counted : Buffers.totalLength chain.descriptors with
  | none => exact Acts.fail rfl
  | some total =>
    have length := Buffers.totalLength_eq counted
    refine Acts.glance (fun c here => Acts.bind lasting (Acts.require _ rfl) (fun _ fits => ?_))
    refine Acts.bind lasting (Acts.foreign (fun _ => rfl)) (fun slices sliced => ?_)
    rw [here.wired.view] at sliced
    have backed := (Buffers.slices_backed lawful sliced).length_eq
    refine Acts.bind lasting (Acts.look Serving.viewed (Buffers.copyTo_looks (by omega))) (fun header _ => ?_)
    refine Acts.bind lasting (Acts.require _ rfl) (fun _ _ => ?_)
    obtain ⟨payload,ranged,covers⟩ := @Buffers.range_covers slices HEADER (total - HEADER) (by omega)
    rw [ranged]
    refine Acts.bind lasting Acts.given (fun _ same => ?_)
    subst same
    refine Acts.bind lasting (Acts.look Serving.viewed .observe) (fun _ _ => Acts.glance (fun c _ => ?_))
    refine Acts.bind lasting (backendSend_acts obeys lasting _ _) (fun sent _ => ?_)
    split
    · exact Acts.bind lasting ((Queues.complete_acts lawful' _ _).enter (fun _ serving => serving.taken.ready))
        (fun _ _ => Acts.pure (fun _ _ => trivial))
    · refine Acts.bind lasting (Acts.look Serving.viewed (Buffers.copyTo_looks ?_)) (fun tx _ => ?_)
      · rw [covers,List.length_take,List.length_drop]
        omega
      · exact Acts.bind lasting (Acts.modify (fun c _ => ⟨.setDevice ⟨rfl,rfl,.refl⟩,trivial⟩))
          (fun _ _ => Acts.pure (fun _ _ => trivial))

theorem transmitLoop_acts (lawful : env.vm.Lawful) (lawful' : env.vq.Lawful)
    (obeys : NetDevice.Obeys N trust) (budget : Nat) :
    Acts env trust Keeps k (fun c => Idle view k c ∧ ReadyRing 1 c) (transmitLoop env budget)
      (fun _ (_ : Cell (Net N)) => True) := by
  have lasting : Lasting env trust Keeps k (fun c : Cell (Net N) => Idle view k c ∧ ReadyRing 1 c) :=
    Idle.lasting.and ReadyRing.lasting
  induction budget with
  | zero => exact Acts.pure (fun _ _ => trivial)
  | succ budget ih =>
    refine Acts.glance (fun c here => ?_)
    cases c.device.pendingTx with
    | some head =>
      refine Acts.bind lasting (retry_acts lawful' obeys head) (fun sent _ => ?_)
      split
      · exact ih
      · exact Acts.pure (fun _ _ => trivial)
    | none =>
      refine Acts.step lasting ((Queues.pop_acts lawful' Nat.one_lt_two).enter (fun _ here => here.1.wired))
        (fun popped => ?_)
      cases popped with
      | none => exact Acts.pure (fun _ _ => trivial)
      | some chain =>
        refine Acts.enter ?_ (fun c here => (⟨here.1,here.2 chain rfl⟩ :
          (Idle view k c ∧ ReadyRing 1 c) ∧ Taken env view k 1 chain c))
        have serves : Acts env trust Keeps k (fun c : Cell (Net N) =>
            (Idle view k c ∧ ReadyRing 1 c) ∧ Taken env view k 1 chain c) (sendChain env chain)
            (fun _ _ => True) :=
          fun c here => sendChain_acts lawful lawful' obeys chain c.device.rx.length c
            ⟨here.1.1.wired,here.2,rfl⟩
        refine Acts.bind (lasting.and Taken.lasting) serves (fun sent _ => ?_)
        split
        · exact ih.enter (fun _ here => here.1)
        · exact Acts.pure (fun _ _ => trivial)

theorem transmit_acts (lawful : env.vm.Lawful) (lawful' : env.vq.Lawful)
    (obeys : NetDevice.Obeys N trust) :
    Acts env trust Keeps k (Idle view k) (transmit env) (fun _ (_ : Cell (Net N)) => True) := by
  refine Acts.step Idle.lasting ((Queues.ring_acts Nat.one_lt_two).enter (fun _ idle => idle.wired))
    (fun q => ?_)
  split
  · rename_i ready
    exact (transmitLoop_acts lawful lawful' obeys BUDGET).enter (fun c here => ⟨here.1,q,here.2,ready⟩)
  · exact Acts.pure (fun _ _ => trivial)

/-- A received frame has a length the device can hold, if the backend is trusted. -/
def Sound (trust : Trust) (size : Nat) (received : Option Nat) : Prop :=
  ¬trust.faults → ∀ len, received = some len → 14 ≤ len ∧ len ≤ size - HEADER

theorem backendRecv_acts (obeys : NetDevice.Obeys N trust) {chain : Chain} {size : Nat} (direct : Bool)
    (payload : List VolatileSlice)
    (granted : direct = true → (hostBytes payload).length = size - HEADER ∧
      ∀ c, Serving env view k 0 chain size c → Granted k (hostBytes payload) (c : Cell (Net N))) :
    Acts env trust Keeps k (Serving env view k 0 chain size) (backendRecv direct payload)
      (fun received (_ : Cell (Net N)) => Sound trust size received) := by
  have lasting : Lasting env trust Keeps k (Serving env view k 0 chain size : Cell (Net N) → Prop) :=
    Serving.lasting
  refine Acts.get (fun c here => ?_)
  split
  · rename_i straight
    have reliable := fun never => obeys.receives never c.device.backend payload c.world.host
    have confined := fun tame => obeys.confined tame c.device.backend payload c.world.host
    have called : NetDevice.Called c.device.backend _ := .recv payload c.world.host
    generalize NetDevice.recv c.device.backend payload c.world.host = outcome at reliable confined called ⊢
    obtain ⟨r,backend,host⟩ := outcome
    refine Acts.change lasting ?_ (Acts.bind lasting (Acts.record _) (fun _ _ => (net_acts ?_).mono ?_))
    · intro here
      refine ⟨List.prefix_refl _,⟨rfl,rfl,rfl,⟨[],rfl⟩,?_⟩,.refl _,rfl,.inl rfl,.called called rfl⟩
      intro p _ outside
      rw [not_or] at outside
      by_contra changed
      exact outside.2 (.inr ((granted straight).2 c here p (confined outside.1 p changed)))
    · exact fun never => (reliable never).imp (fun _ holds => holds.1)
    · intro received _ returned never len some
      obtain ⟨_,same,sound⟩ := reliable never
      cases returned.symm.trans same
      exact (granted straight).1 ▸ sound len some
  · dsimp only
    have reliable := fun never => obeys.receives never c.device.backend
      [⟨HEADER,c.device.rx.length - HEADER⟩] (bufferHost c.device.rx)
    have called : NetDevice.Called c.device.backend _ :=
      .recv [⟨HEADER,c.device.rx.length - HEADER⟩] (bufferHost c.device.rx)
    generalize NetDevice.recv c.device.backend [⟨HEADER,c.device.rx.length - HEADER⟩]
      (bufferHost c.device.rx) = outcome at reliable called ⊢
    obtain ⟨r,backend,memory⟩ := outcome
    refine Acts.change lasting (fun _ => .setDevice (.called called ?_))
      (Acts.bind lasting (Acts.record _) (fun _ _ => (net_acts ?_).mono ?_))
    · simp
    · exact fun never => (reliable never).imp (fun _ holds => holds.1)
    · intro received _ returned never len some
      obtain ⟨_,same,sound⟩ := reliable never
      cases returned.symm.trans same
      have fits := sound len some
      simp only [hostBytes,List.flatMap_cons,List.flatMap_nil,List.append_nil,VolatileSlice.bytes,
        List.length_range',here.size] at fits
      exact fits

theorem recvChain_acts (lawful : env.vm.Lawful) (lawful' : env.vq.Lawful)
    (obeys : NetDevice.Obeys N trust) (chain : Chain) {size : Nat} (room : HEADER ≤ size) :
    Acts env trust Keeps k (Serving env view k 0 chain size) (recvChain env chain)
      (fun _ (_ : Cell (Net N)) => True) := by
  have lasting : Lasting env trust Keeps k (Serving env view k 0 chain size : Cell (Net N) → Prop) :=
    Serving.lasting
  refine Acts.bind lasting (Acts.require _ rfl) (fun _ writable => ?_)
  cases counted : Buffers.totalLength chain.descriptors with
  | none => exact Acts.fail rfl
  | some capacity =>
    have length := Buffers.totalLength_eq counted
    refine Acts.glance (fun c here => Acts.bind lasting (Acts.foreign (fun _ => rfl)) (fun slices sliced => ?_))
    rw [here.wired.view] at sliced
    have backed := Buffers.slices_backed lawful sliced
    have total := backed.length_eq
    -- Every descriptor is writable, so every byte of the slices is granted.
    have granted : ∀ c, Serving env view k 0 chain size c →
        Granted k (hostBytes slices) (c : Cell (Net N)) := by
      intro c serving
      refine serving.taken.grants serving.wired.view backed ?_
      intro a inside
      obtain ⟨d,listed,holds⟩ := List.mem_flatMap.mp inside
      exact ⟨d,listed,List.all_eq_true.mp writable d listed,holds⟩
    rw [here.size]
    have ranged : ∃ payload, directRange (decide (capacity ≥ size) && !Buffers.overlaps slices) slices size =
        .ok payload ∧ ((decide (capacity ≥ size) && !Buffers.overlaps slices) = true →
          hostBytes payload = ((hostBytes slices).drop HEADER).take (size - HEADER) ∧ size ≤ capacity) := by
      unfold directRange
      split
      · rename_i straight
        rw [Bool.and_eq_true,decide_eq_true_iff] at straight
        obtain ⟨payload,found,covers⟩ := @Buffers.range_covers slices HEADER (size - HEADER) (by omega)
        exact ⟨payload,found,fun _ => ⟨covers,straight.1⟩⟩
      · rename_i indirect
        exact ⟨[],rfl,fun straight => absurd straight indirect⟩
    generalize (decide (capacity ≥ size) && !Buffers.overlaps slices) = direct at ranged ⊢
    obtain ⟨payload,found,covers⟩ := ranged
    dsimp only
    rw [found]
    refine Acts.bind lasting Acts.given (fun _ same => ?_)
    subst same
    refine Acts.bind lasting (backendRecv_acts obeys direct _ ?_) (fun received sound => ?_)
    · intro straight
      obtain ⟨bytes,fits⟩ := covers straight
      refine ⟨by rw [bytes,List.length_take,List.length_drop]; omega,fun c serving p inside => ?_⟩
      rw [bytes] at inside
      exact granted c serving p (List.mem_of_mem_drop (List.mem_of_mem_take inside))
    · cases received with
      | none =>
        refine Acts.step lasting ((Queues.ring_acts Nat.zero_lt_two).enter (fun _ serving => serving.wired))
          (fun q => Acts.closing ?_)
        have same : SameRing q {q with nextAvail := (65535 + q.nextAvail) % 65536} := rfl
        exact fun c here => .setRing Kept.refl here.2 same
      | some len =>
        refine Acts.glance (fun c here => ?_)
        rw [here.size]
        refine Acts.bind lasting (Acts.demand _ (fun never => sound never len rfl)) (fun _ holds => ?_)
        split
        · exact Acts.bind lasting ((Queues.complete_acts lawful' _ _).enter
            (fun _ serving => serving.taken.ready)) (fun _ _ => Acts.pure (fun _ _ => trivial))
        · refine Acts.bind lasting (deliver_acts direct room (by omega) (by omega) granted) (fun _ _ => ?_)
          exact Acts.bind lasting ((Queues.complete_acts lawful' _ _).enter
            (fun _ serving => serving.taken.ready)) (fun _ _ => Acts.pure (fun _ _ => trivial))

theorem receiveLoop_acts (lawful : env.vm.Lawful) (lawful' : env.vq.Lawful)
    (obeys : NetDevice.Obeys N trust) (budget : Nat) :
    Acts env trust Keeps k (Idle view k) (receiveLoop env budget) (fun _ (_ : Cell (Net N)) => True) := by
  induction budget with
  | zero => exact Acts.pure (fun _ _ => trivial)
  | succ budget ih =>
    refine Acts.step Idle.lasting ((Queues.pop_acts lawful' Nat.zero_lt_two).enter (fun _ idle => idle.wired))
      (fun popped => ?_)
    cases popped with
    | none => exact Acts.pure (fun _ _ => trivial)
    | some chain =>
      refine Acts.enter ?_ (fun c here =>
        (⟨here.1,here.2 chain rfl⟩ : Idle view k c ∧ Taken env view k 0 chain c))
      have serves : Acts env trust Keeps k (fun c : Cell (Net N) => Idle view k c ∧ Taken env view k 0 chain c)
          (recvChain env chain) (fun _ _ => True) :=
        fun c here => recvChain_acts lawful lawful' obeys chain here.1.room c ⟨here.1.wired,here.2,rfl⟩
      refine Acts.bind (Idle.lasting.and Taken.lasting) serves (fun more _ => ?_)
      split
      · exact ih.enter (fun _ here => here.1)
      · exact Acts.pure (fun _ _ => trivial)

theorem notify_acts (lawful : env.vm.Lawful) (lawful' : env.vq.Lawful) (obeys : NetDevice.Obeys N trust)
    (queue : Nat) (known : queue < 2) :
    Acts env trust Keeps k (Idle view k) (notify env queue) (fun _ (_ : Cell (Net N)) => True) := by
  match queue,known with
  | 0,_ => exact receiveLoop_acts lawful lawful' obeys BUDGET
  | 1,_ => exact transmit_acts lawful lawful' obeys

theorem poll_acts (lawful : env.vm.Lawful) (lawful' : env.vq.Lawful) (obeys : NetDevice.Obeys N trust) :
    Acts env trust Keeps k (Idle view k) (poll env) (fun _ (_ : Cell (Net N)) => True) :=
  Acts.bind Idle.lasting (transmit_acts lawful lawful' obeys)
    (fun _ _ => receiveLoop_acts lawful lawful' obeys BUDGET)

end Net
end WVmm.Devices
