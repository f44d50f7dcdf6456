import WVmm.Network.Life
import WVmm.Runtime.Transmissions
import WVmm.Devices.Renewal
import WVmm.Devices.Records
import WVmm.Runtime.Bringup

/-! The sizes of frames over whole runs of the machine: the net device offers legal
frames alone and always has room for one, also for a frame that it kept for later. -/
namespace WVmm.Devices
open Lib.Effect

/-- The backend after one call, for a legal frame or with room for just one. -/
inductive NetDevice.Fitting {N : Type} [NetDevice N] (backend : N) : N → Prop
  | send {frame : List VolatileSlice} (host : Host) : 14 ≤ (hostBytes frame).length →
      (hostBytes frame).length ≤ NetDevice.maxFrameLen backend → Fitting backend (NetDevice.send backend frame host).2
  | recv {buffer : List VolatileSlice} (host : Host) : (hostBytes buffer).length = NetDevice.maxFrameLen backend →
      Fitting backend (NetDevice.recv backend buffer host).2.1

namespace Net

variable {N : Type} {env : Env} [NetDevice N]

structure Sized (d : Net N) : Prop where
  room : d.rx.length = HEADER + NetDevice.maxFrameLen d.backend
  deferred : d.pendingTx ≠ none → 14 ≤ d.tx.length ∧ d.tx.length ≤ NetDevice.maxFrameLen d.backend

structure Fed (d d' : Net N) : Prop where
  room : d'.rx.length = d.rx.length
  sized : d'.Sized
  calls : Relation.ReflTransGen NetDevice.Fitting d.backend d'.backend

def Feeds (c c' : Cell (Net N)) : Prop := c.device.Sized → Fed c.device c'.device

instance : IsPreorder (Cell (Net N)) Feeds where
  refl _ sized := ⟨rfl,sized,.refl⟩
  trans _ _ _ first second sized :=
    have fed := first sized
    have fed' := second fed.sized
    ⟨fed'.room.trans fed.room,fed'.sized,fed.calls.trans fed'.calls⟩

def Room (fact : Nat → Prop) (c : Cell (Net N)) : Prop := c.device.Sized ∧ fact c.device.rx.length

theorem room_stable (fact : Nat → Prop) : Stable Feeds (Room fact : Cell (Net N) → Prop) := by
  intro c c' feeds here
  have fed := feeds here.1
  exact ⟨fed.sized,fed.room ▸ here.2⟩

abbrev Feeding {α : Type} (pre : Cell (Net N) → Prop) (m : Prog (Cell (Net N)) (Failure DeviceError) α) : Prop :=
  Triple pre Feeds (fun _ => True) m (fun _ _ => True)

namespace Feeding

variable {α β : Type} {pre : Cell (Net N) → Prop} {m : Prog (Cell (Net N)) (Failure DeviceError) α}

theorem still (same : ∀ c, (m.run c).2.device = c.device) : Feeding pre m := by
  refine fun c _ => ⟨fun sized => ?_,fun _ _ => trivial,fun _ _ => trivial⟩
  rw [same]
  exact refl_of Feeds c sized

theorem ofCalm (calm : Always Cell.Calm m) : Feeding pre m := still (fun c => (calm c).2)

theorem bind (stable : Stable Feeds pre) {f : α → Prog (Cell (Net N)) (Failure DeviceError) β} (first : Feeding pre m)
    (rest : ∀ a, Feeding pre (f a)) : Feeding pre (m >>= f) :=
  first.chain (fun _ _ _ => trans_of Feeds) stable rest

theorem next {f : α → Prog (Cell (Net N)) (Failure DeviceError) β} (first : Feeding pre m)
    (sized : ∀ c, pre c → c.device.Sized) (rest : ∀ a, Feeding (fun c => c.device.Sized) (f a)) :
    Feeding pre (m >>= f) := by
  have keeps : Triple pre Feeds (fun _ => True) m (fun _ c => c.device.Sized) := by
    intro c here
    obtain ⟨feeds,_,_⟩ := first c here
    exact ⟨feeds,fun _ _ => (feeds (sized c here)).sized,fun _ _ => trivial⟩
  exact Triple.bind (fun _ _ _ => trans_of Feeds) keeps rest

/-- A result that was computed elsewhere, for which more is known. -/
theorem ofExcept {r : Except (Failure DeviceError) α} {f : α → Prog (Cell (Net N)) (Failure DeviceError) β}
    (rest : ∀ a, r = .ok a → Feeding pre (f a)) : Feeding pre (Prog.ofExcept r >>= f) := by
  intro c here
  cases r with
  | error e => exact ⟨refl_of Feeds c,fun _ _ => trivial,fun _ _ => trivial⟩
  | ok a => exact rest a rfl c here

theorem require {c : Prop} [Decidable c] {e : Failure DeviceError}
    {f : Unit → Prog (Cell (Net N)) (Failure DeviceError) β} (rest : c → Feeding pre (f ())) :
    Feeding pre (Prog.require c e >>= f) := by
  intro cell here
  rw [Prog.run_guard]
  split
  · exact rest ‹c› cell here
  · exact ⟨refl_of Feeds cell,fun _ _ => trivial,fun _ _ => trivial⟩

theorem get {f : Cell (Net N) → Prog (Cell (Net N)) (Failure DeviceError) β}
    (rest : ∀ c, pre c → Feeding pre (f c)) : Feeding pre (Prog.get >>= f) :=
  fun c here => rest c here c here

theorem modify {f : Cell (Net N) → Cell (Net N)} (moves : ∀ c, pre c → Feeds c (f c)) : Feeding pre (Prog.modify f) :=
  fun c here => ⟨moves c here,fun _ _ => trivial,fun _ _ => trivial⟩

theorem weaken {pre' : Cell (Net N) → Prop} (feeding : Feeding pre m) (stronger : ∀ c, pre' c → pre c) :
    Feeding pre' m :=
  fun c here => feeding c (stronger c here)

end Feeding

/-- One call of the backend; the receive buffer may be written. -/
theorem Fed.called (constant : NetDevice.Constant N) {d : Net N} {backend : N} {rx : List UInt8} (sized : d.Sized)
    (called : NetDevice.Called d.backend backend) (fitting : NetDevice.Fitting d.backend backend)
    (length : rx.length = d.rx.length) : Fed d {d with backend := backend, rx := rx} := by
  have same := (constant d.backend backend called).2
  refine ⟨length,⟨?_,?_⟩,.single fitting⟩
  · rw [length,sized.room,same]
  · intro waits
    rw [same]
    exact sized.deferred waits

variable {pre : Cell (Net N) → Prop}

theorem backendSend_feeds (constant : NetDevice.Constant N) {frame : List VolatileSlice} (host : Host)
    (fits : ∀ c : Cell (Net N), pre c → 14 ≤ (hostBytes frame).length ∧
      (hostBytes frame).length ≤ NetDevice.maxFrameLen c.device.backend) : Feeding pre (backendSend frame host) := by
  refine fun c here => ⟨fun sized => ?_,fun _ _ => trivial,fun _ _ => trivial⟩
  obtain ⟨least,most⟩ := fits c here
  exact Fed.called constant sized (.send frame host) (.send host least most) rfl

theorem hostBytes_single (ptr len : Nat) : (hostBytes [⟨ptr,len⟩]).length = len := by
  simp only [hostBytes,List.flatMap_cons,List.flatMap_nil,List.append_nil,VolatileSlice.bytes,List.length_range']

theorem retry_feeds (constant : NetDevice.Constant N) (head : Nat) :
    Feeding (fun c => c.device.Sized ∧ c.device.pendingTx ≠ none) (retry (N := N) env head) := by
  refine Triple.look (fun c here => ?_)
  obtain ⟨least,most⟩ := here.1.deferred here.2
  have sends : Feeding (fun now => now = c) (backendSend (N := N) [⟨0,c.device.tx.length⟩] (bufferHost c.device.tx)) := by
    refine backendSend_feeds constant _ (fun now same => ?_)
    rw [same,hostBytes_single]
    exact ⟨least,most⟩
  refine Triple.bind (fun _ _ _ => trans_of Feeds) sends (fun sent => ?_)
  have free : Stable Feeds (fun _ : Cell (Net N) => True) := fun _ _ _ _ => trivial
  split
  · refine Feeding.bind free ?_ (fun _ =>
      Feeding.bind free (.ofCalm (Queues.complete_calm 1 head 0)) (fun _ => .still (fun _ => rfl)))
    exact Feeding.modify (fun c _ sized => ⟨rfl,⟨sized.room,fun waits => absurd rfl waits⟩,.refl⟩)
  · exact Feeding.still (fun _ => rfl)

/-- The copy of a frame that was declined is as long as the frame. -/
theorem keepFrame_feeds {slices : List VolatileSlice} {n head : Nat} (length : (hostBytes slices).length = n) :
    Feeding (Room (fun size => HEADER + 14 ≤ HEADER + n ∧ HEADER + n ≤ size)) (do
      let tx ← Cell.onWorld (Buffers.copyTo env slices n)
      Prog.modify (fun c : Cell (Net N) => {c with device := {c.device with tx := tx, pendingTx := some head}})
      return false) := by
  intro c here
  rw [Prog.run_bind]
  rcases copied : (Buffers.copyTo env slices n).run c.world with ⟨r,w⟩
  have ran : (Cell.onWorld (Buffers.copyTo env slices n) : Prog (Cell (Net N)) _ _).run c = (r,{c with world := w}) := by
    rw [Cell.onWorld,Prog.run_zoom,copied]
  rw [ran]
  cases r with
  | error e => exact ⟨fun sized => refl_of Feeds c sized,fun _ _ => trivial,fun _ _ => trivial⟩
  | ok tx =>
    refine ⟨fun sized => ⟨rfl,⟨sized.room,fun _ => ?_⟩,.refl⟩,fun _ _ => trivial,fun _ _ => trivial⟩
    obtain ⟨_,_,_,glimpsed⟩ := Buffers.copyTo_glimpses copied
    have size : tx.length = n := by
      rw [← glimpsed.length_eq,List.length_take,length,Nat.min_self]
    have room := sized.room
    obtain ⟨_,bounds⟩ := here
    change 14 ≤ tx.length ∧ tx.length ≤ NetDevice.maxFrameLen c.device.backend
    omega

theorem sendChain_feeds (packages : env.vm.Lawful) (constant : NetDevice.Constant N) (chain : Chain) :
    Feeding (fun c => c.device.Sized) (sendChain (N := N) env chain) := by
  refine Feeding.require (fun _ => ?_)
  split
  · exact .still (fun _ => rfl)
  rename_i total counted
  refine Triple.look (fun c sized => ?_)
  refine Feeding.require (fun bounds => ?_)
  have enters : ∀ now, now = c → Room (HEADER + 14 ≤ total ∧ total ≤ ·) now := by
    rintro now rfl
    exact ⟨sized,bounds⟩
  refine Feeding.weaken ?_ enters
  have stable := room_stable (N := N) (HEADER + 14 ≤ total ∧ total ≤ ·)
  refine Feeding.ofExcept (fun slices sliced => ?_)
  refine Feeding.bind stable (.still (fun _ => rfl)) (fun header => Feeding.require (fun _ => ?_))
  refine Feeding.ofExcept (fun payload ranged => ?_)
  have length := (payload_bytes packages counted (by omega) (Owned.mapError_eq_ok.mp sliced)
    (Owned.mapError_eq_ok.mp ranged)).2
  refine Feeding.bind stable (.still (fun _ => rfl)) (fun _ => Feeding.get (fun c' _ => ?_))
  refine Feeding.bind stable (backendSend_feeds constant _ (fun now here => ?_)) (fun sent => ?_)
  · obtain ⟨sized,bounds⟩ := here
    rw [length]
    have := sized.room
    omega
  split
  · exact Feeding.bind stable (.ofCalm (Queues.complete_calm 1 chain.head 0)) (fun _ => .still (fun _ => rfl))
  · refine (keepFrame_feeds length).weaken (fun now here => ⟨here.1,?_⟩)
    have := here.2
    omega

theorem sized_stable : Stable Feeds (fun c : Cell (Net N) => c.device.Sized) := fun _ _ feeds sized => (feeds sized).sized

theorem transmit_feeds (packages : env.vm.Lawful) (constant : NetDevice.Constant N) :
    Feeding (fun c => c.device.Sized) (transmit (N := N) env) := by
  have loop : ∀ budget, Feeding (fun c => c.device.Sized) (transmitLoop (N := N) env budget) := by
    intro budget
    induction budget with
    | zero => exact .still (fun _ => rfl)
    | succ budget ih =>
      refine Triple.look (fun c sized => ?_)
      have enters : ∀ now : Cell (Net N), now = c → now.device.Sized := by
        rintro now rfl
        exact sized
      cases pending : c.device.pendingTx with
      | some head =>
        have ready : ∀ now : Cell (Net N), now = c → now.device.Sized ∧ now.device.pendingTx ≠ none := by
          rintro now rfl
          exact ⟨sized,by rw [pending]; nofun⟩
        refine ((retry_feeds constant head).weaken ready).next enters (fun sent => ?_)
        split
        · exact ih
        · exact .still (fun _ => rfl)
      | none =>
        refine Feeding.weaken ?_ enters
        refine Feeding.bind sized_stable (.ofCalm (Queues.pop_calm 1)) (fun popped => ?_)
        split
        · exact .still (fun _ => rfl)
        · refine Feeding.bind sized_stable (sendChain_feeds packages constant _) (fun sent => ?_)
          split
          · exact ih
          · exact .still (fun _ => rfl)
  refine Feeding.bind sized_stable (.ofCalm (Queues.ring_calm 1)) (fun q => ?_)
  split
  · exact loop BUDGET
  · exact .still (fun _ => rfl)

theorem backendRecv_feeds (constant : NetDevice.Constant N) (direct : Bool) {payload : List VolatileSlice}
    (length : direct = true → ∀ c, pre c → (hostBytes payload).length = NetDevice.maxFrameLen c.device.backend) :
    Feeding pre (backendRecv (N := N) direct payload) := by
  refine fun c here => ⟨fun sized => ?_,fun _ _ => trivial,fun _ _ => trivial⟩
  cases direct with
  | true => exact Fed.called constant sized (.recv payload c.world.host) (.recv c.world.host (length rfl c here)) rfl
  | false =>
    have own : (hostBytes [⟨HEADER,c.device.rx.length - HEADER⟩]).length = NetDevice.maxFrameLen c.device.backend := by
      rw [hostBytes_single,sized.room,Nat.add_sub_cancel_left]
    refine Fed.called constant sized (.recv _ (bufferHost c.device.rx)) (.recv (bufferHost c.device.rx) own) ?_
    rw [List.length_map,List.length_range]

theorem deliver_feeds (direct : Bool) (slices : List VolatileSlice) (total : Nat) :
    Feeding (fun c => c.device.Sized) (deliver (N := N) direct slices total) := by
  unfold deliver
  split
  · exact .still (fun _ => rfl)
  · refine Feeding.bind sized_stable (.modify (fun c _ sized => ?_)) (fun _ => .get (fun c _ => .still (fun _ => rfl)))
    have length : (rxHeader ++ c.device.rx.drop HEADER).length = c.device.rx.length := by
      rw [List.length_append,List.length_drop,rxHeader_length,sized.room]
      omega
    exact ⟨length,⟨length.trans sized.room,sized.deferred⟩,.refl⟩

theorem recvChain_feeds (packages : env.vm.Lawful) (constant : NetDevice.Constant N) (chain : Chain) :
    Feeding (fun c => c.device.Sized) (recvChain (N := N) env chain) := by
  refine Feeding.require (fun _ => ?_)
  split
  · exact .still (fun _ => rfl)
  rename_i capacity counted
  refine Triple.look (fun c sized => ?_)
  have enters : ∀ now : Cell (Net N), now = c → Room (· = c.device.rx.length) now := by
    rintro now rfl
    exact ⟨sized,rfl⟩
  refine Feeding.weaken ?_ enters
  have stable := room_stable (N := N) (· = c.device.rx.length)
  refine Feeding.ofExcept (fun slices sliced => ?_)
  dsimp only
  refine Feeding.ofExcept (fun payload ranged => ?_)
  have backed := Buffers.slices_backed packages (Owned.mapError_eq_ok.mp sliced)
  have whole : (hostBytes slices).length = capacity := by
    rw [← backed.length_eq,← Buffers.totalLength_eq counted]
  refine Feeding.next (backendRecv_feeds constant _ (fun direct now here => ?_)) (fun now here => here.1)
    (fun received => ?_)
  · obtain ⟨sized',same⟩ := here
    have wide : capacity ≥ c.device.rx.length := of_decide_eq_true (Bool.and_eq_true_iff.mp direct).1
    have room := sized.room
    have room' := sized'.room
    have cut := Owned.mapError_eq_ok.mp ranged
    rw [directRange,if_pos direct] at cut
    obtain ⟨part,found,covers⟩ := @Buffers.range_covers slices HEADER (c.device.rx.length - HEADER) (by omega)
    rw [cut] at found
    cases found
    rw [covers,List.length_take,List.length_drop,whole]
    omega
  split
  · exact Feeding.bind sized_stable (.ofCalm (Queues.ring_calm 0)) (fun q =>
      .bind sized_stable (.still (fun _ => rfl)) (fun _ => .still (fun _ => rfl)))
  rename_i len
  refine Feeding.get (fun c' _ => Feeding.require (fun _ => ?_))
  split
  · exact Feeding.bind sized_stable (.ofCalm (Queues.complete_calm 0 _ _)) (fun _ => .still (fun _ => rfl))
  · exact Feeding.bind sized_stable (deliver_feeds _ _ _) (fun _ =>
      .bind sized_stable (.ofCalm (Queues.complete_calm 0 _ _)) (fun _ => .still (fun _ => rfl)))

theorem receive_feeds (packages : env.vm.Lawful) (constant : NetDevice.Constant N) :
    Feeding (fun c => c.device.Sized) (receive (N := N) env) := by
  have loop : ∀ budget, Feeding (fun c => c.device.Sized) (receiveLoop (N := N) env budget) := by
    intro budget
    induction budget with
    | zero => exact .still (fun _ => rfl)
    | succ budget ih =>
      refine Feeding.bind sized_stable (.ofCalm (Queues.pop_calm 0)) (fun popped => ?_)
      split
      · exact .still (fun _ => rfl)
      · refine Feeding.bind sized_stable (recvChain_feeds packages constant _) (fun more => ?_)
        split
        · exact ih
        · exact .still (fun _ => rfl)
  exact loop BUDGET

theorem poll_feeds (packages : env.vm.Lawful) (constant : NetDevice.Constant N) :
    Feeding (fun c => c.device.Sized) (poll (N := N) env) :=
  Feeding.bind sized_stable (transmit_feeds packages constant) (fun _ => receive_feeds packages constant)

theorem new_sized {backend : N} {d : Net N} (made : Net.new backend = .ok d) : d.Sized ∧ d.backend = backend := by
  unfold Net.new at made
  dsimp only at made
  split at made
  · cases made
  split at made
  · cases made
  cases made
  exact ⟨⟨List.length_replicate,fun waits => absurd rfl waits⟩,rfl⟩

end Net
end WVmm.Devices

namespace WVmm
open Lib.Effect Lib.Runs Devices Platform

variable {V C B N U : Type} {env : Env}

/-- A net device whose buffers fit and whose backend came from this one by calls that
fit. -/
def Visit.Feeding [NetDevice N] (backend : N) (m : Mmio (Device B N)) : Prop :=
  ∃ d, m.device = .net d ∧ d.Sized ∧ Relation.ReflTransGen NetDevice.Fitting backend d.backend

/-- Each visit hands the buffers on, also one that fails, and a reset. -/
theorem Visit.Feeding.step [BlockStorage B] [NetDevice N] [VirtualMachine V C] (packages : env.vm.Lawful)
    (lawful : env.vq.Lawful) (constant : NetDevice.Constant N) {v : Visit B N} (made : Runtime.Made V env v) {backend : N}
    (feeding : Feeding backend v.before.mmio) : Feeding backend v.after.mmio := by
  obtain ⟨d,kind,sized,calls⟩ := feeding
  have runs : ∀ p : Prog (Cell (Net N)) (Failure DeviceError) Unit, Net.Feeding (fun c => c.device.Sized) p →
      v.Runs d p → Feeding backend v.after.mmio := by
    intro p feeds ran
    have fed := (feeds (v.cell d) sized).1 sized
    exact ⟨_,ran.device,fed.sized,calls.trans fed.calls⟩
  by_cases resets : v.operation.resets = true
  · exact ⟨_,(resets_net made resets kind).1,⟨sized.room,fun waits => absurd rfl waits⟩,calls⟩
  cases acts lawful made (Bool.eq_false_iff.mpr resets) kind with
  | plain quiet => exact ⟨d,quiet.device.trans kind,sized,calls⟩
  | receives _ _ ran => exact runs _ (Net.receive_feeds packages constant) ran
  | transmits _ _ ran => exact runs _ (Net.transmit_feeds packages constant) ran
  | polls _ _ ran => exact runs _ (Net.poll_feeds packages constant) ran

theorem Runtime.created_feeding [BlockStorage B] [NetDevice N] (lawful : env.vq.Lawful) {s : Runtime V C B N U}
    (created : s.Created env) {m : Mmio (Device B N)} {d : Net N} (member : m ∈ s.devices) (net : m.device = .net d) :
    Visit.Feeding d.backend m := by
  obtain ⟨x,y,made,strict,constructed,new,rfl⟩ := created m member
  rw [Mmio.new_eq lawful] at new
  cases new
  change y = .net d at net
  subst net
  refine ⟨d,rfl,?_,.refl⟩
  cases x with
  | net d₀ =>
    cases built : Net.new d₀.backend with
    | error e =>
      rw [Device.fresh,built] at constructed
      cases constructed
    | ok d' =>
      rw [Device.fresh,built] at constructed
      cases constructed
      exact (Net.new_sized built).1
  | block b =>
    rw [Device.fresh] at constructed
    cases made : Block.new b.name b.disk with
    | error e =>
      rw [made] at constructed
      cases constructed
    | ok b' =>
      rw [made] at constructed
      cases constructed
  | mem x => cases constructed

namespace Network

variable {fw : Framework}

theorem session_constant : NetDevice.Constant (Session fw) := by
  intro s s' called
  have same : s'.backend = s.backend := by
    cases called with
    | send frame host => exact (Vmnet.send_run s frame host).2
    | recv buffer host => exact (Vmnet.recv_run s buffer host).2
  exact ⟨congrArg Vmnet.mac same,congrArg Vmnet.maxFrame same⟩

/-- The packet of a call: a legal frame is written, and just one fits what is read. -/
inductive Fits (interface : Interface) (max : Nat) : Call → Prop
  | write {packet : Packet} : 14 ≤ packet.size → packet.size ≤ max → Fits interface max (.write interface packet)
  | read {packet : Packet} : packet.size = max → Fits interface max (.read interface packet)

def SizeError : NetError → Prop
  | .invalidVmnetTxFrameSize _ _ | .vmnetRxBufferTooSmall _ _ => True
  | _ => False

/-- What was done with a backend since it was as it is here: the calls on the framework,
and no call of the device that was refused for its size. -/
structure Since (start s : Session fw) (interface : Interface) (calls : List Call) : Prop where
  backend : s.backend = start.backend
  log : s.outside.calls = start.outside.calls ++ calls
  fits : ∀ c ∈ calls, Fits interface start.backend.maxFrame c
  sized : ∀ e ∈ s.errors, e ∈ start.errors ∨ ¬SizeError e

theorem Since.add {start s s' : Session fw} {interface : Interface} {calls more : List Call}
    (since : Since start s interface calls) (backend : s'.backend = s.backend)
    (log : s'.outside.calls = s.outside.calls ++ more) (fits : ∀ c ∈ more, Fits interface start.backend.maxFrame c)
    (sized : ∀ e ∈ s'.errors, e ∈ s.errors ∨ ¬SizeError e) : Since start s' interface (calls ++ more) := by
  refine ⟨backend.trans since.backend,by rw [log,since.log,List.append_assoc],fun c member => ?_,fun e member => ?_⟩
  · rcases List.mem_append.mp member with old | new
    · exact since.fits c old
    · exact fits c new
  · rcases sized e member with old | new
    · exact since.sized e old
    · exact .inr new

theorem check_sized {status : Nat} {operation : String} {e : NetError} (failed : check status operation = .error e) :
    ¬SizeError e := by
  unfold check at failed
  split at failed
  · cases failed
  · split at failed <;> cases failed <;> exact id

/-- What the backend makes of a legal frame. -/
theorem Vmnet.send_sized (s : Session fw) {frame : List VolatileSlice} (host : Host) (least : 14 ≤ (hostBytes frame).length)
    (most : (hostBytes frame).length ≤ s.backend.maxFrame) : ((send frame host).run s).2.errors = s.errors ∧
      ∀ e, ((send frame host).run s).1 = .error e → ¬SizeError e := by
  rw [send,Prog.run_bind,Prog.run_get]
  simp only [Prog.run_guard,total_eq]
  rw [if_pos ⟨least,most⟩]
  split
  · cases held : s.backend.interface with
    | none =>
      simp only [opened,held,Prog.run_bind,Prog.run_ofExcept,true_and]
      rintro e ⟨⟩
      exact id
    | some interface =>
      rcases answer : fw.write s.outside.state interface ⟨(hostBytes frame).length,gather frame⟩ host with
        ⟨status,count,state⟩
      simp only [opened,held,Prog.run_bind,Prog.run_ofExcept,write,Prog.run_mk,answer]
      split
      · exact ⟨rfl,by rintro e ⟨⟩⟩
      · cases checked : check status "vmnet write" with
        | error e =>
          refine ⟨rfl,?_⟩
          rintro e ⟨⟩
          exact check_sized checked
        | ok done =>
          rw [Prog.run_bind,Prog.run_ofExcept]
          dsimp only
          rw [Prog.run_guard]
          split
          · exact ⟨rfl,by rintro e ⟨⟩⟩
          · refine ⟨rfl,?_⟩
            rintro e ⟨⟩
            exact id
  · refine ⟨rfl,?_⟩
    rintro e ⟨⟩
    exact id

theorem Vmnet.recv_sized (s : Session fw) {buffer : List VolatileSlice} (host : Host)
    (room : s.backend.maxFrame ≤ (hostBytes buffer).length) : ((recv buffer).run (s,host)).2.1.errors = s.errors ∧
      ∀ e, ((recv buffer).run (s,host)).1 = .error e → ¬SizeError e := by
  rw [recv,Prog.run_bind,Prog.run_get]
  simp only [Prog.run_guard,total_eq]
  rw [if_pos room]
  split
  · cases held : s.backend.interface with
    | none =>
      simp only [opened,held,Prog.run_bind,Prog.run_ofExcept,true_and]
      rintro e ⟨⟩
      exact id
    | some interface =>
      rcases answer : fw.read s.outside.state interface ⟨(hostBytes buffer).length,gather buffer⟩ host with
        ⟨status,count,size,state,host'⟩
      simp only [opened,held,Prog.run_bind,Prog.run_ofExcept,read,Prog.run_mk,answer]
      cases checked : check status "vmnet read" with
      | error e =>
        refine ⟨rfl,?_⟩
        rintro e ⟨⟩
        exact check_sized checked
      | ok done =>
        dsimp only
        rw [Prog.run_require]
        by_cases legal : 0 ≤ count ∧ count ≤ 1
        · rw [if_pos legal]
          by_cases empty : count = 0
          · simp only [empty,if_true]
            exact ⟨rfl,by rintro e ⟨⟩⟩
          · simp only [empty,if_false]
            rw [Prog.run_guard]
            split
            · exact ⟨rfl,by rintro e ⟨⟩⟩
            · refine ⟨rfl,?_⟩
              rintro e ⟨⟩
              exact id
        · rw [if_neg legal]
          refine ⟨rfl,?_⟩
          rintro e ⟨⟩
          exact id
  · refine ⟨rfl,?_⟩
    rintro e ⟨⟩
    exact id

theorem Session.answered_sized {α : Type} {s s' : Session fw} {r : Except NetError α} (kept : s'.errors = s.errors)
    (sized : ∀ e, r = .error e → ¬SizeError e) : ∀ e ∈ (s'.answered r).errors, e ∈ s.errors ∨ ¬SizeError e := by
  intro e member
  change e ∈ s'.errors ++ _ at member
  rw [kept] at member
  rcases List.mem_append.mp member with old | new
  · exact .inl old
  · cases r with
    | error e' =>
      obtain rfl := List.mem_singleton.mp new
      exact .inr (sized e rfl)
    | ok a => cases new

theorem since_fitting {start s : Session fw} {interface : Interface} (held : start.backend.interface = some interface)
    (calls : Relation.ReflTransGen NetDevice.Fitting start s) : ∃ calls, Since start s interface calls := by
  induction calls with
  | refl => exact ⟨[],rfl,(List.append_nil _).symm,List.forall_mem_nil _,fun _ old => .inl old⟩
  | @tail now next _ fitting ih =>
    obtain ⟨calls,since⟩ := ih
    have backend := since.backend
    cases fitting with
    | @send frame host least most =>
      obtain ⟨log,same⟩ := Vmnet.send_run now frame host
      obtain ⟨kept,sized⟩ := Vmnet.send_sized now host least most
      refine ⟨_,since.add same log (fun c member => ?_) (Session.answered_sized kept sized)⟩
      simp only [Use.calls,backend,held,Use.closes,Bool.false_eq_true,if_false,Option.mem_toList,Use.call] at member
      split at member
      · rename_i fits
        cases member
        exact .write fits.1 fits.2.1
      · cases member
    | @recv buffer host room =>
      obtain ⟨log,same⟩ := Vmnet.recv_run now buffer host
      obtain ⟨kept,sized⟩ := Vmnet.recv_sized now host room.ge
      refine ⟨_,since.add same log (fun c member => ?_) (Session.answered_sized kept sized)⟩
      simp only [Use.calls,backend,held,Use.closes,Bool.false_eq_true,if_false,Option.mem_toList,Use.call] at member
      split at member
      · cases member
        exact .read (room.trans (congrArg Vmnet.maxFrame backend))
      · cases member

/-- What `shared` returns passes the checks of the net device on MTU and frame size. -/
theorem shared_fits {out out' : Outside fw} {backend : Vmnet} (shared : Vmnet.shared.run out = (.ok backend,out'))
    {e : DeviceError} (refused : Net.new (⟨backend,out',[]⟩ : Session fw) = .error e) :
    e = .networkMacMustBeNonzeroUnicast := by
  have made := Vmnet.shared_made out
  rw [shared] at made
  cases made with
  | opened interface held length least most calls =>
    unfold Net.new at refused
    dsimp only at refused
    split at refused
    · rename_i unfit
      exact absurd ⟨(by decide : MTU ≥ 68),least,most⟩ unfit
    split at refused
    · cases refused
      rfl
    · cases refused

/-- A net device over an interface that was started is refused for its address alone.
In every run of the machine the interface stays as it was started, and each call on it
has a frame that the backend lets pass: what the guest sends is legal before it gets
there, and what it receives has room for just the largest frame. So the backend refuses no
call of the device for its size. -/
theorem frames_fit [BlockStorage B] [VirtualMachine V C] [Uart U] (packages : env.vm.Lawful) (lawful : env.vq.Lawful)
    {out out' : Outside fw} {backend : Vmnet} (shared : Vmnet.shared.run out = (.ok backend,out')) :
    (∀ e, Net.new (⟨backend,out',[]⟩ : Session fw) = .error e → e = .networkMacMustBeNonzeroUnicast) ∧
      ∀ (first s : Runtime V C B (Session fw) U) (k : Nat) (m : Mmio (Device B (Session fw))) (d : Net (Session fw)),
        first.Created env → first.log = [] → first.devices[k]? = some m → m.device = .net d →
        d.backend = ⟨backend,out',[]⟩ → Reaches (Runtime.Happens env) first s →
        ∃ m' d' interface calls, s.devices[k]? = some m' ∧ m'.device = .net d' ∧ backend.interface = some interface ∧
          Since ⟨backend,out',[]⟩ d'.backend interface calls := by
  refine ⟨fun e refused => shared_fits shared refused,?_⟩
  intro first s k m d created unused found net own reached
  have start := Runtime.created_feeding lawful created (List.mem_of_getElem? found) net
  obtain ⟨m',found',d',kind,sized,calls⟩ := Runtime.since_reset (P := fun m _ => Visit.Feeding d.backend m) unused found start
    (fun v made _ feeding => feeding.step packages lawful session_constant made) reached
  have made := Vmnet.shared_made out
  rw [shared] at made
  cases made with
  | opened interface held length least most started =>
    rw [own] at calls
    obtain ⟨calls,since⟩ := since_fitting held calls
    exact ⟨m',d',interface,calls,found',kind,held,since⟩

end Network

namespace Reference
open Network

def relayDictionary : Dictionary where
  macAddress := some (.ok "02:00:00:00:00:01".toList)
  mtu := 1500
  maxPacketSize := 1514
  startAddress := none
  endAddress := none
  subnetMask := none

/-- A framework that takes every packet and never has one. -/
def relay : Framework where
  State := Unit
  create _ := (true,())
  startInterface _ := (some 7,.ok (SUCCESS,some relayDictionary),())
  stopInterface _ _ := (SUCCESS,.ok SUCCESS,())
  read _ _ _ host := (SUCCESS,0,0,(),host)
  write _ _ _ _ := (SUCCESS,1,())

def relayBackend : Vmnet := ⟨some 7,[2,0,0,0,0,1],1514,{}⟩

def relayStarted : Outside relay := ⟨(),[.start (some 7)]⟩

def relayNet : Net (Session relay) where
  backend := ⟨relayBackend,relayStarted,[]⟩
  config := [2,0,0,0,0,1,0,0,0,0,220,5]
  rx := List.replicate 1526 0
  pendingTx := none
  tx := []

def relayMachine : Runtime Vm Nat Disk (Session relay) Port where
  vm := ⟨⟨[],0⟩,false⟩
  layout := Runtime.diskLayout
  devices := [⟨.net relayNet,⟨[newRing,newRing],0,0⟩,0,0,0,Net.F_MAC ||| Net.F_MTU ||| VERSION_1,0,true,0⟩]
  hasMemory := false
  strict := true
  serial := ⟨[]⟩
  world := {pageWorld with host := txMemory}
  log := []

def relaySession (s : Runtime Vm Nat Disk (Session relay) Port) : Option (Session relay) :=
  match ((s.devices[0]?).map Mmio.device : Option (Device Disk (Session relay))) with
  | some (.net d) => some d.backend
  | _ => none

theorem relayMachine_created : relayMachine.Created Reference.env := by
  intro m member
  rw [List.mem_singleton.mp member]
  exact ⟨.net relayNet,_,_,true,rfl,rfl,rfl⟩

theorem frames_fit_relayed :
    ∃ session calls, relaySession ((Runtime.steps Reference.env (driverSetup ++ [driverWrite 0x50 1])).run relayMachine).2 =
        some session ∧ session.outside.calls = .start (some 7)::calls ∧ calls.length = 2 ∧
      (∀ c ∈ calls, Fits 7 1514 c) ∧ ∀ e ∈ session.errors, ¬SizeError e := by
  have shared : Vmnet.shared.run (⟨(),[]⟩ : Outside relay) = (.ok relayBackend,relayStarted) := rfl
  have logged : ((relaySession ((Runtime.steps Reference.env (driverSetup ++ [driverWrite 0x50 1])).run relayMachine).2).map
      fun session => session.outside.calls.length) = some 3 := by decide +kernel
  have succeeds : ((Runtime.steps Reference.env (driverSetup ++ [driverWrite 0x50 1])).run relayMachine).1.isOk = true := by
    decide +kernel
  generalize ran : (Runtime.steps Reference.env (driverSetup ++ [driverWrite 0x50 1])).run relayMachine = outcome
    at logged succeeds
  obtain ⟨_ | _,s⟩ := outcome
  · cases succeeds
  obtain ⟨m,d,interface,calls,found,kind,held,since⟩ := (frames_fit env_vm_lawful env_vq_lawful shared).2 relayMachine s 0 _
    relayNet relayMachine_created rfl rfl rfl rfl (Runtime.steps_reach _ ran)
  cases held
  have here : relaySession s = some d.backend := by simp only [relaySession,found,Option.map_some,kind]
  have log : d.backend.outside.calls = .start (some 7)::calls := since.log
  refine ⟨d.backend,calls,here,log,?_,since.fits,fun e member => ?_⟩
  · simp only [here,Option.map_some,Option.some.injEq,log] at logged
    exact Nat.succ.inj logged
  · rcases since.sized e member with old | new
    · cases old
    · exact new

end Reference
end WVmm
