import WVmm.Devices.Twins
import WVmm.Devices.DeviceSpec

/-! A device after a reset and a newly constructed one over the same backend. All
that is left of earlier packets is the contents of the receive buffer, which no
later packet shows. -/
namespace WVmm.Devices
open Lib.Effect Lib.Simulation

/-- What a backend receives does not depend on what the buffer held, and a frame
of `n` bytes fills the first `n` bytes of the buffer. -/
structure NetDevice.Fills (N : Type) [NetDevice N] : Prop where
  blind : ∀ (backend : N) buffer host host',
    (NetDevice.recv backend buffer host').1 = (NetDevice.recv backend buffer host).1 ∧
      (NetDevice.recv backend buffer host').2.1 = (NetDevice.recv backend buffer host).2.1
  fills : ∀ (backend : N) buffer host host' n, (NetDevice.recv backend buffer host).1 = .ok (some n) →
    ∀ p ∈ (hostBytes buffer).take n,
      (NetDevice.recv backend buffer host').2.2 p = (NetDevice.recv backend buffer host).2.2 p

def BlockStorage.Constant (B : Type) [BlockStorage B] : Prop :=
  ∀ disk disk' : B, BlockStorage.Called disk disk' → BlockStorage.readOnly disk' = BlockStorage.readOnly disk

def NetDevice.Constant (N : Type) [NetDevice N] : Prop :=
  ∀ backend backend' : N, NetDevice.Called backend backend' →
    NetDevice.macAddress backend' = NetDevice.macAddress backend ∧
      NetDevice.maxFrameLen backend' = NetDevice.maxFrameLen backend

namespace Net

variable {N : Type}

def sameButBuffer : Likeness (Net N) where
  alike d d' := d'.rx.length = d.rx.length ∧ d' = {d with rx := d'.rx}
  counts _ _ := True
  strict := true

variable {c c' : Cell (Net N)} {env : Env}

theorem twin_backend (twin : Cell.Twin sameButBuffer c c') : c'.device.backend = c.device.backend := by
  rw [twin.device.2]

theorem twin_pendingTx (twin : Cell.Twin sameButBuffer c c') : c'.device.pendingTx = c.device.pendingTx := by
  rw [twin.device.2]

theorem twin_tx (twin : Cell.Twin sameButBuffer c c') : c'.device.tx = c.device.tx := by
  rw [twin.device.2]

theorem twin_shape (twin : Cell.Twin sameButBuffer c c') :
    c' = {c with device := {c.device with rx := c'.device.rx}} := by
  obtain ⟨device,queues,world,trace⟩ := c'
  obtain ⟨⟨_,same⟩,rfl,rfl,rfl⟩ := twin
  exact congrArg (fun d => (⟨d,c.queues,c.world,c.trace⟩ : Cell (Net N))) same

/-- An update that neither reads nor changes the receive buffer. -/
theorem update_simulates {excused : Failure DeviceError → Prop} {f : Cell (Net N) → Cell (Net N)}
    (same : ∀ c rx, f {c with device := {c.device with rx := rx}} =
      {f c with device := {(f c).device with rx := rx}}) :
    Simulates (Cell.Twin sameButBuffer) excused Eq (Prog.modify f) (Prog.modify f) := by
  refine .modify (fun c c' twin => ?_)
  have left := same c c.device.rx
  have right := same c c'.device.rx
  rw [← twin_shape twin] at right
  rw [left,right]
  exact ⟨⟨twin.device.1,rfl⟩,rfl,rfl,rfl⟩

def filled (rx : List UInt8) (memory : Host) : List UInt8 := (List.range rx.length).map memory

def own (rx : List UInt8) : List VolatileSlice := [⟨HEADER,rx.length - HEADER⟩]

/-- The first bytes of the frame in the private buffer. -/
theorem filled_frame (rx : List UInt8) (memory : Host) (n : Nat) :
    ((filled rx memory).drop HEADER).take n = ((hostBytes (own rx)).take n).map memory := by
  have bytes : hostBytes (own rx) = List.range' HEADER (rx.length - HEADER) := by
    simp [hostBytes,own,VolatileSlice.bytes]
  rw [bytes,filled,← List.map_drop,← List.map_take,List.range_eq_range',List.drop_range']
  simp

theorem own_twin (twin : Cell.Twin sameButBuffer c c') : own c'.device.rx = own c.device.rx := by
  rw [own,own,twin.device.1]

/-- The same frame goes to the guest. -/
theorem deliver_simulates (direct : Bool) (slices : List VolatileSlice) (len : Nat)
    (twin : Cell.Twin sameButBuffer c c')
    (frame : direct = false → (c'.device.rx.drop HEADER).take len = (c.device.rx.drop HEADER).take len) :
    Matches (Cell.Twin sameButBuffer) Never Eq ((deliver direct slices (HEADER + len)).run c)
      ((deliver direct slices (HEADER + len)).run c') := by
  cases direct with
  | true => exact Cell.Twin.onWorld (Buffers.copyFrom slices rxHeader) c c' twin
  | false =>
    have taken : ∀ rx : List UInt8,
        (rxHeader ++ rx.drop HEADER).take (HEADER + len) = rxHeader ++ (rx.drop HEADER).take len := by
      intro rx
      rw [List.take_append,rxHeader_length,Nat.add_sub_cancel_left,List.take_of_length_le]
      rw [rxHeader_length]
      omega
    have related : Cell.Twin sameButBuffer
        {c with device := {c.device with rx := rxHeader ++ c.device.rx.drop HEADER}}
        {c' with device := {c'.device with rx := rxHeader ++ c'.device.rx.drop HEADER}} := by
      refine ⟨⟨?_,?_⟩,twin.queues,twin.world,twin.trace⟩
      · simp [twin.device.1]
      · rw [twin.device.2]
    have delivered : Simulates (Cell.Twin (sameButBuffer : Likeness (Net N))) Never Eq
        (Cell.onWorld (Buffers.copyFrom slices (rxHeader ++ (c.device.rx.drop HEADER).take len)))
        (Cell.onWorld (Buffers.copyFrom slices (rxHeader ++ (c.device.rx.drop HEADER).take len))) :=
      Cell.Twin.onWorld _
    change Matches (Cell.Twin sameButBuffer) Never Eq
      ((Cell.onWorld (Buffers.copyFrom slices ((rxHeader ++ c.device.rx.drop HEADER).take (HEADER + len)))).run
        {c with device := {c.device with rx := rxHeader ++ c.device.rx.drop HEADER}})
      ((Cell.onWorld (Buffers.copyFrom slices ((rxHeader ++ c'.device.rx.drop HEADER).take (HEADER + len)))).run
        {c' with device := {c'.device with rx := rxHeader ++ c'.device.rx.drop HEADER}})
    rw [taken,taken,frame rfl]
    exact delivered _ _ related

variable [NetDevice N]

theorem backendSend_simulates {excused : Failure DeviceError → Prop} (frame : List VolatileSlice) (host : Host) :
    Simulates (Cell.Twin (sameButBuffer : Likeness (Net N))) excused Eq (backendSend frame host)
      (backendSend frame host) := by
  refine .get (fun c c' twin => ?_)
  rw [twin_backend twin]
  refine .bind (update_simulates (fun _ _ => rfl)) (fun _ _ _ => ?_)
  exact .bind (Cell.Twin.record _) (fun _ _ _ => .ofExcept _)

theorem retry_simulates (head : Nat) :
    Simulates (Cell.Twin (sameButBuffer : Likeness (Net N))) Never Eq (retry env head) (retry env head) := by
  refine .get (fun c c' twin => ?_)
  rw [twin_tx twin]
  refine .bind (backendSend_simulates _ _) ?_
  rintro sent _ rfl
  split
  · refine .bind (update_simulates (fun _ _ => rfl)) (fun _ _ _ => ?_)
    exact .bind (Cell.Twin.complete _ _ _) (fun _ _ _ => .pure rfl)
  · exact .pure rfl

theorem sendChain_simulates (chain : Chain) :
    Simulates (Cell.Twin (sameButBuffer : Likeness (Net N))) Never Eq (sendChain env chain)
      (sendChain env chain) := by
  refine .bind (.require _ _) (fun _ _ _ => ?_)
  split
  · exact .fail _
  · refine .get (fun c c' twin => ?_)
    rw [twin.device.1,twin.world]
    refine .bind (.require _ _) (fun _ _ _ => .bind (.ofExcept _) ?_)
    rintro slices _ rfl
    refine .bind (Cell.Twin.onWorld _) ?_
    rintro header _ rfl
    refine .bind (.require _ _) (fun _ _ _ => .bind (.ofExcept _) ?_)
    rintro payload _ rfl
    refine .bind (Cell.Twin.onWorld _) (fun _ _ _ => .get (fun c c' twin => ?_))
    rw [twin.world]
    refine .bind (backendSend_simulates _ _) ?_
    rintro sent _ rfl
    split
    · exact .bind (Cell.Twin.complete _ _ _) (fun _ _ _ => .pure rfl)
    · refine .bind (Cell.Twin.onWorld _) ?_
      rintro tx _ rfl
      exact .bind (update_simulates (fun _ _ => rfl)) (fun _ _ _ => .pure rfl)

theorem transmitLoop_simulates (budget : Nat) :
    Simulates (Cell.Twin (sameButBuffer : Likeness (Net N))) Never Eq (transmitLoop env budget)
      (transmitLoop env budget) := by
  induction budget with
  | zero => exact .pure rfl
  | succ budget ih =>
    refine .get (fun c c' twin => ?_)
    rw [twin_pendingTx twin]
    split
    · refine .bind (retry_simulates _) ?_
      rintro sent _ rfl
      split
      · exact ih
      · exact .pure rfl
    · refine .bind (Cell.Twin.pop _) ?_
      rintro taken _ rfl
      split
      · exact .pure rfl
      · refine .bind (sendChain_simulates _) ?_
        rintro sent _ rfl
        split
        · exact ih
        · exact .pure rfl

theorem transmit_simulates :
    Simulates (Cell.Twin (sameButBuffer : Likeness (Net N))) Never Eq (transmit env) (transmit env) := by
  refine .bind (Cell.Twin.ring _) ?_
  rintro q _ rfl
  split
  · exact transmitLoop_simulates _
  · exact .pure rfl

theorem backendRecv_own (payload : List VolatileSlice) (c : Cell (Net N)) :
    (backendRecv false payload).run c =
      ((NetDevice.recv c.device.backend (own c.device.rx) (bufferHost c.device.rx)).1.mapError
          (fun e => .error (.net e)),
        {c with
          device := {c.device with
            backend := (NetDevice.recv c.device.backend (own c.device.rx) (bufferHost c.device.rx)).2.1
            rx := filled c.device.rx
              (NetDevice.recv c.device.backend (own c.device.rx) (bufferHost c.device.rx)).2.2}
          trace := c.trace ++ [.recv (own c.device.rx)
            (answer (NetDevice.recv c.device.backend (own c.device.rx) (bufferHost c.device.rx)).1)]}) := rfl

theorem backendRecv_simulates (fills : NetDevice.Fills N) (direct : Bool) (payload : List VolatileSlice) :
    Simulates (Cell.Twin (sameButBuffer : Likeness (Net N))) Never Eq (backendRecv direct payload)
      (backendRecv direct payload) := by
  cases direct with
  | true =>
    refine .get (fun c c' twin => ?_)
    rw [twin_backend twin,twin.world]
    refine .bind (update_simulates (fun _ _ => rfl)) (fun _ _ _ => ?_)
    exact .bind (Cell.Twin.record _) (fun _ _ _ => .ofExcept _)
  | false =>
    intro c c' twin
    obtain ⟨answers,backends⟩ := fills.blind c.device.backend (own c.device.rx)
      (bufferHost c.device.rx) (bufferHost c'.device.rx)
    rw [backendRecv_own,backendRecv_own,twin_backend twin,own_twin twin,answers,backends]
    generalize NetDevice.recv c.device.backend (own c.device.rx) (bufferHost c.device.rx) = outcome
    generalize (NetDevice.recv c.device.backend (own c.device.rx) (bufferHost c'.device.rx)).2.2 = memory
    obtain ⟨r,backend,memory'⟩ := outcome
    have related : Cell.Twin sameButBuffer
        {c with
          device := {c.device with backend := backend, rx := filled c.device.rx memory'}
          trace := c.trace ++ [.recv (own c.device.rx) (answer r)]}
        {c' with
          device := {c'.device with backend := backend, rx := filled c'.device.rx memory}
          trace := c'.trace ++ [.recv (own c.device.rx) (answer r)]} := by
      refine ⟨⟨?_,?_⟩,twin.queues,twin.world,by rw [twin.trace]⟩
      · simp [filled,twin.device.1]
      · rw [twin.device.2]
    cases r with
    | error e => exact .failed related
    | ok received => exact .returned rfl related

/-- A frame of `len` bytes is the same in both private buffers. -/
theorem backendRecv_frame (fills : NetDevice.Fills N) {payload : List VolatileSlice} {len : Nat}
    {u u' : Cell (Net N)} (twin : Cell.Twin sameButBuffer c c')
    (ran : (backendRecv false payload).run c = (.ok (some len),u))
    (ran' : (backendRecv false payload).run c' = (.ok (some len),u')) :
    (u'.device.rx.drop HEADER).take len = (u.device.rx.drop HEADER).take len := by
  have bytes := fills.fills c.device.backend (own c.device.rx) (bufferHost c.device.rx)
    (bufferHost c'.device.rx) len
  rw [backendRecv_own] at ran ran'
  rw [twin_backend twin,own_twin twin] at ran'
  obtain ⟨received,rfl⟩ := Prod.mk.inj ran
  obtain ⟨_,rfl⟩ := Prod.mk.inj ran'
  have reported : (NetDevice.recv c.device.backend (own c.device.rx) (bufferHost c.device.rx)).1 =
      .ok (some len) := by
    generalize (NetDevice.recv c.device.backend (own c.device.rx) (bufferHost c.device.rx)).1 = r at received ⊢
    cases r with
    | error e => cases received
    | ok a =>
      cases received
      rfl
  dsimp only
  rw [filled_frame,filled_frame,own_twin twin]
  exact List.map_congr_left (bytes reported)

theorem recvChain_simulates (fills : NetDevice.Fills N) (chain : Chain) :
    Simulates (Cell.Twin (sameButBuffer : Likeness (Net N))) Never Eq (recvChain env chain)
      (recvChain env chain) := by
  refine .bind (.require _ _) (fun _ _ _ => ?_)
  split
  · exact .fail _
  · rename_i capacity _
    refine .get (fun c c' twin => ?_)
    rw [twin.device.1,twin.world]
    refine .bind (.ofExcept _) ?_
    rintro slices _ rfl
    refine .bind (.ofExcept _) ?_
    rintro payload _ rfl
    intro c c' twin
    refine .bind (backendRecv_simulates fills _ payload c c' twin) ?_
    rintro received _ u u' ran ran' rfl related
    cases received with
    | none =>
      refine Simulates.bind (Cell.Twin.ring 0) ?_ u u' related
      rintro q _ rfl
      exact .bind (Cell.Twin.setRing _ _) (fun _ _ _ => .pure rfl)
    | some len =>
      dsimp only
      rw [Prog.run_bind,Prog.run_bind,Prog.run_get,Prog.run_get]
      dsimp only
      rw [Prog.run_guard,Prog.run_guard,related.device.1]
      split
      · split
        · exact Simulates.bind (Cell.Twin.complete _ _ _) (fun _ _ _ => .pure rfl) u u' related
        · refine .bind (deliver_simulates _ slices len related ?_) ?_
          · intro private_
            rw [private_] at ran ran'
            exact backendRecv_frame fills twin ran ran'
          · intro _ _ v v' _ _ _ after
            exact Simulates.bind (Cell.Twin.complete _ _ _) (fun _ _ _ => .pure rfl) v v' after
      · exact .failed related

theorem receiveLoop_simulates (fills : NetDevice.Fills N) (budget : Nat) :
    Simulates (Cell.Twin (sameButBuffer : Likeness (Net N))) Never Eq (receiveLoop env budget)
      (receiveLoop env budget) := by
  induction budget with
  | zero => exact .pure rfl
  | succ budget ih =>
    refine .bind (Cell.Twin.pop _) ?_
    rintro taken _ rfl
    split
    · exact .pure rfl
    · refine .bind (recvChain_simulates fills _) ?_
      rintro more _ rfl
      split
      · exact ih
      · exact .pure rfl

theorem notify_simulates (fills : NetDevice.Fills N) (queue : Nat) :
    Simulates (Cell.Twin (sameButBuffer : Likeness (Net N))) Never Eq (notify env queue)
      (notify env queue) := by
  unfold notify
  split
  · exact receiveLoop_simulates fills BUDGET
  · exact transmit_simulates
  · exact .fail _

theorem poll_simulates (fills : NetDevice.Fills N) :
    Simulates (Cell.Twin (sameButBuffer : Likeness (Net N))) Never Eq (poll env) (poll env) :=
  .bind transmit_simulates (fun _ _ _ => receiveLoop_simulates fills BUDGET)

end Net

namespace Device

variable {B N : Type} {env : Env}

/-- A newly constructed device over the same backend; a memory device keeps its
blocks, its target and its generation. -/
def fresh [NetDevice N] : Device B N → Except DeviceError (Device B N)
  | .block d => (Block.new d.name d.disk).map .block
  | .net d => (Net.new d.backend).map .net
  | .mem d => .ok (.mem d)

def rested : Device B N → Device B N
  | .net d => .net {d with rx := List.replicate d.rx.length 0, pendingTx := none, tx := []}
  | d => d

/-- Devices that differ in the receive buffer of a net device at most. -/
inductive Alike : Device B N → Device B N → Prop
  | same (d : Device B N) : Alike d d
  | net {d d' : Net N} (alike : Net.sameButBuffer.alike d d') : Alike (.net d) (.net d')

/-- A device and a newly constructed one, however many writes were rejected. -/
def renewal : Likeness (Device B N) where
  alike := Alike
  counts _ _ := True
  strict := true

theorem dispatch_simulates {onBlock : Prog (Cell (Block B)) (Failure DeviceError) Unit}
    {onNet : Prog (Cell (Net N)) (Failure DeviceError) Unit}
    {onMem : Prog (Cell VirtioMem) (Failure DeviceError) Unit}
    (simulates : Simulates (Cell.Twin Net.sameButBuffer) Never Eq onNet onNet) :
    Simulates (Cell.Twin renewal) Never Eq (dispatch onBlock onNet onMem) (dispatch onBlock onNet onMem) := by
  intro c c' twin
  obtain ⟨device,queues,world,trace⟩ := c
  obtain ⟨device',queues',world',trace'⟩ := c'
  obtain ⟨alike,rfl,rfl,rfl⟩ := twin
  dsimp only at alike
  cases alike with
  | same =>
    rcases (dispatch onBlock onNet onMem).run ⟨device,queues',world',trace'⟩ with ⟨r,u⟩
    cases r with
    | error f => exact .failed ⟨.same _,rfl,rfl,rfl⟩
    | ok a => exact .returned rfl ⟨.same _,rfl,rfl,rfl⟩
  | @net d d' alike =>
    have ended := simulates ⟨d,queues',world',trace'⟩ ⟨d',queues',world',trace'⟩ ⟨alike,rfl,rfl,rfl⟩
    change Matches (Cell.Twin renewal) Never Eq
      ((Cell.focus Device.net d onNet).run ⟨.net d,queues',world',trace'⟩)
      ((Cell.focus Device.net d' onNet).run ⟨.net d',queues',world',trace'⟩)
    rw [Cell.focus,Cell.focus,Prog.run_zoom,Prog.run_zoom]
    dsimp only
    generalize onNet.run ⟨d,queues',world',trace'⟩ = left at ended ⊢
    generalize onNet.run ⟨d',queues',world',trace'⟩ = right at ended ⊢
    cases ended with
    | excused never => exact never.elim
    | failed related => exact .failed ⟨.net related.device,related.queues,related.world,related.trace⟩
    | returned equal related =>
      exact .returned equal ⟨.net related.device,related.queues,related.world,related.trace⟩

variable [NetDevice N]

/-- Constructing the device again gives the device, without its private packets. -/
def Genuine (d : Device B N) : Prop := d.fresh = .ok d.rested

theorem Genuine.fits {d : Device B N} (genuine : d.Genuine) : d.Fits := by
  cases d with
  | block d =>
    simp only [Genuine,fresh,rested,Block.new] at genuine
    split at genuine
    · simp only [Except.map,Except.ok.injEq,Device.block.injEq] at genuine
      rw [← genuine]
      simp only [Fits,List.length_take]
      omega
    · cases genuine
  | net d =>
    simp only [Genuine,fresh,rested,Net.new] at genuine
    split at genuine
    · cases genuine
    split at genuine
    · cases genuine
    · simp only [Except.map,Except.ok.injEq,Device.net.injEq,Net.mk.injEq] at genuine
      have size := congrArg List.length genuine.2.2.1
      simp only [List.length_replicate] at size
      simp only [Fits,← size]
      omega
  | mem d => trivial

theorem fresh_genuine {d x : Device B N} (made : d.fresh = .ok x) : x.Genuine ∧ x.rested = x := by
  cases d with
  | block d =>
    simp only [fresh,Block.new] at made
    split at made
    · rename_i valid
      cases made
      refine ⟨?_,rfl⟩
      simp only [Genuine,fresh,Block.new,if_pos valid]
      rfl
    · cases made
  | net d =>
    simp only [fresh,Net.new] at made
    split at made
    · cases made
    rename_i sized
    split at made
    · cases made
    rename_i unicast
    cases made
    refine ⟨?_,?_⟩
    · simp only [Genuine,fresh,Net.new,if_neg sized,if_neg unicast]
      simp [Except.map,rested]
    · simp [rested]
  | mem d =>
    cases made
    exact ⟨rfl,rfl⟩

variable [BlockStorage B]

theorem renewal_lawful (fills : NetDevice.Fills N) : (renewal : Likeness (Device B N)).Lawful env where
  required := by
    rintro _ _ (_ | _) <;> rfl
  generation := by
    rintro _ _ (_ | _) <;> rfl
  deviceId := by
    rintro _ _ (_ | _) <;> rfl
  readConfig := by
    rintro _ _ (_ | ⟨_,shape⟩)
    · rfl
    · rw [shape]
      rfl
  reset := dispatch_simulates (Net.update_simulates (fun _ _ => rfl))
  notify queue := dispatch_simulates (Net.notify_simulates fills queue)
  poll := dispatch_simulates (Net.poll_simulates fills)
  counted _ _ _ := trivial

theorem disk_constant (constant : BlockStorage.Constant B) {disk disk' : B}
    (later : Relation.ReflTransGen BlockStorage.Called disk disk') :
    BlockStorage.readOnly disk' = BlockStorage.readOnly disk := by
  induction later with
  | refl => rfl
  | tail _ called ih => exact (constant _ _ called).trans ih

theorem backend_constant (constant : NetDevice.Constant N) {backend backend' : N}
    (later : Relation.ReflTransGen NetDevice.Called backend backend') :
    NetDevice.macAddress backend' = NetDevice.macAddress backend ∧
      NetDevice.maxFrameLen backend' = NetDevice.maxFrameLen backend := by
  induction later with
  | refl => exact ⟨rfl,rfl⟩
  | tail _ called ih =>
    obtain ⟨mac,max⟩ := constant _ _ called
    exact ⟨mac.trans ih.1,max.trans ih.2⟩

/-- What a device keeps is enough to construct it again. -/
theorem Keeps.genuine (wire : NetDevice.Constant N) {d d' : Device B N}
    (kept : Keeps d d') (genuine : d.Genuine) : d'.Genuine := by
  cases kept with
  | @block d d' kept =>
    simp only [Genuine,fresh,rested,Block.new] at genuine ⊢
    rw [kept.name]
    split at genuine
    · rename_i valid
      rw [if_pos valid]
      simp only [Except.map,Except.ok.injEq,Device.block.injEq] at genuine ⊢
      have id := congrArg Block.id genuine
      rw [← kept.id] at id
      dsimp only at id
      rw [id,← kept.name]
    · cases genuine
  | @net d d' kept =>
    obtain ⟨mac,max⟩ := backend_constant wire kept.backend
    simp only [Genuine,fresh,rested,Net.new] at genuine ⊢
    rw [mac,max]
    split at genuine
    · cases genuine
    rename_i sized
    split at genuine
    · cases genuine
    rename_i unicast
    rw [if_neg sized,if_neg unicast]
    simp only [Except.map,Except.ok.injEq,Device.net.injEq,Net.mk.injEq] at genuine ⊢
    rw [kept.config,kept.size]
    exact ⟨trivial,genuine.2⟩
  | mem d => exact genuine

theorem Keeps.features (disk : BlockStorage.Constant B) {d d' : Device B N} (kept : Keeps d d') :
    VirtioDevice.features d' = VirtioDevice.features d := by
  cases kept with
  | @block d d' kept =>
    simp only [VirtioDevice.features,disk_constant disk kept.disk]
  | net kept => rfl
  | mem d => rfl

theorem reset_keeps (c : Cell (Device B N)) :
    Keeps c.device (VirtioDevice.reset.run c).2.device := by
  rw [reset_run]
  cases c.device with
  | block d => exact .block (.called .flush)
  | net d => exact .net ⟨rfl,rfl,.refl⟩
  | mem d => exact .mem d

end Device
end WVmm.Devices
