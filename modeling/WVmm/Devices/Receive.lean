import WVmm.Devices.Backends
import WVmm.Devices.Ledger
import WVmm.Lib.Ranges
import WVmm.Lib.Stores

/-! Receiving a frame into a chain. Whether the backend writes the guest buffers
itself or the private buffer of the device is copied, the guest finds the header and
the frame in its buffers, stored in order, and nothing else. -/
namespace WVmm.Devices
open Lib.Effect Lib.Stores

namespace Buffers

/-- Bytes at consecutive addresses are stored one after another. -/
theorem storeAt_eq (host : Host) (ptr : Nat) (raw : List UInt8) :
    World.storeAt host ptr raw = store host (List.range' ptr raw.length) raw := by
  induction raw generalizing host ptr with
  | nil =>
    funext p
    rw [store_nil_right]
    exact if_neg (by simp)
  | cons b raw ih =>
    rw [List.length_cons,List.range'_succ,store_cons,← ih]
    funext p
    unfold World.storeAt
    rw [List.length_cons]
    rcases Nat.lt_trichotomy p ptr with before | rfl | after
    · rw [if_neg (by omega),if_neg (by omega),Function.update_of_ne (by omega)]
    · rw [if_pos (by omega),if_neg (by omega),Function.update_self,Nat.sub_self]
      rfl
    · obtain ⟨k,rfl⟩ := Nat.exists_eq_add_of_lt after
      have within : (ptr ≤ ptr + k + 1 ∧ ptr + k + 1 < ptr + (raw.length + 1)) ↔
          (ptr + 1 ≤ ptr + k + 1 ∧ ptr + k + 1 < ptr + 1 + raw.length) := by omega
      have place : ptr + k + 1 - ptr = k + 1 := by omega
      have place' : ptr + k + 1 - (ptr + 1) = k := by omega
      rw [Function.update_of_ne (by omega),place,place',List.getD_cons_succ]
      exact if_congr within rfl rfl

theorem storeAt_part (host : Host) (ptr len : Nat) (src : List UInt8) :
    World.storeAt host ptr (src.take len) = store host (List.range' ptr len) (src.take len) := by
  rw [storeAt_eq,← @store_take _ _ _ _ (List.range' ptr len)]
  congr 1
  rw [List.take_range'_of_length_ge (by rw [List.length_take]; exact Nat.min_le_left _ _)]

theorem copyFrom_stores {all : List VolatileSlice} {src : List UInt8}
    (fits : src.length ≤ (hostBytes all).length) (w : World) :
    (copyFrom all src).run w = (.ok (),{w with host := store w.host (hostBytes all) src}) := by
  induction all generalizing src w with
  | nil =>
    have none : src = [] := by simpa [hostBytes] using fits
    rw [copyFrom,if_pos none,none,store_nil_right]
    rfl
  | cons s rest ih =>
    have bytes : hostBytes (s::rest) = List.range' s.ptr s.len ++ hostBytes rest := rfl
    rw [copyFrom]
    split
    · rename_i none
      rw [none,store_nil_right]
      rfl
    · rw [bytes,List.length_append,List.length_range'] at fits
      have taken : src.take (min s.len src.length) = src.take s.len := by
        rw [List.take_eq_take_iff,Nat.min_assoc,Nat.min_self]
      have dropped : src.drop (min s.len src.length) = src.drop s.len := by
        rcases Nat.le_total s.len src.length with whole | part
        · rw [Nat.min_eq_left whole]
        · rw [Nat.min_eq_right part,List.drop_length,List.drop_eq_nil_of_le part]
      rw [Prog.run_bind,Prog.run_modify]
      refine (ih (by rw [List.length_drop]; omega) _).trans ?_
      have stored : store (World.storeAt w.host s.ptr (src.take s.len)) (hostBytes rest) (src.drop s.len) =
          store w.host (hostBytes (s::rest)) src := by
        rw [storeAt_part,bytes,← store_split,List.length_range']
      dsimp only
      rw [taken,dropped,stored]

/-- Slices that pass the test share no byte. -/
theorem overlaps_sound {all : List VolatileSlice} (apart : overlaps all = false) : (hostBytes all).Nodup := by
  unfold overlaps at apart
  set ranges := all.map (fun s => (s.ptr,s.ptr + s.len))
  have sorted := Lib.Ranges.neighbours_apart (fun r member => by
    obtain ⟨s,_,rfl⟩ := List.mem_map.mp ((List.mem_mergeSort).mp member)
    exact Nat.le_add_right _ _) apart
  have separate : ranges.Pairwise (fun a b => a.2 ≤ b.1 ∨ b.2 ≤ a.1) :=
    (List.mergeSort_perm ranges _).pairwise (sorted.imp Or.inl) (fun side => side.symm)
  refine List.nodup_flatMap.mpr ⟨fun s _ => List.nodup_range',?_⟩
  refine (List.pairwise_map.mp separate).imp ?_
  intro s t side p left right
  rw [VolatileSlice.bytes,List.mem_range'_1] at left right
  omega

end Buffers

/-- The backend has a frame, and stores it at the start of any buffer it fits in. -/
def NetDevice.Hands {N : Type} [NetDevice N] (backend : N) (frame : List UInt8) : Prop :=
  ∀ buffer host, (hostBytes buffer).Nodup → frame.length ≤ (hostBytes buffer).length →
    ∃ backend', NetDevice.recv backend buffer host =
      (.ok (some frame.length),backend',store host (hostBytes buffer) frame)

namespace Net

variable {N : Type} {env : Env} {c : Cell (Net N)} {chain : Chain} {capacity : Nat}
  {slices : List VolatileSlice} {frame : List UInt8}

def finish (env : Env) (direct : Bool) (chain : Chain) (capacity : Nat) (slices : List VolatileSlice) (len : Nat) :
    Prog (Cell (Net N)) (Failure DeviceError) Bool := do
  let c ← Prog.get
  Prog.require (14 ≤ len ∧ len ≤ c.device.rx.length - HEADER)
    (.error (.invalidBackendRxPacketSize len (c.device.rx.length - HEADER)))
  let total := HEADER + len
  if capacity < total then
    Queues.complete env 0 chain.head 0
    return true
  else
    deliver direct slices total
    Queues.complete env 0 chain.head total
    return true

def giveBack : Prog (Cell (Net N)) (Failure DeviceError) Bool := do
  let q ← Cell.ring 0
  Prog.modify (Cell.setRing 0 {q with nextAvail := (65535 + q.nextAvail) % 65536})
  return false

def asked (c : Cell (Net N)) (backend : N) (rx : List UInt8) (host : Host) (buffer : List VolatileSlice)
    (r : Option Nat) : Cell (Net N) where
  device := {c.device with backend := backend, rx := rx}
  queues := c.queues
  world := {c.world with host := host}
  trace := c.trace ++ [.recv buffer (some r)]

/-- The used length of a chain: none of a frame that does not fit is stored. -/
def usedLength (capacity len : Nat) : Nat := if HEADER + len ≤ capacity then HEADER + len else 0

def delivered (slices : List VolatileSlice) (capacity : Nat) (frame : List UInt8) (host : Host) : Host :=
  if HEADER + frame.length ≤ capacity then store host (hostBytes slices) (rxHeader ++ frame) else host

/-- Two outcomes that the guest cannot tell apart. -/
def Alike (a b : Except (Failure DeviceError) Bool × Cell (Net N)) : Prop :=
  a.1 = b.1 ∧ a.2.world = b.2.world ∧ a.2.queues = b.2.queues

theorem complete_alike {c c' : Cell (Net N)} (worlds : c.world = c'.world) (queues : c.queues = c'.queues)
    (index head len : Nat) :
    Alike ((Queues.complete env index head len >>= fun _ => Pure.pure true).run c)
      ((Queues.complete env index head len >>= fun _ => Pure.pure true).run c') := by
  obtain ⟨d,rings,w,trace⟩ := c
  obtain ⟨d',rings',w',trace'⟩ := c'
  cases worlds
  cases queues
  rw [Prog.run_bind,Prog.run_bind]
  cases found : rings.rings[index]? with
  | none =>
    have missing : ∀ (d : Net N) trace, (Queues.complete env index head len).run ⟨d,rings,w,trace⟩ =
        (.error (.panic .index),⟨d,rings,w,trace⟩) := by
      intro d trace
      rw [Queues.complete,Prog.run_bind,Cell.ring,Prog.run_bind,Prog.run_get]
      simp only [found]
      rfl
    rw [missing d trace,missing d' trace']
    exact ⟨rfl,rfl,rfl⟩
  | some q =>
    rw [Queues.complete_run (c := ⟨d,rings,w,trace⟩) found,Queues.complete_run (c := ⟨d',rings,w,trace'⟩) found]
    cases (env.vq.addUsed q w.view w.host head len).1 with
    | error e => exact ⟨rfl,rfl,rfl⟩
    | ok _ => exact ⟨rfl,rfl,rfl⟩

/-- What receiving a frame comes to: the chain is filled and completed. -/
def Fills (env : Env) (chain : Chain) (capacity : Nat) (slices : List VolatileSlice) (frame : List UInt8)
    (c : Cell (Net N)) (outcome : Except (Failure DeviceError) Bool × Cell (Net N)) : Prop :=
  ∃ d buffer, d.rx.length = c.device.rx.length ∧ d.pendingTx = c.device.pendingTx ∧ d.tx = c.device.tx ∧
    outcome = (Queues.complete env 0 chain.head (usedLength capacity frame.length) >>= fun _ => Pure.pure true).run
      {c with
        device := d
        world := {c.world with host := delivered slices capacity frame c.world.host}
        trace := c.trace ++ [.recv buffer (some (some frame.length))]}

/-- The same, with the buffer the backend was handed and what became of it. -/
def Filled (env : Env) (chain : Chain) (capacity : Nat) (slices : List VolatileSlice) (frame : List UInt8)
    (buffer : List VolatileSlice) (backend : N) (c : Cell (Net N))
    (outcome : Except (Failure DeviceError) Bool × Cell (Net N)) : Prop :=
  ∃ d, d.backend = backend ∧ d.rx.length = c.device.rx.length ∧ d.pendingTx = c.device.pendingTx ∧
    d.tx = c.device.tx ∧
    outcome = (Queues.complete env 0 chain.head (usedLength capacity frame.length) >>= fun _ => Pure.pure true).run
      {c with
        device := d
        world := {c.world with host := delivered slices capacity frame c.world.host}
        trace := c.trace ++ [.recv buffer (some (some frame.length))]}

theorem Filled.fills {buffer : List VolatileSlice} {backend : N}
    {outcome : Except (Failure DeviceError) Bool × Cell (Net N)}
    (filled : Filled env chain capacity slices frame buffer backend c outcome) :
    Fills env chain capacity slices frame c outcome := by
  obtain ⟨d,_,size,pending,tx,ran⟩ := filled
  exact ⟨d,buffer,size,pending,tx,ran⟩

theorem finish_fits {direct : Bool} {len : Nat} (size : 14 ≤ len ∧ len ≤ c.device.rx.length - HEADER)
    (fits : HEADER + len ≤ capacity) :
    (finish env direct chain capacity slices len).run c =
      (deliver direct slices (HEADER + len) >>= fun _ =>
        Queues.complete env 0 chain.head (HEADER + len) >>= fun _ => Pure.pure true).run c := by
  rw [finish,Prog.run_bind,Prog.run_get]
  simp only [Prog.run_guard]
  rw [if_pos size,if_neg (Nat.not_lt.mpr fits)]

theorem finish_short {direct : Bool} {len : Nat} (size : 14 ≤ len ∧ len ≤ c.device.rx.length - HEADER)
    (short : capacity < HEADER + len) :
    (finish env direct chain capacity slices len).run c =
      (Queues.complete env 0 chain.head 0 >>= fun _ => Pure.pure true).run c := by
  rw [finish,Prog.run_bind,Prog.run_get]
  simp only [Prog.run_guard]
  rw [if_pos size,if_pos short]

theorem rxHeader_size : rxHeader.length = HEADER := rfl

theorem deliver_direct {β : Type} {total : Nat} {f : Unit → Prog (Cell (Net N)) (Failure DeviceError) β}
    (room : HEADER ≤ (hostBytes slices).length) :
    (deliver true slices total >>= f).run c =
      (f ()).run {c with world := {c.world with host := store c.world.host (hostBytes slices) rxHeader}} := by
  rw [Prog.run_bind,deliver,if_pos rfl,Cell.onWorld,Prog.run_zoom,
    Buffers.copyFrom_stores (by rw [rxHeader_size]; exact room)]

theorem deliver_own {β : Type} {total : Nat} {f : Unit → Prog (Cell (Net N)) (Failure DeviceError) β}
    (fits : total ≤ (hostBytes slices).length) :
    (deliver false slices total >>= f).run c =
      (f ()).run {c with
        device := {c.device with rx := rxHeader ++ c.device.rx.drop HEADER}
        world := {c.world with
          host := store c.world.host (hostBytes slices) ((rxHeader ++ c.device.rx.drop HEADER).take total)}} := by
  have room : ((rxHeader ++ c.device.rx.drop HEADER).take total).length ≤ (hostBytes slices).length := by
    rw [List.length_take]
    omega
  rw [Prog.run_bind,deliver,if_neg (by decide)]
  simp only [Prog.run_bind,Prog.run_modify,Prog.run_get,Cell.onWorld,Prog.run_zoom,Buffers.copyFrom_stores room]

theorem store_header (host : Host) {bytes : List Nat} (apart : bytes.Nodup) (room : HEADER ≤ bytes.length)
    {n : Nat} (fits : frame.length ≤ n) :
    store (store host ((bytes.drop HEADER).take n) frame) bytes rxHeader = store host bytes (rxHeader ++ frame) := by
  have split : (bytes.drop HEADER).Disjoint (bytes.take HEADER) := by
    rw [← List.take_append_drop HEADER bytes] at apart
    exact fun p later first => List.disjoint_of_nodup_append apart first later
  calc store (store host ((bytes.drop HEADER).take n) frame) bytes rxHeader
      = store (store host (bytes.drop HEADER) frame) (bytes.take HEADER) rxHeader := by
        rw [store_take_of_le fits,store_take_of_le (Nat.le_of_eq rxHeader_size)]
    _ = store (store host (bytes.take HEADER) rxHeader) (bytes.drop HEADER) frame := store_comm split
    _ = store host (bytes.take HEADER ++ bytes.drop HEADER) (rxHeader ++ frame) := by
        rw [store_append (by rw [List.length_take,Nat.min_eq_left room,rxHeader_size])]
    _ = store host bytes (rxHeader ++ frame) := by rw [List.take_append_drop]

/-- A frame in the private buffer, behind the header. -/
theorem own_frame (rx : List UInt8) (size : frame.length ≤ rx.length - HEADER) :
    (rxHeader ++ ((List.range rx.length).map
      (store (bufferHost rx) (List.range' HEADER (rx.length - HEADER)) frame)).drop HEADER).take
        (HEADER + frame.length) = rxHeader ++ frame := by
  have later : (List.range rx.length).drop HEADER = List.range' HEADER (rx.length - HEADER) := by
    rw [List.range_eq_range',List.drop_range',Nat.mul_one,Nat.zero_add]
  have read : ((List.range' HEADER (rx.length - HEADER)).take frame.length).map
      (store (bufferHost rx) (List.range' HEADER (rx.length - HEADER)) frame) = frame :=
    store_read List.nodup_range' (by rw [List.length_range']; exact size)
  rw [← rxHeader_size,List.take_length_add_append,rxHeader_size,← List.map_drop,later,← List.map_take,read]

/-- The guest buffers behind the header, for the direct path. -/
theorem direct_payload (room : HEADER ≤ c.device.rx.length) (length : (hostBytes slices).length = capacity)
    (roomy : c.device.rx.length ≤ capacity) (apart : (hostBytes slices).Nodup) :
    ∃ payload, directRange true slices c.device.rx.length = .ok payload ∧ (hostBytes payload).Nodup ∧
      (hostBytes payload).length = c.device.rx.length - HEADER ∧
      hostBytes payload = ((hostBytes slices).drop HEADER).take (c.device.rx.length - HEADER) := by
  obtain ⟨payload,ranged,bytes⟩ := @Buffers.range_covers slices HEADER (c.device.rx.length - HEADER) (by omega)
  refine ⟨payload,ranged,?_,?_,bytes⟩
  · rw [bytes]
    exact (apart.sublist (List.drop_sublist _ _)).sublist (List.take_sublist _ _)
  · rw [bytes,List.length_take,List.length_drop]
    omega

def ownBuffer (d : Net N) : List VolatileSlice := [⟨HEADER,d.rx.length - HEADER⟩]

theorem ownBuffer_bytes (d : Net N) : hostBytes (ownBuffer d) = List.range' HEADER (d.rx.length - HEADER) :=
  List.append_nil _

variable [NetDevice N]

/-- Receive for a chain, on one of the two paths. -/
def fillChain (env : Env) (direct : Bool) (chain : Chain) (capacity : Nat) (slices : List VolatileSlice) :
    Prog (Cell (Net N)) (Failure DeviceError) Bool := do
  let c ← Prog.get
  let payload ← Prog.ofExcept ((directRange direct slices c.device.rx.length).mapError .panic)
  match ← backendRecv direct payload with
  | none => giveBack
  | some len => finish env direct chain capacity slices len

/-- A chain of writable descriptors in guest memory takes the direct path when it has
room for every frame and its slices do not overlap. -/
theorem recvChain_path (writable : chain.descriptors.all (·.isWriteOnly) = true)
    (total : Buffers.totalLength chain.descriptors = some capacity)
    (found : Buffers.slices env.vm c.world.view chain.descriptors = .ok slices) :
    (recvChain env chain).run c = (fillChain env
      (decide (capacity ≥ c.device.rx.length) && !Buffers.overlaps slices) chain capacity slices).run c := by
  rw [recvChain,Prog.run_guard,if_pos writable,total]
  simp only [Prog.run_bind,Prog.run_get,found,Except.mapError,Prog.run_ofExcept]
  rfl

theorem fillChain_received {direct : Bool} {payload : List VolatileSlice} {len : Nat} {c' : Cell (Net N)}
    (ranged : directRange direct slices c.device.rx.length = .ok payload)
    (received : (backendRecv direct payload).run c = (.ok (some len),c')) :
    (fillChain env direct chain capacity slices).run c = (finish env direct chain capacity slices len).run c' := by
  rw [fillChain,Prog.run_bind,Prog.run_get]
  simp only [ranged]
  rw [Prog.run_bind]
  simp only [Except.mapError,Prog.run_ofExcept]
  rw [Prog.run_bind,received]

theorem fillChain_empty {direct : Bool} {payload : List VolatileSlice} {c' : Cell (Net N)}
    (ranged : directRange direct slices c.device.rx.length = .ok payload)
    (received : (backendRecv direct payload).run c = (.ok none,c')) :
    (fillChain env direct chain capacity slices).run c = giveBack.run c' := by
  rw [fillChain,Prog.run_bind,Prog.run_get]
  simp only [ranged]
  rw [Prog.run_bind]
  simp only [Except.mapError,Prog.run_ofExcept]
  rw [Prog.run_bind,received]

theorem backendRecv_guest {payload : List VolatileSlice} {r : Option Nat} {backend : N} {host : Host}
    (received : NetDevice.recv c.device.backend payload c.world.host = (.ok r,backend,host)) :
    (backendRecv true payload).run c = (.ok r,asked c backend c.device.rx host payload r) := by
  rw [backendRecv,Prog.run_bind,Prog.run_get]
  simp only [received]
  rfl

theorem backendRecv_private {payload : List VolatileSlice} {r : Option Nat} {backend : N} {memory : Host}
    (received : NetDevice.recv c.device.backend [⟨HEADER,c.device.rx.length - HEADER⟩] (bufferHost c.device.rx) =
      (.ok r,backend,memory)) :
    (backendRecv false payload).run c = (.ok r,asked c backend ((List.range c.device.rx.length).map memory)
      c.world.host [⟨HEADER,c.device.rx.length - HEADER⟩] r) := by
  rw [backendRecv,Prog.run_bind,Prog.run_get]
  simp only [received]
  rfl

theorem filled_direct {payload : List VolatileSlice} {backend : N}
    (ranged : directRange true slices c.device.rx.length = .ok payload)
    (bytes : hostBytes payload = ((hostBytes slices).drop HEADER).take (c.device.rx.length - HEADER))
    (received : NetDevice.recv c.device.backend payload c.world.host =
      (.ok (some frame.length),backend,store c.world.host (hostBytes payload) frame))
    (size : 14 ≤ frame.length ∧ frame.length ≤ c.device.rx.length - HEADER) (room : HEADER ≤ c.device.rx.length)
    (length : (hostBytes slices).length = capacity) (roomy : c.device.rx.length ≤ capacity)
    (apart : (hostBytes slices).Nodup) :
    Filled env chain capacity slices frame payload backend c ((fillChain env true chain capacity slices).run c) := by
  have fits : HEADER + frame.length ≤ capacity := by omega
  have header : HEADER ≤ (hostBytes slices).length := by omega
  refine ⟨{c.device with backend := backend},rfl,rfl,rfl,rfl,?_⟩
  rw [fillChain_received ranged (backendRecv_guest received)]
  rw [finish_fits (c := asked c backend c.device.rx _ payload _) size fits,deliver_direct header]
  rw [usedLength,if_pos fits,delivered,if_pos fits,← store_header c.world.host apart header size.2,← bytes]
  rfl

theorem filled_own {backend : N}
    (received : NetDevice.recv c.device.backend (ownBuffer c.device) (bufferHost c.device.rx) =
      (.ok (some frame.length),backend,store (bufferHost c.device.rx) (hostBytes (ownBuffer c.device)) frame))
    (size : 14 ≤ frame.length ∧ frame.length ≤ c.device.rx.length - HEADER) (room : HEADER ≤ c.device.rx.length)
    (length : (hostBytes slices).length = capacity) :
    Filled env chain capacity slices frame (ownBuffer c.device) backend c
      ((fillChain env false chain capacity slices).run c) := by
  rw [ownBuffer_bytes] at received
  generalize memories : store (bufferHost c.device.rx) (List.range' HEADER (c.device.rx.length - HEADER)) frame =
    memory at received
  have same : ((List.range c.device.rx.length).map memory).length = c.device.rx.length := by
    rw [List.length_map,List.length_range]
  rw [fillChain_received rfl (backendRecv_private received)]
  have size' : 14 ≤ frame.length ∧
      frame.length ≤ ((List.range c.device.rx.length).map memory).length - HEADER := by
    rw [same]
    exact size
  rcases Nat.lt_or_ge capacity (HEADER + frame.length) with short | fits
  · rw [finish_short (c := asked c backend _ c.world.host _ _) size' short]
    refine ⟨{c.device with backend := backend, rx := (List.range c.device.rx.length).map memory},rfl,same,rfl,rfl,?_⟩
    rw [usedLength,if_neg (Nat.not_le.mpr short),delivered,if_neg (Nat.not_le.mpr short)]
    rfl
  · have total : HEADER + frame.length ≤ (hostBytes slices).length := by
      rw [length]
      exact fits
    rw [finish_fits (c := asked c backend _ c.world.host _ _) size' fits,deliver_own total]
    refine ⟨{c.device with
      backend := backend
      rx := rxHeader ++ ((List.range c.device.rx.length).map memory).drop HEADER},rfl,?_,rfl,rfl,?_⟩
    · change (rxHeader ++ ((List.range c.device.rx.length).map memory).drop HEADER).length = _
      rw [List.length_append,List.length_drop,same,rxHeader_size]
      omega
    · have read := own_frame c.device.rx size.2
      rw [memories] at read
      rw [usedLength,if_pos fits,delivered,if_pos fits,← read]
      rfl

theorem fillChain_direct (hands : NetDevice.Hands c.device.backend frame)
    (size : 14 ≤ frame.length ∧ frame.length ≤ c.device.rx.length - HEADER) (room : HEADER ≤ c.device.rx.length)
    (length : (hostBytes slices).length = capacity) (roomy : c.device.rx.length ≤ capacity)
    (apart : (hostBytes slices).Nodup) :
    Fills env chain capacity slices frame c ((fillChain env true chain capacity slices).run c) := by
  obtain ⟨payload,ranged,distinct,holds,bytes⟩ := direct_payload room length roomy apart
  obtain ⟨backend,received⟩ := hands payload c.world.host distinct (by omega)
  exact (filled_direct ranged bytes received size room length roomy apart).fills

theorem fillChain_own (hands : NetDevice.Hands c.device.backend frame)
    (size : 14 ≤ frame.length ∧ frame.length ≤ c.device.rx.length - HEADER) (room : HEADER ≤ c.device.rx.length)
    (length : (hostBytes slices).length = capacity) :
    Fills env chain capacity slices frame c ((fillChain env false chain capacity slices).run c) := by
  obtain ⟨backend,received⟩ := hands (ownBuffer c.device) (bufferHost c.device.rx)
    (by rw [ownBuffer_bytes]; exact List.nodup_range') (by rw [ownBuffer_bytes,List.length_range']; exact size.2)
  exact (filled_own received size room length).fills

/-- For a chain of writable descriptors in guest memory and a frame of legal length:
where the slices share no byte and hold every frame, both paths leave the same bytes,
the header and then the frame at the start of the slices and nothing elsewhere, and
complete the chain with their length; the fallback path, on any chain, stores them in
the order of the slices or, where they do not fit, stores nothing and completes the
chain with length zero; and the path that is taken is one of the two, with that effect. -/
theorem receive_paths_agree (lawful : env.vm.Lawful) {max : Nat} (buffer : c.device.rx.length = HEADER + max)
    (writable : chain.descriptors.all (·.isWriteOnly) = true)
    (total : Buffers.totalLength chain.descriptors = some capacity)
    (found : Buffers.slices env.vm c.world.view chain.descriptors = .ok slices)
    (size : 14 ≤ frame.length ∧ frame.length ≤ max) (hands : NetDevice.Hands c.device.backend frame) :
    let stored := store c.world.host (hostBytes slices) (rxHeader ++ frame)
    ((hostBytes slices).Nodup → HEADER + max ≤ capacity →
      (∀ direct, Fills env chain capacity slices frame c ((fillChain env direct chain capacity slices).run c)) ∧
      Alike ((fillChain env true chain capacity slices).run c) ((fillChain env false chain capacity slices).run c) ∧
      delivered slices capacity frame c.world.host = stored ∧
      usedLength capacity frame.length = HEADER + frame.length ∧
      ((hostBytes slices).take (HEADER + frame.length)).map stored = rxHeader ++ frame ∧
      ∀ p ∉ hostBytes slices, stored p = c.world.host p) ∧
    Fills env chain capacity slices frame c ((fillChain env false chain capacity slices).run c) ∧
    (recvChain env chain).run c = (fillChain env
      (decide (capacity ≥ c.device.rx.length) && !Buffers.overlaps slices) chain capacity slices).run c ∧
    Fills env chain capacity slices frame c ((recvChain env chain).run c) := by
  have length : (hostBytes slices).length = capacity := by
    rw [Buffers.totalLength_eq total]
    exact (Buffers.slices_backed lawful found).length_eq.symm
  have room : HEADER ≤ c.device.rx.length := by omega
  have legal : 14 ≤ frame.length ∧ frame.length ≤ c.device.rx.length - HEADER := by omega
  have own : Fills env chain capacity slices frame c ((fillChain env false chain capacity slices).run c) :=
    fillChain_own hands legal room length
  have path := recvChain_path writable total found
  refine ⟨?_,own,path,?_⟩
  · intro apart roomy
    have fits : HEADER + frame.length ≤ capacity := by omega
    have direct : Fills env chain capacity slices frame c ((fillChain env true chain capacity slices).run c) :=
      fillChain_direct hands legal room length (by omega) apart
    refine ⟨fun path => ?_,?_,if_pos fits,if_pos fits,?_,fun p outside => store_outside outside⟩
    · cases path
      · exact own
      · exact direct
    · obtain ⟨d,b,_,_,_,ran⟩ := direct
      obtain ⟨d',b',_,_,_,ran'⟩ := own
      rw [ran,ran']
      exact complete_alike (by rfl) (by rfl) 0 chain.head _
    · have all : (rxHeader ++ frame).length = HEADER + frame.length := by rw [List.length_append,rxHeader_size]
      rw [← all]
      exact store_read apart (by omega)
  · rw [path]
    cases taken : decide (capacity ≥ c.device.rx.length) && !Buffers.overlaps slices with
    | false => exact own
    | true =>
      rw [Bool.and_eq_true,decide_eq_true_eq,Bool.not_eq_true'] at taken
      exact fillChain_direct hands legal room length taken.1 (Buffers.overlaps_sound taken.2)

end Net
end WVmm.Devices

namespace WVmm.Reference
open Devices Lib.Stores

theorem fill_eq (slices : List VolatileSlice) (raw : List UInt8) (host : Host) :
    fill slices raw host = store host (hostBytes slices) raw := by
  induction slices generalizing raw host with
  | nil => exact store_nil_left.symm
  | cons s rest ih =>
    have length : s.len = s.bytes.length := List.length_range'.symm
    have bytes : hostBytes (s::rest) = s.bytes ++ hostBytes rest := rfl
    rw [fill,ih,Buffers.storeAt_part,bytes,← store_split,← length]
    rfl

theorem Wire.hands (frame : List UInt8) (rest : List (List UInt8)) (credit : Nat) :
    NetDevice.Hands (⟨frame::rest,credit⟩ : Wire) frame := by
  intro buffer host _ _
  refine ⟨⟨rest,credit⟩,?_⟩
  rw [← fill_eq]
  rfl

/-- Two pages that lie apart in host memory. -/
def twoPages : GuestMemoryMmap := ⟨[⟨0,4096,0,0⟩,⟨4096,4096,0x10000,1⟩],by decide⟩

def receivingCell : Cell (Net Wire) where
  device := ⟨⟨[List.replicate 30 7],0⟩,[],List.replicate 94 0,none,[]⟩
  queues := ⟨[],0,0⟩
  world := ⟨twoPages,fun _ => 0,0,0,false,MemoryStatus.new 0 0⟩
  trace := []

/-- The first buffer crosses from one page to the other, and the frame goes on in the second. -/
def receivingChain : Chain := ⟨3,[⟨0xff0,40,3,1⟩,⟨0x400,60,2,0⟩]⟩

def receivingSlices : List VolatileSlice := [⟨0xff0,16⟩,⟨0x10000,24⟩,⟨0x400,60⟩]

theorem receive_paths_agree_pages :
    Net.Alike ((Net.fillChain env true receivingChain 100 receivingSlices).run receivingCell)
      ((Net.fillChain env false receivingChain 100 receivingSlices).run receivingCell) ∧
    ((hostBytes receivingSlices).take 42).map
      (Net.delivered receivingSlices 100 (List.replicate 30 7) receivingCell.world.host) =
        Net.rxHeader ++ List.replicate 30 7 := by
  have buffer : receivingCell.device.rx.length = Net.HEADER + 82 := by decide
  have writable : receivingChain.descriptors.all (·.isWriteOnly) = true := by decide
  have total : Buffers.totalLength receivingChain.descriptors = some 100 := by decide
  have found : Buffers.slices env.vm receivingCell.world.view receivingChain.descriptors = .ok receivingSlices := by rfl
  have size : 14 ≤ (List.replicate 30 (7 : UInt8)).length ∧ (List.replicate 30 (7 : UInt8)).length ≤ 82 := by decide
  have apart : (hostBytes receivingSlices).Nodup := by decide +kernel
  have agree := Net.receive_paths_agree env_vm_lawful buffer writable total found size (Wire.hands _ _ _)
  obtain ⟨_,alike,same,_,read,_⟩ := agree.1 apart (by decide)
  rw [same]
  exact ⟨alike,read⟩

end WVmm.Reference
