import WVmm.Devices.BlockSpec
import WVmm.Devices.Receive
import WVmm.Devices.Transmit
import WVmm.Devices.Walks

/-! What a block request asks for depends on its bytes and their directions alone,
however they are cut into descriptors and memory regions. -/
namespace WVmm
open Lib.Effect Lib.Stores

/-- What vm-memory documents about accesses inside guest memory. -/
structure Env.Accesses (env : Env) : Prop where
  slices : ∀ (view : GuestMemoryMmap) a n, (∀ b ∈ List.range' a n, ∃ p, view.Backs b p) →
    ∃ ss, env.vm.getSlices view a n = .ok ss
  checked : ∀ (view : GuestMemoryMmap) a, env.vm.checkRange view a 1 = true → ∃ p, view.Backs a p
  write : ∀ (view : GuestMemoryMmap) (host : Host) a p b, view.Backs a p →
    env.vm.writeSlice view host a [b] = (.ok (),Function.update host p b)

namespace GuestMemoryMmap

def place (view : GuestMemoryMmap) (a : Nat) : Option Nat :=
  (view.regions.find? (fun r => decide (r.Holds a))).map (fun r => r.ptr + (a - r.start))

theorem holds_unique (view : GuestMemoryMmap) {a : Nat} {r q : Region} (left : r ∈ view.regions) (right : q ∈ view.regions)
    (holds : r.Holds a) (holds' : q.Holds a) : r = q := by
  by_contra other
  obtain ⟨_,_⟩ := holds
  obtain ⟨_,_⟩ := holds'
  obtain ⟨i,below,rfl⟩ := List.getElem_of_mem left
  obtain ⟨j,below',rfl⟩ := List.getElem_of_mem right
  rcases Nat.lt_trichotomy i j with less | same | more
  · have := List.pairwise_iff_getElem.mp view.sorted i j below below' less
    omega
  · exact other (by simp only [same])
  · have := List.pairwise_iff_getElem.mp view.sorted j i below' below more
    omega

theorem place_eq_some (view : GuestMemoryMmap) {a p : Nat} : view.place a = some p ↔ view.Backs a p := by
  unfold place
  constructor
  · intro placed
    obtain ⟨r,found,rfl⟩ := Option.map_eq_some_iff.mp placed
    have holds := List.find?_some found
    exact ⟨r,List.mem_of_find?_eq_some found,of_decide_eq_true holds,rfl⟩
  · rintro ⟨r,member,holds,rfl⟩
    cases found : view.regions.find? (fun r => decide (r.Holds a)) with
    | none => exact absurd (decide_eq_true holds) (List.find?_eq_none.mp found r member)
    | some q =>
      have first := List.find?_some found
      have same := view.holds_unique (List.mem_of_find?_eq_some found) member (of_decide_eq_true first) holds
      rw [Option.map_some,same]

end GuestMemoryMmap

namespace Devices

variable {env : Env}

structure BlockStorage.Faithful {B : Type} [BlockStorage B] (contents : B → Nat → UInt8) : Prop where
  sized : ∀ b : B, BlockStorage.size b < 2^64
  read : ∀ (b : B) offset data host, offset + (hostBytes data).length ≤ BlockStorage.size b →
    ∃ b' host', BlockStorage.read b offset data host = (.ok (),b',host') ∧ contents b' = contents b ∧
      ((hostBytes data).Nodup →
        host' = store host (hostBytes data) ((List.range' offset (hostBytes data).length).map (contents b)))
  write : ∀ (b : B) offset data host, offset + (hostBytes data).length ≤ BlockStorage.size b →
    ∃ b', BlockStorage.write b offset data host = (.ok (),b') ∧
      contents b' = store (contents b) (List.range' offset (hostBytes data).length) (World.bytesAt host data)
  flush : ∀ b : B, ∃ b', BlockStorage.flush b = (.ok (),b') ∧ contents b' = contents b

def directions (request : List Descriptor) : List Bool := request.flatMap (fun d => List.replicate d.len d.isWriteOnly)

theorem directions_cons (d : Descriptor) (rest : List Descriptor) :
    directions (d::rest) = List.replicate d.len d.isWriteOnly ++ directions rest := rfl

theorem directions_length (request : List Descriptor) :
    (directions request).length = (request.map Descriptor.len).sum := by
  induction request with
  | nil => rfl
  | cons d rest ih => rw [directions_cons,List.length_append,List.length_replicate,ih,List.map_cons,List.sum_cons]

theorem guestBytes_length (request : List Descriptor) : (guestBytes request).length = (directions request).length := by
  simp only [guestBytes,directions,List.length_flatMap,List.length_range',List.length_replicate]

namespace Block

inductive Asks
  | read (offset : Nat)
  | write (offset : Nat)
  | flush
  | identify
  | unknown
  | malformed
deriving DecidableEq

namespace Asks

/-- The request of a type, a sector and the directions of the payload, on a disk of
a certain size. -/
def select (size : Nat) (readOnly flushing : Bool) (k sector : Nat) (payload : List Bool) : Asks :=
  if k = T_IN then
    if payload.all (· == true) ∧ payload.length % 512 = 0 ∧ payload.length + 1 < 2^32 ∧
        sector * 512 + payload.length ≤ size then
      .read (sector * 512)
    else .malformed
  else if k = T_OUT then
    if payload.all (· == false) ∧ payload.length % 512 = 0 ∧ readOnly = false ∧
        sector * 512 + payload.length ≤ size then
      .write (sector * 512)
    else .malformed
  else if k = T_FLUSH then if payload.length = 0 ∧ flushing = true then .flush else .malformed
  else if k = T_GET_ID then if 20 ≤ payload.length ∧ payload.all (· == true) then .identify else .malformed
  else .unknown

/-- The request of a header and of the directions of all bytes. -/
def decode (size : Nat) (readOnly flushing : Bool) (header : List UInt8) (directions : List Bool) : Asks :=
  if directions.length < 16 ∨ 2^64 ≤ directions.length ∨ (directions.take 16).any (fun writable => writable) then
    .malformed
  else select size readOnly flushing (fromLeBytes (header.take 4)) (fromLeBytes (header.drop 8)) (directions.drop 16)

def status : Asks → UInt8
  | .unknown => S_UNSUPP
  | .malformed => S_IOERR
  | _ => S_OK

def used (length : Nat) : Asks → Nat
  | .read _ => length + 1
  | .identify => 21
  | _ => 1

end Asks

/-- The directions of header and payload decide what `payload` makes of them. -/
theorem payload_directions (remaining : Nat) (request : List Descriptor) :
    match payload remaining request with
    | .error _ => ((directions request).take remaining).any (fun writable => writable) = true
    | .ok data => ((directions request).take remaining).any (fun writable => writable) = false ∧
        ∀ read, data.all (fun d => d.isWriteOnly == read) = ((directions request).drop remaining).all (· == read) := by
  induction request generalizing remaining with
  | nil => exact ⟨by simp [directions],by simp [directions]⟩
  | cons d rest ih =>
    have front : (directions (d::rest)).take remaining =
        List.replicate (min remaining d.len) d.isWriteOnly ++ (directions rest).take (remaining - min remaining d.len) := by
      rw [directions_cons,List.take_append,List.take_replicate,List.length_replicate]
      congr 2
      omega
    have back : (directions (d::rest)).drop remaining =
        List.replicate (d.len - min remaining d.len) d.isWriteOnly ++ (directions rest).drop (remaining - min remaining d.len) := by
      rw [directions_cons,List.drop_append,List.drop_replicate,List.length_replicate]
      congr 2
      · omega
      · omega
    have later := ih (remaining - min remaining d.len)
    rw [front,back]
    simp only [payload,List.any_append,List.any_replicate]
    split
    · rename_i e refused
      split at refused
      · rename_i clash
        simp [clash.1,clash.2]
      · rename_i clear
        generalize payload (remaining - min remaining d.len) rest = result at later refused
        cases result with
        | error e' =>
          dsimp only at later
          rw [later,Bool.or_true]
        | ok data => cases refused
    · rename_i data taken
      split at taken
      · cases taken
      · rename_i clear
        generalize payload (remaining - min remaining d.len) rest = result at later taken
        cases result with
        | error e => cases taken
        | ok others =>
          obtain ⟨header,sides⟩ := later
          cases taken
          refine ⟨?_,fun read => ?_⟩
          · rw [header,Bool.or_false]
            by_cases none : min remaining d.len = 0
            · rw [if_pos none]
            · rw [if_neg none]
              by_contra writable
              exact clear ⟨none,(Bool.not_eq_false _).mp writable⟩
          · rw [List.all_append,List.all_replicate,← sides read]
            by_cases more : d.len > min remaining d.len
            · rw [if_pos more,if_neg (by omega),List.all_cons]
            · rw [if_neg more,if_pos (by omega),Bool.true_and]

variable {B : Type}

/-- What a request leaves behind, before its status is stored. Payload places are
host addresses; memory is as the guest left it `now`, when the disk was called. -/
def Asks.Leaves (contents : B → Nat → UInt8) (flushing : Bool) (payload : List Nat) (now : World)
    (c c' : Cell (Block B)) : Asks → Prop
  | .read offset => (∃ data, hostBytes data = payload ∧ c'.trace = c.trace ++ [.diskRead offset data (some ())]) ∧
      contents c'.device.disk = contents c.device.disk ∧
      (payload.Nodup →
        c'.world.host = store now.host payload ((List.range' offset payload.length).map (contents c.device.disk)))
  | .write offset => c'.trace = c.trace ++ .diskWrite offset (payload.map now.host) (some ())::
        (if flushing then [] else [.diskFlush (some ())]) ∧
      contents c'.device.disk =
        store (contents c.device.disk) (List.range' offset payload.length) (payload.map now.host) ∧
      c'.world.host = now.host
  | .flush => c'.trace = c.trace ++ [.diskFlush (some ())] ∧
      contents c'.device.disk = contents c.device.disk ∧ c'.world.host = now.host
  | .identify => c'.trace = c.trace ∧ contents c'.device.disk = contents c.device.disk ∧
      c'.world.host = store now.host payload c.device.id
  | .unknown => c'.trace = c.trace ∧ contents c'.device.disk = contents c.device.disk ∧ c'.world.host = now.host
  | .malformed => c'.trace = c.trace ∧ contents c'.device.disk = contents c.device.disk ∧ c'.world.host = now.host

/-- The answer of `execute`: every malformed request is an error. -/
def Asks.Answers (length : Nat) (r : Except (Failure DeviceError) (UInt8 × Nat)) (ask : Asks) : Prop :=
  if ask = .malformed then ∃ e, r = .error (.error e) else r = .ok (ask.status,ask.used length)

def Serves (env : Env) (contents : B → Nat → UInt8) (flushing : Bool) (payload : List Nat) (c : Cell (Block B))
    (m : Prog (Cell (Block B)) (Failure DeviceError) (UInt8 × Nat)) (ask : Asks) : Prop :=
  ∃ r c' now, m.run c = (r,c') ∧ World.Later env c.world now ∧ c'.world.view = c.world.view ∧ c'.queues = c.queues ∧
    ask.Answers payload.length r ∧ ask.Leaves contents flushing payload now c c'

section Serves
variable {contents : B → Nat → UInt8} {c : Cell (Block B)} {flushing : Bool} {places : List Nat} {m : Prog (Cell (Block B)) (Failure DeviceError) (UInt8 × Nat)}

theorem Serves.refused {e : DeviceError} (ran : m.run c = (.error (.error e),c)) :
    Serves env contents flushing places c m .malformed :=
  ⟨_,c,c.world,ran,⟨0,rfl⟩,rfl,rfl,⟨e,rfl⟩,rfl,rfl,rfl⟩

theorem Serves.done {ask : Asks} {c' : Cell (Block B)} {now : World} (sound : ask ≠ .malformed)
    (ran : m.run c = (.ok (ask.status,ask.used places.length),c')) (later : World.Later env c.world now)
    (view : c'.world.view = c.world.view) (queues : c'.queues = c.queues)
    (left : ask.Leaves contents flushing places now c c') : Serves env contents flushing places c m ask :=
  ⟨_,c',now,ran,later,view,queues,by rw [Asks.Answers,if_neg sound],left⟩

theorem Serves.after {w : World} {m' : Prog (Cell (Block B)) (Failure DeviceError) (UInt8 × Nat)} {ask : Asks}
    (later : World.Later env c.world w)
    (same : m.run c = m'.run {c with world := w})
    (serves : Serves env contents flushing places {c with world := w} m' ask) :
    Serves env contents flushing places c m ask := by
  obtain ⟨r,c',now,ran,after,view,queues,answers,left⟩ := serves
  refine ⟨r,c',now,same.trans ran,trans_of (World.Later env) later after,view.trans later.view,queues,answers,?_⟩
  cases ask <;> exact left

end Serves

variable [BlockStorage B]

def act (env : Env) (k sector total : Nat) (data : List Descriptor) (buffers : List VolatileSlice)
    (negotiated : BitVec 64) : Prog (Cell (Block B)) (Failure DeviceError) (UInt8 × Nat) :=
  if k = T_IN ∨ k = T_OUT then transfer env (k == T_IN) sector total data buffers negotiated
  else if k = T_FLUSH then do
    Prog.require (total == 0 && negotiated &&& F_FLUSH != 0) (.error .invalidFlush)
    diskFlush
    return (S_OK,1)
  else if k = T_GET_ID then do
    Prog.require (decide (total ≥ 20) && data.all (·.isWriteOnly)) (.error .invalidGetId)
    let c ← Prog.get
    Cell.onWorld (Buffers.copyFrom buffers c.device.id)
    return (S_OK,21)
  else return (S_UNSUPP,1)

theorem execute_run {request data : List Descriptor} {negotiated : BitVec 64} {c : Cell (Block B)}
    {all buffers : List VolatileSlice} {total : Nat} {h : List UInt8} {w : World}
    (found : Buffers.slices env.vm c.world.view request = .ok all)
    (counted : Buffers.totalLength request = some (16 + total)) (taken : payload 16 request = .ok data)
    (read : (Buffers.copyTo env all 16).run c.world = (.ok h,w)) (ranged : Buffers.range all 16 total = .ok buffers) :
    (execute env request negotiated).run c =
      (act env (fromLeBytes (h.take 4)) (fromLeBytes (h.drop 8)) total data buffers negotiated).run {c with world := w} := by
  have length : 16 + total - 16 = total := by omega
  simp only [execute,Prog.run_bind,Prog.run_get,found,Except.mapError,Prog.run_ofExcept,counted]
  rw [Prog.run_require,if_pos (by omega)]
  simp only [taken,Cell.onWorld,Prog.run_zoom,read,length,ranged]
  rfl

/-- What IN and OUT ask for before any I/O. -/
structure Transferable (read : Bool) (sector total : Nat) (data : List Descriptor) (disk : B) : Prop where
  sides : data.all (fun d => d.isWriteOnly == read) = true
  aligned : total % 512 = 0
  writable : (read || !BlockStorage.readOnly disk) = true
  counted : read = true → total + 1 < 2^32
  within : sector * 512 + total ≤ BlockStorage.size disk

section Transfer
variable {read : Bool} {sector total : Nat} {data : List Descriptor} {buffers : List VolatileSlice}
  {negotiated : BitVec 64} {c : Cell (Block B)}

theorem transfer_refuses (bad : ¬Transferable read sector total data c.device.disk) :
    ∃ e, (transfer env read sector total data buffers negotiated).run c = (.error (.error e),c) := by
  rw [transfer,Prog.run_guard]
  by_cases sides : data.all (fun d => d.isWriteOnly == read) = true
  swap
  · rw [if_neg sides]
    exact ⟨_,rfl⟩
  rw [if_pos sides,Prog.run_guard]
  by_cases aligned : total % 512 = 0
  swap
  · rw [if_neg aligned]
    exact ⟨_,rfl⟩
  rw [if_pos aligned,Prog.run_bind,Prog.run_get]
  dsimp only
  rw [Prog.run_guard]
  by_cases writable : (read || !BlockStorage.readOnly c.device.disk) = true
  swap
  · rw [if_neg writable]
    exact ⟨_,rfl⟩
  rw [if_pos writable,Prog.run_guard]
  by_cases counted : read = true → total + 1 < 2^32
  swap
  · rw [if_neg counted]
    exact ⟨_,rfl⟩
  rw [if_pos counted]
  cases product : checkedMul sector 512 with
  | none => exact ⟨_,rfl⟩
  | some offset =>
    obtain ⟨_,rfl⟩ := checkedMul_eq_some.mp product
    have beyond : ¬512 * sector + total ≤ BlockStorage.size c.device.disk := by
      intro within
      exact bad ⟨sides,aligned,writable,counted,by omega⟩
    have out : Storage.bounds (BlockStorage.size c.device.disk) (512 * sector) total =
        .error (.outOfBounds (BlockStorage.size c.device.disk) (512 * sector) total) := by
      unfold Storage.bounds
      split
      · rename_i stop sum
        obtain ⟨_,rfl⟩ := checkedAdd_eq_some.mp sum
        exact if_neg beyond
      · rfl
    simp only [Prog.run_bind,Prog.run_ofExcept,out]
    exact ⟨_,rfl⟩

theorem transfer_accepts (sized : BlockStorage.size c.device.disk < 2^64)
    (good : Transferable read sector total data c.device.disk) :
    (transfer env read sector total data buffers negotiated).run c =
      (if read then do
        diskRead env (sector * 512) buffers
        return (S_OK,total + 1)
      else do
        diskWrite env (sector * 512) buffers
        writeThrough negotiated
        return (S_OK,1)).run c := by
  obtain ⟨sides,aligned,writable,counted,within⟩ := good
  have product : checkedMul sector 512 = some (sector * 512) :=
    checkedMul_eq_some.mpr ⟨by omega,Nat.mul_comm _ _⟩
  have sum : checkedAdd (sector * 512) total = some (sector * 512 + total) :=
    checkedAdd_eq_some.mpr ⟨by omega,rfl⟩
  have fits : Storage.bounds (BlockStorage.size c.device.disk) (sector * 512) total = .ok () := by
    simp only [Storage.bounds,sum,if_pos within]
  rw [transfer,Prog.run_guard,if_pos sides,Prog.run_guard,if_pos aligned,Prog.run_bind,Prog.run_get]
  dsimp only
  rw [Prog.run_guard,if_pos writable,Prog.run_guard,if_pos counted]
  simp only [product,Prog.run_bind,Prog.run_ofExcept,fits,Except.mapError]

end Transfer

section Acts
variable {contents : B → Nat → UInt8} {c : Cell (Block B)} {buffers : List VolatileSlice}

theorem diskRead_runs (faithful : BlockStorage.Faithful contents) {offset : Nat}
    (within : offset + (hostBytes buffers).length ≤ BlockStorage.size c.device.disk) :
    ∃ c', (diskRead env offset buffers).run c = (.ok (),c') ∧ c'.world.view = c.world.view ∧ c'.queues = c.queues ∧
      (Asks.read offset).Leaves contents true (hostBytes buffers) (c.world.tick env) c c' := by
  obtain ⟨b,host,returned,same,stored⟩ := faithful.read c.device.disk offset buffers (c.world.tick env).host within
  refine ⟨{c with
    device := {c.device with disk := b}
    world := {c.world.tick env with host := host}
    trace := c.trace ++ [.diskRead offset buffers (some ())]},?_,rfl,rfl,⟨buffers,rfl,rfl⟩,same,stored⟩
  simp only [diskRead,Prog.run_bind,Cell.onWorld,World.observe,Prog.run_zoom,Prog.run_modify,Prog.run_get,returned,
    Cell.record,Prog.run_ofExcept,Except.mapError]
  rfl

theorem diskWrite_runs (faithful : BlockStorage.Faithful contents) {offset : Nat}
    (within : offset + (hostBytes buffers).length ≤ BlockStorage.size c.device.disk) :
    ∃ c', (diskWrite env offset buffers).run c = (.ok (),c') ∧ c'.world.view = c.world.view ∧ c'.queues = c.queues ∧
      (Asks.write offset).Leaves contents true (hostBytes buffers) (c.world.tick env) c c' := by
  obtain ⟨b,returned,stored⟩ := faithful.write c.device.disk offset buffers (c.world.tick env).host within
  refine ⟨{c with
    device := {c.device with disk := b}
    world := c.world.tick env
    trace := c.trace ++ [.diskWrite offset (World.bytesAt (c.world.tick env).host buffers) (some ())]},
    ?_,rfl,rfl,rfl,stored,rfl⟩
  simp only [diskWrite,Prog.run_bind,Cell.onWorld,World.observe,Prog.run_zoom,Prog.run_modify,Prog.run_get,returned,
    Cell.record,Prog.run_ofExcept,Except.mapError]
  rfl

theorem diskFlush_runs (faithful : BlockStorage.Faithful contents) :
    ∃ c', diskFlush.run c = (.ok (),c') ∧ c'.world = c.world ∧ c'.queues = c.queues ∧
      c'.trace = c.trace ++ [.diskFlush (some ())] ∧ contents c'.device.disk = contents c.device.disk := by
  obtain ⟨b,returned,same⟩ := faithful.flush c.device.disk
  refine ⟨{c with device := {c.device with disk := b}, trace := c.trace ++ [.diskFlush (some ())]},?_,rfl,rfl,rfl,same⟩
  simp only [diskFlush,Prog.run_bind,Prog.run_modify,Prog.run_get,returned,Cell.record,Prog.run_ofExcept,
    Except.mapError]
  rfl

theorem diskWrite_through (faithful : BlockStorage.Faithful contents) {offset : Nat} (negotiated : BitVec 64)
    (within : offset + (hostBytes buffers).length ≤ BlockStorage.size c.device.disk) :
    ∃ c', (do diskWrite env offset buffers; writeThrough negotiated : Prog _ _ Unit).run c = (.ok (),c') ∧
      c'.world.view = c.world.view ∧ c'.queues = c.queues ∧
      (Asks.write offset).Leaves contents (negotiated &&& F_FLUSH != 0) (hostBytes buffers) (c.world.tick env) c c' := by
  obtain ⟨c₁,wrote,view,queues,calls,stored,host⟩ := @diskWrite_runs env B _ contents c buffers faithful offset within
  rw [if_pos rfl] at calls
  by_cases lazy : negotiated &&& F_FLUSH = 0
  · obtain ⟨c₂,flushed,world,queues',calls',same⟩ := @diskFlush_runs B _ contents c₁ faithful
    refine ⟨c₂,?_,by rw [world,view],by rw [queues',queues],?_,by rw [same,stored],by rw [world,host]⟩
    · rw [Prog.run_bind,wrote]
      simp only [writeThrough,if_pos lazy,flushed]
    · rw [calls',calls,lazy]
      simp
  · refine ⟨c₁,?_,view,queues,?_,stored,host⟩
    · rw [Prog.run_bind,wrote]
      simp only [writeThrough,if_neg lazy]
      rfl
    · rw [calls,if_pos (bne_iff_ne.mpr lazy)]

section Kinds
variable {sector : Nat} {data : List Descriptor} {negotiated : BitVec 64} {payload : List Bool}

theorem transfer_reads (faithful : BlockStorage.Faithful contents) (length : payload.length = (hostBytes buffers).length)
    (sides : ∀ read, data.all (fun d => d.isWriteOnly == read) = payload.all (· == read)) (flushing : Bool) :
    Serves env contents flushing (hostBytes buffers) c
      (transfer env true sector (hostBytes buffers).length data buffers negotiated)
      (Asks.select (BlockStorage.size c.device.disk) (BlockStorage.readOnly c.device.disk) flushing T_IN sector
        payload) := by
  rw [Asks.select,if_pos rfl,length]
  split
  · rename_i good
    have able : Transferable true sector (hostBytes buffers).length data c.device.disk :=
      ⟨(sides true).trans good.1,good.2.1,rfl,fun _ => good.2.2.1,good.2.2.2⟩
    obtain ⟨c',ran,view,queues,left⟩ := @diskRead_runs env B _ contents c buffers faithful _ good.2.2.2
    refine .done (by simp) ?_ ⟨1,rfl⟩ view queues left
    rw [transfer_accepts (faithful.sized _) able,if_pos rfl,Prog.run_bind,ran]
    rfl
  · rename_i bad
    have unable : ¬Transferable true sector (hostBytes buffers).length data c.device.disk := by
      intro able
      exact bad ⟨(sides true).symm.trans able.sides,able.aligned,able.counted rfl,able.within⟩
    obtain ⟨e,ran⟩ := @transfer_refuses env B _ true sector _ data buffers negotiated c unable
    exact .refused ran

theorem transfer_writes (faithful : BlockStorage.Faithful contents) (length : payload.length = (hostBytes buffers).length)
    (sides : ∀ read, data.all (fun d => d.isWriteOnly == read) = payload.all (· == read)) :
    Serves env contents (negotiated &&& F_FLUSH != 0) (hostBytes buffers) c
      (transfer env false sector (hostBytes buffers).length data buffers negotiated)
      (Asks.select (BlockStorage.size c.device.disk) (BlockStorage.readOnly c.device.disk)
        (negotiated &&& F_FLUSH != 0) T_OUT sector payload) := by
  rw [Asks.select,if_neg (by decide),if_pos rfl,length]
  split
  · rename_i good
    have able : Transferable false sector (hostBytes buffers).length data c.device.disk :=
      ⟨(sides false).trans good.1,good.2.1,by rw [good.2.2.1]; rfl,by simp,good.2.2.2⟩
    obtain ⟨c',ran,view,queues,left⟩ :=
      @diskWrite_through env B _ contents c buffers faithful _ negotiated good.2.2.2
    refine .done (by simp) ?_ ⟨1,rfl⟩ view queues left
    rw [transfer_accepts (faithful.sized _) able,if_neg (by simp)]
    rw [Prog.run_bind] at ran ⊢
    generalize (diskWrite env (sector * 512) buffers).run c = outcome at ran ⊢
    obtain ⟨r,c₁⟩ := outcome
    cases r with
    | error e => cases ran
    | ok _ =>
      dsimp only at ran ⊢
      rw [Prog.run_bind,ran]
      rfl
  · rename_i bad
    have unable : ¬Transferable false sector (hostBytes buffers).length data c.device.disk := by
      intro able
      refine bad ⟨(sides false).symm.trans able.sides,able.aligned,?_,able.within⟩
      simpa using able.writable
    obtain ⟨e,ran⟩ := @transfer_refuses env B _ false sector _ data buffers negotiated c unable
    exact .refused ran

/-- Behind the header a request does what it asks for. -/
theorem act_serves (faithful : BlockStorage.Faithful contents) (id : c.device.id.length = 20) (k : Nat)
    (length : payload.length = (hostBytes buffers).length)
    (sides : ∀ read, data.all (fun d => d.isWriteOnly == read) = payload.all (· == read)) :
    Serves env contents (negotiated &&& F_FLUSH != 0) (hostBytes buffers) c
      (act env k sector (hostBytes buffers).length data buffers negotiated)
      (Asks.select (BlockStorage.size c.device.disk) (BlockStorage.readOnly c.device.disk)
        (negotiated &&& F_FLUSH != 0) k sector payload) := by
  by_cases reads : k = T_IN
  · subst reads
    exact transfer_reads faithful length sides _
  by_cases writes : k = T_OUT
  · subst writes
    exact transfer_writes faithful length sides
  unfold act Asks.select
  rw [if_neg (not_or.mpr ⟨reads,writes⟩),if_neg reads,if_neg writes,length]
  by_cases flushes : k = T_FLUSH
  · rw [if_pos flushes,if_pos flushes]
    by_cases good : (hostBytes buffers).length = 0 ∧ (negotiated &&& F_FLUSH != 0) = true
    · obtain ⟨c',ran,world,queues,calls,same⟩ := @diskFlush_runs B _ contents c faithful
      rw [if_pos good]
      refine .done (by simp) ?_ ⟨0,rfl⟩ (by rw [world]) queues ⟨calls,same,by rw [world]; rfl⟩
      rw [Prog.run_guard,if_pos (by simpa using good),Prog.run_bind,ran]
      rfl
    · rw [if_neg good]
      refine .refused (e := .invalidFlush) ?_
      rw [Prog.run_guard,if_neg (by simpa using good)]
  rw [if_neg flushes,if_neg flushes]
  by_cases identifies : k = T_GET_ID
  · have all : data.all (·.isWriteOnly) = payload.all (· == true) := by
      rw [← sides true]
      simp
    rw [if_pos identifies,if_pos identifies,all]
    by_cases good : 20 ≤ (hostBytes buffers).length ∧ payload.all (· == true) = true
    · rw [if_pos good]
      refine ⟨.ok (S_OK,21),{c with world := {c.world with host := store c.world.host (hostBytes buffers) c.device.id}},
        c.world,?_,⟨0,rfl⟩,rfl,rfl,by rw [Asks.Answers,if_neg (by simp)]; rfl,rfl,rfl,rfl⟩
      rw [Prog.run_guard,if_pos (by simpa using good)]
      simp only [Prog.run_bind,Prog.run_get,Cell.onWorld,Prog.run_zoom]
      rw [Buffers.copyFrom_stores (by rw [id]; exact good.1)]
      rfl
    · rw [if_neg good]
      refine .refused (e := .invalidGetId) ?_
      rw [Prog.run_guard,if_neg (by simpa using good)]
  rw [if_neg identifies,if_neg identifies]
  exact .done (by simp) rfl ⟨0,rfl⟩ rfl rfl ⟨rfl,rfl,rfl⟩

end Kinds

end Acts

/-- Where a byte of a request lies in host memory, if it is in guest memory, and
whether the device may write it. -/
structure Spot where
  place : Option Nat
  writable : Bool

def flatten (view : GuestMemoryMmap) (request : List Descriptor) : List Spot :=
  ((guestBytes request).zip (directions request)).map (fun b => ⟨view.place b.1,b.2⟩)

/-- The reference: what a row of bytes asks for, given the first 16 of them. -/
def Asks.reference (size : Nat) (readOnly flushing : Bool) (header : List UInt8) (spots : List Spot) : Asks :=
  if spots.all (·.place.isSome) then decode size readOnly flushing header (spots.map Spot.writable) else .malformed

def places (spots : List Spot) : List Nat := spots.filterMap Spot.place

/-- A well-formed request is in memory. -/
theorem reference_length {size : Nat} {readOnly flushing : Bool} {header : List UInt8} {spots : List Spot}
    (sound : Asks.reference size readOnly flushing header spots ≠ .malformed) :
    (places spots).length = spots.length := by
  unfold Asks.reference at sound
  split at sound
  · rename_i inside
    exact List.filterMap_length_eq_length.mpr (List.all_eq_true.mp inside)
  · exact absurd rfl sound

section Flat
variable {view : GuestMemoryMmap} {request : List Descriptor}

theorem flatten_directions (view : GuestMemoryMmap) (request : List Descriptor) :
    (flatten view request).map Spot.writable = directions request := by
  rw [flatten,List.map_map]
  exact List.map_snd_zip (by rw [guestBytes_length])

theorem flatten_places (view : GuestMemoryMmap) (request : List Descriptor) :
    (flatten view request).map Spot.place = (guestBytes request).map view.place := by
  rw [flatten,List.map_map]
  have first : (Spot.place ∘ fun b : Nat × Bool => ⟨view.place b.1,b.2⟩) = view.place ∘ Prod.fst := rfl
  rw [first,← List.map_map,List.map_fst_zip (by rw [guestBytes_length])]

theorem flatten_found {all : List Nat} (found : List.Forall₂ view.Backs (guestBytes request) all) :
    (flatten view request).all (·.place.isSome) = true ∧ places (flatten view request) = all := by
  have each : (flatten view request).map Spot.place = all.map some := by
    rw [flatten_places,← List.forall₂_eq_eq_eq,List.forall₂_map_left_iff,List.forall₂_map_right_iff]
    exact found.imp (fun _ _ backs => view.place_eq_some.mpr backs)
  have inside : (flatten view request).all (·.place.isSome) = ((flatten view request).map Spot.place).all Option.isSome := by
    rw [List.all_map]
    rfl
  have listed : places (flatten view request) = ((flatten view request).map Spot.place).filterMap (fun place => place) := by
    rw [List.filterMap_map]
    rfl
  rw [inside,listed,each]
  exact ⟨by simp,by simp⟩

theorem flatten_backed (inside : (flatten view request).all (·.place.isSome) = true) :
    ∀ a ∈ guestBytes request, ∃ p, view.Backs a p := by
  have each : ((guestBytes request).map view.place).all Option.isSome = true := by
    rw [← flatten_places,List.all_map]
    exact inside
  intro a member
  obtain ⟨p,known⟩ := Option.isSome_iff_exists.mp (List.all_eq_true.mp each _ (List.mem_map_of_mem member))
  exact ⟨p,view.place_eq_some.mp known⟩

theorem slices_found (accesses : env.Accesses) (backed : ∀ a ∈ guestBytes request, ∃ p, view.Backs a p) :
    ∃ all, Buffers.slices env.vm view request = .ok all := by
  induction request with
  | nil => exact ⟨[],rfl⟩
  | cons d rest ih =>
    have bytes : guestBytes (d::rest) = List.range' d.addr d.len ++ guestBytes rest := rfl
    rw [bytes] at backed
    obtain ⟨first,found⟩ := accesses.slices view d.addr d.len (fun b here => backed b (List.mem_append_left _ here))
    obtain ⟨others,later⟩ := ih (fun b there => backed b (List.mem_append_right _ there))
    exact ⟨first ++ others,by simp only [Buffers.slices,found,later]⟩

theorem copyTo_succeeds {all : List VolatileSlice} {n : Nat} (fits : n ≤ (hostBytes all).length) (w : World) :
    ∃ raw w', (Buffers.copyTo env all n).run w = (.ok raw,w') := by
  induction all generalizing n w with
  | nil =>
    rw [Buffers.copyTo,if_pos (Nat.le_zero.mp fits)]
    exact ⟨_,_,rfl⟩
  | cons s rest ih =>
    have bytes : (hostBytes (s::rest)).length = s.len + (hostBytes rest).length := by
      simp [hostBytes,VolatileSlice.bytes]
    rw [Buffers.copyTo]
    split
    · exact ⟨_,_,rfl⟩
    · obtain ⟨others,w',read⟩ := @ih (n - min s.len n) (by omega) (w.tick env)
      simp only [Prog.run_bind,World.observe,Prog.run_modify,Prog.run_get,read]
      exact ⟨_,_,rfl⟩

end Flat

theorem totalLength_directions (request : List Descriptor) :
    Buffers.totalLength request =
      if (directions request).length < 2^64 then some (directions request).length else none := by
  rw [Buffers.totalLength,foldlM_checkedAdd Descriptor.len request (by decide),directions_length,Nat.zero_add]

theorem execute_refuses {request : List Descriptor} {c : Cell (Block B)} {all : List VolatileSlice}
    (found : Buffers.slices env.vm c.world.view request = .ok all)
    (bad : (directions request).length < 16 ∨ 2^64 ≤ (directions request).length ∨
      ((directions request).take 16).any (fun writable => writable) = true) (negotiated : BitVec 64) :
    ∃ e, (execute env request negotiated).run c = (.error (.error e),c) := by
  simp only [execute,Prog.run_bind,Prog.run_get,found,Except.mapError,Prog.run_ofExcept,totalLength_directions]
  by_cases fits : (directions request).length < 2^64
  swap
  · rw [if_neg fits]
    exact ⟨_,rfl⟩
  rw [if_pos fits]
  dsimp only
  rw [Prog.run_guard]
  by_cases long : 16 ≤ (directions request).length
  swap
  · rw [if_neg long]
    exact ⟨_,rfl⟩
  rw [if_pos long]
  have header : ((directions request).take 16).any (fun writable => writable) = true := by
    rcases bad with short | large | writable
    · omega
    · omega
    · exact writable
  have sides := payload_directions 16 request
  generalize payload 16 request = result at sides ⊢
  cases result with
  | error e => exact ⟨e,rfl⟩
  | ok data =>
    rw [header] at sides
    cases sides.1

/-- A request is executed as its bytes ask for. -/
theorem execute_serves (lawful : env.vm.Lawful) (accesses : env.Accesses) {contents : B → Nat → UInt8}
    (faithful : BlockStorage.Faithful contents) {c : Cell (Block B)} (id : c.device.id.length = 20)
    (request : List Descriptor) (negotiated : BitVec 64) :
    let spots := flatten c.world.view request
    ∃ header ticks, Glimpsed env c.world ticks ((places spots).take 16) header ∧
      Serves env contents (negotiated &&& F_FLUSH != 0) ((places spots).drop 16) c (execute env request negotiated)
        (Asks.reference (BlockStorage.size c.device.disk) (BlockStorage.readOnly c.device.disk)
          (negotiated &&& F_FLUSH != 0) header spots) := by
  intro spots
  have glimpse : Glimpsed env c.world 0 ((places spots).take 16) (((places spots).take 16).map c.world.host) := by
    refine List.forall₂_map_right_iff.mpr (List.forall₂_same.mpr (fun p _ => ⟨0,Nat.le_refl _,rfl⟩))
  by_cases inside : spots.all (·.place.isSome) = true
  swap
  · refine ⟨_,0,glimpse,?_⟩
    rw [Asks.reference,if_neg inside]
    cases found : Buffers.slices env.vm c.world.view request with
    | ok all => exact absurd (flatten_found (Buffers.slices_backed lawful found)).1 inside
    | error e =>
      refine .refused (e := .guestAccess e) ?_
      simp only [execute,Prog.run_bind,Prog.run_get,found,Except.mapError,Prog.run_ofExcept]
  obtain ⟨all,found⟩ := slices_found accesses (flatten_backed inside)
  obtain ⟨_,placed⟩ := flatten_found (Buffers.slices_backed lawful found)
  have length : (hostBytes all).length = (directions request).length := by
    rw [← (Buffers.slices_backed lawful found).length_eq,guestBytes_length]
  by_cases bad : (directions request).length < 16 ∨ 2^64 ≤ (directions request).length ∨
      ((directions request).take 16).any (fun writable => writable) = true
  · obtain ⟨e,ran⟩ := execute_refuses found bad negotiated
    refine ⟨_,0,glimpse,?_⟩
    rw [Asks.reference,if_pos inside,flatten_directions,Asks.decode,if_pos bad]
    exact .refused ran
  have sides := payload_directions 16 request
  cases taken : payload 16 request with
  | error e =>
    rw [taken] at sides
    exact absurd (Or.inr (Or.inr sides)) bad
  | ok data =>
    rw [taken] at sides
    have long : 16 ≤ (directions request).length := by omega
    have small : (directions request).length < 2^64 := by omega
    obtain ⟨header,w,read⟩ := @copyTo_succeeds env all 16 (by omega) c.world
    obtain ⟨ticks,_,later,glimpsed⟩ := Buffers.copyTo_glimpses read
    obtain ⟨buffers,ranged,covers⟩ := @Buffers.range_covers all 16 ((directions request).length - 16) (by omega)
    rw [List.take_of_length_le (by rw [List.length_drop]; omega)] at covers
    have total : (hostBytes buffers).length = (directions request).length - 16 := by
      rw [covers,List.length_drop,length]
    refine ⟨header,ticks,by rw [placed]; exact glimpsed,?_⟩
    rw [Asks.reference,if_pos inside,flatten_directions,Asks.decode,if_neg bad,placed,← covers]
    rw [← total] at ranged
    have counted : Buffers.totalLength request = some (16 + (hostBytes buffers).length) := by
      rw [totalLength_directions,if_pos small,total]
      congr 1
      omega
    have ran := @execute_run env B _ request data negotiated c all buffers _ header w found counted taken read ranged
    refine Serves.after ⟨ticks,later⟩ ran ?_
    exact @act_serves env B _ contents {c with world := w} buffers _ data negotiated _ faithful id _
      (by rw [List.length_drop,total]) sides.2

/-- A request that ends in a trusted status byte is answered as the reference says.
Only the row of its bytes counts, not how descriptors and regions cut it. -/
theorem request_follows_reference (lawful : env.vm.Lawful) (accesses : env.Accesses) {contents : B → Nat → UInt8}
    (faithful : BlockStorage.Faithful contents) {c : Cell (Block B)} (id : c.device.id.length = 20)
    {descriptors : List Descriptor} {status : Descriptor} (last : descriptors.getLast? = some status)
    (trusted : status.isWriteOnly = true ∧ status.len = 1 ∧ env.vm.checkRange c.world.view status.addr 1 = true)
    (negotiated : BitVec 64) :
    let spots := flatten c.world.view descriptors.dropLast
    ∃ p header ticks now c', c.world.view.Backs status.addr p ∧
      Glimpsed env c.world ticks ((places spots).take 16) header ∧ World.Later env c.world now ∧
      c'.world.view = c.world.view ∧ c'.queues = c.queues ∧
      (let ask := Asks.reference (BlockStorage.size c.device.disk) (BlockStorage.readOnly c.device.disk)
        (negotiated &&& F_FLUSH != 0) header spots
      ask.Leaves contents (negotiated &&& F_FLUSH != 0) ((places spots).drop 16) now c c' ∧
      (request env descriptors negotiated).run c = (.ok (ask.used (spots.length - 16)),
        {c' with world := {c'.world with host := Function.update c'.world.host p ask.status}})) ∧
      -- Memory that the guest leaves alone is what it was.
      ((∀ n, ((World.tick env)^[n] c.world).host = c.world.host) →
        header = ((places spots).take 16).map c.world.host ∧ now.host = c.world.host) := by
  intro spots
  obtain ⟨p,backs⟩ := accesses.checked c.world.view status.addr trusted.2.2
  obtain ⟨header,ticks,glimpsed,r,c',now,ran,later,view,queues,answers,left⟩ :=
    execute_serves lawful accesses faithful id descriptors.dropLast negotiated
  refine ⟨p,header,ticks,now,c',backs,glimpsed,later,view,queues,⟨left,?_⟩,fun still => ⟨?_,?_⟩⟩
  · generalize ask : Asks.reference (BlockStorage.size c.device.disk) (BlockStorage.readOnly c.device.disk)
      (negotiated &&& F_FLUSH != 0) header spots = asked at left answers
    have stored : ∀ value, (World.writeSlice env status.addr [value]).run c'.world =
        (.ok (),{c'.world with host := Function.update c'.world.host p value}) := by
      intro value
      have wrote := accesses.write c'.world.view c'.world.host status.addr p value (view ▸ backs)
      simp only [World.writeSlice,Prog.run,wrote,Except.mapError]
    have proven : (status.isWriteOnly && status.len == 1 && env.vm.checkRange c.world.view status.addr 1) = true := by
      simp [trusted]
    simp only [request,last,Cell.onWorld,World.checkRange,Prog.run_bind,Prog.run_zoom,Prog.run_get,Prog.run_pure]
    rw [Prog.run_require,if_pos proven]
    simp only [Prog.run_capture,ran]
    by_cases malformed : asked = .malformed
    · rw [Asks.Answers,if_pos malformed] at answers
      obtain ⟨e,rfl⟩ := answers
      rw [malformed]
      simp only [Prog.run_bind,Prog.run_zoom,stored]
      rfl
    · rw [Asks.Answers,if_neg malformed,List.length_drop,reference_length (ask ▸ malformed)] at answers
      subst answers
      simp only [Prog.run_bind,Prog.run_zoom,stored]
      rfl
  · refine glimpsed.still (fun q _ n _ => ?_)
    rw [still n]
  · obtain ⟨n,rfl⟩ := later
    exact still n

end Block
end Devices

namespace Reference
open Devices

theorem env_accesses : env.Accesses where
  slices view a n backed := slicesIn_succeeds view.sorted a n (fun i less => by
    obtain ⟨p,r,member,holds,_⟩ := backed (a + i) (List.mem_range'_1.mpr ⟨by omega,by omega⟩)
    exact ⟨r,member,holds⟩)
  checked view a checked := by
    change (slicesIn view.regions a 1).isOk = true at checked
    cases found : slicesIn view.regions a 1 with
    | error e =>
      rw [found] at checked
      cases checked
    | ok ss =>
      have backs := slicesIn_backs view.regions a 1 ss found
      generalize ss.flatMap VolatileSlice.bytes = bytes at backs
      cases backs with
      | cons here _ => exact ⟨_,here⟩
  write view host a p b backs := by
    change storeIn view.regions host a [b] = _
    obtain ⟨r,member,holds,rfl⟩ := backs
    have sorted := view.sorted
    generalize view.regions = regions at member sorted
    induction regions with
    | nil => cases member
    | cons first rest ih =>
      obtain ⟨before,following⟩ := List.pairwise_cons.mp sorted
      rw [storeIn]
      split
      · rename_i here
        have same : r = first := by
          rcases List.mem_cons.mp member with same | later
          · exact same
          · have apart := before r later
            obtain ⟨_,_⟩ := here
            obtain ⟨_,_⟩ := holds
            omega
        subst same
        obtain ⟨_,_⟩ := here
        have one : min (([] : List UInt8).length + 1) (r.start + r.len - a) = 1 := by
          rw [List.length_nil]
          omega
        rw [one]
        simp only [List.take_one,List.drop_one,List.tail_cons,List.head?_cons,Option.toList_some]
        rw [Buffers.storeAt_eq]
        cases rest <;> rfl
      · rename_i elsewhere
        rcases List.mem_cons.mp member with rfl | later
        · exact absurd holds elsewhere
        · exact ih later following

structure Platter where
  bytes : Nat → UInt8

instance : BlockStorage Platter where
  size _ := 2048
  readOnly _ := false
  read d offset data host := (.ok (),d,
    Lib.Stores.store host (hostBytes data) ((List.range' offset (hostBytes data).length).map d.bytes))
  write d offset data host := (.ok (),
    ⟨Lib.Stores.store d.bytes (List.range' offset (hostBytes data).length) (World.bytesAt host data)⟩)
  flush d := (.ok (),d)

theorem platter_faithful : BlockStorage.Faithful Platter.bytes where
  sized _ := by
    change 2048 < 2^64
    decide
  read d offset data host _ := ⟨d,_,rfl,rfl,fun _ => rfl⟩
  write d offset data host _ := ⟨_,rfl,rfl⟩
  flush d := ⟨d,rfl,rfl⟩

/-- A write of the first sector; its header stands at 0x400 and its data at 0x500. -/
def writeMemory : Host := fun p => if p = 0x400 then 1 else if 0x500 ≤ p then 7 else 0

def pieces : List Descriptor :=
  [⟨0x400,7,1,1⟩,⟨0x9000,0,1,2⟩,⟨0x407,9,1,3⟩,⟨0x500,100,1,4⟩,⟨0x564,412,1,5⟩,⟨0x800,1,2,0⟩]

def writing : Cell (Block Platter) where
  device := ⟨⟨fun _ => 0⟩,"disk",List.replicate 20 0⟩
  queues := ⟨[],0,0⟩
  world := ⟨page,writeMemory,0,0,false,.new 128 128⟩
  trace := []

theorem request_follows_reference_pieces :
    ∃ (c' : Cell (Block Platter)) (p : Nat), (Block.request env pieces 0).run writing = (.ok 1,
        {c' with world := {c'.world with host := Function.update c'.world.host p Block.S_OK}}) ∧
      c'.trace = [.diskWrite 0 ((List.range' 0x500 512).map writeMemory) (some ()),.diskFlush (some ())] ∧
      c'.device.disk.bytes =
        Lib.Stores.store (fun _ => 0) (List.range' 0 512) ((List.range' 0x500 512).map writeMemory) := by
  have rest : ∀ n, ((World.tick env)^[n] writing.world).host = writing.world.host := by
    intro n
    induction n with
    | zero => rfl
    | succ n ih =>
      rw [Function.iterate_succ_apply',World.tick]
      exact (ite_self _).trans ih
  have flat : Block.places (Block.flatten page pieces.dropLast) = List.range' 0x400 16 ++ List.range' 0x500 512 := by
    decide +kernel
  have asks : Block.Asks.reference (BlockStorage.size writing.device.disk) (BlockStorage.readOnly writing.device.disk)
      (0 &&& Block.F_FLUSH != 0) ((List.range' 0x400 16).map writeMemory) (Block.flatten page pieces.dropLast) =
        .write 0 := by
    decide +kernel
  have front : (List.range' 0x400 16 ++ List.range' 0x500 512).take 16 = List.range' 0x400 16 := by decide +kernel
  have back : (List.range' 0x400 16 ++ List.range' 0x500 512).drop 16 = List.range' 0x500 512 := by decide +kernel
  obtain ⟨p,header,ticks,now,c',_,_,_,_,_,served,still⟩ := @Block.request_follows_reference env Platter _
    env_vm_lawful env_accesses Platter.bytes platter_faithful writing rfl pieces ⟨0x800,1,2,0⟩ rfl (by decide) 0
  obtain ⟨read,quiet⟩ := still rest
  have viewed : writing.world.view = page := rfl
  rw [viewed,flat,front] at read
  subst read
  have host : writing.world.host = writeMemory := rfl
  dsimp only at served
  rw [viewed,flat,back,host,asks] at served
  obtain ⟨⟨calls,stored,_⟩,ran⟩ := served
  rw [quiet] at calls stored
  rw [List.length_range'] at stored
  exact ⟨c',p,ran,calls,stored⟩

end Reference
end WVmm
