import WVmm.Devices.MemoryRuns
import WVmm.Devices.MemoryLoop
import WVmm.Devices.MemorySpec
import WVmm.Devices.PluggedSet
import WVmm.Devices.Published

/-! A committed memory change is always answered: the buffers of a chain and the used
ring were pinned against it, so they are still there when the answer is written. -/
namespace WVmm
open Lib.Effect Lib.Stores

def GuestMemoryMmap.Retains (pins : List (Nat × Nat)) (view view' : GuestMemoryMmap) : Prop :=
  ∀ range ∈ pins, ∀ r ∈ view.regions, (∃ i < range.2, r.Holds (range.1 + i)) → r ∈ view'.regions

namespace Devices

variable {env : Env} {view : GuestMemoryMmap}

namespace VirtioMem

variable {M : Type} {table : M → Nat → Option Region} {base : List Region} {fixed : Nat → Option Region} {t : Txn M}
  [Mapper M]

/-- Memory with pinned bytes stays. -/
theorem request_retains (lawful : env.vm.Lawful) (atomic : Mapper.Atomic table) (book : Book table base fixed t)
    (req : List UInt8) (pins : List (Nat × Nat)) :
    t.cell.world.view.Retains pins ((request env req pins).run t).2.cell.world.view := by
  have outcome := request_outcome lawful atomic book req pins
  generalize (request env req pins).run t = ended at outcome
  rintro range held r member ⟨i,below,inside⟩
  cases outcome with
  | answered answer decided => exact member
  | rolledBack host allocations mapper trace same => exact member
  | failed e host allocations mapper trace cause => exact member
  | acknowledged addresses host allocations mapper trace regions view' decided carried =>
    have admitted := verdict_admits decided
    have blocks := admitted.blocks book.shape book.keyed
    refine (carried.viewed r).mpr ?_
    by_cases plug : ((Request.decode req).kind == 0) = true
    · rw [if_pos plug]
      exact .inr member
    · rw [if_neg plug]
      refine ⟨member,fun removed => ?_⟩
      -- a block that is taken away would meet the pin
      have listed : r.start ∈ addresses := carried.starts ▸ List.mem_map_of_mem removed
      have apart := admitted.unpinned (by simpa using plug) r.start listed range held
      have length := carried.lengths r removed
      have met := (meets_iff book.shape (blocks r.start listed) range).not.mp (by rw [apart]; decide)
      rw [PluggedSet.Meets,not_and_or] at met
      obtain ⟨low,high⟩ := inside
      omega

/-- A pinned range that is in guest memory stays there. -/
theorem request_covers (lawful : env.vm.Lawful) (atomic : Mapper.Atomic table) (book : Book table base fixed t)
    (req : List UInt8) {pins : List (Nat × Nat)} {range : Nat × Nat} (held : range ∈ pins)
    (covered : t.cell.world.view.Covers range) :
    ((request env req pins).run t).2.cell.world.view.Covers range := by
  intro i below
  obtain ⟨p,r,member,inside,address⟩ := covered i below
  exact ⟨p,r,request_retains lawful atomic book req pins range held r member ⟨i,below,inside⟩,inside,address⟩

omit [Mapper M] in
/-- A response goes byte by byte to the places of the descriptors, as far as they go. -/
theorem respond_stores (covering : env.Covering) (stores : env.vm.Stores) (response : List UInt8)
    {descriptors : List Descriptor} {w : World} (covered : ∀ d ∈ descriptors, w.view.Covers (d.addr,d.len)) :
    ∃ places, List.Forall₂ w.view.Backs ((guestBytes descriptors).take response.length) places ∧
      (respond env response descriptors).run w = (.ok (),{w with host := store w.host places response}) := by
  induction descriptors generalizing response w with
  | nil =>
    refine ⟨[],?_,?_⟩
    · rw [show guestBytes [] = [] from rfl,List.take_nil]
      exact .nil
    · rw [store_nil_left]
      rfl
  | cons d rest ih =>
    have fits : w.view.Covers (d.addr,(response.take (min d.len response.length)).length) := by
      intro i below
      rw [List.length_take] at below
      exact covered d List.mem_cons_self i (by omega)
    have success := (covering.write w.view w.host d.addr _).mpr fits
    rcases wrote : env.vm.writeSlice w.view w.host d.addr (response.take (min d.len response.length)) with ⟨r,host⟩
    rw [wrote] at success
    cases success
    obtain ⟨first,backed,rfl⟩ := stores _ _ _ _ _ wrote
    have ran : (World.writeSlice env d.addr (response.take (min d.len response.length))).run w =
        (.ok (),{w with host := store w.host first (response.take (min d.len response.length))}) := by
      change (Except.mapError _ _,_) = _
      rw [wrote]
      rfl
    have size : (response.take (min d.len response.length)).length = min d.len response.length := by
      rw [List.length_take]
      omega
    rw [size] at backed
    have aligned : first.length = (response.take (min d.len response.length)).length := by
      rw [size,← backed.length_eq,List.length_range']
    obtain ⟨others,later,rested⟩ := ih (response.drop (min d.len response.length))
      (w := {w with host := store w.host first (response.take (min d.len response.length))})
      (fun d' member => covered d' (List.mem_cons_of_mem _ member))
    refine ⟨first ++ others,?_,?_⟩
    · have split : (guestBytes (d::rest)).take response.length =
          List.range' d.addr (min d.len response.length) ++
            (guestBytes rest).take (response.drop (min d.len response.length)).length := by
        have bytes : guestBytes (d::rest) = List.range' d.addr d.len ++ guestBytes rest := List.flatMap_cons
        rw [bytes,List.take_append,List.length_range',List.length_drop]
        rcases Nat.le_total d.len response.length with short | long
        · rw [List.take_range'_of_length_le short,Nat.min_eq_left short]
        · rw [List.take_range'_of_length_ge long,Nat.min_eq_right long,Nat.sub_eq_zero_of_le long,Nat.sub_self]
      rw [split]
      exact List.rel_append backed later
    · rw [respond,Prog.run_bind,ran]
      dsimp only
      have whole : store w.host (first ++ others) response =
          store (store w.host first (response.take (min d.len response.length))) others
            (response.drop (min d.len response.length)) := by
        conv_lhs => rw [← List.take_append_drop (min d.len response.length) response]
        exact store_append aligned
      rw [whole]
      split
      · rename_i ended
        rw [ended,store_nil_right]
        rfl
      · exact rested

omit [Mapper M] in
theorem readSlice_moment {addr n : Nat} {w w' : World} {raw : List UInt8}
    (ran : (World.readSlice env addr n).run w = (.ok raw,w')) :
    env.vm.readSlice w.view (w.tick env).host addr n = .ok raw ∧ w' = w.tick env := by
  obtain ⟨outcome,rfl⟩ := Prod.mk.inj ran
  refine ⟨?_,rfl⟩
  change (env.vm.readSlice w.view (w.tick env).host addr n).mapError _ = .ok raw at outcome
  cases found : env.vm.readSlice w.view (w.tick env).host addr n with
  | error e =>
    rw [found] at outcome
    cases outcome
  | ok bytes =>
    rw [found] at outcome
    cases outcome
    rfl

omit [Mapper M] in
/-- A request is what its readable descriptors hold, one after the other. -/
theorem readRequest_parts (room : Nat) (writable : Bool) (descriptors : List Descriptor) {w w' : World}
    {req : List UInt8} (ran : (readRequest env room writable descriptors).run w = (.ok req,w')) :
    ∃ parts, List.Forall₂ (fun d raw => ∃ n, env.vm.readSlice w.view ((World.tick env)^[n] w).host d.addr d.len = .ok raw)
      (descriptors.filter (fun d => !d.isWriteOnly)) parts ∧ req = parts.flatten := by
  induction descriptors generalizing room writable w req with
  | nil =>
    cases ran
    exact ⟨[],.nil,rfl⟩
  | cons d rest ih =>
    unfold readRequest at ran
    by_cases skipped : d.isWriteOnly = true
    · rw [if_pos skipped] at ran
      obtain ⟨parts,read,whole⟩ := ih _ _ ran
      exact ⟨parts,by rw [List.filter_cons_of_neg (by simp [skipped])]; exact read,whole⟩
    rw [if_neg skipped] at ran
    split at ran
    · cases ran
    split at ran
    · cases ran
    obtain ⟨raw,w₁,read,then₁⟩ := Prog.bind_success ran
    obtain ⟨others,w₂,later,then₂⟩ := Prog.bind_success then₁
    cases then₂
    obtain ⟨here,rfl⟩ := readSlice_moment read
    obtain ⟨parts,reads,rfl⟩ := ih _ _ later
    rw [List.filter_cons_of_pos (by simpa using skipped)]
    refine ⟨raw::parts,.cons ⟨1,here⟩ (reads.imp ?_),rfl⟩
    rintro d' raw' ⟨n,found⟩
    exact ⟨n + 1,found⟩

/-- What an attached device can come to: requests, also those that fail and are rolled
back, new targets, and moves of everything beside it. -/
inductive Lived (env : Env) (table : M → Nat → Option Region) (first : Txn M) : Txn M → Prop
  | start : Lived env table first first
  | request {t u : Txn M} (req : List UInt8) (pinned : List (Nat × Nat))
      {r : Except (Failure MemoryError) (Nat × Nat)} (before : Lived env table first t)
      (ran : (VirtioMem.request env req pinned).run t = (r,u))
      (restored : ∀ source failed, r ≠ .error (.error (.rollbackFailed source failed))) : Lived env table first u
  | sync {t : Txn M} (ready : Bool) (before : Lived env table first t) :
      Lived env table first ((Txn.onCell (syncTarget ready) : Prog (Txn M) Empty Bool).run t).2
  | beside {t u : Txn M} (before : Lived env table first t) (world : World.Steady t.cell.world u.cell.world)
      (device : u.cell.device = t.cell.device) (mapper : table u.mapper = table t.mapper) : Lived env table first u

theorem Lived.book (lawful : env.vm.Lawful) (atomic : Mapper.Atomic table) {first t : Txn M}
    (attached : Attached table first) (lived : Lived env table first t) :
    Book table first.cell.world.view.regions (table first.mapper) t := by
  induction lived with
  | start => exact attached.book
  | request req pinned _ ran restored ih =>
    rcases request_guards lawful atomic req pinned _ ih with kept | ⟨e,failed,source,lost,rfl⟩
    · rwa [ran] at kept
    · rw [ran] at failed
      exact absurd failed (restored source lost)
  | sync ready _ ih => exact ih.sync ready
  | beside _ world device mapper ih => exact ih.steady world device mapper

/-- One round of the loop; false when the queue is empty. -/
def round (env : Env) (pinned : List (Nat × Nat)) : Prog (Txn M) (Failure DeviceError) Bool := do
  match ← Txn.onCell (Queues.pop env 0) with
  | none => return false
  | some chain =>
    serve env pinned chain
    return true

/-- The states in which the loop looks for its next chain. -/
inductive Rounds (env : Env) (pinned : List (Nat × Nat)) (t : Txn M) : Txn M → Prop
  | start : Rounds env pinned t t
  | next {u v : Txn M} (before : Rounds env pinned t u) (ran : (round env pinned).run u = (.ok true,v)) :
      Rounds env pinned t v

theorem processLoop_round (pinned : List (Nat × Nat)) (budget : Nat) (t : Txn M) :
    (processLoop env pinned (budget + 1)).run t = match (round env pinned).run t with
      | (.ok true,u) => (processLoop env pinned budget).run u
      | (.ok false,u) => (.ok (),u)
      | (.error f,u) => (.error f,u) := by
  simp only [processLoop,round,Prog.run_bind]
  generalize (Txn.onCell (Queues.pop env 0) : Prog (Txn M) (Failure DeviceError) _).run t = popped
  obtain ⟨r,u⟩ := popped
  rcases r with f | _ | chain
  · rfl
  · rfl
  · simp only [Prog.run_bind]
    generalize (serve env pinned chain).run u = served
    obtain ⟨r,v⟩ := served
    cases r <;> rfl

theorem processLoop_fails (pinned : List (Nat × Nat)) (budget : Nat) {t u w : Txn M} {f : Failure DeviceError}
    (reached : Rounds env pinned t u) (ran : (processLoop env pinned budget).run u = (.error f,w)) :
    ∃ v, Rounds env pinned t v ∧ (round env pinned).run v = (.error f,w) := by
  induction budget generalizing u with
  | zero => cases ran
  | succ budget ih =>
    rw [processLoop_round] at ran
    rcases rounded : (round env pinned).run u with ⟨r,v⟩
    rw [rounded] at ran
    rcases r with g | again
    · cases ran
      exact ⟨u,reached,rounded⟩
    · cases again with
      | false => cases ran
      | true => exact ih (.next reached rounded) ran

/-- What the loop relies on from round to round: the records agree, and the used ring is
in guest memory and pinned. -/
structure Provided (env : Env) (table : M → Nat → Option Region) (base : List Region) (fixed : Nat → Option Region)
    (pins : List (Nat × Nat)) (t : Txn M) : Prop where
  book : Book table base fixed t
  ring : ∀ q, t.cell.queues.rings[0]? = some q → q.ready = true →
    (q.usedRing,6 + q.size * 8) ∈ pins ∧ t.cell.world.view.Covers (q.usedRing,6 + q.size * 8)

def chainPins (pins : List (Nat × Nat)) (chain : Chain) : List (Nat × Nat) :=
  pins ++ chain.descriptors.map (fun d => (d.addr,d.len))

omit [Mapper M] in
/-- The bytes of a chain's request have been read. -/
theorem Provided.read {pins : List (Nat × Nat)} {x y : Txn M} (provided : Provided env table base fixed pins x)
    {descriptors : List Descriptor} {req : List UInt8}
    (read : (Txn.onWorld (readRequest env 24 false descriptors)).run x = (.ok req,y)) :
    Book table base fixed y ∧ y.cell.world.view = x.cell.world.view ∧ y.cell.queues = x.cell.queues := by
  obtain ⟨_,rfl⟩ := Prod.mk.inj read
  have later := @readRequest_later env 24 false descriptors x.cell.world
  exact ⟨provided.book.steady later.steady rfl rfl,later.steady.view,rfl⟩

/-- A chain is answered from where its request was: the response is stored at the places of
its writable descriptors, and the used ring takes the chain with ten bytes. -/
structure Posted (env : Env) (chain : Chain) (code state : Nat) (z v : Txn M) : Prop where
  device : v.cell.device = z.cell.device
  view : v.cell.world.view = z.cell.world.view
  stored : ∃ places q q', places.length = 10 ∧ List.Forall₂ z.cell.world.view.Backs
      ((guestBytes (chain.descriptors.filter (·.isWriteOnly))).take 10) places ∧
    z.cell.queues.rings[0]? = some q ∧ v.cell.queues.rings = z.cell.queues.rings.set 0 q' ∧
    env.vq.addUsed q z.cell.world.view (store z.cell.world.host places (responseBytes code state)) chain.head 10 =
      (.ok (),q',v.cell.world.host)
  trace : v.cell.trace = z.cell.trace ++ [.completed 0 chain.head 10]

def Sized (chain : Chain) : Prop :=
  ((chain.descriptors.filter (fun d => !d.isWriteOnly)).map Descriptor.len).sum = 24 ∧
    10 ≤ ((chain.descriptors.filter (·.isWriteOnly)).map Descriptor.len).sum

/-- A chain of the right size whose request is answered, whose answer is written and whose
head goes to the used ring is served. -/
theorem serve_run {pins : List (Nat × Nat)} {x y z a : Txn M} {chain : Chain} (sized : Sized chain) {req : List UInt8}
    (read : (Txn.onWorld (readRequest env 24 false chain.descriptors)).run x = (.ok req,y)) {code state : Nat}
    (answered : (request env req (chainPins pins chain)).run y = (.ok (code,state),z))
    (wrote : (Txn.onWorld (respond env (responseBytes code state) (chain.descriptors.filter (·.isWriteOnly)))).run z =
      (.ok (),a))
    {c : Cell VirtioMem} (posted : (Queues.complete env 0 chain.head 10).run a.cell = (.ok (),c)) :
    (VirtioMem.serve env pins chain).run x = (.ok (),{a with cell := c}) := by
  obtain ⟨reads,writes⟩ := sized
  have mapped : (Prog.mapError (Failure.convert DeviceError.memory) (request env req (chainPins pins chain))).run y =
      (.ok (code,state),z) := by
    rw [Prog.run_mapError,answered]
    rfl
  unfold chainPins at mapped
  unfold VirtioMem.serve
  dsimp only
  rw [Prog.run_guard,if_pos ⟨reads,writes⟩,Prog.run_bind,read]
  dsimp only
  rw [Prog.run_bind,mapped]
  dsimp only
  rw [Prog.run_bind,wrote]
  have outcome := congrArg Prod.fst posted
  have cell := congrArg (fun r => ({a with cell := r.2} : Txn M)) posted
  exact Prod.ext outcome cell

theorem Provided.serves (memory : env.vm.Lawful) (stores : env.vm.Stores) (covering : env.Covering)
    (atomic : Mapper.Atomic table) {pins : List (Nat × Nat)} {x y z : Txn M} (provided : Provided env table base fixed pins x)
    {q : Queue} (found : x.cell.queues.rings[0]? = some q) (ready : q.ready = true) {chain : Chain}
    (head : chain.head < q.size) (buffers : ∀ d ∈ chain.descriptors, x.cell.world.view.Covers (d.addr,d.len))
    (sized : Sized chain) {req : List UInt8}
    (read : (Txn.onWorld (readRequest env 24 false chain.descriptors)).run x = (.ok req,y)) {code state : Nat}
    (answered : (request env req (chainPins pins chain)).run y = (.ok (code,state),z)) :
    ∃ v, (VirtioMem.serve env pins chain).run x = (.ok (),v) ∧ Posted env chain code state z v := by
  obtain ⟨book,view,queues⟩ := provided.read read
  have kept : ∀ range ∈ chainPins pins chain, x.cell.world.view.Covers range → z.cell.world.view.Covers range := by
    intro range held covered
    have stays := request_covers memory atomic book req held (view ▸ covered)
    rwa [answered] at stays
  have same : z.cell.queues = y.cell.queues := by
    have idle := (@request_idles M env _ req (chainPins pins chain) y).queues
    rwa [answered] at idle
  obtain ⟨pinned,used⟩ := provided.ring q found ready
  have inside : ∀ d ∈ chain.descriptors.filter (·.isWriteOnly), z.cell.world.view.Covers (d.addr,d.len) := by
    intro d member
    have listed := List.mem_of_mem_filter member
    exact kept _ (List.mem_append_right _ (List.mem_map_of_mem listed)) (buffers d listed)
  have ring : z.cell.queues.rings[0]? = some q := by rw [same,queues]; exact found
  have length : (responseBytes code state).length = 10 := by
    simp only [responseBytes,List.length_append,Reference.toLeBytes_length,List.length_replicate]
  obtain ⟨places,backed,responded⟩ := respond_stores covering stores (responseBytes code state) inside
  rw [length] at backed
  have whole : places.length = 10 := by
    have room := sized.2
    rw [← backed.length_eq,List.length_take,Buffers.guestBytes_sum]
    omega
  let host := store z.cell.world.host places (responseBytes code state)
  have posts := covering.used q z.cell.world.view host chain.head 10 head (kept _ (List.mem_append_left _ pinned) used)
  rcases added : env.vq.addUsed q z.cell.world.view host chain.head 10 with ⟨r,q',after⟩
  rw [added] at posts
  cases posts
  let a : Txn M := {z with cell := {z.cell with world := {z.cell.world with host := host}}}
  have wrote : (Txn.onWorld (respond env (responseBytes code state) (chain.descriptors.filter (·.isWriteOnly)))).run z =
      (.ok (),a) := by
    have outcome := congrArg Prod.fst responded
    have world := congrArg (fun r => ({z with cell := {z.cell with world := r.2}} : Txn M)) responded
    exact Prod.ext outcome world
  have ring' : a.cell.queues.rings[0]? = some q := ring
  have taken := complete_taken ring' added
  refine ⟨_,serve_run sized read answered wrote taken,?_,?_,⟨places,q,q',whole,backed,ring,?_,?_⟩,?_⟩
  exacts [rfl,rfl,rfl,added,rfl]

/-- A chain that is not answered has changed nothing. -/
theorem Provided.unanswered (memory : env.vm.Lawful) (stores : env.vm.Stores) (covering : env.Covering)
    (atomic : Mapper.Atomic table) {pins : List (Nat × Nat)} {x b : Txn M} (provided : Provided env table base fixed pins x)
    {q : Queue} (found : x.cell.queues.rings[0]? = some q) (ready : q.ready = true) {chain : Chain}
    (head : chain.head < q.size) (buffers : ∀ d ∈ chain.descriptors, x.cell.world.view.Covers (d.addr,d.len))
    {f : Failure DeviceError} (failed : (serve env pins chain).run x = (.error f,b)) :
    b.cell.device = x.cell.device ∧ b.cell.world.view = x.cell.world.view := by
  rcases Prog.bind_failure failed with refused | ⟨_,x',sized,then₁⟩
  · rw [Prog.run_require] at refused
    split at refused <;> cases refused
    exact ⟨rfl,rfl⟩
  obtain ⟨fits,rfl⟩ := Prog.require_success sized
  have later := (@readRequest_later env 24 false chain.descriptors x.cell.world).steady
  rcases Prog.bind_failure then₁ with unread | ⟨req,y,read,then₂⟩
  · obtain ⟨_,rfl⟩ := Prod.mk.inj unread
    exact ⟨rfl,later.view⟩
  obtain ⟨book,view,_⟩ := provided.read read
  have device : y.cell.device = x.cell.device := by
    obtain ⟨_,rfl⟩ := Prod.mk.inj read
    rfl
  rcases answered : (request env req (chainPins pins chain)).run y with ⟨r,z⟩
  cases r with
  | ok answer =>
    obtain ⟨v,served,_⟩ := provided.serves memory stores covering atomic found ready head buffers fits read answered
    rw [served] at failed
    cases failed
  | error g =>
    have outcome := request_outcome memory atomic book req (chainPins pins chain)
    rw [answered] at outcome
    have kept : z.cell.device = y.cell.device ∧ z.cell.world.view = y.cell.world.view := by
      cases outcome
      exact ⟨rfl,rfl⟩
    obtain ⟨kept,viewed⟩ := kept
    have mapped : (Prog.mapError (Failure.convert DeviceError.memory) (request env req (chainPins pins chain))).run y =
        (.error (g.convert DeviceError.memory),z) := by
      rw [Prog.run_mapError,answered]
      rfl
    rcases Prog.bind_failure then₂ with refused | ⟨_,_,given,_⟩
    · obtain ⟨_,rfl⟩ := Prod.mk.inj (mapped.symm.trans refused)
      exact ⟨kept.trans device,viewed.trans view⟩
    · cases mapped.symm.trans given

omit [Mapper M] in
theorem Provided.carry {pins : List (Nat × Nat)} {u v : Txn M} (provided : Provided env table base fixed pins u)
    (book : Book table base fixed v) (rings : SameRings u.cell.queues.rings v.cell.queues.rings)
    (stays : ∀ range ∈ pins, u.cell.world.view.Covers range → v.cell.world.view.Covers range) :
    Provided env table base fixed pins v := by
  refine ⟨book,fun q found ready => ?_⟩
  obtain ⟨q',found',same⟩ := forall₂_get rings.flip found
  have same : SameRing q' q := same
  have fields : q'.ready = q.ready ∧ q'.usedRing = q.usedRing ∧ q'.size = q.size := by
    rw [SameRing] at same
    rw [same]
    exact ⟨rfl,rfl,rfl⟩
  obtain ⟨alive,place,size⟩ := fields
  obtain ⟨pinned,covered⟩ := provided.ring q' found' (alive.trans ready)
  rw [place,size] at pinned covered
  exact ⟨pinned,stays _ pinned covered⟩

omit [Mapper M] in
theorem Provided.pop (queue : env.vq.Lawful) {pins : List (Nat × Nat)} {u x : Txn M}
    (provided : Provided env table base fixed pins u) {r : Except (Failure DeviceError) (Option Chain)}
    (popped : (Txn.onCell (Queues.pop env 0)).run u = (r,x)) :
    Provided env table base fixed pins x ∧ x.cell.device = u.cell.device ∧ x.cell.world.view = u.cell.world.view := by
  obtain ⟨_,rfl⟩ := Prod.mk.inj popped
  have calm : Cell.Calm u.cell ((Queues.pop env 0).run u.cell).2 := Queues.pop_calm 0 u.cell
  have turned := (Turns.pop queue 0 u.cell).rings
  refine ⟨provided.carry (provided.book.steady calm.1 calm.2 rfl) turned (fun range _ covered => ?_),calm.2,calm.1.view⟩
  change (Prog.run _ u.cell).2.world.view.Covers range
  rw [calm.1.view]
  exact covered

omit [Mapper M] in
/-- The ring a chain was taken from, and where the chain lies. -/
theorem chain_taken (queue : env.vq.Lawful) (covering : env.Covering) {u x : Txn M} {chain : Chain}
    (popped : (Txn.onCell (Queues.pop env 0)).run u = (.ok (some chain),x)) :
    ∃ q, x.cell.queues.rings[0]? = some q ∧ q.ready = true ∧ chain.head < q.size ∧
      ∀ d ∈ chain.descriptors, x.cell.world.view.Covers (d.addr,d.len) := by
  have outcome := congrArg Prod.fst popped
  have cell := congrArg (fun r => r.2.cell) popped
  have taken : (Queues.pop env 0).run u.cell = (.ok (some chain),x.cell) := Prod.ext outcome cell
  have view : x.cell.world.view = u.cell.world.view := ((Queues.pop_calm 0).ran taken).1.view
  obtain ⟨_,_,_,q,found,queues⟩ := Queues.pop_success queue taken
  obtain ⟨ready,head,buffers⟩ := pop_chain queue covering found taken
  refine ⟨{q with nextAvail := (q.nextAvail + 1) % 65536},?_,ready,head,fun d member => ?_⟩
  · rw [queues]
    exact List.getElem?_set_self (List.getElem?_eq_some_iff.mp found).1
  · rw [view]
    exact buffers d member

theorem Provided.serve (memory : env.vm.Lawful) (queue : env.vq.Lawful) (atomic : Mapper.Atomic table)
    {pins : List (Nat × Nat)} {x v : Txn M} (provided : Provided env table base fixed pins x) {chain : Chain}
    (served : (serve env pins chain).run x = (.ok (),v)) : Provided env table base fixed pins v := by
  have book : Book table base fixed v := by
    rcases serve_guards memory atomic pins chain x provided.book with kept | ⟨f,failed,_⟩
    · rwa [served] at kept
    · rw [served] at failed
      cases failed
  have turned := (serve_turns queue pins chain x).rings
  rw [served] at turned
  refine provided.carry book turned (fun range held covered => ?_)
  obtain ⟨_,_,sized,then₁⟩ := Prog.bind_success served
  obtain ⟨_,rfl⟩ := Prog.require_success sized
  obtain ⟨req,y,read,then₂⟩ := Prog.bind_success then₁
  obtain ⟨answered,view,_⟩ := provided.read read
  obtain ⟨answer,z,asked,then₃⟩ := Prog.bind_success then₂
  obtain ⟨_,a,wrote,posted⟩ := Prog.bind_success then₃
  have stays := request_covers memory atomic answered req (List.mem_append_left _ held : range ∈ chainPins pins chain)
    (view ▸ covered)
  have changed : z.cell.world.view = ((request env req (chainPins pins chain)).run y).2.cell.world.view :=
    congrArg (fun r => r.2.cell.world.view) asked.symm
  have wrote : a.cell.world.view = z.cell.world.view :=
    (congrArg (fun r => r.2.cell.world.view) wrote.symm).trans (respond_steadies _ _ z.cell.world).view
  have posted : v.cell.world.view = a.cell.world.view :=
    (congrArg (fun r => r.2.cell.world.view) posted.symm).trans (Queues.complete_calm _ _ _ a.cell).1.view
  rw [posted,wrote,changed]
  exact stays

theorem Provided.rounds (memory : env.vm.Lawful) (queue : env.vq.Lawful) (atomic : Mapper.Atomic table)
    {pins : List (Nat × Nat)} {t u : Txn M} (provided : Provided env table base fixed pins t)
    (rounds : Rounds env pins t u) : Provided env table base fixed pins u := by
  induction rounds with
  | start => exact provided
  | next _ ran ih =>
    obtain ⟨taken,x,popped,then₁⟩ := Prog.bind_success ran
    obtain ⟨ready,_,_⟩ := ih.pop queue popped
    cases taken with
    | none => cases then₁
    | some chain =>
      obtain ⟨_,_,served,then₂⟩ := Prog.bind_success then₁
      cases then₂
      exact ready.serve memory queue atomic served

/-- The pins of a device contain the rings of each of its live queues. -/
theorem pinRings_rings {rings : List Queue} {w w' : World} {pins : List (Nat × Nat)}
    (ran : (Queues.pinRings env rings).run w = (.ok pins,w')) {q : Queue} (member : q ∈ rings) :
    ∀ range ∈ Queues.ringPins q, range ∈ pins := by
  induction rings generalizing w pins with
  | nil => cases member
  | cons first rest ih =>
    intro range listed
    obtain ⟨own,w₁,scanned,then₁⟩ := Prog.bind_success ran
    obtain ⟨others,w₂,later,then₂⟩ := Prog.bind_success then₁
    cases then₂
    rcases List.mem_cons.mp member with rfl | inside
    · obtain ⟨_,_,⟨⟩,then₃⟩ := Prog.bind_success scanned
      obtain ⟨_,_,_,then₄⟩ := Prog.bind_success then₃
      obtain ⟨_,_,_,then₅⟩ := Prog.bind_success then₄
      obtain ⟨_,_,_,then₆⟩ := Prog.bind_success then₅
      obtain ⟨chains,_,_,then₇⟩ := Prog.bind_success then₆
      cases then₇
      exact List.mem_append_left _ (List.mem_append_left _ listed)
    · exact List.mem_append_right _ (ih later inside range listed)

/-- A round that takes a chain, from where the request in it is decided: the request is
what the readable descriptors held, and it is answered. -/
structure Answered (env : Env) (pins : List (Nat × Nat)) (u v : Txn M) (chain : Chain) (req : List UInt8) (y : Txn M)
    (code state : Nat) (z : Txn M) : Prop where
  taken : ∃ x, (Txn.onCell (Queues.pop env 0)).run u = (.ok (some chain),x) ∧ Sized chain ∧
    (Txn.onWorld (readRequest env 24 false chain.descriptors)).run x = (.ok req,y) ∧ ∃ parts,
      List.Forall₂ (fun d raw => ∃ n, env.vm.readSlice x.cell.world.view ((World.tick env)^[n] x.cell.world).host d.addr
        d.len = .ok raw) (chain.descriptors.filter (fun d => !d.isWriteOnly)) parts ∧ req = parts.flatten
  before : y.cell.device = u.cell.device ∧ y.cell.world.view = u.cell.world.view
  decided : (request env req (chainPins pins chain)).run y = (.ok (code,state),z)
  posted : Posted env chain code state z v

theorem round_served {pins : List (Nat × Nat)} {u x v : Txn M} {chain : Chain}
    (popped : (Txn.onCell (Queues.pop env 0)).run u = (.ok (some chain),x))
    (served : (serve env pins chain).run x = (.ok (),v)) : (round env pins).run u = (.ok true,v) := by
  rw [round,Prog.run_bind,popped]
  dsimp only
  rw [Prog.run_bind,served]
  rfl

section Rounds
variable (memory : env.vm.Lawful) (stores : env.vm.Stores) (queue : env.vq.Lawful) (covering : env.Covering)
  (atomic : Mapper.Atomic table) {pins : List (Nat × Nat)} {u : Txn M} (provided : Provided env table base fixed pins u)
include memory stores queue covering atomic provided

/-- Whatever the request has changed, its answer is written and posted. -/
theorem Provided.answers {chain : Chain} {x : Txn M} (popped : (Txn.onCell (Queues.pop env 0)).run u = (.ok (some chain),x))
    (sized : Sized chain) {req : List UInt8} {y : Txn M}
    (read : (Txn.onWorld (readRequest env 24 false chain.descriptors)).run x = (.ok req,y)) {code state : Nat} {z : Txn M}
    (decided : (request env req (chainPins pins chain)).run y = (.ok (code,state),z)) :
    ∃ v, (round env pins).run u = (.ok true,v) ∧ Answered env pins u v chain req y code state z := by
  obtain ⟨there,device,view⟩ := provided.pop queue popped
  obtain ⟨q,found,ready,head,buffers⟩ := chain_taken queue covering popped
  obtain ⟨v,served,posted⟩ := there.serves memory stores covering atomic found ready head buffers sized read decided
  have outcome := congrArg Prod.fst read
  have parts := readRequest_parts _ _ _ (Prod.ext outcome rfl)
  have unread : y.cell.device = x.cell.device := by
    obtain ⟨_,rfl⟩ := Prod.mk.inj read
    rfl
  exact ⟨v,round_served popped served,⟨x,popped,sized,read,parts⟩,
    ⟨unread.trans device,(there.read read).2.1.trans view⟩,decided,posted⟩

theorem Provided.fails {f : Failure DeviceError} {x : Txn M} (failed : (round env pins).run u = (.error f,x)) :
    x.cell.device = u.cell.device ∧ x.cell.world.view = u.cell.world.view := by
  rcases Prog.bind_failure failed with refused | ⟨taken,v,popped,then₁⟩
  · exact (provided.pop queue refused).2
  obtain ⟨there,device,view⟩ := provided.pop queue popped
  cases taken with
  | none => cases then₁
  | some chain =>
    obtain ⟨q,found,ready,head,buffers⟩ := chain_taken queue covering popped
    rcases Prog.bind_failure then₁ with unserved | ⟨_,_,_,then₂⟩
    · obtain ⟨kept,viewed⟩ := there.unanswered memory stores covering atomic found ready head buffers unserved
      exact ⟨kept.trans device,viewed.trans view⟩
    · cases then₂

/-- A round that has changed the device or the view has answered the request that did. -/
theorem Provided.changed {r : Except (Failure DeviceError) Bool} {v : Txn M} (ran : (round env pins).run u = (r,v))
    (changed : v.cell.device ≠ u.cell.device ∨ v.cell.world.view ≠ u.cell.world.view) :
    r = .ok true ∧ ∃ chain req y code state z, Answered env pins u v chain req y code state z := by
  cases r with
  | error f =>
    obtain ⟨device,view⟩ := provided.fails memory stores queue covering atomic ran
    rcases changed with moved | moved
    · exact absurd device moved
    · exact absurd view moved
  | ok again =>
    obtain ⟨taken,x,popped,then₁⟩ := Prog.bind_success ran
    obtain ⟨there,device,view⟩ := provided.pop queue popped
    cases taken with
    | none =>
      cases then₁
      rcases changed with moved | moved
      · exact absurd device moved
      · exact absurd view moved
    | some chain =>
      obtain ⟨_,_,served,then₂⟩ := Prog.bind_success then₁
      cases then₂
      obtain ⟨_,_,sized,then₃⟩ := Prog.bind_success served
      obtain ⟨fits,rfl⟩ := Prog.require_success sized
      obtain ⟨req,y,read,then₄⟩ := Prog.bind_success then₃
      obtain ⟨⟨code,state⟩,z,asked,_⟩ := Prog.bind_success then₄
      rcases decided : (request env req (chainPins pins chain)).run y with ⟨answer,z'⟩
      have mapped : (Prog.mapError (Failure.convert DeviceError.memory) (request env req (chainPins pins chain))).run y =
          (answer.mapError (Failure.convert DeviceError.memory),z') := by rw [Prog.run_mapError,decided]
      obtain ⟨same,rfl⟩ := Prod.mk.inj (mapped.symm.trans asked)
      cases answer with
      | error g => cases same
      | ok answer =>
        cases same
        obtain ⟨w,again,answered⟩ := provided.answers memory stores queue covering atomic popped fits read decided
        cases ran.symm.trans again
        exact ⟨rfl,chain,req,y,code,state,z',answered⟩

end Rounds

/-- A committed memory change is always answered. In every round of the loop a request that
has its answer is answered: the round succeeds with the response stored in the writable
descriptors and the used element posted, whatever the request has changed. A round that
changes the device or the view is such a round, so one that fails has changed nothing. -/
theorem committed_change_answered (memory : env.vm.Lawful) (stores : env.vm.Stores) (queue : env.vq.Lawful)
    (covering : env.Covering) (atomic : Mapper.Atomic table) {first t : Txn M} (attached : Attached table first)
    (lived : Lived env table first t)
    (rings : ∀ q, t.cell.queues.rings[0]? = some q → ∀ range ∈ Queues.ringPins q, t.cell.world.view.Covers range)
    {own pins : List (Nat × Nat)} {w w' : World} (scanned : (Queues.pinned env t.cell.queues).run w = (.ok own,w'))
    (held : ∀ pin ∈ own, pin ∈ pins) :
    (∀ u, Rounds env pins t u →
      (∀ chain x req y code state z, (Txn.onCell (Queues.pop env 0)).run u = (.ok (some chain),x) → Sized chain →
        (Txn.onWorld (readRequest env 24 false chain.descriptors)).run x = (.ok req,y) →
        (request env req (chainPins pins chain)).run y = (.ok (code,state),z) →
        ∃ v, (round env pins).run u = (.ok true,v) ∧ Answered env pins u v chain req y code state z) ∧
      (∀ r v, (round env pins).run u = (r,v) → v.cell.device ≠ u.cell.device ∨ v.cell.world.view ≠ u.cell.world.view →
        r = .ok true ∧ ∃ chain req y code state z, Answered env pins u v chain req y code state z) ∧
      ∀ f x, (round env pins).run u = (.error f,x) →
        x.cell.device = u.cell.device ∧ x.cell.world.view = u.cell.world.view) ∧
    ∀ f x, (process env pins).run t = (.error f,x) → ∃ u, Rounds env pins t u ∧ (round env pins).run u = (.error f,x) := by
  have provided : Provided env table first.cell.world.view.regions (table first.mapper) pins t := by
    refine ⟨lived.book memory atomic attached,fun q found ready => ?_⟩
    have last : (q.usedRing,6 + q.size * 8) ∈ Queues.ringPins q := by simp [Queues.ringPins]
    have listed : q ∈ t.cell.queues.rings.filter (·.ready) := List.mem_filter.mpr ⟨List.mem_of_getElem? found,ready⟩
    exact ⟨held _ (pinRings_rings scanned listed _ last),rings q found _ last⟩
  refine ⟨fun u rounds => ?_,fun f x failed => processLoop_fails pins 128 .start failed⟩
  have here := provided.rounds memory queue atomic rounds
  refine ⟨?_,?_,?_⟩
  · intro chain x req y code state z popped sized read decided
    exact here.answers memory stores queue covering atomic popped sized read decided
  · exact fun r v ran => here.changed memory stores queue covering atomic ran
  · exact fun f x failed => here.fails memory stores queue covering atomic failed

end VirtioMem
end Devices

namespace Reference
open Devices Devices.VirtioMem

/-- A queue of two descriptors. -/
def requestRing : Queue := ⟨128,2,true,0x100,0x200,0x300,0,0⟩

/-- 24 readable bytes at 0x400 ask to plug two blocks; 10 writable bytes at 0x500 wait
for the answer. -/
def requestMemory : Host := fun p =>
  if p = 0x101 then 4
  else if p = 0x108 then 24
  else if p = 0x10c then 1
  else if p = 0x10e then 1
  else if p = 0x111 then 5
  else if p = 0x118 then 10
  else if p = 0x11c then 2
  else if p = 0x202 then 1
  else if p = 0x40b then 0x40
  else if p = 0x410 then 2
  else 0

def requested : Txn (TableMapper (fun _ => false)) := {sample (fun _ => false) with
  cell := {sampleCell with
    queues := ⟨[requestRing],0,0⟩
    world := {sampleCell.world with host := requestMemory}}}

def requestChain : Chain := ⟨0,[⟨0x400,24,1,1⟩,⟨0x500,10,2,0⟩]⟩

def requestPins : List (Nat × Nat) := Queues.ringPins requestRing ++ [(0x400,24),(0x500,10)]

def requestRead : Txn (TableMapper (fun _ => false)) := {requested with
  cell := {requested.cell with
    queues := ⟨[{requestRing with nextAvail := 1}],0,0⟩
    world := {requested.cell.world with ticks := 5}
    trace := [.popped 0 requestChain]}}

/-- Two blocks are plugged, and the driver gets its answer. -/
theorem committed_change_answered_plug :
    ∃ v z : Txn (TableMapper (fun _ => false)), (round env requestPins).run requested = (.ok true,v) ∧
      v.cell.device.blocks.size = 2 ∧
      Answered env requestPins requested v requestChain (encode 0 (2^30) 2) requestRead 0 0 z := by
  obtain ⟨w,scanned⟩ : ∃ w, (Queues.pinned env requested.cell.queues).run requested.cell.world = (.ok requestPins,w) := ⟨_,rfl⟩
  obtain ⟨x,popped,read⟩ : ∃ x : Txn (TableMapper (fun _ => false)),
      (Txn.onCell (Queues.pop env 0)).run requested = (.ok (some requestChain),x) ∧
      (Txn.onWorld (readRequest env 24 false requestChain.descriptors)).run x = (.ok (encode 0 (2^30) 2),requestRead) :=
    ⟨_,rfl,rfl⟩
  have answered : ((request env (encode 0 (2^30) 2) (chainPins requestPins requestChain)).run requestRead).1 = .ok (0,0) := rfl
  have plugged : ((request env (encode 0 (2^30) 2)
      (chainPins requestPins requestChain)).run requestRead).2.cell.device.blocks.size = 2 := by decide +kernel
  rcases asked : (request env (encode 0 (2^30) 2) (chainPins requestPins requestChain)).run requestRead with ⟨r,z⟩
  rw [asked] at answered plugged
  cases answered
  have lived : Lived env TableMapper.table (sample (fun _ => false)) requested :=
    .beside .start (.ofControl rfl rfl) rfl rfl
  have rings : ∀ q, requested.cell.queues.rings[0]? = some q → ∀ range ∈ Queues.ringPins q,
      requested.cell.world.view.Covers range := by
    intro q found range member i less
    cases found
    refine ⟨_,_,List.mem_singleton.mpr rfl,⟨Nat.zero_le _,?_⟩,rfl⟩
    simp only [Queues.ringPins,requestRing,List.mem_cons,List.not_mem_nil,or_false] at member
    rcases member with rfl | rfl | rfl <;> dsimp only at less ⊢ <;> omega
  have always := committed_change_answered vmMemory_lawful vmMemory_stores env_vq_lawful env_covering TableMapper.atomic
    (sample_attached (fun _ => false)) lived rings scanned (fun _ held => held)
  obtain ⟨v,ran,done⟩ := (always.1 requested .start).1 requestChain x _ requestRead 0 0 z popped ⟨rfl,by decide⟩ read asked
  refine ⟨v,z,ran,?_,done⟩
  rw [done.posted.device]
  exact plugged

end Reference
end WVmm
