import WVmm.Devices.BlockRequests
import WVmm.Devices.Device
import WVmm.Devices.TransmitPass

/-! The journal of a disk: the requests that its device completed, with the status
byte that guest memory held then and the calls made on the backend before. -/
namespace WVmm.Devices
open Lib.Effect Lib.Stores

def Action.storage : Action → Bool
  | .diskRead .. | .diskWrite .. | .diskFlush .. => true
  | _ => false

def Action.answers : Action → Bool
  | .completed .. => true
  | a => a.storage

theorem Action.storage_answers {a : Action} (calls : a.storage = true) : a.answers = true := by
  cases a <;> first | rfl | cases calls

def Adds {D : Type} (kind : Action → Bool) (c c' : Cell D) : Prop :=
  ∃ more, c'.trace = c.trace ++ more ∧ ∀ a ∈ more, kind a = true

instance {D : Type} (kind : Action → Bool) : IsPreorder (Cell D) (Adds kind) where
  refl c := ⟨[],(List.append_nil _).symm,by simp⟩
  trans c c' c'' := by
    rintro ⟨first,trace,all⟩ ⟨rest,trace',all'⟩
    refine ⟨first ++ rest,by rw [trace',trace,List.append_assoc],?_⟩
    intro a member
    exact (List.mem_append.mp member).elim (all a) (all' a)

namespace Adds

variable {D ε α : Type} {kind : Action → Bool} {env : Env}

theorem silent {m : Prog (Cell D) ε α} (same : ∀ c, (m.run c).2.trace = c.trace) : Always (Adds kind) m :=
  fun c => ⟨[],by rw [same,List.append_nil],by simp⟩

theorem onWorld (m : Prog World ε α) : Always (Adds kind) (Cell.onWorld m : Prog (Cell D) ε α) := silent (fun _ => rfl)

theorem record {a : Action} (known : kind a = true) : Always (Adds kind) (Cell.record a : Prog (Cell D) ε Unit) := by
  intro c
  refine ⟨[a],rfl,fun b member => ?_⟩
  rw [List.mem_singleton.mp member]
  exact known

theorem ring (index : Nat) : Always (Adds kind) (Cell.ring index : Prog (Cell D) (Failure DeviceError) Queue) := by
  refine .bind .get (fun c => ?_)
  split
  · exact .pure _
  · exact .fail _

theorem pop (index : Nat) (known : ∀ chain, kind (.popped index chain) = true) :
    Always (Adds kind) (Queues.pop env index : Prog (Cell D) _ _) := by
  have available : Always (Adds kind) (Queues.available env index : Prog (Cell D) _ Nat) :=
    silent (fun c => by rw [(@Queues.available_waits env D index c).2])
  have takes : Always (Adds kind) (Queues.takeHead env index : Prog (Cell D) _ Nat) := by
    refine .bind (ring index) (fun q => .bind (onWorld _) (fun _ => .bind .get (fun c =>
      .bind (silent (fun _ => rfl)) (fun _ => ?_))))
    split
    · exact .fail _
    · exact .fail _
    · exact .pure _
  refine .bind available (fun count => ?_)
  split
  · exact .pure _
  · exact .bind takes (fun head => .bind (ring index) (fun q => .bind (onWorld _) (fun _ =>
      .bind (record (known _)) (fun _ => .pure _))))

theorem complete (index head len : Nat) (known : kind (.completed index head len) = true) :
    Always (Adds kind) (Queues.complete env index head len : Prog (Cell D) _ Unit) := by
  refine .bind (ring index) (fun q => .bind .get (fun c => .bind (silent (fun _ => rfl)) (fun _ => ?_)))
  split
  · exact .fail _
  · exact .bind (silent (fun _ => rfl)) (fun _ => record known)

end Adds

namespace Block

variable {B : Type} [BlockStorage B] {env : Env}

theorem diskRead_adds (offset : Nat) (data : List VolatileSlice) :
    Always (Adds Action.storage) (diskRead env offset data : Prog (Cell (Block B)) _ Unit) :=
  .bind (Adds.onWorld _) (fun _ => .bind .get (fun _ => .bind (Adds.silent (fun _ => rfl)) (fun _ =>
    .bind (Adds.record rfl) (fun _ => .ofExcept _))))

theorem diskWrite_adds (offset : Nat) (data : List VolatileSlice) :
    Always (Adds Action.storage) (diskWrite env offset data : Prog (Cell (Block B)) _ Unit) :=
  .bind (Adds.onWorld _) (fun _ => .bind .get (fun _ => .bind (Adds.silent (fun _ => rfl)) (fun _ =>
    .bind (Adds.record rfl) (fun _ => .ofExcept _))))

theorem diskFlush_adds : Always (Adds Action.storage) (diskFlush : Prog (Cell (Block B)) _ Unit) :=
  .bind .get (fun _ => .bind (Adds.silent (fun _ => rfl)) (fun _ => .bind (Adds.record rfl) (fun _ => .ofExcept _)))

theorem transfer_adds (read : Bool) (sector total : Nat) (data : List Descriptor) (buffers : List VolatileSlice)
    (negotiated : BitVec 64) :
    Always (Adds Action.storage) (transfer env read sector total data buffers negotiated : Prog (Cell (Block B)) _ _) := by
  refine .bind (.require _ _) (fun _ => .bind (.require _ _) (fun _ => .bind .get (fun c =>
    .bind (.require _ _) (fun _ => .bind (.require _ _) (fun _ => ?_)))))
  split
  · exact .fail _
  · refine .bind (.ofExcept _) (fun _ => ?_)
    split
    · exact .bind (diskRead_adds _ _) (fun _ => .pure _)
    · refine .bind (diskWrite_adds _ _) (fun _ => .bind ?_ (fun _ => .pure _))
      unfold writeThrough
      split
      · exact diskFlush_adds
      · exact .pure _

theorem execute_adds (request : List Descriptor) (negotiated : BitVec 64) :
    Always (Adds Action.storage) (execute env request negotiated : Prog (Cell (Block B)) _ _) := by
  refine .bind .get (fun c => .bind (.ofExcept _) (fun all => ?_))
  split
  · exact .fail _
  · refine .bind (.require _ _) (fun _ => .bind (.ofExcept _) (fun _ => .bind (Adds.onWorld _) (fun h =>
      .bind (.ofExcept _) (fun _ => ?_))))
    split
    · exact transfer_adds _ _ _ _ _ _
    split
    · exact .bind (.require _ _) (fun _ => .bind diskFlush_adds (fun _ => .pure _))
    split
    · exact .bind (.require _ _) (fun _ => .bind .get (fun _ => .bind (Adds.onWorld _) (fun _ => .pure _)))
    · exact .pure _

theorem request_adds (descriptors : List Descriptor) (negotiated : BitVec 64) :
    Always (Adds Action.storage) (request env descriptors negotiated : Prog (Cell (Block B)) _ _) := by
  unfold request
  split
  · exact .fail _
  · refine .bind (Adds.onWorld _) (fun _ => .bind (.require _ _) (fun _ =>
      .bind (Always.capture (execute_adds _ _)) (fun outcome => ?_)))
    split
    · exact .bind (Adds.onWorld _) (fun _ => .pure _)
    · exact .bind (Adds.onWorld _) (fun _ => .pure _)
    · exact .fail _

/-- The type of a request, as its header is read; `none` when it cannot be. -/
def kind (env : Env) (request : List Descriptor) (c : Cell (Block B)) : Option Nat :=
  match Buffers.slices env.vm c.world.view request with
  | .error _ => none
  | .ok all => match ((Buffers.copyTo env all 16).run c.world).1 with
    | .error _ => none
    | .ok h => some (fromLeBytes (h.take 4))

/-- The byte of guest memory that the last descriptor of a request names. -/
def statusByte (descriptors : List Descriptor) (w : World) : Option UInt8 :=
  descriptors.getLast?.bind (fun status => (w.view.place status.addr).map w.host)

end Block

/-- What a disk did for its guest, each with the calls on its backend. -/
inductive Entry
  /-- A request was completed, with this status byte in guest memory. -/
  | completed (head used : Nat) (kind : Option Nat) (status : Option UInt8) (negotiated : BitVec 64) (calls : List Action)
  /-- A device reset succeeded. -/
  | reset (calls : List Action)
  /-- The device failed. -/
  | failed (calls : List Action)
deriving DecidableEq

def Entry.calls : Entry → List Action
  | .completed _ _ _ _ _ calls => calls
  | .reset calls => calls
  | .failed calls => calls

def Entry.acts : Entry → List Action
  | .completed head used _ _ _ calls => calls ++ [.completed 0 head used]
  | .reset calls => calls
  | .failed calls => calls

def calls (entries : List Entry) : List Action := entries.flatMap Entry.calls

def acts (entries : List Entry) : List Action := entries.flatMap Entry.acts

theorem calls_append (first rest : List Entry) : calls (first ++ rest) = calls first ++ calls rest :=
  List.flatMap_append

namespace Block

variable {B : Type} [BlockStorage B] {env : Env}

/-- The journal of `serve`: pops, requests and completions up to the first failure. -/
def journal (env : Env) : Nat → Cell (Block B) → List Entry
  | 0, _ => []
  | count+1, c => match (Queues.pop env 0).run c with
    | (.ok (some chain),popped) =>
      let (result,answered) := (request env chain.descriptors popped.queues.negotiated).run popped
      let calls := answered.trace.drop popped.trace.length
      match result with
      | .error _ => [.failed calls]
      | .ok used => match (Queues.complete env 0 chain.head used).run answered with
        | (.error _,_) => [.failed calls]
        | (.ok (),done) =>
          .completed chain.head used (kind env chain.descriptors.dropLast popped)
            (statusByte chain.descriptors answered.world) popped.queues.negotiated calls::journal env count done
    | _ => []

def notified (env : Env) (c : Cell (Block B)) : List Entry :=
  match (Queues.available env 0).run c with
  | (.ok count,counted) => journal env count counted
  | (.error _,_) => []

def restarted (d : Block B) : Entry :=
  match (BlockStorage.flush d.disk).1 with
  | .ok () => .reset [.diskFlush (some ())]
  | .error _ => .failed [.diskFlush none]

theorem diskWrite_success {c c' : Cell (Block B)} {offset : Nat} {data : List VolatileSlice}
    (ran : (diskWrite env offset data).run c = (.ok (),c')) :
    ∃ raw, c'.trace = c.trace ++ [.diskWrite offset raw (some ())] := by
  simp only [diskWrite,Prog.run_bind,Cell.onWorld,World.observe,Prog.run_zoom,Prog.run_modify,Prog.run_get,Cell.record,
    Prog.run_ofExcept] at ran
  generalize BlockStorage.write c.device.disk offset data (World.tick env c.world).host = written at ran
  rcases written with ⟨e | _,disk⟩
  · cases ran
  · cases ran
    exact ⟨_,rfl⟩

theorem diskFlush_success {c c' : Cell (Block B)} (ran : diskFlush.run c = (.ok (),c')) :
    c'.trace = c.trace ++ [.diskFlush (some ())] := by
  simp only [diskFlush,Prog.run_bind,Prog.run_modify,Prog.run_get,Cell.record,Prog.run_ofExcept] at ran
  generalize BlockStorage.flush c.device.disk = flushed at ran
  rcases flushed with ⟨e | _,disk⟩
  · cases ran
  · cases ran
    rfl

/-- An OUT that succeeds has written its data, and flushed it without FLUSH negotiation. -/
theorem transfer_calls {sector total : Nat} {data : List Descriptor} {buffers : List VolatileSlice}
    {negotiated : BitVec 64} {c c' : Cell (Block B)} {answered : UInt8 × Nat}
    (ran : (transfer env false sector total data buffers negotiated).run c = (.ok answered,c')) :
    ∃ offset raw, c'.trace = c.trace ++
      .diskWrite offset raw (some ())::(if negotiated &&& F_FLUSH = 0 then [.diskFlush (some ())] else []) := by
  obtain ⟨_,_,met,ran⟩ := Prog.bind_success ran
  obtain ⟨_,rfl⟩ := Prog.require_success met
  obtain ⟨_,_,met,ran⟩ := Prog.bind_success ran
  obtain ⟨_,rfl⟩ := Prog.require_success met
  obtain ⟨_,_,got,ran⟩ := Prog.bind_success ran
  cases got
  obtain ⟨_,_,met,ran⟩ := Prog.bind_success ran
  obtain ⟨_,rfl⟩ := Prog.require_success met
  obtain ⟨_,_,met,ran⟩ := Prog.bind_success ran
  obtain ⟨_,rfl⟩ := Prog.require_success met
  split at ran
  · cases ran
  · rename_i offset _
    obtain ⟨_,_,bounded,ran⟩ := Prog.bind_success ran
    obtain ⟨_,rfl⟩ := Prog.ofExcept_success bounded
    simp only [Bool.false_eq_true,if_false] at ran
    obtain ⟨_,written,wrote,ran⟩ := Prog.bind_success ran
    obtain ⟨raw,trace⟩ := diskWrite_success wrote
    obtain ⟨_,through,flushed,ran⟩ := Prog.bind_success ran
    cases ran
    refine ⟨offset,raw,?_⟩
    unfold writeThrough at flushed
    split at flushed
    · rename_i unnegotiated
      rw [if_pos unnegotiated,diskFlush_success flushed,trace,List.append_assoc]
      rfl
    · rename_i negotiated
      cases flushed
      rw [if_neg negotiated,trace]

/-- What a request that succeeds did, by its type. -/
theorem execute_success {request : List Descriptor} {negotiated : BitVec 64} {c c' : Cell (Block B)} {used : Nat}
    (ran : (execute env request negotiated).run c = (.ok (S_OK,used),c')) :
    (kind env request c = some T_OUT → ∃ offset raw, c'.trace = c.trace ++
      .diskWrite offset raw (some ())::(if negotiated &&& F_FLUSH = 0 then [.diskFlush (some ())] else [])) ∧
    (kind env request c = some T_FLUSH → c'.trace = c.trace ++ [.diskFlush (some ())]) := by
  obtain ⟨_,_,got,ran⟩ := Prog.bind_success ran
  cases got
  obtain ⟨all,_,sliced,ran⟩ := Prog.bind_success ran
  obtain ⟨slices,rfl⟩ := Prog.ofExcept_success sliced
  split at ran
  · cases ran
  · obtain ⟨_,_,met,ran⟩ := Prog.bind_success ran
    obtain ⟨_,rfl⟩ := Prog.require_success met
    obtain ⟨data,_,taken,ran⟩ := Prog.bind_success ran
    obtain ⟨_,rfl⟩ := Prog.ofExcept_success taken
    obtain ⟨h,c₁,read,ran⟩ := Prog.bind_success ran
    have header : kind env request c = some (fromLeBytes (h.take 4)) := by
      have value := congrArg Prod.fst read
      simp only [Cell.onWorld,Prog.run_zoom] at value
      simp only [kind,slices,value]
    have trace : c₁.trace = c.trace := by
      have state := congrArg Prod.snd read
      simp only [Cell.onWorld,Prog.run_zoom] at state
      rw [← state]
    obtain ⟨buffers,_,ranged,ran⟩ := Prog.bind_success ran
    obtain ⟨_,rfl⟩ := Prog.ofExcept_success ranged
    rw [header,← trace]
    refine ⟨fun out => ?_,fun flush => ?_⟩
    · rw [Option.some.inj out] at ran
      exact transfer_calls ran
    · rw [Option.some.inj flush] at ran
      obtain ⟨_,_,met,ran⟩ := Prog.bind_success ran
      obtain ⟨_,rfl⟩ := Prog.require_success met
      obtain ⟨_,_,flushed,ran⟩ := Prog.bind_success ran
      cases ran
      exact diskFlush_success flushed

theorem stored_byte {view : GuestMemoryMmap} {host host' : Host} {a : Nat} {b : UInt8} (stored : Stored view host a [b] host') :
    (view.place a).map host' = some b := by
  obtain ⟨places,backed,rfl⟩ := stored
  obtain ⟨p,backs,rfl⟩ : ∃ p, view.Backs a p ∧ places = [p] := by
    cases backed with
    | cons backs none =>
      cases none
      exact ⟨_,backs,rfl⟩
  rw [view.place_eq_some.mpr backs,Option.map_some,store_cons,store_nil_left,Function.update_self]

/-- A request that is answered has been executed, and memory holds its outcome. -/
theorem request_success (stores : env.vm.Stores) {descriptors : List Descriptor} {negotiated : BitVec 64}
    {c c' : Cell (Block B)} {used : Nat} (ran : (request env descriptors negotiated).run c = (.ok used,c')) :
    ∃ outcome executed, (execute env descriptors.dropLast negotiated).run c = (outcome,executed) ∧
      c'.trace = executed.trace ∧
      statusByte descriptors c'.world = some (match outcome with | .ok (value,_) => value | .error _ => S_IOERR) := by
  unfold request at ran
  split at ran
  · cases ran
  · rename_i status last
    obtain ⟨_,_,checked,ran⟩ := Prog.bind_success ran
    cases checked
    obtain ⟨_,_,met,ran⟩ := Prog.bind_success ran
    obtain ⟨_,rfl⟩ := Prog.require_success met
    obtain ⟨outcome,executed,captured,ran⟩ := Prog.bind_success ran
    obtain ⟨same,ends⟩ := Prod.mk.inj captured
    have written : ∀ (b : UInt8) (n : Nat),
        (do Cell.onWorld (World.writeSlice env status.addr [b]); return n : Prog (Cell (Block B)) (Failure DeviceError) Nat).run
          executed = (.ok used,c') →
        c'.trace = executed.trace ∧ statusByte descriptors c'.world = some b := by
      intro b n stored
      obtain ⟨_,_,wrote,returned⟩ := Prog.bind_success stored
      cases returned
      simp only [Cell.onWorld,Prog.run_zoom,World.writeSlice,Prog.run_mk] at wrote
      rcases slice : env.vm.writeSlice executed.world.view executed.world.host status.addr [b] with ⟨e | _,host⟩
      all_goals rw [slice] at wrote
      · cases wrote
      · cases wrote
        refine ⟨rfl,?_⟩
        rw [statusByte,last]
        exact stored_byte (stores _ _ _ _ _ slice)
    refine ⟨outcome,executed,Prod.ext (Except.ok.inj same) ends,?_⟩
    split at ran
    · exact written _ _ ran
    · exact written _ _ ran
    · cases ran

end Block

/-- What an entry with status OK says about the backend. -/
def Entry.Sound : Entry → Prop
  | .completed _ _ kind status negotiated calls => status = some Block.S_OK →
    (kind = some Block.T_OUT → ∃ offset raw, calls = .diskWrite offset raw (some ())::
      (if negotiated &&& Block.F_FLUSH = 0 then [.diskFlush (some ())] else [])) ∧
    (kind = some Block.T_FLUSH → calls = [.diskFlush (some ())])
  | .reset calls => calls = [.diskFlush (some ())]
  | .failed _ => True

namespace Block

variable {B : Type} [BlockStorage B] {env : Env}

omit [BlockStorage B] in
theorem drop_trace {c c' : Cell (Block B)} {more : List Action} (trace : c'.trace = c.trace ++ more) :
    c'.trace.drop c.trace.length = more := by
  rw [trace,List.drop_left]

theorem completed_sound (stores : env.vm.Stores) {descriptors : List Descriptor} {negotiated : BitVec 64}
    {c c' : Cell (Block B)} {head used : Nat} (ran : (request env descriptors negotiated).run c = (.ok used,c')) :
    Entry.Sound (.completed head used (kind env descriptors.dropLast c) (statusByte descriptors c'.world) negotiated
      (c'.trace.drop c.trace.length)) := by
  intro ok
  obtain ⟨outcome,done,executed,trace,shown⟩ := request_success stores ran
  have good := Option.some.inj (shown.symm.trans ok)
  rcases outcome with e | ⟨value,n⟩
  · cases good
  · obtain rfl : value = S_OK := good
    obtain ⟨out,flush⟩ := execute_success executed
    refine ⟨fun asked => ?_,fun asked => ?_⟩
    · obtain ⟨offset,raw,made⟩ := out asked
      exact ⟨offset,raw,drop_trace (trace.trans made)⟩
    · exact drop_trace (trace.trans (flush asked))

theorem journal_sound (stores : env.vm.Stores) (count : Nat) (c : Cell (Block B)) : ∀ e ∈ journal env count c, e.Sound := by
  induction count generalizing c with
  | zero => nofun
  | succ count ih =>
    intro e member
    unfold journal at member
    split at member
    · rename_i chain popped _
      rcases asked : (request env chain.descriptors popped.queues.negotiated).run popped with ⟨f | used,answered⟩
      · rw [asked] at member
        rw [List.mem_singleton.mp member]
        trivial
      · rw [asked] at member
        dsimp only at member
        split at member
        · rw [List.mem_singleton.mp member]
          trivial
        · rcases List.mem_cons.mp member with rfl | later
          · exact completed_sound stores asked
          · exact ih _ e later
    · cases member

theorem notified_sound (stores : env.vm.Stores) (c : Cell (Block B)) : ∀ e ∈ notified env c, e.Sound := by
  unfold notified
  split
  · exact journal_sound stores _ _
  · nofun

theorem restarted_sound (d : Block B) : (restarted d).Sound := by
  unfold restarted
  split
  · rfl
  · trivial

theorem answers_filter {more : List Action} (none : ∀ a ∈ more, (!a.answers) = true) : more.filter Action.answers = [] :=
  List.filter_eq_nil_iff.mpr (fun a member => by simpa using none a member)

omit [BlockStorage B] in
/-- A completion is recorded exactly when it succeeds. -/
theorem complete_trace {c c' : Cell (Block B)} {index head used : Nat} {r : Except (Failure DeviceError) Unit}
    (ran : (Queues.complete env index head used).run c = (r,c')) :
    c'.trace = c.trace ++ match r with
      | .ok () => [.completed index head used]
      | .error _ => [] := by
  cases found : c.queues.rings[index]? with
  | none =>
    have stuck : (Queues.complete env index head used).run c = (.error (.panic .index),c) := by
      simp only [Queues.complete,Cell.ring,Prog.run_bind,Prog.run_get,found,Prog.run_fail]
    rw [stuck] at ran
    cases ran
    exact (List.append_nil _).symm
  | some q =>
    rw [Queues.complete_run found] at ran
    split at ran
    · cases ran
      exact (List.append_nil _).symm
    · cases ran
      rfl

/-- The journal holds all calls on the backend and all completions. -/
theorem serve_answers (count : Nat) (c : Cell (Block B)) :
    ∃ more, ((serve env count).run c).2.trace = c.trace ++ more ∧
      more.filter Action.answers = acts (journal env count c) := by
  induction count generalizing c with
  | zero => exact ⟨[],(List.append_nil _).symm,rfl⟩
  | succ count ih =>
    have takes : Always (Adds (fun a => !a.answers)) (Queues.pop env 0 : Prog (Cell (Block B)) _ _) :=
      Adds.pop 0 (fun _ => rfl)
    simp only [serve,Prog.run_bind,journal]
    rcases taken : (Queues.pop env 0).run c with ⟨e | _ | chain,popped⟩
    all_goals obtain ⟨first,pops,silent⟩ := takes.ran taken
    · exact ⟨first,pops,answers_filter silent⟩
    · exact ⟨first,pops,answers_filter silent⟩
    · simp only [Prog.run_bind,Prog.run_get]
      rcases asked : (request env chain.descriptors popped.queues.negotiated).run popped with ⟨e | used,answered⟩
      all_goals
        obtain ⟨made,asks,all⟩ := (request_adds chain.descriptors popped.queues.negotiated).ran asked
        have kept : made.filter Action.answers = made :=
          List.filter_eq_self.mpr (fun a member => Action.storage_answers (all a member))
        have dropped := drop_trace asks
        rw [pops,List.append_assoc] at asks
      · refine ⟨first ++ made,asks,?_⟩
        rw [List.filter_append,answers_filter silent,kept,dropped]
        exact (List.append_nil made).symm
      · dsimp only
        rcases finished : (Queues.complete env 0 chain.head used).run answered with ⟨e | _,done⟩
        all_goals
          have ends := complete_trace finished
          rw [asks] at ends
          dsimp only
        · rw [List.append_nil] at ends
          refine ⟨first ++ made,ends,?_⟩
          rw [List.filter_append,answers_filter silent,kept,dropped]
          exact (List.append_nil made).symm
        · obtain ⟨rest,later,held⟩ := ih done
          refine ⟨first ++ made ++ [.completed 0 chain.head used] ++ rest,?_,?_⟩
          · rw [later,ends]
            simp only [List.append_assoc]
          · rw [List.filter_append,List.filter_append,List.filter_append,answers_filter silent,kept,held,dropped]
            rfl

theorem notify_answers (queue : Nat) (c : Cell (Block B)) :
    ∃ more, ((Block.notify env queue).run c).2.trace = c.trace ++ more ∧
      more.filter Action.answers = acts (notified env c) := by
  have waits : ((Queues.available env 0).run c).2.trace = c.trace := by
    rw [(@Queues.available_waits env (Block B) 0 c).2]
  simp only [Block.notify,Prog.run_bind,notified]
  rcases counted : (Queues.available env 0).run c with ⟨e | count,c'⟩
  all_goals rw [counted] at waits
  · exact ⟨[],waits.trans (List.append_nil _).symm,rfl⟩
  · obtain ⟨more,trace,held⟩ := @serve_answers B _ env count c'
    dsimp only at waits
    exact ⟨more,by rw [trace,waits],held⟩

end Block
end WVmm.Devices
