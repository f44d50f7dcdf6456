import WVmm.Platform.Workers
import WVmm.Runtime.Loop

/-! The event channel of the built-in platform. Every vCPU worker sends on it,
`poll_event` receives from it, and `stop` drains it once the workers are joined. -/
namespace WVmm.Platform.Cpus
open Lib.Runs

variable {n : Nat} {C : Type}

structure Access (C : Type) where
  addr : Nat
  width : Nat
  write : Bool
  value : Nat
  reply : C

inductive Message (C : Type)
  | access (a : Access C)
  | failed (e : PlatformError)
  | shutdown

def Message.fault : Message C → Option PlatformError
  | .failed e => some e
  | _ => none

inductive RecvTimeoutError
  | timeout
  | disconnected

/-- Faults are returned as soon as they are received. Once vCPUs are stopping, an
idle or closed channel means shutdown. -/
def poll (received : Except RecvTimeoutError (Message C)) (stopping : Bool) :
    Except PlatformError (Option (Platform.Event C)) :=
  match received with
  | .ok .shutdown => .ok (some .shutdown)
  | .ok (.failed e) => .error e
  | .ok (.access a) => .ok (some (.io ⟨.mmio,a.addr,a.width,a.write,a.value,a.reply⟩))
  | .error e =>
    if stopping then .ok (some .shutdown)
    else match e with
      | .disconnected => .error .eventChannelDisconnected
      | .timeout => .ok none

def Message.answer : Message C → Except PlatformError (Option (Platform.Event C))
  | .access a => .ok (some (.io ⟨.mmio,a.addr,a.width,a.write,a.value,a.reply⟩))
  | .failed e => .error e
  | .shutdown => .ok (some .shutdown)

def keep (fault : Except PlatformError Unit) : Message C → Except PlatformError Unit
  | .failed e => match fault with
    | .ok () => .error e
    | .error first => .error first
  | _ => fault

/-- Consume every queued event and return the first fault. Pending accesses and
shutdowns are discarded. -/
def drain (queue : List (Message C)) : Except PlatformError Unit := queue.foldl keep (.ok ())

inductive Carries : Event n → Message C → Prop
  | access (i : Fin n) (a : Access C) : Carries (.access i) (.access a)
  | failed (i : Fin n) (e : PlatformError) : Carries (.failed i) (.failed e)
  | shutdown : Carries .shutdown .shutdown

/-- One call of `poll_event`: how many events had been sent when it received, what it
received, whether the vCPUs were stopping when it looked, and what it returned. -/
structure Poll (C : Type) where
  sent : Nat
  received : Except RecvTimeoutError (Message C)
  stopping : Bool
  answer : Except PlatformError (Option (Platform.Event C))

def yielded (polls : List (Poll C)) : List (Message C) := polls.filterMap (·.received.toOption)

structure Machine (n : Nat) (C : Type) where
  sys : Sys n
  /-- Every event sent, in order. -/
  sent : List (Message C)
  carries : List.Forall₂ Carries sys.events sent
  /-- The receiver, which has taken so many events. -/
  rx : Option Nat
  /-- Whether the vCPUs are there and not joined. -/
  cpus : Bool
  polls : List (Poll C)
  stops : List (Except PlatformError Unit)

namespace Machine

def new (n : Nat) : Machine n C := ⟨Sys.new n,[],.nil,none,false,[],[]⟩

def drained (m : Machine n C) : Except PlatformError Unit :=
  match m.rx with
  | some taken => drain (m.sent.drop taken)
  | none => .ok ()

def halt (m : Machine n C) (r : Except PlatformError Unit) : Machine n C :=
  {m with rx := m.rx.map (fun _ => m.sent.length), cpus := false, stops := m.stops ++ [r]}

def polled (m : Machine n C) (p : Poll C) : Machine n C := {m with polls := m.polls ++ [p]}

@[simp] theorem polled_polls (m : Machine n C) (p : Poll C) : (m.polled p).polls = m.polls ++ [p] := rfl

@[simp] theorem polled_rx (m : Machine n C) (p : Poll C) : (m.polled p).rx = m.rx := rfl

end Machine

def Works (own : Label n → Prop) (s : Sys n) (l : Label n) (t : Sys n) : Prop :=
  (l.worker.isSome ∨ own l) ∧ s.next l = some t

/-- The workers go on during a call. No worker is left without `cpus`. -/
inductive Moves (own : Label n → Prop) (m : Machine n C) : Machine n C → Prop
  | still : Moves own m m
  | steps {s : Sys n} {sent : List (Message C)} (carries : List.Forall₂ Carries s.events sent) (live : m.cpus = true)
      (reached : Reaches (Works own) m.sys s) (more : m.sent <+: sent) :
      Moves own m {m with sys := s, sent := sent, carries := carries}

def Label.none (_ : Label n) : Prop := False

/-- `prepare` creates the workers; those of a creation that fails are joined again. -/
inductive Prepares (m : Machine n C) : Except PlatformError Unit → Machine n C → Prop
  | ready {s : Sys n} {sent : List (Message C)} (carries : List.Forall₂ Carries s.events sent)
      (reached : Reaches (Works Label.none) (Sys.new n) s) :
      Prepares m (.ok ()) ⟨s,sent,carries,some 0,true,m.polls,m.stops⟩
  | fails {s : Sys n} {sent : List (Message C)} (carries : List.Forall₂ Carries s.events sent)
      (reached : Reaches (Works (· = .stop)) (Sys.new n) s) (e : PlatformError) :
      Prepares m (.error e) ⟨s,sent,carries,none,false,m.polls,m.stops⟩

/-- `poll_event`. Workers also go on between an empty channel and the look at `stop`. -/
inductive Polls (m : Machine n C) : Except PlatformError (Option (Platform.Event C)) → Machine n C → Prop
  | receives {u : Machine n C} {taken : Nat} {e : Message C} (moves : Moves Label.none m u) (live : u.cpus = true)
      (rx : u.rx = some taken) (first : (u.sent.drop taken).head? = some e) :
      Polls m (poll (.ok e) u.sys.shared.stop)
        (Machine.polled {u with rx := some (taken + 1)}
          ⟨u.sent.length,.ok e,u.sys.shared.stop,poll (.ok e) u.sys.shared.stop⟩)
  | idles {u w : Machine n C} {taken : Nat} {reason : RecvTimeoutError} (moves : Moves Label.none m u)
      (live : u.cpus = true) (rx : u.rx = some taken) (empty : u.sent.drop taken = [])
      (closed : reason = .disconnected → ∀ i, (u.sys.pc i).ended = true) (later : Moves Label.none u w) :
      Polls m (poll (.error reason) w.sys.shared.stop)
        (w.polled ⟨u.sent.length,.error reason,w.sys.shared.stop,poll (.error reason) w.sys.shared.stop⟩)
  /-- Without vCPUs the call panics: it changes nothing and nobody sees a result. -/
  | unprepared (absent : m.cpus = false) (r : Except PlatformError (Option (Platform.Event C))) : Polls m r m

/-- `stop` joins the workers, of which some may have panicked outside their own
reports, and drains the channel. -/
inductive Stops (m : Machine n C) : Except PlatformError Unit → Machine n C → Prop
  | joins {u : Machine n C} {joined : Except PlatformError Unit} (live : m.cpus = true) (moves : Moves (· = .stop) m u)
      (stopped : u.sys.shared.stop = true) (ended : ∀ i, (u.sys.pc i).ended = true)
      (outcome : joined = .ok () ∨ joined = .error .vcpuThreadPanicked) :
      Stops m (u.drained.bind fun _ => joined) (u.halt (u.drained.bind fun _ => joined))
  | again (absent : m.cpus = false) : Stops m (m.drained.bind fun _ => .ok ()) (m.halt (m.drained.bind fun _ => .ok ()))

/-- A VM whose operations are those of the built-in platform, for any moves of the
workers in between. -/
structure Serves {V : Type} [Vm V C] (hvf : V → Machine n C) : Prop where
  map : ∀ v region, Moves Label.none (hvf v) (hvf (Mapper.map v region).2)
  unmap : ∀ v region, Moves Label.none (hvf v) (hvf (Mapper.unmap v region).2)
  completeIo : ∀ v completion value, Moves Label.none (hvf v) (hvf (VirtualMachine.completeIo v completion value).2)
  setIrq : ∀ v irq level, Moves Label.none (hvf v) (hvf (VirtualMachine.setIrq v irq level).2)
  pause : ∀ v, Moves (fun l => l = .pause ∨ l = .pauseDone) (hvf v) (hvf (VirtualMachine.pause v).2)
  resume : ∀ v, Moves (· = .resume) (hvf v) (hvf (VirtualMachine.resume v).2)
  start : ∀ v, Moves (fun l => ∃ entry dtb, l = .start entry dtb) (hvf v) (hvf (Vm.start v).2)
  prepare : ∀ v view layout, (hvf v).rx = none → (hvf v).cpus = false →
    Prepares (hvf v) (Vm.prepare v view layout).1 (hvf (Vm.prepare v view layout).2)
  pollEvent : ∀ v, Polls (hvf v) (Vm.pollEvent v).1 (hvf (Vm.pollEvent v).2)
  stop : ∀ v, Stops (hvf v) (Vm.stop v).1 (hvf (Vm.stop v).2)

inductive Happens (m u : Machine n C) : Prop
  | moves (own : Label n → Prop) (moved : Moves own m u)
  | polls (r : Except PlatformError (Option (Platform.Event C))) (polled : Polls m r u)
  | stops (r : Except PlatformError Unit) (stopped : Stops m r u)

theorem keep_error (queue : List (Message C)) (e : PlatformError) : queue.foldl keep (.error e) = .error e := by
  induction queue with
  | nil => rfl
  | cons event rest ih =>
    rw [List.foldl_cons]
    cases event <;> exact ih

theorem drain_fault (queue : List (Message C)) :
    drain queue = match queue.findSome? Message.fault with
      | some e => .error e
      | none => .ok () := by
  unfold drain
  induction queue with
  | nil => rfl
  | cons event rest ih =>
    rw [List.foldl_cons]
    cases event with
    | failed e => exact keep_error rest e
    | access a => exact ih
    | shutdown => exact ih

theorem yielded_snoc (polls : List (Poll C)) (p : Poll C) :
    yielded (polls ++ [p]) = yielded polls ++ p.received.toOption.toList := by
  unfold yielded
  rw [List.filterMap_append]
  cases found : p.received.toOption <;> simp [found]

theorem lockTop_events (s : Sys n) (i : Fin n) : (s.lockTop i).events = s.events := by
  unfold Sys.lockTop
  split
  · rfl
  split
  · rfl
  split <;> rfl

theorem enter_events (s : Sys n) (i : Fin n) (call : Hypercall) : (s.enter i call).events = s.events := by
  cases call <;> rfl

theorem completeIo_events {s t : Sys n} {i : Fin n} (done : s.completeIo i = some t) : t.events = s.events := by
  unfold Sys.completeIo at done
  split at done
  · cases done
    rfl
  split at done
  · cases done
  · cases done
    rfl

theorem pauseDone_events {s t : Sys n} (done : s.pauseDone = some t) : t.events = s.events := by
  unfold Sys.pauseDone at done
  split at done
  · cases done
    rfl
  split at done
  · cases done
  · cases done
    rfl

/-- What a step sends, if anything: a fault is the last event of its worker. -/
theorem next_events {s t : Sys n} {l : Label n} (taken : s.next l = some t) :
    t.events = s.events ∨ ∃ e, t.events = s.events ++ [e] ∧
      ∀ i, e = .failed i → (s.pc i).ended = false ∧ (t.pc i).ended = true := by
  have returned : ∀ i, (Function.update s.pc i .returned i).ended = true := by
    intro i
    rw [Function.update_self]
    rfl
  cases l with simp only [Sys.next] at taken
  | lockTop i =>
    obtain ⟨_,rfl⟩ := guarded taken
    exact .inl (lockTop_events s i)
  | bootFails i =>
    split at taken
    · obtain ⟨⟨before,_⟩,rfl⟩ := guarded taken
      refine .inr ⟨.failed i,rfl,?_⟩
      intro j same
      cases same
      exact ⟨by rw [before]; rfl,returned i⟩
    · cases taken
  | hypercall i call =>
    obtain ⟨_,rfl⟩ := guarded taken
    by_cases off : call = .systemOff
    · exact .inr ⟨.shutdown,by simp only [off,if_true],by rintro _ ⟨⟩⟩
    · exact .inl (by simp only [off,if_false])
  | enter i =>
    split at taken
    · cases taken
      exact .inl (enter_events s i _)
    · cases taken
  | setResult i =>
    split at taken <;> cases taken
    exact .inl rfl
  | access i =>
    obtain ⟨_,rfl⟩ := guarded taken
    exact .inr ⟨.access i,rfl,by rintro _ ⟨⟩⟩
  | completeIo i => exact .inl (completeIo_events (Option.ite_none_right_eq_some.mp taken).2)
  | fail i =>
    obtain ⟨⟨returning,draining,gone⟩,rfl⟩ := guarded taken
    refine .inr ⟨.failed i,rfl,?_⟩
    intro j same
    cases same
    refine ⟨?_,returned i⟩
    cases there : s.pc i with
    | returned => exact absurd there returning
    | draining => exact absurd there draining
    | gone => exact absurd there gone
    | _ => rfl
  | start entry dtb =>
    split at taken
    · cases taken
    split at taken <;> cases taken
    exact .inl rfl
  | pauseDone => exact .inl (pauseDone_events (Option.ite_none_right_eq_some.mp taken).2)
  | pause | resume | stop =>
    obtain ⟨_,rfl⟩ := unguarded taken
    exact .inl rfl
  | _ =>
    obtain ⟨_,rfl⟩ := guarded taken
    exact .inl rfl

structure Reported (s : Sys n) : Prop where
  ended : ∀ i, .failed i ∈ s.events → (s.pc i).ended = true
  once : ∀ i, s.events.count (.failed i) ≤ 1

theorem reported_new (n : Nat) : Reported (Sys.new n) := ⟨by rintro _ ⟨⟩,fun _ => Nat.zero_le _⟩

theorem Reported.step {s t : Sys n} {l : Label n} (reported : Reported s) (taken : s.next l = some t) : Reported t := by
  have remain : ∀ i, .failed i ∈ s.events → (t.pc i).ended = true :=
    fun i member => ended_next (reported.ended i member) taken
  rcases next_events taken with same | ⟨e,sent,last⟩
  · exact ⟨fun i member => remain i (same ▸ member),fun i => same ▸ reported.once i⟩
  · refine ⟨?_,?_⟩
    · intro i member
      rw [sent] at member
      rcases List.mem_append.mp member with earlier | new
      · exact remain i earlier
      · exact (last i (List.mem_singleton.mp new).symm).2
    · intro i
      rw [sent,List.count_append]
      by_cases own : e = .failed i
      · have fresh : .failed i ∉ s.events := by
          intro member
          have done := reported.ended i member
          rw [(last i own).1] at done
          cases done
        rw [List.count_eq_zero_of_not_mem fresh,Nat.zero_add]
        exact List.count_le_length
      · rw [List.count_singleton,if_neg (by simpa using own),Nat.add_zero]
        exact reported.once i

theorem Reported.reached {own : Label n → Prop} {s t : Sys n} (reported : Reported s) (reached : Reaches (Works own) s t) :
    Reported t :=
  reached.invariant reported (fun _ _ _ before taken => before.step taken.2)

structure Quiet (p : Poll C) (reason : RecvTimeoutError) : Prop where
  stopping : p.stopping = true → p.answer = .ok (some .shutdown)
  waiting : p.stopping = false → reason = .timeout → p.answer = .ok none
  closed : p.stopping = false → reason = .disconnected → p.answer = .error .eventChannelDisconnected

theorem poll_quiet (count : Nat) (reason : RecvTimeoutError) (stopping : Bool) :
    Quiet (C := C) ⟨count,.error reason,stopping,poll (.error reason) stopping⟩ reason := by
  refine ⟨?_,?_,?_⟩
  · rintro rfl
    rfl
  · rintro rfl rfl
    rfl
  · rintro rfl rfl
    rfl

/-- A poll returns the next event, if there is one. It returns a shutdown that no vCPU
sent only once every event sent before was returned. -/
structure InOrder (sent before : List (Message C)) (p : Poll C) : Prop where
  next : ∀ e, p.received = .ok e → before ++ [e] <+: sent ∧ p.answer = e.answer
  idle : ∀ reason, p.received = .error reason → before = sent.take p.sent ∧ p.sent ≤ sent.length ∧ Quiet p reason

theorem poll_received (e : Message C) (stopping : Bool) : poll (.ok e) stopping = e.answer := by
  cases e <;> rfl

theorem InOrder.mono {sent more before : List (Message C)} {p : Poll C} (ordered : InOrder sent before p)
    (grown : sent <+: more) : InOrder more before p := by
  refine ⟨fun e got => ⟨(ordered.next e got).1.trans grown,(ordered.next e got).2⟩,?_⟩
  intro reason empty
  obtain ⟨all,bounded,quiet⟩ := ordered.idle reason empty
  obtain ⟨rest,rfl⟩ := grown
  refine ⟨?_,?_,quiet⟩
  · rw [List.take_append_of_le_length bounded]
    exact all
  · rw [List.length_append]
    exact Nat.le_add_right_of_le bounded

structure Halted (m : Machine n C) (r : Except PlatformError Unit) (later : List (Except PlatformError Unit)) : Prop where
  joined : m.cpus = false
  drained : ∀ taken, m.rx = some taken → taken = m.sent.length ∧ ∃ joined,
    (joined = .ok () ∨ joined = .error .vcpuThreadPanicked) ∧
      r = (drain (m.sent.drop (yielded m.polls).length)).bind fun _ => joined
  later : ∀ x ∈ later, x = .ok ()

/-- Every event sent is accounted for: taken by a poll, in the channel, or drained. -/
structure Accounted (m : Machine n C) : Prop where
  ordered : Along (fun before p => InOrder m.sent (yielded before) p) m.polls
  inside : yielded m.polls <+: m.sent
  taken : m.stops = [] → ∀ taken, m.rx = some taken → taken = (yielded m.polls).length
  live : m.cpus = true → m.stops = []
  halted : ∀ r later, m.stops = r::later → Halted m r later
  reported : Reported m.sys

variable {m u : Machine n C}

/-- What goes on during a call touches neither the receiver nor the records. -/
structure Moved (m u : Machine n C) : Prop where
  sent : m.sent <+: u.sent
  rx : u.rx = m.rx
  cpus : u.cpus = m.cpus
  polls : u.polls = m.polls
  stops : u.stops = m.stops

theorem Moves.moved {own : Label n → Prop} (moves : Moves own m u) : Moved m u := by
  cases moves with
  | still => exact ⟨List.prefix_rfl,rfl,rfl,rfl,rfl⟩
  | steps carries live reached more => exact ⟨more,rfl,rfl,rfl,rfl⟩

/-- Without vCPUs nothing goes on. -/
theorem Moves.absent {own : Label n → Prop} (moves : Moves own m u) (absent : m.cpus = false) : u = m := by
  cases moves with
  | still => rfl
  | steps carries live => rw [absent] at live; cases live

namespace Accounted

theorem new (n : Nat) : Accounted (Machine.new n : Machine n C) :=
  ⟨.nil,List.nil_prefix,by rintro _ _ ⟨⟩,fun _ => rfl,by rintro _ _ ⟨⟩,reported_new n⟩

theorem moves (accounted : Accounted m) {own : Label n → Prop} (moves : Moves own m u) : Accounted u := by
  cases moves with
  | still => exact accounted
  | steps carries live reached more =>
    refine ⟨?_,accounted.inside.trans more,accounted.taken,accounted.live,?_,accounted.reported.reached reached⟩
    · intro before p after split
      exact (accounted.ordered before p after split).mono more
    · intro r later stopped
      rw [accounted.live live] at stopped
      cases stopped

theorem polled (accounted : Accounted m) (live : m.cpus = true) {x : Option Nat} {p : Poll C}
    (ordered : InOrder m.sent (yielded m.polls) p) (inside : yielded (m.polls ++ [p]) <+: m.sent)
    (taken : ∀ taken, x = some taken → taken = (yielded (m.polls ++ [p])).length) :
    Accounted (Machine.polled {m with rx := x} p) where
  ordered := accounted.ordered.snoc ordered
  inside := inside
  taken _ := taken
  live := accounted.live
  halted r later stopped := by
    rw [show (Machine.polled {m with rx := x} p).stops = [] from accounted.live live] at stopped
    cases stopped
  reported := accounted.reported

theorem polls (accounted : Accounted m) {r : Except PlatformError (Option (Platform.Event C))} (polls : Polls m r u) :
    Accounted u := by
  cases polls with
  | @receives v taken e moves live rx first =>
    have here := accounted.moves moves
    have count := here.taken (here.live live) taken rx
    have whole : yielded v.polls ++ [e] <+: v.sent := by
      obtain ⟨rest,split⟩ := here.inside
      rw [← split,count,List.drop_left] at first
      obtain ⟨later,rfl⟩ := List.head?_eq_some_iff.mp first
      exact ⟨later,by rw [← split,List.append_assoc]; rfl⟩
    have more : yielded (v.polls ++ [⟨v.sent.length,.ok e,v.sys.shared.stop,poll (.ok e) v.sys.shared.stop⟩]) =
        yielded v.polls ++ [e] := yielded_snoc ..
    refine here.polled live ⟨?_,by rintro _ ⟨⟩⟩ (more ▸ whole) ?_
    · rintro _ ⟨⟩
      exact ⟨whole,poll_received e _⟩
    · rintro _ ⟨⟩
      rw [more,List.length_append,← count]
      rfl
  | @idles v w taken reason moves live rx empty closed later =>
    have here := accounted.moves moves
    have there := here.moves later
    have moved := later.moved
    have count := here.taken (here.live live) taken rx
    have all : yielded v.polls = v.sent := by
      obtain ⟨rest,split⟩ := here.inside
      rw [← split,count,List.drop_left] at empty
      rw [← split,empty,List.append_nil]
    have more : yielded (w.polls ++
        [⟨v.sent.length,.error reason,w.sys.shared.stop,poll (.error reason) w.sys.shared.stop⟩]) = yielded w.polls :=
      (yielded_snoc ..).trans (List.append_nil _)
    refine there.polled (x := w.rx) (moved.cpus.trans live) ⟨by rintro _ ⟨⟩,?_⟩ (more ▸ there.inside) ?_
    · rintro _ ⟨⟩
      rw [moved.polls,all]
      exact ⟨List.prefix_iff_eq_take.mp moved.sent,moved.sent.length_le,poll_quiet ..⟩
    · intro k found
      rw [more,moved.polls,← count]
      exact Option.some.inj (found.symm.trans (moved.rx.trans rx))
  | unprepared absent r => exact accounted

theorem halt (accounted : Accounted m) (fresh : m.stops = []) {joined : Except PlatformError Unit}
    (outcome : joined = .ok () ∨ joined = .error .vcpuThreadPanicked) :
    Accounted (m.halt (m.drained.bind fun _ => joined)) := by
  refine ⟨accounted.ordered,accounted.inside,?_,by rintro ⟨⟩,?_,accounted.reported⟩
  · intro none
    exact absurd none (by simp [Machine.halt])
  · intro r later stopped
    change m.stops ++ _ = _ at stopped
    rw [fresh] at stopped
    cases stopped
    refine ⟨rfl,?_,by rintro _ ⟨⟩⟩
    intro taken rx
    obtain ⟨k,found,rfl⟩ := Option.map_eq_some_iff.mp rx
    refine ⟨rfl,joined,outcome,?_⟩
    change m.drained.bind _ = (drain (m.sent.drop (yielded m.polls).length)).bind _
    rw [Machine.drained,found,← accounted.taken fresh k found]

theorem stops (accounted : Accounted m) {r : Except PlatformError Unit} (stops : Stops m r u) : Accounted u := by
  cases stops with
  | @joins v joined live moves stopped ended outcome =>
    have here := accounted.moves moves
    exact here.halt (moves.moved.stops.trans (accounted.live live)) outcome
  | again absent =>
    cases before : m.stops with
    | nil => exact accounted.halt before (.inl rfl)
    | cons first later =>
      have done := accounted.halted first later before
      have quiet : m.drained.bind (fun _ => .ok ()) = .ok () := by
        unfold Machine.drained
        split
        · rename_i taken rx
          rw [(done.drained taken rx).1,List.drop_length]
          rfl
        · rfl
      rw [quiet]
      refine ⟨accounted.ordered,accounted.inside,?_,by rintro ⟨⟩,?_,accounted.reported⟩
      · intro none
        exact absurd none (by simp [Machine.halt])
      · intro r rest stopped
        change m.stops ++ _ = _ at stopped
        rw [before] at stopped
        cases stopped
        refine ⟨rfl,?_,?_⟩
        · intro taken rx
          obtain ⟨k,found,rfl⟩ := Option.map_eq_some_iff.mp rx
          exact ⟨rfl,(done.drained k found).2⟩
        · intro x member
          rcases List.mem_append.mp member with earlier | new
          · exact done.later x earlier
          · exact List.mem_singleton.mp new

theorem step (accounted : Accounted m) (happens : Happens m u) : Accounted u := by
  cases happens with
  | moves own moved => exact accounted.moves moved
  | polls r polled => exact accounted.polls polled
  | stops r stopped => exact accounted.stops stopped

theorem reached (accounted : Accounted m) (reached : Relation.ReflTransGen Happens m u) : Accounted u := by
  induction reached with
  | refl => exact accounted
  | tail _ happens ih => exact ih.step happens

theorem prepares (r : Except PlatformError Unit) (unused : m.polls = [] ∧ m.stops = []) (prepares : Prepares m r u) :
    Accounted u := by
  cases prepares with
  | ready carries reached =>
    refine ⟨?_,?_,?_,fun _ => unused.2,?_,(reported_new n).reached reached⟩
    all_goals dsimp only
    · rw [unused.1]
      exact .nil
    · rw [unused.1]
      exact List.nil_prefix
    · rintro _ _ ⟨⟩
      rw [unused.1]
      rfl
    · rw [unused.2]
      rintro _ _ ⟨⟩
  | fails carries reached e =>
    refine ⟨?_,?_,by rintro _ _ ⟨⟩,by rintro ⟨⟩,?_,(reported_new n).reached reached⟩
    all_goals dsimp only
    · rw [unused.1]
      exact .nil
    · rw [unused.1]
      exact List.nil_prefix
    · rw [unused.2]
      rintro _ _ ⟨⟩

end Accounted

theorem Stops.records {r : Except PlatformError Unit} (stops : Stops m r u) : u.stops = m.stops ++ [r] ∧ u.cpus = false := by
  cases stops with
  | joins live moves stopped ended outcome => exact ⟨congrArg (· ++ _) moves.moved.stops,rfl⟩
  | again absent => exact ⟨rfl,rfl⟩

theorem Stops.polls {r : Except PlatformError Unit} (stops : Stops m r u) : u.polls = m.polls := by
  cases stops with
  | joins live moves stopped ended outcome => exact moves.moved.polls
  | again absent => rfl

/-- Once the workers are joined, nothing is sent or polled any more. -/
theorem joined_reached (absent : m.cpus = false) (reached : Relation.ReflTransGen Happens m u) :
    u.cpus = false ∧ u.sent = m.sent ∧ u.polls = m.polls ∧ m.stops <+: u.stops := by
  induction reached with
  | refl => exact ⟨absent,rfl,rfl,List.prefix_rfl⟩
  | tail _ happens ih =>
    obtain ⟨here,sent,polls,stops⟩ := ih
    cases happens with
    | moves own moved =>
      rw [moved.absent here]
      exact ⟨here,sent,polls,stops⟩
    | polls r polled =>
      cases polled with
      | receives moves live rx first =>
        rw [moves.moved.cpus,here] at live
        cases live
      | idles moves live rx empty closed later =>
        rw [moves.moved.cpus,here] at live
        cases live
      | unprepared absent r => exact ⟨here,sent,polls,stops⟩
    | stops r stopped =>
      cases stopped with
      | joins live moves stopped ended outcome =>
        rw [here] at live
        cases live
      | again absent => exact ⟨rfl,sent,polls,stops.trans (List.prefix_append _ _)⟩

/-- A worker that reported a fault did so in an event. -/
theorem failed_sent {events : List (Event n)} {sent : List (Message C)} (carries : List.Forall₂ Carries events sent)
    {i : Fin n} (failed : .failed i ∈ events) : ∃ e, .failed e ∈ sent := by
  induction carries with
  | nil => cases failed
  | @cons event message events sent carried _ ih =>
    rcases List.mem_cons.mp failed with rfl | later
    · cases carried with
      | failed _ e => exact ⟨e,List.mem_cons_self⟩
    · obtain ⟨e,member⟩ := ih later
      exact ⟨e,List.mem_cons_of_mem _ member⟩

structure Unasked (m : Machine n C) : Prop where
  accounted : Accounted m
  polls : m.polls = []
  stops : m.stops = []

/-- Without a receiver there are no vCPUs, and no event was sent. -/
def Bare (m : Machine n C) : Prop := m.rx = none → m.cpus = false ∧ m.sent = []

theorem Prepares.unasked {r : Except PlatformError Unit} (prepares : Prepares m r u)
    (unasked : Unasked m) : Unasked u := by
  have accounted := Accounted.prepares r ⟨unasked.polls,unasked.stops⟩ prepares
  cases prepares with
  | ready carries reached => exact ⟨accounted,unasked.polls,unasked.stops⟩
  | fails carries reached e => exact ⟨accounted,unasked.polls,unasked.stops⟩

theorem Prepares.bare (prepares : Prepares m (.ok ()) u) : Bare u := by
  cases prepares with
  | ready carries reached => rintro ⟨⟩

/-- Without a receiver, `stop` finds no worker to join. -/
theorem Stops.bare {r : Except PlatformError Unit} (stops : Stops m r u) (bare : Bare m) : Bare u := by
  intro none
  cases stops with
  | joins live moves stopped ended outcome =>
    have unready := moves.moved.rx.symm.trans (Option.map_eq_none_iff.mp none)
    rw [(bare unready).1] at live
    cases live
  | again absent => exact ⟨rfl,(bare (Option.map_eq_none_iff.mp none)).2⟩

def Calm (m : Machine n C) : Prop := ∀ e ∈ yielded m.polls, e.fault = none

/-- A poll that does not fail took no fault. -/
theorem Polls.calm {event : Option (Platform.Event C)} (polls : Polls m (.ok event) u) (calm : Calm m) :
    Calm u := by
  generalize answer : (Except.ok event : Except PlatformError (Option (Platform.Event C))) = r at polls
  cases polls with
  | @receives v taken e moves live rx first =>
    intro f member
    rw [Machine.polled_polls,yielded_snoc,moves.moved.polls] at member
    rcases List.mem_append.mp member with earlier | new
    · exact calm f earlier
    · obtain rfl := List.mem_singleton.mp new
      cases f with
      | failed e => cases answer
      | _ => rfl
  | @idles v w taken reason moves live rx empty closed later =>
    intro f member
    rw [Machine.polled_polls,yielded_snoc,later.moved.polls,moves.moved.polls] at member
    rcases List.mem_append.mp member with earlier | new
    · exact calm f earlier
    · cases new
  | unprepared absent r => exact calm

/-- What a poll returned is what is on record. -/
theorem Polls.records {r : Except PlatformError (Option (Platform.Event C))} (polls : Polls m r u)
    (live : m.cpus = true) : ∃ p, u.polls = m.polls ++ [p] ∧ p.answer = r := by
  cases polls with
  | receives moves ready rx first => exact ⟨_,congrArg (· ++ _) moves.moved.polls,rfl⟩
  | idles moves ready rx empty closed later =>
    exact ⟨_,congrArg (· ++ _) (later.moved.polls.trans moves.moved.polls),rfl⟩
  | unprepared absent r => rw [live] at absent; cases absent

theorem Polls.unstopped {r : Except PlatformError (Option (Platform.Event C))} (polls : Polls m r u) :
    u.stops = m.stops := by
  cases polls with
  | receives moves live rx first => exact moves.moved.stops
  | idles moves live rx empty closed later => exact later.moved.stops.trans moves.moved.stops
  | unprepared absent r => rfl

theorem Polls.bare {r : Except PlatformError (Option (Platform.Event C))} (polls : Polls m r u)
    (bare : Bare m) : Bare u := by
  cases polls with
  | receives moves live rx first => rintro ⟨⟩
  | idles moves live rx empty closed later =>
    intro none
    rw [Machine.polled_rx,later.moved.rx,rx] at none
    cases none
  | unprepared absent r => exact bare

end WVmm.Platform.Cpus
