import WVmm.Runtime.Loop
import WVmm.Runtime.Lines

/-! Host input. A port that writes down what the host sends and what the guest reads
shows when the poll of the run loop loses bytes. -/
namespace WVmm
open Lib.Effect Lib.Runs Devices Platform

/-- The receive FIFO of a UART and the modes of the UART that matter for it. -/
class Superio (U : Type) extends SerialIo U where
  size : Nat
  held : U → List UInt8
  loopback : U → Bool
  /-- Offset 0 is a divisor and not the receive register. -/
  latched : U → Bool

namespace Superio

/-- What the serial crate and the backend are relied on for. -/
structure Lawful (U : Type) [Superio U] : Prop where
  capacity : ∀ u : U, SerialIo.fifoCapacity u + (held u).length = size U
  recv_held : ∀ (u : U) (n : Nat), held (SerialIo.recv u n).2 = held u
  recv_loopback : ∀ (u : U) (n : Nat), loopback (SerialIo.recv u n).2 = loopback u
  recv_count : ∀ (u : U) (n count : Nat) (buffer : List UInt8),
    (SerialIo.recv u n).1 = .bytes count buffer → count ≤ n ∧ buffer.length = n
  enqueue : ∀ (u : U) (raw : List UInt8), 0 < SerialIo.fifoCapacity u → ∃ count ≤ raw.length,
    (SerialIo.enqueueRawBytes u raw).1 = .ok count ∧ held (SerialIo.enqueueRawBytes u raw).2 = held u ++ raw.take count
  enqueue_fits : ∀ (u : U) (raw : List UInt8), loopback u = false → 0 < SerialIo.fifoCapacity u →
    raw.length ≤ SerialIo.fifoCapacity u → (SerialIo.enqueueRawBytes u raw).1 = .ok raw.length
  enqueue_loopback : ∀ (u : U) (raw : List UInt8), loopback u = true → (SerialIo.enqueueRawBytes u raw).1 = .ok 0
  read_receives : ∀ (u : U) (b : UInt8) (rest : List UInt8), latched u = false → held u = b::rest →
    (Uart.read u 0).1 = b ∧ held (Uart.read u 0).2 = rest
  read_other : ∀ (u : U) (offset : Nat), offset ≠ 0 ∨ latched u = true ∨ held u = [] →
    held (Uart.read u offset).2 = held u
  write : ∀ (u : U) (offset : Nat) (value : UInt8), held (Uart.write u offset value).2 = held u ∨
    loopback u = true ∧ held (Uart.write u offset value).2 = held u ++ [value]

inductive Access
  | poll
  | read (offset : Nat)
  | write (offset : Nat) (value : UInt8)
deriving DecidableEq

variable {U : Type}

def Access.on [SerialIo U] : Access → U → U
  | .poll, u => (pollInput.run u).2
  | .read offset, u => (Uart.read u offset).2
  | .write offset value, u => (Uart.write u offset value).2

def runs [SerialIo U] (accesses : List Access) (u : U) : U := accesses.foldl (fun u a => a.on u) u

/-- A UART beside a record of the host's side and of what came of it. -/
structure Traced (U : Type) where
  serial : U
  /-- The length that `recv` was called with, and the free space in the FIFO then. -/
  asked : List (Nat × Nat)
  /-- The bytes that `recv` returned. -/
  received : List UInt8
  /-- For each byte in the FIFO, whether it is from the host. -/
  host : List Bool
  /-- The host's bytes that the guest read from the receive register. -/
  delivered : List UInt8

def hostBytes : List UInt8 → List Bool → List UInt8
  | b::bytes, true::host => b::hostBytes bytes host
  | _::bytes, false::host => hostBytes bytes host
  | _, _ => []

def returned : Received → List UInt8
  | .bytes count buffer => buffer.take count
  | _ => []

variable [Superio U]

namespace Traced

def start (u : U) : Traced U := ⟨u,[],[],(held u).map (fun _ => false),[]⟩

/-- The FIFO is now that of `serial`; new bytes at its end are the host's or not. -/
def put (t : Traced U) (serial : U) (host : Bool) : Traced U := {t with
  serial := serial
  host := t.host ++ List.replicate ((held serial).length - (held t.serial).length) host}

def pop (t : Traced U) (serial : U) (b : UInt8) : Traced U := {t with
  serial := serial
  host := t.host.tail
  delivered := t.delivered ++ if t.host.head? = some true then [b] else []}

instance : SerialIo (Traced U) where
  write t offset value :=
    let (r,serial) := Uart.write t.serial offset value
    (r,t.put serial false)
  read t offset :=
    let (b,serial) := Uart.read t.serial offset
    (b,if offset = 0 ∧ latched t.serial = false then t.pop serial b else {t with serial := serial})
  interruptIdentification t := Uart.interruptIdentification t.serial
  fifoCapacity t := SerialIo.fifoCapacity t.serial
  recv t n :=
    let (r,serial) := SerialIo.recv t.serial n
    (r,{t with
      serial := serial
      asked := t.asked ++ [(n,SerialIo.fifoCapacity t.serial)]
      received := t.received ++ returned r})
  enqueueRawBytes t raw :=
    let (r,serial) := SerialIo.enqueueRawBytes t.serial raw
    (r,t.put serial true)

def waiting (t : Traced U) : List UInt8 := hostBytes (held t.serial) t.host

/-- Every byte that the host sent has been read or is still in the FIFO, in order. -/
def Conserved (t : Traced U) : Prop := t.received = t.delivered ++ t.waiting

/-- The host was asked for no more than fits, and not when nothing did. -/
def Modest (t : Traced U) : Prop := ∀ ask ∈ t.asked, ask.1 ≤ ask.2 ∧ 0 < ask.2

end Traced

/-- A poll now would take bytes from the host while the FIFO takes none. -/
def drops (u : U) : Bool :=
  loopback u && SerialIo.fifoCapacity u != 0 && match (SerialIo.recv u (SerialIo.fifoCapacity u)).1 with
    | .bytes count _ => count != 0
    | _ => false

def Careful : List Access → U → Prop
  | [], _ => True
  | a::rest, u => (a = .poll → drops u = false) ∧ Careful rest (a.on u)

omit [Superio U] in
/-- What a poll does: nothing when the FIFO is full, else it asks the host and hands
what it got to the FIFO. -/
theorem poll_after [SerialIo U] (u : U) :
    Access.poll.on u = if SerialIo.fifoCapacity u = 0 then u
      else match (SerialIo.recv u (SerialIo.fifoCapacity u)).1 with
        | .bytes count buffer =>
          if count ≤ SerialIo.fifoCapacity u ∧ count ≠ 0 then
            (SerialIo.enqueueRawBytes (SerialIo.recv u (SerialIo.fifoCapacity u)).2 (buffer.take count)).2
          else (SerialIo.recv u (SerialIo.fifoCapacity u)).2
        | _ => (SerialIo.recv u (SerialIo.fifoCapacity u)).2 := by
  change (pollInput.run u).2 = _
  simp only [pollInput,Prog.run_bind,Prog.run_get]
  by_cases none : SerialIo.fifoCapacity u = 0
  · rw [if_pos none,if_pos none]
    rfl
  rw [if_neg none,if_neg none]
  generalize SerialIo.recv u (SerialIo.fifoCapacity u) = answer
  obtain ⟨received,asked⟩ := answer
  cases received with
  | bytes count buffer =>
    simp only [Prog.run_bind,Prog.run_modify,Prog.run_require]
    by_cases fits : count ≤ SerialIo.fifoCapacity u
    · by_cases some : count = 0
      · simp only [some,if_true,ne_eq,not_true_eq_false,and_false,if_false]
        rfl
      · simp only [fits,some,if_true,if_false,ne_eq,not_false_eq_true,and_self]
        generalize SerialIo.enqueueRawBytes asked (buffer.take count) = outcome
        obtain ⟨r,handed⟩ := outcome
        cases r <;> rfl
    · simp only [fits,false_and,if_false]
  | wouldBlock => rfl
  | interrupted => rfl
  | failed e => rfl

omit [Superio U] in
theorem hostBytes_append (xs ys : List UInt8) {hs : List Bool} (lined : hs.length = xs.length) (js : List Bool) :
    hostBytes (xs ++ ys) (hs ++ js) = hostBytes xs hs ++ hostBytes ys js := by
  induction xs generalizing hs with
  | nil =>
    rw [List.length_eq_zero_iff.mp lined]
    rfl
  | cons x xs ih =>
    obtain ⟨h,hs,rfl⟩ := List.exists_cons_of_length_eq_add_one lined
    have rest := ih (Nat.succ.inj lined)
    cases h with
    | true => exact congrArg (List.cons x) rest
    | false => exact rest

theorem hostBytes_replicate (xs : List UInt8) (host : Bool) :
    hostBytes xs (List.replicate xs.length host) = if host then xs else [] := by
  induction xs with
  | nil => cases host <;> rfl
  | cons x xs ih =>
    cases host with
    | true => exact congrArg (List.cons x) ih
    | false => exact ih

structure Traced.Tallies (t : Traced U) (lost : Nat) : Prop where
  lined : t.host.length = (held t.serial).length
  modest : t.Modest
  sum : t.received.length = t.delivered.length + t.waiting.length + lost
  kept : lost = 0 → t.Conserved

namespace Traced

theorem start_tallies (u : U) : (start u).Tallies 0 := by
  have none : (start u).waiting = [] := by
    have same : (start u).host = List.replicate (held u).length false := List.map_const'
    rw [waiting,same]
    exact hostBytes_replicate (held u) false
  refine ⟨List.length_map _,nofun,?_,fun _ => ?_⟩
  · rw [none]
    rfl
  · rw [Conserved,none]
    rfl

theorem put_grows {t : Traced U} (lined : t.host.length = (held t.serial).length) {serial : U} {more : List UInt8}
    (grows : held serial = held t.serial ++ more) (host : Bool) :
    (t.put serial host).host.length = (held serial).length ∧
      (t.put serial host).waiting = t.waiting ++ if host then more else [] := by
  have count : (held serial).length - (held t.serial).length = more.length := by
    rw [grows,List.length_append,Nat.add_sub_cancel_left]
  refine ⟨?_,?_⟩
  · rw [put,List.length_append,List.length_replicate,count,lined,grows,List.length_append]
  · change hostBytes (held serial) (t.host ++ List.replicate _ host) = _
    rw [count,grows,hostBytes_append _ _ lined,hostBytes_replicate]
    rfl

theorem Tallies.write {t : Traced U} {lost : Nat} (lawful : Lawful U) (tallies : t.Tallies lost) (offset : Nat)
    (value : UInt8) : ((Access.write offset value).on t).Tallies lost := by
  obtain ⟨more,grows⟩ : ∃ more, held (Uart.write t.serial offset value).2 = held t.serial ++ more := by
    rcases lawful.write t.serial offset value with same | ⟨_,one⟩
    · exact ⟨[],by rw [same,List.append_nil]⟩
    · exact ⟨_,one⟩
  obtain ⟨lined,waiting⟩ := put_grows tallies.lined grows false
  rw [if_neg Bool.false_ne_true,List.append_nil] at waiting
  change (t.put _ false).Tallies lost
  refine ⟨lined,tallies.modest,?_,fun none => ?_⟩
  · rw [waiting]
    exact tallies.sum
  · rw [Conserved,waiting]
    exact tallies.kept none

theorem Tallies.read {t : Traced U} {lost : Nat} (lawful : Lawful U) (tallies : t.Tallies lost) (offset : Nat) :
    ((Access.read offset).on t).Tallies lost := by
  have same : (Access.read offset).on t = if offset = 0 ∧ latched t.serial = false
      then t.pop (Uart.read t.serial offset).2 (Uart.read t.serial offset).1
      else {t with serial := (Uart.read t.serial offset).2} := rfl
  rw [same]
  have still (unchanged : held (Uart.read t.serial offset).2 = held t.serial) :
      Tallies {t with serial := (Uart.read t.serial offset).2} lost := by
    have waits : waiting {t with serial := (Uart.read t.serial offset).2} = t.waiting := by rw [waiting,unchanged]; rfl
    refine ⟨tallies.lined.trans (congrArg _ unchanged.symm),tallies.modest,?_,fun none => ?_⟩
    · rw [waits]
      exact tallies.sum
    · rw [Conserved,waits]
      exact tallies.kept none
  by_cases receives : offset = 0 ∧ latched t.serial = false
  · rw [if_pos receives]
    obtain ⟨rfl,shown⟩ := receives
    cases bytes : held t.serial with
    | nil =>
      have empty : t.host = [] := List.length_eq_zero_iff.mp (by rw [tallies.lined,bytes]; rfl)
      have popped : t.pop (Uart.read t.serial 0).2 (Uart.read t.serial 0).1 = {t with serial := (Uart.read t.serial 0).2} := by
        simp [pop,empty]
      rw [popped]
      exact still (lawful.read_other t.serial 0 (.inr (.inr bytes)))
    | cons b rest =>
      obtain ⟨value,left⟩ := lawful.read_receives t.serial b rest shown bytes
      have lined := tallies.lined
      rw [bytes] at lined
      obtain ⟨h,hs,host⟩ := List.exists_cons_of_length_eq_add_one lined
      have before : t.waiting = (if h then [b] else []) ++ hostBytes rest hs := by
        rw [waiting,bytes,host]
        cases h <;> rfl
      have after : (t.pop (Uart.read t.serial 0).2 (Uart.read t.serial 0).1).waiting = hostBytes rest hs := by
        rw [waiting,pop,left,host]
        rfl
      have read : (t.pop (Uart.read t.serial 0).2 (Uart.read t.serial 0).1).delivered =
          t.delivered ++ if h then [b] else [] := by
        rw [pop,value,host]
        cases h <;> rfl
      refine ⟨?_,tallies.modest,?_,fun none => ?_⟩
      · rw [host] at lined
        change t.host.tail.length = (held (Uart.read t.serial 0).2).length
        rw [left,host]
        exact Nat.succ.inj lined
      · have sum := tallies.sum
        rw [before,List.length_append] at sum
        rw [after,read,List.length_append]
        change t.received.length = _
        omega
      · have kept := tallies.kept none
        rw [Conserved,before,← List.append_assoc] at kept
        rw [Conserved,after,read]
        exact kept
  · rw [if_neg receives]
    refine still (lawful.read_other t.serial offset ?_)
    rcases not_and_or.mp receives with other | shut
    · exact .inl other
    · exact .inr (.inl (by simpa using shut))

def ask (t : Traced U) : Traced U := (SerialIo.recv t (SerialIo.fifoCapacity t)).2

theorem poll_on (t : Traced U) :
    Access.poll.on t = if SerialIo.fifoCapacity t.serial = 0 then t
      else match (SerialIo.recv t.serial (SerialIo.fifoCapacity t.serial)).1 with
        | .bytes count buffer =>
          if count ≤ SerialIo.fifoCapacity t.serial ∧ count ≠ 0 then
            t.ask.put (SerialIo.enqueueRawBytes t.ask.serial (buffer.take count)).2 true
          else t.ask
        | _ => t.ask := poll_after t

/-- A question to the host loses what it returned, until that is handed over. -/
theorem Tallies.ask {t : Traced U} {lost : Nat} (lawful : Lawful U) (tallies : t.Tallies lost)
    (room : SerialIo.fifoCapacity t.serial ≠ 0) :
    t.ask.Tallies (lost + (returned (SerialIo.recv t.serial (SerialIo.fifoCapacity t.serial)).1).length) := by
  have same : held t.ask.serial = held t.serial := lawful.recv_held _ _
  have waits : t.ask.waiting = t.waiting := congrArg (fun bytes => hostBytes bytes t.host) same
  have received : t.ask.received = t.received ++ returned (SerialIo.recv t.serial (SerialIo.fifoCapacity t.serial)).1 := rfl
  refine ⟨tallies.lined.trans (congrArg _ same.symm),?_,?_,fun none => ?_⟩
  · intro question member
    rcases List.mem_append.mp member with before | now
    · exact tallies.modest question before
    · cases List.mem_singleton.mp now
      exact ⟨Nat.le_refl _,Nat.pos_of_ne_zero room⟩
  · rw [waits,received,List.length_append]
    have sum := tallies.sum
    change _ = t.delivered.length + _ + _
    omega
  · have nothing : returned (SerialIo.recv t.serial (SerialIo.fifoCapacity t.serial)).1 = [] :=
      List.length_eq_zero_iff.mp (by omega)
    rw [Conserved,waits,received,nothing,List.append_nil]
    exact tallies.kept (by omega)

/-- A poll loses what the host returned in loopback mode, and nothing else. -/
theorem Tallies.poll {t : Traced U} {lost : Nat} (lawful : Lawful U) (tallies : t.Tallies lost) :
    ∃ more, (Access.poll.on t).Tallies (lost + more) ∧ (more = 0 ↔ drops t.serial = false) := by
  rw [poll_on]
  by_cases full : SerialIo.fifoCapacity t.serial = 0
  · rw [if_pos full]
    exact ⟨0,tallies,by simp [drops,full]⟩
  rw [if_neg full]
  have asked := tallies.ask lawful full
  cases answer : (SerialIo.recv t.serial (SerialIo.fifoCapacity t.serial)).1 with
  | bytes count buffer =>
    rw [answer] at asked
    obtain ⟨fits,size⟩ := lawful.recv_count _ _ _ _ answer
    have taken : (buffer.take count).length = count := by rw [List.length_take]; omega
    change t.ask.Tallies (lost + (buffer.take count).length) at asked
    rw [taken] at asked
    dsimp only
    by_cases none : count = 0
    · rw [if_neg (fun both => both.2 none)]
      exact ⟨count,asked,by simp [drops,answer,none]⟩
    rw [if_pos ⟨fits,none⟩]
    have mode : loopback t.ask.serial = loopback t.serial := lawful.recv_loopback _ _
    have kept : held t.ask.serial = held t.serial := lawful.recv_held _ _
    have space : SerialIo.fifoCapacity t.ask.serial = SerialIo.fifoCapacity t.serial := by
      have before := lawful.capacity t.serial
      have after := lawful.capacity t.ask.serial
      rw [kept] at after
      omega
    have room : 0 < SerialIo.fifoCapacity t.ask.serial := by omega
    obtain ⟨accepted,_,said,grows⟩ := lawful.enqueue t.ask.serial (buffer.take count) room
    obtain ⟨lined,waits⟩ := put_grows asked.lined grows true
    rw [if_pos rfl] at waits
    cases looped : loopback t.serial with
    | true =>
      -- the FIFO takes nothing, and the poll does not notice
      have nothing := lawful.enqueue_loopback t.ask.serial (buffer.take count) (mode.trans looped)
      obtain rfl : accepted = 0 := Except.ok.inj (said.symm.trans nothing)
      rw [List.take_zero,List.append_nil] at waits
      refine ⟨count,⟨lined,asked.modest,?_,fun zero => absurd zero (by omega)⟩,by simp [drops,answer,looped,full]⟩
      rw [waits]
      exact asked.sum
    | false =>
      have all := lawful.enqueue_fits t.ask.serial (buffer.take count) (mode.trans looped) room
        (by rw [taken,space]; exact fits)
      obtain rfl : accepted = (buffer.take count).length := Except.ok.inj (said.symm.trans all)
      rw [List.take_length] at waits
      have same : t.ask.waiting = t.waiting := congrArg (fun bytes => hostBytes bytes t.host) kept
      have received : t.ask.received = t.received ++ buffer.take count := by
        change t.received ++ returned (SerialIo.recv t.serial (SerialIo.fifoCapacity t.serial)).1 = _
        rw [answer]
        rfl
      refine ⟨0,⟨lined,asked.modest,?_,fun zero => ?_⟩,by simp [drops,looped]⟩
      · have sum := tallies.sum
        rw [waits,same,List.length_append]
        change t.ask.received.length = t.delivered.length + _ + _
        rw [received,List.length_append]
        omega
      · rw [Conserved,waits,same]
        change t.ask.received = t.delivered ++ _
        rw [received,tallies.kept (by omega),List.append_assoc]
  | wouldBlock =>
    rw [answer] at asked
    exact ⟨0,asked,by simp [drops,answer]⟩
  | interrupted =>
    rw [answer] at asked
    exact ⟨0,asked,by simp [drops,answer]⟩
  | failed e =>
    rw [answer] at asked
    exact ⟨0,asked,by simp [drops,answer]⟩

theorem Tallies.step {t : Traced U} {lost : Nat} (lawful : Lawful U) (tallies : t.Tallies lost) (a : Access) :
    ∃ more, (a.on t).Tallies (lost + more) ∧ (more = 0 ↔ (a = .poll → drops t.serial = false)) := by
  cases a with
  | poll =>
    obtain ⟨more,polled,lossless⟩ := tallies.poll lawful
    exact ⟨more,polled,lossless.trans ⟨fun kept _ => kept,fun kept => kept rfl⟩⟩
  | read offset => exact ⟨0,tallies.read lawful offset,⟨fun _ => nofun,fun _ => rfl⟩⟩
  | write offset value => exact ⟨0,tallies.write lawful offset value,⟨fun _ => nofun,fun _ => rfl⟩⟩

theorem on_serial (t : Traced U) (a : Access) : (a.on t).serial = a.on t.serial := by
  cases a with
  | read offset =>
    change Traced.serial (if _ then _ else _) = _
    split <;> rfl
  | write offset value => rfl
  | poll =>
    rw [poll_on,poll_after]
    split
    · rfl
    · have asked : t.ask.serial = (SerialIo.recv t.serial (SerialIo.fifoCapacity t.serial)).2 := rfl
      rw [← asked]
      generalize (SerialIo.recv t.serial (SerialIo.fifoCapacity t.serial)).1 = received
      cases received with
      | bytes count buffer =>
        dsimp only
        split <;> rfl
      | wouldBlock => rfl
      | interrupted => rfl
      | failed e => rfl

theorem Tallies.run {t : Traced U} {lost : Nat} (lawful : Lawful U) (tallies : t.Tallies lost) (accesses : List Access) :
    ∃ more, (runs accesses t).Tallies (lost + more) ∧ (more = 0 ↔ Careful accesses t.serial) := by
  induction accesses generalizing t lost with
  | nil => exact ⟨0,tallies,⟨fun _ => trivial,fun _ => rfl⟩⟩
  | cons a rest ih =>
    obtain ⟨first,stepped,lossless⟩ := tallies.step lawful a
    obtain ⟨later,ran,careful⟩ := ih stepped
    refine ⟨first + later,by rw [← Nat.add_assoc]; exact ran,?_⟩
    rw [Careful,← lossless,← on_serial t a,← careful]
    omega

theorem Tallies.conserved_iff {t : Traced U} {lost : Nat} (tallies : t.Tallies lost) :
    t.Conserved ∧ t.Modest ↔ lost = 0 := by
  constructor
  · rintro ⟨conserved,-⟩
    have sum := tallies.sum
    rw [Conserved] at conserved
    rw [conserved,List.length_append] at sum
    omega
  · exact fun none => ⟨tallies.kept none,tallies.modest⟩

theorem runs_tally (lawful : Lawful U) (u : U) (accesses : List Access) :
    ∃ lost, (runs accesses (start u)).Tallies lost ∧ (lost = 0 ↔ Careful accesses u) := by
  obtain ⟨lost,tallies,careful⟩ := (start_tallies u).run lawful accesses
  rw [Nat.zero_add] at tallies
  exact ⟨lost,tallies,careful⟩

end Traced

/-- Host input is conserved exactly in the runs in which no poll takes bytes from the
host while the guest has loopback on. -/
theorem input_conserved_iff (lawful : Lawful U) (u : U) (accesses : List Access) :
    (runs accesses (Traced.start u)).Conserved ∧ (runs accesses (Traced.start u)).Modest ↔ Careful accesses u := by
  obtain ⟨lost,tallies,careful⟩ := Traced.runs_tally lawful u accesses
  exact tallies.conserved_iff.trans careful

end Superio

namespace Runtime

variable {V C B N U : Type} {env : Env}

def Plays [SerialIo U] (s t : Runtime V C B N U) : Prop := ∃ accesses, t.serial = Superio.runs accesses s.serial

instance [SerialIo U] : IsPreorder (Runtime V C B N U) Plays where
  refl _ := ⟨[],rfl⟩
  trans s t u := by
    rintro ⟨first,begun⟩ ⟨later,ended⟩
    refine ⟨first ++ later,?_⟩
    rw [ended,begun]
    exact (List.foldl_append).symm

variable [SerialIo U]

theorem Spares.plays {s t : Runtime V C B N U} (spares : Spares s t) : Plays s t := ⟨[],spares.serial⟩

theorem uartValue_plays (offset : Nat) (a : IoAccess C) :
    Always Plays (uartValue offset a : Prog (Runtime V C B N U) (Failure Error) _) := by
  intro s
  unfold uartValue
  split
  · split
    · refine ⟨[.write offset (UInt8.ofNat a.value)],?_⟩
      simp only [uartWrite,Prog.run_bind,Prog.run_get,Prog.run_modify,record,Prog.run_ofExcept]
      cases (Uart.write s.serial offset (UInt8.ofNat a.value)).1 <;> rfl
    · exact ⟨[.read offset],rfl⟩
  · exact refl_of Plays s

variable [Vm V C] [BlockStorage B] [NetDevice N]

theorem handleIo_plays (a : IoAccess C) :
    Always Plays (handleIo env a : Prog (Runtime V C B N U) (Failure Error) Unit) := by
  have looks : ∀ k, Always Plays (device k : Prog (Runtime V C B N U) (Failure Error) _) :=
    fun k s => (device_spares k s).plays
  refine .bind .get (fun s => .bind ?_ (fun decoded => .bind (.still (seen_still _ _ _)) (fun value =>
    .bind (fun _ => ⟨[],rfl⟩) (fun _ _ => ⟨[],rfl⟩))))
  unfold access
  split
  · exact .bind (uartValue_plays _ a) (fun value => .bind .get (fun s => .pure _))
  split
  · split
    · refine .bind (looks _) (fun d => .bind ?_ (fun value => .bind (looks _) (fun d => .pure _)))
      unfold virtioValue
      dsimp only
      split
      · exact .pure _
      split
      · exact .pure _
      split
      · exact .bind (fun s => (visit_spares _ _ s).plays) (fun _ => .pure _)
      · exact .pure _
    · exact .fail _
  · exact .fail _

omit [BlockStorage B] [NetDevice N] in
theorem setLines_plays (lines : List (Mmio (Device B N) × IoRegion)) :
    Always Plays (setLines lines : Prog (Runtime V C B N U) (Failure Error) Unit) := by
  induction lines with
  | nil => exact .pure _
  | cons line rest ih => exact .bind (fun _ => ⟨[],rfl⟩) (fun _ => ih)

end Runtime

namespace RunLoop
open WVmm.Runtime

variable {V C B N U : Type} {env : Env} [Vm V C] [BlockStorage B] [NetDevice N]

/-- A call of the run loop is a poll of the serial port, an access to it, or neither. -/
theorem plays_bound [SerialIo U] : Bound env (Plays : Runtime V C B N U → Runtime V C B N U → Prop) where
  input _ := ⟨[.poll],rfl⟩
  setIrq _ _ _ := ⟨[],rfl⟩
  poll _ s := (visit_spares _ _ s).plays
  memory s := (processMemory_spares s).plays
  lines s := setLines_plays _ s
  events s := (pollEvent_spares s).plays
  access _ s := handleIo_plays _ s
  pause s := (pause_spares s).plays
  resume s := (resume_spares s).plays
  target _ _ := ⟨[],rfl⟩
  guest _ := ⟨[],rfl⟩

/-- What the loop has done with host input, at any time and for any guest: nothing is
lost if and only if no poll took bytes from the host in loopback mode. -/
theorem input_conserved_loop [Superio U] (lawful : Superio.Lawful U) (u : U) {first l : RunLoop V C B N (Superio.Traced U)}
    (fresh : first.runtime.serial = Superio.Traced.start u) (reached : Reaches (Takes (next env)) first l) :
    ∃ accesses, l.runtime.serial = Superio.runs accesses (Superio.Traced.start u) ∧
      (l.runtime.serial.Conserved ∧ l.runtime.serial.Modest ↔ Superio.Careful accesses u) := by
  have plays : Plays first.runtime l.runtime := plays_bound.reached reached
  obtain ⟨accesses,played⟩ := plays
  rw [fresh] at played
  refine ⟨accesses,played,?_⟩
  rw [played]
  obtain ⟨lost,tallies,careful⟩ := Superio.Traced.runs_tally lawful u accesses
  exact tallies.conserved_iff.trans careful

end RunLoop

namespace Reference
open Superio

/-- The registers and the FIFO of the serial crate, and a host that has this to say. -/
structure Console where
  input : List UInt8
  fifo : List UInt8
  lineControl : UInt8
  modemControl : UInt8
  output : List UInt8
  fits : fifo.length ≤ 64

namespace Console

def push (c : Console) (raw : List UInt8) : Console := {c with
  fifo := c.fifo ++ raw.take (64 - c.fifo.length)
  fits := by
    have room := c.fits
    rw [List.length_append,List.length_take]
    omega}

def pop (c : Console) : Console := {c with
  fifo := c.fifo.tail
  fits := by
    have room := c.fits
    rw [List.length_tail]
    omega}

def looped (c : Console) : Bool := c.modemControl &&& 0x10 != 0

def divisor (c : Console) : Bool := c.lineControl &&& 0x80 != 0

def written (c : Console) (offset : Nat) (value : UInt8) : Console :=
  if offset = 0 then
    if c.divisor then c else if c.looped then c.push [value] else {c with output := c.output ++ [value]}
  else if offset = 3 then {c with lineControl := value}
  else if offset = 4 then {c with modemControl := value}
  else c

instance : Superio Console where
  write c offset value := (.ok (),c.written offset value)
  read c offset := if offset = 0 ∧ c.divisor = false then (c.fifo.headD 0,c.pop) else (0,c)
  interruptIdentification _ := 1
  fifoCapacity c := 64 - c.fifo.length
  recv c n := (.bytes (min n c.input.length) ((c.input ++ List.replicate n 0).take n),{c with input := c.input.drop n})
  enqueueRawBytes c raw := if c.looped then (.ok 0,c) else (.ok (min raw.length (64 - c.fifo.length)),c.push raw)
  size := 64
  held := Console.fifo
  loopback := looped
  latched := divisor

theorem written_fifo (c : Console) (offset : Nat) (value : UInt8) :
    (c.written offset value).fifo = c.fifo ∨ c.looped = true ∧ (c.written offset value).fifo = c.fifo ++ [value] := by
  unfold written
  split
  · split
    · exact .inl rfl
    split
    · rename_i looped
      by_cases full : 64 - c.fifo.length = 0
      · exact .inl (by simp [push,full])
      · refine .inr ⟨looped,congrArg (c.fifo ++ ·) (List.take_of_length_le ?_)⟩
        exact Nat.one_le_iff_ne_zero.mpr full
    · exact .inl rfl
  split
  · exact .inl rfl
  split <;> exact .inl rfl

theorem lawful : Lawful Console where
  capacity c := Nat.sub_add_cancel c.fits
  recv_held _ _ := rfl
  recv_loopback _ _ := rfl
  recv_count c n count buffer answer := by
    cases answer
    refine ⟨Nat.min_le_left _ _,?_⟩
    rw [List.length_take,List.length_append,List.length_replicate]
    omega
  enqueue c raw _ := by
    by_cases looped : c.looped = true
    · exact ⟨0,Nat.zero_le _,by simp [SerialIo.enqueueRawBytes,looped],by simp [SerialIo.enqueueRawBytes,looped]⟩
    · refine ⟨min raw.length (64 - c.fifo.length),Nat.min_le_left _ _,by simp [SerialIo.enqueueRawBytes,looped],?_⟩
      change (if c.looped then _ else _ : Except Foreign Nat × Console).2.fifo = _
      rw [if_neg looped,Nat.min_comm,← List.take_eq_take_min]
      rfl
  enqueue_fits c raw quiet _ fits := by
    have quiet : c.looped = false := quiet
    have fits : raw.length ≤ 64 - c.fifo.length := fits
    simp [SerialIo.enqueueRawBytes,quiet,fits]
  enqueue_loopback c raw loud := by
    have loud : c.looped = true := loud
    simp [SerialIo.enqueueRawBytes,loud]
  read_receives c b rest shut bytes := by
    have shut : c.divisor = false := shut
    have bytes : c.fifo = b::rest := bytes
    simp [Uart.read,held,shut,bytes,pop]
  read_other c offset other := by
    have other : offset ≠ 0 ∨ c.divisor = true ∨ c.fifo = [] := other
    change (if offset = 0 ∧ c.divisor = false then (c.fifo.headD 0,c.pop) else (0,c)).2.fifo = c.fifo
    split
    · rename_i receives
      rcases other with away | shut | empty
      · exact absurd receives.1 away
      · rw [receives.2] at shut
        cases shut
      · simp [pop,empty]
    · rfl
  write := written_fifo

end Console

def typed : Console := ⟨[0x41],[],0,0,[],Nat.zero_le _⟩

/-- The guest tests its UART in loopback mode while the loop polls. -/
def probed : List Superio.Access := [.write 4 0x10,.poll,.write 4 0,.read 0]

/-- The key is taken from the host and reaches neither the FIFO nor the guest. -/
theorem input_conserved_probed :
    Lawful Console ∧ (runs probed (Traced.start typed)).received = [0x41] ∧
      (runs probed (Traced.start typed)).delivered = [] ∧ (runs probed (Traced.start typed)).waiting = [] ∧
      ¬((runs probed (Traced.start typed)).Conserved ∧ (runs probed (Traced.start typed)).Modest) := by
  refine ⟨Console.lawful,by decide +kernel,by decide +kernel,by decide +kernel,?_⟩
  rintro ⟨conserved,-⟩
  exact absurd conserved (by unfold Traced.Conserved; decide +kernel)

/-- Without loopback the key arrives. -/
theorem input_conserved_iff_typed :
    (runs [.poll,.read 0] (Traced.start typed)).Conserved ∧ (runs [.poll,.read 0] (Traced.start typed)).Modest := by
  refine (input_conserved_iff Console.lawful typed [.poll,.read 0]).mpr ⟨fun _ => ?_,nofun,trivial⟩
  decide +kernel

end Reference
end WVmm
