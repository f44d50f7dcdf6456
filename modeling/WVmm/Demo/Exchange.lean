import WVmm.Control.State
import WVmm.Lib.Runs

/-! One exchange over the control socket: a client that sends a command as a line of JSON and
reads a line back, and the thread that serves the connection. Bytes arrive in pieces of any
size, and either side may give up at any point. -/
namespace WVmm.Demo
open Lib.Runs

def LIMIT : Nat := 4096

inductive Request
  | pause
  | resume
  | stop
  | status
  | memoryStatus
  | memorySet (requestedMib : UInt64)
deriving DecidableEq

inductive ProtocolError
  | timeout
  | disconnected (expected : String)
  | tooLong (kind : String) (limit : Nat)
  | io (source : Foreign)
  | json (source : Foreign)
  | control (source : ControlError)

/-- What the JSON library does with requests and responses. A response is a status or the
text of an error. -/
structure Codec (S : Type) where
  request : Request → List UInt8
  readRequest : List UInt8 → Except Foreign Request
  response : Except String S → List UInt8
  readResponse : List UInt8 → Except Foreign (Except String S)

def newline : UInt8 := 10

structure Codec.Lawful {S : Type} (c : Codec S) : Prop where
  request_line : ∀ r, newline ∉ c.request r
  request_read : ∀ r, c.readRequest (c.request r) = .ok r
  response_line : ∀ v, newline ∉ c.response v
  response_read : ∀ v, c.readResponse (c.response v) = .ok v

inductive Taken
  | more (data : List UInt8)
  | full (data : List UInt8)

/-- One byte of a line, as both sides read it. -/
def takeByte (kind : String) (data : List UInt8) (byte : UInt8) : Except ProtocolError Taken :=
  if byte = newline then .ok (.full data)
  else if LIMIT ≤ data.length then .error (.tooLong kind LIMIT)
  else .ok (.more (data ++ [byte]))

variable {S : Type}

/-- Where `request` is. Its stream is closed when it returns. -/
inductive Client (S : Type)
  | writing (rest : List UInt8)
  | reading (data : List UInt8)
  | done (result : Except ProtocolError (Except String S))

inductive Server
  | reading (data : List UInt8)
  | performing (r : Request)
  | writing (rest : List UInt8)
  | closed

structure Link (S : Type) where
  client : Client S
  server : Server
  toServer : List UInt8
  toClient : List UInt8
  /-- The response that the server decided on. -/
  answer : Option (Except String S)
  performed : List (Request × Except ControlError S)

inductive Label (S : Type)
  /-- The client writes some bytes. -/
  | send (k : Nat)
  | sendFails (e : Foreign)
  /-- The server reads a byte. -/
  | read
  /-- The deadline passes, or `poll` or `read` fails. -/
  | readLate
  | readFails (e : Foreign)
  /-- The client is gone. -/
  | readEnds
  /-- The control handle returns. -/
  | perform (outcome : Except ControlError S)
  | reply (k : Nat)
  /-- The server gives up its stream: it cannot write, or never got to reading. -/
  | giveUp
  | receive
  | receiveFails (e : Foreign)
  /-- The server is gone. -/
  | receiveEnds

namespace Link

def new (c : Codec S) (r : Request) : Link S where
  client := .writing (c.request r ++ [newline])
  server := .reading []
  toServer := []
  toClient := []
  answer := none
  performed := []

def respond (c : Codec S) (s : Link S) (v : Except String S) : Link S :=
  {s with server := .writing (c.response v ++ [newline]), answer := some v}

def fail (c : Codec S) (diagnostic : ProtocolError → String) (s : Link S) (e : ProtocolError) : Link S :=
  s.respond c (.error (diagnostic e))

def readByte (c : Codec S) (diagnostic : ProtocolError → String) (s : Link S) (data : List UInt8) (byte : UInt8) :
    Link S :=
  match takeByte "message" data byte with
  | .error e => s.fail c diagnostic e
  | .ok (.more data) => {s with server := .reading data}
  | .ok (.full data) => match c.readRequest data with
    | .error e => s.fail c diagnostic (.json e)
    | .ok r => {s with server := .performing r}

def receiveByte (c : Codec S) (s : Link S) (data : List UInt8) (byte : UInt8) : Link S :=
  match takeByte "response" data byte with
  | .error e => {s with client := .done (.error e)}
  | .ok (.more data) => {s with client := .reading data}
  | .ok (.full data) => {s with client := .done ((c.readResponse data).mapError .json)}

def response (diagnostic : ProtocolError → String) (outcome : Except ControlError S) : Except String S :=
  outcome.mapError fun e => diagnostic (.control e)

def next (c : Codec S) (diagnostic : ProtocolError → String) (l : Label S) (s : Link S) : Option (Link S) :=
  match l with
  | .send k => match s.client with
    | .writing rest =>
      if 0 < k ∧ k ≤ rest.length then some {s with
        client := if k = rest.length then .reading [] else .writing (rest.drop k)
        toServer := s.toServer ++ rest.take k}
      else none
    | _ => none
  | .sendFails e => match s.client with
    | .writing _ => some {s with client := .done (.error (.io e))}
    | _ => none
  | .read => match s.server, s.toServer with
    | .reading data, byte::rest => some ({s with toServer := rest}.readByte c diagnostic data byte)
    | _, _ => none
  | .readLate => match s.server with
    | .reading _ => some (s.fail c diagnostic .timeout)
    | _ => none
  | .readFails e => match s.server with
    | .reading _ => some (s.fail c diagnostic (.io e))
    | _ => none
  | .readEnds => match s.server, s.client, s.toServer with
    | .reading _, .done _, [] => some (s.fail c diagnostic (.disconnected "newline"))
    | _, _, _ => none
  | .perform outcome => match s.server with
    | .performing r => some ({s with performed := s.performed ++ [(r,outcome)]}.respond c (response diagnostic outcome))
    | _ => none
  | .reply k => match s.server with
    | .writing rest =>
      if 0 < k ∧ k ≤ rest.length then some {s with
        server := if k = rest.length then .closed else .writing (rest.drop k)
        toClient := s.toClient ++ rest.take k}
      else none
    | _ => none
  | .giveUp => match s.server with
    | .writing _ | .reading [] => some {s with server := .closed}
    | _ => none
  | .receive => match s.client, s.toClient with
    | .reading data, byte::rest => some ({s with toClient := rest}.receiveByte c data byte)
    | _, _ => none
  | .receiveFails e => match s.client with
    | .reading _ => some {s with client := .done (.error (.io e))}
    | _ => none
  | .receiveEnds => match s.client, s.server, s.toClient with
    | .reading _, .closed, [] => some {s with client := .done (.error (.disconnected "response"))}
    | _, _, _ => none

end Link

/-- A line ends at its first newline. -/
theorem line_eq {data later message : List UInt8} (line : newline ∉ message) (clean : newline ∉ data)
    (same : data ++ newline::later = message ++ [newline]) : data = message ∧ later = [] := by
  induction data generalizing message with
  | nil =>
    cases message with
    | nil => exact ⟨rfl,(List.cons.inj same).2⟩
    | cons b rest =>
      have first := (List.cons.inj same).1
      exact absurd (first ▸ List.mem_cons_self) line
  | cons b data ih =>
    cases message with
    | nil =>
      have first := (List.cons.inj same).1
      exact absurd (first ▸ List.mem_cons_self) clean
    | cons b' rest =>
      obtain ⟨rfl,tail⟩ := List.cons.inj same
      obtain ⟨rfl,ended⟩ := ih (fun member => line (List.mem_cons_of_mem _ member))
        (fun member => clean (List.mem_cons_of_mem _ member)) tail
      exact ⟨rfl,ended⟩

inductive LineByte (data : List UInt8) (byte : UInt8) : Except ProtocolError Taken → Prop
  | full (ends : byte = newline) : LineByte data byte (.ok (.full data))
  | tooLong (kind : String) : LineByte data byte (.error (.tooLong kind LIMIT))
  | more (inside : byte ≠ newline) (short : data.length < LIMIT) : LineByte data byte (.ok (.more (data ++ [byte])))

theorem takeByte_cases (kind : String) (data : List UInt8) (byte : UInt8) :
    LineByte data byte (takeByte kind data byte) := by
  unfold takeByte
  split
  · exact .full ‹_›
  · split
    · exact .tooLong kind
    · exact .more ‹_› (by omega)

def Client.received : Client S → Option (List UInt8)
  | .writing _ => some []
  | .reading data => some data
  | .done _ => none

/-- A line of which one side has some bytes, others are on their way and the rest is still
to be written. -/
structure Underway (message had sent : List UInt8) (rest : List UInt8) : Prop where
  clean : newline ∉ had
  short : had.length ≤ LIMIT
  whole : had ++ sent ++ rest = message ++ [newline]

namespace Underway

variable {message had sent rest : List UInt8}

theorem start : Underway message [] [] (message ++ [newline]) := ⟨List.not_mem_nil,Nat.zero_le _,rfl⟩

/-- Some more bytes are written. -/
theorem write (underway : Underway message had sent rest) (k : Nat) :
    Underway message had (sent ++ rest.take k) (rest.drop k) :=
  ⟨underway.clean,underway.short,by rw [← underway.whole]; simp⟩

theorem more {byte : UInt8} {later : List UInt8} (underway : Underway message had (byte::later) rest)
    (inside : byte ≠ newline) (short : had.length < LIMIT) : Underway message (had ++ [byte]) later rest := by
  refine ⟨?_,?_,?_⟩
  · simp only [List.mem_append,List.mem_singleton,not_or]
    exact ⟨underway.clean,Ne.symm inside⟩
  · simp only [List.length_append,List.length_singleton]
    exact short
  · rw [← underway.whole]
    simp

theorem full {later : List UInt8} (underway : Underway message had (newline::later) rest) (line : newline ∉ message) :
    had = message := by
  have same : had ++ newline::(later ++ rest) = message ++ [newline] := by
    rw [← underway.whole]
    simp
  exact (line_eq line underway.clean same).1

end Underway

structure Sound (c : Codec S) (diagnostic : ProtocolError → String) (r : Request) (s : Link S) : Prop where
  /-- What the server has read begins the request. -/
  asked : ∀ data, s.server = .reading data → ∃ rest, Underway (c.request r) data s.toServer rest ∧
    ∀ held, s.client = .writing held → held = rest
  /-- What the client has read begins the response, if there is one. -/
  answered : ∀ data v, s.client.received = some data → s.answer = some v → ∃ rest,
    Underway (c.response v) data s.toClient rest ∧ ∀ held, s.server = .writing held → held = rest
  silent : s.answer = none → s.toClient = [] ∧ (∀ data, s.client.received = some data → data = []) ∧ s.performed = []
  undecided : (∃ data, s.server = .reading data) ∨ (∃ r, s.server = .performing r) → s.answer = none
  decided : ∀ held, s.server = .writing held → s.answer ≠ none
  own : ∀ r', s.server = .performing r' → r' = r ∧ (c.request r).length ≤ LIMIT
  performed : s.performed = [] ∨ ∃ outcome, s.performed = [(r,outcome)] ∧
    s.answer = some (Link.response diagnostic outcome) ∧ (c.request r).length ≤ LIMIT
  success : ∀ status, s.answer = some (.ok status) → s.performed = [(r,.ok status)]
  taken : ∀ v, s.client = .done (.ok v) → s.answer = some v ∧ (c.response v).length ≤ LIMIT

section Steps
variable {c : Codec S} {diagnostic : ProtocolError → String} {r : Request} {s t : Link S}

theorem sound_new : Sound c diagnostic r (Link.new c r) where
  asked data here := by
    cases here
    refine ⟨_,.start,fun held here => ?_⟩
    cases here
    rfl
  answered _ _ _ none := by cases none
  silent _ := ⟨rfl,fun data has => by cases has; rfl,rfl⟩
  undecided _ := rfl
  decided _ here := by cases here
  own _ here := by cases here
  performed := .inl rfl
  success _ none := by cases none
  taken _ done := by cases done

namespace Sound

/-- A change on the side of the client that leaves what it has read as it is. -/
theorem client (sound : Sound c diagnostic r s) (server : t.server = s.server) (answer : t.answer = s.answer)
    (performed : t.performed = s.performed) (toClient : t.toClient = s.toClient)
    (received : ∀ data, t.client.received = some data → s.client.received = some data)
    (asked : ∀ data, s.server = .reading data → ∃ rest, Underway (c.request r) data t.toServer rest ∧
      ∀ held, t.client = .writing held → held = rest)
    (taken : ∀ v, t.client ≠ .done (.ok v)) : Sound c diagnostic r t where
  asked data here := asked data (server ▸ here)
  answered data v has decided := by
    rw [toClient,server]
    exact sound.answered data v (received data has) (answer ▸ decided)
  silent none := by
    obtain ⟨empty,had,idle⟩ := sound.silent (answer ▸ none)
    exact ⟨toClient.trans empty,fun data has => had data (received data has),performed.trans idle⟩
  undecided here := by
    rw [server] at here
    exact answer.trans (sound.undecided here)
  decided held here := by
    rw [answer]
    exact sound.decided held (server ▸ here)
  own r' here := sound.own r' (server ▸ here)
  performed := by
    rw [performed,answer]
    exact sound.performed
  success status decided := by
    rw [performed]
    exact sound.success status (answer ▸ decided)
  taken v done := absurd done (taken v)

theorem respond (sound : Sound c diagnostic r s) (undecided : s.answer = none) {v : Except String S}
    {performed : List (Request × Except ControlError S)} {toServer : List UInt8}
    (outcome : performed = [] ∨ ∃ outcome, performed = [(r,outcome)] ∧ v = Link.response diagnostic outcome ∧
      (c.request r).length ≤ LIMIT)
    (success : ∀ status, v = .ok status → performed = [(r,.ok status)]) :
    Sound c diagnostic r ({s with performed := performed, toServer := toServer}.respond c v) := by
  obtain ⟨empty,had,_⟩ := sound.silent undecided
  refine ⟨by simp [Link.respond],?_,by simp [Link.respond],?_,by simp [Link.respond],by simp [Link.respond],?_,?_,?_⟩
  · intro data v' has answer
    cases answer
    cases had data has
    refine ⟨c.response v ++ [newline],?_,fun held here => by cases here; rfl⟩
    have start : Underway (c.response v) [] [] (c.response v ++ [newline]) := .start
    simpa only [Link.respond,empty] using start
  · rintro (⟨data,here⟩ | ⟨r',here⟩) <;> cases here
  · rcases outcome with none | ⟨outcome,performed,rfl,short⟩
    · exact .inl none
    · exact .inr ⟨outcome,performed,rfl,short⟩
  · intro status answer
    exact success status (Option.some.inj answer)
  · intro v' done
    have answer := (sound.taken v' done).1
    rw [undecided] at answer
    cases answer

theorem fail (sound : Sound c diagnostic r s) (undecided : s.answer = none) (e : ProtocolError) (toServer : List UInt8) :
    Sound c diagnostic r ({s with toServer := toServer}.fail c diagnostic e) :=
  sound.respond undecided (.inl (sound.silent undecided).2.2) (by simp)

theorem reads (sound : Sound c diagnostic r s) (undecided : s.answer = none) {server : Server} {toServer : List UInt8}
    (quiet : ∀ held, server ≠ .writing held)
    (asked : ∀ data, server = .reading data → ∃ rest, Underway (c.request r) data toServer rest ∧
      ∀ held, s.client = .writing held → held = rest)
    (own : ∀ r', server = .performing r' → r' = r ∧ (c.request r).length ≤ LIMIT) :
    Sound c diagnostic r {s with server := server, toServer := toServer} where
  asked := asked
  answered _ _ _ decided := by cases undecided.symm.trans decided
  silent := sound.silent
  undecided _ := undecided
  decided held here := absurd here (quiet held)
  own := own
  performed := sound.performed
  success := sound.success
  taken := sound.taken

theorem readByte (sound : Sound c diagnostic r s) (lawful : c.Lawful) {data rest : List UInt8} {byte : UInt8}
    (here : s.server = .reading data) (next : s.toServer = byte::rest) :
    Sound c diagnostic r ({s with toServer := rest}.readByte c diagnostic data byte) := by
  have undecided := sound.undecided (.inl ⟨data,here⟩)
  obtain ⟨unwritten,underway,held⟩ := sound.asked data here
  rw [next] at underway
  have outcome := takeByte_cases "message" data byte
  unfold Link.readByte
  generalize takeByte "message" data byte = taken at outcome
  cases outcome with
  | tooLong kind => exact sound.fail undecided _ rest
  | full ends =>
    subst ends
    have whole := underway.full (lawful.request_line r)
    have own : ∀ r', Server.performing r = .performing r' → r' = r ∧ (c.request r).length ≤ LIMIT := by
      intro r' same
      cases same
      exact ⟨rfl,whole ▸ underway.short⟩
    simp only [whole,lawful.request_read]
    exact sound.reads undecided (by simp) (by simp) own
  | more inside short =>
    refine sound.reads undecided (by simp) (fun data' same => ?_) (by simp)
    cases same
    exact ⟨unwritten,underway.more inside short,held⟩

theorem perform (sound : Sound c diagnostic r s) {r' : Request} (here : s.server = .performing r')
    (outcome : Except ControlError S) :
    Sound c diagnostic r ({s with performed := s.performed ++ [(r',outcome)]}.respond c
      (Link.response diagnostic outcome)) := by
  obtain ⟨rfl,short⟩ := sound.own r' here
  have undecided := sound.undecided (.inr ⟨r',here⟩)
  have idle := (sound.silent undecided).2.2
  refine sound.respond undecided (.inr ⟨outcome,by rw [idle]; rfl,rfl,short⟩) ?_
  intro status same
  cases outcome with
  | error e => cases same
  | ok status' =>
    cases same
    rw [idle]
    rfl

theorem replies (sound : Sound c diagnostic r s) {rest : List UInt8} (here : s.server = .writing rest) (k : Nat) :
    Sound c diagnostic r {s with
      server := if k = rest.length then .closed else .writing (rest.drop k)
      toClient := s.toClient ++ rest.take k} := by
  have decided := sound.decided rest here
  have places : ∀ held, (if k = rest.length then Server.closed else .writing (rest.drop k)) = .writing held →
      held = rest.drop k := by
    intro held same
    split at same
    · cases same
    · cases same
      rfl
  have later : ∀ data r', (if k = rest.length then Server.closed else .writing (rest.drop k)) ≠ .reading data ∧
      (if k = rest.length then Server.closed else .writing (rest.drop k)) ≠ .performing r' := by
    intro data r'
    split <;> simp
  refine ⟨fun data same => absurd same (later data r).1,?_,fun none => absurd none decided,?_,fun _ _ => decided,
    fun r' same => absurd same (later [] r').2,sound.performed,sound.success,sound.taken⟩
  · intro data v has answer
    obtain ⟨unwritten,underway,held⟩ := sound.answered data v has answer
    cases held rest here
    exact ⟨rest.drop k,underway.write k,places⟩
  · rintro (⟨data,same⟩ | ⟨r',same⟩)
    · exact absurd same (later data r).1
    · exact absurd same (later [] r').2

theorem closes (sound : Sound c diagnostic r s) : Sound c diagnostic r {s with server := .closed} := by
  refine ⟨by simp,?_,sound.silent,?_,by simp,by simp,sound.performed,sound.success,sound.taken⟩
  · intro data v has answer
    obtain ⟨rest,underway,_⟩ := sound.answered data v has answer
    exact ⟨rest,underway,by simp⟩
  · rintro (⟨data,same⟩ | ⟨r',same⟩) <;> cases same

theorem ends (sound : Sound c diagnostic r s) (e : ProtocolError) :
    Sound c diagnostic r {s with client := .done (.error e)} := by
  refine sound.client rfl rfl rfl rfl (by simp [Client.received]) (fun data here => ?_) (by simp)
  obtain ⟨rest,underway,_⟩ := sound.asked data here
  exact ⟨rest,underway,by simp⟩

theorem sends (sound : Sound c diagnostic r s) {rest : List UInt8} (here : s.client = .writing rest) (k : Nat) :
    Sound c diagnostic r {s with
      client := if k = rest.length then .reading [] else .writing (rest.drop k)
      toServer := s.toServer ++ rest.take k} := by
  refine sound.client rfl rfl rfl rfl (fun data has => ?_) (fun data reading => ?_) (fun v => by split <;> simp)
  · rw [here]
    split at has <;> exact has
  · obtain ⟨unwritten,underway,held⟩ := sound.asked data reading
    cases held rest here
    refine ⟨rest.drop k,underway.write k,fun held same => ?_⟩
    split at same
    · cases same
    · cases same
      rfl

theorem receives (sound : Sound c diagnostic r s) {v : Except String S} (decided : s.answer = some v) {client : Client S}
    {toClient : List UInt8}
    (answered : ∀ data, client.received = some data → ∃ rest, Underway (c.response v) data toClient rest ∧
      ∀ held, s.server = .writing held → held = rest)
    (taken : ∀ v', client = .done (.ok v') → v' = v ∧ (c.response v).length ≤ LIMIT) :
    Sound c diagnostic r {s with client := client, toClient := toClient} where
  asked data reading := by cases (sound.undecided (.inl ⟨data,reading⟩)).symm.trans decided
  answered data v' has decided' := by
    cases decided.symm.trans decided'
    exact answered data has
  silent none := by cases decided.symm.trans none
  undecided := sound.undecided
  decided := sound.decided
  own := sound.own
  performed := sound.performed
  success := sound.success
  taken v' done := by
    obtain ⟨rfl,short⟩ := taken v' done
    exact ⟨decided,short⟩

theorem receiveByte (sound : Sound c diagnostic r s) (lawful : c.Lawful) {data rest : List UInt8} {byte : UInt8}
    (here : s.client = .reading data) (next : s.toClient = byte::rest) :
    Sound c diagnostic r ({s with toClient := rest}.receiveByte c data byte) := by
  have has : s.client.received = some data := by rw [here]; rfl
  obtain ⟨v,decided⟩ : ∃ v, s.answer = some v := by
    refine Option.ne_none_iff_exists'.mp fun none => ?_
    have empty := (sound.silent none).1
    rw [next] at empty
    cases empty
  obtain ⟨unwritten,underway,held⟩ := sound.answered data v has decided
  rw [next] at underway
  have outcome := takeByte_cases "response" data byte
  unfold Link.receiveByte
  generalize takeByte "response" data byte = taken at outcome
  cases outcome with
  | tooLong kind => exact sound.receives decided (by simp [Client.received]) (by simp)
  | full ends =>
    subst ends
    have whole := underway.full (lawful.response_line v)
    simp only [whole,lawful.response_read]
    refine sound.receives decided (by simp [Client.received]) (fun v' done => ?_)
    cases done
    exact ⟨rfl,whole ▸ underway.short⟩
  | more inside short =>
    refine sound.receives decided (fun data' has' => ?_) (by simp)
    cases has'
    exact ⟨unwritten,underway.more inside short,held⟩

theorem step (sound : Sound c diagnostic r s) (lawful : c.Lawful) (l : Label S)
    (taken : s.next c diagnostic l = some t) : Sound c diagnostic r t := by
  cases l with simp only [Link.next] at taken
  | send k =>
    split at taken
    · obtain ⟨_,rfl⟩ := guarded taken
      exact sound.sends ‹_› k
    · cases taken
  | sendFails e | receiveFails e =>
    split at taken
    · cases taken
      exact sound.ends _
    · cases taken
  | read =>
    split at taken
    · cases taken
      exact sound.readByte lawful ‹_› ‹_›
    · cases taken
  | readLate | readFails e =>
    split at taken
    · rename_i here
      cases taken
      exact sound.fail (sound.undecided (.inl ⟨_,here⟩)) _ s.toServer
    · cases taken
  | readEnds =>
    split at taken
    · rename_i here _ _
      cases taken
      exact sound.fail (sound.undecided (.inl ⟨_,here⟩)) _ s.toServer
    · cases taken
  | perform outcome =>
    split at taken
    · cases taken
      exact sound.perform ‹_› outcome
    · cases taken
  | reply k =>
    split at taken
    · obtain ⟨_,rfl⟩ := guarded taken
      exact sound.replies ‹_› k
    · cases taken
  | giveUp =>
    split at taken
    · cases taken
      exact sound.closes
    · cases taken
      exact sound.closes
    · cases taken
  | receive =>
    split at taken
    · cases taken
      exact sound.receiveByte lawful ‹_› ‹_›
    · cases taken
  | receiveEnds =>
    split at taken
    · cases taken
      exact sound.ends _
    · cases taken

end Sound

theorem takeByte_inside {kind : String} {data : List UInt8} {byte : UInt8} (inside : byte ≠ newline)
    (short : data.length < LIMIT) : takeByte kind data byte = .ok (.more (data ++ [byte])) := by
  rw [takeByte,if_neg inside,if_neg (Nat.not_le.mpr short)]

theorem reads_line {step : Link S → Label S → Link S → Prop} (l : Label S) (reading : List UInt8 → List UInt8 → Link S)
    {message : List UInt8} (line : newline ∉ message) (fits : message.length ≤ LIMIT)
    (more : ∀ data byte rest, byte ≠ newline → data.length < LIMIT →
      step (reading data (byte::rest)) l (reading (data ++ [byte]) rest))
    (full : step (reading message [newline]) l t) {data tail : List UInt8} (whole : data ++ tail = message) :
    Reaches step (reading data (tail ++ [newline])) t := by
  induction tail generalizing data with
  | nil =>
    rw [List.append_nil] at whole
    rw [whole]
    exact .tail l .refl full
  | cons byte tail ih =>
    have inside : byte ≠ newline := by
      rintro rfl
      exact line (whole ▸ List.mem_append_right data List.mem_cons_self)
    have short : data.length < LIMIT := by
      have length := congrArg List.length whole
      simp only [List.length_append,List.length_cons] at length
      omega
    have whole' : (data ++ [byte]) ++ tail = message := by rw [List.append_assoc,List.singleton_append,whole]
    exact (Reaches.tail l .refl (more data byte _ inside short)).trans (ih whole')

theorem reads_request (lawful : c.Lawful) (fits : (c.request r).length ≤ LIMIT) :
    Reaches (Takes (Link.next c diagnostic)) {s with server := .reading [], toServer := c.request r ++ [newline]}
      {s with server := .performing r, toServer := []} := by
  refine reads_line .read (fun data rest => {s with server := .reading data, toServer := rest})
    (lawful.request_line r) fits (fun data byte rest inside short => ?_) ?_ (List.nil_append _)
  · simp only [Takes,Link.next,Link.readByte,takeByte_inside inside short]
  · simp only [Takes,Link.next,Link.readByte,takeByte,if_true,lawful.request_read]

theorem receives_response (lawful : c.Lawful) {v : Except String S} (fits : (c.response v).length ≤ LIMIT) :
    Reaches (Takes (Link.next c diagnostic)) {s with client := .reading [], toClient := c.response v ++ [newline]}
      {s with client := .done (.ok v), toClient := []} := by
  refine reads_line .receive (fun data rest => {s with client := .reading data, toClient := rest})
    (lawful.response_line v) fits (fun data byte rest inside short => ?_) ?_ (List.nil_append _)
  · simp only [Takes,Link.next,Link.receiveByte,takeByte_inside inside short]
  · simp only [Takes,Link.next,Link.receiveByte,takeByte,if_true,lawful.response_read]
    rfl

/-- An exchange goes through when both lines fit. -/
theorem goes_through (lawful : c.Lawful) (outcome : Except ControlError S) (fits : (c.request r).length ≤ LIMIT)
    (fits' : (c.response (Link.response diagnostic outcome)).length ≤ LIMIT) :
    ∃ t, Reaches (Takes (Link.next c diagnostic)) (Link.new c r) t ∧
      t.client = .done (.ok (Link.response diagnostic outcome)) ∧ t.performed = [(r,outcome)] := by
  have sent : (Link.new c r).next c diagnostic (.send (c.request r ++ [newline]).length) =
      some ⟨.reading [],.reading [],c.request r ++ [newline],[],none,[]⟩ := by
    simp [Link.next,Link.new]
  have asked : Reaches (Takes (Link.next c diagnostic)) (Link.new c r) ⟨.reading [],.performing r,[],[],none,[]⟩ :=
    (Reaches.tail _ .refl sent).trans (@reads_request S c diagnostic r ⟨.reading [],.reading [],[],[],none,[]⟩ lawful fits)
  generalize answer : Link.response diagnostic outcome = v at fits' ⊢
  have performed : Link.next c diagnostic (.perform outcome) ⟨.reading [],.performing r,[],[],none,[]⟩ =
      some ⟨.reading [],.writing (c.response v ++ [newline]),[],[],some v,[(r,outcome)]⟩ := by
    simp [Link.next,Link.respond,answer]
  have replied : Link.next c diagnostic (.reply (c.response v ++ [newline]).length)
      ⟨.reading [],.writing (c.response v ++ [newline]),[],[],some v,[(r,outcome)]⟩ =
      some ⟨.reading [],.closed,[],c.response v ++ [newline],some v,[(r,outcome)]⟩ := by
    simp [Link.next]
  exact ⟨_,((asked.tail _ performed).tail _ replied).trans
    (@receives_response S c diagnostic ⟨.reading [],.closed,[],[],some v,[(r,outcome)]⟩ lawful v fits'),rfl,rfl⟩

end Steps

/-! JSON text as the two sides exchange it, for responses that show a lifecycle. -/

def ascii (s : String) : List UInt8 := s.toList.map fun c => UInt8.ofNat c.toNat

def digits (n : Nat) : List UInt8 :=
  if n = 0 then [48] else ((Nat.digits 10 n).map fun d => UInt8.ofNat (48 + d)).reverse

def number (text : List UInt8) : Nat := Nat.ofDigits 10 (text.reverse.map fun b => b.toNat - 48)

theorem digit_toNat {d : Nat} (small : d < 10) : (UInt8.ofNat (48 + d)).toNat = 48 + d := by
  rw [UInt8.toNat_ofNat']
  omega

theorem number_digits (n : Nat) : number (digits n) = n := by
  unfold number digits
  split
  · rename_i zero
    rw [zero]
    decide
  · rw [List.reverse_reverse,List.map_map]
    have same : (Nat.digits 10 n).map ((fun b : UInt8 => b.toNat - 48) ∘ fun d => UInt8.ofNat (48 + d)) =
        Nat.digits 10 n := by
      conv_rhs => rw [← List.map_id (Nat.digits 10 n)]
      refine List.map_congr_left fun d member => ?_
      simp only [Function.comp_apply,digit_toNat (Nat.digits_lt_base (by decide) member),Nat.add_sub_cancel_left,id]
    rw [same,Nat.ofDigits_digits]

theorem digits_line (n : Nat) : newline ∉ digits n := by
  unfold digits
  split
  · decide
  · rw [List.mem_reverse,List.mem_map]
    rintro ⟨d,member,same⟩
    have value := digit_toNat (Nat.digits_lt_base (by decide) member)
    rw [same] at value
    have ten : newline.toNat = 10 := rfl
    omega

def command : Request → List UInt8
  | .pause => ascii "\x7b\"command\":\"pause\"\x7d"
  | .resume => ascii "\x7b\"command\":\"resume\"\x7d"
  | .stop => ascii "\x7b\"command\":\"stop\"\x7d"
  | .status => ascii "\x7b\"command\":\"status\"\x7d"
  | .memoryStatus => ascii "\x7b\"command\":\"memory-status\"\x7d"
  | .memorySet mib => ascii "\x7b\"command\":\"memory-set\",\"requested_mib\":" ++ digits mib.toNat ++ ascii "\x7d"

def plain : List Request := [.pause,.resume,.stop,.status,.memoryStatus]

def malformed : Foreign := ⟨"malformed"⟩

def readCommand (line : List UInt8) : Except Foreign Request :=
  match plain.find? fun r => command r = line with
  | some r => .ok r
  | none =>
    let mib := UInt64.ofNat (number (line.drop 40).dropLast)
    if command (.memorySet mib) = line then .ok (.memorySet mib) else .error malformed

theorem command_line (r : Request) : newline ∉ command r := by
  cases r with
  | memorySet mib =>
    simp only [command,List.mem_append,not_or]
    exact ⟨⟨by decide,digits_line _⟩,by decide⟩
  | _ => decide

theorem plain_apart (mib : UInt64) : ∀ r ∈ plain, command r ≠ command (.memorySet mib) := by
  intro r member same
  have apart : ∀ r ∈ plain, (command r).take 22 ≠ ascii "\x7b\"command\":\"memory-set" := by decide
  have begins : (command (.memorySet mib)).take 22 = ascii "\x7b\"command\":\"memory-set" := rfl
  exact apart r member (by rw [same,begins])

theorem readCommand_command (r : Request) : readCommand (command r) = .ok r := by
  cases r with
  | memorySet mib =>
    have none : plain.find? (fun r => command r = command (.memorySet mib)) = none :=
      List.find?_eq_none.mpr fun r member => by simpa using plain_apart mib r member
    have body : ((command (.memorySet mib)).drop 40).dropLast = digits mib.toNat := by
      have split : (command (.memorySet mib)).drop 40 = digits mib.toNat ++ ascii "\x7d" := rfl
      rw [split]
      exact List.dropLast_concat
    simp only [readCommand,none,body,number_digits,UInt64.ofNat_toNat,if_true]
  | _ => rfl

def escapeByte (b : UInt8) : List UInt8 :=
  if b = newline then [92,110] else if b = 34 ∨ b = 92 then [92,b] else [b]

/-- Newlines, quotes and backslashes are escaped; other control characters stay. -/
def escape (text : List UInt8) : List UInt8 := text.flatMap escapeByte

def unescape : List UInt8 → List UInt8
  | [] => []
  | [b] => [b]
  | b::b'::rest => if b = 92 then (if b' = 110 then newline else b')::unescape rest else b::unescape (b'::rest)

theorem unescape_plain {b : UInt8} (inside : b ≠ 92) (rest : List UInt8) : unescape (b::rest) = b::unescape rest := by
  cases rest with
  | nil => rfl
  | cons b' rest => rw [unescape,if_neg inside]

theorem unescape_escape (text : List UInt8) : unescape (escape text) = text := by
  induction text with
  | nil => rfl
  | cons b text ih =>
    unfold escape at ih ⊢
    rw [List.flatMap_cons,escapeByte]
    split
    · rename_i same
      simp only [List.cons_append,List.nil_append,unescape,if_true,ih,same]
    · split
      · rename_i quoted
        have letter : b ≠ 110 := by rcases quoted with rfl | rfl <;> decide
        simp only [List.cons_append,List.nil_append,unescape,if_true,if_neg letter,ih]
      · rename_i quoted
        rw [List.singleton_append,unescape_plain (fun same => quoted (.inr same)),ih]

theorem escape_line (text : List UInt8) : newline ∉ escape text := by
  unfold escape
  rw [List.mem_flatMap]
  rintro ⟨b,_,member⟩
  unfold escapeByte at member
  split at member
  · exact absurd member (by decide)
  · rename_i inside
    split at member <;> simp only [List.mem_cons,List.not_mem_nil,or_false] at member
    · rcases member with same | same
      · exact absurd same (by decide)
      · exact inside same.symm
    · exact inside member.symm

/-- `{:?}` of a lifecycle. -/
def lifecycleText : VmLifecycle → String
  | .created => "Created"
  | .starting => "Starting"
  | .running => "Running"
  | .paused => "Paused"
  | .stopping => "Stopping"
  | .stopped => "Stopped"

def shown : Except String VmLifecycle → List UInt8
  | .ok lifecycle => ascii "\x7b\"ok\":true,\"status\":\x7b\"final_error\":null,\"lifecycle\":\"" ++
      ascii (lifecycleText lifecycle) ++ ascii "\"\x7d\x7d"
  | .error text => ascii "\x7b\"error\":\"" ++ escape text.toByteArray.data.toList ++ ascii "\",\"ok\":false\x7d"

def lifecycles : List VmLifecycle := [.created,.starting,.running,.paused,.stopping,.stopped]

def readShown (line : List UInt8) : Except Foreign (Except String VmLifecycle) :=
  match lifecycles.find? fun l => shown (.ok l) = line with
  | some l => .ok (.ok l)
  | none => match String.fromUTF8? ⟨(unescape ((line.drop 10).take (line.length - 23))).toArray⟩ with
    | none => .error malformed
    | some text => if shown (.error text) = line then .ok (.error text) else .error malformed

theorem shown_line (v : Except String VmLifecycle) : newline ∉ shown v := by
  cases v with
  | ok lifecycle => cases lifecycle <;> decide
  | error text =>
    simp only [shown,List.mem_append,not_or]
    exact ⟨⟨by decide,escape_line _⟩,by decide⟩

theorem readShown_shown (v : Except String VmLifecycle) : readShown (shown v) = .ok v := by
  cases v with
  | ok lifecycle => cases lifecycle <;> rfl
  | error text =>
    have apart : ∀ l, (shown (.ok l)).take 3 ≠ ascii "\x7b\"e" := by
      intro l
      cases l <;> decide
    have none : lifecycles.find? (fun l => shown (.ok l) = shown (.error text)) = none := by
      refine List.find?_eq_none.mpr fun l _ => ?_
      have begins : (shown (.error text)).take 3 = ascii "\x7b\"e" := rfl
      simp only [decide_eq_true_eq]
      exact fun same => apart l (by rw [same,begins])
    have body : ((shown (.error text)).drop 10).take ((shown (.error text)).length - 23) =
        escape text.toByteArray.data.toList := by
      have size : (shown (.error text)).length - 23 = (escape text.toByteArray.data.toList).length := by
        have total : (shown (.error text)).length = 10 + (escape text.toByteArray.data.toList).length + 13 := by
          rw [shown,List.length_append,List.length_append]
          rfl
        omega
      have split : (shown (.error text)).drop 10 =
          escape text.toByteArray.data.toList ++ ascii "\",\"ok\":false\x7d" := rfl
      rw [size,split,List.take_left]
    have decoded : String.fromUTF8? ⟨text.toByteArray.data.toList.toArray⟩ = some text := by
      rw [Array.toArray_toList]
      exact dif_pos text.isValidUTF8
    simp only [readShown,none,body,unescape_escape,decoded,if_true]

def json : Codec VmLifecycle := ⟨command,readCommand,shown,readShown⟩

theorem json_lawful : json.Lawful := ⟨command_line,readCommand_command,shown_line,readShown_shown⟩

def pauseLabels : List (Label VmLifecycle) :=
  [.send 7,.read,.send 13] ++ List.replicate 19 .read ++ [.perform (.ok .paused),.reply 60,.receive,.reply 3] ++
    List.replicate 62 .receive

def Client.response : Client S → Option (Except String S)
  | .done (.ok v) => some v
  | _ => none

theorem Client.done_of_response {client : Client S} {v : Except String S} (took : client.response = some v) :
    client = .done (.ok v) := by
  unfold Client.response at took
  split at took
  · rw [Option.some.inj took]
  · cases took

/-- An exchange performs at most the command that was asked for, and performs it once,
however the bytes are cut up and whoever gives up when. What the client takes for the
response is what the server answered, whole: a success only if the command succeeded. A
line over the limit is neither performed nor taken; where both lines fit the exchange can
go through. -/
theorem exchange_at_most_once {S : Type} (c : Codec S) (diagnostic : ProtocolError → String) (lawful : c.Lawful)
    (r : Request) {s : Link S} (reached : Reaches (Takes (Link.next c diagnostic)) (Link.new c r) s) :
    (s.performed = [] ∨ ∃ outcome, s.performed = [(r,outcome)] ∧ s.answer = some (Link.response diagnostic outcome) ∧
      (c.request r).length ≤ LIMIT) ∧
    (∀ v, s.client = .done (.ok v) → s.answer = some v ∧ (c.response v).length ≤ LIMIT) ∧
    (∀ status, s.answer = some (.ok status) → s.performed = [(r,.ok status)]) ∧
    ∀ outcome, (c.request r).length ≤ LIMIT → (c.response (Link.response diagnostic outcome)).length ≤ LIMIT →
      ∃ t, Reaches (Takes (Link.next c diagnostic)) (Link.new c r) t ∧
        t.client = .done (.ok (Link.response diagnostic outcome)) ∧ t.performed = [(r,outcome)] := by
  have sound : Sound c diagnostic r s := reached.invariant sound_new fun _ l _ sound taken => sound.step lawful l taken
  exact ⟨sound.performed,sound.taken,sound.success,fun outcome fits fits' => goes_through lawful outcome fits fits'⟩

theorem exchange_at_most_once_pause : ∃ s, run (Link.next json fun _ => "") pauseLabels (Link.new json .pause) = some s ∧
    s.client = .done (.ok (.ok .paused)) ∧ s.answer = some (.ok .paused) ∧ s.performed = [(.pause,.ok .paused)] := by
  have took : (run (Link.next json fun _ => "") pauseLabels (Link.new json .pause)).bind (fun s => s.client.response) =
      some (.ok .paused) := by decide +kernel
  obtain ⟨s,ran,response⟩ := Option.bind_eq_some_iff.mp took
  have done := Client.done_of_response response
  obtain ⟨_,taken,success,_⟩ :=
    exchange_at_most_once json (fun _ => "") json_lawful .pause (reaches_of_run pauseLabels ran)
  have answer := (taken (.ok .paused) done).1
  exact ⟨s,ran,done,answer,success .paused answer⟩

end WVmm.Demo
