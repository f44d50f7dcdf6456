import WVmm.Storage.Header
import WVmm.Storage.Disk
import WVmm.Lib.Runs

/-! Opening and dropping disks, one system call after the other, among any number of
callers and other programs. The advisory lock is taken before the header is read and
held until the image is closed: no file has a disk that may write beside another one,
and a file does not change under a disk that only reads it. -/
namespace WVmm.Storage
open Lib.Runs

inductive Mode
  | shared
  | exclusive
deriving DecidableEq

/-- The system call that comes next for a caller, with what it has read so far. -/
inductive Stage
  | opening
  | opened (inode : Nat)
  | regular (inode : Nat)
  | locked (inode : Nat)
  | validated (inode size : Nat)
  | duplicated (inode size : Nat)
  | imageFile (inode size : Nat)
  | imaged (inode size actual : Nat)
  | live (inode size : Nat)
  | closing (inode : Nat)
  | released
  | failed (e : StorageError)
deriving DecidableEq

structure Opener where
  path : String
  readonly : Bool
  stage : Stage

/-- The files, by inode, and the locks of other programs on them. -/
structure Files where
  resolve : String → Option Nat
  regular : Nat → Bool
  bytes : Nat → List UInt8
  others : List (Nat × Mode)
  openers : List Opener

/-- What the system answers; the size of the image is the only value that is used. -/
abbrev Answer := Except Foreign Nat

namespace Opener

def mode (o : Opener) : Mode := if o.readonly then .shared else .exclusive

def holds (o : Opener) : Option Nat :=
  match o.stage with
  | .locked inode => some inode
  | .validated inode _ => some inode
  | .duplicated inode _ => some inode
  | .imageFile inode _ => some inode
  | .imaged inode _ _ => some inode
  | .live inode _ => some inode
  | .closing inode => some inode
  | _ => none

def sized (o : Opener) : Option (Nat × Nat) :=
  match o.stage with
  | .validated inode size => some (inode,size)
  | .duplicated inode size => some (inode,size)
  | .imageFile inode size => some (inode,size)
  | .imaged inode size _ => some (inode,size)
  | .live inode size => some (inode,size)
  | _ => none

/-- The file that the image may write: it is open for writing. -/
def writes (o : Opener) : Option Nat :=
  if o.readonly then none
  else match o.stage with
    | .imageFile inode _ => some inode
    | .imaged inode _ _ => some inode
    | .live inode _ => some inode
    | .closing inode => some inode
    | _ => none

def fail (o : Opener) (operation : String) (e : Foreign) : Opener :=
  {o with stage := .failed (.operation operation o.path e)}

end Opener

/-- Two locks on one file go together only if both are shared. -/
def Mode.compatible (m m' : Mode) : Bool := m == .shared && m' == .shared

namespace Files

def free (w : Files) (k inode : Nat) (mode : Mode) : Bool :=
  (w.others.all (fun lock => lock.1 != inode || mode.compatible lock.2)) &&
    (List.range w.openers.length).all (fun j => j == k ||
      (w.openers[j]?).all (fun o => o.holds != some inode || mode.compatible o.mode))

/-- One system call of `open`, in the order it makes them. A failed call ends it with
every descriptor closed. -/
def openStep (w : Files) (k : Nat) (o : Opener) (answer : Answer) : Option Opener :=
  match o.stage,answer with
  | .opening,.error e => some (o.fail "open" e)
  | .opening,.ok _ => (w.resolve o.path).map (fun inode => {o with stage := .opened inode})
  | .opened _,.error e => some (o.fail "metadata" e)
  | .opened inode,.ok _ =>
    some {o with stage := if w.regular inode then .regular inode else .failed .notRegularFile}
  | .regular _,.error e => some (o.fail "disk is already locked" e)
  | .regular inode,.ok _ => if w.free k inode o.mode then some {o with stage := .locked inode} else none
  | .locked _,.error e => some (o.fail "read qcow2 header" e)
  | .locked inode,.ok _ =>
    if 104 ≤ (w.bytes inode).length then
      match validateHeader ((w.bytes inode).take 104) with
      | .error e => some {o with stage := .failed e}
      | .ok size => some {o with stage := .validated inode size}
    else none
  | .validated _ _,.error e => some (o.fail "duplicate disk descriptor" e)
  | .validated inode size,.ok _ => some {o with stage := .duplicated inode size}
  | .duplicated _ _,.error e => some (o.fail "create image file" e)
  | .duplicated inode size,.ok _ => some {o with stage := .imageFile inode size}
  | .imageFile _ _,.error e => some (o.fail "open qcow2 metadata" e)
  | .imageFile inode size,.ok actual => some {o with stage := .imaged inode size actual}
  | .imaged inode size actual,_ =>
    some {o with stage := if actual ≠ size then .failed (.capacityMismatch size actual) else .live inode size}
  | _,_ => none

/-- Dropping a disk: the last flush is done, whatever it answers, then the image and the
lock are closed. -/
def dropStep (o : Opener) : Option Opener :=
  match o.stage with
  | .live inode _ => some {o with stage := .closing inode}
  | .closing _ => some {o with stage := .released}
  | _ => none

def put (w : Files) (k : Nat) (o : Opener) : Files := {w with openers := w.openers.set k o}

def store (w : Files) (inode : Nat) (bytes : List UInt8) : Files :=
  {w with bytes := fun i => if i = inode then bytes else w.bytes i}

end Files

inductive Turn
  | call (path : String) (readonly : Bool)
  | open_ (k : Nat) (answer : Answer)
  | write (k : Nat) (bytes : List UInt8)
  | drop (k : Nat)
  | rename (path : String) (target : Option Nat)
  | lock (inode : Nat) (mode : Mode)
  | unlock (index : Nat)
  | store (index : Nat) (bytes : List UInt8)

namespace Files

def next (turn : Turn) (w : Files) : Option Files :=
  match turn with
  | .call path readonly => some {w with openers := w.openers ++ [⟨path,readonly,.opening⟩]}
  | .open_ k answer => (w.openers[k]?).bind (fun o => (w.openStep k o answer).map (w.put k))
  | .write k bytes => (w.openers[k]?).bind (fun o => o.writes.map (fun inode => w.store inode bytes))
  | .drop k => (w.openers[k]?).bind (fun o => (dropStep o).map (w.put k))
  | .rename path target => some {w with resolve := fun p => if p = path then target else w.resolve p}
  | .lock inode mode =>
    if w.free w.openers.length inode mode then some {w with others := w.others ++ [(inode,mode)]} else none
  | .unlock index => some {w with others := w.others.eraseIdx index}
  | .store index bytes =>
    (w.others[index]?).bind (fun lock => if lock.2 = .exclusive then some (w.store lock.1 bytes) else none)

end Files

theorem validateHeader_size {h : List UInt8} {size : Nat} (valid : validateHeader h = .ok size) :
    0 < size ∧ size % 512 = 0 := by
  unfold validateHeader at valid
  dsimp only at valid
  split_ifs at valid with _ _ _ _ _ _ _ _ unfit
  cases valid
  exact unfit

namespace Opener

def Over (o : Opener) : Prop := o.stage = .released ∨ ∃ e, o.stage = .failed e

end Opener

structure Moved (w : Files) (k : Nat) (o o' : Opener) : Prop where
  readonly : o'.readonly = o.readonly
  holds : o'.holds = o.holds ∨ (o'.holds = none ∧ o'.Over) ∨
    ∃ inode, o.holds = none ∧ o'.holds = some inode ∧ w.free k inode o.mode = true
  sized : o'.sized = o.sized ∨ o'.sized = none ∨
    ∃ inode size, o'.sized = some (inode,size) ∧ validateHeader ((w.bytes inode).take 104) = .ok size
  going : ¬o.Over

section Steps
variable {w : Files} {k : Nat} {o o' : Opener}

theorem Moved.failed {e : StorageError} (going : ¬o.Over) : Moved w k o {o with stage := .failed e} :=
  ⟨rfl,.inr (.inl ⟨rfl,.inr ⟨e,rfl⟩⟩),.inr (.inl rfl),going⟩

theorem openStep_moved {answer : Answer} (taken : w.openStep k o answer = some o') : Moved w k o o' := by
  obtain ⟨path,readonly,stage⟩ := o
  have going : (⟨path,readonly,stage⟩ : Opener).Over → w.openStep k ⟨path,readonly,stage⟩ answer = none := by
    rintro (ended | ⟨e,ended⟩) <;> cases ended <;> rfl
  replace going : ¬(⟨path,readonly,stage⟩ : Opener).Over := by
    intro ended
    rw [going ended] at taken
    cases taken
  cases stage with
  | opening =>
    cases answer with
    | error e =>
      cases taken
      exact .failed going
    | ok size =>
      obtain ⟨inode,_,rfl⟩ := Option.map_eq_some_iff.mp taken
      exact ⟨rfl,.inl rfl,.inl rfl,going⟩
  | opened inode =>
    cases answer with
    | error e =>
      cases taken
      exact .failed going
    | ok size =>
      cases taken
      split
      · exact ⟨rfl,.inl rfl,.inl rfl,going⟩
      · exact .failed going
  | regular inode =>
    cases answer with
    | error e =>
      cases taken
      exact .failed going
    | ok size =>
      obtain ⟨free,rfl⟩ := guarded taken
      exact ⟨rfl,.inr (.inr ⟨inode,rfl,rfl,free⟩),.inl rfl,going⟩
  | locked inode =>
    cases answer with
    | error e =>
      cases taken
      exact .failed going
    | ok size =>
      simp only [Files.openStep] at taken
      split at taken
      · cases valid : validateHeader ((w.bytes inode).take 104) with
        | error e =>
          rw [valid] at taken
          cases taken
          exact .failed going
        | ok size =>
          rw [valid] at taken
          cases taken
          exact ⟨rfl,.inl rfl,.inr (.inr ⟨inode,size,rfl,valid⟩),going⟩
      · cases taken
  | validated inode size =>
    cases answer with
    | error e =>
      cases taken
      exact .failed going
    | ok _ =>
      cases taken
      exact ⟨rfl,.inl rfl,.inl rfl,going⟩
  | duplicated inode size =>
    cases answer with
    | error e =>
      cases taken
      exact .failed going
    | ok _ =>
      cases taken
      exact ⟨rfl,.inl rfl,.inl rfl,going⟩
  | imageFile inode size =>
    cases answer with
    | error e =>
      cases taken
      exact .failed going
    | ok actual =>
      cases taken
      exact ⟨rfl,.inl rfl,.inl rfl,going⟩
  | imaged inode size actual =>
    cases taken
    split
    · exact .failed going
    · exact ⟨rfl,.inl rfl,.inl rfl,going⟩
  | live inode size => cases taken
  | closing inode => cases taken
  | released => cases taken
  | failed e => cases taken

theorem dropStep_moved (taken : Files.dropStep o = some o') : Moved w k o o' := by
  obtain ⟨path,readonly,stage⟩ := o
  cases stage with
  | live inode size =>
    cases taken
    exact ⟨rfl,.inl rfl,.inr (.inl rfl),by rintro (ended | ⟨e,ended⟩) <;> cases ended⟩
  | closing inode =>
    cases taken
    exact ⟨rfl,.inr (.inl ⟨rfl,.inl rfl⟩),.inr (.inl rfl),by rintro (ended | ⟨e,ended⟩) <;> cases ended⟩
  | _ => cases taken

theorem writes_holds {inode : Nat} (writes : o.writes = some inode) : o.holds = some inode ∧ o.mode = .exclusive := by
  obtain ⟨path,readonly,stage⟩ := o
  cases readonly with
  | true => cases writes
  | false => cases stage <;> cases writes <;> exact ⟨rfl,rfl⟩

theorem sized_holds {inode size : Nat} (sized : o.sized = some (inode,size)) : o.holds = some inode := by
  obtain ⟨path,readonly,stage⟩ := o
  cases stage <;> first | cases sized; rfl | cases sized

theorem Opener.Over.holds (ended : o.Over) : o.holds = none := by
  obtain ⟨path,readonly,stage⟩ := o
  rcases ended with same | ⟨e,same⟩ <;> cases same <;> rfl

end Steps

theorem compatible_shared {m m' : Mode} (compatible : m.compatible m' = true) : m = .shared ∧ m' = .shared := by
  simp only [Mode.compatible,Bool.and_eq_true,beq_iff_eq] at compatible
  exact compatible

/-- A lock that can be had excludes nobody who has one. -/
theorem free_spec {w : Files} {k inode : Nat} {mode : Mode} (free : w.free k inode mode = true) :
    (∀ lock ∈ w.others, lock.1 = inode → mode = .shared ∧ lock.2 = .shared) ∧
      ∀ (j : Nat) (b : Opener), j ≠ k → w.openers[j]? = some b → b.holds = some inode →
        mode = .shared ∧ b.mode = .shared := by
  rw [Files.free,Bool.and_eq_true,List.all_eq_true,List.all_eq_true] at free
  refine ⟨fun lock member same => ?_,fun j b other found held => ?_⟩
  · have here := free.1 lock member
    simp only [same,bne_self_eq_false,Bool.false_or] at here
    exact compatible_shared here
  · have here := free.2 j (List.mem_range.mpr (List.getElem?_eq_some_iff.mp found).1)
    simp only [found,Option.all_some,held,bne_self_eq_false,Bool.false_or,Bool.or_eq_true,beq_iff_eq] at here
    exact compatible_shared (here.resolve_left other)

/-- Who has a lock on a file, and what those who only read have seen of it. -/
structure Guarded (w : Files) : Prop where
  apart : ∀ (j k : Nat) (a b : Opener) (inode : Nat), j ≠ k → w.openers[j]? = some a → w.openers[k]? = some b →
    a.holds = some inode → b.holds = some inode → a.mode = .shared ∧ b.mode = .shared
  outside : ∀ lock ∈ w.others, ∀ (k : Nat) (a : Opener), w.openers[k]? = some a → a.holds = some lock.1 →
    lock.2 = .shared ∧ a.mode = .shared
  size : ∀ (k : Nat) (a : Opener) (inode size : Nat), w.openers[k]? = some a → a.sized = some (inode,size) →
    0 < size ∧ size % 512 = 0
  header : ∀ (k : Nat) (a : Opener) (inode size : Nat), w.openers[k]? = some a → a.readonly = true →
    a.sized = some (inode,size) → validateHeader ((w.bytes inode).take 104) = .ok size

def Files.Unread (w : Files) (inode : Nat) : Prop :=
  ∀ (k : Nat) (a : Opener), w.openers[k]? = some a → a.holds = some inode → a.readonly = false

theorem mode_exclusive {o : Opener} : o.mode = .exclusive ↔ o.readonly = false := by
  obtain ⟨path,readonly,stage⟩ := o
  cases readonly <;> simp [Opener.mode]

namespace Guarded

variable {w : Files}

theorem set_cases {openers : List Opener} {k j : Nat} {o' b : Opener} (found : (openers.set k o')[j]? = some b) :
    (j = k ∧ b = o') ∨ (j ≠ k ∧ openers[j]? = some b) := by
  by_cases same : j = k
  · subst same
    rw [List.getElem?_set_self' ] at found
    obtain ⟨_,_,rfl⟩ := Option.map_eq_some_iff.mp found
    exact .inl ⟨rfl,rfl⟩
  · rw [List.getElem?_set_ne (fun here => same here.symm)] at found
    exact .inr ⟨same,found⟩

theorem put (guarded : Guarded w) {k : Nat} {o o' : Opener} (found : w.openers[k]? = some o) (moved : Moved w k o o') :
    Guarded (w.put k o') := by
  have mode : o'.mode = o.mode := by rw [Opener.mode,Opener.mode,moved.readonly]
  -- Who else has the file that the caller now has: it had it before, or it was free.
  have beside : ∀ inode, o'.holds = some inode →
      (∀ (j : Nat) (b : Opener), j ≠ k → w.openers[j]? = some b → b.holds = some inode →
        o'.mode = .shared ∧ b.mode = .shared) ∧
        ∀ lock ∈ w.others, lock.1 = inode → lock.2 = .shared ∧ o'.mode = .shared := by
    intro inode held
    rw [mode]
    rcases moved.holds with same | ⟨none,_⟩ | ⟨inode',_,now,free⟩
    · rw [same] at held
      exact ⟨fun j b other there here => (guarded.apart k j o b inode other.symm found there held here),
        fun lock member place => guarded.outside lock member k o found (place ▸ held)⟩
    · cases none.symm.trans held
    · cases now.symm.trans held
      obtain ⟨others,openers⟩ := free_spec free
      exact ⟨openers,fun lock member place => (others lock member place).symm⟩
  refine ⟨?_,?_,?_,?_⟩
  · intro i j a b inode other place place' held held'
    rcases set_cases place with ⟨rfl,rfl⟩ | ⟨elsewhere,old⟩ <;> rcases set_cases place' with ⟨rfl,rfl⟩ | ⟨elsewhere',old'⟩
    · exact absurd rfl other
    · exact (beside inode held).1 j b elsewhere' old' held'
    · exact ((beside inode held').1 i a elsewhere old held).symm
    · exact guarded.apart i j a b inode other old old' held held'
  · intro lock member j a place held
    rcases set_cases place with ⟨rfl,rfl⟩ | ⟨elsewhere,old⟩
    · exact (beside _ held).2 lock member rfl
    · exact guarded.outside lock member j a old held
  · intro j a inode size place sized
    rcases set_cases place with ⟨rfl,rfl⟩ | ⟨elsewhere,old⟩
    · rcases moved.sized with same | none | ⟨inode',size',now,valid⟩
      · exact guarded.size _ o inode size found (same ▸ sized)
      · cases none.symm.trans sized
      · cases now.symm.trans sized
        exact validateHeader_size valid
    · exact guarded.size j a inode size old sized
  · intro j a inode size place readonly sized
    rcases set_cases place with ⟨rfl,rfl⟩ | ⟨elsewhere,old⟩
    · rcases moved.sized with same | none | ⟨inode',size',now,valid⟩
      · exact guarded.header _ o inode size found (moved.readonly ▸ readonly) (same ▸ sized)
      · cases none.symm.trans sized
      · cases now.symm.trans sized
        exact valid
    · exact guarded.header j a inode size old readonly sized

theorem store (guarded : Guarded w) {inode : Nat} {bytes : List UInt8} (unread : w.Unread inode) :
    Guarded (w.store inode bytes) := by
  refine ⟨guarded.apart,guarded.outside,guarded.size,?_⟩
  intro k a inode' size found readonly sized
  have kept : inode' ≠ inode := by
    rintro rfl
    have writer := unread k a found (sized_holds sized)
    rw [readonly] at writer
    cases writer
  change validateHeader ((if inode' = inode then bytes else w.bytes inode').take 104) = .ok size
  rw [if_neg kept]
  exact guarded.header k a inode' size found readonly sized

/-- A disk that writes is alone with its file. -/
theorem writer_alone (guarded : Guarded w) {k inode : Nat} {o : Opener} (found : w.openers[k]? = some o)
    (writes : o.writes = some inode) : w.Unread inode := by
  obtain ⟨held,exclusive⟩ := writes_holds writes
  intro j a there here
  by_cases same : j = k
  · subst same
    cases found.symm.trans there
    exact mode_exclusive.mp exclusive
  · have shared := (guarded.apart k j o a inode (fun h => same h.symm) found there held here).1
    cases exclusive.symm.trans shared

/-- So is another program with an exclusive lock. -/
theorem stranger_alone (guarded : Guarded w) {lock : Nat × Mode} (member : lock ∈ w.others) (exclusive : lock.2 = .exclusive) :
    w.Unread lock.1 := by
  intro k a found held
  have shared := (guarded.outside lock member k a found held).1
  cases exclusive.symm.trans shared

theorem call (guarded : Guarded w) (path : String) (readonly : Bool) :
    Guarded {w with openers := w.openers ++ [⟨path,readonly,.opening⟩]} := by
  have old : ∀ {k : Nat} {a : Opener}, (w.openers ++ [⟨path,readonly,.opening⟩])[k]? = some a → a.holds ≠ none →
      w.openers[k]? = some a := by
    intro k a found held
    by_cases bound : k < w.openers.length
    · rwa [List.getElem?_append_left bound] at found
    · rw [List.getElem?_append_right (by omega)] at found
      obtain ⟨_,same⟩ := List.getElem?_eq_some_iff.mp found
      rw [List.getElem_singleton] at same
      subst same
      exact absurd rfl held
  have occupied : ∀ {a : Opener} {inode : Nat}, a.holds = some inode → a.holds ≠ none := by
    intro a inode held none
    cases held.symm.trans none
  refine ⟨?_,?_,?_,?_⟩
  · intro j k a b inode other place place' held held'
    exact guarded.apart j k a b inode other (old place (occupied held)) (old place' (occupied held')) held held'
  · intro lock member k a place held
    exact guarded.outside lock member k a (old place (occupied held)) held
  · intro k a inode size place sized
    exact guarded.size k a inode size (old place (occupied (sized_holds sized))) sized
  · intro k a inode size place readonly sized
    exact guarded.header k a inode size (old place (occupied (sized_holds sized))) readonly sized

theorem step (guarded : Guarded w) {turn : Turn} {w' : Files} (taken : Takes Files.next w turn w') : Guarded w' := by
  cases turn with
  | call path readonly =>
    cases taken
    exact guarded.call path readonly
  | open_ k answer =>
    obtain ⟨o,found,moved⟩ := Option.bind_eq_some_iff.mp taken
    obtain ⟨o',called,rfl⟩ := Option.map_eq_some_iff.mp moved
    exact guarded.put found (openStep_moved called)
  | write k bytes =>
    obtain ⟨o,found,written⟩ := Option.bind_eq_some_iff.mp taken
    obtain ⟨inode,writes,rfl⟩ := Option.map_eq_some_iff.mp written
    exact guarded.store (guarded.writer_alone found writes)
  | drop k =>
    obtain ⟨o,found,moved⟩ := Option.bind_eq_some_iff.mp taken
    obtain ⟨o',dropped,rfl⟩ := Option.map_eq_some_iff.mp moved
    exact guarded.put found (dropStep_moved dropped)
  | rename path target =>
    cases taken
    exact ⟨guarded.apart,guarded.outside,guarded.size,guarded.header⟩
  | lock inode mode =>
    obtain ⟨free,rfl⟩ := Lib.Runs.guarded taken
    refine ⟨guarded.apart,?_,guarded.size,guarded.header⟩
    intro lock member k a found held
    rcases List.mem_append.mp member with old | new
    · exact guarded.outside lock old k a found held
    · cases List.mem_singleton.mp new
      have here : k < w.openers.length := (List.getElem?_eq_some_iff.mp found).1
      exact (free_spec free).2 k a (Nat.ne_of_lt here) found held
  | unlock index =>
    cases taken
    exact ⟨guarded.apart,fun lock member => guarded.outside lock (List.mem_of_mem_eraseIdx member),guarded.size,guarded.header⟩
  | store index bytes =>
    obtain ⟨lock,found,stored⟩ := Option.bind_eq_some_iff.mp taken
    obtain ⟨exclusive,rfl⟩ := Lib.Runs.guarded stored
    exact guarded.store (guarded.stranger_alone (List.mem_of_getElem? found) exclusive)

end Guarded

section Reading
variable {w w' : Files} {turn : Turn} {k inode : Nat} {a : Opener}

theorem next_opener (taken : Takes Files.next w turn w') (found : w.openers[k]? = some a) :
    w'.openers[k]? = some a ∨ ∃ a', w'.openers[k]? = some a' ∧ Moved w k a a' := by
  have bound := (List.getElem?_eq_some_iff.mp found).1
  have replaced : ∀ {j : Nat} {o o' : Opener}, w.openers[j]? = some o → Moved w j o o' →
      (w.put j o').openers[k]? = some a ∨ ∃ a', (w.put j o').openers[k]? = some a' ∧ Moved w k a a' := by
    intro j o o' there moved
    by_cases same : j = k
    · subst same
      cases found.symm.trans there
      exact .inr ⟨o',List.getElem?_set_self bound,moved⟩
    · exact .inl ((List.getElem?_set_ne same).trans found)
  cases turn with
  | call path readonly =>
    cases taken
    exact .inl ((List.getElem?_append_left bound).trans found)
  | open_ j answer =>
    obtain ⟨o,there,moved⟩ := Option.bind_eq_some_iff.mp taken
    obtain ⟨o',called,rfl⟩ := Option.map_eq_some_iff.mp moved
    exact replaced there (openStep_moved called)
  | write j bytes =>
    obtain ⟨o,there,written⟩ := Option.bind_eq_some_iff.mp taken
    obtain ⟨i,writes,rfl⟩ := Option.map_eq_some_iff.mp written
    exact .inl found
  | drop j =>
    obtain ⟨o,there,moved⟩ := Option.bind_eq_some_iff.mp taken
    obtain ⟨o',dropped,rfl⟩ := Option.map_eq_some_iff.mp moved
    exact replaced there (dropStep_moved dropped)
  | rename path target =>
    cases taken
    exact .inl found
  | lock i mode =>
    obtain ⟨_,rfl⟩ := guarded taken
    exact .inl found
  | unlock index =>
    cases taken
    exact .inl found
  | store index bytes =>
    obtain ⟨lock,there,stored⟩ := Option.bind_eq_some_iff.mp taken
    obtain ⟨_,rfl⟩ := guarded stored
    exact .inl found

/-- A file that somebody only reads does not change. -/
theorem next_bytes (guards : Guarded w) (taken : Takes Files.next w turn w') (found : w.openers[k]? = some a)
    (readonly : a.readonly = true) (held : a.holds = some inode) : w'.bytes inode = w.bytes inode := by
  have stored : ∀ {i : Nat} {bytes : List UInt8}, w.Unread i → (w.store i bytes).bytes inode = w.bytes inode := by
    intro i bytes unread
    refine if_neg ?_
    rintro rfl
    cases readonly.symm.trans (unread k a found held)
  cases turn with
  | write j bytes =>
    obtain ⟨o,there,written⟩ := Option.bind_eq_some_iff.mp taken
    obtain ⟨i,writes,rfl⟩ := Option.map_eq_some_iff.mp written
    exact stored (guards.writer_alone there writes)
  | store index bytes =>
    obtain ⟨lock,there,written⟩ := Option.bind_eq_some_iff.mp taken
    obtain ⟨exclusive,rfl⟩ := guarded written
    exact stored (guards.stranger_alone (List.mem_of_getElem? there) exclusive)
  | call path readonly =>
    cases taken
    rfl
  | open_ j answer =>
    obtain ⟨o,there,moved⟩ := Option.bind_eq_some_iff.mp taken
    obtain ⟨o',called,rfl⟩ := Option.map_eq_some_iff.mp moved
    rfl
  | drop j =>
    obtain ⟨o,there,moved⟩ := Option.bind_eq_some_iff.mp taken
    obtain ⟨o',dropped,rfl⟩ := Option.map_eq_some_iff.mp moved
    rfl
  | rename path target =>
    cases taken
    rfl
  | lock i mode =>
    obtain ⟨_,rfl⟩ := guarded taken
    rfl
  | unlock index =>
    cases taken
    rfl

/-- Along a run a caller that only reads keeps its file as it is, or is done. -/
theorem reads_same (start : Guarded w) (found : w.openers[k]? = some a) (readonly : a.readonly = true)
    (held : a.holds = some inode) (reached : Reaches (Takes Files.next) w w') :
    ∃ a', w'.openers[k]? = some a' ∧
      (a'.Over ∨ a'.readonly = true ∧ a'.holds = some inode ∧ w'.bytes inode = w.bytes inode) := by
  induction reached with
  | refl => exact ⟨a,found,.inr ⟨readonly,held,rfl⟩⟩
  | @tail t u turn before taken ih =>
    obtain ⟨now,there,state⟩ := ih
    have guards : Guarded t := before.invariant start (fun _ _ _ guarded taken => guarded.step taken)
    rcases next_opener taken there with same | ⟨later,after,moved⟩
    · refine ⟨now,same,state.imp id (fun reads => ⟨reads.1,reads.2.1,?_⟩)⟩
      exact (next_bytes guards taken there reads.1 reads.2.1).trans reads.2.2
    · obtain ⟨reader,here,kept⟩ := state.resolve_left moved.going
      refine ⟨later,after,?_⟩
      rcases moved.holds with same | ⟨_,ended⟩ | ⟨_,none,_⟩
      · exact .inr ⟨moved.readonly.trans reader,same.trans here,(next_bytes guards taken there reader here).trans kept⟩
      · exact .inl ended
      · cases here.symm.trans none

end Reading

def Files.Quiet (w : Files) : Prop := w.openers = []

/-- In every state that any number of callers, renames and programs that respect the locks
can reach: two disks share a file only if both are read-only, a disk has a positive whole
number of sectors, the image of a read-only disk still has the header that was checked,
and its file does not change before the disk is gone. -/
theorem disks_exclusive {first w : Files} (quiet : first.Quiet) (reached : Reaches (Takes Files.next) first w) :
    (∀ (j k : Nat) (a b : Opener) (inode : Nat), j ≠ k → w.openers[j]? = some a → w.openers[k]? = some b →
      a.holds = some inode → b.holds = some inode → a.readonly = true ∧ b.readonly = true) ∧
    ∀ (k : Nat) (a : Opener) (inode size : Nat), w.openers[k]? = some a → a.stage = .live inode size →
      0 < size ∧ size % 512 = 0 ∧
      (a.readonly = true → validateHeader ((w.bytes inode).take 104) = .ok size ∧
        ∀ w', Reaches (Takes Files.next) w w' → ∃ a', w'.openers[k]? = some a' ∧
          (a'.Over ∨ a'.holds = some inode ∧ w'.bytes inode = w.bytes inode)) := by
  have start : Guarded first := by
    have none : ∀ {k : Nat} {a : Opener}, first.openers[k]? = some a → False := by
      intro k a found
      rw [quiet] at found
      cases found
    exact ⟨fun _ _ _ _ _ _ place => (none place).elim,fun _ _ _ _ place => (none place).elim,
      fun _ _ _ _ place => (none place).elim,fun _ _ _ _ place => (none place).elim⟩
  have guards : Guarded w := reached.invariant start (fun _ _ _ guarded taken => guarded.step taken)
  have shared_readonly : ∀ {o : Opener}, o.mode = .shared → o.readonly = true := by
    rintro ⟨path,readonly,stage⟩ shared
    cases readonly with
    | true => rfl
    | false => cases shared
  refine ⟨?_,?_⟩
  · intro j k a b inode other place place' held held'
    obtain ⟨first,second⟩ := guards.apart j k a b inode other place place' held held'
    exact ⟨shared_readonly first,shared_readonly second⟩
  · intro k a inode size found live
    have sized : a.sized = some (inode,size) := by rw [Opener.sized,live]
    obtain ⟨positive,sectors⟩ := guards.size k a inode size found sized
    refine ⟨positive,sectors,fun readonly => ⟨guards.header k a inode size found readonly sized,?_⟩⟩
    intro w' later
    obtain ⟨a',found',state⟩ := reads_same guards found readonly (sized_holds sized) later
    exact ⟨a',found',state.imp id (fun reads => reads.2)⟩

def oneSector : List UInt8 :=
  MAGIC ++ [0,0,0,3] ++ List.replicate 15 0 ++ [16] ++ List.replicate 6 0 ++ [2] ++ List.replicate 72 0 ++ [104]

def threeFiles : Files where
  resolve path := if path = "a" then some 1 else none
  regular _ := true
  bytes _ := oneSector
  others := []
  openers := []

def opens (k : Nat) : List Turn := List.replicate 8 (.open_ k (.ok 512))

/-- A writer opens `a`, which then names another file, that another program reads. A reader
opens that one, the writer writes, and a second reader finds `a` locked when it names the
first file again. -/
def openAll : List Turn :=
  [.call "a" false] ++ opens 0 ++ [.lock 2 .shared,.rename "a" (some 2),.call "a" true] ++ opens 1 ++
    [.write 0 (oneSector ++ [1]),.rename "a" (some 1),.call "a" true,.open_ 2 (.ok 0),.open_ 2 (.ok 0),
      .open_ 2 (.error ⟨"would block"⟩),.unlock 0,.lock 3 .exclusive,.store 0 [2]]

theorem disks_exclusive_renamed :
    ∃ w, run Files.next openAll threeFiles = some w ∧
      w.openers.map Opener.stage = [.live 1 512,.live 2 512,
        .failed (.operation "disk is already locked" "a" ⟨"would block"⟩)] ∧
      w.bytes 1 = oneSector ++ [1] ∧ w.bytes 3 = [2] ∧ validateHeader ((w.bytes 2).take 104) = .ok 512 ∧
      ∀ (k : Nat) (b : Opener), k ≠ 0 → w.openers[k]? = some b → b.holds ≠ some 1 := by
  have outcome : (run Files.next openAll threeFiles).map (fun w =>
      (w.openers.map (fun o => (o.readonly,o.stage)),w.bytes 1,w.bytes 3)) =
        some ([(false,.live 1 512),(true,.live 2 512),
          (true,.failed (.operation "disk is already locked" "a" ⟨"would block"⟩))],oneSector ++ [1],[2]) := by
    decide +kernel
  obtain ⟨w,ran,reached⟩ := Option.map_eq_some_iff.mp outcome
  obtain ⟨openers,contents⟩ := Prod.mk.inj reached
  obtain ⟨written,stored⟩ := Prod.mk.inj contents
  have quiet : threeFiles.Quiet := rfl
  obtain ⟨apart,checked⟩ := disks_exclusive quiet (reaches_of_run _ ran)
  have stages := congrArg (List.map Prod.snd) openers
  rw [List.map_map] at stages
  have opener : ∀ (k : Nat) (readonly : Bool) (stage : Stage),
      (w.openers.map (fun o => (o.readonly,o.stage)))[k]? = some (readonly,stage) →
        ∃ o, w.openers[k]? = some o ∧ o.readonly = readonly ∧ o.stage = stage := by
    intro k readonly stage listed
    rw [List.getElem?_map] at listed
    obtain ⟨o,found,same⟩ := Option.map_eq_some_iff.mp listed
    exact ⟨o,found,congrArg Prod.fst same,congrArg Prod.snd same⟩
  obtain ⟨writer,first,writes,live⟩ := opener 0 false (.live 1 512) (by rw [openers]; rfl)
  obtain ⟨reader,second,reads,opened⟩ := opener 1 true (.live 2 512) (by rw [openers]; rfl)
  refine ⟨w,ran,stages,written,stored,((checked 1 reader 2 512 second opened).2.2 reads).1,?_⟩
  intro k b other found held
  have both := apart 0 k writer b 1 (Ne.symm other) first found (by rw [Opener.holds,live]) held
  rw [writes] at both
  exact absurd both.1 (by decide)

end WVmm.Storage
