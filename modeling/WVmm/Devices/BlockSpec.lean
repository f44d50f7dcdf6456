import WVmm.Devices.Block
import WVmm.Devices.BufferSpec

/-! Specification of the block device: whatever a chain asks for, guest memory
changes only in writable descriptors of that chain and in the used ring, and the
only failures are those of an untrustworthy queue or status descriptor. -/
namespace WVmm.Devices
open Lib.Effect

structure BlockStorage.Obeys (B : Type) [BlockStorage B] (trust : Trust) : Prop where
  confined : ¬trust.wild → ∀ (disk : B) offset data host p,
    (BlockStorage.read disk offset data host).2.2 p ≠ host p → p ∈ hostBytes data
  reads : ¬trust.faults → ∀ (disk : B) offset data host, (BlockStorage.read disk offset data host).1 = .ok ()
  writes : ¬trust.faults → ∀ (disk : B) offset data host,
    (BlockStorage.write disk offset data host).1 = .ok ()
  flushes : ¬trust.faults → ∀ disk : B, (BlockStorage.flush disk).1 = .ok ()

inductive BlockStorage.Called {B : Type} [BlockStorage B] (disk : B) : B → Prop
  | read (offset : Nat) (data : List VolatileSlice) (host : Host) :
      Called disk (BlockStorage.read disk offset data host).2.1
  | write (offset : Nat) (data : List VolatileSlice) (host : Host) :
      Called disk (BlockStorage.write disk offset data host).2
  | flush : Called disk (BlockStorage.flush disk).2

namespace Block

variable {B : Type} {env : Env} {trust : Trust} {view : GuestMemoryMmap} {k : Nat}

structure Serving (env : Env) (view : GuestMemoryMmap) (k : Nat) (chain : Chain) (c : Cell (Block B)) :
    Prop where
  wired : Wired view 1 k c
  taken : Taken env view k 0 chain c
  id : c.device.id.length ≤ 20

theorem Serving.viewed {chain : Chain} (c : Cell (Block B)) (serving : Serving env view k chain c) :
    c.world.view = view := serving.wired.view

variable [BlockStorage B]

/-- Name and serial never change, and the disk changes by calls. -/
structure Keeps (d d' : Block B) : Prop where
  id : d'.id = d.id
  name : d'.name = d.name
  disk : Relation.ReflTransGen BlockStorage.Called d.disk d'.disk

instance : Kept (Keeps : Block B → Block B → Prop) where
  refl _ := ⟨rfl,rfl,.refl⟩
  trans _ _ _ first second :=
    ⟨second.id.trans first.id,second.name.trans first.name,first.disk.trans second.disk⟩

theorem Keeps.called {d : Block B} {disk : B} (called : BlockStorage.Called d.disk disk) :
    Keeps d {d with disk := disk} := ⟨rfl,rfl,.single called⟩

/-- A storage call that may fail only as far as the disk is not trusted. -/
theorem storage_acts {pre : Cell (Block B) → Prop} {r : Except StorageError Unit}
    (reliable : ¬trust.faults → r = .ok ()) :
    Acts env trust Keeps k pre (Prog.ofExcept (r.mapError (fun e => .error (.storage e))))
      (fun _ _ => True) := by
  refine Acts.ofExcept (fun _ _ => trivial) ?_
  intro f failed
  cases r with
  | ok _ => cases failed
  | error e =>
    cases failed
    refine ⟨_,rfl,.inr ?_⟩
    by_contra never
    cases reliable never

variable {pre : Cell (Block B) → Prop}

theorem Serving.lasting {chain : Chain} :
    Lasting env trust Keeps k (Serving env view k chain : Cell (Block B) → Prop) :=
  fun c c' moves serving => ⟨.lasting c c' moves serving.wired,.lasting c c' moves serving.taken,
    moves.device.id ▸ serving.id⟩

/-- Every byte after the header lies in one of the payload descriptors. -/
theorem payload_covers {remaining : Nat} {descriptors data : List Descriptor}
    (found : payload remaining descriptors = .ok data) :
    ∀ a ∈ (guestBytes descriptors).drop remaining,
      ∃ d ∈ data, d ∈ descriptors ∧ a ∈ List.range' d.addr d.len := by
  induction descriptors generalizing remaining data with
  | nil =>
    intro a inside
    simp [guestBytes] at inside
  | cons d rest ih =>
    simp only [payload] at found
    split at found
    · cases found
    · split at found
      · cases found
      · rename_i data' later
        cases found
        intro a inside
        have bytes : guestBytes (d::rest) = List.range' d.addr d.len ++ guestBytes rest := rfl
        rw [bytes,List.drop_append,List.length_range',List.mem_append] at inside
        rcases inside with here | there
        · have longer : d.len > min remaining d.len := by
            by_contra short
            rw [List.drop_eq_nil_of_le (by rw [List.length_range']; omega)] at here
            cases here
          rw [if_pos longer]
          exact ⟨d,List.mem_cons_self,List.mem_cons_self,List.mem_of_mem_drop here⟩
        · have same : remaining - min remaining d.len = remaining - d.len := by omega
          obtain ⟨e,listed,member,holds⟩ := ih later a (by rwa [same])
          refine ⟨e,?_,List.mem_cons_of_mem _ member,holds⟩
          split
          · exact List.mem_cons_of_mem _ listed
          · exact listed

theorem payload_refuses {remaining : Nat} {descriptors : List Descriptor} {e : DeviceError}
    (refused : payload remaining descriptors = .error e) : e = .invalidBlockHeaderStatus := by
  induction descriptors generalizing remaining with
  | nil => cases refused
  | cons d rest ih =>
    simp only [payload] at refused
    split at refused
    · cases refused
      rfl
    · split at refused
      · rename_i e' later
        cases refused
        exact ih later
      · cases refused

theorem bounds_acts (faulty : trust.faults) (size offset len : Nat) :
    Acts env trust Keeps k pre (Prog.ofExcept ((Storage.bounds size offset len).mapError
      (fun e => .error (.storage e)))) (fun _ _ => True) :=
  storage_acts (fun never => absurd faulty never)

/-- The status byte is written where the chain grants it. -/
theorem status_acts (lawful : env.vm.Lawful) {chain : Chain} {status : Descriptor}
    (listed : status ∈ chain.descriptors) (writable : status.isWriteOnly = true) (one : status.len = 1)
    (value : UInt8) :
    Acts env trust Keeps k (Serving env view k chain)
      (Cell.onWorld (World.writeSlice env status.addr [value])) (fun _ (_ : Cell (Block B)) => True) := by
  refine Acts.write Serving.viewed ?_ (Buffers.writeSlice_writes lawful status.addr [value])
  rintro c serving p ⟨i,less,backs⟩
  rw [serving.wired.view]
  exact ⟨0,chain,serving.taken.popped,status,listed,writable,i,by rw [one]; exact less,backs⟩

structure Idle (view : GuestMemoryMmap) (k : Nat) (c : Cell (Block B)) : Prop where
  wired : Wired view 1 k c
  id : c.device.id.length ≤ 20

theorem Idle.lasting : Lasting env trust Keeps k (Idle view k : Cell (Block B) → Prop) :=
  fun c c' moves idle => ⟨.lasting c c' moves idle.wired,
    moves.device.id ▸ idle.id⟩

theorem diskRead_acts (obeys : BlockStorage.Obeys B trust) (lasting : Lasting env trust Keeps k pre)
    (viewed : ∀ c, pre c → c.world.view = view) {offset : Nat} {data : List VolatileSlice}
    (granted : ∀ c, pre c → Granted k (hostBytes data) c) :
    Acts env trust Keeps k pre (diskRead env offset data) (fun _ _ => True) := by
  refine Acts.bind lasting (Acts.look viewed .observe) (fun _ _ => Acts.get (fun c here => ?_))
  have reliable := fun never => obeys.reads never c.device.disk offset data c.world.host
  have confined := fun tame => obeys.confined tame c.device.disk offset data c.world.host
  have called : BlockStorage.Called c.device.disk _ := .read offset data c.world.host
  generalize BlockStorage.read c.device.disk offset data c.world.host = outcome at reliable confined called ⊢
  obtain ⟨r,disk,host⟩ := outcome
  refine Acts.change lasting ?_ (Acts.bind lasting (Acts.record _) (fun _ _ => storage_acts reliable))
  intro here
  refine ⟨List.prefix_refl _,⟨rfl,rfl,rfl,⟨[],rfl⟩,?_⟩,.refl _,rfl,.inl rfl,.called called⟩
  intro p _ outside
  rw [not_or] at outside
  by_contra changed
  exact outside.2 (.inr (granted c here p (confined outside.1 p changed)))

theorem diskWrite_acts (obeys : BlockStorage.Obeys B trust) (lasting : Lasting env trust Keeps k pre)
    (viewed : ∀ c, pre c → c.world.view = view) {offset : Nat} {data : List VolatileSlice} :
    Acts env trust Keeps k pre (diskWrite env offset data) (fun _ _ => True) := by
  refine Acts.bind lasting (Acts.look viewed .observe) (fun _ _ => Acts.get (fun c here => ?_))
  have reliable := fun never => obeys.writes never c.device.disk offset data c.world.host
  have called : BlockStorage.Called c.device.disk _ := .write offset data c.world.host
  generalize BlockStorage.write c.device.disk offset data c.world.host = outcome at reliable called ⊢
  obtain ⟨r,disk⟩ := outcome
  refine Acts.change lasting ?_ (Acts.bind lasting (Acts.record _) (fun _ _ => storage_acts reliable))
  exact fun _ => .setDevice (.called called)

theorem diskFlush_acts (obeys : BlockStorage.Obeys B trust) (lasting : Lasting env trust Keeps k pre) :
    Acts env trust Keeps k pre diskFlush (fun _ _ => True) := by
  refine Acts.get (fun c here => ?_)
  have reliable := fun never => obeys.flushes never c.device.disk
  have called : BlockStorage.Called c.device.disk _ := .flush
  generalize BlockStorage.flush c.device.disk = outcome at reliable called ⊢
  obtain ⟨r,disk⟩ := outcome
  refine Acts.change lasting ?_ (Acts.bind lasting (Acts.record _) (fun _ _ => storage_acts reliable))
  exact fun _ => .setDevice (.called called)

theorem writeThrough_acts (obeys : BlockStorage.Obeys B trust) (lasting : Lasting env trust Keeps k pre)
    (negotiated : BitVec 64) :
    Acts env trust Keeps k pre (writeThrough negotiated) (fun _ _ => True) := by
  unfold writeThrough
  split
  · exact diskFlush_acts obeys lasting
  · exact Acts.pure (fun _ _ => trivial)

theorem transfer_acts (obeys : BlockStorage.Obeys B trust) (faulty : trust.faults)
    (lasting : Lasting env trust Keeps k pre) (viewed : ∀ c, pre c → c.world.view = view) (read : Bool)
    (sector total : Nat) {data : List Descriptor} {buffers : List VolatileSlice} (negotiated : BitVec 64)
    (granted : data.all (·.isWriteOnly) = true → ∀ c, pre c → Granted k (hostBytes buffers) c) :
    Acts env trust Keeps k pre (transfer env read sector total data buffers negotiated)
      (fun _ _ => True) := by
  refine Acts.bind lasting (Acts.require _ rfl) (fun _ directed => ?_)
  refine Acts.bind lasting (Acts.require _ rfl) (fun _ _ => Acts.glance (fun c _ => ?_))
  refine Acts.bind lasting (Acts.require _ rfl) (fun _ _ => Acts.bind lasting (Acts.require _ rfl) (fun _ _ => ?_))
  cases checkedMul sector 512 with
  | none => exact Acts.fail rfl
  | some offset =>
    refine Acts.bind lasting (bounds_acts faulty _ _ _) (fun _ _ => ?_)
    cases read with
    | true =>
      have writable : data.all (·.isWriteOnly) = true := by simpa using directed
      exact Acts.bind lasting (diskRead_acts obeys lasting viewed (granted writable))
        (fun _ _ => Acts.pure (fun _ _ => trivial))
    | false =>
      exact Acts.bind lasting (diskWrite_acts obeys lasting viewed) (fun _ _ =>
        Acts.bind lasting (writeThrough_acts obeys lasting negotiated) (fun _ _ =>
          Acts.pure (fun _ _ => trivial)))

theorem execute_acts (lawful : env.vm.Lawful) (obeys : BlockStorage.Obeys B trust)
    (faulty : trust.faults) {chain : Chain} {request : List Descriptor}
    (part : ∀ d ∈ request, d ∈ chain.descriptors) (negotiated : BitVec 64) :
    Acts env trust Keeps k (Serving env view k chain) (execute env request negotiated)
      (fun _ (_ : Cell (Block B)) => True) := by
  have lasting : Lasting env trust Keeps k (Serving env view k chain : Cell (Block B) → Prop) :=
    Serving.lasting
  have viewed := @Serving.viewed B env view k chain
  refine Acts.glance (fun c here => Acts.bind lasting (Acts.foreign (fun _ => rfl)) (fun all sliced => ?_))
  rw [here.wired.view] at sliced
  have backed := Buffers.slices_backed lawful sliced
  have length := backed.length_eq
  cases total : Buffers.totalLength request with
  | none => exact Acts.fail rfl
  | some n =>
    have counted := Buffers.totalLength_eq total
    refine Acts.bind lasting (Acts.require _ rfl) (fun _ long => ?_)
    refine Acts.bind lasting (Acts.judged (fun e refused => payload_refuses refused ▸ rfl))
      (fun data found => ?_)
    refine Acts.bind lasting (Acts.look viewed (Buffers.copyTo_looks (by omega))) (fun h _ => ?_)
    obtain ⟨buffers,ranged,covers⟩ := @Buffers.range_covers all 16 (n - 16) (by omega)
    have granted : data.all (·.isWriteOnly) = true → ∀ c, Serving env view k chain c →
        Granted k (hostBytes buffers) (c : Cell (Block B)) := by
      intro writable c serving
      rw [covers]
      refine serving.taken.grants serving.wired.view
        (List.forall₂_take _ (List.forall₂_drop 16 backed)) ?_
      intro a inside
      obtain ⟨d,listed,member,holds⟩ := payload_covers found a (List.mem_of_mem_take inside)
      exact ⟨d,part d member,List.all_eq_true.mp writable d listed,holds⟩
    rw [ranged]
    refine Acts.bind lasting Acts.given (fun _ same => ?_)
    subst same
    split
    · exact transfer_acts obeys faulty lasting viewed _ _ _ negotiated granted
    split
    · exact Acts.bind lasting (Acts.require _ rfl) (fun _ _ => Acts.bind lasting
        (diskFlush_acts obeys lasting) (fun _ _ => Acts.pure (fun _ _ => trivial)))
    split
    · refine Acts.bind lasting (Acts.require _ rfl) (fun _ asked => Acts.glance (fun c here => ?_))
      rw [Bool.and_eq_true,decide_eq_true_iff] at asked
      refine Acts.bind lasting (Acts.copyFrom viewed ?_ (granted asked.2))
        (fun _ _ => Acts.pure (fun _ _ => trivial))
      rw [covers,List.length_take,List.length_drop]
      have := here.id
      omega
    · exact Acts.pure (fun _ _ => trivial)

theorem BlockStorage.Obeys.relax (obeys : BlockStorage.Obeys B trust) :
    BlockStorage.Obeys B ⟨True,trust.wild⟩ :=
  ⟨obeys.confined,fun never => absurd trivial never,fun never => absurd trivial never,
    fun never => absurd trivial never⟩

theorem request_acts (lawful : env.vm.Lawful) (obeys : BlockStorage.Obeys B trust) {chain : Chain}
    (negotiated : BitVec 64) :
    Acts env trust Keeps k (Serving env view k chain) (request env chain.descriptors negotiated)
      (fun _ (_ : Cell (Block B)) => True) := by
  have lasting : Lasting env trust Keeps k (Serving env view k chain : Cell (Block B) → Prop) :=
    Serving.lasting
  unfold request
  cases last : chain.descriptors.getLast? with
  | none => exact Acts.fail rfl
  | some status =>
    have listed := List.mem_of_getLast? last
    refine Acts.bind lasting (Acts.look Serving.viewed (Looks.checkRange _ _)) (fun inRange _ => ?_)
    refine Acts.bind lasting (Acts.require _ rfl) (fun _ sound => ?_)
    rw [Bool.and_eq_true,Bool.and_eq_true,beq_iff_eq] at sound
    have executed : Acts env ⟨True,trust.wild⟩ Keeps k (Serving env view k chain)
        (execute env chain.descriptors.dropLast negotiated) (fun _ (_ : Cell (Block B)) => True) :=
      execute_acts lawful (BlockStorage.Obeys.relax obeys) trivial
        (fun d member => List.dropLast_subset _ member) negotiated
    refine Acts.bind lasting (Acts.answered executed) (fun r clean => ?_)
    rcases r with (e | p) | ⟨value,used⟩
    · exact Acts.bind lasting (status_acts lawful listed sound.1.1 sound.1.2 _)
        (fun _ _ => Acts.pure (fun _ _ => trivial))
    · exact absurd rfl (clean p)
    · exact Acts.bind lasting (status_acts lawful listed sound.1.1 sound.1.2 _)
        (fun _ _ => Acts.pure (fun _ _ => trivial))

theorem serve_acts (lawful : env.vm.Lawful) (lawful' : env.vq.Lawful)
    (obeys : BlockStorage.Obeys B trust) (count : Nat) :
    Acts env trust Keeps k (Idle view k) (serve env count) (fun _ (_ : Cell (Block B)) => True) := by
  induction count with
  | zero => exact Acts.pure (fun _ _ => trivial)
  | succ count ih =>
    refine Acts.step Idle.lasting ((Queues.pop_acts lawful' Nat.zero_lt_one).enter (fun _ idle => idle.wired))
      (fun popped => ?_)
    cases popped with
    | none => exact Acts.fail rfl
    | some chain =>
      refine Acts.enter ?_ (fun c here =>
        (⟨here.1.wired,here.2 chain rfl,here.1.id⟩ : Serving env view k chain c))
      refine Acts.glance (fun c _ => ?_)
      refine Acts.bind Serving.lasting (request_acts lawful obeys _) (fun used _ => ?_)
      refine Acts.bind Serving.lasting ((Queues.complete_acts lawful' chain.head used).enter
        (fun _ serving => serving.taken.ready)) (fun _ _ => ?_)
      exact ih.enter (fun _ serving => ⟨serving.wired,serving.id⟩)

theorem notify_acts (lawful : env.vm.Lawful) (lawful' : env.vq.Lawful)
    (obeys : BlockStorage.Obeys B trust) (queue : Nat) :
    Acts env trust Keeps k (Idle view k) (notify env queue) (fun _ (_ : Cell (Block B)) => True) :=
  Acts.bind Idle.lasting (((Queues.available_acts Nat.zero_lt_one).enter (fun _ idle => idle.wired)).mono
    (fun _ _ _ => trivial)) (fun count _ => serve_acts lawful lawful' obeys count)

end Block
end WVmm.Devices
