import WVmm.Devices.Registers
import WVmm.Lib.Runs

/-! The negotiation of a virtio-mmio transport over whole runs: register writes of
any value, notifications, polls and contained errors, with guest memory moving in
between. -/
namespace WVmm.Devices
open Lib.Effect Lib.Runs

section Bits
variable {w : Nat} {a b c m : BitVec w}

theorem bits_trans (first : a &&& b = a) (second : b &&& c = b) : a &&& c = a := by
  calc a &&& c = (a &&& b) &&& c := by rw [first]
    _ = a &&& (b &&& c) := BitVec.and_assoc _ _ _
    _ = a := by rw [second,first]

theorem bits_or (a b : BitVec w) : a &&& (a ||| b) = a := by
  ext i bound
  simp only [BitVec.getElem_and,BitVec.getElem_or]
  cases a[i] <;> rfl

/-- Clearing bits that are clear. -/
theorem bits_without (clear : a &&& m = 0#w) : a &&& ~~~m = a := by
  ext i bound
  have bit : (a &&& m)[i] = (0#w)[i] := by rw [clear]
  rw [BitVec.getElem_and,BitVec.getElem_zero] at bit
  rw [BitVec.getElem_and,BitVec.getElem_not]
  revert bit
  cases a[i] <;> cases m[i] <;> simp

/-- Setting bits that are not asked for. -/
theorem bits_beside (a : BitVec w) (apart : b &&& m = 0#w) : (a ||| b) &&& m = a &&& m := by
  ext i bound
  have bit : (b &&& m)[i] = (0#w)[i] := by rw [apart]
  rw [BitVec.getElem_and,BitVec.getElem_zero] at bit
  rw [BitVec.getElem_and,BitVec.getElem_or,BitVec.getElem_and]
  revert bit
  cases a[i] <;> cases b[i] <;> cases m[i] <;> simp

theorem bits_set (inside : a &&& b = a) (set : a &&& m ≠ 0#w) : b &&& m ≠ 0#w := by
  intro clear
  refine set ?_
  rw [← inside,BitVec.and_assoc,clear,BitVec.and_zero]

end Bits

def Sized (q : Queue) : Prop := 0 < q.size ∧ q.size ≤ MAX_QUEUE ∧ q.size.isPowerOfTwo

structure SameConfig (q q' : Queue) : Prop where
  size : q'.size = q.size
  descTable : q'.descTable = q.descTable
  availRing : q'.availRing = q.availRing
  usedRing : q'.usedRing = q.usedRing

theorem SameConfig.refl (q : Queue) : SameConfig q q := ⟨rfl,rfl,rfl,rfl⟩

theorem SameConfig.trans {q q' q'' : Queue} (first : SameConfig q q') (second : SameConfig q' q'') :
    SameConfig q q'' :=
  ⟨second.size.trans first.size,second.descTable.trans first.descTable,
    second.availRing.trans first.availRing,second.usedRing.trans first.usedRing⟩

/-- What happens to a ring before a reset. While the driver runs it keeps its
configuration and is not enabled; a ready one keeps its configuration anyway. -/
structure RingKept (running : Prop) (q q' : Queue) : Prop where
  maxSize : q'.maxSize = q.maxSize
  sized : Sized q → Sized q'
  config : q.ready = true ∨ running → SameConfig q q'
  disabled : running → q'.ready = true → q.ready = true

namespace RingKept

variable {running : Prop} {q q' q'' : Queue}

theorem refl (q : Queue) : RingKept running q q := ⟨rfl,id,fun _ => .refl q,fun _ => id⟩

theorem ofSame (same : SameRing q q') : RingKept running q q' := by
  rw [same]
  exact ⟨rfl,id,fun _ => ⟨rfl,rfl,rfl,rfl⟩,fun _ => id⟩

theorem ofRewired {env : Env} {view : GuestMemoryMmap} (change : Rewired env view q q')
    (early : ¬running ∨ q' = {q with ready := false})
    (idle : q.ready = false ∨ q' = {q with ready := false}) : RingKept running q q' := by
  by_cases off : q' = {q with ready := false}
  · rw [off]
    exact ⟨rfl,id,fun _ => ⟨rfl,rfl,rfl,rfl⟩,fun _ ready => by cases ready⟩
  · have stopped := early.resolve_right off
    have clear := idle.resolve_right off
    have never : ¬(q.ready = true ∨ running) := by
      rintro (ready | run)
      · rw [clear] at ready
        cases ready
      · exact stopped run
    refine ⟨?_,?_,fun holds => absurd holds never,fun run => absurd run stopped⟩
    · cases change <;> rfl
    · cases change with
      | size n positive bounded power => exact fun _ => ⟨positive,bounded,power⟩
      | _ => exact id

end RingKept
variable {D : Type} [VirtioDevice D] {env : Env}

structure Sits (fits : D → Prop) (c : Cell D) : Prop where
  fits : fits c.device
  count : c.queues.rings.length = VirtioDevice.queueCount c.device
  sized : ∀ q ∈ c.queues.rings, 0 < q.size

/-- What a device may change of its transport when it runs: the indices of its
rings and the first interrupt bit. -/
structure Advances (fits : D → Prop) (c c' : Cell D) : Prop where
  rings : SameRings c.queues.rings c'.queues.rings
  negotiated : c'.queues.negotiated = c.queues.negotiated
  fits : fits c'.device
  count : VirtioDevice.queueCount c'.device = VirtioDevice.queueCount c.device
  required : VirtioDevice.requiredFeatures c'.device = VirtioDevice.requiredFeatures c.device

/-- A device that leaves the configuration of its transport alone. -/
class LawfulDevice (D : Type) [VirtioDevice D] extends ResetsAlone D where
  fits : D → Prop
  reset_advances : ∀ c : Cell D, Sits fits c → Advances fits c (VirtioDevice.reset.run c).2
  notify_advances : ∀ env : Env, env.vm.Lawful → env.vq.Lawful → ∀ (c : Cell D) (queue : Nat),
    Sits fits c → queue < c.queues.rings.length → Advances fits c ((VirtioDevice.notify env queue).run c).2
  poll_advances : ∀ env : Env, env.vm.Lawful → env.vq.Lawful → ∀ c : Cell D,
    Sits fits c → Advances fits c ((VirtioDevice.poll env).run c).2

section Kinds
variable {B N : Type} [BlockStorage B] [NetDevice N]

/-- Backends of which nothing is known. -/
theorem Device.Obeys.unknown : Device.Obeys B N ⟨True,True⟩ :=
  ⟨⟨fun tame => absurd trivial tame,fun never => absurd trivial never,fun never => absurd trivial never,
      fun never => absurd trivial never⟩,
    fun tame => absurd trivial tame,fun never => absurd trivial never,fun never => absurd trivial never⟩

theorem Device.Keeps.kind {d d' : Device B N} (kept : Device.Keeps d d') :
    VirtioDevice.queueCount d' = VirtioDevice.queueCount d ∧
      VirtioDevice.requiredFeatures d' = VirtioDevice.requiredFeatures d := by
  cases kept <;> exact ⟨rfl,rfl⟩

theorem Advances.ofMoves {c c' : Cell (Device B N)} (sits : Sits Device.Fits c)
    (moves : Cell.Moves env ⟨True,True⟩ Device.Keeps c.trace.length c c') : Advances Device.Fits c c' :=
  ⟨moves.rings,moves.negotiated,moves.device.fits sits.fits,moves.device.kind.1,moves.device.kind.2⟩

theorem Sits.idle {c : Cell (Device B N)} (sits : Sits Device.Fits c) :
    Device.Idle c.world.view c.trace.length c :=
  ⟨⟨rfl,sits.count,Nat.le_refl _,sits.sized⟩,sits.fits⟩

instance : LawfulDevice (Device B N) where
  fits := Device.Fits
  reset_advances c sits := by
    have fits := sits.fits
    rw [Device.reset_run]
    cases kind : c.device with
    | block d =>
      rw [kind] at fits
      exact ⟨.refl _,rfl,fits,by rw [kind]; rfl,by rw [kind]; rfl⟩
    | net d =>
      rw [kind] at fits
      exact ⟨.refl _,rfl,fits,by rw [kind]; rfl,by rw [kind]; rfl⟩
    | mem d => exact ⟨.refl _,rfl,trivial,by rw [kind],by rw [kind]⟩
  notify_advances env lawful lawful' c queue sits bound :=
    .ofMoves sits (Device.notify_acts lawful lawful' .unknown queue c ⟨sits.idle,bound⟩).1
  poll_advances env lawful lawful' c sits :=
    .ofMoves sits (Device.poll_acts lawful lawful' .unknown c sits.idle).1

end Kinds

/-- What can happen to a transport. A notification is a register write; guest
memory may become anything in between. -/
inductive Event
  | write (offset : Nat) (value : BitVec 32)
  | poll
  | contained (result : Except (Failure DeviceError) Unit)
  | memory (w : World)

namespace Slot

def after (env : Env) (s : Slot D) : Event → Slot D
  | .write offset value => ((Mmio.write env offset value).run s).2
  | .poll => ((Mmio.poll env).run s).2
  | .contained result => ((Mmio.contain result).run s).2
  | .memory w => {s with world := w}

def Resets (s : Slot D) (event : Event) : Prop :=
  event = .write 0x70 0 ∧ (VirtioDevice.reset.run s.cell).1 = .ok ()

def Running (s : Slot D) : Prop := s.mmio.status &&& DRIVER_OK ≠ 0

/-- The features a device is driven with: offered, modern and all it requires. -/
def Accepted (s : Slot D) : Prop :=
  s.mmio.queues.negotiated &&& ~~~s.mmio.features = 0 ∧ s.mmio.queues.negotiated &&& VERSION_1 ≠ 0 ∧
    s.mmio.queues.negotiated &&& VirtioDevice.requiredFeatures s.mmio.device =
      VirtioDevice.requiredFeatures s.mmio.device

end Slot

def Happens (env : Env) (s : Slot D) (event : Event) (t : Slot D) : Prop := t = s.after env event

theorem reaches_events (s : Slot D) (events : List Event) :
    Reaches (Happens env) s (events.foldl (Slot.after env) s) := by
  have general : ∀ t, Reaches (Happens env) s t → Reaches (Happens env) s (events.foldl (Slot.after env) t) := by
    induction events with
    | nil => exact fun _ reached => reached
    | cons event rest ih => exact fun t reached => ih _ (reached.tail event rfl)
  exact general s .refl

variable [LawfulDevice D]

structure Agreed (s : Slot D) : Prop where
  sits : Sits LawfulDevice.fits s.cell
  rings : ∀ q ∈ s.mmio.queues.rings, q.maxSize = MAX_QUEUE ∧ Sized q
  accepted : s.mmio.status &&& FEATURES_OK ≠ 0 → s.Accepted
  running : s.Running → s.mmio.status &&& 0xb = 0xb

structure Evolves (env : Env) (s t : Slot D) : Prop where
  status : s.mmio.status &&& t.mmio.status = s.mmio.status
  features : t.mmio.features = s.mmio.features
  frozen : s.mmio.status &&& FEATURES_OK ≠ 0 → t.mmio.queues.negotiated = s.mmio.queues.negotiated
  checked : s.mmio.status &&& FEATURES_OK = 0 → t.mmio.status &&& FEATURES_OK ≠ 0 → t.Accepted
  started : ¬s.Running → t.Running → t.mmio.status &&& 0xb = 0xb ∧ t.mmio.queues = s.mmio.queues ∧
    ∀ q ∈ s.mmio.queues.rings, env.vq.isValid q s.world.view = true
  rings : List.Forall₂ (RingKept s.Running) s.mmio.queues.rings t.mmio.queues.rings
  fits : LawfulDevice.fits t.mmio.device
  count : VirtioDevice.queueCount t.mmio.device = VirtioDevice.queueCount s.mmio.device
  required : VirtioDevice.requiredFeatures t.mmio.device = VirtioDevice.requiredFeatures s.mmio.device

theorem Evolves.agreed {s t : Slot D} (evolves : Evolves env s t) (agreed : Agreed s) : Agreed t := by
  have rings : ∀ q ∈ t.mmio.queues.rings, q.maxSize = MAX_QUEUE ∧ Sized q := by
    have kept := evolves.rings
    have before := agreed.rings
    revert kept before
    generalize s.mmio.queues.rings = rings
    generalize t.mmio.queues.rings = rings'
    intro kept
    induction kept with
    | nil => simp
    | cons first _ ih =>
      intro before q member
      rcases List.mem_cons.mp member with rfl | later
      · exact ⟨first.maxSize.trans (before _ List.mem_cons_self).1,
          first.sized (before _ List.mem_cons_self).2⟩
      · exact ih (fun q inside => before q (List.mem_cons_of_mem _ inside)) q later
  refine ⟨⟨evolves.fits,?_,fun q member => (rings q member).2.1⟩,rings,?_,?_⟩
  · exact evolves.rings.length_eq.symm.trans (agreed.sits.count.trans evolves.count.symm)
  · intro set
    by_cases before : s.mmio.status &&& FEATURES_OK = 0
    · exact evolves.checked before set
    · have accepted := agreed.accepted before
      unfold Slot.Accepted at accepted ⊢
      rwa [evolves.frozen before,evolves.features,evolves.required]
  · intro running
    by_cases before : s.Running
    · have grown := bits_trans (show (0xb : BitVec 32) &&& s.mmio.status = 0xb by
        rw [BitVec.and_comm]; exact agreed.running before) evolves.status
      rwa [BitVec.and_comm] at grown
    · exact (evolves.started before running).1

theorem forall₂_kept {running : Prop} (rings : List Queue) : List.Forall₂ (RingKept running) rings rings :=
  List.forall₂_same.mpr (fun q _ => .refl q)

namespace Evolves

variable {s t : Slot D}

theorem still (status : t.mmio.status = s.mmio.status) (features : t.mmio.features = s.mmio.features)
    (frozen : s.mmio.status &&& FEATURES_OK ≠ 0 → t.mmio.queues.negotiated = s.mmio.queues.negotiated)
    (rings : List.Forall₂ (RingKept s.Running) s.mmio.queues.rings t.mmio.queues.rings)
    (fits : LawfulDevice.fits t.mmio.device)
    (count : VirtioDevice.queueCount t.mmio.device = VirtioDevice.queueCount s.mmio.device)
    (required : VirtioDevice.requiredFeatures t.mmio.device = VirtioDevice.requiredFeatures s.mmio.device) :
    Evolves env s t := by
  refine ⟨?_,features,frozen,?_,?_,rings,fits,count,required⟩
  · rw [status,BitVec.and_self]
  · intro clear set
    rw [status] at set
    exact absurd clear set
  · intro stopped running
    unfold Slot.Running at running
    rw [status] at running
    exact absurd running stopped

theorem ofAdvances {c : Cell D} (advances : Advances LawfulDevice.fits s.cell c) :
    Evolves env s (s.putCell c) :=
  still rfl rfl (fun _ => advances.negotiated) (advances.rings.imp (fun _ _ => .ofSame)) advances.fits
    advances.count advances.required

/-- A guest error of the device after an event that left the status alone. -/
theorem isolate (evolves : Evolves env s t) (status : t.mmio.status = s.mmio.status) :
    Evolves env s (Mmio.isolated t) := by
  have next : (Mmio.isolated t).mmio.status = s.mmio.status ||| NEEDS_RESET := by
    simp only [Mmio.isolated,Slot.withMmio,Mmio.isolate,status]
    split <;> rfl
  have queues : (Mmio.isolated t).mmio.queues.negotiated = t.mmio.queues.negotiated ∧
      (Mmio.isolated t).mmio.queues.rings = t.mmio.queues.rings ∧
      (Mmio.isolated t).mmio.features = t.mmio.features ∧
      (Mmio.isolated t).mmio.device = t.mmio.device := by
    simp only [Mmio.isolated,Slot.withMmio,Mmio.isolate]
    split <;> exact ⟨rfl,rfl,rfl,rfl⟩
  refine ⟨?_,queues.2.2.1.trans evolves.features,?_,?_,?_,?_,?_,?_,?_⟩
  · rw [next]
    exact bits_or _ _
  · rw [queues.1]
    exact evolves.frozen
  · intro clear set
    rw [next,bits_beside _ (by decide)] at set
    exact absurd clear set
  · intro stopped running
    unfold Slot.Running at running
    rw [next,bits_beside _ (by decide)] at running
    exact absurd running stopped
  · rw [queues.2.1]
    exact evolves.rings
  · rw [queues.2.2.2]
    exact evolves.fits
  · rw [queues.2.2.2]
    exact evolves.count
  · rw [queues.2.2.2]
    exact evolves.required

end Evolves

/-- A run of the device, with its error contained. -/
theorem ran_evolves {s : Slot D} {p : Prog (Cell D) (Failure DeviceError) Unit}
    (advances : Advances LawfulDevice.fits s.cell (p.run s.cell).2) : Evolves env s (Mmio.ran s p).2 := by
  have moved : Evolves env s (s.putCell (p.run s.cell).2) := .ofAdvances advances
  rcases Mmio.settled_slot (s.putCell (p.run s.cell).2) (p.run s.cell).1 with same | isolated
  · exact same ▸ moved
  · exact isolated ▸ moved.isolate rfl

/-- A status write that is accepted. -/
theorem status_evolves {s : Slot D} {value : BitVec 32} (agreed : Agreed s)
    (grown : value &&& s.mmio.status = s.mmio.status)
    (ready : s.mmio.acceptedStatus value &&& DRIVER_OK ≠ 0 → s.mmio.status &&& DRIVER_OK = 0 →
      s.mmio.acceptedStatus value &&& 0xb = 0xb ∧
        ∀ q ∈ s.mmio.queues.rings, env.vq.isValid q s.world.view = true) :
    Evolves env s (s.withMmio {s.mmio with status := s.mmio.acceptedStatus value}) := by
  have kept : s.mmio.status &&& s.mmio.acceptedStatus value = s.mmio.status ∧
      (s.mmio.acceptedStatus value &&& FEATURES_OK ≠ 0 → s.Accepted) := by
    rw [BitVec.and_comm] at grown
    unfold Mmio.acceptedStatus
    dsimp only
    split
    · rename_i refused
      -- FEATURES_OK is still clear, or the features were accepted before.
      have clear : s.mmio.status &&& FEATURES_OK = 0 := by
        by_contra set
        obtain ⟨offered,modern,required⟩ := agreed.accepted set
        rcases refused.2 with outside | old | missing
        · exact outside offered
        · exact modern old
        · exact missing required
      refine ⟨?_,fun set => absurd ?_ set⟩
      · rw [← bits_without clear,BitVec.and_assoc,BitVec.and_comm (~~~FEATURES_OK),BitVec.and_assoc,
          BitVec.and_self,← BitVec.and_assoc,grown]
      · rw [BitVec.and_assoc,BitVec.and_comm (~~~FEATURES_OK)]
        simp
    · rename_i fine
      refine ⟨grown,fun set => ?_⟩
      rw [not_and_or,not_or,not_or] at fine
      rcases fine with unset | ⟨offered,modern,required⟩
      · exact absurd set unset
      · exact ⟨by_contra offered,modern,by_contra required⟩
  refine ⟨kept.1,rfl,fun _ => rfl,fun _ set => kept.2 set,?_,forall₂_kept _,agreed.sits.fits,rfl,rfl⟩
  intro stopped running
  obtain ⟨bits,valid⟩ := ready running (by_contra stopped)
  exact ⟨bits,rfl,valid⟩

theorem configure_evolves (lawful : env.vq.Lawful) {s : Slot D} (agreed : Agreed s) (offset : Nat)
    (value : BitVec 32) (alive : ¬s.Resets (.write offset value)) :
    Evolves env s ((Mmio.configure env offset value).run s).2 := by
  have outcome := Mmio.configure_cases lawful offset value s
  generalize (Mmio.configure env offset value).run s = ended at outcome ⊢
  have unchanged : Evolves env s s :=
    .still rfl rfl (fun _ => rfl) (forall₂_kept _) agreed.sits.fits rfl rfl
  cases outcome with
  | ignored => exact unchanged
  | selected => exact .still rfl rfl (fun _ => rfl) (forall₂_kept _) agreed.sits.fits rfl rfl
  | negotiated features undecided =>
    exact .still rfl rfl (fun set => absurd undecided set) (forall₂_kept _) agreed.sits.fits rfl rfl
  | reset c asked ran =>
    obtain ⟨rfl,rfl⟩ := asked
    exact absurd ⟨rfl,by rw [ran]⟩ alive
  | resetFailed f c _ ran =>
    have advances := LawfulDevice.reset_advances s.cell agreed.sits
    rw [ran] at advances
    exact .ofAdvances advances
  | status grown ready => exact status_evolves agreed grown ready
  | acknowledged => exact .still rfl rfl (fun _ => rfl) (forall₂_kept _) agreed.sits.fits rfl rfl
  | rewired index q q' found early idle change =>
    refine .still rfl rfl (fun _ => rfl) (forall₂_set .refl found (.ofRewired change ?_ idle)) agreed.sits.fits rfl rfl
    exact early.imp (fun clear running => running clear) id
  | refused => exact unchanged

theorem write_evolves (lawful : env.vm.Lawful) (lawful' : env.vq.Lawful) {s : Slot D} (agreed : Agreed s)
    (offset : Nat) (value : BitVec 32) (alive : ¬s.Resets (.write offset value)) :
    Evolves env s ((Mmio.write env offset value).run s).2 := by
  by_cases register : offset = 0x50
  · rw [Mmio.write,if_pos register,Mmio.notify_run]
    split
    · rename_i listens
      refine ran_evolves (LawfulDevice.notify_advances env lawful lawful' s.cell _ agreed.sits ?_)
      rw [Mmio.listens,Bool.and_eq_true] at listens
      by_contra outside
      have none : s.mmio.queues.rings[value.toNat]? = none :=
        List.getElem?_eq_none (Nat.le_of_not_lt outside)
      rw [none] at listens
      cases listens.2
    · exact .still rfl rfl (fun _ => rfl) (forall₂_kept _) agreed.sits.fits rfl rfl
  · have evolves := configure_evolves lawful' agreed offset value alive
    rw [Mmio.write_run register]
    revert evolves
    rcases (Mmio.configure env offset value).run s with ⟨(e | p) | ok,t⟩ <;> intro evolves
    · simp only
      split
      · exact ⟨evolves.status,evolves.features,evolves.frozen,evolves.checked,evolves.started,
          evolves.rings,evolves.fits,evolves.count,evolves.required⟩
      · exact evolves
    · exact evolves
    · exact evolves

theorem after_evolves (lawful : env.vm.Lawful) (lawful' : env.vq.Lawful) {s : Slot D} (agreed : Agreed s)
    (event : Event) (alive : ¬s.Resets event) : Evolves env s (s.after env event) := by
  have unchanged : Evolves env s s :=
    .still rfl rfl (fun _ => rfl) (forall₂_kept _) agreed.sits.fits rfl rfl
  cases event with
  | write offset value => exact write_evolves lawful lawful' agreed offset value alive
  | poll =>
    rw [Slot.after,Mmio.poll_run]
    split
    · exact ran_evolves (LawfulDevice.poll_advances env lawful lawful' s.cell agreed.sits)
    · exact unchanged
  | contained result =>
    rw [Slot.after,Mmio.contain_run]
    rcases Mmio.settled_slot s result with same | isolated
    · rw [same]
      exact unchanged
    · rw [isolated]
      exact unchanged.isolate rfl
  | memory w => exact .still rfl rfl (fun _ => rfl) (forall₂_kept _) agreed.sits.fits rfl rfl

theorem reset_agreed (lawful : env.vq.Lawful) {s : Slot D} (agreed : Agreed s) {event : Event}
    (resets : s.Resets event) : Agreed (s.after env event) ∧ ¬(s.after env event).Running := by
  obtain ⟨rfl,went⟩ := resets
  have advances := LawfulDevice.reset_advances s.cell agreed.sits
  rcases ran : VirtioDevice.reset.run s.cell with ⟨r,c⟩
  rw [ran] at went advances
  cases went
  have queues : c.queues = s.mmio.queues := by
    have kept := ResetsAlone.queues s.cell
    rw [ran] at kept
    exact kept
  rw [Slot.after,Mmio.reset_run s ran]
  have rings : ∀ q ∈ c.queues.rings.map env.vq.reset, q.maxSize = MAX_QUEUE ∧ Sized q := by
    intro q member
    obtain ⟨old,inside,rfl⟩ := List.mem_map.mp member
    rw [queues] at inside
    obtain ⟨full,_⟩ := agreed.rings old inside
    rw [lawful.reset_fresh,full]
    exact ⟨rfl,by decide,by decide,7,rfl⟩
  refine ⟨⟨⟨advances.fits,?_,fun q member => (rings q member).2.1⟩,rings,?_,?_⟩,?_⟩
  · change (c.queues.rings.map env.vq.reset).length = VirtioDevice.queueCount c.device
    rw [List.length_map,queues,advances.count]
    exact agreed.sits.count
  · exact fun set => absurd (by decide : (0 : BitVec 32) &&& FEATURES_OK = 0) set
  · exact fun running => absurd (by decide : (0 : BitVec 32) &&& DRIVER_OK = 0) running
  · exact fun running => running (by decide : (0 : BitVec 32) &&& DRIVER_OK = 0)

def Lives (env : Env) (s : Slot D) (event : Event) (t : Slot D) : Prop :=
  t = s.after env event ∧ ¬s.Resets event

theorem happens_agreed (lawful : env.vm.Lawful) (lawful' : env.vq.Lawful) {s t : Slot D} {event : Event}
    (agreed : Agreed s) (happens : Happens env s event t) : Agreed t := by
  rw [happens]
  by_cases resets : s.Resets event
  · exact (reset_agreed lawful' agreed resets).1
  · exact (after_evolves lawful lawful' agreed event resets).agreed agreed

structure Since (s t : Slot D) : Prop where
  status : s.mmio.status &&& t.mmio.status = s.mmio.status
  features : s.mmio.status &&& FEATURES_OK ≠ 0 → t.mmio.queues.negotiated = s.mmio.queues.negotiated
  rings : s.Running → List.Forall₂ (fun q q' => SameConfig q q' ∧ (q'.ready = true → q.ready = true))
    s.mmio.queues.rings t.mmio.queues.rings

theorem Since.extend {s t u : Slot D} (since : Since s t) (evolves : Evolves env t u) : Since s u := by
  refine ⟨bits_trans since.status evolves.status,?_,?_⟩
  · intro set
    rw [evolves.frozen (bits_set since.status set),since.features set]
  · intro running
    have later : t.Running := bits_set since.status running
    have first := since.rings running
    have second := evolves.rings
    revert first second
    generalize s.mmio.queues.rings = rings
    generalize t.mmio.queues.rings = rings'
    generalize u.mmio.queues.rings = rings''
    intro first second
    induction first generalizing rings'' with
    | nil => cases second; exact .nil
    | cons head _ ih =>
      cases second with
      | cons head' tail' =>
        exact .cons ⟨head.1.trans (head'.config (.inr later)),
          fun ready => head.2 (head'.disabled later ready)⟩ (ih _ tail')

theorem lives_since (lawful : env.vm.Lawful) (lawful' : env.vq.Lawful) {s t : Slot D} (agreed : Agreed s)
    (reached : Reaches (Lives env) s t) : Agreed t ∧ Since s t := by
  induction reached with
  | refl => exact ⟨agreed,BitVec.and_self,fun _ => rfl,fun _ => List.forall₂_same.mpr (fun q _ => ⟨.refl q,id⟩)⟩
  | tail event _ taken ih =>
    obtain ⟨rfl,alive⟩ := taken
    have evolves := after_evolves lawful lawful' ih.1 event alive
    exact ⟨evolves.agreed ih.1,ih.2.extend evolves⟩

/-- The negotiation as it stands in a state that a run from `first` reached. -/
structure Negotiation (env : Env) (first s : Slot D) : Prop where
  features : s.mmio.status &&& FEATURES_OK ≠ 0 → s.Accepted
  running : s.Running → s.mmio.status &&& 0xb = 0xb
  /-- DRIVER_OK was set, after the last reset, when every queue was ready and valid. -/
  started : s.Running → ∃ u event, Reaches (Happens env) first u ∧ ¬u.Running ∧
    (u.after env event).Running ∧
    (∀ q ∈ (u.after env event).mmio.queues.rings, q.ready = true ∧ env.vq.isValid q u.world.view = true) ∧
    Reaches (Lives env) (u.after env event) s
  since : ∀ t, Reaches (Lives env) s t → Since s t
  ready : ∀ event, ¬s.Resets event → ∀ (index : Nat) q, s.mmio.queues.rings[index]? = some q → q.ready = true →
    ∃ q', (s.after env event).mmio.queues.rings[index]? = some q' ∧ SameConfig q q'
  sized : ∀ q ∈ s.mmio.queues.rings, Sized q

theorem started_before (lawful : env.vm.Lawful) (lawful' : env.vq.Lawful) {first s : Slot D}
    (agreed : Agreed first) (stopped : ¬first.Running) (reached : Reaches (Happens env) first s) :
    Agreed s ∧ (s.Running → ∃ u event, Reaches (Happens env) first u ∧ ¬u.Running ∧
      (u.after env event).Running ∧
      (∀ q ∈ (u.after env event).mmio.queues.rings, q.ready = true ∧ env.vq.isValid q u.world.view = true) ∧
      Reaches (Lives env) (u.after env event) s) := by
  induction reached with
  | refl => exact ⟨agreed,fun running => absurd running stopped⟩
  | @tail t _ event before taken ih =>
    obtain ⟨agreed,earlier⟩ := ih
    refine ⟨happens_agreed lawful lawful' agreed taken,?_⟩
    rw [taken]
    intro running
    by_cases resets : t.Resets event
    · exact absurd running (reset_agreed lawful' agreed resets).2
    by_cases already : t.Running
    · obtain ⟨u,start,reached,idle,set,valid,later⟩ := earlier already
      exact ⟨u,start,reached,idle,set,valid,later.tail event ⟨rfl,resets⟩⟩
    · obtain ⟨_,same,valid⟩ := (after_evolves lawful lawful' agreed event resets).started already running
      refine ⟨t,event,before,already,running,?_,.refl⟩
      intro q member
      rw [same] at member
      exact ⟨lawful'.valid_ready q _ (valid q member),valid q member⟩

theorem new_agreed (lawful : env.vq.Lawful) {device : D} (fits : LawfulDevice.fits device) {m : Mmio D}
    (made : Mmio.new env device = .ok m) (strict : Bool) (world : World) :
    Agreed (⟨m.withStrict strict,world,[]⟩ : Slot D) ∧ m.status = 0 := by
  have fresh := lawful.new_max MAX_QUEUE (by decide) (by decide) ⟨7,rfl⟩
  simp only [Mmio.new,fresh,Except.ok.injEq] at made
  subst made
  have rings : ∀ q ∈ List.replicate (VirtioDevice.queueCount device) (⟨MAX_QUEUE,MAX_QUEUE,false,0,0,0,0,0⟩ : Queue),
      q.maxSize = MAX_QUEUE ∧ Sized q := by
    intro q member
    rw [List.eq_of_mem_replicate member]
    exact ⟨rfl,by decide,by decide,7,rfl⟩
  refine ⟨⟨⟨fits,List.length_replicate,fun q member => (rings q member).2.1⟩,rings,?_,?_⟩,rfl⟩
  · exact fun set => absurd (by decide : (0 : BitVec 32) &&& FEATURES_OK = 0) set
  · exact fun running => absurd (by decide : (0 : BitVec 32) &&& DRIVER_OK = 0) running

/-- The negotiation invariant of every transport, over every run of events. -/
theorem negotiation_invariant (lawful : env.vm.Lawful) (lawful' : env.vq.Lawful) (device : D)
    (fits : LawfulDevice.fits device) (m : Mmio D) (made : Mmio.new env device = .ok m) (strict : Bool)
    (world : World) (s : Slot D)
    (reached : Reaches (Happens env) ⟨m.withStrict strict,world,[]⟩ s) :
    Negotiation env ⟨m.withStrict strict,world,[]⟩ s := by
  obtain ⟨fresh,zero⟩ := new_agreed lawful' fits made strict world
  have stopped : ¬(⟨m.withStrict strict,world,[]⟩ : Slot D).Running := by
    intro running
    refine running ?_
    change m.status &&& DRIVER_OK = 0
    rw [zero]
    decide
  obtain ⟨agreed,started⟩ := started_before lawful lawful' fresh stopped reached
  refine ⟨agreed.accepted,agreed.running,started,fun t later => (lives_since lawful lawful' agreed later).2,?_,
    fun q member => (agreed.rings q member).2⟩
  intro event alive index q found ready
  have rings := (after_evolves lawful lawful' agreed event alive).rings
  obtain ⟨q',found',kept⟩ := forall₂_get rings found
  exact ⟨q',found',kept.config (.inl ready)⟩

def pageWorld : World := {emptyWorld with view := Reference.page}

def cleanDisk : Device Reference.Disk Reference.Wire :=
  .block ⟨⟨List.replicate 2048 0,false⟩,"disk",List.replicate 20 0⟩

/-- What a driver writes until it sets DRIVER_OK, and a size after that. -/
def bringUp : List Event :=
  [.write 0x70 1,.write 0x70 3,.write 0x24 1,.write 0x20 1,.write 0x70 0xb,.write 0x44 1,.write 0x70 0xf,
    .write 0x38 64]

/-- The transport after the driver has started it. -/
theorem negotiation_invariant_running :
    ∃ m, Mmio.new Reference.env cleanDisk = .ok m ∧
      (bringUp.foldl (Slot.after Reference.env) ⟨m.withStrict false,pageWorld,[]⟩).Running ∧
      Negotiation Reference.env ⟨m.withStrict false,pageWorld,[]⟩
        (bringUp.foldl (Slot.after Reference.env) ⟨m.withStrict false,pageWorld,[]⟩) := by
  refine ⟨_,rfl,by unfold Slot.Running; decide,?_⟩
  exact negotiation_invariant Reference.env_vm_lawful Reference.env_vq_lawful cleanDisk (by decide : 20 ≤ 20) _
    rfl false pageWorld _ (reaches_events _ bringUp)

end WVmm.Devices
