import WVmm.Devices.Configure
import WVmm.Lib.Simulation

/-! Two transports side by side. They show the same registers over devices that
are alike; they may differ in the count of rejected writes, and one of them may be
strict where the other is lenient. -/
namespace WVmm.Devices
open Lib.Effect Lib.Simulation

/-- How two transports may differ. With `strict` false the second one is lenient,
whatever the first one is. -/
structure Likeness (D : Type) where
  alike : D → D → Prop
  counts : Nat → Nat → Prop
  strict : Bool

variable {D : Type}

/-- Errors that need no match: a strict transport reports what a lenient one
contains. -/
def Likeness.Excuses (l : Likeness D) (f : Failure DeviceError) : Prop :=
  l.strict = false ∧ ∃ e, f = .error e ∧ e.isGuest = true

def Never {ε : Type} (_ : ε) : Prop := False

structure Cell.Twin (l : Likeness D) (c c' : Cell D) : Prop where
  device : l.alike c.device c'.device
  queues : c'.queues = c.queues
  world : c'.world = c.world
  trace : c'.trace = c.trace

structure Mmio.Twin (l : Likeness D) (m m' : Mmio D) : Prop where
  device : l.alike m.device m'.device
  rejected : l.counts m.rejected m'.rejected
  shape : m' = {m with
    device := m'.device
    strict := m.strict && l.strict
    rejected := m'.rejected}

structure Slot.Twin (l : Likeness D) (s t : Slot D) : Prop where
  mmio : Mmio.Twin l s.mmio t.mmio
  world : t.world = s.world
  trace : t.trace = s.trace

structure Likeness.Lawful [VirtioDevice D] (l : Likeness D) (env : Env) : Prop where
  required : ∀ d d', l.alike d d' →
    VirtioDevice.requiredFeatures d' = VirtioDevice.requiredFeatures d
  generation : ∀ d d', l.alike d d' → VirtioDevice.generation d' = VirtioDevice.generation d
  deviceId : ∀ d d', l.alike d d' → VirtioDevice.deviceId d' = VirtioDevice.deviceId d
  readConfig : ∀ d d', l.alike d d' → VirtioDevice.readConfig d' = VirtioDevice.readConfig d
  reset : Simulates (Cell.Twin l) Never Eq VirtioDevice.reset VirtioDevice.reset
  notify : ∀ queue, Simulates (Cell.Twin l) Never Eq (VirtioDevice.notify env queue)
    (VirtioDevice.notify env queue)
  poll : Simulates (Cell.Twin l) Never Eq (VirtioDevice.poll env) (VirtioDevice.poll env)
  counted : ∀ n n', l.counts n n' → l.counts ((n + 1) % 2^64) ((n' + 1) % 2^64)

namespace Cell.Twin

variable {l : Likeness D} {excused : Failure DeviceError → Prop} {env : Env}

theorem onWorld {α : Type} (p : Prog World (Failure DeviceError) α) :
    Simulates (Cell.Twin l) excused Eq (Cell.onWorld p) (Cell.onWorld p) := by
  intro c c' related
  simp only [Cell.onWorld,Prog.run_zoom,related.world]
  rcases p.run c.world with ⟨r,w⟩
  cases r with
  | error f => exact .failed ⟨related.device,related.queues,rfl,related.trace⟩
  | ok a => exact .returned rfl ⟨related.device,related.queues,rfl,related.trace⟩

theorem ring (index : Nat) : Simulates (Cell.Twin l) excused Eq (Cell.ring index) (Cell.ring index) := by
  refine .get (fun c c' related => ?_)
  rw [related.queues]
  cases c.queues.rings[index]? with
  | none => exact .fail _
  | some q => exact .pure rfl

theorem record (action : Action) :
    Simulates (Cell.Twin l) excused Eq (Cell.record action) (Cell.record action) :=
  .modify (fun _ _ related => ⟨related.device,related.queues,related.world,by rw [related.trace]⟩)

theorem setRing (index : Nat) (q : Queue) :
    Simulates (Cell.Twin l) excused Eq (Prog.modify (Cell.setRing index q)) (Prog.modify (Cell.setRing index q)) :=
  .modify (fun _ _ related => ⟨related.device,by simp only [Cell.setRing,related.queues],related.world,
    related.trace⟩)

theorem available (index : Nat) :
    Simulates (Cell.Twin l) excused Eq (Queues.available env index) (Queues.available env index) := by
  refine .bind (ring index) ?_
  rintro q _ rfl
  split
  · exact .pure rfl
  · refine .get (fun c c' related => ?_)
    rw [related.world]
    refine .bind (.require _ _) (fun _ _ _ => ?_)
    refine .bind (onWorld _) ?_
    rintro idx _ rfl
    exact .bind (.require _ _) (fun _ _ _ => .pure rfl)

theorem takeHead (index : Nat) :
    Simulates (Cell.Twin l) excused Eq (Queues.takeHead env index) (Queues.takeHead env index) := by
  refine .bind (ring index) ?_
  rintro q _ rfl
  refine .bind (onWorld _) (fun _ _ _ => ?_)
  refine .get (fun c c' related => ?_)
  rw [related.world]
  refine .bind (setRing _ _) (fun _ _ _ => ?_)
  cases (env.vq.next q c.world.view c.world.host).1 with
  | error e => exact .fail _
  | ok head =>
    cases head with
    | none => exact .fail _
    | some head => exact .pure rfl

theorem pop (index : Nat) :
    Simulates (Cell.Twin l) excused Eq (Queues.pop env index) (Queues.pop env index) := by
  refine .bind (available index) ?_
  rintro count _ rfl
  split
  · exact .pure rfl
  · refine .bind (takeHead index) ?_
    rintro head _ rfl
    refine .bind (ring index) ?_
    rintro q _ rfl
    refine .bind (onWorld _) ?_
    rintro descriptors _ rfl
    exact .bind (record _) (fun _ _ _ => .pure rfl)

theorem complete (index head len : Nat) :
    Simulates (Cell.Twin l) excused Eq (Queues.complete env index head len)
      (Queues.complete env index head len) := by
  refine .bind (ring index) ?_
  rintro q _ rfl
  refine .get (fun c c' related => ?_)
  rw [related.world]
  refine .bind (.modify ?_) (fun _ _ _ => ?_)
  · intro c c' related
    exact ⟨related.device,by simp only [Cell.setRing,related.queues],by simp only [Cell.setRing,related.world],
      related.trace⟩
  cases (env.vq.addUsed q c.world.view c.world.host head len).1 with
  | error e => exact .fail _
  | ok _ =>
    refine .bind (.modify ?_) (fun _ _ _ => record _)
    intro c c' related
    exact ⟨related.device,by simp only [related.queues],related.world,related.trace⟩

end Cell.Twin

namespace Mmio.Twin

variable {l : Likeness D} {m m' : Mmio D}

theorem queues (twin : Twin l m m') : m'.queues = m.queues := by rw [twin.shape]

theorem status (twin : Twin l m m') : m'.status = m.status := by rw [twin.shape]

theorem strict (twin : Twin l m m') : m'.strict = (m.strict && l.strict) := by rw [twin.shape]

theorem active (twin : Twin l m m') : m'.active = m.active := by
  unfold Mmio.active
  rw [twin.status]

theorem needsReset (twin : Twin l m m') : m'.needsReset = m.needsReset := by
  unfold Mmio.needsReset
  rw [twin.status]

theorem interruptPending (twin : Twin l m m') : m'.interruptPending = m.interruptPending := by
  unfold Mmio.interruptPending
  rw [twin.queues]

theorem update (twin : Twin l m m') {f : Mmio D → Mmio D} (same : ∀ m d b n,
      f {m with device := d, strict := b, rejected := n} =
        {f m with device := d, strict := b, rejected := n}) : Twin l (f m) (f m') := by
  have left := same m m.device m.strict m.rejected
  have right := same m m'.device (m.strict && l.strict) m'.rejected
  rw [← twin.shape] at right
  refine ⟨?_,?_,?_⟩
  · rw [left,right]
    exact twin.device
  · rw [left,right]
    exact twin.rejected
  · rw [right,left]

theorem configChanged (twin : Twin l m m') : Twin l m.configChanged m'.configChanged :=
  twin.update (fun _ _ _ _ => rfl)

theorem isolate (twin : Twin l m m') : Twin l m.isolate m'.isolate := by
  refine twin.update (fun m d b n => ?_)
  unfold Mmio.isolate
  dsimp only
  split <;> rfl

theorem read [VirtioDevice D] {env : Env} (lawful : l.Lawful env) (twin : Twin l m m') (offset width : Nat) :
    m'.read offset width = m.read offset width := by
  unfold Mmio.read
  rw [twin.shape]
  simp only [lawful.readConfig _ _ twin.device,lawful.deviceId _ _ twin.device,
    lawful.generation _ _ twin.device]

theorem acceptedStatus [VirtioDevice D] {env : Env} (lawful : l.Lawful env) (twin : Twin l m m')
    (value : BitVec 32) : m'.acceptedStatus value = m.acceptedStatus value := by
  unfold Mmio.acceptedStatus
  rw [twin.shape]
  simp only [lawful.required _ _ twin.device]

end Mmio.Twin

namespace Slot.Twin

variable {l : Likeness D} {α : Type}

theorem onCell {p p' : Prog (Cell D) (Failure DeviceError) α} {excused : Failure DeviceError → Prop}
    (simulates : Simulates (Cell.Twin l) excused Eq p p') :
    Simulates (Slot.Twin l) excused Eq (Slot.onCell p) (Slot.onCell p') := by
  refine simulates.zoom ?_ ?_
  · intro s t twin
    exact ⟨twin.mmio.device,twin.mmio.queues,twin.world,twin.trace⟩
  · intro s t c c' twin related
    refine ⟨⟨related.device,twin.mmio.rejected,?_⟩,related.world,related.trace⟩
    simp only [Slot.putCell,related.queues]
    rw [twin.mmio.shape]

theorem update {f : Mmio D → Mmio D} {excused : Failure DeviceError → Prop}
    (keeps : ∀ m m', Mmio.Twin l m m' → Mmio.Twin l (f m) (f m')) :
    Simulates (Slot.Twin l) excused Eq (Slot.update f) (Slot.update f) :=
  .modify (fun _ _ twin => ⟨keeps _ _ twin.mmio,twin.world,twin.trace⟩)

/-- An update that neither reads nor changes what twins may differ in. -/
theorem register {f : Mmio D → Mmio D} {excused : Failure DeviceError → Prop} (same : ∀ m d b n,
      f {m with device := d, strict := b, rejected := n} =
        {f m with device := d, strict := b, rejected := n}) :
    Simulates (Slot.Twin l) excused Eq (Slot.update f) (Slot.update f) :=
  update (fun _ _ twin => twin.update same)

/-- The strict transport reports a guest error where the lenient one isolates. -/
theorem contain (r : Except (Failure DeviceError) α) :
    Simulates (Slot.Twin l) l.Excuses Eq (Mmio.contain r) (Mmio.contain r) := by
  refine .get (fun s t twin => ?_)
  rcases r with (e | p) | value
  · have mode := twin.mmio.strict
    dsimp only
    rw [mode]
    cases guest : e.isGuest with
    | false =>
      simp only [Bool.and_false]
      exact .fail _
    | true =>
      cases strict : s.mmio.strict <;> cases kept : l.strict <;>
        simp only [Bool.not_true,Bool.not_false,Bool.and_true,Bool.and_false,Bool.and_self]
      · exact .bind (update (fun _ _ twin => twin.isolate)) (fun _ _ _ => .pure rfl)
      · exact .bind (update (fun _ _ twin => twin.isolate)) (fun _ _ _ => .pure rfl)
      · exact .excuse ⟨kept,e,rfl,guest⟩
      · exact .fail _
  · exact .fail _
  · exact .pure rfl

/-- A device program whose error is contained. -/
theorem contained {p : Prog (Cell D) (Failure DeviceError) α} (simulates : Simulates (Cell.Twin l) Never Eq p p) :
    Simulates (Slot.Twin l) l.Excuses Eq
      (do let result ← Prog.capture (Slot.onCell p); Mmio.contain result)
      (do let result ← Prog.capture (Slot.onCell p); Mmio.contain result) := by
  refine .bind (.capture (onCell simulates)) ?_
  rintro r _ rfl
  exact contain r

variable {env : Env}

theorem writeRing (offset : Nat) (value : BitVec 32) (index : Nat) (q : Queue) :
    Simulates (Slot.Twin l) Never Eq (Mmio.writeRing env offset value index q)
      (Mmio.writeRing env offset value index q) := by
  unfold Mmio.writeRing
  dsimp only
  split_ifs
  · refine .bind (.require _ _) (fun _ _ _ => ?_)
    refine .bind (register (fun _ _ _ _ => rfl)) (fun _ _ _ => ?_)
    cases (env.vq.trySetSize q value.toNat).1 with
    | ok _ => exact .pure rfl
    | error e => exact .fail _
  · refine .bind (.require _ _) (fun _ _ _ => ?_)
    refine .bind (register (fun _ _ _ _ => rfl)) (fun _ _ _ => ?_)
    refine .get (fun s t twin => ?_)
    rw [twin.world]
    split
    · exact .bind (register (fun _ _ _ _ => rfl)) (fun _ _ _ => .fail _)
    · exact .pure rfl
  all_goals first | exact register (fun _ _ _ _ => rfl) | exact .fail _

theorem configureQueue (offset : Nat) (value : BitVec 32) :
    Simulates (Slot.Twin l) Never Eq (Mmio.configureQueue env offset value)
      (Mmio.configureQueue env offset value) := by
  refine .get (fun s t twin => ?_)
  have selected : t.mmio.queueSel = s.mmio.queueSel := by rw [twin.mmio.shape]
  dsimp only
  rw [selected,twin.mmio.queues,twin.mmio.status]
  cases s.mmio.queues.rings[s.mmio.queueSel.toNat]? with
  | none => exact .pure rfl
  | some q =>
    refine .bind (.require _ _) (fun _ _ _ => ?_)
    exact .bind (.require _ _) (fun _ _ _ => writeRing _ _ _ _)

variable [VirtioDevice D]

theorem writeStatus (lawful : l.Lawful env) (value : BitVec 32) :
    Simulates (Slot.Twin l) Never Eq (Mmio.writeStatus env value) (Mmio.writeStatus env value) := by
  refine .get (fun s t twin => ?_)
  dsimp only
  rw [twin.mmio.status,twin.mmio.acceptedStatus lawful,twin.mmio.queues,twin.world]
  refine .bind (.require _ _) (fun _ _ _ => ?_)
  refine .bind (.require _ _) (fun _ _ _ => ?_)
  exact register (fun _ _ _ _ => rfl)

theorem reset (lawful : l.Lawful env) :
    Simulates (Slot.Twin l) Never Eq (Mmio.reset env) (Mmio.reset env) :=
  .bind (onCell lawful.reset) (fun _ _ _ => register (fun _ _ _ _ => rfl))

theorem configure (lawful : l.Lawful env) (offset : Nat) (value : BitVec 32) :
    Simulates (Slot.Twin l) Never Eq (Mmio.configure env offset value) (Mmio.configure env offset value) := by
  refine .get (fun s t twin => ?_)
  have selected : t.mmio.driverSel = s.mmio.driverSel := by rw [twin.mmio.shape]
  dsimp only
  rw [twin.mmio.status,selected]
  split_ifs
  · exact register (fun _ _ _ _ => rfl)
  · exact register (fun _ _ _ _ => rfl)
  · exact register (fun _ _ _ _ => rfl)
  · exact register (fun _ _ _ _ => rfl)
  · exact reset lawful
  · exact writeStatus lawful value
  · exact register (fun _ _ _ _ => rfl)
  · exact configureQueue offset value
  · exact .pure rfl

theorem notify (lawful : l.Lawful env) (queue : Nat) :
    Simulates (Slot.Twin l) l.Excuses Eq (Mmio.notify env queue) (Mmio.notify env queue) := by
  refine .get (fun s t twin => ?_)
  rw [twin.mmio.active,twin.mmio.queues]
  split
  · refine .bind (.capture (onCell (lawful.notify queue))) ?_
    rintro r _ rfl
    exact .bind (contain r) (fun _ _ _ => .pure rfl)
  · exact .pure rfl

theorem poll (lawful : l.Lawful env) :
    Simulates (Slot.Twin l) l.Excuses Eq (Mmio.poll env) (Mmio.poll env) := by
  refine .get (fun s t twin => ?_)
  rw [twin.mmio.active]
  split
  · refine .bind (.capture (onCell lawful.poll)) ?_
    rintro r _ rfl
    exact .bind (contain r) (fun _ _ _ => .pure rfl)
  · exact .pure rfl

/-- The strict transport reports a rejected write where the lenient one counts it. -/
theorem write (lawful : l.Lawful env) (offset : Nat) (value : BitVec 32) :
    Simulates (Slot.Twin l) l.Excuses Eq (Mmio.write env offset value) (Mmio.write env offset value) := by
  unfold Mmio.write
  split
  · exact notify lawful _
  · refine .get (fun s t twin => ?_)
    rw [twin.mmio.strict]
    refine .bind (.capture (configure lawful offset value)) ?_
    rintro r _ rfl
    have counts : Simulates (Slot.Twin l) l.Excuses Eq
        (Slot.update (fun m => {m with rejected := (m.rejected + 1) % 2^64}))
        (Slot.update (fun m => {m with rejected := (m.rejected + 1) % 2^64})) := by
      refine update (fun m m' twin => ⟨twin.device,lawful.counted _ _ twin.rejected,?_⟩)
      rw [twin.shape]
    rcases r with (e | p) | value
    · dsimp only
      cases guest : e.isGuest with
      | false =>
        simp only [Bool.and_false]
        exact .fail _
      | true =>
        cases strict : s.mmio.strict <;> cases kept : l.strict <;>
          simp only [Bool.not_true,Bool.not_false,Bool.and_true,Bool.and_false,Bool.and_self]
        · exact counts
        · exact counts
        · exact .excuse ⟨kept,e,rfl,guest⟩
        · exact .fail _
    · exact .fail _
    · exact .pure rfl

end Slot.Twin
end WVmm.Devices
