import WVmm.Devices.Moves

/-! Specifications of the queue operations: each keeps to `Cell.Moves`, fails only
with guest errors and yields what it took from the guest. -/
namespace WVmm.Devices
open Lib.Effect

/-- A failure that is no panic, and a guest error unless backends may fail. -/
def Contained (trust : Trust) (f : Failure DeviceError) : Prop :=
  ∃ e : DeviceError, f = .error e ∧ (e.isGuest = true ∨ trust.faults)

theorem Contained.guest {trust : Trust} {e : DeviceError} (guest : e.isGuest = true) :
    Contained trust (.error e) := ⟨e,rfl,.inl guest⟩

variable {env : Env} {trust : Trust} {α β : Type}

def Looks (env : Env) (trust : Trust) (view : GuestMemoryMmap)
    (m : Prog World (Failure DeviceError) α) (yields : α → Prop) : Prop :=
  Triple (fun w => w.view = view) (World.Moves env (fun _ => False)) (Contained trust) m
    (fun a _ => yields a)

namespace Looks

variable {view : GuestMemoryMmap} {m : Prog World (Failure DeviceError) α} {yields : α → Prop}

theorem stable : Stable (World.Moves env (fun _ => False)) (fun w => w.view = view) :=
  fun _ _ moves same => moves.view.trans same

theorem pure {a : α} (holds : yields a) : Looks env trust view (Pure.pure a) yields :=
  fun w _ => ⟨.refl w,fun _ returned => by cases returned; exact holds,fun _ failed => by cases failed⟩

theorem fail {e : DeviceError} (guest : e.isGuest = true) :
    Looks env trust view (Prog.fail (.error e)) yields :=
  Triple.fail (fun w => .refl w) _ (.guest guest)

theorem bind {f : α → Prog World (Failure DeviceError) β} {ends : β → Prop}
    (first : Looks env trust view m yields) (rest : ∀ a, yields a → Looks env trust view (f a) ends) :
    Looks env trust view (m >>= f) ends :=
  Triple.step (fun _ _ _ => .trans) stable first
    (fun a w holds => rest a holds.2 w holds.1)

theorem require (c : Prop) [Decidable c] {e : DeviceError} (guest : e.isGuest = true) :
    Looks env trust view (Prog.require c (.error e)) (fun _ => c) :=
  (Triple.require (fun w => .refl w) c _ (fun _ => .guest guest)).consequence (fun _ same => same)
    (fun _ _ holds => holds.1)

theorem mono {ends : α → Prop} (looks : Looks env trust view m yields) (weaker : ∀ a, yields a → ends a) :
    Looks env trust view m ends :=
  Triple.consequence looks (fun _ same => same) (fun a _ holds => weaker a holds)

theorem observe : Looks env trust view (World.observe env) (fun _ => True) :=
  Triple.modify (fun w _ => ⟨World.tick_moves w,trivial⟩)

theorem get {f : World → Prog World (Failure DeviceError) β} {ends : β → Prop}
    (rest : ∀ w, w.view = view → Looks env trust view (f w) ends) :
    Looks env trust view (Prog.get >>= f) ends :=
  fun w same => rest w same w same

theorem ofExcept {r : Except (Failure DeviceError) α} (good : ∀ a, r = .ok a → yields a)
    (bad : ∀ f, r = .error f → Contained trust f) : Looks env trust view (Prog.ofExcept r) yields :=
  Triple.ofExcept (fun w => .refl w) r (fun a _ _ returned => good a returned) bad

/-- A result of vm-memory or virtio-queue, whose errors are the guest's. -/
theorem foreign {r : Except Foreign α} {wrap : Foreign → DeviceError}
    (guest : ∀ e, (wrap e).isGuest = true) :
    Looks env trust view (Prog.ofExcept (r.mapError (fun e => .error (wrap e)))) (fun a => r = .ok a) := by
  refine ofExcept ?_ ?_
  · intro a returned
    cases r with
    | error e => cases returned
    | ok b =>
      cases returned
      rfl
  · intro f failed
    cases r with
    | ok b => cases failed
    | error e =>
      cases failed
      exact .guest (guest e)

theorem readSlice (addr n : Nat) : Looks env trust view (World.readSlice env addr n)
    (fun raw => ∃ host, env.vm.readSlice view host addr n = .ok raw) := by
  refine observe.bind (fun _ _ => get (fun w same => (foreign (fun _ => rfl)).mono ?_))
  intro raw returned
  exact ⟨w.host,same ▸ returned⟩

theorem readU16 (addr : Nat) : Looks env trust view (World.readU16 env addr) (fun _ => True) :=
  (readSlice addr 2).bind (fun _ _ => pure trivial)

theorem readDescriptor (addr : Nat) : Looks env trust view (World.readDescriptor env addr) (fun _ => True) :=
  (readSlice addr 16).bind (fun _ _ => pure trivial)

theorem checkRange (addr n : Nat) : Looks env trust view (World.checkRange env addr n)
    (fun inRange => inRange = env.vm.checkRange view addr n) :=
  get (fun w same => pure (by rw [same]))

theorem availIdx (q : Queue) : Looks env trust view (Queues.availIdx env q) (fun _ => True) :=
  observe.bind (fun _ _ => get (fun _ _ => (foreign (fun _ => rfl)).mono (fun _ _ => trivial)))

/-- A chain is made of descriptors in range without further flags. -/
theorem popChain (q : Queue) (fuel index : Nat) : Looks env trust view (Queues.popChain env q fuel index)
    (fun descriptors => descriptors ≠ [] ∧
      ∀ d ∈ descriptors, env.vm.checkRange view d.addr d.len = true ∧ d.onlyNextWrite = true) := by
  induction fuel generalizing index with
  | zero => exact fail rfl
  | succ fuel ih =>
    refine bind (require _ rfl) (fun _ _ => bind (readDescriptor _) (fun d _ => ?_))
    refine bind (require _ rfl) (fun _ _ => bind (checkRange _ _) (fun inRange same => ?_))
    refine bind (require _ rfl) (fun _ sound => ?_)
    rw [Bool.and_eq_true,same] at sound
    split
    · refine pure ⟨List.cons_ne_nil _ _,?_⟩
      intro d' member
      rw [List.mem_singleton.mp member]
      exact ⟨sound.2,sound.1⟩
    · refine bind (ih d.next) (fun rest holds => pure ⟨List.cons_ne_nil _ _,?_⟩)
      intro d' member
      rcases List.mem_cons.mp member with rfl | later
      · exact ⟨sound.2,sound.1⟩
      · exact holds.2 d' later

end Looks

/-- The device relations that steps compose by. -/
class Kept {D : Type} (keeps : D → D → Prop) : Prop where
  refl : ∀ d, keeps d d
  trans : ∀ a b d, keeps a b → keeps b d → keeps a d

instance {D : Type} : Kept (fun _ _ : D => True) := ⟨fun _ => trivial,fun _ _ _ _ _ => trivial⟩

section Cells
variable {D : Type} {keeps : D → D → Prop} {k : Nat}

/-- A device program that keeps to `Cell.Moves` and fails only as `Contained`. -/
def Acts (env : Env) (trust : Trust) (keeps : D → D → Prop) (k : Nat) (pre : Cell D → Prop)
    (m : Prog (Cell D) (Failure DeviceError) α) (post : α → Cell D → Prop) : Prop :=
  Triple pre (Cell.Moves env trust keeps k) (Contained trust) m post

abbrev Lasting (env : Env) (trust : Trust) (keeps : D → D → Prop) (k : Nat) (fact : Cell D → Prop) : Prop :=
  Stable (Cell.Moves env trust keeps k) fact

namespace Acts

variable {pre : Cell D → Prop} {m : Prog (Cell D) (Failure DeviceError) α} {post : α → Cell D → Prop}

theorem mono {ends : α → Cell D → Prop} (acts : Acts env trust keeps k pre m post)
    (weaker : ∀ a c, post a c → ends a c) : Acts env trust keeps k pre m ends :=
  Triple.consequence acts (fun _ here => here) weaker

theorem enter {pre' : Cell D → Prop} (acts : Acts env trust keeps k pre m post)
    (stronger : ∀ c, pre' c → pre c) : Acts env trust keeps k pre' m post :=
  Triple.consequence acts stronger (fun _ _ holds => holds)

theorem get {f : Cell D → Prog (Cell D) (Failure DeviceError) β} {ends : β → Cell D → Prop}
    (rest : ∀ c, pre c → Acts env trust keeps k (fun now => now = c ∧ pre now) (f c) ends) :
    Acts env trust keeps k pre (Prog.get >>= f) ends :=
  fun c here => rest c here c ⟨rfl,here⟩

theorem glance {f : Cell D → Prog (Cell D) (Failure DeviceError) β} {ends : β → Cell D → Prop}
    (rest : ∀ c, pre c → Acts env trust keeps k pre (f c) ends) :
    Acts env trust keeps k pre (Prog.get >>= f) ends :=
  fun c here => rest c here c here

theorem modify {f : Cell D → Cell D} {ends : Cell D → Prop}
    (moves : ∀ c, pre c → Cell.Moves env trust keeps k c (f c) ∧ ends (f c)) :
    Acts env trust keeps k pre (Prog.modify f) (fun _ c => ends c) :=
  Triple.modify moves

/-- An update before the end. -/
theorem closing {g : Cell D → Cell D} {a : α}
    (moves : ∀ c, pre c → Cell.Moves env trust keeps k c (g c)) :
    Acts env trust keeps k pre (Prog.modify g >>= fun _ => Pure.pure a) (fun _ _ => True) :=
  fun c here => ⟨moves c here,fun _ _ => trivial,fun _ failed => by cases failed⟩

/-- A program whose errors the caller answers; only panics would pass. -/
theorem answered (acts : Acts env ⟨True,trust.wild⟩ keeps k pre m post) :
    Acts env trust keeps k pre (Prog.capture m) (fun r _ => ∀ p, r ≠ .error (.panic p)) := by
  intro c here
  obtain ⟨moved,_,bad⟩ := acts c here
  rw [Prog.run_capture]
  refine ⟨⟨moved.grown,moved.world,moved.rings,moved.negotiated,moved.interrupt,moved.device⟩,?_,?_⟩
  · intro r returned p failed
    cases returned
    obtain ⟨e,same,_⟩ := bad _ failed
    cases same
  · intro f failed
    cases failed

variable [kept : Kept keeps]

theorem pure {a : α} (holds : ∀ c, pre c → post a c) : Acts env trust keeps k pre (Pure.pure a) post :=
  fun c here => ⟨.refl kept.refl c,fun _ returned => by cases returned; exact holds c here,
    fun _ failed => by cases failed⟩

theorem fail {e : DeviceError} (guest : e.isGuest = true) :
    Acts env trust keeps k pre (Prog.fail (.error e)) post :=
  Triple.fail (fun c => .refl kept.refl c) _ (.guest guest)

theorem step {f : α → Prog (Cell D) (Failure DeviceError) β} {ends : β → Cell D → Prop}
    (lasting : Lasting env trust keeps k pre) (first : Acts env trust keeps k pre m post)
    (rest : ∀ a, Acts env trust keeps k (fun c => pre c ∧ post a c) (f a) ends) :
    Acts env trust keeps k pre (m >>= f) ends :=
  Triple.step (fun _ _ _ => .trans kept.trans) lasting first rest

theorem bind {f : α → Prog (Cell D) (Failure DeviceError) β} {yields : α → Prop}
    {ends : β → Cell D → Prop} (lasting : Lasting env trust keeps k pre)
    (first : Acts env trust keeps k pre m (fun a _ => yields a))
    (rest : ∀ a, yields a → Acts env trust keeps k pre (f a) ends) :
    Acts env trust keeps k pre (m >>= f) ends :=
  step lasting first (fun a c holds => rest a holds.2 c holds.1)

theorem require (c : Prop) [Decidable c] {e : DeviceError} (guest : e.isGuest = true) :
    Acts env trust keeps k pre (Prog.require c (.error e)) (fun _ _ => c) :=
  (Triple.require (fun c => .refl kept.refl c) c _ (fun _ => .guest guest)).consequence
    (fun _ here => here) (fun _ _ holds => holds.1)

/-- What a trusted backend never breaks. -/
theorem demand (c : Prop) [Decidable c] {e : DeviceError} (trusted : ¬trust.faults → c) :
    Acts env trust keeps k pre (Prog.require c (.error e)) (fun _ _ => c) := by
  refine (Triple.require (fun c => .refl kept.refl c) c _ ?_).consequence (fun _ here => here)
    (fun _ _ holds => holds.1)
  exact fun broken => ⟨e,rfl,.inr (by_contra (fun never => broken (trusted never)))⟩

/-- An update from a known state, after which what lasts still holds. -/
theorem change {g : Cell D → Cell D} {c : Cell D} {f : Unit → Prog (Cell D) (Failure DeviceError) β}
    {ends : β → Cell D → Prop} (lasting : Lasting env trust keeps k pre)
    (moves : pre c → Cell.Moves env trust keeps k c (g c))
    (rest : Acts env trust keeps k pre (f ()) ends) :
    Acts env trust keeps k (fun now => now = c ∧ pre now) (Prog.modify g >>= f) ends := by
  rintro _ ⟨rfl,here⟩
  obtain ⟨moved,good,bad⟩ := rest (g _) (lasting _ _ (moves here) here)
  exact ⟨(moves here).trans kept.trans moved,good,bad⟩

theorem ofExcept {r : Except (Failure DeviceError) α} {yields : α → Prop}
    (good : ∀ a, r = .ok a → yields a) (bad : ∀ f, r = .error f → Contained trust f) :
    Acts env trust keeps k pre (Prog.ofExcept r) (fun a _ => yields a) :=
  Triple.ofExcept (fun c => .refl kept.refl c) r (fun a _ _ returned => good a returned) bad

theorem given {a : α} : Acts env trust keeps k pre (Prog.ofExcept (.ok a)) (fun b _ => b = a) :=
  ofExcept (fun _ returned => by cases returned; rfl) (fun _ failed => by cases failed)

/-- A computation of the device's own that reports guest errors. -/
theorem judged {ε : Type} {r : Except ε α} {wrap : ε → DeviceError}
    (guest : ∀ e, r = .error e → (wrap e).isGuest = true) :
    Acts env trust keeps k pre (Prog.ofExcept (r.mapError (fun e => .error (wrap e))))
      (fun a _ => r = .ok a) := by
  refine ofExcept ?_ ?_
  · intro a returned
    cases r with
    | error e => cases returned
    | ok b =>
      cases returned
      rfl
  · intro f failed
    cases r with
    | ok b => cases failed
    | error e =>
      cases failed
      exact .guest (guest e rfl)

/-- A result of vm-memory or virtio-queue, whose errors are the guest's. -/
theorem foreign {r : Except Foreign α} {wrap : Foreign → DeviceError}
    (guest : ∀ e, (wrap e).isGuest = true) :
    Acts env trust keeps k pre (Prog.ofExcept (r.mapError (fun e => .error (wrap e))))
      (fun a _ => r = .ok a) :=
  judged (fun e _ => guest e)

theorem look {view : GuestMemoryMmap} {p : Prog World (Failure DeviceError) α} {yields : α → Prop}
    (viewed : ∀ c, pre c → c.world.view = view) (looks : Looks env trust view p yields) :
    Acts env trust keeps k pre (Cell.onWorld p) (fun a _ => yields a) :=
  Triple.zoom looks viewed
    (fun _ _ _ moves => .ofWorld kept.refl (moves.widen (fun _ none => none.elim)))
    (fun _ _ _ _ _ holds => holds)

/-- The action stands in the trace, after the earlier ones. -/
theorem recorded (earlier : ∀ c, pre c → k ≤ c.trace.length) (action : Action) :
    Acts env trust keeps k pre (Cell.record action) (fun _ c => action ∈ c.trace.drop k) := by
  refine modify (fun c here => ⟨.recorded kept.refl action,?_⟩)
  rw [List.drop_append_of_le_length (earlier c here)]
  exact List.mem_append_right _ (List.mem_singleton.mpr rfl)

theorem record (action : Action) : Acts env trust keeps k pre (Cell.record action) (fun _ _ => True) :=
  modify (fun _ _ => ⟨.recorded kept.refl action,trivial⟩)

end Acts

/-- A cell with `n` queues of positive size, a known view and `k` earlier actions. -/
structure Wired (view : GuestMemoryMmap) (n k : Nat) (c : Cell D) : Prop where
  view : c.world.view = view
  count : c.queues.rings.length = n
  earlier : k ≤ c.trace.length
  sized : ∀ q ∈ c.queues.rings, 0 < q.size

theorem Wired.lasting {view : GuestMemoryMmap} {n : Nat} :
    Lasting env trust keeps k (Wired view n k : Cell D → Prop) := by
  intro c c' moves wired
  refine ⟨moves.world.view.trans wired.view,moves.rings.length.trans wired.count,
    Nat.le_trans wired.earlier moves.grown.length_le,?_⟩
  intro q' member
  obtain ⟨q,inside,same⟩ := moves.rings.mem member
  rw [same]
  exact wired.sized q inside

def ReadyRing (index : Nat) (c : Cell D) : Prop :=
  ∃ q, c.queues.rings[index]? = some q ∧ q.ready = true

theorem ReadyRing.lasting {index : Nat} : Lasting env trust keeps k (ReadyRing index : Cell D → Prop) := by
  rintro c c' moves ⟨q,found,ready⟩
  obtain ⟨q',found',same⟩ := moves.rings.get found
  rw [same] at found'
  exact ⟨_,found',ready⟩

def Popped (k index : Nat) (chain : Chain) (c : Cell D) : Prop := .popped index chain ∈ c.trace.drop k

theorem Popped.lasting {index : Nat} {chain : Chain} :
    Lasting env trust keeps k (Popped k index chain : Cell D → Prop) := by
  intro c c' moves popped
  obtain ⟨rest,grown⟩ := moves.grown
  unfold Popped
  rw [← grown,List.drop_append]
  exact List.mem_append_left _ popped

def Checked (env : Env) (view : GuestMemoryMmap) (descriptors : List Descriptor) : Prop :=
  ∀ d ∈ descriptors, env.vm.checkRange view d.addr d.len = true ∧ d.onlyNextWrite = true

/-- What is known of a popped chain: it comes from a ready queue, is recorded,
and its descriptors were checked. -/
structure Taken (env : Env) (view : GuestMemoryMmap) (k index : Nat) (chain : Chain) (c : Cell D) : Prop where
  ready : ReadyRing index c
  popped : Popped k index chain c
  filled : chain.descriptors ≠ []
  checked : Checked env view chain.descriptors

theorem Taken.lasting {view : GuestMemoryMmap} {index : Nat} {chain : Chain} :
    Lasting env trust keeps k (Taken env view k index chain : Cell D → Prop) :=
  fun c c' moves taken => ⟨.lasting c c' moves taken.ready,.lasting c c' moves taken.popped,
    taken.filled,taken.checked⟩

theorem Wired.found {view : GuestMemoryMmap} {n index : Nat} {c : Cell D} (wired : Wired view n k c)
    (bound : index < n) : ∃ q, c.queues.rings[index]? = some q :=
  ⟨_,List.getElem?_eq_getElem (by rw [wired.count]; exact bound)⟩

namespace Queues

theorem ring_run {c : Cell D} {index : Nat} {q : Queue} (found : c.queues.rings[index]? = some q) :
    (Cell.ring index : Prog (Cell D) (Failure DeviceError) Queue).run c = (.ok q,c) := by
  simp only [Cell.ring,Prog.run_bind,Prog.run_get,found]
  rfl

/-- One step of the available iterator, after guest and host have moved. -/
theorem takeHead_run {c : Cell D} {index : Nat} {q : Queue} (found : c.queues.rings[index]? = some q) :
    (takeHead env index).run c =
      (match (env.vq.next q c.world.view (c.world.tick env).host).1 with
        | .error e => .error (.error (.queue e))
        | .ok none => .error (.error .invalidAvailableDescriptor)
        | .ok (some head) => .ok head,
       Cell.setRing index (env.vq.next q c.world.view (c.world.tick env).host).2
         {c with world := c.world.tick env}) := by
  rw [takeHead,Prog.run_bind,ring_run found]
  change (match (env.vq.next q c.world.view (c.world.tick env).host).1 with
    | .error e => Prog.fail (.error (.queue e))
    | .ok none => Prog.fail (.error .invalidAvailableDescriptor)
    | .ok (some head) => Pure.pure head : Prog (Cell D) (Failure DeviceError) Nat).run
      (Cell.setRing index (env.vq.next q c.world.view (c.world.tick env).host).2
        {c with world := c.world.tick env}) = _
  rcases (env.vq.next q c.world.view (c.world.tick env).host).1 with e | _ | head <;> rfl

def offered (env : Env) (index : Nat) (q : Queue) (head len : Nat) (c : Cell D) : Cell D :=
  Cell.setRing index (env.vq.addUsed q c.world.view c.world.host head len).2.1
    {c with world := {c.world with host := (env.vq.addUsed q c.world.view c.world.host head len).2.2}}

theorem complete_run {c : Cell D} {index head len : Nat} {q : Queue}
    (found : c.queues.rings[index]? = some q) :
    (complete env index head len).run c =
      match (env.vq.addUsed q c.world.view c.world.host head len).1 with
        | .error e => (.error (.error (.queue e)),offered env index q head len c)
        | .ok () => (.ok (),{(offered env index q head len c) with
            queues := {(offered env index q head len c).queues with
              interrupt := c.queues.interrupt ||| 1}
            trace := c.trace ++ [.completed index head len]}) := by
  rw [complete,Prog.run_bind,ring_run found]
  change (match (env.vq.addUsed q c.world.view c.world.host head len).1 with
    | .error e => Prog.fail (.error (.queue e))
    | .ok () => do
      Prog.modify (fun c => {c with queues := {c.queues with interrupt := c.queues.interrupt ||| 1}})
      Cell.record (.completed index head len) : Prog (Cell D) (Failure DeviceError) Unit).run
        (offered env index q head len c) = _
  rcases (env.vq.addUsed q c.world.view c.world.host head len).1 with e | ok <;> rfl

/-- A used element is counted, or not. -/
theorem offered_same (lawful : env.vq.Lawful) {index : Nat} {q : Queue} {c : Cell D}
    (found : c.queues.rings[index]? = some q) (head len : Nat) :
    SameRings c.queues.rings (offered env index q head len c).queues.rings := by
  refine .set found ?_
  rcases lawful.used_queue q c.world.view c.world.host head len with kept | counted
  · rw [kept]
    exact .refl q
  · rw [counted]
    rfl

variable [kept : Kept keeps] {view : GuestMemoryMmap} {n : Nat}

theorem ring_acts {index : Nat} (bound : index < n) :
    Acts env trust keeps k (Wired view n k) (Cell.ring index)
      (fun q (c : Cell D) => c.queues.rings[index]? = some q) := by
  intro c wired
  obtain ⟨q,found⟩ := wired.found bound
  rw [ring_run found]
  exact ⟨.refl kept.refl c,fun q returned => by cases returned; exact found,fun _ failed => by cases failed⟩

theorem available_acts {index : Nat} (bound : index < n) :
    Acts env trust keeps k (Wired view n k) (available env index)
      (fun count (c : Cell D) => count ≠ 0 → ReadyRing index c) := by
  refine Acts.step Wired.lasting (ring_acts bound) (fun q => ?_)
  split
  · exact Acts.pure (fun _ _ none => absurd rfl none)
  · rename_i ready
    have enabled : ∀ c : Cell D, Wired view n k c ∧ c.queues.rings[index]? = some q →
        Wired view n k c ∧ ReadyRing index c :=
      fun c here => ⟨here.1,q,here.2,by simpa using ready⟩
    refine Acts.enter ?_ enabled
    have lasting : Lasting env trust keeps k (fun c : Cell D => Wired view n k c ∧ ReadyRing index c) :=
      Wired.lasting.and ReadyRing.lasting
    refine Acts.glance (fun c here => ?_)
    refine Acts.bind lasting (Acts.require _ rfl) (fun _ _ => ?_)
    refine Acts.bind lasting (Acts.look (fun c here => here.1.view) (Looks.availIdx q)) (fun idx _ => ?_)
    exact Acts.bind lasting (Acts.require _ rfl) (fun _ _ => Acts.pure (fun c here _ => here.2))

theorem next_same (lawful : env.vq.Lawful) (q : Queue) (view : GuestMemoryMmap) (host : Host) :
    SameRing q (env.vq.next q view host).2 := by
  rcases outcome : env.vq.next q view host with ⟨r,q'⟩
  rcases r with e | _ | head
  · have same := lawful.next_failed q view host (.error e) (by rw [outcome]) nofun
    rw [outcome] at same
    exact same ▸ .refl q
  · have same := lawful.next_failed q view host (.ok none) (by rw [outcome]) nofun
    rw [outcome] at same
    exact same ▸ .refl q
  · rw [lawful.next_taken q view host head q' outcome]
    rfl

theorem takeHead_acts (lawful : env.vq.Lawful) {index : Nat} (bound : index < n) :
    Acts env trust keeps k (Wired view n k : Cell D → Prop) (takeHead env index) (fun _ _ => True) := by
  intro c wired
  obtain ⟨q,found⟩ := wired.found bound
  have ticked : Cell.Moves env trust keeps k c {c with world := c.world.tick env} :=
    .ofWorld kept.refl ((World.tick_moves c.world).widen (fun _ none => none.elim))
  have taken := ticked.trans kept.trans (.setRing kept.refl found
    (next_same lawful q c.world.view (c.world.tick env).host))
  rw [takeHead_run found]
  refine ⟨taken,fun _ _ => trivial,?_⟩
  intro f failed
  rcases outcome : (env.vq.next q c.world.view (c.world.tick env).host).1 with e | _ | head <;>
    rw [outcome] at failed <;> cases failed
  · exact .guest rfl
  · exact .guest rfl

theorem pop_acts (lawful : env.vq.Lawful) {index : Nat} (bound : index < n) :
    Acts env trust keeps k (Wired view n k) (pop env index)
      (fun popped (c : Cell D) => ∀ chain, popped = some chain → Taken env view k index chain c) := by
  refine Acts.step Wired.lasting (available_acts bound) (fun count => ?_)
  split
  · exact Acts.pure (fun _ _ _ returned => by cases returned)
  · rename_i more
    have lasting : Lasting env trust keeps k (fun c : Cell D => Wired view n k c ∧ ReadyRing index c) :=
      Wired.lasting.and ReadyRing.lasting
    refine Acts.enter ?_ (fun c here => (⟨here.1,here.2 more⟩ : Wired view n k c ∧ ReadyRing index c))
    refine Acts.bind lasting ((takeHead_acts lawful bound).enter (fun _ here => here.1)) (fun head _ => ?_)
    refine Acts.bind lasting (((ring_acts bound).enter (fun _ here => here.1)).mono
      (fun _ _ _ => trivial)) (fun q _ => ?_)
    refine Acts.bind lasting (Acts.look (fun _ here => here.1.view) (Looks.popChain q q.size head))
      (fun descriptors sound => ?_)
    refine Acts.step lasting (Acts.recorded (fun _ here => here.1.earlier) _) (fun _ => Acts.pure ?_)
    rintro c ⟨⟨_,ready⟩,logged⟩ chain returned
    cases returned
    exact ⟨ready,logged,sound.1,sound.2⟩

/-- Offering a used element writes its ring and counts it, or not. -/
theorem offered_moves (lawful : env.vq.Lawful) {index head len : Nat} {q : Queue} {c : Cell D}
    (found : c.queues.rings[index]? = some q) (ready : q.ready = true) :
    Cell.Moves env trust keeps k c (offered env index q head len c) := by
  have written : World.Moves env (fun p => trust.wild ∨ c.Writable (c.trace.drop k) p) c.world
      {c.world with host := (env.vq.addUsed q c.world.view c.world.host head len).2.2} := by
    refine ⟨rfl,rfl,rfl,⟨[],rfl⟩,?_⟩
    intro p _ outside
    by_contra changed
    obtain ⟨i,less,backs⟩ := lawful.used_writes _ _ _ _ _ _ changed
    exact outside (.inr (.inl ⟨q,List.mem_of_getElem? found,ready,i,less,backs⟩))
  exact ⟨List.prefix_refl _,written,offered_same lawful found head len,rfl,.inl rfl,kept.refl _⟩

theorem complete_acts (lawful : env.vq.Lawful) {index : Nat} (head len : Nat) :
    Acts env trust keeps k (ReadyRing index : Cell D → Prop) (complete env index head len)
      (fun _ _ => True) := by
  rintro c ⟨q,found,ready⟩
  have moved : Cell.Moves env trust keeps k c (offered env index q head len c) :=
    offered_moves lawful found ready
  rw [complete_run found]
  cases (env.vq.addUsed q c.world.view c.world.host head len).1 with
  | error e =>
    refine ⟨moved,fun _ _ => trivial,?_⟩
    intro f failed
    cases failed
    exact .guest rfl
  | ok _ =>
    refine ⟨moved.trans kept.trans ?_,fun _ _ => trivial,?_⟩
    · exact ⟨List.prefix_append _ _,.refl _,.refl _,rfl,.inr rfl,kept.refl _⟩
    · intro f failed
      cases failed

end Queues
end Cells
end WVmm.Devices
