import WVmm.Devices.BlockRequests
import WVmm.Devices.TransmitPass

/-! What a driver publishes in a queue: its rings and the chain that comes next, as
guest memory shows them at the moments of a pass. A published chain is taken while
the guest goes on, and once it is dealt with the used ring has room for it. -/
namespace WVmm
open Lib.Effect

theorem World.Later.snapshot {env : Env} {w w' : World} {view : GuestMemoryMmap} {host : Host}
    (here : World.Snapshot env view host w) (later : World.Later env w w') : World.Snapshot env view host w' := by
  obtain ⟨n,rfl⟩ := later
  induction n with
  | zero => exact here
  | succ n ih =>
    rw [Function.iterate_succ_apply']
    exact ih.tick

def GuestMemoryMmap.Covers (view : GuestMemoryMmap) (range : Nat × Nat) : Prop :=
  ∀ i < range.2, ∃ p, view.Backs (range.1 + i) p

/-- What the packages document about accesses of guest memory and of the used ring. -/
structure Env.Covering (env : Env) : Prop where
  check : ∀ (view : GuestMemoryMmap) a n, env.vm.checkRange view a n = true ↔ view.Covers (a,n)
  read : ∀ (view : GuestMemoryMmap) host a n, (∃ raw, env.vm.readSlice view host a n = .ok raw) ↔ view.Covers (a,n)
  write : ∀ (view : GuestMemoryMmap) host a raw, (env.vm.writeSlice view host a raw).1 = .ok () ↔ view.Covers (a,raw.length)
  used : ∀ (q : Queue) (view : GuestMemoryMmap) host head len, head < q.size → view.Covers (q.usedRing,6 + q.size * 8) →
    (env.vq.addUsed q view host head len).1 = .ok ()

structure Env.Rings (env : Env) : Prop where
  covering : env.Covering
  reads : env.Reads
  accesses : env.Accesses
  iterates : ∀ view host q, Devices.Queues.Housed env view q → Devices.Queues.Iterates env view host q

namespace Devices

variable {env : Env}

theorem popChain_success (covering : env.Covering) {q : Queue} {fuel index : Nat} {descriptors : List Descriptor}
    {w w' : World} (ran : (Queues.popChain env q fuel index).run w = (.ok descriptors,w')) :
    index < q.size ∧ ∀ d ∈ descriptors, w.view.Covers (d.addr,d.len) := by
  refine ⟨?_,fun d member => ?_⟩
  · cases fuel with
    | zero => cases ran
    | succ fuel =>
      obtain ⟨_,_,inside,_⟩ := Prog.bind_success ran
      exact (Prog.require_success inside).1
  · have looked := (@Looks.popChain env ⟨True,True⟩ w.view q fuel index w rfl).2.1
    rw [ran] at looked
    exact (covering.check _ _ _).mp ((looked descriptors rfl).2 d member).1

/-- A chain that is taken has its head in the ring and its buffers in the view. -/
theorem pop_chain (lawful : env.vq.Lawful) (covering : env.Covering) {D : Type} {c c' : Cell D} {index : Nat}
    {q : Queue} (found : c.queues.rings[index]? = some q) {chain : Chain}
    (ran : (Queues.pop env index).run c = (.ok (some chain),c')) :
    q.ready = true ∧ chain.head < q.size ∧ ∀ d ∈ chain.descriptors, c.world.view.Covers (d.addr,d.len) := by
  obtain ⟨count,c₁,counted,then₁⟩ := Prog.bind_success ran
  obtain ⟨later,same⟩ := (Queues.available_waits index).ran counted
  split at then₁
  · cases then₁
  have ready : q.ready = true := by
    by_contra idle
    rw [Queues.available_not_ready found (by simpa using idle)] at counted
    cases counted
    exact absurd rfl ‹¬_›
  obtain ⟨head,c₂,advanced,then₂⟩ := Prog.bind_success then₁
  obtain ⟨q',here,rfl⟩ := takeHead_success lawful advanced
  have still : c₁.world.view = c.world.view := later.view
  rw [same] at here
  cases Option.some.inj (found.symm.trans here)
  obtain ⟨taken,c₃,looked,then₃⟩ := Prog.bind_success then₂
  obtain ⟨held,rfl⟩ := ring_success looked
  obtain ⟨descriptors,c₄,walked,then₄⟩ := Prog.bind_success then₃
  cases then₄
  have size : taken.size = q.size := by
    have below : index < c₁.queues.rings.length := by
      rw [same]
      exact (List.getElem?_eq_some_iff.mp found).1
    change (c₁.queues.rings.set index _)[index]? = some taken at held
    rw [List.getElem?_set_self below] at held
    rw [← Option.some.inj held]
  have outcome := congrArg Prod.fst walked
  have world := congrArg (fun r => r.2.world) walked
  have chained : (Queues.popChain env taken taken.size head).run (c₁.world.tick env) = (.ok descriptors,c₄.world) :=
    Prod.ext outcome world
  obtain ⟨inside,buffers⟩ := popChain_success covering chained
  rw [size] at inside
  refine ⟨ready,inside,fun d member => ?_⟩
  rw [← still]
  exact buffers d member

theorem slices_covered (accesses : env.Accesses) {view : GuestMemoryMmap} {descriptors : List Descriptor}
    (covered : ∀ d ∈ descriptors, view.Covers (d.addr,d.len)) :
    ∃ all, Buffers.slices env.vm view descriptors = .ok all := by
  refine Block.slices_found accesses (fun a member => ?_)
  obtain ⟨d,inside,place⟩ := List.mem_flatMap.mp member
  obtain ⟨low,high⟩ := List.mem_range'_1.mp place
  have here := covered d inside (a - d.addr) (by dsimp only; omega)
  rwa [Nat.add_sub_cancel' low] at here

theorem complete_taken {D : Type} {c : Cell D} {index head len : Nat} {q q' : Queue} {host : Host}
    (found : c.queues.rings[index]? = some q)
    (added : env.vq.addUsed q c.world.view c.world.host head len = (.ok (),q',host)) :
    (Queues.complete env index head len).run c = (.ok (),{c with
      queues := {c.queues with rings := c.queues.rings.set index q', interrupt := c.queues.interrupt ||| 1}
      world := {c.world with host := host}
      trace := c.trace ++ [.completed index head len]}) := by
  rw [Queues.complete_run found,Queues.offered,added]
  rfl

/-- A used ring in guest memory takes the chains of its queue. -/
theorem complete_covered (covering : env.Covering) {D : Type} {c : Cell D} {index head : Nat} {q : Queue}
    (found : c.queues.rings[index]? = some q) (used : c.world.view.Covers (q.usedRing,6 + q.size * 8))
    (inside : head < q.size) (len : Nat) : ∃ c', (Queues.complete env index head len).run c = (.ok (),c') := by
  have taken := covering.used q c.world.view c.world.host head len inside used
  exact ⟨_,complete_taken found (Prod.ext taken rfl)⟩

namespace Queues
open World

variable (env)

def storedIndex (q : Queue) (w : World) : Option Nat :=
  (env.vm.readSlice w.view w.host (q.availRing + 2) 2).toOption.map fromLeBytes

structure Placed (view : GuestMemoryMmap) (q : Queue) : Prop extends Housed env view q where
  used : view.Covers (q.usedRing,6 + q.size * 8)

def Exhausted (q : Queue) (w : World) : Prop := ∃ idx, storedIndex env q w = some idx ∧ pending idx q.nextAvail = 0

structure Next (q : Queue) (chain : Chain) (w : World) : Prop where
  stored : ∃ idx, storedIndex env q w = some idx ∧ 0 < pending idx q.nextAvail ∧ pending idx q.nextAvail ≤ q.size
  head : slotHead env w.view w.host q q.nextAvail = some chain.head
  formed : WellFormed env w.view w.host q chain.head chain.descriptors

/-- The moments from a first one up to a time. -/
def During (seen : World) (last : Nat) (w : World) : Prop := Later env seen w ∧ w.ticks ≤ last

/-- When the device comes to look, the driver has published nothing more on a ready
queue, or a chain that fits and stays as it is meanwhile. -/
def Supplied {D : Type} (index : Nat) (fit : Chain → World → Prop) (last : Nat) (c : Cell D) : Prop :=
  ∀ q, c.queues.rings[index]? = some q → q.ready = true → Placed env c.world.view q ∧
    (Exhausted env q (c.world.tick env) ∨
      ∃ chain, ∀ w, During env (c.world.tick env) last w → Next env q chain w ∧ fit chain w)

variable {env} {q : Queue}

theorem During.next {seen w w' : World} {last : Nat} (during : During env seen last w) (later : Later env w w')
    (inside : w'.ticks ≤ last) : During env seen last w' := ⟨trans_of (Later env) during.1 later,inside⟩

theorem storedIndex_read (reads : env.Reads) {view : GuestMemoryMmap} (housed : Housed env view q) {w : World} {idx : Nat}
    (stored : storedIndex env q w = some idx) : env.vq.availIdx q w.view w.host = .ok idx := by
  unfold storedIndex at stored
  cases raw : env.vm.readSlice w.view w.host (q.availRing + 2) 2 with
  | error e =>
    rw [raw] at stored
    cases stored
  | ok bytes =>
    rw [raw] at stored
    cases stored
    have fits := housed.avail.1
    exact reads.index q w.view w.host bytes (by omega) raw

/-- A descriptor of the table is read, once the guest has moved. -/
theorem readDescriptor_run {index : Nat} (inside : index < q.size) {w : World} {d : Descriptor}
    (found : descriptorAt env w.view (w.tick env).host q index = some d) :
    (readDescriptor env (wrappingAdd q.descTable (index * 16))).run w = (.ok d,w.tick env) := by
  rw [descriptorAt,if_pos inside] at found
  have view : (w.tick env).view = w.view := rfl
  simp only [readDescriptor,readSlice,Prog.run_bind,observe,Prog.run_modify,Prog.run_get,Prog.run_ofExcept,view]
  cases raw : env.vm.readSlice w.view (w.tick env).host (wrappingAdd q.descTable (index * 16)) 16 with
  | error e =>
    rw [raw] at found
    cases found
  | ok bytes =>
    rw [raw] at found
    cases found
    rfl

/-- The first descriptor of a chain, and the chain behind it. -/
theorem WellFormed.uncons {view : GuestMemoryMmap} {host : Host} {head : Nat} {d : Descriptor} {rest : List Descriptor}
    (formed : WellFormed env view host q head (d::rest)) :
    descriptorAt env view host q head = some d ∧ Sound env view d ∧
      ((Descriptor.link d = none ∧ rest = []) ∨
        ∃ next, Descriptor.link d = some next ∧ WellFormed env view host q next rest) := by
  obtain ⟨trail,sound⟩ := formed
  refine ⟨?_,sound d List.mem_cons_self,?_⟩
  · cases trail <;> assumption
  · cases trail with
    | last _ ended => exact .inl ⟨ended,rfl⟩
    | more _ goes later => exact .inr ⟨_,goes,later,fun e member => sound e (List.mem_cons_of_mem d member)⟩

def walkOn (env : Env) (q : Queue) (fuel : Nat) (d : Descriptor) : Prog World (Failure DeviceError) (List Descriptor) := do
  if !d.hasNext then return [d]
  let rest ← popChain env q fuel d.next
  return d::rest

theorem popChain_run {fuel index : Nat} (inside : index < q.size) {w : World} {d : Descriptor}
    (found : descriptorAt env w.view (w.tick env).host q index = some d) (sound : Sound env w.view d) :
    (popChain env q (fuel + 1) index).run w = (walkOn env q fuel d).run (w.tick env) := by
  have direct := onlyNextWrite_direct sound.2
  have range : env.vm.checkRange (w.tick env).view d.addr d.len = true := sound.1
  rw [popChain,Prog.run_guard,if_pos inside,Prog.run_bind,readDescriptor_run inside found]
  dsimp only
  rw [Prog.run_guard,if_pos (by rw [direct]; rfl),Prog.run_bind,checkRange,Prog.run_bind,Prog.run_get]
  dsimp only [Prog.run_pure]
  rw [Prog.run_guard,if_pos (by rw [sound.2,range]; rfl)]
  rfl

theorem walkOn_later (fuel : Nat) (d : Descriptor) : Always (Later env) (walkOn env q fuel d) := by
  unfold walkOn
  split
  · exact .pure _
  · exact .bind (popChain_later q fuel d.next) (fun rest => .pure _)

theorem ages_bind {ε α β : Type} {m : Prog World ε α} {f : α → Prog World ε β} {t w : World} (first : Ages t (m.run w).2)
    (rest : ∀ a, Always Ages (f a)) : Ages t ((m >>= f).run w).2 := by
  rw [Prog.run_bind]
  rcases ran : m.run w with ⟨_ | a,w'⟩
  all_goals rw [ran] at first
  · exact first
  · exact trans_of Ages first (rest a w')

theorem popChain_ages {fuel index : Nat} (inside : index < q.size) (w : World) :
    Ages (w.tick env) ((popChain env q (fuel + 1) index).run w).2 := by
  rw [popChain,Prog.run_guard,if_pos inside]
  refine ages_bind ?_ (fun d => .bind (.require _ _) (fun _ => .bind (.bind .get (fun _ => .pure _)) (fun _ =>
    .bind (.require _ _) (fun _ x => (@walkOn_later env q fuel d x).ages))))
  refine ages_bind (ages_bind ?_ (fun _ => .bind .get (fun _ => .ofExcept _))) (fun raw => .pure _)
  exact refl_of Ages (w.tick env)

/-- A chain that stays as it is is walked. -/
theorem popChain_supplied {descriptors : List Descriptor} {fuel head last : Nat} {w : World}
    (enough : descriptors.length ≤ fuel) (ends : ((popChain env q fuel head).run w).2.ticks ≤ last)
    (formed : ∀ x, During env w last x → WellFormed env x.view x.host q head descriptors) :
    ∃ w', (popChain env q fuel head).run w = (.ok descriptors,w') := by
  induction descriptors generalizing fuel head w with
  | nil =>
    have here := formed w ⟨refl_of (Later env) w,Nat.le_trans ((popChain_later q fuel head) w).ages ends⟩
    cases here.trail
  | cons d rest ih =>
    obtain ⟨fuel,rfl⟩ : ∃ n, fuel = n + 1 := ⟨fuel - 1,by simp only [List.length_cons] at enough; omega⟩
    have start : During env w last w := ⟨refl_of (Later env) w,Nat.le_trans ((popChain_later q _ head) w).ages ends⟩
    have inside : head < q.size := Finset.mem_range.mp (descriptorAt_inside head d (formed w start).uncons.1)
    have moved : During env w last (w.tick env) := start.next ⟨1,rfl⟩ (Nat.le_trans (popChain_ages inside w) ends)
    obtain ⟨found,sound,more⟩ := (formed _ moved).uncons
    have walked := @popChain_run env q fuel head inside w d found sound
    rw [walked] at ends ⊢
    rcases more with ⟨ended,rfl⟩ | ⟨next,goes,_⟩
    · rw [walkOn,Descriptor.link_eq_none.mp ended]
      exact ⟨_,rfl⟩
    · obtain ⟨link,rfl⟩ := Descriptor.link_eq_some.mp goes
      have onward : (walkOn env q fuel d).run (w.tick env) =
          (popChain env q fuel d.next >>= fun rest => Pure.pure (d::rest)).run (w.tick env) := by
        rw [walkOn,link]
        rfl
      rw [onward,Prog.run_bind] at ends ⊢
      have finished : ((popChain env q fuel d.next).run (w.tick env)).2.ticks ≤ last := by
        rcases result : (popChain env q fuel d.next).run (w.tick env) with ⟨_ | _,w'⟩
        all_goals
          rw [result] at ends
          exact ends
      obtain ⟨w',took⟩ := ih (by simp only [List.length_cons] at enough; omega) finished (fun x during => by
        obtain ⟨_,_,⟨ended,_⟩ | ⟨next,goes,later⟩⟩ := (formed x ⟨trans_of (Later env) ⟨1,rfl⟩ during.1,during.2⟩).uncons
        · cases link.symm.trans (Descriptor.link_eq_none.mp ended)
        · obtain ⟨_,rfl⟩ := Descriptor.link_eq_some.mp goes
          exact later)
      rw [took]
      exact ⟨_,rfl⟩

section Pops
variable {D : Type} {c : Cell D} {index last : Nat} {fit : Chain → World → Prop}

theorem Next.inside {chain : Chain} {w : World} (next : Next env q chain w) : chain.head < q.size := by
  obtain ⟨trail,_⟩ := next.formed
  generalize chain.descriptors = descriptors at trail
  cases trail with
  | last found _ => exact Finset.mem_range.mp (descriptorAt_inside _ _ found)
  | more found _ _ => exact Finset.mem_range.mp (descriptorAt_inside _ _ found)

def Aged (c c' : Cell D) : Prop := Ages c.world c'.world

instance : IsPreorder (Cell D) Aged where
  refl c := refl_of Ages c.world
  trans _ _ _ := trans_of Ages

theorem takeChain_ages (found : c.queues.rings[index]? = some q) :
    Ages (c.world.tick env) ((takeChain env index).run c).2.world := by
  have looks : Always Aged (Cell.ring index : Prog (Cell D) (Failure DeviceError) Queue) := by
    refine .bind .get (fun c => ?_)
    split
    · exact .pure _
    · exact .fail _
  have walks : ∀ (q : Queue) head, Always Aged (Cell.onWorld (popChain env q q.size head) : Prog (Cell D) _ _) :=
    fun q head => Always.zoom (fun w => (popChain_later q q.size head w).ages) (fun _ _ aged => aged)
  have rest : ∀ head, Always Aged ((do
      let q ← Cell.ring index
      let descriptors ← Cell.onWorld (popChain env q q.size head)
      Cell.record (.popped index ⟨head,descriptors⟩)
      return some ⟨head,descriptors⟩) : Prog (Cell D) (Failure DeviceError) (Option Chain)) :=
    fun head => .bind looks (fun q => .bind (walks q head) (fun _ =>
      .bind (.modify (fun c => refl_of Ages c.world)) (fun _ => .pure _)))
  rw [takeChain,Prog.run_bind,takeHead_run found]
  rcases (env.vq.next q c.world.view (c.world.tick env).host).1 with e | _ | head
  · exact refl_of Ages (c.world.tick env)
  · exact refl_of Ages (c.world.tick env)
  · exact rest head (Cell.setRing index (env.vq.next q c.world.view (c.world.tick env).host).2
      {c with world := c.world.tick env})

theorem pop_ages (rings : env.Rings) (found : c.queues.rings[index]? = some q) (ready : q.ready = true)
    (placed : Placed env c.world.view q) : Ages (c.world.tick env) ((pop env index).run c).2.world := by
  obtain ⟨⟨idx,read⟩,_⟩ := placed.toHoused.reads rings.reads (c.world.tick env).host 0
  by_cases none : pending idx q.nextAvail = 0
  · rw [pop_empty found ready placed.valid read none]
    exact refl_of Ages (c.world.tick env)
  by_cases fits : pending idx q.nextAvail ≤ q.size
  · rw [pop_taking found ready placed.valid read (Nat.pos_of_ne_zero none) fits]
    exact trans_of Ages (tick_ages _) (takeChain_ages (c := {c with world := c.world.tick env}) found)
  · rw [pop_overrun found ready placed.valid read (Nat.not_le.mp fits)]
    exact refl_of Ages (c.world.tick env)

/-- On a published queue the device takes the next chain, if there is one. -/
theorem pop_supplied (lawful : env.vq.Lawful) (rings : env.Rings) (found : c.queues.rings[index]? = some q)
    (supplied : Supplied env index fit last c) (ends : ((pop env index).run c).2.world.ticks ≤ last) :
    ∃ popped c', (pop env index).run c = (.ok popped,c') ∧ ∀ chain, popped = some chain →
      ∀ w, During env (c.world.tick env) last w → Next env q chain w ∧ fit chain w := by
  by_cases ready : q.ready = true
  swap
  · refine ⟨none,c,?_,nofun⟩
    rw [pop,Prog.run_bind,available_not_ready found (by simpa using ready)]
    rfl
  obtain ⟨placed,none | ⟨chain,stays⟩⟩ := supplied q found ready
  · obtain ⟨idx,stored,empty⟩ := none
    have read := storedIndex_read rings.reads placed.toHoused stored
    exact ⟨none,_,pop_empty found ready placed.valid read empty,nofun⟩
  · have began : During env (c.world.tick env) last (c.world.tick env) :=
      ⟨refl_of (Later env) _,Nat.le_trans (pop_ages rings found ready placed) ends⟩
    obtain ⟨idx,stored,more,fits⟩ := (stays _ began).1.stored
    have read := storedIndex_read rings.reads placed.toHoused stored
    have taking := pop_taking found ready placed.valid read more fits
    rw [taking] at ends ⊢
    have walking : During env (c.world.tick env) last ((c.world.tick env).tick env) :=
      began.next ⟨1,rfl⟩ (Nat.le_trans (takeChain_ages (c := {c with world := c.world.tick env}) found) ends)
    obtain ⟨⟨idx',stored',more',fits'⟩,head,_⟩ := (stays _ walking).1
    have read' := storedIndex_read rings.reads placed.toHoused stored'
    have yields := (rings.iterates _ _ q placed.toHoused q.nextAvail idx' read' more' fits' chain.head).mpr head
    have took := takeChain_run (c := {c with world := c.world.tick env}) lawful found yields
    rw [took] at ends ⊢
    have formed : ∀ x, During env ((c.world.tick env).tick env) last x →
        WellFormed env x.view x.host {q with nextAvail := (q.nextAvail + 1) % 65536} chain.head chain.descriptors := by
      intro x during
      obtain ⟨trail,sound⟩ := (stays x ⟨trans_of (Later env) ⟨1,rfl⟩ during.1,during.2⟩).1.formed
      exact ⟨trail,sound⟩
    have enough := (stays _ began).1.formed.length_le
    have finished : ((popChain env {q with nextAvail := (q.nextAvail + 1) % 65536} q.size chain.head).run
        ((c.world.tick env).tick env)).2.ticks ≤ last := by
      generalize (popChain env {q with nextAvail := (q.nextAvail + 1) % 65536} q.size chain.head).run
        ((c.world.tick env).tick env) = walked at ends
      rcases walked with ⟨_ | _,w⟩ <;> exact ends
    obtain ⟨w',walked⟩ := popChain_supplied enough finished formed
    rw [walked]
    refine ⟨_,_,rfl,?_⟩
    rintro _ ⟨⟩
    exact stays

variable {serve : Chain → Prog (Cell D) (Failure DeviceError) Bool}

/-- Take the next chain, if there is one, and serve it. -/
def serveNext (env : Env) (index : Nat) (serve : Chain → Prog (Cell D) (Failure DeviceError) Bool) :
    Prog (Cell D) (Failure DeviceError) Bool := do
  match ← pop env index with
  | none => return false
  | some chain => serve chain

/-- A supplied queue gives nothing, or a chain that stays as it is until it is served. -/
theorem serveNext_supplied (lawful : env.vq.Lawful) (rings : env.Rings) (found : c.queues.rings[index]? = some q)
    (ages : ∀ chain, Always Aged (serve chain))
    (supplied : Supplied env index fit ((serveNext env index serve).run c).2.world.ticks c) :
    ∃ popped c₁, (pop env index).run c = (.ok popped,c₁) ∧ (popped = none → (serveNext env index serve).run c = (.ok false,c₁)) ∧
      ∀ chain, popped = some chain → (serveNext env index serve).run c = (serve chain).run c₁ ∧
        q.ready = true ∧ Placed env c.world.view q ∧ chain.head < q.size ∧
        (∀ d ∈ chain.descriptors, c.world.view.Covers (d.addr,d.len)) ∧ Later env (c.world.tick env) c₁.world ∧
        ∀ w, During env (c.world.tick env) ((serve chain).run c₁).2.world.ticks w → fit chain w := by
  have whole : ∀ popped c₁, (pop env index).run c = (.ok popped,c₁) → (serveNext env index serve).run c =
      (match popped with
        | none => Pure.pure false
        | some chain => serve chain).run c₁ := by
    intro popped c₁ taken
    rw [serveNext,Prog.run_bind,taken]
  have bound : ((pop env index).run c).2.world.ticks ≤ ((serveNext env index serve).run c).2.world.ticks := by
    rcases taken : (pop env index).run c with ⟨e | _ | chain,c₁⟩
    · rw [serveNext,Prog.run_bind,taken]
    · rw [whole _ _ taken]
      exact Nat.le_refl _
    · rw [whole _ _ taken]
      exact ages chain c₁
  obtain ⟨popped,c₁,taken,stays⟩ := pop_supplied lawful rings found supplied bound
  refine ⟨popped,c₁,taken,?_,?_⟩
  · rintro rfl
    exact whole _ _ taken
  · rintro chain rfl
    have served := whole _ _ taken
    obtain ⟨ready,inside,covered⟩ := pop_chain lawful rings.covering found taken
    obtain ⟨placed,_⟩ := supplied q found ready
    have moved := pop_ages rings found ready placed
    rw [taken] at moved
    refine ⟨served,ready,placed,inside,covered,(pop_success lawful taken).1.tick moved,fun w during => ?_⟩
    rw [served] at stays
    exact (stays chain rfl w during).2

end Pops

section Checks
variable {D : Type} {c : Cell D} {index last : Nat} {fit : Chain → World → Prop} {check : Chain → World → Bool}

def places (env : Env) (view : GuestMemoryMmap) (q : Queue) : Bool :=
  env.vq.isValid q view && decide (0 < q.size) &&
    (decide (q.descTable + 16 * q.size ≤ 2^64) && env.vm.checkRange view q.descTable (16 * q.size)) &&
    (decide (q.availRing + 6 + 2 * q.size ≤ 2^64) && env.vm.checkRange view q.availRing (6 + 2 * q.size)) &&
    env.vm.checkRange view q.usedRing (6 + q.size * 8)

theorem places_sound (covering : env.Covering) {view : GuestMemoryMmap} (placed : places env view q = true) :
    Placed env view q := by
  simp only [places,Bool.and_eq_true,decide_eq_true_eq,covering.check] at placed
  obtain ⟨⟨⟨⟨valid,sized⟩,table,inTable⟩,avail,inAvail⟩,used⟩ := placed
  exact ⟨⟨valid,sized,⟨table,inTable⟩,avail,inAvail⟩,used⟩

/-- Whether the next chain of a queue passes a check, if the driver has published one. -/
def offersNext (env : Env) (q : Queue) (check : Chain → World → Bool) (w : World) : Bool :=
  match storedIndex env q w with
  | none => false
  | some idx => pending idx q.nextAvail == 0 || decide (pending idx q.nextAvail ≤ q.size) &&
    match slotHead env w.view w.host q q.nextAvail with
    | none => false
    | some head =>
      match popWalk env w.view w.host q head with
      | .error _ => false
      | .ok descriptors => check ⟨head,descriptors⟩ w

def supplies (env : Env) (index : Nat) (check : Chain → World → Bool) (c : Cell D) : Bool :=
  match c.queues.rings[index]? with
  | none => true
  | some q => !q.ready || places env c.world.view q && offersNext env q check c.world

theorem offersNext_sound {w : World} (offers : offersNext env q check w = true) :
    Exhausted env q w ∨ ∃ chain, Next env q chain w ∧ check chain w = true := by
  unfold offersNext at offers
  split at offers
  · cases offers
  rename_i idx stored
  rw [Bool.or_eq_true,beq_iff_eq,Bool.and_eq_true,decide_eq_true_eq] at offers
  rcases offers with none | ⟨fits,offers⟩
  · exact .inl ⟨idx,stored,none⟩
  by_cases none : pending idx q.nextAvail = 0
  · exact .inl ⟨idx,stored,none⟩
  split at offers
  · cases offers
  rename_i head slot
  split at offers
  · cases offers
  rename_i descriptors walked
  exact .inr ⟨⟨head,descriptors⟩,⟨⟨idx,stored,Nat.pos_of_ne_zero none,fits⟩,slot,popWalk_ok.mp walked⟩,offers⟩

/-- A check that looks at guest memory alone tells whether a still driver has supplied
the queue. -/
theorem supplies_sound (covering : env.Covering) (still : c.world.Still env)
    (sound : ∀ chain w, w.view = c.world.view → w.host = c.world.host → check chain c.world = true → fit chain w)
    (supplied : supplies env index check c = true) : Supplied env index fit last c := by
  intro q found ready
  rw [supplies,found] at supplied
  dsimp only at supplied
  rw [ready,Bool.not_true,Bool.false_or,Bool.and_eq_true] at supplied
  refine ⟨places_sound covering supplied.1,?_⟩
  have start : Snapshot env c.world.view c.world.host (c.world.tick env) := Snapshot.tick ⟨rfl,rfl,still⟩
  rcases offersNext_sound supplied.2 with ⟨idx,stored,none⟩ | ⟨chain,⟨stored,head,formed⟩,fine⟩
  · refine .inl ⟨idx,?_,none⟩
    rw [storedIndex,start.1,start.2.1]
    exact stored
  · refine .inr ⟨chain,fun w during => ?_⟩
    obtain ⟨view,host,_⟩ := Later.snapshot start during.1
    refine ⟨⟨?_,?_,?_⟩,sound chain w view host fine⟩
    · rw [storedIndex,view,host]
      exact stored
    · rw [view,host]
      exact head
    · rw [view,host]
      exact formed

end Checks

end Queues
end Devices

namespace Reference
open Devices

theorem storeIn_succeeds {regions : List Region} (sorted : regions.Pairwise (fun r q => r.start + r.len ≤ q.start))
    (host : Host) (a : Nat) (raw : List UInt8) :
    (storeIn regions host a raw).1 = .ok () ↔ ∀ i < raw.length, ∃ r ∈ regions, r.Holds (a + i) := by
  fun_induction storeIn regions host a raw with
  | case1 => simp
  | case2 host a b raw =>
    constructor
    · intro stored
      cases stored
    · intro all
      obtain ⟨_,member,_⟩ := all 0 (Nat.succ_pos _)
      cases member
  | case3 r rest host a b raw holds len ih =>
    obtain ⟨before,following⟩ := List.pairwise_cons.mp sorted
    obtain ⟨low,high⟩ := holds
    have cut : len = min (raw.length + 1) (r.start + r.len - a) := rfl
    rw [ih following,List.length_drop,List.length_cons]
    constructor
    · intro all i less
      by_cases here : i < len
      · exact ⟨r,List.mem_cons_self,by omega,by omega⟩
      · obtain ⟨q,member,inside⟩ := all (i - len) (by omega)
        rw [show a + len + (i - len) = a + i by omega] at inside
        exact ⟨q,List.mem_cons_of_mem _ member,inside⟩
    · intro all i less
      obtain ⟨q,member,inside⟩ := all (len + i) (by omega)
      rw [← Nat.add_assoc] at inside
      rcases List.mem_cons.mp member with rfl | later
      · obtain ⟨_,_⟩ := inside
        omega
      · exact ⟨q,later,inside⟩
  | case4 r rest host a b raw outside ih =>
    obtain ⟨before,following⟩ := List.pairwise_cons.mp sorted
    rw [ih following]
    constructor
    · intro all i less
      obtain ⟨q,member,inside⟩ := all i less
      exact ⟨q,List.mem_cons_of_mem _ member,inside⟩
    · intro all i less
      obtain ⟨q,member,inside⟩ := all i less
      rcases List.mem_cons.mp member with rfl | later
      · obtain ⟨q,first,low,high⟩ := all 0 (Nat.succ_pos _)
        obtain ⟨low',high'⟩ := inside
        rcases List.mem_cons.mp first with rfl | far
        · exact absurd ⟨low,high⟩ outside
        · -- the first byte lies after the region, and so do the others
          have := before q far
          omega
      · exact ⟨q,later,inside⟩

theorem getSlices_iff (view : GuestMemoryMmap) (a n : Nat) : (∃ ss, getSlices view a n = .ok ss) ↔ view.Covers (a,n) := by
  constructor
  · rintro ⟨ss,found⟩ i less
    have backs := slicesIn_backs view.regions a n ss found
    have length : i < (ss.flatMap VolatileSlice.bytes).length := by
      rw [← backs.length_eq,List.length_range']
      exact less
    have here := (List.forall₂_iff_get.mp backs).2 i (by rw [List.length_range']; exact less) length
    rw [List.get_eq_getElem,List.getElem_range',Nat.one_mul] at here
    exact ⟨_,here⟩
  · intro covered
    refine slicesIn_succeeds view.sorted a n (fun i less => ?_)
    obtain ⟨_,r,member,holds,_⟩ := covered i less
    exact ⟨r,member,holds⟩

theorem writeSlice_iff (view : GuestMemoryMmap) (host : Host) (a : Nat) (raw : List UInt8) :
    (writeSlice view host a raw).1 = .ok () ↔ view.Covers (a,raw.length) := by
  rw [writeSlice,storeIn_succeeds view.sorted]
  constructor
  · intro all i less
    obtain ⟨r,member,holds⟩ := all i less
    exact ⟨_,r,member,holds,rfl⟩
  · intro covered i less
    obtain ⟨_,r,member,holds,_⟩ := covered i less
    exact ⟨r,member,holds⟩

theorem env_covering : env.Covering where
  check view a n := by
    rw [← getSlices_iff]
    change (getSlices view a n).isOk = true ↔ _
    cases getSlices view a n <;> simp [Except.isOk,Except.toBool]
  read view host a n := by
    rw [← getSlices_iff]
    change (∃ raw, (getSlices view a n).map _ = .ok raw) ↔ _
    cases getSlices view a n <;> simp [Except.map]
  write view host a raw := writeSlice_iff view host a raw
  used q view host head len inside ring := by
    have slot : q.nextUsed % q.size < q.size := Nat.mod_lt _ (by omega)
    have entry : ∀ h, (writeSlice view h (q.usedRing + 4 + 8 * (q.nextUsed % q.size))
        (toLeBytes 4 head ++ toLeBytes 4 len)).1 = .ok () := by
      refine fun h => (writeSlice_iff _ _ _ _).mpr (fun i less => ?_)
      rw [List.length_append,toLeBytes_length,toLeBytes_length] at less
      have here := ring (4 + 8 * (q.nextUsed % q.size) + i) (by dsimp only; omega)
      rwa [← Nat.add_assoc,← Nat.add_assoc] at here
    have index : ∀ h, (writeSlice view h (q.usedRing + 2) (toLeBytes 2 ((q.nextUsed + 1) % 65536))).1 = .ok () := by
      refine fun h => (writeSlice_iff _ _ _ _).mpr (fun i less => ?_)
      rw [toLeBytes_length] at less
      have here := ring (2 + i) (by dsimp only; omega)
      rwa [← Nat.add_assoc] at here
    change (addUsed q view host head len).1 = .ok ()
    rw [addUsed,if_neg (by omega)]
    have first := entry host
    generalize writeSlice view host _ (toLeBytes 4 head ++ toLeBytes 4 len) = wrote at first
    obtain ⟨r,host'⟩ := wrote
    change r = .ok () at first
    subst first
    exact index host'

theorem env_rings : env.Rings where
  covering := env_covering
  reads := env_reads
  accesses := env_accesses
  iterates view host q housed := env_iterates housed.sized (by have fits := housed.avail.1; omega) view host

end Reference
end WVmm
