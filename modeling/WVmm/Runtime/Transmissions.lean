import WVmm.Runtime.Effects

/-! Transmitted frames over whole runs of the machine: what the backend accepts,
in which order, and what a disabled queue and a reset do to a deferred frame. -/
namespace WVmm
open Lib.Effect Lib.Runs Devices Platform
open Devices.Net (HEADER Offer Standing Aside txActions onTx onRx)

variable {V C B N U : Type} {env : Env}

/-- The deferred frame alone decides how offers stand. -/
theorem Devices.Net.Standing.same {offers : List Offer} {d d' : Net N} (standing : Standing offers d)
    (pending : d'.pendingTx = d.pendingTx) (frame : d'.tx = d.tx) : Standing offers d' := by
  cases standing with
  | settled idle done => exact .settled (pending.trans idle) done
  | waiting before o declines split done fate waits =>
    exact .waiting before o declines split done (by rw [frame]; exact fate) (pending.trans waits)

namespace Visit

def Sends (v : Visit B N) : Prop :=
  (v.operation = .write 0x50 1 ∧ v.before.mmio.listens 1 = true) ∨
    (v.operation = .poll ∧ v.before.mmio.active = true)

/-- The driver does its part in the transmit pass of the visit: at each turn the ring
lies in guest memory and the next chain is valid, if there is one. -/
def Offers [NetDevice N] (env : Env) (max : Nat) (v : Visit B N) : Prop :=
  ∀ d, v.before.mmio.device = .net d → v.Sends →
    Throughout (Net.transmitTurn env) (Net.Transmittable env max) Net.BUDGET (v.cell d)

/-- A deferred chain is one of a driver past DRIVER_OK, and lies in the ring. -/
def Held (m : Mmio (Device B N)) (d : Net N) : Prop :=
  ∀ head, d.pendingTx = some head → m.Driven ∧ ∀ q, m.queues.rings[1]? = some q → head < q.size

namespace Held

variable {v : Visit B N} {m : Mmio (Device B N)} {d : Net N}

theorem driven {q : Queue} (driven : m.Driven) (found : m.queues.rings[1]? = some q)
    (held : ∀ head, d.pendingTx = some head → head < q.size) : Held m d := by
  refine fun head pending => ⟨driven,fun q' found' => ?_⟩
  cases found.symm.trans found'
  exact held head pending

theorem plain (held : Held v.before.mmio d) (quiet : v.Plain) : Held v.after.mmio d := by
  intro head pending
  obtain ⟨driven,inside⟩ := held head pending
  refine ⟨quiet.driven driven,fun q found => ?_⟩
  obtain ⟨r,old,same | same⟩ := quiet.rings.driven driven found
  all_goals
    rw [same]
    exact inside r old

/-- Receiving leaves what is held. -/
theorem received [NetDevice N] {c c' : Cell (Net N)} {q : Queue} (aside : Aside onTx 1 Net.SameTx c c')
    (found : c.queues.rings[1]? = some q) (held : ∀ head, c.device.pendingTx = some head → head < q.size)
    (driven : m.Driven) (rings : m.queues.rings = c'.queues.rings) : Held m c'.device := by
  refine .driven driven (q := q) ?_ (fun head pending => ?_)
  · rw [rings,aside.ring]
    exact found
  · rw [aside.device.pending] at pending
    exact held head pending

end Held

/-- The transmit queue after some visits: their offers are all that was done on it. -/
structure Transmissions (env : Env) (visits : List (Visit B N)) (offers : List Offer) (d : Net N) : Prop where
  actions : txActions (actions visits) = offers.flatMap Offer.actions
  standing : Standing offers d
  seen : ∀ o ∈ offers, ∃ v ∈ visits, ∃ ring, v.before.mmio.queues.rings[1]? = some ring ∧
    o.Seen env v.before.world ring v.after.trace v.after.world

namespace Transmissions

variable {visits : List (Visit B N)} {offers : List Offer} {d d' : Net N} {v : Visit B N}

theorem idle (transmissions : Transmissions env visits offers d) (none : txActions v.after.trace = [])
    (pending : d'.pendingTx = d.pendingTx) (frame : d'.tx = d.tx) :
    Transmissions env (visits ++ [v]) offers d' := by
  refine ⟨?_,transmissions.standing.same pending frame,?_⟩
  · rw [actions_snoc,txActions,List.filter_append]
    exact (congrArg₂ _ transmissions.actions none).trans (List.append_nil _)
  · intro o member
    obtain ⟨w,inside,seen⟩ := transmissions.seen o member
    exact ⟨w,List.mem_append_left _ inside,seen⟩

variable [NetDevice N]

theorem pass (packages : env.vm.Lawful) (lawful : env.vq.Lawful) (transmissions : Transmissions env visits offers d)
    {c c' : Cell (Net N)} (sent : (Net.transmit env).run (v.cell d) = (.ok (),c)) (aside : Aside onTx 1 Net.SameTx c c')
    (log : v.after.trace = c'.trace) (world : v.after.world = c'.world) :
    ∃ more, Transmissions env (visits ++ [v]) more c'.device := by
  obtain ⟨ring,_,looked,_⟩ := Prog.bind_success sent
  obtain ⟨found,_⟩ := ring_success looked
  obtain ⟨⟨offers',pass,standing⟩,_⟩ :=
    Net.transmit_pass packages lawful found rfl transmissions.actions transmissions.standing sent
  obtain ⟨⟨more,trace,none⟩,_,_,ages,same⟩ := aside
  have whole : txActions (Visit.actions (visits ++ [v])) = txActions (Visit.actions visits ++ c.trace) := by
    rw [actions_snoc,log,trace,← List.append_assoc,txActions,List.filter_append,none,List.append_nil]
    rfl
  refine ⟨offers',?_,standing.same same.pending same.frame,?_⟩
  · rw [whole,pass.actions,List.append_nil]
  · intro o member
    rcases pass.news o member with ⟨first,old,retries⟩ | seen
    · obtain ⟨w,inside,ring',found',seen⟩ := transmissions.seen first old
      exact ⟨w,List.mem_append_left _ inside,ring',found',seen.retries retries⟩
    · refine ⟨v,List.mem_append_right _ (List.mem_singleton.mpr rfl),ring,found,?_⟩
      rw [log,world,trace]
      exact seen.extend ages

theorem step (packages : env.vm.Lawful) (lawful : env.vq.Lawful) (rings : env.Rings) {max : Nat}
    (small : HEADER + max < 2^64) (acts : v.Acts env d) (kind : v.before.mmio.device = .net d) (valid : v.Offers env max)
    (room : d.rx.length = HEADER + max) (answers : NetDevice.Answers d.backend)
    (ring : 1 < v.before.mmio.queues.rings.length) (holding : Held v.before.mmio d)
    (transmissions : Transmissions env visits offers d) : ∃ d', v.after.mmio.device = .net d' ∧
      Held v.after.mmio d' ∧ ∃ more, Transmissions env (visits ++ [v]) more d' := by
  obtain ⟨q,found⟩ : ∃ q, v.before.mmio.queues.rings[1]? = some q := ⟨_,List.getElem?_eq_getElem ring⟩
  have held : ∀ head, d.pendingTx = some head → head < q.size := fun head pending => (holding head pending).2 q found
  have sends : v.Sends → ∃ c, (Net.transmit env).run (v.cell d) = (.ok (),c) ∧
      ∃ q', c.queues.rings[1]? = some q' ∧ ∀ head, c.device.pendingTx = some head → head < q'.size := fun sends =>
    Net.transmit_returns packages lawful rings small found room answers held (valid d kind sends)
  cases acts with
  | plain quiet =>
    exact ⟨d,quiet.device.trans kind,holding.plain quiet,offers,transmissions.idle (by rw [quiet.trace]; rfl) rfl rfl⟩
  | receives asked listens runs =>
    have aside : Aside onTx 1 Net.SameTx (v.cell d) ((Net.receive env).run (v.cell d)).2 := Net.receive_aside _
    obtain ⟨more,trace,none⟩ := aside.trace
    have driven := runs.driven (Mmio.driven_of_active (Bool.and_eq_true_iff.mp listens).1)
    refine ⟨_,runs.device,.received aside found held driven runs.rings,offers,
      transmissions.idle ?_ aside.device.pending aside.device.frame⟩
    rw [runs.trace,trace]
    exact none
  | transmits asked listens runs =>
    obtain ⟨c,sent,q',found',held'⟩ := sends (.inl ⟨asked,listens⟩)
    have driven := runs.driven (Mmio.driven_of_active (Bool.and_eq_true_iff.mp listens).1)
    obtain ⟨device,queue,trace,world,_,_⟩ := runs
    rw [sent] at device queue trace world
    exact ⟨_,device,.driven driven (queue ▸ found') held',
      transmissions.pass packages lawful sent (refl_of _ _) trace world⟩
  | polls asked active runs =>
    obtain ⟨c,sent,q',found',held'⟩ := sends (.inr ⟨asked,active⟩)
    have driven := runs.driven (Mmio.driven_of_active active)
    have polled : (Net.poll env).run (v.cell d) = (Net.receive env).run c := by rw [Net.poll,Prog.run_bind,sent]
    obtain ⟨device,queue,trace,world,_,_⟩ := runs
    rw [polled] at device queue trace world
    exact ⟨_,device,.received (Net.receive_aside c) found' held' driven queue,
      transmissions.pass packages lawful sent (Net.receive_aside c) trace world⟩

end Transmissions

/-- The transmit queue is disabled for good: the driver is past DRIVER_OK. -/
def Halted (m : Mmio (Device B N)) : Prop :=
  m.Driven ∧ ∀ q, m.queues.rings[1]? = some q → q.ready = false

def Disables (v : Visit B N) : Prop :=
  v.operation = .write 0x44 0 ∧ v.before.mmio.queueSel = 1 ∧ v.before.mmio.Driven

section Halting
variable [BlockStorage B] [NetDevice N] [VirtualMachine V C] {v : Visit B N} {d : Net N}

theorem disable_run {D : Type} [VirtioDevice D] (s : Slot D) {q : Queue}
    (found : s.mmio.queues.rings[s.mmio.queueSel.toNat]? = some q) :
    (Mmio.write env 0x44 0).run s =
      (.ok (),s.withMmio (s.mmio.setRing s.mmio.queueSel.toNat {q with ready := false})) := by
  have configured : (Mmio.configure env 0x44 0).run s =
      (.ok (),s.withMmio (s.mmio.setRing s.mmio.queueSel.toNat {q with ready := false})) := by
    have asked : (Mmio.configure env 0x44 0).run s = (Mmio.configureQueue env 0x44 0).run s := rfl
    rw [asked,Mmio.configureQueue,Prog.run_bind,Prog.run_get]
    simp only [found]
    rw [Prog.run_guard,if_pos (fun refused => refused.2 ⟨trivial,trivial⟩),Prog.run_guard,
      if_pos (fun refused => refused.2 ⟨trivial,trivial⟩)]
    rfl
  rw [Mmio.write_run (by decide),configured]

theorem disables_halts (made : Runtime.Made V env v) (disables : v.Disables) : Halted v.after.mmio := by
  obtain ⟨asked,selected,driven⟩ := disables
  obtain ⟨_,_,vm,after⟩ := made
  rw [asked] at after
  change v.after = ((Mmio.write env 0x44 0).run v.before).2 at after
  have one : v.before.mmio.queueSel.toNat = 1 := by rw [selected]; rfl
  cases found : v.before.mmio.queues.rings[v.before.mmio.queueSel.toNat]? with
  | none =>
    have ignored : (Mmio.configure env 0x44 0).run v.before = (.ok (),v.before) := by
      have queue : (Mmio.configure env 0x44 0).run v.before = (Mmio.configureQueue env 0x44 0).run v.before := rfl
      rw [queue,Mmio.configureQueue,Prog.run_bind,Prog.run_get]
      simp only [found]
      rfl
    rw [Mmio.write_run (by decide),ignored] at after
    rw [after]
    refine ⟨driven,fun q present => ?_⟩
    rw [← one,found] at present
    cases present
  | some q =>
    rw [disable_run v.before found] at after
    rw [after]
    refine ⟨driven,fun q' present => ?_⟩
    change (v.before.mmio.queues.rings.set v.before.mmio.queueSel.toNat {q with ready := false})[1]? = some q' at present
    rw [← one,List.getElem?_set_self (List.getElem?_eq_some_iff.mp found).1] at present
    cases present
    rfl

/-- A disabled queue stays so, and nothing is sent. -/
theorem Halted.step (lawful : env.vq.Lawful) (made : Runtime.Made V env v) (other : v.operation.resets = false)
    (kind : v.before.mmio.device = .net d) (halted : Halted v.before.mmio) :
    Halted v.after.mmio ∧ txActions v.after.trace = [] := by
  obtain ⟨driven,disabled⟩ := halted
  have received : ∀ c : Cell (Net N), v.after.mmio.queues.rings = c.queues.rings → v.after.trace = c.trace →
      (v.before.mmio.Driven → v.after.mmio.Driven) → Aside onTx 1 Net.SameTx (v.cell d) c →
      Halted v.after.mmio ∧ txActions v.after.trace = [] := by
    rintro c rings log lasts ⟨⟨more,trace,none⟩,ring,_,_,_⟩
    refine ⟨⟨lasts driven,fun q found => ?_⟩,?_⟩
    · rw [rings,ring] at found
      exact disabled q found
    · rw [log,trace]
      exact none
  cases acts lawful made other kind with
  | plain quiet =>
    refine ⟨⟨quiet.driven driven,fun q found => ?_⟩,by rw [quiet.trace]; rfl⟩
    obtain ⟨r,old,same | same⟩ := quiet.rings.driven driven found
    · rw [same]
      exact disabled r old
    · rw [same]
  | receives asked listens runs => exact received _ runs.rings runs.trace runs.driven (Net.receive_aside _)
  | transmits asked listens runs =>
    have ready := (Bool.and_eq_true_iff.mp listens).2
    cases found : v.before.mmio.queues.rings[1]? with
    | none =>
      rw [found] at ready
      cases ready
    | some q =>
      rw [found] at ready
      exact absurd ((disabled q found).symm.trans ready) (by decide)
  | polls asked active runs =>
    cases found : v.before.mmio.queues.rings[1]? with
    | none =>
      have stuck : (Net.poll env).run (v.cell d) = (.error (.panic .index),v.cell d) := by
        have here : (v.cell d).queues.rings[1]? = none := found
        simp only [Net.poll,Net.transmit,Prog.run_bind,Cell.ring,Prog.run_get,here,Prog.run_fail]
      exact received (v.cell d) (by rw [runs.rings,stuck]) (by rw [runs.trace,stuck]) runs.driven (refl_of _ _)
    | some q =>
      have polled : (Net.poll env).run (v.cell d) = (Net.receive env).run (v.cell d) := by
        have here : (v.cell d).queues.rings[1]? = some q := found
        simp only [Net.poll,Net.transmit,Prog.run_bind,Queues.ring_run here,disabled q found]
        rfl
      exact received _ (by rw [runs.rings,polled]) (by rw [runs.trace,polled]) runs.driven (Net.receive_aside _)

def Transmitting (env : Env) (max : Nat) (m : Mmio (Device B N)) (visits : List (Visit B N)) : Prop :=
  ∃ d, m.device = .net d ∧
    (d.rx.length = HEADER + max ∧ NetDevice.Answers d.backend ∧ 1 < m.queues.rings.length) ∧
    ((∀ w ∈ visits, w.Offers env max) → Held m d ∧ ∃ offers, Transmissions env visits offers d) ∧
    ∀ before v after, visits = before ++ v::after → v.Disables →
      Halted m ∧ ∀ w ∈ after, txActions w.after.trace = []

theorem Transmitting.step (packages : env.vm.Lawful) (lawful : env.vq.Lawful) (rings : env.Rings) {max : Nat}
    (small : HEADER + max < 2^64) (made : Runtime.Made V env v) {visits : List (Visit B N)}
    (transmitting : Transmitting env max v.before.mmio visits) :
    Transmitting env max v.after.mmio (v.resume visits) := by
  obtain ⟨d,kind,⟨room,answers,ring⟩,offered,halts⟩ := transmitting
  unfold resume
  split
  · rename_i resets
    obtain ⟨device,fresh⟩ := resets_net made resets kind
    refine ⟨_,device,⟨room,answers,?_⟩,fun _ => ⟨nofun,[],rfl,.settled rfl nofun,nofun⟩,?_⟩
    · rw [fresh,List.length_map]
      exact ring
    · intro before w after split
      cases before <;> cases split
  rename_i other
  have stays : v.operation.resets = false := Bool.eq_false_iff.mpr other
  have does := acts lawful made stays kind
  obtain ⟨d',device,size,calls,count⟩ := does.lasts kind (by omega)
  refine ⟨d',device,⟨size.trans room,answers.later calls,count ▸ ring⟩,fun all => ?_,?_⟩
  · obtain ⟨held,offers,transmissions⟩ := offered (fun w member => all w (List.mem_append_left _ member))
    obtain ⟨d'',device',more⟩ := transmissions.step packages lawful rings small does kind
      (all v (List.mem_append_right _ (List.mem_singleton.mpr rfl))) room answers ring held
    cases device.symm.trans device'
    exact more
  · intro before w after split disables
    rcases List.eq_nil_or_concat after with rfl | ⟨earlier,last,rfl⟩
    · have here : v = w := (List.cons.inj (List.append_inj' split rfl).2).1
      rw [← here] at disables
      refine ⟨disables_halts made disables,fun u member => ?_⟩
      cases member
    · rw [List.concat_eq_append,← List.cons_append,← List.append_assoc] at split
      obtain ⟨same,ends⟩ := List.append_inj' split rfl
      have here : v = last := (List.cons.inj ends).1
      obtain ⟨halted,silent⟩ := halts before w earlier same disables
      obtain ⟨halted',none⟩ := halted.step lawful made stays kind
      refine ⟨halted',fun u member => ?_⟩
      rw [List.concat_eq_append] at member
      rcases List.mem_append.mp member with old | new
      · exact silent u old
      · rw [List.mem_singleton.mp new,← here]
        exact none

end Halting
end Visit

namespace Runtime

variable [BlockStorage B] [NetDevice N]

theorem created_transmitting {s : Runtime V C B N U} (created : s.Created env) {m : Mmio (Device B N)} {d : Net N}
    (lawful : env.vq.Lawful) (member : m ∈ s.devices) (net : m.device = .net d) (answers : NetDevice.Answers d.backend) :
    Visit.Transmitting env (NetDevice.maxFrameLen d.backend) m [] := by
  obtain ⟨room,_,idle,count,_⟩ := created_net lawful created member net
  refine ⟨d,net,⟨room,answers,by omega⟩,fun _ => ⟨?_,[],rfl,.settled idle (by rintro _ ⟨⟩),(by rintro _ ⟨⟩)⟩,?_⟩
  · intro head pending
    rw [idle] at pending
    cases pending
  · intro before w after split
    cases before <;> cases split

variable [VirtualMachine V C] [Uart U]

/-- The backend accepts the frames of the transmit queue in order, each once, and
the chains of just these are returned. A frame that is deferred is accepted as the
copy that was made of it once it was declined, which is the frame itself unless the
guest wrote to it meanwhile. Once a driver that is past DRIVER_OK has disabled the
queue nothing is sent before the next reset, which forgets the deferred frame. -/
theorem frames_accepted_in_order (packages : env.vm.Lawful) (lawful : env.vq.Lawful) (rings : env.Rings)
    {first s : Runtime V C B N U} (created : first.Created env) (unused : first.log = []) {k : Nat}
    {m : Mmio (Device B N)} {d : Net N} (found : first.devices[k]? = some m) (net : m.device = .net d)
    (answers : NetDevice.Answers d.backend) (reached : Reaches (Happens env) first s)
    (valid : ∀ v ∈ s.sinceReset k, v.Offers env (NetDevice.maxFrameLen d.backend)) :
    let history := Visit.actions (s.sinceReset k)
    (∃ (m' : Mmio (Device B N)) (d' : Net N) (offers : List Offer), s.devices[k]? = some m' ∧ m'.device = .net d' ∧
      txActions history = offers.flatMap Offer.actions ∧
      Net.offered history = offers.map Offer.chain ∧ Net.accepted history <+: offers.map Offer.payload ∧
      returned 1 history = (offers.map (fun o => o.chain.head)).take (Net.accepted history).length ∧
      (∀ o ∈ offers, ∃ v ∈ s.sinceReset k, ∃ ring bytes before after, v.before.mmio.queues.rings[1]? = some ring ∧
        v.after.trace = before ++ .popped 1 o.chain::after ∧
        Net.Passes env ring v.before.world (Net.used 1 before) o.moment ∧ o.moment.ticks ≤ v.after.world.ticks ∧
        o.Genuine env bytes ∧ (o.Undisturbed env bytes → o.payload = o.frame)) ∧
      (s.sinceReset k = [] → d'.pendingTx = none)) ∧
    ∀ before v after, s.sinceReset k = before ++ v::after → v.Disables → ∀ w ∈ after, txActions w.after.trace = [] := by
  have member := List.mem_of_getElem? found
  have small : HEADER + NetDevice.maxFrameLen d.backend < 2^64 := by
    obtain ⟨_,bound,_⟩ := created_net lawful created member net
    unfold HEADER
    omega
  have start := created_transmitting created lawful member net answers
  obtain ⟨m',found',d',kind,_,offered,halts⟩ := since_reset unused found start
    (fun v made visits transmitting => transmitting.step packages lawful rings small made) reached
  obtain ⟨_,offers,transmissions⟩ := offered valid
  obtain ⟨chains,frames,heads⟩ := transmissions.standing.delivered transmissions.actions
  refine ⟨⟨m',d',offers,found',kind,transmissions.actions,chains,frames,heads,?_,?_⟩,?_⟩
  · intro o member
    obtain ⟨v,inside,ring,present,⟨before,after,taken,passes⟩,ages,bytes,genuine⟩ := transmissions.seen o member
    exact ⟨v,inside,ring,bytes,before,after,present,taken,passes,ages,genuine,genuine.payload_eq⟩
  · intro none
    have empty : offers = [] := by
      rw [none] at chains
      exact List.map_eq_nil_iff.mp chains.symm
    cases transmissions.standing with
    | settled idle _ => exact idle
    | waiting before o declines split =>
      rw [empty] at split
      cases before <;> cases split
  · exact fun before v after split disables => (halts before v after split disables).2

end Runtime

namespace Reference

/-- A backend that answers each offer as it is told. -/
structure Gate where
  answers : List Bool

instance : NetDevice Gate where
  mtu := 68
  macAddress _ := [2,0,0,0,0,1]
  maxFrameLen _ := 82
  send g _ _ := (.ok (g.answers.headD false),⟨g.answers.tail⟩)
  recv g _ host := (.ok none,g,host)

def gateMachine (answers : List Bool) : Runtime Vm Nat Disk Gate Port where
  vm := ⟨⟨[],0⟩,false⟩
  layout := Runtime.diskLayout
  devices := [⟨.net ⟨⟨answers⟩,newWire.config,newWire.rx,none,[]⟩,⟨[newRing,newRing],0,0⟩,0,0,0,
    Net.F_MAC ||| Net.F_MTU ||| VERSION_1,0,true,0⟩]
  hasMemory := false
  strict := true
  serial := ⟨[]⟩
  world := {pageWorld with host := txMemory}
  log := []

def meddling (moment : Nat) : Env :=
  {Reference.env with guest := fun n host p => if n = moment ∧ p = 0x40c then 9 else host p}

def firstOffers : List Action → List (List UInt8)
  | .popped 1 _::.send frame _::rest => frame::firstOffers rest
  | _::rest => firstOffers rest
  | [] => []

def deferring : List (Runtime.Label Nat) := driverSetup ++ [driverWrite 0x50 1,.poll 0]

def reopening : List (Runtime.Label Nat) :=
  [driverWrite 0x70 3,driverWrite 0x24 1,driverWrite 0x20 1,driverWrite 0x70 0xb] ++
    queueSetup 0 0x500 0x600 0x700 ++ queueSetup 1 0x100 0x200 0x300 ++
    [driverWrite 0x44 0,driverWrite 0x44 1,driverWrite 0x70 0xf,driverWrite 0x50 1]

def disablesTx (v : Visit Disk Gate) : Bool :=
  match v.operation with
  | .write offset value => offset == 0x44 && value == 0 && v.before.mmio.queueSel == 1
  | _ => false

theorem disablesTx_sound {v : Visit Disk Gate} (checked : disablesTx v = true) :
    v.operation = .write 0x44 0 ∧ v.before.mmio.queueSel = 1 := by
  unfold disablesTx at checked
  split at checked
  · rename_i offset value asked
    simp only [Bool.and_eq_true,beq_iff_eq] at checked
    obtain ⟨⟨rfl,rfl⟩,selected⟩ := checked
    exact ⟨asked,selected⟩
  · cases checked

/-- A frame that the guest changes while it is copied is accepted as the copy, and
a queue that was disabled before DRIVER_OK can be enabled again. -/
theorem frames_accepted_in_order_copied :
    (∃ s : Runtime Vm Nat Disk Gate Port,
      (Runtime.steps (meddling 5) deferring).run (gateMachine [false,true]) = (.ok (),s) ∧
      ¬Net.accepted (Visit.actions (s.sinceReset 0)) <+:
        firstOffers (txActions (Visit.actions (s.sinceReset 0)))) ∧
    ∃ s : Runtime Vm Nat Disk Gate Port,
      (Runtime.steps Reference.env reopening).run (gateMachine [true]) = (.ok (),s) ∧
      ∃ before v after, s.sinceReset 0 = before ++ v::after ∧ v.operation = .write 0x44 0 ∧
        v.before.mmio.queueSel = 1 ∧ ∃ w ∈ after, Net.accepted w.after.trace ≠ [] := by
  refine ⟨?_,?_⟩
  · have torn : ¬Net.accepted (Visit.actions (((Runtime.steps (meddling 5) deferring).run
        (gateMachine [false,true])).2.sinceReset 0)) <+: firstOffers (txActions (Visit.actions
          (((Runtime.steps (meddling 5) deferring).run (gateMachine [false,true])).2.sinceReset 0))) := by
      decide +kernel
    have succeeds : ((Runtime.steps (meddling 5) deferring).run (gateMachine [false,true])).1.isOk = true := by
      decide +kernel
    generalize (Runtime.steps (meddling 5) deferring).run (gateMachine [false,true]) = outcome at torn succeeds
    obtain ⟨_ | _,s⟩ := outcome
    · cases succeeds
    · exact ⟨s,rfl,torn⟩
  · have disabled : (((((Runtime.steps Reference.env reopening).run (gateMachine [true])).2.sinceReset 0)[16]?).any
        disablesTx) = true := by decide +kernel
    have sends : ((((Runtime.steps Reference.env reopening).run (gateMachine [true])).2.sinceReset 0).drop 17).any
        (fun w => Net.accepted w.after.trace != []) = true := by decide +kernel
    have succeeds : ((Runtime.steps Reference.env reopening).run (gateMachine [true])).1.isOk = true := by
      decide +kernel
    generalize (Runtime.steps Reference.env reopening).run (gateMachine [true]) = outcome at disabled sends succeeds
    obtain ⟨_ | _,s⟩ := outcome
    · cases succeeds
    dsimp only at disabled sends
    cases found : (s.sinceReset 0)[16]? with
    | none =>
      rw [found] at disabled
      cases disabled
    | some v =>
      rw [found] at disabled
      obtain ⟨bound,here⟩ := List.getElem?_eq_some_iff.mp found
      obtain ⟨asked,selected⟩ := disablesTx_sound disabled
      obtain ⟨w,member,accepts⟩ := List.any_eq_true.mp sends
      refine ⟨s,rfl,(s.sinceReset 0).take 16,v,(s.sinceReset 0).drop 17,?_,asked,selected,w,member,?_⟩
      · rw [← here,List.cons_getElem_drop_succ,List.take_append_drop]
      · exact bne_iff_ne.mp accepts

theorem Gate.answers_all (g : Gate) : NetDevice.Answers g := fun now _ _ _ => ⟨now.answers.headD false,⟨now.answers.tail⟩,rfl⟩

theorem env_still (w : World) : w.Still Reference.env := .inr (fun _ => rfl)

def offersWell (v : Visit Disk Gate) : Bool :=
  match v.before.mmio.device with
  | .net d => throughout (Net.transmitTurn Reference.env) (Net.transmittable Reference.env 82) Net.BUDGET (v.cell d)
  | _ => true

theorem offersWell_sound {v : Visit Disk Gate} (checked : offersWell v = true) : v.Offers Reference.env 82 := by
  intro d kind _
  rw [offersWell,kind] at checked
  exact throughout_sound (fun c fair => Net.transmittable_sound env_covering (env_still c.world) fair) checked

theorem gateMachine_created : (gateMachine [false,true]).Created Reference.env := by
  intro m member
  rw [List.mem_singleton.mp member]
  exact ⟨.net ⟨⟨[false,true]⟩,newWire.config,newWire.rx,none,[]⟩,_,_,true,rfl,rfl,rfl⟩

theorem frames_accepted_in_order_deferred :
    let s := ((Runtime.steps Reference.env deferring).run (gateMachine [false,true])).2
    let history := Visit.actions (s.sinceReset 0)
    Net.accepted history = [List.replicate 14 0] ∧ returned 1 history = [0] ∧
      ∃ offers : List Offer, txActions history = offers.flatMap Offer.actions ∧
        [List.replicate 14 0] <+: offers.map Offer.payload := by
  have frames : Net.accepted (Visit.actions (((Runtime.steps Reference.env deferring).run
      (gateMachine [false,true])).2.sinceReset 0)) = [List.replicate 14 0] := by decide +kernel
  have heads : returned 1 (Visit.actions (((Runtime.steps Reference.env deferring).run
      (gateMachine [false,true])).2.sinceReset 0)) = [0] := by decide +kernel
  have checked : (((Runtime.steps Reference.env deferring).run
      (gateMachine [false,true])).2.sinceReset 0).all offersWell = true := by decide +kernel
  have succeeds : ((Runtime.steps Reference.env deferring).run (gateMachine [false,true])).1.isOk = true := by
    decide +kernel
  generalize ran : (Runtime.steps Reference.env deferring).run (gateMachine [false,true]) = outcome
    at frames heads checked succeeds
  obtain ⟨_ | _,s⟩ := outcome
  · cases succeeds
  dsimp only at frames heads checked ⊢
  obtain ⟨⟨_,_,offers,_,_,actions,_,order,_⟩,_⟩ := Runtime.frames_accepted_in_order env_vm_lawful env_vq_lawful env_rings
    gateMachine_created rfl (k := 0) rfl rfl (Gate.answers_all _) (Runtime.steps_reach _ ran)
    (fun v member => offersWell_sound (List.all_eq_true.mp checked v member))
  rw [frames] at order
  exact ⟨frames,heads,offers,actions,order⟩

end Reference
end WVmm
