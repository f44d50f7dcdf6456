import WVmm.Runtime.Effects

/-! Received frames and the chains they go to, over whole runs of the machine. -/
namespace WVmm
open Lib.Effect Lib.Runs Devices Platform
open Devices.Net (HEADER Round Receives Stands Aside rxActions onRx onTx)

variable {V C B N U : Type} {env : Env}

namespace Visit

variable [NetDevice N]

/-- Where the receive pass of a visit begins, if it has one. A poll transmits
first. -/
def Enters (env : Env) (v : Visit B N) (c : Cell (Net N)) : Prop :=
  ∃ d, v.before.mmio.device = .net d ∧
    ((v.operation = .write 0x50 0 ∧ v.before.mmio.listens 0 = true ∧ c = v.cell d) ∨
      (v.operation = .poll ∧ v.before.mmio.active = true ∧ (Net.transmit env).run (v.cell d) = (.ok (),c)))

/-- The driver does its part in the receive pass of the visit: at each turn the ring
lies in guest memory and the next chain is valid, if there is one. -/
def Serves (env : Env) (v : Visit B N) : Prop :=
  ∀ c, v.Enters env c → Throughout (Net.receiveTurn env) (Net.Receivable env) Net.BUDGET c

inductive Received (env : Env) (max : Nat) (v : Visit B N) : List Round → Prop
  | idle (none : rxActions v.after.trace = []) : Received env max v []
  | pass {c c' : Cell (Net N)} {rounds : List Round} (enters : v.Enters env c)
      (receives : Receives env max c rounds c') (after : v.after = v.put c') : Received env max v rounds

/-- The receive queue after some visits: their rounds are all that was done on it,
and they are numbered. -/
structure Deliveries (env : Env) (max : Nat) (visits : List (Visit B N)) (passes : List (List Round))
    (rings : List Queue) : Prop where
  received : List.Forall₂ (Received env max) visits passes
  actions : rxActions (actions visits) = passes.flatten.flatMap Round.actions
  numbered : Round.Numbered 0 passes.flatten
  stands : Stands (Round.fed passes.flatten).length rings

namespace Deliveries

variable {max : Nat} {visits : List (Visit B N)} {passes : List (List Round)} {rings rings' : List Queue}
  {v : Visit B N}

theorem snoc (deliveries : Deliveries env max visits passes rings) {rounds : List Round}
    (received : v.Received env max rounds) (actions : rxActions v.after.trace = rounds.flatMap Round.actions)
    (numbered : Round.Numbered (Round.fed passes.flatten).length rounds)
    (stands : Stands ((Round.fed passes.flatten).length + (Round.fed rounds).length) rings') :
    Deliveries env max (visits ++ [v]) (passes ++ [rounds]) rings' := by
  have flat : (passes ++ [rounds]).flatten = passes.flatten ++ rounds := by simp
  refine ⟨List.rel_append deliveries.received (.cons received .nil),?_,?_,?_⟩
  · rw [actions_snoc,rxActions,List.filter_append,flat,List.flatMap_append]
    exact congrArg₂ _ deliveries.actions actions
  · rw [flat]
    exact deliveries.numbered.append (by rwa [Nat.zero_add])
  · rwa [flat,Round.fed,List.filter_append,List.length_append]

theorem idle (deliveries : Deliveries env max visits passes rings) (none : rxActions v.after.trace = [])
    (same : ∀ q', rings'[0]? = some q' → ∃ q, rings[0]? = some q ∧ SameIndices q q') :
    Deliveries env max (visits ++ [v]) (passes ++ [[]]) rings' := by
  refine deliveries.snoc (.idle none) none trivial ?_
  intro q' found'
  obtain ⟨q,found,avail,used⟩ := same q' found'
  rw [avail,used]
  exact deliveries.stands q found

theorem transmitted {d : Net N} {c : Cell (Net N)}
    (deliveries : Deliveries env max visits passes v.before.mmio.queues.rings)
    (aside : Aside onRx 0 Net.SameRx (v.cell d) c) (log : v.after.trace = c.trace)
    (moved : v.after.mmio.queues.rings = c.queues.rings) :
    Deliveries env max (visits ++ [v]) (passes ++ [[]]) v.after.mmio.queues.rings := by
  obtain ⟨⟨more,trace,none⟩,ring,_,_,_⟩ := aside
  refine deliveries.idle ?_ (fun q' found' => ?_)
  · rw [log,trace]
    exact none
  · rw [moved,ring] at found'
    exact ⟨q',found',rfl,rfl⟩

theorem rounds_receive (rounds : List Round) :
    rxActions (rounds.flatMap Round.actions) = rounds.flatMap Round.actions := by
  refine List.filter_eq_self.mpr (fun a member => ?_)
  obtain ⟨r,_,inside⟩ := List.mem_flatMap.mp member
  rcases List.mem_append.mp inside with first | last
  · rcases List.mem_cons.mp first with rfl | second
    · rfl
    · rw [List.mem_singleton.mp second]
      rfl
  · obtain ⟨len,_,rfl⟩ := Option.map_eq_some_iff.mp (Option.mem_toList.mp last)
    rfl

theorem pass (packages : env.vm.Lawful) (lawful : env.vq.Lawful)
    (deliveries : Deliveries env max visits passes rings) {c : Cell (Net N)} (enters : v.Enters env c)
    (silent : rxActions c.trace = []) (receiving : Net.Receiving max c) (same : c.queues.rings[0]? = rings[0]?)
    (returned : ((Net.receive env).run c).1 = .ok ()) (after : v.after = v.put ((Net.receive env).run c).2) :
    ∃ rounds, Deliveries env max (visits ++ [v]) (passes ++ [rounds]) v.after.mmio.queues.rings := by
  have stands : Stands (Round.fed passes.flatten).length c.queues.rings := by
    intro q found
    exact deliveries.stands q (same ▸ found)
  obtain ⟨rounds,receives,numbered,ends,_⟩ :=
    Net.receiveLoop_rounds packages lawful Net.BUDGET receiving.delivers receiving.room stands (Prod.ext returned rfl)
  refine ⟨rounds,deliveries.snoc (.pass enters receives after) ?_ numbered ?_⟩
  · rw [after]
    change rxActions ((Net.receiveLoop env Net.BUDGET).run c).2.trace = _
    rw [receives.trace,rxActions,List.filter_append]
    exact (congrArg₂ _ silent (rounds_receive rounds)).trans (List.nil_append _)
  · rw [after]
    exact ends

end Deliveries

def Serving (env : Env) (max : Nat) (m : Mmio (Device B N)) (visits : List (Visit B N)) : Prop :=
  ∃ d, m.device = .net d ∧
    (d.rx.length = HEADER + max ∧ NetDevice.Delivers d.backend max ∧ 0 < m.queues.rings.length) ∧
    ((∀ w ∈ visits, w.Serves env) → ∃ passes, Deliveries env max visits passes m.queues.rings)

variable {max : Nat} {visits : List (Visit B N)} {v : Visit B N}

theorem Deliveries.step (packages : env.vm.Lawful) (lawful : env.vq.Lawful) (rings : env.Rings) {d : Net N}
    {passes : List (List Round)} (acts : v.Acts env d) (kind : v.before.mmio.device = .net d) (valid : v.Serves env)
    (receiving : Net.Receiving max (v.cell d)) (deliveries : Deliveries env max visits passes v.before.mmio.queues.rings) :
    ∃ passes, Deliveries env max (visits ++ [v]) passes v.after.mmio.queues.rings := by
  have returns : ∀ c, v.Enters env c → Net.Receiving max c → ((Net.receive env).run c).1 = .ok () :=
    fun c enters receiving => Net.receive_returns packages lawful rings receiving (valid c enters)
  cases acts with
  | plain quiet => exact ⟨_,deliveries.idle (by rw [quiet.trace]; rfl) (fun q' found' => quiet.rings.indices 0 found')⟩
  | receives asked listens runs =>
    have enters : v.Enters env (v.cell d) := ⟨d,kind,.inl ⟨asked,listens,rfl⟩⟩
    have returned := returns _ enters receiving
    obtain ⟨rounds,more⟩ := deliveries.pass packages lawful enters rfl receiving rfl returned (runs.returned returned)
    exact ⟨_,more⟩
  | transmits asked listens runs =>
    have aside : Aside onRx 0 Net.SameRx (v.cell d) ((Net.transmit env).run (v.cell d)).2 := Net.transmit_aside _
    exact ⟨_,deliveries.transmitted aside runs.trace runs.rings⟩
  | polls asked active runs =>
    have aside : Aside onRx 0 Net.SameRx (v.cell d) ((Net.transmit env).run (v.cell d)).2 := Net.transmit_aside _
    rcases sent : (Net.transmit env).run (v.cell d) with ⟨e | _,c⟩
    · have stopped : (Net.poll env).run (v.cell d) = (.error e,c) := by rw [Net.poll,Prog.run_bind,sent]
      rw [sent] at aside
      have log := runs.trace
      have queues := runs.rings
      rw [stopped] at log queues
      exact ⟨_,deliveries.transmitted aside log queues⟩
    · have polled : (Net.poll env).run (v.cell d) = (Net.receive env).run c := by rw [Net.poll,Prog.run_bind,sent]
      rw [sent] at aside
      have ends := runs.returned
      rw [polled] at ends
      have enters : v.Enters env c := ⟨d,kind,.inr ⟨asked,active,sent⟩⟩
      have receiving' : Net.Receiving max c := ⟨aside.device.room.trans receiving.room,
        receiving.delivers.later aside.device.backend,aside.count ▸ receiving.ring⟩
      have returned := returns c enters receiving'
      obtain ⟨more,trace,none⟩ := aside.trace
      obtain ⟨rounds,received⟩ := deliveries.pass packages lawful enters (by rw [trace]; exact none) receiving' aside.ring
        returned (ends returned)
      exact ⟨_,received⟩

variable [VirtualMachine V C] [BlockStorage B]

theorem Serving.step (packages : env.vm.Lawful) (lawful : env.vq.Lawful) (rings : env.Rings)
    (made : Runtime.Made V env v) (serving : Serving env max v.before.mmio visits) :
    Serving env max v.after.mmio (v.resume visits) := by
  obtain ⟨d,kind,⟨room,delivers,ring⟩,served⟩ := serving
  unfold resume
  split
  · rename_i resets
    obtain ⟨device,fresh⟩ := resets_net made resets kind
    refine ⟨_,device,⟨room,delivers,?_⟩,fun _ => ⟨[],.nil,rfl,trivial,?_⟩⟩
    · rw [fresh,List.length_map]
      exact ring
    · intro q found
      rw [fresh] at found
      obtain ⟨q₀,_,rfl⟩ := List.mem_map.mp (List.mem_of_getElem? found)
      rw [lawful.reset_fresh]
      exact ⟨rfl,rfl⟩
  rename_i other
  have does := acts lawful made (Bool.eq_false_iff.mpr other) kind
  obtain ⟨d',device,size,calls,count⟩ := does.lasts kind (by omega)
  refine ⟨d',device,⟨size.trans room,delivers.later calls,count ▸ ring⟩,fun all => ?_⟩
  obtain ⟨passes,deliveries⟩ := served (fun w member => all w (List.mem_append_left _ member))
  exact deliveries.step packages lawful rings does kind (all v (List.mem_append_right _ (List.mem_singleton.mpr rfl)))
    ⟨room,delivers,ring⟩

end Visit

namespace Runtime

variable [BlockStorage B] [NetDevice N]

theorem created_serving (lawful : env.vq.Lawful) {s : Runtime V C B N U} (created : s.Created env)
    {m : Mmio (Device B N)} {d : Net N} (member : m ∈ s.devices) (net : m.device = .net d)
    (delivers : NetDevice.Delivers d.backend (NetDevice.maxFrameLen d.backend)) :
    Visit.Serving env (NetDevice.maxFrameLen d.backend) m [] := by
  obtain ⟨room,_,_,count,fresh⟩ := created_net lawful created member net
  refine ⟨d,net,⟨room,delivers,by omega⟩,fun _ => ⟨[],.nil,rfl,trivial,?_⟩⟩
  intro q found
  exact fresh q (List.mem_of_getElem? found)

variable [VirtualMachine V C] [Uart U]

/-- The frames that the backend gives go to the chains of the receive queue one by
one: the k-th of them to the chain at the k-th place of the available ring, whose
used length tells whether the frame did fit. The backend is asked only for a chain
that was taken, and a round without a frame leaves the queues as they were. -/
theorem frames_fill_chains_in_order (packages : env.vm.Lawful) (lawful : env.vq.Lawful) (rings : env.Rings)
    {first s : Runtime V C B N U} (created : first.Created env) (unused : first.log = []) {k : Nat}
    {m : Mmio (Device B N)} {d : Net N} (found : first.devices[k]? = some m) (net : m.device = .net d)
    (delivers : NetDevice.Delivers d.backend (NetDevice.maxFrameLen d.backend))
    (reached : Reaches (Happens env) first s) (valid : ∀ v ∈ s.sinceReset k, v.Serves env) :
    ∃ passes : List (List Round),
      List.Forall₂ (Visit.Received env (NetDevice.maxFrameLen d.backend)) (s.sinceReset k) passes ∧
      let history := Visit.actions (s.sinceReset k)
      let rounds := passes.flatten
      rxActions history = rounds.flatMap Round.actions ∧ Round.Numbered 0 rounds ∧
      (Round.fed rounds).map Round.position = (List.range (Round.fed rounds).length).map (· % 65536) ∧
      Net.obtained history = (Round.fed rounds).map Round.length ∧
      Net.posted history = (Round.fed rounds).map (fun r => (r.chain.head,Net.usedLength r.capacity r.length)) := by
  have start := created_serving lawful created (List.mem_of_getElem? found) net delivers
  obtain ⟨m',_,d',_,_,served⟩ := since_reset unused found start
    (fun v made visits serving => Visit.Serving.step packages lawful rings made serving) reached
  obtain ⟨passes,deliveries⟩ := served valid
  refine ⟨passes,deliveries.received,deliveries.actions,deliveries.numbered,?_,?_,?_⟩
  · rw [deliveries.numbered.positions,List.range_eq_range']
  · exact Net.obtained_rounds deliveries.actions
  · exact Net.posted_rounds deliveries.actions

end Runtime

namespace Reference

/-- One buffer of 100 bytes at 0x400, in the receive queue of a page of memory. -/
def rxMemory : Host := fun p =>
  if p = 0x501 then 4
  else if p = 0x508 then 100
  else if p = 0x50c then 2
  else if p = 0x602 then 1
  else 0

def inboxMachine (inbox : List (List UInt8)) : Runtime Vm Nat Disk Wire Port :=
  {wireMachine with
    devices := [{wireTransport 0 0 with device := .net {newWire with backend := ⟨inbox,0⟩}}]
    world := {pageWorld with host := rxMemory}}

theorem inboxMachine_created : (inboxMachine [List.replicate 14 7]).Created Reference.env := by
  intro m member
  rw [List.mem_singleton.mp member]
  exact ⟨.net {newWire with backend := ⟨[List.replicate 14 7],0⟩},_,_,true,rfl,rfl,rfl⟩

theorem Wire.called_inbox {w w' : Wire} (called : NetDevice.Called w w') : ∀ frame ∈ w'.inbox, frame ∈ w.inbox := by
  cases called with
  | send frame host =>
    simp only [NetDevice.send]
    split <;> exact fun _ member => member
  | recv buffer host =>
    obtain ⟨inbox,credit⟩ := w
    cases inbox with
    | nil => exact fun _ member => member
    | cons frame rest => exact fun _ member => List.mem_cons_of_mem frame member

/-- A wire whose frames are legal delivers them. -/
theorem Wire.delivers {max : Nat} {inbox : List (List UInt8)} (credit : Nat)
    (legal : ∀ frame ∈ inbox, 14 ≤ frame.length ∧ frame.length ≤ max) :
    NetDevice.Delivers (⟨inbox,credit⟩ : Wire) max := by
  intro now calls
  have kept : ∀ frame ∈ now.inbox, 14 ≤ frame.length ∧ frame.length ≤ max := by
    induction calls with
    | refl => exact legal
    | tail _ called ih => exact fun frame member => ih frame (Wire.called_inbox called frame member)
  intro buffer host _ _
  obtain ⟨inbox,credit⟩ := now
  cases inbox with
  | nil => exact ⟨_,.inl rfl⟩
  | cons frame rest =>
    obtain ⟨long,short⟩ := kept frame List.mem_cons_self
    refine ⟨⟨rest,credit⟩,.inr ⟨frame,long,short,?_⟩⟩
    rw [← fill_eq]
    rfl

def servesWell (v : Visit Disk Wire) : Bool :=
  match v.before.mmio.device with
  | .net d =>
    let well := throughout (Net.receiveTurn Reference.env) (Queues.supplies Reference.env 0 Net.writable) Net.BUDGET
    well (v.cell d) && match (Net.transmit Reference.env).run (v.cell d) with
      | (.ok (),c) => well c
      | _ => true
  | _ => true

theorem servesWell_sound {v : Visit Disk Wire} (checked : servesWell v = true) : v.Serves Reference.env := by
  rintro c ⟨d,kind,enters⟩
  rw [servesWell,kind] at checked
  dsimp only at checked
  rw [Bool.and_eq_true] at checked
  have well : throughout (Net.receiveTurn Reference.env) (Queues.supplies Reference.env 0 Net.writable) Net.BUDGET c = true := by
    rcases enters with ⟨_,_,rfl⟩ | ⟨_,_,sent⟩
    · exact checked.1
    · have later := checked.2
      rwa [sent] at later
  exact throughout_sound (fun c fair => Net.receivable_sound env_covering (.inr (fun _ => rfl)) fair) well

/-- One frame arrives, and two polls find nothing more. -/
def receiving : List (Runtime.Label Nat) := driverSetup ++ [driverWrite 0x50 0,.poll 0,.poll 0]

theorem frames_fill_chains_in_order_once :
    let s := ((Runtime.steps Reference.env receiving).run (inboxMachine [List.replicate 14 7])).2
    Net.obtained (Visit.actions (s.sinceReset 0)) = [14] ∧ Net.posted (Visit.actions (s.sinceReset 0)) = [(0,26)] ∧
      (List.range' 0x400 26).map s.world.host = Net.rxHeader ++ List.replicate 14 7 ∧
      ∃ rounds : List Round, (Round.fed rounds).map Round.position = [0] ∧ (Round.fed rounds).map Round.length = [14] ∧
        rxActions (Visit.actions (s.sinceReset 0)) = rounds.flatMap Round.actions := by
  have lengths : Net.obtained (Visit.actions (((Runtime.steps Reference.env receiving).run
      (inboxMachine [List.replicate 14 7])).2.sinceReset 0)) = [14] := by decide +kernel
  have used : Net.posted (Visit.actions (((Runtime.steps Reference.env receiving).run
      (inboxMachine [List.replicate 14 7])).2.sinceReset 0)) = [(0,26)] := by decide +kernel
  have stored : (List.range' 0x400 26).map ((Runtime.steps Reference.env receiving).run
      (inboxMachine [List.replicate 14 7])).2.world.host = Net.rxHeader ++ List.replicate 14 7 := by decide +kernel
  have checked : (((Runtime.steps Reference.env receiving).run
      (inboxMachine [List.replicate 14 7])).2.sinceReset 0).all servesWell = true := by decide +kernel
  have succeeds : ((Runtime.steps Reference.env receiving).run
      (inboxMachine [List.replicate 14 7])).1.isOk = true := by decide +kernel
  generalize ran : (Runtime.steps Reference.env receiving).run (inboxMachine [List.replicate 14 7]) = outcome
    at lengths used stored checked succeeds
  obtain ⟨_ | _,s⟩ := outcome
  · cases succeeds
  dsimp only at lengths used stored checked ⊢
  have legal : NetDevice.Delivers (⟨[List.replicate 14 7],0⟩ : Wire) 82 := Wire.delivers 0 (by decide)
  obtain ⟨passes,_,actions,_,positions,frames,_⟩ := Runtime.frames_fill_chains_in_order env_vm_lawful env_vq_lawful
    env_rings inboxMachine_created rfl (k := 0) rfl rfl legal (Runtime.steps_reach _ ran)
    (fun v member => servesWell_sound (List.all_eq_true.mp checked v member))
  rw [lengths] at frames
  refine ⟨lengths,used,stored,passes.flatten,?_,frames.symm,actions⟩
  have one : (Round.fed passes.flatten).length = 1 := by
    have count := congrArg List.length frames
    rw [List.length_map] at count
    exact count.symm
  rw [positions,one]
  rfl

end Reference
end WVmm
