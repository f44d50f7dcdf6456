import WVmm.Platform.Faults
import WVmm.Runtime.Cleanup

/-! What a run does with the faults of its vCPUs: the loop ends with the first one that
it polls, and `stop` reports the first of the others. -/
namespace WVmm
open Lib.Effect Lib.Runs Devices Platform

structure Mapper.Keeps {M : Type} [Mapper M] (R : M → M → Prop) : Prop where
  map : ∀ m r, R m (Mapper.map m r).2
  unmap : ∀ m r, R m (Mapper.unmap m r).2

namespace Devices.VirtioMem

variable {M : Type} {env : Env} {R : M → M → Prop} [IsPreorder M R]

def Mapped (R : M → M → Prop) (t u : Txn M) : Prop := R t.mapper u.mapper

instance : IsPreorder (Txn M) (Mapped R) where
  refl t := refl_of R t.mapper
  trans _ _ _ first second := trans_of R first second

theorem onCell_mapped {ε α : Type} (p : Prog (Cell VirtioMem) ε α) : Always (Mapped R) (Txn.onCell p) :=
  fun t => refl_of R t.mapper

theorem onWorld_mapped {ε α : Type} (p : Prog World ε α) : Always (Mapped R) (Txn.onWorld p) := onCell_mapped _

theorem stage_mapped (plug : Bool) (addresses : List Nat) (next : GuestMemoryMmap) :
    Always (Mapped R) (stage env plug addresses next : Prog (Txn M) _ _) := by
  induction addresses generalizing next with
  | nil => exact .pure _
  | cons addr rest ih =>
    refine .bind .get (fun t => .bind ?_ (fun region => .bind (.ofExcept _) (fun next => .bind (ih next) (fun staged => ?_))))
    · unfold stageRegion
      split
      · exact onWorld_mapped _
      split
      · exact .pure _
      · exact .fail _
    · exact .pure _

variable [Mapper M] (keeps : Mapper.Keeps R)
include keeps

omit [IsPreorder M R] in
theorem operate_mapped (plug : Bool) (r : Region) : Always (Mapped R) (operate plug r) := by
  intro t
  cases plug with
  | true => exact keeps.map t.mapper r
  | false => exact keeps.unmap t.mapper r

theorem rollback_mapped (plug : Bool) (regions : List Region) : Always (Mapped R) (rollback plug regions) := by
  induction regions with
  | nil => exact .pure _
  | cons r rest ih =>
    refine .bind (operate_mapped keeps _ r) (fun undone => .bind ih (fun later => ?_))
    cases undone <;> exact .pure _

theorem apply_mapped (plug : Bool) (done rest : List Region) : Always (Mapped R) (apply plug done rest) := by
  induction rest generalizing done with
  | nil => exact .pure _
  | cons r rest ih =>
    refine .bind (operate_mapped keeps plug r) (fun outcome => ?_)
    cases outcome with
    | ok _ => exact ih _
    | error source =>
      refine .bind (rollback_mapped keeps plug done) (fun failed => ?_)
      cases failed with
      | none => exact .pure _
      | some e => exact .fail _

theorem change_mapped (addresses : List Nat) (plug : Bool) : Always (Mapped R) (change env addresses plug) := by
  refine .bind .get (fun t => .bind (stage_mapped plug addresses _) (fun staged => ?_))
  refine .bind (apply_mapped keeps plug [] staged.1) (fun done => ?_)
  split
  · exact .bind (fun t => refl_of R t.mapper) (fun _ => .pure _)
  · exact .pure _

theorem request_mapped (req : List UInt8) (pinned : List (Nat × Nat)) :
    Always (Mapped R) (request env req pinned) := by
  unfold request
  dsimp only
  split
  · exact .pure _
  refine .bind .get (fun t => ?_)
  split
  · exact .pure _
  split
  · exact .pure _
  split
  · exact .pure _
  split
  · exact .pure _
  split
  · exact .pure _
  refine .bind (change_mapped keeps _ _) (fun changed => ?_)
  split
  · exact .pure _
  exact .bind (fun t => refl_of R t.mapper) (fun _ => .bind (fun t => refl_of R t.mapper) (fun _ => .pure _))

/-- A memory transaction moves its mapper by calls of it. -/
theorem process_mapped (pinned : List (Nat × Nat)) : Always (Mapped R) (process env pinned) := by
  unfold process
  generalize 128 = budget
  induction budget with
  | zero => exact .pure _
  | succ budget ih =>
    refine .bind (onCell_mapped _) (fun taken => ?_)
    split
    · exact .pure _
    refine .bind (.bind (.require _ _) (fun _ => ?_)) (fun _ => ih)
    refine .bind (onWorld_mapped _) (fun req => .bind (.mapError (request_mapped keeps req _) _) (fun answer => ?_))
    exact .bind (onWorld_mapped _) (fun _ => onCell_mapped _)

theorem unmapAll_mapped (regions : List Region) : Always (Mapped R) (unmapAll regions) := by
  induction regions with
  | nil => exact .pure _
  | cons r rest ih =>
    refine .bind (fun t => keeps.unmap t.mapper r) (fun undone => .bind ih (fun later => ?_))
    cases undone <;> exact .pure _

theorem stop_mapped : Always (Mapped R) (stop : Prog (Txn M) _ _) :=
  .bind (onWorld_mapped _) (fun _ => .bind .get (fun _ => unmapAll_mapped keeps _))

end Devices.VirtioMem

structure VirtualMachine.Keeps {V C : Type} [VirtualMachine V C] (R : V → V → Prop) : Prop extends Mapper.Keeps R where
  completeIo : ∀ v completion value, R v (VirtualMachine.completeIo v completion value).2
  setIrq : ∀ v irq level, R v (VirtualMachine.setIrq v irq level).2
  pause : ∀ v, R v (VirtualMachine.pause v).2
  resume : ∀ v, R v (VirtualMachine.resume v).2

section Runs
variable {V C B N U : Type} {env : Env} {R : V → V → Prop} [IsPreorder V R]

namespace Runtime

def Moved (R : V → V → Prop) (s t : Runtime V C B N U) : Prop := R s.vm t.vm

instance : IsPreorder (Runtime V C B N U) (Moved R) where
  refl s := refl_of R s.vm
  trans _ _ _ first second := trans_of R first second

theorem device_moved (k : Nat) : Always (Moved R) (device k : Prog (Runtime V C B N U) (Failure Error) _) := by
  refine .still (fun s => ?_)
  rw [device_run]
  cases s.devices[k]? <;> rfl

section Machine
variable [VirtualMachine V C] (keeps : VirtualMachine.Keeps R)
include keeps

omit [IsPreorder V R] in
theorem setIrq_moved (irq : Nat) (level : Bool) :
    Always (Moved R) (setIrq irq level : Prog (Runtime V C B N U) (Failure Error) Unit) :=
  fun s => keeps.setIrq s.vm irq level

omit [IsPreorder V R] in
theorem pause_moved : Always (Moved R) (pause : Prog (Runtime V C B N U) (Failure Error) PauseOutcome) := by
  intro s
  have moved := keeps.pause s.vm
  simp only [pause,Prog.run_bind,Prog.run_get,Prog.run_modify,record,platform,Prog.run_ofExcept]
  rcases (VirtualMachine.pause s.vm).1 with e | _ | _ <;> exact moved

omit [IsPreorder V R] in
theorem resume_moved : Always (Moved R) (resume : Prog (Runtime V C B N U) (Failure Error) Unit) := by
  intro s
  have moved := keeps.resume s.vm
  simp only [resume,Prog.run_bind,Prog.run_get,Prog.run_modify,record,platform,Prog.run_ofExcept]
  rcases (VirtualMachine.resume s.vm).1 with e | _ <;> exact moved

variable [BlockStorage B] [NetDevice N]

theorem perform_moved (op : Operation) (b : Bay V (Device B N)) : R b.vm ((Bay.perform env op).run b).2.vm := by
  cases op with
  | process pinned =>
    have moved : R b.vm ((Bay.process env pinned).run b).2.vm := by
      unfold Bay.process
      rw [Prog.run_mk]
      split
      · exact VirtioMem.process_mapped keeps.toKeeps pinned ⟨⟨_,_,_,_⟩,b.vm⟩
      · exact refl_of R b.vm
    simp only [Bay.perform,Prog.run_bind,Prog.run_capture,Bay.onSlot,Prog.run_zoom]
    rcases (Mmio.contain ((Bay.process env pinned).run b).1).run ((Bay.process env pinned).run b).2.slot with ⟨_ | _,slot⟩ <;>
      exact moved
  | _ => exact refl_of R b.vm

theorem visit_moved (k : Nat) (op : Operation) :
    Always (Moved R) (visit env k op : Prog (Runtime V C B N U) (Failure Error) op.Reply) := by
  intro s
  unfold visit
  rw [Prog.run_mk]
  split
  · exact refl_of R s.vm
  · rename_i m found
    exact perform_moved keeps op ⟨⟨m,s.world,[]⟩,s.vm⟩

theorem pinDevices_moved (ks : List Nat) :
    Always (Moved R) (pinDevices env ks : Prog (Runtime V C B N U) (Failure Error) _) := by
  induction ks with
  | nil => exact .pure _
  | cons k rest ih =>
    refine .bind (.bind (device_moved k) (fun d => ?_)) (fun _ => .bind ih (fun _ => .pure _))
    split
    · exact .pure _
    · exact .bind (visit_moved keeps k _) (fun _ => .pure _)

theorem transact_moved (count last : Nat) :
    Always (Moved R) (transact env count last : Prog (Runtime V C B N U) (Failure Error) ControlFlow) := by
  refine .bind (visit_moved keeps last _) (fun available => ?_)
  split
  · exact .pure _
  refine .bind (pause_moved keeps) (fun outcome => ?_)
  split
  · exact .pure _
  refine .bind (pinDevices_moved keeps _) (fun pinned => .bind ?_ (fun _ => .bind (resume_moved keeps) (fun _ => .pure _)))
  refine .bind (device_moved last) (fun d => ?_)
  split
  · exact .pure _
  · exact visit_moved keeps last _

theorem processMemory_moved :
    Always (Moved R) (processMemory env : Prog (Runtime V C B N U) (Failure Error) ControlFlow) := by
  refine .bind .get (fun s => ?_)
  split
  · exact .pure _
  refine .bind (device_moved _) (fun d => .bind (visit_moved keeps _ _) (fun _ => ?_))
  split
  · exact .pure _
  · exact transact_moved keeps _ _

omit [BlockStorage B] [NetDevice N] in
theorem setLines_moved (lines : List (Mmio (Device B N) × IoRegion)) :
    Always (Moved R) (setLines lines : Prog (Runtime V C B N U) (Failure Error) Unit) := by
  induction lines with
  | nil => exact .pure _
  | cons line rest ih => exact .bind (setIrq_moved keeps _ _) (fun _ => ih)

omit keeps [VirtualMachine V C] [BlockStorage B] [NetDevice N] in
theorem uartValue_moved [Uart U] (offset : Nat) (a : IoAccess C) :
    Always (Moved R) (uartValue offset a : Prog (Runtime V C B N U) (Failure Error) _) := by
  unfold uartValue
  split
  · split
    · refine .bind (fun s => ?_) (fun _ => .pure _)
      simp only [uartWrite,Prog.run_bind,Prog.run_get,Prog.run_modify,record,Prog.run_ofExcept]
      cases (Uart.write s.serial offset (UInt8.ofNat a.value)).1 <;> exact refl_of R s.vm
    · exact .bind (fun s => refl_of R s.vm) (fun _ => .pure _)
  · exact .pure _

theorem handleIo_moved [Uart U] (a : IoAccess C) :
    Always (Moved R) (handleIo env a : Prog (Runtime V C B N U) (Failure Error) Unit) := by
  refine .bind .get (fun s => .bind ?_ (fun decoded => .bind (.still (seen_still _ _ _)) (fun value =>
    .bind (setIrq_moved keeps _ _) (fun _ s => keeps.completeIo s.vm a.completion value))))
  unfold access
  split
  · exact .bind (uartValue_moved _ a) (fun value => .bind .get (fun s => .pure _))
  split
  · split
    · refine .bind (device_moved _) (fun d => .bind ?_ (fun value => .bind (device_moved _) (fun d => .pure _)))
      unfold virtioValue
      dsimp only
      split
      · exact .pure _
      split
      · exact .pure _
      split
      · exact .bind (visit_moved keeps _ _) (fun _ => .pure _)
      · exact .pure _
    · exact .fail _
  · exact .fail _

end Machine
end Runtime

/-- Every call of the loop but `poll_event` keeps to what all calls on the VM keep to. -/
theorem RunLoop.moved_quiet [Vm V C] [BlockStorage B] [NetDevice N] [SerialIo U] (keeps : VirtualMachine.Keeps R) :
    RunLoop.Quiet env (Runtime.Moved R : Runtime V C B N U → Runtime V C B N U → Prop) where
  input s := refl_of R s.vm
  setIrq irq level := Runtime.setIrq_moved keeps irq level
  poll k := Runtime.visit_moved keeps k .poll
  memory := Runtime.processMemory_moved keeps
  lines s := Runtime.setLines_moved keeps _ s
  access a := Runtime.handleIo_moved keeps a
  pause := Runtime.pause_moved keeps
  resume := Runtime.resume_moved keeps
  target _ s := refl_of R s.vm
  guest s := refl_of R s.vm

namespace Platform.Cpus

variable {n : Nat} {hvf : V → Machine n C}

/-- The workers of a VM go on while other calls are made on it. -/
def Drifts (hvf : V → Machine n C) (v w : V) : Prop :=
  Relation.ReflTransGen (fun m u => ∃ own, Moves own m u) (hvf v) (hvf w)

instance : IsPreorder V (Drifts hvf) where
  refl _ := .refl
  trans _ _ _ := .trans

theorem Moves.drifts {v w : V} {own : Label n → Prop} (moves : Moves own (hvf v) (hvf w)) : Drifts hvf v w :=
  .single ⟨own,moves⟩

theorem Drifts.moved {v w : V} (drifts : Drifts hvf v w) : Moved (hvf v) (hvf w) := by
  unfold Drifts at drifts
  generalize hvf w = u at drifts ⊢
  induction drifts with
  | refl => exact ⟨List.prefix_rfl,rfl,rfl,rfl,rfl⟩
  | tail _ step ih =>
    obtain ⟨own,moves⟩ := step
    have moved := moves.moved
    exact ⟨ih.sent.trans moved.sent,moved.rx.trans ih.rx,moved.cpus.trans ih.cpus,moved.polls.trans ih.polls,
      moved.stops.trans ih.stops⟩

theorem Drifts.accounted {v w : V} (drifts : Drifts hvf v w) (accounted : Accounted (hvf v)) : Accounted (hvf w) := by
  refine accounted.reached (Relation.ReflTransGen.mono ?_ _ _ drifts)
  rintro m u ⟨own,moves⟩
  exact .moves own moves

theorem Drifts.absent {v w : V} (drifts : Drifts hvf v w) (absent : (hvf v).cpus = false) : hvf w = hvf v := by
  unfold Drifts at drifts
  generalize hvf w = u at drifts ⊢
  induction drifts with
  | refl => rfl
  | tail _ step ih =>
    obtain ⟨own,moves⟩ := step
    rw [ih] at moves
    exact moves.absent absent

theorem Serves.keeps [Vm V C] (serves : Serves hvf) : VirtualMachine.Keeps (Drifts hvf) where
  map v r := (serves.map v r).drifts
  unmap v r := (serves.unmap v r).drifts
  completeIo v completion value := (serves.completeIo v completion value).drifts
  setIrq v irq level := (serves.setIrq v irq level).drifts
  pause v := (serves.pause v).drifts
  resume v := (serves.resume v).drifts

theorem Drifts.unasked {v w : V} (drifts : Drifts hvf v w) (unasked : Unasked (hvf v)) : Unasked (hvf w) :=
  ⟨drifts.accounted unasked.accounted,drifts.moved.polls.trans unasked.polls,drifts.moved.stops.trans unasked.stops⟩

theorem Drifts.bare {v w : V} (drifts : Drifts hvf v w) (bare : Bare (hvf v)) : Bare (hvf w) := by
  intro none
  have here := bare (drifts.moved.rx.symm.trans none)
  rw [drifts.absent here.1]
  exact here

end Platform.Cpus

open Platform.Cpus

variable {n : Nat} {hvf : V → Machine n C} [Vm V C] [BlockStorage B] [NetDevice N]

namespace RunLoop

/-- A loop that goes on, or ended well, has polled no fault. -/
structure Watched (hvf : V → Machine n C) (l : RunLoop V C B N U) : Prop where
  accounted : Accounted (hvf l.runtime.vm)
  unstopped : (hvf l.runtime.vm).stops = []
  bare : Bare (hvf l.runtime.vm)
  calm : (∀ f, l.pass ≠ .ended (.error f)) → Calm (hvf l.runtime.vm)

variable [SerialIo U] {l t : RunLoop V C B N U}

/-- A loop that ended stays where it is. -/
theorem ended_next {label : Label} {r : Except (Failure Error) Unit} (ended : l.pass = .ended r)
    (taken : next env label l = some t) : t.pass = .ended r := by
  cases label with
  | look stopping => simp [RunLoop.next,ended] at taken
  | next request => simp [RunLoop.next,ended] at taken
  | call => simp [RunLoop.next,RunLoop.call,ended] at taken
  | target requested =>
    cases taken
    exact ended
  | guest =>
    cases taken
    exact ended

omit [BlockStorage B] [NetDevice N] [SerialIo U] in
/-- A fault that is polled ends the loop. -/
theorem polled_fault {e : PlatformError} (answer : (Vm.pollEvent l.runtime.vm).1 = .error e)
    (next : Option (Platform.Event C) → Pass C) :
    (l.calls pollEvent next).pass = .ended (.error (.error (.platform e))) := by
  simp only [RunLoop.calls,pollEvent,Prog.run_bind,Prog.run_get,Prog.run_modify,Runtime.platform,Prog.run_ofExcept,answer]
  rfl

theorem Watched.step (serves : Serves hvf) (watched : l.Watched hvf) {label : Label} (taken : next env label l = some t) :
    t.Watched hvf := by
  rcases (moved_quiet serves.keeps).step taken with drifts | ⟨here,called⟩
  · change Drifts hvf l.runtime.vm t.runtime.vm at drifts
    refine ⟨drifts.accounted watched.accounted,drifts.moved.stops.trans watched.unstopped,drifts.bare watched.bare,?_⟩
    intro fine
    have calm : Calm (hvf l.runtime.vm) := watched.calm (fun f ended => fine f (ended_next ended taken))
    unfold Calm
    rw [drifts.moved.polls]
    exact calm
  · have polls := serves.pollEvent l.runtime.vm
    have calm : Calm (hvf l.runtime.vm) := watched.calm (fun f ended => by rw [here] at ended; cases ended)
    simp only [RunLoop.call,here,Option.some.injEq] at called
    subst called
    refine ⟨watched.accounted.polls polls,polls.unstopped.trans watched.unstopped,polls.bare watched.bare,?_⟩
    intro fine
    change Calm (hvf (Vm.pollEvent l.runtime.vm).2)
    cases answer : (Vm.pollEvent l.runtime.vm).1 with
    | error e => exact absurd (polled_fault answer _) (fine (.error (.platform e)))
    | ok event =>
      rw [answer] at polls
      exact polls.calm calm

theorem Watched.reached (serves : Serves hvf) (watched : l.Watched hvf) (reached : Reaches (Takes (next env)) l t) :
    t.Watched hvf :=
  reached.invariant watched (fun _ _ _ before taken => before.step serves taken)

end RunLoop

namespace Owned

def Moved (R : V → V → Prop) (s t : Owned V B N) : Prop := ∀ v, s.vm = some v → ∃ w, t.vm = some w ∧ R v w

omit [Vm V C] [BlockStorage B] [NetDevice N] in
theorem Moved.still {s t : Owned V B N} (same : t.vm = s.vm) : Moved R s t := fun v created => ⟨v,same.trans created,refl_of R v⟩

instance : IsPreorder (Owned V B N) (Moved R) where
  refl _ := .still rfl
  trans s t u first second := by
    intro v created
    obtain ⟨w,there,moved⟩ := first v created
    obtain ⟨x,present,later⟩ := second w there
    exact ⟨x,present,trans_of R moved later⟩

omit [IsPreorder V R] [Vm V C] [BlockStorage B] [NetDevice N] in
theorem onVm_moved {ε α : Type} (wrap : ε → Error) {call : V → Except ε α × V} (keeps : ∀ v, R v (call v).2) :
    Always (Moved R) (onVm wrap call : Prog (Owned V B N) _ α) := by
  intro s v created
  simp only [onVm,Prog.run_mk,created]
  exact ⟨_,rfl,keeps v⟩

section Programs
variable (keeps : VirtualMachine.Keeps R)
include keeps

omit [BlockStorage B] [NetDevice N] in
theorem mapBase_moved (stopping : Control.Stage → Bool) (k : Nat) (rest : List Region) :
    Always (Moved R) (mapBase stopping k rest : Prog (Owned V B N) _ Bool) := by
  induction rest generalizing k with
  | nil => exact .pure _
  | cons region rest ih =>
    unfold mapBase
    split
    · exact .pure _
    refine .bind (.bind (onVm_moved _ (fun v => keeps.map v region)).capture (fun outcome => ?_)) (fun _ => ih (k + 1))
    cases outcome with
    | error e => exact .bind (fun _ => .still rfl) (fun _ => .fail _)
    | ok _ => exact fun _ => .still rfl

omit keeps [IsPreorder V R] [Vm V C] [BlockStorage B] [NetDevice N] in
theorem attempt_moved {m : Prog (Owned V B N) (Failure Error) Unit} (moved : Always (Moved R) m) :
    Always (Moved R) (attempt m) := by
  intro s
  have here := moved s
  simp only [attempt,Prog.run_mk]
  rcases ran : m.run s with ⟨(_ | _) | _,t⟩ <;> rw [ran] at here <;> exact here

omit keeps [Vm V C] [BlockStorage B] [NetDevice N] in
theorem attemptAll_moved {programs : List (Prog (Owned V B N) (Failure Error) Unit)}
    (moved : ∀ m ∈ programs, Always (Moved R) m) (found : Except Error Unit) :
    Always (Moved R) (attemptAll programs found) := by
  induction programs generalizing found with
  | nil => exact .pure _
  | cons m rest ih =>
    obtain ⟨first,others⟩ := List.forall_mem_cons.mp moved
    exact .bind (attempt_moved first) (fun done => ih others _)

omit keeps [Vm V C] in
theorem flushDevice_moved (k : Nat) : Always (Moved R) (flushDevice k : Prog (Owned V B N) _ Unit) := by
  intro s
  unfold flushDevice
  rw [Prog.run_mk]
  split <;> exact .still rfl

omit [BlockStorage B] [NetDevice N] in
theorem stopMemory_moved (k : Nat) : Always (Moved R) (stopMemory k : Prog (Owned V B N) _ Unit) := by
  intro s v created
  unfold stopMemory
  rw [Prog.run_mk]
  split
  · rename_i vm d queues present _
    obtain rfl : v = vm := Option.some.inj (created.symm.trans present)
    exact ⟨_,rfl,VirtioMem.stop_mapped keeps.toKeeps ⟨⟨d,queues,s.world,[]⟩,v⟩⟩
  · exact ⟨v,created,refl_of R v⟩

/-- After `stop`, cleanup only flushes and unmaps. -/
theorem cleanup_moved {s u : Owned V B N} {v : V} (created : s.vm = some v) {fault cleaned : Except Error Unit}
    (cleans : cleanup.run s = (.ok (fault,cleaned),u)) :
    fault = (Vm.stop v).1.mapError .platform ∧ ∃ w, u.vm = some w ∧ R (Vm.stop v).2 w := by
  have here : s.vm.isSome = true := by rw [created]; rfl
  obtain ⟨_,_,got,cleans⟩ := Prog.bind_success cleans
  cases got
  dsimp only at cleans
  rw [if_pos here] at cleans
  obtain ⟨halted,t,halts,cleans⟩ := Prog.bind_success cleans
  rw [attempt_ok (onVm_run Error.platform Vm.stop created)] at halts
  cases halts
  obtain ⟨flushed,t,flushes,cleans⟩ := Prog.bind_success cleans
  rw [if_pos here] at cleans
  obtain ⟨stopped,t1,stops,cleans⟩ := Prog.bind_success cleans
  obtain ⟨undone,t2,unmaps,returned⟩ := Prog.bind_success cleans
  cases returned
  refine ⟨rfl,?_⟩
  have first : Moved R _ t := (attemptAll_moved (List.forall_mem_map.mpr (fun k _ => flushDevice_moved k)) _).ran flushes
  have second : Moved R t t1 := (attemptAll_moved (List.forall_mem_map.mpr (fun k _ => stopMemory_moved keeps k)) _).ran stops
  have third : Moved R t1 u :=
    (attemptAll_moved (List.forall_mem_map.mpr (fun region _ => onVm_moved _ (fun v => keeps.unmap v region))) _).ran unmaps
  exact trans_of (Moved R) (trans_of (Moved R) first second) third (Vm.stop v).2 rfl

end Programs

omit [BlockStorage B] [NetDevice N] in
theorem launch_unasked (serves : Serves hvf) {stopping : Control.Stage → Bool} {view : GuestMemoryMmap}
    {layout : MachineLayout} {s t : Owned V B N} {v : V} (created : s.vm = some v) (unasked : Unasked (hvf v))
    (bare : Bare (hvf v)) (unready : (hvf v).rx = none) {r : Except (Failure Error) Unit}
    (ran : (launch stopping view layout).run s = (r,t)) :
    ∃ w, t.vm = some w ∧ Unasked (hvf w) ∧ (r = .ok () → Bare (hvf w)) := by
  unfold launch at ran
  split at ran
  · cases ran
    exact ⟨v,created,unasked,fun _ => bare⟩
  have prepares := serves.prepare v view layout unready (bare unready).1
  have prepared := prepares.unasked unasked
  rw [Prog.run_bind,onVm_run _ _ created] at ran
  cases outcome : (Vm.prepare v view layout).1 with
  | error e =>
    rw [outcome] at ran
    cases ran
    exact ⟨_,rfl,prepared,by rintro ⟨⟩⟩
  | ok _ =>
    rw [outcome] at prepares ran
    have rest : Always (Moved (Drifts hvf)) (do
        if stopping .start then return ()
        onVm .platform Vm.start
        startMemory : Prog (Owned V B N) (Failure Error) Unit) := by
      split
      · exact .pure _
      · exact .bind (onVm_moved _ (fun v => (serves.start v).drifts)) (fun _ _ => .still rfl)
    obtain ⟨w,there,drifts⟩ := rest.ran ran _ rfl
    exact ⟨w,there,drifts.unasked prepared,fun _ => drifts.bare prepares.bare⟩

omit [BlockStorage B] [NetDevice N] in
/-- `init` neither polls nor stops. If it returns, events were sent to a receiver only. -/
theorem init_unasked (serves : Serves hvf) {startup : Startup V}
    (fresh : ∀ v, startup.create = .ok v → hvf v = Machine.new n) {s t : Owned V B N} (bare : s.vm = none)
    {r : Except (Failure Error) Unit} (ran : (init env startup).run s = (r,t)) {w : V} (there : t.vm = some w) :
    Unasked (hvf w) ∧ (r = .ok () → Bare (hvf w)) := by
  rcases init_inversion ran with allocated | ⟨u,view,v,allocated,_,created,installed⟩
  · rw [allocated.vm,bare] at there
    cases there
  · have new := fresh v created
    have unasked : Unasked (hvf v) := new ▸ ⟨Accounted.new n,rfl,rfl⟩
    have unsent : Bare (hvf v) := new ▸ fun _ => ⟨rfl,rfl⟩
    rw [install,Prog.run_bind] at installed
    rcases mapped : (mapBase startup.stopping 0 u.base).run
      {u with vm := some v, world := {u.world with view := view}} with ⟨result,x⟩
    obtain ⟨y,here,drifts⟩ := (mapBase_moved serves.keeps startup.stopping 0 u.base).ran mapped v rfl
    have unready : (hvf y).rx = none := drifts.moved.rx.trans (new ▸ rfl)
    rw [mapped] at installed
    have ended : t = x → Unasked (hvf w) ∧ (r = .ok () → Bare (hvf w)) := by
      rintro rfl
      obtain rfl : y = w := Option.some.inj (here.symm.trans there)
      exact ⟨drifts.unasked unasked,fun _ => drifts.bare unsent⟩
    cases result with
    | error e =>
      cases installed
      exact ended rfl
    | ok all =>
      dsimp only at installed
      split at installed
      · obtain ⟨z,present,after⟩ := launch_unasked serves here (drifts.unasked unasked) (drifts.bare unsent) unready installed
        obtain rfl : z = w := Option.some.inj (present.symm.trans there)
        exact after
      · cases installed
        exact ended rfl

/-- How a run leaves its VM to the cleanup. -/
theorem ended_watched [SerialIo U] (serves : Serves hvf) {startup : Startup V}
    (fresh : ∀ v, startup.create = .ok v → hvf v = Machine.new n) {serial : U} {first s : Owned V B N}
    (bare : first.vm = none) {result : Except Error Unit} (ended : Ended env startup serial first s result) {v : V}
    (left : s.vm = some v) : Accounted (hvf v) ∧ (hvf v).stops = [] ∧
      (result = .ok () → Bare (hvf v) ∧ Calm (hvf v)) := by
  cases ended with
  | cancelled => rw [bare] at left; cases left
  | failed ran =>
    obtain ⟨unasked,_⟩ := init_unasked serves fresh bare ran left
    exact ⟨unasked.accounted,unasked.stops,by rintro ⟨⟩⟩
  | uncreated ran absent => rw [absent] at left; cases left
  | @looped u w l result ran created reached concluded =>
    obtain ⟨unasked,ready⟩ := init_unasked serves fresh bare ran created
    have start : RunLoop.Watched hvf ⟨u.enter w serial,false,.head⟩ := by
      refine ⟨unasked.accounted,unasked.stops,ready rfl,fun _ => ?_⟩
      change Calm (hvf w)
      unfold Calm
      rw [unasked.polls]
      exact List.forall_mem_nil _
    have watched := start.reached serves reached
    obtain rfl : l.runtime.vm = v := Option.some.inj left
    refine ⟨watched.accounted,watched.unstopped,?_⟩
    rintro rfl
    exact ⟨watched.bare,watched.calm (fun f same => by rw [concluded] at same; cases same)⟩

theorem outcome_error {result fault cleaned : Except Error Unit} (lost : result = .ok () → ∃ e, fault = .error e) :
    ∃ e, outcome result fault cleaned = .error e := by
  cases result with
  | error e => exact ⟨e,rfl⟩
  | ok _ =>
    obtain ⟨e,rfl⟩ := lost rfl
    exact ⟨e,rfl⟩

/-- No vCPU fault is lost or reported twice, in whatever order the workers send their
events and however the run ends. Calls of `poll_event` return the events in the order they
were sent, and turn an idle channel into a shutdown only when they have returned every
event sent so far. A run whose vCPUs reported a fault fails. The first `stop` returns the first fault that no poll
returned, of a worker whose fault no poll returned; later ones return nothing. -/
theorem no_fault_lost [SerialIo U] (serves : Serves hvf) {startup : Startup V}
    (fresh : ∀ v, startup.create = .ok v → hvf v = Machine.new n) {serial : U} {first s u : Owned V B N}
    (bare : first.vm = none) {result fault cleaned : Except Error Unit}
    (ended : Ended env startup serial first s result) {v : V} (created : s.vm = some v)
    (cleans : cleanup.run s = (.ok (fault,cleaned),u)) :
    ∃ w r rest, u.vm = some w ∧ fault = r.mapError .platform ∧
      Along (fun before p => InOrder (hvf w).sent (yielded before) p) (hvf w).polls ∧
      (∀ x, (hvf x).cpus = true → ∃ p, (hvf (Vm.pollEvent x).2).polls = (hvf x).polls ++ [p] ∧
        p.answer = (Vm.pollEvent x).1) ∧
      ((∃ i, .failed i ∈ (hvf w).sys.events) → ∃ e, outcome result fault cleaned = .error e) ∧
      (hvf w).sent = yielded (hvf w).polls ++ rest ∧
      ((hvf w).rx.isSome → (∀ e, rest.findSome? Message.fault = some e → r = .error e) ∧
        (rest.findSome? Message.fault = none → r = .ok () ∨ r = .error .vcpuThreadPanicked)) ∧
      (∀ i, .failed i ∈ (hvf w).sys.events.take (yielded (hvf w).polls).length →
        .failed i ∉ (hvf w).sys.events.drop (yielded (hvf w).polls).length) ∧
      ∀ m, Relation.ReflTransGen Happens (hvf w) m → m.sent = (hvf w).sent ∧ m.polls = (hvf w).polls ∧
        ∃ later, m.stops = r::later ∧ ∀ x ∈ later, x = .ok () := by
  obtain ⟨accounted,unstopped,good⟩ := ended_watched serves fresh bare ended created
  obtain ⟨stopped,w,left,drifts⟩ := cleanup_moved serves.keeps created cleans
  have stops := serves.stop v
  have halted : (hvf (Vm.stop v).2).cpus = false := stops.records.2
  have same : hvf w = hvf (Vm.stop v).2 := drifts.absent halted
  have after : Accounted (hvf w) := same ▸ accounted.stops stops
  have record : (hvf w).stops = [(Vm.stop v).1] := by
    rw [same,stops.records.1,unstopped]
    rfl
  obtain ⟨rest,split⟩ := after.inside
  have only := after.halted _ _ record
  have returned : (hvf w).rx.isSome → (∀ e, rest.findSome? Message.fault = some e → (Vm.stop v).1 = .error e) ∧
      (rest.findSome? Message.fault = none → (Vm.stop v).1 = .ok () ∨ (Vm.stop v).1 = .error .vcpuThreadPanicked) := by
    intro prepared
    obtain ⟨taken,rx⟩ := Option.isSome_iff_exists.mp prepared
    obtain ⟨_,joined,outcome,drained⟩ := only.drained taken rx
    rw [← split,List.drop_left,drain_fault] at drained
    refine ⟨?_,?_⟩
    · intro e found
      rw [drained,found]
      rfl
    · intro none
      rw [drained,none]
      exact outcome
  refine ⟨w,(Vm.stop v).1,rest,left,stopped,after.ordered,fun x live => (serves.pollEvent x).records live,?_,split.symm,returned,?_,?_⟩
  · rintro ⟨i,failed⟩
    refine outcome_error (fun fine => ?_)
    obtain ⟨ready,calm⟩ := good fine
    obtain ⟨e,sent⟩ := failed_sent (hvf w).carries failed
    have prepared : (hvf w).rx.isSome := by
      rw [Option.isSome_iff_ne_none]
      intro none
      have unsent : (hvf w).sent = [] := ((same ▸ stops.bare ready : Bare (hvf w)) none).2
      rw [unsent] at sent
      cases sent
    have left : .failed e ∈ rest := by
      rw [← split] at sent
      refine (List.mem_append.mp sent).resolve_left (fun polled => ?_)
      rw [same,stops.polls] at polled
      cases calm (.failed e) polled
    have found : (rest.findSome? Message.fault).isSome := List.findSome?_isSome_iff.mpr ⟨_,left,rfl⟩
    obtain ⟨first,found⟩ := Option.isSome_iff_exists.mp found
    exact ⟨.platform first,by rw [stopped,(returned prepared).1 first found]; rfl⟩
  · intro i taken left
    have once := after.reported.once i
    rw [← List.take_append_drop (yielded (hvf w).polls).length (hvf w).sys.events,List.count_append] at once
    have first := List.count_pos_iff.mpr taken
    have second := List.count_pos_iff.mpr left
    omega
  · intro m reached
    obtain ⟨_,sent,polls,longer⟩ := joined_reached only.joined reached
    obtain ⟨later,whole⟩ := longer
    rw [record] at whole
    exact ⟨sent,polls,later,whole.symm,((after.reached reached).halted _ _ whole.symm).later⟩

end Owned
end Runs

namespace Reference
open Owned Platform.Cpus

/-- A VM with one vCPU, which fails when the VM is stopped. -/
structure Solo where
  machine : Machine 1 Nat
  quiet : machine.cpus = true → machine.rx = some 0 ∧ machine.sys = Sys.new 1

namespace Solo

theorem unsent {v : Solo} (live : v.machine.cpus = true) : v.machine.sent = [] := by
  have carries := v.machine.carries
  rw [(v.quiet live).2] at carries
  exact List.forall₂_nil_left_iff.mp carries

def failing : Sys 1 := {((Sys.new 1).goto 0 .returned) with
  shared := {State.new 1 with stop := true}
  events := [.failed 0]}

def lost : PlatformError := .unexpectedHvfExit 2 0

def prepared (v : Solo) : Solo := ⟨⟨Sys.new 1,[],.nil,some 0,true,v.machine.polls,v.machine.stops⟩,fun _ => ⟨rfl,rfl⟩⟩

def idle (v : Solo) : Poll Nat :=
  ⟨v.machine.sent.length,.error .timeout,v.machine.sys.shared.stop,poll (.error .timeout) v.machine.sys.shared.stop⟩

def failed (v : Solo) : Machine 1 Nat := {v.machine with
  sys := failing
  sent := [.failed lost]
  carries := .cons (.failed 0 lost) .nil}

instance : WVmm.Vm Solo Nat where
  map v _ := (.ok (),v)
  unmap v _ := (.ok (),v)
  completeIo v _ _ := (.ok (),v)
  setIrq v _ _ := (.ok (),v)
  pause v := (.ok .paused,v)
  resume v := (.ok (),v)
  start v := (.ok (),v)
  prepare v _ _ := (.ok (),v.prepared)
  pollEvent v :=
    if v.machine.cpus then (v.idle.answer,⟨v.machine.polled v.idle,v.quiet⟩)
    else (.ok none,v)
  stop v :=
    if v.machine.cpus then
      (v.failed.drained.bind fun _ => .ok (),⟨v.failed.halt (v.failed.drained.bind fun _ => .ok ()),by rintro ⟨⟩⟩)
    else (v.machine.drained.bind fun _ => .ok (),⟨v.machine.halt (v.machine.drained.bind fun _ => .ok ()),by rintro ⟨⟩⟩)

theorem serves : Serves Solo.machine where
  map _ _ := .still
  unmap _ _ := .still
  completeIo _ _ _ := .still
  setIrq _ _ _ := .still
  pause _ := .still
  resume _ := .still
  start _ := .still
  prepare _ _ _ _ _ := .ready .nil .refl
  pollEvent v := by
    cases live : v.machine.cpus with
    | true =>
      rw [show Vm.pollEvent v = (v.idle.answer,⟨v.machine.polled v.idle,v.quiet⟩) from if_pos live]
      change Polls v.machine (poll (.error .timeout) v.machine.sys.shared.stop)
        (v.machine.polled v.idle)
      refine .idles .still live (v.quiet live).1 ?_ ?_ .still
      · rw [unsent live]
        rfl
      · rintro ⟨⟩
    | false =>
      rw [show Vm.pollEvent v = (.ok none,v) from if_neg (by rw [live]; exact Bool.false_ne_true)]
      exact .unprepared live _
  stop v := by
    cases live : v.machine.cpus with
    | true =>
      rw [show Vm.stop v = (v.failed.drained.bind fun _ => .ok (),⟨v.failed.halt (v.failed.drained.bind fun _ => .ok ()),
        by rintro ⟨⟩⟩) from if_pos live]
      refine .joins (u := v.failed) live (.steps _ live ?_ ?_) rfl ?_ (.inl rfl)
      · rw [(v.quiet live).2]
        exact .tail .stop (.tail (.fail 0) .refl ⟨.inl rfl,rfl⟩) ⟨.inr rfl,rfl⟩
      · rw [unsent live]
        exact List.nil_prefix
      · intro i
        rw [Fin.fin_one_eq_zero i]
        rfl
    | false =>
      rw [show Vm.stop v = (v.machine.drained.bind fun _ => .ok (),⟨v.machine.halt (v.machine.drained.bind fun _ => .ok ()),
        by rintro ⟨⟩⟩) from if_neg (by rw [live]; exact Bool.false_ne_true)]
      exact .again live

end Solo

def soloBoot : Startup Solo where
  collect := collect
  create := .ok ⟨Machine.new 1,by rintro ⟨⟩⟩
  stopping _ := false

def soloBuilt : Except (Failure Error) (Owned Solo Disk Wire) :=
  Owned.new env ⟨2,1,false⟩ twoRanges spareWorld [("disk",⟨List.replicate 512 0,false⟩)] none (some spare)

def idlePass : List RunLoop.Label := [.look false,.next none] ++ List.replicate 8 .call ++ [.look true]

/-- The host stops a machine whose vCPU fails at that moment, and the run fails. -/
theorem no_fault_lost_solo :
    ∃ first s u w fault cleaned, soloBuilt = .ok first ∧ Owned.Ended env soloBoot (⟨[]⟩ : Port) first s (.ok ()) ∧
      Owned.cleanup.run s = (.ok (fault,cleaned),u) ∧ u.vm = some w ∧ w.machine.polls.map (·.answer) = [.ok none] ∧
      .failed 0 ∈ w.machine.sys.events ∧ fault = .error (.platform Solo.lost) ∧
      ∃ e, outcome (.ok ()) fault cleaned = .error e := by
  obtain ⟨first,t,vm,l,made,bare,ran,created,looped,concluded,cleaned⟩ : ∃ first t vm l, soloBuilt = .ok first ∧
      first.vm = none ∧ (Owned.init env soloBoot).run first = (.ok (),t) ∧ t.vm = some vm ∧
      run (RunLoop.next env) idlePass ⟨t.enter vm (⟨[]⟩ : Port),false,.head⟩ = some l ∧ l.pass = .ended (.ok ()) ∧
      ∃ u w, Owned.cleanup.run (t.leave l.runtime) = (.ok (.error (.platform Solo.lost),.ok ()),u) ∧ u.vm = some w ∧
        w.machine.polls.map (·.answer) = [.ok none] ∧ w.machine.sys.events = [.failed 0] :=
    ⟨_,_,_,_,rfl,rfl,rfl,rfl,rfl,rfl,_,_,rfl,rfl,rfl,rfl⟩
  obtain ⟨u,w,cleans,left,polled,events⟩ := cleaned
  have ended : Owned.Ended env soloBoot (⟨[]⟩ : Port) first (t.leave l.runtime) (.ok ()) :=
    .looped ran created (reaches_of_run idlePass looped) concluded
  obtain ⟨x,r,rest,there,_,_,_,fails,_⟩ := Owned.no_fault_lost Solo.serves
    (fun v same => by cases same; rfl) bare ended rfl cleans
  obtain rfl : w = x := Option.some.inj (left.symm.trans there)
  have failed : .failed 0 ∈ w.machine.sys.events := events ▸ List.mem_cons_self
  exact ⟨first,_,u,w,_,_,made,ended,cleans,left,polled,failed,rfl,fails ⟨0,failed⟩⟩

end Reference
end WVmm
