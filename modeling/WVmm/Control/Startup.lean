import WVmm.Control.Requests

/-! A stop during startup. `init` answers it like a success; that the VM is not used
after that rests on the lifecycle, which the run loop reads again. -/
namespace WVmm.Control
open Lib.Runs

def Event.onRunning : Event → Bool
  | .pause _ _ | .resume _ _ | .setIrq | .pollEvent | .completeIo => true
  | _ => false

def Pc.unwraps : Pc → Bool
  | .serving _ | .uartIrq | .syncing | .pausing | .transacting | .resuming | .irqs _ | .events | .accessIrq
  | .completeIo => true
  | _ => false

def Pc.returns : Pc → Option (Except Error Unit)
  | .stopMemory outcome false | .finishing outcome false => some outcome
  | _ => none

/-- `init` found a stop at one of its boundaries. -/
def StopsEarly (m : Machine) (s t : Sys) : Prop :=
  ∃ stage, s.pc = .checking stage ∧ s.state.stopping = true ∧ s.next m (.vmm .ok) = some t

def Phase.opening : Phase → Bool
  | .idle | .start => true
  | _ => false

/-- Before the run loop nothing was done and nothing has failed. -/
def Opening (s : Sys) : Prop := s.pc.phase.opening = true → s.log = [] ∧ s.result = .ok ()

section Opening
variable {m : Machine} {s t : Sys} {a : Answer}

/-- The calls of `init` leave the record of the run loop alone. -/
theorem startStep_quiet (taken : s.startStep m a = some t) (opening : t.pc.phase.opening = true) :
    t.log = s.log ∧ t.result = s.result := by
  have call : ∀ {u : Sys}, s.call u a = some t → u.log = s.log ∧ u.result = s.result →
      t.log = s.log ∧ t.result = s.result := by
    intro u called same
    rcases VmmStep.call called with rfl | ⟨e,rfl⟩
    · exact same
    · cases opening
  unfold Sys.startStep at taken
  split at taken
  · split at taken <;> cases taken
    · exact ⟨rfl,rfl⟩
    · cases opening
  · have moved := VmmStep.certain taken
    split at moved <;> subst moved
    · cases opening
    · exact ⟨rfl,rfl⟩
  · exact call taken ⟨rfl,rfl⟩
  · rw [VmmStep.certain taken]
    exact ⟨rfl,rfl⟩
  · rename_i stage _
    cases stage <;> exact call taken ⟨rfl,rfl⟩
  · rw [VmmStep.certain taken]
    exact ⟨rfl,rfl⟩
  · rw [VmmStep.certain taken] at opening
    cases opening
  · cases taken

/-- A step that ends before the run loop also starts there. -/
theorem vmm_opening (step : VmmStep m s t) (opening : t.pc.phase.opening = true) : s.pc.phase = .start := by
  cases step with
  | silent silent =>
    rcases silent.running with start | loop
    · exact start
    · rcases silent.phase with same | left
      · rw [same,loop] at opening
        cases opening
      · rw [left] at opening
        cases opening
  | answered r outcome _ => cases outcome <;> cases opening
  | stopped outcome dropping _ => cases dropping <;> cases opening
  | finished outcome dropping _ => cases dropping <;> cases opening
  | checked panicking _ =>
    change (ite _ _ _ : Pc).phase.opening = true at opening
    split at opening
    · cases opening
    · split at opening <;> cases opening
  | _ => cases opening

theorem start_part (start : s.pc.phase = .start) : Sys.part s.pc = .start := by
  generalize s.pc = pc at start
  cases pc with
  | stopMemory outcome dropping => cases dropping <;> cases start
  | finishing outcome dropping => cases dropping <;> cases start
  | _ => first | rfl | cases start

/-- Clients neither touch the record nor move the thread. -/
theorem hostStop_quiet (s : Sys) (thread : Nat) : (s.hostStop thread).log = s.log ∧
    (s.hostStop thread).result = s.result ∧ (s.hostStop thread).pc = s.pc := by
  unfold Sys.hostStop
  split <;> exact ⟨rfl,rfl,rfl⟩

theorem hostSubmit_quiet (s : Sys) (thread : Nat) (operation : Operation) :
    (s.hostSubmit thread operation).log = s.log ∧ (s.hostSubmit thread operation).result = s.result ∧
      (s.hostSubmit thread operation).pc = s.pc := by
  unfold Sys.hostSubmit
  split <;> exact ⟨rfl,rfl,rfl⟩

theorem next_opening (l : Label) (taken : s.next m l = some t) (opening : t.pc.phase.opening = true) :
    s.pc.phase.opening = true ∧ t.log = s.log ∧ t.result = s.result := by
  have kept : t.pc = s.pc → t.log = s.log → t.result = s.result →
      s.pc.phase.opening = true ∧ t.log = s.log ∧ t.result = s.result :=
    fun pc log result => ⟨pc ▸ opening,log,result⟩
  cases l with
  | submit thread operation =>
    cases taken
    obtain ⟨log,result,pc⟩ := hostSubmit_quiet s thread operation
    exact kept pc log result
  | stop thread =>
    cases taken
    obtain ⟨log,result,pc⟩ := hostStop_quiet s thread
    exact kept pc log result
  | stopReturns =>
    obtain ⟨_,rfl⟩ := guarded taken
    exact kept rfl rfl rfl
  | status =>
    cases taken
    exact kept rfl rfl rfl
  | setRequested mib =>
    cases taken
    exact kept rfl rfl rfl
  | begin thread =>
    simp only [Sys.next] at taken
    split at taken <;> cases taken
    rename_i here
    rw [here]
    unfold Sys.beginRun
    split <;> exact ⟨rfl,rfl,rfl⟩
  | drop panicking =>
    simp only [Sys.next] at taken
    split at taken <;> cases taken
    cases opening
  | dropFails =>
    simp only [Sys.next] at taken
    split at taken <;> cases taken
    cases opening
  | vmm a =>
    have start := vmm_opening (vmm_cases taken) opening
    simp only [Sys.next,Sys.vmm,start_part start] at taken
    rw [start]
    exact ⟨rfl,startStep_quiet taken opening⟩
  | panic =>
    obtain ⟨_,rfl⟩ := guarded taken
    cases opening

theorem opening_reached {memory : Option MemoryStatus}
    (reached : Reaches (Takes (Sys.next m)) (Sys.new memory) s) : Opening s := by
  refine reached.invariant (fun _ => ⟨rfl,rfl⟩) ?_
  intro t l u before taken opening
  obtain ⟨earlier,log,result⟩ := next_opening l taken opening
  rw [log,result]
  exact before earlier

/-- Every state before one that precedes the run loop precedes it too. -/
theorem opening_back (later : Reaches (Takes (Sys.next m)) s t) (opening : t.pc.phase.opening = true) :
    s.pc.phase.opening = true := by
  induction later with
  | refl => exact opening
  | tail l _ taken ih => exact ih (next_opening l taken opening).1

end Opening

def Sys.cleanupOutcome (s : Sys) : Except Error Unit :=
  match s.fault with
  | .error e => .error e
  | .ok () => s.cleanup

theorem outcome_cleanup {s : Sys} (result : s.result = .ok ()) : s.outcome = s.cleanupOutcome := by
  unfold Sys.outcome Sys.cleanupOutcome
  rw [result]
  cases s.fault <;> rfl

/-- Where the VMM thread is after an early return. Up to the end of the run the
lifecycle stays `stopping`, whatever clients do. -/
inductive AfterStop (s : Sys) : Prop
  | leaving (stopping : s.state.lifecycle = .stopping) (result : s.result = .ok ())
    (here : s.pc = .started ∨ s.pc = .head ∨ s.pc = .leaving ∨ (∃ todo, s.pc = .cleanup todo) ∨ s.pc = .saving)
  | returning (stopping : s.state.lifecycle = .stopping) (outcome : Except Error Unit)
    (here : s.pc = .stopMemory outcome false ∨ s.pc = .finishing outcome false) (same : outcome = s.cleanupOutcome)
  | past (ended : s.state.lifecycle = .stopping ∨ s.state.lifecycle = .stopped)
    (here : (∃ panicking, s.pc = .dropping panicking) ∨ s.pc = .savePanic ∨
      (∃ outcome, s.pc = .stopMemory outcome true ∨ s.pc = .finishing outcome true) ∨ s.pc = .gone)

/-- An early return leads to no call on the VM but the stop. -/
structure Aborted (s : Sys) : Prop where
  place : AfterStop s
  untouched : ∀ e ∈ s.log, e.onRunning = false

namespace AfterStop
variable {m : Machine} {s t : Sys} {a : Answer}

theorem lifecycle (after : AfterStop s) : s.state.lifecycle = .stopping ∨ s.state.lifecycle = .stopped := by
  cases after with
  | leaving stopping => exact .inl stopping
  | returning stopping => exact .inl stopping
  | past ended => exact ended

theorem unwraps (after : AfterStop s) : s.pc.unwraps = false := by
  cases after with
  | leaving _ _ here => rcases here with here | here | here | ⟨_,here⟩ | here <;> rw [here] <;> rfl
  | returning _ _ here => rcases here with here | here <;> rw [here] <;> rfl
  | past _ here => rcases here with ⟨_,here⟩ | here | ⟨_,here | here⟩ | here <;> rw [here] <;> rfl

theorem returns (after : AfterStop s) {outcome : Except Error Unit} (returned : s.pc.returns = some outcome) :
    outcome = s.cleanupOutcome := by
  cases after with
  | leaving _ _ here => rcases here with here | here | here | ⟨_,here⟩ | here <;> rw [here] at returned <;> cases returned
  | returning _ _ here same => rcases here with here | here <;> rw [here] at returned <;> cases returned <;> exact same
  | past _ here =>
    rcases here with ⟨_,here⟩ | here | ⟨_,here | here⟩ | here <;> rw [here] at returned <;> cases returned

/-- Clients can only stop the VM once more. -/
theorem client (after : AfterStop s) (pc : t.pc = s.pc) (result : t.result = s.result) (fault : t.fault = s.fault)
    (cleanup : t.cleanup = s.cleanup) (state : t.state.lifecycle = State.stopTarget s.state.lifecycle ∨
      t.state.lifecycle = s.state.lifecycle) : AfterStop t := by
  have kept : t.state.lifecycle = s.state.lifecycle := by
    rcases state with moved | same
    · rcases after.lifecycle with stopping | stopped
      · rw [moved,stopping]
        rfl
      · rw [moved,stopped]
        rfl
    · exact same
  cases after with
  | leaving stopping ok here => exact .leaving (kept.trans stopping) (result.trans ok) (by rwa [pc])
  | returning stopping outcome here same =>
    refine .returning (kept.trans stopping) outcome (by rwa [pc]) ?_
    rw [same,Sys.cleanupOutcome,Sys.cleanupOutcome,fault,cleanup]
  | past ended here => exact .past (by rwa [kept]) (by rwa [pc])

theorem vmm (after : AfterStop s) (taken : s.vmm m a = some t) :
    AfterStop t ∧ (t.log = s.log ∨ t.log = s.log ++ [.left]) := by
  cases after with
  | leaving stopping result here =>
    rcases here with here | here | here | ⟨todo,here⟩ | here
    · simp only [Sys.vmm,here,Sys.part,Sys.startStep] at taken
      rw [VmmStep.certain taken]
      have kept : s.state.running = s.state := by
        unfold State.running
        rw [if_neg (by rw [stopping]; nofun)]
      refine ⟨.leaving ?_ result (.inr (.inl rfl)),.inl rfl⟩
      change s.state.running.lifecycle = .stopping
      rw [kept,stopping]
    · simp only [Sys.vmm,here,Sys.part,Sys.requestStep] at taken
      have stops : s.state.stopping = true := decide_eq_true stopping
      rw [stops,if_pos rfl] at taken
      rw [VmmStep.certain taken]
      exact ⟨.leaving stopping rfl (.inr (.inr (.inl rfl))),.inr rfl⟩
    · simp only [Sys.vmm,here,Sys.part,Sys.endStep] at taken
      rw [VmmStep.certain taken]
      exact ⟨.leaving rfl result (.inr (.inr (.inr (.inl ⟨_,rfl⟩)))),.inl rfl⟩
    · simp only [Sys.vmm,here,Sys.part] at taken
      cases todo with
      | nil =>
        simp only [Sys.endStep,here] at taken
        rw [VmmStep.certain taken]
        exact ⟨.leaving stopping result (.inr (.inr (.inr (.inr rfl)))),.inl rfl⟩
      | cons c rest =>
        have cleaned : ∃ found, t = s.clean c rest found := by
          simp only [Sys.endStep,here] at taken
          split at taken
          · cases taken
            exact ⟨_,rfl⟩
          · obtain ⟨_,rfl⟩ := unguarded taken
            exact ⟨_,rfl⟩
          · cases taken
        obtain ⟨found,rfl⟩ := cleaned
        exact ⟨.leaving stopping result (.inr (.inr (.inr (.inl ⟨rest,rfl⟩)))),.inl rfl⟩
    · simp only [Sys.vmm,here,Sys.part,Sys.endStep] at taken
      rw [VmmStep.certain taken]
      exact ⟨.returning stopping _ (.inl rfl) (outcome_cleanup result),.inl rfl⟩
  | returning stopping outcome here same =>
    rcases here with here | here
    · simp only [Sys.vmm,here,Sys.part,Sys.endStep] at taken
      rw [VmmStep.certain taken]
      exact ⟨.returning stopping outcome (.inr rfl) same,.inl rfl⟩
    · simp only [Sys.vmm,here,Sys.part,Sys.endStep] at taken
      rw [VmmStep.certain taken]
      exact ⟨.past (.inr rfl) (.inl ⟨false,rfl⟩),.inl rfl⟩
  | past ended here =>
    rcases here with ⟨panicking,here⟩ | here | ⟨outcome,here | here⟩ | here
    · simp only [Sys.vmm,here,Sys.part,Sys.endStep] at taken
      rw [VmmStep.certain taken]
      refine ⟨.past ended ?_,.inl rfl⟩
      change (∃ p, (ite _ _ _ : Pc) = .dropping p) ∨ _
      split
      · exact .inr (.inr (.inr rfl))
      · split
        · exact .inr (.inl rfl)
        · exact .inr (.inr (.inl ⟨_,.inl rfl⟩))
    · simp only [Sys.vmm,here,Sys.part,Sys.endStep] at taken
      rw [VmmStep.certain taken]
      exact ⟨.past ended (.inr (.inr (.inl ⟨_,.inl rfl⟩))),.inl rfl⟩
    · simp only [Sys.vmm,here,Sys.part,Sys.endStep] at taken
      rw [VmmStep.certain taken]
      exact ⟨.past ended (.inr (.inr (.inl ⟨_,.inr rfl⟩))),.inl rfl⟩
    · simp only [Sys.vmm,here,Sys.part,Sys.endStep] at taken
      rw [VmmStep.certain taken]
      exact ⟨.past (.inr rfl) (.inr (.inr (.inr rfl))),.inl rfl⟩
    · simp only [Sys.vmm,here,Sys.part] at taken
      cases taken

theorem unwind (after : AfterStop s) : AfterStop s.unwind := .past after.lifecycle (.inl ⟨true,rfl⟩)

end AfterStop

namespace Aborted
variable {m : Machine} {s t : Sys}

theorem step (aborted : Aborted s) (l : Label) (taken : s.next m l = some t) : Aborted t := by
  have place := aborted.place
  have busy : s.pc ≠ .idle := by
    intro idle
    cases place with
    | leaving _ _ here => rw [idle] at here; simp at here
    | returning _ _ here => rw [idle] at here; simp at here
    | past _ here => rw [idle] at here; simp at here
  have log : ∀ {u : Sys}, (u.log = s.log ∨ u.log = s.log ++ [.left]) → ∀ e ∈ u.log, e.onRunning = false := by
    rintro u (same | left) e member
    · exact aborted.untouched e (same ▸ member)
    · rw [left,List.mem_append,List.mem_singleton] at member
      rcases member with before | rfl
      · exact aborted.untouched e before
      · rfl
  cases l with
  | submit thread operation =>
    cases taken
    refine ⟨?_,log (.inl (hostSubmit_quiet s thread operation).1)⟩
    unfold Sys.hostSubmit
    split
    · exact place
    · rename_i after accepted
      obtain ⟨_,_,rfl⟩ := State.submit_accepted accepted
      exact place.client rfl rfl rfl rfl (.inr rfl)
  | stop thread =>
    cases taken
    refine ⟨?_,log (.inl (hostStop_quiet s thread).1)⟩
    unfold Sys.hostStop
    split
    · exact place
    · rename_i after accepted
      obtain ⟨_,rfl⟩ := State.stop_accepted accepted
      exact place.client rfl rfl rfl rfl (.inl rfl)
  | stopReturns =>
    obtain ⟨_,rfl⟩ := guarded taken
    exact ⟨place.client rfl rfl rfl rfl (.inr rfl),log (.inl rfl)⟩
  | status =>
    cases taken
    exact ⟨place.client rfl rfl rfl rfl (.inr rfl),log (.inl rfl)⟩
  | setRequested mib =>
    cases taken
    exact ⟨place.client rfl rfl rfl rfl (.inr rfl),log (.inl rfl)⟩
  | begin thread | drop panicking | dropFails =>
    simp only [Sys.next] at taken
    cases taken
  | vmm a =>
    obtain ⟨after,recorded⟩ := place.vmm taken
    exact ⟨after,log recorded⟩
  | panic =>
    obtain ⟨_,rfl⟩ := guarded taken
    exact ⟨place.unwind,log (.inr rfl)⟩

end Aborted

/-- An early return leaves the thread before the run loop, with a lifecycle that
says so. -/
theorem StopsEarly.aborted {m : Machine} {s t : Sys} (early : StopsEarly m s t) (opening : Opening s) : Aborted t := by
  obtain ⟨stage,here,stopping,taken⟩ := early
  obtain ⟨log,result⟩ := opening (by rw [here]; rfl)
  simp only [Sys.next,Sys.vmm,here,Sys.part,Sys.startStep] at taken
  rw [if_pos stopping] at taken
  rw [VmmStep.certain taken]
  refine ⟨.leaving (of_decide_eq_true stopping) result (.inl rfl),?_⟩
  change ∀ e ∈ s.log, _
  rw [log]
  exact List.forall_mem_nil _

/-- When a stop ends `init` early, the VM is never used: no call on a running VM is
made, the run loop does not get to where it unwraps the VM, the lifecycle is never
`running`, neither before nor after, and the run returns what stop and cleanup found. -/
theorem early_stop_leaves_vm_alone (m : Machine) (memory : Option MemoryStatus) {s t u : Sys}
    (reached : Reaches (Takes (Sys.next m)) (Sys.new memory) s) (early : StopsEarly m s t)
    (later : Reaches (Takes (Sys.next m)) t u) :
    (∀ e ∈ u.log, e.onRunning = false) ∧ u.pc.unwraps = false ∧ u.state.lifecycle ≠ .running ∧
      (∀ r, Reaches (Takes (Sys.next m)) (Sys.new memory) r → Reaches (Takes (Sys.next m)) r s →
        r.state.lifecycle ≠ .running) ∧
      ∀ outcome, u.pc.returns = some outcome →
        outcome = u.cleanupOutcome ∧ (u.fault = .ok () → u.cleanup = .ok () → outcome = .ok ()) := by
  have aborted : Aborted u := later.invariant (early.aborted (opening_reached reached))
    (fun _ l _ before taken => before.step l taken)
  refine ⟨aborted.untouched,aborted.place.unwraps,?_,?_,?_⟩
  · rcases aborted.place.lifecycle with stopping | stopped
    · rw [stopping]
      nofun
    · rw [stopped]
      nofun
  · intro r earlier between
    obtain ⟨stage,here,_⟩ := early
    have opening := opening_back between (by rw [here]; rfl)
    have fits := (safe_reached earlier).fits
    generalize r.pc.phase = phase at opening fits
    cases phase with
    | idle => rcases fits with created | stopped <;> simp [*]
    | start => rcases fits with starting | stopping <;> simp [*]
    | _ => cases opening
  · intro outcome returned
    have same := aborted.place.returns returned
    refine ⟨same,fun fault cleanup => ?_⟩
    rw [same,Sys.cleanupOutcome,fault]
    exact cleanup

/-- A client stops the machine between two calls of `init`, once it created the VM. -/
def stoppedLabels : List Label := [.begin 0,.vmm .ok,.vmm .ok,.vmm .ok,.vmm .ok,.vmm .ok,.stop 1]

theorem early_stop_leaves_vm_alone_sample :
    ∃ s t u, run (Sys.next sampleMachine) stoppedLabels (Sys.new none) = some s ∧ StopsEarly sampleMachine s t ∧
      run (Sys.next sampleMachine) (List.replicate 8 (.vmm .ok)) t = some u ∧ u.pc.returns = some (.ok ()) ∧
      (∀ e ∈ u.log, e.onRunning = false) := by
  obtain ⟨s,t,u,opened,early,ended,returned⟩ : ∃ s t u, run (Sys.next sampleMachine) stoppedLabels (Sys.new none) = some s ∧
      StopsEarly sampleMachine s t ∧ run (Sys.next sampleMachine) (List.replicate 8 (.vmm .ok)) t = some u ∧
      u.pc.returns = some (.ok ()) :=
    ⟨_,_,_,rfl,⟨.map 0,rfl,rfl,rfl⟩,rfl,rfl⟩
  exact ⟨s,t,u,opened,early,ended,returned,
    (early_stop_leaves_vm_alone sampleMachine none (reaches_of_run _ opened) early (reaches_of_run _ ended)).1⟩

end WVmm.Control
