import WVmm.Control.Requests

/-! Pause means paused: the flag of the run loop, the shared lifecycle and the
calls on the VM agree, and a paused loop touches no device. -/
namespace WVmm.Control
open Lib.Runs Platform

inductive Vm
  | running
  /-- Paused for the host or inside a memory transaction. -/
  | held (host : Bool)
  /-- A pause found the VM stopping, or a call failed. -/
  | ended
deriving DecidableEq

/-- The calls on a VM alternate: only a running VM is paused, only by the one who
paused it is it resumed, and after a pause that found it stopping or failed there
is neither. Other events do not matter. -/
def vmStep (vm : Vm) (e : Event) : Option Vm :=
  match vm, e with
  | .running, .pause host (some .paused) => some (.held host)
  | .running, .pause _ _ => some .ended
  | .held host, .resume by_ answer =>
    if host = by_ then some (if answer = some () then .running else .ended) else none
  | _, .pause _ _ => none
  | _, .resume _ _ => none
  | vm, _ => some vm

def vmState (log : List Event) : Option Vm := log.foldlM vmStep .running

/-- A served pause request was answered with success, and neither has the loop
begun to serve a resume request since nor has it ended. -/
def frozen (log : List Event) : Bool :=
  log.foldl (fun still e => match e with
    | .replied .pause true => true
    | .serving .resume | .left => false
    | _ => still) false

/-- The calls a paused loop must not make. -/
def Event.device : Event → Bool
  | .recv | .setIrq | .poll _ | .map | .unmap | .pollEvent | .access | .completeIo => true
  | _ => false

def Event.switches : Event → Bool
  | .pause _ _ | .resume _ _ => true
  | _ => false

theorem plain_idle {e : Event} (plain : e.switches = false) (vm : Vm) : vmStep vm e = some vm := by
  cases e with
  | pause | resume => cases plain
  | _ => cases vm <;> rfl

def vmOf (paused : Bool) : Vm := if paused then .held true else .running

def asked (operation : Operation) : Bool := operation = .pause

structure Logged (log : List Event) : Prop where
  alternates : (vmState log).isSome = true
  quiet : Along (fun before e => frozen before = true → e.device = false) log
  answered : Along (fun before e => ∀ operation, e = .replied operation true →
    vmState before = some (vmOf (asked operation))) log

theorem vmState_snoc (log : List Event) (e : Event) :
    vmState (log ++ [e]) = (vmState log).bind (vmStep · e) := by
  simp [vmState,List.foldlM_append]

theorem frozen_snoc (log : List Event) (e : Event) :
    frozen (log ++ [e]) = match e with
      | .replied .pause true => true
      | .serving .resume | .left => false
      | _ => frozen log := by
  simp [frozen,List.foldl_append]

namespace Logged

variable {log : List Event}

theorem nil : Logged [] := ⟨rfl,.nil,.nil⟩

theorem snoc (logged : Logged log) {e : Event} {vm vm' : Vm} (before : vmState log = some vm)
    (after : vmStep vm e = some vm') (quiet : frozen log = true → e.device = false)
    (answered : ∀ operation, e = .replied operation true → vm = vmOf (asked operation)) :
    Logged (log ++ [e]) where
  alternates := by simp [vmState_snoc,before,after]
  quiet := logged.quiet.snoc quiet
  answered := by
    refine logged.answered.snoc ?_
    intro operation same
    rw [before,answered operation same]

theorem mark (logged : Logged log) {e : Event} (plain : e.switches = false)
    (quiet : e.device = false) (silent : ∀ operation, e ≠ .replied operation true) :
    Logged (log ++ [e]) := by
  obtain ⟨vm,before⟩ := Option.isSome_iff_exists.mp logged.alternates
  exact logged.snoc before (plain_idle plain vm) (fun _ => quiet) (fun operation same => absurd same (silent operation))

end Logged

/-- The flag agrees with the lifecycle unless the VM is stopping. -/
def Synced (s : Sys) : Prop :=
  s.state.lifecycle ≠ .stopping → s.paused = decide (s.state.lifecycle = .paused)

/-- Flag, log and lifecycle while nothing is paused inside a transaction. -/
def Level (s : Sys) : Prop :=
  vmState s.log = some (vmOf s.paused) ∧ (frozen s.log = true → s.paused = true)

def Placed (s : Sys) : Prop :=
  match s.pc with
  | .building | .built | .allocating | .checking _ | .calling _ | .startMemory | .started =>
    s.paused = false ∧ Level s
  | .head | .fetch | .waiting => Level s ∧ Synced s
  | .serving r => Level s ∧ Synced s ∧ (r.operation = .resume → frozen s.log = false)
  | .completing r (.ok ()) => s.paused = asked r.operation ∧ Level s
  | .input | .uartIrq | .polling _ | .syncing | .probing | .pausing | .irqs _ | .events | .accessing
  | .accessIrq | .completeIo => s.paused = false ∧ Level s ∧ Synced s
  | .transacting | .resuming =>
    s.paused = false ∧ vmState s.log = some (.held false) ∧ frozen s.log = false ∧ Synced s
  | .idle => s.paused = false ∧ s.log = []
  | _ => True

structure Paced (s : Sys) : Prop where
  logged : Logged s.log
  placed : Placed s

theorem paced_new (memory : Option MemoryStatus) : Paced (Sys.new memory) := ⟨.nil,rfl,rfl⟩

def Free (s : Sys) : Prop := s.paused = false ∧ Level s ∧ Synced s

theorem Free.thawed {s : Sys} (free : Free s) : frozen s.log = false := by
  by_contra still
  have paused := free.2.1.2 (by simpa using still)
  rw [free.1] at paused
  cases paused

theorem device_idle {e : Event} (device : e.device = true) (vm : Vm) : vmStep vm e = some vm := by
  cases e with
  | pause | resume => cases device
  | _ => exact plain_idle rfl vm

theorem Free.call {s : Sys} (free : Free s) (logged : Logged s.log) {e : Event}
    (device : e.device = true) : Logged (s.log ++ [e]) ∧ Free (s.record e) := by
  have thawed := free.thawed
  have kept : frozen (s.log ++ [e]) = false := by
    rw [frozen_snoc]
    cases e with
    | serving | replied | pause | resume | left => cases device
    | _ => exact thawed
  refine ⟨logged.snoc free.2.1.1 (device_idle device _) (fun still => ?_) ?_,free.1,⟨?_,?_⟩,free.2.2⟩
  · rw [thawed] at still
    cases still
  · rintro operation rfl
    cases device
  · rw [Sys.record,vmState_snoc,free.2.1.1]
    exact device_idle device _
  · intro still
    rw [Sys.record,kept] at still
    cases still

namespace Paced

variable {m : Machine} {s t : Sys} {a : Answer}

theorem leave (logged : Logged s.log) (result : Except Error Unit) : Paced (s.leave result) :=
  ⟨logged.mark rfl rfl nofun,trivial⟩

theorem call {u v : Sys} (taken : u.call v a = some t) (back : Paced v) (logged : Logged u.log) :
    Paced t := by
  rcases VmmStep.call taken with rfl | ⟨e,rfl⟩
  · exact back
  · exact leave logged _

theorem startStep (paced : Paced s) (safe : Safe s) (taken : s.startStep m a = some t) : Paced t := by
  obtain ⟨logged,placed⟩ := paced
  unfold Placed at placed
  unfold Sys.startStep at taken
  split at taken <;> rename_i here <;> simp only [here] at placed
  · split at taken
    · cases taken
      exact ⟨logged,placed⟩
    · cases taken
      exact ⟨logged,trivial⟩
    · cases taken
  · rw [VmmStep.certain taken]
    split
    · exact leave logged _
    · exact ⟨logged,placed⟩
  · exact call taken ⟨logged,placed⟩ logged
  · rw [VmmStep.certain taken]
    split <;> exact ⟨logged,placed⟩
  · rename_i stage
    cases stage <;> exact call taken ⟨logged,placed⟩ logged
  · rw [VmmStep.certain taken]
    exact ⟨logged,placed⟩
  · rw [VmmStep.certain taken]
    have fits := safe.fits
    rw [here] at fits
    refine ⟨logged,placed.2,?_⟩
    intro alive
    change s.paused = _
    rw [placed.1]
    rcases s.state.running_cases with ⟨_,moved⟩ | ⟨other,same⟩
    · simp [Sys.locked,moved]
    · rw [Sys.locked,same] at alive
      exact absurd (fits.resolve_left other) alive
  · cases taken

theorem serve {r : Request} (level : Level s) (logged : Logged s.log)
    (thawed : r.operation = .resume → frozen s.log = false) (taken : s.serve r a = some t) : Paced t := by
  obtain ⟨vm,still⟩ := level
  unfold Sys.serve at taken
  split at taken <;> rename_i operation flag <;> cases taken
  · rw [flag] at vm still
    have thaw : frozen s.log = false := by
      by_contra frozen
      exact absurd (still (by simpa using frozen)) nofun
    refine ⟨logged.snoc vm rfl (fun _ => rfl) nofun,?_,?_,fun _ => rfl⟩
    · simp [asked,operation]
    · change vmState (s.log ++ [_]) = _
      rw [vmState_snoc,vm]
      rfl
  · rw [flag] at vm
    exact ⟨logged.snoc vm rfl (fun _ => rfl) nofun,trivial⟩
  · rw [flag] at vm
    exact ⟨logged.snoc vm rfl (fun _ => rfl) nofun,trivial⟩
  · rw [flag] at vm
    refine ⟨logged.snoc vm rfl (fun _ => rfl) nofun,?_,?_,?_⟩
    · simp [asked,operation]
    · change vmState (s.log ++ [_]) = _
      rw [vmState_snoc,vm]
      rfl
    · intro now
      change frozen (s.log ++ [_]) = true at now
      rw [frozen_snoc,thawed operation] at now
      cases now
  · rw [flag] at vm
    exact ⟨logged.snoc vm rfl (fun _ => rfl) nofun,trivial⟩
  · exact ⟨logged,by simp [asked,operation,flag,Sys.goto],vm,still⟩
  · exact ⟨logged,by simp [asked,operation,flag,Sys.goto],vm,still⟩

/-- `complete` after success: the reply is true, and flag and lifecycle agree. -/
theorem answer {r : Request} (logged : Logged s.log) (flag : s.paused = asked r.operation)
    (level : Level s) : Paced (s.answer m r (.ok ())) := by
  obtain ⟨vm,still⟩ := level
  refine ⟨?_,⟨?_,?_⟩,?_⟩
  · refine logged.snoc vm (plain_idle rfl _) (fun _ => rfl) ?_
    rintro operation same
    cases same
    rw [flag]
  · change vmState (s.log ++ [_]) = some (vmOf s.paused)
    rw [vmState_snoc,vm]
    exact plain_idle rfl _
  · intro now
    change frozen (s.log ++ [_]) = true at now
    rw [frozen_snoc] at now
    change s.paused = true
    cases operation : r.operation with
    | pause => rw [flag,operation]; rfl
    | resume => exact still (by simpa [operation] using now)
  · intro alive
    change s.paused = _
    rcases s.state.complete_cases m.diagnostic r with ⟨stopping,same⟩ | ⟨_,moved⟩
    · rw [Sys.answer,Sys.record,Sys.locked,same] at alive
      exact absurd stopping alive
    · rw [flag,Sys.answer,Sys.record,Sys.locked,moved]
      cases r.operation <;> rfl

theorem requestStep (paced : Paced s) (taken : s.requestStep m a = some t) :
    Paced t := by
  obtain ⟨logged,placed⟩ := paced
  unfold Placed at placed
  unfold Sys.requestStep at taken
  split at taken <;> rename_i here <;> simp only [here] at placed
  · rw [VmmStep.certain taken]
    split
    · exact leave logged _
    · exact ⟨logged,placed⟩
  · rw [VmmStep.certain taken]
    split
    · rename_i r rest queued
      have marked := logged.mark (e := .serving r.operation) rfl rfl nofun
      obtain ⟨⟨vm,still⟩,synced⟩ := placed
      refine ⟨marked,⟨?_,?_⟩,synced,?_⟩
      · change vmState (s.log ++ [_]) = some (vmOf s.paused)
        rw [vmState_snoc,vm]
        exact plain_idle rfl _
      · intro now
        change frozen (s.log ++ [_]) = true at now
        rw [frozen_snoc] at now
        refine still ?_
        cases operation : r.operation <;> simp_all
      · intro operation
        change frozen (s.log ++ [_]) = false
        rw [frozen_snoc,operation]
    · split
      · exact ⟨logged,placed⟩
      · rename_i released
        have flag : s.paused = false := by simpa using released
        exact ⟨logged,flag,placed⟩
  · exact serve placed.1 logged placed.2.2 taken
  · rename_i r outcome
    rw [VmmStep.certain taken]
    cases outcome with
    | ok done => exact answer logged placed.1 placed.2
    | error e =>
      have marked : Logged (s.log ++ [.replied r.operation false]) := 
        logged.mark rfl rfl (fun operation same => by cases same)
      exact leave (s := (s.locked _ _).record _) marked _
  · rw [VmmStep.certain taken]
    exact leave (s := s.locked _ _) logged _
  · split at taken
    · cases taken
    · rw [VmmStep.certain taken]
      exact ⟨logged,placed⟩
  · cases taken

theorem passStep (paced : Paced s) (taken : s.passStep m a = some t) : Paced t := by
  obtain ⟨logged,placed⟩ := paced
  unfold Placed at placed
  unfold Sys.passStep at taken
  split at taken <;> rename_i here <;> simp only [here] at placed
  · obtain ⟨recorded,free⟩ := Free.call placed logged (e := .recv) rfl
    split at taken
    · cases taken
      exact ⟨logged,placed⟩
    · exact call taken ⟨recorded,free⟩ recorded
  · obtain ⟨recorded,free⟩ := Free.call placed logged (e := .setIrq) rfl
    exact call taken ⟨recorded,free⟩ recorded
  · rename_i k
    obtain ⟨recorded,free⟩ := Free.call placed logged (e := .poll k) rfl
    split at taken
    · exact call taken ⟨recorded,free⟩ recorded
    · rw [VmmStep.certain taken]
      exact ⟨logged,placed⟩
  · obtain ⟨recorded,free⟩ := Free.call placed logged (e := .setIrq) rfl
    split at taken
    · exact call taken ⟨recorded,free⟩ recorded
    · rw [VmmStep.certain taken]
      exact ⟨logged,placed⟩
  · obtain ⟨recorded,free⟩ := Free.call placed logged (e := .pollEvent) rfl
    split at taken
    · cases taken
      exact ⟨recorded,free.2⟩
    · cases taken
      exact leave recorded _
    · exact call taken ⟨recorded,free⟩ recorded
  · obtain ⟨recorded,free⟩ := Free.call placed logged (e := .access) rfl
    split at taken
    · cases taken
      exact ⟨recorded,free⟩
    · exact call taken ⟨recorded,free⟩ recorded
  · obtain ⟨recorded,free⟩ := Free.call placed logged (e := .setIrq) rfl
    exact call taken ⟨recorded,free⟩ recorded
  · obtain ⟨recorded,free⟩ := Free.call placed logged (e := .completeIo) rfl
    exact call taken ⟨recorded,free.2⟩ recorded
  · cases taken

/-- The pause of a transaction is taken by a loop that is not paused. -/
theorem pauses (free : Free s) (logged : Logged s.log) (answer : Option PauseOutcome) :
    Logged (s.log ++ [.pause false answer]) := by
  have vm : vmState s.log = some .running := by rw [free.2.1.1,free.1]; rfl
  cases answer with
  | none => exact logged.snoc vm rfl (fun _ => rfl) nofun
  | some outcome => cases outcome <;> exact logged.snoc vm rfl (fun _ => rfl) nofun

theorem memoryStep (paced : Paced s) (taken : s.memoryStep m a = some t) : Paced t := by
  obtain ⟨logged,placed⟩ := paced
  unfold Placed at placed
  unfold Sys.memoryStep at taken
  split at taken <;> rename_i here <;> simp only [here] at placed
  · split at taken
    · split at taken <;> cases taken
      split <;> exact ⟨logged,placed⟩
    · rw [VmmStep.certain taken]
      exact ⟨logged,placed⟩
  · split at taken
    · cases taken
      exact ⟨logged,placed⟩
    · exact call taken ⟨logged,placed⟩ logged
  · have thawed := Free.thawed placed
    split at taken <;> cases taken
    · refine ⟨pauses placed logged _,placed.1,?_,?_,placed.2.2⟩
      · change vmState (s.log ++ [_]) = _
        rw [vmState_snoc,placed.2.1.1,placed.1]
        rfl
      · change frozen (s.log ++ [_]) = _
        rw [frozen_snoc]
        exact thawed
    · exact leave (pauses placed logged _) _
    · exact leave (pauses placed logged _) _
  · obtain ⟨flag,vm,thawed,synced⟩ := placed
    split at taken
    · rename_i plug
      cases taken
      have device : Event.device (if plug then .map else .unmap) = true := by cases plug <;> rfl
      refine ⟨?_,flag,?_,?_,synced⟩
      · refine logged.snoc vm (device_idle device _) (fun still => ?_) ?_
        · rw [thawed] at still
          cases still
        · intro operation same
          cases plug <;> cases same
      · change vmState (s.log ++ [_]) = _
        rw [vmState_snoc,vm]
        exact device_idle device _
      · change frozen (s.log ++ [_]) = _
        rw [frozen_snoc]
        cases plug <;> exact thawed
    · cases taken
      exact ⟨logged,flag,vm,thawed,synced⟩
    · exact call taken ⟨logged,flag,vm,thawed,synced⟩ logged
  · obtain ⟨flag,vm,thawed,synced⟩ := placed
    split at taken <;> cases taken
    · refine ⟨logged.snoc vm rfl (fun _ => rfl) nofun,flag,⟨?_,?_⟩,synced⟩
      · change vmState (s.log ++ [_]) = some (vmOf s.paused)
        rw [vmState_snoc,vm,flag]
        rfl
      · intro now
        change frozen (s.log ++ [_]) = true at now
        rw [frozen_snoc,thawed] at now
        cases now
    · have marked : Logged (s.log ++ [.resume false none]) := logged.snoc vm rfl (fun _ => rfl) nofun
      exact leave (s := s.record _) marked _
  · cases taken

theorem endStep (paced : Paced s) (taken : s.endStep m a = some t) : Paced t := by
  have logged := paced.logged
  unfold Sys.endStep at taken
  split at taken
  case h_3 =>
    split at taken
    · cases taken
      exact ⟨logged,trivial⟩
    · obtain ⟨_,rfl⟩ := unguarded taken
      exact ⟨logged,trivial⟩
    · cases taken
  case h_6 =>
    rw [VmmStep.certain taken]
    split <;> exact ⟨logged,trivial⟩
  case h_7 =>
    rw [VmmStep.certain taken]
    split
    · exact ⟨logged,trivial⟩
    · split <;> exact ⟨logged,trivial⟩
  case h_9 => cases taken
  all_goals
    rw [VmmStep.certain taken]
    exact ⟨logged,trivial⟩

theorem vmm (paced : Paced s) (safe : Safe s) (taken : s.vmm m a = some t) : Paced t := by
  unfold Sys.vmm at taken
  split at taken
  · cases taken
  · exact startStep paced safe taken
  · exact requestStep paced taken
  · exact passStep paced taken
  · exact memoryStep paced taken
  · exact endStep paced taken

/-- A client step keeps flag, log and point of the VMM thread. -/
theorem client (paced : Paced s) (pc : t.pc = s.pc) (paused : t.paused = s.paused)
    (log : t.log = s.log) (synced : Synced s → Synced t) : Paced t := by
  obtain ⟨logged,placed⟩ := paced
  refine ⟨log ▸ logged,?_⟩
  have level : Level s → Level t := by
    rintro ⟨vm,still⟩
    exact ⟨by rw [log,paused]; exact vm,by rw [log,paused]; exact still⟩
  unfold Placed at placed ⊢
  rw [pc,paused,log]
  split <;> simp_all

theorem hostStop (paced : Paced s) (thread : Nat) : Paced (s.hostStop thread) := by
  unfold Sys.hostStop
  split
  · exact paced
  · rename_i after accepted
    obtain ⟨_,rfl⟩ := State.stop_accepted accepted
    refine paced.client rfl rfl rfl ?_
    intro synced alive
    change s.paused = decide (State.stopTarget s.state.lifecycle = .paused)
    change State.stopTarget s.state.lifecycle ≠ .stopping at alive
    unfold Synced at synced
    revert synced alive
    cases s.state.lifecycle <;> simp [State.stopTarget]

theorem step (paced : Paced s) (safe : Safe s) (l : Label) (taken : s.next m l = some t) : Paced t := by
  cases l with
  | submit thread operation =>
    cases taken
    unfold Sys.hostSubmit
    split
    · exact paced
    · rename_i after accepted
      obtain ⟨_,_,rfl⟩ := State.submit_accepted accepted
      exact paced.client rfl rfl rfl id
  | stop thread =>
    cases taken
    exact paced.hostStop thread
  | stopReturns =>
    obtain ⟨_,rfl⟩ := guarded taken
    exact paced.client rfl rfl rfl id
  | status | setRequested mib =>
    cases taken
    exact paced.client rfl rfl rfl id
  | begin thread =>
    simp only [Sys.next] at taken
    split at taken <;> cases taken
    rename_i idle
    obtain ⟨logged,placed⟩ := paced
    unfold Placed at placed
    simp only [idle] at placed
    unfold Sys.beginRun
    split
    · exact ⟨logged,trivial⟩
    · refine ⟨logged,placed.1,?_,?_⟩
      · change vmState s.log = some (vmOf s.paused)
        rw [placed.2,placed.1]
        rfl
      · intro now
        change frozen s.log = true at now
        rw [placed.2] at now
        cases now
  | drop | dropFails =>
    simp only [Sys.next] at taken
    split at taken <;> cases taken
    exact ⟨paced.logged,trivial⟩
  | vmm a => exact vmm paced safe taken
  | panic =>
    obtain ⟨_,rfl⟩ := guarded taken
    exact ⟨paced.logged.mark rfl rfl (by rintro _ ⟨⟩),trivial⟩

end Paced

theorem paced_reached {m : Machine} {memory : Option MemoryStatus} {s : Sys}
    (reached : Reaches (Takes (Sys.next m)) (Sys.new memory) s) : Safe s ∧ Paced s := by
  have kept : ∀ t l u, Safe t ∧ Paced t → Takes (Sys.next m) t l u → Safe u ∧ Paced u := by
    rintro t l u ⟨safe,paced⟩ taken
    exact ⟨safe.step l taken,paced.step safe l taken⟩
  exact @Reaches.invariant _ _ _ _ _ (fun s => Safe s ∧ Paced s) ⟨safe_new memory,paced_new memory⟩
    kept reached

/-- In every reachable state: at the loop head the flag is the lifecycle's, unless
the VM is stopping; the calls on the VM alternate, and after a pause that found it
stopping or a failed call there is none; a frozen loop has made no device call;
and a request is answered with success only when the VM, by the calls made so
far, and the flag are in the state it asked for. -/
theorem pause_means_paused (m : Machine) (memory : Option MemoryStatus) {s : Sys}
    (reached : Reaches (Takes (Sys.next m)) (Sys.new memory) s) :
    (s.pc = .head → s.state.lifecycle ≠ .stopping →
      (s.paused = true ↔ s.state.lifecycle = .paused)) ∧
    (vmState s.log).isSome = true ∧
    (∀ before event after, s.log = before ++ event::after → frozen before = true →
      event.device = false) ∧
    (∀ before operation after, s.log = before ++ .replied operation true::after →
      vmState before = some (vmOf (asked operation))) ∧
    ∀ r, s.pc = .completing r (.ok ()) → s.paused = asked r.operation := by
  obtain ⟨safe,paced⟩ := paced_reached reached
  refine ⟨?_,paced.logged.alternates,paced.logged.quiet,?_,?_⟩
  · intro here alive
    have placed := paced.placed
    unfold Placed at placed
    simp only [here] at placed
    rw [placed.2 alive,decide_eq_true_iff]
  · intro before operation after split
    exact paced.logged.answered before _ after split operation rfl
  · intro r here
    have placed := paced.placed
    unfold Placed at placed
    simp only [here] at placed
    exact placed.1

def pauseLabels : List Label :=
  .begin 0::(List.replicate 13 (.vmm .ok) ++ [.submit 1 .pause] ++ List.replicate 6 (.vmm .ok) ++
    [.submit 1 .resume] ++ List.replicate 8 (.vmm .ok))

theorem pause_means_paused_sample :
    ∃ s, run (Sys.next sampleMachine) pauseLabels (Sys.new none) = some s ∧
      (vmState s.log).isSome = true ∧ .replied .pause true ∈ s.log ∧ .replied .resume true ∈ s.log := by
  refine ⟨_,rfl,?_⟩
  exact ⟨(pause_means_paused sampleMachine none (reaches_of_run pauseLabels rfl)).2.1,by decide,by decide⟩

end WVmm.Control
