import WVmm.Control.Startup
import WVmm.Control.Stopped
import WVmm.Lib.Progress

/-! A stop comes to its end. Once the VM is stopping, every step of the VMM thread brings
it closer to the end of its life, wherever the stop found it, and no client can hold it
back. -/
namespace WVmm.Control
open Lib.Runs

def Machine.cleanups (m : Machine) : Nat := 2 * m.devices.length + m.ram + 2

/-- How far the VMM thread of a stopping VM is from its end. -/
def Pc.left (m : Machine) : Pc → Nat
  | .gone => 0
  | .finishing _ true => 1
  | .stopMemory _ true => 2
  | .savePanic => 3
  | .dropping _ => 4
  | .idle | .finishing _ false => 5
  | .stopMemory _ false => 6
  | .saving => 7
  | .cleanup todo => 8 + todo.length
  | .leaving => 9 + m.cleanups
  | .head => 10 + m.cleanups
  | .waiting | .completing _ _ | .rejecting _ | .started | .completeIo => 11 + m.cleanups
  | .serving _ | .startMemory | .checking _ | .accessIrq => 12 + m.cleanups
  | .calling _ | .allocating | .accessing => 13 + m.cleanups
  | .built | .events => 14 + m.cleanups
  | .building => 15 + m.cleanups
  | .irqs k => 15 + m.cleanups + (m.devices.length - k)
  | .resuming => 16 + m.cleanups + m.devices.length
  | .transacting => 17 + m.cleanups + m.devices.length
  | .pausing => 18 + m.cleanups + m.devices.length
  | .probing => 19 + m.cleanups + m.devices.length
  | .syncing => 20 + m.cleanups + m.devices.length
  | .polling k => 21 + m.cleanups + m.devices.length + (m.devices.length - k)
  | .uartIrq => 22 + m.cleanups + 2 * m.devices.length
  | .input => 23 + m.cleanups + 2 * m.devices.length
  | .fetch => 24 + m.cleanups + 2 * m.devices.length

theorem Pc.left_le {m : Machine} {pc : Pc} (short : ∀ todo, pc = .cleanup todo → todo.length ≤ m.cleanups) :
    pc.left m ≤ 4 * m.devices.length + m.ram + 26 := by
  have calls : m.cleanups = 2 * m.devices.length + m.ram + 2 := rfl
  cases pc with
  | stopMemory outcome dropping | finishing outcome dropping => cases dropping <;> simp [Pc.left]
  | cleanup todo =>
    have := short todo rfl
    simp only [Pc.left]
    omega
  | _ => simp only [Pc.left]; omega

section Places
variable (s : Sys)

@[simp] theorem Sys.goto_pc (pc : Pc) : (s.goto pc).pc = pc := rfl

@[simp] theorem Sys.leave_pc (result : Except Error Unit) : (s.leave result).pc = .leaving := rfl

@[simp] theorem Sys.locked_pc (after : State × List Reply) (pc : Pc) : (s.locked after pc).pc = pc := rfl

@[simp] theorem Sys.clean_pc (c : CleanupCall) (rest : List CleanupCall) (found : Except Error Unit) :
    (s.clean c rest found).pc = .cleanup rest := rfl

end Places

theorem Pc.left_inRun (m : Machine) {pc : Pc} (inRun : pc.inRun = true) : 4 < pc.left m := by
  cases pc with
  | idle | stopMemory outcome dropping | finishing outcome dropping | dropping panicking | savePanic | gone => cases inRun
  | _ => simp only [Pc.left]; omega

def Pc.past : Pc → Bool
  | .idle | .building | .built | .allocating | .checking _ | .calling _ => false
  | _ => true

/-- The ranges that are mapped: those before the one that `init` is about to map. -/
def Mapped (m : Machine) (s : Sys) : Prop :=
  match s.pc with
  | .idle | .building | .built | .allocating | .checking .create | .calling .create => s.mapped = 0
  | .checking (.map k) | .calling (.map k) => s.mapped = k ∧ k < m.ram
  | _ => s.mapped ≤ m.ram

section Steps
variable {m : Machine} {s t : Sys} {a : Answer}

theorem Mapped.bound (mapped : Mapped m s) : s.mapped ≤ m.ram := by
  unfold Mapped at mapped
  split at mapped <;> omega

theorem Mapped.past (bound : s.mapped ≤ m.ram) (past : s.pc.past = true) : Mapped m s := by
  unfold Mapped
  split
  case h_9 => exact bound
  all_goals
    rename_i here
    rw [here] at past
    cases past

theorem plan_length (bound : s.mapped ≤ m.ram) : (s.plan m).length ≤ m.cleanups := by
  have filtered := List.length_filter_le (fun k => decide (m.devices[k]? = some .memory)) (List.range m.devices.length)
  rw [List.length_range] at filtered
  unfold Sys.plan Machine.cleanups
  split <;> simp only [List.length_append,List.length_map,List.length_range,List.length_cons,List.length_nil] <;> omega

/-- A step of the VMM thread past `init`: closer to its end or nowhere, with the mappings
as they are. Without a stop the head of the loop goes round again. -/
structure Sinks (m : Machine) (s t : Sys) : Prop where
  mapped : t.mapped = s.mapped
  waiting : t.waiting = s.waiting
  past : t.pc.past = true
  pc : (s.pc = .head → s.state.stopping = true) → t.pc = s.pc ∨ t.pc.left m < s.pc.left m

theorem sinks_of {p q : Pc} (here : s.pc = p) (there : t.pc = q) (kept : (t.mapped,t.waiting) = (s.mapped,s.waiting))
    (past : q.past = true) (less : q.left m < p.left m) : Sinks m s t :=
  ⟨(Prod.mk.inj kept).1,(Prod.mk.inj kept).2,there ▸ past,fun _ => .inr (by rw [here,there]; exact less)⟩

theorem sinks_call {u v : Sys} {p q : Pc} (here : s.pc = p) (taken : u.call v a = some t) (there : v.pc = q)
    (kept : (u.mapped,u.waiting) = (s.mapped,s.waiting) ∧ (v.mapped,v.waiting) = (s.mapped,s.waiting)) (past : q.past = true)
    (less : Pc.leaving.left m < p.left m ∧ q.left m < p.left m) : Sinks m s t := by
  rcases VmmStep.call taken with rfl | ⟨e,rfl⟩
  · exact sinks_of here there kept.2 past less.2
  · exact sinks_of here rfl kept.1 rfl less.1

theorem serve_sinks {r : Request} (here : s.pc = .serving r) (taken : s.serve r a = some t) : Sinks m s t := by
  unfold Sys.serve at taken
  split at taken <;> cases taken <;> exact sinks_of here rfl rfl rfl (by simp [Pc.left])

theorem requestStep_sinks (taken : s.requestStep m a = some t) : Sinks m s t := by
  unfold Sys.requestStep at taken
  split at taken
  case h_1 here =>
    rw [VmmStep.certain taken]
    split
    · exact sinks_of here rfl rfl rfl (by simp [Pc.left])
    · rename_i going
      exact ⟨rfl,rfl,rfl,fun stopping => absurd (stopping here) going⟩
  case h_2 here =>
    rw [VmmStep.certain taken]
    split
    · exact sinks_of here rfl rfl rfl (by simp [Pc.left]; omega)
    · split <;> exact sinks_of here rfl rfl rfl (by simp only [Sys.goto_pc,Pc.left]; omega)
  case h_3 r here => exact serve_sinks here taken
  case h_4 r outcome here =>
    rw [VmmStep.certain taken]
    cases outcome with
    | ok => exact sinks_of (q := .head) here rfl rfl rfl (by simp [Pc.left])
    | error e => exact sinks_of (q := .leaving) here rfl rfl rfl (by simp [Pc.left])
  case h_5 r here =>
    rw [VmmStep.certain taken]
    exact sinks_of here rfl rfl rfl (by simp [Pc.left])
  case h_6 here =>
    split at taken
    · cases taken
    · rw [VmmStep.certain taken]
      exact sinks_of here rfl rfl rfl (by simp [Pc.left])
  case h_7 => cases taken

theorem memoryStep_sinks (taken : s.memoryStep m a = some t) : Sinks m s t := by
  unfold Sys.memoryStep at taken
  split at taken
  case h_1 here =>
    split at taken
    · split at taken <;> cases taken
      rename_i ready
      cases ready <;> exact sinks_of here rfl rfl rfl (by simp [Pc.left])
    · rw [VmmStep.certain taken]
      exact sinks_of here rfl rfl rfl (by simp [Pc.left])
  case h_2 here =>
    split at taken
    · cases taken
      exact sinks_of here rfl rfl rfl (by simp [Pc.left])
    · exact sinks_call here taken rfl ⟨rfl,rfl⟩ rfl ⟨by simp [Pc.left]; omega,by simp [Pc.left]⟩
  case h_3 here =>
    split at taken <;> cases taken <;>
      exact sinks_of here rfl rfl rfl (by simp only [Sys.goto_pc,Sys.leave_pc,Pc.left]; omega)
  case h_4 here =>
    split at taken
    · cases taken
      exact ⟨rfl,rfl,rfl,fun _ => .inl here.symm⟩
    · cases taken
      exact ⟨rfl,rfl,rfl,fun _ => .inl here.symm⟩
    · exact sinks_call here taken rfl ⟨rfl,rfl⟩ rfl ⟨by simp [Pc.left]; omega,by simp [Pc.left]⟩
  case h_5 here =>
    split at taken <;> cases taken <;>
      exact sinks_of here rfl rfl rfl (by simp only [Sys.goto_pc,Sys.leave_pc,Pc.left]; omega)
  case h_6 => cases taken

theorem passStep_sinks (taken : s.passStep m a = some t) : Sinks m s t := by
  unfold Sys.passStep at taken
  split at taken
  case h_1 here =>
    split at taken
    · cases taken
      exact sinks_of here rfl rfl rfl (by simp [Pc.left])
    · exact sinks_call here taken rfl ⟨rfl,rfl⟩ rfl ⟨by simp [Pc.left]; omega,by simp [Pc.left]⟩
  case h_2 here =>
    exact sinks_call here taken rfl ⟨rfl,rfl⟩ rfl ⟨by simp [Pc.left]; omega,by simp [Pc.left]; omega⟩
  case h_3 k here =>
    split at taken
    · exact sinks_call here taken rfl ⟨rfl,rfl⟩ rfl ⟨by simp [Pc.left]; omega,by simp [Pc.left]; omega⟩
    · rw [VmmStep.certain taken]
      exact sinks_of here rfl rfl rfl (by simp [Pc.left]; omega)
  case h_4 k here =>
    split at taken
    · exact sinks_call here taken rfl ⟨rfl,rfl⟩ rfl ⟨by simp [Pc.left]; omega,by simp [Pc.left]; omega⟩
    · rw [VmmStep.certain taken]
      exact sinks_of here rfl rfl rfl (by simp [Pc.left]; omega)
  case h_5 here =>
    split at taken
    · cases taken
      exact sinks_of here rfl rfl rfl (by simp [Pc.left])
    · cases taken
      exact sinks_of here rfl rfl rfl (by simp [Pc.left])
    · exact sinks_call here taken rfl ⟨rfl,rfl⟩ rfl ⟨by simp [Pc.left],by simp [Pc.left]⟩
  case h_6 here =>
    split at taken
    · cases taken
      exact sinks_of here rfl rfl rfl (by simp [Pc.left])
    · exact sinks_call here taken rfl ⟨rfl,rfl⟩ rfl ⟨by simp [Pc.left],by simp [Pc.left]⟩
  case h_7 here | h_8 here =>
    exact sinks_call here taken rfl ⟨rfl,rfl⟩ rfl ⟨by simp [Pc.left],by simp [Pc.left]⟩
  case h_9 => cases taken

theorem endStep_sinks (bound : s.mapped ≤ m.ram) (taken : s.endStep m a = some t) : Sinks m s t := by
  unfold Sys.endStep at taken
  split at taken
  case h_1 here =>
    rw [VmmStep.certain taken]
    have calls := plan_length bound
    exact sinks_of here rfl rfl rfl (by simp only [Sys.locked_pc,Pc.left]; omega)
  case h_2 here =>
    rw [VmmStep.certain taken]
    exact sinks_of here rfl rfl rfl (by simp [Pc.left])
  case h_3 c rest here =>
    split at taken
    · cases taken
      exact sinks_of here rfl rfl rfl (by simp [Pc.left])
    · obtain ⟨_,rfl⟩ := unguarded taken
      exact sinks_of here rfl rfl rfl (by simp [Pc.left])
    · cases taken
  case h_4 here =>
    rw [VmmStep.certain taken]
    exact sinks_of here rfl rfl rfl (by simp [Pc.left])
  case h_5 outcome dropping here =>
    rw [VmmStep.certain taken]
    cases dropping <;> exact sinks_of here rfl rfl rfl (by simp [Pc.left])
  case h_6 outcome dropping here =>
    rw [VmmStep.certain taken]
    cases dropping <;> exact sinks_of here rfl rfl rfl (by simp [Pc.left])
  case h_7 panicking here =>
    rw [VmmStep.certain taken]
    split
    · exact sinks_of here rfl rfl rfl (by simp [Pc.left])
    · split <;> exact sinks_of here rfl rfl rfl (by simp [Pc.left])
  case h_8 here =>
    rw [VmmStep.certain taken]
    exact sinks_of here rfl rfl rfl (by simp [Pc.left])
  case h_9 => cases taken

/-- A step of `init`. Under a stop it looks at the next boundary and gives up. -/
structure Starts (m : Machine) (s t : Sys) : Prop where
  mapped : Mapped m t
  waiting : t.waiting = s.waiting
  pc : s.state.stopping = true → t.pc.left m < s.pc.left m

theorem starts_of {p q : Pc} (here : s.pc = p) (there : t.pc = q ∧ t.waiting = s.waiting) (mapped : Mapped m t)
    (less : s.state.stopping = true → q.left m < p.left m) : Starts m s t :=
  ⟨mapped,there.2,by rw [here,there.1]; exact less⟩

theorem starts_leave {p : Pc} (here : s.pc = p) (result : Except Error Unit) (bound : s.mapped ≤ m.ram)
    (less : Pc.leaving.left m < p.left m) : Starts m s (s.leave result) :=
  starts_of here ⟨rfl,rfl⟩ (.past bound rfl) fun _ => less

/-- The next boundary, after as many mappings as come before it. -/
theorem following_mapped {stage : Stage} (next : ∀ k, stage.following m = .map k → t.mapped = k ∧ k < m.ram)
    (bound : t.mapped ≤ m.ram) (here : t.pc = .checking (stage.following m)) : Mapped m t := by
  unfold Mapped
  rw [here]
  cases following : stage.following m with
  | create =>
    cases stage with
    | create | map k =>
      simp only [Stage.following] at following
      split at following <;> cases following
    | prepare | start => cases following
  | map k => exact next k following
  | prepare | start => exact bound

theorem startStep_starts (mapped : Mapped m s) (taken : s.startStep m a = some t) : Starts m s t := by
  have bound := mapped.bound
  unfold Sys.startStep at taken
  split at taken
  case h_1 here =>
    simp only [Mapped,here] at mapped
    split at taken
    · cases taken
      exact starts_of here ⟨rfl,rfl⟩ mapped (fun _ => by simp [Pc.left])
    · cases taken
      exact starts_of here ⟨rfl,rfl⟩ (.past bound rfl) (fun _ => by simp [Pc.left]; omega)
    · cases taken
  case h_2 here =>
    simp only [Mapped,here] at mapped
    rw [VmmStep.certain taken]
    split
    · exact starts_leave here _ bound (by simp [Pc.left])
    · exact starts_of here ⟨rfl,rfl⟩ mapped (fun _ => by simp [Pc.left])
  case h_3 here =>
    simp only [Mapped,here] at mapped
    rcases VmmStep.call taken with rfl | ⟨e,rfl⟩
    · exact starts_of here ⟨rfl,rfl⟩ mapped (fun _ => by simp [Pc.left])
    · exact starts_leave here _ bound (by simp [Pc.left])
  case h_4 stage here =>
    rw [VmmStep.certain taken]
    split
    · exact starts_of here ⟨rfl,rfl⟩ (.past bound rfl) (fun _ => by simp [Pc.left])
    · rename_i going
      refine starts_of here ⟨rfl,rfl⟩ ?_ (fun stopping => absurd stopping going)
      simp only [Mapped,here] at mapped
      cases stage <;> exact mapped
  case h_5 stage here =>
    simp only [Mapped,here] at mapped
    cases stage with
    | create =>
      rcases VmmStep.call taken with rfl | ⟨e,rfl⟩
      · refine starts_of here ⟨rfl,rfl⟩ (following_mapped ?_ bound rfl) (fun _ => by simp [Pc.left])
        intro k next
        simp only [Stage.following] at next
        split at next
        · cases next
          exact ⟨mapped,‹_›⟩
        · cases next
      · exact starts_leave here _ bound (by simp [Pc.left])
    | map k =>
      obtain ⟨same,inside⟩ := mapped
      rcases VmmStep.call taken with rfl | ⟨e,rfl⟩
      · refine starts_of here ⟨rfl,rfl⟩ (following_mapped ?_ (by dsimp only; omega) rfl) (fun _ => by simp [Pc.left])
        intro j next
        simp only [Stage.following] at next
        split at next
        · cases next
          exact ⟨congrArg (· + 1) same,‹_›⟩
        · cases next
      · exact starts_leave here _ bound (by simp [Pc.left])
    | prepare | start =>
      rcases VmmStep.call taken with rfl | ⟨e,rfl⟩
      · exact starts_of here ⟨rfl,rfl⟩ bound (fun _ => by simp [Pc.left])
      · exact starts_leave here _ bound (by simp [Pc.left])
  case h_6 here =>
    rw [VmmStep.certain taken]
    exact starts_of here ⟨rfl,rfl⟩ (.past bound rfl) (fun _ => by simp [Pc.left])
  case h_7 here =>
    rw [VmmStep.certain taken]
    exact starts_of here ⟨rfl,rfl⟩ (.past bound rfl) (fun _ => by simp [Pc.left])
  case h_8 => cases taken

/-- A step of the VMM thread keeps count of the mapped ranges, and under a stop it leads
closer to the end or nowhere. -/
theorem vmm_sinks (mapped : Mapped m s) (taken : s.vmm m a = some t) :
    (Mapped m t ∧ t.waiting = s.waiting) ∧ ((s.pc.phase = .start ∨ s.pc = .head → s.state.stopping = true) →
      t.pc = s.pc ∨ t.pc.left m < s.pc.left m) := by
  have bound := mapped.bound
  have later : Sinks m s t → (Mapped m t ∧ t.waiting = s.waiting) ∧
      ((s.pc.phase = .start ∨ s.pc = .head → s.state.stopping = true) →
      t.pc = s.pc ∨ t.pc.left m < s.pc.left m) :=
    fun sinks => ⟨⟨.past (sinks.mapped ▸ bound) sinks.past,sinks.waiting⟩,
      fun stopping => sinks.pc fun here => stopping (.inr here)⟩
  unfold Sys.vmm at taken
  split at taken
  · cases taken
  · rename_i start
    have starts := startStep_starts mapped taken
    refine ⟨⟨starts.mapped,starts.waiting⟩,fun stopping => .inr (starts.pc (stopping (.inl ?_)))⟩
    cases here : s.pc with
    | building | built | allocating | checking | calling | startMemory | started => rfl
    | _ =>
      rw [here] at start
      cases start
  · exact later (requestStep_sinks taken)
  · exact later (passStep_sinks taken)
  · exact later (memoryStep_sinks taken)
  · exact later (endStep_sinks bound taken)

theorem vmm_busy (step : VmmStep m s t) : t.pc ≠ .idle := by
  intro idle
  have phase : t.pc.phase = .idle := by rw [idle]; rfl
  cases step with
  | silent silent =>
    rcases silent.phase with same | leave
    · rw [same] at phase
      rcases silent.running with start | loop
      · cases start.symm.trans phase
      · cases loop.symm.trans phase
    · cases leave.symm.trans phase
  | answered r outcome here => cases outcome <;> cases idle
  | finished outcome dropping here => cases dropping <;> cases idle
  | checked panicking here =>
    simp only [Sys.goto] at idle
    split at idle
    · cases idle
    · split at idle <;> cases idle
  | _ => cases idle

theorem Mapped.client (mapped : Mapped m s) (pc : t.pc = s.pc) (same : t.mapped = s.mapped) : Mapped m t := by
  unfold Mapped at mapped ⊢
  rw [pc,same]
  exact mapped

theorem Mapped.step (mapped : Mapped m s) (l : Label) (taken : s.next m l = some t) : Mapped m t := by
  have bound := mapped.bound
  cases l with
  | submit thread operation =>
    cases taken
    unfold Sys.hostSubmit
    split
    · exact mapped
    · exact mapped.client rfl rfl
  | stop thread =>
    cases taken
    unfold Sys.hostStop
    split
    · exact mapped
    · exact mapped.client rfl rfl
  | stopReturns =>
    obtain ⟨_,rfl⟩ := guarded taken
    exact mapped.client rfl rfl
  | status | setRequested mib =>
    cases taken
    exact mapped.client rfl rfl
  | begin thread =>
    simp only [Sys.next] at taken
    split at taken
    · rename_i here
      cases taken
      simp only [Mapped,here] at mapped
      unfold Sys.beginRun
      split
      · exact .past bound rfl
      · exact mapped
    · cases taken
  | drop panicking | dropFails =>
    simp only [Sys.next] at taken
    split at taken
    · cases taken
      exact .past bound rfl
    · cases taken
  | vmm a => exact (vmm_sinks mapped taken).1.1
  | panic =>
    obtain ⟨_,rfl⟩ := guarded taken
    exact .past bound rfl

end Steps

/-- The VMM thread moves on. The mapper calls of a memory transaction leave it where it is. -/
def Sys.Moves (s : Sys) (l : Label) (t : Sys) : Prop := (∃ a, l = .vmm a) ∧ t.pc ≠ s.pc

def Sys.Ready (m : Machine) (s : Sys) : Prop := ∃ a t, s.vmm m a = some t ∧ t.pc ≠ s.pc

def Sys.AtEnd (s : Sys) : Prop := s.state.lifecycle = .stopped ∧ (s.pc = .dropping false ∨ s.pc = .gone)

section AtEnd
variable {m : Machine} {s t : Sys}

theorem vmm_returns (step : VmmStep m s t) : t.returns = s.returns := by
  cases step with
  | silent silent => exact silent.returns
  | answered r outcome here => cases outcome <;> rfl
  | _ => rfl

theorem next_returns (l : Label) (taken : s.next m l = some t) : t.returns = s.returns ∨
    (s.state.lifecycle = .stopped ∧ t.state = s.state ∧ t.returns = s.returns ++ [result s.state.cleanupError]) := by
  cases l with
  | submit thread operation =>
    cases taken
    unfold Sys.hostSubmit
    split <;> exact .inl rfl
  | stop thread =>
    cases taken
    unfold Sys.hostStop
    split <;> exact .inl rfl
  | stopReturns =>
    obtain ⟨⟨_,stopped⟩,rfl⟩ := guarded taken
    exact .inr ⟨stopped,rfl,rfl⟩
  | begin thread =>
    simp only [Sys.next] at taken
    split at taken <;> cases taken
    unfold Sys.beginRun
    split <;> exact .inl rfl
  | drop panicking | dropFails =>
    simp only [Sys.next] at taken
    split at taken <;> cases taken
    exact .inl rfl
  | status | setRequested mib =>
    cases taken
    exact .inl rfl
  | vmm a => exact .inl (vmm_returns (vmm_cases taken))
  | panic =>
    obtain ⟨_,rfl⟩ := guarded taken
    exact .inl rfl

def Unreturned (s : Sys) : Prop := s.returns = [] ∨ s.state.lifecycle = .stopped

theorem Unreturned.step (unreturned : Unreturned s) (safe : Safe s) (l : Label) (taken : s.next m l = some t) :
    Unreturned t := by
  rcases unreturned with none | stopped
  · rcases next_returns l taken with same | ⟨stopped,state,_⟩
    · exact .inl (same.trans none)
    · exact .inr (by rw [state,stopped])
  · have move := next_moves safe l taken
    rw [stopped] at move
    unfold Unreturned
    generalize t.state.lifecycle = after at move ⊢
    cases move with
    | stopping _ alive => rcases alive with alive | alive | alive <;> cases alive
    | stay | unwound => exact .inr rfl

theorem unreturned_reached {memory : Option MemoryStatus} (reached : Reaches (Takes (Sys.next m)) (Sys.new memory) s) :
    Unreturned s := by
  induction reached with
  | refl => exact .inl rfl
  | tail l before taken ih => exact ih.step (safe_reached before) l taken

/-- The end is kept, and the outcome of the cleanup with it. -/
theorem atEnd_next (ended : s.AtEnd) (l : Label) (taken : s.next m l = some t) :
    t.AtEnd ∧ t.state.cleanupError = s.state.cleanupError := by
  obtain ⟨stopped,place⟩ := ended
  cases l with
  | submit thread operation =>
    cases taken
    have pc := (hostSubmit_quiet s thread operation).2.2
    unfold Sys.AtEnd
    rw [pc]
    unfold Sys.hostSubmit
    split
    · exact ⟨⟨stopped,place⟩,rfl⟩
    · rename_i after accepted
      obtain ⟨_,_,rfl⟩ := State.submit_accepted accepted
      exact ⟨⟨stopped,place⟩,rfl⟩
  | stop thread =>
    cases taken
    have pc := (hostStop_quiet s thread).2.2
    unfold Sys.AtEnd
    rw [pc]
    unfold Sys.hostStop
    split
    · exact ⟨⟨stopped,place⟩,rfl⟩
    · rename_i after accepted
      obtain ⟨_,rfl⟩ := State.stop_accepted accepted
      refine ⟨⟨?_,place⟩,rfl⟩
      change State.stopTarget s.state.lifecycle = .stopped
      rw [stopped]
      rfl
  | stopReturns =>
    obtain ⟨_,rfl⟩ := guarded taken
    exact ⟨⟨stopped,place⟩,rfl⟩
  | status | setRequested mib =>
    cases taken
    exact ⟨⟨stopped,place⟩,rfl⟩
  | begin thread | drop panicking | dropFails =>
    rcases place with here | here <;> simp only [Sys.next,here] at taken <;> cases taken
  | vmm a =>
    rcases place with here | here
    · simp only [Sys.next,Sys.vmm,here,Sys.part,Sys.endStep,stopped,if_true] at taken
      rw [VmmStep.certain taken]
      exact ⟨⟨stopped,.inr rfl⟩,rfl⟩
    · simp only [Sys.next,Sys.vmm,here,Sys.part] at taken
      cases taken
  | panic =>
    obtain ⟨inRun,_⟩ := guarded taken
    rcases place with here | here <;> rw [here] at inRun <;> cases inRun

/-- A stopping VM stops in `finish` only, after which the drop finds it stopped. -/
theorem stopping_ends (safe : Safe s) (stopping : s.state.lifecycle = .stopping) (l : Label)
    (taken : s.next m l = some t) (stopped : t.state.lifecycle = .stopped) : t.AtEnd := by
  have apart : s.state.lifecycle ≠ .stopped := by simp [stopping]
  cases l with
  | submit thread operation =>
    cases taken
    unfold Sys.hostSubmit at stopped
    split at stopped
    · exact absurd stopped apart
    · rename_i after accepted
      obtain ⟨_,_,rfl⟩ := State.submit_accepted accepted
      exact absurd stopped apart
  | stop thread =>
    cases taken
    unfold Sys.hostStop at stopped
    split at stopped
    · exact absurd stopped apart
    · rename_i after accepted
      obtain ⟨_,rfl⟩ := State.stop_accepted accepted
      change State.stopTarget s.state.lifecycle = .stopped at stopped
      rw [stopping] at stopped
      cases stopped
  | stopReturns =>
    obtain ⟨_,rfl⟩ := guarded taken
    exact absurd stopped apart
  | status | setRequested mib =>
    cases taken
    exact absurd stopped apart
  | begin thread | drop panicking | dropFails =>
    have idle : s.pc ≠ .idle := by
      intro idle
      have fits := safe.fits
      rw [idle,stopping] at fits
      rcases fits with fits | fits <;> cases fits
    simp only [Sys.next] at taken
    cases taken
  | vmm a =>
    cases vmm_cases taken with
    | silent silent => exact absurd (silent.state ▸ stopped) apart
    | running here =>
      rcases s.state.running_cases with ⟨starting,_⟩ | ⟨_,same⟩
      · rw [stopping] at starting
        cases starting
      · rw [Sys.locked,same] at stopped
        exact absurd stopped apart
    | answered r outcome here =>
      cases outcome with
      | error e => exact absurd stopped apart
      | ok done =>
        rcases s.state.complete_cases m.diagnostic r with ⟨_,same⟩ | ⟨alive,_⟩
        · rw [Sys.answer,Sys.record,Sys.locked,same] at stopped
          exact absurd stopped apart
        · exact absurd stopping alive
    | rejected | cleaning => cases stopped
    | finished outcome dropping here => exact ⟨rfl,by cases dropping <;> simp [Sys.locked]⟩
    | _ => exact absurd stopped apart
  | panic =>
    obtain ⟨_,rfl⟩ := guarded taken
    exact absurd stopped apart

end AtEnd

/-- A run or a drop that a stop reached, up to its end. -/
structure Ending (m : Machine) (s : Sys) : Prop where
  safe : Safe s
  mapped : Mapped m s
  busy : s.pc ≠ .idle
  ended : s.state.lifecycle = .stopping ∨ s.AtEnd
  returned : ∀ r ∈ s.returns, s.AtEnd ∧ r = result s.state.cleanupError

namespace Ending

variable {m : Machine} {s t : Sys}

theorem stopping (ending : Ending m s) (running : s.pc.phase = .start ∨ s.pc.phase = .loop) :
    s.state.lifecycle = .stopping :=
  ending.ended.resolve_right fun ended => (fits_alive ending.safe.fits running).2 ended.1

theorem advance (ending : Ending m s) (l : Label) (taken : s.next m l = some t) :
    t.state.lifecycle = .stopping ∨ t.AtEnd := by
  rcases ending.ended with stopping | ended
  · have move := next_moves ending.safe l taken
    rw [stopping] at move
    generalize same : t.state.lifecycle = after at move ⊢
    cases move with
    | stay | stopping => exact .inl rfl
    | finished | unwound => exact .inr (stopping_ends ending.safe stopping l taken same)
  · exact .inr (atEnd_next ended l taken).1

/-- Whatever a `stop` returns, it is the outcome of the cleanup. -/
theorem returns (ending : Ending m s) (l : Label) (taken : s.next m l = some t) :
    ∀ r ∈ t.returns, t.AtEnd ∧ r = result t.state.cleanupError := by
  intro r member
  rcases next_returns l taken with same | ⟨stopped,state,appended⟩
  · rw [same] at member
    obtain ⟨ended,rfl⟩ := ending.returned r member
    obtain ⟨after,kept⟩ := atEnd_next ended l taken
    exact ⟨after,by rw [kept]⟩
  · have ended : s.AtEnd := ending.ended.resolve_left (by simp [stopped])
    refine ⟨(atEnd_next ended l taken).1,?_⟩
    rw [state]
    rw [appended,List.mem_append,List.mem_singleton] at member
    exact member.elim (fun before => (ending.returned r before).2) id

/-- No step takes the VMM thread further from its end. -/
theorem sinks (ending : Ending m s) (l : Label) (taken : s.next m l = some t) :
    t.pc ≠ .idle ∧ (t.pc = s.pc ∨ t.pc.left m < s.pc.left m) := by
  have busy := ending.busy
  cases l with
  | submit thread operation =>
    cases taken
    have pc := (hostSubmit_quiet s thread operation).2.2
    exact ⟨pc ▸ busy,.inl pc⟩
  | stop thread =>
    cases taken
    have pc := (hostStop_quiet s thread).2.2
    exact ⟨pc ▸ busy,.inl pc⟩
  | stopReturns =>
    obtain ⟨_,rfl⟩ := guarded taken
    exact ⟨busy,.inl rfl⟩
  | status | setRequested mib =>
    cases taken
    exact ⟨busy,.inl rfl⟩
  | begin thread | drop panicking | dropFails =>
    simp only [Sys.next] at taken
    cases taken
  | vmm a =>
    refine ⟨vmm_busy (vmm_cases taken),(vmm_sinks ending.mapped taken).2 ?_⟩
    rintro (start | head)
    · exact decide_eq_true (ending.stopping (.inl start))
    · exact decide_eq_true (ending.stopping (.inr (by rw [head]; rfl)))
  | panic =>
    obtain ⟨inRun,rfl⟩ := guarded taken
    exact ⟨by simp [Sys.unwind],.inr (Pc.left_inRun m inRun)⟩

theorem step (ending : Ending m s) (l : Label) (taken : s.next m l = some t) : Ending m t :=
  ⟨ending.safe.step l taken,ending.mapped.step l taken,(ending.sinks l taken).1,ending.advance l taken,
    ending.returns l taken⟩

theorem lowers : Lowers (Takes (Sys.next m)) Sys.Moves (Ending m) (fun s => s.pc.left m) where
  kept s l t ending taken := ending.step l taken
  level s l t ending taken := by
    rcases (ending.sinks l taken).2 with same | less
    · exact Nat.le_of_eq (congrArg (Pc.left m) same)
    · exact Nat.le_of_lt less
  lower s l t ending taken moved := (ending.sinks l taken).2.resolve_left moved.2

/-- Up to its end the VMM thread can move on, whatever it waits for: a paused VM is not
left waiting for requests. -/
theorem ready (ending : Ending m s) (alive : s.pc ≠ .gone) : s.Ready m := by
  have going : s.pc.phase = .start ∨ s.pc.phase = .loop → s.state.stopping = true :=
    fun running => decide_eq_true (ending.stopping running)
  unfold Sys.Ready Sys.vmm
  cases here : s.pc with
  | idle => exact absurd here ending.busy
  | gone => exact absurd here alive
  | building | allocating | startMemory | started =>
    simp only [Sys.part,Sys.startStep,here,Sys.call,Sys.certain]
    exact ⟨.ok,_,rfl,by simp⟩
  | built =>
    simp only [Sys.part,Sys.startStep,here,if_pos (going (.inl (by rw [here]; rfl)))]
    exact ⟨.ok,_,rfl,by simp⟩
  | checking stage =>
    simp only [Sys.part,Sys.startStep,here,if_pos (going (.inl (by rw [here]; rfl)))]
    exact ⟨.ok,_,rfl,by simp⟩
  | calling stage =>
    simp only [Sys.part,Sys.startStep,here]
    cases stage <;> exact ⟨.ok,_,rfl,by simp⟩
  | head =>
    simp only [Sys.part,Sys.requestStep,here,if_pos (going (.inr (by rw [here]; rfl)))]
    exact ⟨.ok,_,rfl,by simp⟩
  | fetch =>
    simp only [Sys.part,Sys.requestStep,here]
    refine ⟨.ok,_,rfl,?_⟩
    split
    · simp
    · cases s.paused <;> simp
  | serving r =>
    simp only [Sys.part,Sys.requestStep,here,Sys.serve]
    refine ⟨.ok,?_⟩
    cases r.operation <;> cases s.paused <;> exact ⟨_,rfl,by simp⟩
  | completing r outcome =>
    simp only [Sys.part,Sys.requestStep,here]
    refine ⟨.ok,_,rfl,?_⟩
    cases outcome <;> simp [Sys.answer,Sys.record]
  | rejecting r =>
    simp only [Sys.part,Sys.requestStep,here]
    exact ⟨.ok,_,rfl,by simp⟩
  | waiting =>
    have awake : s.state.waits = false := by
      simp [State.waits,ending.stopping (.inr (by rw [here]; rfl))]
    simp only [Sys.part,Sys.requestStep,here,awake,Bool.false_eq_true,if_false]
    exact ⟨.ok,_,rfl,by simp⟩
  | input | uartIrq | events | accessing | accessIrq | completeIo =>
    simp only [Sys.part]
    unfold Sys.passStep
    simp only [here]
    exact ⟨.ok,_,rfl,by simp⟩
  | polling k | irqs k =>
    simp only [Sys.part]
    unfold Sys.passStep
    simp only [here]
    refine ⟨.ok,?_⟩
    split
    · exact ⟨_,rfl,by simp [Sys.goto,Sys.record]⟩
    · exact ⟨_,rfl,by simp⟩
  | syncing =>
    simp only [Sys.part]
    unfold Sys.memoryStep
    simp only [here]
    split
    · exact ⟨.synced false,_,rfl,by simp⟩
    · exact ⟨.ok,_,rfl,by simp⟩
  | probing | pausing | transacting | resuming =>
    simp only [Sys.part]
    unfold Sys.memoryStep
    simp only [here]
    exact ⟨.ok,_,rfl,by simp⟩
  | leaving | saving | savePanic | stopMemory outcome dropping =>
    simp only [Sys.part,Sys.endStep,here]
    exact ⟨.ok,_,rfl,by simp⟩
  | finishing outcome dropping =>
    simp only [Sys.part,Sys.endStep,here]
    refine ⟨.ok,_,rfl,?_⟩
    cases dropping <;> simp
  | cleanup todo =>
    simp only [Sys.part,Sys.endStep,here]
    cases todo with
    | nil => exact ⟨.ok,_,rfl,by simp⟩
    | cons c rest => exact ⟨.ok,_,rfl,by simp [Sys.clean]⟩
  | dropping panicking =>
    simp only [Sys.part,Sys.endStep,here]
    refine ⟨.ok,_,rfl,?_⟩
    simp only [Sys.goto]
    split
    · simp
    · split <;> simp

end Ending

/-- The VMM thread is gone, every accepted request is answered or dropped, once, and
every `stop`, returned already or waiting, has the same outcome. -/
structure Over (m : Machine) (error : Option String) (s : Sys) : Prop where
  gone : s.pc = .gone
  stopped : s.state.lifecycle = .stopped
  settled : ∀ id < s.accepted, answers id s.replies + s.dropped.count id = 1
  returned : ∀ r ∈ s.returns, r = result error
  stops : 0 < s.waiting → s.next m .stopReturns =
    some {s with waiting := s.waiting - 1, returns := s.returns ++ [result error]}

section Over
variable {m : Machine} {s t : Sys}

theorem Ending.atEnd (ending : Ending m s) (gone : s.pc = .gone) : s.AtEnd := by
  refine ending.ended.resolve_left fun stopping => ?_
  have fits := ending.safe.fits
  rw [gone,stopping] at fits
  rcases fits with fits | fits <;> cases fits

theorem over_of (ending : Ending m s) (gone : s.pc = .gone) : Over m s.state.cleanupError s := by
  have stopped := (ending.atEnd gone).1
  refine ⟨gone,stopped,fun id accepted => ?_,fun r member => (ending.returned r member).2,
    fun waits => if_pos ⟨waits,stopped⟩⟩
  have queue : s.state.queue = [] := ending.safe.empty (by simp [stopped]) (by simp [stopped])
  have pool := ending.safe.pool id
  simpa [queue,gone,Pc.held,accepted] using pool

/-- Where the VMM thread is gone for good, one outcome is reported for good. -/
theorem over_from {state : Nat → Sys} {n : Nat}
    (steps : ∀ k, state (k + 1) = state k ∨ ∃ l, (state k).next m l = some (state (k + 1)))
    (ending : ∀ k, Ending m (state k)) (gone : ∀ k, n ≤ k → (state k).pc = .gone) :
    ∃ error, ∀ k, n ≤ k → Over m error (state k) := by
  refine ⟨(state n).state.cleanupError,fun k later => ?_⟩
  have kept : (state k).state.cleanupError = (state n).state.cleanupError := by
    induction k, later using Nat.le_induction with
    | base => rfl
    | succ k later ih =>
      rcases steps k with same | ⟨l,taken⟩
      · rw [same,ih]
      · rw [(atEnd_next ((ending k).atEnd (gone k later)) l taken).2,ih]
  rw [← kept]
  exact over_of (ending k) (gone k later)

end Over

theorem ending_of {m : Machine} {memory : Option MemoryStatus} {s : Sys}
    (reached : Reaches (Takes (Sys.next m)) (Sys.new memory) s) (stopping : s.state.lifecycle = .stopping) : Ending m s := by
  have safe := safe_reached reached
  have unmapped : Mapped m (Sys.new memory) := rfl
  refine ⟨safe,reached.invariant unmapped fun _ l _ mapped taken => mapped.step l taken,fun idle => ?_,.inl stopping,
    fun r member => ?_⟩
  · have fits := safe.fits
    rw [idle,stopping] at fits
    rcases fits with fits | fits <;> cases fits
  · rw [(unreturned_reached reached).resolve_right (by simp [stopping])] at member
    cases member

/-- A stop comes to its end. However the VM came to be stopping and wherever that found
the VMM thread, with clients stopping, pausing and asking on the way, the thread moves on
at most `4 * devices + ram + 26` times; until it is gone it can move on; and in every run
in which it does, it is gone from some point on, with every accepted request answered or
dropped and every `stop` returning one and the same outcome. -/
theorem stop_returns (m : Machine) (memory : Option MemoryStatus) {s : Sys}
    (reached : Reaches (Takes (Sys.next m)) (Sys.new memory) s) (stopping : s.state.lifecycle = .stopping) :
    (∀ k t, Counts (Takes (Sys.next m)) Sys.Moves s k t → k ≤ 4 * m.devices.length + m.ram + 26) ∧
    (∀ t, Reaches (Takes (Sys.next m)) s t → t.pc ≠ .gone → t.Ready m) ∧
    ∀ state, state 0 = s → Fair (Takes (Sys.next m)) Sys.Moves (Sys.Ready m) state →
      ∃ n error, ∀ k, n ≤ k → Over m error (state k) := by
  have ending := ending_of reached stopping
  refine ⟨fun k t counts => ?_,fun t later alive => ?_,fun state first fair => ?_⟩
  · refine (Nat.le_of_add_right_le (Ending.lowers.bounds ending counts)).trans (Pc.left_le fun todo here => ?_)
    have swept : Swept m s := reached.invariant (swept_new m memory) fun _ l _ swept taken => swept.step l taken
    refine Nat.le_trans ?_ (plan_length ending.mapped.bound)
    rw [← swept.todo todo here]
    simp
  · exact (Ending.lowers.inv_reached ending later).ready alive
  · have start : Ending m (state 0) := first ▸ ending
    obtain ⟨n,gone⟩ := Ending.lowers.settles (fun t => t.pc = .gone) fair start fun t ending alive => ending.ready alive
    exact ⟨n,over_from fair.steps (fun k => Ending.lowers.inv_reached start (fair.reaches k)) gone⟩

/-- A stop overtakes a resume that is being served. -/
def stoppingLabels : List Label :=
  [.begin 0] ++ List.replicate 13 (.vmm .ok) ++ [.submit 1 .pause,.submit 2 .resume,.vmm .ok,.vmm .ok,.vmm .ok,.stop 3]

theorem stop_returns_sample : ∃ s, run (Sys.next sampleMachine) stoppingLabels (Sys.new none) = some s ∧
    s.waiting = 1 ∧ s.Ready sampleMachine ∧
    ∀ k t, Counts (Takes (Sys.next sampleMachine)) Sys.Moves s k t → k ≤ 31 := by
  obtain ⟨s,ran,stopping,waiting,alive⟩ : ∃ s, run (Sys.next sampleMachine) stoppingLabels (Sys.new none) = some s ∧
      s.state.lifecycle = .stopping ∧ s.waiting = 1 ∧ s.pc.inRun = true := ⟨_,rfl,rfl,rfl,rfl⟩
  obtain ⟨bound,ready,_⟩ := stop_returns sampleMachine none (reaches_of_run stoppingLabels ran) stopping
  refine ⟨s,ran,waiting,ready s .refl ?_,bound⟩
  intro gone
  rw [gone] at alive
  cases alive

end WVmm.Control
