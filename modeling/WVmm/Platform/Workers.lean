import WVmm.Platform.PauseBarrier

/-! What a step of the vCPU workers and of their controller can do, said once: a worker
moves on by itself or goes through one of the critical sections. -/
namespace WVmm.Platform.Cpus
open Lib.Runs

variable {n : Nat}

/-- Between the loop top, which turns the vCPU on, and the next return to it. -/
def Pc.online : Pc → Bool
  | .guest | .exited | .decode | .calling _ | .result _ | .queued | .awaiting | .replied | .writeBack => true
  | .top | .returned | .draining | .gone => false

def Pc.ended : Pc → Bool
  | .returned | .draining | .gone => true
  | _ => false

def Label.worker : Label n → Option (Fin n)
  | .lockTop i | .bootFails i | .exit i | .check i | .again i | .hypercall i _ | .answer i _ | .enter i | .setResult i
  | .access i | .waitIo i | .receive i | .cancelled i | .completeIo i | .writeBack i | .fail i | .leave i
  | .destroy i => some i
  | .start _ _ | .pause | .pauseDone | .resume | .stop => none

theorem Pc.ended_online {pc : Pc} (online : pc.online = true) : pc.ended = false := by
  cases pc with
  | top | returned | draining | gone => cases online
  | _ => rfl

@[simp] theorem Sys.goto_self (s : Sys n) (i : Fin n) (pc : Pc) : (s.goto i pc).pc i = pc := by
  simp only [Sys.goto,Function.update_self]

inductive State.On (s : State n) (target entry context : Nat) : Int × State n → Prop
  | invalid (outside : ¬target < n) : On s target entry context (-2,s)
  | unaligned (inside : target < n) (odd : entry &&& 3 ≠ 0) : On s target entry context (-9,s)
  | alreadyOn (inside : target < n) (aligned : entry &&& 3 = 0) (power : s.power ⟨target,inside⟩ = .on) :
    On s target entry context (-4,s)
  | onPending (inside : target < n) (aligned : entry &&& 3 = 0) (entry' context' : Nat)
    (power : s.power ⟨target,inside⟩ = .pending entry' context') : On s target entry context (-5,s)
  | success (inside : target < n) (aligned : entry &&& 3 = 0) (power : s.power ⟨target,inside⟩ = .off) :
    On s target entry context (0,s.setPower ⟨target,inside⟩ (.pending entry context))

theorem State.on_cases (s : State n) (target entry context : Nat) :
    s.On target entry context (s.on target entry context) := by
  unfold State.on
  split
  · rename_i inside
    split
    · rename_i odd
      exact .unaligned inside odd
    · rename_i even
      have aligned : entry &&& 3 = 0 := not_not.mp even
      split
      · rename_i power
        exact .alreadyOn inside aligned power
      · rename_i entry' context' power
        exact .onPending inside aligned entry' context' power
      · rename_i power
        exact .success inside aligned power
  · rename_i outside
    exact .invalid outside

inductive Does (s : Sys n) : Label n → Sys n → Prop
  /-- A worker moves on while its vCPU is on. -/
  | works {l : Label n} (i : Fin n) (pc : Pc) (events : List (Event n)) (own : l.worker = some i)
    (before : (s.pc i).online = true) (after : pc.online = true) (entered : pc.active = true → (s.pc i).active = true) :
    Does s l {(s.goto i pc) with events := events}
  /-- A worker goes back to the loop top, or ends. -/
  | rests {l : Label n} (i : Fin n) (pc : Pc) (events : List (Event n)) (own : l.worker = some i)
    (before : (s.pc i).ended = false) (after : pc = .top ∨ pc = .returned) :
    Does s l {(s.goto i pc) with events := events}
  /-- A worker at the loop top waits, or ends there. -/
  | waits {l : Label n} (i : Fin n) (pc : Pc) (events : List (Event n)) (own : l.worker = some i)
    (before : s.pc i = .top) (after : pc = .top ∨ pc = .returned) :
    Does s l {(s.goto i pc) with shared := s.shared.setRunning i false, events := events}
  | enters (i : Fin n) (before : s.pc i = .top) (going : s.shared.stop = false) (started : s.shared.started = true)
    (power : s.shared.power i = .on) :
    Does s (.lockTop i) {(s.goto i .guest) with shared := s.shared.setRunning i true}
  | boots (i : Fin n) (entry context : Nat) (before : s.pc i = .top) (going : s.shared.stop = false)
    (started : s.shared.started = true) (power : s.shared.power i = .pending entry context) :
    Does s (.lockTop i) {(s.goto i .guest) with
      shared := (s.shared.setPower i .on).setRunning i true
      boots := s.boots ++ [(i,entry,context)]}
  /-- A worker waits for its reply outside the guest. -/
  | awaits (i : Fin n) (before : s.pc i = .queued) :
    Does s (.waitIo i) {(s.goto i .awaiting) with shared := s.shared.setRunning i false}
  | completes (i : Fin n) (before : s.pc i = .replied) (going : s.shared.stop = false) :
    Does s (.completeIo i) {(s.goto i .writeBack) with shared := s.shared.setRunning i true}
  | powersOn (i j : Fin n) (entry context : Nat) (before : s.pc i = .calling (.cpuOn j entry context))
    (power : s.shared.power j = .off) :
    Does s (.enter i) {(s.goto i (.result 0)) with shared := s.shared.setPower j (.pending entry context)}
  | powersOff (i : Fin n) (before : s.pc i = .calling .cpuOff) :
    Does s (.enter i) {(s.goto i .top) with shared := s.shared.setPower i .off}
  | shutsDown (i : Fin n) (before : s.pc i = .calling .systemOff) :
    Does s (.enter i) {(s.goto i .returned) with shared := {s.shared with stop := true}}
  /-- A worker that ended stops the others. -/
  | leaves (i : Fin n) (before : s.pc i = .returned) :
    Does s (.leave i) {(s.goto i .draining) with shared := {(s.shared.setRunning i false) with stop := true}}
  | drains (i : Fin n) (before : s.pc i = .draining) (quiet : s.shared.anyRunning = false) :
    Does s (.destroy i) (s.goto i .gone)
  | starts (entry dtb : Nat) (first : 0 < n) :
    Does s (.start entry dtb) {s with
      shared := {(s.shared.setPower ⟨0,first⟩ (.pending entry dtb)) with started := true}}
  | controls {l : Label n} (stop paused pausing held : Bool) (stopped : s.shared.stop = true → stop = true) :
    Does s l {s with shared := {s.shared with stop := stop, paused := paused}, pausing := pausing, held := held}

theorem lockTop_does (s : Sys n) (i : Fin n) (before : s.pc i = .top) : Does s (.lockTop i) (s.lockTop i) := by
  unfold Sys.lockTop
  split
  · exact .waits i .returned s.events rfl before (Or.inr rfl)
  · rename_i going
    split
    · exact .waits i .top s.events rfl before (Or.inl rfl)
    · rename_i ready
      simp only [Bool.or_eq_true,not_or,Bool.not_eq_true,Bool.not_eq_false',beq_eq_false_iff_ne] at ready going
      obtain ⟨⟨started,_⟩,on⟩ := ready
      split
      · rename_i entry context power
        exact .boots i entry context before going started power
      · rename_i other
        refine .enters i before going started ?_
        cases power : s.shared.power i with
        | off => exact absurd power on
        | pending entry context => exact absurd power (other entry context)
        | on => rfl

theorem enter_does (s : Sys n) (i : Fin n) (call : Hypercall) (before : s.pc i = .calling call) :
    Does s (.enter i) (s.enter i call) := by
  have online : (s.pc i).online = true := by rw [before]; rfl
  have active : (s.pc i).active = true := by rw [before]; rfl
  have answers : ∀ value, Does s (.enter i) {(s.goto i (.result value)) with events := s.events} :=
    fun value => .works i (.result value) s.events rfl online rfl (fun _ => active)
  cases call with
  | cpuOff => exact .powersOff i before
  | cpuOn target entry context =>
    have outcome := s.shared.on_cases target entry context
    simp only [Sys.enter]
    generalize s.shared.on target entry context = answer at outcome ⊢
    cases outcome with
    | success inside aligned power => exact .powersOn i ⟨target,inside⟩ entry context before power
    | invalid outside => exact answers (-2)
    | unaligned inside odd => exact answers (-9)
    | alreadyOn inside aligned power => exact answers (-4)
    | onPending inside aligned entry' context' power => exact answers (-5)
  | affinityInfo target level => exact answers _
  | systemOff => exact .shutsDown i before

theorem completeIo_does {s t : Sys n} {i : Fin n} (before : s.pc i = .replied) (done : s.completeIo i = some t) :
    Does s (.completeIo i) t := by
  unfold Sys.completeIo at done
  split at done
  · cases done
    exact .rests i .returned s.events rfl (by rw [before]; rfl) (Or.inr rfl)
  · rename_i going
    split at done
    · cases done
    · cases done
      exact .completes i before (by simpa using going)

theorem pauseDone_does {s t : Sys n} (done : s.pauseDone = some t) : Does s .pauseDone t := by
  unfold Sys.pauseDone at done
  split at done
  · cases done
    exact .controls s.shared.stop s.shared.paused false s.held id
  · split at done
    · cases done
    · cases done
      exact .controls s.shared.stop s.shared.paused false true id

theorem next_does {s t : Sys n} {l : Label n} (taken : s.next l = some t) : Does s l t := by
  cases l with simp only [Sys.next] at taken
  | lockTop i =>
    obtain ⟨before,rfl⟩ := guarded taken
    exact lockTop_does s i before
  | bootFails i =>
    split at taken
    · obtain ⟨⟨before,_⟩,rfl⟩ := guarded taken
      exact .waits i .returned _ rfl before (Or.inr rfl)
    · cases taken
  | exit i =>
    obtain ⟨before,rfl⟩ := guarded taken
    exact .works i .exited s.events rfl (by rw [before]; rfl) rfl (fun _ => by rw [before]; rfl)
  | check i =>
    obtain ⟨before,rfl⟩ := guarded taken
    split
    · exact .rests i .returned s.events rfl (by rw [before]; rfl) (Or.inr rfl)
    · exact .works i .decode s.events rfl (by rw [before]; rfl) rfl (fun _ => by rw [before]; rfl)
  | again i =>
    obtain ⟨before,rfl⟩ := guarded taken
    exact .rests i .top s.events rfl (by rw [before]; rfl) (Or.inl rfl)
  | hypercall i call =>
    obtain ⟨before,rfl⟩ := guarded taken
    exact .works i (.calling call) _ rfl (by rw [before]; rfl) rfl (fun _ => by rw [before]; rfl)
  | answer i value =>
    obtain ⟨before,rfl⟩ := guarded taken
    exact .works i (.result value) s.events rfl (by rw [before]; rfl) rfl (fun _ => by rw [before]; rfl)
  | enter i =>
    split at taken
    · rename_i call before
      cases taken
      exact enter_does s i call before
    · cases taken
  | setResult i =>
    split at taken
    · rename_i before
      cases taken
      exact .rests i .top s.events rfl (by rw [before]; rfl) (Or.inl rfl)
    · cases taken
  | access i =>
    obtain ⟨before,rfl⟩ := guarded taken
    exact .works i .queued _ rfl (by rw [before]; rfl) rfl (fun _ => by rw [before]; rfl)
  | waitIo i =>
    obtain ⟨before,rfl⟩ := guarded taken
    exact .awaits i before
  | receive i =>
    obtain ⟨before,rfl⟩ := guarded taken
    exact .works i .replied s.events rfl (by rw [before]; rfl) rfl (by rintro ⟨⟩)
  | cancelled i =>
    obtain ⟨⟨before,_⟩,rfl⟩ := guarded taken
    exact .rests i .returned s.events rfl (by rw [before]; rfl) (Or.inr rfl)
  | completeIo i =>
    obtain ⟨before,done⟩ := Option.ite_none_right_eq_some.mp taken
    exact completeIo_does before done
  | writeBack i =>
    obtain ⟨before,rfl⟩ := guarded taken
    exact .rests i .top s.events rfl (by rw [before]; rfl) (Or.inl rfl)
  | fail i =>
    obtain ⟨⟨returned,draining,gone⟩,rfl⟩ := guarded taken
    refine .rests i .returned _ rfl ?_ (Or.inr rfl)
    cases there : s.pc i with
    | returned => exact absurd there returned
    | draining => exact absurd there draining
    | gone => exact absurd there gone
    | _ => rfl
  | leave i =>
    obtain ⟨before,rfl⟩ := guarded taken
    exact .leaves i before
  | destroy i =>
    obtain ⟨⟨before,quiet⟩,rfl⟩ := guarded taken
    exact .drains i before quiet
  | start entry dtb =>
    split at taken
    · cases taken
    · split at taken
      · rename_i first
        cases taken
        exact .starts entry dtb first
      · cases taken
  | pause =>
    obtain ⟨_,rfl⟩ := unguarded taken
    exact .controls s.shared.stop true true s.held id
  | pauseDone =>
    obtain ⟨_,done⟩ := Option.ite_none_right_eq_some.mp taken
    exact pauseDone_does done
  | resume =>
    obtain ⟨_,rfl⟩ := unguarded taken
    exact .controls s.shared.stop false s.pausing false id
  | stop =>
    obtain ⟨_,rfl⟩ := unguarded taken
    exact .controls true s.shared.paused s.pausing false (fun _ => rfl)

inductive Arrives (s t : Sys n) (j : Fin n) : Pc → Prop
  | works {pc : Pc} (before : (s.pc j).online = true) (after : pc.online = true)
    (entered : pc.active = true → (s.pc j).active = true) : Arrives s t j pc
  | enters {pc : Pc} (before : (s.pc j).ended = false) (after : pc.online = true) (going : s.shared.stop = false)
    (on : (s.pc j).online = true ∨ t.shared.power j = .on) : Arrives s t j pc
  | rests {pc : Pc} (before : (s.pc j).ended = false) (after : pc = .top ∨ pc = .returned) : Arrives s t j pc
  | leaves (before : s.pc j = .returned) (stopped : t.shared.stop = true) : Arrives s t j .draining
  | drains (before : s.pc j = .draining) (quiet : s.shared.anyRunning = false) (same : t.shared = s.shared) :
    Arrives s t j .gone

/-- A step moves one worker at most. -/
theorem Does.pc {s t : Sys n} {l : Label n} (does : Does s l t) (j : Fin n) :
    t.pc j = s.pc j ∨ Arrives s t j (t.pc j) := by
  have moved : ∀ (i : Fin n) (pc : Pc), t.pc = Function.update s.pc i pc → Arrives s t i pc →
      t.pc j = s.pc j ∨ Arrives s t j (t.pc j) := by
    intro i pc step arrives
    rw [step]
    by_cases same : j = i
    · subst same
      rw [Function.update_self]
      exact Or.inr arrives
    · rw [Function.update_of_ne same]
      exact Or.inl rfl
  cases does with
  | works i pc events own before after entered => exact moved i pc rfl (.works before after entered)
  | rests i pc events own before after => exact moved i pc rfl (.rests before after)
  | waits i pc events own before after => exact moved i pc rfl (.rests (by rw [before]; rfl) after)
  | enters i before going started power =>
    exact moved i .guest rfl (.enters (by rw [before]; rfl) rfl going (Or.inr power))
  | boots i entry context before going =>
    have on : Function.update s.shared.power i .on i = .on := Function.update_self i Power.on s.shared.power
    exact moved i .guest rfl (.enters (by rw [before]; rfl) rfl going (Or.inr on))
  | awaits i before => exact moved i .awaiting rfl (.works (by rw [before]; rfl) rfl nofun)
  | completes i before going =>
    exact moved i .writeBack rfl (.enters (by rw [before]; rfl) rfl going (Or.inl (by rw [before]; rfl)))
  | powersOn i _ _ _ before power =>
    exact moved i (.result 0) rfl (.works (by rw [before]; rfl) rfl (fun _ => by rw [before]; rfl))
  | powersOff i before => exact moved i .top rfl (.rests (by rw [before]; rfl) (Or.inl rfl))
  | shutsDown i before => exact moved i .returned rfl (.rests (by rw [before]; rfl) (Or.inr rfl))
  | leaves i before => exact moved i .draining rfl (.leaves before rfl)
  | drains i before quiet => exact moved i .gone rfl (.drains before quiet rfl)
  | starts entry dtb first => exact Or.inl rfl
  | controls stop paused pausing held stopped => exact Or.inl rfl

/-- A step of another worker, or of the controller, leaves a worker where it is. -/
theorem Does.pc_other {s t : Sys n} {l : Label n} (does : Does s l t) {i : Fin n} (other : l.worker ≠ some i) :
    t.pc i = s.pc i := by
  have apart : ∀ (j : Fin n) (pc : Pc), l.worker = some j → Function.update s.pc j pc i = s.pc i := by
    intro j pc own
    refine Function.update_of_ne ?_ pc s.pc
    rintro rfl
    exact other own
  cases does with
  | works j pc events own before after entered => exact apart j pc own
  | rests j pc events own before after => exact apart j pc own
  | waits j pc events own before after => exact apart j pc own
  | enters j before going => exact apart j .guest rfl
  | boots j entry context before going => exact apart j .guest rfl
  | awaits j before => exact apart j .awaiting rfl
  | completes j before going => exact apart j .writeBack rfl
  | powersOn j _ _ _ before power => exact apart j (.result 0) rfl
  | powersOff j before => exact apart j .top rfl
  | shutsDown j before => exact apart j .returned rfl
  | leaves j before => exact apart j .draining rfl
  | drains j before quiet => exact apart j .gone rfl
  | starts entry dtb first => rfl
  | controls stop paused pausing held stopped => rfl

/-- A worker that is about to enter the section of a hypercall enters it, or fails. -/
theorem calling_next {s t : Sys n} {l : Label n} {i : Fin n} {call : Hypercall} (here : s.pc i = .calling call)
    (taken : s.next l = some t) : t.pc i = .calling call ∨ t = s.enter i call ∨ t.pc i = .returned := by
  by_cases own : l.worker = some i
  · cases l with
    | enter j =>
      cases own
      simp only [Sys.next,here,Option.some.injEq] at taken
      exact Or.inr (Or.inl taken.symm)
    | fail j =>
      cases own
      obtain ⟨_,rfl⟩ := guarded taken
      exact Or.inr (Or.inr (s.goto_self i .returned))
    | bootFails j =>
      cases own
      simp only [Sys.next] at taken
      split at taken <;> simp [here] at taken
    | start entry dtb | pause | pauseDone | resume | stop => cases own
    | _ =>
      cases own
      simp [Sys.next,here] at taken
  · exact Or.inl (((next_does taken).pc_other own).trans here)

/-- A worker that is about to write a result writes it, or fails. -/
theorem result_next {s t : Sys n} {l : Label n} {i : Fin n} {value : Int} (here : s.pc i = .result value)
    (taken : s.next l = some t) (unwritten : l ≠ .setResult i) : t.pc i = .result value ∨ t.pc i = .returned := by
  by_cases own : l.worker = some i
  · cases l with
    | setResult j =>
      cases own
      exact absurd rfl unwritten
    | fail j =>
      cases own
      obtain ⟨_,rfl⟩ := guarded taken
      exact Or.inr (s.goto_self i .returned)
    | bootFails j =>
      cases own
      simp only [Sys.next] at taken
      split at taken <;> simp [here] at taken
    | start entry dtb | pause | pauseDone | resume | stop => cases own
    | _ =>
      cases own
      simp [Sys.next,here] at taken
  · exact Or.inl (((next_does taken).pc_other own).trans here)

/-- A worker that ended does not start again. -/
theorem ended_next {s t : Sys n} {l : Label n} {i : Fin n} (here : (s.pc i).ended = true) (taken : s.next l = some t) :
    (t.pc i).ended = true := by
  rcases (next_does taken).pc i with same | arrives
  · exact same ▸ here
  · generalize t.pc i = pc at arrives ⊢
    cases arrives with
    | works before after entered => exact absurd here (by simp [Pc.ended_online before])
    | enters before after going on => exact absurd here (by simp [before])
    | rests before after => exact absurd here (by simp [before])
    | leaves before stopped => rfl
    | drains before quiet same => rfl

end WVmm.Platform.Cpus
