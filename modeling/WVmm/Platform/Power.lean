import WVmm.Platform.Workers

/-! The power of the vCPUs. Every vCPU goes from off over pending to on and back; a
power-on that succeeds is booted once at most, at its entry and with its context,
before the next one can succeed. -/
namespace WVmm.Platform.Cpus
open Lib.Runs

variable {n : Nat}

inductive PowerEvent (n : Nat)
  /-- A power-on that returned success, or the initial start. -/
  | on (i : Fin n) (entry context : Nat)
  | boot (i : Fin n) (entry context : Nat)
  | off (i : Fin n)
deriving DecidableEq

def PowerEvent.target : PowerEvent n → Fin n
  | .on i _ _ | .boot i _ _ | .off i => i

def State.waiting (s : State n) : Bool := s.stop || !s.started || s.paused

def Sys.powers (s : Sys n) : Label n → List (PowerEvent n)
  | .enter i => match s.pc i with
    | .calling (.cpuOn target entry context) =>
      if inside : target < n then
        if (s.shared.on target entry context).1 = 0 then [.on ⟨target,inside⟩ entry context] else []
      else []
    | .calling .cpuOff => [.off i]
    | _ => []
  | .lockTop i => match s.shared.power i with
    | .pending entry context => if s.shared.waiting then [] else [.boot i entry context]
    | _ => []
  | .start entry dtb => if first : 0 < n then [.on ⟨0,first⟩ entry dtb] else []
  | _ => []

/-- A machine with the power events so far. It is started once. -/
inductive Follows : List (PowerEvent n) → Sys n → Prop
  | new : Follows [] (Sys.new n)
  | step {h : List (PowerEvent n)} {s t : Sys n} {l : Label n} (before : Follows h s) (taken : s.next l = some t)
    (once : ∀ entry dtb, l = .start entry dtb → s.shared.started = false) : Follows (h ++ s.powers l) t

/-- The events of one vCPU in their cycle, and the power they leave it with. -/
inductive Cycle (i : Fin n) : List (PowerEvent n) → Power → Prop
  | fresh : Cycle i [] .off
  | on {es : List (PowerEvent n)} {entry context : Nat} (before : Cycle i es .off) :
    Cycle i (es ++ [.on i entry context]) (.pending entry context)
  | boot {es : List (PowerEvent n)} {entry context : Nat} (before : Cycle i es (.pending entry context)) :
    Cycle i (es ++ [.boot i entry context]) .on
  | off {es : List (PowerEvent n)} (before : Cycle i es .on) : Cycle i (es ++ [.off i]) .off

inductive Turns : Power → Power → Prop
  | on {entry context : Nat} : Turns .off (.pending entry context)
  | boot {entry context : Nat} : Turns (.pending entry context) .on
  | off : Turns .on .off

/-- A vCPU is on while its worker is past the loop top, and before the start every
vCPU is off. -/
structure Powered (s : Sys n) : Prop where
  online : ∀ i, (s.pc i).online = true → s.shared.power i = .on
  unstarted : s.shared.started = false → ∀ i, s.shared.power i = .off

inductive Powers (s t : Sys n) (i : Fin n) : List (PowerEvent n) → Prop
  | same (kept : t.shared.power i = s.shared.power i) : Powers s t i []
  | on (entry context : Nat) (before : s.shared.power i = .off) (after : t.shared.power i = .pending entry context) :
    Powers s t i [.on i entry context]
  | boot (entry context : Nat) (before : s.shared.power i = .pending entry context) (after : t.shared.power i = .on) :
    Powers s t i [.boot i entry context]
  | off (before : s.shared.power i = .on) (after : t.shared.power i = .off) (top : t.pc i = .top) :
    Powers s t i [.off i]

namespace Powers

variable {s t : Sys n}

theorem update {i j : Fin n} {p : Power} {e : PowerEvent n} (power : t.shared.power = Function.update s.shared.power j p)
    (target : e.target = j) (own : Powers s t j [e]) : Powers s t i ([e].filter fun e => decide (e.target = i)) := by
  by_cases same : i = j
  · subst same
    rw [List.filter_cons_of_pos (by simpa using target)]
    exact own
  · rw [List.filter_cons_of_neg (by simpa using fun here => same (here.symm.trans target))]
    refine .same ?_
    rw [power,Function.update_of_ne same]

theorem self {j : Fin n} {p : Power} (power : t.shared.power = Function.update s.shared.power j p) :
    t.shared.power j = p := by
  rw [power,Function.update_self]

theorem none {i : Fin n} {es : List (PowerEvent n)} (none : es = []) (kept : t.shared.power = s.shared.power) :
    Powers s t i (es.filter fun e => decide (e.target = i)) := by
  rw [none]
  exact .same (congrFun kept i)

end Powers

section Steps
variable {s t : Sys n} {i : Fin n}

/-- A worker that boots nothing leaves the power alone. -/
theorem lockTop_kept {j : Fin n}
    (waits : ∀ entry context, s.shared.power j = .pending entry context → s.shared.waiting = true) :
    (s.lockTop j).shared.power = s.shared.power ∧ (s.lockTop j).boots = s.boots := by
  unfold Sys.lockTop
  split
  · exact ⟨rfl,rfl⟩
  · rename_i going
    split
    · exact ⟨rfl,rfl⟩
    · rename_i ready
      split
      · rename_i entry context power
        have wait := waits entry context power
        simp only [State.waiting,Bool.or_eq_true] at wait
        simp only [Bool.or_eq_true,not_or] at ready
        rcases wait with (stop | unstarted) | paused
        · exact absurd stop going
        · exact absurd unstarted ready.1.1
        · exact absurd paused ready.1.2
      · exact ⟨rfl,rfl⟩

theorem lockTop_boots {j : Fin n} {entry context : Nat} (power : s.shared.power j = .pending entry context)
    (ready : s.shared.waiting = false) : (s.lockTop j).shared.power = Function.update s.shared.power j .on ∧
      (s.lockTop j).boots = s.boots ++ [(j,entry,context)] := by
  simp only [State.waiting,Bool.or_eq_false_iff,Bool.not_eq_false'] at ready
  obtain ⟨⟨going,started⟩,released⟩ := ready
  unfold Sys.lockTop
  rw [if_neg (by simp [going]),if_neg (by simp [started,released,power]),power]
  exact ⟨rfl,rfl⟩

/-- What the loop top does to the power: nothing, or it boots a pending vCPU. -/
theorem lockTop_cases (s : Sys n) (j : Fin n) :
    (s.powers (.lockTop j) = [] ∧ (s.lockTop j).shared.power = s.shared.power ∧ (s.lockTop j).boots = s.boots) ∨
    ∃ entry context, s.powers (.lockTop j) = [.boot j entry context] ∧ s.shared.power j = .pending entry context ∧
      (s.lockTop j).shared.power = Function.update s.shared.power j .on ∧
      (s.lockTop j).boots = s.boots ++ [(j,entry,context)] := by
  cases power : s.shared.power j with
  | pending entry context =>
    cases waiting : s.shared.waiting with
    | true => exact Or.inl ⟨by simp [Sys.powers,power,waiting],lockTop_kept fun _ _ _ => waiting⟩
    | false => exact Or.inr ⟨entry,context,by simp [Sys.powers,power,waiting],rfl,lockTop_boots power waiting⟩
  | off => exact Or.inl ⟨by simp [Sys.powers,power],lockTop_kept fun _ _ other => by rw [power] at other; cases other⟩
  | on => exact Or.inl ⟨by simp [Sys.powers,power],lockTop_kept fun _ _ other => by rw [power] at other; cases other⟩

theorem lockTop_powers (j : Fin n) :
    Powers s (s.lockTop j) i ((s.powers (.lockTop j)).filter fun e => decide (e.target = i)) := by
  rcases lockTop_cases s j with ⟨none,kept,_⟩ | ⟨entry,context,one,power,boots,_⟩
  · exact Powers.none none kept
  · rw [one]
    exact Powers.update boots rfl (.boot entry context power (Powers.self boots))

theorem enter_powers (powered : Powered s) (j : Fin n) (call : Hypercall) (calling : s.pc j = .calling call) :
    Powers s (s.enter j call) i ((s.powers (.enter j)).filter fun e => decide (e.target = i)) := by
  have online : s.shared.power j = .on := powered.online j (by rw [calling]; rfl)
  cases call with
  | cpuOff =>
    have one : s.powers (.enter j) = [.off j] := by simp [Sys.powers,calling]
    have changed : (s.enter j .cpuOff).shared.power = Function.update s.shared.power j .off := rfl
    rw [one]
    exact Powers.update changed rfl (.off online (Powers.self changed) (s.goto_self j .top))
  | cpuOn target entry context =>
    have events : s.powers (.enter j) = if inside : target < n then
        if (s.shared.on target entry context).1 = 0 then [.on ⟨target,inside⟩ entry context] else [] else [] := by
      simp [Sys.powers,calling]
    have outcome := s.shared.on_cases target entry context
    rw [events]
    simp only [Sys.enter]
    generalize s.shared.on target entry context = answer at outcome ⊢
    cases outcome with
    | success inside aligned power =>
      rw [dif_pos inside,if_pos rfl]
      have changed : (s.shared.setPower ⟨target,inside⟩ (.pending entry context)).power =
        Function.update s.shared.power ⟨target,inside⟩ (.pending entry context) := rfl
      refine Powers.update changed rfl (.on entry context power ?_)
      exact Function.update_self _ _ _
    | invalid outside => exact Powers.none (dif_neg outside) rfl
    | unaligned inside odd => exact Powers.none (by simp) rfl
    | alreadyOn inside aligned power => exact Powers.none (by simp) rfl
    | onPending inside aligned entry' context' power => exact Powers.none (by simp) rfl
  | affinityInfo target level =>
    have none : s.powers (.enter j) = [] := by simp [Sys.powers,calling]
    exact Powers.none none rfl
  | systemOff =>
    have none : s.powers (.enter j) = [] := by simp [Sys.powers,calling]
    exact Powers.none none rfl

/-- The power of the vCPUs changes at the loop top, in a hypercall and at the start. -/
theorem next_powers {l : Label n} (powered : Powered s) (taken : s.next l = some t)
    (once : ∀ entry dtb, l = .start entry dtb → s.shared.started = false) :
    Powers s t i ((s.powers l).filter fun e => decide (e.target = i)) := by
  have does := next_does taken
  cases l with
  | lockTop j =>
    obtain ⟨_,rfl⟩ := guarded taken
    exact lockTop_powers j
  | enter j =>
    simp only [Sys.next] at taken
    split at taken
    · rename_i call calling
      cases taken
      exact enter_powers powered j call calling
    · cases taken
  | start entry dtb =>
    have off := powered.unstarted (once entry dtb rfl)
    simp only [Sys.next] at taken
    split at taken
    · cases taken
    · split at taken
      · rename_i first
        cases taken
        rw [Sys.powers,dif_pos first]
        exact Powers.update rfl rfl (.on entry dtb (off _) (Function.update_self (⟨0,first⟩ : Fin n) _ s.shared.power))
      · cases taken
  | _ => cases does <;> exact Powers.none rfl rfl

theorem powered_new (n : Nat) : Powered (Sys.new n) := ⟨nofun,fun _ _ => rfl⟩

end Steps

theorem Does.unstarted {s t : Sys n} {l : Label n} (does : Does s l t) (powered : Powered s)
    (unstarted : t.shared.started = false) (i : Fin n) : t.shared.power i = .off := by
  have offline : ∀ j, s.shared.started = false → (s.pc j).online = true → False := by
    intro j before online
    have on := powered.online j online
    rw [powered.unstarted before j] at on
    cases on
  cases does with
  | boots j entry context before going started power =>
    exact absurd unstarted (by simp [State.setRunning,State.setPower,started])
  | powersOn j k entry context before power => exact (offline j unstarted (by rw [before]; rfl)).elim
  | powersOff j before => exact (offline j unstarted (by rw [before]; rfl)).elim
  | starts entry dtb first => cases unstarted
  | _ => exact powered.unstarted unstarted i

theorem Powered.step {s t : Sys n} {l : Label n} (powered : Powered s) (taken : s.next l = some t)
    (once : ∀ entry dtb, l = .start entry dtb → s.shared.started = false) : Powered t := by
  have does := next_does taken
  refine ⟨?_,does.unstarted powered⟩
  intro i online
  have powers := @next_powers n s t i l powered taken once
  -- A vCPU that was on can only have been turned off by its own worker, which left.
  have stays : s.shared.power i = .on → t.shared.power i = .on := by
    intro on
    generalize (s.powers l).filter (fun e => decide (e.target = i)) = new at powers
    cases powers with
    | same kept => exact kept.trans on
    | on entry context before after => cases on.symm.trans before
    | boot entry context before after => exact after
    | off before after top =>
      rw [top] at online
      cases online
  rcases does.pc i with same | arrives
  · exact stays (powered.online i (same ▸ online))
  · generalize t.pc i = pc at arrives online
    cases arrives with
    | works before after entered => exact stays (powered.online i before)
    | enters before after going on =>
      rcases on with was | on
      · exact stays (powered.online i was)
      · exact on
    | rests before after => rcases after with rfl | rfl <;> cases online
    | leaves before stopped => cases online
    | drains before quiet same => cases online

theorem Cycle.step {s t : Sys n} {i : Fin n} {es new : List (PowerEvent n)} (cycle : Cycle i es (s.shared.power i))
    (powers : Powers s t i new) : Cycle i (es ++ new) (t.shared.power i) := by
  cases powers with
  | same kept =>
    rw [List.append_nil,kept]
    exact cycle
  | on entry context before after =>
    rw [before] at cycle
    rw [after]
    exact .on cycle
  | boot entry context before after =>
    rw [before] at cycle
    rw [after]
    exact .boot cycle
  | off before after top =>
    rw [before] at cycle
    rw [after]
    exact .off cycle

theorem Powers.turns {s t : Sys n} {i : Fin n} {new : List (PowerEvent n)} (powers : Powers s t i new) :
    t.shared.power i = s.shared.power i ∨ Turns (s.shared.power i) (t.shared.power i) := by
  cases powers with
  | same kept => exact Or.inl kept
  | on entry context before after => exact Or.inr (before ▸ after ▸ .on)
  | boot entry context before after => exact Or.inr (before ▸ after ▸ .boot)
  | off before after top => exact Or.inr (before ▸ after ▸ .off)

/-- A vCPU that is on was booted since it was last off. -/
theorem Cycle.booted {i : Fin n} {es : List (PowerEvent n)} (cycle : Cycle i es .on) :
    ∃ before entry context, es = before ++ [.boot i entry context] := by
  cases cycle with
  | boot before => exact ⟨_,_,_,rfl⟩

def PowerEvent.asBoot : PowerEvent n → Option (Fin n × Nat × Nat)
  | .boot i entry context => some (i,entry,context)
  | _ => none

theorem next_boots {s t : Sys n} {l : Label n} (taken : s.next l = some t) :
    t.boots = s.boots ++ (s.powers l).filterMap PowerEvent.asBoot := by
  have silent : ∀ l, (s.powers l).filterMap PowerEvent.asBoot = [] → t.boots = s.boots →
      t.boots = s.boots ++ (s.powers l).filterMap PowerEvent.asBoot := by
    intro l none kept
    rw [none,List.append_nil,kept]
  have does := next_does taken
  cases l with
  | lockTop j =>
    obtain ⟨_,rfl⟩ := guarded taken
    rcases lockTop_cases s j with ⟨none,_,kept⟩ | ⟨entry,context,one,_,_,boots⟩
    · exact silent _ (by rw [none]; rfl) kept
    · rw [one]
      exact boots
  | enter j =>
    have none : (s.powers (.enter j)).filterMap PowerEvent.asBoot = [] := by
      unfold Sys.powers
      dsimp only
      split
      · split
        · split <;> rfl
        · rfl
      · rfl
      · rfl
    cases does <;> exact silent _ none rfl
  | start entry dtb =>
    have none : (s.powers (.start entry dtb)).filterMap PowerEvent.asBoot = [] := by
      unfold Sys.powers
      dsimp only
      split <;> rfl
    cases does <;> exact silent _ none rfl
  | _ => cases does <;> exact silent _ rfl rfl

theorem Follows.powered {h : List (PowerEvent n)} {s : Sys n} (follows : Follows h s) : Powered s := by
  induction follows with
  | new => exact powered_new n
  | step before taken once ih => exact ih.step taken once

theorem Follows.cycle {h : List (PowerEvent n)} {s : Sys n} (follows : Follows h s) (i : Fin n) :
    Cycle i (h.filter fun e => decide (e.target = i)) (s.shared.power i) := by
  induction follows with
  | new => exact .fresh
  | step before taken once ih =>
    rw [List.filter_append]
    exact ih.step (next_powers before.powered taken once)

theorem Follows.booted {h : List (PowerEvent n)} {s : Sys n} (follows : Follows h s) :
    s.boots = h.filterMap PowerEvent.asBoot := by
  induction follows with
  | new => rfl
  | step before taken once ih => rw [List.filterMap_append,next_boots taken,ih]

def Within (i : Fin n) (s : Sys n) (l : Label n) (t : Sys n) : Prop := s.next l = some t ∧ l ≠ .setResult i

theorem within_reaches {i : Fin n} {s t : Sys n} (reaches : Reaches (Within i) s t) : Reaches (Takes Sys.next) s t :=
  reaches.invariant .refl fun _ l _ before taken => before.tail l taken.1

/-- How far a call of AFFINITY_INFO has come: the answer is what the power was at an
instant of the call. -/
inductive Asked (i : Fin n) (target level : Nat) (s t : Sys n) : Prop
  | waiting (here : t.pc i = .calling (.affinityInfo target level))
  | answered (u : Sys n) (before : Reaches (Takes Sys.next) s u) (after : Reaches (Takes Sys.next) u t)
    (here : t.pc i = .result (u.shared.affinity target level))
  | failed (ended : (t.pc i).ended = true)

theorem Asked.step {i : Fin n} {target level : Nat} {s t u : Sys n} {l : Label n} (asked : Asked i target level s t)
    (before : Reaches (Within i) s t) (taken : Within i t l u) : Asked i target level s u := by
  cases asked with
  | waiting here =>
    rcases calling_next here taken.1 with same | rfl | ended
    · exact .waiting same
    · exact .answered t (within_reaches before) (Reaches.refl.tail l taken.1) (t.goto_self i _)
    · exact .failed (by rw [ended]; rfl)
  | answered w first second here =>
    rcases result_next here taken.1 taken.2 with same | ended
    · exact .answered w first (second.tail l taken.1) same
    · exact .failed (by rw [ended]; rfl)
  | failed ended => exact .failed (ended_next ended taken.1)

/-- Every result of a call was read at an instant of the call. -/
theorem affinity_instant {i : Fin n} {target level : Nat} {s t : Sys n}
    (calling : s.pc i = .calling (.affinityInfo target level)) (reaches : Reaches (Within i) s t) {value : Int}
    (answered : t.pc i = .result value) :
    ∃ u, Reaches (Takes Sys.next) s u ∧ Reaches (Takes Sys.next) u t ∧ value = u.shared.affinity target level := by
  have asked : Asked i target level s t := by
    clear answered
    induction reaches with
    | refl => exact .waiting calling
    | tail l before taken ih => exact ih.step before taken
  cases asked with
  | waiting here => cases here.symm.trans answered
  | answered u before after here =>
    cases here.symm.trans answered
    exact ⟨u,before,after,rfl⟩
  | failed ended =>
    rw [answered] at ended
    cases ended

/-- What AFFINITY_INFO reports at level 0. -/
def Power.info : Power → Int
  | .on => 0
  | .off => 1
  | .pending _ _ => 2

theorem affinity_zero (s : State n) (target : Nat) :
    s.affinity target 0 = if inside : target < n then (s.power ⟨target,inside⟩).info else -2 := by
  unfold State.affinity
  rw [if_neg (by decide),if_pos rfl]
  split
  · rename_i inside
    cases s.power ⟨target,inside⟩ <;> rfl
  · rfl

/-- The power protocol, along every run: the power of each vCPU cycles, its events
with it; a worker past the loop top has a vCPU that was booted since it was last off;
powering on a vCPU that is on or pending is refused and changes nothing but the
caller; and an answer about a vCPU is what its power was at an instant of the call. -/
theorem psci_protocol {h : List (PowerEvent n)} {s : Sys n} (follows : Follows h s) :
    s.boots = h.filterMap PowerEvent.asBoot ∧
    (∀ i, Cycle i (h.filter fun e => decide (e.target = i)) (s.shared.power i)) ∧
    (∀ l t, s.next l = some t → (∀ entry dtb, l = .start entry dtb → s.shared.started = false) →
      ∀ i, t.shared.power i = s.shared.power i ∨ Turns (s.shared.power i) (t.shared.power i)) ∧
    (∀ i, (s.pc i).online = true → ∃ before entry context,
      h.filter (fun e => decide (e.target = i)) = before ++ [.boot i entry context]) ∧
    (∀ i target entry context t, s.pc i = .calling (.cpuOn target.val entry context) → entry &&& 3 = 0 →
      s.shared.power target ≠ .off → s.next (.enter i) = some t →
        t = s.goto i (.result (if s.shared.power target = .on then -4 else -5))) ∧
    ∀ i target, s.pc i = .calling (.affinityInfo target 0) → ∀ t value, Reaches (Within i) s t → t.pc i = .result value →
      ∃ u, Reaches (Takes Sys.next) s u ∧ Reaches (Takes Sys.next) u t ∧
        value = if inside : target < n then (u.shared.power ⟨target,inside⟩).info else -2 := by
  have powered := follows.powered
  refine ⟨follows.booted,follows.cycle,?_,?_,?_,?_⟩
  · exact fun l t taken once i => (next_powers powered taken once).turns
  · intro i online
    have cycle := follows.cycle i
    rw [powered.online i online] at cycle
    exact cycle.booted
  · intro i target entry context t calling aligned busy taken
    simp only [Sys.next,calling,Option.some.injEq] at taken
    subst taken
    have outcome := s.shared.on_cases target.val entry context
    simp only [Sys.enter]
    generalize s.shared.on target.val entry context = answer at outcome ⊢
    cases outcome with
    | invalid outside => exact absurd target.isLt outside
    | unaligned inside odd => exact absurd aligned odd
    | alreadyOn inside aligned power =>
      rw [if_pos power]
      rfl
    | onPending inside aligned entry' context' power =>
      have power : s.shared.power target = .pending entry' context' := power
      rw [if_neg (by rw [power]; rintro ⟨⟩)]
      rfl
    | success inside aligned power => exact absurd power busy
  · intro i target calling t value reaches answered
    obtain ⟨u,before,after,rfl⟩ := affinity_instant calling reaches answered
    exact ⟨u,before,after,affinity_zero u.shared target⟩

/-- The first of two vCPUs powers on the second, which boots. -/
theorem psci_protocol_pair : ∃ (h : List (PowerEvent 2)) (s : Sys 2), Follows h s ∧ s.pc 1 = .guest ∧
    s.boots = [(0,0x8000,0x100),(1,0x9000,7)] ∧
    ∃ before entry context, h.filter (fun e => decide (e.target = 1)) = before ++ [.boot 1 entry context] := by
  obtain ⟨h,s,follows,guest,boots⟩ : ∃ (h : List (PowerEvent 2)) (s : Sys 2), Follows h s ∧ s.pc 1 = .guest ∧
      s.boots = [(0,0x8000,0x100),(1,0x9000,7)] := by
    have started := Follows.new.step (l := .start 0x8000 0x100) (n := 2) rfl (fun _ _ _ => rfl)
    have called := ((((started.step (l := .lockTop 0) rfl nofun).step (l := .exit 0) rfl nofun).step
      (l := .check 0) rfl nofun).step (l := .hypercall 0 (.cpuOn 1 0x9000 7)) rfl nofun).step (l := .enter 0) rfl nofun
    exact ⟨_,_,called.step (l := .lockTop 1) rfl nofun,rfl,rfl⟩
  exact ⟨h,s,follows,guest,boots,(psci_protocol follows).2.2.2.1 1 (by rw [guest]; rfl)⟩

end WVmm.Platform.Cpus
