import WVmm.Platform.Workers

/-! The vCPUs of a machine from their creation to their destruction: each is made by
its own thread, one after another, and destroyed by it once no vCPU executes. -/
namespace WVmm.Platform.Cpus
open Lib.Runs

variable {n : Nat}

/-- A vCPU, which belongs to the thread of its worker. -/
inductive Vcpu
  | absent
  | live
  | destroyed
deriving DecidableEq

structure Fleet (n : Nat) where
  sys : Sys n
  vcpu : Fin n → Vcpu

/-- Creation and destruction around the steps of the workers. A thread that fails to
create its vCPU ends there, and creation with it. -/
inductive Act (n : Nat)
  | create (i : Fin n)
  | work (l : Label n)
  | drop (i : Fin n)

namespace Fleet

def new (n : Nat) : Fleet n := ⟨Sys.new n,fun _ => .absent⟩

/-- One step. A worker drops its vCPU after it has left the last section. -/
def next (a : Act n) (f : Fleet n) : Option (Fleet n) :=
  match a with
  | .create i =>
    if f.vcpu i = .absent ∧ ∀ j, j < i → f.vcpu j ≠ .absent then
      some {f with vcpu := Function.update f.vcpu i .live}
    else none
  | .work l =>
    if ∀ i, l.worker = some i → f.vcpu i = .live then (f.sys.next l).map fun s => {f with sys := s} else none
  | .drop i =>
    if f.sys.pc i = .gone ∧ f.vcpu i = .live then some {f with vcpu := Function.update f.vcpu i .destroyed} else none

end Fleet

namespace Does

variable {s t : Sys n} {l : Label n}

/-- A stop is final. -/
theorem stopped (does : Does s l t) (stop : s.shared.stop = true) : t.shared.stop = true := by
  cases does with
  | shutsDown i before => rfl
  | leaves i before => rfl
  | controls _ _ _ _ kept => exact kept stop
  | _ => exact stop

/-- No worker marks itself as running once the machine stops. -/
theorem running (does : Does s l t) (stop : s.shared.stop = true) (j : Fin n) (marked : t.shared.running j = true) :
    s.shared.running j = true := by
  have cleared : ∀ i, Function.update s.shared.running i false j = true → s.shared.running j = true := by
    intro i marked
    by_cases same : j = i
    · rw [same,Function.update_self] at marked
      cases marked
    · rwa [Function.update_of_ne same] at marked
  cases does with
  | waits i pc events own before after => exact cleared i marked
  | awaits i before => exact cleared i marked
  | leaves i before => exact cleared i marked
  | enters i before going => exact absurd stop (by simp [going])
  | boots i entry context before going => exact absurd stop (by simp [going])
  | completes i before going => exact absurd stop (by simp [going])
  | _ => exact marked

/-- No worker enters guest execution, exit handling or write-back once the machine
stops. -/
theorem inactive (does : Does s l t) (stop : s.shared.stop = true) (j : Fin n) (active : (t.pc j).active = true) :
    (s.pc j).active = true := by
  rcases does.pc j with same | arrives
  · exact same ▸ active
  · generalize t.pc j = pc at arrives active
    cases arrives with
    | works before after entered => exact entered active
    | enters before after going on =>
      rw [stop] at going
      cases going
    | rests before after => rcases after with rfl | rfl <;> cases active
    | leaves before stopped => cases active
    | drains before quiet same => cases active

end Does

/-- A worker in its last sections has stopped the machine, and past them no worker is
marked as running. -/
structure Settled (s : Sys n) : Prop where
  stopped : ∀ i, s.pc i = .draining ∨ s.pc i = .gone → s.shared.stop = true
  quiet : ∀ i, s.pc i = .gone → ∀ j, s.shared.running j = false

theorem settled_new (n : Nat) : Settled (Sys.new n) := ⟨fun _ there => by simp [Sys.new] at there,nofun⟩

namespace Settled

variable {s t : Sys n} {l : Label n}

theorem step (settled : Settled s) (does : Does s l t) : Settled t := by
  have kept : ∀ i, s.pc i = .gone → ∀ j, t.shared.running j = false := by
    intro i there j
    by_contra marked
    have before := does.running (settled.stopped i (Or.inr there)) j (by simpa using marked)
    rw [settled.quiet i there j] at before
    cases before
  refine ⟨?_,?_⟩
  · intro i there
    rcases does.pc i with same | arrives
    · exact does.stopped (settled.stopped i (same ▸ there))
    · generalize t.pc i = pc at arrives there
      cases arrives with
      | works before after entered => rcases there with rfl | rfl <;> cases after
      | enters before after going on => rcases there with rfl | rfl <;> cases after
      | rests before after => rcases after with rfl | rfl <;> simp at there
      | leaves before stopped => exact stopped
      | drains before quiet same => exact does.stopped (settled.stopped i (Or.inl before))
  · intro i there
    rcases does.pc i with same | arrives
    · exact kept i (same ▸ there)
    · generalize t.pc i = pc at arrives there
      cases arrives with
      | works before after entered =>
        subst there
        cases after
      | enters before after going on =>
        subst there
        cases after
      | rests before after => rcases after with rfl | rfl <;> cases there
      | leaves before stopped => cases there
      | drains before quiet same =>
        intro j
        rw [same]
        exact Bool.eq_false_iff.mpr fun marked => of_decide_eq_false quiet ⟨j,marked⟩

end Settled

/-- What holds of a fleet: the workers keep the pause barrier, they are settled, and a
vCPU is only destroyed past the last section of its worker. -/
structure Fleet.Safe (f : Fleet n) : Prop where
  barrier : Barrier f.sys
  settled : Settled f.sys
  past : ∀ i, f.vcpu i = .destroyed → f.sys.pc i = .gone

namespace Fleet

variable {f g : Fleet n}

theorem safe_new (n : Nat) : (Fleet.new n).Safe := ⟨barrier_new n,settled_new n,nofun⟩

/-- A worker past its last section stays there. -/
theorem gone_kept {s t : Sys n} {l : Label n} (does : Does s l t) {i : Fin n} (there : s.pc i = .gone) :
    t.pc i = .gone := by
  rcases does.pc i with same | arrives
  · exact same.trans there
  · generalize t.pc i = pc at arrives ⊢
    cases arrives with
    | works before after entered =>
      rw [there] at before
      cases before
    | enters before after going on =>
      rw [there] at before
      cases before
    | rests before after =>
      rw [there] at before
      cases before
    | leaves before stopped => cases before.symm.trans there
    | drains before quiet same => rfl

theorem Safe.step (safe : f.Safe) {a : Act n} (taken : f.next a = some g) : g.Safe := by
  cases a with
  | create i =>
    obtain ⟨⟨absent,_⟩,rfl⟩ := guarded taken
    refine ⟨safe.barrier,safe.settled,?_⟩
    intro j destroyed
    change Function.update f.vcpu i .live j = .destroyed at destroyed
    by_cases same : j = i
    · rw [same,Function.update_self] at destroyed
      cases destroyed
    · rw [Function.update_of_ne same] at destroyed
      exact safe.past j destroyed
  | work l =>
    obtain ⟨_,ran⟩ := Option.ite_none_right_eq_some.mp taken
    obtain ⟨s,step,rfl⟩ := Option.map_eq_some_iff.mp ran
    have does := next_does step
    exact ⟨safe.barrier.step l step,safe.settled.step does,fun i destroyed => gone_kept does (safe.past i destroyed)⟩
  | drop i =>
    obtain ⟨⟨there,_⟩,rfl⟩ := guarded taken
    refine ⟨safe.barrier,safe.settled,?_⟩
    intro j destroyed
    change Function.update f.vcpu i .destroyed j = .destroyed at destroyed
    by_cases same : j = i
    · exact same ▸ there
    · rw [Function.update_of_ne same] at destroyed
      exact safe.past j destroyed

theorem reached_safe (reached : Reaches (Takes Fleet.next) (Fleet.new n) f) : f.Safe :=
  reached.invariant (safe_new n) fun _ _ _ safe taken => safe.step taken

structure Halted (f g : Fleet n) : Prop where
  stop : g.sys.shared.stop = true
  running : ∀ i, g.sys.shared.running i = true → f.sys.shared.running i = true
  active : ∀ i, (g.sys.pc i).active = true → (f.sys.pc i).active = true

theorem Halted.step {h : Fleet n} (halted : Halted f g) {a : Act n} (taken : g.next a = some h) : Halted f h := by
  cases a with
  | create i =>
    obtain ⟨_,rfl⟩ := guarded taken
    exact ⟨halted.stop,halted.running,halted.active⟩
  | work l =>
    obtain ⟨_,ran⟩ := Option.ite_none_right_eq_some.mp taken
    obtain ⟨s,step,rfl⟩ := Option.map_eq_some_iff.mp ran
    have does := next_does step
    exact ⟨does.stopped halted.stop,fun i marked => halted.running i (does.running halted.stop i marked),
      fun i active => halted.active i (does.inactive halted.stop i active)⟩
  | drop i =>
    obtain ⟨_,rfl⟩ := guarded taken
    exact ⟨halted.stop,halted.running,halted.active⟩

theorem halted_reached (stop : f.sys.shared.stop = true) (reaches : Reaches (Takes Fleet.next) f g) : Halted f g :=
  reaches.invariant ⟨stop,fun _ => id,fun _ => id⟩ fun _ _ _ halted taken => halted.step taken

/-- Once the machine stops, no worker enters guest execution, exit handling or
write-back, now or later. When a worker drops its vCPU no worker is marked as running
or executes, and none ever is again; so a vCPU that is destroyed was destroyed while
no vCPU executed. -/
theorem destroyed_alone (reached : Reaches (Takes Fleet.next) (Fleet.new n) f) :
    (f.sys.shared.stop = true → ∀ g, Reaches (Takes Fleet.next) f g →
      g.sys.shared.stop = true ∧ ∀ i, (f.sys.pc i).active = false → (g.sys.pc i).active = false) ∧
    (∀ i g, f.next (.drop i) = some g → ∀ h, Reaches (Takes Fleet.next) f h →
      ∀ j, h.sys.shared.running j = false ∧ (h.sys.pc j).active = false) ∧
    ∀ i, f.vcpu i = .destroyed → ∀ j, (f.sys.pc j).active = false := by
  have safe := reached_safe reached
  have quiet : ∀ i, f.sys.pc i = .gone → ∀ j, f.sys.shared.running j = false ∧ (f.sys.pc j).active = false := by
    intro i there j
    have still := safe.settled.quiet i there j
    refine ⟨still,Bool.eq_false_iff.mpr fun active => ?_⟩
    rw [safe.barrier.marked j active] at still
    cases still
  refine ⟨?_,?_,fun i destroyed j => (quiet i (safe.past i destroyed) j).2⟩
  · intro stop g reaches
    have halted := halted_reached stop reaches
    refine ⟨halted.stop,fun i idle => Bool.eq_false_iff.mpr fun active => ?_⟩
    rw [halted.active i active] at idle
    cases idle
  · intro i g taken h reaches j
    obtain ⟨⟨there,_⟩,_⟩ := guarded taken
    have halted := halted_reached (safe.settled.stopped i (Or.inr there)) reaches
    refine ⟨Bool.eq_false_iff.mpr fun marked => ?_,Bool.eq_false_iff.mpr fun active => ?_⟩
    · exact absurd (halted.running j marked) (by rw [(quiet i there j).1]; nofun)
    · exact absurd (halted.active j active) (by rw [(quiet i there j).2]; nofun)

/-- Two vCPUs; the first powers the second on and shuts the machine down while it
runs, and is destroyed once the second has left the guest. -/
def shutdownActs (i j : Fin 2) : List (Act 2) :=
  [.create i,.create j] ++ ([.start 0x8000 0,.lockTop i,.exit i,.check i,.hypercall i (.cpuOn j 0x9000 7),.enter i,
    .setResult i,.lockTop i,.lockTop j,.exit i,.check i,.hypercall i .systemOff,.enter i,.leave i,.exit j,.check j,
    .leave j,.destroy i] : List (Label 2)).map Act.work ++ [.drop i]

theorem destroyed_alone_shutdown : ∃ f, run Fleet.next (shutdownActs 0 1) (Fleet.new 2) = some f ∧ f.vcpu 0 = .destroyed ∧
    f.vcpu 1 = .live ∧ ∀ j, (f.sys.pc j).active = false := by
  obtain ⟨f,ran,dropped,live⟩ : ∃ f, run Fleet.next (shutdownActs 0 1) (Fleet.new 2) = some f ∧ f.vcpu 0 = .destroyed ∧
      f.vcpu 1 = .live := ⟨_,rfl,rfl,rfl⟩
  exact ⟨f,ran,dropped,live,(destroyed_alone (reaches_of_run (shutdownActs 0 1) ran)).2.2 0 dropped⟩

end Fleet
end WVmm.Platform.Cpus
