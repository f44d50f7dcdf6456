import WVmm.Runtime.Bringup

/-! What cleanup does, as a list of calls of which each is made once whatever failed
before it, and what is left of the mappings when all of them succeed. -/
namespace WVmm
open Lib.Effect Lib.Runs Devices Platform

open Control.Sys (firstError)

def firstOf : List (Except Error Unit) → Except Error Unit
  | [] => .ok ()
  | outcome::rest => firstError outcome (firstOf rest)

theorem firstError_assoc (a b c : Except Error Unit) :
    firstError (firstError a b) c = firstError a (firstError b c) := by
  cases a <;> rfl

theorem firstOf_append (first rest : List (Except Error Unit)) :
    firstOf (first ++ rest) = firstError (firstOf first) (firstOf rest) := by
  induction first with
  | nil => rfl
  | cons outcome first ih =>
    simp only [List.cons_append,firstOf]
    rw [ih,firstError_assoc]

theorem firstOf_ok {outcomes : List (Except Error Unit)} : firstOf outcomes = .ok () ↔ ∀ r ∈ outcomes, r = .ok () := by
  induction outcomes with
  | nil => simp [firstOf]
  | cons outcome rest ih =>
    rw [List.forall_mem_cons,← ih]
    cases outcome <;> simp [firstOf,firstError]

theorem firstOf_singleton (outcome : Except Error Unit) : firstOf [outcome] = outcome := by
  cases outcome <;> rfl

namespace Control

inductive Client (s : State) : State → Prop
  | submit {thread : Nat} {request : Request} {after : State} (accepted : s.submit thread request = .ok after) :
      Client s after
  | stop {thread : Nat} {after : State × List Reply} (accepted : s.stop thread = .ok after) : Client s after.1

/-- The shared state from the end of a run on, with control handles in use all along:
once it is `cleaning`, once the result of the cleanup is saved and once it is finished. -/
structure Closing (diagnostic : Error → String) (cleanup outcome : Except Error Unit)
    (running cleaning saved finished : State) : Prop where
  cleaned : Relation.ReflTransGen Client running.cleaning.1 cleaning
  saves : Relation.ReflTransGen Client (cleaning.cleanupResult diagnostic cleanup) saved
  finishes : Relation.ReflTransGen Client (saved.finish diagnostic outcome).1 finished

/-- Once a run is ending, a control handle changes neither lifecycle nor cleanup error. -/
theorem client_ending {s t : State} (ending : s.lifecycle = .stopping ∨ s.lifecycle = .stopped)
    (moved : Relation.ReflTransGen Client s t) : t.lifecycle = s.lifecycle ∧ t.cleanupError = s.cleanupError := by
  induction moved with
  | refl => exact ⟨rfl,rfl⟩
  | @tail t u _ move ih =>
    cases move with
    | submit accepted =>
      obtain ⟨_,alive,_⟩ := State.submit_accepted accepted
      rw [ih.1] at alive
      rcases ending with here | here <;> simp [here] at alive
    | stop accepted =>
      obtain ⟨_,rfl⟩ := State.stop_accepted accepted
      have target : State.stopTarget t.lifecycle = t.lifecycle := by
        rw [ih.1]
        rcases ending with here | here <;> rw [here] <;> rfl
      exact ⟨target.trans ih.1,ih.2⟩

/-- `stop` waits for the end of the run, and reports the result of the cleanup. -/
theorem Closing.reports {diagnostic : Error → String} {cleanup outcome : Except Error Unit}
    {running cleaning saved finished : State} (closing : Closing diagnostic cleanup outcome running cleaning saved finished) :
    cleaning.lifecycle = .stopping ∧ saved.lifecycle = .stopping ∧ finished.lifecycle = .stopped ∧
      result finished.cleanupError = cleanup.mapError (fun e => .cleanupFailed (diagnostic e)) := by
  have first := client_ending (.inl rfl) closing.cleaned
  have second := client_ending (s := State.cleanupResult diagnostic cleaning cleanup) (.inl first.1) closing.saves
  have third := client_ending (.inr rfl) closing.finishes
  refine ⟨first.1,second.1.trans first.1,third.1,?_⟩
  have kept : finished.cleanupError = errorText diagnostic cleanup := third.2.trans second.2
  rw [kept]
  cases cleanup <;> rfl

end Control

namespace Owned

variable {V C B N U : Type}

inductive Undo
  | stop
  | flush (slot : Nat)
  /-- Targets are no longer accepted. -/
  | retire
  | unmap (region : Region)
deriving DecidableEq

section Attempts
variable [Vm V C] [BlockStorage B] [NetDevice N]

def Undo.act : Undo → Prog (Owned V B N) (Failure Error) Unit
  | .stop => onVm .platform Vm.stop
  | .flush k => flushDevice k
  | .retire => onWorld (Prog.modify (fun w => {w with control := w.control.stop}))
  | .unmap region => unmapRegion region

/-- Every call once, in order, with its outcome. -/
def attempts : List Undo → Prog (Owned V B N) (Failure Error) (List (Except Error Unit))
  | [] => return []
  | step::rest => do
    let done ← attempt step.act
    let later ← attempts rest
    return done::later

end Attempts

/-- What is done for a memory device: its blocks in the order of their addresses. -/
def release (s : Owned V B N) (k : Nat) : List Undo :=
  match (s.devices[k]?).bind (·.device.memory) with
  | none => []
  | some d => .retire::d.blocks.values.map .unmap

def halting (s : Owned V B N) : List Undo := if s.vm.isSome then [.stop] else []

def undoing (s : Owned V B N) : List Undo :=
  (List.range s.devices.length).map .flush ++
    if s.vm.isSome then (List.range s.devices.length).flatMap s.release ++ s.placed.map .unmap else []

structure Alike (s t : Owned V B N) : Prop where
  vm : t.vm.isSome = s.vm.isSome
  memory : t.devices.map (·.device.memory) = s.devices.map (·.device.memory)

namespace Alike

variable {s t u : Owned V B N}

theorem refl (s : Owned V B N) : Alike s s := ⟨rfl,rfl⟩

theorem trans (first : Alike s t) (second : Alike t u) : Alike s u :=
  ⟨second.vm.trans first.vm,second.memory.trans first.memory⟩

theorem length (alike : Alike s t) : t.devices.length = s.devices.length := by
  simpa using congrArg List.length alike.memory

theorem release (alike : Alike s t) (k : Nat) : t.release k = s.release k := by
  have same : (t.devices[k]?).bind (·.device.memory) = (s.devices[k]?).bind (·.device.memory) := by
    have here := congrArg (·[k]?) alike.memory
    simp only [List.getElem?_map] at here
    cases left : t.devices[k]? <;> cases right : s.devices[k]? <;> simp_all
  unfold Owned.release
  rw [same]

end Alike

def Undo.Ready (s : Owned V B N) : Undo → Prop
  | .stop | .unmap _ => s.vm.isSome
  | .flush k => k < s.devices.length
  | .retire => True

theorem attempt_ok {m : Prog (Owned V B N) (Failure Error) Unit} {s t : Owned V B N} {outcome : Except Error Unit}
    (ran : m.run s = (outcome.mapError .error,t)) : (attempt m).run s = (.ok outcome,t) := by
  simp only [attempt,Prog.run_mk,ran]
  cases outcome <;> rfl

theorem onVm_run {ε : Type} (wrap : ε → Error) (call : V → Except ε Unit × V) {s : Owned V B N} {vm : V}
    (created : s.vm = some vm) :
    (onVm wrap call).run s = (((call vm).1.mapError wrap).mapError .error,{s with vm := some (call vm).2}) := by
  simp only [onVm,Prog.run_mk,created]
  rcases (call vm).1 with e | _ <;> rfl

theorem map_set_same {α β : Type} (f : α → β) {xs : List α} {k : Nat} {x y : α} (found : xs[k]? = some x)
    (same : f y = f x) : (xs.set k y).map f = xs.map f := by
  obtain ⟨inside,rfl⟩ := List.getElem?_eq_some_iff.mp found
  rw [List.map_set,same,← List.map_set,List.set_getElem_self]

section Steps
variable [BlockStorage B] [NetDevice N]

theorem flush_faults (s : Slot (Device B N)) :
    ∃ r : Except DeviceError Unit, (Mmio.flush.run s).1 = r.mapError .error := by
  obtain ⟨⟨d,t⟩,w,tr⟩ := s
  cases d with
  | block d =>
    refine ⟨(BlockStorage.flush d.disk).1.mapError .storage,?_⟩
    change (Block.diskFlush.run _).1 = _
    simp only [Block.diskFlush,Prog.run_bind,Prog.run_get,Prog.run_modify,Cell.record,Prog.run_ofExcept]
    rcases (BlockStorage.flush d.disk).1 with e | _ <;> rfl
  | net d => exact ⟨.ok (),rfl⟩
  | mem d => exact ⟨.ok (),rfl⟩

theorem flushDevice_run {s : Owned V B N} {k : Nat} {m : Mmio (Device B N)} (found : s.devices[k]? = some m) :
    ∃ outcome, (flushDevice k).run s = (Except.mapError Failure.error outcome,{s with
      devices := s.devices.set k (Mmio.flush.run ⟨m,s.world,[]⟩).2.mmio
      world := (Mmio.flush.run ⟨m,s.world,[]⟩).2.world}) := by
  obtain ⟨r,faults⟩ := flush_faults ⟨m,s.world,[]⟩
  refine ⟨r.mapError .device,?_⟩
  simp only [flushDevice,Prog.run_mk,found,faults]
  cases r <;> rfl

variable [Vm V C]

/-- Every call is made when its turn comes, and leaves the later ones theirs. -/
theorem attempt_act {s : Owned V B N} (step : Undo) (ready : step.Ready s) :
    ∃ outcome t, (attempt step.act).run s = (.ok outcome,t) ∧ Alike s t := by
  cases step with
  | stop =>
    obtain ⟨vm,created⟩ := Option.isSome_iff_exists.mp ready
    exact ⟨_,_,attempt_ok (onVm_run _ _ created),⟨by simp [created],rfl⟩⟩
  | unmap region =>
    obtain ⟨vm,created⟩ := Option.isSome_iff_exists.mp ready
    exact ⟨_,_,attempt_ok (onVm_run _ _ created),⟨by simp [created],rfl⟩⟩
  | retire => exact ⟨.ok (),_,attempt_ok rfl,⟨rfl,rfl⟩⟩
  | flush k =>
    have found : s.devices[k]? = some s.devices[k] := List.getElem?_eq_getElem ready
    obtain ⟨outcome,ran⟩ := flushDevice_run found
    refine ⟨outcome,_,attempt_ok ran,⟨rfl,?_⟩⟩
    exact map_set_same _ found (Mmio.flush_untouched ⟨s.devices[k],s.world,[]⟩).2

/-- A cleanup program that makes exactly the given calls and keeps their first error. -/
def Makes (s : Owned V B N) (m : Prog (Owned V B N) (Failure Error) Unit) (steps : List Undo) : Prop :=
  ∀ t, Alike s t → ∃ outcomes u, (attempts steps).run t = (.ok outcomes,u) ∧
    (attempt m).run t = (.ok (firstOf outcomes),u) ∧ Alike s u

theorem attempts_append {first rest : List Undo} {s t u : Owned V B N} {done later : List (Except Error Unit)}
    (ran : (attempts first).run s = (.ok done,t)) (ran' : (attempts rest).run t = (.ok later,u)) :
    (attempts (first ++ rest)).run s = (.ok (done ++ later),u) := by
  induction first generalizing s done with
  | nil =>
    cases ran
    exact ran'
  | cons step first ih =>
    obtain ⟨outcome,v,made,others⟩ := Prog.bind_success ran
    obtain ⟨outcomes,w,made',returned⟩ := Prog.bind_success others
    cases returned
    simp only [List.cons_append,attempts,Prog.run_bind,made,ih made']
    rfl

theorem makes_act {s : Owned V B N} (step : Undo) (ready : ∀ t, Alike s t → step.Ready t) :
    Makes s step.act [step] := by
  intro t alike
  obtain ⟨outcome,u,made,alike'⟩ := attempt_act step (ready t alike)
  refine ⟨[outcome],u,?_,?_,alike.trans alike'⟩
  · simp only [attempts,Prog.run_bind,made]
    rfl
  · rw [firstOf_singleton]
    exact made

theorem attemptAll_makes {ι : Type} {s : Owned V B N} (f : ι → Prog (Owned V B N) (Failure Error) Unit)
    (steps : ι → List Undo) (xs : List ι) (makes : ∀ x ∈ xs, Makes s (f x) (steps x)) (kept : Except Error Unit)
    {t : Owned V B N} (alike : Alike s t) :
    ∃ outcomes u, (attempts (xs.flatMap steps)).run t = (.ok outcomes,u) ∧
      (attemptAll (xs.map f) kept).run t = (.ok (firstError kept (firstOf outcomes)),u) ∧ Alike s u := by
  induction xs generalizing t kept with
  | nil => 
    refine ⟨[],t,rfl,?_,alike⟩
    cases kept <;> rfl
  | cons x xs ih =>
    obtain ⟨done,u,ran,made,alike'⟩ := makes x List.mem_cons_self t alike
    obtain ⟨later,v,ran',made',laterAlike⟩ := ih (fun y member => makes y (List.mem_cons_of_mem _ member))
      (firstError kept (firstOf done)) alike'
    refine ⟨done ++ later,v,?_,?_,laterAlike⟩
    · rw [List.flatMap_cons]
      exact attempts_append ran ran'
    · rw [firstOf_append,← firstError_assoc]
      simp only [List.map_cons,attemptAll,Prog.run_bind,made,made']

/-- Unmapping every block of a device is unmapping them one by one. -/
theorem unmapAll_makes (regions : List Region) {s : Owned V B N} {vm : V} (created : s.vm = some vm)
    (cell : Cell VirtioMem) :
    ∃ outcomes found t, (attempts (regions.map .unmap)).run s = (.ok outcomes,{s with vm := some t.mapper}) ∧
      (VirtioMem.unmapAll regions).run ⟨cell,vm⟩ = (.ok found,t) ∧ t.cell.world = cell.world ∧
      firstOf outcomes = found.elim (.ok ()) (fun e => .error (.memory e)) := by
  induction regions generalizing s vm cell with
  | nil =>
    refine ⟨[],none,⟨cell,vm⟩,?_,rfl,rfl,rfl⟩
    rw [← created]
    rfl
  | cons r rest ih =>
    obtain ⟨undone,t,called,world⟩ : ∃ undone t, (Txn.unmap r : Prog (Txn V) (Failure MemoryError) _).run ⟨cell,vm⟩ =
        (.ok undone,t) ∧ t.cell.world = cell.world ∧
        (attempt (unmapRegion r)).run s = (.ok (undone.mapError .memory),{s with vm := some t.mapper}) :=
      ⟨_,_,rfl,rfl,attempt_ok (onVm_run _ _ created)⟩
    obtain ⟨outcomes,found,u,ran,swept,same,first⟩ := ih (s := {s with vm := some t.mapper}) rfl t.cell
    refine ⟨undone.mapError .memory::outcomes,match undone with
      | .error e => some e
      | .ok () => found,u,?_,?_,same.trans world.1,?_⟩
    · simp only [List.map_cons,attempts,Prog.run_bind,Undo.act,world.2,ran]
      rfl
    · simp only [VirtioMem.unmapAll,Prog.run_bind,called,swept]
      cases undone <;> rfl
    · cases undone with
      | error e => rfl
      | ok _ => exact first

theorem stopMemory_makes {s : Owned V B N} (created : s.vm.isSome) (k : Nat) :
    Makes s (stopMemory k) (s.release k) := by
  intro t alike
  rw [← alike.release k]
  obtain ⟨vm,present⟩ := Option.isSome_iff_exists.mp (alike.vm.trans created)
  unfold release
  cases found : (t.devices[k]?).bind (·.device.memory) with
  | none =>
    refine ⟨[],t,rfl,attempt_ok ?_,alike⟩
    simp only [stopMemory,Prog.run_mk,present]
    cases slot : t.devices[k]? with
    | none => rfl
    | some m =>
      cases device : m.device with
      | mem d => simp [slot,device,Device.memory] at found
      | _ =>
        simp only [Option.map_some,device]
        rfl
  | some d =>
    obtain ⟨m,placed,kind⟩ := Option.bind_eq_some_iff.mp found
    cases device : m.device with
    | mem d' =>
      obtain rfl : d' = d := by simpa [device,Device.memory] using kind
      let retired : Owned V B N := {t with world := {t.world with control := t.world.control.stop}}
      obtain ⟨outcomes,error,u,ran,swept,same,first⟩ := unmapAll_makes d'.blocks.values (s := retired) present
        ⟨d',m.queues,retired.world,[]⟩
      refine ⟨.ok ()::outcomes,{retired with vm := some u.mapper},?_,attempt_ok ?_,?_⟩
      · have retires : (attempt (Undo.retire.act : Prog (Owned V B N) _ Unit)).run t = (.ok (.ok ()),retired) :=
          attempt_ok rfl
        simp only [attempts,Prog.run_bind,retires,ran]
        rfl
      · have stops : VirtioMem.stop.run ⟨⟨d',m.queues,t.world,[]⟩,vm⟩ = (.ok error,u) := swept
        simp only [stopMemory,Prog.run_mk,present,placed,Option.map_some,device,stops,same,firstOf,first]
        cases error <;> rfl
      · exact alike.trans ⟨by simp [present],rfl⟩
    | _ => simp [device,Device.memory] at kind

/-- Cleanup makes exactly the calls that undo the run, and reports the outcome of the
first and the first error of the others. -/
theorem cleanup_attempts {s : Owned V B N} (recorded : s.Recorded) :
    ∃ halted outcomes u, (attempts (s.halting ++ s.undoing)).run s = (.ok (halted ++ outcomes),u) ∧
      halted.length = s.halting.length ∧ cleanup.run s = (.ok (firstOf halted,firstOf outcomes),u) ∧ Alike s u := by
  have flushes : ∀ {t}, Alike s t → ∃ outcomes u,
      (attempts ((List.range s.devices.length).map .flush)).run t = (.ok outcomes,u) ∧
      (attemptAll ((List.range s.devices.length).map flushDevice) (.ok ())).run t = (.ok (firstOf outcomes),u) ∧
      Alike s u := by
    intro t alike
    have each : ∀ k ∈ List.range s.devices.length, Makes s (flushDevice k) [.flush k] :=
      fun k member => makes_act (.flush k) (fun u alike => Nat.lt_of_lt_of_eq (List.mem_range.mp member) alike.length.symm)
    obtain ⟨outcomes,u,ran,made,alike'⟩ := attemptAll_makes flushDevice (fun k => [.flush k]) _ each (.ok ()) alike
    rw [← List.map_eq_flatMap] at ran
    exact ⟨outcomes,u,ran,made,alike'⟩
  cases created : s.vm with
  | none =>
    obtain ⟨outcomes,u,ran,made,alike⟩ := flushes (.refl s)
    refine ⟨[],outcomes,u,?_,?_,?_,alike⟩
    · simpa [halting,undoing,created] using ran
    · simp [halting,created]
    · simp only [cleanup,Prog.run_bind,Prog.run_get,created,Option.isSome_none,Bool.false_eq_true,if_false,
        Prog.run_pure,made]
      rfl
  | some vm =>
    have here : s.vm.isSome := by rw [created]; rfl
    obtain ⟨fault,t,stops,alike⟩ := attempt_act (B := B) (N := N) .stop (s := s) here
    obtain ⟨flushed,u,ran,made,alike'⟩ := flushes alike
    obtain ⟨stopped,v,ran',made',laterAlike⟩ := attemptAll_makes stopMemory s.release (List.range s.devices.length)
      (fun k _ => stopMemory_makes here k) (firstOf flushed) alike'
    obtain ⟨unmapped,w,ranLast,madeLast,unmappedAlike⟩ := attemptAll_makes unmapRegion (fun r => [.unmap r]) s.placed
      (fun r _ => makes_act (.unmap r) (fun _ alike => alike.vm.trans here)) (firstError (firstOf flushed) (firstOf stopped))
      laterAlike
    rw [← List.map_eq_flatMap] at ranLast
    refine ⟨[fault],flushed ++ (stopped ++ unmapped),w,?_,?_,?_,unmappedAlike⟩
    · simp only [halting,undoing,here,if_true]
      refine attempts_append (t := t) ?_ (attempts_append ran (attempts_append ran' ranLast))
      simp only [attempts,Prog.run_bind,stops]
      rfl
    · simp [halting,created]
    · have halts : (attempt (onVm .platform Vm.stop : Prog (Owned V B N) _ Unit)).run s = (.ok fault,t) := stops
      simp only [cleanup,Prog.run_bind,Prog.run_get,here,if_true,halts,made,made',show s.base.take s.mapped = s.placed from recorded,madeLast,firstOf_append,
        firstOf_singleton,firstError_assoc]
      rfl

end Steps

section Undone
variable {table : V → Nat → Option Region} {base : List Region}

def Undo.unmaps : Undo → Option Nat
  | .unmap region => some region.start
  | _ => none

variable [Vm V C] [BlockStorage B] [NetDevice N]

/-- A call of the cleanup that succeeds removes the mapping it is about, if any. -/
theorem act_table (maps : Vm.Maps V table) (step : Undo) {s t : Owned V B N} {vm : V} (created : s.vm = some vm)
    (ran : (attempt step.act).run s = (.ok (.ok ()),t)) :
    ∃ vm', t.vm = some vm' ∧ ∀ a, table vm' a = if step.unmaps = some a then none else table vm a := by
  cases step with
  | stop =>
    have called := (attempt_ok (onVm_run (B := B) (N := N) Error.platform Vm.stop created)).symm.trans ran
    obtain ⟨_,rfl⟩ := Prod.mk.inj called
    exact ⟨_,rfl,fun a => congrFun (maps.stop vm) a⟩
  | unmap region =>
    have called := (attempt_ok (onVm_run (B := B) (N := N) Error.memory (fun vm => Mapper.unmap vm region) created)).symm.trans ran
    obtain ⟨done,rfl⟩ := Prod.mk.inj called
    obtain ⟨_,unmapped⟩ := maps.atomic.unmap_ok vm region (Mapper.unmap vm region).2
      (Prod.ext (mapError_eq_ok.mp (Except.ok.inj done)) rfl)
    refine ⟨_,rfl,fun a => ?_⟩
    rw [unmapped,Undo.unmaps]
    by_cases here : a = region.start
    · simp [here]
    · have other : ¬region.start = a := fun h => here h.symm
      simp [here,other]
  | retire =>
    cases ran
    exact ⟨vm,created,fun _ => rfl⟩
  | flush k =>
    cases found : s.devices[k]? with
    | none => simp [attempt,Undo.act,flushDevice,found] at ran
    | some m =>
      obtain ⟨outcome,flushed⟩ := flushDevice_run found
      obtain ⟨_,rfl⟩ := Prod.mk.inj ((attempt_ok flushed).symm.trans ran)
      exact ⟨vm,created,fun _ => rfl⟩

theorem attempts_table (maps : Vm.Maps V table) (steps : List Undo) {s t : Owned V B N} {vm : V}
    (created : s.vm = some vm) {outcomes : List (Except Error Unit)} (ran : (attempts steps).run s = (.ok outcomes,t))
    (good : ∀ r ∈ outcomes, r = .ok ()) :
    ∃ vm', t.vm = some vm' ∧ ∀ a, table vm' a = if a ∈ steps.filterMap Undo.unmaps then none else table vm a := by
  induction steps generalizing s vm outcomes with
  | nil =>
    cases ran
    exact ⟨vm,created,fun _ => rfl⟩
  | cons step rest ih =>
    obtain ⟨outcome,u,made,others⟩ := Prog.bind_success ran
    obtain ⟨later,v,made',returned⟩ := Prog.bind_success others
    cases returned
    obtain ⟨rfl,fine⟩ := List.forall_mem_cons.mp good
    obtain ⟨vm',present,first⟩ := act_table maps step created made
    obtain ⟨vm'',present',last⟩ := ih present made' fine
    refine ⟨vm'',present',fun a => ?_⟩
    rw [last,first]
    cases unmapped : step.unmaps with
    | none => simp [unmapped]
    | some b =>
      by_cases same : b = a
      · simp [unmapped,same]
      · have other : ¬a = b := fun h => same h.symm
        simp [unmapped,same,other]

theorem attempts_split {first rest : List Undo} {s u : Owned V B N} {outcomes : List (Except Error Unit)}
    (ran : (attempts (first ++ rest)).run s = (.ok outcomes,u)) :
    ∃ done t later, (attempts first).run s = (.ok done,t) ∧ (attempts rest).run t = (.ok later,u) ∧
      outcomes = done ++ later ∧ done.length = first.length := by
  induction first generalizing s outcomes with
  | nil => exact ⟨[],s,outcomes,rfl,ran,rfl,rfl⟩
  | cons step first ih =>
    obtain ⟨outcome,v,made,others⟩ := Prog.bind_success ran
    obtain ⟨found,w,made',returned⟩ := Prog.bind_success others
    cases returned
    obtain ⟨done,t,later,ran',ranLast,rfl,length⟩ := ih made'
    refine ⟨outcome::done,t,later,?_,ranLast,rfl,congrArg (· + 1) length⟩
    simp only [attempts,Prog.run_bind,made,ran']
    rfl

/-- Stopping the VM keeps its mappings, whatever it returns. -/
theorem halting_table (maps : Vm.Maps V table) {s t : Owned V B N} {vm : V} (created : s.vm = some vm)
    {outcomes : List (Except Error Unit)} (ran : (attempts s.halting).run s = (.ok outcomes,t)) :
    ∃ vm', t.vm = some vm' ∧ table vm' = table vm := by
  simp only [halting,created,Option.isSome_some,if_true] at ran
  obtain ⟨outcome,u,made,others⟩ := Prog.bind_success ran
  obtain ⟨_,_,made',returned⟩ := Prog.bind_success others
  cases returned
  cases made'
  obtain ⟨_,rfl⟩ := Prod.mk.inj ((attempt_ok (onVm_run Error.platform Vm.stop created)).symm.trans made)
  exact ⟨_,rfl,maps.stop vm⟩

/-- What a tree holds is among its values. -/
theorem mem_values {β : Type} {t : Std.TreeMap Nat β} {a : Nat} {r : β} (found : t[a]? = some r) : r ∈ t.values := by
  have values : t.values = t.inner.inner.toListModel.map (·.2) := Std.DTreeMap.Internal.Impl.values_eq_map_snd
  have pairs : t.toList = t.inner.inner.toListModel.map (fun x => (x.1,x.2)) :=
    Std.DTreeMap.Internal.Impl.Const.toList_eq_toListModel_map
  have member := Std.TreeMap.mem_toList_iff_getElem?_eq_some.mpr found
  rw [pairs] at member
  obtain ⟨x,inside,same⟩ := List.mem_map.mp member
  rw [values]
  exact List.mem_map.mpr ⟨x,inside,congrArg Prod.snd same⟩

omit [BlockStorage B] [NetDevice N] in
/-- Every mapping is among those that the cleanup removes. -/
theorem undoing_covers {s : Owned V B N} (installed : Installed table base s) {vm : V} (created : s.vm = some vm)
    {a : Nat} (mapped : table vm a ≠ none) : a ∈ s.undoing.filterMap Undo.unmaps := by
  obtain ⟨_,vm',fixed,created',booked,inside⟩ := installed
  obtain rfl : vm = vm' := Option.some.inj (created.symm.trans created')
  have placed : fixed a ≠ none → a ∈ s.undoing.filterMap Undo.unmaps := by
    intro here
    obtain ⟨r,member,rfl⟩ := List.mem_map.mp (inside a here)
    refine List.mem_filterMap.mpr ⟨.unmap r,?_,rfl⟩
    simp only [undoing,created,Option.isSome_some,if_true]
    exact List.mem_append_right _ (List.mem_append_right _ (List.mem_map_of_mem member))
  cases booked with
  | bare _ same => exact placed (same ▸ mapped)
  | sparse d only book =>
    rw [book.mapped a] at mapped
    cases found : d.blocks[a]? with
    | none =>
      refine placed ?_
      rw [found,Option.none_or] at mapped
      exact mapped
    | some r =>
      have start := (book.keyed a r found).1
      obtain ⟨m,member,kind⟩ := List.mem_filterMap.mp (only ▸ List.mem_singleton_self d : d ∈ memories s.devices)
      obtain ⟨k,inside,rfl⟩ := List.mem_iff_getElem.mp member
      refine List.mem_filterMap.mpr ⟨.unmap r,?_,congrArg some start⟩
      have blocks : .unmap r ∈ s.release k := by
        simp only [release,List.getElem?_eq_getElem inside,Option.bind_some,kind]
        exact List.mem_cons_of_mem _ (List.mem_map_of_mem (mem_values found))
      simp only [undoing,created,Option.isSome_some,if_true]
      refine List.mem_append_right _ (List.mem_append_left _ ?_)
      exact List.mem_flatMap.mpr ⟨k,List.mem_range.mpr inside,blocks⟩

end Undone

section Ended
variable [Vm V C] [BlockStorage B] [NetDevice N] [SerialIo U] {env : Env} {startup : Startup V} {serial : U}
  {first s : Owned V B N} {result : Except Error Unit}

/-- However a run ends, its record of the mapped base regions is exact. -/
theorem Ended.recorded (unmapped : first.mapped = 0) (unused : first.maps = [])
    (ended : Ended env startup serial first s result) : s.Recorded := by
  cases ended with
  | cancelled => simp [Recorded,placed,unmapped,unused]
  | failed ran => exact init_recorded ran unmapped unused
  | uncreated ran _ => exact init_recorded ran unmapped unused
  | looped ran _ _ _ =>
    have kept := init_recorded ran unmapped unused
    exact kept

/-- However a run ends, the mapper holds what the records say, unless a rollback failed. -/
theorem Ended.installed {table : V → Nat → Option Region} (lawful : env.vm.Lawful) (maps : Vm.Maps V table)
    (brought : ∀ r t, (init env startup).run first = (r,t) → t.vm = none ∨ ∃ base, Installed table base t)
    (bare : first.vm = none) (restored : ∀ source e, result ≠ .error (.device (.memory (.rollbackFailed source e))))
    (ended : Ended env startup serial first s result) : s.vm = none ∨ ∃ base, Installed table base s := by
  cases ended with
  | cancelled => exact .inl bare
  | failed ran => exact brought _ _ ran
  | uncreated _ absent => exact .inl absent
  | @looped u vm l result ran created reached concluded =>
    right
    rcases brought _ _ ran with none | ⟨base,here,vm',fixed,created',booked,inside⟩
    · rw [none] at created
      cases created
    · obtain rfl : vm = vm' := Option.some.inj (created.symm.trans created')
      have start : (u.enter vm serial : Runtime V C B N U).Sparse table base fixed := booked
      rcases RunLoop.sparse_reached lawful maps start reached with sparse | ⟨f,ended,source,e,rfl⟩
      · exact ⟨base,here,l.runtime.vm,fixed,rfl,sparse,inside⟩
      · rw [ended] at concluded
        exfalso
        cases result with
        | ok _ => cases concluded
        | error lost =>
          cases concluded
          exact restored source e rfl

/-- However a run ends, cleanup makes each call that undoes it once, whatever failed
before: it stops the VM that was created, flushes every device and unmaps every block
and then the base regions that were mapped. The run reports the first error of all,
`stop` on a control handle the first one after the VM was stopped; and if there is none
and no rollback failed, no mapping is left. -/
theorem cleanup_complete {config : VmConfig}
    {layout : VmConfig → DeviceRequirements → Except PlatformError MachineLayout} {world : World}
    {blocks : List (String × B)} {net : Option N} {memory : Option VirtioMem}
    (made : Owned.new env config layout world blocks net memory = .ok first)
    (ended : Ended env startup serial first s result) :
    ∃ halted outcomes u, (attempts (s.halting ++ s.undoing)).run s = (.ok (halted ++ outcomes),u) ∧
      halted.length = s.halting.length ∧ cleanup.run s = (.ok (firstOf halted,firstOf outcomes),u) ∧
      outcome result (firstOf halted) (firstOf outcomes) = firstOf (result::(halted ++ outcomes)) ∧
      (∀ diagnostic running cleaning saved finished,
        Control.Closing diagnostic (firstOf outcomes) (firstOf (result::(halted ++ outcomes))) running cleaning saved finished →
        cleaning.lifecycle = .stopping ∧ saved.lifecycle = .stopping ∧ finished.lifecycle = .stopped ∧
          Control.result finished.cleanupError = (firstOf outcomes).mapError (fun e => .cleanupFailed (diagnostic e))) ∧
      (∀ table : V → Nat → Option Region, env.vm.Lawful → Vm.Maps V table → Fresh startup table →
        Supplied memory world.control → firstOf outcomes = .ok () →
        (∀ source e, result ≠ .error (.device (.memory (.rollbackFailed source e)))) →
        ∀ vm, u.vm = some vm → ∀ a, table vm a = none) := by
  have unbuilt := new_unbuilt made
  obtain ⟨halted,outcomes,u,ran,length,cleaned,alike⟩ := cleanup_attempts (ended.recorded unbuilt.mapped unbuilt.maps)
  refine ⟨halted,outcomes,u,ran,length,cleaned,?_,fun _ _ _ _ _ closing => closing.reports,?_⟩
  · rw [outcome,firstOf,firstOf_append,firstError_assoc]
  · intro table lawful maps fresh supplied good restored vm present a
    obtain ⟨done,t,later,stopped,undone,same,length'⟩ := attempts_split ran
    obtain ⟨rfl,rfl⟩ := List.append_inj same (length.trans length'.symm)
    rcases ended.installed lawful maps (fun r t ran => init_installed made supplied maps fresh ran) unbuilt.vm restored
      with none | ⟨base,installed⟩
    · have absent := alike.vm
      rw [none,present] at absent
      cases absent
    · obtain ⟨_,first,_,created,_⟩ := id installed
      obtain ⟨second,created',same'⟩ := halting_table maps created stopped
      obtain ⟨third,created'',emptied⟩ := attempts_table maps _ created' undone (firstOf_ok.mp good)
      obtain rfl : vm = third := Option.some.inj (present.symm.trans created'')
      rw [emptied,same']
      split
      · rfl
      · by_contra mapped
        exact ‹¬_› (undoing_covers installed created mapped)

end Ended
end Owned

namespace Reference
open Owned

def collect (regions : List Region) : Except Foreign GuestMemoryMmap :=
  if sorted : regions.Pairwise (fun r q => r.start + r.len ≤ q.start) then .ok ⟨regions,sorted⟩
  else .error ⟨"overlapping memory regions"⟩

/-- A board is created without mappings and reports that its guest shuts down. -/
def boot : Startup Board where
  collect := collect
  create := .ok ⟨⟨⟨[],0⟩,false⟩,[.shutdown]⟩
  stopping _ := false

def twoRanges (_ : VmConfig) (_ : DeviceRequirements) : Except PlatformError MachineLayout :=
  .ok {
    ram := [⟨0x80000000,2^20⟩,⟨0x90000000,2^20⟩]
    uart := ⟨.mmio,0,8,1⟩
    virtio := [⟨.mmio,0x1000,0x200,2⟩,⟨.mmio,0x2000,0x200,3⟩]
    hotplug := some ⟨2^30,2^27⟩ }

def spare : VirtioMem := ⟨0,2^27,2^21,2^21,0,0,0,∅⟩

def spareWorld : World := {emptyWorld with control := MemoryStatus.new 128 2}

def boardTable (b : Board) : Nat → Option Region := b.vm.table

theorem Board.map_vm {b b' : Board} {r : Region} {outcome : Except MemoryError Unit}
    (mapped : Mapper.map b r = (outcome,b')) : Mapper.map b.vm r = (outcome,b'.vm) := by
  have result := congrArg Prod.fst mapped
  have vm := congrArg (fun x => x.2.vm) mapped
  exact Prod.ext result vm

theorem Board.unmap_vm {b b' : Board} {r : Region} {outcome : Except MemoryError Unit}
    (unmapped : Mapper.unmap b r = (outcome,b')) : Mapper.unmap b.vm r = (outcome,b'.vm) := by
  have result := congrArg Prod.fst unmapped
  have vm := congrArg (fun x => x.2.vm) unmapped
  exact Prod.ext result vm

theorem board_maps : Vm.Maps Board boardTable where
  atomic := {
    map_ok := fun b r _ mapped => Vm.atomic.map_ok b.vm r _ (Board.map_vm mapped)
    map_error := fun b r e _ refused => Vm.atomic.map_error b.vm r e _ (Board.map_vm refused)
    unmap_ok := fun b r _ unmapped => Vm.atomic.unmap_ok b.vm r _ (Board.unmap_vm unmapped)
    unmap_error := fun b r e _ refused => Vm.atomic.unmap_error b.vm r e _ (Board.unmap_vm refused) }
  completeIo _ _ _ := rfl
  setIrq _ _ _ := rfl
  pause _ := rfl
  resume _ := rfl
  prepare _ _ _ := rfl
  start _ := rfl
  pollEvent _ := rfl
  stop _ := rfl

theorem boot_fresh : Fresh boot boardTable where
  view regions view collected := by
    simp only [boot,collect] at collected
    split at collected
    · cases collected
      rfl
    · cases collected
  created vm made := by
    cases made
    rfl

def lowRam (_ : VmConfig) (_ : DeviceRequirements) : Except PlatformError MachineLayout :=
  .ok {
    ram := [⟨0,2^20⟩]
    uart := ⟨.mmio,0x10000000,8,1⟩
    virtio := [⟨.mmio,0x10001000,0x200,2⟩,⟨.mmio,0x10002000,0x200,3⟩]
    hotplug := some ⟨2^30,2^27⟩ }

/-- Three chains of the memory driver, of which so many are available: plug two blocks at
1 GiB, unplug the second one, unplug the first one. The disk driver keeps its queue in the
first one, with a write of one sector. -/
def blockMemory (available : UInt8) : Host := memoryWith [
  (0x100,descriptorBytes 0x400 24 1 1 ++ descriptorBytes 0x500 10 2 0 ++ descriptorBytes 0x420 24 1 3 ++
    descriptorBytes 0x520 10 2 0 ++ descriptorBytes 0x440 24 1 5 ++ descriptorBytes 0x540 10 2 0),
  (0x202,[available,0,0,0,2,0,4,0]),
  (0x408,toLeBytes 8 (2^30) ++ [2]),
  (0x420,1::List.replicate 7 0 ++ toLeBytes 8 (2^30 + 2^21) ++ [1]),
  (0x440,1::List.replicate 7 0 ++ toLeBytes 8 (2^30) ++ [1]),
  (2^20 + 0x100,descriptorBytes 0x40000400 16 1 1 ++ descriptorBytes 0x40000500 512 1 2 ++
    descriptorBytes 0x40000800 1 2 0),
  (2^20 + 0x202,[1]),
  (2^20 + 0x400,[1])]

def plugEnv : Env := {env with guest := fun n _ => blockMemory (if n < 21 then 1 else 3)}

def builtLow (dirty : Bool) : Except (Failure Error) (Owned Board Disk Wire) :=
  Owned.new plugEnv ⟨1,1,false⟩ lowRam spareWorld [("disk",⟨List.replicate 512 0,dirty⟩)] none (some spare)

def memoryDriver : List (Nat × BitVec 32) :=
  [(0x70,1),(0x70,3),(0x20,2),(0x24,1),(0x20,1),(0x70,0xb),(0x38,8),(0x80,0x100),(0x90,0x200),(0xa0,0x300),
    (0x44,1),(0x70,0xf)]

def bootBlocks : Startup Board := {boot with create := .ok ⟨⟨⟨[],0⟩,false⟩,
  memoryDriver.map (fun w => .io ⟨.mmio,0x10002000 + w.1,4,true,w.2.toNat,0⟩) ++ [.shutdown]⟩}

theorem bootBlocks_fresh : Fresh bootBlocks boardTable where
  view regions view collected := boot_fresh.view regions view collected
  created vm made := by
    cases made
    rfl

def accessPass : List RunLoop.Label := [.look false,.next none] ++ List.replicate 9 .call

def shutdownPass : List RunLoop.Label := [.look false,.next none] ++ List.replicate 8 .call

def blockPasses : List RunLoop.Label :=
  [.target 4] ++ (memoryDriver.map (fun _ => accessPass)).flatten ++ shutdownPass

/-- Whether a cleanup reports no error, or which one of a disk. -/
def flushed : Except (Failure Error) (Except Error Unit × Except Error Unit) → Option (Option Foreign)
  | .ok (.ok (),.ok ()) => some none
  | .ok (.ok (),.error (.device (.storage (.io e)))) => some (some e)
  | _ => none

def undone (dirty : Bool) : Option (List Undo × Option (Option Foreign)) := do
  let first ← (builtLow dirty).toOption
  let (.ok (),t) := (init plugEnv bootBlocks).run first | none
  let vm ← t.vm
  let l ← run (RunLoop.next plugEnv) blockPasses ⟨t.enter vm (⟨[]⟩ : Port),false,.head⟩
  let .ended (.ok ()) := l.pass | none
  let s := t.leave l.runtime
  let (r,u) := Owned.cleanup.run s
  let _ ← u.vm
  return (s.halting ++ s.undoing,flushed r)

def undoneSteps : List Undo :=
  [.stop,.flush 0,.flush 1,.retire,.unmap ⟨2^30,2^21,2^20,1⟩,.unmap ⟨2^30 + 2^21,2^21,2^20 + 2^21,2⟩,.unmap ⟨0,2^20,0,0⟩]

theorem undone_clean : undone false = some (undoneSteps,some none) := by decide +kernel

theorem undone_dirty : undone true = some (undoneSteps,some (some ⟨"flush"⟩)) := by decide +kernel

theorem undone_ended {dirty : Bool} {steps : List Undo} {report : Option (Option Foreign)}
    (outcome : undone dirty = some (steps,report)) :
    ∃ first s u vm r, builtLow dirty = .ok first ∧ Owned.Ended plugEnv bootBlocks (⟨[]⟩ : Port) first s (.ok ()) ∧
      Owned.cleanup.run s = (r,u) ∧ u.vm = some vm ∧ s.halting ++ s.undoing = steps ∧ flushed r = report := by
  unfold undone at outcome
  obtain ⟨first,made,entered⟩ := Option.bind_eq_some_iff.mp outcome
  split at entered
  next t brought =>
    obtain ⟨vm,created,looping⟩ := Option.bind_eq_some_iff.mp entered
    obtain ⟨l,looped,ending⟩ := Option.bind_eq_some_iff.mp looping
    split at ending
    next concluded =>
      obtain ⟨left,present,seen⟩ := Option.bind_eq_some_iff.mp ending
      obtain ⟨same,reported⟩ := Prod.mk.inj (Option.some.inj seen)
      have made : builtLow dirty = .ok first := by
        cases built : builtLow dirty <;> simp_all [Except.toOption]
      exact ⟨first,t.leave l.runtime,_,left,_,made,
        .looped brought created (reaches_of_run blockPasses looped) concluded,rfl,present,same,reported⟩
    · cases ending
  · cases entered

/-- A machine with two plugged blocks is undone, and no mapping is left. Where the flush of
the disk fails all the rest is done, and the run reports it. -/
theorem cleanup_complete_blocks :
    (∃ first s u vm, builtLow false = .ok first ∧ Owned.Ended plugEnv bootBlocks (⟨[]⟩ : Port) first s (.ok ()) ∧
      s.halting ++ s.undoing = undoneSteps ∧ Owned.cleanup.run s = (.ok (.ok (),.ok ()),u) ∧ u.vm = some vm ∧
      ∀ a, boardTable vm a = none) ∧
    ∃ first s u e outcomes, builtLow true = .ok first ∧
      Owned.Ended plugEnv bootBlocks (⟨[]⟩ : Port) first s (.ok ()) ∧
      (Owned.attempts undoneSteps).run s = (.ok outcomes,u) ∧ Owned.cleanup.run s = (.ok (.ok (),.error e),u) ∧
      e = .device (.storage (.io ⟨"flush"⟩)) ∧ firstOf (.ok ()::outcomes) = .error e := by
  constructor
  · obtain ⟨first,s,u,vm,r,made,ended,cleaned,present,steps,report⟩ := undone_ended undone_clean
    obtain ⟨halted,outcomes,u',_,_,found,_,_,emptied⟩ := Owned.cleanup_complete made ended
    obtain ⟨rfl,rfl⟩ := Prod.mk.inj (found.symm.trans cleaned)
    have supplied : Supplied (some spare) spareWorld.control := by
      intro d same
      obtain rfl := Option.some.inj same
      exact ⟨128,2,[],_,rfl,rfl⟩
    have good : firstOf halted = .ok () ∧ firstOf outcomes = .ok () := by
      unfold flushed at report
      split at report
      · rename_i same
        exact Prod.mk.inj (Except.ok.inj same)
      · cases report
      · cases report
    refine ⟨first,s,u',vm,made,ended,steps,?_,present,?_⟩
    · rw [cleaned,good.1,good.2]
    · exact emptied boardTable env_vm_lawful board_maps bootBlocks_fresh supplied good.2 (by rintro _ _ ⟨⟩) vm present
  · obtain ⟨first,s,u,vm,r,made,ended,cleaned,_,steps,report⟩ := undone_ended undone_dirty
    obtain ⟨halted,outcomes,u',attempted,_,found,first',_,_⟩ := Owned.cleanup_complete made ended
    obtain ⟨rfl,rfl⟩ := Prod.mk.inj (found.symm.trans cleaned)
    unfold flushed at report
    split at report
    · cases report
    · rename_i e same
      obtain ⟨clean,failed⟩ := Prod.mk.inj (Except.ok.inj same)
      obtain rfl := Option.some.inj (Option.some.inj report)
      refine ⟨first,s,u',_,halted ++ outcomes,made,ended,steps ▸ attempted,?_,rfl,?_⟩
      · rw [cleaned,clean,failed]
      · rw [← first',clean,failed]
        rfl
    · cases report

end Reference
end WVmm
