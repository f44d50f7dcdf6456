import WVmm.Devices.Journal
import WVmm.Runtime.Effects
import WVmm.Runtime.Cleanup

/-! Acknowledged writes become durable when they were promised to be: at once without
FLUSH, by the next FLUSH or reset with it, and at the end of a run that succeeds. -/
namespace WVmm
open Lib.Effect Lib.Runs Devices Platform

variable {V C B N U : Type} {env : Env}

namespace Visit

variable [BlockStorage B]

def journal (env : Env) (v : Visit B N) : List Entry :=
  match v.before.mmio.device, v.operation with
  | .block d, .write offset value =>
    if offset = 0x50 then
      if v.before.mmio.listens value.toNat then
        Block.notified env ⟨d,v.before.mmio.queues,v.before.world,v.before.trace⟩
      else []
    else if offset = 0x70 ∧ value = 0 then [Block.restarted d]
    else []
  | _, _ => []

theorem journal_sound (stores : env.vm.Stores) (v : Visit B N) : ∀ e ∈ v.journal env, e.Sound := by
  unfold journal
  split
  · split
    · split
      · exact Block.notified_sound stores _
      · nofun
    split
    · intro e member
      rw [List.mem_singleton.mp member]
      exact Block.restarted_sound _
    · nofun
  · nofun

/-- The journal accounts for the calls and completions of a visit, and the disk stays one. -/
structure Journaled (env : Env) (v : Visit B N) : Prop where
  answers : v.after.trace.filter Action.answers = Devices.acts (v.journal env)
  disk : ∃ d, v.after.mmio.device = .block d

variable [NetDevice N] {v : Visit B N} {d : Block B}

omit [NetDevice N] in
theorem Plain.journaled (plain : v.Plain) (disk : v.before.mmio.device = .block d) (silent : v.journal env = []) :
    v.Journaled env := by
  refine ⟨?_,d,plain.device.trans disk⟩
  rw [plain.trace,silent]
  rfl

omit [BlockStorage B] [NetDevice N] in
theorem settled_trace {α : Type} (s : Slot (Device B N)) (r : Except (Failure DeviceError) α) :
    (Mmio.settled s r).2.trace = s.trace ∧ (Mmio.settled s r).2.mmio.device = s.mmio.device := by
  rcases Mmio.settled_slot s r with same | isolated
  · rw [same]
    exact ⟨rfl,rfl⟩
  · rw [isolated]
    exact ⟨rfl,s.mmio.isolate_parts.1⟩

def disk (v : Visit B N) (d : Block B) : Cell (Block B) := ⟨d,v.before.mmio.queues,v.before.world,v.before.trace⟩

omit [BlockStorage B] [NetDevice N] in
theorem ran_disk {onBlock : Prog (Cell (Block B)) (Failure DeviceError) Unit}
    {onNet : Prog (Cell (Net N)) (Failure DeviceError) Unit} {onMem : Prog (Cell VirtioMem) (Failure DeviceError) Unit}
    (kind : v.before.mmio.device = .block d)
    (after : v.after = (Mmio.ran v.before (Device.dispatch onBlock onNet onMem)).2) :
    v.after.trace = (onBlock.run (v.disk d)).2.trace ∧ v.after.mmio.device = .block (onBlock.run (v.disk d)).2.device := by
  obtain ⟨trace,device⟩ := settled_trace (v.before.putCell ((Device.dispatch onBlock onNet onMem).run v.before.cell).2)
    ((Device.dispatch onBlock onNet onMem).run v.before.cell).1
  have here : v.before.cell.device = .block d := kind
  have whole : (⟨d,v.before.cell.queues,v.before.cell.world,v.before.cell.trace⟩ : Cell (Block B)) = v.disk d := rfl
  have put : ((Device.dispatch onBlock onNet onMem).run v.before.cell).2 =
      ⟨.block (onBlock.run (v.disk d)).2.device,(onBlock.run (v.disk d)).2.queues,(onBlock.run (v.disk d)).2.world,
        (onBlock.run (v.disk d)).2.trace⟩ := by
    simp only [Device.dispatch,Prog.run_bind,Prog.run_get,here,Cell.focus,Prog.run_zoom,whole]
  rw [after]
  unfold Mmio.ran
  rw [trace,device,put]
  exact ⟨rfl,rfl⟩

theorem notify_journaled (untraced : v.before.trace = []) (disk : v.before.mmio.device = .block d)
    {value : BitVec 32} (op : v.operation = .write 0x50 value) (listens : v.before.mmio.listens value.toNat = true)
    (after : v.after = (Mmio.ran v.before (VirtioDevice.notify env value.toNat)).2) : v.Journaled env := by
  obtain ⟨trace,device⟩ := ran_disk disk after
  obtain ⟨more,notified,held⟩ := @Block.notify_answers B _ env value.toNat (v.disk d)
  refine ⟨?_,_,device⟩
  have grown : ((VirtioDevice.notify env value.toNat).run (v.disk d)).2.trace = [] ++ more := untraced ▸ notified
  rw [trace,grown,List.nil_append,held,journal]
  simp only [disk,op,listens,if_true]
  rfl

theorem reset_journaled (untraced : v.before.trace = []) (disk : v.before.mmio.device = .block d)
    (op : v.operation = .write 0x70 0) (after : v.after = ((Mmio.write env 0x70 0).run v.before).2) :
    v.Journaled env := by
  have kept : v.journal env = [Block.restarted d] := by simp [journal,disk,op]
  have here : v.before.cell.device = .block d := disk
  have blank : v.before.cell.trace = [] := untraced
  have ran : VirtioDevice.reset.run v.before.cell = _ := Device.reset_run v.before.cell
  rw [here] at ran
  dsimp only at ran
  rw [blank,List.nil_append] at ran
  rcases flushed : BlockStorage.flush d.disk with ⟨e | _,rest⟩
  all_goals rw [flushed] at ran
  · have failed : (Mmio.configure env 0x70 0).run v.before = (.error (.error (.storage e)),v.before.putCell
        {v.before.cell with device := .block {d with disk := rest}, trace := [.diskFlush none]}) := by
      change (Mmio.reset env).run v.before = _
      simp only [Mmio.reset,Prog.run_bind,Slot.onCell,Prog.run_zoom,ran]
      rfl
    have restarted : Block.restarted d = .failed [.diskFlush none] := by rw [Block.restarted,flushed]
    rw [Mmio.write_run (by decide),failed] at after
    dsimp only at after
    refine ⟨?_,{d with disk := rest},?_⟩
    · rw [kept,restarted,after]
      split <;> rfl
    · rw [after]
      split <;> rfl
  · have restarted : Block.restarted d = .reset [.diskFlush (some ())] := by rw [Block.restarted,flushed]
    rw [Mmio.reset_run v.before ran] at after
    refine ⟨?_,{d with disk := rest},?_⟩
    · rw [kept,restarted,after]
      rfl
    · rw [after]
      rfl

/-- Every visit of a disk is accounted for. -/
theorem journaled [VirtualMachine V C] (lawful : env.vq.Lawful) (made : Runtime.Made V env v)
    (disk : v.before.mmio.device = .block d) : v.Journaled env := by
  obtain ⟨_,untraced,vm,after⟩ := made
  have idle : v.after = v.before → v.Plain := fun same =>
    settled_plain (w := v.before.world) (r := (.ok () : Except _ Unit)) untraced same
  cases op : v.operation with
  | write offset value =>
    rw [op] at after
    change v.after = ((Mmio.write env offset value).run v.before).2 at after
    by_cases register : offset = 0x50
    · subst register
      rw [Mmio.write,if_pos rfl,Mmio.notify_run] at after
      split at after
      · rename_i listens
        exact notify_journaled untraced disk op listens after
      · rename_i deaf
        refine (idle after).journaled disk ?_
        simp [journal,disk,op,deaf]
    by_cases reset : offset = 0x70 ∧ value = 0
    · obtain ⟨rfl,rfl⟩ := reset
      exact reset_journaled untraced disk op after
    · refine (configure_plain lawful register reset untraced after).journaled disk ?_
      simp only [journal,disk,op,if_neg register,if_neg reset]
  | poll =>
    rw [op] at after
    change v.after = ((Mmio.poll env).run v.before).2 at after
    rw [Mmio.poll_run] at after
    have silent : v.journal env = [] := by simp only [journal,disk,op]
    split at after
    · obtain ⟨trace,device⟩ := ran_disk disk after
      refine ⟨?_,_,device⟩
      rw [trace,silent]
      change v.before.trace.filter Action.answers = []
      rw [untraced]
      rfl
    · exact (idle after).journaled disk silent
  | sync active =>
    rw [op] at after
    change v.after = ((Bay.syncTarget active).run v.before).2 at after
    rw [Runtime.syncTarget_run] at after
    refine (idle (after.trans ?_)).journaled disk ?_
    · simp only [Runtime.synced,disk]
    · simp only [journal,disk,op]
  | available =>
    rw [op,Runtime.available_slot] at after
    have waits : Cell.Waits env v.before.cell ((Queues.available env 0).run v.before.cell).2 :=
      Queues.available_waits 0 v.before.cell
    have put : v.before.putCell ((Queues.available env 0).run v.before.cell).2 =
        {v.before with world := ((Queues.available env 0).run v.before.cell).2.world} := by
      rw [waits.2]
      rfl
    dsimp only at after
    rw [put] at after
    refine (settled_plain untraced after).journaled disk ?_
    simp only [journal,disk,op]
  | pinned =>
    rw [op,Runtime.pinned_slot] at after
    refine (settled_plain untraced after).journaled disk ?_
    simp only [journal,disk,op]
  | process pinned =>
    rw [op,Runtime.process_slot] at after
    have stuck : (Bay.process env pinned).run ⟨v.before,vm⟩ = (.error (.panic .unreachable),⟨v.before,vm⟩) := by
      simp only [Bay.process,Prog.run_mk,disk]
    rw [stuck] at after
    refine (idle after).journaled disk ?_
    simp only [journal,disk,op]

end Visit

/-- The journal of the `k`th device, from the log of the runtime. -/
def journalOf [BlockStorage B] (env : Env) (k : Nat) (log : List (Call C B N)) : List Entry :=
  (Runtime.visitsTo k log).flatMap (Visit.journal env)

section History
variable [BlockStorage B] [NetDevice N]

/-- Along the visits of a disk its journal is complete. -/
theorem linked_journaled [VirtualMachine V C] (lawful : env.vq.Lawful) {m m' : Mmio (Device B N)} {vs : List (Visit B N)}
    (made : ∀ v ∈ vs, Runtime.Made V env v) (linked : Runtime.Linked m vs m') {d : Block B} (disk : m.device = .block d) :
    (vs.flatMap (·.after.trace)).filter Action.answers = acts (vs.flatMap (Visit.journal env)) ∧
      ∃ d, m'.device = .block d := by
  induction vs generalizing m d with
  | nil =>
    cases linked
    exact ⟨rfl,d,disk⟩
  | cons v rest ih =>
    obtain ⟨here,later⟩ := linked
    obtain ⟨answers,d',disk'⟩ := Visit.journaled lawful (made v List.mem_cons_self) (here ▸ disk)
    obtain ⟨answers',ends⟩ := ih (fun w member => made w (List.mem_cons_of_mem _ member)) later disk'
    refine ⟨?_,ends⟩
    rw [List.flatMap_cons,List.flatMap_cons,List.filter_append,answers,answers']
    exact List.flatMap_append.symm

omit [NetDevice N] in
theorem journalOf_sound (stores : env.vm.Stores) (k : Nat) (log : List (Call C B N)) :
    ∀ e ∈ journalOf env k log, e.Sound := by
  intro e member
  obtain ⟨v,_,inside⟩ := List.mem_flatMap.mp member
  exact v.journal_sound stores e inside

end History

namespace Runtime
variable [Vm V C] [BlockStorage B] [NetDevice N] [SerialIo U]

instance : IsPreorder (Runtime V C B N U) (Follows env (fun _ => True)) where
  refl _ := .refl
  trans _ _ _ := .trans

/-- Every step of the loop is made of visits and what is beside the devices. -/
theorem follows_bound : RunLoop.Bound env (Follows env (fun _ => True) : Runtime V C B N U → Runtime V C B N U → Prop) where
  input _ := .single (.aside rfl rfl ⟨[],(List.append_nil _).symm,by simp⟩)
  setIrq irq level s := ((setIrq_beside irq level).steps (fun _ => True) s trivial).1
  poll k s := (free_visit_steps k .poll trivial (fun _ => trivial) s trivial).1
  memory s := memory_after s ▸ step_follows s .memory
  lines s := ((setLines_beside _).steps (fun _ => True) s trivial).1
  events s := .single (.aside rfl rfl ⟨[],(List.append_nil _).symm,by simp⟩)
  access a s := (handleIo_steps (fun _ _ => trivial) a s trivial).1
  pause s := (pause_beside.steps (fun _ => True) s trivial).1
  resume s := (resume_beside.steps (fun _ => True) s trivial).1
  target requested s := step_follows s (.target requested)
  guest s := step_follows s .guest

end Runtime

namespace Owned
variable [Vm V C] [BlockStorage B] [NetDevice N] {s t u : Owned V B N} {k : Nat}

omit [BlockStorage B] [NetDevice N] in
theorem attempt_state (m : Prog (Owned V B N) (Failure Error) Unit) (s : Owned V B N) :
    ((attempt m).run s).2 = (m.run s).2 := by
  simp only [attempt,Prog.run_mk]
  rcases m.run s with ⟨(e | p) | _,t⟩ <;> rfl

omit [BlockStorage B] [NetDevice N] in
theorem onVm_devices {ε α : Type} (wrap : ε → Error) (call : V → Except ε α × V) (s : Owned V B N) :
    ((onVm wrap call).run s).2.devices = s.devices := by
  simp only [onVm,Prog.run_mk]
  cases s.vm <;> rfl

theorem act_devices {step : Undo} (other : step ≠ .flush k) (s : Owned V B N) :
    (step.act.run s).2.devices[k]? = s.devices[k]? := by
  cases step with
  | stop => exact congrArg (·[k]?) (onVm_devices _ _ s)
  | unmap region => exact congrArg (·[k]?) (onVm_devices _ _ s)
  | retire => rfl
  | flush j =>
    have apart : j ≠ k := fun same => other (congrArg Undo.flush same)
    simp only [Undo.act,flushDevice,Prog.run_mk]
    cases s.devices[j]? with
    | none => rfl
    | some m => exact List.getElem?_set_ne apart

theorem attempts_devices {steps : List Undo} (others : ∀ step ∈ steps, step ≠ .flush k)
    {outcomes : List (Except Error Unit)} (ran : (attempts steps).run s = (.ok outcomes,t)) :
    t.devices[k]? = s.devices[k]? := by
  induction steps generalizing s outcomes with
  | nil =>
    cases ran
    rfl
  | cons step rest ih =>
    obtain ⟨done,v,made,ran⟩ := Prog.bind_success ran
    obtain ⟨later,w,made',returned⟩ := Prog.bind_success ran
    cases returned
    have kept := act_devices (others step List.mem_cons_self) s
    rw [← attempt_state,made] at kept
    exact (ih (fun x member => others x (List.mem_cons_of_mem _ member)) made').trans kept

/-- A flush of a disk that is among the steps, once. -/
theorem attempts_flush {before after : List Undo} (first : ∀ step ∈ before, step ≠ .flush k)
    (last : ∀ step ∈ after, step ≠ .flush k) {outcomes : List (Except Error Unit)}
    (ran : (attempts (before ++ .flush k::after)).run s = (.ok outcomes,u)) (good : ∀ r ∈ outcomes, r = .ok ())
    {m : Mmio (Device B N)} (found : s.devices[k]? = some m) :
    ∃ w slot, Mmio.flush.run ⟨m,w,[]⟩ = (.ok (),slot) ∧ u.devices[k]? = some slot.mmio := by
  obtain ⟨done,t,later,ran',rest,rfl,_⟩ := attempts_split ran
  obtain ⟨outcome,v,made,rest⟩ := Prog.bind_success rest
  obtain ⟨others,w,made',returned⟩ := Prog.bind_success rest
  cases returned
  have here : t.devices[k]? = some m := (attempts_devices first ran').trans found
  obtain rfl : outcome = .ok () := good _ (List.mem_append_right _ List.mem_cons_self)
  have flushed := made
  simp only [attempt,Prog.run_mk,Undo.act,flushDevice,here] at flushed
  rcases ends : Mmio.flush.run (⟨m,t.world,[]⟩ : Slot (Device B N)) with ⟨(e | p) | _,slot⟩
  all_goals rw [ends] at flushed
  · cases flushed
  · cases flushed
  · refine ⟨t.world,slot,ends,?_⟩
    rw [attempts_devices last made',← (Prod.mk.inj flushed).2]
    exact List.getElem?_set_self (List.getElem?_eq_some_iff.mp here).1

omit [Vm V C] [BlockStorage B] [NetDevice N] in
/-- What follows the flushes gives memory back. -/
theorem release_frees (s : Owned V B N) :
    ∀ step ∈ (List.range s.devices.length).flatMap s.release ++ s.placed.map .unmap, step ≠ .flush k := by
  intro step member same
  subst same
  rcases List.mem_append.mp member with released | unmapped
  · obtain ⟨j,_,inside⟩ := List.mem_flatMap.mp released
    unfold release at inside
    split at inside
    · cases inside
    · rcases List.mem_cons.mp inside with retire | unmap
      · cases retire
      · obtain ⟨_,_,same⟩ := List.mem_map.mp unmap
        cases same
  · obtain ⟨_,_,same⟩ := List.mem_map.mp unmapped
    cases same

omit [Vm V C] in
/-- The flush of a disk that succeeds. -/
theorem flush_trace {m : Mmio (Device B N)} {d : Block B} {w : World} {slot : Slot (Device B N)}
    (disk : m.device = .block d) (ran : Mmio.flush.run ⟨m,w,[]⟩ = (.ok (),slot)) :
    slot.trace = [.diskFlush (some ())] := by
  obtain ⟨_,t⟩ := m
  subst disk
  have result := congrArg Prod.fst ran
  have trace := congrArg (fun x => x.2.trace) ran
  change (Block.diskFlush.run (⟨d,_,w,[]⟩ : Cell (Block B))).1 = _ at result
  change (Block.diskFlush.run (⟨d,_,w,[]⟩ : Cell (Block B))).2.trace = _ at trace
  have flushed := Block.diskFlush_success (Prod.ext result rfl)
  exact trace.symm.trans flushed

/-- A cleanup that finds no error has flushed every disk, and left it flushed. -/
theorem cleanup_flushes (recorded : s.Recorded) {fault cleaned : Except Error Unit}
    (ran : cleanup.run s = (.ok (fault,cleaned),u)) (stopped : fault = .ok ()) (good : cleaned = .ok ())
    {m : Mmio (Device B N)} (found : s.devices[k]? = some m) :
    ∃ w slot, Mmio.flush.run ⟨m,w,[]⟩ = (.ok (),slot) ∧ u.devices[k]? = some slot.mmio := by
  obtain ⟨halted,outcomes,u',made,_,cleans,_⟩ := cleanup_attempts recorded
  rw [ran] at cleans
  obtain ⟨reports,rfl⟩ := Prod.mk.inj cleans
  obtain ⟨rfl,rfl⟩ := Prod.mk.inj (Except.ok.inj reports)
  have inside : k ∈ List.range s.devices.length := List.mem_range.mpr (List.getElem?_eq_some_iff.mp found).1
  obtain ⟨first,last,split⟩ := List.append_of_mem inside
  have once := List.nodup_range (n := s.devices.length)
  rw [split,List.nodup_middle] at once
  have apart : ∀ j, j ∈ first ++ last → j ≠ k := fun j member same => (List.nodup_cons.mp once).1 (same ▸ member)
  have steps : s.halting ++ s.undoing = (s.halting ++ first.map .flush) ++ .flush k::(last.map .flush ++
      if s.vm.isSome then (List.range s.devices.length).flatMap s.release ++ s.placed.map .unmap else []) := by
    rw [undoing,split]
    simp only [List.map_append,List.map_cons,List.append_assoc,List.cons_append]
  rw [steps] at made
  have flushes : ∀ js : List Nat, (∀ j ∈ js, j ∈ first ++ last) → ∀ step ∈ js.map Undo.flush, step ≠ .flush k := by
    intro js within step member same
    obtain ⟨j,inside,rfl⟩ := List.mem_map.mp member
    exact apart j (within j inside) (Undo.flush.inj same)
  refine attempts_flush ?_ ?_ made (fun r member => ?_) found
  · intro step member
    rcases List.mem_append.mp member with halt | flush
    · unfold halting at halt
      split at halt
      · rw [List.mem_singleton.mp halt]
        intro same
        cases same
      · cases halt
    · exact flushes first (fun j inside => List.mem_append_left _ inside) step flush
  · intro step member
    rcases List.mem_append.mp member with flush | rest
    · exact flushes last (fun j inside => List.mem_append_right _ inside) step flush
    · split at rest
      · exact release_frees s step rest
      · cases rest
  · rcases List.mem_append.mp member with halt | undo
    · exact firstOf_ok.mp stopped r halt
    · exact firstOf_ok.mp good r undo

end Owned

/-- A backend makes the effect of its calls durable: `durable calls i` says that after
these calls the effect of the `i`th survives a crash. A flush that succeeds makes all
earlier writes durable, and they stay so. -/
structure Durability (durable : List Action → Nat → Prop) : Prop where
  flushed : ∀ calls i, i < calls.length → durable (calls ++ [.diskFlush (some ())]) i
  lasts : ∀ calls more i, durable calls i → durable (calls ++ more) i

/-- The write of an OUT with status OK is durable after these calls. -/
def Saved (durable : List Action → Nat → Prop) (entries : List Entry) (more : List Action) : Prop :=
  ∀ before head used negotiated cs after,
    entries = before ++ .completed head used (some Block.T_OUT) (some Block.S_OK) negotiated cs::after →
    ∃ i offset raw, cs[i]? = some (.diskWrite offset raw (some ())) ∧
      durable (calls entries ++ more) ((calls before).length + i)

section Saved
variable {durable : List Action → Nat → Prop} {entries : List Entry}

/-- Where an OUT with status OK has its write. -/
theorem out_written (sound : ∀ e ∈ entries, e.Sound) {before after : List Entry} {head used : Nat}
    {negotiated : BitVec 64} {cs : List Action}
    (split : entries = before ++ .completed head used (some Block.T_OUT) (some Block.S_OK) negotiated cs::after) :
    ∃ offset raw, cs = .diskWrite offset raw (some ())::
      (if negotiated &&& Block.F_FLUSH = 0 then [.diskFlush (some ())] else []) :=
  ((sound _ (split ▸ List.mem_append_right _ List.mem_cons_self)) rfl).1 rfl

/-- A flush that succeeds saves everything before it. -/
theorem flush_saves (durability : Durability durable) (sound : ∀ e ∈ entries, e.Sound) :
    Saved durable entries [.diskFlush (some ())] := by
  intro before head used negotiated cs after split
  obtain ⟨offset,raw,written⟩ := out_written sound split
  refine ⟨0,offset,raw,by rw [written]; rfl,durability.flushed _ _ ?_⟩
  rw [split,calls_append,List.length_append,Nat.add_zero]
  refine Nat.lt_add_of_pos_right ?_
  rw [calls,List.flatMap_cons,List.length_append]
  have positive : 0 < cs.length := by rw [written]; exact Nat.succ_pos _
  exact Nat.add_pos_left positive _

end Saved

namespace Owned
variable [Vm V C] [BlockStorage B] [NetDevice N] [SerialIo U] {startup : Startup V} {serial : U} {first s : Owned V B N}
  {vm : V} {l : RunLoop V C B N U}

/-- Acknowledged writes become durable when promised, for each disk of a machine and
any way its loop runs. The journal of the disk accounts for all calls on its backend
and all completions, each with the status byte that guest memory held when it was
posted. Without FLUSH the write of an OUT is durable before the completion;
with a FLUSH or a reset that succeeds every earlier one is; and when the run ends
without an error, all of them are, since the cleanup has flushed the disk. -/
theorem writes_become_durable (lawful : env.vq.Lawful) (stores : env.vm.Stores) {durable : List Action → Nat → Prop}
    (durability : Durability durable) {config : VmConfig}
    {layout : VmConfig → DeviceRequirements → Except PlatformError MachineLayout} {world : World}
    {blocks : List (String × B)} {net : Option N} {memory : Option VirtioMem}
    (made : Owned.new env config layout world blocks net memory = .ok first)
    (brought : (init env startup).run first = (.ok (),s)) (created : s.vm = some vm)
    (reached : Reaches (Takes (RunLoop.next env)) ⟨s.enter vm serial,false,.head⟩ l)
    {k : Nat} {m : Mmio (Device B N)} {d : Block B} (found : s.devices[k]? = some m) (disk : m.device = .block d) :
    let history := journalOf env k l.runtime.log
    ((Runtime.visitsTo k l.runtime.log).flatMap (·.after.trace)).filter Action.answers = acts history ∧
    (∀ earlier head used negotiated cs later,
      history = earlier ++ .completed head used (some Block.T_OUT) (some Block.S_OK) negotiated cs::later →
      negotiated &&& Block.F_FLUSH = 0 → ∃ i offset raw, cs[i]? = some (.diskWrite offset raw (some ())) ∧
        durable (calls earlier ++ cs) ((calls earlier).length + i)) ∧
    (∀ earlier head used negotiated cs later,
      history = earlier ++ .completed head used (some Block.T_FLUSH) (some Block.S_OK) negotiated cs::later →
      Saved durable earlier cs) ∧
    (∀ earlier cs later, history = earlier ++ .reset cs::later → Saved durable earlier cs) ∧
    (∀ result fault cleaned u, l.pass = .ended (result.mapError .error) →
      cleanup.run (s.leave l.runtime) = (.ok (fault,cleaned),u) → outcome result fault cleaned = .ok () →
      ∃ m w slot, l.runtime.devices[k]? = some m ∧ Mmio.flush.run ⟨m,w,[]⟩ = (.ok (),slot) ∧
        u.devices[k]? = some slot.mmio ∧ Saved durable history slot.trace) := by
  intro history
  obtain ⟨calls',log,visits,linked⟩ := Runtime.follows_history (Runtime.follows_bound.reached reached)
  have whole : l.runtime.log = calls' := log.trans (List.nil_append _)
  obtain ⟨m',found',chain⟩ := linked k m found
  rw [← whole] at visits chain
  obtain ⟨answers,d',disk'⟩ := linked_journaled lawful
    (fun v member => visits v (Runtime.mem_visitsTo member).1) chain disk
  have sound : ∀ e ∈ history, e.Sound := journalOf_sound stores k l.runtime.log
  refine ⟨answers,?_,?_,?_,?_⟩
  · intro earlier head used negotiated cs later split unnegotiated
    obtain ⟨offset,raw,written⟩ := out_written sound split
    rw [if_pos unnegotiated] at written
    refine ⟨0,offset,raw,by rw [written]; rfl,?_⟩
    have flushed := durability.flushed (calls earlier ++ [.diskWrite offset raw (some ())]) ((calls earlier).length + 0)
      (by rw [List.length_append]; exact Nat.lt_succ_self _)
    rw [List.append_assoc] at flushed
    rw [written]
    exact flushed
  · intro earlier head used negotiated cs later split
    have flushed := ((sound _ (split ▸ List.mem_append_right _ List.mem_cons_self)) rfl).2 rfl
    rw [flushed]
    exact flush_saves durability (fun e member => sound e (split ▸ List.mem_append_left _ member))
  · intro earlier cs later split
    have flushed : cs = [.diskFlush (some ())] := sound (.reset cs) (split ▸ List.mem_append_right _ List.mem_cons_self)
    rw [flushed]
    exact flush_saves durability (fun e member => sound e (split ▸ List.mem_append_left _ member))
  · intro result fault cleaned u ended cleans good
    have unbuilt := new_unbuilt made
    have recorded := (Ended.looped brought created reached ended).recorded unbuilt.mapped unbuilt.maps
    have all : ∀ r ∈ [result,fault,cleaned], r = .ok () := firstOf_ok.mp (by
      rw [← good,outcome,firstError_assoc,firstOf,firstOf,firstOf_singleton])
    obtain ⟨w,slot,flushed,left⟩ := cleanup_flushes (s := s.leave l.runtime) recorded cleans (all fault (by simp))
      (all cleaned (by simp)) found'
    refine ⟨m',w,slot,found',flushed,left,?_⟩
    rw [flush_trace disk' flushed]
    exact flush_saves durability sound

end Owned

namespace Reference
open Owned

/-- A backend that keeps what it was given until the next flush. -/
def untilFlush (calls : List Action) (i : Nat) : Prop := ∃ j, i < j ∧ calls[j]? = some (.diskFlush (some ()))

theorem untilFlush_durability : Durability untilFlush where
  flushed calls i inside := ⟨calls.length,inside,List.getElem?_concat_length⟩
  lasts calls more i := by
    rintro ⟨j,later,found⟩
    refine ⟨j,later,?_⟩
    rw [List.getElem?_append_left (List.getElem?_eq_some_iff.mp found).1]
    exact found

def publish (host : Host) : Host :=
  let table := descriptorBytes 0x80000400 16 1 1 ++ descriptorBytes 0x80000500 512 1 2 ++
    descriptorBytes 0x80000800 1 2 0 ++ descriptorBytes 0x80000410 16 1 4 ++ descriptorBytes 0x80000801 1 2 0
  fun p =>
    if 0x100 ≤ p ∧ p < 0x100 + table.length then table.getD (p - 0x100) 0
    else if p = 0x202 then 2
    else if p = 0x206 then 3
    else if p = 0x400 then 1
    else if p = 0x410 then 4
    else if 0x500 ≤ p ∧ p < 0x700 then 42
    else if p = 0x800 ∨ p = 0x801 then 255
    else host p

def publishing : Env := {Reference.env with guest := fun moment host => if moment = 0 then publish host else host}

def builtDisk : Except (Failure Error) (Owned Board Disk Wire) :=
  Owned.new publishing ⟨2,1,false⟩ twoRanges spareWorld [("disk",⟨List.replicate 512 0,false⟩)] none (some spare)

def diskWrite (offset value : Nat) : Event Nat := .io ⟨.mmio,0x1000 + offset,4,true,value,0⟩

def bootDisk : Startup Board := {boot with create := .ok ⟨⟨⟨[],0⟩,false⟩,
  [diskWrite 0x70 3,diskWrite 0x20 0x200,diskWrite 0x24 1,diskWrite 0x20 1,diskWrite 0x70 0xb,diskWrite 0x38 8,
    diskWrite 0x80 0x80000100,diskWrite 0x90 0x80000200,diskWrite 0xa0 0x80000300,diskWrite 0x44 1,diskWrite 0x70 0xf,
    diskWrite 0x50 0,diskWrite 0x70 0,.shutdown]⟩}

def diskPasses : List RunLoop.Label :=
  .guest::(List.replicate 13 ([.look false,.next none] ++ List.replicate 9 .call)).flatten ++ shutdownPass

/-- The sector is written, and the guest reads that it was. -/
def sectorWritten : Entry := .completed 0 1 (some Block.T_OUT) (some Block.S_OK) (1 <<< 32 ||| Block.F_FLUSH)
  [.diskWrite 0 (List.replicate 512 42) (some ())]

def sectorFlushed : Entry := .completed 3 1 (some Block.T_FLUSH) (some Block.S_OK) (1 <<< 32 ||| Block.F_FLUSH)
  [.diskFlush (some ())]

def diskRun : Option (Owned Board Disk Wire × Owned Board Disk Wire × Board × RunLoop Board Nat Disk Wire Port) :=
  match builtDisk with
  | .error _ => none
  | .ok first => match (Owned.init publishing bootDisk).run first with
    | (.error _,_) => none
    | (.ok (),s) => s.vm.bind (fun vm =>
      (run (RunLoop.next publishing) diskPasses ⟨s.enter vm ⟨[]⟩,false,.head⟩).map (fun l => (first,s,vm,l)))

theorem diskRun_steps {first s : Owned Board Disk Wire} {vm : Board} {l : RunLoop Board Nat Disk Wire Port}
    (ran : diskRun = some (first,s,vm,l)) :
    builtDisk = .ok first ∧ (Owned.init publishing bootDisk).run first = (.ok (),s) ∧ s.vm = some vm ∧
      run (RunLoop.next publishing) diskPasses ⟨s.enter vm ⟨[]⟩,false,.head⟩ = some l := by
  unfold diskRun at ran
  split at ran
  · cases ran
  · rename_i first' made
    split at ran
    · cases ran
    · rename_i s' brought
      obtain ⟨vm',created,ran⟩ := Option.bind_eq_some_iff.mp ran
      obtain ⟨l',looped,same⟩ := Option.map_eq_some_iff.mp ran
      cases same
      exact ⟨made,brought,created,looped⟩

/-- The run ends well, its first device is a disk, and the cleanup finds no error. -/
def diskEnds (s : Owned Board Disk Wire) (l : RunLoop Board Nat Disk Wire Port) : Bool :=
  (match s.devices[0]? with
    | some m => match m.device with
      | .block _ => true
      | _ => false
    | none => false) &&
  (match l.pass with
    | .ended (.ok ()) => true
    | _ => false) &&
  match (Owned.cleanup.run (s.leave l.runtime)).1 with
  | .ok (.ok (),.ok ()) => true
  | _ => false

theorem diskEnds_iff {s : Owned Board Disk Wire} {l : RunLoop Board Nat Disk Wire Port} :
    diskEnds s l = true ↔ (∃ m d, s.devices[0]? = some m ∧ m.device = .block d) ∧ l.pass = .ended (.ok ()) ∧
      (Owned.cleanup.run (s.leave l.runtime)).1 = .ok (.ok (),.ok ()) := by
  unfold diskEnds
  simp only [Bool.and_eq_true,and_assoc]
  refine and_congr ?_ (and_congr ?_ ?_)
  · rcases s.devices[0]? with _ | ⟨device,_⟩
    · simp
    · cases device <;> simp
  · rcases l.pass with _ | _ | _ | _ | _ | _ | _ | _ | _ | (_ | _) <;> simp
  · rcases (Owned.cleanup.run (s.leave l.runtime)).1 with _ | ⟨_ | _,_ | _⟩ <;> simp

/-- The disk is flushed for its guest, by the reset and again by the cleanup. -/
theorem writes_become_durable_flushed :
    ∃ first s vm l, builtDisk = .ok first ∧ (Owned.init publishing bootDisk).run first = (.ok (),s) ∧ s.vm = some vm ∧
      run (RunLoop.next publishing) diskPasses ⟨s.enter vm (⟨[]⟩ : Port),false,.head⟩ = some l ∧
      journalOf publishing 0 l.runtime.log = [sectorWritten,sectorFlushed,.reset [.diskFlush (some ())]] ∧
      Saved untilFlush [sectorWritten] [.diskFlush (some ())] ∧
      ∃ slot : Slot (Device Disk Wire), (Owned.cleanup.run (s.leave l.runtime)).2.devices[0]? = some slot.mmio ∧
        Saved untilFlush [sectorWritten,sectorFlushed,.reset [.diskFlush (some ())]] slot.trace := by
  have checked : diskRun.any (fun x => decide (journalOf publishing 0 x.2.2.2.runtime.log =
      [sectorWritten,sectorFlushed,.reset [.diskFlush (some ())]]) && diskEnds x.2.1 x.2.2.2) = true := by decide +kernel
  obtain ⟨⟨first,s,vm,l⟩,ran,checks⟩ := (Option.any_eq_true _ _).mp checked
  obtain ⟨journaled,ends⟩ := Bool.and_eq_true_iff.mp checks
  obtain ⟨made,brought,created,looped⟩ := diskRun_steps ran
  obtain ⟨⟨m,d,found,disk⟩,concluded,cleaned⟩ := diskEnds_iff.mp ends
  have lawful : publishing.vq.Lawful := env_vq_lawful
  have stores : publishing.vm.Stores := vmMemory_stores
  obtain ⟨_,_,flushes,_,saves⟩ := Owned.writes_become_durable lawful stores
    untilFlush_durability made brought created (reaches_of_run diskPasses looped) found disk
  obtain ⟨_,_,slot,_,_,left,saved⟩ := saves (.ok ()) (.ok ()) (.ok ()) _ concluded (Prod.ext cleaned rfl) rfl
  rw [of_decide_eq_true journaled] at flushes saved
  exact ⟨first,s,vm,l,made,brought,created,looped,of_decide_eq_true journaled,
    flushes [sectorWritten] _ _ _ _ _ rfl,slot,left,saved⟩

end Reference
end WVmm
