import WVmm.Runtime.Loop
import WVmm.Runtime.Isolation
import WVmm.Runtime.Reference
import WVmm.Runtime.Visits
import WVmm.Lib.Outcomes

/-! Interrupt lines. Three places of the run loop set them; together they make every
line right whenever the vCPU resumes. -/
namespace WVmm
open Lib.Effect Lib.Runs Devices Platform

namespace Runtime

variable {V C B N U : Type} {env : Env}

def drive (irq : Nat) (level : Option Bool) : Call C B N → Option Bool
  | .setIrq line value => if line = irq then some value else level
  | _ => level

/-- The level last passed to `set_irq` for a line. -/
def lineLevel (irq : Nat) (log : List (Call C B N)) : Option Bool := log.foldl (drive irq) none

structure DistinctLines (layout : MachineLayout) : Prop where
  uart : ∀ region ∈ layout.virtio, region.irq ≠ layout.uart.irq
  virtio : (layout.virtio.map IoRegion.irq).Nodup

def UartLine [Uart U] (s : Runtime V C B N U) : Prop :=
  lineLevel s.layout.uart.irq s.log = some (uartLevel s.serial)

def DeviceLine (s : Runtime V C B N U) (k : Nat) : Prop :=
  ∀ d region, s.devices[k]? = some d → s.layout.virtio[k]? = some region →
    lineLevel region.irq s.log = some d.interruptPending

structure LinesCurrent [Uart U] (s : Runtime V C B N U) : Prop where
  uart : s.UartLine
  devices : ∀ k, s.DeviceLine k

/-- Calls that neither set a line nor let the vCPU go on. -/
def Call.silent : Call C B N → Bool
  | .setIrq _ _ | .completeIo _ _ => false
  | _ => true

/-- Calls that do not let the vCPU go on. -/
def Call.holds : Call C B N → Bool
  | .completeIo _ _ => false
  | _ => true

structure Logs (kind : Call C B N → Bool) (s t : Runtime V C B N U) : Prop where
  layout : t.layout = s.layout
  count : t.devices.length = s.devices.length
  log : ∃ calls, t.log = s.log ++ calls ∧ ∀ call ∈ calls, kind call = true

instance (kind : Call C B N → Bool) : IsPreorder (Runtime V C B N U) (Logs kind) where
  refl _ := ⟨rfl,rfl,[],(List.append_nil _).symm,by simp⟩
  trans s t u := by
    rintro ⟨layout,count,calls,log,all⟩ ⟨layout',count',calls',log',all'⟩
    refine ⟨layout'.trans layout,count'.trans count,calls ++ calls',by rw [log',log,List.append_assoc],?_⟩
    intro call member
    exact (List.mem_append.mp member).elim (all call) (all' call)

structure Spares (s t : Runtime V C B N U) : Prop where
  logs : Logs Call.silent s t
  serial : t.serial = s.serial

instance : IsPreorder (Runtime V C B N U) Spares where
  refl s := ⟨refl_of (Logs Call.silent) s,rfl⟩
  trans _ _ _ first second := ⟨trans_of (Logs Call.silent) first.logs second.logs,second.serial.trans first.serial⟩

theorem lineLevel_append (irq : Nat) (log : List (Call C B N)) {calls : List (Call C B N)}
    (silent : ∀ call ∈ calls, Call.silent call = true) : lineLevel irq (log ++ calls) = lineLevel irq log := by
  rw [lineLevel,List.foldl_append,← lineLevel]
  generalize lineLevel irq log = level
  induction calls with
  | nil => rfl
  | cons call rest ih =>
    have kept : drive irq level call = level := by
      have first := silent call List.mem_cons_self
      cases call with
      | setIrq _ _ => cases first
      | _ => rfl
    rw [List.foldl_cons,kept]
    exact ih (fun other later => silent other (List.mem_cons_of_mem _ later))

theorem lineLevel_set (irq line : Nat) (level : Bool) (log : List (Call C B N)) :
    lineLevel irq (log ++ [.setIrq line level]) = if line = irq then some level else lineLevel irq log := by
  rw [lineLevel,List.foldl_append]
  rfl

theorem Logs.level {s t : Runtime V C B N U} (logs : Logs Call.silent s t) (irq : Nat) :
    lineLevel irq t.log = lineLevel irq s.log := by
  obtain ⟨calls,log,silent⟩ := logs.log
  rw [log,lineLevel_append irq s.log silent]

theorem Spares.uartLine [Uart U] {s t : Runtime V C B N U} (spares : Spares s t) (right : s.UartLine) : t.UartLine := by
  rw [UartLine,spares.logs.layout,spares.logs.level,spares.serial]
  exact right

theorem Logs.deviceLine {s t : Runtime V C B N U} {k : Nat} (logs : Logs Call.silent s t)
    (devices : t.devices[k]? = s.devices[k]?) (right : s.DeviceLine k) : t.DeviceLine k := by
  intro d region present placed
  rw [logs.level]
  exact right d region (devices ▸ present) (logs.layout ▸ placed)

theorem Logs.weaken {s t : Runtime V C B N U} (logs : Logs Call.silent s t) : Logs Call.holds s t := by
  obtain ⟨layout,count,calls,log,silent⟩ := logs
  refine ⟨layout,count,calls,log,fun call member => ?_⟩
  have quiet := silent call member
  cases call with
  | completeIo _ _ => cases quiet
  | _ => rfl

theorem device_spares (k : Nat) : Always Spares (device k : Prog (Runtime V C B N U) (Failure Error) _) := by
  refine .still (fun s => ?_)
  rw [device_run]
  cases s.devices[k]? <;> rfl

/-- The value of an access to the UART may change its level, and no line. -/
theorem uartValue_logs [Uart U] (offset : Nat) (a : IoAccess C) (s : Runtime V C B N U) :
    Logs Call.silent s ((uartValue offset a).run s).2 ∧ ((uartValue offset a).run s).2.devices = s.devices := by
  unfold uartValue
  split
  · split
    · simp only [uartWrite,Prog.run_bind,Prog.run_get,Prog.run_modify,record,Prog.run_ofExcept]
      rcases (Uart.write s.serial offset (UInt8.ofNat a.value)).1 with e | _ <;>
        exact ⟨⟨rfl,rfl,[.uartWrite _ _],rfl,by simp [Call.silent]⟩,rfl⟩
    · exact ⟨⟨rfl,rfl,[.uartRead _],rfl,by simp [Call.silent]⟩,rfl⟩
  · exact ⟨refl_of (Logs Call.silent) s,rfl⟩

theorem uartValue_level [Uart U] (layout : MachineLayout) (offset : Nat) (a : IoAccess C) :
    Upon (fun s : Runtime V C B N U => s.LinesCurrent ∧ s.layout = layout) (uartValue offset a)
      (fun _ s => (∀ k, s.DeviceLine k) ∧ s.layout = layout) := by
  intro s value t here ran
  have logs := uartValue_logs offset a s
  rw [ran] at logs
  exact ⟨fun k => logs.1.deviceLine (by rw [logs.2]) (here.1.devices k),logs.1.layout.trans here.2⟩

structure LineDue [Uart U] (layout : MachineLayout) (irq : Nat) (level : Bool) (s : Runtime V C B N U) : Prop where
  layout : s.layout = layout
  uart : s.layout.uart.irq = irq ∧ uartLevel s.serial = level ∨ s.layout.uart.irq ≠ irq ∧ s.UartLine
  devices : ∀ (k : Nat) (d : Mmio (Device B N)) (region : IoRegion), s.devices[k]? = some d →
    s.layout.virtio[k]? = some region →
    region.irq = irq ∧ d.interruptPending = level ∨ region.irq ≠ irq ∧ lineLevel region.irq s.log = some d.interruptPending

theorem uartAccess_due [Uart U] (layout : MachineLayout) (distinct : DistinctLines layout) (a : IoAccess C) :
    Upon (fun s : Runtime V C B N U => s.LinesCurrent ∧ s.layout = layout) (uartAccess layout.uart a)
      (fun r s => LineDue layout r.2.1 r.2.2 s) := by
  refine .bind (uartValue_level layout _ a) (fun value => .get (fun s here => ?_))
  refine .pure ?_
  rintro _ rfl
  obtain ⟨lines,placed⟩ := here
  refine ⟨placed,.inl ⟨by rw [placed],rfl⟩,?_⟩
  intro k d region present found
  have other := distinct.uart region (placed ▸ List.mem_of_getElem? found)
  exact .inr ⟨other,lines k d region present found⟩

theorem seen_still (strict : Bool) (a : IoAccess C) (decoded : Option Nat) (s : Runtime V C B N U) :
    ((seen strict a decoded).run s).2 = s := by
  unfold seen
  split
  · rfl
  · split
    · rfl
    · split
      · rfl
      · split <;> rfl

section Machine
variable [VirtualMachine V C]

theorem setIrq_after (irq : Nat) (level : Bool) (s : Runtime V C B N U) :
    ((setIrq irq level).run s).2 = {s with
      vm := (VirtualMachine.setIrq s.vm irq level).2
      log := s.log ++ [.setIrq irq level]} := rfl

theorem setIrq_holds (irq : Nat) (level : Bool) :
    Always (Logs Call.holds) (setIrq irq level : Prog (Runtime V C B N U) (Failure Error) Unit) :=
  fun _ => ⟨rfl,rfl,[.setIrq irq level],rfl,by simp [Call.holds]⟩

theorem pause_spares : Always Spares (pause : Prog (Runtime V C B N U) (Failure Error) PauseOutcome) := by
  intro s
  simp only [pause,Prog.run_bind,Prog.run_get,Prog.run_modify,record,platform,Prog.run_ofExcept]
  rcases (VirtualMachine.pause s.vm).1 with e | _ | _ <;>
    exact ⟨⟨rfl,rfl,[.pause],rfl,by simp [Call.silent]⟩,rfl⟩

theorem resume_spares : Always Spares (resume : Prog (Runtime V C B N U) (Failure Error) Unit) := by
  intro s
  simp only [resume,Prog.run_bind,Prog.run_get,Prog.run_modify,record,platform,Prog.run_ofExcept]
  rcases (VirtualMachine.resume s.vm).1 with e | _ <;>
    exact ⟨⟨rfl,rfl,[.resume],rfl,by simp [Call.silent]⟩,rfl⟩

theorem zip_snd_sublist {α β : Type} (xs : List α) (ys : List β) : ((xs.zip ys).map Prod.snd).Sublist ys := by
  induction xs generalizing ys with
  | nil => exact List.nil_sublist _
  | cons x xs ih =>
    cases ys with
    | nil => exact .slnil
    | cons y ys => exact (ih ys).cons_cons y

/-- Setting a line from where it has to be set. -/
theorem setLines_level {lines : List (Mmio (Device B N) × IoRegion)} (distinct : (lines.map (·.2.irq)).Nodup)
    {s t : Runtime V C B N U} (ran : (setLines lines).run s = (.ok (),t)) :
    t.layout = s.layout ∧ t.serial = s.serial ∧ t.devices = s.devices ∧
      (∀ line ∈ lines, lineLevel line.2.irq t.log = some line.1.interruptPending) ∧
      ∀ irq ∉ lines.map (·.2.irq), lineLevel irq t.log = lineLevel irq s.log := by
  induction lines generalizing s with
  | nil =>
    cases ran
    exact ⟨rfl,rfl,rfl,nofun,fun _ _ => rfl⟩
  | cons line rest ih =>
    obtain ⟨alone,distinct⟩ := List.nodup_cons.mp distinct
    obtain ⟨⟨⟩,u,set,later⟩ := Prog.bind_success ran
    have whole := setIrq_after line.2.irq line.1.interruptPending s
    rw [set] at whole
    obtain ⟨layout,serial,devices,levels,others⟩ := ih distinct later
    change u = _ at whole
    subst whole
    refine ⟨layout,serial,devices,?_,?_⟩
    · intro other member
      rcases List.mem_cons.mp member with rfl | inside
      · rw [others _ alone,lineLevel_set,if_pos rfl]
      · exact levels other inside
    · intro irq outside
      rw [List.map_cons,List.mem_cons,not_or] at outside
      rw [others irq outside.2,lineLevel_set,if_neg (fun same => outside.1 same.symm)]

theorem setLines_holds (lines : List (Mmio (Device B N) × IoRegion)) :
    Always (Logs Call.holds) (setLines lines : Prog (Runtime V C B N U) (Failure Error) Unit) := by
  induction lines with
  | nil => exact .pure _
  | cons line rest ih => exact .bind (setIrq_holds _ _) (fun _ => ih)

section Uart
variable [Uart U]

/-- After a pass over all lines every line is right, if that of the UART was. -/
theorem setLines_current {s t : Runtime V C B N U} (distinct : DistinctLines s.layout) (right : s.UartLine)
    (ran : (setLines (s.devices.zip s.layout.virtio)).run s = (.ok (),t)) : t.LinesCurrent ∧ t.layout = s.layout := by
  have irqs : (s.devices.zip s.layout.virtio).map (·.2.irq) =
      ((s.devices.zip s.layout.virtio).map Prod.snd).map IoRegion.irq := by
    rw [List.map_map]
    rfl
  have part := zip_snd_sublist s.devices s.layout.virtio
  have nodup : ((s.devices.zip s.layout.virtio).map (·.2.irq)).Nodup := by
    rw [irqs]
    exact distinct.virtio.sublist (part.map _)
  obtain ⟨layout,serial,devices,levels,others⟩ := setLines_level nodup ran
  refine ⟨⟨?_,?_⟩,layout⟩
  · rw [UartLine,layout,serial,others]
    · exact right
    · rw [irqs]
      intro member
      obtain ⟨region,inside,same⟩ := List.mem_map.mp member
      exact distinct.uart region (part.subset inside) same
  · intro k d region present placed
    rw [devices] at present
    rw [layout] at placed
    have line : (d,region) ∈ s.devices.zip s.layout.virtio := by
      have both : (s.devices.zip s.layout.virtio)[k]? = some (d,region) :=
        List.getElem?_zip_eq_some.mpr ⟨present,placed⟩
      exact List.mem_of_getElem? both
    exact levels (d,region) line

theorem LineDue.set {layout : MachineLayout} {irq : Nat} {level : Bool} {s : Runtime V C B N U}
    (due : LineDue layout irq level s) : ((setIrq irq level).run s).2.LinesCurrent := by
  rw [setIrq_after]
  refine ⟨?_,?_⟩
  · change lineLevel _ (_ ++ [_]) = _
    rw [lineLevel_set]
    rcases due.uart with ⟨here,value⟩ | ⟨other,right⟩
    · rw [if_pos here.symm]
      exact congrArg some value.symm
    · rw [if_neg (fun same => other same.symm)]
      exact right
  · intro k d region present placed
    change lineLevel _ (_ ++ [_]) = _
    rw [lineLevel_set]
    rcases due.devices k d region present placed with ⟨here,value⟩ | ⟨other,right⟩
    · rw [if_pos here.symm,value]
    · rw [if_neg (fun same => other same.symm)]
      exact right

end Uart

variable [BlockStorage B] [NetDevice N]

/-- A visit changes no other device. -/
theorem visit_after (k : Nat) (op : Operation) (s : Runtime V C B N U) :
    Spares s ((visit env k op).run s).2 ∧
      ∀ j ≠ k, ((visit env k op).run s).2.devices[j]? = s.devices[j]? := by
  simp only [visit,Prog.run_mk]
  cases found : s.devices[k]? with
  | none => exact ⟨refl_of Spares s,fun _ _ => rfl⟩
  | some m =>
    exact ⟨⟨⟨rfl,List.length_set,[.visit _],rfl,by simp [Call.silent]⟩,rfl⟩,fun j other => List.getElem?_set_ne other.symm⟩

theorem visit_spares (k : Nat) (op : Operation) :
    Always Spares (visit env k op : Prog (Runtime V C B N U) (Failure Error) op.Reply) :=
  fun s => (visit_after k op s).1

theorem pinDevices_spares (ks : List Nat) :
    Always Spares (pinDevices env ks : Prog (Runtime V C B N U) (Failure Error) _) := by
  induction ks with
  | nil => exact .pure _
  | cons k rest ih =>
    have pin : Always Spares (pinDevice env k : Prog (Runtime V C B N U) (Failure Error) _) := by
      refine .bind (device_spares k) (fun d => ?_)
      split
      · exact .pure _
      · exact .bind (visit_spares k _) (fun _ => .pure _)
    exact .bind pin (fun _ => .bind ih (fun _ => .pure _))

theorem processLast_spares (last : Nat) (pinned : List (Nat × Nat)) :
    Always Spares (processLast env last pinned : Prog (Runtime V C B N U) (Failure Error) Unit) := by
  refine .bind (device_spares last) (fun d => ?_)
  split
  · exact .pure _
  · exact visit_spares last _

theorem transact_spares (count last : Nat) :
    Always Spares (transact env count last : Prog (Runtime V C B N U) (Failure Error) ControlFlow) := by
  refine .bind (visit_spares last _) (fun available => ?_)
  split
  · exact .pure _
  refine .bind pause_spares (fun outcome => ?_)
  split
  · exact .pure _
  exact .bind (pinDevices_spares _) (fun pinned => .bind (processLast_spares last pinned) (fun _ =>
    .bind resume_spares (fun _ => .pure _)))

/-- A memory transaction sets no line, also when it isolates devices. -/
theorem processMemory_spares :
    Always Spares (processMemory env : Prog (Runtime V C B N U) (Failure Error) ControlFlow) := by
  refine .bind .get (fun s => ?_)
  split
  · exact .pure _
  refine .bind (device_spares _) (fun d => .bind (visit_spares _ _) (fun _ => ?_))
  split
  · exact .pure _
  · exact transact_spares _ _

section Access
variable [Uart U]

/-- The value of an access, where all lines but that of its device stay right. -/
theorem virtioValue_level (layout : MachineLayout) (k : Nat) (region : IoRegion) (a : IoAccess C)
    (d : Mmio (Device B N)) :
    Upon (fun s : Runtime V C B N U => s.LinesCurrent ∧ s.layout = layout) (virtioValue env k region a d)
      (fun _ s => s.UartLine ∧ (∀ j ≠ k, s.DeviceLine j) ∧ s.layout = layout) := by
  have still : ∀ value : Option Nat, Upon (fun s : Runtime V C B N U => s.LinesCurrent ∧ s.layout = layout)
      (pure value : Prog (Runtime V C B N U) (Failure Error) _) (fun _ s => s.UartLine ∧ (∀ j ≠ k, s.DeviceLine j) ∧ s.layout = layout) :=
    fun value => .pure (fun s here => ⟨here.1.uart,fun j _ => here.1.devices j,here.2⟩)
  unfold virtioValue
  dsimp only
  split
  · exact still _
  split
  · exact still _
  split
  · refine .bind ?_ (fun _ => .pure (fun _ here => here))
    intro s _ t here ran
    obtain ⟨spares,others⟩ := @visit_after V C B N U env _ _ _ k _ s
    rw [ran] at spares others
    exact ⟨spares.uartLine here.1.uart,fun j other => spares.logs.deviceLine (others j other) (here.1.devices j),
      spares.logs.layout.trans here.2⟩
  · exact still _

theorem virtioAccess_due (layout : MachineLayout) (distinct : DistinctLines layout) {k : Nat} {region : IoRegion}
    (placed : layout.virtio[k]? = some region) (a : IoAccess C) :
    Upon (fun s : Runtime V C B N U => s.LinesCurrent ∧ s.layout = layout) (virtioAccess env k region a)
      (fun r s => LineDue layout r.2.1 r.2.2 s) := by
  have find : ∀ fact : Runtime V C B N U → Prop, Upon fact (device k) (fun m s => fact s ∧ s.devices[k]? = some m) := by
    intro fact s m t here ran
    rw [device_run] at ran
    split at ran
    · cases ran
      exact ⟨here,‹_›⟩
    · cases ran
  refine .bind ((find _).consequence (fun _ here => here) (fun _ _ here => here.1)) (fun d => ?_)
  refine .bind (virtioValue_level layout k region a d) (fun value => .bind (find _) (fun d => .pure ?_))
  rintro s ⟨⟨uart,others,same⟩,present⟩
  refine ⟨same,.inr ⟨?_,uart⟩,?_⟩
  · rw [same]
    exact fun clash => distinct.uart region (List.mem_of_getElem? placed) clash.symm
  · intro j d' region' present' placed'
    by_cases here : j = k
    · subst here
      rw [same,placed] at placed'
      rw [present] at present'
      cases placed'
      cases present'
      exact .inl ⟨rfl,rfl⟩
    · refine .inr ⟨?_,others j here d' region' present' placed'⟩
      rw [same] at placed'
      intro clash
      obtain ⟨below,_⟩ := List.getElem?_eq_some_iff.mp placed
      refine here ((List.getElem?_inj (by rwa [List.length_map]) distinct.virtio).mp ?_).symm
      rw [List.getElem?_map,List.getElem?_map,placed,placed',Option.map_some,Option.map_some,clash]

theorem access_due (layout : MachineLayout) (distinct : DistinctLines layout) (a : IoAccess C) :
    Upon (fun s : Runtime V C B N U => s.LinesCurrent ∧ s.layout = layout) (access env layout a)
      (fun r s => LineDue layout r.2.1 r.2.2 s) := by
  unfold access
  split
  · exact uartAccess_due layout distinct a
  split
  · split
    · exact virtioAccess_due layout distinct ‹_› a
    · exact .fail _
  · exact .fail _

def answerIo (env : Env) (a : IoAccess C) : Prog (Runtime V C B N U) (Failure Error) Nat := do
  let s ← Prog.get
  let (decoded,irq,level) ← access env s.layout a
  let value ← seen s.strict a decoded
  setIrq irq level
  return value

theorem handleIo_run (a : IoAccess C) (s : Runtime V C B N U) :
    (handleIo env a).run s = match (answerIo env a).run s with
      | (.ok value,t) => (completeIo a.completion value).run t
      | (.error e,t) => (.error e,t) := by
  simp only [handleIo,answerIo,Prog.run_bind,Prog.run_get]
  generalize (access env s.layout a).run s = outcome
  obtain ⟨r,t⟩ := outcome
  cases r with
  | error e => rfl
  | ok decoded =>
    dsimp only
    generalize (seen s.strict a decoded.1 : Prog (Runtime V C B N U) _ _).run t = outcome
    obtain ⟨r,u⟩ := outcome
    cases r with
    | error e => rfl
    | ok value =>
      dsimp only
      generalize (setIrq decoded.2.1 decoded.2.2 : Prog (Runtime V C B N U) _ _).run u = outcome
      obtain ⟨r,w⟩ := outcome
      cases r <;> rfl

/-- When the vCPU is let go on, every line is right. -/
theorem answerIo_current (a : IoAccess C) :
    Upon (fun s : Runtime V C B N U => s.LinesCurrent ∧ DistinctLines s.layout) (answerIo env a)
      (fun _ s => s.LinesCurrent) := by
  intro s value t here ran
  obtain ⟨_,_,⟨⟩,decodes⟩ := Prog.bind_success ran
  obtain ⟨decoded,u,accessed,sees⟩ := Prog.bind_success decodes
  have due := access_due s.layout here.2 a s decoded u ⟨here.1,rfl⟩ accessed
  obtain ⟨value',w,looked,sets⟩ := Prog.bind_success sees
  obtain rfl : w = u := by
    have same := seen_still s.strict a decoded.1 u
    rwa [looked] at same
  obtain ⟨_,x,set,done⟩ := Prog.bind_success sets
  have current := due.set
  rw [set] at current
  cases done
  exact current

theorem access_holds (layout : MachineLayout) (a : IoAccess C) :
    Always (Logs Call.holds) (access env layout a : Prog (Runtime V C B N U) (Failure Error) _) := by
  have looks : ∀ k, Always (Logs Call.holds) (device k : Prog (Runtime V C B N U) (Failure Error) _) :=
    fun k s => (device_spares k s).logs.weaken
  unfold access
  split
  · refine .bind (fun s => (uartValue_logs _ a s).1.weaken) (fun value => .bind .get (fun s => .pure _))
  split
  · split
    · refine .bind (looks _) (fun d => .bind ?_ (fun value => .bind (looks _) (fun d => .pure _)))
      unfold virtioValue
      dsimp only
      split
      · exact .pure _
      split
      · exact .pure _
      split
      · exact .bind (fun s => (visit_spares _ _ s).logs.weaken) (fun _ => .pure _)
      · exact .pure _
    · exact .fail _
  · exact .fail _

theorem answerIo_holds (a : IoAccess C) :
    Always (Logs Call.holds) (answerIo env a : Prog (Runtime V C B N U) (Failure Error) _) := by
  refine .bind .get (fun s => .bind (access_holds _ a) (fun decoded => .bind ?_ (fun value =>
    .bind (setIrq_holds _ _) (fun _ => .pure _))))
  exact .still (seen_still _ _ _)

end Access

end Machine
end Runtime

namespace RunLoop
open WVmm.Runtime

variable {V C B N U : Type} {env : Env}

theorem calls_cases {α : Type} (l : RunLoop V C B N U) (m : Prog (Runtime V C B N U) (Failure Error) α)
    (next : α → Pass C) :
    (∃ a s, m.run l.runtime = (.ok a,s) ∧ l.calls m next = {l with runtime := s, pass := next a}) ∨
      ∃ e s, m.run l.runtime = (.error e,s) ∧ l.calls m next = {l with runtime := s, pass := .ended (.error e)} := by
  unfold calls
  generalize m.run l.runtime = outcome
  obtain ⟨r,s⟩ := outcome
  cases r with
  | ok a => exact .inl ⟨a,s,rfl,rfl⟩
  | error e => exact .inr ⟨e,s,rfl,rfl⟩

def Level [Uart U] (l : RunLoop V C B N U) : Prop :=
  match l.pass with
  | .polling _ | .memory | .irqs => l.runtime.UartLine
  | .events | .accessing _ => l.runtime.LinesCurrent
  | _ => True

structure Wired [Uart U] (l : RunLoop V C B N U) : Prop where
  distinct : DistinctLines l.runtime.layout
  sized : l.runtime.devices.length = l.runtime.layout.virtio.length
  level : l.Level

theorem Wired.moves [Uart U] {l t : RunLoop V C B N U} (wired : l.Wired) (logs : Logs Call.holds l.runtime t.runtime) (level : t.Level) : t.Wired where
  distinct := logs.layout ▸ wired.distinct
  sized := by rw [logs.count,logs.layout,wired.sized]
  level := level

theorem input_logs [SerialIo U] (s : Runtime V C B N U) : Logs Call.silent s (input.run s).2 :=
  ⟨rfl,rfl,[],(List.append_nil _).symm,by simp⟩

theorem pollEvent_spares [Vm V C] : Always Spares (pollEvent : Prog (Runtime V C B N U) (Failure Error) _) :=
  fun _ => ⟨⟨rfl,rfl,[],(List.append_nil _).symm,by simp⟩,rfl⟩

theorem Wired.calls {α : Type} [Uart U] {l : RunLoop V C B N U} (wired : l.Wired) {m : Prog (Runtime V C B N U) (Failure Error) α} {next : α → Pass C}
    (logs : Always (Logs Call.holds) m)
    (level : ∀ a s, m.run l.runtime = (.ok a,s) → Level ⟨s,l.paused,next a⟩) :
    (l.calls m next).Wired ∧ Logs Call.holds l.runtime (l.calls m next).runtime := by
  have moved := logs l.runtime
  rcases calls_cases l m next with ⟨a,s,ran,same⟩ | ⟨e,s,ran,same⟩
  · rw [ran] at moved
    rw [same]
    exact ⟨wired.moves moved (level a s ran),moved⟩
  · rw [ran] at moved
    rw [same]
    exact ⟨wired.moves moved trivial,moved⟩

theorem Wired.serve [Vm V C] [Uart U] {l : RunLoop V C B N U} (wired : l.Wired) (operation : Control.Operation) :
    (l.serve operation).Wired ∧ Logs Call.holds l.runtime (l.serve operation).runtime := by
  have idle : (l.goto .head).Wired ∧ Logs Call.holds l.runtime (l.goto .head).runtime :=
    ⟨wired.moves (refl_of (Logs Call.holds) l.runtime) trivial,refl_of (Logs Call.holds) l.runtime⟩
  cases operation with
  | pause =>
    by_cases held : l.paused = true
    · have same : l.serve .pause = l.goto .head := if_pos held
      rw [same]
      exact idle
    · let called := l.calls Runtime.pause (fun o => if o = .stopping then .ended (.ok ()) else .head)
      have same : l.serve .pause = {called with paused := true} := if_neg held
      have called : called.Wired ∧ Logs Call.holds l.runtime called.runtime :=
        wired.calls (fun s => (pause_spares s).logs.weaken) (fun o s _ => by cases o <;> trivial)
      rw [same]
      exact ⟨⟨called.1.distinct,called.1.sized,called.1.level⟩,called.2⟩
  | resume =>
    by_cases held : l.paused = true
    · let called := l.calls Runtime.resume (fun _ => .head)
      have same : l.serve .resume = {called with paused := false} := if_pos held
      have called : called.Wired ∧ Logs Call.holds l.runtime called.runtime :=
        wired.calls (fun s => (resume_spares s).logs.weaken) (fun _ _ _ => trivial)
      rw [same]
      exact ⟨⟨called.1.distinct,called.1.sized,called.1.level⟩,called.2⟩
    · have same : l.serve .resume = l.goto .head := if_neg held
      rw [same]
      exact idle

section Steps
variable [Vm V C] [BlockStorage B] [NetDevice N] [SerialIo U] {l t : RunLoop V C B N U}

/-- Every step keeps the lines as they have to be. One that does not complete an
access lets no vCPU go on. -/
theorem Wired.call (wired : l.Wired) (running : ∀ a, l.pass ≠ .accessing a) (taken : l.call env = some t) :
    t.Wired ∧ Logs Call.holds l.runtime t.runtime := by
  have level := wired.level
  unfold RunLoop.call at taken
  split at taken
  · cases taken
    exact wired.calls (fun s => (input_logs s).weaken) (fun _ _ _ => trivial)
  · cases taken
    refine wired.calls (setIrq_holds _ _) (fun _ s ran => ?_)
    have whole := setIrq_after l.runtime.layout.uart.irq (uartLevel l.runtime.serial) l.runtime
    rw [ran] at whole
    change s = _ at whole
    subst whole
    change lineLevel _ (_ ++ [_]) = _
    rw [lineLevel_set,if_pos rfl]
  · rename_i slot here
    rw [Level,here] at level
    obtain ⟨_,rfl⟩ | ⟨_,rfl⟩ : (slot < l.runtime.devices.length ∧
        l.calls (visit env slot .poll) (fun _ => .polling (slot + 1)) = t) ∨
          (¬slot < l.runtime.devices.length ∧ l.goto .memory = t) := by
      split at taken
      · exact .inl ⟨‹_›,Option.some.inj taken⟩
      · exact .inr ⟨‹_›,Option.some.inj taken⟩
    · exact wired.calls (fun s => (visit_spares _ _ s).logs.weaken)
        (fun _ _ ran => ((visit_spares slot _).ran ran).uartLine level)
    · exact ⟨wired.moves (refl_of (Logs Call.holds) l.runtime) level,refl_of (Logs Call.holds) l.runtime⟩
  · rename_i here
    rw [Level,here] at level
    cases taken
    refine wired.calls (fun s => (processMemory_spares s).logs.weaken) (fun flow s ran => ?_)
    cases flow with
    | «continue» => exact (processMemory_spares.ran ran).uartLine level
    | «break» => trivial
  · rename_i here
    rw [Level,here] at level
    cases taken
    exact wired.calls (setLines_holds _) (fun _ s ran => (setLines_current wired.distinct level ran).1)
  · rename_i here
    rw [Level,here] at level
    cases taken
    refine wired.calls (fun s => (pollEvent_spares s).logs.weaken) (fun event s ran => ?_)
    match event with
    | none => trivial
    | some .shutdown => trivial
    | some (.io a) =>
      have same : s.devices = l.runtime.devices := by
        have whole := congrArg (fun r => r.2.devices) ran
        exact whole.symm
      have spares := pollEvent_spares.ran ran
      exact ⟨spares.uartLine level.uart,fun k => spares.logs.deviceLine (by rw [same]) (level.devices k)⟩
  · exact absurd ‹_› (running _)
  · cases taken

/-- The state in which a step lets the vCPU go on: all but the completion is done. -/
structure Resumes (l t : RunLoop V C B N U) (c : C) (value : Nat) (s : Runtime V C B N U) : Prop where
  logs : Logs Call.holds l.runtime s
  completed : t.runtime = ((completeIo c value).run s).2
  lines : s.LinesCurrent

/-- An access either ends without a completion, or it lets the vCPU go on when
every line is right. -/
theorem Wired.access (wired : l.Wired) {a : IoAccess C} (here : l.pass = .accessing a)
    (taken : l.call env = some t) :
    t.Wired ∧ (Logs Call.holds l.runtime t.runtime ∨ ∃ value s, l.Resumes t a.completion value s) := by
  have level := wired.level
  rw [Level,here] at level
  simp only [RunLoop.call,here,Option.some.injEq] at taken
  have ended : t.Level := by
    rcases calls_cases l (handleIo env a) (fun _ => .head) with ⟨_,_,_,same⟩ | ⟨_,_,_,same⟩
    · rw [← taken,same]
      trivial
    · rw [← taken,same]
      trivial
  have runtime : t.runtime = ((handleIo env a).run l.runtime).2 := by
    rcases calls_cases l (handleIo env a) (fun _ => .head) with ⟨_,_,ran,same⟩ | ⟨_,_,ran,same⟩
    · rw [← taken,same,ran]
    · rw [← taken,same,ran]
  rw [handleIo_run] at runtime
  have current := @answerIo_current V C B N U env _ _ _ _ a l.runtime
  have moved := @answerIo_holds V C B N U env _ _ _ _ a l.runtime
  generalize (answerIo env a).run l.runtime = outcome at runtime current moved
  obtain ⟨r,s⟩ := outcome
  cases r with
  | error e => exact ⟨wired.moves (runtime ▸ moved) ended,.inl (runtime ▸ moved)⟩
  | ok value =>
    refine ⟨⟨?_,?_,ended⟩,.inr ⟨value,s,moved,runtime,current value s ⟨level,wired.distinct⟩ rfl⟩⟩
    · rw [runtime]
      change DistinctLines s.layout
      rw [moved.layout]
      exact wired.distinct
    · rw [runtime]
      change s.devices.length = s.layout.virtio.length
      rw [moved.count,moved.layout,wired.sized]

omit [BlockStorage B] [NetDevice N] in
theorem Wired.onWorld (wired : l.Wired) (w : World) :
    Wired {l with runtime := {l.runtime with world := w}} ∧
      (Logs Call.holds l.runtime {l.runtime with world := w} ∨ ∃ c value s,
        l.Resumes {l with runtime := {l.runtime with world := w}} c value s) := by
  have logs : Logs Call.holds l.runtime {l.runtime with world := w} :=
    ⟨rfl,rfl,[],(List.append_nil _).symm,by simp⟩
  refine ⟨wired.moves logs ?_,.inl logs⟩
  have level := wired.level
  unfold Level at level ⊢
  dsimp only
  cases here : l.pass with
  | events | accessing a =>
    rw [here] at level
    exact ⟨level.uart,level.devices⟩
  | _ =>
    rw [here] at level
    exact level

/-- Along the loop the lines stay as they have to be, and the vCPU is let go on only
when they are all right. -/
theorem Wired.step (wired : l.Wired) {label : Label} (taken : next env label l = some t) :
    t.Wired ∧ (Logs Call.holds l.runtime t.runtime ∨ ∃ c value s, l.Resumes t c value s) := by
  have still := refl_of (Logs Call.holds) l.runtime
  cases label with
  | look stopping =>
    simp only [RunLoop.next] at taken
    split at taken <;> cases taken
    refine ⟨wired.moves still ?_,.inl still⟩
    cases stopping <;> trivial
  | next request =>
    simp only [RunLoop.next] at taken
    split at taken <;> cases taken
    · obtain ⟨kept,logs⟩ := wired.serve _
      exact ⟨kept,.inl logs⟩
    · refine ⟨wired.moves still ?_,.inl still⟩
      unfold Level RunLoop.goto
      cases l.paused <;> trivial
  | call =>
    by_cases accessing : ∃ a, l.pass = .accessing a
    · obtain ⟨a,here⟩ := accessing
      obtain ⟨kept,logs | ⟨value,s,resumes⟩⟩ := wired.access here taken
      · exact ⟨kept,.inl logs⟩
      · exact ⟨kept,.inr ⟨_,value,s,resumes⟩⟩
    · obtain ⟨kept,logs⟩ := wired.call (fun a here => accessing ⟨a,here⟩) taken
      exact ⟨kept,.inl logs⟩
  | target requested =>
    cases taken
    exact wired.onWorld _
  | guest =>
    cases taken
    exact wired.onWorld _

/-- The vCPU never resumes on a stale line: at every call of `complete_io` in a run of
the loop, the level last passed to `set_irq` for the UART and for each device is its
current level. -/
theorem lines_current_at_completion {first : RunLoop V C B N U} (start : first.pass = .head)
    (distinct : DistinctLines first.runtime.layout)
    (sized : first.runtime.devices.length = first.runtime.layout.virtio.length)
    (reached : Reaches (Takes (next env)) first l) {label : Label} (taken : next env label l = some t)
    {before after : List (Call C B N)} {c : C} {value : Nat}
    (completed : t.runtime.log = l.runtime.log ++ before ++ .completeIo c value::after) :
    ∃ s : Runtime V C B N U, s.log = l.runtime.log ++ before ∧ t.runtime = ((completeIo c value).run s).2 ∧
      lineLevel s.layout.uart.irq s.log = some (uartLevel s.serial) ∧
      ∀ (k : Nat) (d : Mmio (Device B N)), s.devices[k]? = some d →
        ∃ region : IoRegion, s.layout.virtio[k]? = some region ∧
        lineLevel region.irq s.log = some d.interruptPending := by
  have wired : l.Wired := by
    refine reached.invariant ⟨distinct,sized,by unfold Level; rw [start]; trivial⟩ ?_
    intro _ _ _ before taken
    exact (before.step taken).1
  have silent : ∀ s : Runtime V C B N U, Logs Call.holds l.runtime s →
      ∀ before after (c : C) value, s.log ≠ l.runtime.log ++ before ++ .completeIo c value::after := by
    rintro s ⟨_,_,calls,log,all⟩ before after c value same
    rw [log,List.append_assoc] at same
    have member : .completeIo c value ∈ calls := by
      rw [List.append_cancel_left same]
      exact List.mem_append_right _ List.mem_cons_self
    cases all _ member
  rcases (wired.step taken).2 with logs | ⟨c',value',s,resumes⟩
  · exact absurd completed (silent _ logs _ _ _ _)
  · have log : t.runtime.log = s.log ++ [.completeIo c' value'] := by
      rw [resumes.completed]
      rfl
    obtain ⟨layout,count,calls,more,all⟩ := resumes.logs
    rw [log,more,List.append_assoc,List.append_assoc] at completed
    have cut := List.append_cancel_left completed
    rcases List.eq_nil_or_concat after with rfl | ⟨rest,final,rfl⟩
    · obtain ⟨rfl,last⟩ := List.append_inj' cut rfl
      cases last
      refine ⟨s,more,resumes.completed,resumes.lines.uart,fun k d present => ?_⟩
      have below : k < s.layout.virtio.length := by
        rw [layout,← wired.sized,← count]
        exact (List.getElem?_eq_some_iff.mp present).1
      exact ⟨_,List.getElem?_eq_getElem below,resumes.lines.devices k d _ present (List.getElem?_eq_getElem below)⟩
    · rw [List.concat_eq_append,← List.cons_append,← List.append_assoc] at cut
      have member : .completeIo c value ∈ calls := by
        rw [List.append_inj_left' cut rfl]
        exact List.mem_append_right _ List.mem_cons_self
      cases all _ member

end Steps
end RunLoop

namespace Reference

/-- A machine that starts at once and reports what it was given to report. -/
structure Board where
  vm : Vm
  events : List (Event Nat)

def Board.onVm {α : Type} (b : Board) (answer : α × Vm) : α × Board := (answer.1,{b with vm := answer.2})

instance : WVmm.Vm Board Nat where
  map b r := b.onVm (Mapper.map b.vm r)
  unmap b r := b.onVm (Mapper.unmap b.vm r)
  completeIo b c value := b.onVm (VirtualMachine.completeIo b.vm c value)
  setIrq b irq level := b.onVm (VirtualMachine.setIrq b.vm irq level)
  pause b := b.onVm (VirtualMachine.pause b.vm)
  resume b := b.onVm (VirtualMachine.resume b.vm)
  prepare b _ _ := (.ok (),b)
  start b := (.ok (),b)
  pollEvent b := (.ok b.events.head?,{b with events := b.events.tail})
  stop b := (.ok (),b)

/-- Nobody types. -/
instance : SerialIo Port where
  fifoCapacity _ := 64
  recv p _ := (.wouldBlock,p)
  enqueueRawBytes p raw := (.ok raw.length,p)

/-- The machine with the broken disk, about to be notified. -/
def notified : RunLoop Board Nat Disk Wire Port where
  runtime := {
    vm := ⟨⟨⟨[],0⟩,false⟩,[.io ⟨.mmio,0x1050,4,true,0,0⟩]⟩
    layout := Runtime.diskLayout
    devices := [Runtime.brokenDisk]
    hasMemory := false
    strict := false
    serial := ⟨[]⟩
    world := emptyWorld
    log := [] }
  paused := false
  pass := .head

def onePass : List RunLoop.Label := [.look false,.next none] ++ List.replicate 7 .call

/-- The notification isolates the disk, and its line is up before the guest goes on. -/
theorem lines_current_at_completion_notified :
    ∃ l t, run (RunLoop.next env) onePass notified = some l ∧ RunLoop.next env .call l = some t ∧
      ∃ s : Runtime Board Nat Disk Wire Port, t.runtime = ((Runtime.completeIo 0 0).run s).2 ∧
        Runtime.lineLevel 1 s.log = some false ∧ Runtime.lineLevel 2 s.log = some true := by
  obtain ⟨l,t,ran,taken,before,completed,placed,pending⟩ : ∃ l t, run (RunLoop.next env) onePass notified = some l ∧
      RunLoop.next env .call l = some t ∧ ∃ before, t.runtime.log = l.runtime.log ++ before ++ [.completeIo 0 0] ∧
        t.runtime.layout = Runtime.diskLayout ∧ t.runtime.devices.map Mmio.interruptPending = [true] :=
    ⟨_,_,rfl,rfl,[_,_],rfl,rfl,rfl⟩
  obtain ⟨s,log,completes,uart,devices⟩ := RunLoop.lines_current_at_completion rfl
    ⟨by simp [notified,Runtime.diskLayout],by decide⟩ rfl (reaches_of_run onePass ran) taken completed
  have layout : s.layout = Runtime.diskLayout := by
    rw [← placed,completes]
    rfl
  have one : s.devices.map Mmio.interruptPending = [true] := by
    rw [← pending,completes]
    rfl
  rw [layout] at uart devices
  have quiet : uartLevel s.serial = false := by
    change ((1 : UInt8) &&& 1 == 0) = false
    decide
  rw [quiet] at uart
  refine ⟨l,t,ran,taken,s,completes,uart,?_⟩
  obtain ⟨d,none,present,up,_⟩ := List.map_eq_cons_iff.mp one
  obtain ⟨region,found,level⟩ := devices 0 d (by rw [present]; rfl)
  cases found
  rw [up] at level
  exact level

end Reference
end WVmm
