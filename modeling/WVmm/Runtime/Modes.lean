import WVmm.Runtime.Twins
import WVmm.Runtime.Isolation

/-! Strict and lenient machines agree until the first error. -/
namespace WVmm
open Lib.Effect Lib.Simulation Devices Platform

variable {V C B N U : Type} {env : Env}

def modes : Likeness (Device B N) where
  alike := Eq
  counts := Eq
  strict := false

def Devices.Slot.withStrict (strict : Bool) (s : Slot (Device B N)) : Slot (Device B N) :=
  {s with mmio := s.mmio.withStrict strict}

def Visit.withStrict (strict : Bool) (v : Visit B N) : Visit B N :=
  {v with before := v.before.withStrict strict, after := v.after.withStrict strict}

def Call.withStrict (strict : Bool) : Call C B N → Call C B N
  | .visit v => .visit (v.withStrict strict)
  | call => call

/-- The machine in the given mode, with every flag in its history. -/
def Runtime.withStrict (strict : Bool) (s : Runtime V C B N U) : Runtime V C B N U :=
  {s with
    devices := s.devices.map (·.withStrict strict)
    strict := strict
    log := s.log.map (Call.withStrict strict)}

theorem modes_mmio {m m' : Mmio (Device B N)} : Mmio.Twin modes m m' ↔ m' = m.withStrict false := by
  constructor
  · rintro ⟨device,rejected,shape⟩
    rw [shape,← show m.device = m'.device from device,← show m.rejected = m'.rejected from rejected,
      Mmio.withStrict,show (modes : Likeness (Device B N)).strict = false from rfl,Bool.and_false]
  · rintro rfl
    refine ⟨rfl,rfl,?_⟩
    rw [Mmio.withStrict,show (modes : Likeness (Device B N)).strict = false from rfl,Bool.and_false]

theorem modes_slot {s t : Slot (Device B N)} : Slot.Twin modes s t ↔ t = s.withStrict false := by
  constructor
  · rintro ⟨mmio,world,trace⟩
    obtain ⟨m',w',t'⟩ := t
    cases modes_mmio.mp mmio
    cases world
    cases trace
    rfl
  · rintro rfl
    exact ⟨modes_mmio.mpr rfl,rfl,rfl⟩

theorem modes_call {call call' : Call C B N} : Call.Twin modes call call' ↔ call' = call.withStrict false := by
  constructor
  · intro twin
    cases twin with
    | visit twin =>
      rename_i v v'
      obtain ⟨device',operation',before',after'⟩ := v'
      obtain ⟨device,operation,before,after⟩ := twin
      cases device
      cases operation
      cases modes_slot.mp before
      cases modes_slot.mp after
      rfl
    | other plain =>
      cases call with
      | visit v => exact absurd rfl (plain v)
      | _ => rfl
  · rintro rfl
    cases call with
    | visit v => exact .visit ⟨rfl,rfl,modes_slot.mpr rfl,modes_slot.mpr rfl⟩
    | _ => exact .other (fun _ => nofun)

theorem forall₂_map_eq {α β : Type} {r : α → β → Prop} {f : α → β} (same : ∀ x y, r x y ↔ y = f x)
    {xs : List α} {ys : List β} : List.Forall₂ r xs ys ↔ ys = xs.map f := by
  have graph : r = fun x y => f x = y := by
    funext x y
    exact propext ((same x y).trans eq_comm)
  rw [graph,← List.forall₂_map_left_iff (R := Eq),List.forall₂_eq_eq_eq,eq_comm]

theorem modes_runtime {s t : Runtime V C B N U} : Runtime.Twin modes s t ↔ t = s.withStrict false := by
  have mode : (s.strict && (modes : Likeness (Device B N)).strict) = false := Bool.and_false _
  constructor
  · rintro ⟨devices,log,shape⟩
    rw [shape,(forall₂_map_eq (fun _ _ => modes_mmio)).mp devices,
      (forall₂_map_eq (fun _ _ => modes_call)).mp log,mode]
    rfl
  · rintro rfl
    refine ⟨(forall₂_map_eq (fun _ _ => modes_mmio)).mpr rfl,(forall₂_map_eq (fun _ _ => modes_call)).mpr rfl,?_⟩
    rw [mode]
    rfl

theorem modes_cell {c c' : Cell (Device B N)} (twin : Cell.Twin modes c c') : c' = c := by
  obtain ⟨device,queues,world,trace⟩ := c'
  cases show c.device = device from twin.device
  cases show queues = c.queues from twin.queues
  cases show world = c.world from twin.world
  cases show trace = c.trace from twin.trace
  rfl

theorem modes_lawful [BlockStorage B] [NetDevice N] : (modes : Likeness (Device B N)).LawfulKinds env where
  required := by rintro _ _ ⟨⟩; rfl
  generation := by rintro _ _ ⟨⟩; rfl
  deviceId := by rintro _ _ ⟨⟩; rfl
  readConfig := by rintro _ _ ⟨⟩; rfl
  reset := .same_program (fun _ _ => modes_cell) (fun _ => ⟨rfl,rfl,rfl,rfl⟩) _
  notify _ := .same_program (fun _ _ => modes_cell) (fun _ => ⟨rfl,rfl,rfl,rfl⟩) _
  poll := .same_program (fun _ _ => modes_cell) (fun _ => ⟨rfl,rfl,rfl,rfl⟩) _
  counted := by rintro _ _ ⟨⟩; rfl
  memory _ := rfl
  onlyMemory _ _ same := same.symm
  otherKind _ _ same := same

/-- Errors that only a strict machine reports: a guest error of a device, and an
access in a device window that decodes to no register. -/
def StrictOnly (f : Failure Error) : Prop :=
  (∃ e : DeviceError, f = .error (.device e) ∧ e.isGuest = true) ∨
    ∃ address width write, f = .error (.runtime (.invalidAccess address width write))

namespace Runtime

theorem withStrict_lenient (strict : Bool) (s : Runtime V C B N U) :
    (s.withStrict strict).withStrict false = s.withStrict false := by
  have call : Call.withStrict (C := C) (B := B) (N := N) false ∘ Call.withStrict strict =
      Call.withStrict false := by
    funext call
    cases call <;> rfl
  simp only [withStrict,List.map_map,call]
  rfl

variable [VirtualMachine V C] [BlockStorage B] [NetDevice N] [Uart U]

/-- As long as the strict machine has reported no error, the lenient one has
reported none and is in the same state but for the flags; an error of the strict
one that is not its own is then the lenient one's as well. -/
theorem strict_lenient_agree (env : Env) (s t : Runtime V C B N U) (labels : List (Label C))
    (ran : (steps env labels).run (s.withStrict true) = (.ok (),t)) :
    (steps env labels).run (s.withStrict false) = (.ok (),t.withStrict false) ∧
      ∀ label f u, (step env label).run t = (.error f,u) → ¬StrictOnly f →
        (step env label).run (t.withStrict false) = (.error f,u.withStrict false) := by
  constructor
  · have matched := steps_simulates (modes_lawful : modes.LawfulKinds env) labels (s.withStrict true)
      (s.withStrict false) (modes_runtime.mpr (withStrict_lenient true s).symm)
    rw [ran] at matched
    generalize (steps env labels).run (s.withStrict false) = outcome at matched ⊢
    cases matched with
    | returned _ twin => rw [modes_runtime.mp twin]
  · intro label f u failed shared
    have matched := step_simulates (modes_lawful : modes.LawfulKinds env) label t (t.withStrict false)
      (modes_runtime.mpr rfl)
    rw [failed] at matched
    generalize (step env label).run (t.withStrict false) = outcome at matched ⊢
    cases matched with
    | excused allowed => exact absurd allowed.2 shared
    | failed twin => rw [modes_runtime.mp twin]

/-- Both machines select a feature word and poll the disk; then an access outside
of every window fails in both. -/
theorem strict_lenient_agree_on_stray_access :
    ∃ t, (steps Reference.env [.io ⟨.mmio,0x1014,4,true,1,0⟩,.poll 0]).run
        (brokenMachine.withStrict true) = (.ok (),t) ∧
      (steps Reference.env [.io ⟨.mmio,0x1014,4,true,1,0⟩,.poll 0]).run
        (brokenMachine.withStrict false) = (.ok (),t.withStrict false) ∧
      (step Reference.env (.io ⟨.mmio,0x9000,4,false,0,0⟩)).run (t.withStrict false) =
        (.error (.error (.runtime (.unmappedIo 0x9000 4))),t.withStrict false) := by
  obtain ⟨lenient,shared⟩ := strict_lenient_agree Reference.env brokenMachine _
    [.io ⟨.mmio,0x1014,4,true,1,0⟩,.poll 0] rfl
  refine ⟨_,rfl,lenient,shared _ _ _ rfl ?_⟩
  rintro (⟨e,other,_⟩ | ⟨_,_,_,other⟩)
  · cases other
  · cases other

end Runtime
end WVmm
