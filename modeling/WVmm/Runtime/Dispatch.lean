import WVmm.Platform.WellFormed
import WVmm.Runtime.Model

/-! Where the runtime takes an access: on an accepted layout, to the only device whose
window declares its address. -/
namespace WVmm
open Lib.Effect Devices Platform

namespace Platform

/-- The windows of a layout that belong to a device. -/
inductive Window
  | uart
  | virtio (k : Nat)

def MachineLayout.window (layout : MachineLayout) : Window → Option IoRegion
  | .uart => some layout.uart
  | .virtio k => layout.virtio[k]?

def IoRegion.range (r : IoRegion) : Declared := ⟨r.space,r.address,r.size⟩

def MachineLayout.position (layout : MachineLayout) : Window → Nat
  | .uart => layout.ram.length
  | .virtio k => layout.ram.length + 1 + k

theorem within_iff {C : Type} {r : IoRegion} {a : IoAccess C} : r.within a = true ↔ (a.space,a.address) ∈ r.range.places := by
  simp only [IoRegion.within,decide_eq_true_eq,IoRegion.range,Declared.places,Declared.stop,Set.mem_ofPred_eq,Set.mem_Ico]
  refine and_congr_right fun _ => and_congr_right fun low => ?_
  omega

theorem window_declared {layout : MachineLayout} {w : Window} {r : IoRegion} (there : layout.window w = some r) :
    layout.declared[layout.position w]? = some r.range := by
  cases w with
  | uart =>
    cases there
    simp [MachineLayout.declared,MachineLayout.position,ramRanges,IoRegion.range]
  | virtio k =>
    have inside : k < (windowRanges layout.virtio).length := by
      rw [windowRanges,List.length_map]
      exact (List.getElem?_eq_some_iff.mp there).1
    have place : layout.position (.virtio k) = (ramRanges layout.ram).length + (1 + k) := by
      simp [MachineLayout.position,ramRanges,Nat.add_assoc]
    rw [place,MachineLayout.declared,List.getElem?_append_right (Nat.le_add_right _ _),Nat.add_sub_cancel_left,
      List.getElem?_append_right (by simp),List.length_singleton,Nat.add_sub_cancel_left,
      List.getElem?_append_left inside,windowRanges,List.getElem?_map]
    exact congrArg (Option.map _) there

theorem position_injective {layout : MachineLayout} {w w' : Window} (same : layout.position w = layout.position w') :
    w = w' := by
  cases w with
  | uart =>
    cases w' with
    | uart => rfl
    | virtio k => exact absurd same (by simp only [MachineLayout.position]; omega)
  | virtio k =>
    cases w' with
    | uart => exact absurd same (by simp only [MachineLayout.position]; omega)
    | virtio l => exact congrArg Window.virtio (Nat.add_left_cancel same)

namespace WellFormed

variable {layout : MachineLayout} {config : VmConfig} {needs : DeviceRequirements}

theorem owner (formed : WellFormed layout config needs) {i j : Nat} {d e : Declared} {x : IoSpace × Nat}
    (first : layout.declared[i]? = some d) (second : layout.declared[j]? = some e) (here : x ∈ d.places)
    (there : x ∈ e.places) : i = j := by
  obtain ⟨low,rfl⟩ := List.getElem?_eq_some_iff.mp first
  obtain ⟨low',rfl⟩ := List.getElem?_eq_some_iff.mp second
  rcases Nat.lt_trichotomy i j with before | same | after
  · exact absurd there (Set.disjoint_left.mp (List.pairwise_iff_getElem.mp formed.apart i j low low' before) here)
  · exact same
  · exact absurd here (Set.disjoint_left.mp (List.pairwise_iff_getElem.mp formed.apart j i low' low after) there)

theorem only (formed : WellFormed layout config needs) {w w' : Window} {r r' : IoRegion} {x : IoSpace × Nat}
    (first : layout.window w = some r) (second : layout.window w' = some r') (here : x ∈ r.range.places)
    (there : x ∈ r'.range.places) : w = w' :=
  position_injective (formed.owner (window_declared first) (window_declared second) here there)

end WellFormed
end Platform

namespace Runtime

variable {V C B N U : Type} [VirtualMachine V C] [BlockStorage B] [NetDevice N] [Uart U] {env : Env}

def serve (env : Env) (a : IoAccess C) (region : IoRegion) :
    Window → Prog (Runtime V C B N U) (Failure Error) (Option Nat × Nat × Bool)
  | .uart => uartAccess region a
  | .virtio k => virtioAccess env k region a

def finish (a : IoAccess C) (served : Prog (Runtime V C B N U) (Failure Error) (Option Nat × Nat × Bool)) :
    Prog (Runtime V C B N U) (Failure Error) Unit := do
  let s ← Prog.get
  let (decoded,irq,level) ← served
  let value ← seen s.strict a decoded
  setIrq irq level
  completeIo a.completion value

theorem handleIo_access (a : IoAccess C) (s : Runtime V C B N U) :
    (handleIo env a).run s = (finish a (access env s.layout a)).run s := rfl

theorem access_uart {layout : MachineLayout} {a : IoAccess C} (inside : layout.uart.within a = true) :
    (access env layout a : Prog (Runtime V C B N U) (Failure Error) _) = uartAccess layout.uart a :=
  if_pos inside

/-- A window that is the only one to hold the access is where it goes. -/
theorem access_serves {layout : MachineLayout} {a : IoAccess C} {w : Window} {r : IoRegion}
    (there : layout.window w = some r) (inside : r.within a = true)
    (only : ∀ w' r', layout.window w' = some r' → r'.within a = true → w' = w) :
    (access env layout a : Prog (Runtime V C B N U) (Failure Error) _) = serve env a r w := by
  cases w with
  | uart =>
    cases there
    exact access_uart inside
  | virtio k =>
    have outside : layout.uart.within a = false := by
      by_contra held
      cases only .uart layout.uart rfl (by simpa using held)
    obtain ⟨low,found⟩ := List.getElem?_eq_some_iff.mp there
    have first : layout.virtio.findIdx? (·.within a) = some k := by
      refine List.findIdx?_eq_some_iff_getElem.mpr ⟨low,by rwa [found],?_⟩
      intro j before held
      have same := only (.virtio j) layout.virtio[j] (List.getElem?_eq_getElem _) held
      cases same
      exact lt_irrefl _ before
    unfold access
    rw [if_neg (by simp [outside]),first]
    dsimp only
    rw [show layout.virtio[k]? = some r from there]
    rfl

theorem access_unmapped {layout : MachineLayout} {a : IoAccess C}
    (outside : ∀ w r, layout.window w = some r → r.within a = false) :
    (access env layout a : Prog (Runtime V C B N U) (Failure Error) _) =
      Prog.fail (.error (.runtime (.unmappedIo a.address a.width))) := by
  have none : layout.virtio.findIdx? (·.within a) = none := by
    rw [List.findIdx?_eq_none_iff]
    intro r member
    obtain ⟨k,low,rfl⟩ := List.getElem_of_mem member
    exact outside (.virtio k) _ (List.getElem?_eq_getElem low)
  unfold access
  rw [if_neg (by simp [outside .uart layout.uart rfl]),none]

/-- The checks of a layout accept the well-formed ones and no others. On an accepted
layout every place belongs to at most one range, an access goes to the one device
whose window declares it, and an access beside the windows reaches none. -/
theorem validate_exact (layout : MachineLayout) (config : VmConfig) (needs : DeviceRequirements) :
    (layout.validate config needs = .ok () ↔ WellFormed layout config needs) ∧
    (layout.validate config needs = .ok () →
      (∀ (x : IoSpace × Nat) (i j : Nat) (d e : Declared), layout.declared[i]? = some d → layout.declared[j]? = some e → x ∈ d.places → x ∈ e.places → i = j) ∧
      ∀ (s : Runtime V C B N U) (a : IoAccess C), s.layout = layout →
        (∀ w r, layout.window w = some r → (a.space,a.address) ∈ r.range.places →
          (handleIo env a).run s = (finish a (serve env a r w)).run s ∧
          ∀ w' r', layout.window w' = some r' → (a.space,a.address) ∈ r'.range.places → w' = w) ∧
        ((∀ w r, layout.window w = some r → (a.space,a.address) ∉ r.range.places) →
          (handleIo env a).run s = (.error (.error (.runtime (.unmappedIo a.address a.width))),s))) := by
  refine ⟨validate_eq_ok,fun accepted => ?_⟩
  have formed := validate_eq_ok.mp accepted
  refine ⟨fun x i j d e first second here there => formed.owner first second here there,?_⟩
  rintro s a rfl
  refine ⟨?_,?_⟩
  · intro w r there here
    have only : ∀ w' r', s.layout.window w' = some r' → (a.space,a.address) ∈ r'.range.places → w' = w :=
      fun w' r' there' here' => formed.only there' there here' here
    refine ⟨?_,only⟩
    rw [handleIo_access,access_serves there (within_iff.mpr here)
      (fun w' r' there' inside => only w' r' there' (within_iff.mp inside))]
  · intro outside
    rw [handleIo_access,access_unmapped]
    · rfl
    · intro w r there
      exact Bool.eq_false_iff.mpr (fun inside => outside w r there (within_iff.mp inside))

end Runtime
end WVmm
