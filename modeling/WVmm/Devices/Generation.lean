import WVmm.Devices.MemoryRuns
import WVmm.Devices.MemorySpec
import WVmm.Devices.MemoryLoop
import WVmm.Devices.Backends

/-! The configuration generation. Between two equal readings of it nothing of the
configuration has changed, unless it went all the way round. -/
namespace WVmm.Devices
open Lib.Effect

section Registers
variable {D : Type} [VirtioDevice D]

theorem Mmio.read_generation (m : Mmio D) : m.read 0xfc 4 = some (VirtioDevice.generation m.device) := by
  simp [Mmio.read]

/-- The configuration window shows the configuration and nothing else. -/
theorem Mmio.read_window {m m' : Mmio D} {offset width : Nat} (window : 0x100 ≤ offset)
    (same : ∀ start len, VirtioDevice.readConfig m'.device start len = VirtioDevice.readConfig m.device start len) :
    m'.read offset width = m.read offset width := by
  rw [Mmio.read,Mmio.read,same]
  by_cases inside : 0x100 ≤ offset ∧ offset < 0x1000
  · rw [if_pos inside,if_pos inside]
  · have none : ∀ register < 0x100, (offset = register) = False := fun register low => eq_false (by omega)
    -- beyond the window there is no register
    rw [if_neg inside,if_neg inside]
    simp only [none 0 (by decide),none 4 (by decide),none 8 (by decide),none 12 (by decide),none 0x10 (by decide),
      none 0x34 (by decide),none 0x44 (by decide),none 0x60 (by decide),none 0x70 (by decide),none 0xfc (by decide),
      false_and,if_false]

end Registers

namespace VirtioMem

/-- What the driver reads of the device is as it was. -/
structure SameConfig {M : Type} (t u : Txn M) : Prop where
  config : u.cell.device.config = t.cell.device.config
  generation : u.cell.device.generation = t.cell.device.generation

instance {M : Type} : IsPreorder (Txn M) SameConfig where
  refl _ := ⟨rfl,rfl⟩
  trans _ _ _ first second := ⟨second.config.trans first.config,second.generation.trans first.generation⟩

inductive Happening (M : Type)
  | request (req : List UInt8) (pinned : List (Nat × Nat))
  | target (requested : Nat)
  | sync (ready : Bool)
  | reset
  /-- Everything else moves. -/
  | beside (t : Txn M)

section Runs
variable {M : Type} [Mapper M]

def Happening.on (env : Env) : Happening M → Txn M → Txn M
  | .request req pinned, t => ((VirtioMem.request env req pinned).run t).2
  | .target requested, t => setRequested requested t
  | .sync ready, t => ((Txn.onCell (syncTarget ready) : Prog (Txn M) Empty Bool).run t).2
  | .reset, t => ((Txn.onCell VirtioDevice.reset : Prog (Txn M) (Failure DeviceError) Unit).run t).2
  | .beside u, t => {u with cell := {u.cell with device := t.cell.device}}

def happen (env : Env) (happenings : List (Happening M)) (t : Txn M) : Txn M :=
  happenings.foldl (fun t h => h.on env t) t

def bumps (env : Env) : List (Happening M) → Txn M → Nat
  | [], _ => 0
  | h::rest, t => (if (h.on env t).cell.device.generation = t.cell.device.generation then 0 else 1) + bumps env rest (h.on env t)

variable {env : Env}

theorem change_config (addresses : List Nat) (plug : Bool) :
    Always (SameConfig : Txn M → Txn M → Prop) (change env addresses plug) := by
  refine change_always (fun _ _ _ _ => ⟨rfl,rfl⟩) (fun plug r => ?_) (fun _ _ _ => ⟨rfl,rfl⟩) addresses plug
  unfold operate
  split <;> exact fun _ => ⟨rfl,rfl⟩

/-- A request that changes something moves the generation; no other does. -/
theorem request_config (req : List UInt8) (pinned : List (Nat × Nat)) (t : Txn M) :
    SameConfig t ((request env req pinned).run t).2 ∨
      ((request env req pinned).run t).2.cell.device.generation = (t.cell.device.generation + 1) % 2^32 := by
  rw [request_run]
  cases verdict t.cell.device t.cell.world.control.requestedSizeMib pinned (Request.decode req) with
  | inl answer => exact .inl (refl_of SameConfig t)
  | inr addresses =>
    have changed := @change_config M _ env addresses ((Request.decode req).kind == 0) t
    dsimp only
    generalize (change env addresses ((Request.decode req).kind == 0)).run t = outcome at changed ⊢
    obtain ⟨r,u⟩ := outcome
    rcases r with f | done
    · exact .inl changed
    · cases done with
      | false => exact .inl changed
      | true => exact .inr (congrArg (fun g => (g + 1) % 2^32) changed.generation)

omit [Mapper M] in
theorem sync_config (ready : Bool) (t : Txn M) :
    SameConfig t ((Txn.onCell (syncTarget ready) : Prog (Txn M) Empty Bool).run t).2 ∨
      ((Txn.onCell (syncTarget ready) : Prog (Txn M) Empty Bool).run t).2.cell.device.generation =
        (t.cell.device.generation + 1) % 2^32 := by
  simp only [Txn.onCell,Prog.run_zoom,syncTarget,Prog.run_bind,Prog.run_modify,Prog.run_get,adopt]
  split
  · exact .inl ⟨rfl,rfl⟩
  · exact .inr rfl

/-- One thing that happens keeps what the driver reads, or moves the generation by one. -/
theorem Happening.config (h : Happening M) (t : Txn M) :
    SameConfig t (h.on env t) ∨
      (h.on env t).cell.device.generation = (t.cell.device.generation + 1) % 2^32 := by
  cases h with
  | request req pinned => exact request_config req pinned t
  | target requested => exact .inl ⟨rfl,rfl⟩
  | sync ready => exact sync_config ready t
  | reset => exact .inl ⟨rfl,rfl⟩
  | beside u => exact .inl ⟨rfl,rfl⟩

/-- The generation counts the moves, and without a move nothing has changed. -/
theorem happen_config (happenings : List (Happening M)) (t : Txn M) (fits : t.cell.device.generation < 2^32) :
    (happen env happenings t).cell.device.generation = (t.cell.device.generation + bumps env happenings t) % 2^32 ∧
      (bumps env happenings t = 0 → (happen env happenings t).cell.device.config = t.cell.device.config) := by
  induction happenings generalizing t with
  | nil => exact ⟨(Nat.mod_eq_of_lt fits).symm,fun _ => rfl⟩
  | cons h rest ih =>
    rcases (h.config t : SameConfig t (h.on env t) ∨ _) with same | moved
    · obtain ⟨counted,kept⟩ := ih (h.on env t) (same.generation ▸ fits)
      have count : bumps env (h::rest) t = bumps env rest (h.on env t) := by
        rw [bumps,if_pos same.generation,Nat.zero_add]
      rw [count]
      exact ⟨counted.trans (by rw [same.generation]),fun none => (kept none).trans same.config⟩
    · obtain ⟨counted,_⟩ := ih (h.on env t) (moved ▸ Nat.mod_lt _ (by decide))
      have other : (h.on env t).cell.device.generation ≠ t.cell.device.generation := by
        rw [moved]
        omega
      have count : bumps env (h::rest) t = 1 + bumps env rest (h.on env t) := by rw [bumps,if_neg other]
      rw [count]
      refine ⟨counted.trans ?_,by omega⟩
      rw [moved,Nat.mod_add_mod,Nat.add_assoc]

def Comes (env : Env) (t u : Txn M) : Prop := ∃ happenings, u = happen env happenings t

instance : IsPreorder (Txn M) (Comes env) where
  refl _ := ⟨[],rfl⟩
  trans t u v := by
    rintro ⟨first,rfl⟩ ⟨later,rfl⟩
    exact ⟨first ++ later,List.foldl_append.symm⟩

theorem comes_beside {ε α : Type} {p : Prog (Txn M) ε α}
    (same : ∀ t, (p.run t).2.cell.device = t.cell.device) : Always (Comes env) p := by
  refine fun t => ⟨[.beside (p.run t).2],?_⟩
  change _ = {(p.run t).2 with cell := {(p.run t).2.cell with device := t.cell.device}}
  rw [← same t]

theorem serve_comes (pinned : List (Nat × Nat)) (chain : Chain) :
    Always (Comes env : Txn M → Txn M → Prop) (serve env pinned chain) := by
  refine .bind (.require _ _) (fun _ => .bind (comes_beside (fun _ => rfl)) (fun req => .bind ?_ (fun answer => ?_)))
  · exact .mapError (fun t => ⟨[.request req _],rfl⟩) _
  · exact .bind (comes_beside (fun _ => rfl)) (fun _ => comes_beside (fun t => (Queues.complete_calm _ _ _ t.cell).2))

/-- Serving the chains of the queue is a matter of single requests, however it ends. -/
theorem process_comes (pinned : List (Nat × Nat)) :
    Always (Comes env : Txn M → Txn M → Prop) (process env pinned) := by
  unfold process
  generalize 128 = budget
  induction budget with
  | zero => exact .pure _
  | succ budget ih =>
    refine .bind (comes_beside (fun t => (Queues.pop_calm 0 t.cell).2)) (fun taken => ?_)
    split
    · exact .pure _
    · exact .bind (serve_comes pinned _) (fun _ => ih)

theorem bumps_append (mid rest : List (Happening M)) (t : Txn M) :
    bumps env (mid ++ rest) t = bumps env mid t + bumps env rest (happen env mid t) := by
  induction mid generalizing t with
  | nil => exact (Nat.zero_add _).symm
  | cons h mid ih =>
    rw [List.cons_append,bumps,bumps,ih,Nat.add_assoc]
    rfl

/-- Configuration generation detects every change. At two points of a run of an attached
device between which the generation moved less often than it has values, equal readings
of it mean that every field of the configuration window reads the same, there and
anywhere in between: what a driver read in between is not torn. Serving the queue is a run. -/
theorem generation_detects {regionSizeMib blockSizeMib start : Nat} {d : VirtioMem} {status control : MemoryStatus}
    (made : VirtioMem.new regionSizeMib blockSizeMib = .ok (d,status)) {first : Txn M}
    (attached : d.attachAt control start = .ok first.cell.device) (before mid rest : List (Happening M))
    (few : bumps env (mid ++ rest) (happen env before first) < 2^32)
    {B N : Type} [BlockStorage B] [NetDevice N] {m between m' : Mmio (Device B N)}
    (now : m.device = .mem (happen env before first).cell.device)
    (meanwhile : between.device = .mem (happen env (before ++ mid) first).cell.device)
    (after : m'.device = .mem (happen env (before ++ mid ++ rest) first).cell.device)
    (same : m'.read 0xfc 4 = m.read 0xfc 4) (offset width : Nat) (window : 0x100 ≤ offset) :
    between.read offset width = m.read offset width ∧ m'.read offset width = m.read offset width ∧
      ∀ (pinned : List (Nat × Nat)) (t : Txn M), Comes env t ((process env pinned).run t).2 := by
  have zero : first.cell.device.generation = 0 := by
    obtain ⟨_,_,_,rfl,_⟩ := new_accepts made
    obtain ⟨_,_,placed⟩ := attachAt_accepts attached
    rw [placed]
  have onward : ∀ more, happen env (before ++ more) first = happen env more (happen env before first) :=
    fun more => List.foldl_append
  rw [onward] at meanwhile
  rw [List.append_assoc,onward] at after
  have fits : (happen env before first).cell.device.generation < 2^32 := by
    rw [(happen_config before first (by rw [zero]; decide)).1]
    exact Nat.mod_lt _ (by decide)
  generalize happen env before first = t at few now meanwhile after fits
  rw [Mmio.read_generation,Mmio.read_generation,now,after] at same
  have reading : (happen env (mid ++ rest) t).cell.device.generation = t.cell.device.generation := Option.some.inj same
  have counted := (@happen_config M _ env (mid ++ rest) t fits).1
  have none : bumps env mid t + bumps env rest (happen env mid t) = 0 := by
    rw [← bumps_append]
    omega
  have unchanged : ∀ happenings, bumps env happenings t = 0 → ∀ {w : Mmio (Device B N)},
      w.device = .mem (happen env happenings t).cell.device → w.read offset width = m.read offset width := by
    intro happenings unmoved w shown
    refine Mmio.read_window window (fun start len => ?_)
    rw [now,shown]
    exact congrArg (fun config => readConfig config start len) ((@happen_config M _ env happenings t fits).2 unmoved)
  refine ⟨unchanged mid (by omega) meanwhile,unchanged (mid ++ rest) ?_ after,process_comes⟩
  rw [bumps_append]
  exact none

end Runs

def windowOf (d : VirtioMem) : Mmio (Device Reference.Disk Reference.Wire) where
  device := .mem d
  strict := false
  features := 0
  queues := ⟨[],0,0⟩
  featureSel := 0
  driverSel := 0
  queueSel := 0
  status := 0
  rejected := 0

/-- Two blocks are plugged. Then the host has a new target, which is not yet adopted,
and the device only answers: the target reads as it did. -/
theorem generation_detects_answer :
    let plugged := happen Reference.env [.request (encode 0 (2^30) 2) []] (sample (fun _ => false))
    let later := happen Reference.env [.target 6,.request (encode 3 (2^30) 2) [],.reset] plugged
    plugged.cell.device.generation = 1 ∧
      (windowOf later.cell.device).read 0x130 8 = (windowOf plugged.cell.device).read 0x130 8 := by
  refine ⟨rfl,?_⟩
  have quiet : bumps Reference.env ([.target 6,.request (encode 3 (2^30) 2) []] ++ [.reset])
      (happen Reference.env [.request (encode 0 (2^30) 2) []] (sample (fun _ => false))) = 0 := rfl
  have placed : attachAt ⟨0,2^27,2^21,2^21,0,0,0,∅⟩ sampleCell.world.control sampleCell.device.start =
      .ok sampleCell.device := by
    rw [attachAt,if_neg (by decide),if_neg (by decide)]
    rfl
  have made : VirtioMem.new 128 2 = .ok (⟨0,2^27,2^21,2^21,0,0,0,∅⟩,MemoryStatus.new 128 2) := rfl
  exact (@generation_detects _ _ Reference.env _ _ _ _ _ _ made (sample (fun _ => false)) placed
    [.request (encode 0 (2^30) 2) []] [.target 6,.request (encode 3 (2^30) 2) []] [.reset]
    (quiet.trans_lt (by decide)) Reference.Disk Reference.Wire _ _ _ (windowOf _) _ rfl rfl rfl rfl 0x130 8 (by decide)).2.1

end VirtioMem
end WVmm.Devices
