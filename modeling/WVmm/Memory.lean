import WVmm.External

/-! Public memory control and the platform mapping contract. -/
namespace WVmm

theorem bind_eq_ok {ε α β : Type} {x : Except ε α} {f : α → Except ε β} {b : β} :
    x.bind f = .ok b ↔ ∃ a, x = .ok a ∧ f a = .ok b := by
  cases x <;> simp [Except.bind]

theorem map_eq_ok {ε α β : Type} {x : Except ε α} {f : α → β} {b : β} :
    x.map f = .ok b ↔ ∃ a, x = .ok a ∧ f a = b := by
  cases x <;> simp [Except.map]

def checkedAdd (a b : Nat) : Option Nat := if a + b < 2^64 then some (a + b) else none

/-- The second factor stands first: with a constant unit there, terms stay small. -/
def checkedMul (a b : Nat) : Option Nat := if b * a < 2^64 then some (b * a) else none

theorem checkedAdd_eq_some {a b c : Nat} : checkedAdd a b = some c ↔ a + b < 2^64 ∧ c = a + b := by
  rw [checkedAdd]
  by_cases fits : a + b < 2^64
  · rw [if_pos fits,Option.some.injEq,eq_comm]
    exact (and_iff_right fits).symm
  · rw [if_neg fits]
    exact ⟨nofun,fun both => absurd both.1 fits⟩

theorem checkedMul_eq_some {a b c : Nat} : checkedMul a b = some c ↔ b * a < 2^64 ∧ c = b * a := by
  rw [checkedMul]
  by_cases fits : b * a < 2^64
  · rw [if_pos fits,Option.some.injEq,eq_comm]
    exact (and_iff_right fits).symm
  · rw [if_neg fits]
    exact ⟨nofun,fun both => absurd both.1 fits⟩

/-- A checked sum fails just when the sum does not fit. -/
theorem foldlM_checkedAdd {α : Type} (f : α → Nat) (xs : List α) {n : Nat} (small : n < 2^64) :
    xs.foldlM (fun n x => checkedAdd n (f x)) n =
      if n + (xs.map f).sum < 2^64 then some (n + (xs.map f).sum) else none := by
  induction xs generalizing n with
  | nil =>
    rw [List.map_nil,List.sum_nil,Nat.add_zero,if_pos small]
    rfl
  | cons x rest ih =>
    rw [List.foldlM_cons,List.map_cons,List.sum_cons]
    by_cases fits : n + f x < 2^64
    · rw [checkedAdd_eq_some.mpr ⟨fits,rfl⟩,← Nat.add_assoc]
      exact ih fits
    · rw [if_neg (by omega)]
      have overflow : checkedAdd n (f x) = none := if_neg fits
      rw [overflow]
      rfl

/-- 64-bit arithmetic that the source does not check, where its operands are bounded. -/
def wrappingAdd (a b : Nat) : Nat := (a + b) % 2^64

def wrappingMul (a b : Nat) : Nat := (b * a) % 2^64

def saturatingAdd (a b : Nat) : Nat := min (a + b) (2^64 - 1)

def MIB : Nat := 2^20

def HOTPLUG_BLOCK_SIZE : Nat := 128 * 2^20

def mibBytes (mib : Nat) : Except MemoryError Nat :=
  (checkedMul mib MIB).elim (.error (.capacityOverflow mib)) .ok

theorem mibBytes_ok {mib bytes : Nat} (computed : mibBytes mib = .ok bytes) :
    bytes = MIB * mib ∧ MIB * mib < 2^64 := by
  unfold mibBytes at computed
  cases found : checkedMul mib MIB with
  | none => simp [found] at computed
  | some b =>
    obtain ⟨fits,same⟩ := checkedMul_eq_some.mp found
    simp only [found,Option.elim_some,Except.ok.injEq] at computed
    exact ⟨computed.symm.trans same,fits⟩

/-- The mapping operations of a platform. Both return the mapper they leave. -/
class Mapper (M : Type) where
  map : M → Region → Except MemoryError Unit × M
  unmap : M → Region → Except MemoryError Unit × M

/-- The documented contract, over the table of live mappings: an operation is
atomic on error, a successful `map` takes the region, and `unmap` rejects a
region that differs from the mapping at its address. -/
structure Mapper.Atomic {M : Type} [Mapper M] (table : M → Nat → Option Region) : Prop where
  map_ok : ∀ m r m', Mapper.map m r = (.ok (),m') →
    table m' = Function.update (table m) r.start (some r)
  map_error : ∀ m r e m', Mapper.map m r = (.error e,m') → table m' = table m
  unmap_ok : ∀ m r m', Mapper.unmap m r = (.ok (),m') →
    table m r.start = some r ∧ table m' = Function.update (table m) r.start none
  unmap_error : ∀ m r e m', Mapper.unmap m r = (.error e,m') → table m' = table m

structure Mapper.Reliable {M : Type} [Mapper M] (table : M → Nat → Option Region) : Prop where
  maps : ∀ m r, table m r.start = none → (Mapper.map m r).1 = .ok ()
  unmaps : ∀ m r, table m r.start = some r → (Mapper.unmap m r).1 = .ok ()

def validateTarget (target capacity blockSizeMib : Nat) : Except MemoryError Unit :=
  if target % blockSizeMib = 0 ∧ target ≤ capacity then .ok ()
  else .error (.invalidTarget target capacity blockSizeMib)

inductive MemoryLifecycle
  | created
  | running
  | stopped
deriving DecidableEq

structure MemoryStatus where
  regionSizeMib : Nat
  blockSizeMib : Nat
  requestedSizeMib : Nat
  pluggedSizeMib : Nat
  driverReady : Bool
  lifecycle : MemoryLifecycle
deriving DecidableEq

namespace MemoryStatus

def new (regionSizeMib blockSizeMib : Nat) : MemoryStatus where
  regionSizeMib := regionSizeMib
  blockSizeMib := blockSizeMib
  requestedSizeMib := 0
  pluggedSizeMib := 0
  driverReady := false
  lifecycle := .created

def setRequestedMib (state : MemoryStatus) (requested : Nat) : Except MemoryError MemoryStatus :=
  if state.lifecycle = .stopped then .error .stopped
  else match validateTarget requested state.regionSizeMib state.blockSizeMib with
    | .error e => .error e
    | .ok () => .ok {state with requestedSizeMib := requested}

/-- The shared status after a host call, which keeps it when it refuses. -/
def afterRequest (state : MemoryStatus) (requested : Nat) : MemoryStatus :=
  match state.setRequestedMib requested with
  | .ok next => next
  | .error _ => state

/-- A host call changes at most the requested size, to an accepted one. -/
theorem afterRequest_cases (state : MemoryStatus) (requested : Nat) :
    state.afterRequest requested = state ∨
      (state.afterRequest requested = {state with requestedSizeMib := requested} ∧
        state.blockSizeMib ∣ requested ∧ requested ≤ state.regionSizeMib ∧
        state.lifecycle ≠ .stopped) := by
  unfold afterRequest setRequestedMib validateTarget
  split
  · rename_i next accepted
    split at accepted
    · cases accepted
    · rename_i alive
      split at accepted
      · cases accepted
      · rename_i valid
        split at valid
        · rename_i fits
          cases accepted
          exact Or.inr ⟨rfl,Nat.dvd_of_mod_eq_zero fits.1,fits.2,alive⟩
        · cases valid
  · exact Or.inl rfl

def stop (state : MemoryStatus) : MemoryStatus :=
  {state with lifecycle := .stopped, driverReady := false}

end MemoryStatus
end WVmm
