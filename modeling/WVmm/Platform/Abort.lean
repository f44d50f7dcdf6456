import WVmm.Platform.Machine

/-! Loads and stores that abort to the monitor: what the syndrome says of an access,
what a store hands over and what a load writes back. -/
namespace WVmm.Platform.Abort

/-- The general registers and `pc`, which the hypervisor numbers 31. -/
abbrev Registers := Nat → BitVec 64

/-- The syndrome describes an access, which is neither cache maintenance nor a walk
of the translation tables. -/
def valid (esr : BitVec 64) : Bool := esr &&& (1#64 <<< 24) != 0 && esr &&& (1#64 <<< 7 ||| 1#64 <<< 8) == 0

def width (esr : BitVec 64) : Nat := 1 <<< ((esr >>> 22) &&& 3).toNat

def reg (esr : BitVec 64) : Nat := ((esr >>> 16) &&& 31).toNat

def write (esr : BitVec 64) : Bool := esr &&& (1#64 <<< 6) != 0

def signed (esr : BitVec 64) : Bool := esr &&& (1#64 <<< 21) != 0

def wide (esr : BitVec 64) : Bool := esr &&& (1#64 <<< 15) != 0

def maskWrite (register : BitVec 64) (width : Nat) : BitVec 64 := register &&& (BitVec.allOnes 64 >>> (64 - width * 8))

/-- The access that the worker sends to the runtime. -/
structure Access where
  addr : BitVec 64
  width : Nat
  write : Bool
  value : BitVec 64

def access (esr addr : BitVec 64) (registers : Registers) : Access where
  addr := addr
  width := width esr
  write := write esr
  value := if write esr && reg esr != 31 then maskWrite (registers (reg esr)) (width esr) else 0

/-- A worker serves only an abort whose syndrome describes the access. -/
def aborted (esr addr : BitVec 64) (registers : Registers) : Except PlatformError Access :=
  if valid esr then .ok (access esr addr registers) else .error (.unsupportedDataAbort esr.toNat addr.toNat)

def loaded (esr reply : BitVec 64) : BitVec 64 :=
  let value := if signed esr then (reply <<< (64 - width esr * 8)).sshiftRight (64 - width esr * 8) else reply
  if wide esr then value else value &&& 0xffffffff#64

/-- The registers after the reply, before `pc` is advanced. -/
def writeBack (esr reply : BitVec 64) (registers : Registers) : Registers :=
  if !write esr && reg esr != 31 then Function.update registers (reg esr) (loaded esr reply) else registers

/-- What the architecture loads from this many bytes. -/
def architectural (esr : BitVec 64) (value : Nat) : BitVec 64 :=
  let data : BitVec (8 * width esr) := BitVec.ofNat (8 * width esr) value
  let extended : BitVec 64 := if signed esr then data.signExtend 64 else data.setWidth 64
  if wide esr then extended else (extended.setWidth 32).setWidth 64

theorem width_cases (esr : BitVec 64) : width esr = 1 ∨ width esr = 2 ∨ width esr = 4 ∨ width esr = 8 := by
  have small : ((esr >>> 22) &&& 3).toNat < 4 := by
    rw [BitVec.toNat_and]
    exact Nat.lt_of_le_of_lt Nat.and_le_right (by decide)
  unfold width
  generalize ((esr >>> 22) &&& 3).toNat = size at small ⊢
  interval_cases size <;> simp

/-- The mask keeps the low bytes. -/
theorem maskWrite_value (register : BitVec 64) {bytes : Nat} (few : bytes ≤ 8) :
    (maskWrite register bytes).toNat = register.toNat % 2^(8 * bytes) := by
  have mask : (BitVec.allOnes 64 >>> (64 - bytes * 8)).toNat = 2^(8 * bytes) - 1 := by
    rw [BitVec.toNat_ushiftRight,BitVec.toNat_allOnes,Nat.shiftRight_eq_div_pow]
    interval_cases bytes <;> rfl
  rw [maskWrite,BitVec.toNat_and,mask,Nat.and_two_pow_sub_one_eq_mod]

/-- Shifted to the top and back, a value is sign-extended from its low bits. -/
theorem shift_signExtend (x : BitVec 64) {bits : Nat} (some : 0 < bits) (few : bits ≤ 64) :
    (x <<< (64 - bits)).sshiftRight (64 - bits) = (x.setWidth bits).signExtend 64 := by
  refine BitVec.eq_of_getLsbD_eq fun i inside => ?_
  rw [BitVec.getLsbD_sshiftRight,BitVec.getLsbD_signExtend,BitVec.getLsbD_shiftLeft,BitVec.msb_eq_getLsbD_last,
    BitVec.msb_eq_getLsbD_last,BitVec.getLsbD_setWidth,BitVec.getLsbD_setWidth,BitVec.getLsbD_shiftLeft]
  by_cases low : i < bits
  · simp [low,inside,show ¬64 ≤ i by omega,show 64 - bits + i < 64 by omega]
  · simp [low,inside,show ¬64 ≤ i by omega,show ¬64 - bits + i < 64 by omega,show ¬63 < 64 - bits by omega,
      show 63 - (64 - bits) = bits - 1 by omega,some]

theorem low_word (x : BitVec 64) : x &&& 0xffffffff#64 = (x.setWidth 32).setWidth 64 := by
  refine BitVec.eq_of_toNat_eq ?_
  have mask : (0xffffffff#64).toNat = 2^32 - 1 := rfl
  rw [BitVec.toNat_and,mask,Nat.and_two_pow_sub_one_eq_mod,BitVec.toNat_setWidth,BitVec.toNat_setWidth]
  omega

/-- A reply within the access width is extended as the architecture has it. -/
theorem loaded_architectural (esr : BitVec 64) {value : Nat} (within : value < 2^(8 * width esr)) :
    loaded esr (BitVec.ofNat 64 value) = architectural esr value := by
  have bits : width esr * 8 = 8 * width esr := Nat.mul_comm _ _
  have some : 0 < 8 * width esr := by rcases width_cases esr with same | same | same | same <;> omega
  have few : 8 * width esr ≤ 64 := by rcases width_cases esr with same | same | same | same <;> omega
  have data : (BitVec.ofNat 64 value).setWidth (8 * width esr) = BitVec.ofNat (8 * width esr) value := by
    refine BitVec.eq_of_toNat_eq ?_
    rw [BitVec.toNat_setWidth,BitVec.toNat_ofNat,BitVec.toNat_ofNat,
      Nat.mod_mod_of_dvd _ (Nat.pow_dvd_pow 2 few)]
  have plain : BitVec.ofNat 64 value = (BitVec.ofNat (8 * width esr) value).setWidth 64 := by
    refine BitVec.eq_of_toNat_eq ?_
    rw [BitVec.toNat_setWidth,BitVec.toNat_ofNat,BitVec.toNat_ofNat,Nat.mod_eq_of_lt within]
  unfold loaded architectural
  dsimp only
  rw [bits,shift_signExtend _ some few,data,← plain,low_word]

end WVmm.Platform.Abort
