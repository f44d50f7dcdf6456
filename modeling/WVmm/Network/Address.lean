import WVmm.Error

/-! Ethernet addresses as text. The backend reads what the framework reports, and
the command line prints it for the user. -/
namespace WVmm.Network

def toDigit (c : Char) : Option Nat :=
  if '0' ≤ c ∧ c ≤ '9' then some (c.toNat - 48)
  else if 'a' ≤ c ∧ c ≤ 'f' then some (c.toNat - 87)
  else if 'A' ≤ c ∧ c ≤ 'F' then some (c.toNat - 55)
  else none

def emptyText : Foreign := ⟨"cannot parse integer from empty string"⟩

def invalidDigit : Foreign := ⟨"invalid digit found in string"⟩

def tooLarge : Foreign := ⟨"number too large to fit in target type"⟩

def accumulate (value : Nat) : List Char → Except Foreign Nat
  | [] => .ok value
  | c::rest => match toDigit c with
    | none => .error invalidDigit
    | some digit =>
      if value * 16 + digit < 256 then accumulate (value * 16 + digit) rest else .error tooLarge

/-- `u8::from_str_radix(text, 16)`: a sign may lead, and only `+` is one. -/
def fromStrRadix : List Char → Except Foreign Nat
  | [] => .error emptyText
  | ['+'] => .error invalidDigit
  | '+'::rest => accumulate 0 rest
  | text => accumulate 0 text

def byteLen (text : List Char) : Nat := (text.map Char.utf8Size).sum

def octet (part : List Char) : Except NetError UInt8 :=
  if byteLen part ≠ 2 then .error .invalidVmnetMacAddress
  else ((fromStrRadix part).mapError .macParse).map UInt8.ofNat

def parseMac (value : List Char) : Except NetError (List UInt8) :=
  let parts := value.splitOn ':'
  if parts.length ≠ 6 then .error .invalidVmnetMacAddress else parts.mapM octet

/-- `format!("{b:02x}")`. -/
def hexByte (b : UInt8) : List Char := [Nat.digitChar (b.toNat / 16),Nat.digitChar (b.toNat % 16)]

def printMac (mac : List UInt8) : List Char := [':'].intercalate (mac.map hexByte)

/-- Two hexadecimal digits of either case, or a plus sign and one digit. -/
inductive Octet : List Char → UInt8 → Prop
  | digits {high low : Char} {x y : Nat} : toDigit high = some x → toDigit low = some y →
      Octet [high,low] (UInt8.ofNat (x * 16 + y))
  | signed {low : Char} {y : Nat} : toDigit low = some y → Octet ['+',low] (UInt8.ofNat y)

theorem toDigit_range {c : Char} {n : Nat} (digit : toDigit c = some n) : n < 16 ∧ c.toNat < 128 := by
  unfold toDigit at digit
  simp only [Char.le_def,UInt32.le_iff_toNat_le] at digit
  have zero : ('0' : Char).val.toNat = 48 := rfl
  have nine : ('9' : Char).val.toNat = 57 := rfl
  have a : ('a' : Char).val.toNat = 97 := rfl
  have f : ('f' : Char).val.toNat = 102 := rfl
  have upperA : ('A' : Char).val.toNat = 65 := rfl
  have upperF : ('F' : Char).val.toNat = 70 := rfl
  have value : c.toNat = c.val.toNat := rfl
  split at digit
  · cases digit
    omega
  split at digit
  · cases digit
    omega
  split at digit
  · cases digit
    omega
  · cases digit

/-- A digit takes one byte and is neither a sign nor the separator. -/
theorem toDigit_plain {c : Char} {n : Nat} (digit : toDigit c = some n) :
    c.utf8Size = 1 ∧ c ≠ '+' ∧ c ≠ ':' := by
  have small := (toDigit_range digit).2
  refine ⟨?_,?_,?_⟩
  · rw [Char.utf8Size,if_pos]
    rw [UInt32.le_iff_toNat_le]
    exact Nat.le_of_lt_succ small
  · rintro rfl
    cases digit
  · rintro rfl
    cases digit

theorem accumulate_pair {high low : Char} {x y : Nat} (first : toDigit high = some x) (second : toDigit low = some y) :
    accumulate 0 [high,low] = .ok (x * 16 + y) := by
  have := (toDigit_range first).1
  have := (toDigit_range second).1
  simp only [accumulate,first,second,Nat.zero_mul,Nat.zero_add]
  rw [if_pos (by omega),if_pos (by omega)]

theorem accumulate_success {c : Char} {rest : List Char} {value n : Nat}
    (read : accumulate value (c::rest) = .ok n) :
    ∃ digit, toDigit c = some digit ∧ accumulate (value * 16 + digit) rest = .ok n := by
  unfold accumulate at read
  split at read
  · cases read
  · rename_i digit known
    split at read
    · exact ⟨digit,known,read⟩
    · cases read

/-- A text of two bytes is two characters, or one that is no digit. -/
theorem two_bytes {part : List Char} (size : byteLen part = 2) :
    (∃ c, part = [c] ∧ c.utf8Size = 2) ∨ ∃ c d, part = [c,d] := by
  have positive : ∀ c : Char, 0 < c.utf8Size := Char.utf8Size_pos
  cases part with
  | nil => cases size
  | cons c rest =>
    cases rest with
    | nil => exact .inl ⟨c,rfl,by simpa [byteLen] using size⟩
    | cons d rest =>
      cases rest with
      | nil => exact .inr ⟨c,d,rfl⟩
      | cons e rest =>
        have := positive c
        have := positive d
        have := positive e
        simp only [byteLen,List.map_cons,List.sum_cons] at size
        omega

theorem octet_complete {part : List Char} {b : UInt8} (known : Octet part b) : octet part = .ok b := by
  cases known with
  | @digits high low x y first second =>
    obtain ⟨one,plain,_⟩ := toDigit_plain first
    obtain ⟨one',_⟩ := toDigit_plain second
    have size : byteLen [high,low] = 2 := by
      simp only [byteLen,List.map_cons,List.map_nil,List.sum_cons,List.sum_nil,one,one']
      rfl
    rw [octet,if_neg (not_not.mpr size)]
    have read : fromStrRadix [high,low] = .ok (x * 16 + y) := by
      unfold fromStrRadix
      split
      · rename_i empty
        cases empty
      · rename_i single
        cases single
      · rename_i rest same
        exact absurd (List.cons.inj same).1 plain
      · exact accumulate_pair first second
    rw [read]
    rfl
  | @signed low y digit =>
    obtain ⟨one,_⟩ := toDigit_plain digit
    have size : byteLen ['+',low] = 2 := by
      simp only [byteLen,List.map_cons,List.map_nil,List.sum_cons,List.sum_nil,one]
      rfl
    rw [octet,if_neg (not_not.mpr size)]
    have small := (toDigit_range digit).1
    have read : fromStrRadix ['+',low] = .ok y := by
      change accumulate 0 [low] = _
      simp only [accumulate,digit,Nat.zero_mul,Nat.zero_add]
      exact if_pos (Nat.lt_trans small (by decide))
    rw [read]
    rfl

theorem octet_sound {part : List Char} {b : UInt8} (read : octet part = .ok b) : Octet part b := by
  unfold octet at read
  split at read
  · cases read
  rename_i size
  obtain ⟨c,rfl,wide⟩ | ⟨c,d,rfl⟩ := two_bytes (not_not.mp size)
  · have digit : ∃ n, fromStrRadix [c] = .ok n := by
      cases parsed : fromStrRadix [c] with
      | error e =>
        rw [parsed] at read
        cases read
      | ok n => exact ⟨n,rfl⟩
    obtain ⟨n,parsed⟩ := digit
    unfold fromStrRadix at parsed
    split at parsed
    · cases parsed
    · cases parsed
    · rename_i rest same
      cases same
      cases wide
    · obtain ⟨value,known,_⟩ := accumulate_success parsed
      rw [(toDigit_plain known).1] at wide
      cases wide
  · cases parsed : fromStrRadix [c,d] with
    | error e =>
      rw [parsed] at read
      cases read
    | ok n =>
      rw [parsed] at read
      cases read
      unfold fromStrRadix at parsed
      split at parsed
      · rename_i empty
        cases empty
      · cases parsed
      · rename_i rest single same
        cases same
        obtain ⟨value,known,last⟩ := accumulate_success parsed
        rw [Nat.zero_mul,Nat.zero_add] at last
        cases last
        exact .signed known
      · obtain ⟨x,first,later⟩ := accumulate_success parsed
        obtain ⟨y,second,last⟩ := accumulate_success later
        rw [Nat.zero_mul,Nat.zero_add] at last
        cases last
        exact .digits first second

theorem Octet.plain {part : List Char} {b : UInt8} (known : Octet part b) : ':' ∉ part := by
  cases known with
  | digits first second =>
    have := (toDigit_plain first).2.2
    have := (toDigit_plain second).2.2
    simp_all [eq_comm]
  | signed digit =>
    have := (toDigit_plain digit).2.2
    simp_all [eq_comm]

theorem octets_success {parts : List (List Char)} {mac : List UInt8} :
    parts.mapM octet = .ok mac ↔ List.Forall₂ Octet parts mac := by
  induction parts generalizing mac with
  | nil =>
    constructor
    · intro read
      cases read
      exact .nil
    · intro known
      cases known
      rfl
  | cons part rest ih =>
    rw [List.mapM_cons]
    constructor
    · intro read
      cases first : octet part with
      | error e =>
        rw [first] at read
        cases read
      | ok b =>
        cases later : rest.mapM octet with
        | error e =>
          rw [first,later] at read
          cases read
        | ok mac' =>
          rw [first,later] at read
          cases read
          exact .cons (octet_sound first) (ih.mp later)
    · intro known
      cases known with
      | cons first later =>
        rw [octet_complete first,ih.mpr later]
        rfl

theorem octets_plain {parts : List (List Char)} {mac : List UInt8} (known : List.Forall₂ Octet parts mac) :
    ∀ part ∈ parts, ':' ∉ part := by
  induction known with
  | nil =>
    intro part member
    cases member
  | cons first _ ih =>
    intro part member
    rcases List.mem_cons.mp member with rfl | later
    · exact first.plain
    · exact ih part later

theorem hexByte_octet (b : UInt8) : Octet (hexByte b) b := by
  have digit : ∀ n < 16, toDigit (Nat.digitChar n) = some n := by decide
  have small : b.toNat < 256 := b.toNat_lt
  have value : UInt8.ofNat (b.toNat / 16 * 16 + b.toNat % 16) = b := by
    rw [Nat.div_add_mod']
    exact UInt8.ofNat_toNat
  have known := Octet.digits (digit (b.toNat / 16) (by omega)) (digit (b.toNat % 16) (by omega))
  rwa [value] at known

theorem parseMac_success {text : List Char} {mac : List UInt8} : parseMac text = .ok mac ↔
    ∃ parts, text = [':'].intercalate parts ∧ parts.length = 6 ∧ List.Forall₂ Octet parts mac := by
  constructor
  · intro read
    simp only [parseMac] at read
    split at read
    · cases read
    · rename_i count
      exact ⟨text.splitOn ':',(List.intercalate_splitOn ':').symm,not_not.mp count,octets_success.mp read⟩
  · rintro ⟨parts,rfl,count,known⟩
    have parted : ([':'].intercalate parts).splitOn ':' = parts := by
      refine List.splitOn_intercalate ':' (octets_plain known) ?_
      rintro rfl
      cases count
    simp only [parseMac,parted,count]
    exact octets_success.mpr known

/-- The backend accepts exactly six parts of two digits, or a plus sign and a digit,
between colons, and it reads back every address that the command line prints. -/
theorem parse_mac_exact :
    (∀ text mac, parseMac text = .ok mac ↔
      ∃ parts, text = [':'].intercalate parts ∧ parts.length = 6 ∧ List.Forall₂ Octet parts mac) ∧
    ∀ mac : List UInt8, mac.length = 6 → parseMac (printMac mac) = .ok mac := by
  refine ⟨fun text mac => parseMac_success,fun mac count => parseMac_success.mpr ?_⟩
  refine ⟨mac.map hexByte,rfl,by rw [List.length_map,count],?_⟩
  rw [List.forall₂_map_left_iff]
  exact List.forall₂_same.mpr (fun b _ => hexByte_octet b)

end WVmm.Network
