import JobAgg.Foundation.Checked
import JobAgg.Foundation.Radix
import Mathlib.Data.List.DropRight

/-! # Base32

Bytes are read as one number, which is written with digits of five bits. The bits that the last
digit has left are zero, and the text is padded to whole blocks of eight letters. -/

namespace JobAgg

def base32Letter (value : Nat) : Char :=
  if value < 26 then Char.ofNat (value + 65) else Char.ofNat (value + 24)

/-- `[A-Z2-7]` -/
def base32Value (letter : Char) : Option Nat :=
  if 65 ≤ letter.toNat ∧ letter.toNat ≤ 90 then some (letter.toNat - 65)
  else if 50 ≤ letter.toNat ∧ letter.toNat ≤ 55 then some (letter.toNat - 24)
  else none

variable {value : Nat} {letter : Char}

theorem base32Value_letter (bounded : value < 32) :
    base32Value (base32Letter value) = some value := by
  have all : ∀ value < 32, base32Value (base32Letter value) = some value := by decide
  exact all value bounded

theorem base32Value_cases (found : base32Value letter = some value) :
    value < 32 ∧ base32Letter value = letter := by
  rw [base32Value] at found
  split at found
  case isTrue upper =>
    rw [Option.some.injEq] at found
    refine ⟨by omega, ?_⟩
    rw [base32Letter, if_pos (by omega), ← found, Nat.sub_add_cancel upper.1, Char.ofNat_toNat]
  case isFalse =>
    split at found
    case isTrue digit =>
      rw [Option.some.injEq] at found
      refine ⟨by omega, ?_⟩
      rw [base32Letter, if_neg (by omega), ← found, Nat.sub_add_cancel (by omega),
        Char.ofNat_toNat]
    case isFalse => cases found

def bytesNumber (bytes : List UInt8) : Nat :=
  numberOf 256 (bytes.map UInt8.toNat)

def numberBytes (size value : Nat) : List UInt8 :=
  (fixedDigits 256 size value).map UInt8.ofNat

/-- The letters in front of the padding -/
def base32Symbols (bytes : List UInt8) : List Char :=
  let count := (bytes.length * 8 + 4) / 5
  (fixedDigits 32 count (bytesNumber bytes * 2 ^ (count * 5 - bytes.length * 8))).map base32Letter

def b32encode (bytes : List UInt8) : List Char :=
  let symbols := base32Symbols bytes
  symbols ++ List.replicate ((8 - symbols.length % 8) % 8) '='

def base32Digit (letter : Char) : Except String Nat :=
  match base32Value letter with
  | none => .error "Non-base32 digit found"
  | some value => .ok value

def b32decode (text : List Char) : Except String (List UInt8) := do
  require (text.length % 8 == 0) "Incorrect padding"
  let letters := text.rdropWhile (· == '=')
  let padding := text.length - letters.length
  let values ← letters.mapM base32Digit
  require (decide (padding ∈ [0, 1, 3, 4, 6])) "Incorrect padding"
  let size := letters.length * 5 / 8
  return numberBytes size (numberOf 32 values / 2 ^ (letters.length * 5 - size * 8))

variable {bytes : List UInt8} {size : Nat}

theorem bytesNumber_lt : bytesNumber bytes < 256 ^ bytes.length := by
  have small : ∀ digit ∈ bytes.map UInt8.toNat, digit < 256 := by
    intro digit listed
    obtain ⟨byte, -, rfl⟩ := List.mem_map.mp listed
    exact byte.toNat_lt
  have bound := numberOf_lt small
  rwa [List.length_map] at bound

theorem numberBytes_bytesNumber : numberBytes bytes.length (bytesNumber bytes) = bytes := by
  have small : ∀ digit ∈ bytes.map UInt8.toNat, digit < 256 := by
    intro digit listed
    obtain ⟨byte, -, rfl⟩ := List.mem_map.mp listed
    exact byte.toNat_lt
  have digits := fixedDigits_numberOf small
  rw [List.length_map] at digits
  rw [numberBytes, bytesNumber, digits, List.map_map]
  exact (List.map_congr_left fun byte _ => UInt8.ofNat_toNat).trans bytes.map_id

@[simp] theorem length_numberBytes : (numberBytes size value).length = size := by
  rw [numberBytes, List.length_map, length_fixedDigits]

@[simp] theorem length_base32Symbols :
    (base32Symbols bytes).length = (bytes.length * 8 + 4) / 5 := by
  rw [base32Symbols, List.length_map, length_fixedDigits]

theorem base32Value_of_mem (listed : letter ∈ base32Symbols bytes) :
    ∃ value, base32Value letter = some value := by
  obtain ⟨digit, member, rfl⟩ := List.mem_map.mp listed
  exact ⟨digit, base32Value_letter (lt_of_mem_fixedDigits (by omega) digit member)⟩

theorem equals_notMem_symbols : '=' ∉ base32Symbols bytes := by
  intro listed
  obtain ⟨value, found⟩ := base32Value_of_mem listed
  exact absurd found (by decide +revert)

theorem rdropWhile_padding {letters : List Char} {count : Nat} (unpadded : '=' ∉ letters) :
    (letters ++ List.replicate count '=').rdropWhile (· == '=') = letters := by
  induction count with
  | zero =>
    rw [List.replicate_zero, List.append_nil, List.rdropWhile_eq_self_iff]
    intro some last
    rw [beq_iff_eq] at last
    exact unpadded (last ▸ List.getLast_mem some)
  | succ count induction =>
    rw [List.replicate_succ', ← List.append_assoc, List.rdropWhile_concat_pos _ _ _ rfl,
      induction]

theorem rdropWhile_b32encode :
    (b32encode bytes).rdropWhile (· == '=') = base32Symbols bytes :=
  rdropWhile_padding equals_notMem_symbols

theorem mapM_base32Letter {digits : List Nat} (small : ∀ digit ∈ digits, digit < 32) :
    (digits.map base32Letter).mapM base32Digit = .ok digits := by
  induction digits with
  | nil => rfl
  | cons head tail induction =>
    have found : base32Digit (base32Letter head) = .ok head := by
      rw [base32Digit, base32Value_letter (small head List.mem_cons_self)]
    rw [List.map_cons, List.mapM_cons, found, ok_bind,
      induction fun digit listed => small digit (List.mem_cons_of_mem _ listed), ok_bind]
    rfl

theorem b32decode_b32encode (bytes : List UInt8) :
    b32decode (b32encode bytes) = .ok bytes := by
  have length : (b32encode bytes).length = (bytes.length * 8 + 4) / 5 +
      (8 - (bytes.length * 8 + 4) / 5 % 8) % 8 := by
    rw [b32encode, List.length_append, length_base32Symbols, List.length_replicate]
  have blocks : ((b32encode bytes).length % 8 == 0) = true := by
    rw [length, beq_iff_eq]
    omega
  have padding : decide ((b32encode bytes).length - (bytes.length * 8 + 4) / 5 ∈ [0, 1, 3, 4, 6]) =
      true := by
    rw [length, decide_eq_true_iff]
    simp only [List.mem_cons, List.not_mem_nil, or_false]
    omega
  have size : (bytes.length * 8 + 4) / 5 * 5 / 8 = bytes.length := by omega
  have small : ∀ digit ∈ fixedDigits 32 ((bytes.length * 8 + 4) / 5) (bytesNumber bytes *
      2 ^ ((bytes.length * 8 + 4) / 5 * 5 - bytes.length * 8)), digit < 32 :=
    lt_of_mem_fixedDigits (by omega)
  have bounded : bytesNumber bytes * 2 ^ ((bytes.length * 8 + 4) / 5 * 5 - bytes.length * 8) <
      32 ^ ((bytes.length * 8 + 4) / 5) := by
    have powers : 32 ^ ((bytes.length * 8 + 4) / 5) = 256 ^ bytes.length *
        2 ^ ((bytes.length * 8 + 4) / 5 * 5 - bytes.length * 8) := by
      rw [show 32 = 2 ^ 5 from rfl, show 256 = 2 ^ 8 from rfl, ← Nat.pow_mul, ← Nat.pow_mul,
        ← Nat.pow_add]
      congr 1
      omega
    rw [powers]
    exact Nat.mul_lt_mul_of_pos_right bytesNumber_lt (Nat.pow_pos (by omega))
  rw [b32decode, require_bind_eq_ok, rdropWhile_b32encode]
  refine ⟨blocks, ?_⟩
  dsimp only
  rw [length_base32Symbols, base32Symbols, mapM_base32Letter small, ok_bind,
    require_bind_eq_ok, pure_eq_ok, size,
    numberOf_fixedDigits bounded, Nat.mul_div_cancel _ (Nat.pow_pos (by omega)),
    numberBytes_bytesNumber]
  exact ⟨padding, rfl⟩

end JobAgg
