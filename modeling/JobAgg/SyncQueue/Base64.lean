import Mathlib
import JobAgg.Foundation.Radix
import JobAgg.SyncQueue.Operation

/-! # Bytes of a Base64 text

A text is read as one stream of bits, of which the unused bits of the last letter are dropped.
A text that encoding its bytes gives back is determined by these bytes. -/

namespace JobAgg.SyncQueue

/-- The letters in front of the padding -/
def base64Body (text : String) : List Char :=
  text.toList.takeWhile (· != '=')

def base64Padding (text : String) : Nat :=
  text.toList.length - (base64Body text).length

def base64Values (text : String) : List Nat :=
  (base64Body text).map fun letter => (base64Value letter).getD 0

/-- `base64.b64decode` -/
def decodeBase64 (text : String) : List Nat :=
  fixedDigits 256 (text.toList.length / 4 * 3 - base64Padding text)
    (numberOf 64 (base64Values text) / 4 ^ base64Padding text)

section Letters

variable {letter : Char}

theorem isUpper_iff : letter.isUpper = true ↔ 65 ≤ letter.toNat ∧ letter.toNat ≤ 90 := by
  simp only [Char.isUpper, decide_eq_true_eq, UInt32.le_iff_toNat_le, ge_iff_le]
  rfl

theorem isLower_iff : letter.isLower = true ↔ 97 ≤ letter.toNat ∧ letter.toNat ≤ 122 := by
  simp only [Char.isLower, Bool.and_eq_true, decide_eq_true_eq, UInt32.le_iff_toNat_le, ge_iff_le]
  rfl

theorem isDigit_iff : letter.isDigit = true ↔ 48 ≤ letter.toNat ∧ letter.toNat ≤ 57 := by
  simp only [Char.isDigit, Bool.and_eq_true, decide_eq_true_eq, UInt32.le_iff_toNat_le, ge_iff_le]
  rfl

theorem base64Value_cases {value : Nat} (found : base64Value letter = some value) :
    (value < 26 ∧ letter.toNat = value + 65) ∨ (26 ≤ value ∧ value < 52 ∧ letter.toNat = value + 71) ∨
      (52 ≤ value ∧ value < 62 ∧ letter.toNat + 4 = value) ∨ (value = 62 ∧ letter.toNat = 43) ∨
      (value = 63 ∧ letter.toNat = 47) := by
  have upperA : 'A'.toNat = 65 := rfl
  have lowerA : 'a'.toNat = 97 := rfl
  have zero : '0'.toNat = 48 := rfl
  rw [base64Value] at found
  split at found
  case isTrue upper =>
    rw [Option.some.injEq] at found
    have range := isUpper_iff.mp upper
    omega
  case isFalse =>
    split at found
    case isTrue lower =>
      rw [Option.some.injEq] at found
      have range := isLower_iff.mp lower
      omega
    case isFalse =>
      split at found
      case isTrue digit =>
        rw [Option.some.injEq] at found
        have range := isDigit_iff.mp digit
        omega
      case isFalse =>
        split at found
        case isTrue plus =>
          rw [Option.some.injEq] at found
          rw [beq_iff_eq.mp plus]
          exact .inr (.inr (.inr (.inl ⟨found.symm, rfl⟩)))
        case isFalse =>
          split at found
          case isTrue slash =>
            rw [Option.some.injEq] at found
            rw [beq_iff_eq.mp slash]
            exact .inr (.inr (.inr (.inr ⟨found.symm, rfl⟩)))
          case isFalse => cases found

theorem base64Value_inj {one two : Char} {value : Nat} (first : base64Value one = some value)
    (second : base64Value two = some value) : one = two := by
  rw [← Char.toNat_inj]
  have := base64Value_cases first
  have := base64Value_cases second
  omega

theorem base64Value_lt {value : Nat} (found : base64Value letter = some value) : value < 64 := by
  have := base64Value_cases found
  omega

end Letters

variable {text one two : String} {size : Nat}

/-- What a text is made of that encoding its bytes gives back. -/
structure Canonical (text : String) (size : Nat) : Prop where
  whole : text.toList.length % 4 = 0
  padding : base64Padding text ≤ 2
  pads : text.toList = base64Body text ++ List.replicate (base64Padding text) '='
  body : ∀ letter ∈ base64Body text, (base64Value letter).isSome = true
  bits : numberOf 64 (base64Values text) % 4 ^ base64Padding text = 0
  size : size = text.toList.length / 4 * 3 - base64Padding text

theorem length_base64Body_le : (base64Body text).length ≤ text.toList.length :=
  (List.takeWhile_sublist _).length_le

theorem canonical_of_length (found : canonicalBase64Length text = some size) :
    Canonical text size := by
  rw [canonicalBase64Length] at found
  split at found
  case isTrue checked =>
    simp only [Bool.and_eq_true, beq_iff_eq, decide_eq_true_eq, List.all_eq_true] at checked
    obtain ⟨⟨⟨⟨whole, padding⟩, rest⟩, body⟩, bits⟩ := checked
    rw [Option.some.injEq] at found
    change base64Padding text ≤ 2 at padding
    refine ⟨whole, padding, ?_, body, ?_, found.symm⟩
    · have tail : text.toList.drop (base64Body text).length =
          List.replicate (base64Padding text) '=' := by
        apply List.eq_replicate_iff.mpr ⟨?_, rest⟩
        rw [List.length_drop, base64Padding, base64Body]
      have parts := List.takeWhile_append_dropWhile (p := (· != '=')) (l := text.toList)
      rw [← tail]
      nth_rewrite 2 [← parts]
      rw [base64Body, List.drop_left' rfl, parts]
    · change ((base64Body text).getLast?.bind base64Value).getD 0 % _ = 0 at bits
      have divides : 4 ^ base64Padding text ∣ 64 := by
        change 4 ^ base64Padding text ∣ 4 ^ 3
        exact Nat.pow_dvd_pow 4 (by omega)
      rw [base64Values]
      rcases List.eq_nil_or_concat' (base64Body text) with none | ⟨front, last, parts⟩
      · rw [none]
        exact Nat.zero_mod _
      · have known := body last (by
          change last ∈ base64Body text
          rw [parts]
          exact List.mem_append_right _ (List.mem_singleton_self last))
        obtain ⟨value, valued⟩ := Option.isSome_iff_exists.mp known
        rw [parts, List.getLast?_concat, Option.bind_some, valued, Option.getD_some] at bits
        rw [parts, List.map_append, List.map_singleton, numberOf_concat, valued, Option.getD_some]
        apply Nat.mod_eq_zero_of_dvd
        exact (Nat.dvd_add_right (divides.mul_left _)).mpr (Nat.dvd_of_mod_eq_zero bits)
  case isFalse => cases found

theorem length_base64Body :
    (base64Body text).length + base64Padding text = text.toList.length := by
  have := @length_base64Body_le text
  rw [base64Padding]
  omega

theorem Canonical.power (canonical : Canonical text size) :
    64 ^ (base64Values text).length = 256 ^ size * 4 ^ base64Padding text := by
  have whole := canonical.whole
  have bounded := canonical.padding
  have body := @length_base64Body text
  have sized := canonical.size
  have letters : 3 * (base64Values text).length = 4 * size + base64Padding text := by
    rw [base64Values, List.length_map]
    omega
  change (4 ^ 3) ^ _ = (4 ^ 4) ^ _ * _
  rw [← Nat.pow_mul, ← Nat.pow_mul, ← Nat.pow_add, letters]

theorem Canonical.small (canonical : Canonical text size) :
    ∀ value ∈ base64Values text, value < 64 := by
  intro value listed
  obtain ⟨letter, member, rfl⟩ := List.mem_map.mp listed
  obtain ⟨found, valued⟩ := Option.isSome_iff_exists.mp (canonical.body letter member)
  rw [valued, Option.getD_some]
  exact base64Value_lt valued

theorem Canonical.eq_of_values (first : Canonical one size) (second : Canonical two size)
    (padding : base64Padding one = base64Padding two) (same : base64Values one = base64Values two) :
    one = two := by
  have bodies : base64Body one = base64Body two := by
    apply eq_of_map_eq ?_ same
    intro letter inOne other inTwo equal
    obtain ⟨value, valued⟩ := Option.isSome_iff_exists.mp (first.body letter inOne)
    obtain ⟨found, read⟩ := Option.isSome_iff_exists.mp (second.body other inTwo)
    rw [valued, read, Option.getD_some, Option.getD_some] at equal
    rw [equal] at valued
    exact base64Value_inj valued read
  rw [← String.toList_inj, first.pads, second.pads, bodies, padding]

theorem decodeBase64_inj (first : canonicalBase64Length one = some size)
    (second : canonicalBase64Length two = some size) :
    decodeBase64 one = decodeBase64 two ↔ one = two := by
  have once := canonical_of_length first
  have again := canonical_of_length second
  constructor
  · intro same
    have padding : base64Padding one = base64Padding two := by
      have := once.size
      have := again.size
      have := once.padding
      have := again.padding
      have := @length_base64Body one
      have := @length_base64Body two
      have := once.whole
      have := again.whole
      omega
    have lengths : (base64Values one).length = (base64Values two).length := by
      have := once.size
      have := again.size
      have := once.padding
      have := @length_base64Body one
      have := @length_base64Body two
      have := once.whole
      have := again.whole
      rw [base64Values, base64Values, List.length_map, List.length_map]
      omega
    have positive : 0 < 4 ^ base64Padding two := Nat.pow_pos (by omega)
    have oneBound := numberOf_lt once.small
    have twoBound := numberOf_lt again.small
    rw [once.power, padding] at oneBound
    rw [again.power] at twoBound
    rw [decodeBase64, decodeBase64, ← once.size, ← again.size, padding,
      fixedDigits_inj ((Nat.div_lt_iff_lt_mul positive).mpr oneBound)
        ((Nat.div_lt_iff_lt_mul positive).mpr twoBound)] at same
    have oneBits := once.bits
    rw [padding] at oneBits
    have numbers : numberOf 64 (base64Values one) = numberOf 64 (base64Values two) := by
      rw [← Nat.div_add_mod (numberOf 64 (base64Values one)) (4 ^ base64Padding two),
        ← Nat.div_add_mod (numberOf 64 (base64Values two)) (4 ^ base64Padding two), same, oneBits,
        again.bits]
    apply once.eq_of_values again padding
    rw [← fixedDigits_numberOf once.small, ← fixedDigits_numberOf again.small, numbers, lengths]
  · rintro rfl
    rfl

end JobAgg.SyncQueue
