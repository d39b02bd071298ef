import Mathlib.Algebra.Order.Ring.Int
import Mathlib.Data.List.Lex
import Mathlib.Data.List.Induction

/-! # Numbers of a fixed width

A number below `base ^ width` is written with `width` digits, most significant first. Written
that way, numbers and lists of digits are the same, and their order is that of the lists. -/

namespace JobAgg

section Order

variable {Item Other : Type} [LinearOrder Item] [LinearOrder Other]

theorem append_lt_append_iff {one two more rest : List Item} (same : one.length = two.length) :
    one ++ more < two ++ rest ↔ one < two ∨ one = two ∧ more < rest := by
  induction one generalizing two with
  | nil =>
    rw [List.length_nil, eq_comm, List.length_eq_zero_iff] at same
    simp [same]
  | cons head tail induction =>
    cases two with
    | nil => cases same
    | cons first others =>
      rw [List.length_cons, List.length_cons, Nat.add_right_cancel_iff] at same
      rw [List.cons_append, List.cons_append, List.cons_lt_cons_iff, List.cons_lt_cons_iff,
        induction same, List.cons_eq_cons]
      constructor
      · rintro (less | ⟨equal, less | ⟨others, less⟩⟩)
        · exact .inl (.inl less)
        · exact .inl (.inr ⟨equal, less⟩)
        · exact .inr ⟨⟨equal, others⟩, less⟩
      · rintro ((less | ⟨equal, less⟩) | ⟨⟨equal, others⟩, less⟩)
        · exact .inl less
        · exact .inr ⟨equal, .inl less⟩
        · exact .inr ⟨equal, .inr ⟨others, less⟩⟩

theorem map_lt_map_iff {spell : Item → Other} {one two : List Item}
    (increasing : ∀ first ∈ one, ∀ second ∈ two, (spell first < spell second ↔ first < second) ∧
      (spell first = spell second ↔ first = second)) :
    one.map spell < two.map spell ↔ one < two := by
  induction one generalizing two with
  | nil =>
    cases two with
    | nil => simp
    | cons first others => simp
  | cons head tail induction =>
    cases two with
    | nil => simp
    | cons first others =>
      obtain ⟨less, equal⟩ := increasing head List.mem_cons_self first List.mem_cons_self
      rw [List.map_cons, List.map_cons, List.cons_lt_cons_iff, List.cons_lt_cons_iff, less,
        equal, induction]
      intro one inTail two inOthers
      exact increasing one (List.mem_cons_of_mem _ inTail) two (List.mem_cons_of_mem _ inOthers)

end Order

theorem eq_of_map_eq {Item Other : Type} {function : Item → Other} {one two : List Item}
    (apart : ∀ first ∈ one, ∀ second ∈ two, function first = function second → first = second)
    (same : one.map function = two.map function) : one = two := by
  induction one generalizing two with
  | nil =>
    rw [List.map_nil, eq_comm, List.map_eq_nil_iff] at same
    exact same.symm
  | cons head tail induction =>
    cases two with
    | nil => cases same
    | cons other others =>
      rw [List.map_cons, List.map_cons, List.cons_eq_cons] at same
      rw [apart head List.mem_cons_self other List.mem_cons_self same.1,
        induction (fun first inTail second inOthers => apart first
          (List.mem_cons_of_mem _ inTail) second (List.mem_cons_of_mem _ inOthers)) same.2]

/-- The last `width` digits of a number, most significant first. -/
def fixedDigits (base : Nat) : Nat → Nat → List Nat
  | 0, _ => []
  | width + 1, value => fixedDigits base width (value / base) ++ [value % base]

def numberOf (base : Nat) (digits : List Nat) : Nat :=
  digits.foldl (fun value digit => value * base + digit) 0

variable {base width value other : Nat} {digits : List Nat}

@[simp] theorem length_fixedDigits : (fixedDigits base width value).length = width := by
  induction width generalizing value with
  | zero => rfl
  | succ width induction => rw [fixedDigits, List.length_append, induction, List.length_singleton]

theorem lt_of_mem_fixedDigits (positive : 0 < base) :
    ∀ digit ∈ fixedDigits base width value, digit < base := by
  induction width generalizing value with
  | zero =>
    intro digit impossible
    cases impossible
  | succ width induction =>
    intro digit listed
    rw [fixedDigits, List.mem_append, List.mem_singleton] at listed
    rcases listed with front | last
    · exact induction digit front
    · rw [last]
      exact Nat.mod_lt _ positive

theorem numberOf_concat {digit : Nat} :
    numberOf base (digits ++ [digit]) = numberOf base digits * base + digit := by
  rw [numberOf, List.foldl_append]
  rfl

theorem numberOf_fixedDigits (bounded : value < base ^ width) :
    numberOf base (fixedDigits base width value) = value := by
  induction width generalizing value with
  | zero =>
    rw [Nat.pow_zero, Nat.lt_one_iff] at bounded
    rw [bounded]
    rfl
  | succ width induction =>
    have front : value / base < base ^ width := by
      apply Nat.div_lt_of_lt_mul
      rwa [Nat.pow_succ, Nat.mul_comm] at bounded
    rw [fixedDigits, numberOf_concat, induction front]
    exact Nat.div_add_mod' value base

theorem fixedDigits_numberOf (small : ∀ digit ∈ digits, digit < base) :
    fixedDigits base digits.length (numberOf base digits) = digits := by
  induction digits using List.reverseRecOn with
  | nil => rfl
  | append_singleton front last induction =>
    have bound := small last (List.mem_append_right _ (List.mem_singleton_self last))
    have positive : 0 < base := Nat.lt_of_le_of_lt (Nat.zero_le _) bound
    rw [List.length_append, List.length_singleton, fixedDigits, numberOf_concat,
      Nat.mul_comm, Nat.mul_add_div positive, Nat.div_eq_of_lt bound, Nat.add_zero,
      Nat.mul_add_mod, Nat.mod_eq_of_lt bound, induction]
    intro digit listed
    exact small digit (List.mem_append_left _ listed)

theorem numberOf_lt (small : ∀ digit ∈ digits, digit < base) :
    numberOf base digits < base ^ digits.length := by
  induction digits using List.reverseRecOn with
  | nil => exact Nat.one_pos
  | append_singleton front last induction =>
    have bound := small last (List.mem_append_right _ (List.mem_singleton_self last))
    have before := induction fun digit listed => small digit (List.mem_append_left _ listed)
    rw [List.length_append, List.length_singleton, numberOf_concat, Nat.pow_succ]
    calc numberOf base front * base + last
        < numberOf base front * base + base := Nat.add_lt_add_left bound _
      _ = (numberOf base front + 1) * base := (Nat.succ_mul _ _).symm
      _ ≤ base ^ front.length * base := Nat.mul_le_mul_right _ before

theorem fixedDigits_inj (first : value < base ^ width) (second : other < base ^ width) :
    fixedDigits base width value = fixedDigits base width other ↔ value = other := by
  constructor
  · intro same
    rw [← numberOf_fixedDigits first, same, numberOf_fixedDigits second]
  · rintro rfl
    rfl

theorem fixedDigits_lt_iff (first : value < base ^ width) (second : other < base ^ width) :
    fixedDigits base width value < fixedDigits base width other ↔ value < other := by
  induction width generalizing value other with
  | zero =>
    rw [Nat.pow_zero, Nat.lt_one_iff] at first second
    simp [first, second, fixedDigits]
  | succ width induction =>
    have firstFront : value / base < base ^ width := by
      apply Nat.div_lt_of_lt_mul
      rwa [Nat.pow_succ, Nat.mul_comm] at first
    have secondFront : other / base < base ^ width := by
      apply Nat.div_lt_of_lt_mul
      rwa [Nat.pow_succ, Nat.mul_comm] at second
    rw [fixedDigits, fixedDigits, append_lt_append_iff (by simp),
      induction firstFront secondFront,
      fixedDigits_inj firstFront secondFront]
    have one := Nat.div_add_mod value base
    have two := Nat.div_add_mod other base
    have positive : 0 < base := by
      rcases Nat.eq_zero_or_pos base with rfl | positive
      · rw [Nat.pow_succ, Nat.mul_zero] at first
        omega
      · exact positive
    have oneRest := Nat.mod_lt value positive
    have twoRest := Nat.mod_lt other positive
    have step : value / base < other / base →
        base * (value / base) + base ≤ base * (other / base) := fun less => by
      rw [← Nat.mul_succ]
      exact Nat.mul_le_mul_left _ less
    have back : other / base < value / base →
        base * (other / base) + base ≤ base * (value / base) := fun less => by
      rw [← Nat.mul_succ]
      exact Nat.mul_le_mul_left _ less
    have single : [value % base] < [other % base] ↔ value % base < other % base := by
      rw [List.cons_lt_cons_iff]
      simp
    rw [single]
    constructor
    · rintro (less | ⟨same, less⟩)
      · have := step less
        omega
      · rw [same] at one
        omega
    · intro less
      rcases lt_trichotomy (value / base) (other / base) with before | same | behind
      · exact .inl before
      · refine .inr ⟨same, ?_⟩
        rw [same] at one
        omega
      · have := back behind
        omega

end JobAgg
