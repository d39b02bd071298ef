import Mathlib.Data.String.Basic

/-! # Fields joined by separators

A text that is joined from fields can be taken apart again as long as no field holds the
separator. -/

namespace JobAgg

variable {Item : Type} {separator : Item} {one two more rest : List Item}
  {fields others : List (List Char)}

theorem separated_inj (first : separator ∉ one) (second : separator ∉ two) :
    one ++ separator :: more = two ++ separator :: rest ↔ one = two ∧ more = rest := by
  constructor
  · intro same
    induction one generalizing two with
    | nil =>
      cases two with
      | nil => exact ⟨rfl, List.tail_eq_of_cons_eq same⟩
      | cons head tail =>
        rw [List.nil_append, List.cons_append, List.cons_eq_cons] at same
        rw [← same.1] at second
        exact absurd List.mem_cons_self second
    | cons head tail induction =>
      cases two with
      | nil =>
        rw [List.nil_append, List.cons_append, List.cons_eq_cons] at same
        rw [same.1] at first
        exact absurd List.mem_cons_self first
      | cons other others =>
        rw [List.cons_append, List.cons_append, List.cons_eq_cons] at same
        obtain ⟨rfl, rest⟩ := same
        obtain ⟨rfl, rfl⟩ := induction (fun listed => first (List.mem_cons_of_mem _ listed))
          (fun listed => second (List.mem_cons_of_mem _ listed)) rest
        exact ⟨rfl, rfl⟩
  · rintro ⟨rfl, rfl⟩
    rfl

/-- Two fields of a joined text that are also read further on: the separator and the beginning
of the second field are taken into the first. -/
def SplitsLater (separator : Item) (one more two rest : List Item) : Prop :=
  ∃ middle, two = one ++ separator :: middle ∧ more = middle ++ separator :: rest

theorem separated_eq_iff : one ++ separator :: more = two ++ separator :: rest ↔
    (one = two ∧ more = rest) ∨ SplitsLater separator one more two rest ∨
      SplitsLater separator two rest one more := by
  constructor
  · intro same
    rcases List.append_eq_append_iff.mp same with ⟨between, longer, tail⟩ | ⟨between, longer, tail⟩
    · cases between with
      | nil =>
        rw [List.append_nil] at longer
        exact .inl ⟨longer.symm, List.tail_eq_of_cons_eq tail⟩
      | cons head middle =>
        rw [List.cons_append, List.cons_eq_cons] at tail
        obtain ⟨rfl, rest⟩ := tail
        exact .inr (.inl ⟨middle, longer, rest⟩)
    · cases between with
      | nil =>
        rw [List.append_nil] at longer
        exact .inl ⟨longer, (List.tail_eq_of_cons_eq tail).symm⟩
      | cons head middle =>
        rw [List.cons_append, List.cons_eq_cons] at tail
        obtain ⟨rfl, rest⟩ := tail
        exact .inr (.inr ⟨middle, longer, rest⟩)
  · rintro (⟨rfl, rfl⟩ | ⟨middle, rfl, rfl⟩ | ⟨middle, rfl, rfl⟩)
    · rfl
    · rw [List.append_assoc, List.cons_append]
    · rw [List.append_assoc, List.cons_append]

theorem SplitsLater.ne (later : SplitsLater separator one more two rest) : one ≠ two := by
  obtain ⟨middle, rfl, -⟩ := later
  intro same
  have lengths := congrArg List.length same
  rw [List.length_append, List.length_cons] at lengths
  omega

theorem SplitsLater.mem (later : SplitsLater separator one more two rest) : separator ∈ more := by
  obtain ⟨middle, -, rfl⟩ := later
  exact List.mem_append_right _ List.mem_cons_self

def lines (fields : List (List Char)) : List Char :=
  fields.flatMap fun field => field ++ ['\n']

theorem lines_cons {field : List Char} :
    lines (field :: fields) = field ++ '\n' :: lines fields := by
  rw [lines, List.flatMap_cons, List.append_assoc, List.singleton_append, lines]

theorem lines_inj (first : ∀ field ∈ fields, '\n' ∉ field)
    (second : ∀ field ∈ others, '\n' ∉ field) : lines fields = lines others ↔ fields = others := by
  constructor
  · intro same
    induction fields generalizing others with
    | nil =>
      cases others with
      | nil => rfl
      | cons head tail =>
        have lengths := congrArg List.length same
        rw [lines_cons, List.length_append, List.length_cons] at lengths
        change 0 = _ at lengths
        omega
    | cons head tail induction =>
      cases others with
      | nil =>
        have lengths := congrArg List.length same
        rw [lines_cons, List.length_append, List.length_cons] at lengths
        change _ = 0 at lengths
        omega
      | cons other others =>
        rw [lines_cons, lines_cons, separated_inj (first head List.mem_cons_self)
          (second other List.mem_cons_self)] at same
        rw [same.1, induction (fun field listed => first field (List.mem_cons_of_mem _ listed))
          (fun field listed => second field (List.mem_cons_of_mem _ listed)) same.2]
  · rintro rfl
    rfl

/-- `str` of a number -/
def decimal (value : Nat) : List Char :=
  Nat.toDigits 10 value

theorem decimal_injective : Function.Injective decimal := by
  intro one two same
  rw [← @Nat.ofDigitChars_ten_toDigits one, ← @Nat.ofDigitChars_ten_toDigits two]
  exact congrArg (fun letters => Nat.ofDigitChars 10 letters 0) same

theorem notMem_of_all {accepts : Char → Bool} {letters : List Char} {letter : Char}
    (all : letters.all accepts = true) (refused : accepts letter = false) : letter ∉ letters := by
  intro listed
  rw [List.all_eq_true.mp all letter listed] at refused
  cases refused

theorem notMem_decimal {value : Nat} {letter : Char} (other : letter.isDigit = false) :
    letter ∉ decimal value := by
  intro listed
  rw [Nat.isDigit_of_mem_toDigits (by omega) (by omega) listed] at other
  cases other

end JobAgg
