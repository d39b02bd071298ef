import JobAgg.Foundation.Calendar
import JobAgg.Foundation.Substitution
import Mathlib.Data.List.DropRight

/-! # Character references of HTML

`html.unescape` puts letters in the place of references by name or by number. A number is read
with `int`, which refuses more than 4300 decimal digits. -/

namespace JobAgg

/-- `[0-9a-fA-F]` -/
def isHexDigit (letter : Char) : Bool :=
  letter.isDigit || decide ('a' ≤ letter ∧ letter ≤ 'f') || decide ('A' ≤ letter ∧ letter ≤ 'F')

def hexValue (letter : Char) : Nat :=
  if letter.isDigit then letter.toNat - 48 else letter.toLower.toNat - 87

/-- `[^\t\n\f <&#;]` -/
def isReferenceLetter (letter : Char) : Bool :=
  letter.toNat ∉ [9, 10, 12, 32] && letter ∉ ['<', '&', '#', ';']

/-- `;?` -/
def semicolon (rest : List Char) : List Char :=
  if rest.head? = some ';' then [';'] else []

/-- The letters of a reference behind its `&`: `_charref` -/
def charref : List Char → Option (List Char)
  | '#' :: rest =>
    let digits := rest.takeWhile Char.isDigit
    if digits ≠ [] then some ('#' :: digits ++ semicolon (rest.drop digits.length))
    else
      match rest with
      | [] => none
      | mark :: rest =>
        let digits := rest.takeWhile isHexDigit
        if (mark = 'x' ∨ mark = 'X') ∧ digits ≠ [] then
          some ('#' :: mark :: digits ++ semicolon (rest.drop digits.length))
        else none
  | rest =>
    let name := (rest.takeWhile isReferenceLetter).take 32
    if name ≠ [] then some (name ++ semicolon (rest.drop name.length)) else none

def invalidCharrefs : List (Nat × Nat) :=
  [(0x00, 0xfffd), (0x0d, 0x0d), (0x80, 0x20ac), (0x81, 0x81), (0x82, 0x201a), (0x83, 0x0192),
    (0x84, 0x201e), (0x85, 0x2026), (0x86, 0x2020), (0x87, 0x2021), (0x88, 0x02c6),
    (0x89, 0x2030), (0x8a, 0x0160), (0x8b, 0x2039), (0x8c, 0x0152), (0x8d, 0x8d), (0x8e, 0x017d),
    (0x8f, 0x8f), (0x90, 0x90), (0x91, 0x2018), (0x92, 0x2019), (0x93, 0x201c), (0x94, 0x201d),
    (0x95, 0x2022), (0x96, 0x2013), (0x97, 0x2014), (0x98, 0x02dc), (0x99, 0x2122),
    (0x9a, 0x0161), (0x9b, 0x203a), (0x9c, 0x0153), (0x9d, 0x9d), (0x9e, 0x017e), (0x9f, 0x0178)]

/-- `_invalid_codepoints` -/
def isInvalidCodepoint (number : Nat) : Bool :=
  decide (1 ≤ number ∧ number ≤ 8) || decide (0xe ≤ number ∧ number ≤ 0x1f) ||
    decide (0x7f ≤ number ∧ number ≤ 0x9f) || decide (0xfdd0 ≤ number ∧ number ≤ 0xfdef) ||
    number == 0xb || decide (0xfffe ≤ number % 0x10000)

def numberedLetters (number : Nat) : List Char :=
  match invalidCharrefs.find? (·.1 == number) with
  | some replaced => [Char.ofNat replaced.2]
  | none =>
    if (0xd800 ≤ number ∧ number ≤ 0xdfff) ∨ 0x10ffff < number then [Char.ofNat 0xfffd]
    else if isInvalidCodepoint number then []
    else [Char.ofNat number]

/-- `sys.get_int_max_str_digits` -/
def maxStrDigits : Nat := 4300

/-- `_replace_charref`, with the names of the standard -/
def replaceCharref (html5 : List Char → Option (List Char)) :
    List Char → Except String (List Char)
  | '#' :: rest =>
    let spelled := rest.rdropWhile (· == ';')
    if rest.head? = some 'x' ∨ rest.head? = some 'X' then
      .ok (numberedLetters (numberOf 16 (spelled.tail.map hexValue)))
    else if maxStrDigits < spelled.length then .error "ValueError"
    else .ok (numberedLetters (numberOf 10 (spelled.map fun letter => letter.toNat - 48)))
  | name =>
    match html5 name with
    | some letters => .ok letters
    | none =>
      -- the longest name that the reference begins with
      let shorter := (List.range' 2 (name.length - 2)).reverse.findSome? fun size =>
        (html5 (name.take size)).map (· ++ name.drop size)
      .ok (shorter.getD ('&' :: name))

def referencePattern (html5 : List Char → Option (List Char)) :
    List Char → Option (Nat × Except String (List Char))
  | '&' :: rest =>
    (charref rest).map fun name => (name.length + 1, replaceCharref html5 name)
  | _ => none

def unescape (html5 : List Char → Option (List Char)) (text : List Char) :
    Except String (List Char) :=
  if '&' ∉ text then .ok text else substituteFrom (referencePattern html5) 0 text

/-- A decimal reference that starts a text and has more digits than `int` reads -/
def isLongReference (text : List Char) : Bool :=
  text.take 2 == ['&', '#'] && decide (maxStrDigits < ((text.drop 2).takeWhile Char.isDigit).length)

variable {html5 : List Char → Option (List Char)} {text rest name : List Char}

theorem semicolon_eq (rest : List Char) :
    semicolon rest = [] ∨ semicolon rest = [';'] := by
  rw [semicolon]
  split
  · exact .inr rfl
  · exact .inl rfl

theorem semicolon_isPrefix (rest : List Char) : semicolon rest <+: rest := by
  rw [semicolon]
  split
  case isTrue marked =>
    cases rest with
    | nil => cases marked
    | cons head tail =>
      rw [List.head?_cons, Option.some.injEq] at marked
      rw [marked]
      exact ⟨tail, rfl⟩
  case isFalse => exact List.nil_prefix

inductive Spelled : List Char → List Char → Prop where
  | decimal {rest : List Char} (any : rest.takeWhile Char.isDigit ≠ []) :
      Spelled ('#' :: rest) ('#' :: (rest.takeWhile Char.isDigit ++
        semicolon (rest.drop (rest.takeWhile Char.isDigit).length)))
  | hexadecimal {mark : Char} {rest : List Char} (marked : mark = 'x' ∨ mark = 'X') :
      Spelled ('#' :: mark :: rest) ('#' :: mark :: (rest.takeWhile isHexDigit ++
        semicolon (rest.drop (rest.takeWhile isHexDigit).length)))
  | named {rest : List Char} (size : Nat) (unnumbered : rest.head? ≠ some '#')
      (any : (rest.takeWhile isReferenceLetter).take size ≠ []) :
      Spelled rest ((rest.takeWhile isReferenceLetter).take size ++
        semicolon (rest.drop ((rest.takeWhile isReferenceLetter).take size).length))

theorem spelled_of_charref (found : charref rest = some name) : Spelled rest name := by
  rw [charref.eq_def] at found
  split at found
  case h_1 more =>
    dsimp only at found
    split at found
    case isTrue some =>
      rw [Option.some.injEq] at found
      subst found
      exact .decimal some
    case isFalse =>
      split at found
      case h_1 => cases found
      case h_2 mark more =>
        split at found
        case isTrue marked =>
          rw [Option.some.injEq] at found
          subst found
          exact .hexadecimal marked.1
        case isFalse => cases found
  case h_2 unnumbered =>
    dsimp only at found
    split at found
    case isTrue some =>
      rw [Option.some.injEq] at found
      subst found
      refine .named 32 ?_ some
      intro marked
      cases rest with
      | nil => cases marked
      | cons head tail =>
        rw [List.head?_cons, Option.some.injEq] at marked
        rw [marked] at unnumbered
        exact unnumbered tail rfl
    case isFalse => cases found

theorem run_isPrefix (accepts : Char → Bool) (rest : List Char) :
    rest.takeWhile accepts ++ semicolon (rest.drop (rest.takeWhile accepts).length) <+: rest := by
  have behind := semicolon_isPrefix (rest.drop (rest.takeWhile accepts).length)
  have taken := List.prefix_iff_eq_take.mp (List.takeWhile_prefix accepts (l := rest))
  obtain ⟨more, same⟩ := behind
  refine ⟨more, ?_⟩
  rw [List.append_assoc, same]
  nth_rewrite 1 [taken]
  exact List.take_append_drop _ _

theorem Spelled.isPrefix (spelled : Spelled rest name) : name <+: rest := by
  cases spelled with
  | decimal any => exact List.cons_prefix_cons.mpr ⟨rfl, run_isPrefix _ _⟩
  | hexadecimal marked =>
    exact List.cons_prefix_cons.mpr ⟨rfl, List.cons_prefix_cons.mpr ⟨rfl, run_isPrefix _ _⟩⟩
  | named size unnumbered any =>
    have taken := List.prefix_iff_eq_take.mp
      ((List.take_prefix size _).trans (List.takeWhile_prefix isReferenceLetter (l := rest)))
    obtain ⟨more, same⟩ := semicolon_isPrefix
      (rest.drop ((rest.takeWhile isReferenceLetter).take size).length)
    refine ⟨more, ?_⟩
    rw [List.append_assoc, same]
    nth_rewrite 1 [taken]
    exact List.take_append_drop _ _

theorem notMem_run {accepts : Char → Bool} (refused : accepts '&' = false) (more : List Char) :
    '&' ∉ rest.takeWhile accepts ++ semicolon more := by
  rw [List.mem_append]
  rintro (inRun | inMark)
  · rw [List.mem_takeWhile_imp inRun] at refused
    cases refused
  · rcases semicolon_eq more with none | mark
    · rw [none] at inMark
      cases inMark
    · rw [mark] at inMark
      exact absurd inMark (by decide)

theorem Spelled.notMem (spelled : Spelled rest name) : '&' ∉ name := by
  cases spelled with
  | decimal any =>
    rw [List.mem_cons]
    rintro (same | listed)
    · exact absurd same (by decide)
    · exact notMem_run (by decide) _ listed
  | hexadecimal marked =>
    rw [List.mem_cons, List.mem_cons]
    rintro (same | same | listed)
    · exact absurd same (by decide)
    · rw [← same] at marked
      exact absurd marked (by decide)
    · exact notMem_run (by decide) _ listed
  | named size unnumbered any =>
    intro listed
    rcases List.mem_append.mp listed with inName | inMark
    · exact notMem_run (by decide) [] (List.mem_append_left _ (List.mem_of_mem_take inName))
    · exact @notMem_run [] isReferenceLetter (by decide) _ (List.mem_append_right _ inMark)

theorem rdropWhile_run {accepts : Char → Bool} (refused : accepts ';' = false)
    (more : List Char) : (rest.takeWhile accepts ++ semicolon more).rdropWhile (· == ';') =
      rest.takeWhile accepts := by
  have kept : (rest.takeWhile accepts).rdropWhile (· == ';') = rest.takeWhile accepts := by
    rw [List.rdropWhile_eq_self_iff]
    intro some marked
    rw [beq_iff_eq] at marked
    have accepted := List.mem_takeWhile_imp (List.getLast_mem some)
    rw [marked, refused] at accepted
    cases accepted
  rcases semicolon_eq more with none | mark
  · rw [none, List.append_nil, kept]
  · rw [mark, List.rdropWhile_concat_pos _ _ _ (by decide), kept]

theorem head_of_run {accepts : Char → Bool} {letter : Char} (any : rest.takeWhile accepts ≠ [])
    (more : List Char) (first : (rest.takeWhile accepts ++ more).head? = some letter) :
    accepts letter = true := by
  rw [List.head?_append_of_ne_nil _ any] at first
  exact List.mem_takeWhile_imp (List.mem_of_mem_head? first)

/-- Digits behind the `#` that are more than `int` reads -/
def hasLongNumber (rest : List Char) : Prop :=
  rest.head? = some '#' ∧ maxStrDigits < (rest.tail.takeWhile Char.isDigit).length

theorem Spelled.fails_iff (spelled : Spelled rest name) :
    (∃ error, replaceCharref html5 name = .error error) ↔ hasLongNumber rest := by
  cases spelled with
  | decimal any =>
    rename_i more
    have digit : ∀ letter, Char.isDigit letter = false →
        (more.takeWhile Char.isDigit ++
          semicolon (more.drop (more.takeWhile Char.isDigit).length)).head? ≠ some letter := by
      intro letter refused first
      rw [head_of_run any _ first] at refused
      cases refused
    rw [replaceCharref, rdropWhile_run (by decide), hasLongNumber, List.tail_cons,
      if_neg (not_or_intro (digit 'x' (by decide)) (digit 'X' (by decide)))]
    split
    case isTrue long => exact iff_of_true ⟨_, rfl⟩ ⟨rfl, long⟩
    case isFalse short =>
      exact iff_of_false (fun ⟨error, failed⟩ => by cases failed) fun long => short long.2
  | hexadecimal marked =>
    rename_i mark more
    have first : (mark :: (more.takeWhile isHexDigit ++
        semicolon (more.drop (more.takeWhile isHexDigit).length))).head? = some 'x' ∨
        (mark :: (more.takeWhile isHexDigit ++
        semicolon (more.drop (more.takeWhile isHexDigit).length))).head? = some 'X' := by
      rw [List.head?_cons, Option.some.injEq, Option.some.injEq]
      exact marked
    have noDigit : mark.isDigit = false := by
      rcases marked with rfl | rfl
      · decide
      · decide
    rw [replaceCharref, if_pos first, hasLongNumber, List.tail_cons,
      List.takeWhile_cons_of_neg (by rw [noDigit]; exact Bool.false_ne_true)]
    exact iff_of_false (fun ⟨error, failed⟩ => by cases failed)
      fun long => Nat.not_lt_zero _ long.2
  | named size unnumbered any =>
    have other : ∀ more, (rest.takeWhile isReferenceLetter).take size ++ semicolon
        (rest.drop ((rest.takeWhile isReferenceLetter).take size).length) ≠ '#' :: more := by
      intro more same
      have first := congrArg List.head? same
      rw [List.head?_append_of_ne_nil _ any] at first
      have taken := List.mem_of_mem_take (List.mem_of_mem_head? first)
      exact absurd (List.mem_takeWhile_imp taken) (by decide)
    rw [replaceCharref.eq_def]
    split
    case h_1 more same => exact absurd same (other more)
    case h_2 =>
      refine iff_of_false ?_ fun long => unnumbered long.1
      rintro ⟨error, failed⟩
      split at failed
      · cases failed
      · cases failed

theorem failsAt_iff : FailsAt (referencePattern html5) text ↔ isLongReference text = true := by
  rw [isLongReference, Bool.and_eq_true, beq_iff_eq, decide_eq_true_eq]
  constructor
  · rintro ⟨size, error, matched⟩
    rw [referencePattern.eq_def] at matched
    split at matched
    case h_1 rest =>
      obtain ⟨name, found, same⟩ := Option.map_eq_some_iff.mp matched
      rw [Prod.mk.injEq] at same
      obtain ⟨first, long⟩ := (spelled_of_charref found).fails_iff.mp ⟨error, same.2⟩
      cases rest with
      | nil => cases first
      | cons head tail =>
        rw [List.head?_cons, Option.some.injEq] at first
        rw [first]
        exact ⟨rfl, long⟩
    case h_2 => cases matched
  · rintro ⟨start, long⟩
    obtain ⟨more, rfl⟩ : ∃ more, text = '&' :: '#' :: more :=
      ⟨text.drop 2, by rw [← List.take_append_drop 2 text, start]; rfl⟩
    change maxStrDigits < (more.takeWhile Char.isDigit).length at long
    have any : more.takeWhile Char.isDigit ≠ [] := by
      intro empty
      rw [empty] at long
      exact absurd long (by decide)
    have found : charref ('#' :: more) = some ('#' :: more.takeWhile Char.isDigit ++
        semicolon (more.drop (more.takeWhile Char.isDigit).length)) := by
      rw [charref.eq_def]
      exact if_pos any
    obtain ⟨error, failed⟩ := (@Spelled.fails_iff html5 _ _ (spelled_of_charref found)).mpr
      ⟨rfl, long⟩
    have matched := congrArg
      (Option.map fun name => (name.length + 1, replaceCharref html5 name)) found
    rw [Option.map_some, failed] at matched
    exact ⟨_, error, matched⟩

theorem keepsApart_reference : KeepsApart (referencePattern html5) where
  empty := rfl
  inside := by
    intro text size replacement matched
    rw [referencePattern.eq_def] at matched
    split at matched
    case h_1 rest =>
      obtain ⟨name, found, same⟩ := Option.map_eq_some_iff.mp matched
      rw [Prod.mk.injEq] at same
      obtain ⟨rfl, -⟩ := same
      have spelled := spelled_of_charref found
      obtain ⟨more, whole⟩ := spelled.isPrefix
      refine ⟨Nat.succ_pos _, fun count behind within fails => ?_⟩
      obtain ⟨before, rfl⟩ := Nat.exists_eq_succ_of_ne_zero (show count ≠ 0 by omega)
      have inName : before < name.length := by omega
      rw [failsAt_iff, isLongReference, Bool.and_eq_true, beq_iff_eq, Nat.succ_eq_add_one,
        List.drop_succ_cons, ← whole] at fails
      have first := congrArg List.head? fails.1
      rw [List.head?_take, if_neg (by decide), List.head?_drop, List.getElem?_append_left inName]
        at first
      exact spelled.notMem (List.mem_of_getElem? first)
    case h_2 => cases matched

theorem unescape_isOk_iff : (∃ result, unescape html5 text = .ok result) ↔
    ∀ count, isLongReference (text.drop count) = false := by
  rw [unescape]
  split
  case isTrue without =>
    refine iff_of_true ⟨text, rfl⟩ fun count => ?_
    by_contra long
    rw [Bool.not_eq_false, isLongReference, Bool.and_eq_true, beq_iff_eq] at long
    have first : '&' ∈ (text.drop count).take 2 := by
      rw [long.1]
      exact List.mem_cons_self
    exact without (List.mem_of_mem_drop (List.mem_of_mem_take first))
  case isFalse =>
    rw [substituteFrom_isOk_iff keepsApart_reference]
    constructor
    · intro all count
      rw [← Bool.not_eq_true, ← failsAt_iff]
      exact all count (Nat.zero_le _)
    · intro all count _
      rw [failsAt_iff, all count]
      exact Bool.false_ne_true

end JobAgg
