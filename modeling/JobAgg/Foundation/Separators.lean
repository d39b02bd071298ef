import Mathlib.Data.List.Basic

/-! # Runs of separators

A text is split where separators stand, however many of them stand together, and it is cut
into groups of one length. -/

namespace JobAgg

variable {Letter : Type} (separates : Letter → Bool)

/-- `re.split`, of a pattern that is a run of separators -/
def splitRuns : List Letter → List (List Letter)
  | [] => [[]]
  | letter :: rest =>
    if separates letter then
      if rest.head?.any separates then splitRuns rest else [] :: splitRuns rest
    else (splitRuns rest).modifyHead (letter :: ·)

/-- Each run of separators replaced by one mark -/
def collapseRuns (mark : Letter) : List Letter → List Letter
  | [] => []
  | letter :: rest =>
    if separates letter then
      if rest.head?.any separates then collapseRuns mark rest else mark :: collapseRuns mark rest
    else letter :: collapseRuns mark rest

def groupsOf (size : Nat) (text : List Letter) : List (List Letter) :=
  (List.range ((text.length + size - 1) / size)).map fun index =>
    (text.drop (index * size)).take size

variable {separates} {text : List Letter} {mark : Letter} {size : Nat} {parts : List (List Letter)}

theorem splitRuns_ne_nil : splitRuns separates text ≠ [] := by
  induction text with
  | nil => exact List.cons_ne_nil _ _
  | cons head tail induction =>
    rw [splitRuns]
    split
    · split
      · exact induction
      · exact List.cons_ne_nil _ _
    · rw [Ne, List.modifyHead_eq_nil_iff]
      exact induction

theorem collapseRuns_eq (text : List Letter) :
    collapseRuns separates mark text = [mark].intercalate (splitRuns separates text) := by
  induction text with
  | nil => rfl
  | cons head tail induction =>
    obtain ⟨first, others, same⟩ := List.exists_cons_of_ne_nil
      (@splitRuns_ne_nil _ separates tail)
    rw [collapseRuns, splitRuns, induction]
    split
    · split
      · rfl
      · rw [same, List.intercalate_cons_cons]
        rfl
    · rw [same, List.modifyHead_cons, List.intercalate_cons_cons_left]

theorem unseparated_of_mem : ∀ part ∈ splitRuns separates text, ∀ letter ∈ part,
    separates letter = false := by
  induction text with
  | nil =>
    intro part listed
    rw [List.mem_singleton.mp listed]
    intro letter impossible
    cases impossible
  | cons head tail induction =>
    intro part listed
    rw [splitRuns] at listed
    split at listed
    case isTrue =>
      split at listed
      case isTrue => exact induction part listed
      case isFalse =>
        rcases List.mem_cons.mp listed with rfl | inRest
        · intro letter impossible
          cases impossible
        · exact induction part inRest
    case isFalse other =>
      obtain ⟨first, others, same⟩ := List.exists_cons_of_ne_nil
        (@splitRuns_ne_nil _ separates tail)
      rw [same] at induction
      rw [same, List.modifyHead_cons, List.mem_cons] at listed
      rcases listed with rfl | inOthers
      · intro letter inPart
        rcases List.mem_cons.mp inPart with rfl | inFirst
        · exact Bool.eq_false_iff.mpr other
        · exact induction first List.mem_cons_self letter inFirst
      · exact induction part (List.mem_cons_of_mem _ inOthers)

theorem splitRuns_append {part rest : List Letter}
    (unseparated : ∀ letter ∈ part, separates letter = false) :
    splitRuns separates (part ++ rest) = (splitRuns separates rest).modifyHead (part ++ ·) := by
  induction part with
  | nil => exact (congrFun List.modifyHead_id _).symm
  | cons head tail induction =>
    rw [List.cons_append, splitRuns, unseparated head List.mem_cons_self, if_neg (by simp),
      induction fun letter listed => unseparated letter (List.mem_cons_of_mem _ listed),
      List.modifyHead_modifyHead]
    rfl

theorem splitRuns_intercalate (marked : separates mark = true) (some : parts ≠ [])
    (whole : ∀ part ∈ parts, part ≠ [] ∧ ∀ letter ∈ part, separates letter = false) :
    splitRuns separates ([mark].intercalate parts) = parts := by
  induction parts with
  | nil => exact absurd rfl some
  | cons part others induction =>
    obtain ⟨-, unseparated⟩ := whole part List.mem_cons_self
    cases others with
    | nil =>
      rw [List.intercalate_singleton, ← List.append_nil part, splitRuns_append unseparated]
      rfl
    | cons next rest =>
      have later := induction (List.cons_ne_nil _ _) fun other listed =>
        whole other (List.mem_cons_of_mem _ listed)
      obtain ⟨nonempty, nextUnseparated⟩ := whole next
        (List.mem_cons_of_mem _ List.mem_cons_self)
      obtain ⟨letter, letters, rfl⟩ := List.exists_cons_of_ne_nil nonempty
      have start : ([mark].intercalate ((letter :: letters) :: rest)).head?.any separates =
          false := by
        rw [List.intercalate_cons_cons_left]
        exact nextUnseparated letter List.mem_cons_self
      rw [List.intercalate_cons_cons, List.append_assoc, splitRuns_append unseparated,
        List.singleton_append, splitRuns, marked, if_pos rfl, start, if_neg (by simp), later,
        List.modifyHead_cons, List.append_nil]

theorem exists_part_of_mem {letter : Letter} (listed : letter ∈ text)
    (other : separates letter = false) : ∃ part ∈ splitRuns separates text, letter ∈ part := by
  induction text with
  | nil => cases listed
  | cons head tail induction =>
    have inTail : letter ∈ tail → ∃ part ∈ splitRuns separates (head :: tail),
        letter ∈ part := by
      intro inTail
      obtain ⟨part, member, found⟩ := induction inTail
      rw [splitRuns]
      split
      · split
        · exact ⟨part, member, found⟩
        · exact ⟨part, List.mem_cons_of_mem _ member, found⟩
      · obtain ⟨first, others, same⟩ := List.exists_cons_of_ne_nil
          (@splitRuns_ne_nil _ separates tail)
        rw [same] at member
        rw [same, List.modifyHead_cons]
        rcases List.mem_cons.mp member with rfl | inOthers
        · exact ⟨_, List.mem_cons_self, List.mem_cons_of_mem _ found⟩
        · exact ⟨part, List.mem_cons_of_mem _ inOthers, found⟩
    rcases List.mem_cons.mp listed with rfl | later
    · obtain ⟨first, others, same⟩ := List.exists_cons_of_ne_nil
        (@splitRuns_ne_nil _ separates tail)
      rw [splitRuns, other, if_neg (by simp), same, List.modifyHead_cons]
      exact ⟨_, List.mem_cons_self, List.mem_cons_self⟩
    · exact inTail later

theorem mem_intercalate {letter : Letter} (listed : letter ∈ [mark].intercalate parts) :
    letter = mark ∨ ∃ part ∈ parts, letter ∈ part := by
  induction parts with
  | nil => cases listed
  | cons part others induction =>
    cases others with
    | nil =>
      rw [List.intercalate_singleton] at listed
      exact .inr ⟨part, List.mem_cons_self, listed⟩
    | cons next rest =>
      rw [List.intercalate_cons_cons, List.mem_append, List.mem_append,
        List.mem_singleton] at listed
      rcases listed with (inPart | same) | later
      · exact .inr ⟨part, List.mem_cons_self, inPart⟩
      · exact .inl same
      · rcases induction later with same | ⟨other, member, found⟩
        · exact .inl same
        · exact .inr ⟨other, List.mem_cons_of_mem _ member, found⟩

theorem exists_groups {count : Nat} (length : text.length = count * size) :
    ∃ parts : List (List Letter), parts.length = count ∧ (∀ part ∈ parts, part.length = size) ∧
      parts.flatten = text := by
  induction count generalizing text with
  | zero =>
    rw [Nat.zero_mul, List.length_eq_zero_iff] at length
    exact ⟨[], rfl, nofun, length.symm⟩
  | succ count induction =>
    rw [Nat.succ_mul] at length
    have rest : (text.drop size).length = count * size := by
      rw [List.length_drop, length, Nat.add_sub_cancel]
    obtain ⟨parts, counted, sized, spelled⟩ := induction rest
    refine ⟨text.take size :: parts, ?_, ?_, ?_⟩
    · rw [List.length_cons, counted]
    · intro part listed
      rcases List.mem_cons.mp listed with rfl | later
      · rw [List.length_take, length]
        omega
      · exact sized part later
    · rw [List.flatten_cons, spelled, List.take_append_drop]

theorem groupsOf_flatten (positive : 0 < size) (sized : ∀ part ∈ parts, part.length = size) :
    groupsOf size parts.flatten = parts := by
  induction parts with
  | nil =>
    have none : (0 + size - 1) / size = 0 := Nat.div_eq_of_lt (by omega)
    rw [groupsOf, List.flatten_nil, List.length_nil, none]
    rfl
  | cons part others induction =>
    have length := sized part List.mem_cons_self
    have later := induction fun other listed => sized other (List.mem_cons_of_mem _ listed)
    have count : (size + others.flatten.length + size - 1) / size =
        (others.flatten.length + size - 1) / size + 1 := by
      rw [← Nat.add_div_right _ positive]
      congr 1
      omega
    rw [groupsOf] at later
    rw [groupsOf, List.flatten_cons, List.length_append, length, count,
      List.range_succ_eq_map, List.map_cons, Nat.zero_mul, List.drop_zero,
      List.take_left' length, List.map_map]
    congr 1
    refine Eq.trans (List.map_congr_left ?_) later
    intro index _
    have index' : (index + 1) * size = part.length + index * size := by
      rw [length, Nat.succ_mul, Nat.add_comm]
    rw [Function.comp_apply, index', ← List.drop_drop, List.drop_left]

end JobAgg
