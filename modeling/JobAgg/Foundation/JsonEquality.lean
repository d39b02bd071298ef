import JobAgg.Foundation.Calendar
import JobAgg.Foundation.JsonTree

/-! # Equality of JSON values in Python

`==` compares numbers by their exact value, and `True` and `False` are the numbers 1 and 0;
dictionaries are equal if they have equal values at the same keys. Values that are equal as
JSON are equal, but `1`, `1.0` and `true` are all equal too. -/

namespace JobAgg

/-- A number that `json.loads` reads; what is no numeral stands for itself. -/
inductive PythonNumber
  | finite (value : ℚ)
  | infinite (negative : Bool)
  | unread (numeral : String)
  deriving DecidableEq

def PythonNumber.negated : PythonNumber → PythonNumber
  | finite value => finite (-value)
  | infinite negative => infinite !negative
  | unread numeral => unread numeral

/-- The nearest integer, of two the even one -/
def roundHalfEven (value : ℚ) : ℤ :=
  let below := value.floor
  let rest := value - below
  if rest < 1 / 2 ∨ (rest = 1 / 2 ∧ below % 2 = 0) then below else below + 1

/-- The exponent of the greatest power of two that a positive number reaches -/
def binade (value : ℚ) : ℤ :=
  let guess : ℤ := (Nat.log2 value.num.natAbs : ℤ) - Nat.log2 value.den
  if value < 2 ^ guess then guess - 1 else guess

def nearestFloat (value : ℚ) : PythonNumber :=
  let unit : ℚ := 2 ^ max (-1074) (binade value - 52)
  let rounded := roundHalfEven (value / unit) * unit
  if 2 ^ 1024 ≤ rounded then .infinite false else .finite rounded

/-- The exponent of a float, after its `e` -/
def readExponent : List Char → Option ℤ
  | [] => some 0
  | '-' :: digits => (readDigits digits).map fun amount => -(amount : ℤ)
  | '+' :: digits => (readDigits digits).map Int.ofNat
  | digits => (readDigits digits).map Int.ofNat

/-- A numeral without sign: an integer is exact, a float is rounded. -/
def readAmount (text : List Char) : Option PythonNumber :=
  if text.all Char.isDigit then (readDigits text).map fun amount => .finite amount
  else do
    let mantissa := text.takeWhile fun letter => letter != 'e' && letter != 'E'
    let whole := mantissa.takeWhile (· != '.')
    let fraction := (mantissa.drop whole.length).drop 1
    let amount ← readDigits (whole ++ fraction)
    let exponent ← readExponent (text.drop (mantissa.length + 1))
    return nearestFloat (amount * 10 ^ (exponent - fraction.length))

def readNumeral (numeral : String) : PythonNumber :=
  match numeral.toList with
  | '-' :: text => ((readAmount text).map .negated).getD (.unread numeral)
  | text => (readAmount text).getD (.unread numeral)

namespace Json

def numeric : Json → Option PythonNumber
  | bool flag => some (.finite (if flag then 1 else 0))
  | number numeral => some (readNumeral numeral)
  | _ => none

mutual

/-- `==` -/
def pythonEqual : Json → Json → Bool
  | array items, right =>
    match right with
    | array others => equalInOrder items others
    | _ => false
  | object fields, right =>
    match right with
    | object others => fields.length == others.length && equalByKey fields others
    | _ => false
  | null, right => right == null
  | string text, right => right == string text
  | bool flag, right => right.numeric == some (.finite (if flag then 1 else 0))
  | number numeral, right => right.numeric == some (readNumeral numeral)

def equalInOrder : List Json → List Json → Bool
  | [], others => others.isEmpty
  | item :: items, others =>
    match others with
    | [] => false
    | other :: others => pythonEqual item other && equalInOrder items others

def equalByKey : List (String × Json) → List (String × Json) → Bool
  | [], _ => true
  | (name, value) :: fields, others =>
    (match lookup name others with
    | some other => pythonEqual value other
    | none => false) && equalByKey fields others

end

variable {fields others : List (String × Json)}

theorem equalByKey_iff : equalByKey fields others = true ↔
    ∀ field ∈ fields, ∃ other, lookup field.1 others = some other ∧
      pythonEqual field.2 other = true := by
  induction fields with
  | nil => simp [equalByKey]
  | cons field fields induction =>
    rw [equalByKey, Bool.and_eq_true, induction, List.forall_mem_cons]
    cases found : lookup field.1 others <;> simp

/-! ## Values that are the same as JSON -/

theorem sortFields_eq_map :
    sortFields fields = fields.map fun field => (field.1, sortKeys field.2) := by
  induction fields with
  | nil => rfl
  | cons field fields induction => rw [sortFields, induction, List.map_cons]

theorem perm_of_same (same : Same (object fields) (object others)) :
    (sortFields fields).Perm (sortFields others) := by
  rw [Same, sortKeys, sortKeys, object.injEq] at same
  have left : (orderBy Prod.fst (sortFields fields)).Perm (sortFields fields) := orderBy_perm
  have right : (orderBy Prod.fst (sortFields others)).Perm (sortFields others) := orderBy_perm
  exact left.symm.trans (same ▸ right)

theorem same_of_perm (distinct : (fields.map Prod.fst).Nodup)
    (perm : (sortFields fields).Perm (sortFields others)) :
    Same (object fields) (object others) := by
  have ordered : (orderBy Prod.fst (sortFields others)).Perm (sortFields others) := orderBy_perm
  have apart : ((orderBy Prod.fst (sortFields others)).map Prod.fst).Nodup := by
    rw [((ordered.trans perm.symm).map Prod.fst).nodup_iff, map_fst_sortFields]
    exact distinct
  have increasing : (orderBy Prod.fst (sortFields others)).Pairwise fun one other =>
      one.1 < other.1 := by
    rw [List.Nodup, List.pairwise_map] at apart
    exact (orderBy_ordered.and apart).imp fun both => lt_of_le_of_ne both.1 both.2
  rw [Same, sortKeys, sortKeys, orderBy_eq_of_perm (perm.trans ordered.symm) increasing]

theorem same_filter {keeps : String → Bool} (distinct : (fields.map Prod.fst).Nodup)
    (same : Same (object fields) (object others)) :
    Same (object (fields.filter fun field => keeps field.1))
      (object (others.filter fun field => keeps field.1)) := by
  have kept : ∀ list : List (String × Json),
      sortFields (list.filter fun field => keeps field.1) =
        (sortFields list).filter fun field => keeps field.1 := by
    intro list
    rw [sortFields_eq_map, sortFields_eq_map, List.filter_map]
    rfl
  refine same_of_perm (distinct.sublist (List.filter_sublist.map Prod.fst)) ?_
  rw [kept, kept]
  exact (perm_of_same same).filter _

theorem exists_lookup_of_same (distinct : (others.map Prod.fst).Nodup)
    (same : Same (object fields) (object others)) {field : String × Json}
    (member : field ∈ fields) :
    ∃ other, lookup field.1 others = some other ∧ Same field.2 other := by
  have listed : (field.1, sortKeys field.2) ∈ sortFields others := by
    rw [← (perm_of_same same).mem_iff, sortFields_eq_map]
    exact List.mem_map_of_mem member
  rw [sortFields_eq_map] at listed
  obtain ⟨other, inOthers, equal⟩ := List.mem_map.mp listed
  rw [Prod.mk.injEq] at equal
  exact ⟨other.2, equal.1 ▸ lookup_eq_some_of_mem distinct inOthers, equal.2.symm⟩

theorem Same.symm {left right : Json} (same : Same left right) : Same right left := Eq.symm same

theorem same_get (key : String) (distinct : (fields.map Prod.fst).Nodup)
    (also : (others.map Prod.fst).Nodup) (same : Same (object fields) (object others)) :
    Same (get key fields) (get key others) := by
  rw [get, get]
  cases found : lookup key fields with
  | some value =>
    obtain ⟨other, there, equal⟩ := exists_lookup_of_same also same (mem_of_lookup_eq_some found)
    rw [there]
    exact equal
  | none =>
    cases there : lookup key others with
    | none => rfl
    | some other =>
      obtain ⟨value, present, _⟩ :=
        exists_lookup_of_same distinct same.symm (mem_of_lookup_eq_some there)
      rw [found] at present
      cases present

theorem exists_of_same_object {right : Json} (same : Same (object fields) right) :
    ∃ others, right = object others := by
  cases right with
  | object others => exact ⟨others, rfl⟩
  | _ => simp [Same, sortKeys] at same

theorem exists_of_same_array {items : List Json} {right : Json} (same : Same (array items) right) :
    ∃ others, right = array others ∧ sortItems items = sortItems others := by
  cases right with
  | array others =>
    rw [Same, sortKeys, sortKeys, array.injEq] at same
    exact ⟨others, rfl, same⟩
  | _ => simp [Same, sortKeys] at same

theorem eq_of_same_of_sorted {left right : Json} (plain : ∀ items, left ≠ array items)
    (flat : ∀ entries, left ≠ object entries) (same : Same left right) : right = left := by
  cases left <;> cases right <;> simp_all [Same, sortKeys]

/-! ## Equality -/

mutual

theorem pythonEqual_of_same : ∀ {left right : Json}, left.DistinctKeys → right.DistinctKeys →
    Same left right → pythonEqual left right = true
  | array items, right => by
    intro distinct also same
    obtain ⟨others, rfl, equal⟩ := exists_of_same_array same
    rw [pythonEqual]
    exact equalInOrder_of_same (distinctItems_iff.mpr (distinctItems_iff.mp distinct))
      (distinctItems_iff.mpr (distinctItems_iff.mp also)) equal
  | object fields, right => by
    intro distinct also same
    obtain ⟨others, rfl⟩ := exists_of_same_object same
    rw [distinctKeys_object] at also
    have sizes := (perm_of_same same).length_eq
    rw [sortFields_eq_map, sortFields_eq_map, List.length_map, List.length_map] at sizes
    rw [pythonEqual, Bool.and_eq_true, beq_iff_eq]
    refine ⟨sizes, equalByKey_of_same (distinctFields_iff.mpr (distinctKeys_object.mp distinct).2)
      fun field member => ?_⟩
    obtain ⟨other, found, equal⟩ := exists_lookup_of_same also.1 same member
    exact ⟨other, found, also.2 _ (mem_of_lookup_eq_some found), equal⟩
  | null, right => by
    intro _ _ same
    rw [eq_of_same_of_sorted (by simp) (by simp) same, pythonEqual, beq_self_eq_true]
  | bool flag, right => by
    intro _ _ same
    rw [eq_of_same_of_sorted (by simp) (by simp) same, pythonEqual, numeric, beq_self_eq_true]
  | number numeral, right => by
    intro _ _ same
    rw [eq_of_same_of_sorted (by simp) (by simp) same, pythonEqual, numeric, beq_self_eq_true]
  | string text, right => by
    intro _ _ same
    rw [eq_of_same_of_sorted (by simp) (by simp) same, pythonEqual, beq_self_eq_true]

theorem equalInOrder_of_same : ∀ {items others : List Json}, DistinctItems items →
    DistinctItems others → sortItems items = sortItems others →
      equalInOrder items others = true
  | [], others => by
    intro _ _ same
    cases others with
    | nil => rfl
    | cons _ _ => simp [sortItems] at same
  | item :: items, others => by
    intro distinct also same
    cases others with
    | nil => simp [sortItems] at same
    | cons other others =>
      rw [sortItems, sortItems, List.cons_eq_cons] at same
      rw [DistinctItems] at distinct also
      rw [equalInOrder, Bool.and_eq_true]
      exact ⟨pythonEqual_of_same distinct.1 also.1 same.1,
        equalInOrder_of_same distinct.2 also.2 same.2⟩

theorem equalByKey_of_same : ∀ {fields others : List (String × Json)}, DistinctFields fields →
    (∀ field ∈ fields, ∃ other, lookup field.1 others = some other ∧ other.DistinctKeys ∧
      Same field.2 other) → equalByKey fields others = true
  | [], _ => fun _ _ => rfl
  | (name, value) :: fields, others => by
    intro distinct found
    rw [DistinctFields] at distinct
    obtain ⟨other, there, also, same⟩ := found (name, value) List.mem_cons_self
    rw [equalByKey, there, Bool.and_eq_true]
    exact ⟨pythonEqual_of_same distinct.1 also same,
      equalByKey_of_same distinct.2 fun field member =>
        found field (List.mem_cons_of_mem _ member)⟩

end

theorem numeric_eq_of_pythonEqual {left right : Json} {value : PythonNumber}
    (read : left.numeric = some value) (same : pythonEqual left right = true) :
    right.numeric = some value := by
  cases left with
  | bool flag =>
    cases read
    rwa [pythonEqual, beq_iff_eq] at same
  | number numeral =>
    cases read
    rwa [pythonEqual, beq_iff_eq] at same
  | _ => cases read

mutual

theorem pythonEqual_trans : ∀ {left middle right : Json}, pythonEqual left middle = true →
    pythonEqual middle right = true → pythonEqual left right = true
  | array items, middle, right => by
    intro first second
    cases middle with
    | array others =>
      cases right with
      | array rest =>
        rw [pythonEqual] at first second ⊢
        exact equalInOrder_trans first second
      | _ => cases second
    | _ => cases first
  | object fields, middle, right => by
    intro first second
    cases middle with
    | object others =>
      cases right with
      | object rest =>
        rw [pythonEqual, Bool.and_eq_true, beq_iff_eq] at first second ⊢
        exact ⟨first.1.trans second.1,
          equalByKey_trans first.2 (equalByKey_iff.mp second.2)⟩
      | _ => cases second
    | _ => cases first
  | null, middle, right => by
    intro first second
    rw [pythonEqual, beq_iff_eq] at first
    rwa [first] at second
  | string text, middle, right => by
    intro first second
    rw [pythonEqual, beq_iff_eq] at first
    rwa [first] at second
  | bool flag, middle, right => by
    intro first second
    rw [pythonEqual, beq_iff_eq] at first ⊢
    exact numeric_eq_of_pythonEqual first second
  | number numeral, middle, right => by
    intro first second
    rw [pythonEqual, beq_iff_eq] at first ⊢
    exact numeric_eq_of_pythonEqual first second

theorem equalInOrder_trans : ∀ {items others rest : List Json}, equalInOrder items others = true →
    equalInOrder others rest = true → equalInOrder items rest = true
  | [], others, rest => by
    intro first second
    rw [equalInOrder, List.isEmpty_iff] at first
    rwa [first] at second
  | item :: items, others, rest => by
    intro first second
    cases others with
    | nil => cases first
    | cons other others =>
      cases rest with
      | nil => cases second
      | cons last rest =>
        rw [equalInOrder, Bool.and_eq_true] at first second ⊢
        exact ⟨pythonEqual_trans first.1 second.1, equalInOrder_trans first.2 second.2⟩

theorem equalByKey_trans : ∀ {fields others rest : List (String × Json)},
    equalByKey fields others = true →
    (∀ field ∈ others, ∃ other, lookup field.1 rest = some other ∧
      pythonEqual field.2 other = true) → equalByKey fields rest = true
  | [], _, _ => fun _ _ => rfl
  | (name, value) :: fields, others, rest => by
    intro first second
    rw [equalByKey, Bool.and_eq_true] at first
    cases found : lookup name others with
    | none =>
      rw [found] at first
      cases first.1
    | some other =>
      rw [found] at first
      obtain ⟨last, there, equal⟩ := second (name, other) (mem_of_lookup_eq_some found)
      rw [equalByKey, there, Bool.and_eq_true]
      exact ⟨pythonEqual_trans first.1 equal, equalByKey_trans first.2 second⟩

end

/-- `1`, `1.0` and `true` are equal, and so are the two zeros of a float. -/
example : pythonEqual (number "1") (number "1.0") = true ∧
    pythonEqual (number "1e0") (bool true) = true ∧
    pythonEqual (number "-0.0") (number "0") = true ∧
    pythonEqual (number "0.1") (number "0.10000000000000001") = true ∧
    pythonEqual (number "9007199254740993") (number "9007199254740993.0") = false ∧
    pythonEqual (number "1e999") (number "2e999") = true := by
  decide +kernel

end Json

end JobAgg
