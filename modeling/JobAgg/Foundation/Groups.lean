import JobAgg.Foundation.Json
import JobAgg.Foundation.Table

/-! # Rows grouped by a text

`groups.setdefault(key, []).append(row)` over a list of rows, and the comparison of two
such dictionaries. A key without a row is no key. Sorting the groups is stable, so the
order in which the rows come shows exactly where their sort keys are equal.
-/

namespace JobAgg

section Dictionaries

variable {Value Result : Type}

theorem lookup_map {change : Value → Result} {key : String} {entries : List (String × Value)} :
    lookup key (entries.map fun entry => (entry.1, change entry.2)) =
      (lookup key entries).map change := by
  induction entries with
  | nil => rfl
  | cons entry entries induction =>
    rw [List.map_cons, lookup_cons, lookup_cons, induction]
    split <;> rfl

variable [DecidableEq Value]

/-- `left == right` of dictionaries. -/
def sameEntries (left right : List (String × Value)) : Bool :=
  (left ++ right).all fun entry => decide (lookup entry.1 left = lookup entry.1 right)

theorem sameEntries_iff {left right : List (String × Value)} :
    sameEntries left right = true ↔ ∀ key, lookup key left = lookup key right := by
  simp only [sameEntries, List.all_eq_true, decide_eq_true_eq]
  constructor
  · intro same key
    cases found : lookup key left with
    | some value =>
      have member := mem_of_lookup_eq_some found
      rw [← found]
      exact same (key, value) (List.mem_append_left _ member)
    | none =>
      cases other : lookup key right with
      | none => rfl
      | some value =>
        have member := mem_of_lookup_eq_some other
        have equal := same (key, value) (List.mem_append_right _ member)
        rw [found, other] at equal
        cases equal
  · exact fun same entry _ => same entry.1

end Dictionaries

section Groups

variable {Row : Type} (key : Row → String)

/-- The rows of each key, in their order. -/
def grouped (rows : List Row) : List (String × List Row) :=
  rows.foldl (fun groups row =>
    assign (key row) ((lookup (key row) groups).getD [] ++ [row]) groups) []

def groupOf (name : String) (rows : List Row) : Option (List Row) :=
  let group := rows.filter fun row => key row == name
  if group = [] then none else some group

variable {key}

theorem lookup_grouped {name : String} {rows : List Row} :
    lookup name (grouped key rows) = groupOf key name rows := by
  induction rows using List.reverseRecOn with
  | nil => rfl
  | append_singleton rows row induction =>
    unfold grouped at induction ⊢
    rw [List.foldl_append, List.foldl_cons, List.foldl_nil]
    by_cases same : key row = name
    · rw [same, lookup_assign_self, induction]
      simp only [groupOf, List.filter_append, List.filter_cons, same, beq_self_eq_true, if_true,
        List.filter_nil]
      split
      · rename_i empty
        simp [empty]
      · simp
    · rw [lookup_assign_of_ne (Ne.symm same), induction]
      simp [groupOf, same]

variable {SortKey : Type*} [LinearOrder SortKey] (sortKey : Row → SortKey)

/-- `for rows in groups.values(): rows.sort(key=...)`. -/
def sortGroups (groups : List (String × List Row)) : List (String × List Row) :=
  groups.map fun group => (group.1, orderBy sortKey group.2)

variable {sortKey}

theorem lookup_sortGroups {name : String} {groups : List (String × List Row)} :
    lookup name (sortGroups sortKey groups) = (lookup name groups).map (orderBy sortKey) :=
  lookup_map

end Groups

section Stability

variable {Row Key : Type*} [LinearOrder Key] {key : Row → Key} {rows : List Row}
  {first second : Row}

theorem pair_sublist_orderBy (ordered : key first ≤ key second)
    (inOrder : List.Sublist [first, second] rows) :
    List.Sublist [first, second] (orderBy key rows) := by
  apply List.pair_sublist_mergeSort
  · simpa using fun _ _ _ => le_trans
  · simpa using fun _ _ => le_total _ _
  · simpa using ordered
  · exact inOrder

theorem eq_of_both_orders (distinct : rows.Nodup) (inOrder : List.Sublist [first, second] rows)
    (swapped : List.Sublist [second, first] rows) : first = second := by
  induction rows with
  | nil => cases inOrder
  | cons row rows induction =>
    rcases List.nodup_cons.mp distinct with ⟨absent, rest⟩
    have memOf : ∀ {left right : Row}, List.Sublist [left, right] rows → right ∈ rows :=
      fun inside => inside.subset (by simp)
    cases inOrder with
    | cons _ inRest =>
      cases swapped with
      | cons _ swappedRest => exact induction rest inRest swappedRest
      | cons_cons _ firstRest => exact absurd (memOf inRest) absent
    | cons_cons _ secondRest =>
      cases swapped with
      | cons _ swappedRest => exact absurd (memOf swappedRest) absent
      | cons_cons _ _ => rfl

theorem exists_perm_cons_cons [DecidableEq Row] (different : first ≠ second)
    (firstMember : first ∈ rows) (secondMember : second ∈ rows) :
    ∃ rest, rows.Perm (first :: second :: rest) := by
  have inRest : second ∈ rows.erase first :=
    (List.mem_erase_of_ne (Ne.symm different)).mpr secondMember
  exact ⟨(rows.erase first).erase second, (List.perm_cons_erase firstMember).trans
    ((List.perm_cons_erase inRest).cons first)⟩

end Stability

end JobAgg
