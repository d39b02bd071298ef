import Mathlib.Data.List.Induction
import Mathlib.Data.List.Sort

/-! # Tables as lists of rows

A table is the list of its rows in insertion order. An update rewrites the
selected rows in place, and `ORDER BY` is a stable sort on a key. The lemmas say
how updates pass selections, and that a sort sees only the rows and not their
order when the key tells the rows apart.
-/

namespace JobAgg

variable {Row Key : Type*}

theorem foldl_stable {State Item Value : Type*} {step : State → Item → State}
    (view : State → Value) (stable : ∀ state item, view (step state item) = view state)
    (items : List Item) (state : State) : view (items.foldl step state) = view state := by
  induction items generalizing state with
  | nil => rfl
  | cons item items induction =>
    rw [List.foldl_cons, induction, stable]

def updateWhere (selects : Row → Bool) (update : Row → Row) (rows : List Row) : List Row :=
  rows.map fun row => if selects row then update row else row

section Updates

variable {selects : Row → Bool} {update : Row → Row} {rows : List Row}

@[simp] theorem updateWhere_nil : updateWhere selects update [] = [] := rfl

@[simp] theorem updateWhere_cons {row : Row} :
    updateWhere selects update (row :: rows) =
      (if selects row then update row else row) :: updateWhere selects update rows := rfl

@[simp] theorem updateWhere_append {later : List Row} :
    updateWhere selects update (rows ++ later) =
      updateWhere selects update rows ++ updateWhere selects update later :=
  List.map_append

@[simp] theorem length_updateWhere :
    (updateWhere selects update rows).length = rows.length := by
  simp [updateWhere]

theorem mem_updateWhere {row : Row} :
    row ∈ updateWhere selects update rows ↔
      ∃ old ∈ rows, (if selects old then update old else old) = row :=
  List.mem_map

theorem updateWhere_of_forall_not (none : ∀ row ∈ rows, selects row = false) :
    updateWhere selects update rows = rows := by
  unfold updateWhere
  conv_rhs => rw [← List.map_id rows]
  apply List.map_congr_left
  intro row member
  simp [none row member]

theorem filter_updateWhere {keeps : Row → Bool}
    (stable : ∀ row ∈ rows, selects row = true → keeps (update row) = keeps row) :
    (updateWhere selects update rows).filter keeps =
      updateWhere selects update (rows.filter keeps) := by
  induction rows with
  | nil => rfl
  | cons row rows induction =>
    have tail := induction fun other member =>
      stable other (List.mem_cons_of_mem _ member)
    have head := stable row List.mem_cons_self
    cases selected : selects row <;> cases kept : keeps row <;>
      simp_all

theorem filter_updateWhere_of_forall_not {keeps : Row → Bool}
    (dropped : ∀ row ∈ rows, selects row = true →
      keeps row = false ∧ keeps (update row) = false) :
    (updateWhere selects update rows).filter keeps = rows.filter keeps := by
  rw [filter_updateWhere fun row member selected => by
    rw [(dropped row member selected).1, (dropped row member selected).2]]
  apply updateWhere_of_forall_not
  intro row member
  rcases List.mem_filter.mp member with ⟨present, kept⟩
  by_contra selected
  have notKept := (dropped row present (by simpa using selected)).1
  simp [kept] at notKept

theorem find?_updateWhere {keeps : Row → Bool}
    (stable : ∀ row ∈ rows, selects row = true → keeps (update row) = keeps row) :
    (updateWhere selects update rows).find? keeps =
      (rows.find? keeps).map fun row => if selects row then update row else row := by
  rw [← List.head?_filter, filter_updateWhere stable, ← List.head?_filter]
  exact List.head?_map

theorem map_updateWhere_of_stable {Column : Type*} {column : Row → Column}
    (stable : ∀ row ∈ rows, selects row = true → column (update row) = column row) :
    (updateWhere selects update rows).map column = rows.map column := by
  unfold updateWhere
  rw [List.map_map]
  apply List.map_congr_left
  intro row member
  cases selected : selects row with
  | false => simp [selected]
  | true => simpa [selected] using stable row member selected

theorem map_updateWhere {Column : Type*} {column : Row → Column} {picks : Column → Bool}
    {change : Column → Column} (follows : ∀ row ∈ rows, picks (column row) = selects row)
    (changed : ∀ row ∈ rows, selects row = true → column (update row) = change (column row)) :
    (updateWhere selects update rows).map column =
      updateWhere picks change (rows.map column) := by
  unfold updateWhere
  rw [List.map_map, List.map_map]
  apply List.map_congr_left
  intro row member
  cases selected : selects row with
  | false => simp [selected, follows row member]
  | true => simp [selected, follows row member, changed row member selected]

theorem key_ne_of_nodup {key : Row → Key} {row : Row} {before after : List Row}
    (distinct : ((before ++ row :: after).map key).Nodup) :
    (∀ other ∈ before, key other ≠ key row) ∧ ∀ other ∈ after, key other ≠ key row := by
  simp only [List.map_append, List.map_cons, List.nodup_append, List.nodup_cons,
    List.mem_cons] at distinct
  rcases distinct with ⟨_, ⟨notAfter, _⟩, apart⟩
  constructor
  · intro other member
    exact apart _ (List.mem_map_of_mem member) _ (.inl rfl)
  · intro other member equal
    exact notAfter (equal ▸ List.mem_map_of_mem member)

theorem updateWhere_alone {row : Row} {before after : List Row} (selected : selects row = true)
    (notBefore : ∀ other ∈ before, selects other = false)
    (notAfter : ∀ other ∈ after, selects other = false) :
    updateWhere selects update (before ++ row :: after) = before ++ update row :: after := by
  rw [updateWhere_append, updateWhere_cons, updateWhere_of_forall_not notBefore,
    updateWhere_of_forall_not notAfter, if_pos selected]

theorem filter_eq_singleton_iff {row : Row} :
    rows.filter selects = [row] ↔ ∃ before after, rows = before ++ row :: after ∧
      selects row = true ∧ (∀ other ∈ before, selects other = false) ∧
      ∀ other ∈ after, selects other = false := by
  simp only [List.filter_eq_cons_iff, List.filter_eq_nil_iff, Bool.not_eq_true]
  constructor
  · rintro ⟨before, after, same, notBefore, selected, notAfter⟩
    exact ⟨before, after, same, selected, notBefore, notAfter⟩
  · rintro ⟨before, after, same, selected, notBefore, notAfter⟩
    exact ⟨before, after, same, notBefore, selected, notAfter⟩

theorem updateWhere_key [BEq Key] [LawfulBEq Key] {key : Row → Key} {row : Row}
    {before after : List Row} (distinct : ((before ++ row :: after).map key).Nodup) :
    updateWhere (fun other => key other == key row) update (before ++ row :: after) =
      before ++ update row :: after := by
  have apart := key_ne_of_nodup distinct
  apply updateWhere_alone
  · simp
  · exact fun other member => by simpa using apart.1 other member
  · exact fun other member => by simpa using apart.2 other member

theorem filter_key_ne [BEq Key] [LawfulBEq Key] {key : Row → Key} {row : Row}
    {before after : List Row} (distinct : ((before ++ row :: after).map key).Nodup) :
    (before ++ row :: after).filter (fun other => key other != key row) = before ++ after := by
  have apart := key_ne_of_nodup distinct
  have beforeKept : before.filter (fun other => key other != key row) = before :=
    List.filter_eq_self.mpr fun other member => by simpa using apart.1 other member
  have afterKept : after.filter (fun other => key other != key row) = after :=
    List.filter_eq_self.mpr fun other member => by simpa using apart.2 other member
  simp [List.filter_append, beforeKept, afterKept]

theorem find?_key_of_mem [BEq Key] [LawfulBEq Key] {key : Row → Key} {row : Row}
    (distinct : (rows.map key).Nodup) (member : row ∈ rows) :
    rows.find? (fun other => key other == key row) = some row := by
  induction rows with
  | nil => simp at member
  | cons first rest induction =>
    rcases List.nodup_cons.mp distinct with ⟨firstAbsent, restDistinct⟩
    rcases List.mem_cons.mp member with rfl | inRest
    · simp
    · have different : key first ≠ key row := by
        intro equal
        exact firstAbsent (equal ▸ List.mem_map_of_mem inRest)
      simpa [different] using induction restDistinct inRest

theorem eq_of_key_eq {key : Row → Key} {left right : Row} (distinct : (rows.map key).Nodup)
    (leftMember : left ∈ rows) (rightMember : right ∈ rows) (equal : key left = key right) :
    left = right :=
  List.inj_on_of_nodup_map distinct leftMember rightMember equal

end Updates

section Ordering

variable [LinearOrder Key]

theorem eq_of_perm_of_ordered {key : Row → Key} {left right : List Row}
    (same : left.Perm right) (leftOrdered : left.Pairwise fun a b => key a ≤ key b)
    (rightOrdered : right.Pairwise fun a b => key a ≤ key b)
    (distinct : ∀ a ∈ left, ∀ b ∈ left, key a = key b → a = b) : left = right := by
  refine same.eq_of_pairwise ?_ leftOrdered rightOrdered
  intro a b aMember bMember smaller larger
  exact distinct a aMember b (same.mem_iff.mpr bMember) (le_antisymm smaller larger)

theorem eq_of_key_eq_of_increasing {key : Row → Key} {rows : List Row}
    (increasing : rows.Pairwise fun a b => key a < key b) :
    ∀ a ∈ rows, ∀ b ∈ rows, key a = key b → a = b := by
  induction rows with
  | nil => simp
  | cons row rows induction =>
    rcases List.pairwise_cons.mp increasing with ⟨first, rest⟩
    intro a aMember b bMember equal
    rcases List.mem_cons.mp aMember with rfl | aTail
    · rcases List.mem_cons.mp bMember with rfl | bTail
      · rfl
      · exact absurd equal (first b bTail).ne
    · rcases List.mem_cons.mp bMember with rfl | bTail
      · exact absurd equal.symm (first a aTail).ne
      · exact induction rest a aTail b bTail equal

theorem eq_of_increasing {key : Row → Key} {left right : List Row}
    (leftIncreasing : left.Pairwise fun a b => key a < key b)
    (rightIncreasing : right.Pairwise fun a b => key a < key b)
    (same : ∀ row, row ∈ left ↔ row ∈ right) : left = right := by
  have nodup : ∀ rows : List Row, (rows.Pairwise fun a b => key a < key b) → rows.Nodup :=
    fun rows increasing => increasing.imp fun below equal => (equal ▸ below).ne rfl
  apply eq_of_perm_of_ordered _ (leftIncreasing.imp le_of_lt) (rightIncreasing.imp le_of_lt)
    (eq_of_key_eq_of_increasing leftIncreasing)
  exact (List.perm_ext_iff_of_nodup (nodup left leftIncreasing) (nodup right rightIncreasing)).mpr
    same

theorem getLast?_eq_some_iff_greatest {key : Row → Key} {rows : List Row} {row : Row}
    (increasing : rows.Pairwise fun a b => key a < key b) :
    rows.getLast? = some row ↔ row ∈ rows ∧ ∀ other ∈ rows, key other ≤ key row := by
  cases rows using List.reverseRecOn with
  | nil => simp
  | append_singleton front last =>
    have below := (List.pairwise_append.mp increasing).2.2
    rw [List.getLast?_concat, Option.some.injEq]
    constructor
    · rintro rfl
      refine ⟨by simp, fun other member => ?_⟩
      rcases List.mem_append.mp member with member | member
      · exact (below other member last (List.mem_singleton_self last)).le
      · rw [List.mem_singleton.mp member]
    · rintro ⟨member, greatest⟩
      rcases List.mem_append.mp member with member | member
      · exact absurd (below row member last (List.mem_singleton_self last))
          (not_lt.mpr (greatest last (by simp)))
      · exact (List.mem_singleton.mp member).symm

/-- Rows in ascending order of a key, as `ORDER BY key`. -/
def orderBy (key : Row → Key) (rows : List Row) : List Row :=
  rows.mergeSort fun left right => decide (key left ≤ key right)

/-- Rows in descending order of a key, as `ORDER BY key DESC`. -/
def orderByDesc (key : Row → Key) (rows : List Row) : List Row :=
  rows.mergeSort fun left right => decide (key right ≤ key left)

variable {key : Row → Key} {rows : List Row}

theorem orderBy_perm : (orderBy key rows).Perm rows := List.mergeSort_perm _ _

theorem mem_orderBy {row : Row} : row ∈ orderBy key rows ↔ row ∈ rows := orderBy_perm.mem_iff

theorem orderByDesc_perm : (orderByDesc key rows).Perm rows := List.mergeSort_perm _ _

theorem orderBy_ordered : (orderBy key rows).Pairwise fun a b => key a ≤ key b := by
  simpa [orderBy] using @List.pairwise_mergeSort Row (fun left right => decide (key left ≤ key right))
    (by simpa using fun _ _ _ => le_trans) (by simpa using fun _ _ => le_total _ _) rows

theorem orderByDesc_ordered : (orderByDesc key rows).Pairwise fun a b => key b ≤ key a := by
  simpa [orderByDesc] using @List.pairwise_mergeSort Row (fun left right => decide (key right ≤ key left))
    (by simpa using fun _ _ _ first second => le_trans second first)
    (by simpa using fun _ _ => le_total _ _) rows

theorem orderBy_eq_self (ordered : rows.Pairwise fun a b => key a ≤ key b) :
    orderBy key rows = rows :=
  List.mergeSort_of_pairwise (by simpa using ordered)

theorem orderBy_eq_of_perm {sorted : List Row} (same : rows.Perm sorted)
    (increasing : sorted.Pairwise fun a b => key a < key b) : orderBy key rows = sorted := by
  apply eq_of_perm_of_ordered (orderBy_perm.trans same) orderBy_ordered
    (increasing.imp le_of_lt)
  intro a aMember b bMember
  have perm : (orderBy key rows).Perm sorted := orderBy_perm.trans same
  exact eq_of_key_eq_of_increasing increasing a (perm.mem_iff.mp aMember)
    b (perm.mem_iff.mp bMember)

theorem orderByDesc_eq_reverse
    (distinct : ∀ a ∈ rows, ∀ b ∈ rows, key a = key b → a = b) :
    orderByDesc key rows = (orderBy key rows).reverse := by
  apply List.reverse_injective
  rw [List.reverse_reverse]
  refine @eq_of_perm_of_ordered Row Key _ key _ _ ?_ ?_ ?_ ?_
  · exact (List.reverse_perm _).trans (orderByDesc_perm.trans orderBy_perm.symm)
  · exact List.pairwise_reverse.mpr orderByDesc_ordered
  · exact orderBy_ordered
  · intro a aMember b bMember
    exact distinct a (by simpa [orderByDesc_perm.mem_iff] using aMember)
      b (by simpa [orderByDesc_perm.mem_iff] using bMember)

theorem orderByDesc_filter {keeps : Row → Bool}
    (distinct : ∀ a ∈ rows, ∀ b ∈ rows, key a = key b → a = b) :
    orderByDesc key (rows.filter keeps) = (orderByDesc key rows).filter keeps := by
  apply List.reverse_injective
  refine @eq_of_perm_of_ordered Row Key _ key _ _ ?_ ?_ ?_ ?_
  · refine (List.reverse_perm _).trans (orderByDesc_perm.trans ?_)
    exact (orderByDesc_perm.symm.filter keeps).trans (List.reverse_perm _).symm
  · exact List.pairwise_reverse.mpr orderByDesc_ordered
  · exact List.pairwise_reverse.mpr (orderByDesc_ordered.sublist List.filter_sublist)
  · intro a aMember b bMember
    simp only [List.mem_reverse, orderByDesc_perm.mem_iff, List.mem_filter] at aMember bMember
    exact distinct a aMember.1 b bMember.1

theorem getElem?_filter_of_descending {bound : Key} {keys : List Key}
    (descending : keys.Pairwise fun a b => b ≤ a) (index : ℕ) :
    (keys.filter fun key => decide (bound < key))[index]? =
      keys[index]?.filter fun key => decide (bound < key) := by
  induction keys generalizing index with
  | nil => simp
  | cons first rest induction =>
    rcases List.pairwise_cons.mp descending with ⟨largest, restDescending⟩
    by_cases above : bound < first
    · cases index with
      | zero => simp [above, Option.filter]
      | succ index => simpa [above] using induction restDescending index
    · have noneAbove : ∀ key ∈ first :: rest, ¬ bound < key := by
        intro key member
        rcases List.mem_cons.mp member with rfl | inRest
        · exact above
        · exact not_lt.mpr ((largest key inRest).trans (not_lt.mp above))
      have empty : (first :: rest).filter (fun key => decide (bound < key)) = [] := by
        simpa [List.filter_eq_nil_iff] using noneAbove
      rw [empty]
      cases present : (first :: rest)[index]? with
      | none => rfl
      | some key =>
        have notAbove := noneAbove key (List.mem_of_getElem? present)
        simp [notAbove, Option.filter]

theorem head?_orderByDesc_of_increasing
    (increasing : rows.Pairwise fun a b => key a < key b) :
    (orderByDesc key rows).head? = rows.getLast? := by
  rw [orderByDesc_eq_reverse (eq_of_key_eq_of_increasing increasing),
    orderBy_eq_self (increasing.imp le_of_lt), List.head?_reverse]

theorem le_of_head?_orderByDesc {first : Row} (row : Row) (found : (orderByDesc key rows).head? = some first)
    (member : row ∈ rows) : key row ≤ key first := by
  have ordered := @orderByDesc_ordered Row Key _ key rows
  have present : row ∈ orderByDesc key rows := orderByDesc_perm.mem_iff.mpr member
  cases sorted : orderByDesc key rows with
  | nil => simp [sorted] at found
  | cons head rest =>
    rw [sorted] at found ordered present
    cases found
    rcases List.mem_cons.mp present with rfl | later
    · exact le_refl _
    · exact (List.pairwise_cons.mp ordered).1 row later

theorem mem_of_head?_orderByDesc {first : Row}
    (found : (orderByDesc key rows).head? = some first) : first ∈ rows :=
  orderByDesc_perm.mem_iff.mp (List.mem_of_mem_head? found)

theorem head?_orderByDesc_eq_none (found : (orderByDesc key rows).head? = none) : rows = [] := by
  have empty := List.head?_eq_none_iff.mp found
  have perm : (orderByDesc key rows).Perm rows := orderByDesc_perm
  rw [empty] at perm
  exact perm.symm.eq_nil

theorem head?_orderByDesc_append {row : Row} (above : ∀ other ∈ rows, key other < key row) :
    (orderByDesc key (rows ++ [row])).head? = some row := by
  have present : row ∈ orderByDesc key (rows ++ [row]) := orderByDesc_perm.mem_iff.mpr (by simp)
  cases found : (orderByDesc key (rows ++ [row])).head? with
  | none => simp [List.head?_eq_none_iff.mp found] at present
  | some first =>
    rcases List.mem_append.mp (mem_of_head?_orderByDesc found) with old | new
    · have notLess := le_of_head?_orderByDesc row found (by simp)
      exact absurd (above first old) (not_lt.mpr notLess)
    · rw [List.mem_singleton.mp new]

theorem orderByDesc_updateWhere {selects : Row → Bool} {update : Row → Row}
    (same : ∀ row, key (update row) = key row) :
    orderByDesc key (updateWhere selects update rows) =
      updateWhere selects update (orderByDesc key rows) := by
  unfold orderByDesc updateWhere
  symm
  apply List.map_mergeSort
  intro left _ right _
  split <;> split <;> simp [same]

end Ordering

end JobAgg
