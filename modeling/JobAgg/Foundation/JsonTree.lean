import Mathlib.Algebra.Order.Ring.Int
import JobAgg.Foundation.Json
import JobAgg.Foundation.Table

/-! # JSON values as trees

The dictionaries of a value have distinct keys; their order is no part of the
value, and sorting every dictionary by its keys gives one tree for equal values.
-/

namespace JobAgg.Json

mutual

/-- The values in a value, each counted where it stands. -/
def nodes : Json → ℕ
  | array items => nodesOfItems items + 1
  | object fields => nodesOfFields fields + 1
  | _ => 1

def nodesOfItems : List Json → ℕ
  | [] => 0
  | item :: items => nodes item + nodesOfItems items

def nodesOfFields : List (String × Json) → ℕ
  | [] => 0
  | (_, value) :: fields => nodes value + nodesOfFields fields

end

mutual

/-- `sorted(value.items())`, in every dictionary. -/
def sortKeys : Json → Json
  | array items => array (sortItems items)
  | object fields => object (orderBy Prod.fst (sortFields fields))
  | null => null
  | bool value => bool value
  | number numeral => number numeral
  | string text => string text

def sortItems : List Json → List Json
  | [] => []
  | item :: items => sortKeys item :: sortItems items

def sortFields : List (String × Json) → List (String × Json)
  | [] => []
  | (name, value) :: fields => (name, sortKeys value) :: sortFields fields

end

mutual

def DistinctKeys : Json → Prop
  | array items => DistinctItems items
  | object fields => (fields.map Prod.fst).Nodup ∧ DistinctFields fields
  | _ => True

def DistinctItems : List Json → Prop
  | [] => True
  | item :: items => DistinctKeys item ∧ DistinctItems items

def DistinctFields : List (String × Json) → Prop
  | [] => True
  | (_, value) :: fields => DistinctKeys value ∧ DistinctFields fields

end

theorem nodesOfFields_eq_sum {fields : List (String × Json)} :
    nodesOfFields fields = (fields.map fun field => nodes field.2).sum := by
  induction fields with
  | nil => rfl
  | cons field fields induction => simp [nodesOfFields, induction]

theorem distinctFields_iff {fields : List (String × Json)} :
    DistinctFields fields ↔ ∀ field ∈ fields, DistinctKeys field.2 := by
  induction fields with
  | nil => simp [DistinctFields]
  | cons field fields induction => simp [DistinctFields, induction]

theorem distinctItems_iff {items : List Json} :
    DistinctItems items ↔ ∀ item ∈ items, DistinctKeys item := by
  induction items with
  | nil => simp [DistinctItems]
  | cons item items induction => simp [DistinctItems, induction]

theorem map_fst_sortFields {fields : List (String × Json)} :
    (sortFields fields).map Prod.fst = fields.map Prod.fst := by
  induction fields with
  | nil => rfl
  | cons field fields induction => simp [sortFields, induction]

mutual

theorem nodes_sortKeys : ∀ value : Json, (sortKeys value).nodes = value.nodes
  | array items => by simp [sortKeys, nodes, nodes_sortItems items]
  | object fields => by
    have perm : (orderBy Prod.fst (sortFields fields)).Perm (sortFields fields) := orderBy_perm
    have sum := (perm.map fun field => nodes field.2).sum_nat
    rw [sortKeys, nodes, nodes, nodesOfFields_eq_sum, sum, ← nodesOfFields_eq_sum,
      nodes_sortFields fields]
  | null => rfl
  | bool _ => rfl
  | number _ => rfl
  | string _ => rfl

theorem nodes_sortItems : ∀ items : List Json, nodesOfItems (sortItems items) = nodesOfItems items
  | [] => rfl
  | item :: items => by
    simp [sortItems, nodesOfItems, nodes_sortKeys item, nodes_sortItems items]

theorem nodes_sortFields : ∀ fields : List (String × Json),
    nodesOfFields (sortFields fields) = nodesOfFields fields
  | [] => rfl
  | (_, value) :: fields => by
    simp [sortFields, nodesOfFields, nodes_sortKeys value, nodes_sortFields fields]

end

mutual

theorem distinctKeys_sortKeys : ∀ {value : Json}, DistinctKeys value → DistinctKeys (sortKeys value)
  | array items => by
    intro distinct
    rw [DistinctKeys] at distinct
    rw [sortKeys, DistinctKeys]
    exact distinctItems_sortItems distinct
  | object fields => by
    intro distinct
    rw [DistinctKeys] at distinct
    have sorted := distinctFields_sortFields distinct.2
    have perm : (orderBy Prod.fst (sortFields fields)).Perm (sortFields fields) := orderBy_perm
    rw [sortKeys, DistinctKeys]
    constructor
    · rw [(perm.map Prod.fst).nodup_iff, map_fst_sortFields]
      exact distinct.1
    · rw [distinctFields_iff] at sorted ⊢
      exact fun field member => sorted field (perm.mem_iff.mp member)
  | null => fun distinct => distinct
  | bool _ => fun distinct => distinct
  | number _ => fun distinct => distinct
  | string _ => fun distinct => distinct

theorem distinctItems_sortItems : ∀ {items : List Json},
    DistinctItems items → DistinctItems (sortItems items)
  | [] => fun distinct => distinct
  | item :: items => by
    intro distinct
    rw [DistinctItems] at distinct
    rw [sortItems, DistinctItems]
    exact ⟨distinctKeys_sortKeys distinct.1, distinctItems_sortItems distinct.2⟩

theorem distinctFields_sortFields : ∀ {fields : List (String × Json)},
    DistinctFields fields → DistinctFields (sortFields fields)
  | [] => fun distinct => distinct
  | (name, value) :: fields => by
    intro distinct
    rw [DistinctFields] at distinct
    rw [sortFields, DistinctFields]
    exact ⟨distinctKeys_sortKeys distinct.1, distinctFields_sortFields distinct.2⟩

end

theorem sortFields_eq_self {fields : List (String × Json)}
    (sorted : ∀ field ∈ fields, sortKeys field.2 = field.2) : sortFields fields = fields := by
  induction fields with
  | nil => rfl
  | cons field fields induction =>
    have first := sorted field List.mem_cons_self
    have rest := induction fun other member => sorted other (List.mem_cons_of_mem _ member)
    rw [sortFields, first, rest]

mutual

@[simp] theorem sortKeys_sortKeys : ∀ value : Json, sortKeys (sortKeys value) = sortKeys value
  | array items => by rw [sortKeys, sortKeys, sortItems_sortItems items]
  | object fields => by
    have sorted : sortFields (orderBy Prod.fst (sortFields fields)) =
        orderBy Prod.fst (sortFields fields) :=
      sortFields_eq_self fun field member =>
        sortFields_sorted fields field (orderBy_perm.mem_iff.mp member)
    rw [sortKeys, sortKeys, sorted, orderBy_eq_self orderBy_ordered]
  | null => rfl
  | bool _ => rfl
  | number _ => rfl
  | string _ => rfl

theorem sortItems_sortItems : ∀ items : List Json, sortItems (sortItems items) = sortItems items
  | [] => rfl
  | item :: items => by simp [sortItems, sortKeys_sortKeys item, sortItems_sortItems items]

theorem sortFields_sorted : ∀ (fields : List (String × Json)), ∀ field ∈ sortFields fields,
    sortKeys field.2 = field.2
  | [] => by simp [sortFields]
  | (name, value) :: fields => by
    intro field member
    rw [sortFields] at member
    rcases List.mem_cons.mp member with rfl | member
    · exact sortKeys_sortKeys value
    · exact sortFields_sorted fields field member

end

/-- Equal as JSON: the order of the keys is no part of a value. -/
def Same (left right : Json) : Prop := sortKeys left = sortKeys right

section Dictionaries

variable {fields : List (String × Json)}

theorem distinctKeys_object : (object fields).DistinctKeys ↔
    (fields.map Prod.fst).Nodup ∧ ∀ field ∈ fields, field.2.DistinctKeys := by
  rw [DistinctKeys, distinctFields_iff]

theorem distinctKeys_filter {keeps : String × Json → Bool} (distinct : (object fields).DistinctKeys) :
    (object (fields.filter keeps)).DistinctKeys := by
  rw [distinctKeys_object] at distinct ⊢
  constructor
  · exact distinct.1.sublist (List.filter_sublist.map Prod.fst)
  · exact fun field member => distinct.2 field (List.mem_filter.mp member).1

theorem distinctKeys_get (key : String) (distinct : (object fields).DistinctKeys) :
    (get key fields).DistinctKeys := by
  rw [distinctKeys_object] at distinct
  unfold get
  cases found : lookup key fields with
  | none => trivial
  | some value => exact distinct.2 _ (mem_of_lookup_eq_some found)

theorem distinctKeys_assign {key : String} {value : Json}
    (distinct : (object fields).DistinctKeys) (also : value.DistinctKeys) :
    (object (assign key value fields)).DistinctKeys := by
  rw [distinctKeys_object] at distinct ⊢
  constructor
  · exact nodup_keys_assign distinct.1
  · intro field member
    rcases mem_assign member with rfl | old
    · exact also
    · exact distinct.2 field old

theorem distinctKeys_map {change : String × Json → Json} (distinct : (object fields).DistinctKeys)
    (also : ∀ field ∈ fields, (change field).DistinctKeys) :
    (object (fields.map fun field => (field.1, change field))).DistinctKeys := by
  rw [distinctKeys_object] at distinct ⊢
  constructor
  · simpa [List.map_map, Function.comp_def] using distinct.1
  · intro field member
    rcases List.mem_map.mp member with ⟨old, present, rfl⟩
    exact also old present

end Dictionaries

end JobAgg.Json
