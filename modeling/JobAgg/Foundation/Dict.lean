import Mathlib.Data.Finmap
import Mathlib.Data.Finset.Sort

/-! # Dictionaries

A dictionary with the values it maps its keys to and no order of its own. `items` lists
it by key, which is how the modelled code writes one out.
-/

namespace JobAgg

abbrev Dict (Key : Type) (Value : Type) : Type := Finmap fun _ : Key => Value

namespace Dict

variable {Key Value : Type} {dict : Dict Key Value}
  {key other : Key} {value : Value}

/-- `len(dict)` -/
def size (dict : Dict Key Value) : Nat := dict.keys.card

@[simp] theorem size_empty : size (∅ : Dict Key Value) = 0 := by
  rw [size, Finmap.keys_empty, Finset.card_empty]

theorem size_le_of_keys (names : Finset Key) (inside : ∀ key ∈ dict, key ∈ names) :
    size dict ≤ names.card := by
  apply Finset.card_le_card
  intro key member
  exact inside key (Finmap.mem_keys.mp member)

variable [DecidableEq Key]

theorem keys_insert : (dict.insert key value).keys = insert key dict.keys := by
  ext other
  rw [Finmap.mem_keys, Finmap.mem_insert, Finset.mem_insert, Finmap.mem_keys]

theorem size_insert_of_notMem (fresh : key ∉ dict) :
    size (dict.insert key value) = size dict + 1 := by
  rw [size, keys_insert, Finset.card_insert_of_notMem]
  · rfl
  · rwa [Finmap.mem_keys]

theorem lookup_insert_eq : (dict.insert key value).lookup other =
    if other = key then some value else dict.lookup other := by
  split
  case isTrue same =>
    rw [same, Finmap.lookup_insert]
  case isFalse different =>
    rw [Finmap.lookup_insert_of_ne _ different]

theorem lookup_foldl_insert {Row : Type} {column : Row → Key} (content : Row → Value)
    {rows : List Row} (distinct : (rows.map column).Nodup) :
    (rows.foldl (fun dict row => dict.insert (column row) (content row)) dict).lookup key =
        some value ↔
      (∃ row ∈ rows, column row = key ∧ content row = value) ∨
        key ∉ rows.map column ∧ dict.lookup key = some value := by
  induction rows generalizing dict with
  | nil => simp
  | cons head tail induction =>
    rw [List.map_cons, List.nodup_cons] at distinct
    rw [List.foldl_cons, induction distinct.2, lookup_insert_eq]
    by_cases same : key = column head
    · have absent : key ∉ tail.map column := same ▸ distinct.1
      rw [if_pos same]
      constructor
      · rintro (⟨row, member, holds⟩ | ⟨-, found⟩)
        · exact .inl ⟨row, List.mem_cons_of_mem _ member, holds⟩
        · exact .inl ⟨head, List.mem_cons_self, same.symm, Option.some.inj found⟩
      · rintro (⟨row, member, holds, stored⟩ | ⟨outside, -⟩)
        · rcases List.mem_cons.mp member with rfl | member
          · exact .inr ⟨absent, by rw [stored]⟩
          · exact .inl ⟨row, member, holds, stored⟩
        · exact absurd (same ▸ List.mem_cons_self) outside
    · rw [if_neg same, List.map_cons, List.mem_cons, not_or]
      constructor
      · rintro (⟨row, member, holds⟩ | ⟨outside, found⟩)
        · exact .inl ⟨row, List.mem_cons_of_mem _ member, holds⟩
        · exact .inr ⟨⟨same, outside⟩, found⟩
      · rintro (⟨row, member, holds, stored⟩ | ⟨⟨-, outside⟩, found⟩)
        · rcases List.mem_cons.mp member with rfl | member
          · exact absurd holds.symm same
          · exact .inl ⟨row, member, holds, stored⟩
        · exact .inr ⟨outside, found⟩

variable [LinearOrder Key]

/-- `sorted(dict.items())` -/
def items (dict : Dict Key Value) : List (Key × Value) :=
  dict.keys.sort.filterMap fun key => (dict.lookup key).map (key, ·)

theorem mem_items : (key, value) ∈ items dict ↔ dict.lookup key = some value := by
  rw [items, List.mem_filterMap]
  constructor
  · rintro ⟨listed, -, found⟩
    rw [Option.map_eq_some_iff] at found
    obtain ⟨stored, found, same⟩ := found
    rw [Prod.mk.injEq] at same
    rw [← same.1, ← same.2, found]
  · intro found
    refine ⟨key, ?_, ?_⟩
    · rw [Finset.mem_sort, Finmap.mem_keys]
      exact Finmap.mem_of_lookup_eq_some found
    · rw [found, Option.map_some]

theorem items_map_fst : (items dict).map (·.1) = dict.keys.sort := by
  rw [items, List.map_filterMap]
  apply Eq.trans _ List.filterMap_some
  apply List.filterMap_congr
  intro key member
  rw [Finset.mem_sort, Finmap.mem_keys] at member
  obtain ⟨value, found⟩ := Finmap.mem_iff.mp member
  rw [found, Option.map_some, Option.map_some]

theorem length_items : (items dict).length = size dict := by
  have listed : (items dict).map (·.1) = dict.keys.sort := items_map_fst
  have length := congrArg List.length listed
  rwa [List.length_map, Finset.length_sort] at length

theorem items_distinct : ((items dict).map (·.1)).Nodup := by
  rw [items_map_fst]
  exact Finset.sort_nodup _ _

theorem items_increasing :
    (items dict).Pairwise fun first second => first.1 < second.1 := by
  have increasing := (Finset.sortedLT_sort dict.keys).pairwise
  rw [← items_map_fst] at increasing
  exact List.pairwise_map.mp increasing

/-- `set(dict.values())` -/
def values [DecidableEq Value] (dict : Dict Key Value) : Finset Value :=
  ((items dict).map (·.2)).toFinset

theorem mem_values [DecidableEq Value] :
    value ∈ values dict ↔ ∃ key, dict.lookup key = some value := by
  simp only [values, List.mem_toFinset, List.mem_map, Prod.exists, mem_items, exists_eq_right]

end Dict

end JobAgg
