import JobAgg.Foundation.Dict
import Mathlib.Algebra.Order.BigOperators.Group.Finset

/-! # Counters beside a dictionary

A component that limits what it keeps counts it in a second dictionary. What the counters
should say is a sum over the first one; a change of one entry changes the sum by what the
entry weighs. -/

namespace JobAgg.Dict

variable {Key Value Owner : Type} [DecidableEq Key] [DecidableEq Owner]
  {dict : Dict Key Value} {key : Key} {value : Value} {weight : Key → Value → Nat}

def weigh (weight : Key → Value → Nat) (dict : Dict Key Value) (key : Key) : Nat :=
  (dict.lookup key).elim 0 (weight key)

def sum (weight : Key → Value → Nat) (dict : Dict Key Value) : Nat :=
  ∑ key ∈ dict.keys, weigh weight dict key

theorem weigh_of_notMem (missing : key ∉ dict) : weigh weight dict key = 0 := by
  rw [weigh, Finmap.lookup_eq_none.mpr missing]
  rfl

theorem weigh_of_lookup (known : dict.lookup key = some value) :
    weigh weight dict key = weight key value := by
  rw [weigh, known]
  rfl

theorem sum_empty : sum weight (∅ : Dict Key Value) = 0 := by
  rw [sum, Finmap.keys_empty, Finset.sum_empty]

theorem sum_eq_of_subset {keys : Finset Key} (inside : dict.keys ⊆ keys) :
    sum weight dict = ∑ key ∈ keys, weigh weight dict key := by
  rw [sum]
  apply Finset.sum_subset inside
  intro other _ outside
  rw [Finmap.mem_keys] at outside
  exact weigh_of_notMem outside

theorem sum_insert : sum weight (dict.insert key value) + weigh weight dict key =
    sum weight dict + weight key value := by
  have before : sum weight dict =
      weigh weight dict key + ∑ other ∈ dict.keys.erase key, weigh weight dict other := by
    rw [sum_eq_of_subset (Finset.subset_insert key dict.keys),
      ← Finset.add_sum_erase _ _ (Finset.mem_insert_self key dict.keys), Finset.erase_insert_eq_erase]
  have after : sum weight (dict.insert key value) =
      weight key value + ∑ other ∈ dict.keys.erase key, weigh weight dict other := by
    rw [sum, keys_insert, ← Finset.add_sum_erase _ _ (Finset.mem_insert_self key dict.keys),
      Finset.erase_insert_eq_erase, weigh_of_lookup (Finmap.lookup_insert _)]
    congr 1
    apply Finset.sum_congr rfl
    intro other member
    rw [weigh, weigh, Finmap.lookup_insert_of_ne _ (Finset.ne_of_mem_erase member)]
  omega

theorem sum_erase : sum weight (dict.erase key) + weigh weight dict key = sum weight dict := by
  have before : sum weight dict =
      weigh weight dict key + ∑ other ∈ dict.keys.erase key, weigh weight dict other := by
    rw [sum_eq_of_subset (Finset.subset_insert key dict.keys),
      ← Finset.add_sum_erase _ _ (Finset.mem_insert_self key dict.keys), Finset.erase_insert_eq_erase]
  have after : sum weight (dict.erase key) =
      ∑ other ∈ dict.keys.erase key, weigh weight dict other := by
    rw [sum, Finmap.keys_erase]
    apply Finset.sum_congr rfl
    intro other member
    rw [weigh, weigh, Finmap.lookup_erase_ne (Finset.ne_of_mem_erase member)]
  omega

theorem sum_le_sum {other : Dict Key Value}
    (inside : ∀ key value, dict.lookup key = some value → other.lookup key = some value) :
    sum weight dict ≤ sum weight other := by
  have keys : dict.keys ⊆ other.keys := by
    intro key known
    rw [Finmap.mem_keys, Finmap.mem_iff] at known
    obtain ⟨value, found⟩ := known
    rw [Finmap.mem_keys]
    exact Finmap.mem_of_lookup_eq_some (inside key value found)
  have weighed : sum weight dict ≤ ∑ key ∈ dict.keys, weigh weight other key := by
    apply Finset.sum_le_sum
    intro key known
    rw [Finmap.mem_keys, Finmap.mem_iff] at known
    obtain ⟨value, found⟩ := known
    rw [weigh_of_lookup found, weigh_of_lookup (inside key value found)]
  exact weighed.trans (Finset.sum_le_sum_of_subset keys)

theorem sum_insert_of_notMem (fresh : key ∉ dict) :
    sum weight (dict.insert key value) = sum weight dict + weight key value := by
  have changed := @sum_insert _ _ _ dict key value weight
  rw [weigh_of_notMem fresh] at changed
  exact changed

/-- `counters.get(owner, 0)` -/
def countOf (counters : Dict Owner Nat) (owner : Owner) : Nat := (counters.lookup owner).getD 0

theorem countOf_insert {counters : Dict Owner Nat} {owner other : Owner} {count : Nat} :
    countOf (counters.insert owner count) other =
      if other = owner then count else countOf counters other := by
  rw [countOf, lookup_insert_eq]
  split
  · rfl
  · rfl

theorem countOf_erase {counters : Dict Owner Nat} {owner other : Owner} :
    countOf (counters.erase owner) other = if other = owner then 0 else countOf counters other := by
  rw [countOf]
  split
  case isTrue same =>
    rw [same, Finmap.lookup_erase]
    rfl
  case isFalse different =>
    rw [Finmap.lookup_erase_ne different]
    rfl

/-- Take one off a counter, and the counter away when nothing is left. -/
def release (owner : Owner) (counters : Dict Owner Nat) : Dict Owner Nat :=
  if 1 < countOf counters owner then counters.insert owner (countOf counters owner - 1)
  else counters.erase owner

theorem countOf_release {counters : Dict Owner Nat} {owner other : Owner} :
    countOf (release owner counters) other =
      if other = owner then countOf counters owner - 1 else countOf counters other := by
  rw [release]
  split
  case isTrue => exact countOf_insert
  case isFalse few =>
    rw [countOf_erase]
    split
    · omega
    · rfl

end JobAgg.Dict
