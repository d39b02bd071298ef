import Mathlib.Algebra.Order.Ring.Int
import Mathlib.Data.List.Basic

/-! # Caches with a stamp

A cache keeps a few values, the one that was used last at its end, together with the stamp that
they belong to. It is emptied when the stamp changes, and the values in front go first when it
grows too large. -/

namespace JobAgg

structure CacheEntry (Key Value : Type) where
  key : Key
  value : Value
  size : Nat

/-- The entries from the one that was used least recently, and the stamp they belong to. -/
structure StampedCache (Stamp Key Value : Type) where
  entries : List (CacheEntry Key Value)
  stamp : Option Stamp

namespace StampedCache

variable {Stamp Key Value : Type}

def empty : StampedCache Stamp Key Value := ⟨[], none⟩

section Operations

variable [DecidableEq Stamp] [DecidableEq Key] (cache : StampedCache Stamp Key Value)

def forStamp (stamp : Stamp) : StampedCache Stamp Key Value :=
  if cache.stamp = some stamp then cache else ⟨[], some stamp⟩

def lookup (key : Key) : Option Value := (cache.entries.find? (·.key == key)).map (·.value)

/-- Move an entry to the end. -/
def touch (key : Key) : StampedCache Stamp Key Value :=
  { cache with entries :=
      cache.entries.filter (·.key != key) ++ cache.entries.filter (·.key == key) }

/-- Drop entries from the front as long as there are too many, or as they are too large. -/
def evict (most largest : Nat) : List (CacheEntry Key Value) → List (CacheEntry Key Value)
  | [] => []
  | head :: rest =>
    if most < rest.length + 1 ∨ largest < ((head :: rest).map (·.size)).sum then
      evict most largest rest
    else head :: rest

def remember (most largest : Nat) (key : Key) (value : Value) (size : Nat) (stamp : Stamp) :
    StampedCache Stamp Key Value :=
  let known := (cache.forStamp stamp).entries
  let entries := evict most largest (known.filter (·.key != key) ++ [⟨key, value, size⟩])
  ⟨if largest < size then known else entries, some stamp⟩

end Operations

def Holds (right : Key → Value → Prop) (cache : StampedCache Stamp Key Value) : Prop :=
  ∀ entry ∈ cache.entries, right entry.key entry.value

variable {right : Key → Value → Prop} {cache : StampedCache Stamp Key Value} {key : Key}
  {value : Value} {stamp : Stamp}

theorem mem_of_mem_evict {most largest : Nat} {entries : List (CacheEntry Key Value)}
    {entry : CacheEntry Key Value} (kept : entry ∈ evict most largest entries) :
    entry ∈ entries := by
  induction entries with
  | nil => exact kept
  | cons head rest induction =>
    rw [evict] at kept
    split at kept
    case isTrue elapsed => exact List.mem_cons_of_mem _ (induction kept)
    case isFalse within => exact kept

theorem forStamp_stamp [DecidableEq Stamp] : (cache.forStamp stamp).stamp = some stamp := by
  rw [forStamp]
  split
  case isTrue same => exact same
  case isFalse other => rfl

theorem mem_forStamp [DecidableEq Stamp] {entry : CacheEntry Key Value}
    (listed : entry ∈ (cache.forStamp stamp).entries) :
    cache.stamp = some stamp ∧ entry ∈ cache.entries := by
  rw [forStamp] at listed
  split at listed
  case isTrue same => exact ⟨same, listed⟩
  case isFalse other => cases listed

theorem Holds.lookup [DecidableEq Key] (holds : cache.Holds right) (found : cache.lookup key = some value) :
    right key value := by
  rw [StampedCache.lookup, Option.map_eq_some_iff] at found
  obtain ⟨entry, found, rfl⟩ := found
  have same : entry.key = key := beq_iff_eq.mp
    (@List.find?_some _ (fun entry : CacheEntry Key Value => entry.key == key) _ _ found)
  rw [← same]
  exact holds entry (List.mem_of_find?_eq_some found)

theorem Holds.touch [DecidableEq Key] (holds : cache.Holds right) :
    (cache.touch key).Holds right := by
  intro entry listed
  rcases List.mem_append.mp listed with other | mine
  · exact holds entry (List.mem_of_mem_filter other)
  · exact holds entry (List.mem_of_mem_filter mine)

theorem mem_remember [DecidableEq Stamp] [DecidableEq Key] {most largest size : Nat} {entry : CacheEntry Key Value}
    (listed : entry ∈ (cache.remember most largest key value size stamp).entries) :
    entry = ⟨key, value, size⟩ ∨ cache.stamp = some stamp ∧ entry ∈ cache.entries := by
  dsimp only [remember] at listed
  split at listed
  case isTrue elapsed => exact .inr (mem_forStamp listed)
  case isFalse within =>
    rcases List.mem_append.mp (mem_of_mem_evict listed) with old | new
    · exact .inr (mem_forStamp (List.mem_of_mem_filter old))
    · exact .inl (List.mem_singleton.mp new)

end StampedCache

end JobAgg
