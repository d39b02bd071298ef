import Mathlib.Algebra.Order.Field.Rat
import Mathlib.Data.List.Sort

/-! # Heaps of deadlines

A table whose entries fall due keeps a heap of deadlines beside it. The heap is pruned a
bounded number of entries at a time, and an entry may have outlived what it was pushed for:
what is dropped is decided by the table. -/

namespace JobAgg

/-- A deadline. Among equal times the order is that of the pushes. -/
structure Expiry (Item : Type) where
  due : ℚ
  sequence : Nat
  item : Item

namespace Expiry

variable {Item Table : Type} {entry : Expiry Item} {heap : List (Expiry Item)} {now : ℚ}
  {drop : Item → Table → Table} {table : Table}

/-- The order of the tuples that `heapq` compares. -/
def Before (first second : Expiry Item) : Prop :=
  first.due < second.due ∨ first.due = second.due ∧ first.sequence ≤ second.sequence

instance : DecidableRel (@Before Item) := fun first second =>
  inferInstanceAs (Decidable
    (first.due < second.due ∨ first.due = second.due ∧ first.sequence ≤ second.sequence))

/-- `heapq.heappush`, where a heap is listed in the order in which it is popped -/
def push (entry : Expiry Item) (heap : List (Expiry Item)) : List (Expiry Item) :=
  heap.orderedInsert Before entry

theorem push_perm : (push entry heap).Perm (entry :: heap) :=
  List.perm_orderedInsert _ _ _

theorem mem_push {other : Expiry Item} : other ∈ push entry heap ↔ other = entry ∨ other ∈ heap := by
  rw [push_perm.mem_iff, List.mem_cons]

/-- Pop at most `budget` entries that are due, and drop from the table what is due there:
the budget that is left, the heap and the table. -/
def prune (now : ℚ) (drop : Item → Table → Table) :
    Nat → List (Expiry Item) → Table → Nat × List (Expiry Item) × Table
  | 0, heap, table => (0, heap, table)
  | budget + 1, [], table => (budget + 1, [], table)
  | budget + 1, entry :: rest, table =>
    if entry.due ≤ now then prune now drop budget rest (drop entry.item table)
    else (budget + 1, entry :: rest, table)

/-- Pop every entry that is due. -/
def pruneAll (now : ℚ) (drop : Item → Table → Table) :
    List (Expiry Item) → Table → List (Expiry Item) × Table
  | [], table => ([], table)
  | entry :: rest, table =>
    if entry.due ≤ now then pruneAll now drop rest (drop entry.item table)
    else (entry :: rest, table)

theorem prune_keeps {holds : Table → Prop}
    (kept : ∀ item table, holds table → holds (drop item table)) {budget : Nat}
    (before : holds table) : holds (prune now drop budget heap table).2.2 := by
  fun_induction prune now drop budget heap table with
  | case1 heap table => exact before
  | case2 budget table => exact before
  | case3 budget table entry rest due induction => exact induction (kept _ _ before)
  | case4 budget table entry rest due => exact before

theorem pruneAll_keeps {holds : List (Expiry Item) → Table → Prop}
    (kept : ∀ entry rest table, entry.due ≤ now → holds (entry :: rest) table →
      holds rest (drop entry.item table))
    (before : holds heap table) :
    holds (pruneAll now drop heap table).1 (pruneAll now drop heap table).2 := by
  induction heap generalizing table with
  | nil => exact before
  | cons entry rest induction =>
    rw [pruneAll]
    split
    case isTrue due => exact induction (kept entry rest table due before)
    case isFalse => exact before

end Expiry

end JobAgg
