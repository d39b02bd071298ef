import Mathlib.Algebra.Order.Group.Defs
import Mathlib.Data.List.Count

/-! # Sliding-window rate bounds

A sequence of stamps respects a rate when no half-open interval of the window's
length holds more than the limit. A limiter that counts the stamps younger than
the window before it lets the next one through keeps every such interval within
the limit, whatever it forgets of the older stamps.
-/

namespace JobAgg

section Pruning

variable {Time : Type*} [AddCommGroup Time] [LinearOrder Time]

/-- The stamps a limiter still counts at `now`. -/
def youngerThan (window now : Time) (stamps : List Time) : List Time :=
  stamps.filter fun stamp => now - window < stamp

@[simp] theorem youngerThan_nil (window now : Time) :
    youngerThan window now [] = [] := rfl

@[simp] theorem youngerThan_append (window now : Time) (left right : List Time) :
    youngerThan window now (left ++ right) =
      youngerThan window now left ++ youngerThan window now right := by
  simp [youngerThan]

theorem youngerThan_sublist (window now : Time) (stamps : List Time) :
    (youngerThan window now stamps).Sublist stamps :=
  List.filter_sublist

theorem lt_of_mem_youngerThan {window now stamp : Time} {stamps : List Time}
    (member : stamp ∈ youngerThan window now stamps) : now - window < stamp := by
  simpa [youngerThan] using (List.mem_filter.mp member).2

/-- Neither `[start, start + window)` nor `(start, start + window]` ever holds
more than `limit` of the stamps. -/
def WindowBounded (window : Time) (limit : ℕ) (stamps : List Time) : Prop :=
  ∀ start,
    stamps.countP (fun stamp => start ≤ stamp ∧ stamp < start + window) ≤ limit ∧
    stamps.countP (fun stamp => start < stamp ∧ stamp ≤ start + window) ≤ limit

theorem WindowBounded.nil {window : Time} {limit : ℕ} :
    WindowBounded window limit [] := by
  intro start
  simp

end Pruning

variable {Time : Type*} [AddCommGroup Time] [LinearOrder Time] [IsOrderedAddMonoid Time]
  {window now : Time} {limit : ℕ} {stamps : List Time}

theorem youngerThan_youngerThan {earlier later : Time} (ordered : earlier ≤ later) :
    youngerThan window later (youngerThan window earlier stamps) =
      youngerThan window later stamps := by
  rw [youngerThan, youngerThan, youngerThan, List.filter_filter]
  apply List.filter_congr
  intro stamp _
  have weaker : later - window < stamp → earlier - window < stamp :=
    (sub_le_sub_right ordered window).trans_lt
  simpa using weaker

namespace WindowBounded

omit [IsOrderedAddMonoid Time] in
private theorem countP_append_le (inside : Time → Bool)
    (bounded : stamps.countP inside ≤ limit)
    (below : (youngerThan window now stamps).length < limit)
    (counted : inside now → ∀ stamp, inside stamp → now - window < stamp) :
    (stamps ++ [now]).countP inside ≤ limit := by
  rw [List.countP_append, List.countP_singleton]
  cases atNow : inside now with
  | false => simpa using bounded
  | true =>
    have smaller : stamps.countP inside ≤ (youngerThan window now stamps).length := by
      rw [youngerThan, ← List.countP_eq_length_filter]
      apply List.countP_mono_left
      intro stamp _ member
      simpa using counted atNow stamp member
    simp only [if_true]
    omega

theorem append (bounded : WindowBounded window limit stamps)
    (below : (youngerThan window now stamps).length < limit) :
    WindowBounded window limit (stamps ++ [now]) := by
  intro start
  constructor
  · apply countP_append_le _ (bounded start).1 below
    intro nowInside stamp stampInside
    simp only [decide_eq_true_eq] at nowInside stampInside
    exact (sub_lt_iff_lt_add.mpr nowInside.2).trans_le stampInside.1
  · apply countP_append_le _ (bounded start).2 below
    intro nowInside stamp stampInside
    simp only [decide_eq_true_eq] at nowInside stampInside
    exact (sub_le_iff_le_add.mpr nowInside.2).trans_lt stampInside.1

end WindowBounded

end JobAgg
