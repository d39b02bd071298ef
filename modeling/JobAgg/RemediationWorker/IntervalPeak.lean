import JobAgg.Foundation.Sweep
import JobAgg.Foundation.Table
import Mathlib.Data.Prod.Lex

/-! # Observed overlap

The worker reports how many tasks, sources, hosts and requests were active at once. It
computes each from the measured intervals.
-/

namespace JobAgg.RemediationWorker

open Sweep

variable {Time Value : Type}

structure MeasuredItem (Time Value : Type) where
  startedMonotonic : Time
  finishedMonotonic : Time
  field : String → Option Value

inductive PeakFailure
  | keyError (name : String)
  deriving DecidableEq

/-- `key` where it is neither `None` nor empty -/
def givenKey (key : Option String) : Option String := key.filter fun name => name != ""

/-- `item[key] if key else index` -/
def intervalValue (key : Option String) (index : Nat) (item : MeasuredItem Time Value) :
    Except PeakFailure (Nat ⊕ Value) :=
  match givenKey key with
  | none => .ok (.inl index)
  | some name =>
    match item.field name with
    | none => .error (.keyError name)
    | some value => .ok (.inr value)

variable [LinearOrder Time]

def intervalEvents (key : Option String) (index : Nat) (item : MeasuredItem Time Value) :
    Except PeakFailure (List (Change Time (Nat ⊕ Value))) :=
  if item.startedMonotonic < item.finishedMonotonic then
    match intervalValue key index item with
    | .error failure => .error failure
    | .ok value => .ok [⟨item.startedMonotonic, 1, value⟩, ⟨item.finishedMonotonic, -1, value⟩]
  else .ok []

/-- `for index, item in enumerate(intervals)` -/
def collectEvents (key : Option String) :
    Nat → List (MeasuredItem Time Value) → Except PeakFailure (List (Change Time (Nat ⊕ Value)))
  | _, [] => .ok []
  | index, item :: rest =>
    match intervalEvents key index item with
    | .error failure => .error failure
    | .ok own =>
      match collectEvents key (index + 1) rest with
      | .error failure => .error failure
      | .ok later => .ok (own ++ later)

def intervalPeak [DecidableEq Value] (intervals : List (MeasuredItem Time Value)) (key : Option String) :
    Except PeakFailure Nat :=
  match collectEvents key 0 intervals with
  | .error failure => .error failure
  | .ok events => .ok (sweep ∅ 0 (orderBy (fun event => toLex (event.time, event.delta)) events))

namespace MeasuredItem

def ActiveAt (item : MeasuredItem Time Value) (time : Time) : Prop :=
  item.startedMonotonic ≤ time ∧ time < item.finishedMonotonic

instance (item : MeasuredItem Time Value) (time : Time) : Decidable (item.ActiveAt time) :=
  inferInstanceAs (Decidable (_ ∧ _))

end MeasuredItem

/-- The number of distinct values of a key among the intervals active at a time, or of the
intervals where there is no key. -/
def activeCount [DecidableEq Value] (intervals : List (MeasuredItem Time Value)) (key : Option String) (time : Time) :
    Nat :=
  let active := intervals.filter fun item => decide (item.ActiveAt time)
  match key with
  | none => active.length
  | some name => (active.filterMap fun item => item.field name).toFinset.card

def Carries (intervals : List (MeasuredItem Time Value)) (key : Option String) : Prop :=
  ∀ item ∈ intervals, item.startedMonotonic < item.finishedMonotonic →
    ∀ name, givenKey key = some name → (item.field name).isSome

/-! ## The spans behind the events -/

variable {key : Option String} {index : Nat} {item : MeasuredItem Time Value}
  {intervals : List (MeasuredItem Time Value)} {time : Time}

/-- The spans that the loop over the intervals makes events of. -/
def spansFrom (key : Option String) :
    Nat → List (MeasuredItem Time Value) → List (Span Time (Nat ⊕ Value))
  | _, [] => []
  | index, item :: rest =>
    if forward : item.startedMonotonic < item.finishedMonotonic then
      match intervalValue key index item with
      | .error _ => spansFrom key (index + 1) rest
      | .ok value =>
        ⟨item.startedMonotonic, item.finishedMonotonic, value, forward⟩ ::
          spansFrom key (index + 1) rest
    else spansFrom key (index + 1) rest

omit [LinearOrder Time] in
theorem intervalValue_of_isSome
    (known : ∀ name, givenKey key = some name → (item.field name).isSome) :
    ∃ value, intervalValue key index item = .ok value := by
  rw [intervalValue]
  cases given : givenKey key with
  | none => exact ⟨.inl index, rfl⟩
  | some name =>
    obtain ⟨value, found⟩ := Option.isSome_iff_exists.mp (known name given)
    exact ⟨.inr value, by simp only [found]⟩

theorem collectEvents_of_carries (carries : Carries intervals key) :
    collectEvents key index intervals =
      .ok ((spansFrom key index intervals).flatMap Span.changes) := by
  induction intervals generalizing index with
  | nil => rfl
  | cons item rest induction =>
    have later := @induction (index + 1) fun other member =>
      carries other (List.mem_cons_of_mem _ member)
    rw [collectEvents, intervalEvents, spansFrom, later]
    by_cases forward : item.startedMonotonic < item.finishedMonotonic
    · obtain ⟨value, found⟩ := @intervalValue_of_isSome _ _ key index item
        (carries item List.mem_cons_self forward)
      rw [if_pos forward, dif_pos forward, found]
      rfl
    · rw [if_neg forward, dif_neg forward]
      rfl

theorem collectEvents_of_not_carries (missing : ¬ Carries intervals key) :
    ∃ name, givenKey key = some name ∧
      collectEvents key index intervals = .error (.keyError name) := by
  induction intervals generalizing index with
  | nil => exact absurd (fun _ member => absurd member List.not_mem_nil) missing
  | cons item rest induction =>
    rw [collectEvents, intervalEvents]
    by_cases known : item.startedMonotonic < item.finishedMonotonic →
        ∀ name, givenKey key = some name → (item.field name).isSome
    · have others : ¬ Carries rest key := by
        intro carries
        apply missing
        intro other member
        rcases List.mem_cons.mp member with same | member
        · rw [same]
          exact known
        · exact carries other member
      obtain ⟨name, given, later⟩ := @induction (index + 1) others
      refine ⟨name, given, ?_⟩
      by_cases forward : item.startedMonotonic < item.finishedMonotonic
      · obtain ⟨value, found⟩ := @intervalValue_of_isSome _ _ key index item (known forward)
        rw [if_pos forward, found, later]
      · rw [if_neg forward, later]
    · push Not at known
      obtain ⟨forward, name, given, unknown⟩ := known
      refine ⟨name, given, ?_⟩
      rw [ne_eq, Option.not_isSome_iff_eq_none] at unknown
      rw [if_pos forward, intervalValue, given]
      simp only [unknown]

/-! ## Counting what is active -/

variable [DecidableEq Value]

theorem openAt_spansFrom_cons (index : Nat) (item : MeasuredItem Time Value)
    (rest : List (MeasuredItem Time Value)) :
    openAt (spansFrom key index (item :: rest)) time =
      match intervalValue key index item with
      | .error _ => openAt (spansFrom key (index + 1) rest) time
      | .ok value =>
        if item.ActiveAt time then insert value (openAt (spansFrom key (index + 1) rest) time)
        else openAt (spansFrom key (index + 1) rest) time := by
  rw [spansFrom]
  by_cases forward : item.startedMonotonic < item.finishedMonotonic
  · rw [dif_pos forward]
    cases intervalValue key index item with
    | error failure => rfl
    | ok value => exact openAt_cons
  · have idle : ¬ item.ActiveAt time := fun active => forward (active.1.trans_lt active.2)
    rw [dif_neg forward]
    cases intervalValue key index item with
    | error failure => rfl
    | ok value =>
      simp only
      rw [if_neg idle]

theorem mem_openAt_spansFrom_index (unkeyed : givenKey key = none) {value : Nat ⊕ Value}
    (member : value ∈ openAt (spansFrom key index intervals) time) :
    ∃ position, index ≤ position ∧ value = .inl position := by
  induction intervals generalizing index with
  | nil => exact absurd member (by simp [spansFrom, openAt_nil])
  | cons item rest induction =>
    rw [openAt_spansFrom_cons, intervalValue, unkeyed] at member
    simp only at member
    split at member
    · rcases Finset.mem_insert.mp member with same | member
      · exact ⟨index, le_rfl, same⟩
      · obtain ⟨position, above, same⟩ := induction member
        exact ⟨position, by omega, same⟩
    · obtain ⟨position, above, same⟩ := induction member
      exact ⟨position, by omega, same⟩

theorem card_openAt_index (unkeyed : givenKey key = none) :
    (openAt (spansFrom key index intervals) time).card = activeCount intervals none time := by
  induction intervals generalizing index with
  | nil => rfl
  | cons item rest induction =>
    rw [openAt_spansFrom_cons, intervalValue, unkeyed]
    simp only [activeCount, List.filter_cons, decide_eq_true_eq] at induction ⊢
    split
    · rw [Finset.card_insert_of_notMem, induction, List.length_cons]
      intro member
      obtain ⟨position, above, same⟩ := mem_openAt_spansFrom_index unkeyed member
      have equal := Sum.inl.inj same
      omega
    · exact induction

theorem openAt_spansFrom_name {name : String} (given : givenKey key = some name) :
    openAt (spansFrom key index intervals) time =
      ((intervals.filter fun item => decide (item.ActiveAt time)).filterMap
        fun item => item.field name).toFinset.image Sum.inr := by
  induction intervals generalizing index with
  | nil => rfl
  | cons item rest induction =>
    rw [openAt_spansFrom_cons, List.filter_cons, induction]
    cases found : item.field name with
    | none =>
      have unknown : intervalValue key index item = .error (.keyError name) := by
        simp only [intervalValue, given, found]
      simp only [unknown]
      split
      · rw [List.filterMap_cons, found]
      · rfl
    | some value =>
      have known : intervalValue key index item = .ok (.inr value) := by
        simp only [intervalValue, given, found]
      simp only [known, decide_eq_true_eq]
      split
      · rw [List.filterMap_cons, found, List.toFinset_cons, Finset.image_insert]
      · rfl

theorem card_openAt_spansFrom :
    (openAt (spansFrom key index intervals) time).card =
      activeCount intervals (givenKey key) time := by
  cases given : givenKey key with
  | none => exact card_openAt_index given
  | some name =>
    rw [openAt_spansFrom_name given, Finset.card_image_of_injective _ Sum.inr_injective]
    rfl

omit [DecidableEq Value] in
theorem arranged_orderBy (spans : List (Span Time (Nat ⊕ Value))) :
    Arranged spans (orderBy (fun event => toLex (event.time, event.delta))
      (spans.flatMap Span.changes)) where
  perm := orderBy_perm
  ordered := by
    apply orderBy_ordered.imp
    intro first second ordered
    exact Prod.Lex.toLex_le_toLex.mp ordered

/-- The peak is the greatest number of active values, or of active intervals where no key is
given; an interval that lasts and lacks the key is an error. -/
theorem intervalPeak_isGreatest [Inhabited Time] (intervals : List (MeasuredItem Time Value))
    (key : Option String) :
    (Carries intervals key → ∃ peak, intervalPeak intervals key = .ok peak ∧
      IsGreatest (Set.range (activeCount intervals (givenKey key))) peak) ∧
    (¬ Carries intervals key → ∃ name, givenKey key = some name ∧
      intervalPeak intervals key = .error (.keyError name)) := by
  constructor
  · intro carries
    rw [intervalPeak, collectEvents_of_carries carries]
    refine ⟨_, rfl, ?_⟩
    have counted : activeCount intervals (givenKey key) =
        fun time => (openAt (spansFrom key 0 intervals) time).card :=
      funext fun time => card_openAt_spansFrom.symm
    rw [counted]
    exact (arranged_orderBy _).sweep_isGreatest
  · intro missing
    obtain ⟨name, given, failed⟩ := @collectEvents_of_not_carries _ _ _ key 0 intervals missing
    exact ⟨name, given, by rw [intervalPeak, failed]⟩

/-- Two overlapping intervals of one host, which stands under the empty name. -/
def sharedHost : List (MeasuredItem Nat String) :=
  [⟨0, 2, fun name => if name = "" then some "host" else none⟩,
    ⟨1, 3, fun name => if name = "" then some "host" else none⟩]

theorem intervalPeak_sharedHost : intervalPeak sharedHost (some "") = .ok 2 := by
  have collected : collectEvents (some "") 0 sharedHost =
      .ok [⟨0, 1, .inl 0⟩, ⟨2, -1, .inl 0⟩, ⟨1, 1, .inl 1⟩, ⟨3, -1, .inl 1⟩] := rfl
  have sorted : orderBy (fun event : Change Nat (Nat ⊕ String) => toLex (event.time, event.delta))
      [⟨0, 1, .inl 0⟩, ⟨2, -1, .inl 0⟩, ⟨1, 1, .inl 1⟩, ⟨3, -1, .inl 1⟩] =
      [⟨0, 1, .inl 0⟩, ⟨1, 1, .inl 1⟩, ⟨2, -1, .inl 0⟩, ⟨3, -1, .inl 1⟩] := by
    apply orderBy_eq_of_perm
    · exact (List.Perm.swap _ _ _).cons _
    · simp [Prod.Lex.toLex_lt_toLex]
  rw [intervalPeak, collected]
  simp only [sorted]
  rfl

theorem activeCount_sharedHost (time : Nat) : activeCount sharedHost (some "") time ≤ 1 := by
  rw [activeCount]
  apply Finset.card_le_one.mpr
  intro first firstMember second secondMember
  have host : ∀ name ∈ ((sharedHost.filter fun item => decide (item.ActiveAt time)).filterMap
      fun item => item.field ""), name = "host" := by
    intro name member
    obtain ⟨item, active, found⟩ := List.mem_filterMap.mp member
    have shared := List.mem_of_mem_filter active
    rw [sharedHost, List.mem_cons, List.mem_singleton] at shared
    rcases shared with same | same
    · subst same
      exact (Option.some.inj found).symm
    · subst same
      exact (Option.some.inj found).symm
  rw [host first (List.mem_toFinset.mp firstMember), host second (List.mem_toFinset.mp secondMember)]

/-- An empty name is no key: the intervals are counted, not the hosts. -/
theorem intervalPeak_empty_name :
    ¬ ∀ (intervals : List (MeasuredItem Nat String)) (key : Option String),
      ∃ peak, intervalPeak intervals key = .ok peak ∧
        IsGreatest (Set.range (activeCount intervals key)) peak := by
  intro claimed
  obtain ⟨peak, answered, greatest⟩ := claimed sharedHost (some "")
  rw [intervalPeak_sharedHost, Except.ok.injEq] at answered
  obtain ⟨time, same⟩ := greatest.1
  have hosts := activeCount_sharedHost time
  omega

end JobAgg.RemediationWorker
