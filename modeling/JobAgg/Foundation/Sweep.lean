import Mathlib.Algebra.Order.Ring.Int
import JobAgg.Foundation.Dict

/-! # Sweeping over spans of time

A span opens at one time and closes at a later one. A sweep walks over the openings and
closings in order, keeps a counter for each label, and remembers how many labels were
counted at most. That is the greatest number of labels which any time is covered by.
-/

namespace JobAgg.Sweep

variable {Time Label : Type}

structure Change (Time Label : Type) where
  time : Time
  delta : Int
  label : Label
  deriving DecidableEq

/-- A label is open from `start` on, and no longer at `finish`. -/
structure Span (Time Label : Type) [LT Time] where
  start : Time
  finish : Time
  label : Label
  forward : start < finish

section Counters

variable [DecidableEq Label] {active : Dict Label Int} {changes done : List (Change Time Label)}
  {change : Change Time Label} {label : Label}

/-- A counter that comes to nothing is dropped. -/
def applyChange (active : Dict Label Int) (change : Change Time Label) : Dict Label Int :=
  let count := (active.lookup change.label).getD 0 + change.delta
  let counted := active.insert change.label count
  if count = 0 then counted.erase change.label else counted

/-- The most labels counted at once, from what was counted before. -/
def sweep (active : Dict Label Int) (peak : Nat) : List (Change Time Label) → Nat
  | [] => peak
  | change :: rest =>
    sweep (applyChange active change) (max peak (Dict.size (applyChange active change))) rest

def net (changes : List (Change Time Label)) (label : Label) : Int :=
  ((changes.filter fun change => decide (change.label = label)).map Change.delta).sum

theorem net_nil : net ([] : List (Change Time Label)) label = 0 := rfl

theorem net_append_singleton :
    net (done ++ [change]) label =
      net done label + if change.label = label then change.delta else 0 := by
  rw [net, List.filter_append, List.map_append, List.sum_append, net]
  congr 1
  by_cases same : change.label = label
  · simp [same]
  · simp [same]

def Tracks (active : Dict Label Int) (done : List (Change Time Label)) : Prop :=
  ∀ label, active.lookup label = if net done label = 0 then none else some (net done label)

theorem Tracks.getD (tracks : Tracks active done) (label : Label) :
    (active.lookup label).getD 0 = net done label := by
  rw [tracks label]
  split
  case isTrue zero => exact zero.symm
  case isFalse => rfl

theorem Tracks.applyChange (tracks : Tracks active done) (change : Change Time Label) :
    Tracks (applyChange active change) (done ++ [change]) := by
  intro label
  rw [Sweep.applyChange, tracks.getD, net_append_singleton]
  by_cases same : change.label = label
  · subst same
    rw [if_pos rfl]
    split
    · rw [Finmap.lookup_erase]
    · rw [Finmap.lookup_insert]
  · rw [if_neg same, add_zero, ← tracks label]
    split
    · rw [Finmap.lookup_erase_ne (Ne.symm same), Finmap.lookup_insert_of_ne _ (Ne.symm same)]
    · rw [Finmap.lookup_insert_of_ne _ (Ne.symm same)]

theorem tracks_foldl (changes : List (Change Time Label)) :
    Tracks (changes.foldl applyChange ∅) changes := by
  induction changes using List.reverseRecOn with
  | nil =>
    intro label
    rw [net_nil, if_pos rfl]
    rfl
  | append_singleton front last induction =>
    rw [List.foldl_append]
    exact induction.applyChange last

theorem Tracks.mem_keys (tracks : Tracks active done) :
    label ∈ active.keys ↔ net done label ≠ 0 := by
  rw [Finmap.mem_keys, Finmap.mem_iff, tracks label]
  by_cases zero : net done label = 0
  · simp [zero]
  · simp [zero]

theorem peak_le_sweep {peak : Nat} : peak ≤ sweep active peak changes := by
  induction changes generalizing active peak with
  | nil => exact le_rfl
  | cons change rest induction => exact (le_max_left _ _).trans induction

theorem size_le_sweep {peak : Nat} (small : Dict.size active ≤ peak) (before : done <+: changes) :
    Dict.size (done.foldl applyChange active) ≤ sweep active peak changes := by
  induction changes generalizing active peak done with
  | nil =>
    rw [List.prefix_nil.mp before]
    exact small
  | cons change rest induction =>
    cases done with
    | nil => exact small.trans peak_le_sweep
    | cons first later =>
      rw [List.cons_prefix_cons] at before
      rw [before.1, List.foldl_cons]
      exact induction (le_max_right _ _) before.2

theorem sweep_attained {peak : Nat} :
    sweep active peak changes = peak ∨
      ∃ done, done <+: changes ∧
        Dict.size (done.foldl applyChange active) = sweep active peak changes := by
  induction changes generalizing active peak with
  | nil => exact .inl rfl
  | cons change rest induction =>
    rw [sweep]
    cases @induction (applyChange active change)
        (max peak (Dict.size (applyChange active change))) with
    | inl same =>
      rcases le_total peak (Dict.size (applyChange active change)) with larger | smaller
      · right
        refine ⟨[change], ?_, ?_⟩
        · exact List.cons_prefix_cons.mpr ⟨rfl, List.nil_prefix⟩
        · rw [same, max_eq_right larger]
          rfl
      · left
        rw [same, max_eq_left smaller]
    | inr later =>
      obtain ⟨done, before, same⟩ := later
      exact .inr ⟨change :: done, List.cons_prefix_cons.mpr ⟨rfl, before⟩, same⟩

end Counters

section Spans

variable [LinearOrder Time] [DecidableEq Label] {spans : List (Span Time Label)}
  {timeline done rest : List (Change Time Label)} {change : Change Time Label}
  {time : Time} {label : Label}

namespace Span

def opening (span : Span Time Label) : Change Time Label := ⟨span.start, 1, span.label⟩

def closing (span : Span Time Label) : Change Time Label := ⟨span.finish, -1, span.label⟩

def changes (span : Span Time Label) : List (Change Time Label) := [span.opening, span.closing]

def Covers (span : Span Time Label) (time : Time) : Prop :=
  span.start ≤ time ∧ time < span.finish

instance (span : Span Time Label) (time : Time) : Decidable (span.Covers time) :=
  inferInstanceAs (Decidable (_ ∧ _))

end Span

def openAt (spans : List (Span Time Label)) (time : Time) : Finset Label :=
  ((spans.filter fun span => decide (span.Covers time)).map Span.label).toFinset

theorem mem_openAt :
    label ∈ openAt spans time ↔ ∃ span ∈ spans, span.Covers time ∧ span.label = label := by
  simp only [openAt, List.mem_toFinset, List.mem_map, List.mem_filter, decide_eq_true_eq,
    and_assoc]

theorem openAt_nil : openAt ([] : List (Span Time Label)) time = ∅ := rfl

theorem openAt_cons {span : Span Time Label} :
    openAt (span :: spans) time =
      if span.Covers time then insert span.label (openAt spans time) else openAt spans time := by
  rw [openAt, List.filter_cons]
  by_cases covers : span.Covers time
  · simp [covers, openAt]
  · simp [covers, openAt]

def Before (first second : Change Time Label) : Prop :=
  first.time < second.time ∨ first.time = second.time ∧ first.delta ≤ second.delta

/-- The changes of the spans, in the order of the sweep. -/
structure Arranged (spans : List (Span Time Label)) (timeline : List (Change Time Label)) :
    Prop where
  perm : timeline.Perm (spans.flatMap Span.changes)
  ordered : timeline.Pairwise Before

def Opens (label : Label) (change : Change Time Label) : Prop :=
  change.delta = 1 ∧ change.label = label

def Closes (label : Label) (change : Change Time Label) : Prop :=
  change.delta = -1 ∧ change.label = label

instance (label : Label) (change : Change Time Label) : Decidable (Opens label change) :=
  inferInstanceAs (Decidable (_ ∧ _))

instance (label : Label) (change : Change Time Label) : Decidable (Closes label change) :=
  inferInstanceAs (Decidable (_ ∧ _))

def openings (changes : List (Change Time Label)) (label : Label) : Nat :=
  changes.countP fun change => decide (Opens label change)

def closings (changes : List (Change Time Label)) (label : Label) : Nat :=
  changes.countP fun change => decide (Closes label change)

def spansWith (spans : List (Span Time Label)) (label : Label) (holds : Span Time Label → Bool) :
    Nat :=
  spans.countP fun span => decide (span.label = label) && holds span

theorem spansWith_mono {holds others : Span Time Label → Bool}
    (weaker : ∀ span, holds span = true → others span = true) :
    spansWith spans label holds ≤ spansWith spans label others := by
  apply List.countP_mono_left
  intro span _ both
  rw [Bool.and_eq_true] at both ⊢
  exact ⟨both.1, weaker span both.2⟩

theorem spansWith_started :
    spansWith spans label (fun span => decide (span.start ≤ time)) =
      spansWith spans label (fun span => decide (span.Covers time)) +
        spansWith spans label (fun span => decide (span.finish ≤ time)) := by
  induction spans with
  | nil => rfl
  | cons span later induction =>
    simp only [spansWith, List.countP_cons] at induction ⊢
    by_cases same : span.label = label
    · by_cases finished : span.finish ≤ time
      · have started : span.start ≤ time := span.forward.le.trans finished
        have past : ¬ span.Covers time := fun covers => absurd covers.2 (not_lt.mpr finished)
        simp [same, started, finished, past]
        omega
      · by_cases started : span.start ≤ time
        · have covers : span.Covers time := ⟨started, not_le.mp finished⟩
          simp [same, started, finished, covers]
          omega
        · have later : ¬ span.Covers time := fun covers => started covers.1
          simp [same, started, finished, later]
          omega
    · simpa [same] using induction

theorem spansWith_covers_pos :
    0 < spansWith spans label (fun span => decide (span.Covers time)) ↔
      label ∈ openAt spans time := by
  rw [spansWith, List.countP_pos_iff, mem_openAt]
  simp only [Bool.and_eq_true, decide_eq_true_eq, and_comm]

omit [DecidableEq Label] in
theorem countP_flatMap_changes (holds : Change Time Label → Bool) :
    (spans.flatMap Span.changes).countP holds =
      spans.countP (fun span => holds span.opening) +
        spans.countP (fun span => holds span.closing) := by
  induction spans with
  | nil => rfl
  | cons span later induction =>
    rw [List.flatMap_cons, List.countP_append, induction, List.countP_cons, List.countP_cons,
      Span.changes, List.countP_cons, List.countP_cons, List.countP_nil]
    omega

omit [DecidableEq Label] in
theorem Arranged.delta (arranged : Arranged spans timeline) (member : change ∈ timeline) :
    change.delta = 1 ∨ change.delta = -1 := by
  rw [arranged.perm.mem_iff, List.mem_flatMap] at member
  obtain ⟨span, -, own⟩ := member
  rw [Span.changes, List.mem_cons, List.mem_singleton] at own
  cases own with
  | inl same => exact .inl (same ▸ rfl)
  | inr same => exact .inr (same ▸ rfl)

omit [LinearOrder Time] in
theorem net_eq (units : ∀ change ∈ done, change.delta = 1 ∨ change.delta = -1) :
    net done label = openings done label - closings done label := by
  induction done with
  | nil => rfl
  | cons head tail induction =>
    have later := induction fun change member => units change (List.mem_cons_of_mem _ member)
    have unit := units head List.mem_cons_self
    simp only [net, openings, closings, List.countP_cons, List.filter_cons, Opens,
      Closes] at later ⊢
    by_cases same : head.label = label
    · rcases unit with up | down
      · simp [same, up, later]
        omega
      · simp [same, down, later]
        omega
    · simpa [same] using later

theorem Arranged.openings_until (arranged : Arranged spans timeline) (label : Label)
    (early : Time → Bool) :
    (timeline.countP fun change => decide (Opens label change) && early change.time) =
      spansWith spans label fun span => early span.start := by
  rw [arranged.perm.countP_eq, countP_flatMap_changes]
  simp [Opens, Span.opening, Span.closing, spansWith]

theorem Arranged.closings_until (arranged : Arranged spans timeline) (label : Label)
    (early : Time → Bool) :
    (timeline.countP fun change => decide (Closes label change) && early change.time) =
      spansWith spans label fun span => early span.finish := by
  rw [arranged.perm.countP_eq, countP_flatMap_changes]
  simp [Closes, Span.opening, Span.closing, spansWith]

omit [LinearOrder Time] [DecidableEq Label] in
theorem countP_le_early (kind : Change Time Label → Bool) (early : Time → Bool)
    (all : ∀ change ∈ done, early change.time = true) :
    done.countP kind ≤ (done ++ rest).countP fun change => kind change && early change.time := by
  have same : done.countP kind = done.countP fun change => kind change && early change.time := by
    apply List.countP_congr
    intro change member
    rw [all change member, Bool.and_true]
  rw [same, List.countP_append]
  exact Nat.le_add_right _ _

omit [LinearOrder Time] [DecidableEq Label] in
theorem early_le_countP (kind : Change Time Label → Bool) (early : Time → Bool)
    (late : ∀ change ∈ rest, kind change = true → early change.time = false) :
    ((done ++ rest).countP fun change => kind change && early change.time) ≤ done.countP kind := by
  have none : (rest.countP fun change => kind change && early change.time) = 0 := by
    rw [List.countP_eq_zero]
    intro change member both
    rw [Bool.and_eq_true] at both
    rw [late change member both.1] at both
    exact absurd both.2 Bool.false_ne_true
  rw [List.countP_append, none, Nat.add_zero]
  apply List.countP_mono_left
  intro change _ both
  rw [Bool.and_eq_true] at both
  exact both.1

omit [DecidableEq Label] in
theorem Arranged.before_last {last : Change Time Label}
    (arranged : Arranged spans (done ++ [last] ++ rest)) :
    (∀ change ∈ done ++ [last], change.time ≤ last.time) ∧ ∀ change ∈ rest, Before last change := by
  have ordered := arranged.ordered
  rw [List.pairwise_append] at ordered
  have early := ordered.1
  rw [List.pairwise_append] at early
  constructor
  · intro change member
    rcases List.mem_append.mp member with member | member
    · rcases early.2.2 change member last (List.mem_singleton_self last) with sooner | tied
      · exact sooner.le
      · exact tied.1.le
    · rw [List.mem_singleton.mp member]
  · intro change member
    exact ordered.2.2 last (List.mem_append_right _ (List.mem_singleton_self last)) change member

theorem Arranged.closings_le_openings (arranged : Arranged spans (done ++ rest)) (label : Label) :
    closings done label ≤ openings done label := by
  cases done using List.reverseRecOn with
  | nil => exact le_rfl
  | append_singleton front last =>
    have order := arranged.before_last
    calc closings (front ++ [last]) label
        ≤ _ := countP_le_early (fun change => decide (Closes label change))
          (fun time => decide (time ≤ last.time)) (by
            intro change member
            exact decide_eq_true (order.1 change member))
      _ = _ := arranged.closings_until label fun time => decide (time ≤ last.time)
      _ ≤ spansWith spans label fun span => decide (span.start < last.time) := by
            apply spansWith_mono
            intro span finished
            exact decide_eq_true (span.forward.trans_le (of_decide_eq_true finished))
      _ = _ := (arranged.openings_until label fun time => decide (time < last.time)).symm
      _ ≤ openings (front ++ [last]) label := early_le_countP
          (fun change => decide (Opens label change)) (fun time => decide (time < last.time)) (by
            intro change member _
            rcases order.2 change member with later | tied
            · exact decide_eq_false (not_lt.mpr later.le)
            · exact decide_eq_false (not_lt.mpr tied.1.le))

theorem Arranged.net_eq_of_append (arranged : Arranged spans (done ++ rest)) (label : Label) :
    net done label = openings done label - closings done label := by
  apply net_eq
  intro change member
  exact arranged.delta (List.mem_append_left _ member)

theorem Arranged.mem_openAt_of_opening {last : Change Time Label}
    (arranged : Arranged spans (done ++ [last] ++ rest)) (opens : last.delta = 1)
    (counted : net (done ++ [last]) label ≠ 0) : label ∈ openAt spans last.time := by
  have order := arranged.before_last
  have opened : openings (done ++ [last]) label ≤
      spansWith spans label fun span => decide (span.start ≤ last.time) := by
    rw [← arranged.openings_until label fun time => decide (time ≤ last.time)]
    apply countP_le_early (fun change => decide (Opens label change))
      fun time => decide (time ≤ last.time)
    intro change member
    exact decide_eq_true (order.1 change member)
  have closed : (spansWith spans label fun span => decide (span.finish ≤ last.time)) ≤
      closings (done ++ [last]) label := by
    rw [← arranged.closings_until label fun time => decide (time ≤ last.time)]
    apply early_le_countP (fun change => decide (Closes label change))
      fun time => decide (time ≤ last.time)
    intro change member closes
    apply decide_eq_false
    rw [decide_eq_true_eq, Closes] at closes
    rcases order.2 change member with later | tied
    · exact not_le.mpr later
    · omega
  have bounded := arranged.closings_le_openings label
  rw [arranged.net_eq_of_append] at counted
  rw [← spansWith_covers_pos]
  have started := @spansWith_started _ _ _ _ spans last.time label
  omega

theorem Arranged.exists_openAt [Inhabited Time] (arranged : Arranged spans (done ++ rest)) :
    ∃ time, ∀ label, net done label ≠ 0 → label ∈ openAt spans time := by
  induction done using List.reverseRecOn generalizing rest with
  | nil => exact ⟨default, fun label counted => absurd net_nil counted⟩
  | append_singleton front last induction =>
    rcases arranged.delta (List.mem_append_left _ (List.mem_append_right _
      (List.mem_singleton_self last))) with opens | closes
    · exact ⟨last.time, fun label counted => arranged.mem_openAt_of_opening opens counted⟩
    · have earlier : Arranged spans (front ++ ([last] ++ rest)) := by
        rwa [← List.append_assoc]
      obtain ⟨time, inside⟩ := induction earlier
      refine ⟨time, fun label counted => inside label ?_⟩
      -- A closing only takes from a counter, and none goes below nothing.
      have before := earlier.closings_le_openings label
      have after := arranged.closings_le_openings label
      have step := @net_append_singleton _ _ _ front last label
      rw [arranged.net_eq_of_append] at counted step
      rw [earlier.net_eq_of_append] at step ⊢
      rw [closes] at step
      split at step <;> omega

omit [DecidableEq Label] in
theorem exists_split_at (ordered : timeline.Pairwise Before) (time : Time) :
    ∃ done rest, timeline = done ++ rest ∧ (∀ change ∈ done, change.time ≤ time) ∧
      ∀ change ∈ rest, time < change.time := by
  induction timeline with
  | nil => exact ⟨[], [], rfl, by simp, by simp⟩
  | cons head tail induction =>
    rw [List.pairwise_cons] at ordered
    by_cases early : head.time ≤ time
    · obtain ⟨done, rest, same, before, after⟩ := induction ordered.2
      refine ⟨head :: done, rest, by rw [same, List.cons_append], ?_, after⟩
      intro change member
      rcases List.mem_cons.mp member with first | member
      · rwa [first]
      · exact before change member
    · refine ⟨[], head :: tail, rfl, by simp, ?_⟩
      intro change member
      rcases List.mem_cons.mp member with first | member
      · rw [first]
        exact not_le.mp early
      · rcases ordered.1 change member with later | tied
        · exact (not_le.mp early).trans later
        · rw [← tied.1]
          exact not_le.mp early

theorem Arranged.net_until (arranged : Arranged spans (done ++ rest))
    (before : ∀ change ∈ done, change.time ≤ time) (after : ∀ change ∈ rest, time < change.time) :
    net done label ≠ 0 ↔ label ∈ openAt spans time := by
  have early : ∀ change ∈ done, decide (change.time ≤ time) = true :=
    fun change member => decide_eq_true (before change member)
  have late : ∀ change ∈ rest, decide (change.time ≤ time) = false :=
    fun change member => decide_eq_false (not_le.mpr (after change member))
  have opened : openings done label =
      spansWith spans label fun span => decide (span.start ≤ time) := by
    rw [← arranged.openings_until label fun other => decide (other ≤ time)]
    exact le_antisymm (countP_le_early _ (fun other => decide (other ≤ time)) early)
      (early_le_countP _ (fun other => decide (other ≤ time))
        fun change member _ => late change member)
  have closed : closings done label =
      spansWith spans label fun span => decide (span.finish ≤ time) := by
    rw [← arranged.closings_until label fun other => decide (other ≤ time)]
    exact le_antisymm (countP_le_early _ (fun other => decide (other ≤ time)) early)
      (early_le_countP _ (fun other => decide (other ≤ time))
        fun change member _ => late change member)
  rw [arranged.net_eq_of_append, ← spansWith_covers_pos]
  have started := @spansWith_started _ _ _ _ spans time label
  omega

theorem Arranged.sweep_isGreatest [Inhabited Time] (arranged : Arranged spans timeline) :
    IsGreatest (Set.range fun time => (openAt spans time).card) (sweep ∅ 0 timeline) := by
  have upper : ∀ time, (openAt spans time).card ≤ sweep ∅ 0 timeline := by
    intro time
    obtain ⟨done, rest, same, before, after⟩ := exists_split_at arranged.ordered time
    subst same
    have keys : openAt spans time = (done.foldl applyChange ∅).keys := by
      ext label
      rw [(tracks_foldl done).mem_keys, arranged.net_until before after]
    rw [keys]
    exact size_le_sweep Dict.size_empty.le (List.prefix_append done rest)
  have covered : ∀ done, done <+: timeline →
      ∃ time, Dict.size (done.foldl applyChange ∅) ≤ (openAt spans time).card := by
    intro done before
    obtain ⟨rest, same⟩ := before
    subst same
    obtain ⟨time, inside⟩ := arranged.exists_openAt
    refine ⟨time, Finset.card_le_card ?_⟩
    intro label counted
    rw [(tracks_foldl done).mem_keys] at counted
    exact inside label counted
  constructor
  · rcases @sweep_attained _ _ _ ∅ timeline 0 with zero | later
    · refine ⟨default, ?_⟩
      have bound := upper default
      rw [zero] at bound ⊢
      exact Nat.le_zero.mp bound
    · obtain ⟨done, before, same⟩ := later
      obtain ⟨time, bound⟩ := covered done before
      exact ⟨time, le_antisymm (upper time) (same ▸ bound)⟩
  · rintro _ ⟨time, rfl⟩
    exact upper time

end Spans

end JobAgg.Sweep
