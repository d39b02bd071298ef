import JobAgg.SemanticHistory.Copy

/-! # Spans joined

What copies make of the rows under one span key. The result is determined by the set of
rows, so that neither their order nor their repetition counts.
-/

namespace JobAgg.SemanticHistory

/-- A text column in which the empty text counts as null. -/
def shown (column : Option String) : Option String := if filled column then column else none

theorem shown_some {text : String} (some_ : text ≠ "") : shown (some text) = some text := by
  simp [shown, filled, some_]

theorem shown_empty : shown (some "") = none := rfl

theorem shown_none : shown none = none := rfl

theorem shown_cases (column : Option String) :
    shown column = none ∧ filled column = false ∨
      ∃ text, text ≠ "" ∧ column = some text := by
  cases column with
  | none => exact .inl ⟨rfl, rfl⟩
  | some text =>
    by_cases empty : text = ""
    · subst empty
      exact .inl ⟨rfl, rfl⟩
    · exact .inr ⟨text, empty, rfl⟩

theorem shown_shown (column : Option String) : shown (shown column) = shown column := by
  rcases shown_cases column with ⟨hidden, _⟩ | ⟨text, some_, rfl⟩
  · rw [hidden, shown_none]
  · rw [shown_some some_, shown_some some_]

theorem empty_le (text : String) : "" ≤ text := by
  rw [← not_lt, String.lt_iff_toList_lt]
  simp

theorem chooseText_max (left right : Option String) :
    chooseText max left right = Option.merge max (shown left) (shown right) := by
  rcases shown_cases left with ⟨leftHidden, leftEmpty⟩ | ⟨text, some_, rfl⟩
  · rcases shown_cases right with ⟨rightHidden, rightEmpty⟩ | ⟨other, someOther, rfl⟩
    · simp [chooseText, leftHidden, leftEmpty, rightHidden, rightEmpty]
    · have below := empty_le other
      cases left with
      | none => simp [chooseText, filled, shown_some, someOther, shown_none]
      | some text =>
        have empty : text = "" := by simpa [filled] using leftEmpty
        simp [chooseText, filled, empty, shown_some, someOther, shown_empty, below]
  · rcases shown_cases right with ⟨rightHidden, rightEmpty⟩ | ⟨other, someOther, rfl⟩
    · cases right with
      | none => simp [chooseText, filled, shown_some, some_, shown_none]
      | some other =>
        have empty : other = "" := by simpa [filled] using rightEmpty
        have below := empty_le text
        simp [chooseText, filled, empty, shown_some, some_, shown_empty, below]
    · simp [chooseText, filled, shown_some, some_, someOther]

theorem chooseText_min {left right : Option String} (same : shown left = shown right) :
    chooseText min left right = shown left := by
  rcases shown_cases left with ⟨leftHidden, leftEmpty⟩ | ⟨text, some_, rfl⟩
  · rcases shown_cases right with ⟨rightHidden, rightEmpty⟩ | ⟨other, someOther, rfl⟩
    · simp [chooseText, leftHidden, leftEmpty, rightEmpty]
    · rw [leftHidden, shown_some someOther] at same
      cases same
  · rcases shown_cases right with ⟨rightHidden, rightEmpty⟩ | ⟨other, someOther, rfl⟩
    · rw [rightHidden, shown_some some_] at same
      cases same
    · rw [shown_some some_, shown_some someOther] at same
      cases same
      simp [chooseText, filled, some_, shown_some]

def spanAt (key : SpanKey) (table : List Span) : Option Span := table.find? (·.key == key)

/-- A row as copies leave it; the operation is not kept. -/
def Span.forget (span : Span) : Span := { span with lastOperation := none }

def joined (row : Span) : Option Span → Span
  | none => row
  | some old => if old = row then old else mergeSpan row old

variable {row : Span} {rows table result : List Span} {key : SpanKey}

theorem spanAt_append : spanAt key (table ++ rows) = (spanAt key table).or (spanAt key rows) :=
  List.find?_append

theorem spanAt_singleton : spanAt key [row] = if row.key = key then some row else none := by
  unfold spanAt
  split <;> simp_all

theorem key_of_spanAt (found : spanAt key table = some row) : row.key = key ∧ row ∈ table :=
  ⟨by simpa using List.find?_some found, List.mem_of_find?_eq_some found⟩

theorem spanAt_updateWhere (update : Span → Span) (same : ∀ span, (update span).key = span.key) :
    spanAt key (updateWhere (·.key == row.key) update table) =
      if row.key = key then (spanAt key table).map update else spanAt key table := by
  induction table with
  | nil => simp [spanAt]
  | cons first table induction =>
    unfold spanAt at induction ⊢
    rw [updateWhere_cons, List.find?_cons, List.find?_cons, induction]
    by_cases own : first.key = row.key
    · simp only [own, beq_self_eq_true, if_true, same]
      by_cases looked : row.key = key
      · simp [looked]
      · simp [looked, beq_eq_false_iff_ne.mpr looked]
    · by_cases looked : row.key = key
      · subst looked
        simp [beq_eq_false_iff_ne.mpr own]
      · simp [beq_eq_false_iff_ne.mpr own, looked]

theorem spanAt_copySpan (copied : copySpan row table = .ok result) :
    spanAt key result = if row.key = key then some (joined row (spanAt key table))
      else spanAt key table := by
  unfold copySpan at copied
  cases found : table.find? (·.key == row.key) with
  | none =>
    simp only [found, Except.ok.injEq] at copied
    subst copied
    rw [spanAt_append, spanAt_singleton]
    by_cases own : row.key = key
    · subst own
      have absent : spanAt row.key table = none := found
      simp [absent, joined]
    · simp [own]
  | some old =>
    simp only [found] at copied
    have there : spanAt row.key table = some old := found
    by_cases same : old = row
    · rw [if_pos same] at copied
      cases copied
      split
      · rename_i own
        rw [← own, there, joined, if_pos same]
      · rfl
    · simp only [if_neg same, bind_eq_ok, require_eq_ok, pure_eq_ok] at copied
      rcases copied with ⟨_, _, rfl⟩
      rw [spanAt_updateWhere (mergeSpan row) fun _ => rfl]
      split
      · rename_i own
        rw [← own, there, joined, if_neg same]
        rfl
      · rfl

theorem spanAt_copySpans (key : SpanKey) (copied : copySpans rows table = .ok result)
    (distinct : (rows.map (·.key)).Nodup) :
    spanAt key result = match spanAt key rows with
      | some row => some (joined row (spanAt key table))
      | none => spanAt key table := by
  induction rows generalizing table with
  | nil =>
    cases copied
    rfl
  | cons row rows induction =>
    simp only [copySpans, bind_eq_ok] at copied
    rcases copied with ⟨middle, first, rest⟩
    rcases List.nodup_cons.mp distinct with ⟨alone, apart⟩
    rw [induction rest apart, spanAt_copySpan first]
    have split : spanAt key (row :: rows) = (spanAt key [row]).or (spanAt key rows) := by
      rw [← spanAt_append]
      rfl
    rw [split, spanAt_singleton]
    by_cases own : row.key = key
    · have absent : spanAt key rows = none := by
        rw [spanAt, List.find?_eq_none]
        intro other member
        simp only [beq_iff_eq]
        intro same
        apply alone
        exact List.mem_map.mpr ⟨other, member, same.trans own.symm⟩
      simp [own, absent]
    · simp [own]

/-- A row that lies over others of one key and version. -/
structure Covers (seen : List Span) (span : Span) : Prop where
  alike : ∀ row ∈ seen, row.key = span.key ∧ row.versionId = span.versionId ∧
    shown row.firstAt = shown span.firstAt
  latest : ∀ row ∈ seen, ∀ text, shown row.lastAt = some text →
    ∃ last, shown span.lastAt = some last ∧ text ≤ last
  attained : ∀ last, shown span.lastAt = some last → ∃ row ∈ seen, shown row.lastAt = some last
  most : ∀ row ∈ seen, row.observations ≤ span.observations
  counted : ∃ row ∈ seen, row.observations = span.observations

/-- What the rows of one key make together: the row itself where there is only one, and
otherwise a row with null for empty texts. -/
def Joint (seen : List Span) (span : Span) : Prop :=
  (∀ row ∈ seen, row = span) ∨
    (∃ left ∈ seen, ∃ right ∈ seen, left ≠ right) ∧ Covers seen span ∧
      shown span.firstAt = span.firstAt ∧ shown span.lastAt = span.lastAt

variable {seen : List Span} {span other : Span}

theorem Joint.covers (joint : Joint seen span) (some_ : seen ≠ []) : Covers seen span := by
  rcases joint with one | ⟨_, covers, _⟩
  · rcases List.exists_mem_of_ne_nil seen some_ with ⟨row, member⟩
    cases one row member
    refine ⟨fun row member => ?_, fun row member text shownText => ?_,
      fun last shownLast => ⟨_, member, shownLast⟩, fun row member => ?_, ⟨_, member, rfl⟩⟩
    · rw [one row member]
      exact ⟨rfl, rfl, rfl⟩
    · rw [one row member] at shownText
      exact ⟨text, shownText, le_refl text⟩
    · rw [one row member]
  · exact covers

theorem Covers.last_le (covers : Covers seen span) (covers' : Covers seen other) {last : String}
    (shownLast : shown span.lastAt = some last) :
    ∃ later, shown other.lastAt = some later ∧ last ≤ later := by
  rcases covers.attained last shownLast with ⟨row, member, shownRow⟩
  exact covers'.latest row member last shownRow

theorem Covers.last_eq (covers : Covers seen span) (covers' : Covers seen other) :
    shown span.lastAt = shown other.lastAt := by
  cases left : shown span.lastAt with
  | none =>
    cases right : shown other.lastAt with
    | none => rfl
    | some last =>
      rcases covers'.last_le covers right with ⟨later, shownLater, _⟩
      rw [left] at shownLater
      cases shownLater
  | some last =>
    rcases covers.last_le covers' left with ⟨later, shownLater, below⟩
    rcases covers'.last_le covers shownLater with ⟨again, shownAgain, above⟩
    rw [left] at shownAgain
    cases shownAgain
    rw [shownLater, le_antisymm below above]

theorem Covers.observations_eq (covers : Covers seen span) (covers' : Covers seen other) :
    span.observations = other.observations := by
  rcases covers.counted with ⟨row, member, counted⟩
  rcases covers'.counted with ⟨row', member', counted'⟩
  have below := covers'.most row member
  have above := covers.most row' member'
  omega

theorem Joint.unique (joint : Joint seen span) (joint' : Joint seen other) (some_ : seen ≠ []) :
    span.forget = other.forget := by
  rcases List.exists_mem_of_ne_nil seen some_ with ⟨row, member⟩
  rcases joint with one | ⟨⟨left, inLeft, right, inRight, differ⟩, covers, first, last⟩
  · rcases joint' with one' | ⟨⟨left, inLeft, right, inRight, differ⟩, _⟩
    · rw [← one row member, ← one' row member]
    · exact absurd ((one left inLeft).trans (one right inRight).symm) differ
  · rcases joint' with one' | ⟨_, covers', first', last'⟩
    · exact absurd ((one' left inLeft).trans (one' right inRight).symm) differ
    · rcases covers.alike row member with ⟨sameKey, sameVersion, sameFirst⟩
      rcases covers'.alike row member with ⟨sameKey', sameVersion', sameFirst'⟩
      have firstAt : span.firstAt = other.firstAt := by
        rw [← first, ← first', ← sameFirst, sameFirst']
      have lastAt : span.lastAt = other.lastAt := by
        rw [← last, ← last', covers.last_eq covers']
      have observations := covers.observations_eq covers'
      cases span
      cases other
      simp only [Span.forget] at *
      simp [firstAt, lastAt, observations, ← sameKey, ← sameVersion, sameKey', sameVersion']

theorem Joint.congr {rows : List Span} (joint : Joint seen span)
    (same : ∀ row, row ∈ rows ↔ row ∈ seen) : Joint rows span := by
  rcases joint with one | ⟨⟨left, inLeft, right, inRight, differ⟩, covers, first, last⟩
  · exact .inl fun row member => one row ((same row).mp member)
  · refine .inr ⟨⟨left, (same left).mpr inLeft, right, (same right).mpr inRight, differ⟩, ?_,
      first, last⟩
    refine ⟨fun row member => covers.alike row ((same row).mp member),
      fun row member => covers.latest row ((same row).mp member), fun text shownText => ?_,
      fun row member => covers.most row ((same row).mp member), ?_⟩
    · rcases covers.attained text shownText with ⟨row, member, shownRow⟩
      exact ⟨row, (same row).mpr member, shownRow⟩
    · rcases covers.counted with ⟨row, member, counted⟩
      exact ⟨row, (same row).mpr member, counted⟩

theorem shown_merge (left right : Option String) :
    shown (Option.merge max (shown left) (shown right)) =
      Option.merge max (shown left) (shown right) := by
  rcases shown_cases left with ⟨leftHidden, _⟩ | ⟨text, some_, rfl⟩
  · rw [leftHidden, Option.merge_none_left, shown_shown]
  · rcases shown_cases right with ⟨rightHidden, _⟩ | ⟨other, someOther, rfl⟩
    · rw [rightHidden, Option.merge_none_right, shown_shown]
    · rw [shown_some some_, shown_some someOther, Option.merge_some_some]
      apply shown_some
      rcases max_choice text other with isLeft | isRight
      · rwa [isLeft]
      · rwa [isRight]

theorem Covers.merge (covers : Covers seen span)
    (alike : row.key = span.key ∧ row.versionId = span.versionId ∧
      shown row.firstAt = shown span.firstAt) : Covers (seen ++ [row]) (mergeSpan row span) := by
  have firstAt : (mergeSpan row span).firstAt = shown span.firstAt := chooseText_min alike.2.2.symm
  have lastAt : shown (mergeSpan row span).lastAt =
      Option.merge max (shown span.lastAt) (shown row.lastAt) := by
    rw [← shown_merge, ← chooseText_max]
    rfl
  have observations : (mergeSpan row span).observations = max span.observations row.observations :=
    rfl
  refine ⟨fun other member => ?_, fun other member text shownText => ?_, fun last shownLast => ?_,
    fun other member => ?_, ?_⟩
  · rw [firstAt, shown_shown]
    rcases List.mem_append.mp member with old | new
    · exact covers.alike other old
    · rw [List.mem_singleton.mp new]
      exact alike
  · rw [lastAt]
    rcases List.mem_append.mp member with old | new
    · rcases covers.latest other old text shownText with ⟨last, shownLast, below⟩
      cases shownRow : shown row.lastAt with
      | none => exact ⟨last, by rw [shownLast, Option.merge_none_right], below⟩
      | some rowLast =>
        exact ⟨max last rowLast, by rw [shownLast, Option.merge_some_some],
          le_max_of_le_left below⟩
    · rw [List.mem_singleton.mp new] at shownText
      cases shownOld : shown span.lastAt with
      | none => exact ⟨text, by rw [shownText, Option.merge_none_left], le_refl text⟩
      | some last =>
        exact ⟨max last text, by rw [shownText, Option.merge_some_some], le_max_right _ _⟩
  · rw [lastAt] at shownLast
    have fromOld : shown span.lastAt = some last → ∃ row' ∈ seen ++ [row],
        shown row'.lastAt = some last := by
      intro shownOld
      rcases covers.attained last shownOld with ⟨old, member, shownRow⟩
      exact ⟨old, List.mem_append_left _ member, shownRow⟩
    have fromNew : shown row.lastAt = some last → ∃ row' ∈ seen ++ [row],
        shown row'.lastAt = some last := fun shownRow => ⟨row, by simp, shownRow⟩
    cases shownOld : shown span.lastAt with
    | none =>
      rw [shownOld, Option.merge_none_left] at shownLast
      exact fromNew shownLast
    | some old =>
      cases shownRow : shown row.lastAt with
      | none =>
        rw [shownRow, Option.merge_none_right] at shownLast
        exact fromOld shownLast
      | some rowLast =>
        rw [shownOld, shownRow, Option.merge_some_some, Option.some.injEq] at shownLast
        rcases max_choice old rowLast with isOld | isRow
        · exact fromOld (by rw [shownOld, ← shownLast, isOld])
        · exact fromNew (by rw [shownRow, ← shownLast, isRow])
  · rw [observations]
    rcases List.mem_append.mp member with old | new
    · exact le_max_of_le_left (covers.most other old)
    · rw [List.mem_singleton.mp new]
      exact le_max_right _ _
  · rw [observations]
    rcases max_choice span.observations row.observations with isOld | isRow
    · rcases covers.counted with ⟨old, member, counted⟩
      exact ⟨old, List.mem_append_left _ member, by rw [isOld, counted]⟩
    · exact ⟨row, by simp, isRow.symm⟩

theorem Covers.again (covers : Covers seen span) : Covers (seen ++ [span]) span := by
  have every : ∀ row ∈ seen ++ [span], row ∈ seen ∨ row = span := by simp
  refine ⟨fun row member => ?_, fun row member text shownText => ?_, fun last shownLast => ?_,
    fun row member => ?_, ⟨span, by simp, rfl⟩⟩
  · rcases every row member with old | rfl
    · exact covers.alike row old
    · exact ⟨rfl, rfl, rfl⟩
  · rcases every row member with old | rfl
    · exact covers.latest row old text shownText
    · exact ⟨text, shownText, le_refl text⟩
  · exact ⟨span, by simp, shownLast⟩
  · rcases every row member with old | rfl
    · exact covers.most row old
    · exact le_refl _

theorem Joint.join (joint : Joint seen span) (some_ : seen ≠ [])
    (alike : row.key = span.key ∧ row.versionId = span.versionId ∧
      shown row.firstAt = shown span.firstAt) :
    Joint (seen ++ [row]) (joined row (some span)) := by
  rw [joined]
  by_cases same : span = row
  · rw [if_pos same]
    subst same
    rcases joint with one | ⟨⟨left, inLeft, right, inRight, differ⟩, covers, first, last⟩
    · refine .inl fun other member => ?_
      rcases List.mem_append.mp member with old | new
      · exact one other old
      · exact List.mem_singleton.mp new
    · exact .inr ⟨⟨left, List.mem_append_left _ inLeft, right, List.mem_append_left _ inRight,
        differ⟩, covers.again, first, last⟩
  · rw [if_neg same]
    have covers := joint.covers some_
    refine .inr ⟨?_, covers.merge alike, ?_, ?_⟩
    · rcases joint with one | ⟨⟨left, inLeft, right, inRight, differ⟩, _⟩
      · rcases List.exists_mem_of_ne_nil seen some_ with ⟨old, member⟩
        refine ⟨old, List.mem_append_left _ member, row, by simp, ?_⟩
        rw [one old member]
        exact same
      · exact ⟨left, List.mem_append_left _ inLeft, right, List.mem_append_left _ inRight, differ⟩
    · have firstAt : (mergeSpan row span).firstAt = shown span.firstAt :=
        chooseText_min alike.2.2.symm
      rw [firstAt, shown_shown]
    · have lastAt : (mergeSpan row span).lastAt =
          Option.merge max (shown span.lastAt) (shown row.lastAt) := chooseText_max _ _
      rw [lastAt, shown_merge]

def Made (seen : List Span) (made : Option Span) : Prop :=
  made = none ∧ seen = [] ∨ ∃ span, made = some span ∧ seen ≠ [] ∧ Joint seen span

/-- Rows of one key, one version and one first time. -/
def Alike (seen : List Span) : Prop := ∀ left ∈ seen, ∀ right ∈ seen,
  left.key = right.key ∧ left.versionId = right.versionId ∧
    shown left.firstAt = shown right.firstAt

theorem Made.join {made : Option Span} (soFar : Made seen made) (alike : Alike (seen ++ [row])) :
    Made (seen ++ [row]) (some (joined row made)) := by
  refine .inr ⟨_, rfl, by simp, ?_⟩
  rcases soFar with ⟨rfl, rfl⟩ | ⟨span, rfl, some_, joint⟩
  · left
    simp [joined]
  · apply joint.join some_
    rcases List.exists_mem_of_ne_nil seen some_ with ⟨old, member⟩
    rcases alike row (by simp) old (List.mem_append_left _ member) with
      ⟨sameKey, sameVersion, sameFirst⟩
    rcases (joint.covers some_).alike old member with ⟨oldKey, oldVersion, oldFirst⟩
    exact ⟨sameKey.trans oldKey, sameVersion.trans oldVersion, sameFirst.trans oldFirst⟩

variable {codec : Codec} {source target later : Store} {sources : List Store}

/-- Copies of several stores into one, one after the other. -/
def copyEach (codec : Codec) : List Store → Store → Except String Store
  | [], target => .ok target
  | source :: sources, target => do
    let target ← copySemanticHistory codec source target
    copyEach codec sources target

def rowsAt (key : SpanKey) (sources : List Store) : List Span :=
  sources.filterMap fun source => spanAt key source.spans

theorem Made.copyEach {seen : List Span} (soFar : Made seen (spanAt key target.spans))
    (copied : copyEach codec sources target = .ok later)
    (distinct : ∀ source ∈ sources, (source.spans.map (·.key)).Nodup)
    (alike : Alike (seen ++ rowsAt key sources)) :
    Made (seen ++ rowsAt key sources) (spanAt key later.spans) := by
  induction sources generalizing target seen with
  | nil =>
    cases copied
    rw [rowsAt, List.filterMap_nil, List.append_nil]
    exact soFar
  | cons source sources induction =>
    simp only [SemanticHistory.copyEach, bind_eq_ok] at copied
    rcases copied with ⟨middle, first, rest⟩
    rcases copySemanticHistory_ok first with ⟨_, _, _, _, _, _, spansCopied, _⟩
    have step := spanAt_copySpans key spansCopied (distinct source List.mem_cons_self)
    have others := fun other member => distinct other (List.mem_cons_of_mem source member)
    cases found : spanAt key source.spans with
    | none =>
      have skipped : rowsAt key (source :: sources) = rowsAt key sources := by
        simp [rowsAt, found]
      rw [found] at step
      rw [skipped] at alike ⊢
      exact induction (by rw [step]; exact soFar) rest others alike
    | some row =>
      have taken : seen ++ rowsAt key (source :: sources) =
          (seen ++ [row]) ++ rowsAt key sources := by
        simp [rowsAt, found]
      rw [found] at step
      rw [taken] at alike ⊢
      refine induction ?_ rest others alike
      rw [step]
      apply soFar.join
      intro left leftMember right rightMember
      exact alike left (List.mem_append_left _ leftMember) right
        (List.mem_append_left _ rightMember)

theorem copyEach_spans {others : List Store} {later' : Store} 
    (copied : copyEach codec sources target = .ok later)
    (copied' : copyEach codec others target = .ok later')
    (same : ∀ source, source ∈ others ↔ source ∈ sources)
    (distinct : ∀ source ∈ sources, (source.spans.map (·.key)).Nodup)
    (alike : Alike ((spanAt key target.spans).toList ++ rowsAt key sources)) :
    (spanAt key later.spans).map Span.forget = (spanAt key later'.spans).map Span.forget := by
  have start : Made (spanAt key target.spans).toList (spanAt key target.spans) := by
    cases spanAt key target.spans with
    | none => exact .inl ⟨rfl, rfl⟩
    | some span => exact .inr ⟨span, rfl, by simp, .inl (by simp)⟩
  have sameRows : ∀ row, row ∈ (spanAt key target.spans).toList ++ rowsAt key others ↔
      row ∈ (spanAt key target.spans).toList ++ rowsAt key sources := by
    intro row
    simp [rowsAt, same]
  have made := start.copyEach copied distinct alike
  have made' := start.copyEach copied' (fun source member => distinct source ((same source).mp member))
    (fun left leftMember right rightMember => alike left ((sameRows left).mp leftMember) right
      ((sameRows right).mp rightMember))
  rcases made with ⟨none_, empty⟩ | ⟨span, some_, nonempty, joint⟩
  · rcases made' with ⟨none_', _⟩ | ⟨span', some_', nonempty', joint'⟩
    · rw [none_, none_']
    · rcases List.exists_mem_of_ne_nil _ nonempty' with ⟨row, member⟩
      rw [sameRows, empty] at member
      simp at member
  · have nonempty' := joint.congr sameRows
    rcases made' with ⟨none_', empty⟩ | ⟨span', some_', _, joint'⟩
    · rcases List.exists_mem_of_ne_nil _ nonempty with ⟨row, member⟩
      rw [← sameRows, empty] at member
      simp at member
    · rw [some_, some_', Option.map_some, Option.map_some,
        joint.unique (joint'.congr fun row => (sameRows row).symm) nonempty]

end JobAgg.SemanticHistory
