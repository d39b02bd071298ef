import JobAgg.SemanticHistory.Writing

/-! # Spans of one entity

An observation is checked against the last span of its entity alone. What that span says
is a mark; an observation that the mark settles changes nothing, and every other one
leaves its own mark and adds to the spans.
-/

namespace JobAgg.SemanticHistory

/-- What the last span of an entity says. -/
structure Mark where
  versionId : String
  lastAt : Option String
  lastOperation : Option String
  deriving DecidableEq

structure Observation where
  versionId : String
  observed : Json
  operationKey : Option String

def Observation.keyed (observation : Observation) : Bool := given observation.operationKey

def Observation.text (observation : Observation) : Option String :=
  match bindText observation.observed with
  | .ok text => text
  | .error _ => none

def Mark.settles (mark : Option Mark) (observation : Observation) : Bool :=
  mark.any fun mark => mark.versionId == observation.versionId &&
    settled mark.lastAt mark.lastOperation observation.observed observation.operationKey

def Mark.after (mark : Option Mark) (observation : Observation) : Option Mark :=
  if Mark.settles mark observation then mark
  else some ⟨observation.versionId, observation.text, observation.operationKey⟩

def Span.mark (span : Span) : Mark := ⟨span.versionId, span.lastAt, span.lastOperation⟩

/-- The last mark of an entity in the database's own stream. -/
def Store.mark (store : Store) (subjectId entityKey : String) : Option Mark :=
  (lastSpan store subjectId entityKey).map Span.mark

/-- Spans and observations; no write lowers it. -/
def Store.weight (store : Store) : ℕ :=
  store.spans.length + (store.spans.map Span.observations).sum

variable {codec : Codec} {store later : Store}

def Store.withSpan (store : Store) (span : Span) : Store :=
  { store with spans := store.spans ++ [span] }

def Store.withUpdate (store : Store) (key : SpanKey) (update : Span → Span) : Store :=
  { store with spans := updateWhere (fun span => span.key == key) update store.spans }

def entitySpans (store : Store) (subjectId entityKey : String) : List Span :=
  store.spans.filter fun span => span.key.streamId == store.stream &&
    span.key.subjectId == subjectId && span.key.entityKey == entityKey

theorem lastSpan_eq {subjectId entityKey : String} : lastSpan store subjectId entityKey =
    (orderByDesc (fun span => span.key.episode) (entitySpans store subjectId entityKey)).head? :=
  rfl

theorem entity_of_lastSpan {subjectId entityKey : String} {span : Span}
    (found : lastSpan store subjectId entityKey = some span) :
    span ∈ store.spans ∧ span.key.streamId = store.stream ∧ span.key.subjectId = subjectId ∧
      span.key.entityKey = entityKey := by
  rw [lastSpan_eq] at found
  have member := mem_of_head?_orderByDesc found
  simp only [entitySpans, List.mem_filter, Bool.and_eq_true, beq_iff_eq] at member
  exact ⟨member.1, member.2.1.1, member.2.1.2, member.2.2⟩

section Insert

variable {span : Span}

theorem lastSpan_insert (own : span.key.streamId = store.stream)
    (above : ∀ other, lastSpan store span.key.subjectId span.key.entityKey = some other →
      other.key.episode < span.key.episode) :
    lastSpan (store.withSpan span) span.key.subjectId span.key.entityKey = some span := by
  have spans : entitySpans (store.withSpan span) span.key.subjectId span.key.entityKey =
      entitySpans store span.key.subjectId span.key.entityKey ++ [span] := by
    simp [entitySpans, Store.withSpan, List.filter_append, own]
  rw [lastSpan_eq, spans]
  apply head?_orderByDesc_append
  intro other member
  cases found : lastSpan store span.key.subjectId span.key.entityKey with
  | none =>
    rw [head?_orderByDesc_eq_none (lastSpan_eq.symm.trans found)] at member
    cases member
  | some first =>
    exact lt_of_le_of_lt (le_of_head?_orderByDesc other (lastSpan_eq.symm.trans found) member)
      (above first found)

theorem lastSpan_insert_other {subjectId entityKey : String}
    (other : ¬ (span.key.subjectId = subjectId ∧ span.key.entityKey = entityKey)) :
    lastSpan (store.withSpan span) subjectId entityKey = lastSpan store subjectId entityKey := by
  have spans : entitySpans (store.withSpan span) subjectId entityKey =
      entitySpans store subjectId entityKey := by
    simp only [entitySpans, Store.withSpan, List.filter_append]
    have dropped : (span.key.streamId == store.stream && span.key.subjectId == subjectId &&
        span.key.entityKey == entityKey) = false := by
      by_contra kept
      simp only [Bool.not_eq_false, Bool.and_eq_true, beq_iff_eq] at kept
      exact other ⟨kept.1.2, kept.2⟩
    simp [dropped]
  rw [lastSpan_eq, lastSpan_eq, spans]

end Insert

section Update

variable {key : SpanKey} {update : Span → Span}

theorem entitySpans_update (same : ∀ span, (update span).key = span.key)
    {subjectId entityKey : String} :
    entitySpans (store.withUpdate key update) subjectId entityKey =
      updateWhere (fun span => span.key == key) update
        (entitySpans store subjectId entityKey) := by
  apply filter_updateWhere
  intro span _ _
  simp only [same]

theorem lastSpan_update (same : ∀ span, (update span).key = span.key)
    {subjectId entityKey : String} :
    lastSpan (store.withUpdate key update) subjectId entityKey =
      (lastSpan store subjectId entityKey).map fun span =>
        if span.key == key then update span else span := by
  rw [lastSpan_eq, lastSpan_eq, entitySpans_update same,
    orderByDesc_updateWhere fun span => by rw [same]]
  unfold updateWhere
  rw [List.head?_map]

end Update

theorem weight_insert {span : Span} (once : span.observations = 1) :
    (store.withSpan span).weight = store.weight + 2 := by
  simp only [Store.weight, Store.withSpan, List.length_append, List.map_append, List.sum_append, List.length_cons,
    List.length_nil, List.map_cons, List.map_nil, List.sum_cons, List.sum_nil, once]
  omega

theorem weight_update {key : SpanKey} {update : Span → Span} {span : Span}
    (more : ∀ other, (update other).observations = other.observations + 1)
    (member : span ∈ store.spans) (selected : span.key = key) :
    store.weight < (store.withUpdate key update).weight := by
  have grows : ∀ spans : List Span, span ∈ spans → (spans.map Span.observations).sum <
      ((updateWhere (fun other => other.key == key) update spans).map Span.observations).sum := by
    intro spans
    have atLeast : ∀ spans : List Span, (spans.map Span.observations).sum ≤
        ((updateWhere (fun other => other.key == key) update spans).map Span.observations).sum := by
      intro spans
      induction spans with
      | nil => exact le_refl _
      | cons first rest induction =>
        simp only [updateWhere_cons, List.map_cons, List.sum_cons]
        split
        · rw [more]
          omega
        · omega
    induction spans with
    | nil => simp
    | cons first rest induction =>
      intro present
      have restGrows := atLeast rest
      simp only [updateWhere_cons, List.map_cons, List.sum_cons]
      rcases List.mem_cons.mp present with rfl | present
      · simp only [selected, beq_self_eq_true, if_true, more]
        omega
      · have restMore := induction present
        split
        · rw [more]
          omega
        · omega
  have total := grows store.spans member
  simp only [Store.weight, Store.withUpdate, length_updateWhere]
  omega

theorem observe_settled {subjectId entityKey : String} {observation : Observation}
    (settles : Mark.settles (store.mark subjectId entityKey) observation = true) :
    observe codec subjectId entityKey observation.versionId observation.observed
      observation.operationKey store = .ok store := by
  cases found : lastSpan store subjectId entityKey with
  | none => simp [Store.mark, found, Mark.settles] at settles
  | some span =>
    simp only [Store.mark, found, Option.map_some, Mark.settles, Option.any_some, Span.mark,
      Bool.and_eq_true, beq_iff_eq] at settles
    simp only [observe, found, settles.1, settles.2, if_true]
    rfl

def Span.seen (text operationKey : Option String) (span : Span) : Span :=
  { span with lastAt := text, observations := span.observations + 1, lastOperation := operationKey }

theorem observe_unsettled {subjectId entityKey : String} {observation : Observation}
    (unsettled : Mark.settles (store.mark subjectId entityKey) observation = false)
    (written : observe codec subjectId entityKey observation.versionId observation.observed
      observation.operationKey store = .ok later) :
    later.mark subjectId entityKey =
      some ⟨observation.versionId, observation.text, observation.operationKey⟩ ∧
    (∀ subject entity, ¬ (subjectId = subject ∧ entityKey = entity) →
      later.mark subject entity = store.mark subject entity) ∧
    store.weight < later.weight := by
  have insert : ∀ (episode : ℕ) (text : Option String),
      bindText observation.observed = .ok text →
      (∀ other, lastSpan store subjectId entityKey = some other → other.key.episode < episode) →
      later = store.withSpan ⟨⟨store.stream, subjectId, entityKey, episode⟩,
        observation.versionId, text, text, 1, observation.operationKey⟩ →
      later.mark subjectId entityKey =
        some ⟨observation.versionId, observation.text, observation.operationKey⟩ ∧
      (∀ subject entity, ¬ (subjectId = subject ∧ entityKey = entity) →
        later.mark subject entity = store.mark subject entity) ∧
      store.weight < later.weight := by
    rintro episode text bound above rfl
    have isText : observation.text = text := by simp [Observation.text, bound]
    refine ⟨?_, ?_, ?_⟩
    · rw [Store.mark, lastSpan_insert rfl above, isText]
      rfl
    · intro subject entity other
      rw [Store.mark, lastSpan_insert_other other, Store.mark]
    · rw [weight_insert rfl]
      omega
  cases found : lastSpan store subjectId entityKey with
  | none =>
    simp only [observe, found, bind_eq_ok, pure_eq_ok] at written
    rcases written with ⟨_, _, text, bound, written⟩
    exact insert 1 text bound (by simp [found]) written.symm
  | some span =>
    rcases entity_of_lastSpan found with ⟨member, _, sameSubject, sameEntity⟩
    by_cases sameVersion : span.versionId = observation.versionId
    · have notSettled : settled span.lastAt span.lastOperation observation.observed
          observation.operationKey = false := by
        simpa [Store.mark, found, Mark.settles, Span.mark, sameVersion] using unsettled
      simp only [observe, found, if_pos sameVersion, notSettled, Bool.false_eq_true, if_false,
        bind_eq_ok, pure_eq_ok] at written
      rcases written with ⟨_, _, text, bound, written⟩
      have isText : observation.text = text := by simp [Observation.text, bound]
      have updated : later = store.withUpdate span.key (Span.seen text observation.operationKey) :=
        written.symm
      have lastSpans := fun subject entity => @lastSpan_update store span.key
        (Span.seen text observation.operationKey) (fun _ => rfl) subject entity
      rw [updated]
      refine ⟨?_, ?_, ?_⟩
      · rw [Store.mark, lastSpans, found]
        simp [Span.mark, Span.seen, sameVersion, isText]
      · intro subject entity other
        rw [Store.mark, lastSpans, Store.mark]
        cases last : lastSpan store subject entity with
        | none => rfl
        | some elsewhere =>
          rcases entity_of_lastSpan last with ⟨_, _, otherSubject, otherEntity⟩
          have apart : elsewhere.key ≠ span.key := by
            intro equal
            apply other
            rw [← sameSubject, ← sameEntity, ← equal]
            exact ⟨otherSubject, otherEntity⟩
          simp [apart]
      · exact weight_update (fun _ => rfl) member rfl
    · simp only [observe, found, if_neg sameVersion, bind_eq_ok, pure_eq_ok] at written
      rcases written with ⟨_, _, text, bound, written⟩
      apply insert (span.key.episode + 1) text bound _ written.symm
      intro other same
      rw [found] at same
      cases same
      omega

/-! The marks of a list of observations, and when its last one settles them all. -/

def leaves (start : Option Mark) (observations : List Observation) : Option Mark :=
  observations.foldl Mark.after start

def carries (mark : Option Mark) (versionId : String) (operationKey : Option String) : Bool :=
  mark.any fun mark => mark.versionId == versionId && mark.lastOperation == operationKey

/-- Some row of keyed observations begins with one of this time. `free` says that the mark
before does not carry the key already. -/
def Joins (time : Option String) : Bool → List Observation → Prop
  | _, [] => False
  | free, observation :: rest =>
    (free = true ∧ observation.keyed = true ∧ observation.text = time) ∨
      Joins time (!observation.keyed) rest

/-- The observations of one entity that a second pass finds settled. -/
structure Steady (start : Option Mark) (observations : List Observation) : Prop where
  oneVersion : ∀ left ∈ observations, ∀ right ∈ observations, left.versionId = right.versionId
  oneKey : ∀ left ∈ observations, ∀ right ∈ observations, left.keyed = true →
    right.keyed = true → left.operationKey = right.operationKey
  oneTime : ∀ left ∈ observations, ∀ right ∈ observations, left.keyed = false →
    right.keyed = false → left.observed = right.observed
  textTime : ∀ observation ∈ observations, observation.keyed = false →
    Textual observation.observed
  joined : ∀ keyed ∈ observations, ∀ timed ∈ observations, keyed.keyed = true →
    timed.keyed = false → start = some ⟨keyed.versionId, timed.text, keyed.operationKey⟩ ∨
      Joins timed.text (!carries start keyed.versionId keyed.operationKey) observations

section Steady

variable {start : Option Mark} {observation : Observation} {observations : List Observation}

theorem settles_of_keyed (keyed : observation.keyed = true) :
    Mark.settles start observation = carries start observation.versionId observation.operationKey := by
  unfold Observation.keyed at keyed
  cases start with
  | none => rfl
  | some mark => simp [Mark.settles, carries, settled, keyed]

theorem settles_of_unkeyed (unkeyed : observation.keyed = false) :
    Mark.settles start observation = true ↔ ∃ mark, start = some mark ∧
      mark.versionId = observation.versionId ∧ columnValue mark.lastAt = observation.observed := by
  unfold Observation.keyed at unkeyed
  cases start with
  | none => simp [Mark.settles]
  | some mark => simp [Mark.settles, settled, unkeyed]

theorem text_of_observed {column : Option String}
    (same : observation.observed = columnValue column) : observation.text = column := by
  rw [Observation.text, same, bindText_columnValue]

/-- The observations of a version, of one key where keyed, of one time elsewhere. -/
def Uniform (versionId : String) (operationKey time : Option String)
    (observation : Observation) : Prop :=
  observation.versionId = versionId ∧
    (observation.keyed = true → observation.operationKey = operationKey) ∧
    (observation.keyed = false → observation.observed = columnValue time)

variable {versionId : String} {operationKey time : Option String}

theorem after_of_keyed (uniform : Uniform versionId operationKey time observation)
    (keyed : observation.keyed = true) : Mark.after start observation =
      if carries start versionId operationKey then start
      else some ⟨versionId, observation.text, operationKey⟩ := by
  rw [Mark.after, settles_of_keyed keyed, uniform.1, uniform.2.1 keyed]

theorem after_whole (uniform : Uniform versionId operationKey time observation) :
    Mark.after (some ⟨versionId, time, operationKey⟩) observation =
      some ⟨versionId, time, operationKey⟩ := by
  cases keyed : observation.keyed with
  | true => simp [after_of_keyed uniform keyed, carries]
  | false =>
    have settles : Mark.settles (some ⟨versionId, time, operationKey⟩) observation = true :=
      (settles_of_unkeyed keyed).mpr ⟨_, rfl, uniform.1.symm, (uniform.2.2 keyed).symm⟩
    rw [Mark.after, if_pos settles]

theorem after_of_unkeyed (start : Option Mark)
    (uniform : Uniform versionId operationKey time observation)
    (unkeyed : observation.keyed = false) :
    ∃ key, Mark.after start observation = some ⟨versionId, time, key⟩ ∧
      (start = some ⟨versionId, time, key⟩ ∨ given key = false) := by
  unfold Mark.after
  split
  · rename_i settles
    rcases (settles_of_unkeyed unkeyed).mp settles with ⟨mark, rfl, sameVersion, sameTime⟩
    have lastAt : mark.lastAt = time := by
      rw [← text_of_observed sameTime.symm, text_of_observed (uniform.2.2 unkeyed)]
    refine ⟨mark.lastOperation, ?_, .inl ?_⟩
    · rw [← uniform.1, ← sameVersion, ← lastAt]
    · rw [← uniform.1, ← sameVersion, ← lastAt]
  · refine ⟨observation.operationKey, ?_, .inr unkeyed⟩
    rw [uniform.1, text_of_observed (uniform.2.2 unkeyed)]

theorem leaves_eq_iff (isGiven : given operationKey = true)
    (uniform : ∀ observation ∈ observations, Uniform versionId operationKey time observation) :
    leaves start observations = some ⟨versionId, time, operationKey⟩ ↔
      start = some ⟨versionId, time, operationKey⟩ ∨
        Joins time (!carries start versionId operationKey) observations := by
  induction observations generalizing start with
  | nil => simp [leaves, Joins]
  | cons observation rest induction =>
    have first := uniform observation List.mem_cons_self
    have later := fun start => @induction start fun other member =>
      uniform other (List.mem_cons_of_mem _ member)
    rw [leaves, List.foldl_cons, ← leaves, later]
    cases keyed : observation.keyed with
    | true =>
      rw [after_of_keyed first keyed]
      cases carried : carries start versionId operationKey with
      | true => simp [Joins, keyed, carried]
      | false =>
        have notWhole : start ≠ some ⟨versionId, time, operationKey⟩ := by
          rintro rfl
          simp [carries] at carried
        simp [Joins, keyed, carries, notWhole]
    | false =>
      rcases after_of_unkeyed start first keyed with ⟨key, leftMark, origin⟩
      by_cases same : key = operationKey
      · subst same
        have whole : start = some ⟨versionId, time, key⟩ := by
          rcases origin with whole | notGiven
          · exact whole
          · rw [isGiven] at notGiven
            cases notGiven
        rw [leftMark, whole]
        simp
      · have notWhole : start ≠ some ⟨versionId, time, operationKey⟩ := by
          rintro rfl
          rw [after_whole first] at leftMark
          cases leftMark
          exact same rfl
        have different : (key == operationKey) = false := by simpa using same
        rw [leftMark]
        simp [Joins, keyed, carries, same, different, notWhole]

theorem carries_leaves (start : Option Mark)
    (keyed : ∀ observation ∈ observations, observation.keyed = true)
    (uniform : ∀ observation ∈ observations, Uniform versionId operationKey time observation)
    (carried : observations ≠ [] ∨ carries start versionId operationKey = true) :
    carries (leaves start observations) versionId operationKey = true := by
  induction observations generalizing start with
  | nil => simpa [leaves] using carried
  | cons observation rest induction =>
    rw [leaves, List.foldl_cons, ← leaves]
    apply induction _ fun other member => keyed other (List.mem_cons_of_mem _ member)
    · exact fun other member => uniform other (List.mem_cons_of_mem _ member)
    · right
      rw [after_of_keyed (uniform observation List.mem_cons_self)
        (keyed observation List.mem_cons_self)]
      split
      · assumption
      · simp [carries]

theorem timed_leaves (start : Option Mark)
    (unkeyed : ∀ observation ∈ observations, observation.keyed = false)
    (uniform : ∀ observation ∈ observations, Uniform versionId operationKey time observation)
    (timed : observations ≠ [] ∨ ∃ key, start = some ⟨versionId, time, key⟩) :
    ∃ key, leaves start observations = some ⟨versionId, time, key⟩ := by
  induction observations generalizing start with
  | nil => simpa [leaves] using timed
  | cons observation rest induction =>
    rw [leaves, List.foldl_cons, ← leaves]
    apply induction _ fun other member => unkeyed other (List.mem_cons_of_mem _ member)
    · exact fun other member => uniform other (List.mem_cons_of_mem _ member)
    · right
      rcases after_of_unkeyed start (uniform observation List.mem_cons_self)
        (unkeyed observation List.mem_cons_self) with ⟨key, leftMark, _⟩
      exact ⟨key, leftMark⟩

theorem uniform_of_settles {mark : Mark} (settles : Mark.settles (some mark) observation = true) :
    Uniform mark.versionId mark.lastOperation mark.lastAt observation := by
  cases keyed : observation.keyed with
  | true =>
    rw [settles_of_keyed keyed] at settles
    simp only [carries, Option.any_some, Bool.and_eq_true, beq_iff_eq] at settles
    exact ⟨settles.1.symm, fun _ => settles.2.symm, by simp [keyed]⟩
  | false =>
    rcases (settles_of_unkeyed keyed).mp settles with ⟨_, same, sameVersion, sameTime⟩
    cases same
    exact ⟨sameVersion.symm, by simp [keyed], fun _ => sameTime.symm⟩

theorem Uniform.settles {mark : Mark}
    (uniform : Uniform mark.versionId mark.lastOperation mark.lastAt observation) :
    Mark.settles (some mark) observation = true := by
  cases keyed : observation.keyed with
  | true => simp [settles_of_keyed keyed, carries, uniform.1, uniform.2.1 keyed]
  | false => exact (settles_of_unkeyed keyed).mpr ⟨mark, rfl, uniform.1.symm, (uniform.2.2 keyed).symm⟩

theorem textual_columnValue {column : Option String} : Textual (columnValue column) := by
  cases column with
  | none => exact .inl rfl
  | some text => exact .inr ⟨text, rfl⟩

theorem observed_of_textual (textual : Textual observation.observed) :
    observation.observed = columnValue observation.text := by
  rcases textual with null | ⟨text, string⟩
  · simp [Observation.text, null, bindText, columnValue]
  · simp [Observation.text, string, bindText, columnValue]

theorem Steady.of_settles {mark : Mark} (left : leaves start observations = some mark)
    (settles : ∀ observation ∈ observations, Mark.settles (some mark) observation = true) :
    Steady start observations := by
  have uniform := fun observation member => uniform_of_settles (settles observation member)
  constructor
  · intro left leftMember right rightMember
    rw [(uniform left leftMember).1, (uniform right rightMember).1]
  · intro left leftMember right rightMember leftKeyed rightKeyed
    rw [(uniform left leftMember).2.1 leftKeyed, (uniform right rightMember).2.1 rightKeyed]
  · intro left leftMember right rightMember leftUnkeyed rightUnkeyed
    rw [(uniform left leftMember).2.2 leftUnkeyed, (uniform right rightMember).2.2 rightUnkeyed]
  · intro observation member unkeyed
    rw [(uniform observation member).2.2 unkeyed]
    exact textual_columnValue
  · intro keyed keyedMember timed timedMember isKeyed isUnkeyed
    have keyedUniform := uniform keyed keyedMember
    have sameKey := keyedUniform.2.1 isKeyed
    rw [text_of_observed ((uniform timed timedMember).2.2 isUnkeyed), keyedUniform.1, sameKey]
    have isGiven : given mark.lastOperation = true := sameKey ▸ isKeyed
    exact (leaves_eq_iff isGiven uniform).mp left

theorem Steady.exists_mark (steady : Steady start observations) (some_ : observations ≠ []) :
    ∃ mark, leaves start observations = some mark ∧
      ∀ observation ∈ observations, Mark.settles (some mark) observation = true := by
  rcases List.exists_mem_of_ne_nil observations some_ with ⟨any, anyMember⟩
  by_cases allKeyed : ∀ observation ∈ observations, observation.keyed = true
  · have uniform : ∀ observation ∈ observations,
        Uniform any.versionId any.operationKey none observation := by
      intro observation member
      have keyed := allKeyed observation member
      exact ⟨steady.oneVersion _ member _ anyMember,
        fun _ => steady.oneKey _ member _ anyMember keyed (allKeyed any anyMember),
        by simp [keyed]⟩
    have carried := carries_leaves start allKeyed uniform (.inl some_)
    cases left : leaves start observations with
    | none => simp [left, carries] at carried
    | some mark =>
      refine ⟨mark, rfl, fun observation member => ?_⟩
      rw [settles_of_keyed (allKeyed observation member), (uniform observation member).1,
        (uniform observation member).2.1 (allKeyed observation member), ← left, carried]
  · simp only [not_forall, Bool.not_eq_true] at allKeyed
    rcases allKeyed with ⟨timed, timedMember, isUnkeyed⟩
    have timeIs := observed_of_textual (steady.textTime timed timedMember isUnkeyed)
    by_cases noneKeyed : ∀ observation ∈ observations, observation.keyed = false
    · have uniform : ∀ observation ∈ observations,
          Uniform timed.versionId none timed.text observation := by
        intro observation member
        have unkeyed := noneKeyed observation member
        refine ⟨steady.oneVersion _ member _ timedMember, by simp [unkeyed], fun _ => ?_⟩
        rw [steady.oneTime _ member _ timedMember unkeyed isUnkeyed, timeIs]
      rcases timed_leaves start noneKeyed uniform (.inl some_) with ⟨key, left⟩
      refine ⟨_, left, fun observation member => Uniform.settles ?_⟩
      have unkeyed := noneKeyed observation member
      exact ⟨(uniform observation member).1, by simp [unkeyed], (uniform observation member).2.2⟩
    · simp only [not_forall, Bool.not_eq_false] at noneKeyed
      rcases noneKeyed with ⟨keyed, keyedMember, isKeyed⟩
      have uniform : ∀ observation ∈ observations,
          Uniform keyed.versionId keyed.operationKey timed.text observation := by
        intro observation member
        refine ⟨steady.oneVersion _ member _ keyedMember,
          fun also => steady.oneKey _ member _ keyedMember also isKeyed, fun unkeyed => ?_⟩
        rw [steady.oneTime _ member _ timedMember unkeyed isUnkeyed, timeIs]
      have left := (leaves_eq_iff isKeyed uniform).mpr
        (steady.joined keyed keyedMember timed timedMember isKeyed isUnkeyed)
      exact ⟨_, left, fun observation member => Uniform.settles (uniform observation member)⟩

theorem steady_iff : Steady start observations ↔
    ∀ observation ∈ observations, Mark.settles (leaves start observations) observation = true := by
  constructor
  · intro steady observation member
    rcases steady.exists_mark (List.ne_nil_of_mem member) with ⟨mark, left, settles⟩
    rw [left]
    exact settles observation member
  · intro settles
    cases left : leaves start observations with
    | some mark => exact Steady.of_settles left (left ▸ settles)
    | none =>
      have empty : ∀ observation, observation ∉ observations := by
        intro observation member
        have settled := settles observation member
        simp [left, Mark.settles] at settled
      constructor <;> exact fun observation member => absurd member (empty observation)

end Steady

end JobAgg.SemanticHistory
