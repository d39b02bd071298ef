import JobAgg.SemanticHistory.Publication
import JobAgg.SemanticHistory.ReadBack

/-! # Replaying a publication

The second run of the two calls adds nothing exactly when the versions that they preserve
of one entity are steady: the entity's last span, as the first run leaves it, then
settles each of them.
-/

namespace JobAgg.SemanticHistory

variable {codec : Codec} {database : Database} {plan : Plan} {store later again : Store}

def yielded (records : List (Except String Record)) : List Record :=
  records.filterMap fun next => match next with
    | .ok record => some record
    | .error _ => none

def observationsOf (codec : Codec) (records : List Record) (subjectId entityKey : String) :
    List Observation :=
  (records.filter fun record => record.subjectId codec == subjectId &&
    record.entityKey == entityKey).map fun record => record.observation codec

theorem preserveEach_append {first second : List (Except String Record)}
    {versions : List (String × Record)} :
    preserveEach codec (first ++ second) store = .ok (later, versions) ↔
      ∃ middle before after, preserveEach codec first store = .ok (middle, before) ∧
        preserveEach codec second middle = .ok (later, after) ∧ versions = before ++ after := by
  induction first generalizing store versions with
  | nil =>
    simp only [List.nil_append, preserveEach, Except.ok.injEq, Prod.mk.injEq]
    constructor
    · exact fun written => ⟨store, [], versions, ⟨rfl, rfl⟩, written, rfl⟩
    · rintro ⟨_, _, after, ⟨rfl, rfl⟩, written, rfl⟩
      exact written
  | cons next first induction =>
    simp only [List.cons_append, preserveEach, bind_eq_ok, pure_eq_ok, Prod.mk.injEq]
    constructor
    · rintro ⟨record, made, ⟨step, versionId⟩, written, ⟨last, rest⟩, others, rfl, rfl⟩
      rcases induction.mp others with ⟨middle, before, after, one, two, rfl⟩
      exact ⟨middle, (versionId, record) :: before, after,
        ⟨record, made, _, written, _, one, rfl, rfl⟩, two, rfl⟩
    · rintro ⟨middle, _, after, ⟨record, made, ⟨step, versionId⟩, written, ⟨last, rest⟩, one,
        rfl, rfl⟩, two, rfl⟩
      exact ⟨record, made, _, written, _, induction.mpr ⟨_, _, _, one, two, rfl⟩, rfl, rfl⟩

theorem preserveEach_marks {records : List (Except String Record)}
    {versions : List (String × Record)}
    (written : preserveEach codec records store = .ok (later, versions)) :
    records = (yielded records).map .ok ∧
      versions = (yielded records).map (fun record => (record.versionId codec, record)) ∧
      later.stream = store.stream ∧ ∀ subjectId entityKey, later.mark subjectId entityKey =
        leaves (store.mark subjectId entityKey)
          (observationsOf codec (yielded records) subjectId entityKey) := by
  induction records generalizing store versions with
  | nil =>
    cases written
    exact ⟨rfl, rfl, rfl, fun _ _ => rfl⟩
  | cons next records induction =>
    simp only [preserveEach, bind_eq_ok, pure_eq_ok, Prod.mk.injEq] at written
    rcases written with ⟨record, rfl, ⟨middle, versionId⟩, first, ⟨last, others⟩, rest, rfl, rfl⟩
    rcases induction rest with ⟨allOk, same, stream, marks⟩
    have observed := preserve_observed first
    have key := (preserve_steps first).1
    have head : yielded (.ok record :: records) = record :: yielded records := rfl
    refine ⟨?_, ?_, stream.trans observed.stream, ?_⟩
    · rw [head, List.map_cons, ← allOk]
    · rw [head, List.map_cons, ← same, key]
    · intro subjectId entityKey
      rw [marks, head]
      by_cases own : record.subjectId codec = subjectId ∧ record.entityKey = entityKey
      · rcases own with ⟨rfl, rfl⟩
        rw [observed.own]
        simp [observationsOf, leaves]
      · rw [observed.other subjectId entityKey own]
        have skipped : (record.subjectId codec == subjectId && record.entityKey == entityKey) =
            false := by
          by_contra kept
          simp only [Bool.not_eq_false, Bool.and_eq_true, beq_iff_eq] at kept
          exact own kept
        simp [observationsOf, skipped]

theorem preserveEach_still {records : List (Except String Record)}
    {versions : List (String × Record)}
    (written : preserveEach codec records store = .ok (later, versions)) :
    store.weight ≤ later.weight ∧ (later.weight = store.weight → later.spans = store.spans ∧
      ∀ record ∈ yielded records, Mark.settles
        (store.mark (record.subjectId codec) record.entityKey) (record.observation codec) =
          true) := by
  induction records generalizing store versions with
  | nil =>
    cases written
    exact ⟨le_refl _, fun _ => ⟨rfl, by simp [yielded]⟩⟩
  | cons next records induction =>
    simp only [preserveEach, bind_eq_ok, pure_eq_ok, Prod.mk.injEq] at written
    rcases written with ⟨record, rfl, ⟨middle, versionId⟩, first, ⟨last, others⟩, rest, rfl, rfl⟩
    dsimp only at first rest
    rcases induction rest with ⟨grows, still⟩
    have observed := preserve_observed first
    rcases observed.settledOrMore with ⟨settles, sameSpans⟩ | ⟨_, more⟩
    · have sameWeight := weight_congr sameSpans
      refine ⟨by omega, fun same => ?_⟩
      rcases still (by omega) with ⟨spans, settled⟩
      refine ⟨spans.trans sameSpans, fun other member => ?_⟩
      rcases List.mem_cons.mp member with rfl | member
      · exact settles
      · rw [← mark_congr observed.stream sameSpans]
        exact settled other member
    · refine ⟨by omega, fun same => ?_⟩
      omega

theorem preserveEach_again {records : List (Except String Record)}
    {versions : List (String × Record)}
    (written : preserveEach codec records store = .ok (later, versions)) (kept : Kept later again)
    (textual : ∀ record ∈ yielded records, Textual record.blob)
    (settles : ∀ record ∈ yielded records, Mark.settles
      (again.mark (record.subjectId codec) record.entityKey) (record.observation codec) = true) :
    preserveEach codec records again = .ok (again, versions) := by
  induction records generalizing store versions with
  | nil =>
    cases written
    rfl
  | cons next records induction =>
    simp only [preserveEach, bind_eq_ok, pure_eq_ok, Prod.mk.injEq] at written
    rcases written with ⟨record, rfl, ⟨middle, versionId⟩, first, ⟨last, others⟩, rest, rfl, rfl⟩
    have restKept := (preserveEach_written rest).1
    have firstAgain := preserve_again first (restKept.trans kept)
      (textual record List.mem_cons_self) (settles record List.mem_cons_self)
    have restAgain := induction rest
      (fun other member => textual other (List.mem_cons_of_mem _ member))
      (fun other member => settles other (List.mem_cons_of_mem _ member))
    simp only [preserveEach, ok_bind, firstAgain, restAgain]
    rfl

/-- The condition on the records, and on the last spans before the first run. -/
structure SteadyRun (codec : Codec) (store : Store) (records : List Record) : Prop where
  textual : ∀ record ∈ records, Textual record.blob
  steady : ∀ subjectId entityKey, Steady (store.mark subjectId entityKey)
    (observationsOf codec records subjectId entityKey)

theorem mem_observationsOf {records : List Record} {record : Record} (member : record ∈ records) :
    record.observation codec ∈
      observationsOf codec records (record.subjectId codec) record.entityKey := by
  apply List.mem_map_of_mem
  simp [member]

theorem SteadyRun.settles {records : List Record} (steady : SteadyRun codec store records)
    {record : Record} (member : record ∈ records) :
    Mark.settles (leaves (store.mark (record.subjectId codec) record.entityKey)
      (observationsOf codec records (record.subjectId codec) record.entityKey))
        (record.observation codec) = true :=
  steady_iff.mp (steady.steady _ _) _ (mem_observationsOf member)

theorem steadyRun_iff {records : List (Except String Record)}
    {versions : List (String × Record)}
    (written : preserveEach codec records store = .ok (later, versions))
    (textual : ∀ record ∈ yielded records, Textual record.blob) :
    SteadyRun codec store (yielded records) ↔ ∀ record ∈ yielded records, Mark.settles
      (later.mark (record.subjectId codec) record.entityKey) (record.observation codec) = true := by
  have marks := (preserveEach_marks written).2.2.2
  constructor
  · intro steady record member
    rw [marks]
    exact steady.settles member
  · intro settles
    refine ⟨textual, fun subjectId entityKey => steady_iff.mpr fun observation member => ?_⟩
    rcases List.mem_map.mp member with ⟨record, kept, rfl⟩
    simp only [List.mem_filter, Bool.and_eq_true, beq_iff_eq] at kept
    rcases kept with ⟨present, rfl, rfl⟩
    rw [← marks]
    exact settles record present

theorem readEach_congr {versionIds : List String} (coverage : List (String × Coverage)) :
    readEach codec { store with coverage } versionIds = readEach codec store versionIds := by
  induction versionIds with
  | nil => rfl
  | cons versionId versionIds induction =>
    have same : readVersion codec { store with coverage } versionId =
        readVersion codec store versionId := rfl
    simp only [readEach, same, induction]

theorem recordSemanticCoverage_again {versions : List String} {artifacts : List Artifact}
    {operationKeys : List String} {coverageId : String}
    (recorded : recordSemanticCoverage codec database plan versions artifacts operationKeys store =
      .ok (later, coverageId)) :
    (∃ coverage, later = { store with coverage }) ∧
      recordSemanticCoverage codec database plan versions artifacts operationKeys later =
        .ok (later, coverageId) := by
  simp only [recordSemanticCoverage, bind_eq_ok, require_eq_ok, decide_eq_true_eq] at recorded
  rcases recorded with ⟨_, authority, _, some_, decoded, readAll, _, valid, _, short, recorded⟩
  generalize codedDef : Coverage.mk "generation" plan.generationId plan.policyEpoch database.path
    versions (orderBy (·.path) artifacts) (sortedSet operationKeys) = coverage at recorded short
  have written : (∃ rows, later = { store with coverage := rows }) ∧
      lookup (codec.coverageId coverage) later.coverage = some coverage ∧
      coverageId = codec.coverageId coverage := by
    cases found : lookup (codec.coverageId coverage) store.coverage with
    | some old =>
      simp only [found, bind_eq_ok, require_eq_ok, decide_eq_true_eq, pure_eq_ok,
        Prod.mk.injEq] at recorded
      rcases recorded with ⟨_, rfl, rfl, rfl⟩
      exact ⟨⟨store.coverage, rfl⟩, found, rfl⟩
    | none =>
      simp only [found, bind_eq_ok, pure_eq_ok, Prod.mk.injEq] at recorded
      rcases recorded with ⟨_, _, rfl, rfl⟩
      refine ⟨⟨_, rfl⟩, ?_, rfl⟩
      rw [lookup_append, found, lookup_cons]
      simp
  rcases written with ⟨⟨rows, rfl⟩, found, rfl⟩
  refine ⟨⟨rows, rfl⟩, ?_⟩
  simp only [recordSemanticCoverage, authority, ok_bind, some_, readEach_congr, readAll, valid,
    codedDef, found]
  simp [require, short, bind, Except.bind, pure, Except.pure]

theorem publishHistory_eq_ok {operationKey : Option String} {result : List String × String} :
    publishHistory codec database plan operationKey store = .ok (later, result) ↔
      ∃ first before middle after read, preserveEach codec
          (planRecords codec database plan operationKey) store = .ok (first, before) ∧
        preserveEach codec (coverageRecords codec database plan) first = .ok (middle, after) ∧
        result.1 = sortedSet (sortedSet (before.map Prod.fst) ++ after.map Prod.fst) ∧
        readEach codec middle result.1 = .ok read ∧
        recordSemanticCoverage codec database plan result.1
          (artifacts database plan (read.map (·.2.blobSha256)) result.1)
          (plan.entries.flatMap fun entry =>
            (entry.own database).map fun _ => entry.publicationKey) middle =
              .ok (later, result.2) := by
  rcases result with ⟨versions, coverageId⟩
  simp only [publishHistory, preservePublicationPlan, recordGenerationCoverage, bind_eq_ok,
    pure_eq_ok, Prod.mk.injEq]
  constructor
  · rintro ⟨_, ⟨⟨first, before⟩, planned, rfl⟩, ⟨middle, after⟩, covered, read, readAll,
      ⟨last, id⟩, recorded, rfl, rfl, rfl⟩
    exact ⟨first, before, middle, after, read, planned, covered, rfl, readAll, recorded⟩
  · rintro ⟨first, before, middle, after, read, planned, covered, rfl, readAll, recorded⟩
    exact ⟨_, ⟨(first, before), planned, rfl⟩, (middle, after), covered, read, readAll,
      (later, coverageId), recorded, rfl, rfl, rfl⟩

theorem preserveEach_history {operationKey : Option String} {first middle : Store}
    {before after : List (String × Record)}
    (planned : preserveEach codec (planRecords codec database plan operationKey) store =
      .ok (first, before))
    (covered : preserveEach codec (coverageRecords codec database plan) first =
      .ok (middle, after)) :
    preserveEach codec (historyRecords codec database plan operationKey) store =
      .ok (middle, before ++ after) :=
  preserveEach_append.mpr ⟨first, before, after, planned, covered, rfl⟩

theorem yielded_history {operationKey : Option String} :
    yielded (historyRecords codec database plan operationKey) =
      yielded (planRecords codec database plan operationKey) ++
        yielded (coverageRecords codec database plan) :=
  List.filterMap_append

theorem textual_of_preserveEach {records : List (Except String Record)}
    {versions : List (String × Record)}
    (written : preserveEach codec records store = .ok (later, versions))
    (there : ∀ record ∈ yielded records, ∃ row,
      lookup (record.versionId codec) store.versions = some row) :
    ∀ record ∈ yielded records, Textual record.blob := by
  induction records generalizing store versions with
  | nil => simp [yielded]
  | cons next records induction =>
    simp only [preserveEach, bind_eq_ok, pure_eq_ok, Prod.mk.injEq] at written
    rcases written with ⟨record, rfl, ⟨middle, versionId⟩, first, ⟨last, others⟩, rest, rfl, rfl⟩
    dsimp only at first rest
    intro other member
    rcases List.mem_cons.mp member with rfl | member
    · rcases preserve_steps first with
        ⟨_, one, two, three, objectId, _, named, put, added, key, _⟩
      rcases there other List.mem_cons_self with ⟨row, found⟩
      apply textual_of_addVersion added
      rcases subject_ok named with ⟨_, rfl, _⟩
      rcases putTree_ok put with ⟨_, rfl, _⟩
      rw [key]
      exact found
    · apply induction rest _ other member
      intro another present
      rcases there another (List.mem_cons_of_mem _ present) with ⟨row, found⟩
      exact ⟨row, (preserve_ok first).1.versions _ _ found⟩

theorem readEach_accepts {versionIds : List String}
    (readable : ∀ versionId ∈ versionIds, ∃ read, readVersion codec store versionId = .ok read) :
    ∃ read, readEach codec store versionIds = .ok read := by
  induction versionIds with
  | nil => exact ⟨[], rfl⟩
  | cons versionId versionIds induction =>
    rcases readable versionId List.mem_cons_self with ⟨read, first⟩
    rcases induction (fun other member => readable other (List.mem_cons_of_mem _ member)) with
      ⟨rest, others⟩
    exact ⟨(versionId, read) :: rest, by simp [readEach, first, others, pure, Except.pure]⟩

theorem recordSemanticCoverage_first (plan : Plan) {versions : List String}
    (artifacts : List Artifact) (operationKeys : List String) {read : List (String × Read)}
    (authorised : database.authority = .ok ()) (valid : ∀ read files, database.validate read files =
      .ok ()) (short : ∀ coverage, codec.coverageLength coverage ≤ 1024) (some_ : versions ≠ [])
    (readAll : readEach codec store versions = .ok read) (none_ : store.coverage = [])
    (room : store.used codec + 2048 ≤ store.maxBytes) :
    ∃ later coverageId, recordSemanticCoverage codec database plan versions artifacts operationKeys
      store = .ok (later, coverageId) := by
  generalize codedDef : Coverage.mk "generation" plan.generationId plan.policyEpoch database.path
    versions (orderBy (·.path) artifacts) (sortedSet operationKeys) = coverage
  have length := short coverage
  have limit : maxObjectBytes = 16777216 := rfl
  have fits : codec.coverageLength coverage ≤ maxObjectBytes := by omega
  have roomLeft : store.used codec + (codec.coverageLength coverage + 1024) ≤ store.maxBytes := by
    apply le_trans _ room
    exact Nat.add_le_add_left (Nat.add_le_add_right length 1024) _
  simp only [recordSemanticCoverage, authorised, ok_bind, readAll, valid, codedDef, none_,
    lookup_nil]
  simp [require, capacity, some_, fits, roomLeft, bind, Except.bind, pure, Except.pure]

theorem publishHistory_first (injective : codec.Injective) {operationKey : Option String}
    {planned covered : List Record}
    (planRecords_eq : planRecords codec database plan operationKey = planned.map .ok)
    (coverageRecords_eq : coverageRecords codec database plan = covered.map .ok)
    (some_ : planned ≠ []) (bounded : planned.length + covered.length < 9223372036854775806)
    (acceptable : ∀ record ∈ planned ++ covered, Acceptable codec record ∧
      record.payload.DistinctKeys ∧ record.payload.nodes ≤ maxGraphNodes)
    (authorised : database.authority = .ok ())
    (valid : ∀ read files, database.validate read files = .ok ())
    (short : ∀ coverage, codec.coverageLength coverage ≤ 1024)
    (addressed : Addressed codec store) (few : ∀ span ∈ store.spans, span.observations ≤ 0)
    (uncovered : store.coverage = [])
    (room : store.used codec + (planned.map (recordCost codec)).sum +
      (covered.map (recordCost codec)).sum + 2048 ≤ store.maxBytes) :
    ∃ later result, publishHistory codec database plan operationKey store =
      .ok (later, result) := by
  rcases preserveEach_accepts injective
    (fun record member => (acceptable record (List.mem_append_left _ member)).1)
    addressed few (by omega) (by omega) with ⟨first, planWritten, left⟩
  have usedFirst := left.used
  have maxFirst := left.maxBytes
  rcases preserveEach_accepts injective
    (fun record member => (acceptable record (List.mem_append_right _ member)).1)
    left.addressed left.few (by omega) (by omega) with ⟨middle, coverageWritten, all⟩
  have usedMiddle := all.used
  have maxMiddle := all.maxBytes
  rw [← planRecords_eq] at planWritten
  rw [← coverageRecords_eq] at coverageWritten
  have written := (preserveEach_written (preserveEach_history planWritten coverageWritten)).2
  generalize versionsDef : sortedSet (sortedSet ((planned.map fun record =>
    (record.versionId codec, record)).map Prod.fst) ++ (covered.map fun record =>
      (record.versionId codec, record)).map Prod.fst) = versions
  have member_iff : ∀ versionId, versionId ∈ versions ↔
      ∃ record ∈ planned ++ covered, record.versionId codec = versionId := by
    intro versionId
    rw [← versionsDef]
    simp [sortedSet, orderBy_perm.mem_iff, or_and_right, exists_or]
  have readable : ∀ versionId ∈ versions, ∃ read, readVersion codec middle versionId = .ok read := by
    intro versionId member
    rcases (member_iff versionId).mp member with ⟨record, present, rfl⟩
    rcases acceptable record present with ⟨accepted, distinct, small⟩
    rcases written (record.versionId codec) record (by
      rw [← List.map_append]
      exact List.mem_map_of_mem present) with ⟨whole, _⟩
    have textual : Textual record.blob := by
      rw [accepted.noBlob]
      exact .inl rfl
    rcases (readsBack_iff injective whole distinct).mpr ⟨small, textual⟩ with ⟨read, readOk, _⟩
    exact ⟨read, readOk⟩
  rcases readEach_accepts readable with ⟨read, readAll⟩
  have nonempty : versions ≠ [] := by
    rcases List.exists_mem_of_ne_nil _ some_ with ⟨record, present⟩
    exact List.ne_nil_of_mem ((member_iff _).mpr
      ⟨record, List.mem_append_left _ present, rfl⟩)
  rcases recordSemanticCoverage_first plan
    (artifacts database plan (read.map (·.2.blobSha256)) versions)
    (plan.entries.flatMap fun entry => (entry.own database).map fun _ => entry.publicationKey)
    authorised valid short nonempty readAll
    (all.coverage.trans (left.coverage.trans uncovered)) (by omega) with
    ⟨later, coverageId, recorded⟩
  exact ⟨later, (versions, coverageId), publishHistory_eq_ok.mpr ⟨first, _, middle, _, read,
    planWritten, coverageWritten, versionsDef.symm, readAll, recorded⟩⟩

theorem settles_of_replay {operationKey : Option String} {result : List String × String}
    (ran : publishHistory codec database plan operationKey store = .ok (later, result))
    (replayed : publishHistory codec database plan operationKey later = .ok (later, result)) :
    ∀ record ∈ yielded (historyRecords codec database plan operationKey), Textual record.blob ∧
      Mark.settles (later.mark (record.subjectId codec) record.entityKey)
        (record.observation codec) = true := by
  rcases publishHistory_eq_ok.mp ran with
    ⟨first, before, middle, after, read, planned, covered, versions, readAll, recorded⟩
  have whole := preserveEach_history planned covered
  rcases recordSemanticCoverage_again recorded with ⟨⟨coverage, rfl⟩, _⟩
  rcases publishHistory_eq_ok.mp replayed with
    ⟨first', before', middle', after', read', planned', covered', _, _, recorded'⟩
  have wholeAgain := preserveEach_history planned' covered'
  rcases recordSemanticCoverage_again recorded' with ⟨⟨coverage', same⟩, _⟩
  have sameSpans : middle'.spans = middle.spans := (congrArg Store.spans same).symm
  have settled := ((preserveEach_still wholeAgain).2 (weight_congr sameSpans)).2
  refine fun record member => ⟨?_, settled record member⟩
  apply textual_of_preserveEach wholeAgain _ record member
  intro other present
  have written := (preserveEach_written whole).2 (other.versionId codec) other (by
    rw [(preserveEach_marks whole).2.1]
    exact List.mem_map_of_mem present)
  rcases written.1.version with ⟨_, _, _, found, _⟩
  exact ⟨_, found⟩

section Sample

def sampleRow (title : String) : Fields :=
  [("job_key", .string "k"), ("source_id", .string "s"), ("title", .string title)]

def sampleFields (title : String) : Fields :=
  [("job_key", .string "k"), ("raw", .object []), ("source_id", .string "s"),
    ("title", .string title)]

def sampleRecord (title : String) (operationKey : Option String) : Record :=
  { row := sampleRow title, kind := "job", entityKey := "job"
    payload := .object [("job_key", .string "k"), ("source_id", .string "s"),
      ("title", .string title), ("raw", .object [])], operationKey }

def samplePlan (old new : String) : Plan where
  generationId := "g"
  policyEpoch := "e"
  changes := [{
    fields := [("worker_row", .object (sampleRow new)), ("source_id", .string "s")]
    publicationKey := "p"
    destinations := [{
      path := "db", beforeimagePath := "before"
      beforeimage := .ok (.object [("job", .object (sampleRow old))])
      beforeimageSha256 := "0", beforeimageSize := 0 }] }]
  listingFrames := []
  planFile := ⟨"plan.json", "plan.json", "0", 0⟩
  blobFiles := []

def sampleDatabase (new : String) : Database where
  path := "db"
  absolute := id
  finalRow _ _ := .ok (sampleRow new)
  attachments _ := []
  authority := .ok ()
  validate _ _ := .ok ()

variable (old new title : String) (operationKey : Option String)

theorem planRecords_sample : planRecords plainCodec (sampleDatabase new) (samplePlan old new)
    operationKey = [sampleRecord new operationKey, sampleRecord old operationKey].map .ok := rfl

theorem coverageRecords_sample : coverageRecords plainCodec (sampleDatabase new)
    (samplePlan old new) = [sampleRecord old (some "p"), sampleRecord new (some "p")].map .ok := rfl

theorem sortKeys_sampleRecord :
    (sampleRecord title operationKey).payload.sortKeys = .object (sampleFields title) := by
  have empty : orderBy Prod.fst ([] : Fields) = [] := orderBy_eq_self (by simp)
  have increasing : ([("job_key", .string "k"), ("raw", .object []), ("source_id", .string "s"),
      ("title", .string title)] : Fields).Pairwise fun a b => a.1 < b.1 := by
    simp only [List.pairwise_cons, List.mem_cons, forall_eq_or_imp, List.not_mem_nil,
      String.lt_iff_toList_lt, false_imp_iff, List.Pairwise.nil, and_true, implies_true]
    decide
  have moved : ([("job_key", .string "k"), ("source_id", .string "s"), ("title", .string title),
      ("raw", .object [])] : Fields).Perm [("job_key", .string "k"), ("raw", .object []),
        ("source_id", .string "s"), ("title", .string title)] := by
    have twoThenOne := @List.perm_append_comm _ [("source_id", Json.string "s"),
      ("title", Json.string title)] [("raw", Json.object [])]
    exact twoThenOne.cons _
  simp only [sampleRecord, Json.sortKeys, Json.sortFields, empty]
  rw [orderBy_eq_of_perm moved increasing, sampleFields]

theorem length_sampleFields :
    plainCodec.objectLength (.map (treePairs plainCodec (sampleFields title))) = 341 := by
  simp only [sampleFields, treePairs, plainCodec, Node.textLength, List.map_cons, List.map_nil,
    List.sum_cons, List.sum_nil]
  decide

theorem recordCost_sampleRecord :
    recordCost plainCodec (sampleRecord title operationKey) = 5166 := by
  have identity : identityCost plainCodec (sampleRecord title operationKey).identity = 1280 := rfl
  have text : ∀ text, plainCodec.objectLength (.value (.string text)) = 64 := fun _ => rfl
  have empty : plainCodec.objectLength (.map []) = 25 := rfl
  have fields : fieldsCost plainCodec (sampleFields title) = 1241 := by
    simp [sampleFields, fieldsCost, treeCost, nodeCost, treePairs, text, empty]
  rw [recordCost, sortKeys_sampleRecord, treeCost, nodeCost,
    length_sampleFields, identity, fields, rowCost]

theorem acceptable_sampleRecord : Acceptable plainCodec (sampleRecord title operationKey) := by
  have limit : maxObjectBytes = 16777216 := rfl
  have text : ∀ text, plainCodec.objectLength (.value (.string text)) = 64 := fun _ => rfl
  have empty : plainCodec.objectLength (.map []) = 25 := rfl
  refine ⟨rfl, rfl, ?_, ⟨none, rfl⟩⟩
  rw [sortKeys_sampleRecord, Short, length_sampleFields, limit]
  simp [sampleFields, ShortFields, Short, treePairs, text, empty, limit]

theorem readable_sampleRecord : (sampleRecord title operationKey).payload.DistinctKeys ∧
    (sampleRecord title operationKey).payload.nodes ≤ maxGraphNodes := by
  constructor
  · simp [sampleRecord, Json.distinctKeys_object, Json.DistinctKeys, Json.DistinctFields]
  · change 5 ≤ 100000
    omega

theorem samplePlan_runs : ∃ later result, publishHistory plainCodec (sampleDatabase new)
    (samplePlan old new) none { stream := "main" } = .ok (later, result) := by
  apply publishHistory_first plainCodec_injective (planRecords_sample old new none)
    (coverageRecords_sample old new)
  · simp
  · simp
  · intro record member
    simp only [List.mem_append, List.mem_cons, List.not_mem_nil, or_false] at member
    rcases member with (rfl | rfl) | rfl | rfl <;>
      exact ⟨acceptable_sampleRecord _ _, readable_sampleRecord _ _⟩
  · rfl
  · exact fun _ _ => rfl
  · intro coverage
    change 256 ≤ 1024
    omega
  · exact addressed_empty plainCodec "main"
  · simp
  · rfl
  · simp only [List.map_cons, List.map_nil, List.sum_cons, List.sum_nil, recordCost_sampleRecord]
    change 0 + 10332 + 10332 + 2048 ≤ 40000000000
    omega

theorem versionId_sampleRecord {old new : String}
    (same : (sampleRecord old operationKey).versionId plainCodec =
      (sampleRecord new operationKey).versionId plainCodec) : old = new := by
  have sameTree := (plainCodec_injective.version same).2.2.2.1
  rw [sortKeys_sampleRecord, sortKeys_sampleRecord, treeId, treeId] at sameTree
  have samePairs := Node.map.inj (plainCodec_injective.object sameTree)
  simp only [sampleFields, treePairs, treeId, List.cons.injEq, Prod.mk.injEq, true_and,
    and_true] at samePairs
  have sameValue := Node.value.inj (plainCodec_injective.object samePairs)
  exact Atom.string.inj sameValue

end Sample

/-- After a run, the same calls leave the store as it is, with the same versions and
coverage id, exactly when the run is steady. -/
theorem replay_unchanged {operationKey : Option String} {result : List String × String}
    (ran : publishHistory codec database plan operationKey store = .ok (later, result)) :
    publishHistory codec database plan operationKey later = .ok (later, result) ↔
      SteadyRun codec store (yielded (historyRecords codec database plan operationKey)) := by
  rcases publishHistory_eq_ok.mp ran with
    ⟨first, before, middle, after, read, planned, covered, versions, readAll, recorded⟩
  have whole := preserveEach_history planned covered
  rcases recordSemanticCoverage_again recorded with ⟨⟨coverage, rfl⟩, recordedAgain⟩
  have keptByCoverage : Kept middle { middle with coverage } := ⟨.refl, .refl, .refl, .refl⟩
  constructor
  · intro replayed
    have settled := settles_of_replay ran replayed
    exact (steadyRun_iff whole fun record member => (settled record member).1).mpr
      fun record member => (settled record member).2
  · intro steady
    have settled := (steadyRun_iff whole steady.textual).mp steady
    have inPlan : ∀ record ∈ yielded (planRecords codec database plan operationKey),
        record ∈ yielded (historyRecords codec database plan operationKey) := by
      intro record member
      rw [yielded_history]
      exact List.mem_append_left _ member
    have inCoverage : ∀ record ∈ yielded (coverageRecords codec database plan),
        record ∈ yielded (historyRecords codec database plan operationKey) := by
      intro record member
      rw [yielded_history]
      exact List.mem_append_right _ member
    have plannedAgain := preserveEach_again planned
      ((preserveEach_written covered).1.trans keptByCoverage)
      (fun record member => steady.textual record (inPlan record member))
      (fun record member => settled record (inPlan record member))
    have coveredAgain := preserveEach_again covered keptByCoverage
      (fun record member => steady.textual record (inCoverage record member))
      (fun record member => settled record (inCoverage record member))
    have readAgain := (readEach_congr coverage).trans readAll
    exact publishHistory_eq_ok.mpr ⟨_, before, _, after, read, plannedAgain, coveredAgain,
      versions, readAgain, recordedAgain⟩

theorem replay_unchanged_sameTitle : ∃ later result,
    publishHistory plainCodec (sampleDatabase "Old") (samplePlan "Old" "Old") none
      { stream := "main" } = .ok (later, result) ∧
    (publishHistory plainCodec (sampleDatabase "Old") (samplePlan "Old" "Old") none later =
      .ok (later, result) ↔ SteadyRun plainCodec { stream := "main" } (yielded (historyRecords
        plainCodec (sampleDatabase "Old") (samplePlan "Old" "Old") none))) := by
  rcases samplePlan_runs "Old" "Old" with ⟨later, result, ran⟩
  exact ⟨later, result, ran, replay_unchanged ran⟩

/-- A new title moves the span of the job at every run. -/
theorem replay_unchanged_counterexample : ∃ later result,
    publishHistory plainCodec (sampleDatabase "New") (samplePlan "Old" "New") none
      { stream := "main" } = .ok (later, result) ∧
    publishHistory plainCodec (sampleDatabase "New") (samplePlan "Old" "New") none later ≠
      .ok (later, result) := by
  rcases samplePlan_runs "Old" "New" with ⟨later, result, ran⟩
  refine ⟨later, result, ran, fun replayed => ?_⟩
  have settled := settles_of_replay ran replayed
  have old := (settled (sampleRecord "Old" none) (by simp [historyRecords, yielded,
    planRecords_sample])).2
  have new := (settled (sampleRecord "New" none) (by simp [historyRecords, yielded,
    planRecords_sample])).2
  have oneEntity : later.mark ((sampleRecord "New" none).subjectId plainCodec)
    (sampleRecord "New" none).entityKey = later.mark ((sampleRecord "Old" none).subjectId plainCodec)
      (sampleRecord "Old" none).entityKey := rfl
  rw [oneEntity] at new
  cases marked : later.mark ((sampleRecord "Old" none).subjectId plainCodec)
      (sampleRecord "Old" none).entityKey with
  | none =>
    rw [marked] at old
    cases old
  | some mark =>
    rw [marked] at old new
    have oldVersion := (uniform_of_settles old).1
    have newVersion := (uniform_of_settles new).1
    have sameTitle := versionId_sampleRecord none (oldVersion.trans newVersion.symm)
    exact absurd sameTitle (by decide)

end JobAgg.SemanticHistory
