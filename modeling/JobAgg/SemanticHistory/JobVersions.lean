import JobAgg.SemanticHistory.Again
import JobAgg.SemanticHistory.PlainCodec
import JobAgg.SemanticHistory.ProofFacts

/-! # Job rows of one version

Rows with one semantic version have the same columns apart from the bookkeeping of polls,
the same raw values, and proofs of the same history, if no proof of theirs has neighbouring
facts that Python confuses. A row with such a proof shares its version with another row. -/

namespace JobAgg.SemanticHistory

open Json (distinctKeys_object)

/-- The columns that `_job_payload` takes from a row -/
def jobBookkeeping : List String :=
  ["raw", "raw_json", "last_seen_at", "normalized_hash", "missing_run_count",
    "source_latest_observed_at"]

variable (codec : Codec)

/-- The raw value of a payload -/
def proven (fields : Fields) : Fields :=
  fields.map fun field =>
    (field.1, if knownProofs.contains field.1 then proof codec field.2 else field.2)

/-- The version that `preserve_job` gives a row -/
def jobVersion (row : Fields) : Except String String := do
  let record ← jobRecord codec row .null none
  return record.versionId codec

/-- The rows differ in nothing but poll bookkeeping, and, in known proofs, in occurrence
fields and repeated facts. -/
structure SameJob (row other : Fields) : Prop where
  columns : Json.Same (.object (without jobBookkeeping row))
    (.object (without jobBookkeeping other))
  raw : ∃ fields others, rawOf codec row = .ok (.object fields) ∧
    rawOf codec other = .ok (.object others) ∧
    Json.Same (.object (without knownProofs fields)) (.object (without knownProofs others)) ∧
    ∀ name ∈ knownProofs, (lookup name fields).map history = (lookup name others).map history

def DistinguishedRow (row : Fields) : Prop :=
  ∀ fields, rawOf codec row = .ok (.object fields) → ∀ name ∈ knownProofs, ∀ value,
    lookup name fields = some value → Distinguished value

variable {codec} {row other fields others : Fields} {version : String}

mutual

theorem treeId_injective (injective : codec.Injective) : ∀ {left right : Json},
    treeId codec left = treeId codec right → left = right
  | .array items, right => by
    intro same
    cases right with
    | array others =>
      have ids := injective.object same
      rw [Node.list.injEq] at ids
      rw [treeIds_injective injective ids]
    | _ => cases injective.object same
  | .object fields, right => by
    intro same
    cases right with
    | object others =>
      have pairs := injective.object same
      rw [Node.map.injEq] at pairs
      rw [treePairs_injective injective pairs]
    | _ => cases injective.object same
  | .null, right => by
    intro same
    cases right <;> cases injective.object same
    rfl
  | .bool _, right => by
    intro same
    cases right <;> cases injective.object same
    rfl
  | .number _, right => by
    intro same
    cases right <;> cases injective.object same
    rfl
  | .string _, right => by
    intro same
    cases right <;> cases injective.object same
    rfl

theorem treeIds_injective (injective : codec.Injective) : ∀ {items others : List Json},
    treeIds codec items = treeIds codec others → items = others
  | [], others => by
    intro same
    cases others with
    | nil => rfl
    | cons _ _ => cases same
  | item :: items, others => by
    intro same
    cases others with
    | nil => cases same
    | cons other others =>
      rw [treeIds, treeIds, List.cons_eq_cons] at same
      rw [treeId_injective injective same.1, treeIds_injective injective same.2]

theorem treePairs_injective (injective : codec.Injective) : ∀ {fields others : Fields},
    treePairs codec fields = treePairs codec others → fields = others
  | [], others => by
    intro same
    cases others with
    | nil => rfl
    | cons _ _ => cases same
  | (name, value) :: fields, others => by
    intro same
    cases others with
    | nil => cases same
    | cons other others =>
      obtain ⟨otherName, other⟩ := other
      rw [treePairs, treePairs, List.cons_eq_cons, Prod.mk.injEq] at same
      rw [same.1.1, treeId_injective injective same.1.2, treePairs_injective injective same.2]

end

/-! ## Payloads -/

theorem raw_mem_jobBookkeeping : "raw" ∈ jobBookkeeping := List.mem_cons_self

theorem get_raw_append (row : Fields) (raw : Json) :
    Json.get "raw" (without jobBookkeeping row ++ [("raw", raw)]) = raw := by
  rw [Json.get, lookup_append, lookup_without_of_mem raw_mem_jobBookkeeping, Option.none_or,
    lookup_cons, if_pos rfl, Option.getD_some]

theorem jobPayload_eq_ok {payload : Json} : jobPayload codec row = .ok payload ↔
    ∃ fields, rawOf codec row = .ok (.object fields) ∧
      payload = .object (without jobBookkeeping row ++
        [("raw", .object (proven codec fields))]) := by
  rw [jobPayload, bind_eq_ok]
  constructor
  · rintro ⟨raw, loaded, made⟩
    cases raw with
    | object fields =>
      cases made
      exact ⟨fields, loaded, congrArg Json.object (assign_without raw_mem_jobBookkeeping)⟩
    | _ => cases made
  · rintro ⟨fields, loaded, rfl⟩
    exact ⟨_, loaded, congrArg (Except.ok ∘ Json.object) (assign_without raw_mem_jobBookkeeping)⟩

theorem jobVersion_eq_ok : jobVersion codec row = .ok version ↔
    ∃ payload, jobPayload codec row = .ok payload ∧
      version = codec.versionId (codec.subjectId (.ofRow row)) "job" "job"
        (treeId codec payload.sortKeys) .null := by
  rw [jobVersion, bind_eq_ok]
  constructor
  · rintro ⟨record, made, named⟩
    rw [jobRecord, bind_eq_ok] at made
    obtain ⟨payload, built, made⟩ := made
    cases made
    cases named
    exact ⟨payload, built, rfl⟩
  · rintro ⟨payload, built, rfl⟩
    refine ⟨{ row, kind := "job", entityKey := "job", payload }, ?_, rfl⟩
    rw [jobRecord, built]
    rfl

theorem jobVersion_of_preserveJob {observedAt : Json} {operationKey : Option String}
    {store later : Store}
    (written : preserveJob codec row observedAt operationKey store = .ok (later, version)) :
    jobVersion codec row = .ok version := by
  rw [preserveJob, bind_eq_ok] at written
  obtain ⟨record, made, written⟩ := written
  rw [jobRecord, bind_eq_ok] at made
  obtain ⟨payload, built, made⟩ := made
  cases made
  have preserved : preserve codec ⟨row, "job", "job", payload, observedAt, operationKey, .null⟩
      store = .ok (later, version) := written
  exact jobVersion_eq_ok.mpr ⟨payload, built, (preserve_steps preserved).1⟩

theorem lookup_proven {name : String} : lookup name (proven codec fields) =
    (lookup name fields).map fun value =>
      if knownProofs.contains name then proof codec value else value := by
  induction fields with
  | nil => rfl
  | cons field fields induction =>
    rw [proven, List.map_cons, ← proven, lookup_cons, lookup_cons, induction]
    dsimp only
    by_cases same : field.1 = name
    · rw [if_pos same, if_pos same, same]
      rfl
    · rw [if_neg same, if_neg same]

theorem without_proven :
    without knownProofs (proven codec fields) = without knownProofs fields := by
  induction fields with
  | nil => rfl
  | cons field fields induction =>
    rw [proven, List.map_cons, ← proven, without, without]
    rw [without, without] at induction
    by_cases listed : knownProofs.contains field.1 = true
    · rw [List.filter_cons_of_neg (by simpa using listed),
        List.filter_cons_of_neg (by simpa using listed), induction]
    · rw [List.filter_cons_of_pos (by simpa using listed),
        List.filter_cons_of_pos (by simpa using listed), induction, if_neg listed]

theorem proven_proven : proven codec (proven codec fields) = proven codec fields := by
  rw [proven, proven, List.map_map]
  apply List.map_congr_left
  intro field _
  dsimp only [Function.comp_apply]
  split
  · rw [proof_proof]
  · rfl

theorem distinct_raw (distinct : (Json.object row).DistinctKeys)
    (loaded : rawOf codec row = .ok (.object fields)) : (Json.object fields).DistinctKeys :=
  distinctKeys_rawOf distinct loaded

theorem distinct_proven (distinct : (Json.object fields).DistinctKeys) :
    (Json.object (proven codec fields)).DistinctKeys := by
  apply Json.distinctKeys_map distinct
  intro field member
  have inField := (distinctKeys_object.mp distinct).2 field member
  split
  · exact distinctKeys_proof inField
  · exact inField

/-! ## One version -/

theorem history_eq_of_same (python : codec.same = Json.pythonEqual) {value also : Json}
    (distinct : value.DistinctKeys) (alsoDistinct : also.DistinctKeys)
    (plain : Distinguished value) (alsoPlain : Distinguished also)
    (same : Json.Same (proof codec value) (proof codec also)) : history value = history also := by
  rw [← (map_facts_proof_iff python distinct).mpr plain,
    ← (map_facts_proof_iff python alsoDistinct).mpr alsoPlain]
  exact map_facts_of_same (distinctKeys_proof distinct) (distinctKeys_proof alsoDistinct) same

theorem history_eq_of_proven (python : codec.same = Json.pythonEqual)
    (distinct : (Json.object fields).DistinctKeys) (also : (Json.object others).DistinctKeys)
    (same : Json.Same (.object (proven codec fields)) (.object (proven codec others)))
    {name : String} (known : name ∈ knownProofs)
    (plain : ∀ value, lookup name fields = some value → Distinguished value)
    (alsoPlain : ∀ value, lookup name others = some value → Distinguished value) :
    (lookup name fields).map history = (lookup name others).map history := by
  have contained : knownProofs.contains name = true := List.contains_iff_mem.mpr known
  have leftDistinct := distinctKeys_object.mp (@distinct_proven codec _ distinct)
  have rightDistinct := distinctKeys_object.mp (@distinct_proven codec _ also)
  have found : ∀ {list : Fields} {value : Json}, lookup name list = some value →
      lookup name (proven codec list) = some (proof codec value) := by
    intro list value present
    rw [lookup_proven, present, Option.map_some, if_pos contained]
  have missing : ∀ {list : Fields}, lookup name list = none →
      lookup name (proven codec list) = none := by
    intro list absent
    rw [lookup_proven, absent]
    rfl
  cases left : lookup name fields with
  | none =>
    cases right : lookup name others with
    | none => rfl
    | some value =>
      obtain ⟨result, there, _⟩ := Json.exists_lookup_of_same leftDistinct.1 same.symm
        (mem_of_lookup_eq_some (found right))
      rw [missing left] at there
      cases there
  | some value =>
    obtain ⟨result, there, equal⟩ := Json.exists_lookup_of_same rightDistinct.1 same
      (mem_of_lookup_eq_some (found left))
    cases right : lookup name others with
    | none =>
      rw [missing right] at there
      cases there
    | some also =>
      rw [found right] at there
      cases there
      rw [Option.map_some, Option.map_some, history_eq_of_same python
        ((distinctKeys_object.mp distinct).2 _ (mem_of_lookup_eq_some left))
        ((distinctKeys_object.mp ‹(Json.object others).DistinctKeys›).2 _
          (mem_of_lookup_eq_some right)) (plain _ left) (alsoPlain _ right) equal]

theorem sameJob_of_jobVersion (python : codec.same = Json.pythonEqual)
    (injective : codec.Injective) (distinct : (Json.object row).DistinctKeys)
    (also : (Json.object other).DistinctKeys) (plain : DistinguishedRow codec row)
    (alsoPlain : DistinguishedRow codec other) (named : jobVersion codec row = .ok version)
    (alsoNamed : jobVersion codec other = .ok version) : SameJob codec row other := by
  obtain ⟨payload, built, rfl⟩ := jobVersion_eq_ok.mp named
  obtain ⟨otherPayload, otherBuilt, same⟩ := jobVersion_eq_ok.mp alsoNamed
  have equal : Json.Same payload otherPayload :=
    treeId_injective injective (injective.version same).2.2.2.1
  have payloadDistinct := distinctKeys_jobPayload distinct built
  have otherDistinct := distinctKeys_jobPayload also otherBuilt
  obtain ⟨fields, loaded, rfl⟩ := jobPayload_eq_ok.mp built
  obtain ⟨others, otherLoaded, rfl⟩ := jobPayload_eq_ok.mp otherBuilt
  rw [distinctKeys_object] at payloadDistinct otherDistinct
  have lacksRaw : ∀ row : Fields, without ["raw"] (without jobBookkeeping row) =
      without jobBookkeeping row := fun row =>
    without_eq_self fun field member listed => lacks_without jobBookkeeping row field member
      (List.mem_cons.mpr (.inl (List.mem_singleton.mp listed)))
  have columns : ∀ (row : Fields) (raw : Json), (without jobBookkeeping row ++
      [("raw", raw)]).filter (fun field => !(["raw"].contains field.1)) =
        without jobBookkeeping row := fun row raw => by
    rw [← without, without_append_single (List.mem_singleton_self _), lacksRaw]
  have sameColumns := @Json.same_filter _ _ (fun name => !(["raw"].contains name))
    payloadDistinct.1 equal
  have sameRaw := Json.same_get "raw" payloadDistinct.1 otherDistinct.1 equal
  rw [columns, columns] at sameColumns
  rw [get_raw_append, get_raw_append] at sameRaw
  have rawDistinct := distinct_raw distinct loaded
  have otherRawDistinct := distinct_raw also otherLoaded
  have sameRest := @Json.same_filter _ _ (fun name => !knownProofs.contains name)
    (distinctKeys_object.mp (@distinct_proven codec _ rawDistinct)).1 sameRaw
  refine ⟨sameColumns, fields, others, loaded, otherLoaded, ?_, fun name known => ?_⟩
  · rwa [← without, ← without, without_proven, without_proven] at sameRest
  · exact history_eq_of_proven python rawDistinct otherRawDistinct sameRaw known
      (plain fields loaded name known) (alsoPlain others otherLoaded name known)

/-! ## The row that a payload is -/

def payloadRow (codec : Codec) (row fields : Fields) : Fields :=
  without jobBookkeeping row ++ [("raw", .object (proven codec fields))]

theorem rawOf_payloadRow :
    rawOf codec (payloadRow codec row fields) = .ok (.object (proven codec fields)) := by
  rw [rawOf, payloadRow, get_raw_append]

theorem without_payloadRow :
    without jobBookkeeping (payloadRow codec row fields) = without jobBookkeeping row := by
  rw [payloadRow, without_append_single raw_mem_jobBookkeeping, without_without fun _ => id]

theorem identity_payloadRow : Identity.ofRow (payloadRow codec row fields) = .ofRow row := by
  have kept : ∀ name ∉ jobBookkeeping,
      Json.get name (payloadRow codec row fields) = Json.get name row := by
    intro name unlisted
    have different : "raw" ≠ name := fun same => unlisted (same ▸ raw_mem_jobBookkeeping)
    rw [Json.get, payloadRow, lookup_append, lookup_without unlisted, lookup_cons,
      if_neg different, lookup_nil, Option.or_none, Json.get]
  rw [Identity.ofRow, Identity.ofRow, kept _ (by decide), kept _ (by decide), kept _ (by decide)]

theorem jobVersion_payloadRow (loaded : rawOf codec row = .ok (.object fields)) :
    jobVersion codec (payloadRow codec row fields) = jobVersion codec row := by
  have built : jobPayload codec row = .ok (.object (payloadRow codec row fields)) :=
    jobPayload_eq_ok.mpr ⟨fields, loaded, rfl⟩
  have again : jobPayload codec (payloadRow codec row fields) =
      .ok (.object (payloadRow codec row fields)) := by
    refine jobPayload_eq_ok.mpr ⟨_, rawOf_payloadRow, ?_⟩
    rw [without_payloadRow, proven_proven, payloadRow]
  rw [jobVersion_eq_ok.mpr ⟨_, built, rfl⟩, jobVersion_eq_ok.mpr ⟨_, again, rfl⟩,
    identity_payloadRow]

theorem distinguished_payloadRow (python : codec.same = Json.pythonEqual) :
    DistinguishedRow codec (payloadRow codec row fields) := by
  intro others loaded name known value found
  rw [rawOf_payloadRow] at loaded
  cases loaded
  rw [lookup_proven, Option.map_eq_some_iff] at found
  obtain ⟨original, _, rfl⟩ := found
  rw [if_pos (List.contains_iff_mem.mpr known)]
  exact distinguished_proof python original

theorem distinguished_of_sameJob (python : codec.same = Json.pythonEqual)
    (distinct : (Json.object row).DistinctKeys) (loaded : rawOf codec row = .ok (.object fields))
    (same : SameJob codec row (payloadRow codec row fields)) : DistinguishedRow codec row := by
  obtain ⟨-, entries, others, left, right, -, histories⟩ := same
  rw [loaded] at left
  rw [rawOf_payloadRow] at right
  cases left
  cases right
  intro list found name known value present
  rw [loaded] at found
  cases found
  have valueDistinct := (distinctKeys_object.mp (distinct_raw distinct loaded)).2 _
    (mem_of_lookup_eq_some present)
  have equal := histories name known
  rw [lookup_proven, present, Option.map_some, Option.map_some, Option.map_some,
    if_pos (List.contains_iff_mem.mpr known), Option.some_inj,
    history_proof python valueDistinct] at equal
  exact (map_facts_proof_iff python valueDistinct).mp equal.symm

/-! ## Proof chains -/

/-- `_proof` gives back what it gave, and keeps the facts of a chain exactly when Python tells
every two neighbouring facts apart that differ as JSON. Rows with such proofs share a version
only as the same job; any other row shares its version with one of them that is not. -/
theorem proofs_keepFacts_iff (codec : Codec) (python : codec.same = Json.pythonEqual)
    (injective : codec.Injective) :
    (∀ value : Json, proof codec (proof codec value) = proof codec value) ∧
    (∀ value : Json, value.DistinctKeys →
      ((facts (proof codec value)).map Json.sortKeys = history value ↔ Distinguished value)) ∧
    (∀ (row : Fields) (observedAt : Json) (operationKey : Option String) (store later : Store)
      (version : String), preserveJob codec row observedAt operationKey store =
        .ok (later, version) → jobVersion codec row = .ok version) ∧
    ∀ (row : Fields) (version : String), (Json.object row).DistinctKeys →
      jobVersion codec row = .ok version →
        ((∀ other : Fields, (Json.object other).DistinctKeys → DistinguishedRow codec other →
          jobVersion codec other = .ok version → SameJob codec row other) ↔
            DistinguishedRow codec row) := by
  refine ⟨proof_proof, fun _ => map_facts_proof_iff python,
    fun _ _ _ _ _ _ => jobVersion_of_preserveJob, fun row version distinct named => ?_⟩
  constructor
  · intro onlySame
    obtain ⟨payload, built, -⟩ := jobVersion_eq_ok.mp named
    obtain ⟨fields, loaded, rfl⟩ := jobPayload_eq_ok.mp built
    exact distinguished_of_sameJob python distinct loaded
      (onlySame _ (distinctKeys_jobPayload distinct built) (distinguished_payloadRow python)
        ((jobVersion_payloadRow loaded).trans named))
  · intro plain other also alsoPlain alsoNamed
    exact sameJob_of_jobVersion python injective distinct also plain alsoPlain named alsoNamed

/-! ## A fact that is lost -/

/-- Every text is its own hash, and values are compared as Python does. -/
def pythonCodec : Codec := { plainCodec with same := Json.pythonEqual }

/-- `true` is checked first, and 1 after it. -/
def confusedProof : Json :=
  .object [("checked", .number "1"),
    ("previous_verification", .object [("checked", .bool true)])]

def confusedRow : Fields :=
  [("source_id", .string "s"), ("job_key", .string "k"),
    ("raw", .object [("_deterministic_publication", confusedProof)])]

theorem pythonCodec_injective : pythonCodec.Injective where
  object := plainCodec_injective.object
  subject := plainCodec_injective.subject
  version := plainCodec_injective.version
  coverage := plainCodec_injective.coverage
  sha256 := plainCodec_injective.sha256

theorem confused_checked : Json.pythonEqual (.object [("checked", .number "1")])
    (.object [("checked", .bool true)]) = true := by
  decide

theorem proof_confusedProof :
    proof pythonCodec confusedProof = .object [("checked", .bool true)] := by
  rw [confusedProof, proof_object]
  exact if_pos confused_checked

theorem sortKeys_single (name : String) (value : Json) :
    (Json.object [(name, value)]).sortKeys = .object [(name, value.sortKeys)] := by
  rw [Json.sortKeys, Json.sortFields, Json.sortFields,
    orderBy_eq_self (List.pairwise_singleton _ _)]

/-- The newest fact of the chain is not in the result. -/
theorem loses_fact : ¬ ∀ value : Json, value.DistinctKeys →
    (facts (proof pythonCodec value)).map Json.sortKeys = history value := by
  intro keeps
  have distinct : confusedProof.DistinctKeys := by
    simp [confusedProof, Json.DistinctKeys, Json.DistinctFields]
  have newest : facts confusedProof =
      [.object [("checked", .number "1")], .object [("checked", .bool true)]] := rfl
  have kept := keeps confusedProof distinct
  rw [proof_confusedProof, history, newest] at kept
  have oldest : facts (.object [("checked", .bool true)]) =
      [.object [("checked", .bool true)]] := rfl
  rw [oldest, List.map_cons, List.map_nil, List.map_cons, List.map_cons, List.map_nil,
    sortKeys_single, sortKeys_single] at kept
  exact absurd kept (by decide)

/-- The row of the lost fact has the version of a row without it. -/
theorem proofs_keepFacts_confused : ∃ version, jobVersion pythonCodec confusedRow = .ok version ∧
    ¬ ∀ other : Fields, (Json.object other).DistinctKeys → DistinguishedRow pythonCodec other →
      jobVersion pythonCodec other = .ok version → SameJob pythonCodec confusedRow other := by
  have loaded : rawOf pythonCodec confusedRow =
      .ok (.object [("_deterministic_publication", confusedProof)]) := rfl
  have distinct : (Json.object confusedRow).DistinctKeys := by
    simp [confusedRow, confusedProof, Json.DistinctKeys, Json.DistinctFields]
  have named := jobVersion_eq_ok.mpr ⟨_, jobPayload_eq_ok.mpr ⟨_, loaded, rfl⟩, rfl⟩
  obtain ⟨-, keeps, -, rows⟩ :=
    proofs_keepFacts_iff pythonCodec rfl pythonCodec_injective
  refine ⟨_, named, fun onlySame => ?_⟩
  have plain := (rows confusedRow _ distinct named).mp onlySame _ loaded
    "_deterministic_publication" (by decide) confusedProof rfl
  have same : (Json.object [("checked", .number "1")]).sortKeys =
      (Json.object [("checked", .bool true)]).sortKeys :=
    (List.isChain_cons_cons.mp plain).1 confused_checked
  rw [sortKeys_single, sortKeys_single] at same
  exact absurd same (by decide)

end JobAgg.SemanticHistory
