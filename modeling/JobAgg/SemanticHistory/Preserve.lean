import JobAgg.SemanticHistory.Store

/-! # Preserving rows

The payload that each preserve call of `semantic_history.py` makes of its row, and the
calls, which write one version of each payload.
-/

namespace JobAgg.SemanticHistory

/-- `{key: value for ... if key not in names}`. -/
def without (names : List String) (fields : Fields) : Fields :=
  fields.filter fun field => !names.contains field.1

def occurrence : List String :=
  ["observed_at", "checked_at", "retrieved_at", "generation_id", "publication_key"]

def knownProofs : List String :=
  ["_deterministic_fetch_observation", "_deterministic_publication",
    "_jobagg_listing_verification", "_jobagg_main_text_verification"]

variable (codec : Codec)

mutual

def proof : Json → Json
  | .object fields =>
    let current := without ("previous_verification" :: occurrence) fields
    match proofPrevious fields with
    | .null => .object current
    | .object previous =>
      if codec.same (.object current) (.object (without ["previous_verification"] previous))
      then .object previous
      else .object (assign "previous_verification" (.object previous) current)
    | previous => .object (assign "previous_verification" previous current)
  | value => value

/-- `_proof(value.get("previous_verification"))`. -/
def proofPrevious : Fields → Json
  | [] => .null
  | (name, value) :: fields =>
    if name = "previous_verification" then proof value else proofPrevious fields

end

/-- `json.loads(text or "{}")`. -/
def loadsOrEmpty (text : Json) (invalid : String) : Except String Json :=
  if !text.truthy then .ok (.object [])
  else match text.asString.bind codec.loads with
    | some value => .ok value
    | none => .error invalid

def rawOf (row : Fields) : Except String Json :=
  match Json.get "raw" row with
  | .null => loadsOrEmpty codec (Json.get "raw_json" row) "semantic_raw_json_invalid"
  | raw => .ok raw

def jobPayload (row : Fields) : Except String Json := do
  let raw ← rawOf codec row
  match raw with
  | .object fields =>
    let row := without ["raw", "raw_json", "last_seen_at", "normalized_hash",
      "missing_run_count", "source_latest_observed_at"] row
    return .object (assign "raw" (.object (fields.map fun field =>
      (field.1, if knownProofs.contains field.1 then proof codec field.2 else field.2))) row)
  | _ => .error "semantic_raw_not_object"

/-- `doc["metadata"] = json.loads(doc.pop("metadata_json") or "{}")`. -/
def withMetadata (association : Fields) : Except String Fields :=
  match lookup "metadata_json" association with
  | none => .ok association
  | some text => do
    let metadata ← loadsOrEmpty codec text "JSONDecodeError"
    return assign "metadata" metadata (remove "metadata_json" association)

def documentPayload (association : Fields) : Except String Fields := do
  let doc ← withMetadata codec association
  let doc := without ["retrieved_at", "observed_at"] doc
  match Json.get "metadata" doc with
  | .object metadata =>
    return assign "metadata"
      (.object (without ["retrieved_at", "observed_at", "prepared_binary_path"] metadata)) doc
  | _ => return doc

def listingPayload (frame : Fields) : Fields :=
  without ["destinations", "observed_at", "generation_id", "publication_key"] frame

def sourceSubject (sourceId : Json) : Except String Fields :=
  match sourceId with
  | .string text =>
    if text = "" then .error "semantic_listing_source_required"
    else .ok [("source_id", .string text), ("external_id", .null),
      ("job_key", .string ("source:" ++ text))]
  | _ => .error "semantic_listing_source_required"

def verifyBlob (store : Store) (digest : Json) : Except String Unit := do
  let text ← bindText digest
  match text.bind (lookup · store.blobs) with
  | none => .error "semantic_document_blob_missing_or_corrupt"
  | some blob =>
    require (decide (blob.content.length = blob.sizeBytes ∧
      .string (codec.sha256 blob.content) = digest)) "semantic_document_blob_missing_or_corrupt"

/-- `if digest: _verify_blob(digest)`. -/
def verifyGiven (store : Store) (digest : Json) : Except String Unit :=
  if digest.truthy then verifyBlob codec store digest else .ok ()

def jobRecord (row : Fields) (observedAt : Json) (operationKey : Option String) :
    Except String Record := do
  let payload ← jobPayload codec row
  return { row, kind := "job", entityKey := "job", payload, observedAt, operationKey }

def preserveJob (row : Fields) (observedAt : Json) (operationKey : Option String)
    (store : Store) : Except String (Store × String) := do
  let record ← jobRecord codec row observedAt operationKey
  version codec record store

/-- `"document:" + identity`. -/
def documentKey (doc : Fields) : Except String String :=
  let identity := orElse (Json.get "attachment_id" doc)
    (.string (codec.valueHash (.array [Json.get "url" doc, Json.get "content_sha256" doc])))
  match identity with
  | .string text => .ok ("document:" ++ text)
  | _ => .error "TypeError"

def documentRecord (row doc : Fields) (observedAt : Json) (operationKey : Option String) :
    Except String Record := do
  let entityKey ← documentKey codec doc
  return { row, kind := "document_association", entityKey, payload := .object doc
           observedAt, operationKey, blob := Json.get "content_sha256" doc }

/-- `SELECT * FROM jobs WHERE job_key=?`. -/
def jobOf (jobs : List Fields) (doc : Fields) : Except String Fields := do
  let key ← bindText (Json.get "job_key" doc)
  match key.bind fun text => jobs.find? fun row => decide (Json.get "job_key" row = .string text) with
  | some row => .ok row
  | none => .error "semantic_document_subject_missing"

/-- `_version`, after the blob of the record is verified. -/
def preserve (record : Record) (store : Store) : Except String (Store × String) := do
  verifyGiven codec store record.blob
  version codec record store

/-- The version that `preserve_document_association` writes. -/
def associationRecord (jobs : List Fields) (association : Fields) (jobRow : Option Fields)
    (observedAt : Json) (operationKey : Option String) : Except String Record := do
  let doc ← documentPayload codec association
  let row ← jobRow.elim (jobOf jobs doc) .ok
  documentRecord codec row doc observedAt operationKey

/-- `preserve_document_association`, beside the rows of `jobs`. -/
def preserveDocumentAssociation (jobs : List Fields) (association : Fields)
    (jobRow : Option Fields) (observedAt : Json) (operationKey : Option String)
    (store : Store) : Except String (Store × String) := do
  let record ← associationRecord codec jobs association jobRow observedAt operationKey
  preserve codec record store

def listingRecord (frame : Fields) (operationKey : Option String) : Except String Record := do
  let row ← sourceSubject (Json.get "source_id" frame)
  return { row, kind := "listing_frame", entityKey := "listing_frame"
           payload := .object (listingPayload frame)
           observedAt := Json.get "observed_at" frame, operationKey }

def preserveListingFrame (frame : Fields) (operationKey : Option String) (store : Store) :
    Except String (Store × String) := do
  let record ← listingRecord frame operationKey
  version codec record store

def relatedRecord (row : Fields) (table : String) (record : Json) (observedAt : Json)
    (operationKey : Option String) : Record :=
  { row, kind := "related_record"
    entityKey := "related:" ++ table ++ ":" ++ codec.valueHash record
    payload := .object [("table", .string table), ("row", record)], observedAt, operationKey }

def relatedRecords (row : Fields) (table : String) (records : Json) (observedAt : Json)
    (operationKey : Option String) : List (Except String Record) :=
  match records with
  | .array items => items.map fun item =>
    if table = "job_attachments" then
      match item with
      | .object association => do
        let doc ← documentPayload codec association
        documentRecord codec row doc observedAt operationKey
      | _ => .error "TypeError"
    else .ok (relatedRecord codec row table item observedAt operationKey)
  | _ => [.error "semantic_related_records_invalid"]

def listingRecords (sourceId : Json) (table : String) (records : Json) (observedAt : Json)
    (operationKey : Option String) : List (Except String Record) :=
  match records with
  | .array items => items.map fun item =>
    match item with
    | .object record => do
      let row ← sourceSubject (orElse (Json.get "source_id" record) sourceId)
      return relatedRecord codec row table item observedAt operationKey
    | _ => .error "AttributeError"
  | _ => [.error "semantic_listing_records_invalid"]

def listingTables : List String :=
  ["live_listing_frames", "live_listing_inventory", "job_presence_rows"]

/-- `_beforeimage_records`: what the generator yields, up to what it raises. -/
def beforeimageRecords (beforeimage sourceId observedAt : Json) (operationKey : Option String) :
    List (Except String Record) :=
  match beforeimage with
  | .object fields =>
    match lookup "job" fields with
    | some job =>
      if fields.any fun field => field.1 ∉ ["job", "related"] then
        [.error "semantic_beforeimage_unknown_fields"]
      else
        let related := (lookup "related" fields).getD (.object [])
        match job, related with
        | .null, .object tables =>
          if tables.any fun table => table.2.truthy then
            [.error "semantic_related_without_subject"]
          else []
        | .object row, .object tables =>
          jobRecord codec row observedAt operationKey ::
            tables.flatMap fun table =>
              relatedRecords codec row table.1 table.2 observedAt operationKey
        | .object row, _ =>
          [jobRecord codec row observedAt operationKey, .error "AttributeError"]
        | _, _ => [.error "AttributeError"]
    | none =>
      if fields.isEmpty || fields.any fun field => field.1 ∉ listingTables then
        [.error "semantic_beforeimage_unknown_shape"]
      else fields.flatMap fun field =>
        listingRecords codec sourceId field.1 field.2 observedAt operationKey
  | _ => [.error "semantic_beforeimage_invalid"]

def preserveEach : List (Except String Record) → Store →
    Except String (Store × List (String × Record))
  | [], store => .ok (store, [])
  | next :: later, store => do
    let record ← next
    let (store, versionId) ← preserve codec record store
    let (store, versions) ← preserveEach later store
    return (store, (versionId, record) :: versions)

/-- `sorted(set(texts))`. -/
def sortedSet (texts : List String) : List String := orderBy id texts.dedup

def preserveBeforeimage (beforeimage sourceId observedAt : Json) (operationKey : Option String)
    (store : Store) : Except String (Store × List String) := do
  let (store, versions) ← preserveEach codec
    (beforeimageRecords codec beforeimage sourceId observedAt operationKey) store
  return (store, sortedSet (versions.map Prod.fst))

/-! Payloads of dictionaries with distinct keys have distinct keys. -/

section Distinct

open Json (distinctItems_iff distinctKeys_filter distinctKeys_get distinctKeys_assign distinctKeys_map
  distinctKeys_object)

variable {codec : Codec}

mutual

theorem distinctKeys_proof : ∀ {value : Json}, value.DistinctKeys → (proof codec value).DistinctKeys
  | .object fields => by
    intro distinct
    have current : (Json.object (without ("previous_verification" :: occurrence)
      fields)).DistinctKeys := distinctKeys_filter distinct
    have previous := distinctKeys_proofPrevious 
      (Json.distinctFields_iff.mpr (distinctKeys_object.mp distinct).2)
    simp only [proof]
    split
    · exact current
    · rename_i prior found
      rw [found] at previous
      split
      · exact previous
      · exact distinctKeys_assign current previous
    · exact distinctKeys_assign current previous
  | .array _ => fun distinct => distinct
  | .null => fun distinct => distinct
  | .bool _ => fun distinct => distinct
  | .number _ => fun distinct => distinct
  | .string _ => fun distinct => distinct

theorem distinctKeys_proofPrevious : ∀ {fields : Fields}, Json.DistinctFields fields →
    (proofPrevious codec fields).DistinctKeys
  | [] => fun _ => trivial
  | (name, value) :: fields => by
    intro distinct
    rw [Json.DistinctFields] at distinct
    rw [proofPrevious]
    split
    · exact distinctKeys_proof distinct.1
    · exact distinctKeys_proofPrevious distinct.2

end

theorem distinctKeys_loads {text value : Json} {invalid : String}
    (loaded : loadsOrEmpty codec text invalid = .ok value) : value.DistinctKeys := by
  unfold loadsOrEmpty at loaded
  split at loaded
  · cases loaded
    exact distinctKeys_object.mpr (by simp)
  · split at loaded
    · rename_i found
      cases loaded
      rcases Option.bind_eq_some_iff.mp found with ⟨text, _, loads⟩
      exact codec.loads_distinctKeys text value loads
    · cases loaded

theorem distinctKeys_rawOf {row : Fields} {raw : Json} (distinct : (Json.object row).DistinctKeys)
    (loaded : rawOf codec row = .ok raw) : raw.DistinctKeys := by
  have inRow := distinctKeys_get "raw" distinct
  unfold rawOf at loaded
  split at loaded
  · exact distinctKeys_loads loaded
  · cases loaded
    exact inRow

theorem distinctKeys_jobPayload {row : Fields} {payload : Json}
    (distinct : (Json.object row).DistinctKeys) (made : jobPayload codec row = .ok payload) :
    payload.DistinctKeys := by
  simp only [jobPayload, bind_eq_ok] at made
  rcases made with ⟨raw, loaded, made⟩
  have rawDistinct := distinctKeys_rawOf distinct loaded
  cases raw with
  | object fields =>
    cases made
    apply distinctKeys_assign (distinctKeys_filter distinct)
    apply distinctKeys_map rawDistinct
    intro field member
    have fieldDistinct := (distinctKeys_object.mp rawDistinct).2 field member
    split
    · exact distinctKeys_proof fieldDistinct
    · exact fieldDistinct
  | _ => cases made

theorem distinctKeys_documentPayload {association doc : Fields}
    (distinct : (Json.object association).DistinctKeys)
    (made : documentPayload codec association = .ok doc) : (Json.object doc).DistinctKeys := by
  simp only [documentPayload, bind_eq_ok] at made
  rcases made with ⟨middle, replaced, made⟩
  have middleDistinct : (Json.object middle).DistinctKeys := by
    unfold withMetadata at replaced
    split at replaced
    · cases replaced
      exact distinct
    · simp only [bind_eq_ok] at replaced
      rcases replaced with ⟨metadata, loaded, replaced⟩
      cases replaced
      exact distinctKeys_assign (distinctKeys_filter distinct) (distinctKeys_loads loaded)
  have keptDistinct : (Json.object (without ["retrieved_at", "observed_at"]
    middle)).DistinctKeys := distinctKeys_filter middleDistinct
  have metadataDistinct := distinctKeys_get "metadata" keptDistinct
  split at made
  · rename_i metadata found
    cases made
    rw [found] at metadataDistinct
    exact distinctKeys_assign keptDistinct (distinctKeys_filter metadataDistinct)
  · cases made
    exact keptDistinct

theorem distinctKeys_jobRecord {row : Fields} {observedAt : Json} {operationKey : Option String}
    {record : Record} (distinct : (Json.object row).DistinctKeys)
    (made : jobRecord codec row observedAt operationKey = .ok record) :
    record.payload.DistinctKeys := by
  simp only [jobRecord, bind_eq_ok] at made
  rcases made with ⟨payload, payloadMade, made⟩
  cases made
  exact distinctKeys_jobPayload distinct payloadMade

theorem distinctKeys_documentRecord {row doc : Fields} {observedAt : Json}
    {operationKey : Option String} {record : Record} (distinct : (Json.object doc).DistinctKeys)
    (made : documentRecord codec row doc observedAt operationKey = .ok record) :
    record.payload.DistinctKeys := by
  simp only [documentRecord, bind_eq_ok] at made
  rcases made with ⟨entityKey, _, made⟩
  cases made
  exact distinct

theorem distinctKeys_associationRecord {jobs : List Fields} {association : Fields}
    {jobRow : Option Fields} {observedAt : Json} {operationKey : Option String} {record : Record}
    (distinct : (Json.object association).DistinctKeys)
    (made : associationRecord codec jobs association jobRow observedAt operationKey = .ok record) :
    record.payload.DistinctKeys := by
  simp only [associationRecord, bind_eq_ok] at made
  rcases made with ⟨doc, docMade, row, _, made⟩
  exact distinctKeys_documentRecord (distinctKeys_documentPayload distinct docMade) made

theorem distinctKeys_listingRecord {frame : Fields} {operationKey : Option String}
    {record : Record} (distinct : (Json.object frame).DistinctKeys)
    (made : listingRecord frame operationKey = .ok record) : record.payload.DistinctKeys := by
  simp only [listingRecord, bind_eq_ok] at made
  rcases made with ⟨row, _, made⟩
  cases made
  exact distinctKeys_filter distinct

theorem distinctKeys_relatedRecord {row : Fields} {table : String} {item observedAt : Json}
    {operationKey : Option String} (distinct : item.DistinctKeys) :
    (relatedRecord codec row table item observedAt operationKey).payload.DistinctKeys := by
  apply distinctKeys_object.mpr
  simp [distinct, Json.DistinctKeys]

theorem distinctKeys_relatedRecords {row : Fields} {table : String} {records observedAt : Json}
    {operationKey : Option String} {record : Record} (distinct : records.DistinctKeys)
    (made : .ok record ∈ relatedRecords codec row table records observedAt operationKey) :
    record.payload.DistinctKeys := by
  cases records with
  | array items =>
    rcases List.mem_map.mp made with ⟨item, member, made⟩
    have itemDistinct := distinctItems_iff.mp distinct item member
    split at made
    · cases item with
      | object association =>
        simp only [bind_eq_ok] at made
        rcases made with ⟨doc, docMade, made⟩
        exact distinctKeys_documentRecord (distinctKeys_documentPayload itemDistinct docMade)
          made
      | _ => cases made
    · cases made
      exact distinctKeys_relatedRecord itemDistinct
  | _ => cases List.mem_singleton.mp made

theorem distinctKeys_listingRecords {sourceId records observedAt : Json} {table : String}
    {operationKey : Option String} {record : Record} (distinct : records.DistinctKeys)
    (made : .ok record ∈ listingRecords codec sourceId table records observedAt operationKey) :
    record.payload.DistinctKeys := by
  cases records with
  | array items =>
    rcases List.mem_map.mp made with ⟨item, member, made⟩
    have itemDistinct := distinctItems_iff.mp distinct item member
    cases item with
    | object fields =>
      simp only [bind_eq_ok] at made
      rcases made with ⟨row, _, made⟩
      cases made
      exact distinctKeys_relatedRecord itemDistinct
    | _ => cases made
  | _ => cases List.mem_singleton.mp made

theorem distinctKeys_beforeimageRecords {beforeimage sourceId observedAt : Json}
    {operationKey : Option String} {record : Record} (distinct : beforeimage.DistinctKeys)
    (made : .ok record ∈ beforeimageRecords codec beforeimage sourceId observedAt operationKey) :
    record.payload.DistinctKeys := by
  cases beforeimage with
  | object fields =>
    have fieldsDistinct := (distinctKeys_object.mp distinct).2
    cases found : lookup "job" fields with
    | some job =>
      have jobDistinct := fieldsDistinct _ (mem_of_lookup_eq_some found)
      have relatedDistinct : ((lookup "related" fields).getD (.object [])).DistinctKeys := by
        cases given : lookup "related" fields with
        | some related => exact fieldsDistinct _ (mem_of_lookup_eq_some given)
        | none => exact distinctKeys_object.mpr (by simp)
      simp only [beforeimageRecords, found] at made
      split_ifs at made
      · simp at made
      · split at made
        · split_ifs at made
          · simp at made
          · simp at made
        · rename_i row tables related
          rw [related] at relatedDistinct
          rcases List.mem_cons.mp made with first | later
          · exact distinctKeys_jobRecord jobDistinct first.symm
          · rcases List.mem_flatMap.mp later with ⟨table, member, made⟩
            exact distinctKeys_relatedRecords
              ((distinctKeys_object.mp relatedDistinct).2 table member) made
        · rcases List.mem_cons.mp made with first | later
          · exact distinctKeys_jobRecord jobDistinct first.symm
          · simp at later
        · simp at made
    | none =>
      simp only [beforeimageRecords, found] at made
      split_ifs at made
      · simp at made
      · rcases List.mem_flatMap.mp made with ⟨field, member, made⟩
        exact distinctKeys_listingRecords (fieldsDistinct field member) made
  | _ => simp [beforeimageRecords] at made

end Distinct

end JobAgg.SemanticHistory
