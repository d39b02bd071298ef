import JobAgg.SemanticHistory.Again

/-! # The history of a publication

The versions that a publication writes into one destination: `preserve_publication_plan`
before the domain writes and `_record_generation_coverage` after them, with the coverage
record over all of them.
-/

namespace JobAgg.SemanticHistory

/-- `beforeimage` is what `json.loads` makes of the file. -/
structure Destination where
  path : String
  beforeimagePath : String
  beforeimage : Except String Json
  beforeimageSha256 : String
  beforeimageSize : ℕ

/-- A change or a listing frame of a plan. -/
structure Entry where
  fields : Fields
  publicationKey : String
  destinations : List Destination

structure File where
  name : String
  path : String
  sha256 : String
  sizeBytes : ℕ

/-- `planFile` is `plan.json`; `blobFiles` are the files of `blobs` and `before_blobs`. -/
structure Plan where
  generationId : String
  policyEpoch : String
  changes : List Entry
  listingFrames : List Entry
  planFile : File
  blobFiles : List File

def Plan.entries (plan : Plan) : List Entry := plan.changes ++ plan.listingFrames

/-- The destination's own tables and files: `Path.absolute`, the row of the merged model,
the attachments of a row, and the checks that `record_semantic_coverage` makes of the
fence and of the files against the versions read. -/
structure Database where
  path : String
  absolute : String → String
  finalRow : Entry → Destination → Except String Fields
  attachments : Fields → List Fields
  authority : Except String Unit
  validate : List (String × Read) → List Artifact → Except String Unit

variable (codec : Codec) (database : Database) (plan : Plan)

def entryRecord (entry : Entry) (operationKey : Option String) : Except String Record :=
  match lookup "worker_row" entry.fields with
  | some (.object row) => jobRecord codec row .null operationKey
  | some _ => .error "TypeError"
  | none => listingRecord entry.fields operationKey

def beforeRecords (entry : Entry) (destination : Destination) (operationKey : Option String) :
    List (Except String Record) :=
  match destination.beforeimage with
  | .error message => [.error message]
  | .ok before =>
    beforeimageRecords codec before (Json.get "source_id" entry.fields) .null operationKey

/-- What `preserve_publication_plan` preserves, in its order. -/
def planRecords (operationKey : Option String) : List (Except String Record) :=
  plan.entries.flatMap fun entry =>
    (entry.destinations.filter fun destination =>
      database.absolute destination.path == database.absolute database.path).flatMap
        fun destination => entryRecord codec entry operationKey ::
          beforeRecords codec entry destination operationKey

def finalRecords (entry : Entry) (destination : Destination) : List (Except String Record) :=
  match lookup "worker_row" entry.fields with
  | none => []
  | some _ =>
    match database.finalRow entry destination with
    | .error message => [.error message]
    | .ok final => jobRecord codec final .null (some entry.publicationKey) ::
        (database.attachments final).map fun doc =>
          associationRecord codec [] doc (some final) .null (some entry.publicationKey)

def Entry.own (entry : Entry) : List Destination :=
  entry.destinations.filter fun destination => destination.path == database.path

/-- What `_record_generation_coverage` preserves, in its order. -/
def coverageRecords : List (Except String Record) :=
  plan.entries.flatMap fun entry => (entry.own database).flatMap fun destination =>
    beforeRecords codec entry destination (some entry.publicationKey) ++
      finalRecords codec database entry destination

def preservePublicationPlan (operationKey : Option String) (store : Store) :
    Except String (Store × List String) := do
  let (store, versions) ← preserveEach codec (planRecords codec database plan operationKey) store
  return (store, sortedSet (versions.map Prod.fst))

def readEach (store : Store) : List String → Except String (List (String × Read))
  | [] => .ok []
  | versionId :: versionIds => do
    let read ← readVersion codec store versionId
    let rest ← readEach store versionIds
    return (versionId, read) :: rest

/-- `record_semantic_coverage` of versions that are sorted already. -/
def recordSemanticCoverage (versions : List String) (artifacts : List Artifact)
    (operationKeys : List String) (store : Store) : Except String (Store × String) := do
  database.authority
  require (!versions.isEmpty) "semantic_coverage_epoch_or_versions_invalid"
  let decoded ← readEach codec store versions
  database.validate decoded artifacts
  let coverage := Coverage.mk "generation" plan.generationId plan.policyEpoch database.path
    versions (orderBy (·.path) artifacts) (sortedSet operationKeys)
  require (decide (codec.coverageLength coverage ≤ maxObjectBytes))
    "semantic_coverage_capacity_deferred"
  let key := codec.coverageId coverage
  match lookup key store.coverage with
  | some old => do
    require (decide (old = coverage)) "semantic_coverage_conflict"
    return (store, key)
  | none => do
    capacity codec store (codec.coverageLength coverage + 1024)
    return ({ store with coverage := store.coverage ++ [(key, coverage)] }, key)

/-- The files of a generation, before their versions are known. -/
def artifacts (digests : List (Option String)) (versions : List String) : List Artifact :=
  (plan.entries.flatMap fun entry => (entry.own database).map fun destination =>
    Artifact.mk destination.beforeimagePath destination.beforeimageSha256
      destination.beforeimageSize "job_beforeimage" (Json.get "source_id" entry.fields) versions) ++
  [⟨plan.planFile.path, plan.planFile.sha256, plan.planFile.sizeBytes, "publication_plan", .null,
    versions⟩] ++
  (plan.blobFiles.filter fun file => some file.name ∈ digests).map fun file =>
    ⟨file.path, file.sha256, file.sizeBytes, "blob", .null, versions⟩

/-- `_record_generation_coverage`, with the versions it was given and its own. -/
def recordGenerationCoverage (versions : List String) (store : Store) :
    Except String (Store × List String × String) := do
  let (store, added) ← preserveEach codec (coverageRecords codec database plan) store
  let versions := sortedSet (versions ++ added.map Prod.fst)
  let read ← readEach codec store versions
  let operationKeys := plan.entries.flatMap fun entry =>
    (entry.own database).map fun _ => entry.publicationKey
  let (store, coverageId) ← recordSemanticCoverage codec database plan versions
    (artifacts database plan (read.map (·.2.blobSha256)) versions) operationKeys store
  return (store, versions, coverageId)

/-- Both calls for one destination. -/
def publishHistory (operationKey : Option String) (store : Store) :
    Except String (Store × List String × String) := do
  let (store, versions) ← preservePublicationPlan codec database plan operationKey store
  recordGenerationCoverage codec database plan versions store

/-- Everything that the two calls preserve. -/
def historyRecords (operationKey : Option String) : List (Except String Record) :=
  planRecords codec database plan operationKey ++ coverageRecords codec database plan

end JobAgg.SemanticHistory
