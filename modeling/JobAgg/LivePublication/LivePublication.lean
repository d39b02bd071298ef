import JobAgg.Foundation.Checked
import JobAgg.Foundation.Durable
import JobAgg.Foundation.Json

/-! # Incremental publication and its gate

`_publish_incremental`, `_prepare` and `_finish_generation` of `live_publication.py`, over
the journal they keep: the gate, the plan of every generation and its result. What they do
to the destination databases and the exports is given by how it ends.
-/

namespace JobAgg.LivePublication

/-- A dictionary. -/
abbrev Fields := List (String × Json)

/-- A unit of a selection and its version, as a plan records that it processed them. -/
abbrev ProcessedUnit := Json × Json

def processedUnit (item : Fields) : ProcessedUnit := (Json.get "unit" item, Json.get "version" item)

/-- `selection["units"]`. -/
def selectedUnits : Json → List Fields
  | .object selection =>
    match Json.get "units" selection with
    | .array items => items.filterMap Json.asObject
    | _ => []
  | _ => []

structure Change where
  publicationKey : String
  sourceId : String

structure ListingFrame where
  publicationKey : String
  sourceId : String

/-- `plan.json`. Times are in microseconds. -/
structure Plan where
  createdAt : Int
  outputDir : String
  workerDatabase : String
  registrySha256 : String
  changes : List Change
  processedUnits : List ProcessedUnit
  listingFrames : List ListingFrame
  rejected : List Json
  unchanged : Nat
  budgetExhausted : Bool
  observationSetSha256 : String
  pendingBacklogEmptyAfterGeneration : Bool
  publicationSelection : Option Json
  publicationPolicy : Option Json
  previousPublicationBoundary : Option Json
  previousPublicationBoundaryVerified : Bool
  requestIdentitySha256 : Option String
  generationId : Option String
  generationRoot : Option String

/-- What a finished generation adds to its gate. -/
structure Receipt where
  status : String
  publicationBoundary : Option Json
  publicationSelection : Option Json
  processedUnits : List ProcessedUnit
  rejected : List Json
  readbackVerified : Bool
  pendingBacklogEmpty : Bool
  completedAt : Int
  changedJobs : Nat
  publishedListingFrames : Nat
  deriving DecidableEq

/-- `.jobagg-publication-state.json`, and `result.json` of a finished generation. -/
structure Gate where
  state : String
  generationId : String
  startedAt : Int
  requestIdentitySha256 : Option String
  planPath : String
  planSha256 : String
  databaseTransactionsComplete : Bool
  observationSetSha256 : String
  receipt : Option Receipt
  deriving DecidableEq

/-- The files of the publication protocol, the plans and results by their paths. -/
structure Journal where
  gate : Option Gate
  plans : String → Option Plan
  results : String → Option Gate

namespace Journal

def saveGate (gate : Gate) (journal : Journal) : Journal :=
  { journal with gate := some gate }

def savePlan (path : String) (plan : Plan) (journal : Journal) : Journal :=
  { journal with plans := Function.update journal.plans path (some plan) }

def saveResult (path : String) (result : Gate) (journal : Journal) : Journal :=
  { journal with results := Function.update journal.results path (some result) }

end Journal

/-- Library calls: the digest of a plan's file, the digest of a value's text, and
`datetime.fromisoformat` after `Z` is replaced, where it gives an aware time. -/
structure Library where
  planDigest : Plan → String
  digest : Json → String
  fromisoformat : String → Option Int

/-- How the planning of one observation ends. -/
inductive Verdict
  | unchanged
  | change (change : Change) (rejected : List Json)
  | rejected (reason : Json)

/-- What a planning call reads in the worker database, the registry and the destinations:
the job keys of the observations in their order, the listing frames, and how each
observation ends. `reach` observations are visited before the deadline or `max_jobs`. -/
structure Survey where
  selection : Option Json
  observations : List String
  reach : Nat
  verdict : String → Verdict
  listingFrames : List ListingFrame
  listingRejected : List Json
  listingComplete : Bool
  processedSourceIds : List String
  observationSetSha256 : String

def selectedUnit (selection : Option Json) (jobKey : String) : Option Fields :=
  (selection.elim [] selectedUnits).find? fun item => Json.get "job_key" item == .string jobKey

def planUnits (survey : Survey) : List ProcessedUnit :=
  let units := survey.selection.elim [] selectedUnits
  let health := units.filter fun item => Json.get "kind" item == .string "health"
  let listing := units.filter fun item => Json.get "kind" item == .string "listing" &&
    survey.processedSourceIds.any fun source => Json.get "source_id" item == .string source
  let visited := (survey.observations.take survey.reach).filterMap
    (selectedUnit survey.selection)
  (health ++ listing ++ visited).map processedUnit

def Verdict.changes : Verdict → List Change
  | .change made _ => [made]
  | _ => []

def Verdict.reasons : Verdict → List Json
  | .change _ reasons => reasons
  | .rejected reason => [reason]
  | .unchanged => []

def Verdict.isUnchanged : Verdict → Bool
  | .unchanged => true
  | _ => false

/-- `plan_publication` with no explicit job keys. -/
def planPublication (workerDatabase registrySha256 outputDir : String) (createdAt : Int)
    (survey : Survey) : Plan :=
  let verdicts := (survey.observations.take survey.reach).map survey.verdict
  let rejected := survey.listingRejected ++ verdicts.flatMap Verdict.reasons
  let exhausted := !survey.listingComplete || decide (survey.reach < survey.observations.length)
  { createdAt, outputDir, workerDatabase, registrySha256
    changes := verdicts.flatMap Verdict.changes
    processedUnits := planUnits survey
    listingFrames := survey.listingFrames
    rejected
    unchanged := verdicts.countP Verdict.isUnchanged
    budgetExhausted := exhausted
    observationSetSha256 := survey.observationSetSha256
    pendingBacklogEmptyAfterGeneration :=
      survey.selection.isNone && survey.listingComplete && !exhausted && rejected.isEmpty
    publicationSelection := survey.selection
    publicationPolicy := none
    previousPublicationBoundary := none
    previousPublicationBoundaryVerified := false
    requestIdentitySha256 := none
    generationId := none
    generationRoot := none }

/-- What `_publish_incremental` returns. -/
structure Result where
  status : String
  reason : Option String := none
  generationId : Option String := none
  planPath : Option String := none
  generationNotStarted : Bool := false
  publicationSelection : Option Json := none
  processedUnits : List ProcessedUnit := []
  rejected : List Json := []
  publicationBoundary : Option Json := none
  readbackVerified : Bool := false
  pendingBacklogEmpty : Bool := false
  observationSetSha256 : Option String := none
  databaseTransactionsComplete : Bool := false
  preparedPlan : Option String := none
  reconciledCompletedGeneration : Bool := false

def pending (gate : Gate) (reason : String) : Result :=
  { status := "publication_pending", reason := some reason, generationId := some gate.generationId
    planPath := some gate.planPath
    observationSetSha256 := some gate.observationSetSha256
    databaseTransactionsComplete := gate.databaseTransactionsComplete }

def Gate.result (gate : Gate) (receipt : Receipt) : Result :=
  { status := receipt.status, generationId := some gate.generationId
    planPath := some gate.planPath
    publicationSelection := receipt.publicationSelection
    processedUnits := receipt.processedUnits, rejected := receipt.rejected
    publicationBoundary := receipt.publicationBoundary
    readbackVerified := receipt.readbackVerified
    pendingBacklogEmpty := receipt.pendingBacklogEmpty
    observationSetSha256 := some gate.observationSetSha256
    databaseTransactionsComplete := gate.databaseTransactionsComplete }

/-- How the work on the destinations ends: whether all database transactions were made
before the deadline, the reason for which the exports are incomplete, and the readback
with the boundary it seals. -/
structure Work where
  databases : Except String Bool
  exports : Except String (Option String)
  readback : Except String (Option Json)
  completedAt : Int

def receipt (plan : Plan) (boundary : Option Json) (completedAt : Int) : Receipt :=
  { status := "published", publicationBoundary := boundary
    publicationSelection := plan.publicationSelection, processedUnits := plan.processedUnits
    rejected := plan.rejected, readbackVerified := true
    pendingBacklogEmpty := plan.pendingBacklogEmptyAfterGeneration &&
      (plan.previousPublicationBoundary.isNone || plan.previousPublicationBoundaryVerified)
    completedAt, changedJobs := plan.changes.length
    publishedListingFrames := plan.listingFrames.length }

def resultPath (root : String) : String := root ++ "/result.json"
def planPath (root : String) : String := root ++ "/plan.json"

/-- `Path(plan["generation_root"])`. -/
def generationRoot (plan : Plan) : Except String String :=
  match plan.generationRoot with
  | none => .error "generation_root"
  | some root => .ok root

def finishGeneration (plan : Plan) (gate : Gate) (work : Work) : Durable Journal Result := do
  let finished ← .examine fun _ => work.databases
  if finished then do
    let exporting : Gate :=
      { gate with databaseTransactionsComplete := true, state := "exporting" }
    .write (.saveGate exporting)
    match ← .examine fun _ => work.exports with
    | some reason => pure (pending exporting reason)
    | none => do
      let boundary ← .examine fun _ => work.readback
      let root ← .examine fun _ => generationRoot plan
      let done := receipt plan boundary work.completedAt
      let complete : Gate := { exporting with state := "complete", receipt := some done }
      .write (.saveResult (resultPath root) complete)
      .write (.saveGate complete)
      pure (complete.result done)
  else pure (pending gate "deadline_before_database_transaction")

/-- One call of `publish_incremental`, its arguments and how its other parts end:
the admission of the publication policy, the check of the targets, the preparation of the
generation, the deadline at its two checks, and the checks made after it. -/
structure Call where
  workerDatabase : String
  registrySha256 : String
  outputDir : String
  stateDir : String
  execute : Bool
  requestIdentity : Option String
  publicationPolicy : Option Json
  previousPublicationBoundary : Option Json
  publicationSelection : Option Json
  admission : Except String Unit
  targets : Except String Unit
  survey : Except String Survey
  boundaryVerified : Except String Bool
  preparation : Except String Unit
  lateBeforePreparation : Bool
  lateAfterPreparation : Bool
  uuid : String
  createdAt : Int
  startedAt : Int
  work : Work
  settlement : Except String Unit

def Call.root (call : Call) : String := call.stateDir ++ "/generations/" ++ call.uuid

/-- `_prepare`: the beforeimages and documents are copied first, the plan is saved last. -/
def prepare (call : Call) (plan : Plan) : Durable Journal Plan := do
  .examine fun _ => call.preparation
  let prepared : Plan :=
    { plan with generationId := some call.uuid, generationRoot := some call.root }
  .write (.savePlan (planPath call.root) prepared)
  pure prepared

def publishingGate (library : Library) (call : Call) (prepared : Plan) : Gate :=
  { state := "publishing", generationId := call.uuid, startedAt := call.startedAt
    requestIdentitySha256 := call.requestIdentity, planPath := planPath call.root
    planSha256 := library.planDigest prepared, databaseTransactionsComplete := false
    observationSetSha256 := prepared.observationSetSha256, receipt := none }

def recoveryPlan (library : Library) (call : Call) (gate : Gate) (journal : Journal) :
    Except String Plan := do
  match journal.plans gate.planPath with
  | none => .error "FileNotFoundError"
  | some plan =>
    require (library.planDigest plan == gate.planSha256) "recovery_plan_hash_changed"
    require (plan.outputDir == call.outputDir) "recovery_output_mismatch"
    require (plan.publicationPolicy == call.publicationPolicy)
      "recovery_publication_policy_changed"
    pure plan

/-- The branch of `_publish_incremental` that meets an unfinished gate. -/
def recoverGeneration (library : Library) (call : Call) (gate : Gate) :
    Durable Journal Result := do
  if call.execute then do
    let plan ← .examine (recoveryPlan library call gate)
    finishGeneration plan gate call.work
  else pure { status := "recovery_required", generationId := some gate.generationId }

def verifiedBoundary (call : Call) : Except String Bool :=
  if call.previousPublicationBoundary.isNone then .ok false else call.boundaryVerified

def callPlan (call : Call) : Except String Plan := do
  let survey ← call.survey
  let plan := planPublication call.workerDatabase call.registrySha256 call.outputDir
    call.createdAt survey
  require (call.publicationSelection.isNone ||
    plan.publicationSelection == call.publicationSelection)
    "selected_projection_dependency_seal_differs"
  let verified ← verifiedBoundary call
  pure { plan with
    publicationPolicy := call.publicationPolicy
    previousPublicationBoundary := call.previousPublicationBoundary
    previousPublicationBoundaryVerified := verified }

def notStarted (plan : Plan) : Result :=
  { status := if plan.budgetExhausted then "deferred" else "no_changes"
    generationNotStarted := true
    publicationSelection := plan.publicationSelection, processedUnits := plan.processedUnits
    pendingBacklogEmpty := plan.pendingBacklogEmptyAfterGeneration, rejected := plan.rejected
    observationSetSha256 := some plan.observationSetSha256 }

def late (plan : Plan) (reason : String) (preparedPlan : Option String) : Result :=
  { status := "deferred", generationNotStarted := true, reason := some reason
    observationSetSha256 := some plan.observationSetSha256, preparedPlan }

def installGeneration (library : Library) (call : Call) (prepared : Plan) :
    Durable Journal Result := do
  let gate := publishingGate library call prepared
  .write (.saveGate gate)
  finishGeneration prepared gate call.work

def startGeneration (library : Library) (call : Call) (plan : Plan) :
    Durable Journal Result :=
  if !call.execute then pure { status := "preview" }
  else if plan.changes.isEmpty && plan.listingFrames.isEmpty then pure (notStarted plan)
  else if call.lateBeforePreparation then pure (late plan "preparation_deadline" none)
  else do
    let prepared ← prepare call { plan with requestIdentitySha256 := call.requestIdentity }
    if call.lateAfterPreparation then
      pure (late plan "deadline_after_preparation_before_gate" (some (planPath call.root)))
    else installGeneration library call prepared

/-- The branch of `_publish_incremental` that plans a generation. -/
def planGeneration (library : Library) (call : Call) : Durable Journal Result := do
  let plan ← .examine fun _ => callPlan call
  startGeneration library call plan

/-- `_publish_incremental` after its checks: an unfinished gate comes first. -/
def publishGeneration (library : Library) (call : Call) : Option Gate → Durable Journal Result
  | some gate =>
    if gate.state == "complete" then planGeneration library call
    else recoverGeneration library call gate
  | none => planGeneration library call

/-- `publish_incremental` with `_publish_incremental`. -/
def publishIncremental (library : Library) (call : Call) : Durable Journal Result := do
  .examine fun _ => call.admission
  .examine fun _ => call.targets
  let gate ← .read Journal.gate
  let result ← publishGeneration library call gate
  .examine fun _ => call.settlement
  pure result

end JobAgg.LivePublication
