import JobAgg.LivePublication.LivePublication

/-! # Publication requests

The recovery part of `publication_snapshot.py` and `_run` of `publish_worker.py`: a
request names the worker database, the registry and the selection it publishes from, and
its report names the generation it published. Paths are direct.
-/

namespace JobAgg.LivePublication

def recoveryIdentityKeys : List String :=
  ["run_id", "source_manifest_sha256", "registry_sha256", "expected_source_ids",
   "worker_acceptance_path", "worker_acceptance_sha256", "worker_database",
   "worker_database_files", "publication_snapshot", "publication_policy", "runtime_contract"]

def recoveryIdentity (library : Library) (request : Fields) : String :=
  library.digest (.object (recoveryIdentityKeys.filterMap fun key =>
    (lookup key request).map fun value => (key, value)))

/-- `request.get(key)` where `None` and a missing key are the same. -/
def optional (key : String) (request : Fields) : Option Json :=
  match Json.get key request with
  | .null => none
  | value => some value

/-- `re.fullmatch(r"[0-9a-f]{32}", text)`. -/
def isGenerationId (text : String) : Bool :=
  text.length == 32 && text.toList.all fun letter =>
    letter.isDigit || (decide ('a' ≤ letter) && decide (letter ≤ 'f'))

/-- A reviewed authorization to recover a generation that started after the deadline. -/
structure ExpiredAuthorization where
  requestIdentitySha256 : String
  generationId : String
  planSha256 : String
  originalGeneratedAt : Json
  originalDeadlineAt : Json
  gateStartedAt : Int
  deriving DecidableEq

structure Binding where
  requestIdentitySha256 : String
  generationId : String
  planPath : String
  planSha256 : String
  observationSetSha256 : String
  workerDatabase : String
  outputDir : String
  stateDir : String
  registrySha256 : Json
  initialGateState : String
  expiryRecoveryAuthorization : Option ExpiredAuthorization
  requestOwnershipVerified : Bool
  originalGeneratedAt : Json
  originalDeadlineAt : Json
  deriving DecidableEq

def generationDir (stateDir generationId : String) : String :=
  stateDir ++ "/generations/" ++ generationId

def expectedSource (request : Fields) (sourceId : String) : Bool :=
  match Json.get "expected_source_ids" request with
  | .array sources => sources.contains (.string sourceId)
  | _ => false

/-- `_gate_documents`: the gate and its plan. -/
def gateDocuments (library : Library) (request : Fields) (effectiveDatabase outputDir
    stateDir : String) (journal : Journal) : Except String (Gate × Plan) := do
  match journal.gate with
  | none => .error "Publication binding changed or is unreadable"
  | some gate =>
    require (isGenerationId gate.generationId) "Recovery gate generation is invalid"
    require (gate.state == "publishing" || gate.state == "exporting" ||
      gate.state == "complete") "Recovery gate state is invalid"
    let root := generationDir stateDir gate.generationId
    require (gate.planPath == planPath root) "Recovery gate plan path differs"
    match journal.plans (planPath root) with
    | none => .error "Publication binding changed or is unreadable"
    | some plan =>
      require (library.planDigest plan == gate.planSha256 &&
        plan.generationId == some gate.generationId && plan.generationRoot == some root &&
        plan.outputDir == outputDir && plan.workerDatabase == effectiveDatabase &&
        Json.get "registry_sha256" request == .string plan.registrySha256 &&
        plan.observationSetSha256 == gate.observationSetSha256 &&
        isSha256 plan.observationSetSha256) "Recovery gate/plan/request binding differs"
      require (plan.changes.all (fun change => expectedSource request change.sourceId) &&
        plan.listingFrames.all fun frame => expectedSource request frame.sourceId)
        "Recovery plan source is outside original request"
      pure (gate, plan)

def parseTime (library : Library) (request : Fields) (key : String) : Except String Int :=
  match Json.get key request with
  | .string text =>
    match library.fromisoformat text with
    | none => .error "Original recovery request time evidence missing"
    | some time => .ok time
  | _ => .error "Original recovery request time evidence missing"

def authorization (library : Library) (request : Fields) (gate : Gate) (plan : Plan) :
    ExpiredAuthorization :=
  { requestIdentitySha256 := recoveryIdentity library request, generationId := gate.generationId
    planSha256 := library.planDigest plan
    originalGeneratedAt := Json.get "generated_at" request
    originalDeadlineAt := Json.get "deadline_at" request, gateStartedAt := gate.startedAt }

/-- `capture_recovery_generation` without a prior binding. -/
def captureRecoveryGeneration (library : Library) (request : Fields) (effectiveDatabase
    outputDir stateDir : String) (ownerHeld : Bool)
    (expiredAuthorization : Option ExpiredAuthorization) (journal : Journal) :
    Except String Binding := do
  require ownerHeld "Recovery generation binding requires verified shared owner"
  let (gate, plan) ← gateDocuments library request effectiveDatabase outputDir stateDir journal
  require (gate.state != "complete")
    "Complete recovery gate lacks prior generation binding; review required"
  let generatedAt ← parseTime library request "generated_at"
  let deadlineAt ← parseTime library request "deadline_at"
  require (decide (generatedAt ≤ plan.createdAt) && decide (plan.createdAt ≤ gate.startedAt))
    "Recovery generation is outside original publication request window"
  let identity := recoveryIdentity library request
  let owned := gate.requestIdentitySha256 == some identity &&
    plan.requestIdentitySha256 == some identity
  require (owned || (gate.requestIdentitySha256.isNone && plan.requestIdentitySha256.isNone))
    "Recovery generation request ownership differs"
  let reviewed := some (authorization library request gate plan)
  require (expiredAuthorization.isNone || expiredAuthorization == reviewed)
    "Expired generation authorization differs from immutable evidence"
  require (decide (gate.startedAt ≤ deadlineAt) || owned || expiredAuthorization == reviewed)
    "Recovery generation is outside original publication request window"
  pure
    { requestIdentitySha256 := identity, generationId := gate.generationId
      planPath := planPath (generationDir stateDir gate.generationId)
      planSha256 := library.planDigest plan
      observationSetSha256 := gate.observationSetSha256, workerDatabase := effectiveDatabase
      outputDir, stateDir, registrySha256 := Json.get "registry_sha256" request
      initialGateState := gate.state, expiryRecoveryAuthorization := expiredAuthorization
      requestOwnershipVerified := owned
      originalGeneratedAt := Json.get "generated_at" request
      originalDeadlineAt := Json.get "deadline_at" request }

/-- `validate_recovery_generation`, with the binding that the request carries: the
completed result, if the generation is complete. -/
def validateRecoveryGeneration (library : Library) (request : Fields)
    (binding : Option Binding) (effectiveDatabase outputDir stateDir : String)
    (journal : Journal) : Except String (Binding × Option Gate) := do
  match binding with
  | none => .error "Recovery request lacks matching immutable generation binding"
  | some binding =>
    require (binding.requestIdentitySha256 == recoveryIdentity library request &&
      (binding.initialGateState == "publishing" ||
        binding.initialGateState == "exporting") &&
      binding.workerDatabase == effectiveDatabase && binding.outputDir == outputDir &&
      binding.stateDir == stateDir &&
      binding.registrySha256 == Json.get "registry_sha256" request)
      "Recovery request lacks matching immutable generation binding"
    let (gate, plan) ←
      gateDocuments library request effectiveDatabase outputDir stateDir journal
    let root := generationDir stateDir gate.generationId
    require (gate.generationId == binding.generationId &&
      library.planDigest plan == binding.planSha256 && planPath root == binding.planPath &&
      gate.observationSetSha256 == binding.observationSetSha256)
      "Recovery generation changed since first binding"
    require (plan.publicationPolicy == optional "publication_policy" request)
      "Recovery publication policy differs from immutable plan"
    if gate.state == "complete" then
      match journal.results (resultPath root) with
      | none => .error "Publication binding changed or is unreadable"
      | some result =>
        require (result == gate && (result.receipt.map Receipt.status) == some "published" &&
          result.databaseTransactionsComplete)
          "Completed recovery generation receipt differs from gate"
        pure (binding, some result)
    else pure (binding, none)

/-- `capture_unstarted_publication`: the gate it proves the request unstarted by. -/
def captureUnstartedPublication (library : Library) (request : Fields) (stateDir : String)
    (ownerHeld : Bool) (journal : Journal) : Except String Gate := do
  require ownerHeld "Unstarted publication review requires shared owner"
  match journal.gate with
  | none => .error "Publication binding changed or is unreadable"
  | some gate =>
    let start ← parseTime library request "generated_at"
    match gate.receipt with
    | none => .error "Invalid isoformat string"
    | some receipt =>
      require (gate.state == "complete" && receipt.status == "published" &&
        gate.databaseTransactionsComplete && decide (receipt.completedAt < start) &&
        gate.requestIdentitySha256 != some (recoveryIdentity library request))
        "Gate does not prove publication remained unstarted"
      require (isGenerationId gate.generationId) "Invalid preceding generation"
      let root := generationDir stateDir gate.generationId
      require (gate.planPath == planPath root) "Preceding generation path differs"
      match journal.plans (planPath root), journal.results (resultPath root) with
      | some plan, some result =>
        require (result == gate && library.planDigest plan == gate.planSha256)
          "Preceding completed journal differs"
        pure gate
      | _, _ => .error "Publication binding changed or is unreadable"

/-- A run with `--execute` and a request: the arguments and what the files and databases
behind them hold, and how the checks end that look at nothing else. -/
structure Invocation where
  request : Fields
  binding : Option Binding
  workerDatabase : String
  registrySha256 : String
  outputDir : String
  stateDir : String
  sharedLock : String
  enabledSources : List Json
  /-- The run id of the storage lease, where there is one. -/
  lease : Option Json
  admission : Except String Unit
  runtimeContract : Except String Unit
  snapshotFiles : Except String Unit
  selectionCurrent : Except String Unit
  targets : Except String Unit
  survey : Except String Survey
  boundaryVerified : Except String Bool
  boundaryCurrent : Except String Bool
  preparation : Except String Unit
  lateBeforePreparation : Bool
  lateAfterPreparation : Bool
  uuid : String
  createdAt : Int
  startedAt : Int
  work : Work
  settlement : Except String Unit
  finalContract : Except String Unit

/-- The database that `validate_publication_snapshot` makes effective: the sealed snapshot
of the request, or the worker database. -/
def effectiveDatabase (run : Invocation) : Except String String := do
  require (Json.get "worker_database" run.request == .string run.workerDatabase)
    "Publication worker database path differs"
  match Json.get "publication_snapshot" run.request with
  | .null => pure run.workerDatabase
  | .object snapshot =>
    match Json.get "path" snapshot with
    | .string path => do
      require (path != run.workerDatabase)
        "Publication backup aliases the mutable worker database"
      pure path
    | _ => .error "path"
  | _ => .error "Malformed sealed publication snapshot binding"

/-- `_request`: the effective database of the checked request. -/
def checkRequest (run : Invocation) : Except String String := do
  require (Json.get "schema_version" run.request == .number "1" &&
    (Json.get "run_id" run.request).truthy) "Invalid publication request schema"
  require (Json.get "worker_database" run.request == .string run.workerDatabase)
    "Publication request path differs: worker_database"
  require (Json.get "shared_lock_path" run.request == .string run.sharedLock)
    "Publication request path differs: shared_lock_path"
  require (Json.get "registry_sha256" run.request == .string run.registrySha256)
    "Publication request registry differs"
  run.runtimeContract
  let database ← effectiveDatabase run
  run.snapshotFiles
  require (match Json.get "expected_source_ids" run.request with
    | .array sources => sources.length == run.enabledSources.length &&
        sources.all (run.enabledSources.contains ·)
    | _ => run.enabledSources.isEmpty) "Expected enabled source population differs"
  pure database

/-- The call of `publish_incremental` that a run makes. -/
def Invocation.call (run : Invocation) (library : Library) (database : String) : Call :=
  { workerDatabase := database, registrySha256 := run.registrySha256
    outputDir := run.outputDir, stateDir := run.stateDir, execute := true
    requestIdentity := some (recoveryIdentity library run.request)
    publicationPolicy := optional "publication_policy" run.request
    previousPublicationBoundary := optional "previous_publication_boundary" run.request
    publicationSelection := optional "publication_selection" run.request
    admission := run.admission, targets := run.targets, survey := run.survey
    boundaryVerified := run.boundaryVerified, preparation := run.preparation
    lateBeforePreparation := run.lateBeforePreparation
    lateAfterPreparation := run.lateAfterPreparation, uuid := run.uuid
    createdAt := run.createdAt, startedAt := run.startedAt, work := run.work
    settlement := run.settlement }

/-- What a run saves and prints. -/
structure Report where
  request : Fields
  status : String
  publication : Result
  publicationBoundary : Option Json
  readbackVerified : Bool
  pendingBacklogEmpty : Bool
  observationSetSha256 : Option String

def reportStatus (status : String) : String :=
  if status = "published" then "published"
  else if status = "no_changes" then "noop"
  else if status = "deferred" then "deferred"
  else "incomplete"

def keepBoundary (run : Invocation) (result : Result) : Except String Result := do
  match optional "previous_publication_boundary" run.request with
  | none => pure result
  | some boundary =>
    if result.status == "no_changes" then do
      if ← run.boundaryCurrent then
        pure { result with publicationBoundary := some boundary, readbackVerified := true }
      else pure result
    else pure result

/-- `Publisher returned a different recovery generation`. -/
def sameRecovery (recovery : Option Binding) (result : Result) : Except String Unit :=
  match recovery with
  | none => pure ()
  | some binding =>
    require (result.generationId == some binding.generationId &&
      result.observationSetSha256 == some binding.observationSetSha256)
      "Publisher returned a different recovery generation"

/-- The checks of a request that wants a bound generation recovered. -/
def recovery (library : Library) (run : Invocation) (database : String) (journal : Journal) :
    Except String (Option (Binding × Option Gate)) :=
  if Json.get "recover_publication" run.request == .bool true then do
    let validated ← validateRecoveryGeneration library run.request run.binding database
      run.outputDir run.stateDir journal
    pure (some validated)
  else pure none

/-- The completed result of a bound generation, or a publication. -/
def publish (library : Library) (run : Invocation) (database : String) :
    Option (Binding × Option Gate) → Durable Journal Result
  | some (_, some completed) =>
    match completed.receipt with
    | some receipt =>
      pure { completed.result receipt with reconciledCompletedGeneration := true }
    | none => .fail "Completed recovery generation receipt differs from gate"
  | _ => publishIncremental library (run.call library database)

def report (run : Invocation) (result : Result) : Report :=
  { request := run.request, status := reportStatus result.status, publication := result
    publicationBoundary := result.publicationBoundary
    readbackVerified := result.readbackVerified
    pendingBacklogEmpty := result.pendingBacklogEmpty
    observationSetSha256 := result.observationSetSha256 }

def checkLease (run : Invocation) : Except String Unit := do
  let policy := (optional "publication_policy" run.request).elim false Json.truthy
  require (policy == run.lease.isSome) "publication_policy_and_budget_lease_required_together"
  require (run.lease.isNone || run.lease == some (Json.get "run_id" run.request))
    "publication_budget_cycle_differs_from_request"

/-- `_run` with `--execute`, under the shared owner. -/
def runWorker (library : Library) (run : Invocation) : Durable Journal Report := do
  .examine fun _ => checkLease run
  let database ← .examine fun _ => checkRequest run
  .examine fun _ =>
    if (optional "publication_selection" run.request).isSome then run.selectionCurrent
    else pure ()
  let recovered ← .examine (recovery library run database)
  let result ← publish library run database recovered
  .examine fun _ => sameRecovery (recovered.map Prod.fst) result
  let result ← .examine fun _ => keepBoundary run result
  let reported := report run result
  .examine fun _ =>
    if reported.status == "published" || reported.status == "noop" then run.finalContract
    else pure ()
  pure reported

end JobAgg.LivePublication
