import JobAgg.TerminalPublication.Controls

/-! # The classification of a run

`classify_run` of `terminal_publication.py`, with the checks of the original publication, of a
publication result and of a recovered generation. -/

namespace JobAgg.TerminalPublication

/-- `datetime.fromisoformat`, as an instant if it has a timezone, and the SHA-256 of the JSON
text of a dictionary with sorted keys -/
structure Library where
  fromisoformat : String → Option (Option ℤ)
  jsonSha256 : Fields → String

def publicationBindings : List String :=
  ["run_id", "source_manifest_sha256", "registry_sha256", "expected_source_ids",
    "worker_acceptance_path", "worker_acceptance_sha256", "worker_database",
    "worker_database_files"]

def requestBindings : List String :=
  publicationBindings ++ ["publication_snapshot", "publication_policy", "runtime_contract"]

def optionalBindings : List String :=
  ["publication_snapshot", "publication_policy", "recovery_generation_binding",
    "runtime_contract"]

variable (library : Library)

def clock (value : Json) : Except String ℤ :=
  match value with
  | .string text =>
    match library.fromisoformat text with
    | some (some instant) => .ok instant
    | some none => .error "timestamp has no timezone"
    | none => .error "invalid timestamp"
  | _ => .error "invalid timestamp"

def requestIdentity (request : Fields) : String :=
  library.jsonSha256 (requestBindings.filterMap fun key =>
    (lookup key request).map fun value => (key, value))

def snapshotPath (value : Json) (run : PurePath) : Except String Bool := do
  let path ← pathOf value
  return path == run.child "publication_snapshot.sqlite3" ||
    (path.name == "publication_snapshot.sqlite3" && path.parent.name == run.name)

def checkStatus (status : Json) (publication request : Fields) : Except String Unit := do
  if status = .string "published" then
    require (Json.get "state" publication == .string "complete" &&
      Json.get "status" publication == .string "published" &&
      Json.get "database_transactions_complete" publication == .bool true &&
      isGeneration ((lookup "generation_id" publication).getD (.string "")))
      "published generation is not complete"
  if status = .string "deferred" then
    require (Json.get "status" publication == .string "deferred" &&
      Json.get "generation_not_started" publication == .bool true &&
      !(Json.get "generation_id" publication).truthy &&
      !(Json.get "recover_publication" request).truthy &&
      !has "recovery_generation_binding" request) "deferred result lacks no-generation proof"
  if status = .string "noop" then
    require (Json.get "status" publication == .string "no_changes" &&
      Json.get "generation_not_started" publication == .bool true &&
      !(Json.get "generation_id" publication).truthy) "noop result claims a generation"

def validatePublishedResult (result request : Fields) (requestSha256 : String) (latest : ℤ) :
    Except String Unit := do
  require (isOne (Json.get "schema_version" result)) "invalid publication result"
  let expected ← sha (.string requestSha256)
  require (Json.get "publication_request_sha256" result == .string expected)
    "publication result request digest differs"
  require (optionalBindings.all fun key => has key result == has key request)
    "presence differs"
  require ((publicationBindings ++ optionalBindings.filter (has · request)).all fun key =>
    has key request && (Json.get key result).pythonEqual (Json.get key request))
    "publication result binding differs"
  let status := Json.get "status" result
  require (isAmong status ["published", "incomplete", "noop", "deferred"])
    "unrecognized publication status"
  let asked ← clock library (Json.get "generated_at" request)
  let generated ← clock library (Json.get "generated_at" result)
  require (decide (asked ≤ generated ∧ generated ≤ latest)) "publication result time differs"
  discard (sha (Json.get "observation_set_sha256" result))
  require (Json.get "whole_job_completeness_certified" result == .bool false)
    "publication cannot certify whole-job completeness"
  let publication ← objectOf (Json.get "publication" result) "missing inner publication receipt"
  checkStatus status publication request
  if has "recovery_generation_binding" request then
    let binding ← objectOf (Json.get "recovery_generation_binding" request)
      "publication returned another recovery generation"
    require ((Json.get "observation_set_sha256" result).pythonEqual
        (Json.get "observation_set_sha256" binding) &&
      (Json.get "generation_id" publication).pythonEqual (Json.get "generation_id" binding))
      "publication returned another recovery generation"

/-! ## The original publication -/

def isText : Json → Bool
  | .string text => text != ""
  | _ => false

/-- A list of distinct texts, none of them empty -/
def isSourceScope : Json → Bool
  | .array sources => !sources.isEmpty && sources.all isText && decide sources.Nodup
  | _ => false

def isCommand : Json → Bool
  | .array words => !words.isEmpty && words.all isText
  | _ => false

def checkRequest (run : PurePath) (request : Fields) : Except String Unit := do
  require (isOne (Json.get "schema_version" request) &&
    Json.get "run_id" request == .string run.name)
    "original publication request identity differs"
  require (!(Json.get "recover_publication" request).truthy &&
    !has "recovery_generation_binding" request) "original publication request is a recovery request"
  each (fun key => discard (sha (Json.get key request)))
    ["source_manifest_sha256", "registry_sha256", "worker_acceptance_sha256"]
  require (isSourceScope (Json.get "expected_source_ids" request)) "invalid publication source scope"
  let generated ← clock library (Json.get "generated_at" request)
  let deadline ← clock library (Json.get "deadline_at" request)
  require (decide (generated ≤ deadline)) "original request time window differs"
  require (isAmong (Json.get "worker_status" request) ["complete", "incomplete"])
    "worker status is not accepted"

def checkWorkerRequest (run : PurePath) (request worker : Fields) : Except String Unit := do
  let registry ← match lookup "source_registry" worker with
    | none => .ok []
    | some value => objectOf value "AttributeError"
  require (Json.get "run_id" worker == .string run.name &&
    (Json.get "source_manifest_sha256" worker).pythonEqual
      (Json.get "source_manifest_sha256" request) &&
    (Json.get "expected_source_ids" worker).pythonEqual (Json.get "expected_source_ids" request) &&
    (Json.get "sha256" registry).pythonEqual (Json.get "registry_sha256" request))
    "worker request publication binding differs"

def checkIntent (run : PurePath) (request intent : Fields) (requestSha256 : String) :
    Except String Unit := do
  require (Json.get "run_id" intent == .string run.name &&
    Json.get "request_sha256" intent == .string requestSha256)
    "original publication intent binding differs"
  discard (sha (Json.get "config_sha256" intent))
  require (isCommand (Json.get "command_template" intent)) "intent command binding missing"
  discard (pathOf (Json.get "cwd" intent))
  let created ← clock library (Json.get "created_at" intent)
  let generated ← clock library (Json.get "generated_at" request)
  require (decide (generated ≤ created)) "intent predates publication request"

/-- The files of the worker database, with the snapshot they are bound to -/
def checkDatabase (run : PurePath) (request acceptance : Fields) (acceptanceSha256 : String) :
    Except String Unit := do
  let workerDatabase ← pathOf (Json.get "worker_database" request)
  let same ← samePath (Json.get "database" acceptance) workerDatabase
  require same "acceptance worker database differs"
  let files ← match Json.get "worker_database_files" request with
    | .array (file :: files) => .ok (file :: files)
    | _ => .error "worker database file binding missing"
  each (fun file => do
    let record ← objectOf file "invalid worker database file binding"
    discard (pathOf (Json.get "path" record))
    discard (sha (Json.get "sha256" record))) files
  if has "publication_snapshot" request then
    let snapshot ← objectOf (Json.get "publication_snapshot" request)
      "publication snapshot metadata differs"
    let placed ← snapshotPath (Json.get "path" snapshot) run
    let backed ← samePath (Json.get "source_database" snapshot) workerDatabase
    require (isOne (Json.get "schema_version" snapshot) &&
      isAmong (Json.get "kind" snapshot) ["sqlite_backup", "sqlite_publication_projection"] &&
      placed && backed &&
      Json.get "worker_acceptance_sha256" snapshot == .string acceptanceSha256 &&
      (intOf (Json.get "size_bytes" snapshot)).any (0 ≤ ·)) "publication snapshot metadata differs"
    discard (sha (Json.get "sha256" snapshot))
    require ((Json.array files).pythonEqual (.array [.object [("path", Json.get "path" snapshot),
      ("sha256", Json.get "sha256" snapshot)]])) "publication snapshot file binding differs"
  else
    let paths := files.map fun file => file.asObject.map (Json.get "path")
    require (paths == [some (.string workerDatabase.text)] ||
      paths == [some (.string workerDatabase.text), some (.string (workerDatabase.text ++ "-wal"))])
      "legacy worker database file binding differs"

def validateOriginal (run : PurePath) (outcome request : Fields) : Reading Unit := do
  Demand.ofExcept (checkRequest library run request)
  let worker ← Demand.read (run.child "request.json")
  Demand.ofExcept (checkWorkerRequest run request worker.value)
  let intent ← Demand.read (run.child "publication_intent.json")
  let original ← Demand.read (run.child "publication_request.json")
  Demand.ofExcept (checkIntent library run request intent.value original.sha256)
  let same ← Demand.ofExcept (samePath (Json.get "worker_acceptance_path" request)
    (run.child "acceptance.json"))
  .check same "acceptance path differs"
  let acceptance ← Demand.read (run.child "acceptance.json")
  .check (Json.get "worker_acceptance_sha256" request == .string acceptance.sha256 &&
    Json.get "worker_report_sha256" outcome == .string acceptance.sha256)
    "acceptance digest differs"
  .check (isOne (Json.get "schema_version" acceptance.value) &&
    Json.get "run_id" acceptance.value == .string run.name &&
    (Json.get "source_manifest_sha256" acceptance.value).pythonEqual
      (Json.get "source_manifest_sha256" request)) "acceptance identity differs"
  Demand.ofExcept (checkDatabase run request acceptance.value acceptance.sha256)

/-! ## Recovered generations -/

def generationsDir (root : PurePath) : PurePath :=
  (root.child "deterministic-live-publication").child "generations"

def nameOf (value : Json) : Except String String :=
  match value with
  | .string text => .ok text
  | _ => .error "TypeError"

def checkAuthorization (binding authorization : Fields) : Except String Unit := do
  require (isOne (Json.get "schema_version" authorization) &&
    Json.get "kind" authorization == .string "reviewed_expired_publication" &&
    ["request_identity_sha256", "generation_id", "plan_sha256", "original_generated_at",
      "original_deadline_at"].all fun key =>
        (Json.get key authorization).pythonEqual (Json.get key binding))
    "expired recovery authorization differs"
  discard (clock library (Json.get "gate_started_at" authorization))

def validateGenerationBinding (run : PurePath) (request binding publication : Fields) :
    Except String Unit := do
  let root ← run.thirdParent
  require (isGeneration (Json.get "generation_id" binding)) "invalid recovery generation ID"
  let generation ← nameOf (Json.get "generation_id" binding)
  let expectedPlan := ((generationsDir root).child generation).child "plan.json"
  let snapshot ← match lookup "publication_snapshot" request with
    | none => .ok []
    | some value => objectOf value "AttributeError"
  let effective ← pathOf ((lookup "path" snapshot).getD (Json.get "worker_database" request))
  let database ← samePath (Json.get "worker_database" binding) effective
  let output ← samePath (Json.get "output_dir" binding) (root.child "output")
  let state ← samePath (Json.get "state_dir" binding) (root.child "deterministic-live-publication")
  let plan ← samePath (Json.get "plan_path" binding) expectedPlan
  require (isOne (Json.get "schema_version" binding) &&
    Json.get "kind" binding == .string "existing_publication_generation" &&
    Json.get "request_identity_sha256" binding == .string (requestIdentity library request) &&
    isAmong (Json.get "initial_gate_state" binding) ["publishing", "exporting"] &&
    database && output && state && plan &&
    (Json.get "registry_sha256" binding).pythonEqual (Json.get "registry_sha256" request) &&
    (Json.get "original_generated_at" binding).pythonEqual (Json.get "generated_at" request) &&
    (Json.get "original_deadline_at" binding).pythonEqual (Json.get "deadline_at" request) &&
    (match Json.get "request_ownership_verified" binding with | .bool _ => true | _ => false) &&
    has "expiry_recovery_authorization" binding) "recovery generation immutable binding differs"
  discard (sha (Json.get "plan_sha256" binding))
  discard (sha (Json.get "observation_set_sha256" binding))
  let recovered ← samePath (Json.get "plan_path" publication) expectedPlan
  require ((Json.get "generation_id" publication).pythonEqual (.string generation) &&
    (Json.get "plan_sha256" publication).pythonEqual (Json.get "plan_sha256" binding) &&
    recovered && (Json.get "observation_set_sha256" publication).pythonEqual
      (Json.get "observation_set_sha256" binding))
    "recovered generation publication binding differs"
  let authorization := Json.get "expiry_recovery_authorization" binding
  if authorization ≠ .null then
    let authorization ← objectOf authorization "expired recovery authorization differs"
    checkAuthorization library binding authorization

/-! ## The classification -/

inductive Verdict
  | active
  | unresolved
  | terminal (kind : String)
  deriving DecidableEq

/-- The options of `classify_run`, and what the clock says -/
structure Options where
  allowMissingGenerationResult : Bool := false
  allowUnfinishedNoWriteState : Bool := false
  latest : ℤ

/-- The controls that may be missing -/
structure Evidence where
  outcome : Option Control
  state : Option Control
  originalResult : Option Control
  binding : Option Control

def refuseUnless (condition : Bool) (message : String) : Flow Unit :=
  .ofExcept (require condition (.raised message))

def checked {Result : Type} (outcome : Except String Result) : Flow Result :=
  .ofExcept (outcome.mapError .raised)

def stop {Result : Type} (path : PurePath) : Flow Result := .ofExcept (.error (.missing path))

def generation (value : Json) : Flow Unit := do
  if value ≠ .null then
    refuseUnless (isGeneration value) "invalid referenced generation ID"
    Logged.note fun report =>
      if report.generationIds.any (value.pythonEqual ·) then report
      else { report with generationIds := report.generationIds ++ [value] }

def deficit (path : PurePath) (code : String) : Flow Unit :=
  .note fun report => { report with knownDeficits := report.knownDeficits ++ [(code, path)] }

def publicationOf (result : Fields) : Except String Fields :=
  match lookup "publication" result with
  | none => .ok []
  | some value => objectOf value "invalid publication reference"

def isRunning (document : Option Control) : Bool :=
  document.any fun control => Json.get "status" control.value == .string "running"

def ofRun (run : PurePath) (document : Option Control) : Bool :=
  document.all fun control => Json.get "run_id" control.value == .string run.name

/-- `answer["result"]` and the generation of a publication result -/
def noteResult (originalResult : Option Control) : Flow Unit :=
  match originalResult with
  | none => pure ()
  | some result => do
    Logged.note fun report => { report with result := some result.value }
    let publication ← checked (publicationOf result.value)
    generation (Json.get "generation_id" publication)

def noteBinding (binding : Option Control) : Flow Unit :=
  match binding with
  | none => pure ()
  | some control => generation (Json.get "generation_id" control.value)

/-- The optional controls that are read first -/
def opening (fileSystem : FileSystem) (run : PurePath) : Flow Evidence := do
  let outcome ← look fileSystem (run.child "outcome.json")
  let state ← look fileSystem (run.child "state.json")
  refuseUnless (ofRun run outcome && ofRun run state) "run identity differs"
  let originalResult ← look fileSystem (run.child "publication_result.json")
  noteResult originalResult
  let binding ← look fileSystem (run.child "publication_generation_binding.json")
  noteBinding binding
  return { outcome, state, originalResult, binding }

def isDirect (outcome : Fields) : Except String Bool :=
  let status := Json.get "status" outcome
  let published := Json.get "publication_status" outcome
  match status, published with
  | .array _, _ | .object _, _ => .error "TypeError"
  | .string _, .array _ | .string _, .object _ =>
    if isAmong status ["complete", "incomplete"] then .error "TypeError" else .ok false
  | _, _ => .ok (isAmong status ["complete", "incomplete"] &&
      isAmong published ["published", "noop"] &&
      Json.get "publication_recovery_allowed" outcome == .bool false)

def settleDirect (options : Options) (run : PurePath) (evidence : Evidence)
    (outcome request : Control) (resolution noWrite : Option Control) : Flow Verdict := do
  refuseUnless (resolution.isNone && noWrite.isNone && evidence.binding.isNone)
    "direct terminal run has recovery controls"
  match evidence.originalResult with
  | none => stop (run.child "publication_result.json")
  | some result =>
    refuseUnless (Json.get "publication_result_sha256" outcome.value == .string result.sha256)
      "outcome result hash differs"
    checked (validatePublishedResult library result.value request.value request.sha256
      options.latest)
    refuseUnless ((Json.get "status" result.value).pythonEqual
      (Json.get "publication_status" outcome.value)) "outcome publication status differs"
    refuseUnless (evidence.state.all fun state => ["status", "publication_status",
      "publication_recovery_allowed", "publication_result_sha256"].all fun key =>
        (Json.get key state.value).pythonEqual (Json.get key outcome.value))
      "terminal state differs from outcome"
    let kind ← checked (nameOf (Json.get "status" result.value))
    return .terminal kind

def namesNoGeneration (originalResult : Option Control) : Except String Unit :=
  match originalResult with
  | none => .ok ()
  | some result => do
    let publication ← publicationOf result.value
    require (!(Json.get "generation_id" publication).truthy)
      "no-write resolution contradicts original generation"

def priorGate (request proof : Fields) : Except String Fields := do
  let gate ← objectOf (Json.get "prior_gate" proof) "prior gate does not prove unstarted publication"
  let completed ← clock library (Json.get "completed_at" gate)
  let generated ← clock library (Json.get "generated_at" request)
  require (Json.get "state" gate == .string "complete" &&
    Json.get "status" gate == .string "published" &&
    Json.get "database_transactions_complete" gate == .bool true &&
    Json.get "request_identity_sha256" gate != .string (requestIdentity library request) &&
    decide (completed < generated)) "prior gate does not prove unstarted publication"
  discard (sha (Json.get "prior_gate_sha256" proof))
  return gate

def notePending (pending : Bool) : Flow Unit :=
  .note fun report => if pending then { report with noWriteStatePending := true } else report

/-- The proof that a publication never started -/
def settleNoWrite (fileSystem : FileSystem) (run : PurePath) (evidence : Evidence)
    (request noWrite : Control) (pending : Bool) : Flow Verdict := do
  let intent ← need fileSystem (run.child "publication_intent.json")
  refuseUnless (evidence.binding.isNone && (pending || evidence.state.any fun state =>
      Json.get "publication_status" state.value == .string "deferred" &&
      Json.get "generation_not_started" state.value == .bool true &&
      Json.get "worker_reexecuted" state.value == .bool false) &&
    Json.get "original_request_sha256" noWrite.value == .string request.sha256 &&
    Json.get "original_intent_sha256" noWrite.value == .string intent.sha256)
    "no-write resolution differs"
  checked (namesNoGeneration evidence.originalResult)
  let proof ← checked (objectOf (Json.get "proof" noWrite.value) "no-write proof differs")
  refuseUnless (isOne (Json.get "schema_version" proof) &&
    Json.get "kind" proof == .string "verified_unstarted_publication" &&
    Json.get "request_identity_sha256" proof == .string (requestIdentity library request.value) &&
    Json.get "generation_not_started" proof == .bool true) "no-write proof differs"
  let gate ← checked (priorGate library request.value proof)
  generation (Json.get "generation_id" gate)
  refuseUnless (Json.get "generation_id" gate != .null) "prior gate lacks generation"
  let root ← checked run.thirdParent
  let name ← checked (nameOf (Json.get "generation_id" gate))
  let prior := (generationsDir root).child name
  let (planPath, plan) ← (reference (Json.get "prior_plan" proof) none
    (some (prior.child "plan.json"))).on fileSystem
  let (_, priorResult) ← (reference (Json.get "prior_result" proof) none
    (some (prior.child "result.json"))).on fileSystem
  let same ← checked (samePath (Json.get "plan_path" gate) planPath)
  refuseUnless (same && Json.get "plan_sha256" gate == .string plan.sha256 &&
    (Json.object priorResult.value).pythonEqual (.object gate))
    "prior gate/plan/result binding differs"
  notePending pending
  return .terminal "verified_unstarted"

def checkRecovery (requestPath : PurePath) (request recovery : Fields) (requestSha256 : String)
    (intentSha256 : String) : Except String Unit := do
  require (Json.get "recover_publication" recovery == .bool true &&
    (Json.get "original_publication_request" recovery).pythonEqual
      (.object [("path", .string requestPath.text), ("sha256", .string requestSha256)]) &&
    Json.get "original_publication_intent_sha256" recovery == .string intentSha256)
    "recovery original intent differs"
  require (requestBindings.all fun key => has key recovery == has key request &&
    (Json.get key recovery).pythonEqual (Json.get key request)) "recovery original binding differs"
  let recovered ← clock library (Json.get "generated_at" recovery)
  let generated ← clock library (Json.get "generated_at" request)
  require (decide (generated ≤ recovered)) "recovery request predates original"

def settleRecovered (options : Options) (fileSystem : FileSystem) (run : PurePath)
    (evidence : Evidence) (request resolution state : Control) : Flow Verdict := do
  refuseUnless (Json.get "publication_status" state.value == .string "published" &&
    Json.get "publication_resolution_sha256" state.value == .string resolution.sha256)
    "recovered final state resolution differs"
  let (_, recovery) ← (reference (Json.get "request" resolution.value) (some run) none).on fileSystem
  let (_, result) ← (reference (Json.get "result" resolution.value) (some run) none).on fileSystem
  Logged.note fun report => { report with result := some result.value }
  let intent ← need fileSystem (run.child "publication_intent.json")
  checked (checkRecovery library (run.child "publication_request.json") request.value recovery.value
    request.sha256 intent.sha256)
  match evidence.binding with
  | none => stop (run.child "publication_generation_binding.json")
  | some binding =>
    refuseUnless ((Json.get "recovery_generation_binding" recovery.value).pythonEqual
      (.object binding.value)) "recovery generation control differs"
    checked (validatePublishedResult library result.value recovery.value recovery.sha256
      options.latest)
    refuseUnless (Json.get "status" result.value == .string "published")
      "recovered publication is not published"
    let publication ← checked (objectOf (Json.get "publication" result.value) "TypeError")
    generation (Json.get "generation_id" publication)
    checked (validateGenerationBinding library run request.value binding.value publication)
    let root ← checked run.thirdParent
    let name ← checked (nameOf (Json.get "generation_id" binding.value))
    let path := ((generationsDir root).child name).child "result.json"
    match ← look fileSystem path with
    | none =>
      deficit path "missing_generation_result"
      if options.allowMissingGenerationResult then return .terminal "recovered_published"
      else return .unresolved
    | some generationResult =>
      refuseUnless ((Json.object generationResult.value).pythonEqual (.object publication))
        "recovered hot generation result differs"
      return .terminal "recovered_published"

def checkResolvedState (pending : Bool) (run : PurePath) (state : Option Control) : Flow Unit :=
  match pending, state with
  | true, _ => pure ()
  | false, none => stop (run.child "state.json")
  | false, some state =>
    refuseUnless (isAmong (Json.get "status" state.value) ["complete", "incomplete"] &&
      Json.get "publication_recovery_allowed" state.value == .bool false)
      "resolved run state is not terminal"

def settleResolved (options : Options) (fileSystem : FileSystem) (run : PurePath)
    (evidence : Evidence) (outcome request : Control) (resolution noWrite : Option Control) :
    Flow Verdict := do
  refuseUnless (isAmong (Json.get "publication_status" outcome.value)
    ["unknown_requires_review_no_replay", "incomplete"])
    "resolution has no unresolved original publication"
  refuseUnless ((resolution.or noWrite).any fun selected =>
      Json.get "run_id" selected.value == .string run.name &&
      Json.get "previous_outcome_sha256" selected.value == .string outcome.sha256)
    "resolution original outcome differs"
  let pending := options.allowUnfinishedNoWriteState && noWrite.isSome &&
    evidence.state.all fun state => (Json.object state.value).pythonEqual (.object outcome.value)
  checkResolvedState pending run evidence.state
  match noWrite, resolution, evidence.state with
  | some noWrite, _, _ => settleNoWrite library fileSystem run evidence request noWrite pending
  | none, some resolution, some state =>
    settleRecovered library options fileSystem run evidence request resolution state
  | none, _, _ => checked (.error "AttributeError")

def isTruthy (document : Option Control) : Bool :=
  document.any fun control => !control.value.isEmpty

def settle (options : Options) (fileSystem : FileSystem) (run : PurePath) (evidence : Evidence)
    (outcome : Control) : Flow Verdict := do
  let request ← need fileSystem (run.child "publication_request.json")
  (validateOriginal library run outcome.value request.value).on fileSystem
  let resolution ← look fileSystem (run.child "publication_resolution.json")
  let noWrite ← look fileSystem (run.child "publication_no_write_resolution.json")
  refuseUnless (!(isTruthy resolution && isTruthy noWrite))
    "conflicting recovery and no-write resolutions"
  let direct ← checked (isDirect outcome.value)
  if direct then settleDirect library options run evidence outcome request resolution noWrite
  else if resolution.isNone && noWrite.isNone then
    deficit (run.child "publication_resolution.json") "unresolved_publication"
    return .unresolved
  else settleResolved library options fileSystem run evidence outcome request resolution noWrite

def decideRun (options : Options) (fileSystem : FileSystem) (run : PurePath) : Flow Verdict := do
  let evidence ← opening fileSystem run
  if isRunning evidence.outcome || isRunning evidence.state then return .active
  match evidence.outcome with
  | none => stop (run.child "outcome.json")
  | some outcome => settle library options fileSystem run evidence outcome

/-- The answer of `classify_run` -/
structure Classification where
  verdict : Verdict
  report : Report

def classifyRun (options : Options) (fileSystem : FileSystem) (run : PurePath) :
    Except String Classification :=
  match decideRun library options fileSystem run {} with
  | (.ok verdict, report) => .ok ⟨verdict, report⟩
  | (.error (.missing path), report) => .ok ⟨.unresolved, { report with
      knownDeficits := report.knownDeficits ++ [("missing_control", path)] }⟩
  | (.error (.raised message), _) => .error message

end JobAgg.TerminalPublication
