import JobAgg.SyncSource.ListPhase

/-! # The two pipelines

`sync_source` stores a listing as it is; `sync_source_with_selective_details`
fetches details first. The queue of the details, with its backlog table, decides
which vacancies are due; every decision is possible here.
-/

namespace JobAgg.SyncSource

open JobDatabase

/-- A run ends with the store as it is then, and its result unless it raises. -/
structure RunEnd where
  store : Store
  result : Except String SyncResult

/-- An exception that leaves a pipeline, with the database at that moment. -/
structure Raised where
  database : Database
  error : String

/-- What the backlog says of a listed vacancy. -/
inductive QueueDecision
  | notQueued
  | queued (coolingDown : Bool)

structure DetailQueue where
  /-- `_detail_refresh_priority`. -/
  priority : Database → JobRecord → ℕ
  /-- `_detail_queue_reason`, with the cooldown of the queued item. -/
  decide : Database → JobRecord → QueueDecision

structure DetailSettings where
  maxDetailPages : Option ℤ
  transientFailureLimit : Option ℤ
  failureCooldown : Option ℤ
  detailNoneIsTransient : Bool
  breakerState : String

structure DetailPhase where
  database : Database
  jobs : List JobRecord := []
  attempts : ℕ := 0
  failures : ℕ := 0
  skipped : ℕ := 0
  detailErrors : List String := []
  aborted : Bool := false
  transientFailures : ℕ := 0
  breakerOpened : Bool := false
  unavailable : ℕ := 0
  runErrors : List String := []

namespace Environment

variable (environment : Environment)

def optionalBool (value : Json) : Bool :=
  match value with
  | .bool flag => flag
  | .null => false
  | other =>
    (other.asText.map fun text => environment.casefold (environment.strip text)).any
      (· ∈ ["1", "true", "yes", "y", "on"])

/-- The first of the settings that reads as an integer. -/
def firstOptionalInt (extra : Raw) (keys : List String) : Option ℤ :=
  keys.findSome? fun key => environment.optionalInt (Json.get key extra)

/-- `_prepare_detail_breaker_for_run`: the state, and the limit of a probe. -/
def detailBreaker (store : Store) (sourceId : String) (now : Instant) : String × ℤ :=
  let engaged := ["detail", "transient_detail"].findSome? fun breakerType =>
    (store.sourceBreaker sourceId breakerType).filter fun breaker =>
      breaker.state == "open" || breaker.state == "half_open"
  match engaged with
  | none => ("closed", 0)
  | some breaker =>
    if breaker.state = "half_open" then ("half_open", 3)
    else if breaker.cooldownUntil.any fun deadline => decide (now < deadline) then ("open", 0)
    else ("half_open", 1)

def detailSettings (source : OrganizationSource) (breaker : String × ℤ) : DetailSettings where
  maxDetailPages :=
    let configured := environment.firstOptionalInt source.extra
      ["max_detail_pages_per_run", "max_detail_fetches_per_run", "detail_queue_max_per_run"]
    if breaker.1 = "open" then some 0
    else if breaker.1 = "half_open" then
      some (configured.elim breaker.2 fun pages => min pages breaker.2)
    else configured
  transientFailureLimit := environment.firstOptionalInt source.extra
    ["oracle_detail_stop_after_transient_failures", "detail_stop_after_transient_failures",
      "stop_after_transient_failures"]
  failureCooldown := environment.firstOptionalInt source.extra
    ["oracle_detail_failure_cooldown_seconds", "detail_failure_cooldown_seconds",
      "host_cooldown_seconds"]
  detailNoneIsTransient :=
    environment.optionalBool (Json.get "detail_none_is_transient" source.extra)
  breakerState := breaker.1

def listingPayloadSatisfiesDetail (source : OrganizationSource) (job : JobRecord) : Bool :=
  let filled := fun key =>
    let value := Json.get key job.raw
    value.truthy && value.asText.all fun text => environment.strip text != ""
  environment.optionalBool (Json.get "listing_payload_is_detail_complete" source.extra) &&
    (source.atsFamily != "oracle_hcm" ||
      ["ExternalDescriptionStr", "Description", "ExternalResponsibilitiesStr",
        "ExternalQualificationsStr"].any filled) &&
    environment.detailQualityStatus job == "complete"

def persistCompletedDetail (clock : Clock) (database : Database) (listingJob detailJob : JobRecord) :
    Except String Database := do
  require (environment.derivations.identityKey detailJob ==
    environment.derivations.identityKey listingJob) "detail identity does not match its listing"
  let (next, _) ← database.upsertJob environment.derivations (clock.upserted detailJob) detailJob
  return next

end Environment

/-- `_should_open_detail_adapter_breaker`; the ratio is compared exactly. -/
def shouldOpenDetailAdapterBreaker (detailAttempts detailFailures : ℕ) : Bool :=
  decide (3 ≤ detailAttempts) && decide (8 * detailAttempts ≤ 10 * detailFailures)

namespace DetailPhase

variable (environment : Environment) (settings : DetailSettings) (source : OrganizationSource)

/-- The vacancy is stored as it was listed. -/
def keep (phase : DetailPhase) (job : JobRecord) : DetailPhase :=
  { phase with jobs := phase.jobs ++ [job] }

def skip (phase : DetailPhase) (job : JobRecord) : DetailPhase :=
  { phase with skipped := phase.skipped + 1 }.keep job

def fail (phase : DetailPhase) (error : String) : DetailPhase :=
  { phase with failures := phase.failures + 1, detailErrors := phase.detailErrors ++ [error] }

def stopAtLimit (phase : DetailPhase) : DetailPhase :=
  match settings.transientFailureLimit with
  | none => phase
  | some limit =>
    if 0 < limit ∧ limit ≤ phase.transientFailures then
      let cooldown :=
        match settings.failureCooldown with
        | none => ""
        | some seconds =>
          if seconds = 0 then "" else s!"; host cooldown recommended for {seconds}s"
      { phase with
        aborted := true
        runErrors := phase.runErrors ++
          [s!"detail refresh stopped for {source.id}: " ++
            s!"{phase.transientFailures} transient failures reached limit {limit}" ++ cooldown] }
    else phase

def openBreaker (phase : DetailPhase) : DetailPhase :=
  if shouldOpenDetailAdapterBreaker (phase.attempts - phase.unavailable) phase.failures then
    { phase with
      breakerOpened := true
      aborted := true
      runErrors := phase.runErrors ++
        [s!"detail breaker opened for {source.id}: " ++
          s!"{phase.failures}/{phase.attempts} detail attempts failed"] }
  else phase

/-- The handler of any exception but an unavailable vacancy. -/
def failRaised (phase : DetailPhase) (job : JobRecord) (label : String) (error : RaisedError) :
    DetailPhase :=
  let failed := phase.fail s!"{label} detail refresh failed: {error.text}"
  if isTransientDetailError error then
    (stopAtLimit settings source
      { failed with transientFailures := failed.transientFailures + 1 }).keep job
  else (openBreaker source (stopAtLimit settings source failed)).keep job

def attempt (clock : Clock) (fetchDetail : ℕ → JobRecord → DetailOutcome) (phase : DetailPhase)
    (job : JobRecord) : DetailPhase :=
  let label := orText job.externalId (environment.derivations.identityKey job)
  let tried := { phase with attempts := phase.attempts + 1 }
  match fetchDetail phase.attempts job with
  | .none =>
    let failed := tried.fail s!"{label} detail refresh returned no detail"
    if settings.detailNoneIsTransient then
      (stopAtLimit settings source
        { failed with transientFailures := failed.transientFailures + 1 }).keep job
    else (openBreaker source failed).keep job
  | .fetched detail =>
    let quality := environment.detailQualityStatus detail
    if quality = "complete" then
      match environment.persistCompletedDetail clock tried.database job detail with
      | .ok database => { tried with database }
      | .error error => tried.failRaised settings source job label (environment.refusal error)
    else
      (openBreaker source (tried.fail (s!"{label} detail content quality is {quality}; " ++
        "leaving detail queued"))).keep job
  | .unavailable _ => { tried with unavailable := tried.unavailable + 1 }.keep job
  | .raised error => tried.failRaised settings source job label error

def turn (clock : Clock) (queue : DetailQueue)
    (fetchDetail : Option (ℕ → JobRecord → DetailOutcome)) (phase : DetailPhase)
    (job : JobRecord) : Except Raised DetailPhase :=
  match queue.decide phase.database job with
  | .notQueued => .ok (phase.keep job)
  | .queued coolingDown =>
    if environment.listingPayloadSatisfiesDetail source job then
      match environment.persistCompletedDetail clock phase.database job job with
      | .ok database => .ok { phase with database }
      | .error error => .error { database := phase.database, error }
    else
      match fetchDetail with
      | none => .ok (phase.skip job)
      | some fetchDetail =>
        if settings.breakerState = "open" ∨ phase.aborted = true ∨ coolingDown = true ∨
            settings.maxDetailPages.any (fun pages => decide (pages ≤ (phase.attempts : ℤ))) then
          .ok (phase.skip job)
        else .ok (phase.attempt environment settings source clock fetchDetail job)

def run (clock : Clock) (queue : DetailQueue)
    (fetchDetail : Option (ℕ → JobRecord → DetailOutcome)) (phase : DetailPhase)
    (jobs : List JobRecord) : Except Raised DetailPhase :=
  jobs.foldlM (turn environment settings source clock queue fetchDetail) phase

end DetailPhase

/-- The value of `_jobagg_listing_verification`. -/
def listingVerification (environment : Environment) (sourceId : String) (observedAt : Instant)
    (inventoryComplete : Option Bool) (seen : Bool) : Json :=
  .object
    [("version", .number "1"), ("source_id", .string sourceId),
      ("observed_at", .string (environment.isoFormat observedAt)),
      ("observed_in_latest_listing", .bool seen),
      ("inventory_complete", inventoryComplete.elim .null .bool),
      ("evidence_ref", .string "canonical_source_sync"),
      ("reason", .string (if seen then "observed" else "not_observed_in_latest_frame"))]

def recordListingObservation (environment : Environment) (sourceId : String)
    (observedJobKeys : List String) (observedAt : Instant) (inventoryComplete : Option Bool)
    (database : Database) : Database :=
  { database with
    jobs := updateWhere (·.sourceId == sourceId)
      (fun row => { row with
        raw := assign "_jobagg_listing_verification"
          (listingVerification environment sourceId observedAt inventoryComplete
            (decide (row.jobKey ∈ observedJobKeys))) row.raw })
      database.jobs }

/-- What both pipelines do last: store the jobs, note the observation, and retire
what is missing when the list allows it. -/
def storeListing (environment : Environment) (clock : Clock) (request : Request)
    (listed : Listed) (jobs : List JobRecord) (transitionAllowed : Bool) (result : SyncResult)
    (database : Database) : RunEnd :=
  let stored := database.upsertJobs environment.derivations
    (jobs.map fun job => (clock.upserted job, job))
  match stored with
  | .error error => { store := { listed.store with database }, result := .error error }
  | .ok database =>
    let observed := recordListingObservation environment listed.source.id listed.seenJobKeys
      clock.listed result.diagnostics.paginationComplete database
    let retired :=
      if transitionAllowed then
        (observed.closeConfiguredExcludedJobs listed.source.id
          (environment.exclusions listed.source)).markMissing listed.source.id
          listed.seenJobKeys request.missingRunThreshold clock.marked
      else observed
    { store := { listed.store with database := retired }
      result := .ok (SyncResult.finish { result with
        diagnostics := { result.diagnostics with
          missingTransitionAllowed := transitionAllowed } }) }

def syncSource (environment : Environment) (clock : Clock) (request : Request) (store : Store) :
    RunEnd :=
  match listPhase environment clock request id store with
  | .error (store, result) => { store, result := .ok result }
  | .ok listed =>
    storeListing environment clock request listed listed.jobs
      (listed.result.diagnostics.missingTransitionIsAllowed request.closeMissing listed.jobs)
      listed.result listed.store.database

def syncSourceWithSelectiveDetails (environment : Environment) (clock : Clock)
    (request : Request) (queue : DetailQueue) (store : Store) : RunEnd :=
  match listPhase environment clock request (assign "fetch_details" (.bool false)) store with
  | .error (store, result) => { store, result := .ok result }
  | .ok listed =>
    let listMissingTransitionAllowed :=
      listed.result.diagnostics.missingTransitionIsAllowed request.closeMissing listed.jobs
    let settings := environment.detailSettings listed.source
      (Environment.detailBreaker listed.store listed.source.id clock.listed)
    let prioritized := orderBy (queue.priority listed.store.database) listed.jobs
    let details := DetailPhase.run environment settings listed.source clock queue
      listed.fetchDetail { database := listed.store.database } prioritized
    match details with
    | .error raised =>
      { store := { listed.store with database := raised.database }
        result := .error raised.error }
    | .ok phase =>
      let result := { listed.result with
        vacanciesUnavailable := phase.unavailable
        errors := listed.result.errors ++ phase.runErrors }
      let detailed := result.applyDetailDiagnostics phase.attempts phase.failures
        phase.skipped phase.detailErrors environment.percent phase.breakerOpened
      storeListing environment clock request listed phase.jobs listMissingTransitionAllowed
        detailed phase.database

/-- The two entry points. -/
inductive Pipeline
  | syncSource
  | selectiveDetails (queue : DetailQueue)

namespace Pipeline

def listingExtra : Pipeline → Raw → Raw
  | syncSource => id
  | selectiveDetails _ => assign "fetch_details" (.bool false)

def run (environment : Environment) (clock : Clock) (request : Request) (store : Store) :
    Pipeline → RunEnd
  | syncSource => SyncSource.syncSource environment clock request store
  | selectiveDetails queue =>
    syncSourceWithSelectiveDetails environment clock request queue store

end Pipeline

end JobAgg.SyncSource
