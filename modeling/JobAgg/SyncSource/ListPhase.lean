import JobAgg.JobDatabase.JobDatabase
import JobAgg.SyncSource.Diagnostics

/-! # The list phase

What both pipelines of `sync_source.py` do before they store a vacancy: the list
breaker, the page caps, the adapter's listing, its exclusions and its
diagnostics. The adapter is a parameter.
-/

namespace JobAgg.SyncSource

open JobDatabase

structure OrganizationSource where
  id : String
  atsFamily : String
  extra : Raw := []

structure SyncPolicy where
  maxPagesPerSource : ℤ := 25
  maxJobsPerSource : ℤ := 1000

/-- What the language and other modules compute for a run. -/
structure Environment where
  derivations : Derivations
  casefold : String → String
  strip : String → String
  optionalInt : Json → Option ℤ
  isoFormat : Instant → String
  /-- `f"{failures / attempts:.0%}"`. -/
  percent : ℕ → ℕ → String
  detailQualityStatus : JobRecord → String
  /-- The exception of a refused upsert. -/
  refusal : String → RaisedError

structure Clock where
  started : Instant
  listed : Instant
  upserted : JobRecord → Instant
  marked : String → Instant

structure SourceBreaker where
  sourceId : String
  breakerType : String
  state : String
  failureCount : ℕ
  successCount : ℕ
  cooldownUntil : Option Instant
  lastReason : Option String

structure Store where
  database : Database
  breakers : List SourceBreaker := []

inductive DetailOutcome
  | none
  | fetched (detail : JobRecord)
  | unavailable (text : String)
  | raised (error : RaisedError)

structure AdapterRun where
  fetchJobs : Except RaisedError (List JobRecord)
  runDiagnostics : Option SourceRunDiagnostics := none
  /-- The answer to each detail request, when the adapter can fetch details. -/
  fetchDetail : Option (ℕ → JobRecord → DetailOutcome) := none

/-- The items that a `for` loop takes from a value of the configuration. -/
def configuredItems : Json → List Json
  | .array items => items
  | .object fields => fields.map fun field => .string field.1
  | .string text => text.toList.map fun letter => .string (String.ofList [letter])
  | _ => []

/-- `extra.get(first) or extra.get(second) or []`. -/
def configuredEither (extra : Raw) (first second : String) : List Json :=
  if (Json.get first extra).truthy then configuredItems (Json.get first extra)
  else configuredItems (Json.get second extra)

namespace Environment

variable (environment : Environment)

def configuredExcludedExternalIds (source : OrganizationSource) : List String :=
  (configuredEither source.extra "exclude_external_ids" "excluded_external_ids").filterMap
    fun value =>
      match value with
      | .null => none
      | .string text => if text = "" then none else some text
      | other => other.asText

def configuredExcludedTitles (source : OrganizationSource) : List String :=
  (configuredEither source.extra "exclude_titles" "excluded_titles").filterMap fun value =>
    (value.asText.map environment.strip).bind fun title =>
      if title = "" then none else some (environment.casefold title)

def exclusions (source : OrganizationSource) : Exclusions where
  externalIds := configuredExcludedExternalIds source
  titles := environment.configuredExcludedTitles source

def excludeConfiguredJobs (source : OrganizationSource) (jobs : List JobRecord) :
    List JobRecord :=
  jobs.filter fun job =>
    decide (job.externalId.getD "" ∉ configuredExcludedExternalIds source) &&
      decide (environment.casefold (environment.strip job.title) ∉
        environment.configuredExcludedTitles source)

def withListProbePageCap (source : OrganizationSource) : OrganizationSource :=
  { source with
    extra := assign "fallback_max_pages" (.number "1")
      (assign "max_pages" (.number "1")
        (assign "_list_probe_page_cap" (.bool true) source.extra)) }

def sourceWithPolicyPageCap (source : OrganizationSource) (policy : SyncPolicy) :
    OrganizationSource :=
  { source with
    extra := ["max_pages", "fallback_max_pages"].foldl (fun extra key =>
      let pages := (environment.optionalInt (Json.get key extra)).elim policy.maxPagesPerSource
        fun configured => min configured policy.maxPagesPerSource
      assign key (.number (toString pages)) extra) source.extra }

/-- `value or default` of two optional integers. -/
def firstNonZero (value : Option ℤ) (default : ℤ) : ℤ :=
  match value with
  | none => default
  | some number => if number = 0 then default else number

def listFailureCooldownMinutes (source : OrganizationSource) (repeated : Bool) : ℤ :=
  let repeatedValue :=
    environment.optionalInt (Json.get "repeated_failed_source_cooldown_minutes" source.extra)
  let failedValue :=
    environment.optionalInt (Json.get "failed_source_cooldown_minutes" source.extra)
  if source.id = "iom_oracle_hcm" then
    firstNonZero repeatedValue (if repeated then 12 * 60 else 6 * 60)
  else if repeated then firstNonZero repeatedValue 720
  else firstNonZero failedValue 360

end Environment

def emptyPolicyRequiresVerification (source : OrganizationSource) : Bool :=
  let mode :=
    match Json.get "empty_policy" source.extra with
    | .object policy =>
      if (Json.get "mode" policy).truthy then (Json.get "mode" policy).asText else none
    | policy => if policy.truthy then policy.asText else none
  mode.any (· ∈ ["verified_empty_required", "verified_structural_empty"])

namespace Store

def sourceBreaker (store : Store) (sourceId breakerType : String) : Option SourceBreaker :=
  store.breakers.find? fun breaker =>
    breaker.sourceId == sourceId && breaker.breakerType == breakerType

def setSourceBreaker (store : Store) (breaker : SourceBreaker) : Store :=
  { store with
    breakers :=
      if (store.sourceBreaker breaker.sourceId breaker.breakerType).isSome then
        updateWhere (fun old => old.sourceId == breaker.sourceId &&
          old.breakerType == breaker.breakerType) (fun _ => breaker) store.breakers
      else store.breakers ++ [breaker] }

/-- What `_prepare_list_breaker_for_run` answers. -/
structure ListBreaker where
  state : String
  skip : Bool

def prepareListBreakerForRun (store : Store) (sourceId : String) (now : Instant) :
    Store × ListBreaker :=
  let breaker := store.sourceBreaker sourceId "list"
  let state := breaker.elim "closed" fun breaker => orText (some breaker.state) "closed"
  let cooldownUntil := breaker.bind SourceBreaker.cooldownUntil
  if state = "open" ∧ (cooldownUntil.any fun deadline => decide (now < deadline)) = true then
    (store, { state := "open", skip := true })
  else if state = "open" then
    (store.setSourceBreaker {
      sourceId, breakerType := "list", state := "half_open"
      failureCount := breaker.elim 0 SourceBreaker.failureCount
      successCount := 0, cooldownUntil := none, lastReason := some "list breaker probe" },
      { state := "half_open", skip := false })
  else
    (store, { state := if state = "half_open" then "half_open" else "closed", skip := false })

/-- `_record_list_breaker_failure`; the state of the breaker goes to the diagnostics. -/
def recordListBreakerFailure (store : Store) (environment : Environment)
    (source : OrganizationSource) (diagnostics : SourceRunDiagnostics) (failureReason : String)
    (now : Instant) : Store × SourceRunDiagnostics :=
  let breaker := store.sourceBreaker source.id "list"
  let failureCount := breaker.elim 0 SourceBreaker.failureCount + 1
  let openImmediately := failureReason = "zero_fetched_without_verified_empty" ∧
    diagnostics.paginationComplete ≠ some true
  let threshold := if source.id = "iom_oracle_hcm" then 1 else 2
  let shouldOpen := openImmediately ∨ threshold ≤ failureCount
  let minutes := environment.listFailureCooldownMinutes source (decide (threshold < failureCount))
  let state := if shouldOpen then "open" else "closed"
  (store.setSourceBreaker {
      sourceId := source.id, breakerType := "list", state, failureCount, successCount := 0
      cooldownUntil := if shouldOpen then some (now + minutes * 60000000) else none
      lastReason := some failureReason },
    { diagnostics with listBreakerState := some state })

def recordListBreakerSuccess (store : Store) (source : OrganizationSource)
    (diagnostics : SourceRunDiagnostics) (jobs : List JobRecord) :
    Store × SourceRunDiagnostics :=
  let successfulProbe :=
    (Json.get "_list_probe_page_cap" source.extra).isTrue && !jobs.isEmpty &&
      diagnostics.pagesFetched == some 1 && diagnostics.paginationComplete == some false &&
      diagnostics.listErrorCount == 0 && !diagnostics.blocked && !diagnostics.transientError &&
      diagnostics.scopeValidationStatus.any (· ∈ ["passed", "not_applicable"]) &&
      diagnostics.runClassification == some "inconclusive"
  let healthyRun :=
    diagnostics.paginationComplete == some true &&
      diagnostics.scopeValidationStatus.all (· ∈ ["passed", "not_applicable"]) &&
      (!jobs.isEmpty || diagnostics.verifiedZeroFetch) &&
      diagnostics.runClassification.all (· ∈ ["ok", "ok_empty"])
  if healthyRun || successfulProbe then
    (store.setSourceBreaker {
        sourceId := source.id, breakerType := "list", state := "closed", failureCount := 0
        successCount := 1, cooldownUntil := none
        lastReason := some
          (if successfulProbe then "successful capped list probe" else "healthy list run") },
      { diagnostics with listBreakerState := some "closed" })
  else (store, diagnostics)

def hasActiveJobs (store : Store) (sourceId : String) : Bool :=
  store.database.jobs.any fun row => row.sourceId == sourceId && row.listed

end Store

def diagnosticsForSkippedList (sourceId state : String) : SourceRunDiagnostics where
  sourceId := sourceId
  healthStatus := some "issue"
  runClassification := some "inconclusive"
  publishabilityClassification := some "source_inconclusive"
  paginationComplete := some false
  listErrorCount := 1
  listBreakerState := some (orText (some state) "open")
  scopeValidationStatus := some "not_applicable"

/-- The arguments of a pipeline that do not change during its run. -/
structure Request where
  source : OrganizationSource
  policy : SyncPolicy
  closeMissing : Bool := true
  missingRunThreshold : ℤ := 3
  adapter : OrganizationSource → AdapterRun

structure Listed where
  store : Store
  source : OrganizationSource
  jobs : List JobRecord
  seenJobKeys : List String
  result : SyncResult
  fetchDetail : Option (ℕ → JobRecord → DetailOutcome)

def Request.boundedSource (request : Request) (environment : Environment) (state : String) :
    OrganizationSource :=
  let source :=
    if state = "half_open" then Environment.withListProbePageCap request.source
    else request.source
  environment.sourceWithPolicyPageCap source request.policy

/-- The list phase of both pipelines; an early return is an error of it. -/
def listPhase (environment : Environment) (clock : Clock) (request : Request)
    (listingExtra : Raw → Raw) (store : Store) : Except (Store × SyncResult) Listed :=
  let (store, breaker) := store.prepareListBreakerForRun request.source.id clock.started
  if breaker.skip then
    .error (store, SyncResult.finish {
      errors := [s!"{request.source.id}: list fetch skipped by circuit breaker"]
      diagnostics := diagnosticsForSkippedList request.source.id breaker.state })
  else
    let source := request.boundedSource environment breaker.state
    let run := request.adapter { source with extra := listingExtra source.extra }
    let reported := SourceRunDiagnostics.fromAdapter source.id run.runDiagnostics
    match run.fetchJobs with
    | .error error =>
      let failure := classifyRunFailure (some error)
      let (store, diagnostics) := store.recordListBreakerFailure environment source
        (reported.markListFailure none failure) failure clock.listed
      .error (store, SyncResult.finish { errors := [error.text], diagnostics })
    | .ok fetched =>
      let listed := environment.excludeConfiguredJobs source fetched
      let seenJobKeys := listed.map environment.derivations.identityKey
      let (capped, jobs) := SyncResult.capJobsForPolicy { diagnostics := reported }
        request.policy.maxJobsPerSource listed
      let finalized := SyncResult.finalizeListDiagnostics { capped with fetched := jobs.length }
        source.id (emptyPolicyRequiresVerification source) jobs
      let (store, diagnostics) :=
        store.recordListBreakerSuccess source finalized.diagnostics jobs
      let result := { finalized with diagnostics }
      let reject := fun error =>
        let rejected := result.inconclusive error
        let (store, diagnostics) := store.recordListBreakerFailure environment source
          rejected.diagnostics "zero_fetched_without_verified_empty" clock.listed
        Except.error (store, SyncResult.finish { rejected with diagnostics })
      if request.closeMissing && jobs.isEmpty && store.hasActiveJobs source.id &&
          !diagnostics.verifiedZeroFetch then
        reject (s!"{source.id}: zero jobs fetched for source with active jobs; " ++
          "skipping missing/closed marking")
      else if jobs.isEmpty && !diagnostics.verifiedZeroFetch &&
          emptyPolicyRequiresVerification source then
        reject s!"{source.id}: zero jobs fetched without verified empty evidence"
      else
        .ok { store, source, jobs, seenJobKeys, result, fetchDetail := run.fetchDetail }

end JobAgg.SyncSource
