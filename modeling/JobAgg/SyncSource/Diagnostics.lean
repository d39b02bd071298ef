import JobAgg.JobDatabase.JobRecord

/-! # Run diagnostics

What a sync of `sync_source.py` knows about the completeness of its listing, and
the rules that fill in, downgrade and read it. The empty string counts as absent
where the source says `or`.
-/

namespace JobAgg.SyncSource

open JobDatabase

structure SourceRunDiagnostics where
  sourceId : String
  pagesFetched : Option ℤ := none
  paginationComplete : Option Bool := none
  listErrorCount : ℤ := 0
  detailAttempted : ℕ := 0
  detailSucceeded : ℕ := 0
  detailFailed : ℕ := 0
  detailSkipped : ℕ := 0
  detailUnavailable : ℕ := 0
  emptyReason : Option String := none
  healthStatus : Option String := none
  runClassification : Option String := none
  publishabilityClassification : Option String := none
  blocked : Bool := false
  transientError : Bool := false
  listBreakerState : Option String := none
  scopeValidationStatus : Option String := none
  missingTransitionAllowed : Bool := false

structure SyncResult where
  fetched : ℕ := 0
  errors : List String := []
  diagnostics : SourceRunDiagnostics
  vacanciesUnavailable : ℕ := 0

/-- `value or default`. -/
def orText (value : Option String) (default : String) : String :=
  match value with
  | none => default
  | some text => if text = "" then default else text

/-- `part in text`. -/
def occursIn (part text : String) : Bool :=
  text.toList.tails.any (part.toList.isPrefixOf ·)

def verifiedEmptyReasons : List String :=
  ["verified_total_zero", "verified_structural_empty", "verified_text_empty"]

def missingAllowedHealth : List String := ["ok", "ok_empty"]

def transientRunMarkers : List String :=
  ["http 429", "too many requests", "http 500", "http 502", "http 503", "http 504",
    "service unavailable", "gateway timeout", "timed out", "timeout", "remote end closed",
    "remotedisconnected", "connection reset", "connection aborted", "connection refused",
    "temporarily unavailable", "incompleteread", "gaierror", "name or service not known",
    "nodename nor servname provided", "getaddrinfo failed",
    "temporary failure in name resolution"]

def blockedRunMarkers : List String :=
  ["http 401", "http 403", "forbidden", "blocked", "captcha"]

/-- A raised exception: its text, and its `repr` with the case folded. -/
structure RaisedError where
  text : String
  folded : String

def classifyRunFailure (error : Option RaisedError) : String :=
  let text := error.elim "" RaisedError.folded
  if blockedRunMarkers.any (occursIn · text) then "blocked"
  else if transientRunMarkers.any (occursIn · text) then "transient_error"
  else "parser_error"

def isTransientDetailError (error : RaisedError) : Bool :=
  if occursIn "http 401" error.folded || occursIn "http 403" error.folded ||
      occursIn "forbidden" error.folded then false
  else transientRunMarkers.any (occursIn · error.folded)

namespace SourceRunDiagnostics

def verifiedZeroFetch (diagnostics : SourceRunDiagnostics) : Bool :=
  diagnostics.emptyReason.any (· ∈ verifiedEmptyReasons)

def classificationFromHealth (diagnostics : SourceRunDiagnostics) : String :=
  if diagnostics.blocked then "blocked"
  else if diagnostics.transientError then "transient_error"
  else if diagnostics.healthStatus = some "ok_empty" then "ok_empty"
  else if diagnostics.healthStatus = some "ok" then "ok"
  else if diagnostics.healthStatus = some "degraded" ∨
      diagnostics.healthStatus = some "warning" then
    if diagnostics.detailFailed ≠ 0 then "detail_degraded" else "inconclusive"
  else if diagnostics.listErrorCount ≠ 0 then "parser_error"
  else "inconclusive"

/-- `_diagnostics_from_adapter`. -/
def fromAdapter (sourceId : String) (reported : Option SourceRunDiagnostics) :
    SourceRunDiagnostics :=
  let diagnostics := reported.getD { sourceId }
  { diagnostics with
    sourceId
    scopeValidationStatus := diagnostics.scopeValidationStatus.or (some "not_applicable") }

def markListFailure (diagnostics : SourceRunDiagnostics) (emptyReason : Option String)
    (classification : String) : SourceRunDiagnostics :=
  { diagnostics with
    listErrorCount := diagnostics.listErrorCount + 1
    healthStatus := some "issue"
    paginationComplete := some false
    missingTransitionAllowed := false
    runClassification := some classification
    blocked := classification == "blocked"
    transientError := classification == "transient_error"
    emptyReason := emptyReason.or diagnostics.emptyReason }

/-- `_missing_transition_allowed`. -/
def missingTransitionIsAllowed (diagnostics : SourceRunDiagnostics) (closeMissing : Bool)
    (jobs : List JobRecord) : Bool :=
  closeMissing && !diagnostics.blocked && !diagnostics.transientError &&
    !diagnostics.runClassification.any (· ∈
      ["blocked", "source_blocked", "transient_error", "inconclusive", "source_inconclusive",
        "parser_error", "source_parser_error", "source_adapter_broken"]) &&
    diagnostics.healthStatus.any (· ∈ missingAllowedHealth) &&
    diagnostics.paginationComplete == some true &&
    diagnostics.scopeValidationStatus.all (· ∈ ["passed", "not_applicable"]) &&
    (!jobs.isEmpty || diagnostics.verifiedZeroFetch)

end SourceRunDiagnostics

namespace SyncResult

def capJobsForPolicy (result : SyncResult) (maxJobsPerSource : ℤ) (jobs : List JobRecord) :
    SyncResult × List JobRecord :=
  if (jobs.length : ℤ) ≤ maxJobsPerSource then (result, jobs)
  else
    ({ result with
      errors := result.errors ++
        [s!"Adapter returned {jobs.length} jobs, above max_jobs_per_source={maxJobsPerSource}"]
      diagnostics := { result.diagnostics with
        listErrorCount := result.diagnostics.listErrorCount + 1
        paginationComplete := some false
        healthStatus := some "issue"
        runClassification := some "inconclusive"
        missingTransitionAllowed := false } },
      -- a negative slice bound counts from the end
      jobs.take (if maxJobsPerSource < 0 then jobs.length + maxJobsPerSource
        else maxJobsPerSource).toNat)

/-- What `_finalize_list_diagnostics` fills in for an adapter that does not say. -/
def defaultListDiagnostics (result : SyncResult) : SourceRunDiagnostics :=
  let reported := result.diagnostics
  { reported with
    pagesFetched :=
      if result.errors.isEmpty then reported.pagesFetched.or (some 1) else reported.pagesFetched
    paginationComplete :=
      if result.errors.isEmpty then reported.paginationComplete.or (some true)
      else reported.paginationComplete
    scopeValidationStatus := reported.scopeValidationStatus.or (some "not_applicable") }

/-- The health of a list, before its completeness is looked at. -/
def judgeList (diagnostics : SourceRunDiagnostics) (requiresVerification : Bool)
    (jobs : List JobRecord) : SourceRunDiagnostics :=
  if jobs.isEmpty then
    if diagnostics.verifiedZeroFetch then
      { diagnostics with
        healthStatus := some (orText diagnostics.healthStatus "ok_empty")
        runClassification := some (orText diagnostics.runClassification "ok_empty") }
    else if diagnostics.healthStatus.isNone then
      { diagnostics with
        healthStatus := some (if requiresVerification then "issue" else "warning")
        emptyReason := some (orText diagnostics.emptyReason "unverified_zero")
        runClassification := some "inconclusive" }
    else diagnostics
  else if diagnostics.healthStatus.isNone then
    { diagnostics with
      healthStatus := some "ok"
      runClassification := some (orText diagnostics.runClassification "ok") }
  else if diagnostics.runClassification.isNone then
    { diagnostics with runClassification := some diagnostics.classificationFromHealth }
  else diagnostics

def finalizeListDiagnostics (result : SyncResult) (sourceId : String)
    (requiresVerification : Bool) (jobs : List JobRecord) : SyncResult :=
  let diagnostics := judgeList result.defaultListDiagnostics requiresVerification jobs
  if diagnostics.paginationComplete = some false then
    { result with
      diagnostics := { diagnostics with
        healthStatus := some "issue"
        runClassification := some "inconclusive" }
      errors :=
        if result.errors.any (occursIn "pagination incomplete") then result.errors
        else result.errors ++ [s!"{sourceId}: pagination incomplete"] }
  else { result with diagnostics }

/-- An error that ends the list phase without a verified list. -/
def inconclusive (result : SyncResult) (error : String) : SyncResult :=
  { result with
    errors := result.errors ++ [error]
    diagnostics :=
      result.diagnostics.markListFailure (some "unverified_zero") "inconclusive" }

/-- `_apply_detail_diagnostics`; the ratios are compared exactly. -/
def applyDetailDiagnostics (result : SyncResult)
    (detailAttempts detailFailures detailSkipped : ℕ) (detailErrors : List String)
    (percent : ℕ → ℕ → String) (detailBreakerOpened : Bool) : SyncResult :=
  let evaluated := detailAttempts - result.vacanciesUnavailable
  let counted := { result.diagnostics with
    detailAttempted := detailAttempts
    detailFailed := detailFailures
    detailUnavailable := result.vacanciesUnavailable
    detailSucceeded := evaluated - detailFailures
    detailSkipped }
  if evaluated = 0 ∨ detailFailures = 0 then { result with diagnostics := counted }
  else
    let head := s!"detail refresh failed for {detailFailures}/{evaluated} jobs" ++
      s!" ({percent detailFailures evaluated})"
    let summary :=
      if detailErrors.isEmpty then head
      else head ++ ": " ++ "; ".intercalate (detailErrors.take 5)
    if detailBreakerOpened then
      { result with
        errors := result.errors ++ [summary]
        diagnostics := { counted with
          healthStatus := some "issue"
          runClassification := some "source_adapter_broken"
          publishabilityClassification := some "publishable_list_only" } }
    else if 20 * detailFailures < evaluated then
      { result with
        diagnostics := { counted with
          healthStatus := some (orText counted.healthStatus "ok")
          runClassification := some (orText counted.runClassification "ok") } }
    else
      { result with
        errors := result.errors ++ [summary]
        diagnostics := { counted with
          healthStatus := some (if 10 * detailFailures < 3 * evaluated then "degraded" else "issue")
          runClassification := some "detail_degraded"
          publishabilityClassification := some "publishable_detail_degraded" } }

/-- `_publishability_from_result`. -/
def publishability (result : SyncResult) : String :=
  let diagnostics := result.diagnostics
  let classification := orText diagnostics.runClassification diagnostics.classificationFromHealth
  let given := orText diagnostics.publishabilityClassification ""
  if given ≠ "" then given
  else if (classification = "ok" ∨ classification = "ok_empty") ∧ result.errors = [] then
    classification
  else if classification ∈ ["detail_degraded", "publishable_detail_degraded"] then
    "publishable_detail_degraded"
  else if classification ∈ ["source_adapter_broken", "adapter_failed"] then
    "publishable_list_only"
  else if classification ∈ ["blocked", "source_blocked"] then "source_blocked"
  else if classification ∈ ["parser_error", "source_parser_error"] then "source_parser_error"
  else if classification ∈ ["transient_error", "inconclusive", "source_inconclusive"] then
    "source_inconclusive"
  else if result.errors ≠ [] then "source_inconclusive"
  else if result.fetched = 0 ∧ diagnostics.verifiedZeroFetch = true then "ok_empty"
  else "ok"

/-- `_finish_result`. -/
def finish (result : SyncResult) : SyncResult :=
  let classified := { result with diagnostics := { result.diagnostics with
    runClassification := result.diagnostics.runClassification.or
      (some result.diagnostics.classificationFromHealth) } }
  { classified with diagnostics := { classified.diagnostics with
    publishabilityClassification :=
      classified.diagnostics.publishabilityClassification.or (some classified.publishability) } }

end SyncResult

end JobAgg.SyncSource
