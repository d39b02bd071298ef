import JobAgg.PublicationWork.PublicationWork

/-! # Selection and acknowledgement

`select` of `publication_work.py` reads a bounded batch of pending units, and
`acknowledge` clears the versions of a batch that were processed. What `select`
measures outside the dirty tables (sizes of files and jobs, integrity holds, the
deadline) is handed to it as an environment.
-/

namespace JobAgg.PublicationWork

structure AdmissionPolicy where
  maxCandidates : ℕ
  maxUnits : ℕ
  maxSources : ℕ
  maxTargets : ℕ
  maxBytes : ℕ
  minimumSeconds : ℚ
  measurementSha256 : String

structure Environment where
  /-- The reason of the integrity hold on a source or a unit. -/
  hold : String → String → Except String (Option String)
  sourcePaths : List (String × String)
  sharedPath : String
  /-- An accepted listing that does not resolve raises. -/
  unitBytes : CurrentRow → Except String ℕ
  targetBytes : String → ℕ
  /-- The deadline leaves too little time for the candidate at an index. -/
  expired : ℕ → Bool
  now : ℚ

def Environment.path (environment : Environment) (sourceId : String) : Option String :=
  (environment.sourcePaths.find? fun entry => entry.1 == sourceId).map Prod.snd

structure HeldUnit where
  unit : String
  version : ℕ
  reason : String
  estimatedBytes : Option ℕ := none

structure Selection where
  epoch : String
  contractSha256 : String
  units : List CurrentRow
  held : List HeldUnit
  sourceIds : List String
  targetPaths : List String
  estimatedBytes : ℕ
  candidateCount : ℕ
  policy : AdmissionPolicy

structure Progress where
  chosen : List CurrentRow := []
  sources : List String := []
  targets : List String := []
  total : ℕ := 0
  held : List HeldUnit := []

def Progress.hold (progress : Progress) (row : CurrentRow) (reason : String)
    (estimatedBytes : Option ℕ := none) : Progress :=
  { progress with
    held := progress.held ++
      [{ unit := row.unit, version := row.version, reason, estimatedBytes }] }

/-- What the loop of `select` does with one candidate. -/
def Progress.visit (progress : Progress) (policy : AdmissionPolicy)
    (environment : Environment) (row : CurrentRow) : Except String Progress := do
  match ← environment.hold row.sourceId row.unit with
  | some reason => return progress.hold row ("scoped_integrity_hold: " ++ reason)
  | none =>
  match environment.path row.sourceId, row.kind with
  | none, _ => return progress.hold row "unknown_or_disabled_scope_requires_review"
  | some _, .unknown => return progress.hold row "unknown_or_disabled_scope_requires_review"
  | some path, _ =>
    if row.sourceId ∉ progress.sources ∧ policy.maxSources ≤ progress.sources.length then
      return progress
    match environment.unitBytes row with
    | .error _ =>
      return progress.hold row "accepted_listing_dependency_requires_reconciliation"
    | .ok unitBytes =>
      let paths := if path = environment.sharedPath then [path] else [path, environment.sharedPath]
      let added := paths.filter fun target => decide (target ∉ progress.targets)
      let estimate := unitBytes + (added.map environment.targetBytes).sum
      if policy.maxBytes < estimate then
        return progress.hold row "oversized_unit_requires_reviewed_measured_path" (some estimate)
      if policy.maxTargets < paths.length then
        return progress.hold row "destination_fanout_exceeds_reviewed_bound"
      if policy.maxTargets < progress.targets.length + added.length ∨
          policy.maxBytes < progress.total + estimate then
        return progress
      return { progress with
        chosen := progress.chosen ++ [row]
        sources := if row.sourceId ∈ progress.sources then progress.sources
          else progress.sources ++ [row.sourceId]
        targets := progress.targets ++ added
        total := progress.total + estimate }

/-- The loop stops at the deadline, or when a choice has filled the batch. -/
def Progress.run (policy : AdmissionPolicy) (environment : Environment) :
    ℕ → Progress → List CurrentRow → Except String Progress
  | _, progress, [] => .ok progress
  | index, progress, row :: rows =>
    if environment.expired index then .ok progress
    else do
      let next ← progress.visit policy environment row
      if progress.chosen.length < next.chosen.length ∧ policy.maxUnits ≤ next.chosen.length then
        return next
      else Progress.run policy environment (index + 1) next rows

namespace Store

def pendingOf (store : Store) (sourceId : String) : List CurrentRow :=
  oldestFirst ((store.withDisposition .pending).filter fun row => row.sourceId == sourceId)

/-- The sources with pending work: least recently served first, then oldest. -/
def cohortOrder (store : Store) (sources : List String) : List String :=
  let cohorts := (sources ++ ["*"]).filterMap fun source =>
    (store.pendingOf source).head?.map fun first =>
      let served := ((store.cohorts.find? fun entry => entry.1 == source).map Prod.snd).getD 0
      (served, first.firstChangedAt, source)
  (orderBy (fun (served, first, source) => toLex (served, toLex (first, source))) cohorts).map
    fun (_, _, source) => source

/-- The candidates, cohort by cohort, up to the bound. -/
def candidates (store : Store) (policy : AdmissionPolicy) (sources : List String) :
    List CurrentRow :=
  (store.cohortOrder sources).foldl
    (fun rows source =>
      rows ++ (((store.pendingOf source).filter fun row =>
        store.versions.any (·.version == row.version)).take (policy.maxCandidates - rows.length)))
    []

def select (store : Store) (policy : AdmissionPolicy) (contractSha256 : String)
    (environment : Environment) : Except String Selection := do
  require (isSha256 policy.measurementSha256) "measured_publication_admission_required"
  require (decide (0 < policy.maxCandidates ∧ 0 < policy.maxUnits ∧ 0 < policy.maxSources ∧
    0 < policy.maxTargets ∧ 0 < policy.maxBytes ∧ 0 < policy.minimumSeconds))
    "finite_publication_admission_required"
  let work ← store.vector contractSha256 environment.now
  require (work.revalidationReasons.all (· == "time_transition_due"))
    "publication_revalidation_requires_explicit_epoch_migration"
  let rows := store.candidates policy (environment.sourcePaths.map Prod.fst)
  let progress ← Progress.run policy environment 0 {} rows
  return {
    epoch := work.epoch
    contractSha256 := contractSha256
    units := progress.chosen
    held := progress.held
    sourceIds := orderBy id progress.sources
    targetPaths := orderBy id progress.targets
    estimatedBytes := progress.total
    candidateCount := rows.length
    policy := policy }

end Store

def Selection.processed (selection : Selection)
    (processedUnits : List (String × ℕ)) : List CurrentRow :=
  selection.units.filter fun row => decide ((row.unit, row.version) ∈ processedUnits)

/-- An entry of `rejected`: a job, or the listing of a source. -/
structure Rejection where
  jobKey : Option String
  sourceId : Option String

def Rejection.concerns (rejection : Rejection) (row : CurrentRow) : Bool :=
  (row.kind == .job && rejection.jobKey.isSome && rejection.jobKey == row.jobKey) ||
    (row.kind == .listing && rejection.jobKey.isNone && rejection.sourceId == some row.sourceId)

namespace Store

/-- `UPDATE jobagg_dirty_current ... WHERE unit=? AND version=?`. -/
def updateVersion (store : Store) (unit : String) (version : ℕ)
    (update : CurrentRow → CurrentRow) : Store :=
  { store with
    current := updateWhere (fun row => row.unit == unit && row.version == version) update
      store.current }

def acknowledgeRow (store : Store) (row : CurrentRow) (rejected : List Rejection)
    (resultSha256 : String) : Store :=
  let disposition : Disposition :=
    if rejected.any (·.concerns row) || row.kind == .unknown then .held else .acknowledged
  store.updateVersion row.unit row.version fun current => { current with
    disposition := disposition
    reason := if disposition = .held then some "publication_rejected" else none
    acknowledgementSha256 := some resultSha256 }

/-- `last_service=max(last_service,excluded.last_service)`. -/
def serve (store : Store) (sourceId : String) (version : ℕ) : Store :=
  { store with
    cohorts :=
      if store.cohorts.any fun entry => entry.1 == sourceId then
        updateWhere (fun entry => entry.1 == sourceId)
          (fun entry => (entry.1, max entry.2 version)) store.cohorts
      else store.cohorts ++ [(sourceId, version)] }

def holdRow (store : Store) (held : HeldUnit) : Store :=
  store.updateVersion held.unit held.version fun current => { current with
    disposition := .held
    reason := some held.reason }

def acknowledge (store : Store) (selection : Selection)
    (hold : String → String → Except String (Option String)) (resultSha256 : String)
    (processedUnits : List (String × ℕ)) (rejected : List Rejection) : Except String Store := do
  for row in selection.units do
    let reason ← hold row.sourceId row.unit
    require reason.isNone ("publication_scope_integrity_hold: " ++ reason.getD "")
  require (processedUnits.all fun processed =>
      selection.units.any fun row => (row.unit, row.version) == processed)
    "publication_processed_versions_not_selected"
  let processed := selection.processed processedUnits
  let cleared := processed.foldl
    (fun store row => store.acknowledgeRow row rejected resultSha256) store
  let served := processed.foldl (fun store row => store.serve row.sourceId row.version) cleared
  return selection.held.foldl holdRow served

end Store

end JobAgg.PublicationWork
