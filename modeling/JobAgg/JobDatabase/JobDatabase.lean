import JobAgg.JobDatabase.JobRecord

/-! # Lifecycle writers

The three writers of `db.py` and `sync_source.py` that move a vacancy through its
lifecycle. Each call is one transaction.
-/

namespace JobAgg.JobDatabase

inductive UpsertResult
  | inserted
  | updated
  | unchanged
  deriving DecidableEq, Repr

def insertedRow (jobKey contentHash : String) (job : JobRecord) : JobRow where
  jobKey := jobKey
  sourceId := job.sourceId
  orgId := job.orgId
  atsFamily := job.atsFamily
  externalId := job.externalId
  title := job.title
  location := job.location
  department := job.department
  employmentType := job.employmentType
  postedAt := job.postedAt
  closesAt := job.closesAt
  closesAtLocal := job.closesAtLocal
  closesTz := job.closesTz
  applyUrl := job.applyUrl
  sourceUrl := job.sourceUrl
  description := job.description
  status := job.status
  normalizedHash := contentHash
  postingFingerprint := job.postingFingerprint
  raw := job.raw
  firstSeenAt := job.firstSeenAt
  lastSeenAt := job.lastSeenAt
  missingRunCount := 0

/-- `ON CONFLICT(job_key) DO UPDATE`: the identity columns and `first_seen_at`
stay. -/
def JobRow.refreshed (row : JobRow) (contentHash : String) (job : JobRecord) : JobRow :=
  { row with
    orgId := job.orgId
    title := job.title
    location := job.location
    department := job.department
    employmentType := job.employmentType
    postedAt := job.postedAt
    closesAt := job.closesAt
    closesAtLocal := job.closesAtLocal
    closesTz := job.closesTz
    applyUrl := job.applyUrl
    sourceUrl := job.sourceUrl
    description := job.description
    status := job.status
    normalizedHash := contentHash
    postingFingerprint := job.postingFingerprint
    raw := job.raw
    lastSeenAt := job.lastSeenAt
    missingRunCount := 0 }

def JobRow.reviewed (row : JobRow) (derivations : Derivations) (job : JobRecord) : JobRow :=
  match markerFor derivations job.raw job.sourceId job.externalId with
  | none => row
  | some review =>
    { row with
      deadlineState := if (Json.get "active" review).truthy then "expired" else "future"
      trustedCurrent := false
      applicationReady := false }

def classifyUpsert (row : JobRow) (status contentHash : String) : Option ChangeType :=
  if (row.status = "closed" ∨ row.status = "missing") ∧ status = "open" then some .reopened
  else if row.status ≠ status then
    if status = "closed" then some .closed
    else if status = "missing" then some .missing
    else some .statusChanged
  else if row.normalizedHash ≠ contentHash then some .updated
  else none

/-- The record that is stored: merged with the row, reviewed and hashed. -/
def preparedRecord (derivations : Derivations) (now : Instant) (job : JobRecord)
    (current : Option JobRow) : Except String JobRecord := do
  let merged ←
    match current with
    | none => .ok job
    | some row => derivations.mergeExistingDetailFields job row
  let reviewed := applyReview derivations now merged current
  return { reviewed with
    normalizedHash := some (derivations.contentHash reviewed)
    postingFingerprint :=
      reviewed.postingFingerprint.or (some (derivations.postingFingerprint reviewed)) }

def snapshotOf (derivations : Derivations) (job : JobRecord) : VacancySnapshot where
  sourceId := job.sourceId
  jobKey := derivations.identityKey job
  contentHash := job.normalizedHash.getD ""
  observedAt := job.lastSeenAt

namespace Database

def current (database : Database) (jobKey : String) : Option JobRow :=
  database.jobs.find? (·.jobKey == jobKey)

def upsertJob (derivations : Derivations) (now : Instant) (database : Database)
    (job : JobRecord) : Except String (Database × UpsertResult) := do
  let jobKey := derivations.identityKey job
  let current := database.current jobKey
  let stored ← preparedRecord derivations now job current
  let contentHash := stored.normalizedHash.getD ""
  match current with
  | none =>
    return ({
      jobs := database.jobs ++
        [(insertedRow jobKey contentHash stored).reviewed derivations stored]
      changeEvents := database.changeEvents ++
        [{ sourceId := stored.sourceId, jobKey, changeType := .created, oldHash := none
           newHash := some contentHash }]
      snapshots := database.snapshots ++ [snapshotOf derivations stored] }, .inserted)
  | some row =>
    let jobs := updateWhere (·.jobKey == jobKey)
      (fun old => (old.refreshed contentHash stored).reviewed derivations stored)
      database.jobs
    match classifyUpsert row stored.status contentHash with
    | none => return ({ database with jobs }, .unchanged)
    | some changeType =>
      return ({
        jobs
        changeEvents := database.changeEvents ++
          [{ sourceId := stored.sourceId, jobKey, changeType
             oldHash := some row.normalizedHash, newHash := some contentHash }]
        snapshots := database.snapshots ++ [snapshotOf derivations stored] }, .updated)

/-- One transaction for all records, each with the clock at its turn. -/
def upsertJobs (derivations : Derivations) (database : Database) :
    List (Instant × JobRecord) → Except String Database
  | [] => return database
  | (now, job) :: jobs => do
    let (next, _) ← database.upsertJob derivations now job
    next.upsertJobs derivations jobs

def revise (database : Database) (change : JobRow → JobRow × Option ChangeEvent) : Database :=
  { database with
    jobs := database.jobs.map fun row => (change row).1
    changeEvents := database.changeEvents ++ database.jobs.filterMap fun row => (change row).2 }

end Database

/-- `status IN ('open', 'missing')`. -/
def JobRow.listed (row : JobRow) : Bool := row.status == "open" || row.status == "missing"

def microsecondsPerDay : ℤ := 86400000000

/-- `_is_past_closing_date`: a later calendar day than the closing day. -/
def isPastClosingDate (closesAt : Option Instant) (now : Instant) : Bool :=
  closesAt.any fun due => decide (due / microsecondsPerDay < now / microsecondsPerDay)

/-- What `mark_missing` does with one of its rows. -/
def JobRow.marked (row : JobRow) (sourceId : String) (seenJobKeys : List String)
    (missingRunThreshold : ℤ) (now : Instant) : JobRow × Option ChangeEvent :=
  if row.jobKey ∈ seenJobKeys then ({ row with missingRunCount := 0 }, none)
  else
    let missingRunCount := row.missingRunCount + 1
    if isPastClosingDate row.closesAt now then
      ({ row with status := "closed", missingRunCount },
        some { sourceId, jobKey := row.jobKey, changeType := .closed
               oldHash := some row.normalizedHash, newHash := none })
    else if missingRunThreshold ≤ missingRunCount then
      ({ row with status := "missing", missingRunCount },
        if row.status = "missing" then none
        else some { sourceId, jobKey := row.jobKey, changeType := .missing
                    oldHash := some row.normalizedHash, newHash := some row.normalizedHash })
    else ({ row with missingRunCount }, none)

/-- The exclusions of a source, as its configuration gives them. -/
structure Exclusions where
  externalIds : List String
  titles : List String

/-- `TRIM` of SQLite takes spaces. -/
def sqlTrim (text : String) : String :=
  String.ofList (((text.toList.dropWhile (· == ' ')).reverse.dropWhile (· == ' ')).reverse)

/-- The condition on a row; `LOWER` of SQLite folds ASCII letters. -/
def Exclusions.exclude (exclusions : Exclusions) (row : JobRow) : Bool :=
  row.externalId.any (· ∈ exclusions.externalIds) ||
    decide ((sqlTrim row.title).toLower ∈ exclusions.titles)

/-- What `_close_configured_excluded_jobs` does with one of its rows. -/
def JobRow.closedByConfiguration (row : JobRow) (sourceId : String) :
    JobRow × Option ChangeEvent :=
  ({ row with status := "closed", missingRunCount := 0 },
    some { sourceId, jobKey := row.jobKey, changeType := .closed
           oldHash := some row.normalizedHash, newHash := none })

namespace Database

/-- `clock` is the time when the row of a key has its turn. -/
def markMissing (database : Database) (sourceId : String) (seenJobKeys : List String)
    (missingRunThreshold : ℤ) (clock : String → Instant) : Database :=
  database.revise fun row =>
    if row.sourceId == sourceId && row.listed then
      row.marked sourceId seenJobKeys missingRunThreshold (clock row.jobKey)
    else (row, none)

def closeConfiguredExcludedJobs (database : Database) (sourceId : String)
    (exclusions : Exclusions) : Database :=
  if exclusions.externalIds.isEmpty && exclusions.titles.isEmpty then database
  else database.revise fun row =>
    if row.sourceId == sourceId && row.listed && exclusions.exclude row then
      row.closedByConfiguration sourceId
    else (row, none)

end Database

end JobAgg.JobDatabase
