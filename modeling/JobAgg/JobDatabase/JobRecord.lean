import Mathlib.Algebra.Order.Field.Rat
import JobAgg.Foundation.Checked
import JobAgg.Foundation.Json
import JobAgg.Foundation.Table

/-! # Job records

The records of `models.py`, the rows of the table `jobs` with the columns that
the lifecycle writers touch, and the deadline reviews of `deadline_review.py`.
Instants are microseconds since the epoch in UTC.
-/

namespace JobAgg.JobDatabase

abbrev Instant := ℤ

abbrev Raw := List (String × Json)

structure JobRecord where
  sourceId : String
  orgId : String
  atsFamily : String
  title : String
  applyUrl : String
  externalId : Option String := none
  location : Option String := none
  department : Option String := none
  employmentType : Option String := none
  postedAt : Option Instant := none
  closesAt : Option Instant := none
  closesAtLocal : Option String := none
  closesTz : Option String := none
  sourceUrl : Option String := none
  description : Option String := none
  status : String := "open"
  raw : Raw := []
  normalizedHash : Option String := none
  postingFingerprint : Option String := none
  firstSeenAt : Instant
  lastSeenAt : Instant

structure JobRow where
  jobKey : String
  sourceId : String
  orgId : String
  atsFamily : String
  externalId : Option String
  title : String
  location : Option String
  department : Option String
  employmentType : Option String
  postedAt : Option Instant
  closesAt : Option Instant
  closesAtLocal : Option String
  closesTz : Option String
  applyUrl : String
  sourceUrl : Option String
  description : Option String
  status : String
  normalizedHash : String
  postingFingerprint : Option String
  raw : Raw
  firstSeenAt : Instant
  lastSeenAt : Instant
  missingRunCount : ℕ
  deadlineState : Option String := none
  trustedCurrent : Bool := false
  applicationReady : Bool := false

inductive ChangeType
  | created
  | reopened
  | closed
  | missing
  | statusChanged
  | updated
  deriving DecidableEq, Repr

structure ChangeEvent where
  sourceId : String
  jobKey : String
  changeType : ChangeType
  oldHash : Option String
  newHash : Option String
  deriving DecidableEq

structure VacancySnapshot where
  sourceId : String
  jobKey : String
  contentHash : String
  observedAt : Instant
  deriving DecidableEq

/-- The tables with their rows in insertion order. -/
structure Database where
  jobs : List JobRow := []
  changeEvents : List ChangeEvent := []
  snapshots : List VacancySnapshot := []

/-- What `upsert_job` computes from a record by other modules. -/
structure Derivations where
  identityKey : JobRecord → String
  contentHash : JobRecord → String
  postingFingerprint : JobRecord → String
  /-- `_merge_existing_detail_fields`, which may refuse a record. -/
  mergeExistingDetailFields : JobRecord → JobRow → Except String JobRecord
  fromIsoFormat : String → Option Instant

def marker : String := "_past_deadline_review"

/-- `instant` of a JSON value. -/
def Derivations.instant (derivations : Derivations) : Json → Option Instant
  | .string text => if text = "" then none else derivations.fromIsoFormat text
  | _ => none

/-- `marker_for`: a review bound to the source and the external id. -/
def markerFor (derivations : Derivations) (raw : Raw) (sourceId : String)
    (externalId : Option String) : Option Raw :=
  (Json.get marker raw).asObject.filter fun review =>
    (Json.get "authority" review).asString == some "user_requested_deadline_classification" &&
      (Json.get "source_id" review).asString == some sourceId &&
      (Json.get "external_id" review).asText == some (externalId.getD "None") &&
      (Json.get "review_id" review).truthy &&
      (derivations.instant (Json.get "reviewed_at" review)).isSome

/-- `apply_review`: a review on the stored row is carried over, and an active one
keeps an open record expired. -/
def applyReview (derivations : Derivations) (now : Instant) (job : JobRecord)
    (current : Option JobRow) : JobRecord :=
  match current with
  | none => job
  | some row =>
    match markerFor derivations row.raw job.sourceId job.externalId with
    | none => job
    | some review =>
      let deadline := (job.closesAt.or row.closesAt).or
        (derivations.instant (Json.get "deadline_utc" review))
      let active :=
        match deadline with
        | some due => if due = now then (Json.get "active" review).isTrue else decide (due < now)
        | none => (Json.get "active" review).isTrue
      let marked := assign "active" (.bool active) review
      let released :=
        if deadline.any fun due => decide (now < due) then
          assign "release_reason" (.string "Incoming deadline is future") marked
        else if active then remove "release_reason" marked
        else marked
      { job with
        raw := assign marker (.object released) job.raw
        status := if active && job.status == "open" then "expired" else job.status }

end JobAgg.JobDatabase
