import Mathlib.Algebra.Order.Field.Rat
import JobAgg.Foundation.Checked
import JobAgg.Foundation.Table

/-! # Legacy quota accounting

The shared attempt files of `pipelines/worker_policy.py`, the projection that
one owner batch keeps of them, and `Worker.policy_due` of `remediation_worker.py`
over that projection. Times are rational epoch seconds.
-/

namespace JobAgg.PolicyAuthority

inductive Kind
  | listing
  | detail
  | document
  deriving DecidableEq, Repr

structure SharedEvent where
  attemptId : String
  sourceId : String
  kind : Kind
  startedAt : ℚ
  finishedAt : Option ℚ := none
  eligibilityAccountingUntil : Option ℚ := none
  workspace : String
  taskId : String
  status : String := "reserved"
  deriving DecidableEq

/-- `finished_at or eligibility_accounting_until or started_at`; a zero stamp is
passed over like a missing one. -/
def SharedEvent.accountedEnd (event : SharedEvent) : ℚ :=
  (event.finishedAt.filter (· != 0)).getD
    ((event.eligibilityAccountingUntil.filter (· != 0)).getD event.startedAt)

/-- The pacing of a source as `fetch_schedule_policy` gives it. -/
structure Pacing where
  minimum : ℚ
  jitter : ℚ
  batch : ℤ
  pause : ℚ

/-- A start opens a new batch when nothing precedes it, or when it comes a full
pause after the end of what precedes it. -/
def opensBatch (pause : ℚ) (previous : Option ℚ) (startedAt : ℚ) : Bool :=
  previous.all fun previous => pause != 0 && decide (pause ≤ startedAt - previous)

def SharedEvent.isDetailOf (sourceId : String) (event : SharedEvent) : Bool :=
  event.kind == .detail && event.sourceId == sourceId

/-- The owner batch: detail events by source, and a revision for each source. -/
structure Batch where
  events : String → List SharedEvent
  revisions : String → ℕ

structure SharedPolicy where
  files : List SharedEvent := []
  batch : Option Batch := none

namespace SharedPolicy

def eventSnapshot (policy : SharedPolicy) (sourceId : String) : List SharedEvent :=
  orderBy SharedEvent.startedAt (policy.files.filter (SharedEvent.isDetailOf sourceId))

def beginBatch (policy : SharedPolicy) : SharedPolicy :=
  { policy with batch := some { events := policy.eventSnapshot, revisions := fun _ => 0 } }

def finishBatch (policy : SharedPolicy) : SharedPolicy :=
  { policy with batch := none }

def admissionEvents (policy : SharedPolicy) (sourceId : String) : List SharedEvent :=
  match policy.batch with
  | none => policy.eventSnapshot sourceId
  | some batch => batch.events sourceId

def admissionRevision (policy : SharedPolicy) (sourceId : String) : Option ℕ :=
  policy.batch.map fun batch => batch.revisions sourceId

def batchUpdate (batch : Batch) (event : SharedEvent) : Batch :=
  if event.kind = .detail then
    let rows := (batch.events event.sourceId).filter (·.attemptId != event.attemptId)
    { events := Function.update batch.events event.sourceId
        (orderBy SharedEvent.startedAt (rows ++ [event]))
      revisions := Function.update batch.revisions event.sourceId
        (batch.revisions event.sourceId + 1) }
  else batch

def reserve (policy : SharedPolicy) (attemptId sourceId : String) (kind : Kind)
    (startedAt : ℚ) (workspace taskId : String) : Except String SharedPolicy :=
  if policy.files.any (·.attemptId == attemptId) then
    .error "Durable shared attempt already exists"
  else
    let event : SharedEvent :=
      { attemptId, sourceId, kind, startedAt, workspace, taskId }
    .ok {
      files := policy.files ++ [event]
      batch := policy.batch.map fun batch => batchUpdate batch event }

def finish (policy : SharedPolicy) (attemptId status : String) (now : ℚ) :
    Except String SharedPolicy :=
  match policy.files.find? (·.attemptId == attemptId) with
  | none => .error "No such file or directory"
  | some event =>
    let finished := { event with finishedAt := some now, status := status }
    .ok {
      files := updateWhere (·.attemptId == attemptId) (fun _ => finished) policy.files
      batch := policy.batch.map fun batch => batchUpdate batch finished }

end SharedPolicy

def batchCount (pause : ℚ) (attempts : List SharedEvent) : ℤ :=
  (attempts.foldl
    (fun (count, previous) row =>
      let counted := if opensBatch pause previous row.startedAt then 0 else count
      (counted + 1, some row.accountedEnd))
    ((0 : ℤ), (none : Option ℚ))).1

/-- The delay after the last end, and the pause after a full batch. The list is
not empty; the default is never read. -/
def pacedDue (pacing : Pacing) (attempts : List SharedEvent) : ℚ :=
  let last := (attempts.map SharedEvent.accountedEnd).getLastD 0
  let due := last + pacing.minimum + pacing.jitter
  if pacing.batch ≠ 0 ∧ pacing.batch ≤ batchCount pacing.pause attempts then
    max due (last + pacing.pause)
  else due

/-- The due time that `policy_due` computes from the events, with the hourly
window of ten starts for one source. -/
def eventsDue (pacing : Pacing) (sourceId : String) (attempts : List SharedEvent)
    (now : ℚ) : ℚ :=
  let due := pacedDue pacing attempts
  if sourceId = "unicef_pageup" then
    let finishes := attempts.map SharedEvent.accountedEnd
    let active := orderBy id (finishes.filter fun finish => decide (now - 3600 < finish))
    if 10 ≤ active.length then max due (active.getD (active.length - 10) 0 + 3600) else due
  else due

structure Worker where
  sharedPolicy : SharedPolicy := {}
  policyDueCache : String → Option (ℕ × ℚ) := fun _ => none

namespace Worker

/-- The cached due time, when it was computed at the current revision. -/
def cachedDue (worker : Worker) (sourceId : String) : Option ℚ :=
  match worker.sharedPolicy.admissionRevision sourceId, worker.policyDueCache sourceId with
  | some revision, some (cached, due) => if cached = revision then some due else none
  | _, _ => none

/-- `policy_due` of a deployment that keeps the legacy files. -/
def policyDue (worker : Worker) (pacing : String → Pacing) (sourceId : String)
    (kind : Kind) (now : ℚ) : ℚ × Worker :=
  if kind ≠ .detail then (now, worker)
  else
    match worker.cachedDue sourceId with
    | some due => (max now due, worker)
    | none =>
      let attempts := worker.sharedPolicy.admissionEvents sourceId
      if attempts.isEmpty then (now, worker)
      else
        let due := eventsDue (pacing sourceId) sourceId attempts now
        let cache :=
          match worker.sharedPolicy.admissionRevision sourceId with
          | none => worker.policyDueCache
          | some revision =>
            Function.update worker.policyDueCache sourceId (some (revision, due))
        (max now due, { worker with policyDueCache := cache })

def beginBatch (worker : Worker) : Worker where
  sharedPolicy := worker.sharedPolicy.beginBatch
  policyDueCache := fun _ => none

end Worker

end JobAgg.PolicyAuthority
