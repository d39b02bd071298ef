import JobAgg.PolicyAuthority.SharedPolicy

/-! # Native quota accounting

The indexed authority of `policy_authority.py`: a summary for each migrated
source, and one row for each attempt with its sequence number, the end it is
charged to and whether it opened a batch. The export queue, the external head
and the evidence tables do not enter any due time and are left out.
-/

namespace JobAgg.PolicyAuthority

structure Summary where
  n : ℕ
  pause : ℚ

structure AttemptRow where
  attemptId : String
  sourceId : String
  kind : Kind
  sequence : Option ℕ
  startedAt : ℚ
  effectiveEnd : ℚ
  batchBreak : Bool
  event : SharedEvent

def AttemptRow.isDetailOf (sourceId : String) (row : AttemptRow) : Bool :=
  row.kind == .detail && row.sourceId == sourceId

/-- `SET effective_end=?,event_json=?`. -/
def AttemptRow.finishAt (now : ℚ) (event : SharedEvent) (row : AttemptRow) : AttemptRow :=
  { row with effectiveEnd := now, event := event }

/-- `SET batch_break=?`. -/
def AttemptRow.withBreak (batchBreak : Bool) (row : AttemptRow) : AttemptRow :=
  { row with batchBreak := batchBreak }

structure Authority where
  sources : String → Option Summary
  attempts : List AttemptRow := []

namespace Authority

/-- `WHERE source_id=? AND kind='detail'`. -/
def details (authority : Authority) (sourceId : String) : List AttemptRow :=
  authority.attempts.filter (AttemptRow.isDetailOf sourceId)

/-- `ORDER BY sequence DESC LIMIT 1`. -/
def newest (rows : List AttemptRow) : Option AttemptRow :=
  (orderByDesc (fun row => row.sequence.getD 0) rows).head?

def due (authority : Authority) (sourceId : String) (now : ℚ) (pacing : Pacing) :
    Except String ℚ :=
  match authority.sources sourceId with
  | none => .error "policy_source_outside_migrated_scope"
  | some summary =>
    if summary.n = 0 then .ok now
    else if summary.pause ≠ pacing.pause then
      .error "policy_contract_changed_reviewed_projection_migration_required"
    else
      let details := authority.details sourceId
      match newest details with
      | none => .error "'NoneType' object is not subscriptable"
      | some last =>
        let gap := newest (details.filter (·.batchBreak))
        let opened : ℕ := gap.elim 1 fun row => row.sequence.getD 0
        let count : ℤ := summary.n - opened + 1
        let due := last.effectiveEnd + pacing.minimum + pacing.jitter
        let due :=
          if pacing.batch ≠ 0 ∧ pacing.batch ≤ count then
            max due (last.effectiveEnd + pacing.pause)
          else due
        let due :=
          if sourceId = "unicef_pageup" then
            let ends := (details.map (·.effectiveEnd)).filter fun finish =>
              decide (now - 3600 < finish)
            match (orderByDesc id ends)[9]? with
            | none => due
            | some tenth => max due (tenth + 3600)
          else due
        .ok (max now due)

def insert (authority : Authority) (event : SharedEvent) : Except String Authority :=
  match authority.attempts.find? (·.attemptId == event.attemptId) with
  | some prior =>
    if prior.event = event then .ok authority
    else .error "policy_conflicting_duplicate_identity"
  | none =>
    match authority.sources event.sourceId with
    | none => .error "policy_source_outside_migrated_scope"
    | some summary =>
      let row : AttemptRow :=
        { attemptId := event.attemptId, sourceId := event.sourceId, kind := event.kind
          sequence := none, startedAt := event.startedAt
          effectiveEnd := event.accountedEnd, batchBreak := false, event := event }
      if event.kind = .detail then
        let last := newest (authority.details event.sourceId)
        if last.any fun last => decide (event.startedAt < last.startedAt) then
          .error "policy_clock_or_import_order_regressed"
        else
          .ok {
            sources := Function.update authority.sources event.sourceId
              (some { summary with n := summary.n + 1 })
            attempts := authority.attempts ++ [{ row with
              sequence := some (summary.n + 1)
              batchBreak := opensBatch summary.pause
                (last.map AttemptRow.effectiveEnd) event.startedAt }] }
      else .ok { authority with attempts := authority.attempts ++ [row] }

/-- `reserve` as the shared policy calls it. -/
def reserve (authority : Authority) (attemptId sourceId : String) (kind : Kind)
    (startedAt : ℚ) (workspace taskId : String) : Except String Authority :=
  authority.insert { attemptId, sourceId, kind, startedAt, workspace, taskId }

/-- A late finish moves the end of its row and decides anew whether the attempt
after it opened a batch. -/
def finish (authority : Authority) (attemptId status : String) (now : ℚ) :
    Except String Authority :=
  match authority.attempts.find? (·.attemptId == attemptId) with
  | none => .error "policy_finish_without_reservation"
  | some row =>
    if now < row.startedAt then .error "policy_clock_regressed_review_required"
    else if row.event.finishedAt.isSome then
      if row.event.status = status then .ok authority
      else .error "policy_conflicting_duplicate_finish"
    else
      let event := { row.event with finishedAt := some now, status := status }
      let attempts := updateWhere (·.attemptId == attemptId)
        (AttemptRow.finishAt now event) authority.attempts
      if row.kind = .detail then
        let following := attempts.find? fun other =>
          AttemptRow.isDetailOf row.sourceId other &&
            other.sequence == row.sequence.map (· + 1)
        match following, authority.sources row.sourceId with
        | _, none => .error "'NoneType' object is not subscriptable"
        | none, some _ => .ok { authority with attempts := attempts }
        | some following, some summary =>
          .ok { authority with
            attempts := updateWhere (·.attemptId == following.attemptId)
              (AttemptRow.withBreak
                (opensBatch summary.pause (some now) following.startedAt)) attempts }
      else .ok { authority with attempts := attempts }

end Authority

end JobAgg.PolicyAuthority
