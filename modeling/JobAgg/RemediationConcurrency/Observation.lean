import Mathlib.Algebra.Order.Field.Rat
import JobAgg.Foundation.Checked
import JobAgg.Foundation.Json

/-! # Batch observations

The terminal report of a dispatched batch, in `remediation_concurrency.py`: a
mapping of untyped values that `from_mapping` reads or refuses.
-/

namespace JobAgg.RemediationConcurrency

/-- A time is an integer or a finite float, as it was given. -/
inductive Time
  | int (seconds : ℤ)
  | float (seconds : ℚ)
  deriving DecidableEq

def Time.seconds : Time → ℚ
  | int seconds => seconds
  | float seconds => seconds

inductive Value
  | none
  | bool (flag : Bool)
  | int (number : ℤ)
  | float (number : ℚ)
  | nonfinite
  | text (content : String)
  | other

abbrev Mapping := List (String × Value)

/-- A `ValueError`, or the `OverflowError` of a conversion to a float. -/
inductive Refusal
  | value (message : String)
  | overflow
  deriving DecidableEq

def floatOverflow : ℤ := 2 ^ 1024 - 2 ^ 970

/-- The characters that `str.strip` removes. -/
def isSpace (letter : Char) : Bool :=
  letter.toNat ∈ [9, 10, 11, 12, 13, 28, 29, 30, 31, 32, 133, 160, 5760, 8232, 8233, 8239, 8287,
    12288] || (decide (8192 ≤ letter.toNat) && decide (letter.toNat ≤ 8202))

/-- `_integer`. -/
def readInteger (value : Value) (name : String) (minimum maximum : ℤ) : Except Refusal ℤ :=
  match value with
  | .int number =>
    if minimum ≤ number ∧ number ≤ maximum then .ok number
    else .error (.value s!"{name} must be an integer in {minimum}..{maximum}")
  | _ => .error (.value s!"{name} must be an integer in {minimum}..{maximum}")

/-- `_time`. -/
def readTime (value : Value) (name : String) : Except Refusal Time :=
  match value with
  | .int number =>
    if floatOverflow ≤ |number| then .error .overflow
    else if 0 ≤ number then .ok (.int number)
    else .error (.value s!"{name} must be a finite nonnegative epoch")
  | .float number =>
    if 0 ≤ number then .ok (.float number)
    else .error (.value s!"{name} must be a finite nonnegative epoch")
  | _ => .error (.value s!"{name} must be a finite nonnegative epoch")

def isIdentifier (text : String) : Bool :=
  text.toList.any (fun letter => !isSpace letter) && decide (text.length ≤ 256)

/-- `_identifier`. -/
def readIdentifier (value : Value) (name : String) : Except Refusal String :=
  match value with
  | .text content =>
    if isIdentifier content then .ok content
    else .error (.value s!"{name} must be a nonempty bounded string")
  | _ => .error (.value s!"{name} must be a nonempty bounded string")

def readBool (value : Value) (name : String) : Except Refusal Bool :=
  match value with
  | .bool flag => .ok flag
  | _ => .error (.value s!"{name} must be a boolean")

/-- What `_time` accepts. -/
def Time.Readable : Time → Prop
  | int seconds => |seconds| < floatOverflow ∧ 0 ≤ seconds
  | float seconds => 0 ≤ seconds

def Time.toValue : Time → Value
  | int seconds => .int seconds
  | float seconds => .float seconds

theorem readInteger_eq_ok {value : Value} {name : String} {minimum maximum number : ℤ} :
    readInteger value name minimum maximum = .ok number ↔
      value = .int number ∧ minimum ≤ number ∧ number ≤ maximum := by
  cases value with
  | int other =>
    simp only [readInteger, Value.int.injEq]
    split
    · rename_i within
      constructor
      · intro same
        rw [Except.ok.injEq] at same
        exact ⟨same, same ▸ within⟩
      · intro same
        rw [same.1]
    · rename_i outside
      constructor
      · intro refused
        simp at refused
      · intro same
        exact absurd (same.1 ▸ same.2) outside
  | _ => simp [readInteger]

theorem readTime_eq_ok {value : Value} {name : String} {time : Time} :
    readTime value name = .ok time ↔ value = time.toValue ∧ time.Readable := by
  cases time with
  | int seconds =>
    cases value with
    | int number =>
      simp only [readTime, Time.toValue, Time.Readable, Value.int.injEq]
      by_cases overflow : floatOverflow ≤ |number|
      · simp only [overflow, if_true]
        constructor
        · intro refused
          simp at refused
        · rintro ⟨rfl, small, _⟩
          exact absurd small (not_lt.mpr overflow)
      · by_cases negative : 0 ≤ number
        · simp only [overflow, negative, if_true, if_false, Except.ok.injEq, Time.int.injEq]
          exact ⟨fun same => ⟨same, same ▸ ⟨not_le.mp overflow, negative⟩⟩, fun same => same.1⟩
        · simp only [overflow, negative, if_false]
          constructor
          · intro refused
            simp at refused
          · rintro ⟨rfl, _, positive⟩
            exact absurd positive negative
    | float number => simp only [readTime, Time.toValue]; split <;> simp
    | _ => simp [readTime, Time.toValue]
  | float seconds =>
    cases value with
    | int number => simp only [readTime, Time.toValue]; split; simp; split <;> simp
    | float number =>
      simp only [readTime, Time.toValue, Time.Readable, Value.float.injEq]
      split
      · rename_i positive
        simp only [Except.ok.injEq, Time.float.injEq]
        exact ⟨fun same => ⟨same, same ▸ positive⟩, fun same => same.1⟩
      · rename_i negative
        constructor
        · intro refused
          simp at refused
        · rintro ⟨rfl, positive⟩
          exact absurd positive negative
    | _ => simp [readTime, Time.toValue]

theorem readIdentifier_eq_ok {value : Value} {name text : String} :
    readIdentifier value name = .ok text ↔ value = .text text ∧ isIdentifier text = true := by
  cases value with
  | text content =>
    simp only [readIdentifier, Value.text.injEq]
    cases identifier : isIdentifier content with
    | false => 
      simp 
      rintro rfl
      exact identifier
    | true =>
      simp 
      rintro rfl
      exact identifier
  | _ => simp [readIdentifier]

theorem readBool_eq_ok {value : Value} {name : String} {flag : Bool} :
    readBool value name = .ok flag ↔ value = .bool flag := by
  cases value <;> simp [readBool]

inductive PublicationStatus
  | verified
  | failed
  | pending
  | notRun
  | unknown
  deriving DecidableEq

def PublicationStatus.text : PublicationStatus → String
  | verified => "verified"
  | failed => "failed"
  | pending => "pending"
  | notRun => "not_run"
  | unknown => "unknown"

def readPublicationStatus (value : Value) : Except Refusal PublicationStatus :=
  match value with
  | .text "verified" => .ok .verified
  | .text "failed" => .ok .failed
  | .text "pending" => .ok .pending
  | .text "not_run" => .ok .notRun
  | .text "unknown" => .ok .unknown
  | _ => .error (.value "Unknown publication_status")

structure BatchObservation where
  batchId : String
  startedAt : Time
  finishedAt : Time
  limitUsed : ℤ
  eligibleDistinctSources : ℤ
  eligibleDistinctHosts : ℤ
  peakActiveTasks : ℤ
  peakActiveSources : ℤ
  peakActiveHosts : ℤ
  peakActiveSchedulingHosts : ℤ
  attemptedTasks : ℤ
  acceptedProgress : ℤ
  eligibleBacklogRemaining : ℤ
  newAccessBlocks : ℤ
  transportFailures : ℤ
  runtimeErrors : ℤ
  integrityErrors : ℤ
  databaseErrors : ℤ
  controlCycleComplete : Bool
  killed : Bool
  publicationStatus : PublicationStatus
  existingHeldHosts : ℤ := 0
  globalCompletenessCertified : Bool := false
  deriving DecidableEq

def hardCeiling : ℤ := 32

def largestCount : ℤ := 1000000000

def requiredFields : List String :=
  ["batch_id", "started_at", "finished_at", "limit_used", "eligible_distinct_sources",
    "eligible_distinct_hosts", "peak_active_tasks", "peak_active_sources", "peak_active_hosts",
    "peak_active_scheduling_hosts", "attempted_tasks", "accepted_progress",
    "eligible_backlog_remaining", "new_access_blocks", "transport_failures", "runtime_errors",
    "integrity_errors", "database_errors", "control_cycle_complete", "killed",
    "publication_status"]

def optionalFields : List String := ["existing_held_hosts", "global_completeness_certified"]

namespace BatchObservation

/-- `from_mapping`, with the checks of `__post_init__` in their order. -/
def fromMapping (value : Option Mapping) : Except Refusal BatchObservation := do
  let fields ← value.elim (.error (.value "Observation must be an object")) .ok
  require (requiredFields.all (fun name => (lookup name fields).isSome) &&
      fields.all (fun field => decide (field.1 ∈ requiredFields ++ optionalFields)))
    (.value "Observation fields differ")
  let get := fun name => (lookup name fields).getD .none
  let count := fun name => readInteger (get name) name 0 largestCount
  let batchId ← readIdentifier (get "batch_id") "batch_id"
  let startedAt ← readTime (get "started_at") "started_at"
  let finishedAt ← readTime (get "finished_at") "finished_at"
  require (decide (startedAt.seconds ≤ finishedAt.seconds))
    (.value "Observation ends before it starts")
  let limitUsed ← readInteger (get "limit_used") "limit_used" 1 hardCeiling
  let eligibleDistinctSources ← count "eligible_distinct_sources"
  let eligibleDistinctHosts ← count "eligible_distinct_hosts"
  let peakActiveTasks ← count "peak_active_tasks"
  let peakActiveSources ← count "peak_active_sources"
  let peakActiveHosts ← count "peak_active_hosts"
  let peakActiveSchedulingHosts ← count "peak_active_scheduling_hosts"
  let attemptedTasks ← count "attempted_tasks"
  let acceptedProgress ← count "accepted_progress"
  let eligibleBacklogRemaining ← count "eligible_backlog_remaining"
  let newAccessBlocks ← count "new_access_blocks"
  let transportFailures ← count "transport_failures"
  let runtimeErrors ← count "runtime_errors"
  let integrityErrors ← count "integrity_errors"
  let databaseErrors ← count "database_errors"
  let existingHeldHosts ← readInteger ((lookup "existing_held_hosts" fields).getD (.int 0))
    "existing_held_hosts" 0 largestCount
  let controlCycleComplete ← readBool (get "control_cycle_complete") "control_cycle_complete"
  let killed ← readBool (get "killed") "killed"
  let globalCompletenessCertified ←
    readBool ((lookup "global_completeness_certified" fields).getD (.bool false))
      "global_completeness_certified"
  let publicationStatus ← readPublicationStatus (get "publication_status")
  require (decide (acceptedProgress ≤ attemptedTasks) && decide (peakActiveTasks ≤ attemptedTasks) &&
      decide (peakActiveSources ≤ peakActiveTasks) &&
      decide (peakActiveSchedulingHosts ≤ peakActiveTasks))
    (.value "Inconsistent task progress or observed concurrency counts")
  return {
    batchId, startedAt, finishedAt, limitUsed, eligibleDistinctSources, eligibleDistinctHosts
    peakActiveTasks, peakActiveSources, peakActiveHosts, peakActiveSchedulingHosts
    attemptedTasks, acceptedProgress, eligibleBacklogRemaining, newAccessBlocks
    transportFailures, runtimeErrors, integrityErrors, databaseErrors, controlCycleComplete
    killed, publicationStatus, existingHeldHosts, globalCompletenessCertified }

def asDict (observation : BatchObservation) : Mapping :=
  [("batch_id", .text observation.batchId),
    ("started_at", observation.startedAt.toValue),
    ("finished_at", observation.finishedAt.toValue),
    ("limit_used", .int observation.limitUsed),
    ("eligible_distinct_sources", .int observation.eligibleDistinctSources),
    ("eligible_distinct_hosts", .int observation.eligibleDistinctHosts),
    ("peak_active_tasks", .int observation.peakActiveTasks),
    ("peak_active_sources", .int observation.peakActiveSources),
    ("peak_active_hosts", .int observation.peakActiveHosts),
    ("peak_active_scheduling_hosts", .int observation.peakActiveSchedulingHosts),
    ("attempted_tasks", .int observation.attemptedTasks),
    ("accepted_progress", .int observation.acceptedProgress),
    ("eligible_backlog_remaining", .int observation.eligibleBacklogRemaining),
    ("new_access_blocks", .int observation.newAccessBlocks),
    ("transport_failures", .int observation.transportFailures),
    ("runtime_errors", .int observation.runtimeErrors),
    ("integrity_errors", .int observation.integrityErrors),
    ("database_errors", .int observation.databaseErrors),
    ("control_cycle_complete", .bool observation.controlCycleComplete),
    ("killed", .bool observation.killed),
    ("publication_status", .text observation.publicationStatus.text),
    ("existing_held_hosts", .int observation.existingHeldHosts),
    ("global_completeness_certified", .bool observation.globalCompletenessCertified)]

/-- The counters that `__post_init__` bounds alike. -/
def counts (observation : BatchObservation) : List ℤ :=
  [observation.eligibleDistinctSources, observation.eligibleDistinctHosts,
    observation.peakActiveTasks, observation.peakActiveSources, observation.peakActiveHosts,
    observation.peakActiveSchedulingHosts, observation.attemptedTasks,
    observation.acceptedProgress, observation.eligibleBacklogRemaining,
    observation.newAccessBlocks, observation.transportFailures, observation.runtimeErrors,
    observation.integrityErrors, observation.databaseErrors, observation.existingHeldHosts]

structure WellFormed (observation : BatchObservation) : Prop where
  batchId : isIdentifier observation.batchId = true
  startedAt : observation.startedAt.Readable
  finishedAt : observation.finishedAt.Readable
  ordered : observation.startedAt.seconds ≤ observation.finishedAt.seconds
  limitUsed : 1 ≤ observation.limitUsed ∧ observation.limitUsed ≤ hardCeiling
  counts : ∀ count ∈ observation.counts, 0 ≤ count ∧ count ≤ largestCount
  progress : observation.acceptedProgress ≤ observation.attemptedTasks ∧
    observation.peakActiveTasks ≤ observation.attemptedTasks ∧
    observation.peakActiveSources ≤ observation.peakActiveTasks ∧
    observation.peakActiveSchedulingHosts ≤ observation.peakActiveTasks

theorem wellFormed_of_fromMapping {value : Option Mapping} {observation : BatchObservation}
    (read : fromMapping value = .ok observation) : observation.WellFormed := by
  unfold fromMapping at read
  simp only [bind_eq_ok, pure_eq_ok, require_eq_ok, readInteger_eq_ok, readTime_eq_ok,
    readIdentifier_eq_ok, readBool_eq_ok, decide_eq_true_eq, Bool.and_eq_true] at read
  rcases read with ⟨fields, _, _, _, batchId, ⟨_, identifier⟩, startedAt, ⟨_, started⟩,
    finishedAt, ⟨_, finished⟩, _, ordered, limitUsed, ⟨_, limit⟩, sources, ⟨_, count1⟩,
    hosts, ⟨_, count2⟩, tasks, ⟨_, count3⟩, activeSources, ⟨_, count4⟩, activeHosts, ⟨_, count5⟩,
    scheduling, ⟨_, count6⟩, attempted, ⟨_, count7⟩, accepted, ⟨_, count8⟩, backlog, ⟨_, count9⟩,
    blocks, ⟨_, count10⟩, transport, ⟨_, count11⟩, runtime, ⟨_, count12⟩, integrity, ⟨_, count13⟩,
    databaseErrors, ⟨_, count14⟩, held, ⟨_, count15⟩, _, _, _, _, _, _, _, _, _, progress, rfl⟩
  refine ⟨identifier, started, finished, ordered, limit, ?_,
    ⟨progress.1.1.1, progress.1.1.2, progress.1.2, progress.2⟩⟩
  simp only [counts, List.forall_mem_cons]
  exact ⟨count1, count2, count3, count4, count5, count6, count7, count8, count9, count10,
    count11, count12, count13, count14, count15, by simp⟩

theorem fromMapping_asDict {observation : BatchObservation} (wellFormed : observation.WellFormed) :
    fromMapping (some observation.asDict) = .ok observation := by
  have inBounds := wellFormed.counts
  simp only [counts, List.forall_mem_cons] at inBounds
  rcases inBounds with ⟨count1, count2, count3, count4, count5, count6, count7, count8, count9,
    count10, count11, count12, count13, count14, count15, _⟩
  have status : readPublicationStatus (.text observation.publicationStatus.text) =
      .ok observation.publicationStatus := by
    cases observation.publicationStatus <;> rfl
  unfold fromMapping
  simp only [bind_eq_ok, pure_eq_ok, require_eq_ok, readInteger_eq_ok, readTime_eq_ok,
    readIdentifier_eq_ok, readBool_eq_ok, decide_eq_true_eq, Bool.and_eq_true]
  exact ⟨observation.asDict, rfl, (), ⟨rfl, rfl⟩, _, ⟨rfl, wellFormed.batchId⟩, _,
    ⟨rfl, wellFormed.startedAt⟩, _, ⟨rfl, wellFormed.finishedAt⟩, (), wellFormed.ordered, _,
    ⟨rfl, wellFormed.limitUsed⟩, _, ⟨rfl, count1⟩, _, ⟨rfl, count2⟩, _, ⟨rfl, count3⟩, _,
    ⟨rfl, count4⟩, _, ⟨rfl, count5⟩, _, ⟨rfl, count6⟩, _, ⟨rfl, count7⟩, _, ⟨rfl, count8⟩, _,
    ⟨rfl, count9⟩, _, ⟨rfl, count10⟩, _, ⟨rfl, count11⟩, _, ⟨rfl, count12⟩, _, ⟨rfl, count13⟩, _,
    ⟨rfl, count14⟩, _, ⟨rfl, count15⟩, _, rfl, _, rfl, _, rfl, _, status, (),
    ⟨⟨⟨wellFormed.progress.1, wellFormed.progress.2.1⟩, wellFormed.progress.2.2.1⟩,
      wellFormed.progress.2.2.2⟩, rfl⟩

end BatchObservation

end JobAgg.RemediationConcurrency
