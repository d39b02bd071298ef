import JobAgg.RemediationConcurrency.Observation

/-! # The concurrency controller

The pure feedback of `remediation_concurrency.py`: a persisted state that
`validate_state` accepts before every step. The difference of two times is what
the language computes, with the rounding of floats.
-/

namespace JobAgg.RemediationConcurrency

inductive Mode
  | adaptive
  | fixed
  deriving DecidableEq

/-- A policy is one that `__post_init__` accepts. -/
structure ControllerPolicy where
  initialLimit : ℤ := 4
  minimumLimit : ℤ := 1
  maximumLimit : ℤ := 8
  healthyBatchesToIncrease : ℤ := 3
  maxBatchAgeSeconds : ℤ := 1800
  mode : Mode := .adaptive
  fixedLimit : Option ℤ := none
  transportPressureMinFailures : ℤ := 2
  limits : 1 ≤ minimumLimit ∧ minimumLimit ≤ initialLimit ∧ initialLimit ≤ maximumLimit ∧
    maximumLimit ≤ hardCeiling := by decide
  healthyBatches : 1 ≤ healthyBatchesToIncrease ∧ healthyBatchesToIncrease ≤ 100 := by decide
  batchAge : 1 ≤ maxBatchAgeSeconds ∧ maxBatchAgeSeconds ≤ 86400 := by decide
  transportPressure : 1 ≤ transportPressureMinFailures ∧
    transportPressureMinFailures ≤ 1000 := by decide
  fixedWithin : ∀ limit ∈ fixedLimit, minimumLimit ≤ limit ∧ limit ≤ maximumLimit := by simp
  fixedGiven : fixedLimit.isSome = true ↔ mode = .fixed := by simp
  deriving DecidableEq

/-- What the steps take from outside: the signature of a policy, and the
difference of two times. -/
structure Environment where
  signature : ControllerPolicy → String
  elapsed : Time → Time → ℚ

def version : String := "distinct-host-concurrency-v1"

def historyLimit : ℕ := 128

structure ControllerState where
  version : String
  policy : ControllerPolicy
  policySignature : String
  createdAt : Time
  updatedAt : Time
  limit : ℤ
  healthyStreak : ℤ
  processedBatches : ℤ
  recentBatchIds : List String
  lastFinishedAt : Option Time
  lastObservation : Option Mapping
  lastReasons : List String

structure Decision where
  state : ControllerState
  limit : ℤ
  previousLimit : ℤ
  reasons : List String
  qualifying : Bool := false
  consumed : Bool := false
  observation : Option BatchObservation := none

/-- `policy.fixed_limit if policy.mode == "fixed" else value`. -/
def ControllerPolicy.limitOr (policy : ControllerPolicy) (value : ℤ) : ℤ :=
  match policy.mode with
  | .fixed => policy.fixedLimit.getD value
  | .adaptive => value

variable (environment : Environment)

def startedAt (policy : ControllerPolicy) (now : Time) : ControllerState where
  version := version
  policy := policy
  policySignature := environment.signature policy
  createdAt := now
  updatedAt := now
  limit := policy.limitOr policy.initialLimit
  healthyStreak := 0
  processedBatches := 0
  recentBatchIds := []
  lastFinishedAt := none
  lastObservation := none
  lastReasons := ["initialized_without_health_credit"]

def initialState (policy : ControllerPolicy) (now : Value) : Except Refusal ControllerState := do
  let now ← readTime now "now"
  return startedAt environment policy now

/-- The evidence that a health credit needs, in the last observation. -/
def contradictsCredit (state : ControllerState) (policy : ControllerPolicy)
    (last : BatchObservation) : Bool :=
  last.publicationStatus != .verified || !last.controlCycleComplete || last.killed ||
    last.newAccessBlocks != 0 || last.transportFailures != 0 || last.runtimeErrors != 0 ||
    last.integrityErrors != 0 || last.databaseErrors != 0 || last.limitUsed != state.limit ||
    decide (min last.peakActiveTasks (min last.peakActiveSources last.peakActiveSchedulingHosts) <
      state.limit) ||
    decide (last.limitUsed < last.peakActiveTasks) ||
    decide (last.acceptedProgress < state.limit) || last.eligibleBacklogRemaining == 0 ||
    decide (min last.eligibleDistinctSources last.eligibleDistinctHosts ≤ state.limit) ||
    decide ((policy.maxBatchAgeSeconds : ℚ) <
      environment.elapsed state.updatedAt last.finishedAt)

def validateHistory (state : ControllerState) : Except Refusal Unit := do
  if state.processedBatches = 0 then
    require (state.lastFinishedAt.isNone && state.lastObservation.isNone)
      (.value "Unprocessed state has observation history")
  else
    let lastFinishedAt ← readTime (state.lastFinishedAt.elim .none Time.toValue) "last_finished_at"
    let observation ← BatchObservation.fromMapping state.lastObservation
    require (state.recentBatchIds.getLast? == some observation.batchId &&
        observation.finishedAt.seconds == lastFinishedAt.seconds &&
        decide (state.createdAt.seconds ≤ observation.startedAt.seconds) &&
        decide (observation.startedAt.seconds ≤ observation.finishedAt.seconds) &&
        decide (observation.finishedAt.seconds ≤ state.updatedAt.seconds))
      (.value "Last observation/history/time binding differs")

def validateCredit (state : ControllerState) (policy : ControllerPolicy) :
    Except Refusal Unit := do
  if state.healthyStreak ≠ 0 then
    let last ← BatchObservation.fromMapping state.lastObservation
    require (!contradictsCredit environment state policy last)
      (.value "Health credit contradicts last observed operational evidence")

def validateState (state : ControllerState) (policy : ControllerPolicy) : Except Refusal Unit := do
  require (decide (state.policy = policy))
    (.value "Controller policy differs; explicit reconfiguration required")
  require (state.version == version && state.policySignature == environment.signature policy)
    (.value "Controller version/policy differs; explicit reconfiguration required")
  let createdAt ← readTime state.createdAt.toValue "created_at"
  let updatedAt ← readTime state.updatedAt.toValue "updated_at"
  require (decide (createdAt.seconds ≤ updatedAt.seconds)) (.value "State clock moved backwards")
  let limit ← readInteger (.int state.limit) "limit" policy.minimumLimit policy.maximumLimit
  let healthyStreak ← readInteger (.int state.healthyStreak) "healthy_streak" 0
    (policy.healthyBatchesToIncrease - 1)
  let processedBatches ← readInteger (.int state.processedBatches) "processed_batches" 0
    largestCount
  require (!(policy.mode == .fixed && (policy.fixedLimit != some limit || healthyStreak != 0)))
    (.value "Fixed-mode state differs from fixed setting")
  require (decide (state.recentBatchIds.length ≤ historyLimit))
    (.value "Invalid bounded batch history")
  require (state.recentBatchIds.all isIdentifier)
    (.value "historical batch ID must be a nonempty bounded string")
  require (decide state.recentBatchIds.Nodup &&
      (state.recentBatchIds.length : ℤ) == min processedBatches historyLimit)
    (.value "Duplicate/inconsistent batch history")
  validateHistory state
  require (decide (healthyStreak ≤ processedBatches))
    (.value "Health credit has no processed batch history")
  validateCredit environment state policy
  require (decide (1 ≤ state.lastReasons.length) && decide (state.lastReasons.length ≤ 30))
    (.value "Invalid decision reasons")
  require (state.lastReasons.all isIdentifier)
    (.value "reason must be a nonempty bounded string")

/-- `_current`: the clock of a step. -/
def current (state : ControllerState) (policy : ControllerPolicy) (now : Value) :
    Except Refusal Time := do
  validateState environment state policy
  let now ← readTime now "now"
  require (decide (state.updatedAt.seconds ≤ now.seconds))
    (.value "Decision clock precedes persisted state")
  return now

def decision (state : ControllerState) (oldLimit : ℤ) (reasons : List String)
    (qualifying consumed : Bool) (observation : Option BatchObservation) : Decision where
  state := { state with lastReasons := reasons }
  limit := state.limit
  previousLimit := oldLimit
  reasons := reasons
  qualifying := qualifying
  consumed := consumed
  observation := observation

def interrupt (state : ControllerState) (policy : ControllerPolicy) (now : Value)
    (reason : String) : Except Refusal Decision := do
  let now ← current environment state policy now
  let reason ← readIdentifier (.text reason) "interrupt reason"
  return decision { state with healthyStreak := 0, updatedAt := now } state.limit
    ["control_cycle_interrupted", reason] false false none

def reconfigured (state : ControllerState) (policy : ControllerPolicy) (now : Time)
    (requestedLimit : Option ℤ) : ControllerState :=
  { state with
    policy
    policySignature := environment.signature policy
    updatedAt := now
    healthyStreak := 0
    limit := requestedLimit.getD
      (policy.limitOr (min policy.maximumLimit (max policy.minimumLimit state.limit)))
    lastReasons := "explicit_policy_change_health_credit_reset" ::
      if requestedLimit.isSome then ["explicit_operator_limit_change"] else [] }

def checkRequestedLimit (policy : ControllerPolicy) : Option ℤ → Except Refusal Unit
  | none => return ()
  | some limit => do
    let _ ← readInteger (.int limit) "requested_limit" policy.minimumLimit policy.maximumLimit
    require (policy.mode == .adaptive) (.value "Operator limit requires adaptive mode")

def reconfigureState (state : ControllerState) (policy : ControllerPolicy) (now : Value)
    (requestedLimit : Option ℤ) : Except Refusal ControllerState := do
  let now ← current environment state state.policy now
  checkRequestedLimit policy requestedLimit
  if state.policy = policy ∧ requestedLimit = none then return state
  else
    let result := reconfigured environment state policy now requestedLimit
    validateState environment result policy
    return result

namespace BatchObservation

def pressure (observed : BatchObservation) (policy : ControllerPolicy) : List String :=
  (if observed.newAccessBlocks ≠ 0 then ["new_access_block"] else []) ++
    (if policy.transportPressureMinFailures ≤ observed.transportFailures then
      ["transport_pressure"] else []) ++
    (if observed.runtimeErrors ≠ 0 ∨ observed.integrityErrors ≠ 0 ∨ observed.databaseErrors ≠ 0 then
      ["runtime_integrity_or_database_error"] else []) ++
    (if observed.killed then ["killed_control_cycle"] else []) ++
    (if observed.limitUsed < observed.peakActiveTasks then
      ["observed_concurrency_exceeded_selected_limit"] else [])

/-- The reasons against a health credit. -/
def shortfalls (observed : BatchObservation) (state : ControllerState) : List String :=
  (if observed.publicationStatus ≠ .verified then ["publication_not_verified"] else []) ++
    (if observed.controlCycleComplete = false then ["control_cycle_incomplete"] else []) ++
    (if observed.transportFailures ≠ 0 then ["transport_failure_health_credit_reset"] else []) ++
    (if observed.limitUsed ≠ state.limit then
      ["observed_limit_differs_from_selected_limit"] else []) ++
    (if observed.startedAt.seconds < state.updatedAt.seconds then
      ["batch_started_before_latest_control_update"] else []) ++
    (if min observed.peakActiveTasks
        (min observed.peakActiveSources observed.peakActiveSchedulingHosts) < state.limit then
      ["observed_distinct_source_host_concurrency_not_saturated"] else []) ++
    (if observed.acceptedProgress < state.limit then
      ["insufficient_accepted_task_progress"] else []) ++
    (if observed.eligibleBacklogRemaining = 0 ∨
        min observed.eligibleDistinctSources observed.eligibleDistinctHosts ≤ state.limit then
      ["insufficient_distinct_source_host_backlog_to_grow"] else [])

/-- A batch that cannot follow the history: it ends in the future, starts before
the controller, or overlaps the last one. -/
def outOfOrder (observed : BatchObservation) (state : ControllerState) (now : Time) : Bool :=
  decide (now.seconds < observed.finishedAt.seconds) ||
    decide (observed.startedAt.seconds < state.createdAt.seconds) ||
    state.lastFinishedAt.any fun last =>
      decide (observed.finishedAt.seconds ≤ last.seconds) ||
        decide (observed.startedAt.seconds < last.seconds)

end BatchObservation

def consume (state : ControllerState) (observed : BatchObservation) (now : Time) :
    ControllerState :=
  let recent := state.recentBatchIds ++ [observed.batchId]
  { state with
    updatedAt := now
    processedBatches := state.processedBatches + 1
    recentBatchIds := recent.drop (recent.length - historyLimit)
    lastFinishedAt := some observed.finishedAt
    lastObservation := some observed.asDict
    healthyStreak := 0 }

/-- What the judgement of an observation changes. -/
structure Verdict where
  limit : ℤ
  healthyStreak : ℤ
  reasons : List String
  qualifying : Bool

def expiredCredit (state : ControllerState) (policy : ControllerPolicy) (now : Time) : Bool :=
  Decidable.decide (state.healthyStreak ≠ 0) &&
    state.lastFinishedAt.any fun last =>
      Decidable.decide ((policy.maxBatchAgeSeconds : ℚ) < environment.elapsed now last)

def continuedStreak (state : ControllerState) (policy : ControllerPolicy) (now : Time) : ℤ :=
  (if expiredCredit environment state policy now then 0 else state.healthyStreak) + 1

def expiryReasons (state : ControllerState) (policy : ControllerPolicy) (now : Time) :
    List String :=
  if expiredCredit environment state policy now then ["previous_health_credit_expired"] else []

/-- The credit for a healthy observation, and the growth it buys. -/
def grow (state : ControllerState) (policy : ControllerPolicy) (now : Time) : Verdict :=
  let healthyStreak := continuedStreak environment state policy now
  let expired := expiryReasons environment state policy now
  if healthyStreak = policy.healthyBatchesToIncrease then
    { limit := state.limit + 1, healthyStreak := 0, qualifying := true
      reasons := ["required_healthy_batches_reached", "increase_one"] ++ expired }
  else
    { limit := state.limit, healthyStreak, qualifying := true
      reasons := ["healthy_backlogged_parallel_batch", "await_additional_consecutive_health"] ++
        expired }

def verdict (state : ControllerState) (observed : BatchObservation) (policy : ControllerPolicy)
    (now : Time) : Verdict :=
  let hold := fun reasons =>
    { limit := state.limit, healthyStreak := 0, reasons, qualifying := false }
  let pressure := observed.pressure policy
  let shortfalls := observed.shortfalls state
  if (policy.maxBatchAgeSeconds : ℚ) < environment.elapsed now observed.finishedAt then
    hold ["stale_batch_no_health_or_pressure_credit"]
  else if policy.mode = .fixed then hold ("manual_fixed_limit" :: pressure)
  else if pressure ≠ [] then
    { limit := max policy.minimumLimit (state.limit - 1), healthyStreak := 0, qualifying := false
      reasons := pressure ++ ["conservative_one_step_backoff"] }
  else if shortfalls ≠ [] then hold shortfalls
  else if policy.maximumLimit ≤ state.limit then hold ["configured_ceiling_reached"]
  else grow environment state policy now

def consumed (state : ControllerState) (observed : BatchObservation) (now : Time)
    (verdict : Verdict) : ControllerState :=
  { consume state observed now with
    limit := verdict.limit
    healthyStreak := verdict.healthyStreak
    lastReasons := verdict.reasons }

def judge (state : ControllerState) (observed : BatchObservation) (policy : ControllerPolicy)
    (now : Time) : Decision :=
  let verdict := verdict environment state observed policy now
  decision (consumed state observed now verdict) state.limit verdict.reasons verdict.qualifying
    true (some observed)

def ignored (state : ControllerState) (observed : BatchObservation) : Decision where
  state := state
  limit := state.limit
  previousLimit := state.limit
  reasons := ["duplicate_batch_ignored"]
  observation := some observed

def decide (state : ControllerState) (observation : Option Mapping) (policy : ControllerPolicy)
    (now : Value) : Except Refusal Decision := do
  let clock ← current environment state policy now
  match BatchObservation.fromMapping observation with
  | .error .overflow => .error .overflow
  | .error (.value _) =>
    interrupt environment state policy now "invalid_or_missing_batch_metrics"
  | .ok observed =>
    if observed.batchId ∈ state.recentBatchIds then
      return ignored state observed
    else if observed.outOfOrder state clock then
      interrupt environment state policy now "future_overlapping_or_out_of_order_batch"
    else return judge environment state observed policy clock

end JobAgg.RemediationConcurrency
