import Mathlib.Tactic.NormNum
import JobAgg.Foundation.Run
import JobAgg.RemediationConcurrency.Controller

/-! # Every state is accepted

`validate_state` re-derives from the last observation what a step checked before
it gave credit. The invariant below is its acceptance, and every step keeps it.
-/

namespace JobAgg.RemediationConcurrency

variable {environment : Environment} {policy : ControllerPolicy}
  {state next : ControllerState}

structure Bound (state : ControllerState) (observation : BatchObservation) : Prop where
  wellFormed : observation.WellFormed
  stored : state.lastObservation = some observation.asDict
  finished : state.lastFinishedAt = some observation.finishedAt
  newest : state.recentBatchIds.getLast? = some observation.batchId
  started : state.createdAt.seconds ≤ observation.startedAt.seconds
  updated : observation.finishedAt.seconds ≤ state.updatedAt.seconds

/-- What `validate_state` accepts of the states that steps return. -/
structure Accepted (environment : Environment) (state : ControllerState) : Prop where
  version : state.version = version
  signature : state.policySignature = environment.signature state.policy
  created : state.createdAt.Readable
  updated : state.updatedAt.Readable
  clock : state.createdAt.seconds ≤ state.updatedAt.seconds
  limit : state.policy.minimumLimit ≤ state.limit ∧ state.limit ≤ state.policy.maximumLimit
  streak : 0 ≤ state.healthyStreak ∧
    state.healthyStreak ≤ state.policy.healthyBatchesToIncrease - 1
  processed : 0 ≤ state.processedBatches
  fixed : state.policy.mode = .fixed →
    state.policy.fixedLimit = some state.limit ∧ state.healthyStreak = 0
  bounded : state.recentBatchIds.length ≤ historyLimit
  identifiers : ∀ identifier ∈ state.recentBatchIds, isIdentifier identifier = true
  distinct : state.recentBatchIds.Nodup
  history : (state.recentBatchIds.length : ℤ) = min state.processedBatches historyLimit
  unprocessed : state.processedBatches = 0 →
    state.lastFinishedAt = none ∧ state.lastObservation = none
  bound : state.processedBatches ≠ 0 → ∃ observation, Bound state observation
  credit : state.healthyStreak ≠ 0 → state.healthyStreak ≤ state.processedBatches ∧
    ∃ observation, Bound state observation ∧
      contradictsCredit environment state state.policy observation = false
  reasons : 1 ≤ state.lastReasons.length ∧ state.lastReasons.length ≤ 30
  reasonTexts : ∀ reason ∈ state.lastReasons, isIdentifier reason = true

theorem validateHistory_of_accepted (accepted : Accepted environment state) :
    validateHistory state = .ok () := by
  unfold validateHistory
  split
  · rename_i none
    rcases accepted.unprocessed none with ⟨finished, observed⟩
    simp [finished, observed]
  · rename_i some
    rcases accepted.bound some with ⟨observation, bound⟩
    rw [bound.finished, bound.stored, BatchObservation.fromMapping_asDict bound.wellFormed]
    have read : readTime ((Option.some observation.finishedAt).elim .none Time.toValue)
        "last_finished_at" = .ok observation.finishedAt :=
      readTime_eq_ok.mpr ⟨rfl, bound.wellFormed.finishedAt⟩
    rw [read]
    simp [bound.newest, bound.started, bound.updated, bound.wellFormed.ordered]

theorem validateCredit_of_accepted (accepted : Accepted environment state) :
    validateCredit environment state state.policy = .ok () := by
  unfold validateCredit
  split
  · rename_i some
    rcases (accepted.credit some).2 with ⟨observation, bound, evidence⟩
    rw [bound.stored, BatchObservation.fromMapping_asDict bound.wellFormed]
    simp [evidence]
  · rfl

theorem validateState_of_accepted (accepted : Accepted environment state)
    (few : state.processedBatches ≤ largestCount) :
    validateState environment state state.policy = .ok () := by
  have fixedMode : (!(state.policy.mode == .fixed &&
      (state.policy.fixedLimit != some state.limit || state.healthyStreak != 0))) = true := by
    by_cases mode : state.policy.mode = .fixed
    · simp [accepted.fixed mode]
    · simp [mode]
  have streakBound : state.healthyStreak ≤ state.processedBatches := by
    by_cases none : state.healthyStreak = 0
    · rw [none]
      exact accepted.processed
    · exact (accepted.credit none).1
  unfold validateState
  simp only [bind_eq_ok, require_eq_ok, readTime_eq_ok, readInteger_eq_ok, decide_eq_true_eq,
    Bool.and_eq_true, beq_iff_eq, List.all_eq_true]
  exact ⟨(), trivial, (), ⟨accepted.version, accepted.signature⟩, _, ⟨rfl, accepted.created⟩, _,
    ⟨rfl, accepted.updated⟩, (), accepted.clock, _, ⟨rfl, accepted.limit⟩, _,
    ⟨rfl, accepted.streak⟩, _, ⟨rfl, accepted.processed, few⟩, (), fixedMode, (),
    accepted.bounded, (), accepted.identifiers, (), ⟨accepted.distinct, accepted.history⟩, (),
    validateHistory_of_accepted accepted, (), streakBound, (),
    validateCredit_of_accepted accepted, (), accepted.reasons, accepted.reasonTexts⟩

theorem Accepted.reset {signature : String} {clock : Time} {limit : ℤ} {reasons : List String}
    (accepted : Accepted environment state) (signed : signature = environment.signature policy)
    (readable : clock.Readable) (later : state.updatedAt.seconds ≤ clock.seconds)
    (within : policy.minimumLimit ≤ limit ∧ limit ≤ policy.maximumLimit)
    (fixed : policy.mode = .fixed → policy.fixedLimit = some limit)
    (given : 1 ≤ reasons.length ∧ reasons.length ≤ 30)
    (texts : ∀ reason ∈ reasons, isIdentifier reason = true) :
    Accepted environment
      { state with
        policy, policySignature := signature, updatedAt := clock, limit, healthyStreak := 0
        lastReasons := reasons } := by
  constructor
  case version => exact accepted.version
  case signature => exact signed
  case created => exact accepted.created
  case updated => exact readable
  case clock => exact accepted.clock.trans later
  case limit => exact within
  case streak => exact ⟨le_rfl, by have := policy.healthyBatches; dsimp only; omega⟩
  case processed => exact accepted.processed
  case fixed => exact fun mode => ⟨fixed mode, rfl⟩
  case bounded => exact accepted.bounded
  case identifiers => exact accepted.identifiers
  case distinct => exact accepted.distinct
  case history => exact accepted.history
  case unprocessed => exact accepted.unprocessed
  case bound =>
    intro some
    rcases accepted.bound some with ⟨observation, bound⟩
    exact ⟨observation, bound.wellFormed, bound.stored, bound.finished, bound.newest,
      bound.started, bound.updated.trans later⟩
  case credit => exact fun credit => absurd rfl credit
  case reasons => exact given
  case reasonTexts => exact texts

theorem recentBatchIds_consume {observed : BatchObservation} {clock : Time} :
    (consume state observed clock).recentBatchIds =
      (state.recentBatchIds ++ [observed.batchId]).drop
        ((state.recentBatchIds ++ [observed.batchId]).length - historyLimit) := by
  simp only [consume]

theorem recent_consume (observed : BatchObservation) (clock : Time)
    (accepted : Accepted environment state) :
    ((consume state observed clock).recentBatchIds.length : ℤ) =
      min (state.processedBatches + 1) historyLimit := by
  have history := accepted.history
  have processed := accepted.processed
  simp only [consume, List.length_drop, List.length_append, List.length_singleton, historyLimit]
    at history ⊢
  omega

structure Sound (environment : Environment) (state : ControllerState)
    (observed : BatchObservation) (clock : Time) (verdict : Verdict) : Prop where
  within : state.policy.minimumLimit ≤ verdict.limit ∧ verdict.limit ≤ state.policy.maximumLimit
  fixed : state.policy.mode = .fixed →
    state.policy.fixedLimit = some verdict.limit ∧ verdict.healthyStreak = 0
  credit : 0 ≤ verdict.healthyStreak ∧
    verdict.healthyStreak ≤ state.policy.healthyBatchesToIncrease - 1
  earned : verdict.healthyStreak ≠ 0 → verdict.healthyStreak ≤ state.processedBatches + 1 ∧
    contradictsCredit environment (consumed state observed clock verdict) state.policy observed =
      false
  length : 1 ≤ verdict.reasons.length ∧ verdict.reasons.length ≤ 30
  texts : ∀ reason ∈ verdict.reasons, isIdentifier reason = true

theorem Accepted.consumed {observed : BatchObservation} {clock : Time} {verdict : Verdict}
    (accepted : Accepted environment state) (wellFormed : observed.WellFormed)
    (fresh : observed.batchId ∉ state.recentBatchIds)
    (inOrder : observed.outOfOrder state clock = false)
    (readable : clock.Readable) (later : state.updatedAt.seconds ≤ clock.seconds)
    (sound : Sound environment state observed clock verdict) :
    Accepted environment (consumed state observed clock verdict) := by
  simp only [BatchObservation.outOfOrder, Bool.or_eq_false_iff, decide_eq_false_iff_not,
    not_lt] at inOrder
  have length := recent_consume observed clock accepted
  have bound : Bound (RemediationConcurrency.consumed state observed clock verdict) observed := by
    refine ⟨wellFormed, rfl, rfl, ?_, inOrder.1.2, inOrder.1.1⟩
    have room : ¬ (state.recentBatchIds ++ [observed.batchId]).length ≤
        (state.recentBatchIds ++ [observed.batchId]).length - historyLimit := by
      simp only [List.length_append, List.length_singleton, historyLimit]
      omega
    simp only [RemediationConcurrency.consumed, consume, List.getLast?_drop, if_neg room,
      List.getLast?_concat]
  constructor
  case version => exact accepted.version
  case signature => exact accepted.signature
  case created => exact accepted.created
  case updated => exact readable
  case clock => exact accepted.clock.trans later
  case limit => exact sound.within
  case streak => exact sound.credit
  case processed =>
    have processed := accepted.processed
    change 0 ≤ state.processedBatches + 1
    omega
  case fixed => exact sound.fixed
  case bounded =>
    have upper : min (state.processedBatches + 1) (historyLimit : ℤ) ≤ historyLimit :=
      min_le_right _ _
    dsimp only [RemediationConcurrency.consumed]
    omega
  case identifiers =>
    dsimp only [RemediationConcurrency.consumed]
    rw [recentBatchIds_consume]
    intro identifier member
    rcases List.mem_append.mp (List.mem_of_mem_drop member) with old | added
    · exact accepted.identifiers identifier old
    · rw [List.mem_singleton.mp added]
      exact wellFormed.batchId
  case distinct =>
    dsimp only [RemediationConcurrency.consumed]
    rw [recentBatchIds_consume]
    apply List.Nodup.sublist (List.drop_sublist _ _)
    rw [List.nodup_append]
    refine ⟨accepted.distinct, by simp, ?_⟩
    intro identifier old other added equal
    rw [List.mem_singleton.mp added] at equal
    exact fresh (equal ▸ old)
  case history =>
    dsimp only [RemediationConcurrency.consumed]
    exact length
  case unprocessed =>
    have processed := accepted.processed
    intro none
    simp only [RemediationConcurrency.consumed, consume] at none
    omega
  case bound => exact fun _ => ⟨observed, bound⟩
  case credit => exact fun some => ⟨(sound.earned some).1, observed, bound, (sound.earned some).2⟩
  case reasons => exact sound.length
  case reasonTexts => exact sound.texts

section Steps

variable {observed : BatchObservation} {clock : Time} {now : Value}

theorem current_eq_ok :
    current environment state policy now = .ok clock ↔
      validateState environment state policy = .ok () ∧ readTime now "now" = .ok clock ∧
        state.updatedAt.seconds ≤ clock.seconds := by
  unfold current
  simp only [bind_eq_ok, require_eq_ok, pure_eq_ok, decide_eq_true_eq]
  constructor
  · rintro ⟨_, valid, time, read, _, later, rfl⟩
    exact ⟨valid, read, later⟩
  · rintro ⟨valid, read, later⟩
    exact ⟨(), valid, clock, read, (), later, rfl⟩

theorem policy_of_validateState (valid : validateState environment state policy = .ok ()) :
    state.policy = policy := by
  unfold validateState at valid
  rcases bind_eq_ok.mp valid with ⟨_, same, _⟩
  simpa using same

theorem Accepted.interrupted {decision : Decision} {reason : String}
    (accepted : Accepted environment state)
    (interrupted : interrupt environment state policy now reason = .ok decision) :
    Accepted environment decision.state := by
  unfold interrupt at interrupted
  simp only [bind_eq_ok, pure_eq_ok, current_eq_ok, readIdentifier_eq_ok] at interrupted
  rcases interrupted with ⟨clock, ⟨_, read, later⟩, text, ⟨_, identifier⟩, rfl⟩
  apply accepted.reset accepted.signature (readTime_eq_ok.mp read).2 later accepted.limit
    (fun mode => (accepted.fixed mode).1)
  · simp
  · intro reason member
    simp only [List.mem_cons, List.not_mem_nil, or_false] at member
    rcases member with rfl | rfl
    · decide
    · exact identifier

theorem limitOr_within (policy : ControllerPolicy) (value : ℤ)
    (within : policy.minimumLimit ≤ value ∧ value ≤ policy.maximumLimit) :
    (policy.minimumLimit ≤ policy.limitOr value ∧ policy.limitOr value ≤ policy.maximumLimit) ∧
      (policy.mode = .fixed → policy.fixedLimit = some (policy.limitOr value)) := by
  unfold ControllerPolicy.limitOr
  cases mode : policy.mode with
  | adaptive => exact ⟨within, by simp⟩
  | fixed =>
    rcases Option.isSome_iff_exists.mp (policy.fixedGiven.mpr mode) with ⟨limit, given⟩
    rw [given]
    exact ⟨policy.fixedWithin limit given, fun _ => rfl⟩

theorem accepted_initialState (started : initialState environment policy now = .ok state) :
    Accepted environment state := by
  unfold initialState at started
  simp only [bind_eq_ok, pure_eq_ok] at started
  rcases started with ⟨clock, read, rfl⟩
  have limits := policy.limits
  have within := limitOr_within policy policy.initialLimit ⟨limits.2.1, limits.2.2.1⟩
  constructor
  case version => rfl
  case signature => rfl
  case created => exact (readTime_eq_ok.mp read).2
  case updated => exact (readTime_eq_ok.mp read).2
  case clock => exact le_rfl
  case limit => exact within.1
  case streak => exact ⟨le_rfl, by have := policy.healthyBatches; dsimp only [startedAt]; omega⟩
  case processed => exact le_rfl
  case fixed => exact fun mode => ⟨within.2 mode, rfl⟩
  case bounded => exact Nat.zero_le _
  case identifiers => simp [startedAt]
  case distinct => exact List.nodup_nil
  case history => simp [startedAt]
  case unprocessed => exact fun _ => ⟨rfl, rfl⟩
  case bound => exact fun some => absurd rfl some
  case credit => exact fun some => absurd rfl some
  case reasons => simp [startedAt]
  case reasonTexts =>
    intro reason member
    rw [List.mem_singleton.mp member]
    decide

theorem Accepted.reconfigured {requestedLimit : Option ℤ} (accepted : Accepted environment state)
    (done : reconfigureState environment state policy now requestedLimit = .ok next) :
    Accepted environment next := by
  unfold reconfigureState at done
  rcases bind_eq_ok.mp done with ⟨clock, now, rest⟩
  rcases current_eq_ok.mp now with ⟨_, read, later⟩
  rcases bind_eq_ok.mp rest with ⟨_, checked, changed⟩
  split at changed
  · rw [pure_eq_ok] at changed
    exact changed ▸ accepted
  · rcases bind_eq_ok.mp changed with ⟨_, _, returned⟩
    rw [pure_eq_ok] at returned
    rw [← returned]
    have limits := policy.limits
    have clamped := limitOr_within policy
      (min policy.maximumLimit (max policy.minimumLimit state.limit)) (by omega)
    have texts : ∀ reason ∈ ["explicit_policy_change_health_credit_reset",
        "explicit_operator_limit_change"], isIdentifier reason = true := by decide
    cases requestedLimit with
    | none =>
      apply accepted.reset rfl (readTime_eq_ok.mp read).2 later clamped.1 clamped.2
      · simp
      · intro reason member
        apply texts
        simp only [Option.isSome_none, Bool.false_eq_true, if_false] at member
        exact List.mem_of_mem_take (i := 1) member
    | some limit =>
      simp only [checkRequestedLimit, bind_eq_ok, require_eq_ok, readInteger_eq_ok,
        beq_iff_eq] at checked
      rcases checked with ⟨number, ⟨same, within⟩, adaptive⟩
      rw [Value.int.injEq] at same
      rw [← same] at within
      apply accepted.reset rfl (readTime_eq_ok.mp read).2 later within
      · intro fixed
        rw [adaptive] at fixed
        simp at fixed
      · simp
      · exact texts

theorem pressure_eq_nil :
    observed.pressure policy = [] ↔ observed.newAccessBlocks = 0 ∧
      observed.transportFailures < policy.transportPressureMinFailures ∧
      (observed.runtimeErrors = 0 ∧ observed.integrityErrors = 0 ∧ observed.databaseErrors = 0) ∧
      observed.killed = false ∧ observed.peakActiveTasks ≤ observed.limitUsed := by
  simp [BatchObservation.pressure, and_assoc]

theorem shortfalls_eq_nil :
    observed.shortfalls state = [] ↔ observed.publicationStatus = .verified ∧
      observed.controlCycleComplete = true ∧ observed.transportFailures = 0 ∧
      observed.limitUsed = state.limit ∧
      state.updatedAt.seconds ≤ observed.startedAt.seconds ∧
      state.limit ≤ min observed.peakActiveTasks
        (min observed.peakActiveSources observed.peakActiveSchedulingHosts) ∧
      state.limit ≤ observed.acceptedProgress ∧ observed.eligibleBacklogRemaining ≠ 0 ∧
      state.limit < min observed.eligibleDistinctSources observed.eligibleDistinctHosts := by
  simp [BatchObservation.shortfalls, and_assoc]

theorem ite_sublist {condition : Prop} [Decidable condition] {text : String} :
    (if condition then [text] else []).Sublist [text] := by
  split
  · exact List.Sublist.refl _
  · exact List.nil_sublist _

theorem pressure_sublist :
    (observed.pressure policy).Sublist
      ["new_access_block", "transport_pressure", "runtime_integrity_or_database_error",
        "killed_control_cycle", "observed_concurrency_exceeded_selected_limit"] :=
  (((ite_sublist.append ite_sublist).append ite_sublist).append ite_sublist).append ite_sublist

theorem shortfalls_sublist :
    (observed.shortfalls state).Sublist
      ["publication_not_verified", "control_cycle_incomplete",
        "transport_failure_health_credit_reset", "observed_limit_differs_from_selected_limit",
        "batch_started_before_latest_control_update",
        "observed_distinct_source_host_concurrency_not_saturated",
        "insufficient_accepted_task_progress",
        "insufficient_distinct_source_host_backlog_to_grow"] :=
  ((((((ite_sublist.append ite_sublist).append ite_sublist).append ite_sublist).append
    ite_sublist).append ite_sublist).append ite_sublist).append ite_sublist

private def decisionReasons : List String :=
  ["stale_batch_no_health_or_pressure_credit", "manual_fixed_limit", "new_access_block",
    "transport_pressure", "runtime_integrity_or_database_error", "killed_control_cycle",
    "observed_concurrency_exceeded_selected_limit", "conservative_one_step_backoff",
    "publication_not_verified", "control_cycle_incomplete",
    "transport_failure_health_credit_reset", "observed_limit_differs_from_selected_limit",
    "batch_started_before_latest_control_update",
    "observed_distinct_source_host_concurrency_not_saturated",
    "insufficient_accepted_task_progress", "insufficient_distinct_source_host_backlog_to_grow",
    "configured_ceiling_reached", "required_healthy_batches_reached", "increase_one",
    "healthy_backlogged_parallel_batch", "await_additional_consecutive_health",
    "previous_health_credit_expired"]

private theorem decisionReasons_texts : ∀ reason ∈ decisionReasons, isIdentifier reason = true := by
  decide

private theorem pressure_known (observed : BatchObservation) (policy : ControllerPolicy) :
    (observed.pressure policy).length ≤ 5 ∧
    ∀ reason ∈ observed.pressure policy, reason ∈ decisionReasons := by
  refine ⟨pressure_sublist.length_le, fun reason member => ?_⟩
  have known : ∀ reason ∈ ["new_access_block", "transport_pressure",
      "runtime_integrity_or_database_error", "killed_control_cycle",
      "observed_concurrency_exceeded_selected_limit"], reason ∈ decisionReasons := by decide
  exact known reason (pressure_sublist.subset member)

private theorem shortfalls_known (observed : BatchObservation) (state : ControllerState) :
    (observed.shortfalls state).length ≤ 8 ∧
    ∀ reason ∈ observed.shortfalls state, reason ∈ decisionReasons := by
  refine ⟨shortfalls_sublist.length_le, fun reason member => ?_⟩
  have known : ∀ reason ∈ ["publication_not_verified", "control_cycle_incomplete",
      "transport_failure_health_credit_reset", "observed_limit_differs_from_selected_limit",
      "batch_started_before_latest_control_update",
      "observed_distinct_source_host_concurrency_not_saturated",
      "insufficient_accepted_task_progress",
      "insufficient_distinct_source_host_backlog_to_grow"], reason ∈ decisionReasons := by decide
  exact known reason (shortfalls_sublist.subset member)

theorem evidence_of_healthy {verdict : Verdict}
    (fresh : ¬ (policy.maxBatchAgeSeconds : ℚ) < environment.elapsed clock observed.finishedAt)
    (calm : observed.pressure policy = []) (healthy : observed.shortfalls state = [])
    (same : verdict.limit = state.limit) :
    contradictsCredit environment (consumed state observed clock verdict) policy observed =
      false := by
  rcases pressure_eq_nil.mp calm with ⟨blocks, _, ⟨runtime, integrity, database⟩, killed, active⟩
  rcases shortfalls_eq_nil.mp healthy with
    ⟨verified, complete, transport, used, _, saturated, progress, backlog, room⟩
  simp only [contradictsCredit, consumed, consume, Bool.or_eq_false_iff, bne_eq_false_iff_eq,
    Bool.not_eq_false', decide_eq_false_iff_not, not_lt, not_le, beq_eq_false_iff_ne, same]
  exact ⟨⟨⟨⟨⟨⟨⟨⟨⟨⟨⟨⟨⟨⟨verified, complete⟩, killed⟩, blocks⟩, transport⟩, runtime⟩, integrity⟩,
    database⟩, used⟩, saturated⟩, active⟩, progress⟩, backlog⟩, room⟩, not_lt.mp fresh⟩

theorem sound_of_noCredit {limit : ℤ} {reasons : List String} {qualifying : Bool}
    (within : state.policy.minimumLimit ≤ limit ∧ limit ≤ state.policy.maximumLimit)
    (fixed : state.policy.mode = .fixed → state.policy.fixedLimit = some limit)
    (length : 1 ≤ reasons.length ∧ reasons.length ≤ 30)
    (known : ∀ reason ∈ reasons, reason ∈ decisionReasons) :
    Sound environment state observed clock
      { limit, healthyStreak := 0, reasons, qualifying } := by
  have batches := state.policy.healthyBatches
  constructor
  case within => exact within
  case fixed => exact fun mode => ⟨fixed mode, rfl⟩
  case credit => exact ⟨le_rfl, by dsimp only; omega⟩
  case earned => exact fun credit => absurd rfl credit
  case length => exact length
  case texts => exact fun reason member => decisionReasons_texts reason (known reason member)

theorem continuedStreak_bounds (clock : Time) (accepted : Accepted environment state) :
    0 ≤ continuedStreak environment state state.policy clock ∧
      continuedStreak environment state state.policy clock ≤
        state.policy.healthyBatchesToIncrease ∧
      continuedStreak environment state state.policy clock ≤ state.processedBatches + 1 := by
  have streak := accepted.streak
  have batches := state.policy.healthyBatches
  have processed := accepted.processed
  have earned : state.healthyStreak ≤ state.processedBatches := by
    by_cases none : state.healthyStreak = 0
    · omega
    · exact (accepted.credit none).1
  unfold continuedStreak
  split <;> omega

private theorem expiryReasons_known (environment : Environment) (state : ControllerState)
    (policy : ControllerPolicy) (clock : Time) :
    (expiryReasons environment state policy clock).length ≤ 1 ∧
      ∀ reason ∈ expiryReasons environment state policy clock, reason ∈ decisionReasons := by
  unfold expiryReasons
  split
  · exact ⟨le_rfl, by decide⟩
  · exact ⟨Nat.zero_le _, by simp⟩

theorem sound_grow (accepted : Accepted environment state)
    (adaptive : state.policy.mode ≠ .fixed)
    (fresh : ¬ (state.policy.maxBatchAgeSeconds : ℚ) <
      environment.elapsed clock observed.finishedAt)
    (calm : observed.pressure state.policy = []) (healthy : observed.shortfalls state = [])
    (room : ¬ state.policy.maximumLimit ≤ state.limit) :
    Sound environment state observed clock (grow environment state state.policy clock) := by
  have within := accepted.limit
  have credit := continuedStreak_bounds clock accepted
  have expired := expiryReasons_known environment state state.policy clock
  unfold grow
  dsimp only
  split
  · apply sound_of_noCredit (by omega) (fun mode => absurd mode adaptive)
    · simp only [List.length_append, List.length_cons, List.length_nil]
      omega
    · intro reason member
      rcases List.mem_append.mp member with growth | expiry
      · have known : ∀ reason ∈ ["required_healthy_batches_reached", "increase_one"],
            reason ∈ decisionReasons := by decide
        exact known reason growth
      · exact expired.2 reason expiry
  · rename_i waiting
    constructor
    case within => exact within
    case fixed => exact fun mode => absurd mode adaptive
    case credit => exact ⟨credit.1, by dsimp only; omega⟩
    case earned => exact fun _ => ⟨credit.2.2, evidence_of_healthy fresh calm healthy rfl⟩
    case length =>
      simp only [List.length_append, List.length_cons, List.length_nil]
      omega
    case texts =>
      intro reason member
      apply decisionReasons_texts
      rcases List.mem_append.mp member with waits | expiry
      · have known : ∀ reason ∈ ["healthy_backlogged_parallel_batch",
            "await_additional_consecutive_health"], reason ∈ decisionReasons := by decide
        exact known reason waits
      · exact expired.2 reason expiry

theorem sound_verdict (accepted : Accepted environment state) :
    Sound environment state observed clock
      (verdict environment state observed state.policy clock) := by
  have pressure := pressure_known observed state.policy
  have shortfalls := shortfalls_known observed state
  have fixedLimit := fun mode => (accepted.fixed mode).1
  have within := accepted.limit
  unfold verdict
  dsimp only
  split
  · exact sound_of_noCredit within fixedLimit (by simp) (by decide)
  rename_i fresh
  split
  · apply sound_of_noCredit within fixedLimit
    · simp only [List.length_cons]
      omega
    · intro reason member
      rcases List.mem_cons.mp member with rfl | sign
      · decide
      · exact pressure.2 reason sign
  rename_i adaptive
  split
  · apply sound_of_noCredit (by omega) (fun mode => absurd mode adaptive)
    · simp only [List.length_append, List.length_singleton]
      omega
    · intro reason member
      rcases List.mem_append.mp member with sign | last
      · exact pressure.2 reason sign
      · rw [List.mem_singleton.mp last]
        decide
  rename_i calm
  split
  · rename_i short
    apply sound_of_noCredit within fixedLimit
    · have some := List.length_pos_iff.mpr short
      omega
    · exact shortfalls.2
  rename_i healthy
  split
  · exact sound_of_noCredit within fixedLimit (by simp) (by decide)
  · rename_i room
    exact sound_grow accepted adaptive fresh (not_not.mp calm) (not_not.mp healthy) room

inductive Call
  | decide (observation : Option Mapping) (policy : ControllerPolicy) (now : Value)
  | interrupt (policy : ControllerPolicy) (now : Value) (reason : String)
  | reconfigureState (policy : ControllerPolicy) (now : Value) (requestedLimit : Option ℤ)

inductive Step (environment : Environment) : ControllerState → Call → ControllerState → Prop
  | decide {state : ControllerState} {observation : Option Mapping} {policy : ControllerPolicy}
      {now : Value} {decision : Decision}
      (decided : RemediationConcurrency.decide environment state observation policy now =
        .ok decision) :
      Step environment state (.decide observation policy now) decision.state
  | interrupt {state : ControllerState} {policy : ControllerPolicy} {now : Value}
      {reason : String} {decision : Decision}
      (interrupted : RemediationConcurrency.interrupt environment state policy now reason =
        .ok decision) :
      Step environment state (.interrupt policy now reason) decision.state
  | reconfigureState {state next : ControllerState} {policy : ControllerPolicy} {now : Value}
      {requestedLimit : Option ℤ}
      (reconfigured : RemediationConcurrency.reconfigureState environment state policy now
        requestedLimit = .ok next) :
      Step environment state (.reconfigureState policy now requestedLimit) next

theorem decide_eq_ok {observation : Option Mapping} {decision : Decision}
    (decided : decide environment state observation policy now = .ok decision) :
    state.policy = policy ∧
      ((∃ reason, interrupt environment state policy now reason = .ok decision) ∨
        ∃ observed, BatchObservation.fromMapping observation = .ok observed ∧
          (observed.batchId ∈ state.recentBatchIds ∧ decision = ignored state observed ∨
            ∃ clock, readTime now "now" = .ok clock ∧
              state.updatedAt.seconds ≤ clock.seconds ∧
              observed.batchId ∉ state.recentBatchIds ∧
              observed.outOfOrder state clock = false ∧
              decision = judge environment state observed policy clock)) := by
  unfold decide at decided
  rcases bind_eq_ok.mp decided with ⟨clock, now, rest⟩
  rcases current_eq_ok.mp now with ⟨valid, read, later⟩
  refine ⟨policy_of_validateState valid, ?_⟩
  split at rest
  · simp at rest
  · exact .inl ⟨_, rest⟩
  · rename_i observed reading
    split at rest
    · rename_i seen
      rw [pure_eq_ok] at rest
      rw [← rest]
      exact .inr ⟨observed, reading, .inl ⟨seen, rfl⟩⟩
    · rename_i unseen
      split at rest
      · exact .inl ⟨_, rest⟩
      · rename_i inOrder
        rw [pure_eq_ok] at rest
        exact .inr ⟨observed, reading, .inr ⟨clock, read, later, unseen, by simpa using inOrder,
          rest.symm⟩⟩

theorem judge_state : (judge environment state observed policy clock).state =
    consumed state observed clock (verdict environment state observed policy clock) := by
  simp only [judge, decision, consumed]

theorem Step.accepted {call : Call} (step : Step environment state call next)
    (accepted : Accepted environment state) : Accepted environment next := by
  cases step with
  | decide decided =>
    rcases decide_eq_ok decided with ⟨rfl, ⟨reason, interrupted⟩ | ⟨observed, reading,
      ⟨_, rfl⟩ | ⟨clock, read, later, unseen, inOrder, rfl⟩⟩⟩
    · exact accepted.interrupted interrupted
    · exact accepted
    · rw [judge_state]
      exact accepted.consumed (BatchObservation.wellFormed_of_fromMapping reading) unseen
        inOrder (readTime_eq_ok.mp read).2 later (sound_verdict accepted)
  | interrupt interrupted => exact accepted.interrupted interrupted
  | reconfigureState reconfigured => exact accepted.reconfigured reconfigured

theorem decide_eq_judge (accepted : Accepted environment state)
    (few : state.processedBatches ≤ largestCount) (wellFormed : observed.WellFormed)
    (read : readTime now "now" = .ok clock) (later : state.updatedAt.seconds ≤ clock.seconds)
    (unseen : observed.batchId ∉ state.recentBatchIds)
    (inOrder : observed.outOfOrder state clock = false) :
    decide environment state (some observed.asDict) state.policy now =
      .ok (judge environment state observed state.policy clock) := by
  have proceeds : current environment state state.policy now = .ok clock :=
    current_eq_ok.mpr ⟨validateState_of_accepted accepted few, read, later⟩
  unfold decide
  rw [proceeds, ok_bind, BatchObservation.fromMapping_asDict wellFormed]
  dsimp only
  rw [if_neg unseen, inOrder]
  rfl

theorem verdict_limit (within : state.policy.minimumLimit ≤ state.limit) :
    state.limit - 1 ≤ (verdict environment state observed state.policy clock).limit ∧
      (verdict environment state observed state.policy clock).limit ≤ state.limit + 1 := by
  unfold verdict grow
  dsimp only
  repeat' split
  all_goals dsimp only; omega

theorem interrupt_eq_ok {result : Decision} {reason : String}
    (interrupted : interrupt environment state policy now reason = .ok result) :
    ∃ clock, result = decision { state with healthyStreak := 0, updatedAt := clock } state.limit
      ["control_cycle_interrupted", reason] false false none := by
  unfold interrupt at interrupted
  simp only [bind_eq_ok, pure_eq_ok, readIdentifier_eq_ok, Value.text.injEq] at interrupted
  rcases interrupted with ⟨clock, _, _, ⟨rfl, _⟩, rfl⟩
  exact ⟨clock, rfl⟩

end Steps

theorem readTime_small {seconds : ℤ} (name : String) (positive : 0 ≤ seconds)
    (small : seconds < 18014398509481983) :
    readTime (.int seconds) name = .ok (.int seconds) := by
  have split : (2 : ℤ) ^ 1024 = 2 ^ 970 * 18014398509481984 := by
    rw [show (18014398509481984 : ℤ) = 2 ^ 54 by norm_num, ← pow_add]
  have large : (1 : ℤ) ≤ 2 ^ 970 := one_le_pow₀ (by norm_num)
  refine readTime_eq_ok.mpr ⟨rfl, ?_, positive⟩
  rw [abs_of_nonneg positive, floatOverflow, split]
  generalize (2 : ℤ) ^ 970 = power at large
  omega

/-- Times that are read from a clock of whole seconds. -/
def exactEnvironment : Environment where
  signature _ := ""
  elapsed later earlier := later.seconds - earlier.seconds

def healthyBatch (batchId : String) (limit startedAt finishedAt : ℤ) : BatchObservation where
  batchId := batchId
  startedAt := .int startedAt
  finishedAt := .int finishedAt
  limitUsed := limit
  eligibleDistinctSources := limit + 1
  eligibleDistinctHosts := limit + 1
  peakActiveTasks := limit
  peakActiveSources := limit
  peakActiveHosts := limit
  peakActiveSchedulingHosts := limit
  attemptedTasks := limit
  acceptedProgress := limit
  eligibleBacklogRemaining := 1
  newAccessBlocks := 0
  transportFailures := 0
  runtimeErrors := 0
  integrityErrors := 0
  databaseErrors := 0
  controlCycleComplete := true
  killed := false
  publicationStatus := .verified

theorem healthyBatch_wellFormed (batchId : String) (limit startedAt finishedAt : ℤ)
    (identifier : isIdentifier batchId = true) (within : 1 ≤ limit ∧ limit ≤ hardCeiling)
    (started : 0 ≤ startedAt) (ordered : startedAt ≤ finishedAt)
    (small : finishedAt < 18014398509481983) :
    (healthyBatch batchId limit startedAt finishedAt).WellFormed := by
  have ceiling : hardCeiling < largestCount := by decide
  have readable : ∀ seconds, 0 ≤ seconds → seconds < 18014398509481983 →
      (Time.int seconds).Readable :=
    fun seconds positive small => (readTime_eq_ok.mp (readTime_small "" positive small)).2
  constructor
  case batchId => exact identifier
  case startedAt => exact readable _ started (by omega)
  case finishedAt => exact readable _ (by omega) small
  case ordered =>
    simp only [healthyBatch, Time.seconds]
    exact_mod_cast ordered
  case limitUsed => exact within
  case counts =>
    intro count member
    simp only [BatchObservation.counts, healthyBatch, List.mem_cons, List.not_mem_nil,
      or_false] at member
    omega
  case progress => simp [healthyBatch]

theorem initialState_eq_ok {seconds : ℤ} (positive : 0 ≤ seconds)
    (small : seconds < 18014398509481983) :
    initialState environment policy (.int seconds) =
      .ok (startedAt environment policy (.int seconds)) := by
  unfold initialState
  rw [readTime_small "now" positive small]
  rfl

/-- For every run from an initial state: the state is accepted under its policy,
its limit lies within the policy, a decision moves it by one at most, and an
observation that is delivered again changes nothing. -/
theorem controller_acceptsItsStates {environment : Environment} {policy : ControllerPolicy}
    {now : Value} {calls : List Call} {started state : ControllerState}
    (initial : initialState environment policy now = .ok started)
    (run : Run (Step environment) started calls state)
    (few : state.processedBatches < 1000000000) :
    validateState environment state state.policy = .ok () ∧
    (state.policy.minimumLimit ≤ state.limit ∧ state.limit ≤ state.policy.maximumLimit) ∧
    (∀ observation policy now decision,
      decide environment state observation policy now = .ok decision →
      state.limit - 1 ≤ decision.state.limit ∧ decision.state.limit ≤ state.limit + 1) ∧
    (∀ observation observed, BatchObservation.fromMapping observation = .ok observed →
      observed.batchId ∈ state.recentBatchIds → ∀ now clock, readTime now "now" = .ok clock →
      state.updatedAt.seconds ≤ clock.seconds →
      ∃ decision, decide environment state observation state.policy now = .ok decision ∧
        decision.state = state) := by
  have accepted : Accepted environment state := run.invariant (Accepted environment)
    (fun _ _ _ step held => step.accepted held) (accepted_initialState initial)
  have valid := validateState_of_accepted accepted (le_of_lt few)
  refine ⟨valid, accepted.limit, ?_, ?_⟩
  · intro observation policy now decision decided
    rcases decide_eq_ok decided with ⟨rfl, ⟨reason, interrupted⟩ | ⟨observed, reading,
      ⟨_, rfl⟩ | ⟨clock, _, _, _, _, rfl⟩⟩⟩
    · rcases interrupt_eq_ok interrupted with ⟨_, rfl⟩
      dsimp only [RemediationConcurrency.decision]
      omega
    · dsimp only [ignored]
      omega
    · rw [judge_state]
      exact verdict_limit accepted.limit.1
  · intro observation observed reading seen now clock read later
    have proceeds : current environment state state.policy now = .ok clock :=
      current_eq_ok.mpr ⟨valid, read, later⟩
    refine ⟨ignored state observed, ?_, rfl⟩
    unfold decide
    rw [proceeds, ok_bind, reading]
    exact if_pos seen

/-- A first healthy batch gives credit. -/
theorem controller_acceptsItsStates_healthy :
    ∃ decision : Decision,
      decide exactEnvironment (startedAt exactEnvironment {} (.int 0))
          (some (healthyBatch "first" 4 1 2).asDict) {} (.int 3) = .ok decision ∧
      decision.state.healthyStreak = 1 ∧
      validateState exactEnvironment decision.state decision.state.policy = .ok () := by
  have initial : initialState exactEnvironment {} (.int 0) = _ :=
    initialState_eq_ok (by decide) (by decide)
  have wellFormed := healthyBatch_wellFormed "first" 4 1 2 (by decide) (by decide) (by decide)
    (by decide) (by decide)
  have decided := decide_eq_judge (accepted_initialState initial) (by decide) wellFormed
    (readTime_small "now" (show (0 : ℤ) ≤ 3 by decide) (by decide)) (by decide)
    (by decide) (by decide)
  have run := Run.single (Step.decide decided)
  have valid := controller_acceptsItsStates initial run (by decide)
  exact ⟨_, decided, by decide +kernel, valid.1⟩

end JobAgg.RemediationConcurrency
