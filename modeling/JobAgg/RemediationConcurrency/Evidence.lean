import Mathlib.Data.List.Chain
import JobAgg.RemediationConcurrency.Validity

/-! # The evidence behind a higher limit

The credit is a counter. Over a run it counts the latest consumed observations
that nothing has broken, each of them healthy at the limit they would raise.
-/

namespace JobAgg.RemediationConcurrency

/-- A call with the clock that it read and what it returned. A call of
`reconfigure_state` that asks for nothing new returns its state. -/
inductive Event
  | decided (clock : Time) (decision : Decision)
  | interrupted
  | reconfigured (changed : Bool)

inductive Transition (environment : Environment) : ControllerState → Event → ControllerState → Prop
  | decide {state : ControllerState} {observation : Option Mapping} {policy : ControllerPolicy}
      {clock : Time} {decision : Decision}
      (decided : RemediationConcurrency.decide environment state observation policy
        clock.toValue = .ok decision) :
      Transition environment state (.decided clock decision) decision.state
  | interrupt {state : ControllerState} {policy : ControllerPolicy} {now : Value}
      {reason : String} {decision : Decision}
      (interrupted : RemediationConcurrency.interrupt environment state policy now reason =
        .ok decision) :
      Transition environment state .interrupted decision.state
  | reconfigureState {state next : ControllerState} {policy : ControllerPolicy} {now : Value}
      {requestedLimit : Option ℤ} {changed : Bool}
      (reconfigured : RemediationConcurrency.reconfigureState environment state policy now
        requestedLimit = .ok next)
      (change : changed = true ↔ ¬ (state.policy = policy ∧ requestedLimit = none)) :
      Transition environment state (.reconfigured changed) next

namespace Event

/-- An interruption, also one that `decide` makes of an observation it cannot take. -/
def interrupts : Event → Bool
  | decided _ decision => decision.reasons.head? == some "control_cycle_interrupted"
  | interrupted => true
  | reconfigured _ => false

/-- An interruption or a reconfiguration that changes the policy or the limit. -/
def breaks (event : Event) : Bool :=
  match event with
  | reconfigured changed => changed
  | _ => event.interrupts

/-- An interruption or any call of `reconfigure_state`. -/
def calls (event : Event) : Bool :=
  match event with
  | reconfigured _ => true
  | _ => event.interrupts

def consumption : Event → Option (BatchObservation × Time)
  | decided clock decision =>
    if decision.consumed then decision.observation.map (·, clock) else none
  | _ => none

end Event

def consumptions (events : List Event) : List (BatchObservation × Time) :=
  events.filterMap Event.consumption

structure Healthy (environment : Environment) (policy : ControllerPolicy) (limit : ℤ)
    (consumption : BatchObservation × Time) : Prop where
  used : consumption.1.limitUsed = limit
  verified : consumption.1.publicationStatus = .verified
  complete : consumption.1.controlCycleComplete = true
  alive : consumption.1.killed = false
  noBlocks : consumption.1.newAccessBlocks = 0
  noErrors : consumption.1.transportFailures = 0 ∧ consumption.1.runtimeErrors = 0 ∧
    consumption.1.integrityErrors = 0 ∧ consumption.1.databaseErrors = 0
  saturated : limit ≤ consumption.1.peakActiveTasks ∧ limit ≤ consumption.1.peakActiveSources ∧
    limit ≤ consumption.1.peakActiveSchedulingHosts
  room : limit < consumption.1.eligibleDistinctSources ∧ limit < consumption.1.eligibleDistinctHosts
  fresh : environment.elapsed consumption.2 consumption.1.finishedAt ≤ policy.maxBatchAgeSeconds

def InTime (environment : Environment) (policy : ControllerPolicy)
    (earlier later : BatchObservation × Time) : Prop :=
  environment.elapsed later.2 earlier.1.finishedAt ≤ policy.maxBatchAgeSeconds

/-- The latest events, in which nothing is broken and `count` observations are
consumed, all of them healthy and in time. -/
structure Evidence (environment : Environment) (policy : ControllerPolicy) (limit : ℤ)
    (broken : Event → Bool) (count : ℤ) (events recent : List Event) : Prop where
  latest : recent <:+ events
  unbroken : ∀ event ∈ recent, broken event = false
  count : ((consumptions recent).length : ℤ) = count
  healthy : ∀ consumption ∈ consumptions recent, Healthy environment policy limit consumption
  inTime : (consumptions recent).IsChain (InTime environment policy)

section Growth

variable {environment : Environment} {policy : ControllerPolicy} {state : ControllerState}
  {limit count : ℤ} {broken : Event → Bool} {events recent : List Event} {event : Event}

theorem Evidence.start (events : List Event) :
    Evidence environment policy limit broken 0 events [] where
  latest := List.nil_suffix
  unbroken := by simp
  count := rfl
  healthy := by simp [consumptions]
  inTime := List.isChain_nil

theorem Evidence.append (evidence : Evidence environment policy limit broken count events recent)
    (unbroken : broken event = false) (nothing : event.consumption = none) :
    Evidence environment policy limit broken count (events ++ [event]) (recent ++ [event]) := by
  have same : consumptions (recent ++ [event]) = consumptions recent := by
    simp [consumptions, nothing]
  constructor
  case latest => exact List.suffix_append_self_iff.mpr evidence.latest
  case unbroken =>
    intro other member
    rcases List.mem_append.mp member with old | added
    · exact evidence.unbroken other old
    · rw [List.mem_singleton.mp added]
      exact unbroken
  case count => rw [same, evidence.count]
  case healthy => rw [same]; exact evidence.healthy
  case inTime => rw [same]; exact evidence.inTime

theorem Evidence.consume {consumption : BatchObservation × Time}
    (evidence : Evidence environment policy limit broken count events recent)
    (unbroken : broken event = false) (taken : event.consumption = some consumption)
    (healthy : Healthy environment policy limit consumption)
    (inTime : ∀ last ∈ (consumptions recent).getLast?, InTime environment policy last consumption) :
    Evidence environment policy limit broken (count + 1) (events ++ [event])
      (recent ++ [event]) := by
  have added : consumptions (recent ++ [event]) = consumptions recent ++ [consumption] := by
    simp [consumptions, taken]
  constructor
  case latest => exact List.suffix_append_self_iff.mpr evidence.latest
  case unbroken =>
    intro other member
    rcases List.mem_append.mp member with old | new
    · exact evidence.unbroken other old
    · rw [List.mem_singleton.mp new]
      exact unbroken
  case count =>
    rw [added, List.length_append, List.length_singleton, ← evidence.count]
    push_cast
    rfl
  case healthy =>
    rw [added]
    intro other member
    rcases List.mem_append.mp member with old | new
    · exact evidence.healthy other old
    · rw [List.mem_singleton.mp new]
      exact healthy
  case inTime =>
    rw [added, List.isChain_append]
    refine ⟨evidence.inTime, List.isChain_singleton _, ?_⟩
    intro last isLast other new
    simp only [List.head?_cons, Option.mem_some_iff] at new
    exact new ▸ inTime last isLast

/-- The credit of a state: its counter is the length of the evidence, which ends
with the last observation. -/
def Credit (environment : Environment) (events : List Event) (state : ControllerState) : Prop :=
  ∃ recent, Evidence environment state.policy state.limit Event.breaks state.healthyStreak
      events recent ∧
    ∀ last ∈ (consumptions recent).getLast?, state.lastFinishedAt = some last.1.finishedAt

theorem credit_of_reset (none : state.healthyStreak = 0) : Credit environment events state := by
  refine ⟨[], ?_, by simp [consumptions]⟩
  rw [none]
  exact .start events

theorem Credit.append (credit : Credit environment events state)
    (unbroken : event.breaks = false) (nothing : event.consumption = none) :
    Credit environment (events ++ [event]) state := by
  rcases credit with ⟨recent, evidence, last⟩
  refine ⟨recent ++ [event], evidence.append unbroken nothing, ?_⟩
  simpa [consumptions, nothing] using last

end Growth

section Steps

variable {environment : Environment} {policy : ControllerPolicy} {state next : ControllerState}
  {events : List Event} {event : Event} {observed : BatchObservation} {clock : Time}

structure Gains (environment : Environment) (state : ControllerState)
    (observed : BatchObservation) (policy : ControllerPolicy) (clock : Time) : Prop where
  fresh : ¬ (policy.maxBatchAgeSeconds : ℚ) < environment.elapsed clock observed.finishedAt
  calm : observed.pressure policy = []
  healthy : observed.shortfalls state = []
  grows : verdict environment state observed policy clock = grow environment state policy clock

theorem verdict_cases (environment : Environment) (state : ControllerState)
    (observed : BatchObservation) (policy : ControllerPolicy) (clock : Time) :
    Gains environment state observed policy clock ∨
      (verdict environment state observed policy clock).healthyStreak = 0 ∧
        (verdict environment state observed policy clock).limit ≤
          max policy.minimumLimit state.limit := by
  by_cases gains : Gains environment state observed policy clock
  · exact .inl gains
  · right
    unfold verdict
    dsimp only
    split
    · exact ⟨rfl, le_max_right _ _⟩
    rename_i fresh
    split
    · exact ⟨rfl, le_max_right _ _⟩
    rename_i adaptive
    split
    · exact ⟨rfl, by dsimp only; omega⟩
    rename_i calm
    split
    · exact ⟨rfl, le_max_right _ _⟩
    rename_i healthy
    split
    · exact ⟨rfl, le_max_right _ _⟩
    rename_i room
    refine absurd ⟨fresh, not_not.mp calm, not_not.mp healthy, ?_⟩ gains
    unfold verdict
    dsimp only
    rw [if_neg fresh, if_neg adaptive, if_neg calm, if_neg healthy, if_neg room]

theorem Gains.isHealthy (gains : Gains environment state observed policy clock) :
    Healthy environment policy state.limit (observed, clock) := by
  rcases pressure_eq_nil.mp gains.calm with ⟨blocks, _, ⟨runtime, integrity, database⟩, killed, _⟩
  rcases shortfalls_eq_nil.mp gains.healthy with
    ⟨verified, complete, transport, used, _, saturated, _, _, room⟩
  constructor
  case used => exact used
  case verified => exact verified
  case complete => exact complete
  case alive => exact killed
  case noBlocks => exact blocks
  case noErrors => exact ⟨transport, runtime, integrity, database⟩
  case saturated => simpa only [le_min_iff] using saturated
  case room => simpa only [lt_min_iff] using room
  case fresh => exact not_lt.mp gains.fresh

theorem reasons_grow :
    (grow environment state policy clock).reasons.head? ≠ some "control_cycle_interrupted" := by
  unfold grow
  dsimp only
  split <;> simp

theorem Gains.evidence (gains : Gains environment state observed state.policy clock)
    (credit : Credit environment events state) :
    ∃ recent, Evidence environment state.policy state.limit Event.breaks
        (continuedStreak environment state state.policy clock)
        (events ++ [.decided clock (judge environment state observed state.policy clock)])
        recent ∧
      (consumptions recent).getLast? = some (observed, clock) := by
  rcases credit with ⟨recent, evidence, last⟩
  have taken : Event.consumption
      (.decided clock (judge environment state observed state.policy clock)) =
        some (observed, clock) := by
    simp [Event.consumption, judge, decision]
  have unbroken : Event.breaks
      (.decided clock (judge environment state observed state.policy clock)) = false := by
    simp only [Event.breaks, Event.interrupts, judge, decision, gains.grows, beq_eq_false_iff_ne]
    exact reasons_grow
  have ends : ∀ earlier, (consumptions (earlier ++
      [.decided clock (judge environment state observed state.policy clock)])).getLast? =
        some (observed, clock) := by
    simp [consumptions, taken]
  unfold continuedStreak
  cases expired : expiredCredit environment state state.policy clock with
  | true =>
    have alone := (Evidence.start events).consume unbroken taken gains.isHealthy (by simp [consumptions])
    exact ⟨_, alone, ends []⟩
  | false =>
    refine ⟨_, evidence.consume unbroken taken gains.isHealthy ?_, ends recent⟩
    intro previous isLast
    have some : state.healthyStreak ≠ 0 := by
      rw [← evidence.count]
      intro none
      have empty : consumptions recent = [] := List.length_eq_zero_iff.mp (by exact_mod_cast none)
      rw [empty] at isLast
      simp at isLast
    simpa [expiredCredit, some, last previous isLast, InTime] using expired

theorem streak_of_initialState {now : Value}
    (initial : initialState environment policy now = .ok state) : state.healthyStreak = 0 := by
  unfold initialState at initial
  simp only [bind_eq_ok, pure_eq_ok] at initial
  rcases initial with ⟨_, _, rfl⟩
  rfl

theorem streak_of_interrupt {now : Value} {reason : String} {result : Decision}
    (interrupted : interrupt environment state policy now reason = .ok result) :
    result.state.healthyStreak = 0 := by
  rcases interrupt_eq_ok interrupted with ⟨_, rfl⟩
  rfl

theorem reconfigureState_cases {now : Value} {requestedLimit : Option ℤ}
    (reconfigured : reconfigureState environment state policy now requestedLimit = .ok next) :
    (state.policy = policy ∧ requestedLimit = none) ∧ next = state ∨
      ¬ (state.policy = policy ∧ requestedLimit = none) ∧ next.healthyStreak = 0 := by
  unfold reconfigureState at reconfigured
  rcases bind_eq_ok.mp reconfigured with ⟨clock, _, rest⟩
  rcases bind_eq_ok.mp rest with ⟨_, _, changed⟩
  split at changed
  · rename_i same
    exact .inl ⟨same, (pure_eq_ok.mp changed).symm⟩
  · rename_i different
    rcases bind_eq_ok.mp changed with ⟨_, _, returned⟩
    rw [pure_eq_ok] at returned
    exact .inr ⟨different, returned ▸ rfl⟩

theorem Time.eq_of_read {name : String} {time clock : Time}
    (read : readTime time.toValue name = .ok clock) : time = clock := by
  have same := (readTime_eq_ok.mp read).1
  cases time <;> cases clock <;> simp_all [Time.toValue]

theorem Transition.step (transition : Transition environment state event next) :
    ∃ call, Step environment state call next := by
  cases transition with
  | decide decided => exact ⟨_, .decide decided⟩
  | interrupt interrupted => exact ⟨_, .interrupt interrupted⟩
  | reconfigureState reconfigured _ => exact ⟨_, .reconfigureState reconfigured⟩

theorem Transition.credit (transition : Transition environment state event next)
    (credit : Credit environment events state) : Credit environment (events ++ [event]) next := by
  cases transition with
  | decide decided =>
    rcases decide_eq_ok decided with ⟨rfl, ⟨reason, interrupted⟩ | ⟨observed, _,
      ⟨_, rfl⟩ | ⟨clock, read, _, _, _, rfl⟩⟩⟩
    · exact credit_of_reset (streak_of_interrupt interrupted)
    · exact credit.append rfl rfl
    · rw [Time.eq_of_read read, judge_state]
      rcases verdict_cases environment state observed state.policy clock with gains | ⟨reset, _⟩
      · rcases gains.evidence credit with ⟨recent, evidence, ends⟩
        by_cases reached : continuedStreak environment state state.policy clock =
            state.policy.healthyBatchesToIncrease
        · apply credit_of_reset
          simp only [consumed, gains.grows, grow, if_pos reached]
        · refine ⟨recent, ?_, ?_⟩
          · simpa only [consumed, consume, gains.grows, grow, if_neg reached] using evidence
          · simp [ends, consumed, consume]
      · exact credit_of_reset reset
  | interrupt interrupted => exact credit_of_reset (streak_of_interrupt interrupted)
  | reconfigureState reconfigured change =>
    rcases reconfigureState_cases reconfigured with ⟨same, rfl⟩ | ⟨_, reset⟩
    · have unchanged := (Bool.eq_false_iff.mpr fun changed => change.mp changed same)
      rw [unchanged]
      exact credit.append rfl rfl
    · exact credit_of_reset reset

end Steps

/-- For every run from an initial state: a decision that raises the limit has the
required evidence behind it, which no interruption and no change of the policy or
the limit has broken; and a consumed fresh observation with pressure lowers the
limit by one, down to the minimum. -/
theorem limitRisesOnEvidence {environment : Environment} {policy : ControllerPolicy}
    {now : Value} {events : List Event} {started state : ControllerState}
    (initial : initialState environment policy now = .ok started)
    (run : Run (Transition environment) started events state)
    {observation : Option Mapping} {clock : Time} {decision : Decision}
    (decided : decide environment state observation state.policy clock.toValue = .ok decision) :
    (state.limit < decision.limit → ∃ recent, Evidence environment state.policy state.limit
      Event.breaks state.policy.healthyBatchesToIncrease (events ++ [.decided clock decision])
      recent) ∧
    ∀ observed, decision.observation = some observed → decision.consumed = true →
      state.policy.mode = .adaptive →
      environment.elapsed clock observed.finishedAt ≤ state.policy.maxBatchAgeSeconds →
      observed.pressure state.policy ≠ [] →
      decision.limit = max state.policy.minimumLimit (state.limit - 1) := by
  have credit : Credit environment events state := run.invariant_history (Credit environment)
    (fun _ _ _ _ transition held => transition.credit held)
    (credit_of_reset (streak_of_initialState initial))
  have accepted : Accepted environment state := run.invariant (Accepted environment)
    (fun _ _ _ transition held => transition.step.elim fun _ step => step.accepted held)
    (accepted_initialState initial)
  rcases decide_eq_ok decided with ⟨_, ⟨reason, interrupted⟩ | ⟨taken, _,
    ⟨_, rfl⟩ | ⟨time, read, _, _, _, rfl⟩⟩⟩
  · rcases interrupt_eq_ok interrupted with ⟨_, rfl⟩
    exact ⟨fun higher => absurd higher (lt_irrefl _), by simp [decision]⟩
  · exact ⟨fun higher => absurd higher (lt_irrefl _), by simp [ignored]⟩
  · rw [← Time.eq_of_read read]
    constructor
    · intro higher
      rcases verdict_cases environment state taken state.policy clock with gains | ⟨_, held⟩
      · rcases gains.evidence credit with ⟨recent, evidence, _⟩
        have reached : continuedStreak environment state state.policy clock =
            state.policy.healthyBatchesToIncrease := by
          by_contra waiting
          simp [judge, decision, consumed, gains.grows, grow, if_neg waiting] at higher
        exact ⟨recent, reached ▸ evidence⟩
      · rw [max_eq_right accepted.limit.1] at held
        exact absurd higher (not_lt.mpr held)
    · intro observed same _ adaptive fresh pressure
      simp only [judge, decision, Option.some.injEq] at same
      subst same
      simp only [judge, decision, consumed, verdict, if_neg (not_lt.mpr fresh), adaptive,
        reduceCtorEq, if_false, if_pos pressure]

/-- Two healthy batches raise the limit, with a repeated `reconfigure_state` of the
same policy between them. -/
private def twoBatches : ControllerPolicy := { healthyBatchesToIncrease := 2 }

private def firstDecision : Decision :=
  judge exactEnvironment (startedAt exactEnvironment twoBatches (.int 0))
    (healthyBatch "first" 4 1 2) twoBatches (.int 3)

private def secondDecision : Decision :=
  judge exactEnvironment firstDecision.state (healthyBatch "second" 4 3 4) twoBatches (.int 5)

private theorem sampleInitial : initialState exactEnvironment twoBatches (.int 0) =
    .ok (startedAt exactEnvironment twoBatches (.int 0)) :=
  initialState_eq_ok (by decide) (by decide)

private theorem sampleFirst : decide exactEnvironment
    (startedAt exactEnvironment twoBatches (.int 0)) (some (healthyBatch "first" 4 1 2).asDict)
    twoBatches (Time.int 3).toValue = .ok firstDecision :=
  decide_eq_judge (accepted_initialState sampleInitial) (by decide)
    (healthyBatch_wellFormed "first" 4 1 2 (by decide) (by decide) (by decide) (by decide)
      (by decide))
    (readTime_small "now" (show (0 : ℤ) ≤ 3 by decide) (by decide)) (by decide)
    (by decide) (by decide)

private theorem sampleAccepted : Accepted exactEnvironment firstDecision.state :=
  (Step.decide sampleFirst).accepted (accepted_initialState sampleInitial)

private theorem samplePolicy : firstDecision.state.policy = twoBatches := by
  rw [firstDecision, judge_state]
  rfl

private theorem sampleLimit : firstDecision.state.limit = 4 := by
  decide +kernel

private theorem sampleUnchanged :
    reconfigureState exactEnvironment firstDecision.state twoBatches (.int 3) none =
      .ok firstDecision.state := by
  have proceeds : current exactEnvironment firstDecision.state twoBatches (.int 3) =
      .ok (.int 3) :=
    current_eq_ok.mpr ⟨validateState_of_accepted sampleAccepted (by decide),
      readTime_small "now" (by decide) (by decide), by decide⟩
  unfold reconfigureState
  rw [samplePolicy, proceeds, ok_bind]
  rfl

private theorem sampleRun : Run (Transition exactEnvironment)
    (startedAt exactEnvironment twoBatches (.int 0))
    [.decided (.int 3) firstDecision, .reconfigured false] firstDecision.state :=
  .cons (.decide sampleFirst)
    (.single (.reconfigureState sampleUnchanged (by simp [samplePolicy])))

private theorem sampleSecond : decide exactEnvironment firstDecision.state
    (some (healthyBatch "second" 4 3 4).asDict) firstDecision.state.policy (Time.int 5).toValue =
      .ok secondDecision :=
  decide_eq_judge sampleAccepted (by decide)
    (healthyBatch_wellFormed "second" 4 3 4 (by decide) (by decide) (by decide) (by decide)
      (by decide))
    (readTime_small "now" (show (0 : ℤ) ≤ 5 by decide) (by decide)) (by decide)
    (by decide) (by decide)

private theorem sampleHigher : firstDecision.state.limit < secondDecision.limit := by
  decide +kernel

theorem limitRisesOnEvidence_two :
    ∃ recent, Evidence exactEnvironment twoBatches 4 Event.breaks 2
      [.decided (.int 3) firstDecision, .reconfigured false, .decided (.int 5) secondDecision]
      recent := by
  have raised := (limitRisesOnEvidence sampleInitial sampleRun sampleSecond).1 sampleHigher
  rw [samplePolicy, sampleLimit] at raised
  exact raised

/-- A call of `reconfigure_state` may stand between the observations: one that
repeats the policy returns the state with its credit. -/
theorem limitRisesOnEvidence_counterexample :
    ¬ ∀ (environment : Environment) (policy : ControllerPolicy) (now : Value)
      (events : List Event) (started state : ControllerState) (observation : Option Mapping)
      (clock : Time) (decision : Decision),
      initialState environment policy now = .ok started →
      Run (Transition environment) started events state →
      decide environment state observation state.policy clock.toValue = .ok decision →
      state.limit < decision.limit →
      ∃ recent, Evidence environment state.policy state.limit Event.calls
        state.policy.healthyBatchesToIncrease (events ++ [.decided clock decision]) recent := by
  intro claimed
  rcases claimed exactEnvironment twoBatches (.int 0) _ _ _ _ (.int 5) secondDecision
    sampleInitial sampleRun sampleSecond sampleHigher with ⟨recent, evidence⟩
  have count : (consumptions recent).length = 2 := by
    have two := evidence.count
    rw [samplePolicy, show twoBatches.healthyBatchesToIncrease = 2 from rfl] at two
    exact_mod_cast two
  have called : Event.reconfigured false ∉ recent := by
    intro member
    have refused := evidence.unbroken _ member
    simp [Event.calls] at refused
  have latest := evidence.latest
  simp only [List.cons_append, List.nil_append, List.suffix_cons_iff, List.suffix_nil] at latest
  rcases latest with rfl | rfl | rfl | rfl
  · simp at called
  · simp at called
  · have one := List.length_filterMap_le Event.consumption
      [Event.decided (.int 5) secondDecision]
    rw [consumptions] at count
    simp only [List.length_singleton] at one
    omega
  · simp [consumptions] at count

end JobAgg.RemediationConcurrency
