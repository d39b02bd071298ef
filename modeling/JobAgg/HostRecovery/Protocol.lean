import JobAgg.Foundation.Run
import JobAgg.HostRecovery.Eligibility

/-! # Runs of the host recovery protocol

`host_lock` of `pipelines/http_checkpoint.py` holds one lock per host from the
admission of a request until its outcome is recorded, so at most one admitted
request awaits its report. A session is the durable host state together with
that request, the clock, and the probe starts since the last success.
-/

namespace JobAgg.HostRecovery

/-- The policies the protocol is meant for. `recoveryState` rejects more than
three remembered probes, and ten doublings have to reach the maximum. -/
structure RecoveryPolicy.Valid (policy : RecoveryPolicy) : Prop where
  initialNonnegative : 0 ≤ policy.initialCooldownSeconds
  maximumNonnegative : 0 ≤ policy.maximumCooldownSeconds
  maximumReached : policy.maximumCooldownSeconds ≤ policy.initialCooldownSeconds * 2 ^ 10
  leaseNonnegative : 0 ≤ policy.probeLeaseSeconds
  probesPositive : 1 ≤ policy.maxProbesPerWindow
  probesRemembered : policy.maxProbesPerWindow ≤ 3

theorem defaultRecoveryPolicy_valid : defaultRecoveryPolicy.Valid := by
  constructor <;> norm_num [defaultRecoveryPolicy]

/-- The cooldown after the given number of failures in a row. -/
def RecoveryPolicy.backoff (policy : RecoveryPolicy) (failures : ℤ) : ℚ :=
  min policy.maximumCooldownSeconds
    (policy.initialCooldownSeconds * 2 ^ (failures - 1).toNat)

structure Session where
  host : HostState := {}
  admitted : Option String := none
  clock : ℚ := 0
  starts : List ℚ := []

inductive Event
  | beginProbe (owner : String) (checked now : ℚ)
  | refused (owner : String) (checked now : ℚ)
  | transientFailure (now : ℚ) (category : FailureCategory) (evidence : String)
      (retryAfterFloor : ℚ)
  | transportSuccess (now : ℚ)
  | stop (now : ℚ) (reason evidence : String) (category : FailureCategory)
  deriving DecidableEq

def Event.reports : Event → Bool
  | .transientFailure .. => true
  | .transportSuccess .. => true
  | _ => false

/-- What `host_lock` does to the state before it dispatches: the eligibility is
read at `checked`, and the claim is written after the pacing pause, at `now`. -/
def hostLock (state : HostState) (owner : String) (checked now : ℚ)
    (policy : RecoveryPolicy) : Except String HostState := do
  let admission ← hostEligibility state checked (some owner) policy
  require admission.allowed "Existing host cooldown: "
  beginProbe state now owner policy

/-- The request of `owner` at `now` is a new probe of a recovering host. -/
def chargesProbe (state : HostState) (owner : String) (now : ℚ) : Bool :=
  state.recovery.any fun recovery => !recovery.leaseHeldBy (some owner) now

/-- Owners are digests, hence never empty. A transient category is the only one
for which the checkpoint calls `transient_failure`. -/
inductive Step (policy : RecoveryPolicy) : Session → Event → Session → Prop
  | beginProbe {session : Session} {owner : String} {checked now : ℚ} {host : HostState}
      (named : owner ≠ "") (later : session.clock ≤ checked) (paced : checked ≤ now)
      (granted : hostLock session.host owner checked now policy = .ok host) :
      Step policy session (.beginProbe owner checked now)
        { host := host, admitted := some owner, clock := now
          starts := if chargesProbe session.host owner now then session.starts ++ [now]
            else session.starts }
  | refused {session : Session} {owner message : String} {checked now : ℚ}
      (later : session.clock ≤ checked) (paced : checked ≤ now)
      (denied : hostLock session.host owner checked now policy = .error message) :
      Step policy session (.refused owner checked now) { session with clock := now }
  | transientFailure {session : Session} {owner evidence : String} {now retryAfterFloor : ℚ}
      {category : FailureCategory} {host : HostState} (later : session.clock ≤ now)
      (outstanding : session.admitted = some owner)
      (transient : category = .transientTransport ∨ category = .rateLimit)
      (recorded : HostRecovery.transientFailure session.host now category evidence
        retryAfterFloor policy = .ok host) :
      Step policy session (.transientFailure now category evidence retryAfterFloor)
        { session with host := host, admitted := none, clock := now }
  | transportSuccess {session : Session} {owner : String} {now : ℚ}
      (later : session.clock ≤ now) (outstanding : session.admitted = some owner) :
      Step policy session (.transportSuccess now)
        { host := HostRecovery.transportSuccess session.host false, admitted := none
          clock := now, starts := if session.host.stopped then session.starts else [] }
  | stop {session : Session} {now : ℚ} {reason evidence : String} {category : FailureCategory}
      (later : session.clock ≤ now) :
      Step policy session (.stop now reason evidence category)
        { session with
          clock := now
          host := { session.host with
            stopped := true
            reason := some reason
            evidence := some evidence
            failureCategory := some category } }

/-- The stamps of the recovery entry, empty when there is none. -/
def HostState.probes (state : HostState) : List ℚ :=
  state.recovery.elim [] Recovery.probeAttempts

/-- What holds of every session: the host state reads back, nobody has reviewed
a stop, and the pruned history still shows every probe start that counts. -/
structure Sound (policy : RecoveryPolicy) (session : Session) : Prop where
  accepted : ∀ recovery ∈ session.host.recovery, recovery.WellFormed
  eligibleNonnegative : 0 ≤ session.host.eligibleAt.getD 0
  clockNonnegative : 0 ≤ session.clock
  unreviewed : Unreviewed session.host
  probesPast : ∀ stamp ∈ session.host.probes, stamp ≤ session.clock
  remembered : ∀ later, session.clock ≤ later →
    youngerThan policy.probeWindowSeconds later session.starts =
      youngerThan policy.probeWindowSeconds later session.host.probes
  bounded : WindowBounded policy.probeWindowSeconds policy.maxProbesPerWindow session.starts

variable {policy : RecoveryPolicy} {session next : Session} {event : Event}
  {now bound : ℚ} {owner : String}

theorem Sound.initial : Sound policy {} where
  accepted := by simp
  eligibleNonnegative := by simp
  clockNonnegative := le_refl 0
  unreviewed := ⟨rfl, rfl, rfl, rfl, rfl⟩
  probesPast := by simp [HostState.probes]
  remembered := by simp [HostState.probes]
  bounded := .nil

theorem Step.clock_le (step : Step policy session event next) : session.clock ≤ next.clock := by
  cases step with
  | beginProbe _ later paced _ => exact later.trans paced
  | refused later paced _ => exact later.trans paced
  | transientFailure later _ _ _ => exact later
  | transportSuccess later _ => exact later
  | stop later => exact later

theorem hostLock_eq_ok {state host : HostState} {checked : ℚ} :
    hostLock state owner checked now policy = .ok host ↔
      Admits policy state checked owner ∧ beginProbe state now owner policy = .ok host := by
  simp [hostLock, bind_eq_ok, Admits, ← and_assoc, exists_and_right]

/-- An admission at `checked` leaves the state alone, or opens a lease at `now`
on a host whose waits have all ended by then. -/
theorem hostLock_cases {state host : HostState} {checked : ℚ}
    (granted : hostLock state owner checked now policy = .ok host)
    (unreviewed : Unreviewed state) :
    state.stopped = false ∧ Admits policy state checked owner ∧
      (host = state ∧ chargesProbe state owner now = false ∨
        ∃ recovery, state.recovery = some recovery ∧ chargesProbe state owner now = true ∧
          Admits policy state now owner ∧
          recovery.dueAt (state.eligibleAt.getD 0) now policy ≤ now ∧
          host = { state with recovery := some (recovery.reserve now owner policy) }) := by
  rcases hostLock_eq_ok.mp granted with ⟨admits, begun⟩
  rcases beginProbe_eq_ok.mp begun with ⟨conditions, equal⟩
  have running : state.stopped = false := by
    by_contra stopped
    exact not_admits_of_stopped (by simpa using stopped) unreviewed admits
  refine ⟨running, admits, ?_⟩
  cases present : state.recovery with
  | none => exact .inl ⟨by simpa [present] using equal, by simp [chargesProbe, present]⟩
  | some recovery =>
    have admitsNow := (conditions recovery (by simp [present])).2
    cases held : recovery.leaseHeldBy (some owner) now with
    | true =>
      exact .inl ⟨by simpa [present, held] using equal, by simp [chargesProbe, present, held]⟩
    | false =>
      have due := (admitsNow.heldOrDue running present).resolve_left (by simp [held])
      exact .inr ⟨recovery, rfl, by simp [chargesProbe, present, held], admitsNow, due,
        by simpa [present, held] using equal⟩

/-- A failure leaves a stopped host alone. On any other host it opens a cooldown
that ends neither before the backoff nor before the provider's floor. -/
theorem transientFailure_cases {state host : HostState} {category : FailureCategory}
    {evidence : String} {retryAfterFloor : ℚ}
    (recorded : transientFailure state now category evidence retryAfterFloor policy = .ok host) :
    (state.stopped = true ∧ host = state) ∨
      ∃ due failures, state.stopped = false ∧
        (∀ recovery ∈ state.recovery, recovery.WellFormed) ∧
        failures = state.recovery.elim 0 Recovery.failures + 1 ∧
        now + min policy.maximumCooldownSeconds
          (policy.initialCooldownSeconds * 2 ^ (min (failures - 1) 10).toNat) ≤ due ∧
        retryAfterFloor ≤ due ∧
        host = { state with
          stopped := false
          eligibleAt := some due
          failureCategory := some category
          evidence := some evidence
          consecutiveTransportFailures := failures
          recovery := some {
            schemaVersion := 1
            phase := .cooldown
            failureKind := category
            failures := failures
            eligibleAt := some due
            probeAttempts := youngerThan policy.probeWindowSeconds now state.probes } } := by
  cases stopped : state.stopped with
  | true =>
    simp only [transientFailure, stopped, if_true, Except.ok.injEq] at recorded
    exact .inl ⟨rfl, recorded.symm⟩
  | false =>
    simp only [transientFailure, stopped, Bool.false_eq_true, if_false, bind_eq_ok,
      recoveryState_eq_ok, pure_eq_ok] at recorded
    rcases recorded with ⟨_, ⟨rfl, accepted⟩, rfl⟩
    refine .inr ⟨_, _, rfl, accepted, rfl, ?_, ?_, rfl⟩
    · split
      · exact (le_max_left _ _).trans (le_max_left _ _)
      · exact le_max_left _ _
    · split
      · exact (le_max_right _ _).trans (le_max_left _ _)
      · exact le_max_right _ _

theorem RecoveryPolicy.Valid.backoff_eq (valid : policy.Valid) (failures : ℤ) :
    min policy.maximumCooldownSeconds
        (policy.initialCooldownSeconds * 2 ^ (min (failures - 1) 10).toNat) =
      policy.backoff failures := by
  rcases le_total (failures - 1) 10 with few | many
  · rw [RecoveryPolicy.backoff, min_eq_left few]
  · have tenLe : 10 ≤ (failures - 1).toNat := by omega
    have doubled : (2 : ℚ) ^ 10 ≤ 2 ^ (failures - 1).toNat :=
      pow_le_pow_right₀ (by norm_num) tenLe
    have reached := valid.maximumReached.trans
      (mul_le_mul_of_nonneg_left doubled valid.initialNonnegative)
    rw [RecoveryPolicy.backoff, min_eq_right many, min_eq_left reached]
    exact min_eq_left valid.maximumReached

theorem RecoveryPolicy.Valid.backoff_nonneg (valid : policy.Valid) (failures : ℤ) :
    0 ≤ policy.backoff failures :=
  le_min valid.maximumNonnegative
    (mul_nonneg valid.initialNonnegative (pow_nonneg (by norm_num) _))

namespace Sound

theorem advance (sound : Sound policy session) (later : session.clock ≤ now) :
    Sound policy { session with clock := now } where
  accepted := sound.accepted
  eligibleNonnegative := sound.eligibleNonnegative
  clockNonnegative := sound.clockNonnegative.trans later
  unreviewed := sound.unreviewed
  probesPast stamp member := (sound.probesPast stamp member).trans later
  remembered afterwards order := sound.remembered afterwards (later.trans order)
  bounded := sound.bounded

theorem withAdmitted (sound : Sound policy session) (admitted : Option String) :
    Sound policy { session with admitted := admitted } :=
  { sound with }

theorem reserve_wellFormed {recovery : Recovery} {due : ℚ} (valid : policy.Valid)
    (wellFormed : recovery.WellFormed) (named : owner ≠ "") (nonnegative : 0 ≤ now)
    (past : ∀ stamp ∈ recovery.probeAttempts, stamp ≤ now)
    (due_le : recovery.dueAt due now policy ≤ now) :
    (recovery.reserve now owner policy).WellFormed := by
  have room := Recovery.length_lt_of_dueAt_le due_le valid.probesPositive
  have kept := youngerThan_sublist policy.probeWindowSeconds now recovery.probeAttempts
  have few := valid.probesRemembered
  constructor
  · exact wellFormed.schemaVersion
  · exact .inr rfl
  · exact wellFormed.failureKind
  · exact wellFormed.failures
  · exact wellFormed.eligibleAt
  · simp only [Recovery.reserve, List.length_append, List.length_singleton]
    omega
  · intro stamp member
    rcases List.mem_append.mp member with old | new
    · exact wellFormed.probesNonnegative stamp (kept.subset old)
    · rw [List.mem_singleton.mp new]
      exact nonnegative
  · refine List.pairwise_append.mpr ⟨wellFormed.probesSorted.sublist kept, by simp, ?_⟩
    intro stamp old latest new
    rw [List.mem_singleton.mp new]
    exact past stamp (kept.subset old)
  · intro _
    exact ⟨⟨owner, rfl, named⟩, _, rfl, add_nonneg nonnegative valid.leaseNonnegative⟩

theorem reserve {recovery : Recovery} (valid : policy.Valid)
    (sound : Sound policy session) (present : session.host.recovery = some recovery)
    (named : owner ≠ "") (later : session.clock ≤ now)
    (due_le : recovery.dueAt (session.host.eligibleAt.getD 0) now policy ≤ now) :
    Sound policy
      { host := { session.host with recovery := some (recovery.reserve now owner policy) }
        admitted := some owner
        clock := now
        starts := session.starts ++ [now] } := by
  have nonnegative : 0 ≤ now := sound.clockNonnegative.trans later
  have probesEqual : session.host.probes = recovery.probeAttempts := by
    simp [HostState.probes, present]
  have past : ∀ stamp ∈ recovery.probeAttempts, stamp ≤ now := by
    intro stamp member
    exact (sound.probesPast stamp (by rwa [probesEqual])).trans later
  have room := Recovery.length_lt_of_dueAt_le due_le valid.probesPositive
  constructor
  · simpa using reserve_wellFormed valid (sound.accepted recovery present) named nonnegative
      past due_le
  · exact sound.eligibleNonnegative
  · exact nonnegative
  · exact sound.unreviewed
  · intro stamp member
    rcases List.mem_append.mp member with old | new
    · exact past stamp ((youngerThan_sublist _ _ _).subset old)
    · exact (List.mem_singleton.mp new).le
  · intro afterwards order
    simp only [HostState.probes, Option.elim_some, Recovery.reserve, youngerThan_append,
      youngerThan_youngerThan order]
    rw [sound.remembered afterwards (later.trans order), probesEqual]
  · apply sound.bounded.append
    rw [sound.remembered now later, probesEqual]
    exact room

theorem transientFailure {host : HostState} {category : FailureCategory}
    {evidence : String} {retryAfterFloor : ℚ} (valid : policy.Valid)
    (sound : Sound policy session) (later : session.clock ≤ now)
    (transient : category = .transientTransport ∨ category = .rateLimit)
    (recorded : HostRecovery.transientFailure session.host now category evidence
      retryAfterFloor policy = .ok host) :
    Sound policy { session with host := host, admitted := none, clock := now } := by
  rcases transientFailure_cases recorded with ⟨_, rfl⟩ | ⟨due, failures, facts⟩
  · exact (sound.advance later).withAdmitted none
  rcases facts with ⟨_, accepted, count, cooled, _, rfl⟩
  have nonnegative : 0 ≤ now := sound.clockNonnegative.trans later
  have duePositive : 0 ≤ due := by
    rw [valid.backoff_eq] at cooled
    exact (add_nonneg nonnegative (valid.backoff_nonneg failures)).trans cooled
  have kept := youngerThan_sublist policy.probeWindowSeconds now session.host.probes
  have failuresPositive : 1 ≤ failures := by
    cases present : session.host.recovery with
    | none => simp [count, present]
    | some recovery =>
      have previous := (accepted recovery (by simp [present])).failures
      simp only [present, Option.elim_some] at count
      omega
  have probesAccepted : session.host.probes.length ≤ 3 ∧
      (∀ stamp ∈ session.host.probes, 0 ≤ stamp) ∧
      session.host.probes.Pairwise (· ≤ ·) := by
    cases present : session.host.recovery with
    | none => simp [HostState.probes, present]
    | some recovery =>
      have wellFormed := accepted recovery (by simp [present])
      simpa [HostState.probes, present] using
        ⟨wellFormed.probeCount, wellFormed.probesNonnegative, wellFormed.probesSorted⟩
  constructor
  · intro recovery equal
    rw [← Option.some.inj equal]
    exact {
      schemaVersion := rfl
      phase := .inl rfl
      failureKind := transient
      failures := failuresPositive
      eligibleAt := ⟨due, rfl, duePositive⟩
      probeCount := kept.length_le.trans probesAccepted.1
      probesNonnegative := fun stamp member => probesAccepted.2.1 stamp (kept.subset member)
      probesSorted := probesAccepted.2.2.sublist kept
      lease := by simp }
  · exact duePositive
  · exact nonnegative
  · exact sound.unreviewed
  · exact fun stamp member => (sound.probesPast stamp (kept.subset member)).trans later
  · intro afterwards order
    simp only [HostState.probes, Option.elim_some]
    rw [sound.remembered afterwards (later.trans order), ← youngerThan_youngerThan order]
    rfl
  · exact sound.bounded

theorem transportSuccess (sound : Sound policy session) (later : session.clock ≤ now) :
    Sound policy
      { host := HostRecovery.transportSuccess session.host false, admitted := none
        clock := now, starts := if session.host.stopped then session.starts else [] } := by
  cases stopped : session.host.stopped with
  | true =>
    simpa [HostRecovery.transportSuccess, stopped] using
      (sound.advance later).withAdmitted none
  | false =>
    have nonnegative : 0 ≤ now := sound.clockNonnegative.trans later
    cases present : session.host.recovery with
    | none =>
      constructor <;>
        simp [HostRecovery.transportSuccess, stopped, present, HostState.probes,
          WindowBounded.nil, nonnegative]
      exact sound.unreviewed
    | some recovery =>
      constructor <;>
        simp [HostRecovery.transportSuccess, stopped, present, HostState.probes,
          WindowBounded.nil, nonnegative]
      exact sound.unreviewed

theorem step (valid : policy.Valid) (sound : Sound policy session)
    (step : Step policy session event next) : Sound policy next := by
  cases step with
  | beginProbe named later paced granted =>
    have reached := later.trans paced
    rcases hostLock_cases granted sound.unreviewed with ⟨_, _, unchanged | reserved⟩
    · rcases unchanged with ⟨rfl, charged⟩
      simpa [charged] using (sound.advance reached).withAdmitted _
    · rcases reserved with ⟨recovery, present, charged, _, due, rfl⟩
      simpa [charged] using sound.reserve valid present named reached due
  | refused later paced denied => exact sound.advance (later.trans paced)
  | transientFailure later _ transient recorded =>
    exact sound.transientFailure valid later transient recorded
  | transportSuccess later _ => exact sound.transportSuccess later
  | stop later => exact { sound.advance later with }

theorem run {events : List Event} (valid : policy.Valid) (sound : Sound policy session)
    (run : Run (Step policy) session events next) : Sound policy next :=
  run.invariant (Sound policy) (fun _ _ _ stepped holds => holds.step valid stepped) sound

end Sound

/-- Until `bound` no request is outstanding and none is let through. -/
def Closed (policy : RecoveryPolicy) (bound : ℚ) (session : Session) : Prop :=
  session.clock < bound →
    session.admitted = none ∧ ∀ now owner, now < bound → ¬ Admits policy session.host now owner

/-- Until `bound` the lease of `owner`, which ended at `lapse`, stays in the
record of a host that is not stopped. -/
def Leased (policy : RecoveryPolicy) (owner : String) (lapse : ℚ) (session : Session) : Prop :=
  session.clock < lapse + policy.initialCooldownSeconds →
    ∃ recovery, session.host.recovery = some recovery ∧ recovery.phase = .halfOpen ∧
      recovery.probeOwner = some owner ∧ recovery.probeUntil = some lapse

theorem Closed.step (closed : Closed policy bound session) (sound : Sound policy session)
    (step : Step policy session event next) : Closed policy bound next := by
  intro before
  rcases closed (step.clock_le.trans_lt before) with ⟨idle, refuses⟩
  cases step with
  | beginProbe _ later paced granted =>
    have admits := (hostLock_eq_ok.mp granted).1
    exact absurd admits (refuses _ _ (paced.trans_lt before))
  | refused later paced _ => exact ⟨idle, refuses⟩
  | transientFailure later outstanding _ _ => simp [outstanding] at idle
  | transportSuccess later outstanding => simp [outstanding] at idle
  | stop later =>
    refine ⟨idle, fun now owner _ => ?_⟩
    exact not_admits_of_stopped rfl sound.unreviewed

theorem Closed.run {events : List Event} (valid : policy.Valid)
    (closed : Closed policy bound session) (sound : Sound policy session)
    (run : Run (Step policy) session events next) : Closed policy bound next := by
  have both := run.invariant (fun state => Sound policy state ∧ Closed policy bound state)
    (fun _ _ _ stepped holds => ⟨holds.1.step valid stepped, holds.2.step holds.1 stepped⟩)
    ⟨sound, closed⟩
  exact both.2

theorem Closed.of_transientFailure {category : FailureCategory} {evidence : String}
    {retryAfterFloor : ℚ} (valid : policy.Valid) (sound : Sound policy session)
    (step : Step policy session (.transientFailure now category evidence retryAfterFloor) next) :
    Closed policy
      (max (now + policy.backoff (session.host.recovery.elim 0 Recovery.failures + 1))
        retryAfterFloor) next := by
  intro _
  have soundNext := sound.step valid step
  cases step with
  | transientFailure later outstanding transient recorded =>
    refine ⟨rfl, fun request owner before admits => ?_⟩
    rcases transientFailure_cases recorded with ⟨stopped, rfl⟩ | ⟨due, failures, facts⟩
    · exact not_admits_of_stopped stopped sound.unreviewed admits
    · rcases facts with ⟨_, _, count, cooled, floored, rfl⟩
      rw [valid.backoff_eq, count] at cooled
      have due_le : due ≤ request := admits.eligibleAt_le rfl (by simp)
      exact absurd (before.trans_le (max_le cooled floored)) (not_lt.mpr due_le)

theorem Leased.step {lapse : ℚ} (leased : Leased policy owner lapse session)
    (sound : Sound policy session) (unreported : event.reports = false)
    (step : Step policy session event next) : Leased policy owner lapse next := by
  intro before
  rcases leased (step.clock_le.trans_lt before) with ⟨recovery, present, halfOpen, mine, ends⟩
  cases step with
  | beginProbe _ later paced granted =>
    rcases hostLock_cases granted sound.unreviewed with ⟨_, _, unchanged | reserved⟩
    · rcases unchanged with ⟨rfl, _⟩
      exact ⟨recovery, present, halfOpen, mine, ends⟩
    · rcases reserved with ⟨other, same, _, _, due, rfl⟩
      rw [present, Option.some.injEq] at same
      subst same
      have waited := (Recovery.dueAt_le.mp due).2.1 halfOpen
      rw [ends, Option.getD_some] at waited
      exact absurd before (not_lt.mpr waited)
  | refused later paced _ => exact ⟨recovery, present, halfOpen, mine, ends⟩
  | transientFailure later outstanding _ _ => simp [Event.reports] at unreported
  | transportSuccess later outstanding => simp [Event.reports] at unreported
  | stop later => exact ⟨recovery, present, halfOpen, mine, ends⟩

theorem Leased.run {lapse : ℚ} {events : List Event} (valid : policy.Valid)
    (leased : Leased policy owner lapse session) (sound : Sound policy session)
    (unreported : ∀ event ∈ events, event.reports = false)
    (run : Run (Step policy) session events next) : Leased policy owner lapse next := by
  have both := run.invariant_of_forall (fun event => event.reports = false)
    (fun state => Sound policy state ∧ Leased policy owner lapse state)
    (fun _ _ _ quiet stepped holds =>
      ⟨holds.1.step valid stepped, holds.2.step holds.1 quiet stepped⟩)
    unreported ⟨sound, leased⟩
  exact both.2

theorem Leased.of_beginProbe {checked : ℚ} {recovery : Recovery}
    (sound : Sound policy session)
    (step : Step policy session (.beginProbe owner checked now) next)
    (present : next.host.recovery = some recovery) :
    Leased policy owner (recovery.probeUntil.getD 0) next := by
  intro _
  cases step with
  | beginProbe named later paced granted =>
    rcases hostLock_cases granted sound.unreviewed with ⟨_, _, unchanged | reserved⟩
    · rcases unchanged with ⟨rfl, charged⟩
      replace present : session.host.recovery = some recovery := present
      have held : recovery.leaseHeldBy (some owner) now = true := by
        simpa [chargesProbe, present] using charged
      have wellFormed := sound.accepted recovery present
      simp only [Recovery.leaseHeldBy, Bool.and_eq_true, beq_iff_eq] at held
      rcases (wellFormed.lease held.1.1).2 with ⟨lapse, ends, _⟩
      exact ⟨recovery, present, held.1.1, held.1.2, by simp [ends]⟩
    · rcases reserved with ⟨_, _, _, _, _, rfl⟩
      rw [← Option.some.inj present]
      exact ⟨_, rfl, rfl, rfl, rfl⟩

theorem Leased.not_admits {lapse : ℚ} {other : String}
    (leased : Leased policy owner lapse session) (sound : Sound policy session)
    (later : session.clock ≤ now) (before : now < lapse + policy.initialCooldownSeconds)
    (foreign : other ≠ owner) : ¬ Admits policy session.host now other := by
  intro admits
  rcases leased (later.trans_lt before) with ⟨recovery, present, halfOpen, mine, ends⟩
  cases stopped : session.host.stopped with
  | true => exact not_admits_of_stopped stopped sound.unreviewed admits
  | false =>
    rcases admits.eq_owner_or_le stopped present halfOpen with held | waited
    · simp only [Recovery.leaseHeldBy, mine, Bool.and_eq_true, beq_iff_eq,
        Option.some.injEq] at held
      exact foreign held.1.2.symm
    · rw [ends, Option.getD_some] at waited
      exact absurd before (not_lt.mpr waited)

theorem Sound.admits_iff_of_live {recovery : Recovery} (valid : policy.Valid)
    (sound : Sound policy session) (present : session.host.recovery = some recovery)
    (halfOpen : recovery.phase = .halfOpen) (live : now < recovery.probeUntil.getD 0) :
    Admits policy session.host now owner ↔
      session.host.stopped = false ∧ recovery.probeOwner = some owner := by
  constructor
  · intro admits
    have running : session.host.stopped = false := by
      by_contra stopped
      exact not_admits_of_stopped (by simpa using stopped) sound.unreviewed admits
    refine ⟨running, ?_⟩
    rcases admits.eq_owner_or_le running present halfOpen with held | waited
    · simp only [Recovery.leaseHeldBy, Bool.and_eq_true, beq_iff_eq] at held
      exact held.1.2
    · have initially := valid.initialNonnegative
      linarith
  · rintro ⟨running, mine⟩
    refine (admits_iff running).mpr
      ⟨sound.accepted, sound.eligibleNonnegative, by simp [present], ?_⟩
    intro other same
    rw [present, Option.mem_def, Option.some.injEq] at same
    subst same
    exact .inl (by simp [Recovery.leaseHeldBy, halfOpen, mine, live])

theorem Step.stopped (step : Step policy session event next)
    (stopped : session.host.stopped = true) : next.host.stopped = true := by
  cases step with
  | beginProbe _ later paced granted =>
    have begun := (hostLock_eq_ok.mp granted).2
    rw [(beginProbe_eq_ok.mp begun).2]
    cases session.host.recovery with
    | none => exact stopped
    | some recovery => dsimp only; split <;> exact stopped
  | refused later paced _ => exact stopped
  | transientFailure later _ _ recorded =>
    rcases transientFailure_cases recorded with ⟨_, rfl⟩ | ⟨_, _, running, _⟩
    · exact stopped
    · simp [stopped] at running
  | transportSuccess later _ => simp [HostRecovery.transportSuccess, stopped]
  | stop later => rfl

/-- The recovery protocol, for every run from an empty host: (a) the state reads
back, (b) a live lease admits its owner alone, (c) the probe starts since the
last success respect the window, (d) a reported failure closes the host until
its backoff and the provider's floor, (e) an abandoned probe keeps everybody
else out until the initial cooldown after its lease, (f) stops are final. -/
theorem recoveryProtocol {events : List Event} (valid : policy.Valid)
    (run : Run (Step policy) {} events session) :
    recoveryState session.host = .ok session.host.recovery ∧
    (∀ recovery now owner, session.host.recovery = some recovery →
      recovery.phase = .halfOpen → now < recovery.probeUntil.getD 0 →
      (Admits policy session.host now owner ↔
        session.host.stopped = false ∧ recovery.probeOwner = some owner)) ∧
    WindowBounded policy.probeWindowSeconds policy.maxProbesPerWindow session.starts ∧
    (∀ reported category evidence retryAfterFloor failed,
      Step policy session (.transientFailure reported category evidence retryAfterFloor) failed →
      ∀ events later, Run (Step policy) failed events later →
      ∀ now owner, later.clock ≤ now →
      now < max (reported +
        policy.backoff (session.host.recovery.elim 0 Recovery.failures + 1)) retryAfterFloor →
      ¬ Admits policy later.host now owner) ∧
    (∀ owner checked started leased recovery,
      Step policy session (.beginProbe owner checked started) leased →
      leased.host.recovery = some recovery →
      ∀ events later, Run (Step policy) leased events later →
      (∀ event ∈ events, event.reports = false) →
      ∀ now other, later.clock ≤ now →
      now < recovery.probeUntil.getD 0 + policy.initialCooldownSeconds → other ≠ owner →
      ¬ Admits policy later.host now other) ∧
    (session.host.stopped = true →
      ∀ events later, Run (Step policy) session events later → later.host.stopped = true) := by
  have sound : Sound policy session := Sound.initial.run valid run
  refine ⟨recoveryState_eq_ok.mpr ⟨rfl, sound.accepted⟩, ?_, sound.bounded, ?_, ?_, ?_⟩
  · intro recovery now owner present halfOpen live
    exact sound.admits_iff_of_live valid present halfOpen live
  · intro reported category evidence retryAfterFloor failed step events later onward
      now owner passed before
    have closed := Closed.of_transientFailure valid sound step
    exact (closed.run valid (sound.step valid step) onward (passed.trans_lt before)).2
      now owner before
  · intro owner checked started leased recovery step present events later onward unreported
      now other passed before foreign
    have soundLeased := sound.step valid step
    have kept := (Leased.of_beginProbe sound step present).run valid soundLeased unreported onward
    exact kept.not_admits (soundLeased.run valid onward) passed before foreign
  · intro stopped events later onward
    exact onward.invariant (fun state => state.host.stopped = true)
      (fun _ _ _ stepped held => stepped.stopped held) stopped

private def failedHost : HostState where
  evidence := some "request"
  failureCategory := some .rateLimit
  eligibleAt := some 1810
  consecutiveTransportFailures := 1
  recovery := some {
    schemaVersion := 1
    phase := .cooldown
    failureKind := .rateLimit
    failures := 1
    eligibleAt := some 1810 }

private theorem firstRequest_granted :
    hostLock {} "a" 0 0 defaultRecoveryPolicy = .ok {} := by
  have admits : Admits defaultRecoveryPolicy {} 0 "a" :=
    (admits_iff rfl).mpr (by simp)
  exact hostLock_eq_ok.mpr ⟨admits, beginProbe_eq_ok.mpr (by simp)⟩

private theorem firstRequest_failed :
    transientFailure {} 10 .rateLimit "request" 100 defaultRecoveryPolicy = .ok failedHost := by
  norm_num [transientFailure, recoveryState, defaultRecoveryPolicy, failedHost]

private theorem probe_granted :
    hostLock failedHost "b" 1810 1810 defaultRecoveryPolicy =
      .ok { failedHost with
        recovery := failedHost.recovery.map fun recovery =>
          recovery.reserve 1810 "b" defaultRecoveryPolicy } := by
  have wellFormed : ∀ recovery ∈ failedHost.recovery, recovery.WellFormed := by
    simp [failedHost, Recovery.wellFormed_iff]
  have admits : Admits defaultRecoveryPolicy failedHost 1810 "b" := by
    refine (admits_iff rfl).mpr ⟨wellFormed, by simp [failedHost], by simp [failedHost], ?_⟩
    simp [failedHost, Recovery.dueAt, defaultRecoveryPolicy]
  refine hostLock_eq_ok.mpr ⟨admits, beginProbe_eq_ok.mpr ⟨?_, ?_⟩⟩
  · exact fun recovery member => ⟨wellFormed recovery member, admits⟩
  · simp [failedHost, Recovery.leaseHeldBy]

/-- A first request fails, and a probe of the recovering host is let through
once the cooldown is over. -/
theorem recoveryProtocol_probe :
    ∃ session, Run (Step defaultRecoveryPolicy) {}
      [.beginProbe "a" 0 0, .transientFailure 10 .rateLimit "request" 100,
        .beginProbe "b" 1810 1810] session ∧
      session.starts = [1810] ∧ WindowBounded 86400 3 session.starts ∧
      recoveryState session.host = .ok session.host.recovery := by
  have first : Step defaultRecoveryPolicy {} (.beginProbe "a" 0 0) _ :=
    .beginProbe (by simp) le_rfl le_rfl firstRequest_granted
  have run := Run.cons first
    (.cons (.transientFailure (by norm_num [chargesProbe]) rfl (.inr rfl) firstRequest_failed)
      (.single (.beginProbe (by simp) (by norm_num) le_rfl probe_granted)))
  have holds := recoveryProtocol defaultRecoveryPolicy_valid run
  exact ⟨_, run, by simp [chargesProbe, failedHost, Recovery.leaseHeldBy], holds.2.2.1, holds.1⟩

end JobAgg.HostRecovery
