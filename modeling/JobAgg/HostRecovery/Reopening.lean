import JobAgg.HostRecovery.Protocol

/-! # Hosts reopen

Every wait that a run leaves behind ends at a time that the run determines, however often
the host is asked before. From then on any owner gets a probe, and its success reopens the
host to everybody. -/

namespace JobAgg.HostRecovery

variable {policy : RecoveryPolicy} {session next : Session} {event : Event}
  {events : List Event} {now limit : ℚ} {owner : String}

/-- The longest of the waits that the policy sets. -/
def RecoveryPolicy.longestWait (policy : RecoveryPolicy) : ℚ :=
  max policy.maximumCooldownSeconds
    (max (policy.probeLeaseSeconds + policy.initialCooldownSeconds) policy.probeWindowSeconds)

/-- When the record was written last, and the floor of a failure since the last success.
Requests that are refused write nothing. -/
def written (latest : ℚ × ℚ) : Event → ℚ × ℚ
  | .beginProbe _ _ now => (now, latest.2)
  | .transientFailure now _ _ retryAfterFloor => (now, retryAfterFloor)
  | .transportSuccess now => (now, 0)
  | .refused .. | .stop .. => latest

def lastWritten (events : List Event) : ℚ × ℚ := events.foldl written (0, 0)

/-- The policy's waits since the last write and the provider's floor are over. -/
def Rested (policy : RecoveryPolicy) (latest : ℚ × ℚ) (now : ℚ) : Prop :=
  latest.1 + policy.longestWait ≤ now ∧ latest.2 ≤ now

theorem Rested.earlier {latest : ℚ × ℚ} {later : ℚ}
    (rested : Rested policy (later, latest.2) now) (ordered : latest.1 ≤ later) :
    Rested policy latest now :=
  ⟨(add_le_add_left ordered _).trans rested.1, rested.2⟩

/-- What the record still holds against a request ends with the rest. -/
structure Reopens (policy : RecoveryPolicy) (latest : ℚ × ℚ) (session : Session) : Prop where
  past : latest.1 ≤ session.clock
  probes : ∀ stamp ∈ session.host.probes, stamp ≤ latest.1
  eligible : ∀ now, 0 ≤ now → Rested policy latest now → session.host.eligibleAt.getD 0 ≤ now
  cooled : ∀ recovery ∈ session.host.recovery,
    recovery.eligibleAt.getD 0 ≤ session.host.eligibleAt.getD 0
  leased : ∀ recovery ∈ session.host.recovery, recovery.phase = .halfOpen →
    recovery.probeUntil.getD 0 + policy.initialCooldownSeconds ≤
      latest.1 + policy.longestWait

theorem lease_le_longestWait :
    policy.probeLeaseSeconds + policy.initialCooldownSeconds ≤ policy.longestWait :=
  (le_max_left _ _).trans (le_max_right _ _)

theorem window_le_longestWait : policy.probeWindowSeconds ≤ policy.longestWait :=
  (le_max_right _ _).trans (le_max_right _ _)

theorem transientFailure_eligibleAt_le {state host : HostState} {category : FailureCategory}
    {evidence : String} {retryAfterFloor : ℚ} (running : state.stopped = false)
    (recorded : transientFailure state now category evidence retryAfterFloor policy = .ok host)
    (nonnegative : 0 ≤ now) (past : ∀ stamp ∈ state.probes, stamp ≤ now)
    (rested : Rested policy (now, retryAfterFloor) limit) :
    host.eligibleAt.getD 0 ≤ limit := by
  have head : (youngerThan policy.probeWindowSeconds now state.probes).headD 0 ≤ now := by
    cases equal : youngerThan policy.probeWindowSeconds now state.probes with
    | nil => exact nonnegative
    | cons stamp rest =>
      have young : stamp ∈ youngerThan policy.probeWindowSeconds now state.probes := by
        rw [equal]
        exact List.mem_cons_self
      exact past stamp ((youngerThan_sublist _ _ _).subset young)
  simp only [transientFailure, running, Bool.false_eq_true, if_false, bind_eq_ok,
    recoveryState_eq_ok, pure_eq_ok] at recorded
  rcases recorded with ⟨_, ⟨rfl, -⟩, rfl⟩
  have waited := rested.1
  have cooldown : policy.maximumCooldownSeconds ≤ policy.longestWait := le_max_left _ _
  have window := @window_le_longestWait policy
  have due : ∀ delay,
      max (now + min policy.maximumCooldownSeconds delay) retryAfterFloor ≤ limit :=
    fun delay =>
      max_le ((add_le_add_right ((min_le_left _ _).trans cooldown) now).trans waited) rested.2
  change ite _ _ _ ≤ limit
  split
  · exact max_le (due _) ((add_le_add head window).trans waited)
  · exact due _

theorem hostLock_running {state host : HostState} {checked : ℚ}
    (granted : hostLock state owner checked now policy = .ok host)
    (unreviewed : Unreviewed state) : host.stopped = false := by
  rcases hostLock_cases granted unreviewed with ⟨running, _, ⟨rfl, _⟩ | ⟨_, _, _, _, _, rfl⟩⟩ <;>
  exact running

theorem admits_transportSuccess {state : HostState} (running : state.stopped = false)
    (nonnegative : 0 ≤ now) : Admits policy (transportSuccess state false) now owner := by
  cases present : state.recovery <;>
  · rw [admits_iff (by simp [transportSuccess, running, present])]
    simp [transportSuccess, running, present, nonnegative]

namespace Reopens

theorem initial : Reopens policy (lastWritten []) {} where
  past := le_refl 0
  probes := by simp [HostState.probes]
  eligible := fun _ nonnegative _ => nonnegative
  cooled := by simp
  leased := by simp

theorem advance {latest : ℚ × ℚ} (reopens : Reopens policy latest session)
    (reached : latest.1 ≤ now) (admitted : Option String) (starts : List ℚ) :
    Reopens policy (now, latest.2) ⟨session.host, admitted, now, starts⟩ where
  past := le_refl _
  probes := fun stamp member => (reopens.probes stamp member).trans reached
  eligible := fun time nonnegative rested =>
    reopens.eligible time nonnegative (rested.earlier reached)
  cooled := reopens.cooled
  leased := fun recovery present halfOpen =>
    (reopens.leased recovery present halfOpen).trans (add_le_add_left reached _)

theorem reserve {recovery : Recovery} {floor : ℚ} (reopens : Reopens policy (now, floor) session)
    (present : session.host.recovery = some recovery) :
    Reopens policy (now, floor) { session with
      host.recovery := some (recovery.reserve now owner policy) } := by
  refine { reopens with probes := ?_, cooled := ?_, leased := ?_ }
  · intro stamp member
    rcases List.mem_append.mp member with old | new
    · apply reopens.probes stamp
      rw [HostState.probes, present]
      exact (youngerThan_sublist _ _ _).subset old
    · exact (List.mem_singleton.mp new).le
  · intro kept same
    rw [← Option.some.inj same]
    exact reopens.cooled recovery present
  · intro kept same _
    rw [← Option.some.inj same]
    have lease := @lease_le_longestWait policy
    simp only [Recovery.reserve, Option.getD_some]
    linarith

theorem step {latest : ℚ × ℚ} (reopens : Reopens policy latest session)
    (sound : Sound policy session) (running : session.host.stopped = false)
    (step : Step policy session event next) : Reopens policy (written latest event) next := by
  cases step with
  | beginProbe named later paced granted =>
    have begun := reopens.advance (reopens.past.trans (later.trans paced))
    rcases hostLock_cases granted sound.unreviewed with ⟨_, _, ⟨rfl, _⟩ | reserved⟩
    · exact begun _ _
    · rcases reserved with ⟨recovery, present, _, _, _, rfl⟩
      exact (begun _ _).reserve present
  | refused later paced _ => exact { reopens with past := reopens.past.trans (later.trans paced) }
  | transientFailure later _ _ recorded =>
    have past : ∀ stamp ∈ session.host.probes, stamp ≤ _ :=
      fun stamp member => (reopens.probes stamp member).trans (reopens.past.trans later)
    have ends := fun time => @transientFailure_eligibleAt_le _ _ time _ _ _ _ _ running recorded
      (sound.clockNonnegative.trans later) past
    rcases transientFailure_cases recorded with ⟨stopped, _⟩ | ⟨due, failures, facts⟩
    · simp [running] at stopped
    · rcases facts with ⟨_, _, _, _, _, rfl⟩
      exact {
        past := le_refl _
        probes := fun stamp member => past stamp ((youngerThan_sublist _ _ _).subset member)
        eligible := fun time _ rested => ends time rested
        cooled := by simp
        leased := by simp }
  | transportSuccess later _ =>
    cases present : session.host.recovery <;> constructor <;>
      simp [HostRecovery.transportSuccess, running, present, HostState.probes, written]
    all_goals exact fun _ nonnegative _ => nonnegative
  | stop later => exact { reopens with past := reopens.past.trans later }

theorem run (valid : policy.Valid) (run : Run (Step policy) {} events session)
    (running : session.host.stopped = false) :
    Sound policy session ∧ Reopens policy (lastWritten events) session := by
  have both := run.invariant_history (fun past state => Sound policy state ∧
    (state.host.stopped = false → Reopens policy (lastWritten past) state))
    (fun past state event next step holds => ⟨holds.1.step valid step, fun runs => by
      rw [lastWritten, List.foldl_concat]
      refine (holds.2 ?_).step holds.1 ?_ step <;>
      · by_contra stopped
        simp [step.stopped (by simpa using stopped)] at runs⟩)
    ⟨Sound.initial, fun _ => initial⟩
  exact ⟨both.1, both.2 running⟩

theorem admits {latest : ℚ × ℚ} (reopens : Reopens policy latest session) (valid : policy.Valid)
    (sound : Sound policy session) (running : session.host.stopped = false)
    (nonnegative : 0 ≤ now) (rested : Rested policy latest now) :
    Admits policy session.host now owner := by
  have eligible := reopens.eligible now nonnegative rested
  refine (admits_iff running).mpr ⟨sound.accepted, sound.eligibleNonnegative, fun _ => eligible,
    fun recovery present => .inr (Recovery.dueAt_le.mpr ⟨⟨eligible, ?_⟩, ?_, ?_⟩)⟩
  · exact (reopens.cooled recovery present).trans eligible
  · exact fun halfOpen => (reopens.leased recovery present halfOpen).trans rested.1
  · intro full
    have young := head_mem_youngerThan (valid.probesPositive.trans full)
    have none : youngerThan policy.probeWindowSeconds now recovery.probeAttempts = [] := by
      refine List.filter_eq_nil_iff.mpr fun stamp member => ?_
      have old : stamp ≤ latest.1 :=
        reopens.probes stamp (by simpa [HostState.probes, Option.mem_def.mp present] using member)
      have window := @window_le_longestWait policy
      have waited := rested.1
      simp only [decide_eq_true_eq, not_lt]
      linarith
    exact absurd full (by simp [none, Nat.not_le.mpr valid.probesPositive])

end Reopens

/-- In every run from an empty host that no stop ended, the waits since the last write and
the last floor are all that keeps an owner from the next probe, and once that probe
succeeds the host is open to everybody. -/
theorem reopening (valid : policy.Valid) (run : Run (Step policy) {} events session)
    (running : session.host.stopped = false) (named : owner ≠ "") {checked : ℚ}
    (later : session.clock ≤ checked) (rested : Rested policy (lastWritten events) checked)
    (paced : checked ≤ now) :
    ∃ probing, Step policy session (.beginProbe owner checked now) probing ∧
      ∀ reported, now ≤ reported → ∃ healed,
        Step policy probing (.transportSuccess reported) healed ∧
        ∀ other time, reported ≤ time → Admits policy healed.host time other := by
  rcases Reopens.run valid run running with ⟨sound, reopens⟩
  have nonnegative := sound.clockNonnegative.trans later
  have checks : Admits policy session.host checked owner :=
    reopens.admits valid sound running nonnegative rested
  have begins : Admits policy session.host now owner :=
    reopens.admits valid sound running (nonnegative.trans paced)
      ⟨rested.1.trans paced, rested.2.trans paced⟩
  have granted := hostLock_eq_ok.mpr ⟨checks, beginProbe_eq_ok.mpr
    ⟨fun recovery present => ⟨sound.accepted recovery present, begins⟩, rfl⟩⟩
  have begun := Step.beginProbe named later paced granted
  refine ⟨_, begun, fun reported reports =>
    ⟨_, .transportSuccess reports rfl, fun other time waited => ?_⟩⟩
  exact admits_transportSuccess (hostLock_running granted sound.unreviewed)
    (((nonnegative.trans paced).trans reports).trans waited)

/-- The probe after a first failure is let through in time. -/
theorem reopening_failed :
    ∃ session probing, Run (Step defaultRecoveryPolicy) {}
        [.beginProbe "a" 0 0, .transientFailure 10 .rateLimit "request" 100] session ∧
      Step defaultRecoveryPolicy session (.beginProbe "b" 86410 86410) probing := by
  have granted : hostLock {} "a" 0 0 defaultRecoveryPolicy = .ok {} :=
    hostLock_eq_ok.mpr ⟨(admits_iff rfl).mpr (by simp), beginProbe_eq_ok.mpr (by simp)⟩
  have begun : Step defaultRecoveryPolicy {} (.beginProbe "a" 0 0) { admitted := some "a" } :=
    .beginProbe (by simp) le_rfl le_rfl granted
  have failed := @Step.transientFailure defaultRecoveryPolicy { admitted := some "a" } "a"
    "request" 10 100 .rateLimit _ (by norm_num) rfl (.inr rfl) rfl
  have run := Run.cons begun (.single failed)
  rcases @reopening defaultRecoveryPolicy _ _ 86410 "b" defaultRecoveryPolicy_valid run rfl
    (by simp) 86410 (by norm_num) (by norm_num [Rested, lastWritten, written,
      RecoveryPolicy.longestWait, defaultRecoveryPolicy]) le_rfl with ⟨probing, step, _⟩
  exact ⟨_, probing, run, step⟩

end JobAgg.HostRecovery
