import Mathlib.Algebra.Order.Field.Rat
import Mathlib.Data.List.Sort
import JobAgg.Foundation.Checked
import JobAgg.Foundation.SlidingWindow

/-! # Host recovery

The durable admission record of one request host, as `pipelines/host_recovery.py`
keeps it: a cooldown after a transient failure, half-open probes under a lease,
and review stops. Times are rational epoch seconds; the ISO texts that `epoch`
also reads are never written by these functions and are left out.
-/

namespace JobAgg.HostRecovery

structure RecoveryPolicy where
  initialCooldownSeconds : ℚ := 1800
  maximumCooldownSeconds : ℚ := 21600
  probeLeaseSeconds : ℚ := 900
  maxProbesPerWindow : ℕ := 3
  probeWindowSeconds : ℚ := 86400

def defaultRecoveryPolicy : RecoveryPolicy := {}

inductive FailureCategory
  | transientTransport
  | rateLimit
  | accessDenied
  | tlsValidation
  | other (name : String)
  deriving DecidableEq, Repr

inductive Phase
  | cooldown
  | halfOpen
  | other (name : String)
  deriving DecidableEq, Repr

/-- The `recovery` entry of a host state as it is read back, before it is
checked. -/
structure Recovery where
  schemaVersion : ℤ
  phase : Phase
  failureKind : FailureCategory
  failures : ℤ
  eligibleAt : Option ℚ
  probeAttempts : List ℚ := []
  probeOwner : Option String := none
  probeUntil : Option ℚ := none

/-- One operator-reviewed exception to a stop. `contract` is the entry that
names the reviewed change: `csrf`, `data_route`, `transport`, `repair` or
`failure_kind`. -/
structure ReviewedProbe where
  owner : Option String
  evidence : Option String
  sourceId : Option String
  contract : Option String
  expiresAt : Option ℚ

structure HostState where
  stopped : Bool := false
  reason : Option String := none
  evidence : Option String := none
  failureCategory : Option FailureCategory := none
  eligibleAt : Option ℚ := none
  consecutiveTransportFailures : ℤ := 0
  recovery : Option Recovery := none
  lastRecovery : Option Recovery := none
  reviewedOsceCsrfProbe : Option ReviewedProbe := none
  reviewedOsceDataProbe : Option ReviewedProbe := none
  reviewedNativeBrowserProbe : Option ReviewedProbe := none
  reviewedConfigurationProbe : Option ReviewedProbe := none
  reviewedTimeoutProbe : Option ReviewedProbe := none

def epoch : Option ℚ → Except String ℚ
  | none => .error "Malformed recovery timestamp"
  | some value =>
    if value < 0 then .error "Malformed recovery timestamp" else .ok value

def recoveryState (state : HostState) : Except String (Option Recovery) :=
  match state.recovery with
  | none => .ok none
  | some recovery => do
    require (recovery.schemaVersion == 1) "Malformed host recovery state"
    require (recovery.phase == .cooldown || recovery.phase == .halfOpen)
      "Unknown host recovery phase"
    require (recovery.failureKind == .transientTransport ||
        recovery.failureKind == .rateLimit)
      "Non-transient host recovery state"
    require (decide (1 ≤ recovery.failures)) "Malformed host recovery failure count"
    let _ ← epoch recovery.eligibleAt
    require (decide (recovery.probeAttempts.length ≤ 3))
      "Malformed host recovery probe history"
    require (recovery.probeAttempts.all fun stamp => decide (0 ≤ stamp))
      "Malformed recovery timestamp"
    require (recovery.probeAttempts == recovery.probeAttempts.mergeSort)
      "Out-of-order host recovery probe history"
    if recovery.phase == .halfOpen then
      require (recovery.probeOwner.any fun owner => owner != "")
        "Missing recovery probe owner"
      let _ ← epoch recovery.probeUntil
    return some recovery

inductive AdmissionCategory
  | ready
  | cooldown
  | review
  deriving DecidableEq, Repr

structure Admission where
  allowed : Bool
  category : AdmissionCategory
  eligibleAt : ℚ

/-- The answer of every branch that grants a request at once. -/
def Admission.ready (now : ℚ) : Admission :=
  { allowed := true, category := .ready, eligibleAt := now }

/-- The answer for a host whose last wait ends at `due`. -/
def Admission.of (due now : ℚ) : Admission where
  allowed := decide (due ≤ now)
  category := if due ≤ now then .ready else .cooldown
  eligibleAt := due

/-- The guards that all five reviewed probes share. `due` is read only when
everything before it holds. -/
def reviewedProbeAdmits (state : HostState) (now : ℚ) (probeOwner : Option String)
    (probe : Option ReviewedProbe) (qualifies : ReviewedProbe → Bool) :
    Except String Bool :=
  match probe with
  | none => .ok false
  | some probe =>
    if (probeOwner.any fun owner => owner != "") && probe.owner == probeOwner &&
        probe.evidence == state.evidence && qualifies probe then do
      let expires ← epoch (some (probe.expiresAt.getD 0))
      return decide (now < expires)
    else .ok false

/-- Every reviewed probe the state may hold, in the order they are tried, each
with the conditions that are its own. -/
def reviewedProbes (state : HostState) :
    List (Option ReviewedProbe × (ReviewedProbe → Bool)) :=
  let denied := state.failureCategory == some .accessDenied
  let osce := fun (contract : String) (probe : ReviewedProbe) =>
    denied && probe.sourceId == some "osce_custom_html" && probe.contract == some contract
  [(state.reviewedOsceCsrfProbe, osce "osce_tss_token_v1"),
    (state.reviewedOsceDataProbe, osce "osce_job_results_v1"),
    (state.reviewedNativeBrowserProbe, osce "chromium_cdp_native_v1"),
    (state.reviewedConfigurationProbe, fun probe => denied &&
      (probe.contract == some "csod_anonymous_context" ||
        probe.contract == some "osce_omit_stylesheets")),
    (state.reviewedTimeoutProbe, fun probe =>
      probe.contract == some "transient_transport")]

def reviewedEligibility (state : HostState) (now : ℚ) (probeOwner : Option String) :
    Except String Admission := do
  let admitted ← (reviewedProbes state).anyM fun (probe, qualifies) =>
    reviewedProbeAdmits state now probeOwner probe qualifies
  return if admitted then .ready now
    else { allowed := false, category := .review, eligibleAt := 0 }

/-- The probe lease is live at `now` and `probeOwner` holds it. -/
def Recovery.leaseHeldBy (recovery : Recovery) (probeOwner : Option String)
    (now : ℚ) : Bool :=
  recovery.phase == .halfOpen && recovery.probeOwner == probeOwner &&
    decide (now < recovery.probeUntil.getD 0)

/-- The end of the last of the three waits: the cooldown, an abandoned lease
with its extra cooldown, and a full probe window. -/
def Recovery.dueAt (recovery : Recovery) (due now : ℚ) (policy : RecoveryPolicy) : ℚ :=
  let cooled := max due (recovery.eligibleAt.getD 0)
  let leased :=
    if recovery.phase == .halfOpen then
      max cooled (recovery.probeUntil.getD 0 + policy.initialCooldownSeconds)
    else cooled
  let recent := youngerThan policy.probeWindowSeconds now recovery.probeAttempts
  if policy.maxProbesPerWindow ≤ recent.length then
    max leased (recent.headD 0 + policy.probeWindowSeconds)
  else leased

def hostEligibility (state : HostState) (now : ℚ) (probeOwner : Option String)
    (policy : RecoveryPolicy) : Except String Admission :=
  if state.stopped then
    reviewedEligibility state now probeOwner
  else do
    let recovery ← recoveryState state
    let due ← epoch (some (state.eligibleAt.getD 0))
    match recovery with
    | none => return .of due now
    | some recovery =>
      if recovery.leaseHeldBy probeOwner now then
        return .ready now
      else
        return .of (recovery.dueAt due now policy) now

/-- The entry with a half-open claim and its probe charged. -/
def Recovery.reserve (recovery : Recovery) (now : ℚ) (owner : String)
    (policy : RecoveryPolicy) : Recovery :=
  let probes := youngerThan policy.probeWindowSeconds now recovery.probeAttempts
  { recovery with
    phase := .halfOpen
    probeOwner := some owner
    probeUntil := some (now + policy.probeLeaseSeconds)
    probeAttempts := probes ++ [now] }

/-- Reserve before dispatch; an interrupted reservation is never refunded. -/
def beginProbe (state : HostState) (now : ℚ) (owner : String)
    (policy : RecoveryPolicy) : Except String HostState := do
  match ← recoveryState state with
  | none => return state
  | some recovery =>
    let admission ← hostEligibility state now (some owner) policy
    require admission.allowed "Recovery probe is not eligible"
    if recovery.leaseHeldBy (some owner) now then
      return state
    else
      return { state with recovery := some (recovery.reserve now owner policy) }

def transientFailure (state : HostState) (now : ℚ) (category : FailureCategory)
    (evidence : String) (retryAfterFloor : ℚ) (policy : RecoveryPolicy) :
    Except String HostState :=
  if state.stopped then .ok state
  else do
    let previous ← recoveryState state
    let failures := (previous.elim 0 Recovery.failures) + 1
    let delay := min policy.maximumCooldownSeconds
      (policy.initialCooldownSeconds * 2 ^ (min (failures - 1) 10).toNat)
    let probes := youngerThan policy.probeWindowSeconds now
      (previous.elim [] Recovery.probeAttempts)
    let due := max (now + delay) retryAfterFloor
    let due :=
      if policy.maxProbesPerWindow ≤ probes.length then
        max due (probes.headD 0 + policy.probeWindowSeconds)
      else due
    return { state with
      stopped := false
      eligibleAt := some due
      failureCategory := some category
      evidence := some evidence
      consecutiveTransportFailures := failures
      recovery := some {
        schemaVersion := 1
        phase := .cooldown
        failureKind := category
        failures := failures
        eligibleAt := some due
        probeAttempts := probes } }

/-- The `is_robots` call changes nothing. -/
def transportSuccess (state : HostState) (isRobots : Bool) : HostState :=
  if state.stopped || isRobots then state
  else
    let recovered :=
      match state.recovery with
      | none => state
      | some previous => { state with
          recovery := none
          lastRecovery := some previous
          reason := some "Transport recovered after bounded probe"
          failureCategory := none }
    { recovered with consecutiveTransportFailures := 0, eligibleAt := some 0 }

end JobAgg.HostRecovery
