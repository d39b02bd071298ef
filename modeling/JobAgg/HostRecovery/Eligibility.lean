import Mathlib.Algebra.Order.Group.MinMax
import Mathlib.Tactic.Linarith
import JobAgg.HostRecovery.HostRecovery

/-! # What host eligibility admits

The checks of `recoveryState` as one predicate, and the three waits that decide
an admission as one condition on the time of the request.
-/

namespace JobAgg.HostRecovery

theorem epoch_eq_ok {stamp : Option ℚ} {value : ℚ} :
    epoch stamp = .ok value ↔ stamp = some value ∧ 0 ≤ value := by
  cases stamp with
  | none => simp [epoch]
  | some stamp =>
    by_cases negative : stamp < 0
    · simp only [epoch, if_pos negative, reduceCtorEq, Option.some.injEq, false_iff]
      rintro ⟨rfl, nonnegative⟩
      exact absurd nonnegative (not_le.mpr negative)
    · simp only [epoch, if_neg negative, Except.ok.injEq, Option.some.injEq]
      constructor
      · rintro rfl
        exact ⟨rfl, not_lt.mp negative⟩
      · exact And.left

/-- The recovery entries that `recoveryState` lets through. -/
@[mk_iff]
structure Recovery.WellFormed (recovery : Recovery) : Prop where
  schemaVersion : recovery.schemaVersion = 1
  phase : recovery.phase = .cooldown ∨ recovery.phase = .halfOpen
  failureKind : recovery.failureKind = .transientTransport ∨
    recovery.failureKind = .rateLimit
  failures : 1 ≤ recovery.failures
  eligibleAt : ∃ due, recovery.eligibleAt = some due ∧ 0 ≤ due
  probeCount : recovery.probeAttempts.length ≤ 3
  probesNonnegative : ∀ stamp ∈ recovery.probeAttempts, 0 ≤ stamp
  probesSorted : recovery.probeAttempts.Pairwise (· ≤ ·)
  lease : recovery.phase = .halfOpen →
    (∃ owner, recovery.probeOwner = some owner ∧ owner ≠ "") ∧
      ∃ lapse, recovery.probeUntil = some lapse ∧ 0 ≤ lapse

private theorem eq_mergeSort_iff {stamps : List ℚ} :
    stamps = stamps.mergeSort ↔ stamps.Pairwise (· ≤ ·) := by
  constructor
  · intro equal
    rw [equal]
    simpa using @List.pairwise_mergeSort ℚ (fun left right => decide (left ≤ right))
      (by simpa using fun _ _ _ => le_trans) (by simpa using le_total) stamps
  · intro sorted
    exact (List.mergeSort_of_pairwise (by simpa using sorted)).symm

private theorem any_ne_empty {name : Option String} :
    name.any (fun owner => owner != "") = true ↔ ∃ owner, name = some owner ∧ owner ≠ "" := by
  cases name <;> simp

theorem recoveryState_eq_ok {state : HostState} {result : Option Recovery} :
    recoveryState state = .ok result ↔
      result = state.recovery ∧ ∀ recovery ∈ state.recovery, recovery.WellFormed := by
  cases present : state.recovery with
  | none => simp [recoveryState, present, eq_comm]
  | some recovery =>
    by_cases halfOpen : recovery.phase = .halfOpen
    · simp [recoveryState, present, bind_eq_ok, map_eq_ok, epoch_eq_ok, any_ne_empty,
        eq_mergeSort_iff, Recovery.wellFormed_iff, halfOpen, eq_comm (a := result)]
      tauto
    · simp [recoveryState, present, bind_eq_ok, map_eq_ok, epoch_eq_ok,
        eq_mergeSort_iff, Recovery.wellFormed_iff, halfOpen, eq_comm (a := result)]
      tauto

/-- The request of `owner` at `now` is let through. -/
def Admits (policy : RecoveryPolicy) (state : HostState) (now : ℚ) (owner : String) : Prop :=
  ∃ admission, hostEligibility state now (some owner) policy = .ok admission ∧
    admission.allowed = true

/-- No operator has granted an exception to a stop. -/
def Unreviewed (state : HostState) : Prop :=
  state.reviewedOsceCsrfProbe = none ∧ state.reviewedOsceDataProbe = none ∧
    state.reviewedNativeBrowserProbe = none ∧ state.reviewedConfigurationProbe = none ∧
    state.reviewedTimeoutProbe = none

variable {policy : RecoveryPolicy} {state : HostState} {recovery : Recovery}
  {now due limit : ℚ} {owner : String}

theorem not_admits_of_stopped (stopped : state.stopped = true)
    (unreviewed : Unreviewed state) : ¬ Admits policy state now owner := by
  rcases unreviewed with ⟨csrf, data, native, configuration, timeout⟩
  rintro ⟨admission, equal, allowed⟩
  simp [hostEligibility, stopped, reviewedEligibility, reviewedProbes, reviewedProbeAdmits,
    csrf, data, native, configuration, timeout, List.anyM] at equal
  cases equal
  cases allowed

theorem Recovery.dueAt_le :
    recovery.dueAt due now policy ≤ limit ↔
      (due ≤ limit ∧ recovery.eligibleAt.getD 0 ≤ limit) ∧
      (recovery.phase = .halfOpen →
        recovery.probeUntil.getD 0 + policy.initialCooldownSeconds ≤ limit) ∧
      (policy.maxProbesPerWindow ≤
          (youngerThan policy.probeWindowSeconds now recovery.probeAttempts).length →
        (youngerThan policy.probeWindowSeconds now recovery.probeAttempts).headD 0 +
          policy.probeWindowSeconds ≤ limit) := by
  unfold Recovery.dueAt
  by_cases halfOpen : recovery.phase = .halfOpen <;>
  by_cases full : policy.maxProbesPerWindow ≤
      (youngerThan policy.probeWindowSeconds now recovery.probeAttempts).length <;>
  simp [halfOpen, full, and_assoc]

theorem admits_iff (running : state.stopped = false) :
    Admits policy state now owner ↔
      (∀ recovery ∈ state.recovery, recovery.WellFormed) ∧
      0 ≤ state.eligibleAt.getD 0 ∧
      (state.recovery = none → state.eligibleAt.getD 0 ≤ now) ∧
      ∀ recovery ∈ state.recovery,
        recovery.leaseHeldBy (some owner) now = true ∨
          recovery.dueAt (state.eligibleAt.getD 0) now policy ≤ now := by
  cases present : state.recovery with
  | none =>
    simp [Admits, hostEligibility, running, bind_eq_ok, recoveryState_eq_ok, epoch_eq_ok,
      present, Admission.of, and_assoc]
  | some recovery =>
    cases held : recovery.leaseHeldBy (some owner) now <;>
      simp [Admits, hostEligibility, running, bind_eq_ok, recoveryState_eq_ok, epoch_eq_ok,
        present, held, Admission.of, Admission.ready, and_assoc]

theorem Admits.heldOrDue (admits : Admits policy state now owner)
    (running : state.stopped = false) (present : state.recovery = some recovery) :
    recovery.leaseHeldBy (some owner) now = true ∨
      recovery.dueAt (state.eligibleAt.getD 0) now policy ≤ now :=
  ((admits_iff running).mp admits).2.2.2 recovery (by simp [present])

theorem Admits.eligibleAt_le (admits : Admits policy state now owner)
    (running : state.stopped = false)
    (cooling : ∀ recovery ∈ state.recovery, recovery.phase = .cooldown) :
    state.eligibleAt.getD 0 ≤ now := by
  have conditions := (admits_iff running).mp admits
  cases present : state.recovery with
  | none => exact conditions.2.2.1 present
  | some recovery =>
    rcases admits.heldOrDue running present with held | due
    · simp [Recovery.leaseHeldBy, cooling recovery (by simp [present])] at held
    · exact (Recovery.dueAt_le.mp due).1.1

theorem Admits.eq_owner_or_le (admits : Admits policy state now owner)
    (running : state.stopped = false) (present : state.recovery = some recovery)
    (halfOpen : recovery.phase = .halfOpen) :
    recovery.leaseHeldBy (some owner) now = true ∨
      recovery.probeUntil.getD 0 + policy.initialCooldownSeconds ≤ now := by
  rcases admits.heldOrDue running present with held | due
  · exact .inl held
  · exact .inr ((Recovery.dueAt_le.mp due).2.1 halfOpen)

theorem head_mem_youngerThan {window : ℚ} {stamps : List ℚ}
    (nonempty : 0 < (youngerThan window now stamps).length) :
    now - window < (youngerThan window now stamps).headD 0 := by
  cases equal : youngerThan window now stamps with
  | nil => simp [equal] at nonempty
  | cons stamp rest =>
    exact lt_of_mem_youngerThan (by rw [equal]; exact List.mem_cons_self)

theorem Recovery.length_lt_of_dueAt_le
    (due_le : recovery.dueAt due now policy ≤ now) (admitsSome : 0 < policy.maxProbesPerWindow) :
    (youngerThan policy.probeWindowSeconds now recovery.probeAttempts).length <
      policy.maxProbesPerWindow := by
  by_contra full
  have windowEnd := (Recovery.dueAt_le.mp due_le).2.2 (not_lt.mp full)
  have young := head_mem_youngerThan (admitsSome.trans_le (not_lt.mp full))
  linarith

theorem beginProbe_eq_ok {next : HostState} :
    beginProbe state now owner policy = .ok next ↔
      (∀ recovery ∈ state.recovery, recovery.WellFormed ∧ Admits policy state now owner) ∧
      next = match state.recovery with
        | none => state
        | some recovery =>
          if recovery.leaseHeldBy (some owner) now then state
          else { state with recovery := some (recovery.reserve now owner policy) } := by
  cases present : state.recovery with
  | none => simp [beginProbe, bind_eq_ok, recoveryState_eq_ok, present, eq_comm (a := next)]
  | some recovery =>
    cases held : recovery.leaseHeldBy (some owner) now <;>
      simp [beginProbe, bind_eq_ok, map_eq_ok, recoveryState_eq_ok, present, held, Admits,
        eq_comm (a := next), and_assoc, ← exists_and_right]

end JobAgg.HostRecovery
