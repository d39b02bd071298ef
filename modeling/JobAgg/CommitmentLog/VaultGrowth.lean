import JobAgg.CommitmentLog.Membership

/-! # How the log of a vault grows

Every transaction lets the log of one vault grow by a view, by a late delivery, by an activation
with its deliveries or by an enrollment, if by anything. The membership can be rebuilt from the
log from the first activation on. -/

namespace JobAgg.CommitmentLog

open EpochVault

variable {Digest : Type} [DecidableEq Digest] {library : LogLibrary Digest} {vault : VaultKey}
  {log after : VaultLog Digest} {call : LogCall Digest} {db : Database Digest}

inductive Grows (library : LogLibrary Digest) (vault : VaultKey) (log : VaultLog Digest) :
    LogCall Digest → VaultLog Digest → Prop
  | same {call : LogCall Digest} : Grows library vault log call log
  | view {view : View Digest} {registryRoot : Digest} {publicB64 authority : String}
      {initialEpoch : Nat}
      (continues : Continues library vault log.founder log.current log.views view registryRoot
        publicB64 initialEpoch authority) :
      Grows library vault log (.append vault view registryRoot publicB64 initialEpoch)
        (log.addView vault view authority)
  | late {epoch : Nat} {issuerId recipient : String} {packet : Packet Digest}
      {row : ActivationRow Digest} (listed : row ∈ log.activations) (held : row.epoch = epoch)
      (delivers : Delivers library vault row.body packet recipient) :
      Grows library vault log (.putDelivery vault epoch issuerId packet)
        (log.addDeliveries [⟨vault, epoch, recipient, packet⟩])
  | activated {proof : Rotation Digest} {registry : Registry} {device : String}
      {prior : Registry × Nat} {last : View Digest} {deliveries : List (DeliveryRow Digest)}
      (found : log.views.getLast? = some last)
      (known : priorAuthority registry last (log.membership library vault) log.current =
        .ok prior)
      (activates : Activates library vault log.activations proof prior last deliveries) :
      Grows library vault log (.acceptActivation vault proof registry device)
        (log.addActivation vault proof deliveries)
  | enrolled {proof : Enrollment Digest} {issuerId : String} {current : Membership Digest}
      {registry : Registry} (known : log.membership library vault = .ok current)
      (verified : verifyEnrollmentAttestation library proof current.registry current.context =
        .ok registry) :
      Grows library vault log (.acceptEnrollment vault proof issuerId)
        (log.addEnrollment vault proof)

section Filters

variable {Row : Type} {rows more : List Row} {here : Row → Bool}

theorem filter_append_here (all : ∀ row ∈ more, here row = true) :
    (rows ++ more).filter here = rows.filter here ++ more := by
  rw [List.filter_append, List.filter_eq_self.mpr all]

theorem filter_append_elsewhere (none : ∀ row ∈ more, here row = false) :
    (rows ++ more).filter here = rows.filter here := by
  have nothing : more.filter here = [] := by
    rw [List.filter_eq_nil_iff]
    intro row listed
    rw [none row listed]
    exact Bool.false_ne_true
  rw [List.filter_append, nothing, List.append_nil]

end Filters

theorem Writes.others {membership : Except String (Membership Digest)}
    {committed : Committed Digest (LogAnswer Digest)}
    (writes : Writes library membership db call committed) (other : call.vault ≠ vault) :
    committed.database.vaultLog vault = db.vaultLog vault := by
  cases writes with
  | known answered => rfl
  | again held => rfl
  | view continues =>
    rw [Database.vaultLog, filter_append_elsewhere]
    · rfl
    · intro row listed
      rw [List.mem_singleton.mp listed]
      exact beq_false_of_ne other
  | prepared rows => rfl
  | late held delivers =>
    rw [Database.vaultLog, filter_append_elsewhere]
    · rfl
    · intro row listed
      rw [List.mem_singleton.mp listed]
      exact beq_false_of_ne other
  | activated rows found known activates =>
    rw [Database.vaultLog, filter_append_elsewhere, filter_append_elsewhere]
    · rfl
    · intro row listed
      rw [(activates.delivered row listed).1]
      exact beq_false_of_ne other
    · intro row listed
      rw [List.mem_singleton.mp listed]
      exact beq_false_of_ne other
  | enrolled known verified =>
    rw [Database.vaultLog, filter_append_elsewhere]
    · rfl
    · intro row listed
      rw [List.mem_singleton.mp listed]
      exact beq_false_of_ne other

omit [DecidableEq Digest] in
theorem Database.vaultLog_enrolled (vault : VaultKey) (proof : Enrollment Digest) :
    ({ db with enrollments := db.enrollments ++
      [⟨vault, proof.activationId, proof.nextRegistryGeneration, proof.root, proof⟩] } :
        Database Digest).vaultLog vault = (db.vaultLog vault).addEnrollment vault proof := by
  dsimp only [Database.vaultLog]
  rw [filter_append_here]
  · rfl
  · intro row listed
    rw [List.mem_singleton.mp listed]
    exact beq_self_eq_true _

theorem Writes.grows (ordered : Ordered (db.vaultLog vault))
    {committed : Committed Digest (LogAnswer Digest)} (here : call.vault = vault)
    (writes : Writes library (rebuildMembership library vault db) db call committed) :
    Grows library vault (db.vaultLog vault) call (committed.database.vaultLog vault) := by
  rw [ordered.rebuildMembership] at writes
  have mine {Row : Type} (row : Row) (place : Row → VaultKey) (placed : place row = vault) :
      ∀ other ∈ [row], (place other == vault) = true := by
    intro other listed
    rw [List.mem_singleton.mp listed, placed, beq_self_eq_true]
  cases writes with
  | known answered => exact .same
  | again held => exact .same
  | @view own view registryRoot publicB64 authority initialEpoch continues =>
    obtain rfl : own = vault := here
    have grown := @filter_append_here _ db.commitments _ _
      (mine ⟨own, view.sequence, view.root, authority, view⟩ CommitmentRow.vault rfl)
    rw [ordered.commitmentRows, ordered.activation, ordered.read] at continues
    dsimp only [Database.vaultLog]
    rw [grown]
    exact .view continues
  | prepared rows => exact .same
  | @late own epoch issuerId recipient packet record held delivers =>
    obtain rfl : own = vault := here
    have grown := @filter_append_here _ db.deviceDeliveries _ _
      (mine ⟨own, epoch, recipient, packet⟩ DeliveryRow.vault rfl)
    rw [Database.activationAt, Option.map_eq_some_iff] at held
    obtain ⟨row, found, rfl⟩ := held
    have fits := List.find?_some found
    rw [Bool.and_eq_true, beq_iff_eq] at fits
    dsimp only [Database.vaultLog]
    rw [grown]
    exact .late (List.mem_filter.mpr
      ⟨List.mem_of_find?_eq_some found, beq_iff_eq.mpr fits.1⟩)
      (beq_iff_eq.mp fits.2) delivers
  | @activated own proof registry device prior last deliveries changes rows found known activates =>
    obtain rfl : own = vault := here
    have recorded := @filter_append_here _ db.activations _ _
      (mine ⟨own, proof.plan.newEpoch, proof.root, ⟨"ACTIVATION_ACCEPTED", proof.root, proof⟩⟩
        ActivationRow.vault rfl)
    have delivered := @filter_append_here _ db.deviceDeliveries deliveries
      (fun row => row.vault == own)
      fun row listed => beq_iff_eq.mpr (activates.delivered row listed).1
    rw [ordered.read] at found
    rw [ordered.activation] at known
    dsimp only [Database.vaultLog]
    rw [recorded, delivered]
    exact .activated found known activates
  | @enrolled own proof issuerId current registry known verified =>
    obtain rfl : own = vault := here
    rw [Database.vaultLog_enrolled]
    exact .enrolled known verified

/-! ## What is kept -/

theorem VaultLog.membership_eq_ok {membership : Membership Digest} :
    log.membership library vault = .ok membership ↔ ∃ current, log.current = some current ∧
      membershipOf library vault current log.views (log.additions current.transitionId) =
        .ok membership := by
  rw [VaultLog.membership]
  cases log.current with
  | none =>
    constructor
    · intro impossible
      cases impossible
    · rintro ⟨current, impossible, -⟩
      cases impossible
  | some current =>
    constructor
    · intro made
      exact ⟨current, rfl, conflicted_eq_ok.mp made⟩
    · rintro ⟨other, same, made⟩
      cases same
      exact conflicted_eq_ok.mpr made

/-- What a vault keeps: the rows lie in order, with roots of their own, the columns are those of
what they hold, and from the first activation on there is a membership that no enrollment is
ahead of. -/
structure Kept (library : LogLibrary Digest) (vault : VaultKey) (log : VaultLog Digest) : Prop
    extends Ordered log where
  distinct : (log.views.map View.root).Nodup
  numbered : ∀ row ∈ log.commitments, row.sequence = row.body.sequence
  recorded : ∀ row ∈ log.activations,
    row.epoch = row.body.proof.plan.newEpoch ∧ row.root = row.body.transitionId
  separate : (log.activations.map (·.root)).Nodup
  anchored : ∀ row ∈ log.enrollments, ∃ known ∈ log.activations, known.root = row.activation
  known : ∀ current, log.current = some current →
    ∃ membership, log.membership library vault = .ok membership ∧
      ∀ row ∈ log.enrollments, row.activation = current.transitionId →
        row.generation ≤ membership.context.registryGeneration

theorem kept_empty : Kept library vault VaultLog.empty where
  sequences := rfl
  epochs := .nil
  generations _ := .nil
  distinct := .nil
  numbered _ impossible := absurd impossible List.not_mem_nil
  recorded _ impossible := absurd impossible List.not_mem_nil
  separate := .nil
  anchored _ impossible := absurd impossible List.not_mem_nil
  known _ impossible := by cases impossible

omit [DecidableEq Digest] in
theorem VaultLog.current_eq_some {current : ActivationRecord Digest} :
    log.current = some current ↔
      ∃ row, log.activations.getLast? = some row ∧ row.body = current := by
  rw [VaultLog.current, Option.map_eq_some_iff]

theorem belongs_of_membership {membership : Membership Digest} {current : ActivationRecord Digest}
    (held : log.current = some current) (made : log.membership library vault = .ok membership) :
    ∃ last, log.views.getLast? = some last ∧ Belongs vault current last.root membership ∧
      membership.records = log.additions current.transitionId := by
  obtain ⟨same, found, made⟩ := VaultLog.membership_eq_ok.mp made
  rw [held, Option.some.injEq] at found
  subst found
  cases found : log.views.getLast? with
  | none =>
    rw [List.getLast?_eq_none_iff] at found
    rw [membershipOf_eq_ok, found] at made
    exact absurd made.1 List.not_mem_nil
  | some last => exact ⟨last, rfl, belongs_of_membershipOf found made⟩

/-! ## What each addition does to the membership -/

theorem membership_addView {membership : Membership Digest} (view : View Digest)
    (authority : String) (made : log.membership library vault = .ok membership) :
    (log.addView vault view authority).membership library vault =
      .ok { membership with context := { membership.context with stateRoot := view.root } } := by
  obtain ⟨current, found, made⟩ := VaultLog.membership_eq_ok.mp made
  rw [VaultLog.membership_eq_ok]
  refine ⟨current, found, ?_⟩
  rw [VaultLog.views_addView]
  exact membershipOf_view view made

theorem Kept.additions_of_fresh (kept : Kept library vault log) {root : Digest}
    (fresh : ∀ row ∈ log.activations, row.root ≠ root) :
    ∀ row ∈ log.enrollments, row.activation ≠ root := by
  intro row listed same
  obtain ⟨before, recorded, anchored⟩ := kept.anchored row listed
  exact fresh before recorded (anchored.trans same)

theorem Kept.membership_addActivation (injective : Function.Injective library.registryDigest)
    (kept : Kept library vault log) {proof : Rotation Digest} {registry : Registry} {epoch : Nat}
    {last : View Digest} {outcome : Verified} (deliveries : List (DeliveryRow Digest))
    (found : log.views.getLast? = some last) (fresh : ∀ row ∈ log.activations, row.root ≠ proof.root)
    (verified : verifyEpochRotation library.toRotationLibrary proof registry vault.1 vault.2 epoch
      last.root = .ok outcome) :
    ∃ after, outcome.registry.Perm after ∧
      (log.addActivation vault proof deliveries).membership library vault =
        .ok (activated vault (VaultLog.recordOf proof) after) := by
  obtain ⟨after, permuted, made⟩ := @membershipOf_activated _ _ _ vault _ _ _ _ _ _
    "ACTIVATION_ACCEPTED" injective found verified
  refine ⟨after, permuted, ?_⟩
  rw [VaultLog.membership_eq_ok]
  refine ⟨_, VaultLog.current_addActivation log, ?_⟩
  have none : log.enrollments.filter (·.activation == proof.root) = [] := by
    rw [List.filter_eq_nil_iff]
    intro row listed same
    exact kept.additions_of_fresh fresh row listed (beq_iff_eq.mp same)
  have nothing : (log.addActivation vault proof deliveries).additions
      (VaultLog.recordOf proof).transitionId = [] := by
    rw [VaultLog.additions, VaultLog.addActivation, VaultLog.recordOf, none]
    rfl
  rw [nothing]
  exact made

theorem Kept.membership_addEnrollment (kept : Kept library vault log) {proof : Enrollment Digest}
    {membership : Membership Digest} {registry : Registry}
    (made : log.membership library vault = .ok membership)
    (verified : verifyEnrollmentAttestation library proof membership.registry membership.context =
      .ok registry) :
    (log.addEnrollment vault proof).membership library vault =
      .ok (membership.enroll registry proof) := by
  obtain ⟨current, held, rebuilt⟩ := VaultLog.membership_eq_ok.mp made
  obtain ⟨last, -, belongs, -⟩ := belongs_of_membership held made
  have context := (verifyEnrollment_spec verified).2.2.2.1
  have activation : proof.activationId = current.transitionId := by
    rw [← belongs.activationId]
    exact congrArg EnrollmentContext.activationId context
  rw [VaultLog.membership_eq_ok]
  refine ⟨current, held, ?_⟩
  have more : (log.addEnrollment vault proof).additions current.transitionId =
      log.additions current.transitionId ++ [proof] := by
    rw [VaultLog.additions, VaultLog.addEnrollment, filter_append_here, List.map_append,
      List.map_singleton, VaultLog.additions]
    intro row listed
    rw [List.mem_singleton.mp listed]
    exact beq_iff_eq.mpr activation
  rw [more]
  exact membershipOf_enrolled kept.distinct rebuilt verified

/-! ## What each addition keeps -/

theorem Kept.view (kept : Kept library vault log) {view : View Digest} {registryRoot : Digest}
    {publicB64 authority : String} {initialEpoch : Nat}
    (continues : Continues library vault log.founder log.current log.views view registryRoot
      publicB64 initialEpoch authority) :
    Kept library vault (log.addView vault view authority) where
  sequences := by
    have continued := continues.continues
    simp only [continuesLog, Bool.and_eq_true, beq_iff_eq] at continued
    have next := continued.1.1.1.1.1
    rw [VaultLog.views, List.length_map] at next
    rw [VaultLog.addView, List.map_append, kept.sequences, List.length_append,
      List.length_singleton, List.range'_1_concat, List.map_singleton, next, Nat.add_comm]
  epochs := kept.epochs
  generations := kept.generations
  distinct := by
    rw [VaultLog.views_addView, List.map_append, List.nodup_append]
    refine ⟨kept.distinct, List.nodup_singleton _, ?_⟩
    intro root old other new
    rw [List.map_singleton, List.mem_singleton] at new
    obtain ⟨seen, listed, rfl⟩ := List.mem_map.mp old
    rw [new]
    exact continues.fresh seen listed
  numbered row listed := by
    rcases List.mem_append.mp listed with old | new
    · exact kept.numbered row old
    · rw [List.mem_singleton.mp new]
  recorded := kept.recorded
  separate := kept.separate
  anchored := kept.anchored
  known current held := by
    obtain ⟨membership, made, bounded⟩ := kept.known current held
    exact ⟨_, membership_addView view authority made, bounded⟩

theorem Kept.deliver (kept : Kept library vault log) (deliveries : List (DeliveryRow Digest)) :
    Kept library vault (log.addDeliveries deliveries) where
  sequences := kept.sequences
  epochs := kept.epochs
  generations := kept.generations
  distinct := kept.distinct
  numbered := kept.numbered
  recorded := kept.recorded
  separate := kept.separate
  anchored := kept.anchored
  known := kept.known

theorem Ordered.le_current (ordered : Ordered log) {last row : ActivationRow Digest}
    (found : log.activations.getLast? = some last) (listed : row ∈ log.activations) :
    row.epoch ≤ last.epoch := by
  have parts := List.dropLast_append_getLast? last found
  have ascending := ordered.epochs
  rw [← parts] at listed ascending
  rw [List.pairwise_append] at ascending
  rcases List.mem_append.mp listed with old | new
  · exact le_of_lt (ascending.2.2 row old last (List.mem_singleton_self _))
  · rw [List.mem_singleton.mp new]

theorem Kept.epoch_lt (kept : Kept library vault log) {registry : Registry} {prior : Registry × Nat}
    {proof : Rotation Digest} {last : View Digest} {outcome : Verified}
    (known : priorAuthority registry last (log.membership library vault) log.current = .ok prior)
    (verified : verifyEpochRotation library.toRotationLibrary proof prior.1 vault.1 vault.2 prior.2
      last.root = .ok outcome) :
    ∀ row ∈ log.activations, row.epoch < proof.plan.newEpoch := by
  intro row listed
  cases found : log.activations.getLast? with
  | none =>
    rw [List.getLast?_eq_none_iff] at found
    rw [found] at listed
    cases listed
  | some latest =>
    have held := VaultLog.current_eq_some.mpr ⟨latest, found, rfl⟩
    rw [held, priorAuthority, bind_eq_ok] at known
    obtain ⟨members, -, same⟩ := known
    rw [pure_eq_ok] at same
    subst same
    have least := kept.le_current found listed
    have next := (verifyEpochRotation_spec verified).2.2.next
    have latestEpoch := (kept.recorded latest (List.mem_of_getLast? found)).1
    dsimp only at next
    omega

theorem Kept.activate (injective : Function.Injective library.registryDigest)
    (kept : Kept library vault log) {proof : Rotation Digest} {registry : Registry}
    {prior : Registry × Nat} {last : View Digest} {deliveries : List (DeliveryRow Digest)}
    (found : log.views.getLast? = some last)
    (known : priorAuthority registry last (log.membership library vault) log.current = .ok prior)
    (activates : Activates library vault log.activations proof prior last deliveries) :
    Kept library vault (log.addActivation vault proof deliveries) where
  sequences := kept.sequences
  epochs := by
    obtain ⟨outcome, verified⟩ := activates.verified
    rw [VaultLog.addActivation, List.pairwise_append]
    refine ⟨kept.epochs, List.pairwise_singleton _ _, ?_⟩
    intro row old other new
    rw [List.mem_singleton.mp new]
    exact kept.epoch_lt known verified row old
  generations := kept.generations
  distinct := kept.distinct
  numbered := kept.numbered
  recorded row listed := by
    rcases List.mem_append.mp listed with old | new
    · exact kept.recorded row old
    · rw [List.mem_singleton.mp new]
      exact ⟨rfl, rfl⟩
  separate := by
    rw [VaultLog.addActivation, List.map_append, List.nodup_append]
    refine ⟨kept.separate, List.nodup_singleton _, ?_⟩
    intro root old other new
    rw [List.map_singleton, List.mem_singleton] at new
    obtain ⟨row, listed, rfl⟩ := List.mem_map.mp old
    rw [new]
    exact activates.fresh row listed
  anchored row listed := by
    obtain ⟨before, recorded, root⟩ := kept.anchored row listed
    exact ⟨before, List.mem_append_left _ recorded, root⟩
  known current held := by
    obtain ⟨outcome, verified⟩ := activates.verified
    obtain ⟨after, -, made⟩ :=
      kept.membership_addActivation injective deliveries found activates.fresh verified
    rw [VaultLog.current_addActivation, Option.some.injEq] at held
    subst held
    refine ⟨_, made, ?_⟩
    intro row listed same
    exact absurd same (kept.additions_of_fresh activates.fresh row listed)

theorem Kept.enroll (kept : Kept library vault log) {proof : Enrollment Digest}
    {membership : Membership Digest} {registry : Registry}
    (made : log.membership library vault = .ok membership)
    (verified : verifyEnrollmentAttestation library proof membership.registry membership.context =
      .ok registry) :
    Kept library vault (log.addEnrollment vault proof) := by
  obtain ⟨current, held, -⟩ := VaultLog.membership_eq_ok.mp made
  obtain ⟨row, last, rfl⟩ := VaultLog.current_eq_some.mp held
  obtain ⟨view, -, belongs, -⟩ := belongs_of_membership held made
  obtain ⟨-, -, -, context, next, -⟩ := verifyEnrollment_spec verified
  have activation : proof.activationId = row.body.transitionId := by
    rw [← belongs.activationId]
    exact congrArg EnrollmentContext.activationId context
  obtain ⟨same, remade, bounded⟩ := kept.known _ held
  rw [made, Except.ok.injEq] at remade
  subst remade
  refine {
    sequences := kept.sequences
    epochs := kept.epochs
    generations := ?_
    distinct := kept.distinct
    numbered := kept.numbered
    recorded := kept.recorded
    separate := kept.separate
    anchored := ?_
    known := ?_ }
  · intro other
    by_cases mine : row.body.transitionId = other
    · rw [VaultLog.addEnrollment, filter_append_here, List.pairwise_append]
      · refine ⟨kept.generations other, List.pairwise_singleton _ _, ?_⟩
        intro old listed new added
        rw [List.mem_singleton.mp added]
        obtain ⟨known, here⟩ := List.mem_filter.mp listed
        have least := bounded old known ((beq_iff_eq.mp here).trans mine.symm)
        dsimp only
        omega
      · intro new added
        rw [List.mem_singleton.mp added]
        exact beq_iff_eq.mpr (activation.trans mine)
    · rw [VaultLog.addEnrollment, filter_append_elsewhere]
      · exact kept.generations other
      · intro new added
        rw [List.mem_singleton.mp added]
        exact beq_false_of_ne fun same => mine (activation.symm.trans same)
  · intro other listed
    rcases List.mem_append.mp listed with old | new
    · exact kept.anchored other old
    · rw [List.mem_singleton.mp new]
      refine ⟨row, List.mem_of_getLast? last, ?_⟩
      rw [(kept.recorded row (List.mem_of_getLast? last)).2, activation]
  · intro other known
    have same : row.body = other := Option.some.inj (held.symm.trans known)
    refine ⟨_, kept.membership_addEnrollment made verified, ?_⟩
    intro known listed here
    dsimp only [Membership.enroll]
    rcases List.mem_append.mp listed with old | new
    · have least := bounded known old (here.trans (congrArg _ same.symm))
      omega
    · rw [List.mem_singleton.mp new]

theorem Grows.kept (injective : Function.Injective library.registryDigest)
    (kept : Kept library vault log) (grows : Grows library vault log call after) :
    Kept library vault after := by
  cases grows with
  | same => exact kept
  | view continues => exact kept.view continues
  | late listed held delivers => exact kept.deliver _
  | activated found known activates => exact kept.activate injective found known activates
  | enrolled known verified => exact kept.enroll known verified

theorem LogStep.grows {next : Database Digest} {event : LogEvent Digest}
    (step : LogStep library db event next) (ordered : Ordered (db.vaultLog vault)) :
    Grows library vault (db.vaultLog vault) event.call (next.vaultLog vault) := by
  rw [LogStep] at step
  split at step
  case h_1 committed performed =>
    obtain ⟨rfl, -⟩ := step
    have writes := LogCall.transact_writes performed
    by_cases here : event.call.vault = vault
    · rw [here] at writes
      exact writes.grows ordered here
    · rw [writes.others here]
      exact .same
  case h_2 reason failed =>
    obtain ⟨rfl, -⟩ := step
    exact .same

theorem kept_of_run (injective : Function.Injective library.registryDigest)
    {events : List (LogEvent Digest)} (run : Run (LogStep library) .empty events db) :
    ∀ vault, Kept library vault (db.vaultLog vault) := by
  intro vault
  apply run.invariant fun db => Kept library vault (db.vaultLog vault)
  · exact fun before event after step kept => (step.grows kept.toOrdered).kept injective kept
  · exact kept_empty

end JobAgg.CommitmentLog
