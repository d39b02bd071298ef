import JobAgg.CommitmentLog.CommitmentLog

/-! # What a transaction does

A transaction adds a view, a delivery that waits for its rotation, one that is late, a rotation
with its deliveries or an enrollment, or it changes nothing. -/

namespace JobAgg.CommitmentLog

open EpochVault

variable {Digest : Type}

theorem conflicted_eq_ok {Value : Type} {checked : Except String Value} {value : Value} :
    conflicted checked = .ok value ↔ checked = .ok value :=
  mapError_eq_ok

theorem insertRow_eq_ok {Row : Type} {conflicts : Row → Row → Bool} {row : Row}
    {rows after : List Row} :
    insertRow conflicts row rows = .ok after ↔
      (∀ known ∈ rows, conflicts row known = false) ∧ after = rows ++ [row] := by
  rw [insertRow]
  split
  case isTrue conflicting =>
    rw [List.any_eq_true] at conflicting
    obtain ⟨known, listed, conflict⟩ := conflicting
    constructor
    · intro impossible
      cases impossible
    · rintro ⟨apart, -⟩
      exact absurd (apart known listed) (by rw [conflict]; exact nofun)
  case isFalse apart =>
    rw [Bool.not_eq_true, List.any_eq_false] at apart
    constructor
    · intro same
      exact ⟨fun known listed => Bool.not_eq_true _ ▸ apart known listed, (Except.ok.inj same).symm⟩
    · rintro ⟨-, rfl⟩
      rfl

variable [DecidableEq Digest] {library : LogLibrary Digest} {vault : VaultKey}
  {membership : Except String (Membership Digest)} {db : Database Digest}

/-- The packet proves the wrapper of this recipient in the recorded rotation. -/
structure Delivers (library : LogLibrary Digest) (vault : VaultKey)
    (record : ActivationRecord Digest) (packet : Packet Digest) (recipient : String) : Prop where
  device : packet.proof.recipientDeviceId = recipient
  activation : packet.proof.activationId = record.transitionId
  plan : packet.proof.plan = record.proof.plan
  revocation : packet.proof.revocation = record.proof.revocation
  registry : packet.proof.registry = record.proof.registry
  signer : packet.proof.rotationSignerDeviceId = record.proof.rotationSignerDeviceId
  verified : ∃ outcome, verifyDeviceDelivery library.toRotationLibrary packet
    record.proof.registry vault.1 vault.2 record.proof.plan.previousEpoch
    record.proof.plan.stateRoot record.transitionId recipient = .ok outcome

/-- A view whose root is new follows the others, under the authority of the activation or
else of the founder. -/
structure Continues (library : LogLibrary Digest) (vault : VaultKey) (founder : Option String)
    (activation : Option (ActivationRecord Digest)) (history : List (View Digest))
    (view : View Digest) (registryRoot : Digest) (publicB64 : String) (initialEpoch : Nat)
    (authority : String) : Prop where
  authorized : authorityOf (founder.getD publicB64) activation = .ok authority
  verified : view.isVerified library.toHistoryLibrary authority = true
  account : view.accountId = vault.1
  vaultId : view.vaultId = vault.2
  fresh : ∀ old ∈ history, old.root ≠ view.root
  continues : continuesLog library registryRoot initialEpoch activation history view = true

/-- A rotation that is new is verified against what the log knows, and its deliveries were
prepared. -/
structure Activates (library : LogLibrary Digest) (vault : VaultKey)
    (known : List (ActivationRow Digest)) (proof : Rotation Digest) (prior : Registry × Nat)
    (last : View Digest) (deliveries : List (DeliveryRow Digest)) : Prop where
  verified : ∃ outcome, verifyEpochRotation library.toRotationLibrary proof prior.1 vault.1
    vault.2 prior.2 last.root = .ok outcome
  rooted : registryRoot library.toRevocationLibrary prior.1 = .ok proof.plan.priorRegistryRoot
  fresh : ∀ row ∈ known, row.root ≠ proof.root
  recipients : ∀ recipient ∈ proof.plan.recipients, ∃ row ∈ deliveries, row.recipient = recipient
  delivered : ∀ row ∈ deliveries, row.vault = vault ∧ row.epoch = proof.plan.newEpoch ∧
    Delivers library vault ⟨"ACTIVATION_ACCEPTED", proof.root, proof⟩ row.body row.recipient

/-- What a transaction may do when `membership` answers so inside it. -/
inductive Writes (library : LogLibrary Digest) (membership : Except String (Membership Digest))
    (db : Database Digest) : LogCall Digest → Committed Digest (LogAnswer Digest) → Prop
  | known {call : LogCall Digest} {answer : LogAnswer Digest}
      (other : ∀ record, answer ≠ .activated record) :
      Writes library membership db call ⟨db, 0, answer⟩
  | again {vault : VaultKey} {proof : Rotation Digest} {registry : Registry} {device : String}
      {current : ActivationRecord Digest} (held : db.activation vault = some current) :
      Writes library membership db (.acceptActivation vault proof registry device)
        ⟨db, 0, .activated current⟩
  | view {vault : VaultKey} {view : View Digest} {registryRoot : Digest}
      {publicB64 authority : String} {initialEpoch : Nat}
      (continues : Continues library vault ((db.commitmentRows vault).head?.map (·.authority))
        (db.activation vault) (db.read vault) view registryRoot publicB64 initialEpoch authority) :
      Writes library membership db (.append vault view registryRoot publicB64 initialEpoch)
        ⟨{ db with commitments :=
            db.commitments ++ [⟨vault, view.sequence, view.root, authority, view⟩] },
          1, .appended true⟩
  | prepared {vault : VaultKey} {epoch changes : Nat} {issuerId : String} {packet : Packet Digest}
      (rows : List (PreparedRow Digest)) :
      Writes library membership db (.putDelivery vault epoch issuerId packet)
        ⟨{ db with preparedDeviceDeliveries := rows }, changes + 1, .delivered⟩
  | late {vault : VaultKey} {epoch : Nat} {issuerId recipient : String} {packet : Packet Digest}
      {record : ActivationRecord Digest} (held : db.activationAt vault epoch = some record)
      (delivers : Delivers library vault record packet recipient) :
      Writes library membership db (.putDelivery vault epoch issuerId packet)
        ⟨{ db with deviceDeliveries := db.deviceDeliveries ++ [⟨vault, epoch, recipient, packet⟩] },
          1, .delivered⟩
  | activated {vault : VaultKey} {proof : Rotation Digest} {registry : Registry} {device : String}
      {prior : Registry × Nat} {last : View Digest} {deliveries : List (DeliveryRow Digest)}
      {changes : Nat} (rows : List (PreparedRow Digest))
      (found : (db.read vault).getLast? = some last)
      (known : priorAuthority registry last membership (db.activation vault) = .ok prior)
      (activates : Activates library vault (db.activations.filter (·.vault == vault)) proof prior
        last deliveries) :
      Writes library membership db (.acceptActivation vault proof registry device)
        ⟨{ db with
            activations := db.activations ++
              [⟨vault, proof.plan.newEpoch, proof.root, ⟨"ACTIVATION_ACCEPTED", proof.root, proof⟩⟩]
            deviceDeliveries := db.deviceDeliveries ++ deliveries
            preparedDeviceDeliveries := rows },
          changes + 1, .activated ⟨"ACTIVATION_ACCEPTED", proof.root, proof⟩⟩
  | enrolled {vault : VaultKey} {proof : Enrollment Digest} {issuerId : String}
      {current : Membership Digest} {registry : Registry} (known : membership = .ok current)
      (verified : verifyEnrollmentAttestation library proof current.registry current.context =
        .ok registry) :
      Writes library membership db (.acceptEnrollment vault proof issuerId)
        ⟨{ db with enrollments := db.enrollments ++
            [⟨vault, proof.activationId, proof.nextRegistryGeneration, proof.root, proof⟩] },
          1, .enrolled true⟩

theorem Writes.unchanged {call : LogCall Digest} {committed : Committed Digest (LogAnswer Digest)}
    (writes : Writes library membership db call committed) (none : committed.changes = 0) :
    committed.database = db := by
  cases writes with
  | known other => rfl
  | again held => rfl
  | view continues => cases none
  | prepared rows => cases none
  | late held delivers => cases none
  | activated rows found known activates => cases none
  | enrolled known verified => cases none

/-! ## Enrollments and views -/

theorem acceptEnrollment_spec {proof : Enrollment Digest} {issuerId : String}
    {committed : Committed Digest Bool}
    (accepted : acceptEnrollment library vault proof issuerId membership db = .ok committed) :
    committed = ⟨db, 0, false⟩ ∨ ∃ current registry, membership = .ok current ∧
      verifyEnrollmentAttestation library proof current.registry current.context =
        .ok registry ∧
      committed = ⟨{ db with enrollments := db.enrollments ++
        [⟨vault, proof.activationId, proof.nextRegistryGeneration, proof.root, proof⟩] },
          1, true⟩ := by
  rw [acceptEnrollment, require_bind_eq_ok, bind_eq_ok] at accepted
  obtain ⟨-, current, known, accepted⟩ := accepted
  rw [require_bind_eq_ok] at accepted
  obtain ⟨-, accepted⟩ := accepted
  split at accepted
  case h_1 old found =>
    rw [require_bind_eq_ok, pure_eq_ok] at accepted
    exact .inl accepted.2.symm
  case h_2 absent =>
    rw [bind_eq_ok] at accepted
    obtain ⟨registry, verified, accepted⟩ := accepted
    rw [require_bind_eq_ok, bind_eq_ok] at accepted
    obtain ⟨-, rows, inserted, same⟩ := accepted
    rw [pure_eq_ok] at same
    rw [mapError_eq_ok, insertRow_eq_ok] at inserted
    obtain ⟨-, rfl⟩ := inserted
    exact .inr ⟨current, registry, known, conflicted_eq_ok.mp verified, same.symm⟩

theorem acceptEnrollment_writes {proof : Enrollment Digest} {issuerId : String}
    {committed : Committed Digest Bool}
    (accepted : acceptEnrollment library vault proof issuerId membership db = .ok committed) :
    Writes library membership db (.acceptEnrollment vault proof issuerId)
      (committed.answering .enrolled) := by
  rcases acceptEnrollment_spec accepted with rfl | ⟨current, registry, known, verified, rfl⟩
  · exact .known fun _ same => by cases same
  · exact .enrolled known verified

theorem append_writes {view : View Digest} {registryRoot : Digest} {publicB64 : String}
    {initialEpoch : Nat} {committed : Committed Digest Bool}
    (appended : append library vault view registryRoot publicB64 initialEpoch db =
      .ok committed) :
    Writes library membership db (.append vault view registryRoot publicB64 initialEpoch)
      (committed.answering .appended) := by
  rw [append, bind_eq_ok] at appended
  obtain ⟨authority, authorized, appended⟩ := appended
  rw [require_bind_eq_ok, require_bind_eq_ok, Bool.and_eq_true, beq_iff_eq, beq_iff_eq] at appended
  obtain ⟨verified, names, appended⟩ := appended
  split at appended
  case h_1 old found =>
    rw [require_bind_eq_ok, pure_eq_ok] at appended
    obtain ⟨-, rfl⟩ := appended
    exact .known fun _ same => by cases same
  case h_2 absent =>
    rw [require_bind_eq_ok, bind_eq_ok, Bool.and_eq_true] at appended
    obtain ⟨⟨continues, -⟩, rows, inserted, same⟩ := appended
    rw [pure_eq_ok] at same
    subst same
    rw [conflicted_eq_ok, insertRow_eq_ok] at inserted
    obtain ⟨-, rfl⟩ := inserted
    apply Writes.view
    refine ⟨authorized, verified, names.1, names.2, ?_, continues⟩
    intro old listed same
    rw [List.find?_eq_none] at absent
    exact absent old listed (beq_iff_eq.mpr same)

/-! ## Deliveries -/

theorem delivers_of_deliveryBody {epoch : Nat} {issuerId recipient : String}
    {packet : Packet Digest} {record : ActivationRecord Digest}
    (checked : deliveryBody library vault epoch issuerId packet (some record) = .ok recipient) :
    Delivers library vault record packet recipient := by
  rw [deliveryBody, require_bind_eq_ok, require_bind_eq_ok, bind_eq_ok] at checked
  obtain ⟨-, matching, outcome, verified, checked⟩ := checked
  rw [require_bind_eq_ok, pure_eq_ok] at checked
  obtain ⟨-, rfl⟩ := checked
  simp only [matchesRecord, Bool.and_eq_true, beq_iff_eq] at matching
  obtain ⟨⟨⟨⟨⟨activation, plan⟩, revocation⟩, registry⟩, signer⟩, -⟩ := matching
  rw [conflicted_eq_ok, plan, registry, activation] at verified
  exact ⟨rfl, activation, plan, revocation, registry, signer, outcome, verified⟩

theorem putDelivery_writes {epoch : Nat} {issuerId : String} {packet : Packet Digest}
    {committed : Committed Digest Unit}
    (put : putDelivery library vault epoch issuerId packet membership db = .ok committed) :
    Writes library membership db (.putDelivery vault epoch issuerId packet)
      (committed.answering fun _ => .delivered) := by
  rw [putDelivery, bind_eq_ok] at put
  obtain ⟨recipient, checked, put⟩ := put
  rw [bind_eq_ok] at put
  obtain ⟨done, -, put⟩ := put
  split at put
  case h_1 absent =>
    dsimp only at put
    split at put
    case h_1 row found =>
      rw [require_bind_eq_ok, pure_eq_ok] at put
      obtain ⟨-, rfl⟩ := put
      exact .known fun _ same => by cases same
    case h_2 missing =>
      rw [bind_eq_ok] at put
      obtain ⟨⟨rows, dropped⟩, -, same⟩ := put
      rw [pure_eq_ok] at same
      subst same
      exact .prepared rows
  case h_2 record held =>
    split at put
    case h_1 row found =>
      rw [require_bind_eq_ok, pure_eq_ok] at put
      obtain ⟨-, rfl⟩ := put
      exact .known fun _ same => by cases same
    case h_2 missing =>
      rw [require_bind_eq_ok, bind_eq_ok] at put
      obtain ⟨-, rows, inserted, same⟩ := put
      rw [pure_eq_ok] at same
      subst same
      rw [conflicted_eq_ok, insertRow_eq_ok] at inserted
      obtain ⟨-, rfl⟩ := inserted
      rw [held] at checked
      exact .late held (delivers_of_deliveryBody checked)

/-! ## Activations -/

omit [DecidableEq Digest] in
theorem insertDeliveries_eq_ok {rows known after : List (DeliveryRow Digest)}
    (inserted : insertDeliveries rows known = .ok after) : after = known ++ rows := by
  induction rows generalizing known with
  | nil =>
    cases inserted
    rw [List.append_nil]
  | cons row rest induction =>
    rw [insertDeliveries, List.foldlM_cons, bind_eq_ok] at inserted
    obtain ⟨middle, first, inserted⟩ := inserted
    rw [insertRow_eq_ok] at first
    obtain ⟨-, rfl⟩ := first
    rw [induction inserted, List.append_assoc, List.singleton_append]

theorem preparedFor_spec {record : ActivationRecord Digest} {device : String}
    {prepared : List (PreparedRow Digest)}
    (ready : preparedFor library vault record device db = .ok prepared) :
    (∀ recipient ∈ record.proof.plan.recipients, ∃ row ∈ prepared, row.recipient = recipient) ∧
      ∀ row ∈ prepared, Delivers library vault record row.body row.recipient := by
  rw [preparedFor, require_bind_eq_ok, pure_eq_ok, Bool.and_eq_true, decide_eq_true_eq] at ready
  obtain ⟨⟨complete, checked⟩, rfl⟩ := ready
  constructor
  · intro recipient listed
    rw [← List.mem_toFinset, ← complete, List.mem_toFinset, List.mem_map] at listed
    exact listed
  · intro row listed
    have fits := List.all_eq_true.mp checked row listed
    rw [Bool.and_eq_true, beq_iff_eq, beq_iff_eq] at fits
    obtain ⟨-, fits⟩ := fits
    cases found : deliveryBody library vault record.proof.plan.newEpoch row.issuer row.body
        (some record) with
    | error reason =>
      rw [found] at fits
      cases fits
    | ok recipient =>
      rw [found] at fits
      cases fits
      exact delivers_of_deliveryBody found

theorem acceptActivation_writes {proof : Rotation Digest} {registry : Registry} {device : String}
    {committed : Committed Digest (ActivationRecord Digest)}
    (accepted : acceptActivation library vault proof registry device membership db =
      .ok committed) :
    Writes library membership db (.acceptActivation vault proof registry device)
      (committed.answering .activated) := by
  rw [acceptActivation, require_bind_eq_ok] at accepted
  obtain ⟨-, accepted⟩ := accepted
  split at accepted
  case h_1 empty => cases accepted
  case h_2 last found =>
    split at accepted
    case h_1 current held =>
      rw [activateAgain, require_bind_eq_ok, require_bind_eq_ok, pure_eq_ok] at accepted
      obtain ⟨-, -, rfl⟩ := accepted
      exact .again (Option.filter_eq_some_iff.mp held).1
    case h_2 absent =>
      rw [bind_eq_ok] at accepted
      obtain ⟨prior, known, accepted⟩ := accepted
      rw [activateAnew, bind_eq_ok] at accepted
      obtain ⟨outcome, verified, accepted⟩ := accepted
      rw [bind_eq_ok] at accepted
      obtain ⟨priorRoot, rooted, accepted⟩ := accepted
      rw [require_bind_eq_ok, require_bind_eq_ok, bind_eq_ok] at accepted
      obtain ⟨names, -, prepared, ready, accepted⟩ := accepted
      rw [require_bind_eq_ok, bind_eq_ok] at accepted
      obtain ⟨-, activations, activated, accepted⟩ := accepted
      rw [bind_eq_ok] at accepted
      obtain ⟨deliveries, delivered, same⟩ := accepted
      rw [pure_eq_ok] at same
      subst same
      rw [conflicted_eq_ok] at verified rooted activated delivered
      simp only [Bool.and_eq_true, beq_iff_eq] at names
      obtain ⟨⟨-, rfl⟩, -⟩ := names
      have epoch := (verifyEpochRotation_spec verified).1
      rw [insertRow_eq_ok] at activated
      obtain ⟨apart, rfl⟩ := activated
      obtain rfl := insertDeliveries_eq_ok delivered
      obtain ⟨complete, fits⟩ := preparedFor_spec ready
      rw [epoch, Nat.add_assoc, Nat.add_comm]
      apply Writes.activated _ found known
      refine ⟨⟨outcome, verified⟩, rooted, ?_, ?_, ?_⟩
      · intro row listed same
        obtain ⟨stored, here⟩ := List.mem_filter.mp listed
        have free := apart row stored
        rw [ActivationRow.conflicts, beq_iff_eq.mp here, same] at free
        simp at free
      · intro recipient listed
        obtain ⟨row, prepared, rfl⟩ := complete recipient listed
        exact ⟨_, List.mem_map_of_mem prepared, rfl⟩
      · intro row listed
        obtain ⟨source, prepared, rfl⟩ := List.mem_map.mp listed
        exact ⟨rfl, rfl, fits source prepared⟩

/-! ## All of them -/

theorem LogCall.transact_writes {call : LogCall Digest}
    {committed : Committed Digest (LogAnswer Digest)}
    (done : call.transact library membership db = .ok committed) :
    Writes library membership db call committed := by
  cases call with
  | append vault view registryRoot publicB64 initialEpoch =>
    obtain ⟨result, appended, rfl⟩ := map_eq_ok.mp done
    exact append_writes appended
  | putDelivery vault epoch issuerId packet =>
    obtain ⟨result, put, rfl⟩ := map_eq_ok.mp done
    exact putDelivery_writes put
  | acceptActivation vault proof registry device =>
    obtain ⟨result, accepted, rfl⟩ := map_eq_ok.mp done
    exact acceptActivation_writes accepted
  | acceptEnrollment vault proof issuerId =>
    obtain ⟨result, accepted, rfl⟩ := map_eq_ok.mp done
    exact acceptEnrollment_writes accepted

end JobAgg.CommitmentLog
