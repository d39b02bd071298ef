import JobAgg.EpochVault.Revocation

/-! # Rotations, deliveries and enrollments

Three signed records move a vault on: a rotation starts a new key epoch after a removal
and seals its key to every remaining device, a delivery proves one of these wrappers to
one device, and an enrollment adds a device to the registry of the current epoch. -/

namespace JobAgg.EpochVault

variable {Digest : Type}

def rotationRejected : String := "ATLAS_EPOCH_ROTATION_REJECTED"
def rotationAuthority : String := "ATLAS_ROTATION_AUTHORITY"
def deliveryRejected : String := "ATLAS_DEVICE_DELIVERY_REJECTED"
def enrollmentRejected : String := "ATLAS_ENROLLMENT_REJECTED"

/-- The new key sealed to one device. -/
structure Wrapper where
  deviceId : String
  keyEpoch : Nat
  encapsulatedKeyB64 : String
  ciphertextB64 : String
deriving DecidableEq

def Wrapper.isFor (wrapper : Wrapper) (device : String) (newEpoch : Nat) : Bool :=
  wrapper.deviceId == device && wrapper.keyEpoch == newEpoch

def Wrapper.isSealed (wrapper : Wrapper) : Bool :=
  decodes wrapper.encapsulatedKeyB64 32 && decodes wrapper.ciphertextB64 48

structure RotationBody (Digest : Type) where
  plan : RotationPlan Digest
  revocation : Transition Digest
  registry : Registry
  rotationSignerDeviceId : String
  deliveries : List Wrapper
deriving DecidableEq

structure Rotation (Digest : Type) extends RotationBody Digest where
  root : Digest
  signatureB64 : String
deriving DecidableEq

/-! ## Deliveries -/

structure DeliveryBody (Digest : Type) where
  activationId : Digest
  plan : RotationPlan Digest
  revocation : Transition Digest
  registry : Registry
  recipientDeviceId : String
  recipientAgreementSha256 : Digest
  wrapperSha256 : Digest
  registryGeneration : Nat
  issuerDeviceId : String
  rotationSignerDeviceId : String
deriving DecidableEq

structure DeliveryProof (Digest : Type) extends DeliveryBody Digest where
  root : Digest
  signatureB64 : String
deriving DecidableEq

structure Packet (Digest : Type) where
  proof : DeliveryProof Digest
  wrapper : Wrapper
deriving DecidableEq

/-! ## Enrollments -/

structure EnrollmentContext (Digest : Type) where
  accountId : String
  vaultId : String
  registryGeneration : Nat
  keyEpoch : Nat
  stateRoot : Digest
  activationId : Digest
deriving DecidableEq

structure EnrollmentBody (Digest : Type) extends EnrollmentContext Digest where
  nextRegistryGeneration : Nat
  priorRegistryRoot : Digest
  resultingRegistryRoot : Digest
  targetDeviceId : String
  targetSigningPublicB64 : String
  targetAgreementPublicB64 : String
  targetAgreementSha256 : Digest
  transcriptSha256 : Digest
  issuerDeviceId : String
  authorizationCategory : String
  signatureAlgorithm : String
deriving DecidableEq

structure Enrollment (Digest : Type) extends EnrollmentBody Digest where
  root : Digest
  signatureB64 : String
deriving DecidableEq

/-- The digests of the three records and of their parts; `zero` is sixty-four zeros. -/
structure RotationLibrary (Digest : Type) extends RevocationLibrary Digest where
  zero : Digest
  rotationRoot : RotationBody Digest → Digest
  deliveryRoot : DeliveryBody Digest → Digest
  wrapperSha256 : Wrapper → Digest
  agreementSha256 : String → Digest
  enrollmentRoot : EnrollmentBody Digest → Digest

/-- What `verify_epoch_rotation` and `verify_device_delivery` return. -/
structure Verified where
  newEpoch : Nat
  recipients : List String
  registry : Registry
deriving DecidableEq

section Checks

variable [DecidableEq Digest] (library : RotationLibrary Digest)

/-- The removal that a rotation or a delivery carries, and its plan: the registry after
it. `foreign` is what the errors of other modules are turned into. -/
def verifyRemoval (foreign : String) (revocation : Transition Digest) (plan : RotationPlan Digest)
    (claimed registry : Registry) (accountId vaultId : String) (previousEpoch : Nat)
    (stateRoot : Digest) : Except String Registry := do
  let carried ← (registryRoot library.toRevocationLibrary claimed).mapError fun _ => foreign
  let current ← (registryRoot library.toRevocationLibrary registry).mapError fun _ => foreign
  require (carried == current) rotationRejected
  let after ← (verifyTransition library.toRevocationLibrary revocation registry).mapError
    fun _ => foreign
  require (revocation.accountId == accountId && revocation.vaultId == vaultId &&
    revocation.keyEpoch == previousEpoch && revocation.sequence == 1) rotationRejected
  (validateRotationPlan library.toRevocationLibrary plan revocation after stateRoot).mapError
    fun _ => foreign
  return after

def verifyEpochRotation (proof : Rotation Digest) (registry : Registry)
    (accountId vaultId : String) (previousEpoch : Nat) (stateRoot : Digest) :
    Except String Verified := do
  let after ← verifyRemoval library rotationRejected proof.revocation proof.plan proof.registry
    registry accountId vaultId previousEpoch stateRoot
  let recipients := proof.plan.recipients
  require (decide (proof.rotationSignerDeviceId ∈ recipients)) rotationAuthority
  require (proof.deliveries.length == recipients.length) rotationRejected
  require ((recipients.zip proof.deliveries).all fun (device, wrapper) =>
    wrapper.isFor device proof.plan.newEpoch && wrapper.isSealed) rotationRejected
  require (library.rotationRoot proof.toRotationBody == proof.root) rotationRejected
  require (signedBy library.toRevocationLibrary after proof.rotationSignerDeviceId .rotation
    proof.root proof.signatureB64) rotationRejected
  return ⟨proof.plan.newEpoch, recipients, after⟩

def verifyDeviceDelivery (packet : Packet Digest) (registry : Registry)
    (accountId vaultId : String) (previousEpoch : Nat) (stateRoot activationId : Digest)
    (recipientDeviceId : String) : Except String Verified := do
  let proof := packet.proof
  require (proof.activationId == activationId && proof.recipientDeviceId == recipientDeviceId)
    rotationRejected
  let after ← verifyRemoval library deliveryRejected proof.revocation proof.plan proof.registry
    registry accountId vaultId previousEpoch stateRoot
  require (proof.registryGeneration == proof.plan.newEpoch) rotationRejected
  require (isActive after proof.issuerDeviceId && isActive after proof.rotationSignerDeviceId &&
    isActive after recipientDeviceId) deliveryRejected
  require (packet.wrapper.isFor recipientDeviceId proof.plan.newEpoch) rotationRejected
  require packet.wrapper.isSealed deliveryRejected
  require (proof.wrapperSha256 == library.wrapperSha256 packet.wrapper &&
    (entryOf after recipientDeviceId).any (fun recipient =>
      proof.recipientAgreementSha256 == library.agreementSha256 recipient.agreementPublicB64) &&
    proof.root == library.deliveryRoot proof.toDeliveryBody) rotationRejected
  require (signedBy library.toRevocationLibrary after proof.issuerDeviceId .delivery proof.root
    proof.signatureB64) deliveryRejected
  return ⟨proof.plan.newEpoch, proof.plan.recipients, after⟩

def EnrollmentContext.isValid (context : EnrollmentContext Digest) : Bool :=
  isNumber context.keyEpoch && isNumber context.registryGeneration &&
    SyncQueue.isIdentifier context.accountId && SyncQueue.isIdentifier context.vaultId

def EnrollmentBody.target (body : EnrollmentBody Digest) : RegistryEntry where
  deviceId := body.targetDeviceId
  signingPublicB64 := body.targetSigningPublicB64
  agreementPublicB64 := body.targetAgreementPublicB64
  active := true

/-- `verify_enrollment`, for a status that is `ACTIVE`: the registry with the new device -/
def verifyEnrollment (proof : Enrollment Digest) (registry : Registry)
    (context : EnrollmentContext Digest) (confirmedTranscript : Digest) :
    Except String Registry := do
  require (confirmedTranscript != library.zero && proof.transcriptSha256 == confirmedTranscript)
    enrollmentRejected
  require (proof.authorizationCategory == "SAS_CONFIRMED" &&
    proof.signatureAlgorithm == "Ed25519") enrollmentRejected
  require (context.isValid && proof.toEnrollmentContext == context) enrollmentRejected
  require (isNumber proof.nextRegistryGeneration &&
    proof.nextRegistryGeneration == context.registryGeneration + 1) enrollmentRejected
  let prior ← registryRoot library.toRevocationLibrary registry
  require (prior == proof.priorRegistryRoot) enrollmentRejected
  require (registry.all (·.deviceId != proof.targetDeviceId)) enrollmentRejected
  let after := (registry ++ [proof.target]).insertionSort fun first second =>
    first.deviceId ≤ second.deviceId
  let resulting ← registryRoot library.toRevocationLibrary after
  require (resulting == proof.resultingRegistryRoot &&
    library.agreementSha256 proof.targetAgreementPublicB64 == proof.targetAgreementSha256)
    enrollmentRejected
  require (isActive registry proof.issuerDeviceId) enrollmentRejected
  require (proof.root == library.enrollmentRoot proof.toEnrollmentBody) enrollmentRejected
  require (signedBy library.toRevocationLibrary registry proof.issuerDeviceId .enrollment
    proof.root proof.signatureB64) enrollmentRejected
  return after

end Checks

/-! ## What they come to -/

variable [DecidableEq Digest] {library : RotationLibrary Digest} {registry after : Registry} {stateRoot : Digest}
  {accountId vaultId : String} {previousEpoch : Nat} {verified : Verified}

/-- What follows from a verified removal with its plan. -/
structure Removes (library : RotationLibrary Digest) (plan : RotationPlan Digest)
    (registry after : Registry) (previousEpoch : Nat) (stateRoot : Digest) : Prop where
  revokes : ∃ target, after = registry.map (revoke target)
  epoch : plan.previousEpoch = previousEpoch
  next : plan.newEpoch = previousEpoch + 1
  number : isNumber previousEpoch = true
  state : plan.stateRoot = stateRoot
  root : registryRoot library.toRevocationLibrary after = .ok plan.resultingRegistryRoot
  recipients : plan.recipients = activeDevices after

theorem verifyRemoval_spec {foreign : String} {revocation : Transition Digest}
    {plan : RotationPlan Digest} {claimed : Registry}
    (verified : verifyRemoval library foreign revocation plan claimed registry
      accountId vaultId previousEpoch stateRoot = .ok after) :
    Removes library plan registry after previousEpoch stateRoot ∧
      ∃ root, registryRoot library.toRevocationLibrary claimed = .ok root ∧
        registryRoot library.toRevocationLibrary registry = .ok root := by
  rw [verifyRemoval, bind_eq_ok] at verified
  obtain ⟨carried, claims, verified⟩ := verified
  rw [bind_eq_ok] at verified
  obtain ⟨current, holds, verified⟩ := verified
  rw [require_bind_eq_ok, bind_eq_ok, beq_iff_eq] at verified
  obtain ⟨rfl, later, removal, verified⟩ := verified
  rw [require_bind_eq_ok, bind_eq_ok] at verified
  obtain ⟨names, done, planned, same⟩ := verified
  rw [mapError_eq_ok] at claims holds removal planned
  rw [pure_eq_ok] at same
  subst same
  simp only [Bool.and_eq_true, beq_iff_eq] at names
  obtain ⟨removes, -, -⟩ := verifyTransition_spec removal
  obtain ⟨rfl, number, root⟩ := validateRotationPlan_spec planned
  refine ⟨⟨⟨_, removes⟩, names.1.2, ?_, ?_, rfl, ?_, rfl⟩, carried, claims, holds⟩
  · rw [← names.1.2]
    rfl
  · rw [← names.1.2]
    exact number
  · exact root

theorem verifyEpochRotation_spec {proof : Rotation Digest}
    (accepted : verifyEpochRotation library proof registry accountId vaultId previousEpoch
      stateRoot = .ok verified) :
    verified.newEpoch = proof.plan.newEpoch ∧ verified.recipients = proof.plan.recipients ∧
      Removes library proof.plan registry verified.registry previousEpoch stateRoot := by
  rw [verifyEpochRotation, bind_eq_ok] at accepted
  obtain ⟨after, removal, accepted⟩ := accepted
  simp only [require_bind_eq_ok, pure_eq_ok] at accepted
  obtain ⟨-, -, -, -, -, rfl⟩ := accepted
  exact ⟨rfl, rfl, (verifyRemoval_spec removal).1⟩

theorem verifyDeviceDelivery_spec {packet : Packet Digest} {activationId : Digest}
    {device : String}
    (accepted : verifyDeviceDelivery library packet registry accountId vaultId previousEpoch
      stateRoot activationId device = .ok verified) :
    verified.newEpoch = packet.proof.plan.newEpoch ∧
      verified.recipients = packet.proof.plan.recipients ∧
      packet.wrapper.keyEpoch = packet.proof.plan.newEpoch ∧
      Removes library packet.proof.plan registry verified.registry previousEpoch stateRoot := by
  rw [verifyDeviceDelivery, require_bind_eq_ok, bind_eq_ok] at accepted
  obtain ⟨-, after, removal, accepted⟩ := accepted
  simp only [require_bind_eq_ok, pure_eq_ok] at accepted
  obtain ⟨-, -, fits, -, -, -, rfl⟩ := accepted
  simp only [Wrapper.isFor, Bool.and_eq_true, beq_iff_eq] at fits
  exact ⟨rfl, rfl, fits.2, (verifyRemoval_spec removal).1⟩

theorem verifyEnrollment_spec {proof : Enrollment Digest} {context : EnrollmentContext Digest}
    {confirmed : Digest}
    (accepted : verifyEnrollment library proof registry context confirmed = .ok after) :
    after = (registry ++ [proof.target]).insertionSort
        (fun first second => first.deviceId ≤ second.deviceId) ∧
      registryRoot library.toRevocationLibrary registry = .ok proof.priorRegistryRoot ∧
      registryRoot library.toRevocationLibrary after = .ok proof.resultingRegistryRoot ∧
      proof.toEnrollmentContext = context ∧
      proof.nextRegistryGeneration = context.registryGeneration + 1 ∧
      ∀ entry ∈ registry, entry.deviceId ≠ proof.targetDeviceId := by
  rw [verifyEnrollment, require_bind_eq_ok, require_bind_eq_ok, require_bind_eq_ok,
    require_bind_eq_ok, bind_eq_ok] at accepted
  obtain ⟨-, -, names, generation, prior, current, accepted⟩ := accepted
  rw [require_bind_eq_ok, require_bind_eq_ok, bind_eq_ok, beq_iff_eq] at accepted
  obtain ⟨rfl, fresh, resulting, root, accepted⟩ := accepted
  simp only [require_bind_eq_ok, pure_eq_ok, Bool.and_eq_true, beq_iff_eq] at accepted
  obtain ⟨⟨rfl, -⟩, -, -, -, rfl⟩ := accepted
  rw [Bool.and_eq_true, beq_iff_eq] at names generation
  refine ⟨rfl, current, root, names.2, generation.2, ?_⟩
  intro entry member
  have different := List.all_eq_true.mp fresh entry member
  rwa [bne_iff_ne] at different

/-! ## Who signs -/

theorem mem_activeDevices {device : String} : device ∈ activeDevices registry ↔
    ∃ entry ∈ registry, entry.active = true ∧ entry.deviceId = device := by
  rw [activeDevices, List.mem_insertionSort, List.mem_map]
  constructor
  · rintro ⟨entry, member, same⟩
    rw [List.mem_filter] at member
    exact ⟨entry, member.1, member.2, same⟩
  · rintro ⟨entry, member, active, same⟩
    exact ⟨entry, List.mem_filter.mpr ⟨member, active⟩, same⟩

omit [DecidableEq Digest] in
theorem Removes.listed {plan : RotationPlan Digest}
    (removes : Removes library plan registry after previousEpoch stateRoot) {device : String} :
    device ∈ after.map RegistryEntry.deviceId ↔ device ∈ registry.map RegistryEntry.deviceId := by
  obtain ⟨target, rfl⟩ := removes.revokes
  rw [List.map_map]
  rfl

theorem verifyEpochRotation_signer {proof : Rotation Digest}
    (injective : Function.Injective library.registryDigest)
    (accepted : verifyEpochRotation library proof registry accountId vaultId previousEpoch
      stateRoot = .ok verified) :
    proof.rotationSignerDeviceId ∈ registry.map RegistryEntry.deviceId ∧
      proof.registry.toFinset = registry.toFinset := by
  rw [verifyEpochRotation, bind_eq_ok] at accepted
  obtain ⟨after, removal, accepted⟩ := accepted
  rw [require_bind_eq_ok, decide_eq_true_eq] at accepted
  obtain ⟨signs, -⟩ := accepted
  obtain ⟨removes, root, carried, current⟩ := verifyRemoval_spec removal
  rw [removes.recipients, mem_activeDevices] at signs
  obtain ⟨entry, member, -, same⟩ := signs
  refine ⟨removes.listed.mp (List.mem_map.mpr ⟨entry, member, same⟩), ?_⟩
  rw [registryRoot_eq_ok_iff] at carried current
  exact injective (carried.2.2.2.trans current.2.2.2.symm)

theorem verifyDeviceDelivery_signer {packet : Packet Digest} {activationId : Digest}
    {device : String} (injective : Function.Injective library.registryDigest)
    (accepted : verifyDeviceDelivery library packet registry accountId vaultId previousEpoch
      stateRoot activationId device = .ok verified) :
    packet.proof.rotationSignerDeviceId ∈ registry.map RegistryEntry.deviceId ∧
      packet.proof.registry.toFinset = registry.toFinset := by
  rw [verifyDeviceDelivery, require_bind_eq_ok, bind_eq_ok] at accepted
  obtain ⟨-, after, removal, accepted⟩ := accepted
  rw [require_bind_eq_ok, require_bind_eq_ok, Bool.and_eq_true, Bool.and_eq_true] at accepted
  obtain ⟨-, signs, -⟩ := accepted
  obtain ⟨removes, root, carried, current⟩ := verifyRemoval_spec removal
  obtain ⟨entry, member, same⟩ := List.any_eq_true.mp signs.1.2
  rw [Bool.and_eq_true, beq_iff_eq] at same
  refine ⟨removes.listed.mp (List.mem_map.mpr ⟨entry, member, same.1⟩), ?_⟩
  rw [registryRoot_eq_ok_iff] at carried current
  exact injective (carried.2.2.2.trans current.2.2.2.symm)

end JobAgg.EpochVault
