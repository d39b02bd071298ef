import JobAgg.SyncQueue.Operation

/-! # Registries and removals

A vault trusts a registry of devices. A removal is signed by an active device, marks one
other device as revoked, and binds the registry before and after; a rotation plan repeats
what follows from a verified removal. -/

namespace JobAgg.EpochVault

variable {Digest : Type}

def revocationRejected : String := "ATLAS_REVOCATION_REJECTED"
def removalAuthority : String := "ATLAS_REMOVAL_AUTHORITY"
def rotationPlanRejected : String := "ATLAS_ROTATION_PLAN_REJECTED"

/-- `_number` -/
def isNumber (value : Nat) : Bool :=
  decide (1 ≤ value) && decide (value < 9007199254740991)

/-- `_decode`: the text encodes exactly so many bytes -/
def decodes (text : String) (size : Nat) : Bool :=
  SyncQueue.canonicalBase64Length text == some size

/-! ## The registry -/

structure RegistryEntry where
  deviceId : String
  signingPublicB64 : String
  agreementPublicB64 : String
  active : Bool
deriving DecidableEq, Repr

abbrev Registry : Type := List RegistryEntry

/-- What a signature is made for. -/
inductive Domain where
  | revocation
  | rotation
  | delivery
  | enrollment
  | view
  | commitment
deriving DecidableEq

/-- A removal without its root and signature. -/
structure TransitionBody (Digest : Type) where
  accountId : String
  vaultId : String
  targetDeviceId : String
  initiatorDeviceId : String
  priorRegistryRoot : Digest
  resultingRegistryRoot : Digest
  keyEpoch : Nat
  sequence : Nat
  authorizationCategory : String
deriving DecidableEq

structure Transition (Digest : Type) extends TransitionBody Digest where
  root : Digest
  signatureB64 : String
deriving DecidableEq

/-- The identity of a pair of public keys, the digest of the rows of a registry, the root
of a removal, and the check of a signature under a public key. -/
structure RevocationLibrary (Digest : Type) where
  deriveDeviceId : String → String → String
  registryDigest : Finset RegistryEntry → Digest
  transitionRoot : TransitionBody Digest → Digest
  verifies : String → Domain → Digest → String → Bool

def isEntry (library : RevocationLibrary Digest) (entry : RegistryEntry) : Bool :=
  decodes entry.signingPublicB64 32 && decodes entry.agreementPublicB64 32 &&
    entry.deviceId == library.deriveDeviceId entry.signingPublicB64 entry.agreementPublicB64

def registryRoot (library : RevocationLibrary Digest) (entries : Registry) :
    Except String Digest := do
  require (decide (1 ≤ entries.length) && decide (entries.length ≤ 256)) revocationRejected
  require (entries.all (isEntry library)) revocationRejected
  require (decide (entries.map RegistryEntry.deviceId).Nodup) revocationRejected
  return library.registryDigest entries.toFinset

theorem registryRoot_eq_ok_iff {library : RevocationLibrary Digest} {registry : Registry}
    {root : Digest} : registryRoot library registry = .ok root ↔
    (1 ≤ registry.length ∧ registry.length ≤ 256) ∧ (∀ entry ∈ registry, isEntry library entry) ∧
      (registry.map RegistryEntry.deviceId).Nodup ∧
      library.registryDigest registry.toFinset = root := by
  simp only [registryRoot, require_bind_eq_ok, pure_eq_ok, Bool.and_eq_true, decide_eq_true_eq,
    List.all_eq_true]

/-- `sorted(e["device_id"] for e in entries if e["state"] == "ACTIVE")` -/
def activeDevices (entries : Registry) : List String :=
  ((entries.filter RegistryEntry.active).map RegistryEntry.deviceId).insertionSort (· ≤ ·)

def isActive (entries : Registry) (device : String) : Bool :=
  entries.any fun entry => entry.deviceId == device && entry.active

/-- `next(e for e in entries if e["device_id"] == device)` -/
def entryOf (entries : Registry) (device : String) : Option RegistryEntry :=
  entries.find? (·.deviceId == device)

/-! ## Removals -/

def revoke (target : String) (entry : RegistryEntry) : RegistryEntry :=
  { entry with active := if entry.deviceId == target then false else entry.active }

def removed (library : RevocationLibrary Digest) (entries : Registry)
    (target initiator : String) : Except String Registry := do
  let _ ← registryRoot library entries
  require (target != initiator && isActive entries target && isActive entries initiator &&
    (activeDevices entries).any (· != target)) removalAuthority
  return entries.map (revoke target)

theorem removed_eq_ok_iff {library : RevocationLibrary Digest} {registry after : Registry}
    {target initiator : String} :
    removed library registry target initiator = .ok after ↔
      (∃ root, registryRoot library registry = .ok root) ∧
      (target != initiator && isActive registry target && isActive registry initiator &&
        (activeDevices registry).any (· != target)) = true ∧
      after = registry.map (revoke target) := by
  rw [removed, bind_eq_ok]
  simp only [require_bind_eq_ok, pure_eq_ok]
  constructor
  · rintro ⟨root, found, fit, rfl⟩
    exact ⟨⟨root, found⟩, fit, rfl⟩
  · rintro ⟨⟨root, found⟩, fit, rfl⟩
    exact ⟨root, found, fit, rfl⟩

/-- The field checks of `_root`. -/
def TransitionBody.isValid (body : TransitionBody Digest) : Bool :=
  SyncQueue.isIdentifier body.accountId && SyncQueue.isIdentifier body.vaultId &&
    SyncQueue.isIdentifier body.targetDeviceId && SyncQueue.isIdentifier body.initiatorDeviceId &&
    isNumber body.keyEpoch && isNumber body.sequence &&
    body.authorizationCategory == "DEVICE_PRESENCE"

variable [DecidableEq Digest]

/-- The signature of a device that `entries` lists. -/
def signedBy (library : RevocationLibrary Digest) (entries : Registry) (device : String)
    (domain : Domain) (root : Digest) (signatureB64 : String) : Bool :=
  match entryOf entries device with
  | none => false
  | some signer =>
    decodes signer.signingPublicB64 32 && decodes signatureB64 64 &&
      library.verifies signer.signingPublicB64 domain root signatureB64

/-- `verify_transition`: the registry after the removal -/
def verifyTransition (library : RevocationLibrary Digest) (transition : Transition Digest)
    (registry : Registry) : Except String Registry := do
  require transition.toTransitionBody.isValid revocationRejected
  let after ← removed library registry transition.targetDeviceId transition.initiatorDeviceId
  let prior ← registryRoot library registry
  let resulting ← registryRoot library after
  require (transition.root == library.transitionRoot transition.toTransitionBody &&
    transition.priorRegistryRoot == prior && transition.resultingRegistryRoot == resulting)
    revocationRejected
  require (signedBy library registry transition.initiatorDeviceId .revocation transition.root
    transition.signatureB64) revocationRejected
  return after

/-! ## Rotation plans -/

structure RotationPlan (Digest : Type) where
  accountId : String
  vaultId : String
  previousEpoch : Nat
  newEpoch : Nat
  priorRegistryRoot : Digest
  resultingRegistryRoot : Digest
  stateRoot : Digest
  initiatorDeviceId : String
  revocationRoot : Digest
  recipients : List String
deriving DecidableEq

def expectedPlan (transition : Transition Digest) (registry : Registry) (stateRoot : Digest) :
    RotationPlan Digest where
  accountId := transition.accountId
  vaultId := transition.vaultId
  previousEpoch := transition.keyEpoch
  newEpoch := transition.keyEpoch + 1
  priorRegistryRoot := transition.priorRegistryRoot
  resultingRegistryRoot := transition.resultingRegistryRoot
  stateRoot := stateRoot
  initiatorDeviceId := transition.initiatorDeviceId
  revocationRoot := transition.root
  recipients := activeDevices registry

def validateRotationPlan (library : RevocationLibrary Digest) (plan : RotationPlan Digest)
    (transition : Transition Digest) (registry : Registry) (stateRoot : Digest) :
    Except String Unit := do
  require (transition.root == library.transitionRoot transition.toTransitionBody &&
    decodes transition.signatureB64 64) revocationRejected
  let root ← registryRoot library registry
  require (root == transition.resultingRegistryRoot) revocationRejected
  require (isNumber transition.keyEpoch) revocationRejected
  require (plan == expectedPlan transition registry stateRoot) rotationPlanRejected

/-! ## What they come to -/

variable {library : RevocationLibrary Digest} {registry after : Registry}
  {transition : Transition Digest} {plan : RotationPlan Digest} {stateRoot : Digest}

theorem verifyTransition_spec (verified : verifyTransition library transition registry = .ok after) :
    after = registry.map (revoke transition.targetDeviceId) ∧
      registryRoot library registry = .ok transition.priorRegistryRoot ∧
      registryRoot library after = .ok transition.resultingRegistryRoot := by
  rw [verifyTransition, require_bind_eq_ok, bind_eq_ok] at verified
  obtain ⟨-, found, removal, verified⟩ := verified
  rw [bind_eq_ok] at verified
  obtain ⟨prior, priorRoot, verified⟩ := verified
  rw [bind_eq_ok] at verified
  obtain ⟨resulting, resultingRoot, verified⟩ := verified
  rw [require_bind_eq_ok, require_bind_eq_ok, pure_eq_ok, Bool.and_eq_true, Bool.and_eq_true,
    beq_iff_eq, beq_iff_eq, beq_iff_eq] at verified
  obtain ⟨⟨⟨-, rfl⟩, rfl⟩, -, rfl⟩ := verified
  exact ⟨(removed_eq_ok_iff.mp removal).2.2, priorRoot, resultingRoot⟩

theorem validateRotationPlan_spec {done : Unit}
    (valid : validateRotationPlan library plan transition registry stateRoot = .ok done) :
    plan = expectedPlan transition registry stateRoot ∧ isNumber transition.keyEpoch = true ∧
      registryRoot library registry = .ok transition.resultingRegistryRoot := by
  rw [validateRotationPlan, require_bind_eq_ok, bind_eq_ok] at valid
  obtain ⟨-, root, found, valid⟩ := valid
  rw [require_bind_eq_ok, require_bind_eq_ok, require_eq_ok, beq_iff_eq, beq_iff_eq] at valid
  obtain ⟨rfl, number, same⟩ := valid
  exact ⟨same, number, found⟩

end JobAgg.EpochVault
