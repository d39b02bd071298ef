import JobAgg.EpochVault.GuardedSyncState
import JobAgg.SyncQueue.Inbox

/-! # The state of a vault

A vault keeps its registry, its keys, its queues and its history in one publication. A
journal in it says which change is under way, and `_load` accepts a publication only if
journal, bridges and registry belong together. -/

namespace JobAgg.EpochVault

open SyncQueue (Operation InboxState)

variable {Digest : Type}

def publicationRecoveryRequired : String := "ATLAS_PUBLICATION_RECOVERY_REQUIRED"
def activationPending : String := "ATLAS_ACTIVATION_PENDING"
def catchUpPending : String := "ATLAS_CATCH_UP_PENDING"
def cleanupPending : String := "ATLAS_CLEANUP_PENDING"
def deviceRevoked : String := "ATLAS_DEVICE_REVOKED"
def epochConflict : String := "ATLAS_EPOCH_CONFLICT"

/-- `_checked`: only the codes of `RotationError` are passed on -/
def checked {Value : Type} (computation : Except String Value) : Except String Value :=
  computation.mapError fun reason =>
    if reason == rotationAuthority || reason == deliveryRejected then reason
    else rotationRejected

theorem checked_eq_ok {Value : Type} {computation : Except String Value} {value : Value} :
    checked computation = .ok value ↔ computation = .ok value :=
  mapError_eq_ok

inductive VaultStatus where
  | active
  | activationPending
  | revoked
  | recoveryPending
  | catchUpPending
  | cleanupPending
deriving DecidableEq

inductive Phase where
  | prepared
  | backendSubmitted
  | backendAccepted
  | localPublishing
  | active
  | recoveryPending
deriving DecidableEq

/-- The acceptance of a rotation by the backend. -/
structure ActivationRecord (Digest : Type) where
  status : String
  transitionId : Digest
  proof : Rotation Digest
deriving DecidableEq

/-- A view with all that `ingest` takes along with it. -/
structure HistoryUpdate (Digest : Type) where
  view : View Digest
  registry : PresentedRegistry Digest
  collection : Commitment Digest
  opaqueState : Bytes
deriving DecidableEq

/-- The two kinds of journals; the second is that of `catch_up`, active or pending. -/
inductive Entry (Digest : Type) where
  | rotation (phase : Phase) (proof : Rotation Digest) (record : Option (ActivationRecord Digest))
  | catchUp (isActive : Bool) (targetId : Digest) (packets : List (Packet Digest))
      (updates : List (HistoryUpdate Digest))
deriving DecidableEq

/-- A journal, with the epochs that a cleanup retains. -/
structure Journal (Digest : Type) where
  entry : Entry Digest
  cleanup : Option (Finset Nat)
deriving DecidableEq

/-- `journal["phase"] == "ACTIVE"` -/
def Journal.isActive (journal : Journal Digest) : Bool :=
  match journal.entry with
  | .rotation phase _ _ => phase == .active
  | .catchUp active _ _ _ => active

structure VaultContext (Digest : Type) where
  accountId : String
  vaultId : String
  deviceId : String
  keyEpoch : Nat
  stateRoot : Digest
  registryRoot : Digest
deriving DecidableEq

deriving instance DecidableEq for InboxState

/-- What the activation file holds. -/
structure VaultState (Digest : Type) where
  context : VaultContext Digest
  status : VaultStatus
  epoch : Nat
  registry : Registry
  recipients : List String
  keys : Dict Nat String
  history : GuardedState Digest
  outbox : List Operation
  inbox : InboxState Digest
  journal : Option (Journal Digest)
  generation : Nat
deriving DecidableEq

/-- The HPKE opening of a wrapper with an agreement key, for a plan and a device, the
signatures of a signing key, and the length of a list of updates as JSON. -/
structure VaultLibrary (Digest : Type) extends HistoryLibrary Digest where
  openHpke : String → RotationPlan Digest → String → Wrapper → Option String
  signs : String → Domain → Digest → String
  updatesBytes : List (HistoryUpdate Digest) → Nat

/-- `atlasvault-anchored-publication-origin` -/
structure PublicationOrigin (Digest : Type) where
  context : HistoryContext
  origin : Origin Digest

/-- An `EpochVault`: what its constructor was given and has checked. -/
structure Owner (library : VaultLibrary Digest) where
  context : VaultContext Digest
  registry : Registry
  origin : Option (PublicationOrigin Digest)
  registered : registryRoot library.toRevocationLibrary registry = .ok context.registryRoot
  isListed : context.deviceId ∈ registry.map RegistryEntry.deviceId
  isEpoch : isNumber context.keyEpoch = true
  belongs : ∀ anchored ∈ origin, anchored.context.accountId = context.accountId ∧
    anchored.context.vaultId = context.vaultId ∧ anchored.context.keyEpoch = context.keyEpoch

variable {library : VaultLibrary Digest}

def Owner.bridgeContext (owner : Owner library) : BridgeContext Digest where
  accountId := owner.context.accountId
  vaultId := owner.context.vaultId
  keyEpoch := owner.context.keyEpoch
  registryGeneration :=
    (owner.origin.map fun anchored => anchored.origin.registryGeneration).getD
      owner.context.keyEpoch
  activationId := owner.origin.map fun anchored => anchored.origin.activationId
  issuerDeviceId := owner.origin.map fun anchored => anchored.origin.issuerDeviceId

def Owner.authority (owner : Owner library) : Authority Digest :=
  owner.bridgeContext.authority owner.registry

/-- `_history`: the configuration that the history of a vault is read with -/
def Owner.guard (owner : Owner library) (history : GuardedState Digest) :
    Except String (Guard Digest) :=
  match owner.origin with
  | some anchored => .ok ⟨anchored.context, some owner.registry, some anchored.origin⟩
  | none => do
    require (history.context.accountId == owner.context.accountId &&
      history.context.vaultId == owner.context.vaultId &&
      history.context.keyEpoch == owner.context.keyEpoch &&
      decodes history.context.signingPublicB64 32) rotationRejected
    return ⟨history.context, some owner.registry, none⟩

def maximumKeyRingEntries : Nat := 32

/-- `_epoch` of the key ring -/
def isKeyEpoch (value : Nat) : Bool :=
  decide (1 ≤ value) && decide (value ≤ 9223372036854775807)

def ring (epoch : Nat) (keys : Dict Nat String) : Except String Unit := do
  require (decide (1 ≤ keys.size) && decide (keys.size ≤ maximumKeyRingEntries)) rotationRejected
  require (decide (∀ key ∈ keys.keys, (keys.lookup key).any (decodes · 32) = true))
    rotationRejected
  require (isKeyEpoch epoch && decide (epoch ∈ keys)) rotationRejected
  require (decide (∀ key ∈ keys.keys, isKeyEpoch key = true ∧ key ≤ epoch)) rotationRejected
  require (decide (∀ key ∈ keys.keys, ∀ other ∈ keys.keys,
    keys.lookup key = keys.lookup other → key = other)) rotationRejected

section Loading

variable [DecidableEq Digest] (owner : Owner library)

/-- `_bridges` -/
def bridgesOf (state : VaultState Digest) : Except String (List (BridgeProof Digest)) := do
  let records ← bridgeRecords state.history.bridges
  let (proofs, _) ← checked (verifyBridges library.toRotationLibrary owner.bridgeContext records
    owner.authority)
  return proofs

/-- `_state_root` -/
def stateRootOf (state : VaultState Digest) : Except String Digest :=
  match state.history.views.getLast? with
  | none => .error rotationRejected
  | some view => .ok view.root

/-- `_verify` -/
def verifyProof (proof : Rotation Digest) (state : VaultState Digest) :
    Except String Verified := do
  let stateRoot ← stateRootOf state
  verifyEpochRotation library.toRotationLibrary proof state.registry owner.context.accountId
    owner.context.vaultId state.epoch stateRoot

/-- `_record` -/
def verifyRecord (record : ActivationRecord Digest) (state : VaultState Digest) :
    Except String Verified := do
  require (record.status == "ACTIVATION_ACCEPTED" && record.transitionId == record.proof.root)
    rotationRejected
  verifyProof owner record.proof state

variable (library) in
def agrees (state : VaultState Digest) (plan : BridgePlan Digest) : Except String Unit := do
  let root ← checked (registryRoot library.toRevocationLibrary state.registry)
  require (state.epoch == plan.newEpoch && root == plan.resultingRegistryRoot &&
    state.recipients == plan.recipients) rotationRejected

def lastRotation (bridges : List (Bridge Digest)) : Option (Bridge Digest) :=
  (bridges.filter fun bridge => !bridge.isEnrollment).getLast?

/-- The journal checks of `_load`. -/
def checkEntry (state : VaultState Digest) : Entry Digest → Except String Unit
  | .catchUp isActive _ _ _ => do
    let proofs ← bridgesOf owner state
    if isActive then
      match proofs.getLast? with
      | none => .error rotationRejected
      | some last => agrees library state last.plan
    else return ()
  | .rotation phase proof record =>
    if phase == .active then do
      let proofs ← bridgesOf owner state
      require (lastRotation state.history.bridges == some (.rotation proof)) rotationRejected
      match proofs.getLast? with
      | none => .error rotationRejected
      | some last => do
        require (record.all fun record => record.status == "ACTIVATION_ACCEPTED" &&
          record.transitionId == proof.root && record.proof == proof) rotationRejected
        agrees library state last.plan
    else do
      let _ ← verifyProof owner proof state
      match record with
      | none => return ()
      | some record => do
        let _ ← verifyRecord owner record state
        require (record.proof == proof) rotationRejected

/-- `_load`, after the file is read -/
def checkState (state : VaultState Digest) : Except String Unit := do
  require (state.context == owner.context) rotationRejected
  let _ ← checked (registryRoot library.toRevocationLibrary state.registry)
  ring state.epoch state.keys
  match state.journal with
  | none => return ()
  | some journal => checkEntry owner state journal.entry

/-- `_history(s).recovery()["status"]` -/
def historyStatus (state : VaultState Digest) : Except String Status := do
  let guard ← owner.guard state.history
  let history ← checked (load library.toHistoryLibrary guard state.history)
  return history.status

/-- `_active` -/
def whileActive (state : VaultState Digest) : Except String Unit := do
  require (state.status != .catchUpPending) catchUpPending
  require (state.status != .cleanupPending) cleanupPending
  require (state.status != .revoked) deviceRevoked
  require (state.status != .activationPending) activationPending
  require (state.status == .active) recoveryPending
  let status ← historyStatus owner state
  require (status == .active) recoveryPending

end Loading

end JobAgg.EpochVault
