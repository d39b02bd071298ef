import JobAgg.EpochVault.VaultState
import JobAgg.Foundation.Durable

/-! # The operations of a vault

Every operation loads the publication and replaces it, some of them several times. An
operation is a computation on the publication; what it does to the two files is said by
the publication module. -/

namespace JobAgg.EpochVault

open SyncQueue (Operation Envelope InboxState)

variable {Digest : Type}

def bootstrapRejected : String := "ATLAS_BOOTSTRAP_REJECTED"
def bootstrapRequired : String := "ATLAS_BOOTSTRAP_REQUIRED"
def epochOutboxPending : String := "ATLAS_EPOCH_OUTBOX_PENDING"
def epochWriteRejected : String := "ATLAS_EPOCH_WRITE_REJECTED"
def runtimeProvisioningRequired : String := "ATLAS_RUNTIME_PROVISIONING_REQUIRED"
def historyChainRequired : String := "ATLAS_HISTORY_CHAIN_REQUIRED"

/-- A publication, and whether its recovery record is enabled. -/
structure Publication (Digest : Type) where
  state : VaultState Digest
  recorded : Bool

abbrev VaultProgram (Digest Result : Type) : Type :=
  Durable (Publication Digest) Result

/-- `owner._file.write` -/
def publish (state : VaultState Digest) : VaultProgram Digest Unit :=
  Durable.write fun publication => { publication with state := state }

def enable : VaultProgram Digest Unit := do
  let recorded ← Durable.read Publication.recorded
  if recorded then return ()
  else Durable.write fun publication => { publication with recorded := true }

/-- A check on what is loaded. -/
def demand {Value : Type} (computation : Except String Value) : VaultProgram Digest Value :=
  Durable.examine fun _ => computation

section Operations

variable [DecidableEq Digest] {library : VaultLibrary Digest} (owner : Owner library)

/-- `_load` -/
def loaded : VaultProgram Digest (VaultState Digest) := do
  let state ← Durable.read Publication.state
  demand (checkState owner state)
  return state

def loadOutbox (library : SyncQueue.Library Digest) (operations : List Operation) :
    Except String (List Operation) := do
  require (decide (operations.length ≤ SyncQueue.maximumQueueOperations)) SyncQueue.invalid
  require (operations.all (·.isValid library)) SyncQueue.invalid
  require (SyncQueue.inOrder operations && SyncQueue.distinctIds operations) SyncQueue.invalid
  return operations

def pendingOperations : VaultProgram Digest (List Operation) := do
  let state ← loaded owner
  demand (checked (loadOutbox library.envelopes state.outbox))

/-- `_EpochComponent.write` of the outbox -/
def writeOutbox (operations : List Operation) : VaultProgram Digest Unit := do
  let state ← loaded owner
  publish { state with outbox := operations }

def VaultState.withHistory (state : VaultState Digest) (history : GuardedState Digest) :
    VaultState Digest :=
  { state with
    history := history
    status := if history.status != .active then .recoveryPending else state.status }

/-- `_EpochComponent.write` of the history -/
def writeHistory (history : GuardedState Digest) : VaultProgram Digest Unit := do
  let state ← loaded owner
  publish (state.withHistory history)

/-- An operation of the history, on the component of the publication. -/
def onHistory {Answer : Type}
    (operation : Guard Digest → GuardedState Digest → Effect (GuardedState Digest) Answer) :
    VaultProgram Digest Answer := do
  let state ← loaded owner
  let guard ← demand (owner.guard state.history)
  let effect := operation guard state.history
  match effect.written with
  | none => demand (checked effect.answer)
  | some history => do
    writeHistory owner history
    demand (checked effect.answer)

def queueOperation (operation : Operation) : VaultProgram Digest Unit := do
  let state ← loaded owner
  demand (whileActive owner state)
  demand (require (operation.isValid library.envelopes) rotationRejected)
  demand (require (operation.envelope.keyEpoch == state.epoch &&
    operation.authorDeviceId == owner.context.deviceId) epochWriteRejected)
  let operations ← pendingOperations owner
  match operations.find? (·.operationId == operation.operationId) with
  | some current => demand (require (library.envelopes.fingerprint current ==
      library.envelopes.fingerprint operation) rotationRejected)
  | none => do
    demand (require (decide (operations.length < SyncQueue.maximumQueueOperations))
      rotationRejected)
    writeOutbox owner (orderBy Operation.orderKey (operations ++ [operation]))

def confirmRemoteAcceptance (operationId : String) : VaultProgram Digest Unit := do
  let state ← loaded owner
  demand (whileActive owner state)
  demand (require (SyncQueue.isCanonicalUuid operationId) rotationRejected)
  let operations ← pendingOperations owner
  let retained := operations.filter (·.operationId != operationId)
  demand (require (retained.length != operations.length) rotationRejected)
  writeOutbox owner retained

/-- `compare_evidence` -/
def compareVaultEvidence (peer : List (View Digest)) : VaultProgram Digest Nat :=
  onHistory owner fun guard => compareEvidence library.toHistoryLibrary guard peer

/-! ## Rotations -/

def mayRotate (journal : Option (Journal Digest)) (proof : Rotation Digest) : Bool :=
  match journal with
  | none => true
  | some journal => journal.isActive ||
      match journal.entry with
      | .rotation _ previous _ => previous.root == proof.root
      | .catchUp .. => false

def prepareRotation (proof : Rotation Digest) : VaultProgram Digest Unit := do
  let state ← loaded owner
  demand (whileActive owner state)
  let pending ← pendingOperations owner
  demand (require pending.isEmpty epochOutboxPending)
  let _ ← demand (verifyProof owner proof state)
  let cursor ← demand (stateRootOf state)
  demand (require (cursor == proof.plan.stateRoot) recoveryPending)
  demand (require (mayRotate state.journal proof) epochConflict)
  publish { state with journal := some ⟨.rotation .prepared proof none, none⟩ }

def beginActivation (proof : Rotation Digest) : VaultProgram Digest Unit := do
  prepareRotation owner proof
  let state ← loaded owner
  match state.journal with
  | some ⟨.rotation _ prepared record, cleanup⟩ =>
    publish { state with
      status := .activationPending
      journal := some ⟨.rotation .backendSubmitted prepared record, cleanup⟩ }
  | _ => demand (.error rotationRejected)

/-- `_history(s)._stage_epoch` on the component of the publication -/
def stageHistory (bridge : Bridge Digest) : VaultProgram Digest (GuardedState Digest) := do
  let state ← loaded owner
  let guard ← demand (owner.guard state.history)
  let effect := stageEpoch library.toHistoryLibrary guard bridge state.history
  match effect.answer, effect.written with
  | .ok history, _ => return history
  | .error _, none => demand (.error rotationRejected)
  | .error _, some history => do
    writeHistory owner history
    demand (.error rotationRejected)

/-- `open_epoch_hpke_v2` of a wrapper for this device: the epoch and its key -/
def openWrapper (privateKey : String) (plan : RotationPlan Digest) (minimum : Nat)
    (wrapper : Wrapper) : Except String (Nat × String) := do
  require (isKeyEpoch minimum && decide (minimum ≤ wrapper.keyEpoch) &&
    isKeyEpoch wrapper.keyEpoch && wrapper.isSealed) rotationRejected
  match library.openHpke privateKey plan owner.context.deviceId wrapper with
  | none => .error rotationRejected
  | some key => return (wrapper.keyEpoch, key)

def recordOf (journal : Option (Journal Digest)) (proof : Rotation Digest) :
    Option (Option (ActivationRecord Digest)) :=
  match journal with
  | some ⟨.rotation .active known record, _⟩ => if known == proof then some record else none
  | _ => none

def VaultState.accepting (state : VaultState Digest) (phase : Phase) (proof : Rotation Digest)
    (record : ActivationRecord Digest) : VaultState Digest :=
  { state with
    status := .activationPending
    journal := some ⟨.rotation phase proof (some record), none⟩ }

def VaultState.rotated (state : VaultState Digest) (proof : Rotation Digest)
    (record : ActivationRecord Digest) (result : Verified) (history : GuardedState Digest)
    (opened : Nat × String) : VaultState Digest :=
  { state with
    history := history
    keys := state.keys.insert opened.1 opened.2
    epoch := result.newEpoch
    registry := result.registry
    recipients := result.recipients
    generation := state.generation + 1
    status := .active
    journal := some ⟨.rotation .active proof (some record), none⟩ }

/-- The checks of `accept_rotation` before anything is written. -/
def admitRotation (state : VaultState Digest) (proof : Rotation Digest)
    (record : ActivationRecord Digest) : Except String Verified := do
  let result ← verifyRecord owner record state
  require (state.status != .revoked) deviceRevoked
  require (state.status != .recoveryPending) recoveryPending
  let status ← historyStatus owner state
  require (status == .active) recoveryPending
  require (mayRotate state.journal proof) epochConflict
  return result

def acceptRotation (proof : Rotation Digest) (record : ActivationRecord Digest)
    (privateKey : String) : VaultProgram Digest Bool := do
  let state ← loaded owner
  demand (require (record.proof == proof) rotationRejected)
  match recordOf state.journal proof with
  | some known => do
    demand (require (known == some record) rotationRejected)
    return false
  | none => do
    let result ← demand (admitRotation owner state proof record)
    publish (state.accepting .backendAccepted proof record)
    if decide (owner.context.deviceId ∈ result.recipients) then do
      let wrapper ← demand (match proof.deliveries.find? (·.deviceId == owner.context.deviceId)
        with
        | none => .error rotationRejected
        | some wrapper => .ok wrapper)
      let opened ← demand (openWrapper owner privateKey proof.plan result.newEpoch wrapper)
      let history ← stageHistory owner (.rotation proof)
      let staged := (state.accepting .backendAccepted proof record).rotated proof record result
        history opened
      demand (ring staged.epoch staged.keys)
      publish (state.accepting .localPublishing proof record)
      publish staged
      return true
    else do
      publish { state.accepting .backendAccepted proof record with status := .revoked }
      demand (.error deviceRevoked)

/-! ## Enrollments -/

def passRecord (known : Option Digest × Nat) : Bridge Digest → Option Digest × Nat
  | .enrollment proof => (known.1, proof.nextRegistryGeneration)
  | .rotation proof => (some proof.root, proof.plan.newEpoch)
  | .packet packet => (some packet.proof.activationId, packet.proof.plan.newEpoch)

def currentContext (state : VaultState Digest) : Except String (EnrollmentContext Digest) := do
  let records ← bridgeRecords state.history.bridges
  let base := match owner.origin with
    | some anchored => (some anchored.origin.activationId, anchored.origin.registryGeneration)
    | none => (none, state.epoch)
  let (activation, generation) := records.foldl passRecord base
  match activation with
  | none => .error runtimeProvisioningRequired
  | some activationId => do
    let stateRoot ← stateRootOf state
    return {
      accountId := owner.context.accountId
      vaultId := owner.context.vaultId
      keyEpoch := state.epoch
      registryGeneration := generation
      stateRoot := stateRoot
      activationId := activationId }

def priorEnrollment (bridges : List (Bridge Digest)) (root : Digest) :
    Option (Enrollment Digest) :=
  bridges.findSome? fun bridge =>
    match bridge with
    | .enrollment prior => if prior.root == root then some prior else none
    | _ => none

def acceptEnrollment (proof : Enrollment Digest) (transcript : Digest) :
    VaultProgram Digest Bool := do
  let state ← loaded owner
  demand (whileActive owner state)
  let records ← demand (bridgeRecords state.history.bridges)
  match priorEnrollment records proof.root with
  | some prior => do
    demand (require (prior == proof && transcript == prior.transcriptSha256) enrollmentRejected)
    return false
  | none => do
    let context ← demand (currentContext owner state)
    let registry ← demand (checked (verifyEnrollment library.toRotationLibrary proof
      state.registry context transcript))
    let history ← stageHistory owner (.enrollment proof)
    publish { state with
      history := history
      registry := registry
      recipients := activeDevices registry
      generation := state.generation + 1 }
    return true

/-! ## Catching up -/

/-- What `catch_up` works on. -/
structure CatchUp (Digest : Type) where
  history : GuardedState Digest
  keys : Dict Nat String
  registry : Registry
  epoch : Nat
  bridges : List (Bridge Digest)
  updates : List (HistoryUpdate Digest)

/-- Why a round of `catch_up` raises, and the history where an update raised an alarm. -/
structure CatchUpFailure (Digest : Type) where
  reason : String
  alarmed : Option (GuardedState Digest)

/-- Raise without an alarm. -/
def plainly {Value : Type} (computation : Except String Value) :
    Except (CatchUpFailure Digest) Value :=
  computation.mapError fun reason => ⟨reason, none⟩

variable (library) in
def ingestUntil (guard : Guard Digest) (root : Digest) :
    List (HistoryUpdate Digest) → GuardedState Digest →
      Except (CatchUpFailure Digest) (GuardedState Digest × List (HistoryUpdate Digest))
  | updates, history =>
    if (history.views.getLast?).any (·.root == root) then .ok (history, updates)
    else
      match updates with
      | [] => .error ⟨historyChainRequired, none⟩
      | update :: rest =>
        let effect := ingest library.toHistoryLibrary guard update.view update.registry
          update.collection update.opaqueState history
        let next := effect.after history
        match effect.answer with
        | .error _ =>
          .error ⟨rotationRejected, if next.status != .active then some next else none⟩
        | .ok _ => ingestUntil guard root rest next

/-- What a packet of the current epoch is checked against: the enrollments at the end, the
bridges before the last rotation or packet, and the parts of that bridge. -/
structure SameEpoch (Digest : Type) where
  before : List (Bridge Digest)
  enrollments : List (Bridge Digest)
  activationId : Digest
  plan : RotationPlan Digest
  registry : Registry
  revocation : Transition Digest
  rotationSignerDeviceId : String
  wrapper : Option Wrapper

/-- Take the enrollments and the bridge before them off. -/
def sameEpoch (device : String) (bridges : List (Bridge Digest)) : Option (SameEpoch Digest) :=
  let enrollments := (bridges.reverse.takeWhile Bridge.isEnrollment).reverse
  let rest := (bridges.reverse.dropWhile Bridge.isEnrollment).reverse
  match rest.getLast? with
  | some (.rotation old) => some {
      before := rest.dropLast
      enrollments := enrollments
      activationId := old.root
      plan := old.plan
      registry := old.registry
      revocation := old.revocation
      rotationSignerDeviceId := old.rotationSignerDeviceId
      wrapper := old.deliveries.find? (·.deviceId == device) }
  | some (.packet old) => some {
      before := rest.dropLast
      enrollments := enrollments
      activationId := old.proof.activationId
      plan := old.proof.plan
      registry := old.proof.registry
      revocation := old.proof.revocation
      rotationSignerDeviceId := old.proof.rotationSignerDeviceId
      wrapper := some old.wrapper }
  | _ => none

def repeats (packet : Packet Digest) (old : SameEpoch Digest) : Except String Unit := do
  let proof := packet.proof
  require (proof.activationId == old.activationId && proof.plan == old.plan &&
    proof.registry == old.registry && proof.revocation == old.revocation &&
    proof.rotationSignerDeviceId == old.rotationSignerDeviceId) epochConflict
  require (old.wrapper == some packet.wrapper) rotationRejected

def verifyPacket (privateKey : String) (packet : Packet Digest) (registry : Registry)
    (previousEpoch : Nat) (stateRoot : Digest) : Except String (Verified × Nat × String) := do
  let verified ← verifyDeviceDelivery library.toRotationLibrary packet registry
    owner.context.accountId owner.context.vaultId previousEpoch stateRoot
    packet.proof.activationId owner.context.deviceId
  let opened ← openWrapper owner privateKey packet.proof.plan verified.newEpoch packet.wrapper
  return (verified, opened)

/-- One round of the loop of `catch_up`. -/
def catchUpPacket (guard : Guard Digest) (privateKey : String) (packet : Packet Digest)
    (work : CatchUp Digest) : Except (CatchUpFailure Digest) (CatchUp Digest) :=
  let plan := packet.proof.plan
  if plan.newEpoch == work.epoch then
    plainly do
      match sameEpoch owner.context.deviceId work.bridges with
      | none => .error rotationRejected
      | some old => do
        repeats packet old
        let (verified, opened) ← verifyPacket owner privateKey packet old.registry
          old.plan.previousEpoch plan.stateRoot
        require (work.keys.lookup work.epoch == some opened.2) rotationRejected
        let bridges := old.before ++ .packet packet :: old.enrollments
        return { work with
          history := { work.history with bridges := bridges }
          keys := work.keys.insert opened.1 opened.2
          registry := if old.enrollments.isEmpty then verified.registry else work.registry
          epoch := verified.newEpoch
          bridges := bridges }
  else do
    let (history, updates) ← ingestUntil library guard plan.stateRoot work.updates
      work.history
    plainly do
      let (verified, opened) ← verifyPacket owner privateKey packet work.registry work.epoch
        plan.stateRoot
      let bridges := work.bridges ++ [.packet packet]
      return {
        history := { history with bridges := bridges }
        keys := work.keys.insert opened.1 opened.2
        registry := verified.registry
        epoch := verified.newEpoch
        bridges := bridges
        updates := updates }

def catchUpPackets (guard : Guard Digest) (privateKey : String) :
    List (Packet Digest) → CatchUp Digest → Except (CatchUpFailure Digest) (CatchUp Digest)
  | [], work => .ok work
  | packet :: rest, work => do
    let next ← catchUpPacket owner guard privateKey packet work
    catchUpPackets guard privateKey rest next

/-- The arguments of `catch_up`. -/
structure CatchUpCall (Digest : Type) where
  packets : List (Packet Digest)
  activationId : Digest
  privateKey : String
  updates : List (HistoryUpdate Digest)

def VaultState.catchingUp (state : VaultState Digest) (activationId : Digest) :
    VaultState Digest :=
  { state with
    status := .catchUpPending
    journal := some ⟨.catchUp false activationId [] [], none⟩ }

def VaultState.caughtUp (state : VaultState Digest) (call : CatchUpCall Digest)
    (work : CatchUp Digest) : VaultState Digest :=
  { state with
    history := work.history
    keys := work.keys
    epoch := work.epoch
    registry := work.registry
    recipients := activeDevices work.registry
    generation := state.generation + 1
    status := .active
    journal := some ⟨.catchUp true call.activationId call.packets call.updates, none⟩ }

def VaultState.alarmed (state : VaultState Digest) (cases : List (Case Digest)) :
    VaultState Digest :=
  { state with
    history := { state.history with cases := cases, status := .recoveryPending }
    status := .recoveryPending }

/-- What `catch_up` works out from the state that it has announced. -/
def catchUpWork (call : CatchUpCall Digest) (state : VaultState Digest) :
    Except (CatchUpFailure Digest) (CatchUp Digest) := do
  plainly (require (decide (1 ≤ call.packets.length) && decide (call.packets.length ≤ 32))
    rotationRejected)
  plainly (require (decide (call.updates.length ≤ 256) &&
    decide (library.updatesBytes call.updates ≤ 4 * 1024 * 1024)) rotationRejected)
  plainly (require (state.history.status == .active && !state.history.views.isEmpty)
    recoveryPending)
  let bridges ← plainly (bridgeRecords state.history.bridges)
  let guard ← plainly (owner.guard state.history)
  let work ← catchUpPackets owner guard call.privateKey call.packets {
    history := state.history
    keys := state.keys
    registry := state.registry
    epoch := state.epoch
    bridges := bridges
    updates := call.updates }
  plainly (require ((call.packets.getLast?).any (·.proof.activationId == call.activationId))
    epochConflict)
  plainly (require work.updates.isEmpty historyChainRequired)
  let _ ← plainly (checked (verifyBridges library.toRotationLibrary owner.bridgeContext
    work.bridges owner.authority))
  plainly (ring work.epoch work.keys)
  return work

def caughtUpWith (journal : Option (Journal Digest)) (activationId : Digest) :
    Option (List (Packet Digest) × List (HistoryUpdate Digest)) :=
  match journal with
  | some ⟨.catchUp true target packets updates, _⟩ =>
    if target == activationId then some (packets, updates) else none
  | _ => none

def catchUp (call : CatchUpCall Digest) : VaultProgram Digest Bool := do
  let state ← loaded owner
  demand (require (state.status != .revoked && state.status != .recoveryPending &&
    state.status != .cleanupPending) recoveryPending)
  let status ← demand (historyStatus owner state)
  demand (require (status == .active) recoveryPending)
  match caughtUpWith state.journal call.activationId with
  | some known => do
    demand (require (known.1 == call.packets && known.2 == call.updates) epochConflict)
    if state.status == .catchUpPending then do
      publish { state with status := .active }
      return true
    else return false
  | none => do
    enable
    publish (state.catchingUp call.activationId)
    match catchUpWork owner call (state.catchingUp call.activationId) with
    | .error ⟨reason, none⟩ => demand (.error reason)
    | .error ⟨reason, some alarmed⟩ => do
      publish ((state.catchingUp call.activationId).alarmed alarmed.cases)
      demand (.error reason)
    | .ok work => do
      publish ((state.catchingUp call.activationId).caughtUp call work)
      return true

/-! ## Cleaning up -/

/-- Delete the keys of these epochs in the key storage and in the ring. -/
def deleteEpochs (deletes : Nat → Bool) : List Nat → Dict Nat String →
    Except String (Dict Nat String)
  | [], keys => .ok keys
  | epoch :: rest, keys => do
    require (deletes epoch) cleanupPending
    deleteEpochs deletes rest (keys.erase epoch)

def VaultState.cleaning (state : VaultState Digest) (journal : Journal Digest)
    (retain : Finset Nat) : VaultState Digest :=
  { state with
    status := .cleanupPending
    journal := some { journal with cleanup := some retain } }

/-- `cleanup_epochs`; `deletes` says for which epochs the key storage no longer contains the
key after its deletion. -/
def cleanupEpochs (retain : Finset Nat) (deletes : Nat → Bool) : VaultProgram Digest Unit := do
  let state ← loaded owner
  demand (require (state.status == .active || state.status == .cleanupPending) recoveryPending)
  let status ← demand (historyStatus owner state)
  demand (require (status == .active) recoveryPending)
  demand (require (decide (state.epoch ∈ retain)) rotationRejected)
  demand (require (decide (retain ⊆ state.keys.keys)) rotationRejected)
  let queued ← pendingOperations owner
  let inbox ← demand (checked (SyncQueue.loadInbox library.envelopes state.inbox))
  demand (require ((queued ++ inbox.pending).all fun operation =>
    decide (operation.envelope.keyEpoch ∈ retain)) cleanupPending)
  match state.journal with
  | none => demand (.error rotationRejected)
  | some journal => do
    demand (require (state.status != .cleanupPending || journal.cleanup == some retain)
      cleanupPending)
    enable
    publish (state.cleaning journal retain)
    let keys ← demand (deleteEpochs deletes ((state.keys.keys \ retain).sort (· ≤ ·)) state.keys)
    publish { state.cleaning journal retain with keys := keys, status := .active }

/-! ## What a vault gives out -/

variable (library) in
/-- `SignedStateCommitment.sign` -/
def signCommitment (signingKey : String) (opaqueState : Bytes) (collectionId : String)
    (sequence : Nat) (previousRoot : Digest) : Except String (Commitment Digest) := do
  let digest ← stateDigest library.toHistoryLibrary opaqueState
  let body : CommitmentBody Digest := ⟨collectionId, sequence, previousRoot, digest⟩
  let root := library.commitmentRoot body
  let commitment : Commitment Digest :=
    { body with root := root, signatureB64 := library.signs signingKey .commitment root }
  require (commitment.isValid library.toHistoryLibrary) viewRejected
  return commitment

def nextView (state : VaultState Digest) (prior : View Digest) (commitment : Commitment Digest)
    (signingKey : String) : Except String (View Digest) := do
  let registryRoot ← registryRoot library.toRevocationLibrary state.registry
  let body : ViewBody Digest := {
    accountId := owner.context.accountId
    vaultId := owner.context.vaultId
    sequence := commitment.sequence
    previousRoot := prior.root
    collectionRoot := commitment.root
    registryRoot := registryRoot
    previousRegistryRoot := prior.registryRoot
    keyEpoch := state.epoch }
  require body.isValid viewRejected
  let root := library.viewRoot body
  return { body with root := root, signatureB64 := library.signs signingKey .view root }

def createCommitment (opaqueState : Bytes) (signingKey : String) :
    VaultProgram Digest (View Digest × Commitment Digest) := do
  let state ← loaded owner
  demand (whileActive owner state)
  demand (require (state.journal.any Journal.isActive) rotationRejected)
  match state.history.views.getLast? with
  | none => demand (.error rotationRejected)
  | some prior => do
    let commitment ← demand (checked (signCommitment library signingKey opaqueState
      state.history.context.collectionId (prior.sequence + 1) prior.collectionRoot))
    let view ← demand (checked (nextView owner state prior commitment signingKey))
    let _ ← onHistory owner fun guard => ingest library.toHistoryLibrary guard view
      (.devices state.registry) commitment opaqueState
    return (view, commitment)

/-- What `seal` encrypts. -/
structure SealRequest where
  kind : String
  plaintext : Bytes
  objectId : String
  revision : String
  signingKey : String

end Operations

end JobAgg.EpochVault
