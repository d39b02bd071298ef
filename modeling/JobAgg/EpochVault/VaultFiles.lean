import JobAgg.EpochVault.EpochVault

/-! # The two files of a vault

A publication is written to the recovery record first, once that is enabled, and then to
the activation file. A stop between the two leaves files that disagree: every read is
refused until the record is published again. -/

namespace JobAgg.EpochVault

open SyncQueue (Operation InboxState)

variable {Digest : Type}

/-- The activation file and the recovery record. -/
structure Disk (Digest : Type) where
  main : Option (VaultState Digest)
  record : Option (VaultState Digest)

def Publication.disk (publication : Publication Digest) : Disk Digest where
  main := some publication.state
  record := if publication.recorded then some publication.state else none

/-- `EpochPublication.write` and `EpochPublication.enable`: the files after each replacement -/
def Publication.replaced (before after : Publication Digest) : List (Disk Digest) :=
  if before.recorded then [⟨some before.state, some after.state⟩, after.disk] else [after.disk]

def replacements : Publication Digest → List (Publication Digest) → List (Disk Digest)
  | _, [] => []
  | before, after :: rest => before.replaced after ++ replacements after rest

/-- `EpochPublication.write`, on the files -/
def writeFiles (state : VaultState Digest) : Durable (Disk Digest) Unit := do
  let recorded ← Durable.read fun disk : Disk Digest => disk.record.isSome
  if recorded then Durable.write fun disk => { disk with record := some state }
  Durable.write fun disk => { disk with main := some state }

/-- What `initialize` is given. The history is one that no vault has published yet: only
publications hold bridges. -/
structure Founding (Digest : Type) where
  keys : Dict Nat String
  guard : Guard Digest
  history : GuardedState Digest
  outbox : Option (List Operation)
  inbox : Option (InboxState Digest)
  unbridged : history.bridges = []

section Files

variable [DecidableEq Digest] {library : VaultLibrary Digest} (owner : Owner library)

def Disk.read (disk : Disk Digest) : Except String (Publication Digest) :=
  match disk.main, disk.record with
  | none, none => .error rotationRejected
  | none, some _ => .error publicationRecoveryRequired
  | some main, none => .ok ⟨main, false⟩
  | some main, some record =>
    if main = record then .ok ⟨main, true⟩ else .error publicationRecoveryRequired

/-- `EpochVault._load` of the files -/
def Disk.load (disk : Disk Digest) : Except String (VaultState Digest) := do
  let publication ← disk.read
  checkState owner publication.state
  return publication.state

def onFiles {Result : Type} (program : VaultProgram Digest Result) :
    Durable (Disk Digest) Result := fun disk =>
  match disk.read with
  | .error message => ⟨[], .error message⟩
  | .ok publication =>
    ⟨replacements publication (program publication).later, (program publication).outcome⟩

/-- `initialize`: the history is configured as the vault is -/
def checkGuard (guard : Guard Digest) : Except String Unit :=
  match owner.origin with
  | none => require guard.origin.isNone bootstrapRequired
  | some anchored => require (guard.context == anchored.context &&
      guard.rotationRegistry == some owner.registry &&
      guard.origin == some anchored.origin) bootstrapRejected

/-- The publication that `initialize` writes. -/
def foundingState (founding : Founding Digest) : Except String (VaultState Digest) := do
  let history ← checked (load library.toHistoryLibrary founding.guard founding.history)
  checkGuard owner founding.guard
  require (history.status == .active &&
    (history.views.getLast?).any (·.root == owner.context.stateRoot) &&
    history.context.accountId == owner.context.accountId &&
    history.context.vaultId == owner.context.vaultId &&
    history.context.keyEpoch == owner.context.keyEpoch) recoveryPending
  ring owner.context.keyEpoch founding.keys
  let outbox ← checked (loadOutbox library.envelopes (founding.outbox.getD []))
  let inbox ← checked (SyncQueue.loadInbox library.envelopes
    (founding.inbox.getD SyncQueue.inboxDefault))
  return {
    context := owner.context
    status := .active
    epoch := owner.context.keyEpoch
    registry := owner.registry
    recipients := activeDevices owner.registry
    keys := founding.keys
    history := history
    outbox := outbox
    inbox := inbox
    journal := none
    generation := 1 }

/-- `initialize` -/
def initializeFiles (founding : Founding Digest) : Durable (Disk Digest) Unit := do
  let missing ← Durable.read fun disk : Disk Digest => disk.main.isNone
  Durable.check missing rotationRejected
  let state ← Durable.examine fun _ => foundingState owner founding
  writeFiles state

/-- What `EpochPublication.recover` publishes. -/
def VaultState.recovered (state : VaultState Digest) : VaultState Digest :=
  { state with status := if state.status == .active then .catchUpPending else state.status }

def recoverPublication : Durable (Disk Digest) Unit := do
  let record ← Durable.examine fun disk : Disk Digest =>
    match disk.record with
    | none => .error publicationRecoveryRequired
    | some record => .ok record
  writeFiles record.recovered
  let _ ← Durable.examine fun disk : Disk Digest => do
    let state ← disk.load owner
    historyStatus owner state
  return ()

end Files

inductive VaultCall (Digest : Type) where
  /-- `initialize` -/
  | initializeVault (founding : Founding Digest)
  | prepareRotation (proof : Rotation Digest)
  | beginActivation (proof : Rotation Digest)
  | acceptRotation (proof : Rotation Digest) (record : ActivationRecord Digest)
      (privateKey : String)
  | acceptEnrollment (proof : Enrollment Digest) (transcript : Digest)
  | catchUp (call : CatchUpCall Digest)
  | cleanupEpochs (retain : Finset Nat) (deletes : Nat → Bool)
  | queueOperation (operation : Operation)
  | confirmRemoteAcceptance (operationId : String)
  | compareEvidence (peer : List (View Digest))
  | createCommitment (opaqueState : Bytes) (signingKey : String)
  | recoverPublication

def silently {State Result : Type} (program : Durable State Result) : Durable State Unit := do
  let _ ← program
  return ()

variable [DecidableEq Digest] {library : VaultLibrary Digest}

def VaultCall.program (owner : Owner library) : VaultCall Digest → VaultProgram Digest Unit
  | .prepareRotation proof => EpochVault.prepareRotation owner proof
  | .beginActivation proof => EpochVault.beginActivation owner proof
  | .acceptRotation proof record privateKey =>
    silently (EpochVault.acceptRotation owner proof record privateKey)
  | .acceptEnrollment proof transcript =>
    silently (EpochVault.acceptEnrollment owner proof transcript)
  | .catchUp call => silently (EpochVault.catchUp owner call)
  | .cleanupEpochs retain deletes => EpochVault.cleanupEpochs owner retain deletes
  | .queueOperation operation => EpochVault.queueOperation owner operation
  | .confirmRemoteAcceptance operationId => EpochVault.confirmRemoteAcceptance owner operationId
  | .compareEvidence peer => silently (compareVaultEvidence owner peer)
  | .createCommitment opaqueState signingKey =>
    silently (EpochVault.createCommitment owner opaqueState signingKey)
  | .initializeVault _ => pure ()
  | .recoverPublication => pure ()

def VaultCall.perform (owner : Owner library) (call : VaultCall Digest) :
    Durable (Disk Digest) Unit :=
  match call with
  | .initializeVault founding => initializeFiles owner founding
  | .recoverPublication => EpochVault.recoverPublication owner
  | call => onFiles (call.program owner)

/-- The files before a call, and after it or after a stop in the middle of it. -/
def VaultStep (owner : Owner library) (before : Disk Digest) (call : VaultCall Digest)
    (after : Disk Digest) : Prop :=
  ∃ states, Durable.Stopped (call.perform owner) before states ∧ after = states.getLastD before

def plainVaultLibrary : VaultLibrary Mark where
  toHistoryLibrary := plainLibrary
  openHpke _ _ _ wrapper := some (plainKey wrapper.encapsulatedKeyB64.front)
  signs _ _ _ := plainSignature
  updatesBytes _ := 0

def plainRegistry : Registry := [plainDevice 'A', plainDevice 'B']

def plainOwner : Owner plainVaultLibrary where
  context := ⟨"account", "vault", plainId 'A', 1, plainOpening.root,
    .registry plainRegistry.toFinset⟩
  registry := plainRegistry
  origin := none
  registered := by
    rw [registryRoot_eq_ok_iff]
    decide
  isListed := by decide
  isEpoch := by decide
  belongs := nofun

/-- A history that has accepted its first view. -/
def plainFounding : Founding Mark where
  keys := Finmap.singleton 1 (plainKey 'A')
  guard := ⟨⟨"account", "vault", "collection", 1, plainKey 'A'⟩, some plainRegistry, none⟩
  history := {
    context := ⟨"account", "vault", "collection", 1, plainKey 'A'⟩
    views := [plainOpening]
    records := ∅
    cases := []
    status := .active
    bridges := [] }
  outbox := none
  inbox := none
  unbridged := rfl

end JobAgg.EpochVault
