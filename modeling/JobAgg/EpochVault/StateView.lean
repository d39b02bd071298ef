import JobAgg.EpochVault.EpochRotation

/-! # Authenticated state views

A view signs the state of a collection together with the registry it was made under, and
names the view before it. A commitment signs the bytes of the state itself. -/

namespace JobAgg.EpochVault

open SyncQueue (Envelope isIdentifier maximumQueueOperations)

variable {Digest : Type}

def viewRejected : String := "ATLAS_STATE_VIEW_REJECTED"
def registrySubstitution : String := "ATLAS_REGISTRY_SUBSTITUTION"
def historyLimit : String := "ATLAS_HISTORY_LIMIT"

def limit : Nat := 256

def maximumStateBytes : Nat := 1024 * 1024

/-- `_commitment_sequence` -/
def isCommitmentSequence (value : Nat) : Bool :=
  decide (1 ≤ value) && decide (value ≤ 9007199254740991)

structure ViewBody (Digest : Type) where
  accountId : String
  vaultId : String
  sequence : Nat
  previousRoot : Digest
  collectionRoot : Digest
  registryRoot : Digest
  previousRegistryRoot : Digest
  keyEpoch : Nat
deriving DecidableEq

structure View (Digest : Type) extends ViewBody Digest where
  root : Digest
  signatureB64 : String
deriving DecidableEq

structure CommitmentBody (Digest : Type) where
  collectionId : String
  sequence : Nat
  previousRoot : Digest
  stateSha256 : Digest
deriving DecidableEq

/-- `SignedStateCommitment` -/
structure Commitment (Digest : Type) extends CommitmentBody Digest where
  root : Digest
  signatureB64 : String
deriving DecidableEq

/-- An entry of the registry before any rotation. -/
structure Descriptor (Digest : Type) where
  deviceId : Digest
  descriptorSha256 : Digest
deriving DecidableEq

inductive PresentedRegistry (Digest : Type) where
  | descriptors (entries : List (Descriptor Digest))
  | devices (entries : Registry)
deriving DecidableEq

abbrev Bytes : Type := List UInt8

/-- What the bytes of a state decode to. -/
structure GuardedCollection where
  format : String
  version : Nat
  route : String
  records : List Envelope

/-- The digests of views, commitments, states and envelopes, and the JSON decoder of a
state. -/
structure HistoryLibrary (Digest : Type) extends RotationLibrary Digest where
  envelopes : SyncQueue.Library Digest
  emptyRegistry : Digest
  descriptorDigest : Finset (Descriptor Digest) → Digest
  viewRoot : ViewBody Digest → Digest
  commitmentRoot : CommitmentBody Digest → Digest
  stateSha256 : Bytes → Digest
  envelopeSha256 : Envelope → Digest
  readCollection : Bytes → Option GuardedCollection

variable [DecidableEq Digest] (library : HistoryLibrary Digest)

/-- The field checks of `_root`. -/
def ViewBody.isValid (body : ViewBody Digest) : Bool :=
  isIdentifier body.accountId && isIdentifier body.vaultId &&
    isCommitmentSequence body.sequence && isCommitmentSequence body.keyEpoch

/-- `_verified` -/
def View.isVerified (view : View Digest) (publicB64 : String) : Bool :=
  view.toViewBody.isValid && view.root == library.viewRoot view.toViewBody &&
    decodes view.signatureB64 64 && library.verifies publicB64 .view view.root view.signatureB64

/-- `SignedStateCommitment.from_dict` -/
def Commitment.isValid (commitment : Commitment Digest) : Bool :=
  isIdentifier commitment.collectionId && isCommitmentSequence commitment.sequence &&
    decodes commitment.signatureB64 64 &&
    ((commitment.sequence == 1) == (commitment.previousRoot == library.zero)) &&
    commitment.root == library.commitmentRoot commitment.toCommitmentBody

def stateDigest (state : Bytes) : Except String Digest := do
  require (decide (16 ≤ state.length) && decide (state.length ≤ 128 * 1024 * 1024)) viewRejected
  return library.stateSha256 state

/-- `registry_root`, of the registry before any rotation -/
def descriptorRoot (entries : List (Descriptor Digest)) : Except String Digest := do
  require (decide (1 ≤ entries.length) && decide (entries.length ≤ limit)) registrySubstitution
  require (decide (entries.map Descriptor.deviceId).Nodup) registrySubstitution
  return library.descriptorDigest entries.toFinset

def presentedRoot (bridged : Bool) : PresentedRegistry Digest → Except String Digest
  | .devices entries =>
    if bridged then
      (registryRoot library.toRevocationLibrary entries).mapError fun _ => viewRejected
    else .error registrySubstitution
  | .descriptors entries =>
    if bridged then .error viewRejected else descriptorRoot library entries

structure CollisionFree (library : HistoryLibrary Digest) : Prop where
  views : Function.Injective library.viewRoot
  nonzero : ∀ body, library.viewRoot body ≠ library.zero
  registries : Function.Injective library.registryDigest

/-- A digest that spells out what it is of, as far as the checks of a history need it. -/
inductive Mark where
  | zero
  | number (value : Nat)
  | registry (rows : Finset RegistryEntry)
  | view (accountId vaultId : String) (sequence : Nat)
      (previousRoot collectionRoot registryRoot previousRegistryRoot : Mark) (keyEpoch : Nat)
deriving DecidableEq

def ViewBody.mark (body : ViewBody Mark) : Mark :=
  .view body.accountId body.vaultId body.sequence body.previousRoot body.collectionRoot
    body.registryRoot body.previousRegistryRoot body.keyEpoch

/-- Thirty-two bytes, the first of which is told by one letter. -/
def plainKey (letter : Char) : String :=
  String.ofList (letter :: List.replicate 42 'A' ++ ['='])

def plainId (letter : Char) : String := String.ofList ("device-".toList ++ [letter])

def plainSignature : String := String.ofList (List.replicate 86 'A' ++ ['=', '='])

/-- A library for examples: every signature holds, and every state is an empty collection. -/
def plainLibrary : HistoryLibrary Mark where
  deriveDeviceId signing _ := plainId (signing.toList.headD 'A')
  registryDigest := .registry
  transitionRoot body := .number body.keyEpoch
  verifies _ _ _ _ := true
  zero := .zero
  rotationRoot body := .number (1000 + body.plan.newEpoch)
  deliveryRoot body := .number (2000 + body.plan.newEpoch)
  wrapperSha256 wrapper := .number (3000 + wrapper.keyEpoch)
  agreementSha256 _ := .number 4000
  enrollmentRoot body := .number (5000 + body.nextRegistryGeneration)
  envelopes := { fingerprint := fun _ => .zero, contentSha256 := fun _ => "" }
  emptyRegistry := .number 0
  descriptorDigest rows := .number rows.card
  viewRoot := ViewBody.mark
  commitmentRoot body := .number (6000 + body.sequence)
  stateSha256 _ := .number 7000
  envelopeSha256 _ := .zero
  readCollection _ := some ⟨"atlasvault-guarded-collection", 1, "snapshot", []⟩

def plainDevice (letter : Char) : RegistryEntry :=
  ⟨plainId letter, plainKey letter, plainKey 'A', true⟩

/-- The removal of a device by the first one. -/
def plainTransition (registry : Registry) (target : Char) (keyEpoch : Nat) : Transition Mark where
  accountId := "account"
  vaultId := "vault"
  targetDeviceId := plainId target
  initiatorDeviceId := plainId 'A'
  priorRegistryRoot := .registry registry.toFinset
  resultingRegistryRoot := .registry (registry.map (revoke (plainId target))).toFinset
  keyEpoch := keyEpoch
  sequence := 1
  authorizationCategory := "DEVICE_PRESENCE"
  root := .number keyEpoch
  signatureB64 := plainSignature

def plainWrapper (keyEpoch : Nat) (device : String) : Wrapper :=
  ⟨device, keyEpoch, plainKey 'A', String.ofList (List.replicate 64 'A')⟩

def plainRotation (registry : Registry) (target : Char) (keyEpoch : Nat) (stateRoot : Mark) :
    Rotation Mark where
  plan := expectedPlan (plainTransition registry target keyEpoch)
    (registry.map (revoke (plainId target))) stateRoot
  revocation := plainTransition registry target keyEpoch
  registry := registry
  rotationSignerDeviceId := plainId 'A'
  deliveries := (activeDevices (registry.map (revoke (plainId target)))).map
    (plainWrapper (keyEpoch + 1))
  root := .number (1000 + (keyEpoch + 1))
  signatureB64 := plainSignature

/-- The view that continues another one, and the commitment to its state. -/
def plainView (previous : Option (View Mark)) (registryRoot : Mark) (keyEpoch : Nat) : View Mark :=
  let sequence := (previous.map fun view => view.sequence).getD 0 + 1
  let body : ViewBody Mark := {
    accountId := "account"
    vaultId := "vault"
    sequence := sequence
    previousRoot := (previous.map View.root).getD .zero
    collectionRoot := .number (6000 + sequence)
    registryRoot := registryRoot
    previousRegistryRoot := (previous.map fun view => view.registryRoot).getD (.number 0)
    keyEpoch := keyEpoch }
  { body with root := body.mark, signatureB64 := plainSignature }

def plainOpening : View Mark := plainView none (.number 1) 1

def plainCommitment (view : View Mark) (previous : Option (View Mark)) : Commitment Mark where
  collectionId := "collection"
  sequence := view.sequence
  previousRoot := (previous.map fun view => view.collectionRoot).getD .zero
  stateSha256 := .number 7000
  root := view.collectionRoot
  signatureB64 := plainSignature

theorem plainLibrary_collisionFree : CollisionFree plainLibrary where
  views one other same := by
    cases one
    cases other
    cases same
    rfl
  nonzero body := nofun
  registries one other same := Mark.registry.inj same

end JobAgg.EpochVault
