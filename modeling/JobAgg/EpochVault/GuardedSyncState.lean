import JobAgg.EpochVault.Bridges
import JobAgg.EpochVault.StateView

/-! # The guarded history

A client keeps the views it accepted, the records of the latest and the alarms it raised.
Every operation reads the file anew and checks the whole chain of views, with the bridges
between epochs where they belong. A view that does not fit raises an alarm, which is
written before the error returns and stops everything until it is resolved. -/

namespace JobAgg.EpochVault

open SyncQueue (Envelope)

variable {Digest : Type}

/-- `_PENDING` -/
def recoveryPending : String := "ATLAS_RECOVERY_PENDING"
def stateEquivocation : String := "ATLAS_STATE_EQUIVOCATION"
def rollbackRejected : String := "ATLAS_ROLLBACK_REJECTED"
def checkpointRequired : String := "ATLAS_CHECKPOINT_REQUIRED"
def tombstoneResurrection : String := "ATLAS_TOMBSTONE_RESURRECTION"
def staleState : String := "ATLAS_STALE_STATE"

/-- What an exhausted `next` raises, which no handler of this module catches. -/
def stopIteration : String := "StopIteration"

def maximumCases : Nat := 8

structure HistoryContext where
  accountId : String
  vaultId : String
  collectionId : String
  keyEpoch : Nat
  signingPublicB64 : String
deriving DecidableEq

inductive Status where
  | active
  | manualRequired
  | recoveryPending
deriving DecidableEq

inductive Disposition where
  | retainAccepted
  | selectPeer
  | keepBlocked
deriving DecidableEq

/-- An alarm with the evidence for it. -/
structure Case (Digest : Type) where
  reason : String
  localViews : List (View Digest)
  peer : List (View Digest)
  presentedRegistryRoot : Option Digest
  disposition : Option Disposition
  rejectedBranch : Option String
deriving DecidableEq

structure Record (Digest : Type) where
  objectId : String
  revision : String
  contentSha256 : String
  envelopeSha256 : Digest
  tombstone : Bool
deriving DecidableEq

/-- What the file holds; the bridges are `epoch_bridge` or `epoch_bridges`. -/
structure GuardedState (Digest : Type) where
  context : HistoryContext
  views : List (View Digest)
  records : Dict String (Record Digest)
  cases : List (Case Digest)
  status : Status
  bridges : List (Bridge Digest)
deriving DecidableEq

/-- A signed view that a history begins with, and the authority it was made under. -/
structure Origin (Digest : Type) where
  view : View Digest
  registryGeneration : Nat
  activationId : Digest
  issuerDeviceId : String
deriving DecidableEq

/-- The configuration of a `GuardedSyncState`; only an anchored one has an origin. -/
structure Guard (Digest : Type) where
  context : HistoryContext
  rotationRegistry : Option Registry
  origin : Option (Origin Digest)

def Guard.originOffset (guard : Guard Digest) : Nat :=
  (guard.origin.map fun origin => origin.view.sequence - 1).getD 0

def Guard.bridgeContext (guard : Guard Digest) : BridgeContext Digest where
  accountId := guard.context.accountId
  vaultId := guard.context.vaultId
  keyEpoch := guard.context.keyEpoch
  registryGeneration := (guard.origin.map Origin.registryGeneration).getD guard.context.keyEpoch
  activationId := guard.origin.map Origin.activationId
  issuerDeviceId := guard.origin.map Origin.issuerDeviceId

def bridgePublic (proof : BridgeProof Digest) : Option String :=
  (proof.rotationSignerDeviceId.bind (entryOf proof.registry)).map RegistryEntry.signingPublicB64

/-- What the loop over the views carries along. -/
structure Position (Digest : Type) where
  epoch : Nat
  publicB64 : String
  current : Option (BridgeProof Digest)
  previous : Digest
  registry : Digest
  sequence : Nat

section Chain

variable [DecidableEq Digest]

def passBridges : List (BridgeProof Digest) → Position Digest → Except String (Position Digest)
  | [], position => .ok position
  | candidate :: rest, position =>
    if position.previous == candidate.plan.stateRoot &&
        position.epoch == candidate.plan.previousEpoch then
      match bridgePublic candidate with
      | none => .error stopIteration
      | some publicB64 => passBridges rest { position with
          current := some candidate
          epoch := candidate.plan.newEpoch
          publicB64 := publicB64 }
    else passBridges rest position

variable (library : HistoryLibrary Digest) (guard : Guard Digest)

/-- One round of `_validate_history_chain`. -/
def passView (proofs : List (BridgeProof Digest)) (view : View Digest)
    (position : Position Digest) : Except String (Position Digest) := do
  let position ← passBridges proofs position
  require (view.isVerified library position.publicB64) viewRejected
  require (view.accountId == guard.context.accountId && view.vaultId == guard.context.vaultId &&
    view.keyEpoch == position.epoch) viewRejected
  require (position.current.all fun current =>
    view.registryRoot == current.plan.resultingRegistryRoot) viewRejected
  require (view.sequence == position.sequence + 1 && view.previousRoot == position.previous &&
    view.previousRegistryRoot == position.registry) viewRejected
  return { position with
    previous := view.root, registry := view.registryRoot, sequence := view.sequence }

def passViews (proofs : List (BridgeProof Digest)) :
    List (View Digest) → Position Digest → Except String (Position Digest)
  | [], position => .ok position
  | view :: rest, position => do
    let next ← passView library guard proofs view position
    passViews proofs rest next

/-- Where the chain begins: at the origin, if there is one. -/
def startPosition : Position Digest where
  epoch := guard.context.keyEpoch
  publicB64 := guard.context.signingPublicB64
  current := none
  previous := (guard.origin.map fun origin => origin.view.root).getD library.zero
  registry := (guard.origin.map fun origin => origin.view.registryRoot).getD library.emptyRegistry
  sequence := (guard.origin.map fun origin => origin.view.sequence).getD 0

def chain (views : List (View Digest)) (proofs : List (BridgeProof Digest)) :
    Except String Unit := do
  require (decide (views.length ≤ limit)) historyLimit
  match guard.origin with
  | none => do
    let _ ← passViews library guard proofs views (startPosition library guard)
    return ()
  | some origin =>
    match views with
    | [] => .error viewRejected
    | first :: rest => do
      require (first == origin.view) viewRejected
      let _ ← passViews library guard proofs rest (startPosition library guard)
      return ()

/-- The state roots of the bridges are roots of views, in the order of these. -/
def inPlace (roots : List Digest) : Nat → List Digest → Bool
  | _, [] => true
  | least, root :: rest =>
    decide (root ∈ roots) && decide (least ≤ roots.idxOf root) &&
      inPlace roots (roots.idxOf root) rest

/-- `_bridge` -/
def bridgeProofs (state : GuardedState Digest) : Except String (List (BridgeProof Digest)) := do
  let records ← (bridgeRecords state.bridges).mapError fun _ => viewRejected
  match guard.rotationRegistry with
  | none => do
    require records.isEmpty viewRejected
    return []
  | some registry => do
    let (proofs, _) ← (verifyBridges library.toRotationLibrary guard.bridgeContext records
      (guard.bridgeContext.authority registry)).mapError fun _ => viewRejected
    require (inPlace (state.views.map View.root) 0 (proofs.map (·.plan.stateRoot))) viewRejected
    return proofs

def load (state : GuardedState Digest) : Except String (GuardedState Digest) := do
  require (state.context == guard.context) viewRejected
  let proofs ← bridgeProofs library guard state
  chain library guard state.views proofs
  require (decide (state.cases.length ≤ maximumCases)) viewRejected
  require (decide (state.records.size ≤ limit)) viewRejected
  return state

end Chain

/-- What an operation writes, if anything, and what it answers. -/
structure Effect (State Answer : Type) where
  written : Option State
  answer : Except String Answer

def Effect.refuse {State Answer : Type} (reason : String) : Effect State Answer :=
  ⟨none, .error reason⟩

def Effect.after {State Answer : Type} (effect : Effect State Answer) (state : State) : State :=
  effect.written.getD state

/-- `_alarm`: what it writes -/
def alarm (state : GuardedState Digest) (reason : String) (peer : List (View Digest))
    (presented : Option Digest) : GuardedState Digest :=
  { state with
    cases := state.cases ++ [{
      reason := reason
      localViews := state.views
      peer := peer
      presentedRegistryRoot := presented
      disposition := none
      rejectedBranch := none }]
    status := .manualRequired }

def whenActive {Answer : Type} (state : GuardedState Digest)
    (next : Effect (GuardedState Digest) Answer) : Effect (GuardedState Digest) Answer :=
  if state.status != .active then .refuse recoveryPending
  else if state.cases.length == maximumCases then
    ⟨some { state with status := .recoveryPending }, .error recoveryPending⟩
  else next

/-- Why an operation raises, and the evidence at that point. -/
structure Failure (Digest : Type) where
  reason : String
  peer : List (View Digest)
  presented : Option Digest

/-- Raise an alarm for what `except StateViewError` catches. -/
def onFailure {Answer : Type} (state : GuardedState Digest) (failure : Failure Digest) :
    Effect (GuardedState Digest) Answer :=
  if failure.reason == stopIteration then .refuse stopIteration
  else ⟨some (alarm state failure.reason failure.peer failure.presented), .error failure.reason⟩

section Operations

variable [DecidableEq Digest] (library : HistoryLibrary Digest) (guard : Guard Digest)

/-- `initialize` -/
def initialState : GuardedState Digest where
  context := guard.context
  views := []
  records := ∅
  cases := []
  status := .active
  bridges := []

def currentPolicy (state : GuardedState Digest) : Except String (Nat × String) := do
  let proofs ← bridgeProofs library guard state
  match proofs.getLast? with
  | none => return (guard.context.keyEpoch, guard.context.signingPublicB64)
  | some proof =>
    match bridgePublic proof with
    | none => .error stopIteration
    | some publicB64 => return (proof.plan.newEpoch, publicB64)

/-- Raise with the evidence so far. -/
def withEvidence {Value : Type} (peer : List (View Digest)) (presented : Option Digest)
    (computation : Except String Value) : Except (Failure Digest) Value :=
  computation.mapError fun reason => ⟨reason, peer, presented⟩

def Record.ofEnvelope (envelope : Envelope) : Record Digest where
  objectId := envelope.objectId
  revision := envelope.revision
  contentSha256 := envelope.contentSha256
  envelopeSha256 := library.envelopeSha256 envelope
  tombstone := envelope.tombstone

def readRecords (keyEpoch : Nat) (known : Dict String (Record Digest)) :
    List Envelope → Dict String (Record Digest) → Except String (Dict String (Record Digest))
  | [], records => .ok records
  | envelope :: rest, records => do
    require (envelope.isValid library.envelopes && envelope.version == 1 &&
      decide (envelope.objectId ∉ records) &&
      (envelope.keyEpoch == keyEpoch ||
        (known.lookup envelope.objectId).any
          (·.envelopeSha256 == library.envelopeSha256 envelope))) viewRejected
    readRecords keyEpoch known rest
      (records.insert envelope.objectId (Record.ofEnvelope library envelope))

/-- No accepted record may be left out, and no tombstone may change. -/
def keepsRecords (known records : Dict String (Record Digest)) : Except String Unit :=
  each (fun item => do
    require (!(item.2.tombstone && records.lookup item.1 != some item.2)) tombstoneResurrection
    require (decide (item.1 ∈ records)) staleState) known.items

/-- Where a view stands to the accepted ones: it is one of them, the latest again, or
the next. -/
def placeView (views : List (View Digest)) (view : View Digest) : Except String Bool := do
  let base := guard.originOffset
  let count := base + views.length
  let known := decide (base < view.sequence) &&
    ((views[view.sequence - base - 1]?).map View.root == some view.root)
  require (!(decide (view.sequence ≤ count) && !known)) stateEquivocation
  require (!decide (view.sequence < count)) rollbackRejected
  if view.sequence == count then return false
  else do
    require (decide (view.sequence - base ≤ limit)) historyLimit
    return true

/-- The new view has to continue the last one, and its commitment the last commitment. -/
def continues (views : List (View Digest)) (view : View Digest)
    (commitment : Commitment Digest) : Bool :=
  let previous := views.getLast?
  view.sequence == guard.originOffset + views.length + 1 &&
    view.previousRoot == (previous.map View.root).getD library.zero &&
    view.previousRegistryRoot ==
      (previous.map fun view => view.registryRoot).getD library.emptyRegistry &&
    commitment.previousRoot == (previous.map fun view => view.collectionRoot).getD library.zero

/-- The records that a presented collection replaces the known ones with. -/
def admitCollection (state : GuardedState Digest) (view : View Digest) (opaqueState : Bytes) :
    Except String (Dict String (Record Digest)) := do
  match library.readCollection opaqueState with
  | none => .error viewRejected
  | some body => do
    require (body.format == "atlasvault-guarded-collection" && body.version == 1 &&
      decide (body.route ∈ ["patch", "snapshot", "compaction"])) viewRejected
    require (decide (body.records.length ≤ limit)) historyLimit
    let records ← readRecords library view.keyEpoch state.records body.records ∅
    keepsRecords state.records records
    return records

/-- The checks of `ingest`, in their order: nothing where the view is the latest one. -/
def checkIngest (state : GuardedState Digest) (view : View Digest)
    (registry : PresentedRegistry Digest) (commitment : Commitment Digest) (opaqueState : Bytes) :
    Except (Failure Digest) (Option (GuardedState Digest)) := do
  let (epoch, publicB64) ← withEvidence [] none (currentPolicy library guard state)
  withEvidence [] none (require (view.isVerified library publicB64) viewRejected)
  withEvidence [view] none (require (view.accountId == guard.context.accountId &&
    view.vaultId == guard.context.vaultId && view.keyEpoch == epoch) viewRejected)
  let presented ← withEvidence [view] none
    (presentedRoot library (!state.bridges.isEmpty || guard.origin.isSome) registry)
  withEvidence [view] (some presented) do
    require (presented == view.registryRoot) registrySubstitution
    require (decide (opaqueState.length ≤ maximumStateBytes)) historyLimit
    require (commitment.isValid library) viewRejected
    let digest ← stateDigest library opaqueState
    require (commitment.collectionId == guard.context.collectionId &&
      commitment.sequence == view.sequence && commitment.root == view.collectionRoot &&
      commitment.stateSha256 == digest) viewRejected
    require (library.verifies publicB64 .commitment commitment.root commitment.signatureB64)
      viewRejected
    let isNew ← placeView guard state.views view
    if isNew then do
      require (continues library guard state.views view commitment) viewRejected
      let records ← admitCollection library state view opaqueState
      return some { state with records := records, views := state.views ++ [view] }
    else return none

def ingest (view : View Digest) (registry : PresentedRegistry Digest)
    (commitment : Commitment Digest) (opaqueState : Bytes) (file : GuardedState Digest) :
    Effect (GuardedState Digest) Bool :=
  match load library guard file with
  | .error reason => .refuse reason
  | .ok state => whenActive state
      (match checkIngest library guard state view registry commitment opaqueState with
      | .error failure => onFailure state failure
      | .ok none => ⟨none, .ok false⟩
      | .ok (some next) => ⟨some next, .ok true⟩)

/-- The key that `compare_evidence` verifies a view of this epoch with. -/
def authorityFor (proofs : List (BridgeProof Digest)) (keyEpoch : Nat) : String :=
  ((proofs.reverse.find? (·.plan.newEpoch == keyEpoch)).bind bridgePublic).getD
    guard.context.signingPublicB64

/-- The checks of `compare_evidence`. -/
def compare (state : GuardedState Digest) (peer : List (View Digest)) :
    Except (Failure Digest) Nat := do
  withEvidence [] none (require (decide (peer.length ≤ limit)) historyLimit)
  let proofs ← withEvidence [] none (bridgeProofs library guard state)
  withEvidence [] none (require (proofs.all fun proof => (bridgePublic proof).isSome) stopIteration)
  withEvidence [] none (require (peer.all fun view =>
    view.isVerified library (authorityFor guard proofs view.keyEpoch)) viewRejected)
  withEvidence peer none do
    chain library guard peer proofs
    require (!peer.isEmpty && !state.views.isEmpty) checkpointRequired
    require ((state.views.zip peer).all fun (left, right) => left.root == right.root)
      stateEquivocation
    return guard.originOffset + min state.views.length peer.length

def compareEvidence (peer : List (View Digest)) (file : GuardedState Digest) :
    Effect (GuardedState Digest) Nat :=
  match load library guard file with
  | .error reason => .refuse reason
  | .ok state => whenActive state
      (match compare library guard state peer with
      | .error failure => onFailure state failure
      | .ok count => ⟨none, .ok count⟩)

def tipRoot (views : List (View Digest)) : Digest :=
  (views.getLast?.map View.root).getD library.zero

/-- Every view of the peer is one of the accepted views. -/
def isKnownReplay (found : Case Digest) : Bool :=
  found.reason == rollbackRejected && !found.peer.isEmpty && found.peer.all fun view =>
    decide (guard.originOffset < view.sequence) &&
      (found.localViews[view.sequence - guard.originOffset - 1]?).map View.root == some view.root

def Disposition.rejectedBranch : Disposition → Option String
  | .retainAccepted => some "peer"
  | .selectPeer => some "local"
  | .keepBlocked => none

/-- The state after a resolution of the alarm `found`. -/
def settled (state : GuardedState Digest) (found : Case Digest) (disposition : Disposition) :
    GuardedState Digest :=
  { state with
    cases := state.cases.dropLast ++ [{ found with
      disposition := some disposition
      rejectedBranch := disposition.rejectedBranch }]
    status := if disposition == .retainAccepted && isKnownReplay guard found then .active
      else .recoveryPending }

def resolve (disposition : Disposition) (localRoot peerRoot : Digest)
    (file : GuardedState Digest) : Effect (GuardedState Digest) Status :=
  match load library guard file with
  | .error reason => .refuse reason
  | .ok state =>
    match state.cases.getLast? with
    | none => .refuse viewRejected
    | some found =>
      if state.status == .manualRequired && localRoot == tipRoot library found.localViews &&
          peerRoot == tipRoot library found.peer then
        ⟨some (settled guard state found disposition),
          .ok (settled guard state found disposition).status⟩
      else .refuse viewRejected

/-- What `_stage_epoch` returns: the state with one more bridge -/
def staged (state : GuardedState Digest) (bridge : Bridge Digest) :
    Except String (GuardedState Digest) := do
  require (!bridge.isPacket) viewRejected
  require (decide (state.bridges.length < maximumBridges) &&
    (state.views.getLast?).any (·.root == bridge.stateRoot)) recoveryPending
  let next := { state with bridges := state.bridges ++ [bridge] }
  let proofs ← bridgeProofs library guard next
  chain library guard next.views proofs
  return next

/-- `_stage_epoch`, with the write of the enclosing publication -/
def stageEpoch (bridge : Bridge Digest) (file : GuardedState Digest) :
    Effect (GuardedState Digest) (GuardedState Digest) :=
  match load library guard file with
  | .error reason => .refuse reason
  | .ok state => whenActive state
      (match staged library guard state bridge with
      | .error reason => .refuse reason
      | .ok next => ⟨some next, .ok next⟩)

end Operations

section Loading

variable [DecidableEq Digest] {library : HistoryLibrary Digest} {guard : Guard Digest}
  {file state next : GuardedState Digest}

theorem load_spec (loaded : load library guard file = .ok state) :
    state = file ∧ file.context = guard.context ∧ file.cases.length ≤ maximumCases ∧
      file.records.size ≤ limit ∧ ∃ proofs, bridgeProofs library guard file = .ok proofs ∧
        chain library guard file.views proofs = .ok () := by
  rw [load, require_bind_eq_ok, bind_eq_ok] at loaded
  obtain ⟨context, proofs, bridged, loaded⟩ := loaded
  rw [bind_eq_ok] at loaded
  obtain ⟨done, chained, loaded⟩ := loaded
  rw [require_bind_eq_ok, require_bind_eq_ok, pure_eq_ok, decide_eq_true_eq, decide_eq_true_eq]
    at loaded
  obtain ⟨cases, records, rfl⟩ := loaded
  exact ⟨rfl, beq_iff_eq.mp context, cases, records, proofs, bridged, chained⟩

theorem written_of_loads {Answer : Type}
    {continuation : GuardedState Digest → Effect (GuardedState Digest) Answer}
    (found : (match load library guard state with
      | .error reason => (Effect.refuse reason : Effect (GuardedState Digest) Answer)
      | .ok loaded => continuation loaded).written = some next) :
    load library guard state = .ok state ∧ (continuation state).written = some next := by
  cases loading : load library guard state with
  | error reason =>
    rw [loading] at found
    cases found
  | ok loaded =>
    obtain ⟨rfl, -⟩ := load_spec loading
    rw [loading] at found
    exact ⟨rfl, found⟩

end Loading

end JobAgg.EpochVault
