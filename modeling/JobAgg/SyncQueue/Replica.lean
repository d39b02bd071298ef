import JobAgg.SyncQueue.Collection
import Mathlib.Data.List.MinMax

/-! # The convergent replica

A replica keeps the operations it received and the snapshots it merged. The history it
keeps is checked as a whole at every write and every read, and the records it shows are
chosen among the envelopes of all of them. -/

namespace JobAgg.SyncQueue

variable {Digest Tag : Type}

abbrev RevisionKey : Type := String ×ₗ String

def Envelope.revisionKey (envelope : Envelope) : RevisionKey :=
  toLex (envelope.objectId, envelope.revision)

/-- The dictionaries that `_validate_convergent_history` fills. The canonical JSON of an
envelope is the envelope. -/
structure HistoryCheck (Digest : Type) where
  receipts : Dict String Digest
  snapshotSequences : Dict String Nat
  sequenceOwners : Dict (String ×ₗ Nat) String
  operationSequences : Dict String (String ×ₗ Nat)
  revisionValues : Dict RevisionKey Envelope
  revisionParents : Dict RevisionKey (Option String)

def HistoryCheck.empty : HistoryCheck Digest := ⟨∅, ∅, ∅, ∅, ∅, ∅⟩

namespace HistoryCheck

def addReceipt [DecidableEq Digest] (operationId : String) (digest : Digest)
    (check : HistoryCheck Digest) : Except String (HistoryCheck Digest) := do
  require ((check.receipts.lookup operationId).all (· == digest)) invalid
  return { check with receipts := check.receipts.insert operationId digest }

def addEnvelope (envelope : Envelope) (check : HistoryCheck Digest) :
    Except String (HistoryCheck Digest) := do
  require (envelope.parentRevision != some envelope.revision) invalid
  let key := envelope.revisionKey
  require ((check.revisionValues.lookup key).all (· == envelope)) invalid
  return { check with
    revisionValues := check.revisionValues.insert key envelope
    revisionParents := check.revisionParents.insert key envelope.parentRevision }

def addSequenceOwner (sequenceKey : String ×ₗ Nat) (operationId : String)
    (check : HistoryCheck Digest) : Except String (HistoryCheck Digest) := do
  require ((check.sequenceOwners.lookup sequenceKey).all (· == operationId) &&
    (check.operationSequences.lookup operationId).all (· == sequenceKey)) invalid
  return { check with
    sequenceOwners := check.sequenceOwners.insert sequenceKey operationId
    operationSequences := check.operationSequences.insert operationId sequenceKey }

/-- `snapshot_sequences[device_id] = max(...)` -/
def addSnapshotSequence (device : String) (sequence : Nat) (check : HistoryCheck Digest) :
    HistoryCheck Digest :=
  { check with
    snapshotSequences := check.snapshotSequences.insert device
      (max ((check.snapshotSequences.lookup device).getD 0) sequence) }

def addEach {Item : Type} (add : Item → HistoryCheck Digest → Except String (HistoryCheck Digest)) :
    List Item → HistoryCheck Digest → Except String (HistoryCheck Digest)
  | [], check => .ok check
  | item :: rest, check => do
    let next ← add item check
    addEach add rest next

variable [DecidableEq Digest]

def addSnapshot (snapshot : Snapshot Digest Tag) (check : HistoryCheck Digest) :
    Except String (HistoryCheck Digest) := do
  let check ← addEach (fun item => addReceipt item.1 item.2)
    snapshot.appliedFingerprints.items check
  let check := snapshot.authorSequences.items.foldl
    (fun check item => check.addSnapshotSequence item.1 item.2) check
  let check ← addEach (fun item => addSequenceOwner item.1 item.2)
    snapshot.authorSequenceOwners.items check
  addEach addEnvelope snapshot.records check

def addOperation (library : Library Digest) (operation : Operation) (check : HistoryCheck Digest) :
    Except String (HistoryCheck Digest) := do
  let known := check.receipts.lookup operation.operationId
  let check ← check.addReceipt operation.operationId (library.fingerprint operation)
  let check ← check.addSequenceOwner operation.sequenceKey operation.operationId
  let behind := decide (operation.authorSequence ≤
    (check.snapshotSequences.lookup operation.authorDeviceId).getD 0)
  require (!(known.isNone && behind)) invalid
  check.addEnvelope operation.envelope

end HistoryCheck

/-- The walk along the parents of a revision: it ends where a revision is unknown or has
no parent, and fails where one comes back. A walk that does not come back has at most as
many steps as there are revisions, which is the fuel it is given. -/
def chainEnds (parents : Dict RevisionKey (Option String)) :
    Nat → List RevisionKey → Option RevisionKey → Bool
  | _, _, none => true
  | 0, _, some _ => false
  | fuel + 1, seen, some current =>
    match parents.lookup current with
    | none => true
    | some parent =>
      if current ∈ seen then false
      else chainEnds parents fuel (current :: seen)
        (parent.map fun revision => toLex ((ofLex current).1, revision))

/-- `_validate_convergent_history`: the receipts of the history -/
def validateConvergentHistory [DecidableEq Digest] (library : Library Digest)
    (operations : List Operation) (snapshots : List (Snapshot Digest Tag)) :
    Except String (Dict String Digest) := do
  let check ← HistoryCheck.addEach HistoryCheck.addSnapshot snapshots .empty
  let check ← HistoryCheck.addEach (HistoryCheck.addOperation library) operations check
  require (decide (check.receipts.size ≤ maximumQueueOperations)) invalid
  require (check.revisionParents.items.all fun item =>
    chainEnds check.revisionParents (check.revisionParents.size + 1) [] (some item.1)) invalid
  return check.receipts

structure ReplicaState (Digest Tag : Type) where
  collectionId : String
  operations : List Operation
  snapshots : List (SnapshotFile Digest Tag)
  pendingOperationIds : List String

def convergentDefault (collectionId : String) : ReplicaState Digest Tag :=
  ⟨collectionId, [], [], []⟩

/-- `_ConvergentReplicaState` -/
structure LoadedReplica (Digest Tag : Type) where
  operations : List Operation
  snapshots : List (Snapshot Digest Tag)
  pendingOperationIds : List String
  receipts : Dict String Digest

/-- A candidate for the record of an object: the envelope of a stored operation, or one a
merged snapshot has. -/
inductive Candidate (Digest Tag : Type) where
  | ofOperation (operation : Operation)
  | ofSnapshot (envelope : Envelope) (snapshot : Snapshot Digest Tag)

def Candidate.envelope : Candidate Digest Tag → Envelope
  | .ofOperation operation => operation.envelope
  | .ofSnapshot envelope _ => envelope

def candidates (operations : List Operation) (snapshots : List (Snapshot Digest Tag)) :
    List (Candidate Digest Tag) :=
  snapshots.flatMap (fun snapshot => snapshot.records.map (.ofSnapshot · snapshot)) ++
    operations.map .ofOperation

def snapshotDominates (newer older : Snapshot Digest Tag) : Bool :=
  decide (older.collectionRevision < newer.collectionRevision) &&
    older.authorSequenceOwners.items.all fun item =>
      newer.authorSequenceOwners.lookup item.1 == some item.2

def Candidate.operation? : Candidate Digest Tag → Option Operation
  | .ofOperation operation => some operation
  | .ofSnapshot _ _ => none

def Candidate.snapshot? : Candidate Digest Tag → Option (Envelope × Snapshot Digest Tag)
  | .ofOperation _ => none
  | .ofSnapshot envelope snapshot => some (envelope, snapshot)

def resolveObject (objectCandidates : List (Candidate Digest Tag)) : Option Envelope :=
  let eligible :=
    if objectCandidates.any (·.envelope.tombstone) then
      objectCandidates.filter (·.envelope.tombstone)
    else objectCandidates
  match eligible.filterMap Candidate.operation? with
  | [] =>
    let snapshotCandidates := eligible.filterMap Candidate.snapshot?
    let undominated := snapshotCandidates.filter fun candidate =>
      !snapshotCandidates.any fun other => snapshotDominates other.2 candidate.2
    (undominated.argmax fun candidate => candidate.2.canonicalPayloadSha256).map (·.1)
  | operations => (operations.argmax Operation.orderKey).map (·.envelope)

def resolveConvergentRecords (operations : List Operation)
    (snapshots : List (Snapshot Digest Tag)) : List Envelope :=
  let all := candidates operations snapshots
  (all.map (·.envelope.objectId)).toFinset.sort.filterMap fun objectId =>
    resolveObject (all.filter (·.envelope.objectId == objectId))

section Operations

variable [DecidableEq Digest] [DecidableEq Tag] (library : SnapshotLibrary Digest Tag)
  (collectionId : String)

def loadConvergentReplica (state : ReplicaState Digest Tag) :
    Except String (LoadedReplica Digest Tag) := do
  require (isIdentifier state.collectionId && state.collectionId == collectionId) invalid
  require (decide (state.operations.length ≤ maximumQueueOperations) &&
    decide (state.snapshots.length ≤ maximumQueueOperations) &&
    decide (state.pendingOperationIds.length ≤ maximumQueueOperations)) invalid
  require (state.operations.all (·.isValid library.toLibrary)) invalid
  require (state.operations == orderBy Operation.operationId state.operations &&
    distinctIds state.operations) invalid
  let snapshots ← state.snapshots.mapM (Snapshot.fromFile library)
  let digests := snapshots.map (·.canonicalPayloadSha256)
  require (snapshots.all (·.collectionId == collectionId) && digests == orderBy id digests &&
    decide digests.Nodup) invalid
  require (state.pendingOperationIds.all isCanonicalUuid) invalid
  require (state.pendingOperationIds == orderBy id state.pendingOperationIds &&
    decide state.pendingOperationIds.Nodup) invalid
  require (state.pendingOperationIds.all fun operationId =>
    decide (operationId ∈ state.operations.map (·.operationId))) invalid
  let receipts ← validateConvergentHistory library.toLibrary state.operations snapshots
  return ⟨state.operations, snapshots, state.pendingOperationIds, receipts⟩

/-- `DurableEncryptedConvergentReplica._write`: what it writes -/
def writeReplica (operations : List Operation) (snapshots : List (Snapshot Digest Tag))
    (pendingOperationIds : List String) : Except String (ReplicaState Digest Tag) := do
  let orderedOperations := orderBy Operation.operationId operations
  let orderedSnapshots := orderBy Snapshot.canonicalPayloadSha256 snapshots
  let orderedPending := orderBy id pendingOperationIds
  let _ ← validateConvergentHistory library.toLibrary orderedOperations orderedSnapshots
  require (orderedPending.all fun operationId =>
    decide (operationId ∈ orderedOperations.map (·.operationId))) invalid
  return {
    collectionId := collectionId
    operations := orderedOperations
    snapshots := orderedSnapshots.map Snapshot.toFile
    pendingOperationIds := orderedPending }

/-- `ingest_remote` and, where the operation is a local one, `queue_local`: what is
written, nothing where the operation is a known one -/
def receive (isLocal : Bool) (operation : Operation) (state : ReplicaState Digest Tag) :
    Except String (Option (ReplicaState Digest Tag)) := do
  require (operation.isValid library.toLibrary) invalid
  let loaded ← loadConvergentReplica library collectionId state
  match loaded.receipts.lookup operation.operationId with
  | some known => do
    require (known == library.fingerprint operation) invalid
    return none
  | none => do
    let pending :=
      if isLocal then loaded.pendingOperationIds ++ [operation.operationId]
      else loaded.pendingOperationIds
    let next ← writeReplica library collectionId (loaded.operations ++ [operation])
      loaded.snapshots pending
    return some next

def ingestRemote := receive library collectionId false

def queueLocal := receive library collectionId true

def mergeSnapshot (snapshot : Snapshot Digest Tag) (state : ReplicaState Digest Tag) :
    Except String (Option (ReplicaState Digest Tag)) := do
  let verified ← Snapshot.fromFile library snapshot.toFile
  require (verified.collectionId == collectionId) invalid
  let loaded ← loadConvergentReplica library collectionId state
  if loaded.snapshots.any (·.canonicalPayloadSha256 == verified.canonicalPayloadSha256) then
    return none
  else do
    let next ← writeReplica library collectionId loaded.operations
      (loaded.snapshots ++ [verified]) loaded.pendingOperationIds
    return some next

/-- `DurableEncryptedConvergentReplica.current_records` -/
def replicaRecords (state : ReplicaState Digest Tag) : Except String (List Envelope) := do
  let loaded ← loadConvergentReplica library collectionId state
  return resolveConvergentRecords loaded.operations loaded.snapshots

end Operations

end JobAgg.SyncQueue
