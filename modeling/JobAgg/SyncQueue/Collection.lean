import Mathlib.Algebra.Order.Ring.Int
import JobAgg.SyncQueue.Metadata
import Mathlib.Order.Interval.Finset.Nat

/-! # The patch collection

A collection keeps the operations it accepted, folded into a snapshot as far as it was
compacted and one by one from there on. What the next operation is checked against is
computed anew from both on every call. -/

namespace JobAgg.SyncQueue

variable {Digest Tag : Type}

/-- The payload of a snapshot file; the text of a sequence number is its number. -/
structure Payload (Digest : Type) where
  collectionId : String
  collectionRevision : Nat
  lastOrder : OrderKey
  records : List Envelope
  appliedFingerprints : Dict String Digest
  authorSequences : Dict String Nat
  authorSequenceOwners : Dict String (Dict Nat String)
  recordCount : Nat
  liveRecordCount : Nat
  tombstoneCount : Nat

structure SnapshotFile (Digest Tag : Type) where
  payload : Payload Digest
  tag : Tag

/-- The code of a payload under the authentication key, and its digest. -/
structure SnapshotLibrary (Digest Tag : Type) extends Library Digest where
  authenticate : Payload Digest → Tag
  payloadSha256 : Payload Digest → String

/-- `AuthenticatedCollectionSnapshot` -/
structure Snapshot (Digest Tag : Type) where
  collectionId : String
  collectionRevision : Nat
  lastOrder : OrderKey
  records : List Envelope
  appliedFingerprints : Dict String Digest
  authorSequences : Dict String Nat
  authorSequenceOwners : Dict (String ×ₗ Nat) String
  authenticationTag : Tag
  canonicalPayloadSha256 : String

def liveCount (records : List Envelope) : Nat := records.countP (!·.tombstone)

def tombstoneCount (records : List Envelope) : Nat := records.countP (·.tombstone)

/-- `result.setdefault(device, {})[sequence] = operation_id` -/
def placeOwner (result : Dict String (Dict Nat String)) (item : (String ×ₗ Nat) × String) :
    Dict String (Dict Nat String) :=
  let device := (ofLex item.1).1
  result.insert device (((result.lookup device).getD ∅).insert (ofLex item.1).2 item.2)

def sequenceOwnersJson (owners : Dict (String ×ₗ Nat) String) : Dict String (Dict Nat String) :=
  owners.items.foldl placeOwner ∅

/-- The owners of a snapshot file, device by device in the order of `sequences`. -/
def readOwners (raw : Dict String (Dict Nat String)) :
    List (String × Nat) → Dict (String ×ₗ Nat) String →
      Except String (Dict (String ×ₗ Nat) String)
  | [], owners => .ok owners
  | (device, maximumSequence) :: rest, owners => do
    let deviceOwners := (raw.lookup device).getD ∅
    require (deviceOwners.size == maximumSequence) invalid
    require (deviceOwners.items.all fun (sequence, operationId) =>
      decide (1 ≤ sequence) && isCanonicalUuid operationId) invalid
    let owners := deviceOwners.items.foldl
      (fun owners item => owners.insert (toLex (device, item.1)) item.2) owners
    let sequences := (owners.keys.filter fun key => (ofLex key).1 = device).image fun key => (ofLex key).2
    require (decide (sequences = Finset.Icc 1 maximumSequence)) invalid
    readOwners raw rest owners

/-- `AuthenticatedCollectionSnapshot.from_dict` -/
def Snapshot.fromFile [DecidableEq Digest] [DecidableEq Tag] (library : SnapshotLibrary Digest Tag)
    (file : SnapshotFile Digest Tag) : Except String (Snapshot Digest Tag) := do
  let payload := file.payload
  require (file.tag == library.authenticate payload) invalid
  let revision := payload.collectionRevision
  require (isInteger revision) invalid
  require (isOrderKey payload.lastOrder) invalid
  require (decide (payload.records.length ≤ maximumQueueOperations)) invalid
  require (payload.records.all (·.isValid library.toLibrary)) invalid
  require (decide (payload.records = orderBy Envelope.objectId payload.records ∧
    (payload.records.map Envelope.objectId).Nodup)) invalid
  require (payload.appliedFingerprints.size == revision &&
    decide (revision ≤ maximumQueueOperations)) invalid
  require (payload.appliedFingerprints.items.all (isCanonicalUuid ·.1)) invalid
  require (payload.authorSequences.size != 0 &&
    decide (payload.authorSequences.size ≤ maximumQueueOperations)) invalid
  require (payload.authorSequences.items.all fun (device, sequence) =>
    isIdentifier device && isInteger sequence) invalid
  require ((payload.authorSequences.items.map (·.2)).sum == revision &&
    decide ((ofLex (ofLex (ofLex payload.lastOrder).2).2).2 ∈ payload.appliedFingerprints)) invalid
  require (decide (payload.authorSequenceOwners.keys = payload.authorSequences.keys)) invalid
  let owners ← readOwners payload.authorSequenceOwners payload.authorSequences.items ∅
  require (owners.values.card == revision &&
    decide (owners.values = payload.appliedFingerprints.keys)) invalid
  require (payload.recordCount == payload.records.length &&
    payload.liveRecordCount == liveCount payload.records &&
    payload.tombstoneCount == tombstoneCount payload.records &&
    payload.liveRecordCount + payload.tombstoneCount == payload.recordCount) invalid
  require (isIdentifier payload.collectionId) invalid
  return {
    collectionId := payload.collectionId
    collectionRevision := revision
    lastOrder := payload.lastOrder
    records := payload.records
    appliedFingerprints := payload.appliedFingerprints
    authorSequences := payload.authorSequences
    authorSequenceOwners := owners
    authenticationTag := file.tag
    canonicalPayloadSha256 := library.payloadSha256 payload }

/-- `AuthenticatedCollectionSnapshot.to_dict` -/
def Snapshot.toFile (snapshot : Snapshot Digest Tag) : SnapshotFile Digest Tag where
  payload := {
    collectionId := snapshot.collectionId
    collectionRevision := snapshot.collectionRevision
    lastOrder := snapshot.lastOrder
    records := snapshot.records
    appliedFingerprints := snapshot.appliedFingerprints
    authorSequences := snapshot.authorSequences
    authorSequenceOwners := sequenceOwnersJson snapshot.authorSequenceOwners
    recordCount := snapshot.records.length
    liveRecordCount := liveCount snapshot.records
    tombstoneCount := tombstoneCount snapshot.records }
  tag := snapshot.authenticationTag

structure CollectionReplay (Digest : Type) extends Metadata where
  records : Dict String Envelope
  fingerprints : Dict String Digest
  authorSequenceOwners : Dict (String ×ₗ Nat) String

def CollectionReplay.empty : CollectionReplay Digest :=
  { toMetadata := .empty, records := ∅, fingerprints := ∅, authorSequenceOwners := ∅ }

def recordsByObject (records : List Envelope) : Dict String Envelope :=
  records.foldl (fun found record => found.insert record.objectId record) ∅

def revisionsByObject (records : List Envelope) : Dict String String :=
  records.foldl (fun found record => found.insert record.objectId record.revision) ∅

def CollectionReplay.fromSnapshot : Option (Snapshot Digest Tag) → CollectionReplay Digest
  | none => .empty
  | some snapshot => {
      authorSequences := snapshot.authorSequences
      objectRevisions := revisionsByObject snapshot.records
      lastOrder := some snapshot.lastOrder
      records := recordsByObject snapshot.records
      fingerprints := snapshot.appliedFingerprints
      authorSequenceOwners := snapshot.authorSequenceOwners }

/-- `_CollectionReplay.apply`: nothing where the operation is a known one -/
def CollectionReplay.apply [DecidableEq Digest] (library : Library Digest) (operation : Operation)
    (replay : CollectionReplay Digest) : Except String (Option (CollectionReplay Digest)) :=
  let digest := library.fingerprint operation
  match replay.fingerprints.lookup operation.operationId with
  | some known => do
    require (known == digest) invalid
    return none
  | none => do
    require (decide (replay.fingerprints.size < maximumQueueOperations)) invalid
    let knownOwner := replay.authorSequenceOwners.lookup operation.sequenceKey
    require (knownOwner.all (· == operation.operationId)) invalid
    let metadata ← advanceMetadata operation replay.toMetadata
    return some {
      toMetadata := metadata
      records := replay.records.insert operation.envelope.objectId operation.envelope
      fingerprints := replay.fingerprints.insert operation.operationId digest
      authorSequenceOwners :=
        replay.authorSequenceOwners.insert operation.sequenceKey operation.operationId }

def CollectionReplay.applyTail [DecidableEq Digest] (library : Library Digest) :
    List Operation → CollectionReplay Digest → Except String (CollectionReplay Digest)
  | [], replay => .ok replay
  | operation :: rest, replay => do
    match ← replay.apply library operation with
    | none => .error invalid
    | some next => applyTail library rest next

structure CollectionState (Digest Tag : Type) where
  collectionId : String
  snapshot : Option (SnapshotFile Digest Tag)
  tailOperations : List Operation

def collectionDefault (collectionId : String) : CollectionState Digest Tag :=
  ⟨collectionId, none, []⟩

structure LoadedCollection (Digest Tag : Type) where
  snapshot : Option (Snapshot Digest Tag)
  tail : List Operation
  replay : CollectionReplay Digest

section Operations

variable [DecidableEq Digest] [DecidableEq Tag] (library : SnapshotLibrary Digest Tag)
  (collectionId : String)

/-- The stored snapshot, which has to be one of this collection. -/
def loadSnapshot : Option (SnapshotFile Digest Tag) → Except String (Option (Snapshot Digest Tag))
  | none => .ok none
  | some file => do
    let snapshot ← Snapshot.fromFile library file
    require (snapshot.collectionId == collectionId) invalid
    return some snapshot

def loadCollection (state : CollectionState Digest Tag) :
    Except String (LoadedCollection Digest Tag) := do
  require (isIdentifier state.collectionId && state.collectionId == collectionId) invalid
  let snapshot ← loadSnapshot library collectionId state.snapshot
  require (decide (state.tailOperations.length ≤ maximumQueueOperations)) invalid
  require (state.tailOperations.all (·.isValid library.toLibrary)) invalid
  require (inOrder state.tailOperations && distinctIds state.tailOperations) invalid
  let replay ← CollectionReplay.applyTail library.toLibrary state.tailOperations
    (.fromSnapshot snapshot)
  return ⟨snapshot, state.tailOperations, replay⟩

/-- `DurableEncryptedPatchCollection.append`: the state it writes, nothing where the
operation is a known one -/
def append (operation : Operation) (state : CollectionState Digest Tag) :
    Except String (Option (CollectionState Digest Tag)) := do
  require (operation.isValid library.toLibrary) invalid
  let loaded ← loadCollection library collectionId state
  match ← loaded.replay.apply library.toLibrary operation with
  | none => return none
  | some _ => return some {
      collectionId := collectionId
      snapshot := loaded.snapshot.map Snapshot.toFile
      tailOperations := loaded.tail ++ [operation] }

def currentRecords (state : CollectionState Digest Tag) : Except String (List Envelope) := do
  let loaded ← loadCollection library collectionId state
  return loaded.replay.records.items.map (·.2)

def committedOperationCount (state : CollectionState Digest Tag) : Except String Nat := do
  let loaded ← loadCollection library collectionId state
  return loaded.replay.fingerprints.size

def Snapshot.create (replay : CollectionReplay Digest) (lastOrder : OrderKey) :
    Except String (Snapshot Digest Tag) :=
  let records := replay.records.items.map (·.2)
  let payload : Payload Digest := {
    collectionId := collectionId
    collectionRevision := replay.fingerprints.size
    lastOrder := lastOrder
    records := records
    appliedFingerprints := replay.fingerprints
    authorSequences := replay.authorSequences
    authorSequenceOwners := sequenceOwnersJson replay.authorSequenceOwners
    recordCount := records.length
    liveRecordCount := liveCount records
    tombstoneCount := tombstoneCount records }
  Snapshot.fromFile library ⟨payload, library.authenticate payload⟩

/-- `DurableEncryptedPatchCollection.compact`: the snapshot it returns and the state it
writes -/
def compact (state : CollectionState Digest Tag) :
    Except String (Snapshot Digest Tag × CollectionState Digest Tag) := do
  let loaded ← loadCollection library collectionId state
  match loaded.replay.lastOrder with
  | none => .error invalid
  | some lastOrder => do
    require (loaded.replay.fingerprints.size != 0) invalid
    let snapshot ← Snapshot.create library collectionId loaded.replay lastOrder
    return (snapshot, {
      collectionId := collectionId
      snapshot := some snapshot.toFile
      tailOperations := [] })

end Operations

end JobAgg.SyncQueue
