import JobAgg.Foundation.Expiries
import JobAgg.Foundation.Tally

/-! # Storage of opaque envelopes

A vault has encrypted metadata, objects, a log of patches and a snapshot. A write names the
revision that it follows, and a receipt answers one that is sent again. What an envelope
holds is not looked at. -/

namespace JobAgg.VaultApi

/-- `EncryptedVaultMetadataEnvelopeModel` -/
structure MetadataEnvelope where
  version : Nat
  vaultId : String
  revision : String
  keyEpoch : Nat
  nonceB64 : String
  ciphertextB64 : String
  aadB64 : String
  signatureB64 : String
  contentSha256 : String
deriving DecidableEq

/-- `OpaqueCiphertextEnvelopeModel` -/
structure CiphertextEnvelope where
  version : Nat
  objectId : String
  revision : String
  parentRevision : Option String
  keyEpoch : Nat
  nonceB64 : String
  ciphertextB64 : String
  aadB64 : String
  signatureB64 : String
  tombstone : Bool
  contentSha256 : String
deriving DecidableEq

inductive StorageEnvelope
  | metadata (envelope : MetadataEnvelope)
  | ciphertext (envelope : CiphertextEnvelope)
deriving DecidableEq

def StorageEnvelope.revision : StorageEnvelope → String
  | .metadata envelope => envelope.revision
  | .ciphertext envelope => envelope.revision

/-- What a write is addressed to. The text of a scope tells one from another: that of an
object begins with a word that is not one of the other three. -/
inductive Scope
  | metadata
  | object (objectId : String)
  | patches
  | snapshot
deriving DecidableEq

/-- `_require_metadata` and `_require_opaque` -/
def Scope.admits : Scope → StorageEnvelope → Bool
  | .metadata, .metadata _ => true
  | .object _, .ciphertext _ => true
  | .patches, .ciphertext _ => true
  | .snapshot, .ciphertext _ => true
  | _, _ => false

/-- What is taken of an envelope from elsewhere: the SHA-256 of its JSON and how many bytes
that is. -/
structure EnvelopeLibrary (Fingerprint : Type) where
  fingerprint : StorageEnvelope → Fingerprint
  envelopeBytes : StorageEnvelope → Nat

def opaqueStorageConflict : String := "OpaqueStorageConflict"

def opaqueStorageNotFound : String := "OpaqueStorageNotFound"

def invalidOpaqueStorageRequest : String := "InvalidOpaqueStorageRequest"

def opaqueStorageCapacityExceeded : String := "OpaqueStorageCapacityExceeded"

def receiptTypeMismatch : String := "TypeError: storage receipt type mismatch"

def entropyRepeated : String := "RuntimeError: cursor entropy source repeated"

variable {Fingerprint : Type}

/-! ## Vaults -/

structure WriteAttempt (Fingerprint : Type) where
  expectedRevision : String
  envelopeFingerprint : Fingerprint
deriving DecidableEq

structure Receipt (Fingerprint : Type) where
  attempt : WriteAttempt Fingerprint
  response : StorageEnvelope
  expiresAt : ℚ
deriving DecidableEq

structure VaultState (Fingerprint : Type) where
  metadata : Option MetadataEnvelope
  metadataRevisionFingerprints : Dict String Fingerprint
  objects : Dict String CiphertextEnvelope
  objectRevisionFingerprints : Dict String (Dict String Fingerprint)
  patchLog : List CiphertextEnvelope
  patchesByRevision : Dict String CiphertextEnvelope
  snapshot : Option CiphertextEnvelope
  snapshotRevisionFingerprints : Dict String Fingerprint
  receipts : Dict (Scope × String) (Receipt Fingerprint)

namespace VaultState

def empty : VaultState Fingerprint := ⟨none, ∅, ∅, ∅, [], ∅, none, ∅, ∅⟩

def current (state : VaultState Fingerprint) : Scope → Option StorageEnvelope
  | .metadata => state.metadata.map .metadata
  | .object objectId => (state.objects.lookup objectId).map .ciphertext
  | .patches => state.patchLog.getLast?.map .ciphertext
  | .snapshot => state.snapshot.map .ciphertext

/-- What `_same_revision` compares an envelope of this revision with. -/
def compared (state : VaultState Fingerprint) (scope : Scope) (revision : String) :
    Option StorageEnvelope :=
  match scope with
  | .patches => (state.patchesByRevision.lookup revision).map .ciphertext
  | scope => state.current scope

/-- The revision is in the history that `_reject_historical_revision` reads; the patches are
not asked. -/
def isHistorical (state : VaultState Fingerprint) (revision : String) : Scope → Bool
  | .metadata => decide (revision ∈ state.metadataRevisionFingerprints)
  | .object objectId =>
    decide (revision ∈ (state.objectRevisionFingerprints.lookup objectId).getD ∅)
  | .patches => false
  | .snapshot => decide (revision ∈ state.snapshotRevisionFingerprints)

/-- What an accepted write changes, receipts apart. -/
def write (fingerprint : Fingerprint) (state : VaultState Fingerprint) :
    Scope → StorageEnvelope → VaultState Fingerprint
  | .metadata, .metadata envelope =>
    { state with
      metadata := some envelope
      metadataRevisionFingerprints :=
        state.metadataRevisionFingerprints.insert envelope.revision fingerprint }
  | .object objectId, .ciphertext envelope =>
    let revisions := (state.objectRevisionFingerprints.lookup objectId).getD ∅
    { state with
      objects := state.objects.insert objectId envelope
      objectRevisionFingerprints := state.objectRevisionFingerprints.insert objectId
        (Finmap.insert envelope.revision fingerprint revisions) }
  | .patches, .ciphertext envelope =>
    { state with
      patchLog := state.patchLog ++ [envelope]
      patchesByRevision := state.patchesByRevision.insert envelope.revision envelope }
  | .snapshot, .ciphertext envelope =>
    { state with
      snapshot := some envelope
      snapshotRevisionFingerprints :=
        state.snapshotRevisionFingerprints.insert envelope.revision fingerprint }
  | _, _ => state

end VaultState

/-! ## The store -/

abbrev VaultKey : Type := String × String

structure Cursor where
  vault : VaultKey
  start : Nat
  endAt : Nat
  pageSize : Nat
  expiresAt : ℚ
  nextCursor : Option String
deriving DecidableEq

/-- The limits that the store reads, as their policy admits them. -/
structure RetainedLimits where
  maxVaults : Nat
  maxVaultsPerAccount : Nat
  maxObjectsPerAccount : Nat
  maxPatchesPerAccount : Nat
  maxRevisionsPerAccount : Nat
  maxBytes : Nat
  maxBytesPerAccount : Nat
  reservedBytes : Nat
  reservedLess : reservedBytes < maxBytes

/-- `InMemoryOpaqueStore`. A slot of the receipt heap names the vault that the code has a
reference to. -/
structure OpaqueStore (Fingerprint : Type) where
  vaults : Dict VaultKey (VaultState Fingerprint)
  vaultsPerAccount : Dict String Nat
  objectsPerAccount : Dict String Nat
  patchesPerAccount : Dict String Nat
  revisionsPerAccount : Dict String Nat
  retainedBytes : Nat
  retainedBytesPerAccount : Dict String Nat
  cursors : Dict String Cursor
  cursorExpiries : List (Expiry String)
  nextCursorExpirySequence : Nat
  receiptExpiries : List (Expiry (VaultKey × Scope × String))
  nextReceiptExpirySequence : Nat
  lastObservedClock : Option ℚ

def cursorLifetimeSeconds : ℚ := 300

/-- `IDEMPOTENCY_RECEIPT_LIFETIME_SECONDS` -/
def receiptLifetimeSeconds : ℚ := 600

def maxReceiptPrunePerWrite : Nat := 64

def maxCursorPrunePerList : Nat := 64

def defaultPageSize : Nat := 100

def maxPageSize : Nat := 100

/-- `_require_write_tokens`: the letters of `REVISION_PATTERN` -/
def isRevisionLetter (letter : Char) : Bool := letter.isAlphanum || "._~-".toList.contains letter

/-- `_require_write_tokens` -/
def writeTokensValid (expectedRevision idempotencyKey : String) : Bool :=
  decide (expectedRevision ≠ "") && decide (expectedRevision.length ≤ 128) &&
    (decide (expectedRevision = "*") || expectedRevision.toList.all isRevisionLetter) &&
    decide (idempotencyKey ≠ "") && decide (idempotencyKey.length ≤ 128) &&
    idempotencyKey.toList.all fun letter => decide ('!' ≤ letter ∧ letter ≤ '~')

namespace OpaqueStore

def empty : OpaqueStore Fingerprint := ⟨∅, ∅, ∅, ∅, ∅, 0, ∅, ∅, [], 0, [], 0, none⟩

/-- `_clock_now` with this reading; none where it raises -/
def clockNow (now : ℚ) (store : OpaqueStore Fingerprint) : Option (OpaqueStore Fingerprint) :=
  if store.lastObservedClock.any (now < ·) then none
  else some { store with lastObservedClock := some now }

def state (vault : VaultKey) (store : OpaqueStore Fingerprint) : VaultState Fingerprint :=
  (store.vaults.lookup vault).getD .empty

/-- `state.receipts.pop`; a state that is not retained has no receipts. -/
def popReceipt (vault : VaultKey) (key : Scope × String)
    (vaults : Dict VaultKey (VaultState Fingerprint)) : Dict VaultKey (VaultState Fingerprint) :=
  match vaults.lookup vault with
  | none => vaults
  | some state => vaults.insert vault { state with receipts := state.receipts.erase key }

/-- What `_prune_expired_receipts` does with a slot that it pops -/
def dropReceipt (now : ℚ) (slot : VaultKey × Scope × String)
    (vaults : Dict VaultKey (VaultState Fingerprint)) : Dict VaultKey (VaultState Fingerprint) :=
  if ((vaults.lookup slot.1).bind (·.receipts.lookup slot.2)).any (·.expiresAt ≤ now) then
    popReceipt slot.1 slot.2 vaults
  else vaults

/-- `_prune_expired_receipts` -/
def pruneReceipts (now : ℚ) (store : OpaqueStore Fingerprint) : OpaqueStore Fingerprint :=
  let (_, expiries, vaults) := Expiry.prune now (dropReceipt now) maxReceiptPrunePerWrite
    store.receiptExpiries store.vaults
  { store with vaults := vaults, receiptExpiries := expiries }

/-- `_record`, with the state it is for put back -/
def record (vault : VaultKey) (state : VaultState Fingerprint) (key : Scope × String)
    (attempt : WriteAttempt Fingerprint) (response : StorageEnvelope) (now : ℚ)
    (store : OpaqueStore Fingerprint) : OpaqueStore Fingerprint :=
  let expiresAt := now + receiptLifetimeSeconds
  let receipts := state.receipts.insert key ⟨attempt, response, expiresAt⟩
  { store with
    vaults := store.vaults.insert vault { state with receipts := receipts }
    receiptExpiries := Expiry.push
      ⟨expiresAt, store.nextReceiptExpirySequence + 1, vault, key⟩ store.receiptExpiries
    nextReceiptExpirySequence := store.nextReceiptExpirySequence + 1 }

end OpaqueStore

structure CapacityDelta where
  vaults : Nat
  objects : Nat
  patches : Nat
  revisions : Nat
  envelopeBytes : Nat

/-- `_require_capacity`, of the limits that all accounts share -/
def CapacityDelta.fitsGlobally (limits : RetainedLimits) (store : OpaqueStore Fingerprint)
    (delta : CapacityDelta) : Bool :=
  decide (store.vaults.size + delta.vaults ≤ limits.maxVaults) &&
    decide (store.retainedBytes + delta.envelopeBytes ≤ limits.maxBytes - limits.reservedBytes)

/-- `_require_capacity`, of the limits of an account -/
def CapacityDelta.fitsAccount (limits : RetainedLimits) (store : OpaqueStore Fingerprint)
    (accountId : String) (delta : CapacityDelta) : Bool :=
  decide (Dict.countOf store.vaultsPerAccount accountId + delta.vaults ≤
      limits.maxVaultsPerAccount) &&
    decide (Dict.countOf store.objectsPerAccount accountId + delta.objects ≤
      limits.maxObjectsPerAccount) &&
    decide (Dict.countOf store.patchesPerAccount accountId + delta.patches ≤
      limits.maxPatchesPerAccount) &&
    decide (Dict.countOf store.revisionsPerAccount accountId + delta.revisions ≤
      limits.maxRevisionsPerAccount) &&
    decide (Dict.countOf store.retainedBytesPerAccount accountId + delta.envelopeBytes ≤
      limits.maxBytesPerAccount)

/-- A counter with something added; one that is not there stays away when nothing is. -/
def addTo (counters : Dict String Nat) (accountId : String) (amount : Nat) : Dict String Nat :=
  if amount = 0 then counters
  else counters.insert accountId (Dict.countOf counters accountId + amount)

/-- `_retain_state`, the state itself apart -/
def OpaqueStore.retain (accountId : String) (delta : CapacityDelta)
    (store : OpaqueStore Fingerprint) : OpaqueStore Fingerprint :=
  { store with
    vaultsPerAccount := addTo store.vaultsPerAccount accountId delta.vaults
    objectsPerAccount := addTo store.objectsPerAccount accountId delta.objects
    patchesPerAccount := addTo store.patchesPerAccount accountId delta.patches
    revisionsPerAccount := store.revisionsPerAccount.insert accountId
      (Dict.countOf store.revisionsPerAccount accountId + delta.revisions)
    retainedBytes := store.retainedBytes + delta.envelopeBytes
    retainedBytesPerAccount := store.retainedBytesPerAccount.insert accountId
      (Dict.countOf store.retainedBytesPerAccount accountId + delta.envelopeBytes) }

/-! ## Writes -/

/-- Where a put has its envelope from: a receipt, the envelope of its revision that is there,
or the request. -/
inductive Reply
  | replayed (envelope : StorageEnvelope)
  | duplicate (envelope : StorageEnvelope)
  | written (envelope : StorageEnvelope)
deriving DecidableEq

/-- What a put is asked for beside its envelope, and the reading of its clock. -/
structure WriteRequest where
  vault : VaultKey
  expectedRevision : String
  idempotencyKey : String
  now : ℚ
deriving DecidableEq

def requireCas (current : Option StorageEnvelope) (expectedRevision : String) : Bool :=
  match current with
  | none => decide (expectedRevision = "*")
  | some current => decide (expectedRevision = current.revision)

/-- `_require_parent_cas`; metadata has no parent and only `_require_cas`. -/
def requireParentCas (current : Option StorageEnvelope) (incoming : StorageEnvelope)
    (expectedRevision : String) : Bool :=
  requireCas current expectedRevision &&
    match incoming with
    | .metadata _ => true
    | .ciphertext incoming => decide (incoming.parentRevision = current.map (·.revision))

section Put

variable (library : EnvelopeLibrary Fingerprint) (limits : RetainedLimits)

/-- `_capacity_delta`, with the counts that the put of the scope gives it -/
def capacityDelta (scope : Scope) (envelope : StorageEnvelope) (vault : VaultKey)
    (store : OpaqueStore Fingerprint) : CapacityDelta where
  vaults := if vault ∈ store.vaults then 0 else 1
  objects := match scope with
    | .object _ => if ((store.state vault).current scope).isNone then 1 else 0
    | _ => 0
  patches := match scope with
    | .patches => 1
    | _ => 0
  revisions := 1
  envelopeBytes := library.envelopeBytes envelope

def OpaqueStore.putAnew (scope : Scope) (envelope : StorageEnvelope) (request : WriteRequest)
    (store : OpaqueStore Fingerprint) : OpaqueStore Fingerprint × Except String Reply :=
  let key := (scope, request.idempotencyKey)
  let attempt := ⟨request.expectedRevision, library.fingerprint envelope⟩
  let state := store.state request.vault
  match (state.compared scope envelope.revision).filter (·.revision = envelope.revision) with
  | some known =>
    if known ≠ envelope then (store, .error opaqueStorageConflict)
    else (store.record request.vault state key attempt known request.now, .ok (.duplicate known))
  | none =>
    let delta := capacityDelta library scope envelope request.vault store
    if state.isHistorical envelope.revision scope then (store, .error opaqueStorageConflict)
    else if requireParentCas (state.current scope) envelope request.expectedRevision = false then
      (store, .error opaqueStorageConflict)
    else if (delta.fitsGlobally limits store && delta.fitsAccount limits store request.vault.1) =
        false then
      (store, .error opaqueStorageCapacityExceeded)
    else
      let written := state.write (library.fingerprint envelope) scope envelope
      ((store.record request.vault written key attempt envelope request.now).retain
        request.vault.1 delta, .ok (.written envelope))

variable [DecidableEq Fingerprint]

/-- What the four puts share, from `_prepare_write` on -/
def OpaqueStore.put (scope : Scope) (envelope : StorageEnvelope) (request : WriteRequest)
    (store : OpaqueStore Fingerprint) : OpaqueStore Fingerprint × Except String Reply :=
  if writeTokensValid request.expectedRevision request.idempotencyKey = false then
    (store, .error invalidOpaqueStorageRequest)
  else
    match store.clockNow request.now with
    | none => (store, .error invalidOpaqueStorageRequest)
    | some store =>
      let store := store.pruneReceipts request.now
      let key := (scope, request.idempotencyKey)
      let receipt := (store.state request.vault).receipts.lookup key
      match receipt.filter (request.now < ·.expiresAt) with
      | none =>
        -- a receipt that has expired is popped
        { store with vaults := popReceipt request.vault key store.vaults }.putAnew library
          limits scope envelope request
      | some receipt =>
        if receipt.attempt ≠ ⟨request.expectedRevision, library.fingerprint envelope⟩ then
          (store, .error opaqueStorageConflict)
        else if scope.admits receipt.response then (store, .ok (.replayed receipt.response))
        else (store, .error receiptTypeMismatch)

def OpaqueStore.putMetadata (envelope : MetadataEnvelope) (request : WriteRequest)
    (store : OpaqueStore Fingerprint) : OpaqueStore Fingerprint × Except String Reply :=
  if envelope.vaultId ≠ request.vault.2 then (store, .error invalidOpaqueStorageRequest)
  else store.put library limits .metadata (.metadata envelope) request

def OpaqueStore.putObject (objectId : String) (envelope : CiphertextEnvelope)
    (request : WriteRequest) (store : OpaqueStore Fingerprint) :
    OpaqueStore Fingerprint × Except String Reply :=
  if envelope.objectId ≠ objectId then (store, .error invalidOpaqueStorageRequest)
  else store.put library limits (.object objectId) (.ciphertext envelope) request

def OpaqueStore.appendPatch (envelope : CiphertextEnvelope) (request : WriteRequest)
    (store : OpaqueStore Fingerprint) : OpaqueStore Fingerprint × Except String Reply :=
  store.put library limits .patches (.ciphertext envelope) request

def OpaqueStore.putSnapshot (envelope : CiphertextEnvelope) (request : WriteRequest)
    (store : OpaqueStore Fingerprint) : OpaqueStore Fingerprint × Except String Reply :=
  store.put library limits .snapshot (.ciphertext envelope) request

end Put

/-! ## Reads -/

namespace OpaqueStore

variable (vault : VaultKey) (store : OpaqueStore Fingerprint)

def getMetadata : Except String MetadataEnvelope :=
  match (store.vaults.lookup vault).bind (·.metadata) with
  | none => .error opaqueStorageNotFound
  | some envelope => .ok envelope

def getObject (objectId : String) : Except String CiphertextEnvelope :=
  match (store.vaults.lookup vault).bind (·.objects.lookup objectId) with
  | none => .error opaqueStorageNotFound
  | some envelope => .ok envelope

def getSnapshot : Except String CiphertextEnvelope :=
  match (store.vaults.lookup vault).bind (·.snapshot) with
  | none => .error opaqueStorageNotFound
  | some envelope => .ok envelope

end OpaqueStore

/-! ## Pages of patches -/

/-- `OpaqueCiphertextPageModel` -/
structure CiphertextPage where
  objects : List CiphertextEnvelope
  nextCursor : Option String
deriving DecidableEq

namespace OpaqueStore

/-- What `_prune_expired_cursors` does with a token that it pops -/
def dropCursor (now : ℚ) (token : String) (cursors : Dict String Cursor) : Dict String Cursor :=
  if (cursors.lookup token).any (·.expiresAt ≤ now) then cursors.erase token else cursors

/-- `_prune_expired_cursors` -/
def pruneCursors (now : ℚ) (store : OpaqueStore Fingerprint) : OpaqueStore Fingerprint :=
  let (_, expiries, cursors) := Expiry.prune now (dropCursor now) maxCursorPrunePerList
    store.cursorExpiries store.cursors
  { store with cursors := cursors, cursorExpiries := expiries }

/-- `_new_cursor`, with the tokens that its eight drawings would give: the first that is not
taken; none where it raises -/
def newCursor (draws : List String) (cursor : Cursor) (store : OpaqueStore Fingerprint) :
    Option (String × OpaqueStore Fingerprint) :=
  match (draws.take 8).find? fun token => decide (token ∉ store.cursors) with
  | none => none
  | some token => some (token, { store with
      cursors := store.cursors.insert token cursor
      cursorExpiries := Expiry.push
        ⟨cursor.expiresAt, store.nextCursorExpirySequence + 1, token⟩ store.cursorExpiries
      nextCursorExpirySequence := store.nextCursorExpirySequence + 1 })

/-- `_page`, for a cursor that is there or for a new walk -/
def page (vault : VaultKey) (patches : List CiphertextEnvelope) (start endAt pageSize : Nat)
    (known : Option (String × Cursor)) (now : ℚ) (draws : List String)
    (store : OpaqueStore Fingerprint) :
    OpaqueStore Fingerprint × Except String CiphertextPage :=
  if ¬(1 ≤ pageSize ∧ pageSize ≤ maxPageSize ∧ start ≤ endAt ∧ endAt ≤ patches.length) then
    (store, .error invalidOpaqueStorageRequest)
  else
    let stop := min (start + pageSize) endAt
    let objects := (patches.take stop).drop start
    if stop < endAt then
      match known.bind (·.2.nextCursor) with
      | some next => (store, .ok ⟨objects, some next⟩)
      | none =>
        match store.newCursor draws
            ⟨vault, stop, endAt, pageSize, now + cursorLifetimeSeconds, none⟩ with
        | none => (store, .error entropyRepeated)
        | some (next, store) =>
          match known with
          | none => (store, .ok ⟨objects, some next⟩)
          | some (token, cursor) =>
            ({ store with cursors :=
                store.cursors.insert token { cursor with nextCursor := some next } },
              .ok ⟨objects, some next⟩)
    else (store, .ok ⟨objects, none⟩)

def listPatches (vault : VaultKey) (cursor : Option String) (pageSize : Option Nat) (now : ℚ)
    (draws : List String) (store : OpaqueStore Fingerprint) :
    OpaqueStore Fingerprint × Except String CiphertextPage :=
  match store.clockNow now with
  | none => (store, .error invalidOpaqueStorageRequest)
  | some store =>
    let store := store.pruneCursors now
    let patches := (store.state vault).patchLog
    match cursor with
    | none =>
      let resolved := (pageSize.filter (· ≠ 0)).getD defaultPageSize
      store.page vault patches 0 patches.length resolved none now draws
    | some token =>
      match store.cursors.lookup token with
      | none => (store, .error invalidOpaqueStorageRequest)
      | some record =>
        if record.expiresAt ≤ now then
          ({ store with cursors := store.cursors.erase token },
            .error invalidOpaqueStorageRequest)
        else if record.vault ≠ vault ∨ pageSize.any (· ≠ record.pageSize) then
          (store, .error invalidOpaqueStorageRequest)
        else
          store.page vault patches record.start record.endAt record.pageSize
            (some (token, record)) now draws

end OpaqueStore

inductive StoreCall
  | putMetadata (envelope : MetadataEnvelope) (request : WriteRequest)
  | putObject (objectId : String) (envelope : CiphertextEnvelope) (request : WriteRequest)
  | appendPatch (envelope : CiphertextEnvelope) (request : WriteRequest)
  | putSnapshot (envelope : CiphertextEnvelope) (request : WriteRequest)
  | getMetadata (vault : VaultKey)
  | getObject (vault : VaultKey) (objectId : String)
  | getSnapshot (vault : VaultKey)
  | listPatches (vault : VaultKey) (cursor : Option String) (pageSize : Option Nat) (now : ℚ)
      (draws : List String)

inductive StoreAnswer
  | reply (reply : Reply)
  | envelope (envelope : StorageEnvelope)
  | page (page : CiphertextPage)
deriving DecidableEq

def OpaqueStore.perform [DecidableEq Fingerprint] (library : EnvelopeLibrary Fingerprint) (limits : RetainedLimits)
    (store : OpaqueStore Fingerprint) :
    StoreCall → OpaqueStore Fingerprint × Except String StoreAnswer
  | .putMetadata envelope request =>
    (store.putMetadata library limits envelope request).map id (·.map .reply)
  | .putObject objectId envelope request =>
    (store.putObject library limits objectId envelope request).map id (·.map .reply)
  | .appendPatch envelope request =>
    (store.appendPatch library limits envelope request).map id (·.map .reply)
  | .putSnapshot envelope request =>
    (store.putSnapshot library limits envelope request).map id (·.map .reply)
  | .getMetadata vault => (store, (store.getMetadata vault).map fun found => .envelope (.metadata found))
  | .getObject vault objectId =>
    (store, (store.getObject vault objectId).map fun found => .envelope (.ciphertext found))
  | .getSnapshot vault =>
    (store, (store.getSnapshot vault).map fun found => .envelope (.ciphertext found))
  | .listPatches vault cursor pageSize now draws =>
    (store.listPatches vault cursor pageSize now draws).map id (·.map .page)

/-- A call and its answer. -/
structure StoreEvent where
  call : StoreCall
  answer : Except String StoreAnswer

/-- A call of some client: the lock takes one at a time. -/
def OpaqueStore.Step [DecidableEq Fingerprint] (library : EnvelopeLibrary Fingerprint) (limits : RetainedLimits)
    (before : OpaqueStore Fingerprint) (event : StoreEvent) (after : OpaqueStore Fingerprint) : Prop :=
  before.perform library limits event.call = (after, event.answer)

end JobAgg.VaultApi
