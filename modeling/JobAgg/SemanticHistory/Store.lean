import JobAgg.Foundation.Checked
import JobAgg.Foundation.JsonTree

/-! # The semantic store

The tables of `semantic_history.py` in one database, and the writes of one version:
its subject, the tree of its payload as content-addressed nodes, the version itself
and the span of its observations.
-/

namespace JobAgg.SemanticHistory

abbrev Fields := List (String × Json)

/-- A value that is neither a dictionary nor a list. -/
inductive Atom
  | null
  | bool (value : Bool)
  | number (numeral : String)
  | string (text : String)
  deriving DecidableEq

def Atom.toJson : Atom → Json
  | null => .null
  | bool value => .bool value
  | number numeral => .number numeral
  | string text => .string text

/-- A typed tree node; the values in it are named by their own objects. -/
inductive Node
  | map (items : List (String × String))
  | list (items : List String)
  | value (atom : Atom)
  deriving DecidableEq

structure Object where
  payload : Node
  sizeBytes : ℕ
  deriving DecidableEq

structure Identity where
  sourceId : Json
  externalId : Json
  originJobKey : Json
  deriving DecidableEq

structure Version where
  subjectId : String
  entityKind : String
  entityKey : String
  objectId : String
  blobSha256 : Option String
  deriving DecidableEq

structure SpanKey where
  streamId : String
  subjectId : String
  entityKey : String
  episode : ℕ
  deriving DecidableEq

structure Span where
  key : SpanKey
  versionId : String
  firstAt : Option String
  lastAt : Option String
  observations : ℕ
  lastOperation : Option String
  deriving DecidableEq

structure Artifact where
  path : String
  sha256 : String
  sizeBytes : ℕ
  kind : String
  sourceId : Json
  versionIds : List String
  deriving DecidableEq

structure Coverage where
  subjectKind : String
  subjectId : String
  policyEpoch : String
  database : String
  versionIds : List String
  artifacts : List Artifact
  operationKeys : List String
  deriving DecidableEq

structure Blob where
  mediaType : Option String
  sizeBytes : ℕ
  content : List UInt8
  deriving DecidableEq

/-- The stream is the hash of the database's path. -/
structure Store where
  stream : String
  maxBytes : ℕ := 40000000000
  objects : List (String × Object) := []
  subjects : List (String × Identity) := []
  versions : List (String × Version) := []
  spans : List Span := []
  coverage : List (String × Coverage) := []
  blobs : List (String × Blob) := []

/-- The texts and hashes that rows are stored under: `_hash` of the JSON text of a
node, an identity, a version, a coverage record or a value, the lengths of these
texts, SHA-256 of a blob, `json.loads`, and `==` on values. What `json.loads` gives
has dictionaries of distinct keys. -/
structure Codec where
  objectId : Node → String
  objectLength : Node → ℕ
  subjectId : Identity → String
  subjectLength : Identity → ℕ
  versionId : String → String → String → String → Json → String
  coverageId : Coverage → String
  coverageLength : Coverage → ℕ
  valueHash : Json → String
  sha256 : List UInt8 → String
  loads : String → Option Json
  same : Json → Json → Bool
  loads_distinctKeys : ∀ text value, loads text = some value → value.DistinctKeys

def maxObjectBytes : ℕ := 16 * 1024 * 1024

variable (codec : Codec)

/-- The bytes that `_capacity` counts. -/
def Store.used (store : Store) : ℕ :=
  (store.objects.map fun row => row.2.sizeBytes + 256).sum +
    1024 * (store.subjects.length + store.versions.length + store.spans.length +
      store.coverage.length) +
    (store.coverage.map fun row => codec.coverageLength row.2).sum +
    (store.subjects.map fun row => codec.subjectLength row.2).sum +
    ((store.blobs.filter fun row =>
      store.versions.any fun version => version.2.blobSha256 == some row.1).map
        fun row => row.2.sizeBytes).sum

def capacity (store : Store) (extra : ℕ) : Except String Unit :=
  require (decide (store.used codec + extra ≤ store.maxBytes)) "semantic_history_capacity_deferred"

def putNode (node : Node) (store : Store) : Except String (Store × String) := do
  require (decide (codec.objectLength node ≤ maxObjectBytes)) "semantic_object_capacity_deferred"
  let key := codec.objectId node
  match lookup key store.objects with
  | some old =>
    require (decide (old.payload = node ∧ old.sizeBytes = codec.objectLength node))
      "semantic_object_collision_or_corruption"
    return (store, key)
  | none =>
    capacity codec store (codec.objectLength node + 256)
    return ({ store with
      objects := store.objects ++ [(key, ⟨node, codec.objectLength node⟩)] }, key)

mutual

/-- `_put_object` of a value whose dictionaries are sorted. -/
def putTree : Json → Store → Except String (Store × String)
  | .array items, store => do
    let (store, ids) ← putItems items store
    putNode codec (.list ids) store
  | .object fields, store => do
    let (store, pairs) ← putFields fields store
    putNode codec (.map pairs) store
  | .null, store => putNode codec (.value .null) store
  | .bool flag, store => putNode codec (.value (.bool flag)) store
  | .number numeral, store => putNode codec (.value (.number numeral)) store
  | .string text, store => putNode codec (.value (.string text)) store

def putItems : List Json → Store → Except String (Store × List String)
  | [], store => .ok (store, [])
  | item :: items, store => do
    let (store, id) ← putTree item store
    let (store, ids) ← putItems items store
    return (store, id :: ids)

def putFields : Fields → Store → Except String (Store × List (String × String))
  | [], store => .ok (store, [])
  | (name, value) :: fields, store => do
    let (store, id) ← putTree value store
    let (store, pairs) ← putFields fields store
    return (store, (name, id) :: pairs)

end

/-- `_put_object`; each dictionary is taken as `sorted(value.items())`. -/
def putObject (value : Json) (store : Store) : Except String (Store × String) :=
  putTree codec value.sortKeys store

def Identity.ofRow (row : Fields) : Identity :=
  ⟨(Json.get "source_id" row).sortKeys, (Json.get "external_id" row).sortKeys,
    (Json.get "job_key" row).sortKeys⟩

def subject (row : Fields) (store : Store) : Except String (Store × String) := do
  let identity := Identity.ofRow row
  require (identity.sourceId.truthy && identity.originJobKey.truthy)
    "semantic_subject_identity_missing"
  let key := codec.subjectId identity
  match lookup key store.subjects with
  | some old =>
    require (decide (old = identity)) "semantic_subject_conflict"
    return (store, key)
  | none =>
    capacity codec store (1024 + codec.subjectLength identity)
    return ({ store with subjects := store.subjects ++ [(key, identity)] }, key)

def bindText : Json → Except String (Option String)
  | .null => .ok none
  | .bool true => .ok (some "1")
  | .bool false => .ok (some "0")
  | .number numeral => .ok (some numeral)
  | .string text => .ok (some text)
  | .array _ => .error "type 'list' is not supported"
  | .object _ => .error "type 'dict' is not supported"

def columnValue (column : Option String) : Json := column.elim .null .string

def blobBytes (store : Store) (blob : Json) : Except String ℕ := do
  if !blob.truthy then return 0
  let digest ← bindText blob
  if store.versions.any fun row => row.2.blobSha256 == digest then return 0
  match digest.bind (lookup · store.blobs) with
  | some row => return row.sizeBytes
  | none => .error "TypeError"

def addVersion (subjectId kind entityKey objectId : String) (blob : Json) (store : Store) :
    Except String (Store × String) := do
  let key := codec.versionId subjectId kind entityKey objectId blob
  match lookup key store.versions with
  | some old =>
    require (decide (old = ⟨subjectId, kind, entityKey, objectId, old.blobSha256⟩ ∧
      columnValue old.blobSha256 = blob)) "semantic_version_conflict"
    return (store, key)
  | none =>
    let bytes ← blobBytes store blob
    capacity codec store (1024 + bytes)
    let blobSha256 ← bindText blob
    return ({ store with
      versions := store.versions ++ [(key, ⟨subjectId, kind, entityKey, objectId, blobSha256⟩)] },
      key)

/-- `ORDER BY episode DESC LIMIT 1`. -/
def lastSpan (store : Store) (subjectId entityKey : String) : Option Span :=
  (orderByDesc (fun span => span.key.episode) (store.spans.filter fun span =>
    span.key.streamId == store.stream && span.key.subjectId == subjectId &&
      span.key.entityKey == entityKey)).head?

def given (operationKey : Option String) : Bool := operationKey.any (· != "")

def settled (lastAt lastOperation : Option String) (observed : Json)
    (operationKey : Option String) : Bool :=
  given operationKey && lastOperation == operationKey ||
    !given operationKey && decide (columnValue lastAt = observed)

def observe (subjectId entityKey versionId : String) (observed : Json)
    (operationKey : Option String) (store : Store) : Except String Store := do
  let insert := fun episode => do
    capacity codec store 1024
    let at_ ← bindText observed
    return { store with
      spans := store.spans ++ [{
        key := ⟨store.stream, subjectId, entityKey, episode⟩, versionId, firstAt := at_
        lastAt := at_, observations := 1, lastOperation := operationKey }] }
  match lastSpan store subjectId entityKey with
  | none => insert 1
  | some span =>
    if span.versionId = versionId then
      if settled span.lastAt span.lastOperation observed operationKey then return store
      else do
        require (decide (span.observations < 9223372036854775806))
          "semantic_observation_counter_exhausted"
        let lastAt ← bindText observed
        return { store with
          spans := updateWhere (fun other => other.key == span.key)
            (fun other => { other with
              lastAt, observations := other.observations + 1, lastOperation := operationKey })
            store.spans }
    else insert (span.key.episode + 1)

/-- The arguments of one call of `_version`. -/
structure Record where
  row : Fields
  kind : String
  entityKey : String
  payload : Json
  observedAt : Json := .null
  operationKey : Option String := none
  blob : Json := .null

/-- `left or right`. -/
def orElse (left right : Json) : Json := if left.truthy then left else right

def Record.observed (record : Record) : Json :=
  orElse (orElse record.observedAt (Json.get "last_seen_at" record.row))
    (Json.get "first_seen_at" record.row)

def version (record : Record) (store : Store) : Except String (Store × String) := do
  let (store, subjectId) ← subject codec record.row store
  let (store, objectId) ← putObject codec record.payload store
  let (store, versionId) ← addVersion codec subjectId record.kind record.entityKey objectId
    record.blob store
  let store ← observe codec subjectId record.entityKey versionId record.observed
    record.operationKey store
  return (store, versionId)

end JobAgg.SemanticHistory
