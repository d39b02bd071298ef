import JobAgg.SemanticHistory.Again
import JobAgg.SemanticHistory.PlainCodec

/-! # What the writer accepts

In a store whose rows stand under their own hashes, a record without a blob is accepted
when each of its nodes is short and all of them fit. Nothing else limits a payload.
-/

namespace JobAgg.SemanticHistory

/-- Every row stands under the hash of what it holds. -/
structure Addressed (codec : Codec) (store : Store) : Prop where
  objects : ∀ key object, lookup key store.objects = some object →
    codec.objectId object.payload = key ∧ object.sizeBytes = codec.objectLength object.payload
  subjects : ∀ key identity, lookup key store.subjects = some identity →
    codec.subjectId identity = key
  versions : ∀ key row, lookup key store.versions = some row → ∃ blob,
    bindText blob = .ok row.blobSha256 ∧
      codec.versionId row.subjectId row.entityKind row.entityKey row.objectId blob = key

theorem addressed_empty (codec : Codec) (stream : String) :
    Addressed codec { stream } := by
  constructor <;> simp

variable (codec : Codec)

def nodeCost (node : Node) : ℕ := codec.objectLength node + 256

mutual

/-- The bytes of all nodes of a value, shared ones counted at every place. -/
def treeCost : Json → ℕ
  | .array items => itemsCost items + nodeCost codec (.list (treeIds codec items))
  | .object fields => fieldsCost fields + nodeCost codec (.map (treePairs codec fields))
  | .null => nodeCost codec (.value .null)
  | .bool flag => nodeCost codec (.value (.bool flag))
  | .number numeral => nodeCost codec (.value (.number numeral))
  | .string text => nodeCost codec (.value (.string text))

def itemsCost : List Json → ℕ
  | [] => 0
  | item :: items => treeCost item + itemsCost items

def fieldsCost : Fields → ℕ
  | [] => 0
  | (_, value) :: fields => treeCost value + fieldsCost fields

end

mutual

/-- Every node of a value is within `MAX_OBJECT_BYTES`. -/
def Short : Json → Prop
  | .array items =>
    ShortItems items ∧ codec.objectLength (.list (treeIds codec items)) ≤ maxObjectBytes
  | .object fields =>
    ShortFields fields ∧ codec.objectLength (.map (treePairs codec fields)) ≤ maxObjectBytes
  | .null => codec.objectLength (.value .null) ≤ maxObjectBytes
  | .bool flag => codec.objectLength (.value (.bool flag)) ≤ maxObjectBytes
  | .number numeral => codec.objectLength (.value (.number numeral)) ≤ maxObjectBytes
  | .string text => codec.objectLength (.value (.string text)) ≤ maxObjectBytes

def ShortItems : List Json → Prop
  | [] => True
  | item :: items => Short item ∧ ShortItems items

def ShortFields : Fields → Prop
  | [] => True
  | (_, value) :: fields => Short value ∧ ShortFields fields

end

variable {codec : Codec} {store : Store}

/-- What an accepted write leaves. -/
structure Room (codec : Codec) (store later : Store) (cost : ℕ) : Prop where
  addressed : Addressed codec later
  used : later.used codec ≤ store.used codec + cost
  maxBytes : later.maxBytes = store.maxBytes
  coverage : later.coverage = store.coverage
  spans : later.spans = store.spans

theorem putNode_accepts (injective : codec.Injective) (addressed : Addressed codec store)
    {node : Node} (short : codec.objectLength node ≤ maxObjectBytes)
    (room : store.used codec + nodeCost codec node ≤ store.maxBytes) :
    ∃ later, putNode codec node store = .ok (later, codec.objectId node) ∧
      Room codec store later (nodeCost codec node) := by
  cases found : lookup (codec.objectId node) store.objects with
  | some old =>
    rcases addressed.objects _ old found with ⟨sameId, sameSize⟩
    have samePayload := injective.object sameId
    refine ⟨store, ?_, addressed, Nat.le_add_right _ _, rfl, rfl, rfl⟩
    simp [putNode, require, short, found, samePayload, sameSize, bind, Except.bind, pure,
      Except.pure]
  | none =>
    refine ⟨{ store with objects := store.objects ++
      [(codec.objectId node, ⟨node, codec.objectLength node⟩)] }, ?_, ?_, ?_, rfl, rfl, rfl⟩
    · rw [nodeCost] at room
      simp [putNode, capacity, require, short, found, room, bind, Except.bind, pure, Except.pure]
    · refine ⟨fun key object present => ?_, addressed.subjects, addressed.versions⟩
      simp only [lookup_append, lookup_cons, lookup_nil] at present
      cases old : lookup key store.objects with
      | some row =>
        rw [old] at present
        cases present
        exact addressed.objects key object old
      | none =>
        rw [old, Option.none_or] at present
        split at present
        · rename_i sameKey
          cases present
          exact ⟨sameKey, rfl⟩
        · cases present
    · simp only [Store.used, List.map_append, List.map_cons, List.map_nil, List.sum_append,
        List.sum_cons, List.sum_nil, nodeCost]
      omega

mutual

theorem putTree_accepts (injective : codec.Injective) : ∀ {value : Json} {store : Store},
    Addressed codec store → Short codec value →
    store.used codec + treeCost codec value ≤ store.maxBytes →
    ∃ later, putTree codec value store = .ok (later, treeId codec value) ∧
      Room codec store later (treeCost codec value)
  | .array items, store => by
    intro addressed short room
    rw [Short] at short
    rw [treeCost] at room ⊢
    rcases putItems_accepts injective addressed short.1 (by omega) with ⟨middle, below, left⟩
    have used := left.used
    have maxBytes := left.maxBytes
    rcases putNode_accepts injective left.addressed short.2 (by omega) with
      ⟨later, top, all⟩
    refine ⟨later, ?_, all.addressed, ?_, all.maxBytes.trans left.maxBytes,
      all.coverage.trans left.coverage, all.spans.trans left.spans⟩
    · rw [putTree, below, treeId]
      exact top
    · have last := all.used
      omega
  | .object fields, store => by
    intro addressed short room
    rw [Short] at short
    rw [treeCost] at room ⊢
    rcases putFields_accepts injective addressed short.1 (by omega) with ⟨middle, below, left⟩
    have used := left.used
    have maxBytes := left.maxBytes
    rcases putNode_accepts injective left.addressed short.2 (by omega) with
      ⟨later, top, all⟩
    refine ⟨later, ?_, all.addressed, ?_, all.maxBytes.trans left.maxBytes,
      all.coverage.trans left.coverage, all.spans.trans left.spans⟩
    · rw [putTree, below, treeId]
      exact top
    · have last := all.used
      omega
  | .null, _ => fun addressed short room => putNode_accepts injective addressed short room
  | .bool _, _ => fun addressed short room => putNode_accepts injective addressed short room
  | .number _, _ => fun addressed short room => putNode_accepts injective addressed short room
  | .string _, _ => fun addressed short room => putNode_accepts injective addressed short room

theorem putItems_accepts (injective : codec.Injective) : ∀ {items : List Json} {store : Store},
    Addressed codec store → ShortItems codec items →
    store.used codec + itemsCost codec items ≤ store.maxBytes →
    ∃ later, putItems codec items store = .ok (later, treeIds codec items) ∧
      Room codec store later (itemsCost codec items)
  | [], store => by
    intro addressed _ _
    exact ⟨store, rfl, addressed, by simp [itemsCost], rfl, rfl, rfl⟩
  | item :: items, store => by
    intro addressed short room
    rw [ShortItems] at short
    rw [itemsCost] at room ⊢
    rcases putTree_accepts injective addressed short.1 (by omega) with ⟨middle, first, left⟩
    have used := left.used
    have maxBytes := left.maxBytes
    rcases putItems_accepts injective left.addressed short.2 (by omega) with
      ⟨later, rest, all⟩
    refine ⟨later, ?_, all.addressed, ?_, all.maxBytes.trans left.maxBytes,
      all.coverage.trans left.coverage, all.spans.trans left.spans⟩
    · simp only [putItems, first, ok_bind, rest, treeIds]
      rfl
    · have last := all.used
      omega

theorem putFields_accepts (injective : codec.Injective) : ∀ {fields : Fields} {store : Store},
    Addressed codec store → ShortFields codec fields →
    store.used codec + fieldsCost codec fields ≤ store.maxBytes →
    ∃ later, putFields codec fields store = .ok (later, treePairs codec fields) ∧
      Room codec store later (fieldsCost codec fields)
  | [], store => by
    intro addressed _ _
    exact ⟨store, rfl, addressed, by simp [fieldsCost], rfl, rfl, rfl⟩
  | (name, value) :: fields, store => by
    intro addressed short room
    rw [ShortFields] at short
    rw [fieldsCost] at room ⊢
    rcases putTree_accepts injective addressed short.1 (by omega) with ⟨middle, first, left⟩
    have used := left.used
    have maxBytes := left.maxBytes
    rcases putFields_accepts injective left.addressed short.2 (by omega) with
      ⟨later, rest, all⟩
    refine ⟨later, ?_, all.addressed, ?_, all.maxBytes.trans left.maxBytes,
      all.coverage.trans left.coverage, all.spans.trans left.spans⟩
    · simp only [putFields, first, ok_bind, rest, treePairs]
      rfl
    · have last := all.used
      omega

end

def rowCost : ℕ := 1024

def identityCost (codec : Codec) (identity : Identity) : ℕ := 1024 + codec.subjectLength identity

theorem subject_accepts (injective : codec.Injective) (addressed : Addressed codec store)
    {row : Fields} (identified : ((Identity.ofRow row).sourceId.truthy &&
      (Identity.ofRow row).originJobKey.truthy) = true)
    (room : store.used codec + identityCost codec (Identity.ofRow row) ≤ store.maxBytes) :
    ∃ later, subject codec row store = .ok (later, codec.subjectId (Identity.ofRow row)) ∧
      Room codec store later (identityCost codec (Identity.ofRow row)) := by
  cases found : lookup (codec.subjectId (Identity.ofRow row)) store.subjects with
  | some old =>
    have same := injective.subject (addressed.subjects _ old found)
    refine ⟨store, ?_, addressed, Nat.le_add_right _ _, rfl, rfl, rfl⟩
    simp only [subject, identified, found]
    simp [require, same, bind, Except.bind, pure, Except.pure]
  | none =>
    refine ⟨{ store with subjects := store.subjects ++
      [(codec.subjectId (Identity.ofRow row), Identity.ofRow row)] }, ?_, ?_, ?_, rfl, rfl, rfl⟩
    · rw [identityCost] at room
      simp only [subject, identified, found]
      simp [require, capacity, room, bind, Except.bind, pure, Except.pure]
    · refine ⟨addressed.objects, fun key identity present => ?_, addressed.versions⟩
      simp only [lookup_append, lookup_cons, lookup_nil] at present
      cases old : lookup key store.subjects with
      | some row =>
        rw [old] at present
        cases present
        exact addressed.subjects key identity old
      | none =>
        rw [old, Option.none_or] at present
        split at present
        · rename_i sameKey
          cases present
          exact sameKey
        · cases present
    · simp only [Store.used, List.map_append, List.map_cons, List.map_nil, List.sum_append,
        List.sum_cons, List.sum_nil, List.length_append, List.length_cons, List.length_nil,
        identityCost]
      omega

theorem addVersion_accepts (injective : codec.Injective) (addressed : Addressed codec store)
    (subjectId kind entityKey objectId : String)
    (room : store.used codec + rowCost ≤ store.maxBytes) :
    ∃ later, addVersion codec subjectId kind entityKey objectId .null store =
      .ok (later, codec.versionId subjectId kind entityKey objectId .null) ∧
      Room codec store later rowCost := by
  cases found : lookup (codec.versionId subjectId kind entityKey objectId .null)
      store.versions with
  | some old =>
    rcases addressed.versions _ old found with ⟨blob, bound, same⟩
    rcases injective.version same with ⟨rfl, rfl, rfl, rfl, rfl⟩
    have noBlob : old.blobSha256 = none := (Except.ok.inj bound).symm
    have nullColumn : columnValue old.blobSha256 = .null := by
      rw [noBlob]
      rfl
    refine ⟨store, ?_, addressed, Nat.le_add_right _ _, rfl, rfl, rfl⟩
    simp only [addVersion, found, nullColumn, require, and_self, decide_true, if_true, ok_bind]
    rfl
  | none =>
    refine ⟨{ store with versions := store.versions ++
      [(codec.versionId subjectId kind entityKey objectId .null,
        ⟨subjectId, kind, entityKey, objectId, none⟩)] }, ?_, ?_, ?_, rfl, rfl, rfl⟩
    · rw [rowCost] at room
      simp [addVersion, found, blobBytes, Json.truthy, capacity, require, room, bindText, bind,
        Except.bind, pure, Except.pure]
    · refine ⟨addressed.objects, addressed.subjects, fun key row present => ?_⟩
      simp only [lookup_append, lookup_cons, lookup_nil] at present
      cases old : lookup key store.versions with
      | some previous =>
        rw [old] at present
        cases present
        exact addressed.versions key row old
      | none =>
        rw [old, Option.none_or] at present
        split at present
        · rename_i sameKey
          cases present
          exact ⟨.null, rfl, sameKey⟩
        · cases present
    · have blobs : ∀ key : String, (store.versions ++ [(codec.versionId subjectId kind entityKey
          objectId .null, Version.mk subjectId kind entityKey objectId none)]).any
          (fun version => version.2.blobSha256 == some key) =
            store.versions.any fun version => version.2.blobSha256 == some key := by
        intro key
        simp
      simp only [Store.used, blobs, List.length_append, List.length_cons, List.length_nil, rowCost]
      omega

variable (codec) in
/-- What an accepted observation leaves. -/
structure Seen (store later : Store) (most : ℕ) : Prop where
  others : ∃ spans, later = { store with spans }
  few : ∀ span ∈ later.spans, span.observations ≤ most + 1
  used : later.used codec ≤ store.used codec + rowCost

theorem insert_seen (span : Span) {most : ℕ} (once : span.observations = 1)
    (few : ∀ span ∈ store.spans, span.observations ≤ most) :
    Seen codec store { store with spans := store.spans ++ [span] } most := by
  refine ⟨⟨_, rfl⟩, ?_, ?_⟩
  · intro other member
    rcases List.mem_append.mp member with old | new
    · exact Nat.le_succ_of_le (few other old)
    · rw [List.mem_singleton.mp new, once]
      omega
  · simp only [Store.used, List.length_append, List.length_cons, List.length_nil, rowCost]
    omega

theorem observe_accepts (codec : Codec) (subjectId entityKey versionId : String) {observed : Json}
    (operationKey : Option String) {most : ℕ} {text : Option String}
    (few : ∀ span ∈ store.spans, span.observations ≤ most) (bounded : most < 9223372036854775806)
    (bound : bindText observed = .ok text) (room : store.used codec + rowCost ≤ store.maxBytes) :
    ∃ later, observe codec subjectId entityKey versionId observed operationKey store = .ok later ∧
      Seen codec store later most := by
  have fits : capacity codec store 1024 = .ok () := by
    rw [rowCost] at room
    simp [capacity, require, room]
  cases found : lastSpan store subjectId entityKey with
  | none =>
    refine ⟨_, ?_, insert_seen ⟨⟨store.stream, subjectId, entityKey, 1⟩, versionId, text, text,
      1, operationKey⟩ rfl few⟩
    simp only [observe, found, fits, ok_bind, bound]
    rfl
  | some span =>
    have before := few span (entity_of_lastSpan found).1
    by_cases same : span.versionId = versionId
    · cases isSettled : settled span.lastAt span.lastOperation observed operationKey with
      | true =>
        refine ⟨store, ?_, ⟨_, rfl⟩, fun other member => Nat.le_succ_of_le (few other member),
          Nat.le_add_right _ _⟩
        simp [observe, found, same, isSettled, pure, Except.pure]
      | false =>
        refine ⟨{ store with
          spans := updateWhere (fun other => other.key == span.key)
            (Span.seen text operationKey) store.spans }, ?_, ⟨_, rfl⟩, ?_, ?_⟩
        · have counted : span.observations < 9223372036854775806 := by omega
          simp only [observe, found, if_pos same, isSettled, Bool.false_eq_true, if_false,
            require, counted, decide_true, if_true, ok_bind, bound]
          rfl
        · intro other member
          rcases mem_updateWhere.mp member with ⟨old, present, rfl⟩
          have before := few old present
          split
          · exact Nat.succ_le_succ before
          · exact Nat.le_succ_of_le before
        · simp only [Store.used, length_updateWhere]
          exact Nat.le_add_right _ _
    · refine ⟨_, ?_, insert_seen ⟨⟨store.stream, subjectId, entityKey,
        span.key.episode + 1⟩, versionId, text, text, 1, operationKey⟩ rfl few⟩
      simp only [observe, found, if_neg same, fits, ok_bind, bound]
      rfl

def recordCost (codec : Codec) (record : Record) : ℕ :=
  identityCost codec record.identity + treeCost codec record.payload.sortKeys + rowCost + rowCost

structure Acceptable (codec : Codec) (record : Record) : Prop where
  identified : (record.identity.sourceId.truthy && record.identity.originJobKey.truthy) = true
  noBlob : record.blob = .null
  short : Short codec record.payload.sortKeys
  timed : ∃ text, bindText record.observed = .ok text

structure Accepted (codec : Codec) (store later : Store) (cost most : ℕ) : Prop where
  addressed : Addressed codec later
  few : ∀ span ∈ later.spans, span.observations ≤ most
  used : later.used codec ≤ store.used codec + cost
  maxBytes : later.maxBytes = store.maxBytes
  coverage : later.coverage = store.coverage

theorem preserve_accepts (injective : codec.Injective) (addressed : Addressed codec store)
    {record : Record} (acceptable : Acceptable codec record) {most : ℕ}
    (few : ∀ span ∈ store.spans, span.observations ≤ most) (bounded : most < 9223372036854775806)
    (room : store.used codec + recordCost codec record ≤ store.maxBytes) :
    ∃ later, preserve codec record store = .ok (later, record.versionId codec) ∧
      Accepted codec store later (recordCost codec record) (most + 1) := by
  rcases acceptable.timed with ⟨text, bound⟩
  rw [recordCost, Record.identity] at room ⊢
  rcases subject_accepts injective addressed acceptable.identified (by omega) with
    ⟨first, named, one⟩
  have usedOne := one.used
  have maxOne := one.maxBytes
  rcases putTree_accepts injective one.addressed acceptable.short (by omega) with
    ⟨second, put, two⟩
  have usedTwo := two.used
  have maxTwo := two.maxBytes
  rcases addVersion_accepts injective two.addressed (record.subjectId codec) record.kind
    record.entityKey (treeId codec record.payload.sortKeys) (by omega) with ⟨third, added, three⟩
  have usedThree := three.used
  have maxThree := three.maxBytes
  have fewLater : ∀ span ∈ third.spans, span.observations ≤ most := by
    rw [three.spans, two.spans, one.spans]
    exact few
  rcases observe_accepts codec (record.subjectId codec) record.entityKey (record.versionId codec)
    record.operationKey fewLater bounded bound (by omega) with
    ⟨last, observed, ⟨spans, rfl⟩, fewLast, usedLast⟩
  have noBlob : verifyGiven codec store record.blob = .ok () := by
    rw [acceptable.noBlob]
    rfl
  refine ⟨{ third with spans }, ?_,
    ⟨three.addressed.objects, three.addressed.subjects, three.addressed.versions⟩,
    fewLast, ?_, maxThree.trans (maxTwo.trans maxOne),
    three.coverage.trans (two.coverage.trans one.coverage)⟩
  · rw [← acceptable.noBlob] at added
    unfold Record.versionId at observed
    unfold Record.subjectId Record.identity at added observed
    simp only [preserve, noBlob, ok_bind, version, named, putObject, put, added, observed]
    rfl
  · have last : Store.used codec { third with spans } ≤ third.used codec + rowCost := usedLast
    omega

theorem preserveEach_accepts (injective : codec.Injective) {records : List Record}
    (acceptable : ∀ record ∈ records, Acceptable codec record) {most : ℕ}
    (addressed : Addressed codec store) (few : ∀ span ∈ store.spans, span.observations ≤ most)
    (bounded : most + records.length < 9223372036854775806)
    (room : store.used codec + (records.map (recordCost codec)).sum ≤ store.maxBytes) :
    ∃ later, preserveEach codec (records.map .ok) store =
      .ok (later, records.map fun record => (record.versionId codec, record)) ∧
      Accepted codec store later (records.map (recordCost codec)).sum (most + records.length) := by
  induction records generalizing store most with
  | nil => exact ⟨store, rfl, addressed, few, Nat.le_add_right _ _, rfl, rfl⟩
  | cons record records induction =>
    simp only [List.map_cons, List.sum_cons] at room ⊢
    rw [List.length_cons] at bounded ⊢
    rcases preserve_accepts injective addressed (acceptable record List.mem_cons_self) few
      (by omega) (by omega) with ⟨middle, first, one⟩
    have used := one.used
    have maxBytes := one.maxBytes
    rcases induction (fun other member => acceptable other (List.mem_cons_of_mem _ member))
      one.addressed one.few (by omega) (by omega) with ⟨later, rest, all⟩
    have usedAll := all.used
    refine ⟨later, ?_, all.addressed, fun span member => ?_, by omega,
      all.maxBytes.trans maxBytes, all.coverage.trans one.coverage⟩
    · simp only [preserveEach, ok_bind, first, rest]
      rfl
    · have counted := all.few span member
      omega

end JobAgg.SemanticHistory
