import JobAgg.SemanticHistory.Acceptance
import JobAgg.SemanticHistory.Copy

/-! # Versions read back

In every store that preserve and copy calls reach, a returned version reads back as it
was preserved exactly when its payload has no more values than the read budget. The
writer has no such limit.
-/

namespace JobAgg.SemanticHistory

/-- `read_semantic_version` gives the subject, kind, key and payload of the record. -/
def ReadsBack (codec : Codec) (store : Store) (versionId : String) (record : Record) : Prop :=
  ∃ read, readVersion codec store versionId = .ok read ∧ read.subject = record.identity ∧
    read.entityKind = record.kind ∧ read.entityKey = record.entityKey ∧
    read.payload.Same record.payload

variable {codec : Codec} {store source later : Store} {versionId : String} {record : Record}

theorem readsBack_iff (injective : codec.Injective)
    (written : Written codec store versionId record) (distinct : record.payload.DistinctKeys) :
    ReadsBack codec store versionId record ↔
      record.payload.nodes ≤ maxGraphNodes ∧ Textual record.blob := by
  rcases written with ⟨subject, ⟨objectId, column, stored, found, bound, named⟩, verified⟩
  have nothingSeen : Above codec store.objects [] record.payload.sortKeys.nodes := by simp [Above]
  have readPayload := readObject_eq (Json.distinctKeys_sortKeys distinct) stored
    (le_refl maxGraphNodes) nothingSeen
  rw [Json.nodes_sortKeys, within] at readPayload
  rw [textual_iff bound]
  unfold ReadsBack
  simp only [readVersion, found, bind_eq_ok, require_eq_ok, decide_eq_true_eq, subject,
    pure_eq_ok]
  constructor
  · rintro ⟨read, ⟨_, sameId, _, _, _, _, _, readOk, _⟩, _⟩
    rw [readPayload] at readOk
    constructor
    · by_contra tooLarge
      rw [if_neg tooLarge] at readOk
      cases readOk
    · rw [← named] at sameId
      exact (injective.version sameId).2.2.2.2
  · rintro ⟨fits, sameColumn⟩
    rw [if_pos fits] at readPayload
    refine ⟨_, ⟨(), ?_, (), trivial, (), ?_, _, readPayload, rfl⟩, rfl, rfl, rfl, ?_⟩
    · rw [sameColumn, named]
    · rw [sameColumn, verified]
    · exact Json.sortKeys_sortKeys _

/-- The stores that preserve and copy calls reach when every call succeeds, and the
versions they returned, each beside what it preserved. Other writers add blobs and record
coverage. -/
inductive Reached (codec : Codec) : Store → List (String × Record) → Prop
  | start (stream : String) (maxBytes : ℕ) : Reached codec { stream, maxBytes } []
  | job {store later returned versionId record row observedAt operationKey} :
      Reached codec store returned → (Json.object row).DistinctKeys →
      jobRecord codec row observedAt operationKey = .ok record →
      preserveJob codec row observedAt operationKey store = .ok (later, versionId) →
      Reached codec later ((versionId, record) :: returned)
  | document {store later returned versionId record jobs association jobRow observedAt
        operationKey} :
      Reached codec store returned → (Json.object association).DistinctKeys →
      associationRecord codec jobs association jobRow observedAt operationKey = .ok record →
      preserveDocumentAssociation codec jobs association jobRow observedAt operationKey store =
        .ok (later, versionId) →
      Reached codec later ((versionId, record) :: returned)
  | listingFrame {store later returned versionId record frame operationKey} :
      Reached codec store returned → (Json.object frame).DistinctKeys →
      listingRecord frame operationKey = .ok record →
      preserveListingFrame codec frame operationKey store = .ok (later, versionId) →
      Reached codec later ((versionId, record) :: returned)
  | beforeimage {store later returned versions beforeimage sourceId observedAt operationKey} :
      Reached codec store returned → beforeimage.DistinctKeys →
      preserveEach codec (beforeimageRecords codec beforeimage sourceId observedAt operationKey)
        store = .ok (later, versions) →
      Reached codec later (versions ++ returned)
  | copy {source target later returned copied} :
      Reached codec target returned → Reached codec source copied →
      copySemanticHistory codec source target = .ok later →
      Reached codec later (copied ++ returned)
  | blob {store returned digest blob} :
      Reached codec store returned → lookup digest store.blobs = none →
      Reached codec { store with blobs := store.blobs ++ [(digest, blob)] } returned
  | coverage {store returned coverage} :
      Reached codec store returned → Reached codec { store with coverage } returned

def Sound (codec : Codec) (store : Store) (returned : List (String × Record)) : Prop :=
  ∀ versionId record, (versionId, record) ∈ returned →
    Written codec store versionId record ∧ record.payload.DistinctKeys

theorem Sound.mono {returned : List (String × Record)} (sound : Sound codec store returned)
    (kept : Kept store later) : Sound codec later returned :=
  fun versionId record member =>
    ⟨(sound versionId record member).1.mono kept, (sound versionId record member).2⟩

theorem Sound.cons {returned : List (String × Record)} (sound : Sound codec store returned)
    (written : Kept store later ∧ Written codec later versionId record)
    (distinct : record.payload.DistinctKeys) :
    Sound codec later ((versionId, record) :: returned) := by
  intro other record' member
  rcases List.mem_cons.mp member with same | member
  · cases same
    exact ⟨written.2, distinct⟩
  · exact sound.mono written.1 other record' member

theorem version_ok_of_null (null : record.blob = .null)
    (written : version codec record store = .ok (later, versionId)) :
    Kept store later ∧ Written codec later versionId record :=
  version_ok written (by rw [null]; rfl)

theorem Reached.sound {returned : List (String × Record)} (reached : Reached codec store returned) :
    Sound codec store returned := by
  induction reached with
  | start => simp [Sound]
  | job _ distinct made written sound =>
    simp only [preserveJob, made, ok_bind] at written
    have noBlob := made
    simp only [jobRecord, bind_eq_ok, pure_eq_ok] at noBlob
    rcases noBlob with ⟨_, _, rfl⟩
    exact sound.cons (version_ok_of_null rfl written) (distinctKeys_jobRecord distinct made)
  | document _ distinct made written sound =>
    simp only [preserveDocumentAssociation, made, ok_bind] at written
    exact sound.cons (preserve_ok written) (distinctKeys_associationRecord distinct made)
  | listingFrame _ distinct made written sound =>
    simp only [preserveListingFrame, made, ok_bind] at written
    have noBlob := made
    simp only [listingRecord, bind_eq_ok, pure_eq_ok] at noBlob
    rcases noBlob with ⟨_, _, rfl⟩
    exact sound.cons (version_ok_of_null rfl written) (distinctKeys_listingRecord distinct made)
  | beforeimage _ distinct written sound =>
    rcases preserveEach_written written with ⟨kept, added⟩
    intro versionId record member
    rcases List.mem_append.mp member with new | old
    · rcases added versionId record new with ⟨whole, present⟩
      exact ⟨whole, distinctKeys_beforeimageRecords distinct present⟩
    · exact sound.mono kept versionId record old
  | copy _ _ copied sound sourceSound =>
    intro versionId record member
    rcases List.mem_append.mp member with new | old
    · rcases sourceSound versionId record new with ⟨written, distinct⟩
      exact ⟨written.copied copied, distinct⟩
    · exact sound.mono (kept_of_copy copied) versionId record old
  | blob _ _ sound => exact sound.mono ⟨.refl, .refl, .refl, includes_append⟩
  | coverage _ sound => exact sound.mono ⟨.refl, .refl, .refl, .refl⟩

section Plain

def zero : Json := .number "0"

def zeroFrame (count : ℕ) : Fields :=
  [("items", .array (List.replicate count zero)), ("source_id", .string "s")]

theorem sortItems_zeros (count : ℕ) :
    Json.sortItems (List.replicate count zero) = List.replicate count zero := by
  induction count with
  | zero => rfl
  | succ count induction =>
    rw [List.replicate_succ, Json.sortItems, induction]
    rfl

theorem sortKeys_zeroFrame (count : ℕ) :
    (Json.object (zeroFrame count)).sortKeys = .object (zeroFrame count) := by
  rw [Json.sortKeys, zeroFrame]
  simp only [Json.sortFields, Json.sortKeys, sortItems_zeros]
  rw [orderBy_eq_self]
  simp

theorem listingPayload_zeroFrame (count : ℕ) :
    listingPayload (zeroFrame count) = zeroFrame count := by
  simp [listingPayload, without, zeroFrame]

theorem nodes_zeroFrame (count : ℕ) : (Json.object (zeroFrame count)).nodes = count + 3 := by
  have items : Json.nodesOfItems (List.replicate count zero) = count := by
    induction count with
    | zero => rfl
    | succ count induction =>
      rw [List.replicate_succ, Json.nodesOfItems, induction]
      simp [zero, Json.nodes]
      omega
  simp [zeroFrame, Json.nodes, Json.nodesOfFields, items]

theorem distinctKeys_zeroFrame (count : ℕ) : (Json.object (zeroFrame count)).DistinctKeys := by
  have items : Json.DistinctItems (List.replicate count zero) := by
    rw [Json.distinctItems_iff]
    intro item member
    rw [List.eq_of_mem_replicate member]
    trivial
  rw [Json.distinctKeys_object]
  simp [zeroFrame, Json.DistinctKeys, items]

/-- The version of a frame with many entries. -/
def zeroRecord (count : ℕ) : Record :=
  { row := [("source_id", .string "s"), ("external_id", .null), ("job_key", .string "source:s")]
    kind := "listing_frame", entityKey := "listing_frame", payload := .object (zeroFrame count) }

theorem listingRecord_zeroFrame (count : ℕ) :
    listingRecord (zeroFrame count) none = .ok (zeroRecord count) := by
  have source : Json.get "source_id" (zeroFrame count) = .string "s" := by
    simp [Json.get, zeroFrame, lookup_cons]
  have observed : Json.get "observed_at" (zeroFrame count) = .null := by
    simp [Json.get, zeroFrame, lookup_cons]
  rw [listingRecord, source, observed, listingPayload_zeroFrame]
  simp [sourceSubject, zeroRecord, pure, Except.pure]

theorem short_zero : Short plainCodec zero := by
  change 64 ≤ 16 * 1024 * 1024
  omega

theorem shortItems_zeros (count : ℕ) : ShortItems plainCodec (List.replicate count zero) := by
  induction count with
  | zero => trivial
  | succ count induction => exact ⟨short_zero, induction⟩

theorem itemsCost_zeros (count : ℕ) :
    itemsCost plainCodec (List.replicate count zero) = 320 * count := by
  induction count with
  | zero => rfl
  | succ count induction =>
    have one : treeCost plainCodec zero = 320 := rfl
    rw [List.replicate_succ, itemsCost, induction, one]
    omega

theorem length_treeIds {items : List Json} : (treeIds codec items).length = items.length := by
  induction items with
  | nil => rfl
  | cons item items induction => simp [treeIds, induction]

theorem length_zeros (count : ℕ) : plainCodec.objectLength
    (.list (treeIds plainCodec (List.replicate count zero))) = 26 + 67 * count := by
  simp [plainCodec, Node.textLength, length_treeIds]

theorem length_zeroFrame (count : ℕ) :
    plainCodec.objectLength (.map (treePairs plainCodec (zeroFrame count))) = 185 := by
  simp only [zeroFrame, treePairs, plainCodec, Node.textLength, List.map_cons, List.map_nil,
    List.sum_cons, List.sum_nil]
  decide

theorem treeCost_zeroFrame (count : ℕ) :
    treeCost plainCodec (.object (zeroFrame count)) = 387 * count + 1043 := by
  rw [treeCost, nodeCost, length_zeroFrame, zeroFrame, fieldsCost, fieldsCost, fieldsCost, treeCost,
    itemsCost_zeros, nodeCost, length_zeros]
  have text : treeCost plainCodec (.string "s") = 320 := rfl
  omega

theorem acceptable_zeroRecord (count : ℕ) (bounded : count ≤ 200000) :
    Acceptable plainCodec (zeroRecord count) := by
  have limit : maxObjectBytes = 16777216 := rfl
  refine ⟨rfl, rfl, ?_, ⟨none, rfl⟩⟩
  rw [zeroRecord, sortKeys_zeroFrame, Short, length_zeroFrame, limit]
  refine ⟨⟨⟨shortItems_zeros count, ?_⟩, ?_, trivial⟩, by omega⟩
  · rw [length_zeros, limit]
    omega
  · rw [Short, limit]
    change 64 ≤ 16777216
    omega

theorem preserve_zeroFrame (count : ℕ) (bounded : count < 200000) :
    ∃ later versionId, preserveListingFrame plainCodec (zeroFrame (count + 1)) none
      { stream := "main" } = .ok (later, versionId) := by
  have cost : recordCost plainCodec (zeroRecord (count + 1)) ≤ 100000000 := by
    have identity : identityCost plainCodec (zeroRecord (count + 1)).identity = 1280 := rfl
    rw [recordCost, identity, zeroRecord, sortKeys_zeroFrame, treeCost_zeroFrame, rowCost]
    omega
  have empty : Store.used plainCodec { stream := "main" } = 0 := rfl
  have few : ∀ span ∈ Store.spans { stream := "main" }, span.observations ≤ 0 := by simp
  have room : Store.used plainCodec { stream := "main" } +
      recordCost plainCodec (zeroRecord (count + 1)) ≤ 40000000000 := by omega
  rcases preserve_accepts plainCodec_injective (addressed_empty plainCodec "main")
    (acceptable_zeroRecord (count + 1) bounded) few (by omega) room with ⟨later, preserved, _⟩
  refine ⟨later, (zeroRecord (count + 1)).versionId plainCodec, ?_⟩
  rw [preserveListingFrame, listingRecord_zeroFrame, ok_bind]
  exact preserved

/-- Each returned version reads back exactly when its payload has at most
`MAX_GRAPH_NODES` values, shared ones counted at every place, and its digest is a text. -/
theorem returned_readsBack (injective : codec.Injective) {returned : List (String × Record)}
    (reached : Reached codec store returned) (member : (versionId, record) ∈ returned) :
    ReadsBack codec store versionId record ↔
      record.payload.nodes ≤ maxGraphNodes ∧ Textual record.blob := by
  rcases reached.sound versionId record member with ⟨written, distinct⟩
  exact readsBack_iff injective written distinct

theorem returned_readsBack_small : ∃ store versionId, plainCodec.Injective ∧
    Reached plainCodec store [(versionId, zeroRecord 3)] ∧
      (ReadsBack plainCodec store versionId (zeroRecord 3) ↔
        (zeroRecord 3).payload.nodes ≤ maxGraphNodes ∧ Textual (zeroRecord 3).blob) := by
  rcases preserve_zeroFrame 2 (by omega) with ⟨store, versionId, preserved⟩
  have reached : Reached plainCodec store [(versionId, zeroRecord 3)] :=
    .listingFrame (.start "main" 40000000000) (distinctKeys_zeroFrame 3)
      (listingRecord_zeroFrame 3) preserved
  exact ⟨store, versionId, plainCodec_injective, reached,
    returned_readsBack plainCodec_injective reached List.mem_cons_self⟩

/-- A frame of 100,003 values is preserved and cannot be read. -/
theorem returned_readsBack_counterexample : ∃ store versionId,
    Reached plainCodec store [(versionId, zeroRecord 100000)] ∧
      ¬ ReadsBack plainCodec store versionId (zeroRecord 100000) := by
  rcases preserve_zeroFrame 99999 (by omega) with ⟨store, versionId, preserved⟩
  have reached : Reached plainCodec store [(versionId, zeroRecord 100000)] :=
    .listingFrame (.start "main" 40000000000) (distinctKeys_zeroFrame 100000)
      (listingRecord_zeroFrame 100000) preserved
  refine ⟨store, versionId, reached, ?_⟩
  rcases reached.sound versionId _ List.mem_cons_self with ⟨written, distinct⟩
  rw [readsBack_iff plainCodec_injective written distinct]
  have size := nodes_zeroFrame 100000
  rintro ⟨small, _⟩
  change (Json.object (zeroFrame 100000)).nodes ≤ 100000 at small
  omega

end Plain

end JobAgg.SemanticHistory
