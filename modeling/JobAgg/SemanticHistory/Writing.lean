import JobAgg.SemanticHistory.Reading

/-! # What a write leaves

Each step of `_version` adds rows to one table and keeps the others, so that what was
stored before is stored after; a version just written, or copied, is stored whole.
-/

namespace JobAgg.SemanticHistory

variable {codec : Codec} {store later : Store}

/-- Every row of the content tables is there afterwards. -/
structure Kept (store later : Store) : Prop where
  objects : Includes store.objects later.objects
  subjects : Includes store.subjects later.subjects
  versions : Includes store.versions later.versions
  blobs : Includes store.blobs later.blobs

theorem Kept.refl : Kept store store := ⟨.refl, .refl, .refl, .refl⟩

theorem Kept.trans {middle : Store} (first : Kept store middle) (second : Kept middle later) :
    Kept store later :=
  ⟨first.objects.trans second.objects, first.subjects.trans second.subjects,
    first.versions.trans second.versions, first.blobs.trans second.blobs⟩

theorem putNode_ok {node : Node} {key : String}
    (written : putNode codec node store = .ok (later, key)) :
    ∃ objects, later = { store with objects } ∧ Includes store.objects objects ∧
      Holds codec objects key node := by
  simp only [putNode, bind_eq_ok, require_eq_ok] at written
  rcases written with ⟨_, _, written⟩
  cases found : lookup (codec.objectId node) store.objects with
  | some old =>
    simp only [found, bind_eq_ok, require_eq_ok, pure_eq_ok, Prod.mk.injEq,
      decide_eq_true_eq] at written
    rcases written with ⟨_, ⟨samePayload, sameSize⟩, rfl, rfl⟩
    refine ⟨store.objects, rfl, .refl, ?_, rfl⟩
    rw [found, ← sameSize, ← samePayload]
  | none =>
    simp only [found, bind_eq_ok, pure_eq_ok, Prod.mk.injEq] at written
    rcases written with ⟨_, _, rfl, rfl⟩
    refine ⟨_, rfl, includes_append, ?_, rfl⟩
    rw [lookup_append, found, lookup_cons]
    simp

mutual

theorem putTree_ok : ∀ {value : Json} {store later : Store} {key : String},
    putTree codec value store = .ok (later, key) → ∃ objects, later = { store with objects } ∧
      Includes store.objects objects ∧ Stored codec objects value key
  | .array items, store, later, key => by
    intro written
    simp only [putTree, bind_eq_ok] at written
    rcases written with ⟨⟨middle, ids⟩, below, top⟩
    rcases putItems_ok below with ⟨objects, rfl, more, storedItems⟩
    rcases putNode_ok top with ⟨objects', rfl, more', held⟩
    refine ⟨objects', rfl, more.trans more', ?_⟩
    rw [Stored]
    exact ⟨ids, held, StoredItems.mono more' storedItems⟩
  | .object fields, store, later, key => by
    intro written
    simp only [putTree, bind_eq_ok] at written
    rcases written with ⟨⟨middle, pairs⟩, below, top⟩
    rcases putFields_ok below with ⟨objects, rfl, more, storedFields⟩
    rcases putNode_ok top with ⟨objects', rfl, more', held⟩
    refine ⟨objects', rfl, more.trans more', ?_⟩
    rw [Stored]
    exact ⟨pairs, held, StoredFields.mono more' storedFields⟩
  | .null, _, _, _ => fun written => putNode_ok written
  | .bool _, _, _, _ => fun written => putNode_ok written
  | .number _, _, _, _ => fun written => putNode_ok written
  | .string _, _, _, _ => fun written => putNode_ok written

theorem putItems_ok : ∀ {items : List Json} {store later : Store} {ids : List String},
    putItems codec items store = .ok (later, ids) → ∃ objects, later = { store with objects } ∧
      Includes store.objects objects ∧ StoredItems codec objects items ids
  | [], store, later, ids => by
    intro written
    cases written
    exact ⟨store.objects, rfl, .refl, rfl⟩
  | item :: items, store, later, ids => by
    intro written
    simp only [putItems, bind_eq_ok, pure_eq_ok, Prod.mk.injEq] at written
    rcases written with ⟨⟨middle, id⟩, first, ⟨last, rest⟩, below, rfl, rfl⟩
    rcases putTree_ok first with ⟨objects, rfl, more, stored⟩
    rcases putItems_ok below with ⟨objects', rfl, more', storedItems⟩
    refine ⟨objects', rfl, more.trans more', ?_⟩
    rw [StoredItems]
    exact ⟨id, rest, rfl, Stored.mono more' stored, storedItems⟩

theorem putFields_ok : ∀ {fields : Fields} {store later : Store}
    {pairs : List (String × String)},
    putFields codec fields store = .ok (later, pairs) → ∃ objects, later = { store with objects } ∧
      Includes store.objects objects ∧ StoredFields codec objects fields pairs
  | [], store, later, pairs => by
    intro written
    cases written
    exact ⟨store.objects, rfl, .refl, rfl⟩
  | (name, value) :: fields, store, later, pairs => by
    intro written
    simp only [putFields, bind_eq_ok, pure_eq_ok, Prod.mk.injEq] at written
    rcases written with ⟨⟨middle, id⟩, first, ⟨last, rest⟩, below, rfl, rfl⟩
    rcases putTree_ok first with ⟨objects, rfl, more, stored⟩
    rcases putFields_ok below with ⟨objects', rfl, more', storedFields⟩
    refine ⟨objects', rfl, more.trans more', ?_⟩
    rw [StoredFields]
    exact ⟨id, rest, rfl, Stored.mono more' stored, storedFields⟩

end

theorem subject_ok {row : Fields} {key : String}
    (written : subject codec row store = .ok (later, key)) :
    ∃ subjects, later = { store with subjects } ∧ Includes store.subjects subjects ∧
      lookup key subjects = some (Identity.ofRow row) ∧
      codec.subjectId (Identity.ofRow row) = key := by
  simp only [subject, bind_eq_ok, require_eq_ok] at written
  rcases written with ⟨_, _, written⟩
  cases found : lookup (codec.subjectId (Identity.ofRow row)) store.subjects with
  | some old =>
    simp only [found, bind_eq_ok, require_eq_ok, pure_eq_ok, Prod.mk.injEq,
      decide_eq_true_eq] at written
    rcases written with ⟨_, rfl, rfl, rfl⟩
    exact ⟨store.subjects, rfl, .refl, found, rfl⟩
  | none =>
    simp only [found, bind_eq_ok, pure_eq_ok, Prod.mk.injEq] at written
    rcases written with ⟨_, _, rfl, rfl⟩
    refine ⟨_, rfl, includes_append, ?_, rfl⟩
    rw [lookup_append, found, lookup_cons]
    simp

theorem bindText_columnValue {column : Option String} :
    bindText (columnValue column) = .ok column := by
  cases column <;> rfl

def Textual (digest : Json) : Prop := digest = .null ∨ ∃ text, digest = .string text

theorem textual_iff {digest : Json} {column : Option String}
    (bound : bindText digest = .ok column) : Textual digest ↔ columnValue column = digest := by
  unfold Textual
  cases digest with
  | null =>
    cases bound
    simp [columnValue]
  | bool flag =>
    cases flag
    · cases bound
      simp [columnValue]
    · cases bound
      simp [columnValue]
  | number numeral =>
    cases bound
    simp [columnValue]
  | string text =>
    cases bound
    simp [columnValue]
  | array items => cases bound
  | object fields => cases bound

theorem addVersion_ok {subjectId kind entityKey objectId key : String} {blob : Json}
    (written : addVersion codec subjectId kind entityKey objectId blob store = .ok (later, key)) :
    ∃ versions, later = { store with versions } ∧ Includes store.versions versions ∧
      codec.versionId subjectId kind entityKey objectId blob = key ∧ ∃ column,
        lookup key versions = some ⟨subjectId, kind, entityKey, objectId, column⟩ ∧
        bindText blob = .ok column := by
  simp only [addVersion] at written
  cases found : lookup (codec.versionId subjectId kind entityKey objectId blob) store.versions with
  | some old =>
    simp only [found, bind_eq_ok, require_eq_ok, pure_eq_ok, Prod.mk.injEq,
      decide_eq_true_eq] at written
    rcases written with ⟨_, ⟨sameRow, sameBlob⟩, rfl, rfl⟩
    refine ⟨store.versions, rfl, .refl, rfl, old.blobSha256, ?_, ?_⟩
    · rw [found, ← sameRow]
    · rw [← sameBlob, bindText_columnValue]
  | none =>
    simp only [found, bind_eq_ok, pure_eq_ok, Prod.mk.injEq] at written
    rcases written with ⟨_, _, _, _, column, bound, rfl, rfl⟩
    refine ⟨_, rfl, includes_append, rfl, column, ?_, bound⟩
    rw [lookup_append, found, lookup_cons]
    simp

theorem observe_ok {subjectId entityKey versionId : String} {observed : Json}
    {operationKey : Option String}
    (written : observe codec subjectId entityKey versionId observed operationKey store =
      .ok later) : ∃ spans, later = { store with spans } := by
  simp only [observe] at written
  cases found : lastSpan store subjectId entityKey with
  | none =>
    simp only [found, bind_eq_ok, pure_eq_ok] at written
    rcases written with ⟨_, _, _, _, rfl⟩
    exact ⟨_, rfl⟩
  | some span =>
    simp only [found] at written
    split_ifs at written with sameVersion isSettled
    · cases written
      exact ⟨store.spans, rfl⟩
    · simp only [bind_eq_ok, require_eq_ok, pure_eq_ok] at written
      rcases written with ⟨_, _, _, _, rfl⟩
      exact ⟨_, rfl⟩
    · simp only [bind_eq_ok, pure_eq_ok] at written
      rcases written with ⟨_, _, _, _, rfl⟩
      exact ⟨_, rfl⟩

def Record.identity (record : Record) : Identity := .ofRow record.row

/-- The whole of a version is stored, and its blob is verified. -/
structure Written (codec : Codec) (store : Store) (versionId : String) (record : Record) :
    Prop where
  subject : lookup (codec.subjectId record.identity) store.subjects = some record.identity
  version : ∃ objectId column, Stored codec store.objects record.payload.sortKeys objectId ∧
    lookup versionId store.versions = some ⟨codec.subjectId record.identity, record.kind,
      record.entityKey, objectId, column⟩ ∧
    bindText record.blob = .ok column ∧
    codec.versionId (codec.subjectId record.identity) record.kind record.entityKey objectId
      record.blob = versionId
  blob : verifyGiven codec store record.blob = .ok ()

theorem verifyBlob_ok {digest : Json} (verified : verifyBlob codec store digest = .ok ()) :
    ∃ text blob, digest = .string text ∧ lookup text store.blobs = some blob ∧
      blob.content.length = blob.sizeBytes ∧ codec.sha256 blob.content = text := by
  simp only [verifyBlob, bind_eq_ok] at verified
  rcases verified with ⟨column, bound, verified⟩
  cases found : column.bind (lookup · store.blobs) with
  | none => simp [found] at verified
  | some blob =>
    simp only [found, require_eq_ok, decide_eq_true_eq] at verified
    rcases verified with ⟨sameSize, sameHash⟩
    subst sameHash
    cases bound
    exact ⟨_, blob, rfl, found, sameSize, rfl⟩

theorem verifyBlob_of_lookup {text : String} {blob : Blob}
    (found : lookup text store.blobs = some blob) (size : blob.content.length = blob.sizeBytes)
    (hash : codec.sha256 blob.content = text) : verifyBlob codec store (.string text) = .ok () := by
  simp only [verifyBlob, bindText, ok_bind]
  simp [found, size, hash]

theorem verifyBlob_mono {digest : Json} (more : Includes store.blobs later.blobs)
    (verified : verifyBlob codec store digest = .ok ()) :
    verifyBlob codec later digest = .ok () := by
  rcases verifyBlob_ok verified with ⟨text, blob, rfl, found, size, hash⟩
  exact verifyBlob_of_lookup (more text blob found) size hash

theorem verifyGiven_mono {digest : Json} (more : Includes store.blobs later.blobs)
    (verified : verifyGiven codec store digest = .ok ()) :
    verifyGiven codec later digest = .ok () := by
  unfold verifyGiven at verified ⊢
  split
  · rename_i given
    rw [if_pos given] at verified
    exact verifyBlob_mono more verified
  · rfl

theorem Written.mono {versionId : String} {record : Record}
    (written : Written codec store versionId record) (kept : Kept store later) :
    Written codec later versionId record := by
  rcases written with ⟨subject, ⟨objectId, column, stored, found, bound, named⟩, verified⟩
  constructor
  · exact kept.subjects _ _ subject
  · exact ⟨objectId, column, stored.mono kept.objects, kept.versions _ _ found, bound, named⟩
  · exact verifyGiven_mono kept.blobs verified

theorem version_ok {record : Record} {versionId : String}
    (written : version codec record store = .ok (later, versionId))
    (verified : verifyGiven codec store record.blob = .ok ()) :
    Kept store later ∧ Written codec later versionId record := by
  simp only [version, putObject, bind_eq_ok, pure_eq_ok, Prod.mk.injEq] at written
  rcases written with ⟨⟨first, subjectId⟩, named, ⟨second, objectId⟩, put, ⟨third, key⟩, added,
    fourth, observed, rfl, rfl⟩
  rcases subject_ok named with ⟨subjects, rfl, moreSubjects, foundSubject, rfl⟩
  rcases putTree_ok put with ⟨objects, rfl, moreObjects, stored⟩
  rcases addVersion_ok added with ⟨versions, rfl, moreVersions, keyed, column, foundVersion, bound⟩
  rcases observe_ok observed with ⟨spans, rfl⟩
  constructor
  · exact ⟨moreObjects, moreSubjects, moreVersions, .refl⟩
  · exact ⟨foundSubject, ⟨objectId, column, stored, foundVersion, bound, keyed⟩, verified⟩

theorem preserve_ok {record : Record} {versionId : String}
    (written : preserve codec record store = .ok (later, versionId)) :
    Kept store later ∧ Written codec later versionId record := by
  simp only [preserve, bind_eq_ok] at written
  rcases written with ⟨_, verified, written⟩
  exact version_ok written verified

theorem preserveEach_written {records : List (Except String Record)}
    {versions : List (String × Record)}
    (written : preserveEach codec records store = .ok (later, versions)) :
    Kept store later ∧ ∀ versionId record, (versionId, record) ∈ versions →
      Written codec later versionId record ∧ .ok record ∈ records := by
  induction records generalizing store versions with
  | nil =>
    cases written
    exact ⟨.refl, by simp⟩
  | cons next records induction =>
    simp only [preserveEach, bind_eq_ok, pure_eq_ok, Prod.mk.injEq] at written
    rcases written with ⟨record, rfl, ⟨middle, versionId⟩, first, ⟨last, others⟩, rest, rfl, rfl⟩
    have firstWritten := preserve_ok first
    rcases induction rest with ⟨kept, all⟩
    refine ⟨firstWritten.1.trans kept, fun other record' member => ?_⟩
    rcases List.mem_cons.mp member with same | member
    · cases same
      exact ⟨firstWritten.2.mono kept, List.mem_cons_self⟩
    · rcases all other record' member with ⟨written, present⟩
      exact ⟨written, List.mem_cons_of_mem _ present⟩

end JobAgg.SemanticHistory
