import JobAgg.SemanticHistory.Again
import JobAgg.SemanticHistory.Joining

/-! # Databases that write and copy

Databases in files of their own, each with its own stream, written by preserve calls and
by copies of one another. Every row stands under its own hash, and all rows of a span key
agree with the row of the database whose stream it is.
-/

namespace JobAgg.SemanticHistory

structure Keyed {Value : Type} (names : String → Value → Prop) (table : List (String × Value)) :
    Prop where
  keys : (table.map Prod.fst).Nodup
  names : ∀ key value, (key, value) ∈ table → names key value

section Keyed

variable {Value : Type} {names : String → Value → Prop} {table : List (String × Value)}
  {key : String} {value : Value}

theorem key_notMem_of_lookup (absent : lookup key table = none) : key ∉ table.map Prod.fst := by
  have noRow : (table.any fun row => row.1 == key) = false := by
    rw [← lookup_isSome, absent]
    rfl
  rintro member
  rcases List.mem_map.mp member with ⟨row, present, same⟩
  have different := List.any_eq_false.mp noRow row present
  simp [same] at different

theorem nodup_keys_append (keys : (table.map Prod.fst).Nodup) (absent : lookup key table = none) :
    ((table ++ [(key, value)]).map Prod.fst).Nodup := by
  rw [List.map_append, List.nodup_append]
  refine ⟨keys, by simp, ?_⟩
  intro other member new newMember same
  rw [List.map_singleton, List.mem_singleton] at newMember
  rw [same, newMember] at member
  exact key_notMem_of_lookup absent member

theorem Keyed.append (keyed : Keyed names table) (absent : lookup key table = none)
    (named : names key value) : Keyed names (table ++ [(key, value)]) := by
  refine ⟨nodup_keys_append keyed.keys absent, fun other value' member => ?_⟩
  rcases List.mem_append.mp member with old | new
  · exact keyed.names other value' old
  · cases List.mem_singleton.mp new
    exact named

variable [DecidableEq Value] {sound : String → Value → Bool} {corrupt : String}
  {rows result : List (String × Value)}

theorem mem_copyRows (copied : copyRows sound corrupt rows table = .ok result)
    (row : String × Value) : row ∈ result ↔ row ∈ table ∨ row ∈ rows := by
  induction rows generalizing table with
  | nil =>
    cases copied
    simp
  | cons first rows induction =>
    rcases first with ⟨key, value⟩
    simp only [copyRows, bind_eq_ok, require_eq_ok] at copied
    rcases copied with ⟨_, _, copied⟩
    cases found : JobAgg.lookup key table with
    | some old =>
      simp only [found, bind_eq_ok, require_eq_ok, decide_eq_true_eq] at copied
      rcases copied with ⟨_, rfl, copied⟩
      have there := mem_of_lookup_eq_some found
      rw [induction copied, List.mem_cons]
      constructor
      · rintro (old | new)
        · exact .inl old
        · exact .inr (.inr new)
      · rintro (old | rfl | new)
        · exact .inl old
        · exact .inl there
        · exact .inr new
    | none =>
      simp only [found] at copied
      rw [induction copied, List.mem_append, List.mem_singleton, List.mem_cons, or_assoc]

theorem nodup_keys_copyRows (copied : copyRows sound corrupt rows table = .ok result)
    (keys : (table.map Prod.fst).Nodup) : (result.map Prod.fst).Nodup := by
  induction rows generalizing table with
  | nil =>
    cases copied
    exact keys
  | cons first rows induction =>
    rcases first with ⟨key, value⟩
    simp only [copyRows, bind_eq_ok, require_eq_ok] at copied
    rcases copied with ⟨_, _, copied⟩
    cases found : JobAgg.lookup key table with
    | some old =>
      simp only [found, bind_eq_ok, require_eq_ok, decide_eq_true_eq] at copied
      rcases copied with ⟨_, _, copied⟩
      exact induction copied keys
    | none =>
      simp only [found] at copied
      exact induction copied (nodup_keys_append keys found)

theorem Keyed.copyRows (target : Keyed names table) (source : Keyed names rows)
    (copied : copyRows sound corrupt rows table = .ok result) : Keyed names result := by
  refine ⟨nodup_keys_copyRows copied target.keys, fun key value member => ?_⟩
  rcases (mem_copyRows copied _).mp member with old | new
  · exact target.names key value old
  · exact source.names key value new

theorem copyRows_accepts (sound : String → Value → Bool) (corrupt : String)
    (target : Keyed names table) (source : Keyed names rows)
    (unique : ∀ key left right, names key left → names key right → left = right)
    (passes : ∀ key value, names key value → sound key value = true) :
    ∃ result, SemanticHistory.copyRows sound corrupt rows table = .ok result := by
  induction rows generalizing table with
  | nil => exact ⟨table, rfl⟩
  | cons first rows induction =>
    rcases first with ⟨key, value⟩
    have named := source.names key value List.mem_cons_self
    have rest : Keyed names rows := ⟨(List.nodup_cons.mp source.keys).2,
      fun other value' member => source.names other value' (List.mem_cons_of_mem _ member)⟩
    rw [SemanticHistory.copyRows, passes key value named]
    cases found : JobAgg.lookup key table with
    | some old =>
      have same : old = value :=
        unique key old value (target.names key old (mem_of_lookup_eq_some found)) named
      simpa [require, same, bind, Except.bind] using induction target rest
    | none =>
      simpa [require, bind, Except.bind] using induction (target.append found named) rest

end Keyed

variable {codec : Codec} {store source target later : Store}

def namesObject (codec : Codec) (key : String) (object : Object) : Prop :=
  codec.objectId object.payload = key ∧ codec.objectLength object.payload = object.sizeBytes

def namesBlob (codec : Codec) (digest : String) (blob : Blob) : Prop :=
  codec.sha256 blob.content = digest ∧ blob.content.length = blob.sizeBytes

/-- An uncorrupted store: all rows under their own hashes, all versions whole, and the
versions of all spans there. -/
structure Tidy (codec : Codec) (store : Store) : Prop where
  objects : Keyed (namesObject codec) store.objects
  subjects : Keyed (fun key identity => codec.subjectId identity = key) store.subjects
  versions : (store.versions.map Prod.fst).Nodup
  written : ∀ versionId ∈ store.versions.map Prod.fst, ∃ record,
    Written codec store versionId record ∧ record.payload.DistinctKeys
  spans : (store.spans.map (·.key)).Nodup
  spanVersions : ∀ span ∈ store.spans, span.versionId ∈ store.versions.map Prod.fst
  coverage : Keyed (fun key coverage => codec.coverageId coverage = key) store.coverage
  blobs : Keyed (namesBlob codec) store.blobs

theorem tidy_empty (stream : String) (maxBytes : ℕ) : Tidy codec { stream, maxBytes } := by
  constructor <;> first | exact ⟨by simp, by simp⟩ | simp

theorem putNode_keyed {node : Node} {key : String} (keyed : Keyed (namesObject codec) store.objects)
    (written : putNode codec node store = .ok (later, key)) :
    Keyed (namesObject codec) later.objects := by
  simp only [putNode, bind_eq_ok, require_eq_ok] at written
  rcases written with ⟨_, _, written⟩
  cases found : lookup (codec.objectId node) store.objects with
  | some old =>
    simp only [found, bind_eq_ok, pure_eq_ok, Prod.mk.injEq] at written
    rcases written with ⟨_, _, rfl, rfl⟩
    exact keyed
  | none =>
    simp only [found, bind_eq_ok, pure_eq_ok, Prod.mk.injEq] at written
    rcases written with ⟨_, _, rfl, rfl⟩
    exact keyed.append found ⟨rfl, rfl⟩

mutual

theorem putTree_keyed : ∀ {value : Json} {store later : Store} {key : String},
    Keyed (namesObject codec) store.objects → putTree codec value store = .ok (later, key) →
    Keyed (namesObject codec) later.objects
  | .array items, store, later, key => by
    intro keyed written
    simp only [putTree, bind_eq_ok] at written
    rcases written with ⟨⟨middle, ids⟩, below, top⟩
    exact putNode_keyed (putItems_keyed keyed below) top
  | .object fields, store, later, key => by
    intro keyed written
    simp only [putTree, bind_eq_ok] at written
    rcases written with ⟨⟨middle, pairs⟩, below, top⟩
    exact putNode_keyed (putFields_keyed keyed below) top
  | .null, _, _, _ => putNode_keyed
  | .bool _, _, _, _ => putNode_keyed
  | .number _, _, _, _ => putNode_keyed
  | .string _, _, _, _ => putNode_keyed

theorem putItems_keyed : ∀ {items : List Json} {store later : Store} {ids : List String},
    Keyed (namesObject codec) store.objects → putItems codec items store = .ok (later, ids) →
    Keyed (namesObject codec) later.objects
  | [], store, later, ids => by
    intro keyed written
    cases written
    exact keyed
  | item :: items, store, later, ids => by
    intro keyed written
    simp only [putItems, bind_eq_ok, pure_eq_ok, Prod.mk.injEq] at written
    rcases written with ⟨⟨middle, id⟩, first, ⟨last, rest⟩, below, rfl, rfl⟩
    exact putItems_keyed (putTree_keyed keyed first) below

theorem putFields_keyed : ∀ {fields : Fields} {store later : Store}
    {pairs : List (String × String)},
    Keyed (namesObject codec) store.objects → putFields codec fields store = .ok (later, pairs) →
    Keyed (namesObject codec) later.objects
  | [], store, later, pairs => by
    intro keyed written
    cases written
    exact keyed
  | (name, value) :: fields, store, later, pairs => by
    intro keyed written
    simp only [putFields, bind_eq_ok, pure_eq_ok, Prod.mk.injEq] at written
    rcases written with ⟨⟨middle, id⟩, first, ⟨last, rest⟩, below, rfl, rfl⟩
    exact putFields_keyed (putTree_keyed keyed first) below

end

theorem subject_keyed {row : Fields} {key : String}
    (keyed : Keyed (fun key identity => codec.subjectId identity = key) store.subjects)
    (written : subject codec row store = .ok (later, key)) :
    Keyed (fun key identity => codec.subjectId identity = key) later.subjects := by
  simp only [subject, bind_eq_ok, require_eq_ok] at written
  rcases written with ⟨_, _, written⟩
  cases found : lookup (codec.subjectId (Identity.ofRow row)) store.subjects with
  | some old =>
    simp only [found, bind_eq_ok, pure_eq_ok, Prod.mk.injEq] at written
    rcases written with ⟨_, _, rfl, rfl⟩
    exact keyed
  | none =>
    simp only [found, bind_eq_ok, pure_eq_ok, Prod.mk.injEq] at written
    rcases written with ⟨_, _, rfl, rfl⟩
    exact keyed.append found rfl

theorem addVersion_keys {subjectId kind entityKey objectId key : String} {blob : Json}
    (written : addVersion codec subjectId kind entityKey objectId blob store = .ok (later, key)) :
    ((store.versions.map Prod.fst).Nodup → (later.versions.map Prod.fst).Nodup) ∧
      ∀ versionId, versionId ∈ later.versions.map Prod.fst ↔
        versionId ∈ store.versions.map Prod.fst ∨ versionId = key := by
  simp only [addVersion] at written
  cases found : lookup (codec.versionId subjectId kind entityKey objectId blob) store.versions with
  | some old =>
    simp only [found, bind_eq_ok, pure_eq_ok, Prod.mk.injEq] at written
    rcases written with ⟨_, _, rfl, rfl⟩
    refine ⟨id, fun versionId => ⟨.inl, ?_⟩⟩
    rintro (present | rfl)
    · exact present
    · exact List.mem_map_of_mem (mem_of_lookup_eq_some found)
  | none =>
    simp only [found, bind_eq_ok, pure_eq_ok, Prod.mk.injEq] at written
    rcases written with ⟨_, _, _, _, column, bound, rfl, rfl⟩
    exact ⟨fun keys => nodup_keys_append keys found, by simp [or_comm]⟩

def SameSpan (left right : Span) : Prop :=
  left.key = right.key ∧ left.versionId = right.versionId ∧
    shown left.firstAt = shown right.firstAt

theorem SameSpan.refl (span : Span) : SameSpan span span := ⟨rfl, rfl, rfl⟩

theorem SameSpan.symm {left right : Span} (same : SameSpan left right) : SameSpan right left :=
  ⟨same.1.symm, same.2.1.symm, same.2.2.symm⟩

theorem SameSpan.trans {left middle right : Span} (first : SameSpan left middle)
    (second : SameSpan middle right) : SameSpan left right :=
  ⟨first.1.trans second.1, first.2.1.trans second.2.1, first.2.2.trans second.2.2⟩

/-- What a write does to the spans: each stays, and new ones are of the own stream. -/
structure Spanned (versionId : String) (store later : Store) : Prop where
  stream : later.stream = store.stream
  keys : (store.spans.map (·.key)).Nodup → (later.spans.map (·.key)).Nodup
  kept : ∀ span ∈ store.spans, ∃ span' ∈ later.spans, SameSpan span' span
  from_ : ∀ span' ∈ later.spans, (∃ span ∈ store.spans, SameSpan span' span) ∨
    span'.key.streamId = store.stream ∧ span'.versionId = versionId

theorem insert_spanned (span : Span) (own : span.key.streamId = store.stream)
    (above : ∀ other, lastSpan store span.key.subjectId span.key.entityKey = some other →
      other.key.episode < span.key.episode) :
    Spanned span.versionId store (store.withSpan span) := by
  have fresh : ∀ other ∈ store.spans, other.key ≠ span.key := by
    intro other member same
    have inEntity : other ∈ entitySpans store span.key.subjectId span.key.entityKey := by
      simp [entitySpans, member, same, own]
    cases found : lastSpan store span.key.subjectId span.key.entityKey with
    | none =>
      rw [head?_orderByDesc_eq_none (lastSpan_eq.symm.trans found)] at inEntity
      cases inEntity
    | some first =>
      have below := le_of_head?_orderByDesc other (lastSpan_eq.symm.trans found) inEntity
      have later := above first found
      rw [same] at below
      omega
  refine ⟨rfl, fun keys => ?_, fun old member => ?_, fun other member => ?_⟩
  · rw [Store.withSpan, List.map_append, List.nodup_append]
    refine ⟨keys, by simp, ?_⟩
    intro key member new newMember same
    rcases List.mem_map.mp member with ⟨other, present, rfl⟩
    rw [List.map_singleton, List.mem_singleton] at newMember
    exact fresh other present (same.trans newMember)
  · exact ⟨old, List.mem_append_left _ member, .refl old⟩
  · rcases List.mem_append.mp member with old | new
    · exact .inl ⟨other, old, .refl other⟩
    · rw [List.mem_singleton.mp new]
      exact .inr ⟨own, rfl⟩

theorem update_spanned {versionId : String} {key : SpanKey} {update : Span → Span}
    (same : ∀ span, SameSpan (update span) span) :
    Spanned versionId store (store.withUpdate key update) := by
  have every : ∀ span, SameSpan (if span.key == key then update span else span) span := by
    intro span
    split
    · exact same span
    · exact .refl span
  refine ⟨rfl, fun keys => ?_, fun old member => ?_, fun other member => .inl ?_⟩
  · have unchanged : (store.withUpdate key update).spans.map (·.key) = store.spans.map (·.key) := by
      simp only [Store.withUpdate, updateWhere, List.map_map]
      exact List.map_congr_left fun span _ => (every span).1
    rw [unchanged]
    exact keys
  · exact ⟨_, mem_updateWhere.mpr ⟨old, member, rfl⟩, every old⟩
  · rcases mem_updateWhere.mp member with ⟨old, present, rfl⟩
    exact ⟨old, present, every old⟩

theorem observe_spanned {subjectId entityKey versionId : String} {observed : Json}
    {operationKey : Option String}
    (written : observe codec subjectId entityKey versionId observed operationKey store =
      .ok later) : Spanned versionId store later := by
  have insert : ∀ (episode : ℕ) (text : Option String),
      (∀ other, lastSpan store subjectId entityKey = some other → other.key.episode < episode) →
      Spanned versionId store (store.withSpan ⟨⟨store.stream, subjectId, entityKey, episode⟩,
        versionId, text, text, 1, operationKey⟩) := by
    intro episode text above
    exact insert_spanned ⟨⟨store.stream, subjectId, entityKey, episode⟩, versionId, text, text, 1,
      operationKey⟩ rfl above
  simp only [observe] at written
  cases found : lastSpan store subjectId entityKey with
  | none =>
    simp only [found, bind_eq_ok, pure_eq_ok] at written
    rcases written with ⟨_, _, text, _, rfl⟩
    exact insert 1 text (by simp [found])
  | some span =>
    simp only [found] at written
    split_ifs at written with sameVersion isSettled
    · cases written
      exact ⟨rfl, id, fun old member => ⟨old, member, .refl old⟩,
        fun other member => .inl ⟨other, member, .refl other⟩⟩
    · simp only [bind_eq_ok, require_eq_ok, pure_eq_ok] at written
      rcases written with ⟨_, _, text, _, rfl⟩
      exact update_spanned fun _ => ⟨rfl, rfl, rfl⟩
    · simp only [bind_eq_ok, pure_eq_ok] at written
      rcases written with ⟨_, _, text, _, rfl⟩
      apply insert (span.key.episode + 1) text
      intro other same
      rw [found] at same
      cases same
      omega

theorem Tidy.of_preserve {record : Record} {versionId : String} (tidy : Tidy codec store)
    (distinct : record.payload.DistinctKeys)
    (preserved : preserve codec record store = .ok (later, versionId)) :
    Tidy codec later ∧ Spanned versionId store later := by
  rcases preserve_steps preserved with
    ⟨_, first, second, third, objectId, _, named, put, added, _, observed⟩
  rcases preserve_ok preserved with ⟨kept, whole⟩
  have subjects := subject_keyed tidy.subjects named
  have spanned := observe_spanned observed
  have keys := addVersion_keys added
  rcases subject_ok named with ⟨_, rfl, _⟩
  have objects := putTree_keyed (by exact tidy.objects) put
  rcases putTree_ok put with ⟨_, rfl, _⟩
  rcases addVersion_ok added with ⟨_, rfl, _⟩
  rcases observe_ok observed with ⟨_, rfl⟩
  refine ⟨⟨objects, subjects, keys.1 tidy.versions, fun other member => ?_,
    spanned.keys tidy.spans, fun span member => ?_, tidy.coverage, tidy.blobs⟩,
    ⟨rfl, spanned.keys, spanned.kept, spanned.from_⟩⟩
  · rcases (keys.2 other).mp member with old | rfl
    · rcases tidy.written other old with ⟨record', written, distinct'⟩
      exact ⟨record', written.mono kept, distinct'⟩
    · exact ⟨record, whole, distinct⟩
  · apply (keys.2 span.versionId).mpr
    rcases spanned.from_ span member with ⟨old, present, _, sameVersion, _⟩ | ⟨_, sameVersion⟩
    · rw [sameVersion]
      exact .inl (tidy.spanVersions old present)
    · exact .inr sameVersion

/-- A write in one database that goes through. Other writers add blobs under their own
hashes and record coverage. -/
inductive Write (codec : Codec) (store : Store) : Store → Prop
  | job {later row observedAt operationKey versionId} : (Json.object row).DistinctKeys →
      preserveJob codec row observedAt operationKey store = .ok (later, versionId) →
      Write codec store later
  | document {later jobs association jobRow observedAt operationKey versionId} :
      (Json.object association).DistinctKeys →
      preserveDocumentAssociation codec jobs association jobRow observedAt operationKey store =
        .ok (later, versionId) → Write codec store later
  | listingFrame {later frame operationKey versionId} : (Json.object frame).DistinctKeys →
      preserveListingFrame codec frame operationKey store = .ok (later, versionId) →
      Write codec store later
  | beforeimage {later beforeimage sourceId observedAt operationKey versionIds} :
      beforeimage.DistinctKeys →
      preserveBeforeimage codec beforeimage sourceId observedAt operationKey store =
        .ok (later, versionIds) → Write codec store later
  | blob {digest blob} : lookup digest store.blobs = none → namesBlob codec digest blob →
      Write codec store { store with blobs := store.blobs ++ [(digest, blob)] }
  | coverage {coverage} : lookup (codec.coverageId coverage) store.coverage = none →
      Write codec store
        { store with coverage := store.coverage ++ [(codec.coverageId coverage, coverage)] }

structure Extends (store later : Store) : Prop where
  stream : later.stream = store.stream
  kept : ∀ span ∈ store.spans, ∃ span' ∈ later.spans, SameSpan span' span
  from_ : ∀ span' ∈ later.spans, (∃ span ∈ store.spans, SameSpan span' span) ∨
    span'.key.streamId = store.stream

theorem Extends.refl (sameStream : later.stream = store.stream)
    (sameSpans : later.spans = store.spans) : Extends store later := by
  refine ⟨sameStream, fun span member => ?_, fun span member => ?_⟩
  · exact ⟨span, sameSpans ▸ member, .refl span⟩
  · exact .inl ⟨span, sameSpans ▸ member, .refl span⟩

theorem Extends.trans {middle : Store} (first : Extends store middle)
    (second : Extends middle later) : Extends store later := by
  refine ⟨second.stream.trans first.stream, fun span member => ?_, fun span member => ?_⟩
  · rcases first.kept span member with ⟨middle', inMiddle, same⟩
    rcases second.kept middle' inMiddle with ⟨last, inLast, same'⟩
    exact ⟨last, inLast, same'.trans same⟩
  · rcases second.from_ span member with ⟨middle', inMiddle, same⟩ | own
    · rcases first.from_ middle' inMiddle with ⟨old, inStore, same'⟩ | own
      · exact .inl ⟨old, inStore, same.trans same'⟩
      · right
        rw [same.1]
        exact own
    · exact .inr (own.trans first.stream)

theorem Spanned.extends {versionId : String} (spanned : Spanned versionId store later) :
    Extends store later := by
  refine ⟨spanned.stream, spanned.kept, fun span member => ?_⟩
  rcases spanned.from_ span member with old | ⟨own, _⟩
  · exact .inl old
  · exact .inr own

theorem Tidy.of_preserveEach {records : List (Except String Record)}
    {versions : List (String × Record)} (tidy : Tidy codec store)
    (distinct : ∀ record, .ok record ∈ records → record.payload.DistinctKeys)
    (written : preserveEach codec records store = .ok (later, versions)) :
    Tidy codec later ∧ Extends store later := by
  induction records generalizing store versions with
  | nil =>
    cases written
    exact ⟨tidy, .refl rfl rfl⟩
  | cons next records induction =>
    simp only [preserveEach, bind_eq_ok, pure_eq_ok, Prod.mk.injEq] at written
    rcases written with ⟨record, rfl, ⟨middle, versionId⟩, first, ⟨last, others⟩, rest, rfl, rfl⟩
    dsimp only at first rest
    rcases tidy.of_preserve (distinct record List.mem_cons_self) first with ⟨tidyMiddle, spanned⟩
    rcases induction tidyMiddle
      (fun other member => distinct other (List.mem_cons_of_mem _ member)) rest with
      ⟨tidyLater, extended⟩
    exact ⟨tidyLater, spanned.extends.trans extended⟩

theorem Tidy.of_write (tidy : Tidy codec store) (write : Write codec store later) :
    Tidy codec later ∧ Extends store later := by
  have one : ∀ {record : Record} {versionId : String}, record.payload.DistinctKeys →
      preserve codec record store = .ok (later, versionId) →
      Tidy codec later ∧ Extends store later := by
    intro record versionId distinct written
    rcases tidy.of_preserve distinct written with ⟨tidyLater, spanned⟩
    exact ⟨tidyLater, spanned.extends⟩
  have noBlob : ∀ {record : Record}, record.blob = .null →
      version codec record store = preserve codec record store := by
    intro record null
    rw [preserve, null]
    rfl
  cases write with
  | job distinct written =>
    simp only [preserveJob, bind_eq_ok] at written
    rcases written with ⟨record, made, written⟩
    have payload := distinctKeys_jobRecord distinct made
    simp only [jobRecord, bind_eq_ok, pure_eq_ok] at made
    rcases made with ⟨_, _, rfl⟩
    exact one payload ((noBlob rfl).symm.trans written)
  | document distinct written =>
    simp only [preserveDocumentAssociation, bind_eq_ok] at written
    rcases written with ⟨record, made, written⟩
    exact one (distinctKeys_associationRecord distinct made) written
  | listingFrame distinct written =>
    simp only [preserveListingFrame, bind_eq_ok] at written
    rcases written with ⟨record, made, written⟩
    have payload := distinctKeys_listingRecord distinct made
    simp only [listingRecord, bind_eq_ok, pure_eq_ok] at made
    rcases made with ⟨_, _, rfl⟩
    exact one payload ((noBlob rfl).symm.trans written)
  | beforeimage distinct written =>
    simp only [preserveBeforeimage, bind_eq_ok, pure_eq_ok, Prod.mk.injEq] at written
    rcases written with ⟨⟨last, versions⟩, each, rfl, _⟩
    exact tidy.of_preserveEach (fun record made => distinctKeys_beforeimageRecords distinct made) each
  | blob absent named =>
    refine ⟨⟨tidy.objects, tidy.subjects, tidy.versions, fun versionId member => ?_, tidy.spans,
      tidy.spanVersions, tidy.coverage, tidy.blobs.append absent named⟩, .refl rfl rfl⟩
    rcases tidy.written versionId member with ⟨record, written, distinct⟩
    exact ⟨record, written.mono ⟨.refl, .refl, .refl, includes_append⟩, distinct⟩
  | coverage absent =>
    refine ⟨⟨tidy.objects, tidy.subjects, tidy.versions, fun versionId member => ?_, tidy.spans,
      tidy.spanVersions, tidy.coverage.append absent rfl, tidy.blobs⟩, .refl rfl rfl⟩
    rcases tidy.written versionId member with ⟨record, written, distinct⟩
    exact ⟨record, written.mono ⟨.refl, .refl, .refl, .refl⟩, distinct⟩

/-- The databases after writes and copies, each named by its stream. -/
inductive Databases (codec : Codec) : (String → Store) → Prop
  | start (maxBytes : String → ℕ) :
      Databases codec fun stream => { stream, maxBytes := maxBytes stream }
  | write {stores stream later} : Databases codec stores → Write codec (stores stream) later →
      Databases codec (Function.update stores stream later)
  | copy {stores source target later} : Databases codec stores →
      copySemanticHistory codec (stores source) (stores target) = .ok later →
      Databases codec (Function.update stores target later)

/-- Every row agrees with a row of the database whose stream it is. -/
def AgreesWith (stores : String → Store) (store : Store) : Prop :=
  ∀ span ∈ store.spans, ∃ own ∈ (stores span.key.streamId).spans, SameSpan own span

def Agree (stores : String → Store) : Prop := ∀ stream, AgreesWith stores (stores stream)

theorem Agree.update {stores : String → Store} {stream : String} (agree : Agree stores)
    (kept : ∀ span ∈ (stores stream).spans, ∃ span' ∈ later.spans, SameSpan span' span)
    (from_ : ∀ span' ∈ later.spans, (∃ other, ∃ span ∈ (stores other).spans,
      SameSpan span' span) ∨ span'.key.streamId = stream) :
    Agree (Function.update stores stream later) := by
  have stays : ∀ other, ∀ span ∈ (stores other).spans, ∀ row, SameSpan row span →
      ∃ own ∈ (Function.update stores stream later row.key.streamId).spans, SameSpan own row := by
    intro other span member row same
    rcases agree other span member with ⟨own, present, sameOwn⟩
    by_cases here : row.key.streamId = stream
    · rw [← same.1, here] at present
      rcases kept own present with ⟨own', present', sameOwn'⟩
      rw [here, Function.update_self]
      exact ⟨own', present', sameOwn'.trans (sameOwn.trans same.symm)⟩
    · rw [Function.update_of_ne here]
      rw [← same.1] at present
      exact ⟨own, present, sameOwn.trans same.symm⟩
  intro other span member
  by_cases here : other = stream
  · subst here
    rw [Function.update_self] at member
    rcases from_ span member with ⟨another, row, present, same⟩ | own
    · exact stays another row present span same
    · rw [own, Function.update_self]
      exact ⟨span, member, .refl span⟩
  · rw [Function.update_of_ne here] at member
    exact stays other span member span (.refl span)

structure Merged (table rows result : List Span) : Prop where
  keys : (table.map (·.key)).Nodup → (result.map (·.key)).Nodup
  kept : ∀ span, span ∈ table ∨ span ∈ rows → ∃ span' ∈ result, SameSpan span' span
  from_ : ∀ span' ∈ result, ∃ span, (span ∈ table ∨ span ∈ rows) ∧ SameSpan span' span

theorem merged_same {table : List Span} : Merged table [] table :=
  ⟨id, fun span member => ⟨span, by simpa using member, .refl span⟩,
    fun span member => ⟨span, .inl member, .refl span⟩⟩

theorem copySpan_merged {row : Span} {table : List Span}
    (alike : ∀ old ∈ table, old.key = row.key → SameSpan row old) :
    ∃ result, copySpan row table = .ok result ∧ Merged table [row] result := by
  unfold copySpan
  cases found : table.find? (·.key == row.key) with
  | none =>
    refine ⟨_, rfl, fun keys => ?_, fun span member => ⟨span, by simpa using member, .refl span⟩,
      fun span member => ⟨span, by simpa using member, .refl span⟩⟩
    rw [List.map_append, List.nodup_append]
    refine ⟨keys, by simp, ?_⟩
    intro key member new newMember same
    rcases List.mem_map.mp member with ⟨other, present, rfl⟩
    rw [List.map_singleton, List.mem_singleton] at newMember
    have different := List.find?_eq_none.mp found other present
    rw [same, newMember] at different
    simp at different
  | some old =>
    rcases key_of_spanAt found with ⟨sameKey, inTable⟩
    have sameOld := alike old inTable sameKey
    dsimp only
    by_cases same : old = row
    · refine ⟨table, by rw [if_pos same], id, fun span member => ?_,
        fun span member => ⟨span, .inl member, .refl span⟩⟩
      subst same
      rcases member with present | new
      · exact ⟨span, present, .refl span⟩
      · exact ⟨span, List.mem_singleton.mp new ▸ inTable, .refl span⟩
    · have every : ∀ other ∈ table,
          SameSpan (if other.key == row.key then mergeSpan row other else other) other := by
        intro other present
        split
        · rename_i ownKey
          have sameOther := alike other present (by simpa using ownKey)
          refine ⟨rfl, rfl, ?_⟩
          change shown (chooseText min other.firstAt row.firstAt) = _
          rw [chooseText_min sameOther.2.2.symm, shown_shown]
        · exact .refl other
      refine ⟨updateWhere (·.key == row.key) (mergeSpan row) table, ?_, fun keys => ?_,
        fun span member => ?_, fun span member => ?_⟩
      · simp [same, sameOld.2.1, require, bind, Except.bind, pure, Except.pure]
      · have unchanged : (updateWhere (·.key == row.key) (mergeSpan row) table).map (·.key) =
            table.map (·.key) := by
          simp only [updateWhere, List.map_map]
          exact List.map_congr_left fun other present => (every other present).1
        rw [unchanged]
        exact keys
      · rcases member with present | new
        · exact ⟨_, mem_updateWhere.mpr ⟨span, present, rfl⟩, every span present⟩
        · rw [List.mem_singleton.mp new]
          exact ⟨_, mem_updateWhere.mpr ⟨old, inTable, rfl⟩,
            (every old inTable).trans sameOld.symm⟩
      · rcases mem_updateWhere.mp member with ⟨other, present, rfl⟩
        exact ⟨other, .inl present, every other present⟩

theorem copySpans_merged {rows table : List Span}
    (alike : ∀ left, left ∈ table ∨ left ∈ rows → ∀ right, right ∈ table ∨ right ∈ rows →
      left.key = right.key → SameSpan left right) :
    ∃ result, copySpans rows table = .ok result ∧ Merged table rows result := by
  induction rows generalizing table with
  | nil => exact ⟨table, rfl, merged_same⟩
  | cons row rows induction =>
    rcases copySpan_merged (fun old member same => alike row (.inr List.mem_cons_self) old
      (.inl member) same.symm) with ⟨middle, first, step⟩
    have source : ∀ span, span ∈ middle ∨ span ∈ rows →
        ∃ old, (old ∈ table ∨ old ∈ row :: rows) ∧ SameSpan span old := by
      rintro span (inMiddle | later)
      · rcases step.from_ span inMiddle with ⟨old, present | new, same⟩
        · exact ⟨old, .inl present, same⟩
        · exact ⟨old, .inr (List.mem_singleton.mp new ▸ List.mem_cons_self), same⟩
      · exact ⟨span, .inr (List.mem_cons_of_mem _ later), .refl span⟩
    rcases induction (by
      intro left leftMember right rightMember sameKey
      rcases source left leftMember with ⟨left', leftMember', sameLeft⟩
      rcases source right rightMember with ⟨right', rightMember', sameRight⟩
      have both := alike left' leftMember' right' rightMember'
        (sameLeft.1.symm.trans (sameKey.trans sameRight.1))
      exact sameLeft.trans (both.trans sameRight.symm)) with ⟨result, rest, others⟩
    refine ⟨result, by rw [copySpans, first]; exact rest,
      fun keys => others.keys (step.keys keys), fun span member => ?_, fun span member => ?_⟩
    · have inMiddle : (span ∈ table ∨ span ∈ [row]) ∨ span ∈ rows := by
        simpa [or_assoc] using member
      rcases inMiddle with now | later
      · rcases step.kept span now with ⟨middle', present, same⟩
        rcases others.kept middle' (.inl present) with ⟨last, inLast, same'⟩
        exact ⟨last, inLast, same'.trans same⟩
      · exact others.kept span (.inr later)
    · rcases others.from_ span member with ⟨middle', present, same⟩
      rcases source middle' present with ⟨old, inOld, same'⟩
      exact ⟨old, inOld, same.trans same'⟩

def SpansAgree (source target : Store) : Prop :=
  ∀ left, left ∈ target.spans ∨ left ∈ source.spans →
    ∀ right, right ∈ target.spans ∨ right ∈ source.spans → left.key = right.key →
      SameSpan left right

theorem verified_blobs (tidy : Tidy codec source) {digest : String} {blob : Blob}
    (found : lookup digest source.blobs = some blob) : namesBlob codec digest blob :=
  tidy.blobs.names digest blob (mem_of_lookup_eq_some found)

theorem copyBlobs_keyed (tidySource : Tidy codec source) {digests : List String}
    (keyed : Keyed (namesBlob codec) target.blobs)
    (copied : copyBlobs codec source digests target = .ok later) :
    Keyed (namesBlob codec) later.blobs := by
  induction digests generalizing target with
  | nil =>
    cases copied
    exact keyed
  | cons digest digests induction =>
    simp only [copyBlobs, copyBlob, bind_eq_ok] at copied
    rcases copied with ⟨middle, ⟨_, verified, first⟩, rest⟩
    refine induction ?_ rest
    rcases verifyBlob_ok verified with ⟨text, blob, same, found, _⟩
    cases same
    simp only [found] at first
    cases present : lookup digest target.blobs with
    | some old =>
      simp only [present, bind_eq_ok, pure_eq_ok] at first
      rcases first with ⟨_, _, rfl⟩
      exact keyed
    | none =>
      simp only [present, pure_eq_ok] at first
      subst first
      exact keyed.append present (verified_blobs tidySource found)

theorem Tidy.of_copy (tidySource : Tidy codec source) (tidyTarget : Tidy codec target)
    (agree : SpansAgree source target)
    (copied : copySemanticHistory codec source target = .ok later) :
    Tidy codec later ∧ Merged target.spans source.spans later.spans := by
  have kept := kept_of_copy copied
  have copiedVersion : ∀ {versionId : String} {record : Record},
      Written codec source versionId record → Written codec later versionId record :=
    fun written => written.copied copied
  rcases copySemanticHistory_ok copied with ⟨middle, blobs, sameBlobs, objects, subjects, versions,
    spans, coverage, _⟩
  rcases copySpans_merged agree with ⟨result, merging, merged⟩
  cases spans.symm.trans merging
  have versionIds : ∀ versionId, versionId ∈ later.versions.map Prod.fst ↔
      versionId ∈ target.versions.map Prod.fst ∨ versionId ∈ source.versions.map Prod.fst := by
    intro versionId
    simp only [List.mem_map, mem_copyRows versions]
    constructor
    · rintro ⟨row, old | new, rfl⟩
      · exact .inl ⟨row, old, rfl⟩
      · exact .inr ⟨row, new, rfl⟩
    · rintro (⟨row, old, rfl⟩ | ⟨row, new, rfl⟩)
      · exact ⟨row, .inl old, rfl⟩
      · exact ⟨row, .inr new, rfl⟩
  refine ⟨⟨tidyTarget.objects.copyRows tidySource.objects objects,
    tidyTarget.subjects.copyRows tidySource.subjects subjects,
    nodup_keys_copyRows versions tidyTarget.versions, fun versionId member => ?_,
    merged.keys tidyTarget.spans, fun span member => (versionIds _).mpr ?_,
    tidyTarget.coverage.copyRows tidySource.coverage coverage, ?_⟩, merged⟩
  · rcases (versionIds versionId).mp member with old | new
    · rcases tidyTarget.written versionId old with ⟨record, written, distinct⟩
      exact ⟨record, written.mono kept, distinct⟩
    · rcases tidySource.written versionId new with ⟨record, written, distinct⟩
      exact ⟨record, copiedVersion written, distinct⟩
  · rcases merged.from_ span member with ⟨old, present, _, sameVersion, _⟩
    rw [sameVersion]
    rcases present with inTarget | inSource
    · exact .inl (tidyTarget.spanVersions old inTarget)
    · exact .inr (tidySource.spanVersions old inSource)
  · rw [sameBlobs]
    exact copyBlobs_keyed tidySource tidyTarget.blobs blobs

variable {stores : String → Store}

theorem SameSpan.of_own (tidy : ∀ stream, Tidy codec (stores stream))
    (agree : AgreesWith stores source) (agree' : AgreesWith stores target) {left right : Span}
    (inSource : left ∈ source.spans) (inTarget : right ∈ target.spans)
    (sameKey : left.key = right.key) : SameSpan left right := by
  rcases agree left inSource with ⟨own, present, same⟩
  rcases agree' right inTarget with ⟨own', present', same'⟩
  rw [← sameKey] at present'
  have oneRow := eq_of_key_eq (tidy _).spans present present'
    (same.1.trans (sameKey.trans same'.1.symm))
  subst oneRow
  exact same.symm.trans same'

theorem SpansAgree.of_own (tidy : ∀ stream, Tidy codec (stores stream))
    (agree : AgreesWith stores source) (agree' : AgreesWith stores target) :
    SpansAgree source target := by
  rintro left (inTarget | inSource) right (inTarget' | inSource') sameKey
  · exact .of_own tidy agree' agree' inTarget inTarget' sameKey
  · exact .of_own tidy agree' agree inTarget inSource' sameKey
  · exact .of_own tidy agree agree' inSource inTarget' sameKey
  · exact .of_own tidy agree agree inSource inSource' sameKey

theorem AgreesWith.merged (agree : AgreesWith stores source) (agree' : AgreesWith stores target)
    (merged : Merged target.spans source.spans later.spans) : AgreesWith stores later := by
  intro span member
  rcases merged.from_ span member with ⟨old, inTarget | inSource, same⟩
  · rcases agree' old inTarget with ⟨own, present, same'⟩
    rw [same.1]
    exact ⟨own, present, same'.trans same.symm⟩
  · rcases agree old inSource with ⟨own, present, same'⟩
    rw [same.1]
    exact ⟨own, present, same'.trans same.symm⟩

theorem Databases.sound (databases : Databases codec stores) :
    (∀ stream, (stores stream).stream = stream ∧ Tidy codec (stores stream)) ∧ Agree stores := by
  induction databases with
  | start maxBytes => exact ⟨fun stream => ⟨rfl, tidy_empty stream _⟩, by simp [Agree, AgreesWith]⟩
  | @write stores stream later _ write sound =>
    rcases sound.1 stream with ⟨named, tidy⟩
    rcases tidy.of_write write with ⟨tidyLater, extended⟩
    refine ⟨fun other => ?_, ?_⟩
    · by_cases here : other = stream
      · subst here
        rw [Function.update_self]
        exact ⟨extended.stream.trans named, tidyLater⟩
      · rw [Function.update_of_ne here]
        exact sound.1 other
    · apply sound.2.update extended.kept
      intro span member
      rcases extended.from_ span member with ⟨old, present, same⟩ | own
      · exact .inl ⟨stream, old, present, same⟩
      · exact .inr (own.trans named)
  | @copy stores source target later _ copied sound =>
    have agree := SpansAgree.of_own (fun stream => (sound.1 stream).2) (sound.2 source)
      (sound.2 target)
    rcases (sound.1 source).2.of_copy (sound.1 target).2 agree copied with ⟨tidyLater, merged⟩
    rcases copySemanticHistory_ok copied with ⟨_, _, _, _, _, _, _, _, _, sameStream, _⟩
    refine ⟨fun other => ?_, ?_⟩
    · by_cases here : other = target
      · subst here
        rw [Function.update_self]
        exact ⟨sameStream.trans (sound.1 other).1, tidyLater⟩
      · rw [Function.update_of_ne here]
        exact sound.1 other
    · apply sound.2.update fun span member => merged.kept span (.inl member)
      intro span member
      rcases merged.from_ span member with ⟨old, inTarget | inSource, same⟩
      · exact .inl ⟨target, old, inTarget, same⟩
      · exact .inl ⟨source, old, inSource, same⟩

theorem Databases.tidy (databases : Databases codec stores) (stream : String) :
    Tidy codec (stores stream) := (databases.sound.1 stream).2

theorem Databases.copyEach {sources : List String} (databases : Databases codec stores)
    (tidy : Tidy codec target) (agree : AgreesWith stores target)
    (copied : copyEach codec (sources.map stores) target = .ok later) :
    Tidy codec later ∧ AgreesWith stores later := by
  induction sources generalizing target with
  | nil =>
    cases copied
    exact ⟨tidy, agree⟩
  | cons source sources induction =>
    simp only [List.map_cons, SemanticHistory.copyEach, bind_eq_ok] at copied
    rcases copied with ⟨middle, first, rest⟩
    have agreeSource := databases.sound.2 source
    rcases (databases.tidy source).of_copy tidy (.of_own databases.tidy agreeSource agree) first with
      ⟨tidyMiddle, merged⟩
    exact induction tidyMiddle (agreeSource.merged agree merged) rest

end JobAgg.SemanticHistory
