import JobAgg.SemanticHistory.Spans

/-! # Writing a version again

A version has one id, whatever the store. Where it has been written before, writing it
again changes no row of the content tables, and changes the spans only when the last
mark of its entity does not settle it.
-/

namespace JobAgg.SemanticHistory

variable (codec : Codec)

mutual

/-- The key that a value is stored under. -/
def treeId : Json → String
  | .array items => codec.objectId (.list (treeIds items))
  | .object fields => codec.objectId (.map (treePairs fields))
  | .null => codec.objectId (.value .null)
  | .bool flag => codec.objectId (.value (.bool flag))
  | .number numeral => codec.objectId (.value (.number numeral))
  | .string text => codec.objectId (.value (.string text))

def treeIds : List Json → List String
  | [] => []
  | item :: items => treeId item :: treeIds items

def treePairs : Fields → List (String × String)
  | [] => []
  | (name, value) :: fields => (name, treeId value) :: treePairs fields

end

def Record.subjectId (record : Record) : String := codec.subjectId record.identity

def Record.versionId (record : Record) : String :=
  codec.versionId (record.subjectId codec) record.kind record.entityKey
    (treeId codec record.payload.sortKeys) record.blob

def Record.observation (record : Record) : Observation :=
  ⟨record.versionId codec, record.observed, record.operationKey⟩

variable {codec : Codec} {store later again : Store}

theorem putNode_key {node : Node} {key : String}
    (written : putNode codec node store = .ok (later, key)) : key = codec.objectId node := by
  rcases putNode_ok written with ⟨objects, _, _, held⟩
  exact held.2.symm

theorem putNode_again {node : Node} {key : String}
    (written : putNode codec node store = .ok (later, key))
    (more : Includes later.objects again.objects) :
    putNode codec node again = .ok (again, key) := by
  have short : codec.objectLength node ≤ maxObjectBytes := by
    simp only [putNode, bind_eq_ok, require_eq_ok, decide_eq_true_eq] at written
    rcases written with ⟨_, short, _⟩
    exact short
  rcases putNode_ok written with ⟨objects, rfl, _, found, rfl⟩
  have there := more _ _ found
  simp [putNode, require, short, there, bind, Except.bind, pure, Except.pure]

mutual

theorem putTree_key : ∀ {value : Json} {store later : Store} {key : String},
    putTree codec value store = .ok (later, key) → key = treeId codec value
  | .array items, store, later, key => by
    intro written
    simp only [putTree, bind_eq_ok] at written
    rcases written with ⟨⟨middle, ids⟩, below, top⟩
    rw [putNode_key top, putItems_keys below, treeId]
  | .object fields, store, later, key => by
    intro written
    simp only [putTree, bind_eq_ok] at written
    rcases written with ⟨⟨middle, pairs⟩, below, top⟩
    rw [putNode_key top, putFields_keys below, treeId]
  | .null, _, _, _ => fun written => putNode_key written
  | .bool _, _, _, _ => fun written => putNode_key written
  | .number _, _, _, _ => fun written => putNode_key written
  | .string _, _, _, _ => fun written => putNode_key written

theorem putItems_keys : ∀ {items : List Json} {store later : Store} {ids : List String},
    putItems codec items store = .ok (later, ids) → ids = treeIds codec items
  | [], store, later, ids => by
    intro written
    cases written
    rfl
  | item :: items, store, later, ids => by
    intro written
    simp only [putItems, bind_eq_ok, pure_eq_ok, Prod.mk.injEq] at written
    rcases written with ⟨⟨middle, id⟩, first, ⟨last, rest⟩, below, rfl, rfl⟩
    rw [treeIds, putTree_key first, putItems_keys below]

theorem putFields_keys : ∀ {fields : Fields} {store later : Store}
    {pairs : List (String × String)},
    putFields codec fields store = .ok (later, pairs) → pairs = treePairs codec fields
  | [], store, later, pairs => by
    intro written
    cases written
    rfl
  | (name, value) :: fields, store, later, pairs => by
    intro written
    simp only [putFields, bind_eq_ok, pure_eq_ok, Prod.mk.injEq] at written
    rcases written with ⟨⟨middle, id⟩, first, ⟨last, rest⟩, below, rfl, rfl⟩
    rw [treePairs, putTree_key first, putFields_keys below]

end

mutual

theorem putTree_again : ∀ {value : Json} {store later again : Store} {key : String},
    putTree codec value store = .ok (later, key) → Includes later.objects again.objects →
      putTree codec value again = .ok (again, key)
  | .array items, store, later, again, key => by
    intro written more
    simp only [putTree, bind_eq_ok] at written
    rcases written with ⟨⟨middle, ids⟩, below, top⟩
    rcases putNode_ok top with ⟨objects, rfl, kept, _⟩
    rw [putTree, putItems_again below (kept.trans more)]
    exact putNode_again top more
  | .object fields, store, later, again, key => by
    intro written more
    simp only [putTree, bind_eq_ok] at written
    rcases written with ⟨⟨middle, pairs⟩, below, top⟩
    rcases putNode_ok top with ⟨objects, rfl, kept, _⟩
    rw [putTree, putFields_again below (kept.trans more)]
    exact putNode_again top more
  | .null, _, _, _, _ => fun written more => putNode_again written more
  | .bool _, _, _, _, _ => fun written more => putNode_again written more
  | .number _, _, _, _, _ => fun written more => putNode_again written more
  | .string _, _, _, _, _ => fun written more => putNode_again written more

theorem putItems_again : ∀ {items : List Json} {store later again : Store} {ids : List String},
    putItems codec items store = .ok (later, ids) → Includes later.objects again.objects →
      putItems codec items again = .ok (again, ids)
  | [], store, later, again, ids => by
    intro written _
    cases written
    rfl
  | item :: items, store, later, again, ids => by
    intro written more
    simp only [putItems, bind_eq_ok, pure_eq_ok, Prod.mk.injEq] at written
    rcases written with ⟨⟨middle, id⟩, first, ⟨last, rest⟩, below, rfl, rfl⟩
    rcases putItems_ok below with ⟨objects, rfl, kept, _⟩
    rw [putItems, putTree_again first (kept.trans more)]
    simp only [ok_bind, putItems_again below more]
    rfl

theorem putFields_again : ∀ {fields : Fields} {store later again : Store}
    {pairs : List (String × String)},
    putFields codec fields store = .ok (later, pairs) → Includes later.objects again.objects →
      putFields codec fields again = .ok (again, pairs)
  | [], store, later, again, pairs => by
    intro written _
    cases written
    rfl
  | (name, value) :: fields, store, later, again, pairs => by
    intro written more
    simp only [putFields, bind_eq_ok, pure_eq_ok, Prod.mk.injEq] at written
    rcases written with ⟨⟨middle, id⟩, first, ⟨last, rest⟩, below, rfl, rfl⟩
    rcases putFields_ok below with ⟨objects, rfl, kept, _⟩
    rw [putFields, putTree_again first (kept.trans more)]
    simp only [ok_bind, putFields_again below more]
    rfl

end

theorem subject_again (again : Store) {row : Fields} {key : String}
    (written : subject codec row store = .ok (later, key))
    (more : Includes later.subjects again.subjects) :
    subject codec row again = .ok (again, key) := by
  have identified : ((Identity.ofRow row).sourceId.truthy &&
      (Identity.ofRow row).originJobKey.truthy) = true := by
    simp only [subject, bind_eq_ok, require_eq_ok] at written
    rcases written with ⟨_, identified, _⟩
    exact identified
  rcases subject_ok written with ⟨subjects, rfl, _, found, rfl⟩
  have there := more _ _ found
  simp only [subject, identified, there]
  simp [require, bind, Except.bind, pure, Except.pure]

theorem addVersion_again (again : Store) {subjectId kind entityKey objectId key : String} {blob : Json}
    (written : addVersion codec subjectId kind entityKey objectId blob store = .ok (later, key))
    (textual : Textual blob) (more : Includes later.versions again.versions) :
    addVersion codec subjectId kind entityKey objectId blob again = .ok (again, key) := by
  rcases addVersion_ok written with ⟨versions, rfl, _, rfl, column, found, bound⟩
  have there := more _ _ found
  have same := (textual_iff bound).mp textual
  simp [addVersion, there, same, require, bind, Except.bind, pure, Except.pure]

theorem textual_of_addVersion {subjectId kind entityKey objectId key : String} {blob : Json}
    {row : Version}
    (written : addVersion codec subjectId kind entityKey objectId blob store = .ok (later, key))
    (found : lookup (codec.versionId subjectId kind entityKey objectId blob) store.versions =
      some row) : Textual blob := by
  simp only [addVersion, found, bind_eq_ok, require_eq_ok, decide_eq_true_eq] at written
  rcases written with ⟨_, ⟨_, same⟩, _⟩
  rw [← same]
  exact textual_columnValue

/-- What writing a version does to the marks. -/
structure Observed (store later : Store) (subjectId entityKey : String)
    (observation : Observation) : Prop where
  stream : later.stream = store.stream
  own : later.mark subjectId entityKey = Mark.after (store.mark subjectId entityKey) observation
  other : ∀ subject entity, ¬ (subjectId = subject ∧ entityKey = entity) →
    later.mark subject entity = store.mark subject entity
  settledOrMore : (Mark.settles (store.mark subjectId entityKey) observation = true ∧
    later.spans = store.spans) ∨
    (Mark.settles (store.mark subjectId entityKey) observation = false ∧
      store.weight < later.weight)

theorem mark_congr (sameStream : later.stream = store.stream) (sameSpans : later.spans = store.spans)
    {subjectId entityKey : String} :
    later.mark subjectId entityKey = store.mark subjectId entityKey := by
  simp [Store.mark, lastSpan, sameStream, sameSpans]

theorem weight_congr (sameSpans : later.spans = store.spans) : later.weight = store.weight := by
  simp [Store.weight, sameSpans]

theorem observe_observed {subjectId entityKey : String} {observation : Observation}
    (written : observe codec subjectId entityKey observation.versionId observation.observed
      observation.operationKey store = .ok later) :
    Observed store later subjectId entityKey observation := by
  rcases observe_ok written with ⟨spans, sameElse⟩
  have stream : later.stream = store.stream := by rw [sameElse]
  cases settles : Mark.settles (store.mark subjectId entityKey) observation with
  | true =>
    rw [observe_settled settles] at written
    cases written
    exact ⟨rfl, by rw [Mark.after, if_pos settles], fun _ _ _ => rfl, .inl ⟨settles, rfl⟩⟩
  | false =>
    rcases observe_unsettled settles written with ⟨own, other, more⟩
    refine ⟨stream, ?_, other, .inr ⟨settles, more⟩⟩
    rw [own, Mark.after, settles]
    rfl

theorem preserve_steps {record : Record} {versionId : String}
    (written : preserve codec record store = .ok (later, versionId)) :
    versionId = record.versionId codec ∧ ∃ first second third objectId,
      verifyGiven codec store record.blob = .ok () ∧
      subject codec record.row store = .ok (first, record.subjectId codec) ∧
      putTree codec record.payload.sortKeys first = .ok (second, objectId) ∧
      addVersion codec (record.subjectId codec) record.kind record.entityKey objectId record.blob
        second = .ok (third, versionId) ∧ objectId = treeId codec record.payload.sortKeys ∧
      observe codec (record.subjectId codec) record.entityKey versionId record.observed
        record.operationKey third = .ok later := by
  simp only [preserve, version, putObject, bind_eq_ok, pure_eq_ok, Prod.mk.injEq] at written
  rcases written with ⟨_, verified, ⟨first, subjectId⟩, named, ⟨second, objectId⟩, put,
    ⟨third, key⟩, added, fourth, observed, rfl, rfl⟩
  have subjectKey : subjectId = record.subjectId codec := by
    rcases subject_ok named with ⟨_, _, _, _, same⟩
    exact same.symm
  have objectKey := putTree_key put
  subst subjectKey
  have versionKey : key = record.versionId codec := by
    rcases addVersion_ok added with ⟨_, _, _, same, _⟩
    rw [← same, objectKey, Record.versionId]
  exact ⟨versionKey, first, second, third, objectId, verified, named, put, added, objectKey,
    observed⟩

theorem preserve_observed {record : Record} {versionId : String}
    (written : preserve codec record store = .ok (later, versionId)) :
    Observed store later (record.subjectId codec) record.entityKey (record.observation codec) := by
  rcases preserve_steps written with
    ⟨rfl, first, second, third, objectId, _, named, put, added, _, observed⟩
  rcases subject_ok named with ⟨_, rfl, _⟩
  rcases putTree_ok put with ⟨_, rfl, _⟩
  rcases addVersion_ok added with ⟨_, rfl, _⟩
  have last : Observed _ later (record.subjectId codec) record.entityKey
      (record.observation codec) := observe_observed observed
  exact ⟨last.stream, last.own, last.other, last.settledOrMore⟩

theorem preserve_again {record : Record} {versionId : String}
    (written : preserve codec record store = .ok (later, versionId)) (kept : Kept later again)
    (textual : Textual record.blob)
    (settles : Mark.settles (again.mark (record.subjectId codec) record.entityKey)
      (record.observation codec) = true) :
    preserve codec record again = .ok (again, versionId) := by
  rcases preserve_steps written with
    ⟨rfl, first, second, third, objectId, verified, named, put, added, _, observed⟩
  have stays := preserve_ok written
  rcases observe_ok observed with ⟨_, sameElse⟩
  have namedAgain := subject_again again named (by
    rcases putTree_ok put with ⟨_, rfl, _⟩
    rcases addVersion_ok added with ⟨_, rfl, _⟩
    rw [sameElse] at kept
    exact kept.subjects)
  have putAgain : putTree codec record.payload.sortKeys again = .ok (again, objectId) := by
    apply putTree_again put
    rcases addVersion_ok added with ⟨_, rfl, _⟩
    rw [sameElse] at kept
    exact kept.objects
  have addedAgain := addVersion_again again added textual (by
    rw [sameElse] at kept
    exact kept.versions)
  have observedAgain : observe codec (record.subjectId codec) record.entityKey
      (record.versionId codec) record.observed record.operationKey again = .ok again :=
    observe_settled settles
  have verifiedAgain := verifyGiven_mono (stays.1.blobs.trans kept.blobs) verified
  simp only [preserve, version, putObject, verifiedAgain, ok_bind, namedAgain, putAgain, addedAgain]
  rw [observedAgain]
  rfl

end JobAgg.SemanticHistory
