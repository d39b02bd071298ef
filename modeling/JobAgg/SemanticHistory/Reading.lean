import JobAgg.SemanticHistory.Preserve

/-! # Reading versions

`_read_object` rebuilds a value from its nodes. A stored tree is read back as it is when
the budget covers its values, each counted where it stands; a shared node is no cycle,
since the keys on the path stand for larger trees.
-/

namespace JobAgg.SemanticHistory

def maxGraphNodes : ℕ := 100000

variable (codec : Codec)

/-- Values read one after the other, from one budget. -/
def readMany (read : String → ℕ → Except String (Json × ℕ)) :
    List String → ℕ → Except String (List Json × ℕ)
  | [], budget => .ok ([], budget)
  | key :: keys, budget => do
    let (value, budget) ← read key budget
    let (values, budget) ← readMany read keys budget
    return (value :: values, budget)

/-- `_read_object`, and the budget after it. The room is `MAX_GRAPH_NODES` less the
number of keys in `seen`. -/
def readObject (objects : List (String × Object)) :
    ℕ → String → List String → ℕ → Except String (Json × ℕ)
  | 0, _, _, budget => do
    require (decide (0 < budget)) "semantic_object_graph_limit"
    .error "semantic_object_graph_cycle_or_limit"
  | room + 1, key, seen, budget => do
    require (decide (0 < budget)) "semantic_object_graph_limit"
    require (decide (key ∉ seen)) "semantic_object_graph_cycle_or_limit"
    match lookup key objects with
    | none => .error "semantic_object_missing_or_corrupt"
    | some object => do
      require (decide (object.sizeBytes = codec.objectLength object.payload ∧
        codec.objectId object.payload = key)) "semantic_object_missing_or_corrupt"
      match object.payload with
      | .map pairs => do
        require (decide (pairs.map Prod.fst).Nodup) "semantic_duplicate_key"
        let (values, budget) ← readMany
          (fun child budget => readObject objects room child (key :: seen) budget)
          (pairs.map Prod.snd) (budget - 1)
        return (.object ((pairs.map Prod.fst).zip values), budget)
      | .list ids => do
        let (values, budget) ← readMany
          (fun child budget => readObject objects room child (key :: seen) budget)
          ids (budget - 1)
        return (.array values, budget)
      | .value atom => return (atom.toJson, budget - 1)

/-- What `read_semantic_version` returns beside the version id. -/
structure Read where
  subject : Identity
  entityKind : String
  entityKey : String
  payload : Json
  blobSha256 : Option String

/-- `read_semantic_version`. -/
def readVersion (store : Store) (versionId : String) : Except String Read :=
  match lookup versionId store.versions with
  | none => .error "semantic_version_missing"
  | some row => do
    require (decide (codec.versionId row.subjectId row.entityKind row.entityKey row.objectId
      (columnValue row.blobSha256) = versionId)) "semantic_version_corrupt"
    match lookup row.subjectId store.subjects with
    | none => .error "semantic_subject_corrupt"
    | some subject => do
      require (decide (codec.subjectId subject = row.subjectId)) "semantic_subject_corrupt"
      verifyGiven codec store (columnValue row.blobSha256)
      let (payload, _) ← readObject codec store.objects maxGraphNodes row.objectId [] maxGraphNodes
      return { subject, entityKind := row.entityKind, entityKey := row.entityKey, payload
               blobSha256 := row.blobSha256 }

def Holds (objects : List (String × Object)) (key : String) (node : Node) : Prop :=
  lookup key objects = some ⟨node, codec.objectLength node⟩ ∧ codec.objectId node = key

mutual

/-- A key roots the nodes of a whole value. -/
def Stored (objects : List (String × Object)) : Json → String → Prop
  | .array items, key => ∃ ids, Holds codec objects key (.list ids) ∧ StoredItems objects items ids
  | .object fields, key =>
    ∃ pairs, Holds codec objects key (.map pairs) ∧ StoredFields objects fields pairs
  | .null, key => Holds codec objects key (.value .null)
  | .bool flag, key => Holds codec objects key (.value (.bool flag))
  | .number numeral, key => Holds codec objects key (.value (.number numeral))
  | .string text, key => Holds codec objects key (.value (.string text))

def StoredItems (objects : List (String × Object)) : List Json → List String → Prop
  | [], ids => ids = []
  | item :: items, ids => ∃ id rest, ids = id :: rest ∧ Stored objects item id ∧
      StoredItems objects items rest

def StoredFields (objects : List (String × Object)) : Fields → List (String × String) → Prop
  | [], pairs => pairs = []
  | (name, value) :: fields, pairs => ∃ id rest, pairs = (name, id) :: rest ∧
      Stored objects value id ∧ StoredFields objects fields rest

end

variable {codec : Codec} {objects later : List (String × Object)}

theorem Holds.mono {key : String} {node : Node} (held : Holds codec objects key node)
    (more : Includes objects later) : Holds codec later key node :=
  ⟨more key _ held.1, held.2⟩

theorem Holds.unique {key : String} {node other : Node} (held : Holds codec objects key node)
    (also : Holds codec objects key other) : node = other := by
  have same := held.1.symm.trans also.1
  simpa using congrArg (Option.map Object.payload) same

mutual

theorem Stored.mono (more : Includes objects later) : ∀ {value : Json} {key : String},
    Stored codec objects value key → Stored codec later value key
  | .array items, key => by
    rw [Stored, Stored]
    rintro ⟨ids, held, below⟩
    exact ⟨ids, held.mono more, StoredItems.mono more below⟩
  | .object fields, key => by
    rw [Stored, Stored]
    rintro ⟨pairs, held, below⟩
    exact ⟨pairs, held.mono more, StoredFields.mono more below⟩
  | .null, _ => fun held => Holds.mono held more
  | .bool _, _ => fun held => Holds.mono held more
  | .number _, _ => fun held => Holds.mono held more
  | .string _, _ => fun held => Holds.mono held more

theorem StoredItems.mono (more : Includes objects later) : ∀ {items : List Json}
    {ids : List String}, StoredItems codec objects items ids → StoredItems codec later items ids
  | [], _ => fun empty => empty
  | item :: items, _ => by
    rw [StoredItems, StoredItems]
    rintro ⟨id, rest, rfl, first, below⟩
    exact ⟨id, rest, rfl, Stored.mono more first, StoredItems.mono more below⟩

theorem StoredFields.mono (more : Includes objects later) : ∀ {fields : Fields}
    {pairs : List (String × String)},
    StoredFields codec objects fields pairs → StoredFields codec later fields pairs
  | [], _ => fun empty => empty
  | (name, value) :: fields, _ => by
    rw [StoredFields, StoredFields]
    rintro ⟨id, rest, rfl, first, below⟩
    exact ⟨id, rest, rfl, Stored.mono more first, StoredFields.mono more below⟩

end

theorem eq_of_holds_value {atom : Atom} {key : String}
    (held : Holds codec objects key (.value atom)) {other : Json}
    (also : Stored codec objects other key) : other = atom.toJson := by
  cases other with
  | array items =>
    rw [Stored] at also
    rcases also with ⟨ids, otherHeld, _⟩
    cases held.unique otherHeld
  | object fields =>
    rw [Stored] at also
    rcases also with ⟨pairs, otherHeld, _⟩
    cases held.unique otherHeld
  | null =>
    cases held.unique also
    rfl
  | bool flag =>
    cases held.unique also
    rfl
  | number numeral =>
    cases held.unique also
    rfl
  | string text =>
    cases held.unique also
    rfl

mutual

theorem Stored.unique : ∀ {value other : Json} {key : String},
    Stored codec objects value key → Stored codec objects other key → value = other
  | .array items, other, key => by
    rw [Stored]
    rintro ⟨ids, held, below⟩ also
    cases other with
    | array others =>
      rw [Stored] at also
      rcases also with ⟨otherIds, otherHeld, otherBelow⟩
      cases held.unique otherHeld
      rw [StoredItems.unique below otherBelow]
    | object others =>
      rw [Stored] at also
      rcases also with ⟨pairs, otherHeld, _⟩
      cases held.unique otherHeld
    | _ => cases held.unique also
  | .object fields, other, key => by
    rw [Stored]
    rintro ⟨pairs, held, below⟩ also
    cases other with
    | array others =>
      rw [Stored] at also
      rcases also with ⟨ids, otherHeld, _⟩
      cases held.unique otherHeld
    | object others =>
      rw [Stored] at also
      rcases also with ⟨otherPairs, otherHeld, otherBelow⟩
      cases held.unique otherHeld
      rw [StoredFields.unique below otherBelow]
    | _ => cases held.unique also
  | .null, _, _ => fun held also => (eq_of_holds_value held also).symm
  | .bool _, _, _ => fun held also => (eq_of_holds_value held also).symm
  | .number _, _, _ => fun held also => (eq_of_holds_value held also).symm
  | .string _, _, _ => fun held also => (eq_of_holds_value held also).symm

theorem StoredItems.unique : ∀ {items others : List Json} {ids : List String},
    StoredItems codec objects items ids → StoredItems codec objects others ids → items = others
  | [], others, ids => by
    rintro rfl also
    cases others with
    | nil => rfl
    | cons item items =>
      rw [StoredItems] at also
      rcases also with ⟨id, rest, absurd, _⟩
      cases absurd
  | item :: items, others, ids => by
    rw [StoredItems]
    rintro ⟨id, rest, rfl, first, below⟩ also
    cases others with
    | nil => cases also
    | cons other others =>
      rw [StoredItems] at also
      rcases also with ⟨otherId, otherRest, same, otherFirst, otherBelow⟩
      cases same
      rw [Stored.unique first otherFirst, StoredItems.unique below otherBelow]

theorem StoredFields.unique : ∀ {fields others : Fields} {pairs : List (String × String)},
    StoredFields codec objects fields pairs → StoredFields codec objects others pairs →
      fields = others
  | [], others, pairs => by
    rintro rfl also
    cases others with
    | nil => rfl
    | cons field fields =>
      rw [StoredFields] at also
      rcases also with ⟨id, rest, absurd, _⟩
      cases absurd
  | (name, value) :: fields, others, pairs => by
    rw [StoredFields]
    rintro ⟨id, rest, rfl, first, below⟩ also
    cases others with
    | nil => cases also
    | cons other others =>
      rw [StoredFields] at also
      rcases also with ⟨otherId, otherRest, same, otherFirst, otherBelow⟩
      cases same
      rw [Stored.unique first otherFirst, StoredFields.unique below otherBelow]

end

theorem storedFields_names : ∀ {fields : Fields} {pairs : List (String × String)},
    StoredFields codec objects fields pairs → pairs.map Prod.fst = fields.map Prod.fst
  | [], pairs => by
    rintro rfl
    rfl
  | (name, value) :: fields, pairs => by
    rw [StoredFields]
    rintro ⟨id, rest, rfl, _, below⟩
    simp [storedFields_names below]

/-- The keys on the path stand for larger values. -/
def Above (codec : Codec) (objects : List (String × Object)) (seen : List String) (size : ℕ) :
    Prop :=
  ∀ key ∈ seen, ∃ larger, Stored codec objects larger key ∧ size < larger.nodes

theorem Above.notSeen {seen : List String} {value : Json} {key : String}
    (above : Above codec objects seen value.nodes) (stored : Stored codec objects value key) :
    key ∉ seen := by
  intro member
  rcases above key member with ⟨larger, alsoStored, isLarger⟩
  rw [stored.unique alsoStored] at isLarger
  omega

theorem Above.mono {seen : List String} {size larger : ℕ} (above : Above codec objects seen larger)
    (smaller : size ≤ larger) : Above codec objects seen size := by
  intro key member
  rcases above key member with ⟨value, stored, isLarger⟩
  exact ⟨value, stored, by omega⟩

theorem Above.below {seen : List String} {value : Json} {key : String} (size : ℕ)
    (above : Above codec objects seen value.nodes) (stored : Stored codec objects value key)
    (smaller : size < value.nodes) : Above codec objects (key :: seen) size := by
  intro other member
  rcases List.mem_cons.mp member with rfl | member
  · exact ⟨value, stored, smaller⟩
  · rcases above other member with ⟨larger, alsoStored, isLarger⟩
    exact ⟨larger, alsoStored, by omega⟩

def within {Value : Type} (size budget : ℕ) (value : Value) : Except String (Value × ℕ) :=
  if size ≤ budget then .ok (value, budget - size) else .error "semantic_object_graph_limit"

theorem readMany_cons {read : String → ℕ → Except String (Json × ℕ)} {key : String}
    {keys : List String} {first size budget : ℕ} {value : Json} {values : List Json}
    (head : read key budget = within first budget value)
    (tail : ∀ left ≤ budget, readMany read keys left = within size left values) :
    readMany read (key :: keys) budget = within (first + size) budget (value :: values) := by
  rw [readMany, head]
  unfold within at tail ⊢
  by_cases fits : first ≤ budget
  · simp only [if_pos fits, bind, Except.bind, tail (budget - first) (by omega)]
    by_cases both : size ≤ budget - first
    · have total : first + size ≤ budget := by omega
      simp only [if_pos both, if_pos total, pure, Except.pure]
      congr 2
      omega
    · have total : ¬ first + size ≤ budget := by omega
      simp only [if_neg both, if_neg total]
  · have total : ¬ first + size ≤ budget := by omega
    simp only [if_neg fits, if_neg total, bind, Except.bind]

theorem within_succ_bind {First Result : Type} {size budget : ℕ} {value : First}
    (build : First → Result) (positive : 0 < budget) :
    (within size (budget - 1) value >>= fun read => pure (build read.1, read.2)) =
      within (size + 1) budget (build value) := by
  unfold within
  by_cases fits : size ≤ budget - 1
  · have total : size + 1 ≤ budget := by omega
    simp only [if_pos fits, if_pos total, bind, Except.bind, pure, Except.pure]
    congr 2
    omega
  · have total : ¬ size + 1 ≤ budget := by omega
    simp only [if_neg fits, if_neg total, bind, Except.bind]

section Nodes

variable {room budget : ℕ} {key : String} {seen : List String}

theorem readObject_exhausted :
    readObject codec objects room key seen 0 = .error "semantic_object_graph_limit" := by
  cases room <;> rfl

theorem readObject_list {ids : List String} (held : Holds codec objects key (.list ids))
    (notSeen : key ∉ seen) (positive : 0 < budget) :
    readObject codec objects (room + 1) key seen budget =
      (readMany (fun child budget => readObject codec objects room child (key :: seen) budget)
        ids (budget - 1) >>= fun read => pure (.array read.1, read.2)) := by
  rw [readObject, held.1]
  simp [require, positive, notSeen, held.2, bind, Except.bind]

theorem readObject_map {pairs : List (String × String)}
    (held : Holds codec objects key (.map pairs)) (distinct : (pairs.map Prod.fst).Nodup)
    (notSeen : key ∉ seen) (positive : 0 < budget) :
    readObject codec objects (room + 1) key seen budget =
      (readMany (fun child budget => readObject codec objects room child (key :: seen) budget)
        (pairs.map Prod.snd) (budget - 1) >>= fun read =>
          pure (.object ((pairs.map Prod.fst).zip read.1), read.2)) := by
  rw [readObject, held.1]
  simp [require, positive, notSeen, held.2, distinct, bind, Except.bind]

theorem readObject_value {atom : Atom} (held : Holds codec objects key (.value atom))
    (notSeen : key ∉ seen) (positive : 0 < budget) :
    readObject codec objects (room + 1) key seen budget = .ok (atom.toJson, budget - 1) := by
  rw [readObject, held.1]
  simp [require, positive, notSeen, held.2, bind, Except.bind, pure, Except.pure]

theorem readObject_atom (atom : Atom) (held : Holds codec objects key (.value atom))
    (notSeen : key ∉ seen) (enough : budget ≤ room) :
    readObject codec objects room key seen budget = within 1 budget atom.toJson := by
  cases budget with
  | zero => exact readObject_exhausted
  | succ budget =>
    cases room with
    | zero => omega
    | succ room =>
      rw [readObject_value held notSeen (by omega), within, if_pos (by omega)]

end Nodes

mutual

theorem readObject_eq : ∀ {value : Json} {key : String}, value.DistinctKeys →
    Stored codec objects value key → ∀ {room budget : ℕ} {seen : List String},
    budget ≤ room → Above codec objects seen value.nodes →
      readObject codec objects room key seen budget = within value.nodes budget value
  | .array items, key => by
    intro distinct stored room budget seen enough above
    have notSeen := above.notSeen stored
    have inside := above.below (Json.nodesOfItems items) stored (by simp [Json.nodes])
    rw [Json.DistinctKeys] at distinct
    rw [Stored] at stored
    rcases stored with ⟨ids, held, below⟩
    cases budget with
    | zero => exact readObject_exhausted
    | succ budget =>
      cases room with
      | zero => omega
      | succ room =>
        rw [readObject_list held notSeen (by omega),
          readItems_eq distinct below (by omega) inside]
        exact within_succ_bind Json.array (by omega)
  | .object fields, key => by
    intro distinct stored room budget seen enough above
    have notSeen := above.notSeen stored
    have inside := above.below (Json.nodesOfFields fields) stored (by simp [Json.nodes])
    rw [Json.DistinctKeys] at distinct
    rw [Stored] at stored
    rcases stored with ⟨pairs, held, below⟩
    have names := storedFields_names below
    cases budget with
    | zero => exact readObject_exhausted
    | succ budget =>
      cases room with
      | zero => omega
      | succ room =>
        rw [readObject_map held (names ▸ distinct.1) notSeen (by omega),
          readFields_eq distinct.2 below (by omega) inside, names]
        rw [within_succ_bind (fun values =>
          Json.object ((fields.map Prod.fst).zip values)) (by omega)]
        rw [Json.nodes, ← List.unzip_fst, ← List.unzip_snd, List.zip_unzip]
  | .null, _ => fun _ stored _ _ _ enough above =>
    readObject_atom .null stored (above.notSeen stored) enough
  | .bool _, _ => fun _ stored _ _ _ enough above =>
    readObject_atom (.bool _) stored (above.notSeen stored) enough
  | .number _, _ => fun _ stored _ _ _ enough above =>
    readObject_atom (.number _) stored (above.notSeen stored) enough
  | .string _, _ => fun _ stored _ _ _ enough above =>
    readObject_atom (.string _) stored (above.notSeen stored) enough

theorem readItems_eq : ∀ {items : List Json} {ids : List String}, Json.DistinctItems items →
    StoredItems codec objects items ids → ∀ {room budget : ℕ} {seen : List String},
    budget ≤ room → Above codec objects seen (Json.nodesOfItems items) →
      readMany (fun child budget => readObject codec objects room child seen budget) ids budget =
        within (Json.nodesOfItems items) budget items
  | [], _ => by
    rintro _ rfl room budget seen _ _
    rfl
  | item :: items, _ => by
    intro distinct
    rw [StoredItems]
    rintro ⟨id, rest, rfl, first, below⟩ room budget seen enough above
    rw [Json.DistinctItems] at distinct
    rw [Json.nodesOfItems] at above ⊢
    apply readMany_cons
    · exact readObject_eq distinct.1 first enough (above.mono (by omega))
    · intro left smaller
      exact readItems_eq distinct.2 below (by omega) (above.mono (by omega))

theorem readFields_eq : ∀ {fields : Fields} {pairs : List (String × String)},
    Json.DistinctFields fields → StoredFields codec objects fields pairs →
    ∀ {room budget : ℕ} {seen : List String},
    budget ≤ room → Above codec objects seen (Json.nodesOfFields fields) →
      readMany (fun child budget => readObject codec objects room child seen budget)
        (pairs.map Prod.snd) budget =
          within (Json.nodesOfFields fields) budget (fields.map Prod.snd)
  | [], _ => by
    rintro _ rfl room budget seen _ _
    rfl
  | (name, value) :: fields, _ => by
    intro distinct
    rw [StoredFields]
    rintro ⟨id, rest, rfl, first, below⟩ room budget seen enough above
    rw [Json.DistinctFields] at distinct
    rw [Json.nodesOfFields] at above ⊢
    apply readMany_cons
    · exact readObject_eq distinct.1 first enough (above.mono (by omega))
    · intro left smaller
      exact readFields_eq distinct.2 below (by omega) (above.mono (by omega))

end

end JobAgg.SemanticHistory
