import JobAgg.SemanticHistory.Writing
import Mathlib.Data.List.Dedup

/-! # Copying history

`copy_semantic_history` adds the rows of one store to another, table by table. A copy
that goes through keeps both: what was stored whole in either store is stored whole in
the target.
-/

namespace JobAgg.SemanticHistory

variable (codec : Codec)

/-- `SELECT DISTINCT blob_sha256 ... WHERE blob_sha256 IS NOT NULL`. -/
def digests (store : Store) : List String := (store.versions.filterMap (·.2.blobSha256)).dedup

def copyBlob (source target : Store) (digest : String) : Except String Store := do
  verifyBlob codec source (.string digest)
  match lookup digest source.blobs with
  | none => .error "TypeError"
  | some blob =>
    match lookup digest target.blobs with
    | some old => do
      require (decide (old.sizeBytes = blob.sizeBytes ∧ old.content = blob.content))
        "semantic_copy_blob_conflict"
      return target
    | none => return { target with blobs := target.blobs ++ [(digest, blob)] }

def copyBlobs (source : Store) : List String → Store → Except String Store
  | [], target => .ok target
  | digest :: digests, target => do
    let target ← copyBlob codec source target digest
    copyBlobs source digests target

def copyRows {Value : Type} [DecidableEq Value] (sound : String → Value → Bool)
    (corrupt : String) :
    List (String × Value) → List (String × Value) → Except String (List (String × Value))
  | [], table => .ok table
  | (key, value) :: rows, table => do
    require (sound key value) corrupt
    match lookup key table with
    | some old => do
      require (decide (old = value)) "semantic_copy_immutable_conflict"
      copyRows sound corrupt rows table
    | none => copyRows sound corrupt rows (table ++ [(key, value)])

/-- A text column is not empty: `if column`. -/
def filled (column : Option String) : Bool := column.any (· != "")

/-- `choose(x for x in (left, right) if x is not None) if left or right else None`. -/
def chooseText (choose : String → String → String) (left right : Option String) :
    Option String :=
  if filled left || filled right then Option.merge choose left right else none

def mergeSpan (row old : Span) : Span :=
  { old with
    firstAt := chooseText min old.firstAt row.firstAt
    lastAt := chooseText max old.lastAt row.lastAt
    observations := max old.observations row.observations
    lastOperation := none }

def copySpan (row : Span) (table : List Span) : Except String (List Span) :=
  match table.find? (·.key == row.key) with
  | some old =>
    if old = row then .ok table
    else do
      require (decide (old.versionId = row.versionId)) "semantic_copy_span_conflict"
      return updateWhere (·.key == row.key) (mergeSpan row) table
  | none => .ok (table ++ [row])

def copySpans : List Span → List Span → Except String (List Span)
  | [], table => .ok table
  | row :: rows, table => do
    let table ← copySpan row table
    copySpans rows table

def readAll (target : Store) : List (String × Version) → Except String Unit
  | [] => .ok ()
  | (versionId, _) :: rows => do
    let _ ← readVersion codec target versionId
    readAll target rows

def objectSound (key : String) (object : Object) : Bool :=
  decide (codec.objectLength object.payload = object.sizeBytes ∧ codec.objectId object.payload = key)

def copySemanticHistory (source target : Store) : Except String Store := do
  let target ← copyBlobs codec source (digests source) target
  let objects ← copyRows (objectSound codec) "semantic_copy_object_corrupt"
    source.objects target.objects
  let subjects ← copyRows (fun key subject => codec.subjectId subject == key)
    "semantic_copy_subject_corrupt" source.subjects target.subjects
  let versions ← copyRows (fun _ _ => true) "" source.versions target.versions
  let spans ← copySpans source.spans target.spans
  let coverage ← copyRows (fun key coverage => codec.coverageId coverage == key)
    "semantic_copy_coverage_corrupt" source.coverage target.coverage
  let target := { target with objects, subjects, versions, spans, coverage }
  readAll codec target source.versions
  capacity codec target 0
  return target

variable {codec : Codec} {source target later : Store}

section Rows

variable {Value : Type} [DecidableEq Value] {sound : String → Value → Bool} {corrupt : String}

theorem copyRows_ok {rows table result : List (String × Value)}
    (copied : copyRows sound corrupt rows table = .ok result) :
    Includes table result ∧ ∀ key value, (key, value) ∈ rows → lookup key result = some value := by
  induction rows generalizing table with
  | nil =>
    cases copied
    exact ⟨.refl, by simp⟩
  | cons row rows induction =>
    rcases row with ⟨key, value⟩
    simp only [copyRows, bind_eq_ok, require_eq_ok] at copied
    rcases copied with ⟨_, _, copied⟩
    cases found : lookup key table with
    | some old =>
      simp only [found, bind_eq_ok, require_eq_ok, decide_eq_true_eq] at copied
      rcases copied with ⟨_, rfl, copied⟩
      rcases induction copied with ⟨kept, added⟩
      refine ⟨kept, fun other value member => ?_⟩
      rcases List.mem_cons.mp member with same | member
      · cases same
        exact kept _ _ found
      · exact added other value member
    | none =>
      simp only [found] at copied
      rcases induction copied with ⟨kept, added⟩
      refine ⟨includes_append.trans kept, fun other value' member => ?_⟩
      rcases List.mem_cons.mp member with same | member
      · cases same
        apply kept
        rw [lookup_append, found, lookup_cons]
        simp
      · exact added other value' member

theorem includes_of_copyRows {rows table result : List (String × Value)}
    (copied : copyRows sound corrupt rows table = .ok result) : Includes rows result :=
  fun key value found => (copyRows_ok copied).2 key value (mem_of_lookup_eq_some found)

end Rows

theorem copyBlob_ok {digest : String} (copied : copyBlob codec source target digest = .ok later) :
    ∃ blobs, later = { target with blobs } ∧ Includes target.blobs blobs ∧
      verifyBlob codec later (.string digest) = .ok () := by
  simp only [copyBlob, bind_eq_ok] at copied
  rcases copied with ⟨_, verified, copied⟩
  rcases verifyBlob_ok verified with ⟨text, blob, same, found, size, hash⟩
  cases same
  simp only [found] at copied
  cases present : lookup digest target.blobs with
  | some old =>
    simp only [present, bind_eq_ok, require_eq_ok, pure_eq_ok, decide_eq_true_eq] at copied
    rcases copied with ⟨_, ⟨sameSize, sameContent⟩, rfl⟩
    refine ⟨target.blobs, rfl, .refl, ?_⟩
    apply verifyBlob_of_lookup present
    · rw [sameSize, sameContent, size]
    · rw [sameContent, hash]
  | none =>
    simp only [present, pure_eq_ok] at copied
    subst copied
    refine ⟨_, rfl, includes_append, ?_⟩
    refine verifyBlob_of_lookup ?_ size hash
    rw [lookup_append, present, lookup_cons]
    simp

theorem copyBlobs_ok {digests : List String}
    (copied : copyBlobs codec source digests target = .ok later) :
    ∃ blobs, later = { target with blobs } ∧ Includes target.blobs blobs ∧
      ∀ digest ∈ digests, verifyBlob codec later (.string digest) = .ok () := by
  induction digests generalizing target with
  | nil =>
    cases copied
    exact ⟨later.blobs, rfl, .refl, by simp⟩
  | cons digest digests induction =>
    simp only [copyBlobs, bind_eq_ok] at copied
    rcases copied with ⟨middle, first, copied⟩
    rcases copyBlob_ok first with ⟨blobs, rfl, more, verified⟩
    rcases induction copied with ⟨blobs', rfl, more', rest⟩
    refine ⟨blobs', rfl, more.trans more', fun other member => ?_⟩
    rcases List.mem_cons.mp member with rfl | member
    · exact verifyBlob_mono more' verified
    · exact rest other member

theorem copySemanticHistory_ok (copied : copySemanticHistory codec source target = .ok later) :
    ∃ middle, copyBlobs codec source (digests source) target = .ok middle ∧
      later.blobs = middle.blobs ∧
      copyRows (objectSound codec) "semantic_copy_object_corrupt" source.objects target.objects =
        .ok later.objects ∧
      copyRows (fun key subject => codec.subjectId subject == key)
        "semantic_copy_subject_corrupt" source.subjects target.subjects = .ok later.subjects ∧
      copyRows (fun _ _ => true) "" source.versions target.versions = .ok later.versions ∧
      copySpans source.spans target.spans = .ok later.spans ∧
      copyRows (fun key coverage => codec.coverageId coverage == key)
        "semantic_copy_coverage_corrupt" source.coverage target.coverage = .ok later.coverage ∧
      readAll codec later source.versions = .ok () ∧
      later.stream = target.stream ∧ later.maxBytes = target.maxBytes ∧
      capacity codec later 0 = .ok () := by
  simp only [copySemanticHistory, bind_eq_ok, pure_eq_ok] at copied
  rcases copied with ⟨middle, blobs, objects, objectsCopied, subjects, subjectsCopied, versions,
    versionsCopied, spans, spansCopied, coverage, coverageCopied, _, readBack, _, fits, rfl⟩
  rcases copyBlobs_ok blobs with ⟨_, rfl, _, _⟩
  exact ⟨_, blobs, rfl, objectsCopied, subjectsCopied, versionsCopied, spansCopied,
    coverageCopied, readBack, rfl, rfl, fits⟩

theorem kept_of_copy (copied : copySemanticHistory codec source target = .ok later) :
    Kept target later := by
  rcases copySemanticHistory_ok copied with
    ⟨middle, blobs, sameBlobs, objects, subjects, versions, _⟩
  rcases copyBlobs_ok blobs with ⟨_, rfl, moreBlobs, _⟩
  exact ⟨(copyRows_ok objects).1, (copyRows_ok subjects).1, (copyRows_ok versions).1,
    sameBlobs ▸ moreBlobs⟩

theorem Written.of_includes {versionId : String} {record : Record}
    (written : Written codec source versionId record)
    (objects : Includes source.objects later.objects)
    (subjects : Includes source.subjects later.subjects)
    (versions : Includes source.versions later.versions)
    (held : ∀ digest ∈ digests source, verifyBlob codec later (.string digest) = .ok ()) :
    Written codec later versionId record := by
  rcases written with ⟨subject, ⟨objectId, column, stored, found, bound, named⟩, verified⟩
  constructor
  · exact subjects _ _ subject
  · exact ⟨objectId, column, stored.mono objects, versions _ _ found, bound, named⟩
  · unfold verifyGiven at verified ⊢
    split
    · rename_i given
      rw [if_pos given] at verified
      rcases verifyBlob_ok verified with ⟨text, blob, same, _⟩
      rw [same] at bound ⊢
      cases bound
      apply held
      rw [digests, List.mem_dedup, List.mem_filterMap]
      exact ⟨_, mem_of_lookup_eq_some found, rfl⟩
    · rfl

theorem Written.copied {versionId : String} {record : Record}
    (written : Written codec source versionId record)
    (copied : copySemanticHistory codec source target = .ok later) :
    Written codec later versionId record := by
  rcases copySemanticHistory_ok copied with
    ⟨middle, blobs, sameBlobs, objects, subjects, versions, _⟩
  rcases copyBlobs_ok blobs with ⟨_, rfl, _, verified⟩
  apply written.of_includes (includes_of_copyRows objects) (includes_of_copyRows subjects)
    (includes_of_copyRows versions)
  exact fun digest member => verifyBlob_mono (sameBlobs ▸ .refl) (verified digest member)

end JobAgg.SemanticHistory
