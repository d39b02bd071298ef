import JobAgg.SemanticHistory.Databases
import JobAgg.SemanticHistory.ReadBack

/-! # Copies as unions

Copies into one database leave the union of all tables, whatever their order. A copy of
an uncorrupted database raises only for capacity exactly when the blobs of all versions
are there and all payloads are within the read budget.
-/

namespace JobAgg.SemanticHistory

variable {codec : Codec} {source target later : Store} {sources : List Store}

def HasBlob (store : Store) (digest : String) (sizeBytes : ℕ) (content : List UInt8) : Prop :=
  ∃ mediaType, (digest, ⟨mediaType, sizeBytes, content⟩) ∈ store.blobs

structure IsUnion (target : Store) (sources : List Store) (later : Store) : Prop where
  objects : ∀ row, row ∈ later.objects ↔
    row ∈ target.objects ∨ ∃ source ∈ sources, row ∈ source.objects
  subjects : ∀ row, row ∈ later.subjects ↔
    row ∈ target.subjects ∨ ∃ source ∈ sources, row ∈ source.subjects
  versions : ∀ row, row ∈ later.versions ↔
    row ∈ target.versions ∨ ∃ source ∈ sources, row ∈ source.versions
  coverage : ∀ row, row ∈ later.coverage ↔
    row ∈ target.coverage ∨ ∃ source ∈ sources, row ∈ source.coverage
  blobs : ∀ digest sizeBytes content, HasBlob later digest sizeBytes content ↔
    HasBlob target digest sizeBytes content ∨ ∃ source ∈ sources, digest ∈ digests source ∧
      HasBlob source digest sizeBytes content

def BlobRow (target : Store) (sources : List Store) (row : String × Blob) : Prop :=
  row ∈ target.blobs ∨ ∃ source ∈ sources, row.1 ∈ digests source ∧ row ∈ source.blobs

structure CopiedBlobs (source : Store) (named : List String) (target later : Store) : Prop where
  kept : ∀ row ∈ target.blobs, row ∈ later.blobs
  from_ : ∀ row ∈ later.blobs, row ∈ target.blobs ∨ row.1 ∈ named ∧ row ∈ source.blobs
  added : ∀ digest ∈ named, ∀ blob, lookup digest source.blobs = some blob →
    HasBlob later digest blob.sizeBytes blob.content

theorem copyBlob_copied {digest : String} (copied : copyBlob codec source target digest = .ok later) :
    CopiedBlobs source [digest] target later := by
  simp only [copyBlob, bind_eq_ok] at copied
  rcases copied with ⟨_, verified, copied⟩
  rcases verifyBlob_ok verified with ⟨text, blob, same, found, _⟩
  cases same
  simp only [found] at copied
  cases present : lookup digest target.blobs with
  | some old =>
    simp only [present, bind_eq_ok, require_eq_ok, pure_eq_ok, decide_eq_true_eq] at copied
    rcases copied with ⟨_, ⟨sameSize, sameContent⟩, rfl⟩
    refine ⟨fun row member => member, fun row member => .inl member, fun other named blob' found' => ?_⟩
    rw [List.mem_singleton.mp named, found] at found'
    cases found'
    rw [List.mem_singleton.mp named, ← sameSize, ← sameContent]
    exact ⟨old.mediaType, mem_of_lookup_eq_some present⟩
  | none =>
    simp only [present, pure_eq_ok] at copied
    subst copied
    refine ⟨fun row member => List.mem_append_left _ member, fun row member => ?_,
      fun other named blob' found' => ?_⟩
    · rcases List.mem_append.mp member with old | new
      · exact .inl old
      · rw [List.mem_singleton.mp new]
        exact .inr ⟨by simp, mem_of_lookup_eq_some found⟩
    · rw [List.mem_singleton.mp named, found] at found'
      cases found'
      rw [List.mem_singleton.mp named]
      exact ⟨blob.mediaType, by simp⟩

theorem copyBlobs_copied {named : List String}
    (copied : copyBlobs codec source named target = .ok later) :
    CopiedBlobs source named target later := by
  induction named generalizing target with
  | nil =>
    cases copied
    exact ⟨fun row member => member, fun row member => .inl member, by simp⟩
  | cons digest named induction =>
    simp only [copyBlobs, bind_eq_ok] at copied
    rcases copied with ⟨middle, first, rest⟩
    have one := copyBlob_copied first
    have others := induction rest
    refine ⟨fun row member => others.kept row (one.kept row member), fun row member => ?_,
      fun other member blob found => ?_⟩
    · rcases others.from_ row member with inMiddle | ⟨isNamed, inSource⟩
      · rcases one.from_ row inMiddle with old | ⟨isFirst, inSource⟩
        · exact .inl old
        · exact .inr ⟨List.mem_cons.mpr (.inl (List.mem_singleton.mp isFirst)), inSource⟩
      · exact .inr ⟨List.mem_cons_of_mem _ isNamed, inSource⟩
    · rcases List.mem_cons.mp member with rfl | isNamed
      · rcases one.added other (List.mem_singleton_self other) blob found with ⟨media, there⟩
        exact ⟨media, others.kept _ there⟩
      · exact others.added other isNamed blob found

theorem mem_chain {Row : Type} {table : Store → List Row} {middle : Store} {row : Row}
    (first : row ∈ table middle ↔ row ∈ table target ∨ row ∈ table source)
    (rest : row ∈ table later ↔ row ∈ table middle ∨ ∃ source ∈ sources, row ∈ table source) :
    row ∈ table later ↔ row ∈ table target ∨ ∃ other ∈ source :: sources, row ∈ table other := by
  rw [rest, first, or_assoc]
  simp

theorem isUnion_of_copyEach (copied : copyEach codec sources target = .ok later)
    (keys : ∀ source ∈ sources, (source.blobs.map Prod.fst).Nodup) :
    IsUnion target sources later ∧ (∀ row ∈ target.blobs, row ∈ later.blobs) ∧
      ∀ row ∈ later.blobs, BlobRow target sources row := by
  induction sources generalizing target with
  | nil =>
    cases copied
    refine ⟨?_, fun row member => member, fun row member => .inl member⟩
    constructor <;> simp
  | cons source sources induction =>
    simp only [copyEach, bind_eq_ok] at copied
    rcases copied with ⟨middle, first, rest⟩
    rcases induction rest (fun other member => keys other (List.mem_cons_of_mem _ member)) with
      ⟨union, keptRows, fromRows⟩
    rcases copySemanticHistory_ok first with
      ⟨withBlobs, blobs, sameBlobs, objects, subjects, versions, _, coverage, _⟩
    have copiedBlobs := copyBlobs_copied blobs
    refine ⟨⟨fun row => mem_chain (mem_copyRows objects row) (union.objects row),
      fun row => mem_chain (mem_copyRows subjects row) (union.subjects row),
      fun row => mem_chain (mem_copyRows versions row) (union.versions row),
      fun row => mem_chain (mem_copyRows coverage row) (union.coverage row),
      fun digest sizeBytes content => ?_⟩, fun row member => ?_, fun row member => ?_⟩
    · rw [union.blobs]
      constructor
      · rintro (⟨media, inMiddle⟩ | ⟨other, member, isNamed, there⟩)
        · rw [sameBlobs] at inMiddle
          rcases copiedBlobs.from_ _ inMiddle with old | ⟨isNamed, inSource⟩
          · exact .inl ⟨media, old⟩
          · exact .inr ⟨source, List.mem_cons_self, isNamed, media, inSource⟩
        · exact .inr ⟨other, List.mem_cons_of_mem _ member, isNamed, there⟩
      · rintro (⟨media, old⟩ | ⟨other, member, isNamed, media, there⟩)
        · exact .inl ⟨media, sameBlobs ▸ copiedBlobs.kept _ old⟩
        · rcases List.mem_cons.mp member with rfl | later'
          · left
            rcases copiedBlobs.added digest isNamed _
              (lookup_eq_some_of_mem (keys other List.mem_cons_self) there) with ⟨media', row⟩
            exact ⟨media', sameBlobs ▸ row⟩
          · exact .inr ⟨other, later', isNamed, media, there⟩
    · exact keptRows row (sameBlobs ▸ copiedBlobs.kept row member)
    · rcases fromRows row member with inMiddle | ⟨other, member', isNamed, there⟩
      · rw [sameBlobs] at inMiddle
        rcases copiedBlobs.from_ row inMiddle with old | ⟨isNamed, inSource⟩
        · exact .inl old
        · exact .inr ⟨source, List.mem_cons_self, isNamed, inSource⟩
      · exact .inr ⟨other, List.mem_cons_of_mem _ member', isNamed, there⟩

def OneMediaType (target : Store) (sources : List Store) : Prop :=
  ∀ digest left right, BlobRow target sources (digest, left) →
    BlobRow target sources (digest, right) → left.mediaType = right.mediaType

theorem blobRows_iff (copied : copyEach codec sources target = .ok later)
    (keys : (later.blobs.map Prod.fst).Nodup)
    (sourceKeys : ∀ source ∈ sources, (source.blobs.map Prod.fst).Nodup) :
    (∀ row, row ∈ later.blobs ↔ BlobRow target sources row) ↔ OneMediaType target sources := by
  rcases isUnion_of_copyEach copied sourceKeys with ⟨union, kept, from_⟩
  constructor
  · intro rows digest left right inLeft inRight
    have leftFound := lookup_eq_some_of_mem keys ((rows _).mpr inLeft)
    have rightFound := lookup_eq_some_of_mem keys ((rows _).mpr inRight)
    rw [leftFound, Option.some.injEq] at rightFound
    rw [rightFound]
  · intro oneMedia row
    refine ⟨from_ row, fun held => ?_⟩
    rcases row with ⟨digest, ⟨media, sizeBytes, content⟩⟩
    have there : HasBlob later digest sizeBytes content := by
      rw [union.blobs]
      rcases held with old | ⟨source, member, isNamed, inSource⟩
      · exact .inl ⟨media, old⟩
      · exact .inr ⟨source, member, isNamed, media, inSource⟩
    rcases there with ⟨media', inLater⟩
    have sameMedia := oneMedia digest _ _ (from_ _ inLater) held
    dsimp only at sameMedia
    rw [← sameMedia]
    exact inLater

/-- What a copy may raise. -/
def Expected (message : String) : Prop :=
  message = "semantic_history_capacity_deferred" ∨ message = "semantic_copy_span_conflict"

/-- Every digest of a version names a blob that is there, and every version can be read. -/
structure Copyable (codec : Codec) (source : Store) : Prop where
  held : ∀ digest ∈ digests source, verifyBlob codec source (.string digest) = .ok ()
  readable : ∀ versionId record, Written codec source versionId record →
    record.payload.DistinctKeys → record.payload.nodes ≤ maxGraphNodes ∧ Textual record.blob

theorem verifyBlob_text (codec : Codec) (source : Store) (digest : String) :
    verifyBlob codec source (.string digest) = .ok () ∨
      verifyBlob codec source (.string digest) =
        .error "semantic_document_blob_missing_or_corrupt" := by
  simp only [verifyBlob, bindText, ok_bind, Option.bind_some]
  cases lookup digest source.blobs with
  | none => exact .inr rfl
  | some blob =>
    simp only [require]
    split
    · exact .inl rfl
    · exact .inr rfl

theorem copyBlob_accepts (injective : codec.Injective) (tidy : Keyed (namesBlob codec) source.blobs)
    (tidyTarget : Keyed (namesBlob codec) target.blobs) {digest : String}
    (held : verifyBlob codec source (.string digest) = .ok ()) :
    ∃ later, copyBlob codec source target digest = .ok later ∧
      Keyed (namesBlob codec) later.blobs := by
  rcases verifyBlob_ok held with ⟨text, blob, same, found, size, hash⟩
  cases same
  have named := tidy.names digest blob (mem_of_lookup_eq_some found)
  cases present : lookup digest target.blobs with
  | some old =>
    have namedOld := tidyTarget.names digest old (mem_of_lookup_eq_some present)
    have sameContent : old.content = blob.content :=
      injective.sha256 (namedOld.1.trans named.1.symm)
    have sameSize : old.sizeBytes = blob.sizeBytes := by
      rw [← namedOld.2, ← named.2, sameContent]
    refine ⟨target, ?_, tidyTarget⟩
    simp [copyBlob, held, found, present, sameContent, sameSize, require, bind, Except.bind, pure,
      Except.pure]
  | none =>
    refine ⟨{ target with blobs := target.blobs ++ [(digest, blob)] }, ?_,
      tidyTarget.append present named⟩
    simp [copyBlob, held, found, present, bind, Except.bind, pure, Except.pure]

theorem copyBlobs_outcome (injective : codec.Injective)
    (tidy : Keyed (namesBlob codec) source.blobs)
    (tidyTarget : Keyed (namesBlob codec) target.blobs) (named : List String) :
    (∀ digest ∈ named, verifyBlob codec source (.string digest) = .ok ()) ∧
        (∃ later, copyBlobs codec source named target = .ok later) ∨
      (∃ digest ∈ named, verifyBlob codec source (.string digest) ≠ .ok ()) ∧
        copyBlobs codec source named target =
          .error "semantic_document_blob_missing_or_corrupt" := by
  induction named generalizing target with
  | nil => exact .inl ⟨by simp, target, rfl⟩
  | cons digest named induction =>
    rcases verifyBlob_text codec source digest with held | missing
    · rcases copyBlob_accepts injective tidy tidyTarget held with ⟨middle, first, tidyMiddle⟩
      rcases induction tidyMiddle with ⟨all, later, rest⟩ | ⟨⟨other, member, absent⟩, stopped⟩
      · refine .inl ⟨fun other member => ?_, later, ?_⟩
        · rcases List.mem_cons.mp member with rfl | member
          · exact held
          · exact all other member
        · rw [copyBlobs, first]
          exact rest
      · refine .inr ⟨⟨other, List.mem_cons_of_mem _ member, absent⟩, ?_⟩
        rw [copyBlobs, first]
        exact stopped
    · refine .inr ⟨⟨digest, List.mem_cons_self, by simp [missing]⟩, ?_⟩
      simp [copyBlobs, copyBlob, missing, bind, Except.bind]

def namesVersion (codec : Codec) (versionId : String) (row : Version) : Prop :=
  ∃ blob, bindText blob = .ok row.blobSha256 ∧
    codec.versionId row.subjectId row.entityKind row.entityKey row.objectId blob = versionId

theorem Tidy.namedVersions (tidy : Tidy codec source) :
    Keyed (namesVersion codec) source.versions := by
  refine ⟨tidy.versions, fun versionId row member => ?_⟩
  rcases tidy.written versionId (List.mem_map_of_mem member) with ⟨record, written, _⟩
  rcases written.version with ⟨objectId, column, _, found, bound, named⟩
  rw [lookup_eq_some_of_mem tidy.versions member, Option.some.injEq] at found
  subst found
  exact ⟨record.blob, bound, named⟩

theorem copy_outcome (injective : codec.Injective) (tidySource : Tidy codec source)
    (tidyTarget : Tidy codec target) (agree : SpansAgree source target) :
    (∃ digest ∈ digests source, verifyBlob codec source (.string digest) ≠ .ok ()) ∧
        copySemanticHistory codec source target =
          .error "semantic_document_blob_missing_or_corrupt" ∨
      (∀ digest ∈ digests source, verifyBlob codec source (.string digest) = .ok ()) ∧
        ∃ later, (∀ versionId record, Written codec source versionId record →
            Written codec later versionId record) ∧
          copySemanticHistory codec source target = (do
            readAll codec later source.versions
            capacity codec later 0
            return later) := by
  rcases copyBlobs_outcome injective tidySource.blobs tidyTarget.blobs (digests source) with
    ⟨held, middle, blobs⟩ | ⟨missing, stopped⟩
  · right
    rcases copyBlobs_ok blobs with ⟨table, rfl, _, verified⟩
    rcases copyRows_accepts (objectSound codec) "semantic_copy_object_corrupt" tidyTarget.objects
      tidySource.objects
      (by
        rintro key ⟨payload, size⟩ ⟨payload', size'⟩ ⟨named, sized⟩ ⟨named', sized'⟩
        cases injective.object (named.trans named'.symm)
        exact congrArg _ (sized.symm.trans sized'))
      (fun key object named => by simp [objectSound, named.1, named.2])
      with ⟨objects, objectsCopied⟩
    rcases copyRows_accepts (fun key subject => codec.subjectId subject == key)
      "semantic_copy_subject_corrupt" tidyTarget.subjects tidySource.subjects
      (fun key left right named named' => injective.subject (named.trans named'.symm))
      (fun key subject named => by simp [named]) with ⟨subjects, subjectsCopied⟩
    rcases copyRows_accepts (fun _ _ => true) "" tidyTarget.namedVersions tidySource.namedVersions
      (by
        rintro key ⟨subject, kind, entity, object, column⟩ ⟨subject', kind', entity', object',
          column'⟩ ⟨blob, bound, named⟩ ⟨blob', bound', named'⟩
        rcases injective.version (named.trans named'.symm) with ⟨rfl, rfl, rfl, rfl, rfl⟩
        cases bound.symm.trans bound'
        rfl)
      (fun _ _ _ => rfl) with ⟨versions, versionsCopied⟩
    rcases copySpans_merged agree with ⟨spans, spansCopied, _⟩
    rcases copyRows_accepts (fun key coverage => codec.coverageId coverage == key)
      "semantic_copy_coverage_corrupt" tidyTarget.coverage tidySource.coverage
      (fun key left right named named' => injective.coverage (named.trans named'.symm))
      (fun key coverage named => by simp [named]) with ⟨coverage, coverageCopied⟩
    refine ⟨held, { target with blobs := table, objects, subjects, versions, spans, coverage },
      fun versionId record written => ?_, ?_⟩
    · apply written.of_includes (includes_of_copyRows objectsCopied)
        (includes_of_copyRows subjectsCopied) (includes_of_copyRows versionsCopied)
      exact fun digest member => verifyBlob_mono .refl (verified digest member)
    · simp only [copySemanticHistory, blobs, ok_bind, objectsCopied, subjectsCopied,
        versionsCopied, spansCopied, coverageCopied]
  · left
    refine ⟨missing, ?_⟩
    rw [copySemanticHistory, stopped]
    rfl

theorem readVersion_outcome (injective : codec.Injective) {versionId : String} {record : Record}
    (written : Written codec source versionId record) (distinct : record.payload.DistinctKeys) :
    (record.payload.nodes ≤ maxGraphNodes ∧ Textual record.blob) ∧
        (∃ read, readVersion codec source versionId = .ok read) ∨
      ¬ (record.payload.nodes ≤ maxGraphNodes ∧ Textual record.blob) ∧
        ∃ message, readVersion codec source versionId = .error message ∧ ¬ Expected message := by
  by_cases readable : record.payload.nodes ≤ maxGraphNodes ∧ Textual record.blob
  · left
    rcases (readsBack_iff injective written distinct).mpr readable with ⟨read, readOk, _⟩
    exact ⟨readable, read, readOk⟩
  · right
    refine ⟨readable, ?_⟩
    rcases written with ⟨subject, ⟨objectId, column, stored, found, bound, named⟩, verified⟩
    by_cases textual : Textual record.blob
    · have sameColumn := (textual_iff bound).mp textual
      have tooLarge : ¬ record.payload.sortKeys.nodes ≤ maxGraphNodes := by
        rw [Json.nodes_sortKeys]
        exact fun fits => readable ⟨fits, textual⟩
      have nothingSeen : Above codec source.objects [] record.payload.sortKeys.nodes := by
        simp [Above]
      have readPayload := readObject_eq (Json.distinctKeys_sortKeys distinct) stored
        (le_refl maxGraphNodes) nothingSeen
      rw [within, if_neg tooLarge] at readPayload
      refine ⟨"semantic_object_graph_limit", ?_, by simp [Expected]⟩
      simp only [readVersion, found, sameColumn, named, subject, verified, ok_bind, readPayload]
      simp [require, bind, Except.bind]
    · have otherColumn : columnValue column ≠ record.blob :=
        fun same => textual ((textual_iff bound).mpr same)
      have otherId : codec.versionId (codec.subjectId record.identity) record.kind record.entityKey
          objectId (columnValue column) ≠ versionId := by
        rw [← named]
        exact fun same => otherColumn (injective.version same).2.2.2.2
      refine ⟨"semantic_version_corrupt", ?_, by simp [Expected]⟩
      simp only [readVersion, found]
      simp [require, otherId, bind, Except.bind]

theorem readAll_outcome {rows : List (String × Version)}
    (each : ∀ row ∈ rows, (∃ read, readVersion codec target row.1 = .ok read) ∨
      ∃ message, readVersion codec target row.1 = .error message ∧ ¬ Expected message) :
    (∀ row ∈ rows, ∃ read, readVersion codec target row.1 = .ok read) ∧
        readAll codec target rows = .ok () ∨
      (∃ row ∈ rows, ¬ ∃ read, readVersion codec target row.1 = .ok read) ∧
        ∃ message, readAll codec target rows = .error message ∧ ¬ Expected message := by
  induction rows with
  | nil => exact .inl ⟨by simp, rfl⟩
  | cons row rows induction =>
    rcases each row List.mem_cons_self with ⟨read, readOk⟩ | ⟨message, failed, unexpected⟩
    · rcases induction (fun other member => each other (List.mem_cons_of_mem _ member)) with
        ⟨all, rest⟩ | ⟨⟨other, member, unread⟩, message, failed, unexpected⟩
      · refine .inl ⟨fun other member => ?_, ?_⟩
        · rcases List.mem_cons.mp member with rfl | member
          · exact ⟨read, readOk⟩
          · exact all other member
        · rw [readAll, readOk]
          exact rest
      · refine .inr ⟨⟨other, List.mem_cons_of_mem _ member, unread⟩, message, ?_, unexpected⟩
        rw [readAll, readOk]
        exact failed
    · refine .inr ⟨⟨row, List.mem_cons_self, by simp [failed]⟩, message, ?_, unexpected⟩
      rw [readAll, failed]
      rfl

theorem copyable_iff (injective : codec.Injective) (tidySource : Tidy codec source)
    (tidyTarget : Tidy codec target) (agree : SpansAgree source target) :
    (∀ message, copySemanticHistory codec source target = .error message → Expected message) ↔
      Copyable codec source := by
  rcases copy_outcome injective tidySource tidyTarget agree with
    ⟨⟨digest, member, missing⟩, stopped⟩ | ⟨held, later, whole, goesOn⟩
  · constructor
    · intro expected
      have unexpected := expected _ stopped
      simp [Expected] at unexpected
    · exact fun copyable => absurd (copyable.held digest member) missing
  · have each : ∀ row ∈ source.versions, ∃ record, Written codec source row.1 record ∧
        record.payload.DistinctKeys ∧ Written codec later row.1 record := by
      intro row member
      rcases tidySource.written row.1 (List.mem_map_of_mem member) with ⟨record, written, distinct⟩
      exact ⟨record, written, distinct, whole _ _ written⟩
    have eachRead : ∀ row ∈ source.versions, (∃ read, readVersion codec later row.1 = .ok read) ∨
        ∃ message, readVersion codec later row.1 = .error message ∧ ¬ Expected message := by
      intro row member
      rcases each row member with ⟨record, _, distinct, written⟩
      rcases readVersion_outcome injective written distinct with ⟨_, read⟩ | ⟨_, failed⟩
      · exact .inl read
      · exact .inr failed
    rw [goesOn]
    rcases readAll_outcome eachRead with ⟨all, readOk⟩ | ⟨⟨row, member, unread⟩, message, failed, unexpected⟩
    · rw [readOk]
      constructor
      · intro _
        refine ⟨held, fun versionId record written distinct => ?_⟩
        rcases written.version with ⟨_, _, _, found, _⟩
        rcases all _ (mem_of_lookup_eq_some found) with ⟨read, readOk⟩
        rcases readVersion_outcome injective (whole _ _ written) distinct with
          ⟨readable, _⟩ | ⟨_, message, failed, _⟩
        · exact readable
        · rw [readOk] at failed
          cases failed
      · intro _ message raised
        left
        simp only [ok_bind, capacity, require] at raised
        split at raised
        · cases raised
        · cases raised
          rfl
    · rw [failed]
      constructor
      · intro expected
        exact absurd (expected message rfl) unexpected
      · intro copyable
        rcases each row member with ⟨record, written, distinct, writtenLater⟩
        rcases readVersion_outcome injective writtenLater distinct with ⟨_, read⟩ | ⟨unreadable, _⟩
        · exact absurd read unread
        · exact absurd (copyable.readable row.1 record written distinct) unreadable

variable {stores : String → Store}

/-- Copies are unions of all tables. The spans, their last operation aside, depend on
neither the order nor the repetition of the sources; the blobs keep their rows exactly
when the media types agree; and a further copy raises only what it may exactly when its
source is copyable. -/
theorem copies_areUnion (injective : codec.Injective) (databases : Databases codec stores)
    {target : String} {sources : List String} {later : Store}
    (copied : copyEach codec (sources.map stores) (stores target) = .ok later) :
    IsUnion (stores target) (sources.map stores) later ∧
    (∀ (others : List String) (later' : Store), (∀ name, name ∈ others ↔ name ∈ sources) →
      copyEach codec (others.map stores) (stores target) = .ok later' → ∀ key,
        (spanAt key later.spans).map Span.forget = (spanAt key later'.spans).map Span.forget) ∧
    ((∀ row, row ∈ later.blobs ↔ BlobRow (stores target) (sources.map stores) row) ↔
      OneMediaType (stores target) (sources.map stores)) ∧
    ∀ source, (∀ message, copySemanticHistory codec (stores source) later = .error message →
      Expected message) ↔ Copyable codec (stores source) := by
  rcases databases.copyEach (databases.tidy target) (databases.sound.2 target) copied with
    ⟨tidy, agree⟩
  have sourceKeys : ∀ source ∈ sources.map stores, (source.blobs.map Prod.fst).Nodup := by
    intro source member
    rcases List.mem_map.mp member with ⟨name, _, rfl⟩
    exact (databases.tidy name).blobs.keys
  refine ⟨(isUnion_of_copyEach copied sourceKeys).1, fun others later' same copied' key => ?_,
    blobRows_iff copied tidy.blobs.keys sourceKeys, fun source => ?_⟩
  · apply copyEach_spans copied copied'
    · intro source
      simp only [List.mem_map, same]
    · intro source member
      rcases List.mem_map.mp member with ⟨name, _, rfl⟩
      exact (databases.tidy name).spans
    · -- every row of the key comes from some database of the family
      have known : ∀ row ∈ (spanAt key (stores target).spans).toList ++
          rowsAt key (sources.map stores), row.key = key ∧ ∃ name, row ∈ (stores name).spans := by
        intro row member
        rcases List.mem_append.mp member with old | new
        · have found : spanAt key (stores target).spans = some row := by simpa using old
          exact ⟨(key_of_spanAt found).1, target, (key_of_spanAt found).2⟩
        · rcases List.mem_filterMap.mp new with ⟨source, inSources, found⟩
          rcases List.mem_map.mp inSources with ⟨name, _, rfl⟩
          exact ⟨(key_of_spanAt found).1, name, (key_of_spanAt found).2⟩
      intro left leftMember right rightMember
      rcases known left leftMember with ⟨leftKey, name, inLeft⟩
      rcases known right rightMember with ⟨rightKey, name', inRight⟩
      exact SameSpan.of_own databases.tidy (databases.sound.2 name) (databases.sound.2 name')
        inLeft inRight (leftKey.trans rightKey.symm)
  · exact copyable_iff injective (databases.tidy source) tidy
      (.of_own databases.tidy (databases.sound.2 source) agree)

theorem exists_of_isOk {Value : Type} {computation : Except String Value}
    (isOk : computation.isOk = true) : ∃ value, computation = .ok value := by
  cases computation with
  | ok value => exact ⟨value, rfl⟩
  | error message => cases isOk

/-- Empty databases, and one that is not. -/
def family (name : String) (store : Store) : String → Store :=
  Function.update (fun stream => { stream }) name store

def sampleCoverage : Coverage := ⟨"generation", "g", "e", "a", [], [], []⟩

def coveredStore : Store :=
  { stream := "a", coverage := [(plainCodec.coverageId sampleCoverage, sampleCoverage)] }

theorem copies_areUnion_coverage : ∃ stores later, Databases plainCodec stores ∧
    copyEach plainCodec (["a", "a"].map stores) (stores "b") = .ok later ∧
    IsUnion (stores "b") (["a", "a"].map stores) later := by
  have databases : Databases plainCodec (family "a" coveredStore) :=
    .write (.start fun _ => 40000000000) (.coverage rfl)
  rcases exists_of_isOk (show (copyEach plainCodec [coveredStore, coveredStore]
    { stream := "b" }).isOk = true by decide +kernel) with ⟨later, copiedBoth⟩
  generalize coveredStore = store at databases copiedBoth
  have copied : copyEach plainCodec (["a", "a"].map (family "a" store)) (family "a" store "b") =
      .ok later := by
    simpa [family, Function.update_of_ne] using copiedBoth
  exact ⟨_, later, databases, copied, (copies_areUnion plainCodec_injective databases copied).1⟩

/-- A frame of 100,003 values is preserved and stops every copy. -/
theorem copies_areUnion_counterexample : ∃ stores message, Databases plainCodec stores ∧
    copySemanticHistory plainCodec (stores "main") (stores "other") = .error message ∧
      ¬ Expected message := by
  rcases preserve_zeroFrame 99999 (by omega) with ⟨store, versionId, preserved⟩
  have databases : Databases plainCodec (family "main" store) :=
    .write (.start fun _ => 40000000000)
      (.listingFrame (distinctKeys_zeroFrame 100000) preserved)
  have reached : Reached plainCodec store [(versionId, zeroRecord 100000)] :=
    .listingFrame (.start "main" 40000000000) (distinctKeys_zeroFrame 100000)
      (listingRecord_zeroFrame 100000) preserved
  rcases reached.sound versionId _ List.mem_cons_self with ⟨written, distinct⟩
  have agree := SpansAgree.of_own databases.tidy (databases.sound.2 "main")
    (databases.sound.2 "other")
  have iff_ := copyable_iff plainCodec_injective (databases.tidy "main") (databases.tidy "other")
    agree
  have raises : ¬ ∀ message, copySemanticHistory plainCodec store { stream := "other" } =
      .error message → Expected message := by
    intro expected
    have copyable := iff_.mp expected
    have fits := (copyable.readable _ _ written distinct).1
    have size := nodes_zeroFrame 100000
    change (Json.object (zeroFrame 100000)).nodes ≤ 100000 at fits
    omega
  push Not at raises
  rcases raises with ⟨message, raised, unexpected⟩
  exact ⟨_, message, databases, raised, unexpected⟩

end JobAgg.SemanticHistory
