import JobAgg.SyncQueue.Orders

/-! # Linear histories as coherent ones

A collection accepts an operation that leaves a revision its object had before; a replica
does not. With fresh revisions every operation of a linear history has its parent before
it, so that the history is coherent, alone and beside a snapshot folded from it. -/

namespace JobAgg.SyncQueue

variable {Digest Tag : Type} {library : SnapshotLibrary Digest Tag} {collectionId : String}
  {operations : List Operation} {operation earlier : Operation} {facts : Set (Fact Digest)}
  {snapshot : Snapshot Digest Tag} {snapshots : List (Snapshot Digest Tag)}

def FreshRevisions (operations : List Operation) : Prop :=
  (operations.map (·.envelope.revisionKey)).Nodup

theorem exists_of_lastRevision {object revision : String}
    (found : lastRevision object operations = some revision) :
    ∃ operation ∈ operations, operation.envelope.revisionKey = toLex (object, revision) := by
  rw [lastRevision, Option.map_eq_some_iff] at found
  obtain ⟨operation, last, same⟩ := found
  obtain ⟨member, holds⟩ := mem_written.mp (List.mem_of_getLast? last)
  exact ⟨operation, member, by rw [Envelope.revisionKey, holds, same]⟩

theorem lastRevision_isSome (member : operation ∈ operations) :
    ∃ revision, lastRevision operation.envelope.objectId operations = some revision := by
  have listed : operation ∈ written operation.envelope.objectId operations :=
    mem_written.mpr ⟨member, rfl⟩
  cases last : (written operation.envelope.objectId operations).getLast? with
  | none =>
    rw [List.getLast?_eq_none_iff] at last
    rw [last] at listed
    cases listed
  | some latest => exact ⟨latest.envelope.revision, by rw [lastRevision, last, Option.map_some]⟩

theorem Linear.acyclic (linear : Linear operations) (fresh : FreshRevisions operations)
    (sourced : ∀ envelope, .envelope envelope ∈ facts →
      ∃ operation ∈ operations, operation.envelope = envelope) : Acyclic facts := by
  let position := fun key => (operations.map (·.envelope.revisionKey)).idxOf key
  have back : ∀ child parent, Parent facts child parent → position parent < position child := by
    rintro child parent ⟨envelope, stated, rfl, revision, names, rfl⟩
    obtain ⟨operation, member, rfl⟩ := sourced envelope stated
    obtain ⟨before, after, split⟩ := List.append_of_mem member
    have parent := linear.continues before operation after split
    rw [names] at parent
    obtain ⟨source, listed, same⟩ := exists_of_lastRevision parent.symm
    have inside : toLex (operation.envelope.objectId, revision) ∈
        before.map (·.envelope.revisionKey) := List.mem_map.mpr ⟨source, listed, same⟩
    have outside : operation.envelope.revisionKey ∉ before.map (·.envelope.revisionKey) := by
      rw [FreshRevisions, split, List.map_append, List.nodup_append] at fresh
      exact fun held => fresh.2.2 _ held _ List.mem_cons_self rfl
    calc position (toLex (operation.envelope.objectId, revision))
        = (before.map (·.envelope.revisionKey)).idxOf
            (toLex (operation.envelope.objectId, revision)) := by
          simp only [position, split, List.map_append]
          exact List.idxOf_append_of_mem inside
      _ < (before.map (·.envelope.revisionKey)).length := List.idxOf_lt_length_of_mem inside
      _ ≤ position operation.envelope.revisionKey := by
          simp only [position, split, List.map_append]
          rw [List.idxOf_append_of_notMem outside]
          omega
  intro key cycle
  have below : ∀ last, Relation.TransGen (Parent facts) key last → position last < position key := by
    intro last path
    induction path with
    | single step => exact back _ _ step
    | tail _ step shorter => exact (back _ _ step).trans shorter
  exact lt_irrefl _ (below key cycle)

theorem Linear.reaches (linear : Linear operations) (member : earlier ∈ operations)
    (stated : ∀ operation ∈ operations, .envelope operation.envelope ∈ facts)
    {revision : String}
    (last : lastRevision earlier.envelope.objectId operations = some revision) :
    Relation.ReflTransGen (Parent facts) (toLex (earlier.envelope.objectId, revision))
      earlier.envelope.revisionKey := by
  induction operations using List.reverseRecOn generalizing revision with
  | nil => cases member
  | append_singleton before latest induction =>
    obtain ⟨linearBefore, extending⟩ := linear_concat.mp linear
    have statedBefore : ∀ operation ∈ before, .envelope operation.envelope ∈ facts :=
      fun operation listed => stated operation (List.mem_append_left _ listed)
    rw [lastRevision_concat] at last
    by_cases same : latest.envelope.objectId = earlier.envelope.objectId
    · rw [if_pos same, Option.some.injEq] at last
      rcases List.mem_append.mp member with listed | listed
      · obtain ⟨parent, found⟩ := lastRevision_isSome listed
        have step : Parent facts (toLex (earlier.envelope.objectId, revision))
            (toLex (earlier.envelope.objectId, parent)) := by
          refine ⟨latest.envelope, stated latest (by simp), ?_, parent, ?_, ?_⟩
          · rw [Envelope.revisionKey, same, last]
          · rw [extending.parent, same, found]
          · rw [same]
        exact .head step (induction linearBefore listed statedBefore found)
      · rw [List.mem_singleton] at listed
        rw [listed, Envelope.revisionKey, last]
    · rw [if_neg same] at last
      rcases List.mem_append.mp member with listed | listed
      · exact induction linearBefore listed statedBefore last
      · exact absurd (by rw [List.mem_singleton.mp listed]) same

theorem Linear.fresh (linear : Linear operations) (acyclic : Acyclic facts)
    (stated : ∀ operation ∈ operations, .envelope operation.envelope ∈ facts) :
    FreshRevisions operations := by
  induction operations using List.reverseRecOn with
  | nil => exact List.nodup_nil
  | append_singleton before latest induction =>
    obtain ⟨linearBefore, extending⟩ := linear_concat.mp linear
    have statedBefore : ∀ operation ∈ before, .envelope operation.envelope ∈ facts :=
      fun operation listed => stated operation (List.mem_append_left _ listed)
    rw [FreshRevisions, List.map_append, List.map_singleton, ← List.concat_eq_append]
    apply (induction linearBefore statedBefore).concat
    intro repeated
    obtain ⟨earlier, listed, same⟩ := List.mem_map.mp repeated
    have object : earlier.envelope.objectId = latest.envelope.objectId :=
      congrArg (fun key : RevisionKey => (ofLex key).1) same
    obtain ⟨parent, found⟩ := lastRevision_isSome listed
    have step : Parent facts latest.envelope.revisionKey
        (toLex (earlier.envelope.objectId, parent)) := by
      refine ⟨latest.envelope, stated latest (by simp), rfl, parent, ?_, ?_⟩
      · rw [extending.parent, ← object, found]
      · rw [object]
    have path := linearBefore.reaches listed statedBefore found
    rw [same] at path
    exact acyclic _ (.head' step path)

theorem Accepted.consistent (accepted : Accepted library.toLibrary operations)
    (receipts : ∀ identity digest, .receipt identity digest ∈ facts →
      ∃ operation ∈ operations, operation.operationId = identity ∧
        library.fingerprint operation = digest)
    (owners : ∀ key identity, .owner key identity ∈ facts →
      ∃ operation ∈ operations, operation.sequenceKey = key ∧ operation.operationId = identity)
    (parents : ∀ envelope : Envelope, .envelope envelope ∈ facts →
      envelope.parentRevision ≠ some envelope.revision)
    (revisions : ∀ first second : Envelope, .envelope first ∈ facts → .envelope second ∈ facts →
      first.revisionKey = second.revisionKey → first = second) : Consistent facts where
  receipts := by
    intro identity first second one other
    obtain ⟨left, member, rfl, rfl⟩ := receipts _ _ one
    obtain ⟨right, listed, same, rfl⟩ := receipts _ _ other
    rw [eq_of_key_eq accepted.distinct listed member same]
  owners := by
    intro key first second one other
    obtain ⟨left, member, rfl, rfl⟩ := owners _ _ one
    obtain ⟨right, listed, same, rfl⟩ := owners _ _ other
    rw [eq_of_key_eq accepted.linear.sequenceKeys_distinct listed member same]
  sequences := by
    intro identity first second one other
    obtain ⟨left, member, rfl, rfl⟩ := owners _ _ one
    obtain ⟨right, listed, rfl, same⟩ := owners _ _ other
    rw [eq_of_key_eq accepted.distinct listed member same]
  parents := fun member => parents _ member
  revisions := fun one other same => revisions _ _ one other same

/-- A linear history with fresh revisions is coherent, beside snapshots folded from it. -/
theorem Accepted.coherent (accepted : Accepted library.toLibrary operations)
    (fresh : FreshRevisions operations)
    (made : ∀ snapshot ∈ snapshots, Made library collectionId snapshot operations) :
    Coherent library.toLibrary operations snapshots := by
  have receipts : ∀ identity digest,
      .receipt identity digest ∈ historyFacts library.toLibrary operations snapshots →
        ∃ operation ∈ operations, operation.operationId = identity ∧
          library.fingerprint operation = digest := by
    intro identity digest stated
    rcases mem_historyFacts.mp stated with ⟨snapshot, member, found⟩ | ⟨operation, member, fact⟩
    · exact (made snapshot member).receipt.mp found
    · simp only [operationFacts, Set.mem_insert_iff, Set.mem_singleton_iff, Fact.receipt.injEq,
        reduceCtorEq, or_false] at fact
      exact ⟨operation, member, fact.1.symm, fact.2.symm⟩
  have owners : ∀ key identity,
      .owner key identity ∈ historyFacts library.toLibrary operations snapshots →
        ∃ operation ∈ operations, operation.sequenceKey = key ∧
          operation.operationId = identity := by
    intro key identity stated
    rcases mem_historyFacts.mp stated with ⟨snapshot, member, found⟩ | ⟨operation, member, fact⟩
    · exact (made snapshot member).owner.mp found
    · simp only [operationFacts, Set.mem_insert_iff, Set.mem_singleton_iff, Fact.owner.injEq,
        reduceCtorEq, or_false, false_or] at fact
      exact ⟨operation, member, fact.1.symm, fact.2.symm⟩
  have sourced : ∀ envelope : Envelope,
      .envelope envelope ∈ historyFacts library.toLibrary operations snapshots →
        ∃ operation ∈ operations, operation.envelope = envelope := by
    intro envelope stated
    rcases mem_historyFacts.mp stated with ⟨snapshot, member, found⟩ | ⟨operation, member, fact⟩
    · have last := (made snapshot member).record.mp found
      rw [lastEnvelope, Option.map_eq_some_iff] at last
      obtain ⟨operation, latest, same⟩ := last
      exact ⟨operation, (mem_written.mp (List.mem_of_getLast? latest)).1, same⟩
    · simp only [operationFacts, Set.mem_insert_iff, Set.mem_singleton_iff, Fact.envelope.injEq,
        reduceCtorEq, false_or] at fact
      exact ⟨operation, member, fact.symm⟩
  have acyclic := accepted.linear.acyclic fresh sourced
  refine ⟨accepted.consistent receipts owners ?_ ?_, acyclic, ?_⟩
  · intro envelope stated names
    exact acyclic _ (.single ⟨envelope, stated, rfl, envelope.revision, names, rfl⟩)
  · intro first second one other same
    obtain ⟨left, member, rfl⟩ := sourced first one
    obtain ⟨right, listed, rfl⟩ := sourced second other
    rw [eq_of_key_eq fresh member listed same]
  · intro identities received
    have inside : identities ⊆ (operations.map (·.operationId)).toFinset := by
      intro identity member
      obtain ⟨digest, stated⟩ := received identity member
      obtain ⟨operation, listed, rfl, -⟩ := receipts _ _ stated
      exact List.mem_toFinset.mpr (List.mem_map_of_mem listed)
    have room := accepted.room
    have size := (Finset.card_le_card inside).trans (List.toFinset_card_le _)
    rw [List.length_map] at size
    omega

theorem Accepted.coherent_iff (accepted : Accepted library.toLibrary operations) :
    Coherent library.toLibrary operations ([] : List (Snapshot Digest Tag)) ↔
      FreshRevisions operations := by
  constructor
  · intro coherent
    apply accepted.linear.fresh coherent.acyclic
    intro operation member
    exact mem_historyFacts.mpr (.inr ⟨operation, member, .inr (.inr rfl)⟩)
  · intro fresh
    have none_ : ∀ snapshot ∈ ([] : List (Snapshot Digest Tag)),
        Made library "" snapshot operations := fun _ member => absurd member List.not_mem_nil
    exact accepted.coherent fresh none_

/-- No object's last envelope continues its own revision. -/
def ProperLast (operations : List Operation) : Prop :=
  ∀ object envelope, lastEnvelope object operations = some envelope →
    envelope.parentRevision ≠ some envelope.revision

/-- A snapshot alone is coherent exactly when no record continues its own revision. -/
theorem Made.coherent_iff (made : Made library collectionId snapshot operations) :
    Coherent library.toLibrary [] [snapshot] ↔ ProperLast operations := by
  have facts : historyFacts library.toLibrary [] [snapshot] = snapshotFacts snapshot := by
    simp [historyFacts]
  have recorded : ∀ envelope : Envelope, .envelope envelope ∈ snapshotFacts snapshot →
      lastEnvelope envelope.objectId operations = some envelope :=
    fun envelope stated => made.record.mp stated
  constructor
  · intro coherent object envelope last
    have same : envelope.objectId = object := by
      rw [lastEnvelope, Option.map_eq_some_iff] at last
      obtain ⟨operation, latest, rfl⟩ := last
      exact (mem_written.mp (List.mem_of_getLast? latest)).2
    apply coherent.consistent.parents
    rw [facts]
    exact made.record.mpr (same ▸ last)
  · intro proper
    have parents : ∀ envelope : Envelope, .envelope envelope ∈ snapshotFacts snapshot →
        envelope.parentRevision ≠ some envelope.revision :=
      fun envelope stated => proper _ _ (recorded envelope stated)
    have alone : ∀ first second : Envelope, .envelope first ∈ snapshotFacts snapshot →
        .envelope second ∈ snapshotFacts snapshot → first.objectId = second.objectId →
        first = second := by
      intro first second one other same
      have left := recorded first one
      rw [same, recorded second other, Option.some.injEq] at left
      exact left.symm
    -- an object has one record, and its parent is not that record's revision
    have stops : ∀ child parent next, Parent (snapshotFacts snapshot) child parent →
        parent ≠ child ∧ ¬ Parent (snapshotFacts snapshot) parent next := by
      rintro child parent next ⟨envelope, stated, rfl, revision, names, rfl⟩
      have other : ∀ record : Envelope, .envelope record ∈ snapshotFacts snapshot →
          toLex (envelope.objectId, revision) ≠ record.revisionKey := by
        intro record listed same
        simp only [Envelope.revisionKey, EmbeddingLike.apply_eq_iff_eq, Prod.mk.injEq] at same
        have equal := alone envelope record stated listed same.1
        apply parents envelope stated
        rw [names, same.2, equal]
      refine ⟨other envelope stated, ?_⟩
      rintro ⟨record, listed, same, -⟩
      exact other record listed same.symm
    rw [← facts] at recorded parents alone stops
    refine ⟨?_, ?_, ?_⟩
    · apply made.accepted.consistent
      · intro identity digest stated
        rw [facts] at stated
        exact made.receipt.mp stated
      · intro key identity stated
        rw [facts] at stated
        exact made.owner.mp stated
      · exact parents
      · intro first second one other same
        exact alone first second one other (congrArg (fun key : RevisionKey => (ofLex key).1) same)
    · intro key cycle
      obtain ⟨next, first, back⟩ := Relation.TransGen.head'_iff.mp cycle
      rcases Relation.ReflTransGen.cases_head back with same | ⟨after, second, -⟩
      · exact (stops _ _ key first).1 same
      · exact (stops _ _ after first).2 second
    · intro identities received
      have inside : identities ⊆ (operations.map (·.operationId)).toFinset := by
        intro identity member
        obtain ⟨digest, stated⟩ := received identity member
        rw [facts] at stated
        obtain ⟨operation, listed, rfl, -⟩ := made.receipt.mp stated
        exact List.mem_toFinset.mpr (List.mem_map_of_mem listed)
      have room := made.accepted.room
      have size := (Finset.card_le_card inside).trans (List.toFinset_card_le _)
      rw [List.length_map] at size
      omega

end JobAgg.SyncQueue
