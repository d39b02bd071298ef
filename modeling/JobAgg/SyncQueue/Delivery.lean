import JobAgg.SyncQueue.Appends
import JobAgg.SyncQueue.Coherence

/-! # Deliveries to a replica

What a replica keeps is a coherent history: every snapshot it merged, and of the
operations it received those that were not known when they came. -/

namespace JobAgg.SyncQueue

variable {Digest Tag : Type} {library : SnapshotLibrary Digest Tag} {collectionId : String}

structure Made (library : SnapshotLibrary Digest Tag) (collectionId : String)
    (snapshot : Snapshot Digest Tag) (operations : List Operation) : Prop where
  accepted : Accepted library.toLibrary operations
  folded : ∃ replay lastOrder, Replays library.toLibrary replay operations ∧
    replay.lastOrder = some lastOrder ∧
    snapshot = snapshotOf library collectionId replay lastOrder

variable {snapshot : Snapshot Digest Tag} {operations : List Operation} {operation : Operation}

theorem Made.named (made : Made library collectionId snapshot operations) :
    snapshot.collectionId = collectionId := by
  obtain ⟨replay, lastOrder, -, -, rfl⟩ := made.folded
  rfl

theorem Made.receipt (made : Made library collectionId snapshot operations) {identity : String}
    {digest : Digest} : snapshot.appliedFingerprints.lookup identity = some digest ↔
      ∃ operation ∈ operations, operation.operationId = identity ∧
        library.fingerprint operation = digest := by
  obtain ⟨replay, lastOrder, replays, -, rfl⟩ := made.folded
  show replay.fingerprints.lookup identity = some digest ↔ _
  rw [replays.fingerprints, Option.map_eq_some_iff]
  constructor
  · rintro ⟨operation, found, same⟩
    exact ⟨operation, List.mem_of_find?_eq_some found, by simpa using List.find?_some found, same⟩
  · rintro ⟨operation, member, rfl, same⟩
    exact ⟨operation, find?_key_of_mem made.accepted.distinct member, same⟩

theorem Made.owner (made : Made library collectionId snapshot operations) {key : String ×ₗ Nat}
    {identity : String} : snapshot.authorSequenceOwners.lookup key = some identity ↔
      ∃ operation ∈ operations, operation.sequenceKey = key ∧
        operation.operationId = identity := by
  obtain ⟨replay, lastOrder, replays, -, rfl⟩ := made.folded
  exact replays.owner made.accepted.linear

theorem Made.record (made : Made library collectionId snapshot operations) {envelope : Envelope} :
    envelope ∈ snapshot.records ↔ lastEnvelope envelope.objectId operations = some envelope := by
  obtain ⟨replay, lastOrder, replays, -, rfl⟩ := made.folded
  show envelope ∈ replay.records.items.map (·.2) ↔ _
  rw [List.mem_map, ← replays.records]
  constructor
  · rintro ⟨item, member, rfl⟩
    have stored := Dict.mem_items.mp member
    obtain ⟨-, -, -, same⟩ := replays.record stored
    rwa [same]
  · intro stored
    exact ⟨_, Dict.mem_items.mpr stored, rfl⟩

theorem Made.backed (made : Made library collectionId snapshot operations) : snapshot.Backed := by
  intro device covered sequence member positive bound
  have linear := made.accepted.linear
  have covers : snapshot.authorSequences.lookup device = some covered := member
  obtain ⟨replay, lastOrder, replays, -, same⟩ := made.folded
  have authors : replay.authorSequences.lookup device = some covered := by
    rw [same] at covers
    exact covers
  rw [replays.author linear] at authors
  have listed : sequence ∈ (authored device operations).map Operation.authorSequence := by
    rw [linear.contiguous, List.mem_range'_1]
    omega
  obtain ⟨operation, held, rfl⟩ := List.mem_map.mp listed
  obtain ⟨accepted, rfl⟩ := mem_authored.mp held
  refine ⟨operation.operationId, library.fingerprint operation, ?_, ?_⟩
  · exact made.owner.mpr ⟨operation, accepted, rfl, rfl⟩
  · exact made.receipt.mpr ⟨operation, accepted, rfl, rfl⟩

theorem Made.fromFile [DecidableEq Digest] [DecidableEq Tag]
    (made : Made library collectionId snapshot operations)
    (identified : isIdentifier collectionId = true) :
    Snapshot.fromFile library snapshot.toFile = .ok snapshot := by
  obtain ⟨replay, lastOrder, replays, last, rfl⟩ := made.folded
  rw [fromFile_toFile_snapshotOf]
  exact replays.create made.accepted identified last

section Produced

variable [DecidableEq Digest] [DecidableEq Tag]

/-- What `compact` returns after some calls on a collection that began empty. -/
def Produced (library : SnapshotLibrary Digest Tag) (collectionId : String)
    (snapshot : Snapshot Digest Tag) : Prop :=
  ∃ calls state, compact library collectionId
    (runCalls library collectionId calls (collectionDefault collectionId)).2 = .ok (snapshot, state)

theorem Holds.compacts {state next : CollectionState Digest Tag}
    (holds : Holds library collectionId state operations)
    (identified : isIdentifier collectionId = true)
    (compacted : SyncQueue.compact library collectionId state = .ok (snapshot, next)) :
    Made library collectionId snapshot operations := by
  obtain ⟨loaded, load, replays, -, -⟩ := holds.loads identified
  rw [SyncQueue.compact, load, ok_bind] at compacted
  cases last : loaded.replay.lastOrder with
  | none =>
    rw [last] at compacted
    cases compacted
  | some lastOrder =>
    rw [last] at compacted
    dsimp only at compacted
    rw [replays.create holds.accepted identified last, require_bind_eq_ok, ok_bind, pure_eq_ok,
      Prod.mk.injEq] at compacted
    exact ⟨holds.accepted, loaded.replay, lastOrder, replays, last, compacted.2.1.symm⟩

theorem Produced.made (produced : Produced library collectionId snapshot)
    (identified : isIdentifier collectionId = true) :
    ∃ operations, Made library collectionId snapshot operations := by
  obtain ⟨calls, state, compacted⟩ := produced
  have holds : Holds library collectionId (collectionDefault collectionId) [] := .default
  obtain ⟨-, operations, held, -⟩ := holds.runCalls holds identified calls
  exact ⟨operations, held.compacts identified compacted⟩

end Produced

/-- The file of a replica that keeps these operations and snapshots, in their order. -/
structure Keeps (library : SnapshotLibrary Digest Tag) (collectionId : String)
    (state : ReplicaState Digest Tag) (operations : List Operation)
    (snapshots : List (Snapshot Digest Tag)) : Prop where
  named : state.collectionId = collectionId
  stored : state.operations = operations
  files : state.snapshots = snapshots.map Snapshot.toFile
  ordered : operations.Pairwise fun first second => first.operationId < second.operationId
  digested : snapshots.Pairwise fun first second =>
    first.canonicalPayloadSha256 < second.canonicalPayloadSha256
  valid : ∀ operation ∈ operations, operation.isValid library.toLibrary = true
  made : ∀ snapshot ∈ snapshots, ∃ history, Made library collectionId snapshot history
  pendingOrdered : state.pendingOperationIds.Pairwise (· < ·)
  pendingKnown : ∀ identity ∈ state.pendingOperationIds,
    identity ∈ operations.map (·.operationId)
  coherent : Coherent library.toLibrary operations snapshots

variable {state next : ReplicaState Digest Tag} {snapshots : List (Snapshot Digest Tag)}

theorem coherent_nil : Coherent library.toLibrary [] ([] : List (Snapshot Digest Tag)) := by
  have none_ : historyFacts library.toLibrary [] ([] : List (Snapshot Digest Tag)) = ∅ := by
    simp [historyFacts]
  refine ⟨?_, ?_, ?_⟩
  · rw [none_]
    exact Filled.empty.consistent
  · rw [none_]
    intro key cycle
    obtain ⟨next, ⟨envelope, impossible, -⟩, -⟩ := Relation.TransGen.head'_iff.mp cycle
    exact impossible
  · intro identities received
    rw [none_] at received
    rw [Finset.eq_empty_of_forall_notMem fun identity member =>
      (received identity member).choose_spec, Finset.card_empty]
    exact Nat.zero_le _

theorem Keeps.default :
    Keeps library collectionId (convergentDefault collectionId) [] [] where
  named := rfl
  stored := rfl
  files := rfl
  ordered := .nil
  digested := .nil
  valid := fun _ member => absurd member List.not_mem_nil
  made := fun _ member => absurd member List.not_mem_nil
  pendingOrdered := .nil
  pendingKnown := fun _ member => absurd member List.not_mem_nil
  coherent := coherent_nil

theorem Operation.positive_of_isValid {library : Library Digest}
    (valid : operation.isValid library = true) : 1 ≤ operation.authorSequence := by
  have fields := (Operation.fields_of_isValid valid).2.2.1
  rw [isInteger, Bool.and_eq_true, decide_eq_true_eq] at fields
  exact fields.1

theorem mem_historyFacts {library : Library Digest} {fact : Fact Digest} :
    fact ∈ historyFacts library operations snapshots ↔
      (∃ snapshot ∈ snapshots, fact ∈ snapshotFacts snapshot) ∨
        ∃ operation ∈ operations, fact ∈ operationFacts library operation := by
  simp [historyFacts]

theorem Keeps.distinct (keeps : Keeps library collectionId state operations snapshots) :
    (operations.map (·.operationId)).Nodup ∧
      (snapshots.map (·.canonicalPayloadSha256)).Nodup := by
  constructor
  · rw [List.Nodup, List.pairwise_map]
    exact keeps.ordered.imp fun below => below.ne
  · rw [List.Nodup, List.pairwise_map]
    exact keeps.digested.imp fun below => below.ne

theorem Keeps.length_le (keeps : Keeps library collectionId state operations snapshots) :
    operations.length ≤ maximumQueueOperations ∧
      state.pendingOperationIds.length ≤ maximumQueueOperations := by
  have distinct := keeps.distinct.1
  have room := keeps.coherent.room (operations.map (·.operationId)).toFinset (by
    intro identity member
    obtain ⟨operation, listed, rfl⟩ := List.mem_map.mp (List.mem_toFinset.mp member)
    exact ⟨_, mem_historyFacts.mpr (.inr ⟨operation, listed, .inl rfl⟩)⟩)
  rw [List.toFinset_card_of_nodup distinct, List.length_map] at room
  refine ⟨room, ?_⟩
  have pending : state.pendingOperationIds.Nodup := keeps.pendingOrdered.imp fun below => below.ne
  have subset : state.pendingOperationIds.toFinset ⊆ (operations.map (·.operationId)).toFinset := by
    intro identity member
    exact List.mem_toFinset.mpr (keeps.pendingKnown identity (List.mem_toFinset.mp member))
  have bound := Finset.card_le_card subset
  rw [List.toFinset_card_of_nodup pending, List.toFinset_card_of_nodup distinct,
    List.length_map] at bound
  omega

def Covered (library : Library Digest) (snapshots : List (Snapshot Digest Tag))
    (operation : Operation) : Prop :=
  ∃ snapshot ∈ snapshots, snapshot.appliedFingerprints.lookup operation.operationId =
    some (library.fingerprint operation)

theorem Covered.mono {library : Library Digest} {more : List (Snapshot Digest Tag)}
    (covered : Covered library snapshots operation)
    (within : ∀ snapshot ∈ snapshots, snapshot ∈ more) : Covered library more operation := by
  obtain ⟨snapshot, member, found⟩ := covered
  exact ⟨snapshot, within snapshot member, found⟩

variable [DecidableEq Digest]

theorem orderBy_increasing {Row Key : Type} [LinearOrder Key] {key : Row → Key} {rows : List Row}
    (distinct : (rows.map key).Nodup) :
    (orderBy key rows).Pairwise fun first second => key first < key second := by
  have unequal : (orderBy key rows).Pairwise fun first second => key first ≠ key second := by
    have same : ((orderBy key rows).map key).Nodup :=
      (orderBy_perm.map key).nodup_iff.mpr distinct
    exact List.pairwise_map.mp same
  exact (orderBy_ordered.and unequal).imp fun both => lt_of_le_of_ne both.1 both.2

theorem writeReplica_spec {pending : List String}
    (distinct : (operations.map (·.operationId)).Nodup)
    (digests : (snapshots.map (·.canonicalPayloadSha256)).Nodup)
    (valid : ∀ operation ∈ operations, operation.isValid library.toLibrary = true)
    (made : ∀ snapshot ∈ snapshots, ∃ history, Made library collectionId snapshot history)
    (waiting : pending.Nodup)
    (known : ∀ identity ∈ pending, identity ∈ operations.map (·.operationId)) :
    (∀ next, writeReplica library collectionId operations snapshots pending = .ok next →
      Keeps library collectionId next (orderBy Operation.operationId operations)
        (orderBy Snapshot.canonicalPayloadSha256 snapshots)) ∧
    (Coherent library.toLibrary operations snapshots →
      ∃ next, writeReplica library collectionId operations snapshots pending = .ok next) := by
  have backed : ∀ snapshot ∈ orderBy Snapshot.canonicalPayloadSha256 snapshots,
      snapshot.Backed := by
    intro snapshot member
    exact (made snapshot (mem_orderBy.mp member)).choose_spec.backed
  have positive : ∀ operation ∈ orderBy Operation.operationId operations,
      1 ≤ operation.authorSequence := by
    intro operation member
    exact Operation.positive_of_isValid (valid operation (mem_orderBy.mp member))
  obtain ⟨describes, passes⟩ := validateConvergentHistory_spec library.toLibrary backed positive
  have subset : ∀ identity ∈ orderBy id pending,
      identity ∈ (orderBy Operation.operationId operations).map (·.operationId) := by
    intro identity member
    obtain ⟨operation, listed, same⟩ := List.mem_map.mp (known identity (mem_orderBy.mp member))
    exact List.mem_map.mpr ⟨operation, mem_orderBy.mpr listed, same⟩
  constructor
  · intro next written
    rw [writeReplica, bind_eq_ok] at written
    obtain ⟨receipts, checked, written⟩ := written
    rw [require_bind_eq_ok, pure_eq_ok] at written
    obtain ⟨-, rfl⟩ := written
    exact
      { named := rfl, stored := rfl, files := rfl
        ordered := orderBy_increasing distinct
        digested := orderBy_increasing digests
        valid := fun operation member => valid operation (mem_orderBy.mp member)
        made := fun snapshot member => made snapshot (mem_orderBy.mp member)
        pendingOrdered := orderBy_increasing (by simpa using waiting)
        pendingKnown := subset
        coherent := (describes receipts checked).1 }
  · intro coherent
    obtain ⟨receipts, checked⟩ := passes
      (coherent.mono (fun _ => mem_orderBy.mp) fun _ => mem_orderBy.mp)
    apply Exists.intro
    rw [writeReplica, checked, ok_bind, require_bind_eq_ok]
    refine ⟨?_, rfl⟩
    rw [List.all_eq_true]
    exact fun identity member => decide_eq_true (subset identity member)

variable [DecidableEq Tag]

theorem mapM_fromFile (identified : isIdentifier collectionId = true)
    (made : ∀ snapshot ∈ snapshots, ∃ history, Made library collectionId snapshot history) :
    (snapshots.map Snapshot.toFile).mapM (Snapshot.fromFile library) = .ok snapshots := by
  induction snapshots with
  | nil => rfl
  | cons head tail induction =>
    obtain ⟨first, rest⟩ := List.forall_mem_cons.mp made
    obtain ⟨history, folded⟩ := first
    rw [List.map_cons, List.mapM_cons, folded.fromFile identified, ok_bind, induction rest]
    rfl

theorem Keeps.loads (keeps : Keeps library collectionId state operations snapshots)
    (identified : isIdentifier collectionId = true)
    (few : snapshots.length ≤ maximumQueueOperations) :
    ∃ receipts, loadConvergentReplica library collectionId state =
        .ok ⟨operations, snapshots, state.pendingOperationIds, receipts⟩ ∧
      ∀ identity digest, receipts.lookup identity = some digest ↔
        .receipt identity digest ∈ historyFacts library.toLibrary operations snapshots := by
  obtain ⟨many, waiting⟩ := keeps.length_le
  obtain ⟨describes, passes⟩ := validateConvergentHistory_spec library.toLibrary
    (fun snapshot member => (keeps.made snapshot member).choose_spec.backed)
    (fun operation member => Operation.positive_of_isValid (keeps.valid operation member))
  obtain ⟨receipts, checked⟩ := passes keeps.coherent
  refine ⟨receipts, ?_, (describes receipts checked).2⟩
  have distinct : distinctIds operations = true := by
    rw [distinctIds, decide_eq_true_eq, List.Nodup, List.pairwise_map]
    exact keeps.ordered.imp fun below => below.ne
  have digests : (snapshots.map (·.canonicalPayloadSha256)).Pairwise (· < ·) :=
    List.pairwise_map.mpr keeps.digested
  simp only [loadConvergentReplica, keeps.named, keeps.stored, keeps.files, require_bind_eq_ok,
    mapM_fromFile identified keeps.made, ok_bind, checked, pure_eq_ok, Bool.and_eq_true,
    decide_eq_true_eq, beq_iff_eq, List.length_map]
  refine ⟨⟨identified, trivial⟩, ⟨⟨many, few⟩, waiting⟩, ?_,
    ⟨(orderBy_eq_self (keeps.ordered.imp le_of_lt)).symm, distinct⟩,
    ⟨⟨?_, (orderBy_eq_self (digests.imp le_of_lt)).symm⟩, digests.imp fun below => below.ne⟩, ?_,
    ⟨(orderBy_eq_self (keeps.pendingOrdered.imp le_of_lt)).symm,
      keeps.pendingOrdered.imp fun below => below.ne⟩, ?_, trivial⟩
  · exact List.all_eq_true.mpr keeps.valid
  · rw [List.all_eq_true]
    intro snapshot member
    rw [beq_iff_eq]
    exact (keeps.made snapshot member).choose_spec.named
  · rw [List.all_eq_true]
    intro identity member
    obtain ⟨operation, listed, rfl⟩ := List.mem_map.mp (keeps.pendingKnown identity member)
    exact (Operation.fields_of_isValid (keeps.valid operation listed)).1
  · rw [List.all_eq_true]
    intro identity member
    exact decide_eq_true (keeps.pendingKnown identity member)

abbrev Received (library : Library Digest) (operations : List Operation)
    (snapshots : List (Snapshot Digest Tag)) (identity : String) (digest : Digest) : Prop :=
  .receipt identity digest ∈ historyFacts library operations snapshots

theorem Keeps.few (keeps : Keeps library collectionId state operations snapshots)
    {loaded : LoadedReplica Digest Tag}
    (load : loadConvergentReplica library collectionId state = .ok loaded) :
    snapshots.length ≤ maximumQueueOperations := by
  rw [loadConvergentReplica, require_bind_eq_ok, require_bind_eq_ok] at load
  have bounds := load.2.1
  rw [Bool.and_eq_true, Bool.and_eq_true, decide_eq_true_eq, decide_eq_true_eq, keeps.files,
    List.length_map] at bounds
  exact bounds.1.2

theorem Keeps.received {isLocal : Bool} {result : Option (ReplicaState Digest Tag)}
    (keeps : Keeps library collectionId state operations snapshots)
    (identified : isIdentifier collectionId = true)
    (received : receive library collectionId isLocal operation state = .ok result) :
    operation.isValid library.toLibrary = true ∧
      (result = none ∧ Received library.toLibrary operations snapshots operation.operationId
          (library.fingerprint operation) ∨
        ∃ next more, result = some next ∧ Keeps library collectionId next more snapshots ∧
          ∀ other, other ∈ more ↔ other ∈ operations ∨ other = operation) := by
  rw [receive, require_bind_eq_ok, bind_eq_ok] at received
  obtain ⟨valid, loaded, load, received⟩ := received
  obtain ⟨receipts, read, describes⟩ := keeps.loads identified (keeps.few load)
  rw [read] at load
  cases load
  refine ⟨valid, ?_⟩
  cases found : receipts.lookup operation.operationId with
  | some known =>
    rw [found] at received
    dsimp only at received
    rw [require_bind_eq_ok, beq_iff_eq, pure_eq_ok] at received
    obtain ⟨rfl, rfl⟩ := received
    exact .inl ⟨rfl, (describes _ _).mp found⟩
  | none =>
    rw [found] at received
    dsimp only at received
    rw [bind_eq_ok] at received
    obtain ⟨next, written, received⟩ := received
    rw [pure_eq_ok] at received
    have fresh : operation.operationId ∉ operations.map (·.operationId) := by
      intro member
      obtain ⟨other, listed, same⟩ := List.mem_map.mp member
      have known : Received library.toLibrary operations snapshots other.operationId
          (library.fingerprint other) := mem_historyFacts.mpr (.inr ⟨other, listed, .inl rfl⟩)
      have stored := (describes _ _).mpr known
      rw [same, found] at stored
      cases stored
    have distinct : ((operations ++ [operation]).map (·.operationId)).Nodup := by
      rw [List.map_append, List.map_singleton, ← List.concat_eq_append]
      exact keeps.distinct.1.concat fresh
    have waiting : (if isLocal then state.pendingOperationIds ++ [operation.operationId]
        else state.pendingOperationIds).Nodup := by
      have before : state.pendingOperationIds.Nodup :=
        keeps.pendingOrdered.imp fun below => below.ne
      split
      · rw [← List.concat_eq_append]
        exact before.concat fun member => fresh (keeps.pendingKnown _ member)
      · exact before
    have pendingKnown : ∀ identity ∈ (if isLocal then
        state.pendingOperationIds ++ [operation.operationId] else state.pendingOperationIds),
        identity ∈ (operations ++ [operation]).map (·.operationId) := by
      intro identity member
      rw [List.map_append, List.mem_append]
      split at member
      · rcases List.mem_append.mp member with member | member
        · exact .inl (keeps.pendingKnown identity member)
        · exact .inr member
      · exact .inl (keeps.pendingKnown identity member)
    have allValid : ∀ other ∈ operations ++ [operation],
        other.isValid library.toLibrary = true := by
      intro other member
      rcases List.mem_append.mp member with member | member
      · exact keeps.valid other member
      · exact List.mem_singleton.mp member ▸ valid
    have kept := (writeReplica_spec distinct keeps.distinct.2 allValid keeps.made waiting
      pendingKnown).1 next written
    have sorted : orderBy Snapshot.canonicalPayloadSha256 snapshots = snapshots :=
      orderBy_eq_self (keeps.digested.imp le_of_lt)
    rw [sorted] at kept
    refine .inr ⟨next, _, received.symm, kept, ?_⟩
    intro other
    rw [mem_orderBy, List.mem_append, List.mem_singleton]

theorem Keeps.merged {result : Option (ReplicaState Digest Tag)} {history : List Operation}
    (keeps : Keeps library collectionId state operations snapshots)
    (identified : isIdentifier collectionId = true)
    (folded : Made library collectionId snapshot history)
    (merged : mergeSnapshot library collectionId snapshot state = .ok result) :
    (result = none ∧ ∃ other ∈ snapshots,
        other.canonicalPayloadSha256 = snapshot.canonicalPayloadSha256) ∨
      ∃ next more, result = some next ∧ Keeps library collectionId next operations more ∧
        ∀ other, other ∈ more ↔ other ∈ snapshots ∨ other = snapshot := by
  rw [mergeSnapshot, folded.fromFile identified, ok_bind, require_bind_eq_ok, bind_eq_ok] at merged
  obtain ⟨-, loaded, load, merged⟩ := merged
  obtain ⟨receipts, read, -⟩ := keeps.loads identified (keeps.few load)
  rw [read] at load
  cases load
  split at merged
  case isTrue known =>
    rw [pure_eq_ok] at merged
    rw [List.any_eq_true] at known
    obtain ⟨other, member, same⟩ := known
    exact .inl ⟨merged.symm, other, member, beq_iff_eq.mp same⟩
  case isFalse unknown =>
    rw [bind_eq_ok] at merged
    obtain ⟨next, written, merged⟩ := merged
    rw [pure_eq_ok] at merged
    have fresh : snapshot.canonicalPayloadSha256 ∉ snapshots.map (·.canonicalPayloadSha256) := by
      intro member
      obtain ⟨other, listed, same⟩ := List.mem_map.mp member
      exact unknown (List.any_eq_true.mpr ⟨other, listed, beq_iff_eq.mpr same⟩)
    have digests : ((snapshots ++ [snapshot]).map (·.canonicalPayloadSha256)).Nodup := by
      rw [List.map_append, List.map_singleton, ← List.concat_eq_append]
      exact keeps.distinct.2.concat fresh
    have allMade : ∀ other ∈ snapshots ++ [snapshot],
        ∃ history, Made library collectionId other history := by
      intro other member
      rcases List.mem_append.mp member with member | member
      · exact keeps.made other member
      · exact List.mem_singleton.mp member ▸ ⟨history, folded⟩
    have kept := (writeReplica_spec keeps.distinct.1 digests keeps.valid allMade
      (keeps.pendingOrdered.imp fun below => below.ne) keeps.pendingKnown).1 next written
    have sorted : orderBy Operation.operationId operations = operations :=
      orderBy_eq_self (keeps.ordered.imp le_of_lt)
    rw [sorted] at kept
    refine .inr ⟨next, _, merged.symm, kept, ?_⟩
    intro other
    rw [mem_orderBy, List.mem_append, List.mem_singleton]

/-! ## Deliveries -/

/-- One call of a replica: `ingest_remote` or `queue_local`, or `merge_snapshot`. -/
inductive Delivery (Digest Tag : Type) where
  | operation (isLocal : Bool) (operation : Operation)
  | snapshot (snapshot : Snapshot Digest Tag)

/-- What the file of a replica holds after a call that did not raise. -/
def deliver (library : SnapshotLibrary Digest Tag) (collectionId : String)
    (state : ReplicaState Digest Tag) : Delivery Digest Tag → Except String (ReplicaState Digest Tag)
  | .operation isLocal operation => do
    let result ← receive library collectionId isLocal operation state
    return result.getD state
  | .snapshot snapshot => do
    let result ← mergeSnapshot library collectionId snapshot state
    return result.getD state

def deliverAll (library : SnapshotLibrary Digest Tag) (collectionId : String) :
    List (Delivery Digest Tag) → ReplicaState Digest Tag → Except String (ReplicaState Digest Tag)
  | [], state => .ok state
  | delivery :: rest, state => do
    let next ← deliver library collectionId state delivery
    deliverAll library collectionId rest next

/-- What a replica holds that received these operations and merged these snapshots. -/
structure Delivered (library : SnapshotLibrary Digest Tag) (collectionId : String)
    (state : ReplicaState Digest Tag) (received : Operation → Prop)
    (merged : Snapshot Digest Tag → Prop) (operations : List Operation)
    (snapshots : List (Snapshot Digest Tag)) : Prop where
  keeps : Keeps library collectionId state operations snapshots
  merges : ∀ snapshot, snapshot ∈ snapshots ↔ merged snapshot
  receives : ∀ operation ∈ operations, received operation
  known : ∀ operation, received operation → operation.isValid library.toLibrary = true ∧
    (operation ∈ operations ∨ Covered library.toLibrary snapshots operation)

theorem Delivered.afterOperation {received : Operation → Prop} {merged : Snapshot Digest Tag → Prop}
    {isLocal : Bool} (delivered : Delivered library collectionId state received merged operations
      snapshots)
    (identified : isIdentifier collectionId = true)
    (hashed : ∀ other, received other → library.fingerprint other = library.fingerprint operation →
      other = operation)
    (ran : deliver library collectionId state (.operation isLocal operation) = .ok next) :
    ∃ more, Delivered library collectionId next (fun other => received other ∨ other = operation)
      merged more snapshots := by
  rw [deliver, bind_eq_ok] at ran
  obtain ⟨result, ran, same⟩ := ran
  rw [pure_eq_ok] at same
  obtain ⟨valid, ⟨rfl, known⟩ | ⟨after, more, rfl, keeps, members⟩⟩ :=
    delivered.keeps.received identified ran
  · rw [Option.getD_none] at same
    subst same
    refine ⟨operations, delivered.keeps, delivered.merges,
      fun other member => .inl (delivered.receives other member), ?_⟩
    rintro other (earlier | rfl)
    · exact delivered.known other earlier
    · refine ⟨valid, ?_⟩
      rcases mem_historyFacts.mp known with ⟨snapshot, member, found⟩ | ⟨stored, member, fact⟩
      · exact .inr ⟨snapshot, member, found⟩
      · left
        simp only [operationFacts, Set.mem_insert_iff, Set.mem_singleton_iff, Fact.receipt.injEq,
          reduceCtorEq, or_false] at fact
        have equal := hashed stored (delivered.receives stored member) fact.2.symm
        rwa [← equal]
  · rw [Option.getD_some] at same
    subst same
    refine ⟨more, keeps, delivered.merges, ?_, ?_⟩
    · intro other member
      exact ((members other).mp member).imp (delivered.receives other) id
    · rintro other (earlier | rfl)
      · obtain ⟨admitted, place⟩ := delivered.known other earlier
        exact ⟨admitted, place.imp_left fun member => (members other).mpr (.inl member)⟩
      · exact ⟨valid, .inl ((members other).mpr (.inr rfl))⟩

theorem Delivered.afterSnapshot {received : Operation → Prop} {merged : Snapshot Digest Tag → Prop}
    {history : List Operation}
    (delivered : Delivered library collectionId state received merged operations snapshots)
    (identified : isIdentifier collectionId = true)
    (folded : Made library collectionId snapshot history)
    (hashed : ∀ other, merged other →
      other.canonicalPayloadSha256 = snapshot.canonicalPayloadSha256 → other = snapshot)
    (ran : deliver library collectionId state (.snapshot snapshot) = .ok next) :
    ∃ more, Delivered library collectionId next received
      (fun other => merged other ∨ other = snapshot) operations more := by
  rw [deliver, bind_eq_ok] at ran
  obtain ⟨result, ran, same⟩ := ran
  rw [pure_eq_ok] at same
  rcases delivered.keeps.merged identified folded ran with
    ⟨rfl, other, member, digest⟩ | ⟨after, more, rfl, keeps, members⟩
  · rw [Option.getD_none] at same
    subst same
    have equal := hashed other ((delivered.merges other).mp member) digest
    refine ⟨snapshots, delivered.keeps, ?_, delivered.receives, delivered.known⟩
    intro listed
    rw [delivered.merges]
    refine ⟨.inl, ?_⟩
    rintro (earlier | rfl)
    · exact earlier
    · exact (delivered.merges listed).mp (equal ▸ member)
  · rw [Option.getD_some] at same
    subst same
    refine ⟨more, keeps, ?_, delivered.receives, ?_⟩
    · intro listed
      rw [members, delivered.merges]
    · intro operation earlier
      obtain ⟨admitted, place⟩ := delivered.known operation earlier
      refine ⟨admitted, place.imp_right fun covered => covered.mono ?_⟩
      exact fun listed member => (members listed).mpr (.inl member)

end JobAgg.SyncQueue
