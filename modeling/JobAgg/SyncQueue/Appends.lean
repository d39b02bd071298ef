import JobAgg.SyncQueue.Compaction

/-! # Runs of a collection

Whatever was compacted in between, a collection loads the replay of the operations it
accepted, and every answer is computed from that replay. -/

namespace JobAgg.SyncQueue

variable {Digest Tag : Type} {snapshots : SnapshotLibrary Digest Tag} {collectionId : String}
  {state other next : CollectionState Digest Tag} {operations : List Operation}
  {operation : Operation}

/-- What the file of a collection holds once it accepted `operations`: a snapshot of the
first of them, if it was ever compacted, and the others. -/
structure Holds (snapshots : SnapshotLibrary Digest Tag) (collectionId : String)
    (state : CollectionState Digest Tag) (operations : List Operation) : Prop where
  named : state.collectionId = collectionId
  accepted : Accepted snapshots.toLibrary operations
  split : ∃ folded, operations = folded ++ state.tailOperations ∧
    (state.snapshot = none ∧ folded = [] ∨ ∃ replay lastOrder,
      Replays snapshots.toLibrary replay folded ∧ replay.lastOrder = some lastOrder ∧
        state.snapshot = some (snapshotOf snapshots collectionId replay lastOrder).toFile)

theorem Holds.default : Holds snapshots collectionId (collectionDefault collectionId) [] where
  named := rfl
  accepted := .nil
  split := ⟨[], rfl, .inl ⟨rfl, rfl⟩⟩

variable [DecidableEq Digest] [DecidableEq Tag]

theorem Holds.loadsSnapshot (holds : Holds snapshots collectionId state operations)
    (identified : isIdentifier collectionId = true) :
    ∃ folded snapshot, operations = folded ++ state.tailOperations ∧
      loadSnapshot snapshots collectionId state.snapshot = .ok snapshot ∧
      Replays snapshots.toLibrary (.fromSnapshot snapshot) folded ∧
      snapshot.map Snapshot.toFile = state.snapshot := by
  obtain ⟨folded, split, ⟨none_, rfl⟩ | ⟨replay, lastOrder, replays, last, stored⟩⟩ := holds.split
  · refine ⟨[], none, split, ?_, .empty, none_.symm⟩
    rw [none_]
    rfl
  · have accepted := holds.accepted
    rw [split] at accepted
    have created := replays.create accepted.of_append identified last
    rw [← fromFile_toFile_snapshotOf] at created
    refine ⟨folded, some _, split, ?_, ?_, stored.symm⟩
    · rw [stored, loadSnapshot, created, ok_bind, require_bind_eq_ok]
      exact ⟨beq_self_eq_true _, rfl⟩
    · rwa [replays.fromSnapshot last]

theorem Holds.loads (holds : Holds snapshots collectionId state operations)
    (identified : isIdentifier collectionId = true) :
    ∃ loaded, loadCollection snapshots collectionId state = .ok loaded ∧
      Replays snapshots.toLibrary loaded.replay operations ∧
      loaded.snapshot.map Snapshot.toFile = state.snapshot ∧
      loaded.tail = state.tailOperations := by
  obtain ⟨folded, snapshot, split, stored, replays, same⟩ := holds.loadsSnapshot identified
  have accepted := holds.accepted
  rw [split] at accepted
  obtain ⟨final, replayed, finished⟩ := replays.applyTail accepted
  have room := accepted.room
  rw [List.length_append] at room
  have distinct := accepted.distinct
  rw [List.map_append] at distinct
  refine ⟨⟨snapshot, state.tailOperations, final⟩, ?_, split ▸ finished, same, rfl⟩
  rw [loadCollection, require_bind_eq_ok, holds.named, stored, ok_bind]
  simp only [require_bind_eq_ok, replayed, ok_bind, pure_eq_ok, Bool.and_eq_true,
    decide_eq_true_eq, beq_self_eq_true]
  refine ⟨⟨identified, trivial⟩, by omega, ?_, ⟨?_, ?_⟩, trivial⟩
  · rw [List.all_eq_true]
    exact fun operation member => accepted.valid operation (List.mem_append_right _ member)
  · exact inOrder_of_increasing (List.pairwise_append.mp accepted.linear.increasing).2.1
  · rw [distinctIds, decide_eq_true_eq]
    exact (List.nodup_append.mp distinct).2.1

inductive Call where
  | append (operation : Operation)
  | compact

/-- How a call of `append` ends. -/
inductive Answer where
  | raised (message : String)
  | duplicate
  | appended
deriving DecidableEq

def Call.isAppend : Call → Bool
  | .append _ => true
  | .compact => false

/-- One call: the answer of an append, and what the file holds afterwards. -/
def Call.run (snapshots : SnapshotLibrary Digest Tag) (collectionId : String)
    (state : CollectionState Digest Tag) :
    Call → Option Answer × CollectionState Digest Tag
  | .append operation =>
    match SyncQueue.append snapshots collectionId operation state with
    | .error message => (some (.raised message), state)
    | .ok none => (some .duplicate, state)
    | .ok (some next) => (some .appended, next)
  | .compact =>
    match SyncQueue.compact snapshots collectionId state with
    | .error _ => (none, state)
    | .ok (_, next) => (none, next)

/-- The answers of the appends among some calls, and what the file holds in the end. -/
def runCalls (snapshots : SnapshotLibrary Digest Tag) (collectionId : String) :
    List Call → CollectionState Digest Tag → List Answer × CollectionState Digest Tag
  | [], state => ([], state)
  | call :: rest, state =>
    let (answer, next) := call.run snapshots collectionId state
    let (answers, final) := runCalls snapshots collectionId rest next
    (answer.toList ++ answers, final)

theorem Holds.append (operation : Operation)
    (holds : Holds snapshots collectionId state operations)
    (also : Holds snapshots collectionId other operations)
    (identified : isIdentifier collectionId = true) :
    ∃ answer later, ∃ left right : CollectionState Digest Tag,
      (Call.append operation).run snapshots collectionId state = (some answer, left) ∧
      (Call.append operation).run snapshots collectionId other = (some answer, right) ∧
      Holds snapshots collectionId left later ∧ Holds snapshots collectionId right later := by
  obtain ⟨loaded, load, replays, file, tail⟩ := holds.loads identified
  obtain ⟨elsewhere, loadOther, replaysOther, fileOther, tailOther⟩ := also.loads identified
  have same := replays.unique replaysOther
  rw [Call.run, Call.run, SyncQueue.append, SyncQueue.append, load, loadOther, ok_bind, ok_bind,
    ← same]
  cases valid : operation.isValid snapshots.toLibrary with
  | false =>
    exact ⟨.raised invalid, operations, state, other, rfl, rfl, holds, also⟩
  | true =>
    cases applied : loaded.replay.apply snapshots.toLibrary operation with
    | error message => exact ⟨.raised message, operations, state, other, rfl, rfl, holds, also⟩
    | ok result =>
      cases result with
      | none => exact ⟨.duplicate, operations, state, other, rfl, rfl, holds, also⟩
      | some replay =>
        obtain ⟨accepted, -⟩ := replays.apply holds.accepted valid applied
        refine ⟨.appended, operations ++ [operation], _, _, rfl, rfl,
          ⟨rfl, accepted, ?_⟩, ⟨rfl, accepted, ?_⟩⟩
        · obtain ⟨folded, split, stored⟩ := holds.split
          refine ⟨folded, ?_, ?_⟩
          · rw [split, tail, List.append_assoc]
          · rwa [file]
        · obtain ⟨folded, split, stored⟩ := also.split
          refine ⟨folded, ?_, ?_⟩
          · rw [split, tailOther, List.append_assoc]
          · rwa [fileOther]

theorem Holds.appended (holds : Holds snapshots collectionId state operations)
    (identified : isIdentifier collectionId = true)
    (ran : (Call.append operation).run snapshots collectionId state = (some .appended, next)) :
    Holds snapshots collectionId next (operations ++ [operation]) := by
  obtain ⟨loaded, load, replays, file, tail⟩ := holds.loads identified
  rw [Call.run, SyncQueue.append, load, ok_bind] at ran
  cases valid : operation.isValid snapshots.toLibrary with
  | false =>
    rw [valid] at ran
    cases ran
  | true =>
    rw [valid] at ran
    cases applied : loaded.replay.apply snapshots.toLibrary operation with
    | error message =>
      rw [applied] at ran
      cases ran
    | ok result =>
      rw [applied] at ran
      cases result with
      | none => cases ran
      | some replay =>
        cases ran
        obtain ⟨accepted, -⟩ := replays.apply holds.accepted valid applied
        obtain ⟨folded, split, stored⟩ := holds.split
        refine ⟨rfl, accepted, folded, ?_, ?_⟩
        · rw [split, tail, List.append_assoc]
        · rwa [file]

theorem Holds.appendAll (holds : Holds snapshots collectionId state operations)
    (identified : isIdentifier collectionId = true) (more : List Operation)
    (answers : (runCalls snapshots collectionId (more.map .append) state).1 =
      more.map fun _ => .appended) :
    Holds snapshots collectionId (runCalls snapshots collectionId (more.map .append) state).2
      (operations ++ more) := by
  induction more generalizing state operations with
  | nil => rwa [List.append_nil]
  | cons head rest induction =>
    rw [List.map_cons, runCalls] at answers ⊢
    cases ran : (Call.append head).run snapshots collectionId state with
    | mk answer next =>
      rw [ran] at answers
      dsimp only at answers ⊢
      obtain ⟨reply, later, left, right, also, -⟩ := holds.append head holds identified
      rw [ran, Prod.mk.injEq] at also
      rw [also.1, Option.toList_some, List.singleton_append, List.map_cons,
        List.cons.injEq] at answers
      rw [also.1, answers.1] at ran
      have extended := induction (holds.appended identified ran) answers.2
      rwa [List.append_assoc, List.singleton_append] at extended

theorem Holds.compact (holds : Holds snapshots collectionId state operations)
    (identified : isIdentifier collectionId = true) :
    (operations ≠ [] → ∃ result, SyncQueue.compact snapshots collectionId state = .ok result) ∧
      ∃ after, Call.compact.run snapshots collectionId state = (none, after) ∧
        Holds snapshots collectionId after operations := by
  obtain ⟨loaded, load, replays, -, -⟩ := holds.loads identified
  rw [Call.run, SyncQueue.compact, load, ok_bind]
  cases last : loaded.replay.lastOrder with
  | none =>
    refine ⟨?_, state, rfl, holds⟩
    intro some_
    rw [replays.describes.lastOrder, Option.map_eq_none_iff, List.getLast?_eq_none_iff] at last
    exact absurd last some_
  | some lastOrder =>
    have positive : operations ≠ [] := by
      rintro rfl
      rw [replays.describes.lastOrder] at last
      cases last
    have size : (loaded.replay.fingerprints.size != 0) = true := by
      rw [replays.counted, bne_iff_ne, ne_eq, List.length_eq_zero_iff]
      exact positive
    dsimp only
    rw [size, replays.create holds.accepted identified last]
    refine ⟨fun _ => ⟨_, rfl⟩, _, rfl, rfl, holds.accepted, operations, ?_, ?_⟩
    · rw [List.append_nil]
    · exact .inr ⟨loaded.replay, lastOrder, replays, last, rfl⟩

theorem Holds.runCalls (holds : Holds snapshots collectionId state operations)
    (also : Holds snapshots collectionId other operations)
    (identified : isIdentifier collectionId = true) (calls : List Call) :
    (runCalls snapshots collectionId calls state).1 =
        (SyncQueue.runCalls snapshots collectionId (calls.filter Call.isAppend) other).1 ∧
      ∃ later, Holds snapshots collectionId (SyncQueue.runCalls snapshots collectionId calls state).2
          later ∧
        Holds snapshots collectionId
          (SyncQueue.runCalls snapshots collectionId (calls.filter Call.isAppend) other).2 later := by
  induction calls generalizing state other operations with
  | nil => exact ⟨rfl, operations, holds, also⟩
  | cons call rest induction =>
    cases call with
    | append operation =>
      obtain ⟨answer, later, left, right, ran, ranOther, held, heldOther⟩ :=
        holds.append operation also identified
      obtain ⟨answers, final⟩ := induction held heldOther
      rw [List.filter_cons_of_pos rfl, SyncQueue.runCalls, SyncQueue.runCalls, ran, ranOther]
      exact ⟨congrArg (answer :: ·) answers, final⟩
    | compact =>
      obtain ⟨-, after, ran, held⟩ := holds.compact identified
      obtain ⟨answers, final⟩ := induction held also
      rw [List.filter_cons_of_neg (by simp [Call.isAppend]), SyncQueue.runCalls, ran]
      exact ⟨answers, final⟩

theorem Holds.shows (holds : Holds snapshots collectionId state operations)
    (also : Holds snapshots collectionId other operations)
    (identified : isIdentifier collectionId = true) :
    currentRecords snapshots collectionId state = currentRecords snapshots collectionId other ∧
      committedOperationCount snapshots collectionId state = .ok operations.length ∧
      committedOperationCount snapshots collectionId other = .ok operations.length := by
  obtain ⟨loaded, load, replays, -, -⟩ := holds.loads identified
  obtain ⟨elsewhere, loadOther, replaysOther, -, -⟩ := also.loads identified
  rw [currentRecords, currentRecords, committedOperationCount, committedOperationCount, load,
    loadOther, ok_bind, ok_bind, ok_bind, ok_bind, ← replays.unique replaysOther, replays.counted]
  exact ⟨rfl, rfl, rfl⟩

/-- Leaving every compaction out of a run changes no answer, no record and no count, and a
collection that accepted an operation can be compacted at any time. -/
theorem compaction_unobservable (snapshots : SnapshotLibrary Digest Tag) (collectionId : String)
    (identified : isIdentifier collectionId = true) (calls : List Call) :
    let compacted := runCalls snapshots collectionId calls (collectionDefault collectionId)
    let plain := runCalls snapshots collectionId (calls.filter Call.isAppend)
      (collectionDefault collectionId)
    compacted.1 = plain.1 ∧
      currentRecords snapshots collectionId compacted.2 =
        currentRecords snapshots collectionId plain.2 ∧
      committedOperationCount snapshots collectionId compacted.2 =
        committedOperationCount snapshots collectionId plain.2 ∧
      (committedOperationCount snapshots collectionId compacted.2 ≠ .ok 0 →
        ∃ result, compact snapshots collectionId compacted.2 = .ok result) := by
  have holds : Holds snapshots collectionId (collectionDefault collectionId) [] := .default
  obtain ⟨answers, later, held, plainly⟩ := holds.runCalls holds identified calls
  obtain ⟨records, count, countPlainly⟩ := held.shows plainly identified
  refine ⟨answers, records, count.trans countPlainly.symm, ?_⟩
  intro counted
  apply (held.compact identified).1
  rintro rfl
  exact counted count

def plainSnapshots : SnapshotLibrary Operation Nat where
  toLibrary := plainLibrary
  authenticate := fun payload => payload.collectionRevision
  payloadSha256 := fun payload => String.ofList [payload.collectionRevision.digitChar]

theorem compaction_unobservable_plain :
    let calls := [.append (plainOperation 1 false), .compact, .append (plainOperation 1 false),
      .append (plainOperation 2 true), .compact]
    (runCalls plainSnapshots "collection-a" calls (collectionDefault "collection-a")).1 =
      (runCalls plainSnapshots "collection-a" (calls.filter Call.isAppend)
        (collectionDefault "collection-a")).1 :=
  (compaction_unobservable plainSnapshots "collection-a" (by decide) _).1

end JobAgg.SyncQueue
