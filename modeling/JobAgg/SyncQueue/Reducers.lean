import JobAgg.SyncQueue.Convergence

/-! # Two reducers on one history

The collection shows the last envelope of each object. A replica that received the same
operations shows the last delete of an object that was ever deleted, and one that merged
the snapshot of them shows the snapshot's records. The three agree when no object gets a
revision twice and nothing is written after a delete. -/

namespace JobAgg.SyncQueue

variable {Digest Tag : Type} {library : SnapshotLibrary Digest Tag} {collectionId : String}
  {operations kept : List Operation} {operation : Operation} {envelope : Envelope}
  {object : String} {snapshot : Snapshot Digest Tag} {state final : ReplicaState Digest Tag}

/-- The envelope a replica shows of an object: that of the last delete, or without one
that of the last operation. -/
def survivor (object : String) (operations : List Operation) : Option Envelope :=
  let history := written object operations
  let deletes := history.filter (·.envelope.tombstone)
  (if deletes.isEmpty then history else deletes).getLast?.map (·.envelope)

def DeletesLast (operations : List Operation) : Prop :=
  ∀ operation ∈ operations, operation.envelope.tombstone = true →
    ∀ last, lastEnvelope operation.envelope.objectId operations = some last → last.tombstone = true

theorem deleted_nil : Deleted operations ([] : List (Snapshot Digest Tag)) object ↔
    (written object operations).filter (·.envelope.tombstone) ≠ [] := by
  rw [ne_eq, List.eq_nil_iff_forall_not_mem, not_forall]
  simp only [Deleted, List.mem_filter, mem_written, List.not_mem_nil, false_and, exists_false,
    or_false, and_assoc, not_not]

theorem mem_shown :
    operation ∈ (if ((written object operations).filter (·.envelope.tombstone)).isEmpty then
        written object operations
      else (written object operations).filter (·.envelope.tombstone)) ↔
      operation ∈ operations ∧ operation.envelope.objectId = object ∧
        Eligible operations ([] : List (Snapshot Digest Tag)) operation.envelope := by
  rw [Eligible]
  split
  case isTrue none_ =>
    rw [List.isEmpty_iff] at none_
    rw [mem_written]
    constructor
    · rintro ⟨member, rfl⟩
      exact ⟨member, rfl, fun deleted => absurd none_ (deleted_nil.mp deleted)⟩
    · intro shown
      exact ⟨shown.1, shown.2.1⟩
  case isFalse some_ =>
    rw [List.isEmpty_iff] at some_
    rw [List.mem_filter, mem_written]
    constructor
    · rintro ⟨⟨member, rfl⟩, tombstone⟩
      exact ⟨member, rfl, fun _ => tombstone⟩
    · rintro ⟨member, rfl, fit⟩
      exact ⟨⟨member, rfl⟩, fit (deleted_nil.mpr some_)⟩

theorem Linear.leads_iff (linear : Linear operations) :
    Leads operations ([] : List (Snapshot Digest Tag)) envelope ↔
      survivor envelope.objectId operations = some envelope := by
  have increasing : (written envelope.objectId operations).Pairwise
      fun first second => first.orderKey < second.orderKey := linear.increasing.filter _
  have shownIncreasing : (if ((written envelope.objectId operations).filter
      (·.envelope.tombstone)).isEmpty then written envelope.objectId operations
      else (written envelope.objectId operations).filter (·.envelope.tombstone)).Pairwise
        fun first second => first.orderKey < second.orderKey := by
    split
    case isTrue => exact increasing
    case isFalse => exact increasing.filter _
  rw [survivor, Option.map_eq_some_iff]
  simp only [getLast?_eq_some_iff_greatest shownIncreasing, @mem_shown Digest Tag]
  constructor
  · rintro (⟨operation, ⟨member, fit, greatest⟩, rfl⟩ | ⟨-, other, standing, -⟩)
    · exact ⟨operation, ⟨⟨member, rfl, fit⟩, fun other listed =>
        greatest other listed.1 listed.2.1 listed.2.2⟩, rfl⟩
    · exact absurd standing.1.1 List.not_mem_nil
  · rintro ⟨operation, ⟨⟨member, -, fit⟩, greatest⟩, rfl⟩
    exact .inl ⟨operation, ⟨member, fit, fun other listed same allowed =>
      greatest other ⟨listed, same, allowed⟩⟩, rfl⟩

theorem survivors_iff : (∀ envelope, survivor envelope.objectId operations = some envelope ↔
    lastEnvelope envelope.objectId operations = some envelope) ↔ DeletesLast operations := by
  constructor
  · intro same operation member tombstone last found
    have listed : operation ∈ (written operation.envelope.objectId operations).filter
        (·.envelope.tombstone) := List.mem_filter.mpr ⟨mem_written.mpr ⟨member, rfl⟩, tombstone⟩
    have object : last.objectId = operation.envelope.objectId := by
      rw [lastEnvelope, Option.map_eq_some_iff] at found
      obtain ⟨latest, ends, rfl⟩ := found
      exact (mem_written.mp (List.mem_of_getLast? ends)).2
    rw [← object] at found listed
    have survives := (same last).mpr found
    rw [survivor, Option.map_eq_some_iff] at survives
    obtain ⟨latest, ends, rfl⟩ := survives
    rw [if_neg (by rw [List.isEmpty_iff]; exact List.ne_nil_of_mem listed)] at ends
    exact (List.mem_filter.mp (List.mem_of_getLast? ends)).2
  · intro deletesLast envelope
    have same : survivor envelope.objectId operations =
        lastEnvelope envelope.objectId operations := by
      rw [survivor, lastEnvelope]
      by_cases none_ : (written envelope.objectId operations).filter (·.envelope.tombstone) = []
      · rw [if_pos (List.isEmpty_iff.mpr none_)]
      · rw [if_neg fun empty => none_ (List.isEmpty_iff.mp empty)]
        obtain ⟨deleted, listed⟩ := List.exists_mem_of_ne_nil _ none_
        obtain ⟨member, tombstone⟩ := List.mem_filter.mp listed
        obtain ⟨held, object⟩ := mem_written.mp member
        have lastly := deletesLast deleted held tombstone
        rw [object] at lastly
        cases split : written envelope.objectId operations using List.reverseRecOn with
        | nil =>
          rw [split] at member
          cases member
        | append_singleton front latest =>
          have final : latest.envelope.tombstone = true := by
            apply lastly latest.envelope
            rw [lastEnvelope, split, List.getLast?_concat, Option.map_some]
          have also : [latest].filter (·.envelope.tombstone) = [latest] := by
            rw [List.filter_cons_of_pos (by exact final), List.filter_nil]
          rw [List.filter_append, also, List.getLast?_concat, List.getLast?_concat]
    rw [same]

variable [DecidableEq Digest] [DecidableEq Tag]

theorem Holds.records {state : CollectionState Digest Tag}
    (holds : Holds library collectionId state operations)
    (identified : isIdentifier collectionId = true) :
    ∃ records, currentRecords library collectionId state = .ok records ∧
      (records.Pairwise fun first second => first.objectId < second.objectId) ∧
      ∀ envelope, envelope ∈ records ↔
        lastEnvelope envelope.objectId operations = some envelope := by
  obtain ⟨loaded, load, replays, -, -⟩ := holds.loads identified
  refine ⟨loaded.replay.records.items.map (·.2), ?_, replays.records_ordered, ?_⟩
  · rw [currentRecords, load, ok_bind]
    rfl
  · intro envelope
    rw [List.mem_map, ← replays.records]
    constructor
    · rintro ⟨item, member, rfl⟩
      have stored := Dict.mem_items.mp member
      obtain ⟨-, -, -, same⟩ := replays.record stored
      rwa [same]
    · exact fun stored => ⟨_, Dict.mem_items.mpr stored, rfl⟩

theorem Keeps.ingest (chosen : List Operation) (keeps : Keeps library collectionId state kept [])
    (identified : isIdentifier collectionId = true)
    (distinct : ((kept ++ chosen).map (·.operationId)).Nodup)
    (valid : ∀ operation ∈ chosen, operation.isValid library.toLibrary = true) :
    (∀ final, deliverAll library collectionId (chosen.map (.operation false)) state = .ok final →
      ∃ all, Keeps library collectionId final all [] ∧
        ∀ operation, operation ∈ all ↔ operation ∈ kept ∨ operation ∈ chosen) ∧
    (Coherent library.toLibrary (kept ++ chosen) ([] : List (Snapshot Digest Tag)) →
      ∃ final, deliverAll library collectionId (chosen.map (.operation false)) state =
        .ok final) := by
  induction chosen generalizing state kept with
  | nil =>
    refine ⟨?_, fun _ => ⟨state, rfl⟩⟩
    intro final ran
    cases ran
    exact ⟨kept, keeps, by simp⟩
  | cons head rest induction =>
    obtain ⟨headValid, restValid⟩ := List.forall_mem_cons.mp valid
    have few : ([] : List (Snapshot Digest Tag)).length ≤ maximumQueueOperations := Nat.zero_le _
    have new : ∀ digest, ¬ Received library.toLibrary kept ([] : List (Snapshot Digest Tag))
        head.operationId digest := by
      intro digest received
      rcases mem_historyFacts.mp received with ⟨_, impossible, -⟩ | ⟨stored, member, fact⟩
      · cases impossible
      · simp only [operationFacts, Set.mem_insert_iff, Set.mem_singleton_iff,
          Fact.receipt.injEq, reduceCtorEq, or_false] at fact
        rw [List.map_append, List.nodup_append] at distinct
        exact distinct.2.2 _ (List.mem_map_of_mem member) _
          (List.mem_map_of_mem List.mem_cons_self) fact.1.symm
    have moved : ∀ {more : List Operation},
        more.Perm (kept ++ [head]) → (more ++ rest).Perm (kept ++ head :: rest) := by
      intro more same
      rw [← List.singleton_append, ← List.append_assoc]
      exact same.append_right rest
    have permutes : ∀ {next : ReplicaState Digest Tag} {more : List Operation},
        Keeps library collectionId next more [] →
        (∀ other, other ∈ more ↔ other ∈ kept ∨ other = head) → more.Perm (kept ++ [head]) := by
      intro next more keepsNext members
      have nodup : more.Nodup := List.Nodup.of_map _ keepsNext.distinct.1
      have nodupToo : (kept ++ [head]).Nodup := by
        rw [← List.singleton_append, ← List.append_assoc, List.map_append] at distinct
        exact List.Nodup.of_map _ (List.nodup_append.mp distinct).1
      rw [List.perm_ext_iff_of_nodup nodup nodupToo]
      intro other
      rw [members, List.mem_append, List.mem_singleton]
    constructor
    · intro final ran
      rw [List.map_cons, deliverAll, bind_eq_ok] at ran
      obtain ⟨next, first, ran⟩ := ran
      rw [deliver, bind_eq_ok] at first
      obtain ⟨result, received, same⟩ := first
      rw [pure_eq_ok] at same
      obtain ⟨-, ⟨rfl, known⟩ | ⟨after, more, rfl, keepsNext, members⟩⟩ :=
        keeps.received identified received
      · exact absurd known (new _)
      · rw [Option.getD_some] at same
        subst same
        have order := moved (permutes keepsNext members)
        obtain ⟨all, keepsAll, listed⟩ := (induction keepsNext
          ((order.map _).nodup_iff.mpr distinct) restValid).1 final ran
        refine ⟨all, keepsAll, ?_⟩
        intro other
        rw [listed, members, List.mem_cons, or_assoc]
    · intro coherent
      obtain ⟨next, more, first, keepsNext, members⟩ := keeps.deliver_new identified few headValid
        (coherent.mono (by
          intro other member
          rw [List.mem_append, List.mem_cons]
          exact (List.mem_cons.mp member).elim (fun same => .inr (.inl same)) .inl)
          fun _ => id) new
      have order := moved (permutes keepsNext members)
      obtain ⟨final, ran⟩ := (induction keepsNext ((order.map _).nodup_iff.mpr distinct)
        restValid).2 (coherent.mono (fun other => order.mem_iff.mp) fun _ => id)
      refine ⟨final, ?_⟩
      rw [List.map_cons, deliverAll, first, ok_bind]
      exact ran

theorem Accepted.ingests (accepted : Accepted library.toLibrary operations)
    (identified : isIdentifier collectionId = true) :
    (∀ final, deliverAll library collectionId (operations.map (.operation false))
        (convergentDefault collectionId) = .ok final → FreshRevisions operations) ∧
    (FreshRevisions operations → ∃ final records,
      deliverAll library collectionId (operations.map (.operation false))
        (convergentDefault collectionId) = .ok final ∧
      replicaRecords library collectionId final = .ok records ∧
      (records.Pairwise fun first second => first.objectId < second.objectId) ∧
      ∀ envelope, envelope ∈ records ↔
        survivor envelope.objectId operations = some envelope) := by
  have begins : Keeps library collectionId (convergentDefault collectionId) [] [] := .default
  obtain ⟨keeping, passes⟩ := begins.ingest operations identified
    (by simpa using accepted.distinct) accepted.valid
  constructor
  · intro final ran
    obtain ⟨all, keeps, listed⟩ := keeping final ran
    apply accepted.coherent_iff.mp
    exact keeps.coherent.mono (fun operation member => (listed operation).mpr (.inr member))
      fun _ => id
  · intro fresh
    obtain ⟨final, ran⟩ := passes (accepted.coherent_iff.mpr fresh)
    obtain ⟨all, keeps, listed⟩ := keeping final ran
    obtain ⟨receipts, read, -⟩ := keeps.loads identified (Nat.zero_le _)
    let none_ : List (Snapshot Digest Tag) := []
    refine ⟨final, resolveConvergentRecords all none_, ran, ?_,
      resolveConvergentRecords_increasing all none_, ?_⟩
    · rw [replicaRecords, read, ok_bind]
      rfl
    · intro envelope
      rw [mem_resolveConvergentRecords keeps.distinguished,
        leads_congr (by simpa using listed) fun _ => Iff.rfl, accepted.linear.leads_iff]

theorem Holds.ingests_iff {state : CollectionState Digest Tag} {records : List Envelope}
    (holds : Holds library collectionId state operations)
    (identified : isIdentifier collectionId = true)
    (shown : currentRecords library collectionId state = .ok records) :
    (∃ final, deliverAll library collectionId (operations.map (.operation false))
        (convergentDefault collectionId) = .ok final ∧
      replicaRecords library collectionId final = .ok records) ↔
        FreshRevisions operations ∧ DeletesLast operations := by
  obtain ⟨lasts, read, increasing, members⟩ := holds.records identified
  rw [shown, Except.ok.injEq] at read
  subst read
  obtain ⟨refuses, ingests⟩ := holds.accepted.ingests identified
  constructor
  · rintro ⟨final, ran, agree⟩
    have fresh := refuses final ran
    refine ⟨fresh, survivors_iff.mp ?_⟩
    obtain ⟨last, found, also, foundRecords, -, survivors⟩ := ingests fresh
    rw [ran, Except.ok.injEq] at also
    rw [← also, agree, Except.ok.injEq] at foundRecords
    intro envelope
    rw [← survivors, ← foundRecords, members]
  · rintro ⟨fresh, deletesLast⟩
    obtain ⟨final, found, ran, foundRecords, increasingToo, survivors⟩ := ingests fresh
    refine ⟨final, ran, ?_⟩
    rw [foundRecords, Except.ok.injEq]
    apply eq_of_increasing increasingToo increasing
    intro envelope
    rw [survivors, members, survivors_iff.mpr deletesLast]

theorem Holds.merges_iff {state next : CollectionState Digest Tag} {records : List Envelope}
    (holds : Holds library collectionId state operations)
    (identified : isIdentifier collectionId = true)
    (shown : currentRecords library collectionId state = .ok records)
    (compacted : SyncQueue.compact library collectionId state = .ok (snapshot, next)) :
    (∃ final, deliverAll library collectionId [.snapshot snapshot]
        (convergentDefault collectionId) = .ok final ∧
      replicaRecords library collectionId final = .ok records) ↔ ProperLast operations := by
  have made := holds.compacts identified compacted
  obtain ⟨lasts, read, increasing, members⟩ := holds.records identified
  rw [shown, Except.ok.injEq] at read
  subst read
  have begins : Keeps library collectionId (convergentDefault collectionId) [] [] := .default
  constructor
  · rintro ⟨final, ran, -⟩
    rw [deliverAll, bind_eq_ok] at ran
    obtain ⟨only, first, -⟩ := ran
    rw [deliver, bind_eq_ok] at first
    obtain ⟨result, merged, -⟩ := first
    rcases begins.merged identified made merged with ⟨-, other, impossible, -⟩ |
      ⟨after, held, -, keeps, listed⟩
    · cases impossible
    · apply made.coherent_iff.mp
      exact keeps.coherent.mono (fun _ => id) (List.forall_mem_singleton.mpr
        ((listed snapshot).mpr (.inr rfl)))
  · intro proper
    obtain ⟨final, held, ran, keeps, length, listed⟩ := begins.deliver_snapshot identified
      (Nat.zero_le _) made (made.coherent_iff.mpr proper) List.not_mem_nil
    have heldIff : ∀ other, other ∈ held ↔ other ∈ [snapshot] := by
      intro other
      rw [listed, List.mem_singleton]
      simp
    have few : held.length ≤ maximumQueueOperations := by
      rw [length]
      exact (show 1 ≤ maximumQueueOperations by decide)
    refine ⟨final, ?_, ?_⟩
    · rw [deliverAll, ran]
      rfl
    · rw [replicaRecords_of_keeps identified keeps few, Except.ok.injEq]
      apply eq_of_increasing (resolveConvergentRecords_increasing _ _) increasing
      intro envelope
      rw [mem_resolveConvergentRecords keeps.distinguished, leads_congr (fun _ => Iff.rfl) heldIff,
        members, ← made.record]
      exact leads_of_snapshot fun first one second other same => by
        have left := made.record.mp one
        rw [same, made.record.mp other, Option.some.injEq] at left
        exact left.symm

/-- What a collection accepted one by one, a replica of the operations and one of the
snapshot show alike exactly on histories without repeated revisions and without writes
after a delete, and on snapshots whose records do not continue themselves; without repeated
revisions the replica of the operations shows the last delete of an object that has one. -/
theorem reducers_agree (library : SnapshotLibrary Digest Tag) (collectionId : String)
    (identified : isIdentifier collectionId = true) (operations : List Operation)
    (appended : (runCalls library collectionId (operations.map .append)
      (collectionDefault collectionId)).1 = operations.map fun _ => .appended) :
    let state := (runCalls library collectionId (operations.map .append)
      (collectionDefault collectionId)).2
    ∃ records, currentRecords library collectionId state = .ok records ∧
      ((∃ final, deliverAll library collectionId (operations.map (.operation false))
          (convergentDefault collectionId) = .ok final ∧
        replicaRecords library collectionId final = .ok records) ↔
          FreshRevisions operations ∧ DeletesLast operations) ∧
      (FreshRevisions operations → ∃ final survivors,
        deliverAll library collectionId (operations.map (.operation false))
          (convergentDefault collectionId) = .ok final ∧
        replicaRecords library collectionId final = .ok survivors ∧
        ∀ envelope, envelope ∈ survivors ↔
          survivor envelope.objectId operations = some envelope) ∧
      (operations ≠ [] → ∃ result, compact library collectionId state = .ok result) ∧
      ∀ snapshot next, compact library collectionId state = .ok (snapshot, next) →
        ((∃ final, deliverAll library collectionId [.snapshot snapshot]
            (convergentDefault collectionId) = .ok final ∧
          replicaRecords library collectionId final = .ok records) ↔ ProperLast operations) := by
  have holds := Holds.default.appendAll identified operations appended
  rw [List.nil_append] at holds
  obtain ⟨records, shown, -⟩ := holds.records identified
  refine ⟨records, shown, holds.ingests_iff identified shown, ?_, (holds.compact identified).1, ?_⟩
  · intro fresh
    obtain ⟨final, survivors, ran, read, -, members⟩ :=
      (holds.accepted.ingests identified).2 fresh
    exact ⟨final, survivors, ran, read, members⟩
  · exact fun snapshot next compacted => holds.merges_iff identified shown compacted

theorem reducers_agree_rewrites : ∃ records final,
    currentRecords plainSnapshots "collection-a"
      (runCalls plainSnapshots "collection-a" (rewrites.map .append)
        (collectionDefault "collection-a")).2 = .ok records ∧
    deliverAll plainSnapshots "collection-a" (rewrites.map (.operation false))
      (convergentDefault "collection-a") = .ok final ∧
    replicaRecords plainSnapshots "collection-a" final = .ok records := by
  obtain ⟨records, shown, agrees, -⟩ := reducers_agree plainSnapshots "collection-a"
    rewrites_evaluated.1 rewrites rewrites_evaluated.2.1
  have fresh := rewrites_evaluated.2.2
  have deletesLast : DeletesLast rewrites := by
    intro operation member tombstone
    have upserts : ∀ operation ∈ rewrites, operation.envelope.tombstone = false := by decide
    rw [upserts operation member] at tombstone
    cases tombstone
  obtain ⟨final, ran, same⟩ := agrees.mpr ⟨fresh, deletesLast⟩
  exact ⟨records, final, shown, ran, same⟩

/-- A write after a delete is shown by the collection and not by the replica. -/
def revival : List Operation := [plainOperation 1 true, plainOperation 2 false]

theorem not_ingests_revival :
    (runCalls plainSnapshots "collection-a" (revival.map .append)
      (collectionDefault "collection-a")).1 = revival.map (fun _ => .appended) ∧
    ¬ ∃ records final, currentRecords plainSnapshots "collection-a"
        (runCalls plainSnapshots "collection-a" (revival.map .append)
          (collectionDefault "collection-a")).2 = .ok records ∧
      deliverAll plainSnapshots "collection-a" (revival.map (.operation false))
        (convergentDefault "collection-a") = .ok final ∧
      replicaRecords plainSnapshots "collection-a" final = .ok records := by
  have identified := rewrites_evaluated.1
  have appended : (runCalls plainSnapshots "collection-a" (revival.map .append)
      (collectionDefault "collection-a")).1 = revival.map (fun _ => .appended) := by
    decide +kernel
  refine ⟨appended, ?_⟩
  rintro ⟨records, final, shown, ran, agree⟩
  have holds := Holds.default.appendAll identified revival appended
  have deletesLast := ((holds.ingests_iff identified shown).mp ⟨final, ran, agree⟩).2
  have revived := deletesLast (plainOperation 1 true) List.mem_cons_self rfl
    (plainOperation 2 false).envelope (by decide)
  cases revived

end JobAgg.SyncQueue
