import JobAgg.SyncQueue.Delivery

/-! # Orders of delivery

Any order of calls that did not raise leaves every snapshot and every operation that no
snapshot covers; of the covered operations it leaves those that came early. Whatever
coherent choice of them there is, some order leaves just that. -/

namespace JobAgg.SyncQueue

variable {Digest Tag : Type} [DecidableEq Digest] [DecidableEq Tag]
  {library : SnapshotLibrary Digest Tag} {collectionId : String}
  {state next final : ReplicaState Digest Tag} {operations : List Operation}
  {snapshots : List (Snapshot Digest Tag)} {operation : Operation}
  {snapshot : Snapshot Digest Tag} {deliveries more : List (Delivery Digest Tag)}

def Delivers (deliveries : List (Delivery Digest Tag)) (operation : Operation) : Prop :=
  ∃ isLocal, .operation isLocal operation ∈ deliveries

def Merges (deliveries : List (Delivery Digest Tag)) (snapshot : Snapshot Digest Tag) : Prop :=
  .snapshot snapshot ∈ deliveries

theorem Delivered.all (operationsAlike : Operation → Prop)
    (snapshotsAlike : Snapshot Digest Tag → Prop)
    {received : Operation → Prop} {merged : Snapshot Digest Tag → Prop}
    (identified : isIdentifier collectionId = true)
    (hashed : ∀ first second, operationsAlike first → operationsAlike second →
      library.fingerprint first = library.fingerprint second → first = second)
    (digested : ∀ first second, snapshotsAlike first → snapshotsAlike second →
      first.canonicalPayloadSha256 = second.canonicalPayloadSha256 → first = second)
    (made : ∀ snapshot, snapshotsAlike snapshot → ∃ history, Made library collectionId snapshot history)
    (delivered : Delivered library collectionId state received merged operations snapshots)
    (receivedAlike : ∀ operation, received operation → operationsAlike operation)
    (mergedAlike : ∀ snapshot, merged snapshot → snapshotsAlike snapshot)
    (deliversAlike : ∀ operation, Delivers deliveries operation → operationsAlike operation)
    (mergesAlike : ∀ snapshot, Merges deliveries snapshot → snapshotsAlike snapshot)
    (ran : deliverAll library collectionId deliveries state = .ok final) :
    ∃ kept held, Delivered library collectionId final
      (fun operation => received operation ∨ Delivers deliveries operation)
      (fun snapshot => merged snapshot ∨ Merges deliveries snapshot) kept held := by
  induction deliveries generalizing state operations snapshots received merged with
  | nil =>
    cases ran
    have noOperation : (fun operation => received operation ∨
        Delivers ([] : List (Delivery Digest Tag)) operation) = received := by
      funext operation
      simp [Delivers]
    have noSnapshot : (fun snapshot => merged snapshot ∨
        Merges ([] : List (Delivery Digest Tag)) snapshot) = merged := by
      funext snapshot
      simp [Merges]
    rw [noOperation, noSnapshot]
    exact ⟨operations, snapshots, delivered⟩
  | cons delivery rest induction =>
    rw [deliverAll, bind_eq_ok] at ran
    obtain ⟨next, first, ran⟩ := ran
    have laterDelivers : ∀ operation, Delivers rest operation → operationsAlike operation :=
      fun operation ⟨isLocal, member⟩ =>
        deliversAlike operation ⟨isLocal, List.mem_cons_of_mem _ member⟩
    have laterMerges : ∀ snapshot, Merges rest snapshot → snapshotsAlike snapshot :=
      fun snapshot member => mergesAlike snapshot (List.mem_cons_of_mem _ member)
    cases delivery with
    | operation isLocal operation =>
      have alike := deliversAlike operation ⟨isLocal, List.mem_cons_self⟩
      obtain ⟨stored, after⟩ := delivered.afterOperation identified
        (fun other earlier => hashed other operation (receivedAlike other earlier) alike) first
      obtain ⟨kept, held, whole⟩ := induction after
        (fun other either => either.elim (receivedAlike other) fun same => same ▸ alike)
        mergedAlike laterDelivers laterMerges ran
      refine ⟨kept, held, whole.keeps, ?_, ?_, ?_⟩
      · intro snapshot
        rw [whole.merges]
        simp [Merges]
      · intro other member
        rcases whole.receives other member with (earlier | rfl) | ⟨flag, later⟩
        · exact .inl earlier
        · exact .inr ⟨isLocal, List.mem_cons_self⟩
        · exact .inr ⟨flag, List.mem_cons_of_mem _ later⟩
      · rintro other (earlier | ⟨flag, member⟩)
        · exact whole.known other (.inl (.inl earlier))
        · rcases List.mem_cons.mp member with same | later
          · cases same
            exact whole.known operation (.inl (.inr rfl))
          · exact whole.known other (.inr ⟨flag, later⟩)
    | snapshot snapshot =>
      have alike := mergesAlike snapshot List.mem_cons_self
      obtain ⟨history, folded⟩ := made snapshot alike
      obtain ⟨stored, after⟩ := delivered.afterSnapshot identified folded
        (fun other earlier => digested other snapshot (mergedAlike other earlier) alike) first
      obtain ⟨kept, held, whole⟩ := induction after receivedAlike
        (fun other either => either.elim (mergedAlike other) fun same => same ▸ alike)
        laterDelivers laterMerges ran
      refine ⟨kept, held, whole.keeps, ?_, ?_, ?_⟩
      · intro other
        rw [whole.merges, or_assoc]
        simp [Merges]
      · intro other member
        rcases whole.receives other member with earlier | ⟨flag, later⟩
        · exact .inl earlier
        · exact .inr ⟨flag, List.mem_cons_of_mem _ later⟩
      · rintro other (earlier | ⟨flag, member⟩)
        · exact whole.known other (.inl earlier)
        · rcases List.mem_cons.mp member with same | later
          · cases same
          · exact whole.known other (.inr ⟨flag, later⟩)

theorem deliverAll_append {middle : ReplicaState Digest Tag}
    (first : deliverAll library collectionId deliveries state = .ok middle)
    (second : deliverAll library collectionId more middle = .ok final) :
    deliverAll library collectionId (deliveries ++ more) state = .ok final := by
  induction deliveries generalizing state with
  | nil =>
    cases first
    exact second
  | cons delivery rest induction =>
    rw [deliverAll, bind_eq_ok] at first
    obtain ⟨next, head, tail⟩ := first
    rw [List.cons_append, deliverAll, head, ok_bind]
    exact induction tail

theorem Keeps.deliver_known (keeps : Keeps library collectionId state operations snapshots)
    (identified : isIdentifier collectionId = true)
    (few : snapshots.length ≤ maximumQueueOperations)
    (valid : operation.isValid library.toLibrary = true)
    (known : Received library.toLibrary operations snapshots operation.operationId
      (library.fingerprint operation)) :
    deliver library collectionId state (.operation false operation) = .ok state := by
  obtain ⟨receipts, read, describes⟩ := keeps.loads identified few
  have found := (describes _ _).mpr known
  rw [deliver, receive, read]
  simp [require, valid, bind, Except.bind, pure, Except.pure, found]

theorem Keeps.deliver_new (keeps : Keeps library collectionId state operations snapshots)
    (identified : isIdentifier collectionId = true)
    (few : snapshots.length ≤ maximumQueueOperations)
    (valid : operation.isValid library.toLibrary = true)
    (coherent : Coherent library.toLibrary (operation :: operations) snapshots)
    (unknown : ∀ digest,
      ¬ Received library.toLibrary operations snapshots operation.operationId digest) :
    ∃ next kept, deliver library collectionId state (.operation false operation) = .ok next ∧
      Keeps library collectionId next kept snapshots ∧
      ∀ other, other ∈ kept ↔ other ∈ operations ∨ other = operation := by
  obtain ⟨receipts, read, describes⟩ := keeps.loads identified few
  have absent : receipts.lookup operation.operationId = none := by
    rw [Option.eq_none_iff_forall_ne_some]
    exact fun digest found => unknown digest ((describes _ _).mp found)
  have fresh : operation.operationId ∉ operations.map (·.operationId) := by
    intro member
    obtain ⟨other, listed, same⟩ := List.mem_map.mp member
    apply unknown (library.fingerprint other)
    rw [← same]
    exact mem_historyFacts.mpr (.inr ⟨other, listed, .inl rfl⟩)
  have distinct : ((operations ++ [operation]).map (·.operationId)).Nodup := by
    rw [List.map_append, List.map_singleton, ← List.concat_eq_append]
    exact keeps.distinct.1.concat fresh
  have allValid : ∀ other ∈ operations ++ [operation],
      other.isValid library.toLibrary = true := by
    intro other member
    rcases List.mem_append.mp member with member | member
    · exact keeps.valid other member
    · exact List.mem_singleton.mp member ▸ valid
  have arranged : Coherent library.toLibrary (operations ++ [operation]) snapshots := by
    apply coherent.mono
    · intro other member
      rw [List.mem_append, List.mem_singleton] at member
      rw [List.mem_cons]
      exact member.symm
    · exact fun _ member => member
  obtain ⟨writes, passes⟩ := writeReplica_spec distinct keeps.distinct.2 allValid keeps.made
    (keeps.pendingOrdered.imp fun below => below.ne) (fun identity member => by
      rw [List.map_append]
      exact List.mem_append_left _ (keeps.pendingKnown identity member))
  obtain ⟨next, written⟩ := passes arranged
  have kept := writes next written
  have sorted : orderBy Snapshot.canonicalPayloadSha256 snapshots = snapshots :=
    orderBy_eq_self (keeps.digested.imp le_of_lt)
  rw [sorted] at kept
  refine ⟨next, _, ?_, kept, ?_⟩
  · rw [deliver, receive, read]
    simp [require, valid, bind, Except.bind, pure, Except.pure, absent, written]
  · intro other
    rw [mem_orderBy, List.mem_append, List.mem_singleton]

theorem Keeps.deliver_snapshot {history : List Operation}
    (keeps : Keeps library collectionId state operations snapshots)
    (identified : isIdentifier collectionId = true)
    (few : snapshots.length ≤ maximumQueueOperations)
    (folded : Made library collectionId snapshot history)
    (coherent : Coherent library.toLibrary operations (snapshot :: snapshots))
    (fresh : snapshot.canonicalPayloadSha256 ∉ snapshots.map (·.canonicalPayloadSha256)) :
    ∃ next held, deliver library collectionId state (.snapshot snapshot) = .ok next ∧
      Keeps library collectionId next operations held ∧
      held.length = snapshots.length + 1 ∧
      ∀ other, other ∈ held ↔ other ∈ snapshots ∨ other = snapshot := by
  obtain ⟨receipts, read, -⟩ := keeps.loads identified few
  have digests : ((snapshots ++ [snapshot]).map (·.canonicalPayloadSha256)).Nodup := by
    rw [List.map_append, List.map_singleton, ← List.concat_eq_append]
    exact keeps.distinct.2.concat fresh
  have allMade : ∀ other ∈ snapshots ++ [snapshot],
      ∃ history, Made library collectionId other history := by
    intro other member
    rcases List.mem_append.mp member with member | member
    · exact keeps.made other member
    · exact List.mem_singleton.mp member ▸ ⟨history, folded⟩
  have arranged : Coherent library.toLibrary operations (snapshots ++ [snapshot]) := by
    apply coherent.mono
    · exact fun _ member => member
    · intro other member
      rw [List.mem_append, List.mem_singleton] at member
      rw [List.mem_cons]
      exact member.symm
  obtain ⟨writes, passes⟩ := writeReplica_spec keeps.distinct.1 digests keeps.valid allMade
    (keeps.pendingOrdered.imp fun below => below.ne) keeps.pendingKnown
  obtain ⟨next, written⟩ := passes arranged
  have kept := writes next written
  have sorted : orderBy Operation.operationId operations = operations :=
    orderBy_eq_self (keeps.ordered.imp le_of_lt)
  rw [sorted] at kept
  have unseen : (snapshots.any
      (·.canonicalPayloadSha256 == snapshot.canonicalPayloadSha256)) = false := by
    rw [Bool.eq_false_iff, ne_eq, List.any_eq_true]
    rintro ⟨other, member, same⟩
    exact fresh (List.mem_map.mpr ⟨other, member, beq_iff_eq.mp same⟩)
  refine ⟨next, _, ?_, kept, ?_, ?_⟩
  · rw [deliver, mergeSnapshot, folded.fromFile identified, ok_bind, read, ok_bind, folded.named]
    simp [require, bind, Except.bind, pure, Except.pure, unseen, written]
  · rw [orderBy_perm.length_eq, List.length_append, List.length_singleton]
  · intro other
    rw [mem_orderBy, List.mem_append, List.mem_singleton]

theorem Keeps.deliver_operations (keeps : Keeps library collectionId state operations [])
    (chosen : List Operation)
    (identified : isIdentifier collectionId = true)
    (hashed : ∀ first ∈ chosen ++ operations, ∀ second ∈ chosen ++ operations,
      library.fingerprint first = library.fingerprint second → first = second)
    (valid : ∀ operation ∈ chosen, operation.isValid library.toLibrary = true)
    (coherent : Coherent library.toLibrary (chosen ++ operations) ([] : List (Snapshot Digest Tag))) :
    ∃ next kept, deliverAll library collectionId (chosen.map (.operation false)) state = .ok next ∧
      Keeps library collectionId next kept [] ∧
      ∀ other, other ∈ kept ↔ other ∈ operations ∨ other ∈ chosen := by
  induction chosen generalizing state operations with
  | nil => exact ⟨state, operations, rfl, keeps, by simp⟩
  | cons head rest induction =>
    have few : ([] : List (Snapshot Digest Tag)).length ≤ maximumQueueOperations := Nat.zero_le _
    have headValid := valid head List.mem_cons_self
    have restValid : ∀ operation ∈ rest, operation.isValid library.toLibrary = true :=
      fun operation member => valid operation (List.mem_cons_of_mem _ member)
    by_cases known : ∃ digest, Received library.toLibrary operations
        ([] : List (Snapshot Digest Tag)) head.operationId digest
    · obtain ⟨digest, known⟩ := known
      rcases mem_historyFacts.mp known with ⟨_, impossible, -⟩ | ⟨stored, member, fact⟩
      · cases impossible
      · simp only [operationFacts, Set.mem_insert_iff, Set.mem_singleton_iff,
          Fact.receipt.injEq, reduceCtorEq, or_false] at fact
        have received : ∀ other ∈ head :: rest ++ operations, Received library.toLibrary
            (head :: rest ++ operations) ([] : List (Snapshot Digest Tag)) other.operationId
            (library.fingerprint other) :=
          fun other listed => mem_historyFacts.mpr (.inr ⟨other, listed, .inl rfl⟩)
        have storedIn := List.mem_append_right (head :: rest) member
        have own := received head (List.mem_append_left _ List.mem_cons_self)
        have another := received stored storedIn
        rw [← fact.1] at another
        have same : head = stored :=
          hashed head (List.mem_append_left _ List.mem_cons_self) stored storedIn
            (coherent.consistent.receipts own another)
        have skipped := keeps.deliver_known identified few headValid
          (mem_historyFacts.mpr (.inr ⟨head, same ▸ member, .inl rfl⟩))
        obtain ⟨next, kept, ran, keepsNext, members⟩ := induction keeps
          (fun first listed second other =>
            hashed first (List.mem_cons_of_mem _ listed) second (List.mem_cons_of_mem _ other))
          restValid
          (coherent.mono (fun other listed => List.mem_cons_of_mem _ listed) fun _ listed => listed)
        refine ⟨next, kept, ?_, keepsNext, ?_⟩
        · rw [List.map_cons, deliverAll, skipped, ok_bind]
          exact ran
        · intro other
          rw [members, List.mem_cons]
          constructor
          · exact fun either => either.imp_right .inr
          · rintro (earlier | rfl | later)
            · exact .inl earlier
            · exact .inl (same ▸ member)
            · exact .inr later
    · obtain ⟨middle, stored, first, keepsMiddle, present⟩ := keeps.deliver_new identified few
        headValid (coherent.mono (by simp +contextual) fun _ listed => listed)
        fun digest received => known ⟨digest, received⟩
      have moved : ∀ other, other ∈ rest ++ stored → other ∈ head :: rest ++ operations := by
        intro other member
        simp only [List.cons_append, List.mem_cons, List.mem_append] at member ⊢
        rcases member with later | member
        · exact .inr (.inl later)
        · rcases (present other).mp member with earlier | rfl
          · exact .inr (.inr earlier)
          · exact .inl rfl
      obtain ⟨next, kept, ran, keepsNext, members⟩ := induction keepsMiddle
        (fun one listed two other => hashed one (moved one listed) two (moved two other)) restValid
        (coherent.mono moved fun _ listed => listed)
      refine ⟨next, kept, ?_, keepsNext, ?_⟩
      · rw [List.map_cons, deliverAll, first, ok_bind]
        exact ran
      · intro other
        rw [members, present, List.mem_cons, or_assoc]

theorem Keeps.deliver_snapshots (keeps : Keeps library collectionId state operations snapshots)
    (chosen : List (Snapshot Digest Tag))
    (identified : isIdentifier collectionId = true)
    (few : chosen.length + snapshots.length ≤ maximumQueueOperations)
    (made : ∀ snapshot ∈ chosen, ∃ history, Made library collectionId snapshot history)
    (distinct : (chosen.map (·.canonicalPayloadSha256)).Nodup)
    (fresh : ∀ snapshot ∈ chosen,
      snapshot.canonicalPayloadSha256 ∉ snapshots.map (·.canonicalPayloadSha256))
    (coherent : Coherent library.toLibrary operations (chosen ++ snapshots)) :
    ∃ next held, deliverAll library collectionId (chosen.map .snapshot) state = .ok next ∧
      Keeps library collectionId next operations held ∧
      held.length = chosen.length + snapshots.length ∧
      ∀ other, other ∈ held ↔ other ∈ snapshots ∨ other ∈ chosen := by
  induction chosen generalizing state snapshots with
  | nil => exact ⟨state, snapshots, rfl, keeps, by simp, by simp⟩
  | cons head rest induction =>
    rw [List.map_cons, List.nodup_cons] at distinct
    rw [List.length_cons] at few
    obtain ⟨history, folded⟩ := made head List.mem_cons_self
    obtain ⟨middle, stored, first, keepsMiddle, length, present⟩ := keeps.deliver_snapshot identified
      (by omega) folded
      (coherent.mono (fun _ listed => listed) (by simp +contextual)) (fresh head List.mem_cons_self)
    obtain ⟨next, held, ran, keepsNext, count, members⟩ := induction keepsMiddle (by omega)
      (fun snapshot member => made snapshot (List.mem_cons_of_mem _ member)) distinct.2
      (by
        intro snapshot member listed
        obtain ⟨other, inStored, same⟩ := List.mem_map.mp listed
        rcases (present other).mp inStored with earlier | rfl
        · exact fresh snapshot (List.mem_cons_of_mem _ member)
            (List.mem_map.mpr ⟨other, earlier, same⟩)
        · exact distinct.1 (List.mem_map.mpr ⟨snapshot, member, same.symm⟩))
      (coherent.mono (fun _ listed => listed) (by
        intro other member
        simp only [List.cons_append, List.mem_cons, List.mem_append] at member ⊢
        rcases member with later | member
        · exact .inr (.inl later)
        · rcases (present other).mp member with earlier | rfl
          · exact .inr (.inr earlier)
          · exact .inl rfl))
    refine ⟨next, held, ?_, keepsNext, ?_, ?_⟩
    · rw [List.map_cons, deliverAll, first, ok_bind]
      exact ran
    · rw [count, length, List.length_cons]
      omega
    · intro other
      rw [members, present, List.mem_cons, or_assoc]

theorem Keeps.deliver_again (keeps : Keeps library collectionId state operations snapshots)
    (chosen : List Operation)
    (identified : isIdentifier collectionId = true)
    (few : snapshots.length ≤ maximumQueueOperations)
    (known : ∀ operation ∈ chosen, operation.isValid library.toLibrary = true ∧
      (operation ∈ operations ∨ Covered library.toLibrary snapshots operation)) :
    deliverAll library collectionId (chosen.map (.operation false)) state = .ok state := by
  induction chosen with
  | nil => rfl
  | cons head rest induction =>
    obtain ⟨valid, place⟩ := known head List.mem_cons_self
    have received : Received library.toLibrary operations snapshots head.operationId
        (library.fingerprint head) := by
      apply mem_historyFacts.mpr
      rcases place with member | ⟨snapshot, member, found⟩
      · exact .inr ⟨head, member, .inl rfl⟩
      · exact .inl ⟨snapshot, member, found⟩
    rw [List.map_cons, deliverAll, keeps.deliver_known identified few valid received, ok_bind]
    exact induction fun operation member => known operation (List.mem_cons_of_mem _ member)

theorem exists_deliveries (chosen all : List Operation) {merged : List (Snapshot Digest Tag)}
    (identified : isIdentifier collectionId = true)
    (hashed : ∀ first ∈ chosen, ∀ second ∈ chosen,
      library.fingerprint first = library.fingerprint second → first = second)
    (distinct : (merged.map (·.canonicalPayloadSha256)).Nodup)
    (few : merged.length ≤ maximumQueueOperations)
    (made : ∀ snapshot ∈ merged, ∃ history, Made library collectionId snapshot history)
    (chosenFrom : ∀ operation ∈ chosen, operation ∈ all)
    (known : ∀ operation ∈ all, operation.isValid library.toLibrary = true ∧
      (operation ∈ chosen ∨ Covered library.toLibrary merged operation))
    (coherent : Coherent library.toLibrary chosen merged) :
    ∃ deliveries final kept held,
      (∀ operation, Delivers deliveries operation ↔ operation ∈ all) ∧
      (∀ snapshot, Merges deliveries snapshot ↔ snapshot ∈ merged) ∧
      deliverAll library collectionId deliveries (convergentDefault collectionId) = .ok final ∧
      Keeps library collectionId final kept held ∧ held.length = merged.length ∧
      (∀ operation, operation ∈ kept ↔ operation ∈ chosen) ∧
      ∀ snapshot, snapshot ∈ held ↔ snapshot ∈ merged := by
  have begins : Keeps library collectionId (convergentDefault collectionId) [] [] := .default
  obtain ⟨one, kept, first, keepsOne, operationsOne⟩ := begins.deliver_operations
    chosen identified (by simpa using hashed)
    (fun operation member => (known operation (chosenFrom operation member)).1)
    (coherent.mono (by simp) (by simp))
  obtain ⟨two, held, second, keepsTwo, length, snapshotsTwo⟩ := keepsOne.deliver_snapshots
    merged identified (by simpa using few) made distinct (by simp)
    (coherent.mono (by simpa using fun operation => (operationsOne operation).mp) (by simp))
  have operationsKept : ∀ operation, operation ∈ kept ↔ operation ∈ chosen := by
    simpa using operationsOne
  have snapshotsHeld : ∀ snapshot, snapshot ∈ held ↔ snapshot ∈ merged := by
    simpa using snapshotsTwo
  have count : held.length = merged.length := by simpa using length
  have third := keepsTwo.deliver_again all identified (by omega) (by
    intro operation member
    obtain ⟨valid, place⟩ := known operation member
    refine ⟨valid, place.imp (operationsKept operation).mpr fun covered => covered.mono ?_⟩
    exact fun snapshot => (snapshotsHeld snapshot).mpr)
  refine ⟨chosen.map (.operation false) ++ (merged.map .snapshot ++ all.map (.operation false)),
    two, kept, held, ?_, ?_, deliverAll_append first (deliverAll_append second third), keepsTwo,
    count, operationsKept, snapshotsHeld⟩
  · intro operation
    simp only [Delivers, List.mem_append, List.mem_map, reduceCtorEq, and_false, exists_false,
      Delivery.operation.injEq, false_or]
    constructor
    · rintro ⟨isLocal, ⟨other, member, -, rfl⟩ | ⟨other, member, -, rfl⟩⟩
      · exact chosenFrom other member
      · exact member
    · exact fun member => ⟨false, .inr ⟨operation, member, rfl, rfl⟩⟩
  · intro snapshot
    simp [Merges]

end JobAgg.SyncQueue
