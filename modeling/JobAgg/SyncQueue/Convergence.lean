import JobAgg.SyncQueue.Lineage
import JobAgg.SyncQueue.Resolution

/-! # Convergence of replicas

A replica that merges a snapshot first drops the operations it covers, one that receives
them first keeps them, and a kept operation comes before every snapshot record. Two
replicas that received the same therefore agree exactly when no covered operation that
can be kept would take over its object. -/

namespace JobAgg.SyncQueue

variable {Digest Tag : Type} {library : SnapshotLibrary Digest Tag} {collectionId : String}
  {operations kept others : List Operation} {snapshots held : List (Snapshot Digest Tag)}
  {operation : Operation} {envelope : Envelope} {object : String}

def uncovered (operations : List Operation) (snapshots : List (Snapshot Digest Tag)) :
    List Operation :=
  operations.filter fun operation =>
    snapshots.all fun snapshot =>
      (snapshot.appliedFingerprints.lookup operation.operationId).isNone

/-- Keeping the operation beside these does not change what its object shows: a tombstone
hides it, an operation of its kind comes after it, or its envelope already leads. -/
def Harmless (operations : List Operation) (snapshots : List (Snapshot Digest Tag))
    (operation : Operation) : Prop :=
  operation.envelope.tombstone = false ∧ Deleted operations snapshots operation.envelope.objectId ∨
  (∃ other ∈ operations, other.envelope.objectId = operation.envelope.objectId ∧
    other.envelope.tombstone = operation.envelope.tombstone ∧
    operation.orderKey < other.orderKey) ∨
  Leads operations snapshots operation.envelope

theorem Deleted.mono (deleted : Deleted operations snapshots object)
    (inside : ∀ operation ∈ operations, operation ∈ others)
    (within : ∀ snapshot ∈ snapshots, snapshot ∈ held) : Deleted others held object := by
  rcases deleted with ⟨operation, member, holds⟩ | ⟨snapshot, member, holds⟩
  · exact .inl ⟨operation, inside operation member, holds⟩
  · exact .inr ⟨snapshot, within snapshot member, holds⟩

theorem deleted_cons (hidden : operation.envelope.tombstone = false) :
    Deleted (operation :: operations) snapshots object ↔ Deleted operations snapshots object := by
  constructor
  · rintro (⟨other, member, same, tombstone⟩ | found)
    · rcases List.mem_cons.mp member with rfl | member
      · rw [hidden] at tombstone
        cases tombstone
      · exact .inl ⟨other, member, same, tombstone⟩
    · exact .inr found
  · exact fun deleted => deleted.mono (fun _ => List.mem_cons_of_mem _) fun _ => id

theorem harmless_of_leads_iff
    (same : ∀ envelope, Leads (operation :: operations) snapshots envelope ↔
      Leads operations snapshots envelope) : Harmless operations snapshots operation := by
  by_cases hidden : operation.envelope.tombstone = false ∧
      Deleted operations snapshots operation.envelope.objectId
  · exact .inl hidden
  by_cases beaten : ∃ other ∈ operations,
      other.envelope.objectId = operation.envelope.objectId ∧
        other.envelope.tombstone = operation.envelope.tombstone ∧
        operation.orderKey < other.orderKey
  · exact .inr (.inl beaten)
  refine .inr (.inr ((same _).mp (.inl ⟨operation, ⟨List.mem_cons_self, ?_, ?_⟩, rfl⟩)))
  · intro deleted
    by_contra live
    rw [Bool.not_eq_true] at live
    exact hidden ⟨live, (deleted_cons live).mp deleted⟩
  · intro other member also fit
    rcases List.mem_cons.mp member with rfl | member
    · exact le_refl _
    · rw [← not_lt]
      intro below
      refine beaten ⟨other, member, also, ?_, below⟩
      cases flag : operation.envelope.tombstone with
      | true => exact fit (.inl ⟨operation, List.mem_cons_self, also.symm, flag⟩)
      | false =>
        rw [← Bool.not_eq_true]
        intro tombstone
        exact hidden ⟨flag, .inl ⟨other, member, also, tombstone⟩⟩

/-! ## What harmless operations change -/

section Harmless

variable (smaller : ∀ operation ∈ operations, operation ∈ kept)
  (distinguished : Distinguished kept snapshots)
  (harmless : ∀ operation ∈ kept, operation ∉ operations → Harmless operations snapshots operation)

include smaller harmless in
theorem deleted_iff_of_harmless :
    Deleted kept snapshots object ↔ Deleted operations snapshots object := by
  constructor
  · rintro (⟨operation, member, rfl, tombstone⟩ | found)
    · by_cases uncovered : operation ∈ operations
      · exact .inl ⟨operation, uncovered, rfl, tombstone⟩
      · rcases harmless operation member uncovered with ⟨live, -⟩ |
          ⟨other, listed, same, flag, -⟩ | leads
        · rw [tombstone] at live
          cases live
        · exact .inl ⟨other, listed, same, flag.trans tombstone⟩
        · rcases leads with ⟨leader, ⟨listed, -⟩, same⟩ | ⟨-, snapshot, free, recorded, -⟩
          · exact .inl ⟨leader, listed, by rw [same], by rw [same, tombstone]⟩
          · exact .inr ⟨snapshot, free.1.1, _, recorded, rfl, tombstone⟩
    · exact .inr found
  · exact fun deleted => deleted.mono smaller fun _ => id

include smaller harmless in
theorem eligible_iff_of_harmless :
    Eligible kept snapshots envelope ↔ Eligible operations snapshots envelope := by
  rw [Eligible, Eligible, deleted_iff_of_harmless smaller harmless]

include smaller distinguished in
theorem Distinguished.of_kept : Distinguished operations snapshots where
  identities := fun first member second listed =>
    distinguished.identities first (smaller first member) second (smaller second listed)
  digests := distinguished.digests
  objects := distinguished.objects

include smaller distinguished harmless in
theorem Leads.of_greatest (leads : Leads operations snapshots envelope)
    (greatest : LeadsBy kept snapshots operation)
    (same : operation.envelope.objectId = envelope.objectId) : operation.envelope = envelope := by
  have fewer := Distinguished.of_kept smaller distinguished
  have eligible : ∀ envelope, Eligible kept snapshots envelope ↔
      Eligible operations snapshots envelope :=
    fun _ => eligible_iff_of_harmless smaller harmless
  obtain ⟨member, fit, most⟩ := greatest
  rw [eligible] at fit
  by_cases uncovered : operation ∈ operations
  · apply Leads.unique fewer (.inl ⟨operation, ⟨uncovered, fit, ?_⟩, rfl⟩) leads same
    intro other listed also allowed
    exact most other (smaller other listed) also ((eligible _).mpr allowed)
  · rcases harmless operation member uncovered with ⟨live, deleted⟩ |
      ⟨other, listed, also, flag, above⟩ | already
    · rw [fit deleted] at live
      cases live
    · have allowed : Eligible operations snapshots other.envelope := by
        rw [Eligible, also, flag]
        exact fit
      exact absurd (most other (smaller other listed) also ((eligible _).mpr allowed))
        (not_le.mpr above)
    · exact already.unique fewer leads same

include smaller distinguished harmless in
theorem Leads.among_kept (leads : Leads operations snapshots envelope) :
    Leads kept snapshots envelope := by
  have eligible : ∀ envelope, Eligible kept snapshots envelope ↔
      Eligible operations snapshots envelope :=
    fun _ => eligible_iff_of_harmless smaller harmless
  by_cases some_ : ∃ operation, LeadsBy kept snapshots operation ∧
      operation.envelope.objectId = envelope.objectId
  · obtain ⟨operation, greatest, same⟩ := some_
    exact .inl ⟨operation, greatest,
      leads.of_greatest smaller distinguished harmless greatest same⟩
  · have none_ : ∀ operation ∈ kept, operation.envelope.objectId = envelope.objectId →
        ¬ Eligible kept snapshots operation.envelope := by
      intro operation member same fit
      have listed : operation ∈ (eligibleCandidates kept snapshots envelope.objectId).filterMap
          Candidate.operation? := mem_operationCandidates.mpr ⟨member, same, fit⟩
      cases greatest : ((eligibleCandidates kept snapshots envelope.objectId).filterMap
          Candidate.operation?).argmax Operation.orderKey with
      | none =>
        rw [List.argmax_eq_none] at greatest
        rw [greatest] at listed
        cases listed
      | some leader =>
        obtain ⟨held, also, allowed⟩ := mem_operationCandidates.mp (List.argmax_mem greatest)
        refine some_ ⟨leader, ⟨held, allowed, ?_⟩, also⟩
        intro other within equal fitOther
        exact List.le_of_mem_argmax
          (mem_operationCandidates.mpr ⟨within, equal.trans also, fitOther⟩) greatest
    rcases leads with ⟨leader, ⟨member, fit, -⟩, rfl⟩ | ⟨-, snapshot, free, recorded, fit, most⟩
    · exact absurd ((eligible _).mpr fit) (none_ leader (smaller leader member) rfl)
    · have stands : ∀ other, Stands kept snapshots envelope.objectId other ↔
          Stands operations snapshots envelope.objectId other := by
        intro other
        simp only [Stands, eligible]
      have undominated : ∀ other, Undominated kept snapshots envelope.objectId other ↔
          Undominated operations snapshots envelope.objectId other := by
        intro other
        simp only [Undominated, stands]
      refine .inr ⟨none_, snapshot, (undominated _).mpr free, recorded, (eligible _).mpr fit, ?_⟩
      exact fun other also => most other ((undominated other).mp also)

include smaller distinguished harmless in
theorem leads_iff_of_harmless
    (known : ∀ operation ∈ kept, ∃ candidate ∈ candidates operations snapshots,
      candidate.envelope.objectId = operation.envelope.objectId) :
    Leads kept snapshots envelope ↔ Leads operations snapshots envelope := by
  constructor
  · intro leads
    have named : ∃ candidate ∈ candidates operations snapshots,
        candidate.envelope.objectId = envelope.objectId := by
      obtain ⟨candidate, member, rfl⟩ := leads.candidate
      rcases mem_candidates.mp member with ⟨snapshot, listed, record, recorded, rfl⟩ |
        ⟨operation, listed, rfl⟩
      · exact ⟨_, mem_candidates.mpr (.inl ⟨snapshot, listed, record, recorded, rfl⟩), rfl⟩
      · exact known operation listed
    obtain ⟨found, same, leading⟩ := exists_leads named
    have also := leading.among_kept smaller distinguished harmless
    rw [leads.unique distinguished also same.symm]
    exact leading
  · exact fun leads => leads.among_kept smaller distinguished harmless

end Harmless

/-! ## Replicas -/

theorem mem_uncovered : operation ∈ uncovered operations snapshots ↔
    operation ∈ operations ∧ ∀ snapshot ∈ snapshots,
      snapshot.appliedFingerprints.lookup operation.operationId = none := by
  simp only [uncovered, List.mem_filter, List.all_eq_true, Option.isNone_iff_eq_none]

theorem leads_congr (sameOperations : ∀ operation, operation ∈ kept ↔ operation ∈ operations)
    (sameSnapshots : ∀ snapshot, snapshot ∈ held ↔ snapshot ∈ snapshots) :
    Leads kept held envelope ↔ Leads operations snapshots envelope := by
  have deleted : ∀ object, Deleted kept held object ↔ Deleted operations snapshots object := by
    intro object
    simp only [Deleted, sameOperations, sameSnapshots]
  have eligible : ∀ envelope, Eligible kept held envelope ↔
      Eligible operations snapshots envelope := by
    intro envelope
    simp only [Eligible, deleted]
  have stands : ∀ snapshot, Stands kept held envelope.objectId snapshot ↔
      Stands operations snapshots envelope.objectId snapshot := by
    intro snapshot
    simp only [Stands, eligible, sameSnapshots]
  simp only [Leads, LeadsBy, Undominated, stands, eligible, sameOperations]

theorem Made.exists_record {snapshot : Snapshot Digest Tag}
    (made : Made library collectionId snapshot operations) (member : operation ∈ operations) :
    ∃ record ∈ snapshot.records, record.objectId = operation.envelope.objectId := by
  have listed : operation ∈ written operation.envelope.objectId operations :=
    mem_written.mpr ⟨member, rfl⟩
  cases last : (written operation.envelope.objectId operations).getLast? with
  | none =>
    rw [List.getLast?_eq_none_iff] at last
    rw [last] at listed
    cases listed
  | some latest =>
    have same := (mem_written.mp (List.mem_of_getLast? last)).2
    refine ⟨latest.envelope, made.record.mpr ?_, same⟩
    rw [same, lastEnvelope, last, Option.map_some]

theorem Keeps.distinguished {state : ReplicaState Digest Tag}
    (keeps : Keeps library collectionId state operations snapshots) :
    Distinguished operations snapshots where
  identities := fun first member second listed =>
    eq_of_key_eq keeps.distinct.1 member listed
  digests := fun first member second listed =>
    eq_of_key_eq keeps.distinct.2 member listed
  objects := by
    intro snapshot member first recorded second also same
    obtain ⟨history, made⟩ := keeps.made snapshot member
    have one := made.record.mp recorded
    have two := made.record.mp also
    rw [same] at one
    exact Option.some.inj (one.symm.trans two)

theorem Distinguished.congr (distinguished : Distinguished kept held)
    (inside : ∀ operation ∈ operations, operation ∈ kept)
    (within : ∀ snapshot ∈ snapshots, snapshot ∈ held) : Distinguished operations snapshots where
  identities := fun first member second listed =>
    distinguished.identities first (inside first member) second (inside second listed)
  digests := fun first member second listed =>
    distinguished.digests first (within first member) second (within second listed)
  objects := fun snapshot member => distinguished.objects snapshot (within snapshot member)

variable [DecidableEq Digest] [DecidableEq Tag]

/-- Deliveries of these operations and snapshots in some order, each as often as one
likes, that lead to a state without any call raising. -/
structure Reaches (library : SnapshotLibrary Digest Tag) (collectionId : String)
    (operations : List Operation) (snapshots : List (Snapshot Digest Tag))
    (deliveries : List (Delivery Digest Tag)) (final : ReplicaState Digest Tag) : Prop where
  delivers : ∀ operation, Delivers deliveries operation ↔ operation ∈ operations
  merges : ∀ snapshot, Merges deliveries snapshot ↔ snapshot ∈ snapshots
  ran : deliverAll library collectionId deliveries (convergentDefault collectionId) = .ok final

/-- Two replicas that received the same show the same. -/
def Converges (library : SnapshotLibrary Digest Tag) (collectionId : String)
    (operations : List Operation) (snapshots : List (Snapshot Digest Tag)) : Prop :=
  ∀ deliveries others final last,
    Reaches library collectionId operations snapshots deliveries final →
    Reaches library collectionId operations snapshots others last →
    replicaRecords library collectionId final = replicaRecords library collectionId last

/-- The operation can be kept beside the uncovered ones by a replica that accepts all the
others too. -/
structure Keepable (library : SnapshotLibrary Digest Tag) (operations : List Operation)
    (snapshots : List (Snapshot Digest Tag)) (operation : Operation) : Prop where
  covered : Covered library.toLibrary snapshots operation
  few : snapshots.length ≤ maximumQueueOperations
  coherent : Coherent library.toLibrary (operation :: uncovered operations snapshots) snapshots
  others : ∀ other ∈ operations, other.isValid library.toLibrary = true ∧
    (other ∈ uncovered operations snapshots ∨ Covered library.toLibrary snapshots other)

/-- The condition under which arrival order does not matter. -/
def OrderHarmless (library : SnapshotLibrary Digest Tag) (operations : List Operation)
    (snapshots : List (Snapshot Digest Tag)) : Prop :=
  ∀ operation ∈ operations, Keepable library operations snapshots operation →
    Harmless (uncovered operations snapshots) snapshots operation

section Theorem

variable (identified : isIdentifier collectionId = true)
  (hashed : Function.Injective library.fingerprint)
  (digested : (snapshots.map (·.canonicalPayloadSha256)).Nodup)
  (produced : ∀ snapshot ∈ snapshots, Produced library collectionId snapshot)

include identified in
theorem replicaRecords_of_keeps {state : ReplicaState Digest Tag}
    (keeps : Keeps library collectionId state kept held)
    (few : held.length ≤ maximumQueueOperations) :
    replicaRecords library collectionId state = .ok (resolveConvergentRecords kept held) := by
  obtain ⟨receipts, read, -⟩ := keeps.loads identified few
  rw [replicaRecords, read, ok_bind]
  rfl

include identified in
theorem replicaRecords_of_many {state : ReplicaState Digest Tag}
    (keeps : Keeps library collectionId state kept held)
    (many : ¬ held.length ≤ maximumQueueOperations) :
    replicaRecords library collectionId state = .error invalid := by
  rw [replicaRecords, loadConvergentReplica, keeps.named, keeps.files]
  simp [require, identified, many, bind, Except.bind]

include identified hashed digested produced in
theorem Reaches.keeps {deliveries : List (Delivery Digest Tag)} {final : ReplicaState Digest Tag}
    (reaches : Reaches library collectionId operations snapshots deliveries final) :
    ∃ kept held, Keeps library collectionId final kept held ∧ held.length = snapshots.length ∧
      (∀ snapshot, snapshot ∈ held ↔ snapshot ∈ snapshots) ∧
      (∀ operation ∈ uncovered operations snapshots, operation ∈ kept) ∧
      ∀ operation ∈ kept, operation ∈ operations ∧
        (operation ∈ uncovered operations snapshots ∨
          Covered library.toLibrary snapshots operation ∧
            (snapshots.length ≤ maximumQueueOperations →
              Keepable library operations snapshots operation)) := by
  have made : ∀ snapshot ∈ snapshots, ∃ history, Made library collectionId snapshot history :=
    fun snapshot member => (produced snapshot member).made identified
  have begins : Delivered library collectionId (convergentDefault collectionId)
      (fun _ => False) (fun _ => False) [] [] :=
    ⟨.default, fun _ => by simp, fun _ member => absurd member List.not_mem_nil,
      fun _ impossible => impossible.elim⟩
  obtain ⟨kept, held, delivered⟩ := Delivered.all (fun _ => True) (· ∈ snapshots)
    identified (fun _ _ _ _ same => hashed same)
    (fun first second member listed => eq_of_key_eq digested member listed) made begins
    (fun _ _ => trivial) (fun _ impossible => impossible.elim) (fun _ _ => trivial)
    (fun snapshot => (reaches.merges snapshot).mp) reaches.ran
  have heldIff : ∀ snapshot, snapshot ∈ held ↔ snapshot ∈ snapshots := by
    intro snapshot
    rw [delivered.merges, false_or, reaches.merges]
  have known : ∀ operation ∈ operations, operation.isValid library.toLibrary = true ∧
      (operation ∈ kept ∨ Covered library.toLibrary snapshots operation) := by
    intro operation member
    obtain ⟨valid, place⟩ :=
      delivered.known operation (.inr ((reaches.delivers operation).mpr member))
    exact ⟨valid, place.imp_right fun covered =>
      covered.mono fun snapshot => (heldIff snapshot).mp⟩
  have free : ∀ operation ∈ uncovered operations snapshots, operation ∈ kept := by
    intro operation member
    obtain ⟨listed, bare⟩ := mem_uncovered.mp member
    rcases (known operation listed).2 with inKept | ⟨snapshot, merged, found⟩
    · exact inKept
    · rw [bare snapshot merged] at found
      cases found
  have coherent : Coherent library.toLibrary kept snapshots :=
    delivered.keeps.coherent.mono (fun _ => id) fun snapshot => (heldIff snapshot).mpr
  have place : ∀ operation ∈ kept, operation ∈ uncovered operations snapshots ∨
      Covered library.toLibrary snapshots operation := by
    intro operation member
    have listed : operation ∈ operations := by
      have received := delivered.receives operation member
      rw [false_or] at received
      exact (reaches.delivers operation).mp received
    by_cases bare : ∀ snapshot ∈ snapshots,
        snapshot.appliedFingerprints.lookup operation.operationId = none
    · exact .inl (mem_uncovered.mpr ⟨listed, bare⟩)
    · push Not at bare
      obtain ⟨snapshot, merged, some_⟩ := bare
      obtain ⟨digest, found⟩ := Option.ne_none_iff_exists'.mp some_
      have same : digest = library.fingerprint operation := coherent.consistent.receipts
        (mem_historyFacts.mpr (.inl ⟨snapshot, merged, found⟩))
        (mem_historyFacts.mpr (.inr ⟨operation, member, .inl rfl⟩))
      exact .inr ⟨snapshot, merged, same ▸ found⟩
  refine ⟨kept, held, delivered.keeps, ?_, heldIff, free, ?_⟩
  · have nodup : held.Nodup := List.Nodup.of_map _ delivered.keeps.distinct.2
    have nodupToo : snapshots.Nodup := List.Nodup.of_map _ digested
    exact ((List.perm_ext_iff_of_nodup nodup nodupToo).mpr heldIff).length_eq
  · intro operation member
    have received := delivered.receives operation member
    rw [false_or] at received
    refine ⟨(reaches.delivers operation).mp received, ?_⟩
    refine (place operation member).imp_right fun covered => ⟨covered, fun few => ?_⟩
    refine ⟨covered, few, ?_, ?_⟩
    · apply coherent.mono _ fun _ => id
      intro other inside
      rcases List.mem_cons.mp inside with rfl | inside
      · exact member
      · exact free other inside
    · intro other listed
      obtain ⟨valid, either⟩ := known other listed
      refine ⟨valid, ?_⟩
      rcases either with inKept | hasReceipt
      · exact place other inKept
      · exact .inr hasReceipt

include identified hashed produced in
theorem Covered.exists_candidate (covered : Covered library.toLibrary snapshots operation)
    (more : List Operation) : ∃ candidate ∈ candidates more snapshots,
      candidate.envelope.objectId = operation.envelope.objectId := by
  obtain ⟨snapshot, member, found⟩ := covered
  obtain ⟨history, made⟩ := (produced snapshot member).made identified
  obtain ⟨source, listed, -, same⟩ := made.receipt.mp found
  rw [hashed same] at listed
  obtain ⟨record, recorded, named⟩ := made.exists_record listed
  exact ⟨.ofSnapshot record snapshot,
    mem_candidates.mpr (.inl ⟨snapshot, member, record, recorded, rfl⟩), named⟩

include identified hashed digested produced in
theorem Reaches.shows {deliveries : List (Delivery Digest Tag)} {final : ReplicaState Digest Tag}
    (reaches : Reaches library collectionId operations snapshots deliveries final)
    (few : snapshots.length ≤ maximumQueueOperations)
    (harmless : OrderHarmless library operations snapshots) :
    ∃ kept, ∃ held : List (Snapshot Digest Tag), Distinguished kept held ∧
      replicaRecords library collectionId final = .ok (resolveConvergentRecords kept held) ∧
      ∀ envelope, Leads kept held envelope ↔
        Leads (uncovered operations snapshots) snapshots envelope := by
  obtain ⟨kept, held, keeps, length, heldIff, free, place⟩ :=
    reaches.keeps identified hashed digested produced
  refine ⟨kept, held, keeps.distinguished, ?_, ?_⟩
  · exact replicaRecords_of_keeps identified keeps (by omega)
  · intro envelope
    have distinguished : Distinguished kept snapshots :=
      keeps.distinguished.congr (fun _ => id) fun snapshot => (heldIff snapshot).mpr
    rw [leads_congr (fun _ => Iff.rfl) heldIff]
    apply leads_iff_of_harmless free distinguished
    · intro operation member covered
      obtain ⟨listed, either⟩ := place operation member
      rcases either with bare | ⟨-, keepable⟩
      · exact absurd bare covered
      · exact harmless operation listed (keepable few)
    · intro operation member
      rcases (place operation member).2 with bare | ⟨covered, -⟩
      · exact ⟨.ofOperation operation, mem_candidates.mpr (.inr ⟨operation, bare, rfl⟩), rfl⟩
      · exact covered.exists_candidate identified hashed produced _

include identified hashed digested produced in
/-- Two replicas that received the same operations and snapshots in any order show the
same exactly when no covered operation that can be kept would take over its object. -/
theorem converges_iff : Converges library collectionId operations snapshots ↔
    OrderHarmless library operations snapshots := by
  have made : ∀ snapshot ∈ snapshots, ∃ history, Made library collectionId snapshot history :=
    fun snapshot member => (produced snapshot member).made identified
  constructor
  · intro converges operation member keepable
    have bareFrom : ∀ other ∈ uncovered operations snapshots, other ∈ operations :=
      fun other bare => (mem_uncovered.mp bare).1
    obtain ⟨deliveries, final, kept, held, delivers, merges, ran, keeps, length, keptIff, heldIff⟩ :=
      exists_deliveries _ _ identified (fun _ _ _ _ same => hashed same) digested keepable.few made
        (List.forall_mem_cons.mpr ⟨member, bareFrom⟩)
        (fun other listed => ⟨(keepable.others other listed).1,
          (keepable.others other listed).2.imp_left (List.mem_cons_of_mem operation)⟩)
        keepable.coherent
    obtain ⟨others, last, fewer, also, deliversAlso, mergesAlso, ranAlso, keepsAlso, lengthAlso,
        fewerIff, alsoIff⟩ :=
      exists_deliveries _ _ identified (fun _ _ _ _ same => hashed same) digested keepable.few made
        bareFrom keepable.others
        (keepable.coherent.mono (fun _ => List.mem_cons_of_mem _) fun _ => id)
    have agree := converges deliveries others final last ⟨delivers, merges, ran⟩
      ⟨deliversAlso, mergesAlso, ranAlso⟩
    have few := keepable.few
    rw [replicaRecords_of_keeps identified keeps (by omega),
      replicaRecords_of_keeps identified keepsAlso (by omega), Except.ok.injEq,
      resolveConvergentRecords_eq_iff keeps.distinguished keepsAlso.distinguished] at agree
    apply harmless_of_leads_iff
    intro envelope
    rw [← leads_congr keptIff heldIff, agree, leads_congr fewerIff alsoIff]
  · intro harmless deliveries others final last reaches reachesAlso
    by_cases few : snapshots.length ≤ maximumQueueOperations
    · obtain ⟨kept, held, distinguished, shown, leads⟩ :=
        reaches.shows identified hashed digested produced few harmless
      obtain ⟨fewer, also, distinguishedAlso, shownAlso, leadsAlso⟩ :=
        reachesAlso.shows identified hashed digested produced few harmless
      rw [shown, shownAlso, Except.ok.injEq,
        resolveConvergentRecords_eq_iff distinguished distinguishedAlso]
      intro envelope
      rw [leads, leadsAlso]
    · obtain ⟨kept, held, keeps, length, -⟩ :=
        reaches.keeps identified hashed digested produced
      obtain ⟨fewer, also, keepsAlso, lengthAlso, -⟩ :=
        reachesAlso.keeps identified hashed digested produced
      rw [replicaRecords_of_many identified keeps (by omega),
        replicaRecords_of_many identified keepsAlso (by omega)]

end Theorem

/-! ## A snapshot that covers an older write -/

/-- Two writes to one object, of which the replica receives the first. -/
def rewrites : List Operation := [plainOperation 1 false, plainOperation 2 false]

theorem rewrites_evaluated : isIdentifier "collection-a" = true ∧
    (runCalls plainSnapshots "collection-a" (rewrites.map .append)
      (collectionDefault "collection-a")).1 = rewrites.map (fun _ => .appended) ∧
    FreshRevisions rewrites := by
  rw [FreshRevisions]
  decide +kernel

theorem exists_produced_rewrites : ∃ snapshot,
    Produced plainSnapshots "collection-a" snapshot ∧
      Made plainSnapshots "collection-a" snapshot rewrites := by
  have identified := rewrites_evaluated.1
  have holds : Holds plainSnapshots "collection-a"
      (runCalls plainSnapshots "collection-a" (rewrites.map .append)
        (collectionDefault "collection-a")).2 rewrites :=
    Holds.default.appendAll identified rewrites rewrites_evaluated.2.1
  obtain ⟨⟨snapshot, folded⟩, compacted⟩ := (holds.compact identified).1 (by decide)
  exact ⟨snapshot, ⟨_, folded, compacted⟩, holds.compacts identified compacted⟩

theorem converges_iff_rewrites : ∃ snapshot,
    Produced plainSnapshots "collection-a" snapshot ∧
      (Converges plainSnapshots "collection-a" [plainOperation 1 false] [snapshot] ↔
        OrderHarmless plainSnapshots [plainOperation 1 false] [snapshot]) := by
  obtain ⟨snapshot, produced, -⟩ := exists_produced_rewrites
  refine ⟨snapshot, produced, ?_⟩
  exact converges_iff rewrites_evaluated.1 Function.injective_id (List.nodup_singleton _)
    (List.forall_mem_singleton.mpr produced)

/-- A replica that receives the first write before the snapshot of both keeps showing it;
one that merges the snapshot first shows the second. -/
theorem not_converges_rewrites : ∃ snapshot,
    Produced plainSnapshots "collection-a" snapshot ∧
      ¬ Converges plainSnapshots "collection-a" [plainOperation 1 false] [snapshot] := by
  obtain ⟨snapshot, produced, made⟩ := exists_produced_rewrites
  refine ⟨snapshot, produced, ?_⟩
  have identified := rewrites_evaluated.1
  have few : [snapshot].length ≤ maximumQueueOperations :=
    (show 1 ≤ maximumQueueOperations by decide)
  have digested : ([snapshot].map (·.canonicalPayloadSha256)).Nodup := List.nodup_singleton _
  have merged : ∀ other ∈ [snapshot], ∃ history, Made plainSnapshots "collection-a" other history :=
    List.forall_mem_singleton.mpr ⟨rewrites, made⟩
  have covered : Covered plainSnapshots.toLibrary [snapshot] (plainOperation 1 false) :=
    ⟨snapshot, List.mem_singleton_self _,
      made.receipt.mpr ⟨plainOperation 1 false, List.mem_cons_self, rfl, rfl⟩⟩
  have valid := made.accepted.valid (plainOperation 1 false) List.mem_cons_self
  have coherent : Coherent plainSnapshots.toLibrary rewrites [snapshot] :=
    made.accepted.coherent rewrites_evaluated.2.2
      (List.forall_mem_singleton.mpr made)
  obtain ⟨early, final, kept, held, delivers, merges, ran, keeps, length, keptIff, heldIff⟩ :=
    exists_deliveries [plainOperation 1 false] [plainOperation 1 false] identified
      (fun _ _ _ _ same => same) digested few merged (fun _ => id)
      (List.forall_mem_singleton.mpr ⟨valid, .inr covered⟩)
      (coherent.mono (List.forall_mem_singleton.mpr List.mem_cons_self) fun _ => id)
  obtain ⟨late, last, none_, also, deliversLate, mergesLate, ranLate, keepsLate, lengthLate,
      noneIff, alsoIff⟩ :=
    exists_deliveries [] [plainOperation 1 false] identified
      (fun _ _ _ _ same => same) digested few merged
      (fun _ impossible => absurd impossible List.not_mem_nil)
      (List.forall_mem_singleton.mpr ⟨valid, .inr covered⟩)
      (coherent.mono (fun _ impossible => absurd impossible List.not_mem_nil) fun _ => id)
  intro converges
  have agree := converges early late final last ⟨delivers, merges, ran⟩
    ⟨deliversLate, mergesLate, ranLate⟩
  rw [replicaRecords_of_keeps identified keeps (by omega),
    replicaRecords_of_keeps identified keepsLate (by omega), Except.ok.injEq,
    resolveConvergentRecords_eq_iff keeps.distinguished keepsLate.distinguished] at agree
  have alsoOf : ∀ other ∈ [snapshot], other = snapshot := fun _ => List.mem_singleton.mp
  have live : ∀ object, ¬ Deleted kept held object := by
    rintro object (⟨operation, member, -, tombstone⟩ | ⟨other, member, record, stored, -, tombstone⟩)
    · rw [keptIff, List.mem_singleton] at member
      rw [member] at tombstone
      cases tombstone
    · rw [alsoOf other ((heldIff other).mp member)] at stored
      have last := made.record.mp stored
      rw [lastEnvelope, Option.map_eq_some_iff] at last
      obtain ⟨operation, latest, rfl⟩ := last
      have listed := (mem_written.mp (List.mem_of_getLast? latest)).1
      have upserts : ∀ operation ∈ rewrites, operation.envelope.tombstone = false := by decide
      rw [upserts operation listed] at tombstone
      cases tombstone
  have first : Leads kept held (plainOperation 1 false).envelope := by
    refine .inl ⟨plainOperation 1 false, ⟨(keptIff _).mpr (List.mem_singleton_self _),
      fun deleted => absurd deleted (live _), ?_⟩, rfl⟩
    intro other member _ _
    rw [List.mem_singleton.mp ((keptIff other).mp member)]
  rcases (agree _).mp first with ⟨operation, ⟨member, -⟩, -⟩ | ⟨-, other, standing, stored, -⟩
  · exact absurd ((noneIff operation).mp member) List.not_mem_nil
  · rw [alsoOf other ((alsoIff other).mp standing.1.1)] at stored
    have latest := made.record.mp stored
    exact absurd latest (by decide)

end JobAgg.SyncQueue
