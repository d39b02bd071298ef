import JobAgg.SyncQueue.Replica

/-! # The record an object shows

An envelope leads its object when it survives the rules of the resolution: a tombstone
hides every live envelope, a stored operation comes before every snapshot record, and
among equals the greatest order key or the undominated snapshot with the greatest digest
wins. The resolution lists exactly the leading envelopes. -/

namespace JobAgg.SyncQueue

variable {Digest Tag : Type} {operations : List Operation}
  {snapshots : List (Snapshot Digest Tag)} {object : String} {envelope other : Envelope}

/-- Some candidate for the object is a tombstone. -/
def Deleted (operations : List Operation) (snapshots : List (Snapshot Digest Tag))
    (object : String) : Prop :=
  (∃ operation ∈ operations,
    operation.envelope.objectId = object ∧ operation.envelope.tombstone = true) ∨
  ∃ snapshot ∈ snapshots, ∃ record ∈ snapshot.records,
    record.objectId = object ∧ record.tombstone = true

/-- No tombstone hides the envelope. -/
def Eligible (operations : List Operation) (snapshots : List (Snapshot Digest Tag))
    (envelope : Envelope) : Prop :=
  Deleted operations snapshots envelope.objectId → envelope.tombstone = true

def Stands (operations : List Operation) (snapshots : List (Snapshot Digest Tag))
    (object : String) (snapshot : Snapshot Digest Tag) : Prop :=
  snapshot ∈ snapshots ∧ ∃ record ∈ snapshot.records,
    record.objectId = object ∧ Eligible operations snapshots record

def Undominated (operations : List Operation) (snapshots : List (Snapshot Digest Tag))
    (object : String) (snapshot : Snapshot Digest Tag) : Prop :=
  Stands operations snapshots object snapshot ∧
    ∀ other, Stands operations snapshots object other → snapshotDominates other snapshot = false

/-- The operation's envelope is eligible and no eligible one of the object comes after. -/
def LeadsBy (operations : List Operation) (snapshots : List (Snapshot Digest Tag))
    (operation : Operation) : Prop :=
  operation ∈ operations ∧ Eligible operations snapshots operation.envelope ∧
    ∀ other ∈ operations, other.envelope.objectId = operation.envelope.objectId →
      Eligible operations snapshots other.envelope → other.orderKey ≤ operation.orderKey

def Leads (operations : List Operation) (snapshots : List (Snapshot Digest Tag))
    (envelope : Envelope) : Prop :=
  (∃ operation, LeadsBy operations snapshots operation ∧ operation.envelope = envelope) ∨
  (∀ operation ∈ operations, operation.envelope.objectId = envelope.objectId →
    ¬ Eligible operations snapshots operation.envelope) ∧
  ∃ snapshot, Undominated operations snapshots envelope.objectId snapshot ∧
    envelope ∈ snapshot.records ∧ Eligible operations snapshots envelope ∧
    ∀ other, Undominated operations snapshots envelope.objectId other →
      other.canonicalPayloadSha256 ≤ snapshot.canonicalPayloadSha256

/-- Identities, digests and the objects of a snapshot tell what has them apart. -/
structure Distinguished (operations : List Operation) (snapshots : List (Snapshot Digest Tag)) :
    Prop where
  identities : ∀ first ∈ operations, ∀ second ∈ operations,
    first.operationId = second.operationId → first = second
  digests : ∀ first ∈ snapshots, ∀ second ∈ snapshots,
    first.canonicalPayloadSha256 = second.canonicalPayloadSha256 → first = second
  objects : ∀ snapshot ∈ snapshots, ∀ first ∈ snapshot.records, ∀ second ∈ snapshot.records,
    first.objectId = second.objectId → first = second

theorem Operation.operationId_of_orderKey {first second : Operation}
    (same : first.orderKey = second.orderKey) : first.operationId = second.operationId := by
  simp only [orderKey, EmbeddingLike.apply_eq_iff_eq, Prod.mk.injEq] at same
  exact same.2.2.2

theorem Leads.unique (distinguished : Distinguished operations snapshots)
    (leads : Leads operations snapshots envelope) (also : Leads operations snapshots other)
    (same : envelope.objectId = other.objectId) : envelope = other := by
  rcases leads with ⟨first, ⟨member, eligible, greatest⟩, rfl⟩ |
    ⟨none_, snapshot, standing, recorded, -, greatest⟩
  · rcases also with ⟨second, ⟨listed, fit, most⟩, rfl⟩ | ⟨none_, -⟩
    · have equal := le_antisymm (most first member same eligible)
        (greatest second listed same.symm fit)
      rw [distinguished.identities first member second listed
        (Operation.operationId_of_orderKey equal)]
    · exact absurd eligible (none_ first member same)
  · rcases also with ⟨second, ⟨listed, fit, -⟩, rfl⟩ | ⟨-, later, upright, kept, -, most⟩
    · exact absurd fit (none_ second listed same.symm)
    · rw [← same] at upright most
      have equal := le_antisymm (most snapshot standing) (greatest later upright)
      have one := distinguished.digests snapshot standing.1.1 later upright.1.1 equal
      exact distinguished.objects snapshot standing.1.1 envelope recorded other (one ▸ kept) same

theorem mem_candidates {candidate : Candidate Digest Tag} :
    candidate ∈ candidates operations snapshots ↔
      (∃ snapshot ∈ snapshots, ∃ record ∈ snapshot.records,
        candidate = .ofSnapshot record snapshot) ∨
      ∃ operation ∈ operations, candidate = .ofOperation operation := by
  simp only [candidates, List.mem_append, List.mem_flatMap, List.mem_map, eq_comm]

def eligibleCandidates (operations : List Operation) (snapshots : List (Snapshot Digest Tag))
    (object : String) : List (Candidate Digest Tag) :=
  let objectCandidates :=
    (candidates operations snapshots).filter (·.envelope.objectId == object)
  if objectCandidates.any (·.envelope.tombstone) then
    objectCandidates.filter (·.envelope.tombstone)
  else objectCandidates

theorem any_tombstone_iff :
    (((candidates operations snapshots).filter (·.envelope.objectId == object)).any
      (·.envelope.tombstone)) = true ↔ Deleted operations snapshots object := by
  simp only [List.any_eq_true, List.mem_filter, beq_iff_eq, mem_candidates]
  constructor
  · rintro ⟨candidate, ⟨⟨snapshot, member, record, listed, rfl⟩ | ⟨operation, member, rfl⟩, same⟩,
      tombstone⟩
    · exact .inr ⟨snapshot, member, record, listed, same, tombstone⟩
    · exact .inl ⟨operation, member, same, tombstone⟩
  · rintro (⟨operation, member, same, tombstone⟩ |
      ⟨snapshot, member, record, listed, same, tombstone⟩)
    · exact ⟨.ofOperation operation, ⟨.inr ⟨operation, member, rfl⟩, same⟩, tombstone⟩
    · exact ⟨.ofSnapshot record snapshot,
        ⟨.inl ⟨snapshot, member, record, listed, rfl⟩, same⟩, tombstone⟩

theorem mem_eligibleCandidates {candidate : Candidate Digest Tag} :
    candidate ∈ eligibleCandidates operations snapshots object ↔
      candidate ∈ candidates operations snapshots ∧ candidate.envelope.objectId = object ∧
        Eligible operations snapshots candidate.envelope := by
  rw [eligibleCandidates, Eligible]
  split
  case isTrue deleted =>
    rw [any_tombstone_iff] at deleted
    simp only [List.mem_filter, beq_iff_eq, and_assoc]
    constructor
    · rintro ⟨member, rfl, tombstone⟩
      exact ⟨member, rfl, fun _ => tombstone⟩
    · rintro ⟨member, rfl, fit⟩
      exact ⟨member, rfl, fit deleted⟩
  case isFalse live =>
    rw [any_tombstone_iff] at live
    simp only [List.mem_filter, beq_iff_eq]
    constructor
    · rintro ⟨member, rfl⟩
      exact ⟨member, rfl, fun deleted => absurd deleted live⟩
    · rintro ⟨member, same, -⟩
      exact ⟨member, same⟩

theorem mem_operationCandidates {operation : Operation} :
    operation ∈ (eligibleCandidates operations snapshots object).filterMap Candidate.operation? ↔
      operation ∈ operations ∧ operation.envelope.objectId = object ∧
        Eligible operations snapshots operation.envelope := by
  rw [List.mem_filterMap]
  simp only [mem_eligibleCandidates, mem_candidates]
  constructor
  · rintro ⟨candidate, ⟨⟨snapshot, -, record, -, rfl⟩ | ⟨stored, member, rfl⟩, same, fit⟩, found⟩
    · cases found
    · cases found
      exact ⟨member, same, fit⟩
  · rintro ⟨member, same, fit⟩
    exact ⟨.ofOperation operation, ⟨.inr ⟨operation, member, rfl⟩, same, fit⟩, rfl⟩

theorem mem_snapshotCandidates {candidate : Envelope × Snapshot Digest Tag} :
    candidate ∈ (eligibleCandidates operations snapshots object).filterMap Candidate.snapshot? ↔
      candidate.2 ∈ snapshots ∧ candidate.1 ∈ candidate.2.records ∧
        candidate.1.objectId = object ∧ Eligible operations snapshots candidate.1 := by
  rw [List.mem_filterMap]
  simp only [mem_eligibleCandidates, mem_candidates]
  constructor
  · rintro ⟨listed, ⟨⟨snapshot, member, record, kept, rfl⟩ | ⟨stored, -, rfl⟩, same, fit⟩, found⟩
    · cases found
      exact ⟨member, kept, same, fit⟩
    · cases found
  · rintro ⟨member, kept, same, fit⟩
    exact ⟨.ofSnapshot candidate.1 candidate.2,
      ⟨.inl ⟨candidate.2, member, candidate.1, kept, rfl⟩, same, fit⟩, rfl⟩

theorem exists_undominated {snapshot : Snapshot Digest Tag}
    (stands : Stands operations snapshots object snapshot) :
    ∃ other, Undominated operations snapshots object other := by
  let standing := ((eligibleCandidates operations snapshots object).filterMap
    Candidate.snapshot?).map (·.2)
  have members : ∀ other, other ∈ standing ↔ Stands operations snapshots object other := by
    intro other
    rw [List.mem_map]
    simp only [mem_snapshotCandidates]
    constructor
    · rintro ⟨candidate, ⟨member, kept, same, fit⟩, rfl⟩
      exact ⟨member, candidate.1, kept, same, fit⟩
    · rintro ⟨member, record, kept, same, fit⟩
      exact ⟨(record, other), ⟨member, kept, same, fit⟩, rfl⟩
  cases greatest : standing.argmax Snapshot.collectionRevision with
  | none =>
    rw [List.argmax_eq_none] at greatest
    have member := (members snapshot).mpr stands
    rw [greatest] at member
    cases member
  | some other =>
    refine ⟨other, (members other).mp (List.argmax_mem greatest), ?_⟩
    intro newer upright
    have bound := List.le_of_mem_argmax ((members newer).mpr upright) greatest
    rw [snapshotDominates, Bool.and_eq_false_iff, decide_eq_false_iff_not]
    exact .inl (Nat.not_lt.mpr bound)

theorem resolveObject_spec (operations : List Operation)
    (snapshots : List (Snapshot Digest Tag)) (object : String) :
    (∀ envelope, resolveObject ((candidates operations snapshots).filter
        (·.envelope.objectId == object)) = some envelope →
      envelope.objectId = object ∧ Leads operations snapshots envelope) ∧
    ((∃ candidate ∈ candidates operations snapshots, candidate.envelope.objectId = object) →
      ∃ envelope, resolveObject ((candidates operations snapshots).filter
        (·.envelope.objectId == object)) = some envelope) := by
  generalize same : (candidates operations snapshots).filter (·.envelope.objectId == object) =
    objectCandidates
  have eligible : (if objectCandidates.any (·.envelope.tombstone) then
      objectCandidates.filter (·.envelope.tombstone) else objectCandidates) =
      eligibleCandidates operations snapshots object := by
    rw [← same]
    rfl
  simp only [resolveObject, eligible]
  cases listed : (eligibleCandidates operations snapshots object).filterMap
      Candidate.operation? with
  | cons head tail =>
    dsimp only
    rw [← listed]
    constructor
    · intro envelope found
      rw [Option.map_eq_some_iff] at found
      obtain ⟨operation, greatest, rfl⟩ := found
      obtain ⟨member, same, fit⟩ := mem_operationCandidates.mp (List.argmax_mem greatest)
      refine ⟨same, .inl ⟨operation, ⟨member, fit, ?_⟩, rfl⟩⟩
      intro other kept also eligible
      exact List.le_of_mem_argmax
        (mem_operationCandidates.mpr ⟨kept, also.trans same, eligible⟩) greatest
    · intro _
      cases greatest : ((eligibleCandidates operations snapshots object).filterMap
          Candidate.operation?).argmax Operation.orderKey with
      | none =>
        rw [List.argmax_eq_none, listed] at greatest
        cases greatest
      | some operation => exact ⟨operation.envelope, rfl⟩
  | nil =>
    dsimp only
    have none_ : ∀ operation ∈ operations, operation.envelope.objectId = object →
        ¬ Eligible operations snapshots operation.envelope := by
      intro operation member same fit
      have inList := mem_operationCandidates.mpr ⟨member, same, fit⟩
      rw [listed] at inList
      cases inList
    generalize standing_eq :
      (eligibleCandidates operations snapshots object).filterMap Candidate.snapshot? = standing
    have inStanding : ∀ candidate, candidate ∈ standing ↔ candidate.2 ∈ snapshots ∧
        candidate.1 ∈ candidate.2.records ∧ candidate.1.objectId = object ∧
        Eligible operations snapshots candidate.1 := by
      intro candidate
      rw [← standing_eq]
      exact mem_snapshotCandidates
    have upright : ∀ candidate, candidate ∈ standing.filter (fun candidate =>
        !standing.any fun other => snapshotDominates other.2 candidate.2) ↔
          candidate ∈ standing ∧ Undominated operations snapshots object candidate.2 := by
      intro candidate
      rw [List.mem_filter, Bool.not_eq_true', List.any_eq_false]
      constructor
      · rintro ⟨member, free⟩
        obtain ⟨listed, kept, same, fit⟩ := (inStanding candidate).mp member
        refine ⟨member, ⟨listed, candidate.1, kept, same, fit⟩, ?_⟩
        rintro other ⟨within, record, recorded, also, eligible⟩
        rw [← Bool.not_eq_true]
        exact free (record, other) ((inStanding _).mpr ⟨within, recorded, also, eligible⟩)
      · rintro ⟨member, -, free⟩
        refine ⟨member, ?_⟩
        intro other listed
        obtain ⟨within, recorded, also, eligible⟩ := (inStanding other).mp listed
        rw [free other.2 ⟨within, other.1, recorded, also, eligible⟩]
        exact Bool.false_ne_true
    constructor
    · intro envelope found
      rw [Option.map_eq_some_iff] at found
      obtain ⟨candidate, greatest, rfl⟩ := found
      obtain ⟨member, undominated⟩ := (upright candidate).mp (List.argmax_mem greatest)
      obtain ⟨-, kept, rfl, fit⟩ := (inStanding candidate).mp member
      refine ⟨rfl, .inr ⟨none_, candidate.2, undominated, kept, fit, ?_⟩⟩
      intro other free
      obtain ⟨within, record, recorded, also, eligible⟩ := free.1
      have listed := (upright (record, other)).mpr
        ⟨(inStanding _).mpr ⟨within, recorded, also, eligible⟩, free⟩
      have bound := List.le_of_mem_argmax listed greatest
      exact bound
    · rintro ⟨candidate, member, same⟩
      have some_ : ∃ snapshot, Stands operations snapshots object snapshot := by
        by_cases deleted : Deleted operations snapshots object
        · rcases deleted with ⟨operation, held, also, tombstone⟩ |
            ⟨snapshot, held, record, kept, also, tombstone⟩
          · exact absurd (fun _ => tombstone) (none_ operation held also)
          · exact ⟨snapshot, held, record, kept, also, fun _ => tombstone⟩
        · rcases mem_candidates.mp member with
            ⟨snapshot, held, record, kept, rfl⟩ | ⟨operation, held, rfl⟩
          · have also : record.objectId = object := same
            exact ⟨snapshot, held, record, kept, also, fun gone => absurd (also ▸ gone) deleted⟩
          · have also : operation.envelope.objectId = object := same
            exact absurd (fun gone => absurd (also ▸ gone) deleted) (none_ operation held also)
      obtain ⟨snapshot, stands⟩ := some_
      obtain ⟨other, free⟩ := exists_undominated stands
      obtain ⟨within, record, recorded, also, eligible⟩ := free.1
      have listed := (upright (record, other)).mpr
        ⟨(inStanding _).mpr ⟨within, recorded, also, eligible⟩, free⟩
      cases greatest : (standing.filter fun candidate =>
          !standing.any fun other => snapshotDominates other.2 candidate.2).argmax
            fun candidate => candidate.2.canonicalPayloadSha256 with
      | none =>
        rw [List.argmax_eq_none] at greatest
        rw [greatest] at listed
        cases listed
      | some candidate => exact ⟨candidate.1, rfl⟩

theorem Leads.candidate (leads : Leads operations snapshots envelope) :
    ∃ candidate ∈ candidates operations snapshots, candidate.envelope = envelope := by
  rcases leads with ⟨operation, ⟨member, -⟩, rfl⟩ | ⟨-, snapshot, standing, recorded, -⟩
  · exact ⟨.ofOperation operation, mem_candidates.mpr (.inr ⟨operation, member, rfl⟩), rfl⟩
  · exact ⟨.ofSnapshot envelope snapshot,
      mem_candidates.mpr (.inl ⟨snapshot, standing.1.1, envelope, recorded, rfl⟩), rfl⟩

theorem exists_leads
    (named : ∃ candidate ∈ candidates operations snapshots, candidate.envelope.objectId = object) :
    ∃ envelope, envelope.objectId = object ∧ Leads operations snapshots envelope := by
  obtain ⟨describes, resolves⟩ :=
    resolveObject_spec operations snapshots object
  obtain ⟨envelope, found⟩ := resolves named
  exact ⟨envelope, describes envelope found⟩

theorem mem_resolveConvergentRecords (distinguished : Distinguished operations snapshots) :
    envelope ∈ resolveConvergentRecords operations snapshots ↔
      Leads operations snapshots envelope := by
  rw [resolveConvergentRecords, List.mem_filterMap]
  constructor
  · rintro ⟨object, -, found⟩
    exact ((resolveObject_spec operations snapshots _).1 envelope found).2
  · intro leads
    obtain ⟨candidate, member, same⟩ := leads.candidate
    obtain ⟨found, resolved⟩ := (resolveObject_spec operations snapshots _).2 ⟨candidate, member, congrArg _ same⟩
    obtain ⟨also, leading⟩ := (resolveObject_spec operations snapshots _).1 found resolved
    refine ⟨envelope.objectId, ?_, ?_⟩
    · rw [Finset.mem_sort, List.mem_toFinset]
      exact List.mem_map.mpr ⟨candidate, member, congrArg _ same⟩
    · rw [resolved, leads.unique distinguished leading also.symm]

theorem resolveConvergentRecords_increasing (operations : List Operation)
    (snapshots : List (Snapshot Digest Tag)) : (resolveConvergentRecords operations snapshots).Pairwise
      fun first second => first.objectId < second.objectId := by
  rw [resolveConvergentRecords, List.pairwise_filterMap]
  apply (Finset.sortedLT_sort _).pairwise.imp
  intro first second below envelope found other also
  rwa [((resolveObject_spec operations snapshots _).1 envelope found).1, ((resolveObject_spec operations snapshots _).1 other also).1]

theorem resolveConvergentRecords_eq_iff {more : List Operation}
    {others : List (Snapshot Digest Tag)} (distinguished : Distinguished operations snapshots)
    (also : Distinguished more others) :
    resolveConvergentRecords operations snapshots = resolveConvergentRecords more others ↔
      ∀ envelope, Leads operations snapshots envelope ↔ Leads more others envelope := by
  have ordered := resolveConvergentRecords_increasing operations snapshots
  have orderedAlso := resolveConvergentRecords_increasing more others
  constructor
  · intro same envelope
    rw [← mem_resolveConvergentRecords distinguished, same, mem_resolveConvergentRecords also]
  · intro same
    apply eq_of_increasing ordered orderedAlso
    intro envelope
    rw [mem_resolveConvergentRecords distinguished, mem_resolveConvergentRecords also, same]

theorem leads_of_snapshot {snapshot : Snapshot Digest Tag}
    (objects : ∀ first ∈ snapshot.records, ∀ second ∈ snapshot.records,
      first.objectId = second.objectId → first = second) :
    Leads [] [snapshot] envelope ↔ envelope ∈ snapshot.records := by
  constructor
  · rintro (⟨operation, ⟨impossible, -⟩, -⟩ | ⟨-, other, standing, recorded, -⟩)
    · cases impossible
    · rwa [List.mem_singleton.mp standing.1.1] at recorded
  · intro recorded
    have fit : Eligible [] [snapshot] envelope := by
      rintro (⟨operation, impossible, -⟩ | ⟨other, member, record, listed, same, tombstone⟩)
      · cases impossible
      · rw [List.mem_singleton] at member
        subst member
        rwa [objects envelope recorded record listed same.symm]
    refine .inr ⟨fun _ impossible => absurd impossible List.not_mem_nil, snapshot,
      ⟨⟨List.mem_singleton_self _, envelope, recorded, rfl, fit⟩, ?_⟩, recorded, fit, ?_⟩
    · intro other standing
      rw [List.mem_singleton.mp standing.1, snapshotDominates]
      simp
    · intro other undominated
      rw [List.mem_singleton.mp undominated.1.1]

end JobAgg.SyncQueue
