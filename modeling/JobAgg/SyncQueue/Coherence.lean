import JobAgg.SyncQueue.Compaction
import JobAgg.SyncQueue.Replica

/-! # Coherent histories

The check of a replica's history fills six dictionaries. What it comes to is a property
of the set of facts that the operations and snapshots state, whatever their order; it is
kept by every smaller set. -/

namespace JobAgg.SyncQueue

variable {Digest Tag : Type}

/-- What an operation or a snapshot states. -/
inductive Fact (Digest : Type) where
  | receipt (operationId : String) (digest : Digest)
  | owner (sequenceKey : String ×ₗ Nat) (operationId : String)
  | envelope (envelope : Envelope)
  | covered (device : String) (sequence : Nat)

def operationFacts (library : Library Digest) (operation : Operation) : Set (Fact Digest) :=
  {.receipt operation.operationId (library.fingerprint operation),
    .owner operation.sequenceKey operation.operationId, .envelope operation.envelope}

def snapshotFacts (snapshot : Snapshot Digest Tag) : Set (Fact Digest)
  | .receipt operationId digest => snapshot.appliedFingerprints.lookup operationId = some digest
  | .owner sequenceKey operationId =>
    snapshot.authorSequenceOwners.lookup sequenceKey = some operationId
  | .envelope envelope => envelope ∈ snapshot.records
  | .covered device sequence => snapshot.authorSequences.lookup device = some sequence

@[simp] theorem receipt_mem_snapshotFacts {snapshot : Snapshot Digest Tag} {identity : String}
    {digest : Digest} : .receipt identity digest ∈ snapshotFacts snapshot ↔
      snapshot.appliedFingerprints.lookup identity = some digest := Iff.rfl

@[simp] theorem owner_mem_snapshotFacts {snapshot : Snapshot Digest Tag} {key : String ×ₗ Nat}
    {identity : String} : .owner key identity ∈ snapshotFacts snapshot ↔
      snapshot.authorSequenceOwners.lookup key = some identity := Iff.rfl

@[simp] theorem envelope_mem_snapshotFacts {snapshot : Snapshot Digest Tag} {envelope : Envelope} :
    .envelope envelope ∈ snapshotFacts snapshot ↔ envelope ∈ snapshot.records := Iff.rfl

@[simp] theorem covered_mem_snapshotFacts {snapshot : Snapshot Digest Tag} {device : String}
    {sequence : Nat} : .covered device sequence ∈ snapshotFacts snapshot ↔
      snapshot.authorSequences.lookup device = some sequence := Iff.rfl

def historyFacts (library : Library Digest) (operations : List Operation)
    (snapshots : List (Snapshot Digest Tag)) : Set (Fact Digest) :=
  (⋃ snapshot ∈ snapshots, snapshotFacts snapshot) ∪
    ⋃ operation ∈ operations, operationFacts library operation

structure Consistent (facts : Set (Fact Digest)) : Prop where
  receipts : ∀ {identity first second}, .receipt identity first ∈ facts →
    .receipt identity second ∈ facts → first = second
  owners : ∀ {key first second}, .owner key first ∈ facts → .owner key second ∈ facts →
    first = second
  sequences : ∀ {identity first second}, .owner first identity ∈ facts →
    .owner second identity ∈ facts → first = second
  parents : ∀ {envelope : Envelope}, .envelope envelope ∈ facts →
    envelope.parentRevision ≠ some envelope.revision
  revisions : ∀ {first second : Envelope}, .envelope first ∈ facts → .envelope second ∈ facts →
    first.revisionKey = second.revisionKey → first = second

variable {library : Library Digest} {facts before added more : Set (Fact Digest)}

theorem Consistent.mono (consistent : Consistent facts) (fewer : before ⊆ facts) :
    Consistent before where
  receipts := fun first second => consistent.receipts (fewer first) (fewer second)
  owners := fun first second => consistent.owners (fewer first) (fewer second)
  sequences := fun first second => consistent.sequences (fewer first) (fewer second)
  parents := fun member => consistent.parents (fewer member)
  revisions := fun first second => consistent.revisions (fewer first) (fewer second)

structure Filled (check : HistoryCheck Digest) (facts : Set (Fact Digest)) : Prop where
  receipts : ∀ identity digest,
    check.receipts.lookup identity = some digest ↔ .receipt identity digest ∈ facts
  owners : ∀ key identity,
    check.sequenceOwners.lookup key = some identity ↔ .owner key identity ∈ facts
  sequences : ∀ key identity,
    check.operationSequences.lookup identity = some key ↔ .owner key identity ∈ facts
  values : ∀ key envelope, check.revisionValues.lookup key = some envelope ↔
    .envelope envelope ∈ facts ∧ envelope.revisionKey = key
  parents : ∀ key, check.revisionParents.lookup key =
    (check.revisionValues.lookup key).map (·.parentRevision)
  proper : ∀ envelope : Envelope, .envelope envelope ∈ facts →
    envelope.parentRevision ≠ some envelope.revision
  covered : ∀ device, (check.snapshotSequences.lookup device).getD 0 = 0 ∨
    .covered device ((check.snapshotSequences.lookup device).getD 0) ∈ facts

theorem Filled.empty : Filled (.empty : HistoryCheck Digest) ∅ where
  receipts := fun _ _ => by simp [HistoryCheck.empty]
  owners := fun _ _ => by simp [HistoryCheck.empty]
  sequences := fun _ _ => by simp [HistoryCheck.empty]
  values := fun _ _ => by simp [HistoryCheck.empty]
  parents := fun _ => rfl
  proper := fun _ member => member.elim
  covered := fun _ => .inl rfl

theorem Filled.consistent {check : HistoryCheck Digest} (filled : Filled check facts) :
    Consistent facts where
  receipts := by
    intro identity first second one other
    rw [← filled.receipts] at one other
    exact Option.some.inj (one.symm.trans other)
  owners := by
    intro key first second one other
    rw [← filled.owners] at one other
    exact Option.some.inj (one.symm.trans other)
  sequences := by
    intro identity first second one other
    rw [← filled.sequences] at one other
    exact Option.some.inj (one.symm.trans other)
  parents := fun member => filled.proper _ member
  revisions := by
    intro first second one other same
    have left := (filled.values _ first).mpr ⟨one, rfl⟩
    have right := (filled.values _ second).mpr ⟨other, rfl⟩
    rw [same] at left
    exact Option.some.inj (left.symm.trans right)

/-- A step of the check that states `added`: it fills these in, and it passes where they
do not contradict what is there. -/
def Adds (allowed : Set (Fact Digest) → Prop)
    (step : HistoryCheck Digest → Except String (HistoryCheck Digest))
    (added : Set (Fact Digest)) : Prop :=
  ∀ check before, allowed before → Filled check before →
    (∀ next, step check = .ok next → Filled next (before ∪ added)) ∧
      (Consistent (before ∪ added) → ∃ next, step check = .ok next)

variable {allowed : Set (Fact Digest) → Prop}
  {first second : HistoryCheck Digest → Except String (HistoryCheck Digest)}

theorem Adds.bind (adds : Adds allowed first added) (also : Adds allowed second more)
    (keeps : ∀ before, allowed before → allowed (before ∪ added)) :
    Adds allowed (fun check => first check >>= second) (added ∪ more) := by
  intro check before permitted filled
  obtain ⟨fills, passes⟩ := adds check before permitted filled
  constructor
  · intro final ran
    rw [bind_eq_ok] at ran
    obtain ⟨middle, ran, rest⟩ := ran
    have later := (also middle _ (keeps before permitted) (fills middle ran)).1 final rest
    rwa [Set.union_assoc] at later
  · intro consistent
    rw [← Set.union_assoc] at consistent
    obtain ⟨middle, ran⟩ := passes (consistent.mono Set.subset_union_left)
    obtain ⟨final, rest⟩ :=
      (also middle _ (keeps before permitted) (fills middle ran)).2 consistent
    exact ⟨final, by rw [bind_eq_ok]; exact ⟨middle, ran, rest⟩⟩

theorem Adds.each {Item : Type} {items : List Item}
    {add : Item → HistoryCheck Digest → Except String (HistoryCheck Digest)}
    {stated : Item → Set (Fact Digest)}
    (adds : ∀ item ∈ items, Adds allowed (add item) (stated item))
    (keeps : ∀ item ∈ items, ∀ before, allowed before → allowed (before ∪ stated item)) :
    Adds allowed (HistoryCheck.addEach add items) (⋃ item ∈ items, stated item) := by
  induction items with
  | nil =>
    intro check before _ filled
    rw [show (⋃ item ∈ ([] : List Item), stated item) = ∅ by simp, Set.union_empty]
    refine ⟨?_, fun _ => ⟨check, rfl⟩⟩
    intro next ran
    cases ran
    exact filled
  | cons head tail induction =>
    have whole : (⋃ item ∈ head :: tail, stated item) =
        stated head ∪ ⋃ item ∈ tail, stated item := by
      ext fact
      simp
    rw [whole]
    exact (adds head List.mem_cons_self).bind
      (induction (fun item member => adds item (List.mem_cons_of_mem _ member))
        fun item member => keeps item (List.mem_cons_of_mem _ member))
      (keeps head List.mem_cons_self)

theorem all_eq_iff {Value : Type} [BEq Value] [LawfulBEq Value] {stored : Option Value} {value : Value} :
    (stored.all (· == value)) = true ↔ ∀ other, stored = some other → other = value := by
  cases stored <;> simp

theorem Adds.receipt [DecidableEq Digest] {identity : String} {digest : Digest} :
    Adds allowed (HistoryCheck.addReceipt identity digest) {.receipt identity digest} := by
  intro check before _ filled
  constructor
  · intro next ran
    rw [HistoryCheck.addReceipt, require_bind_eq_ok, pure_eq_ok, all_eq_iff] at ran
    obtain ⟨agrees, rfl⟩ := ran
    refine ⟨?_, ?_, ?_, ?_, filled.parents, ?_, ?_⟩
    · intro other stored
      rw [Dict.lookup_insert_eq]
      by_cases same : other = identity
      · subst same
        rw [if_pos rfl]
        simp only [Set.mem_union, Set.mem_singleton_iff, Fact.receipt.injEq, true_and,
          Option.some.injEq, ← filled.receipts]
        exact ⟨fun equal => .inr equal.symm, fun either =>
          either.elim (fun found => (agrees _ found).symm) Eq.symm⟩
      · rw [if_neg same, filled.receipts]
        simp [same]
    · simpa using filled.owners
    · simpa using filled.sequences
    · simpa using filled.values
    · simpa using filled.proper
    · simpa using filled.covered
  · intro consistent
    apply Exists.intro
    rw [HistoryCheck.addReceipt, require_bind_eq_ok, all_eq_iff]
    refine ⟨?_, rfl⟩
    intro stored found
    exact consistent.receipts (.inl ((filled.receipts _ _).mp found)) (.inr rfl)

theorem Adds.owner {key : String ×ₗ Nat} {identity : String} :
    Adds allowed (HistoryCheck.addSequenceOwner key identity)
      {.owner key identity} := by
  intro check before _ filled
  constructor
  · intro next ran
    rw [HistoryCheck.addSequenceOwner, require_bind_eq_ok, pure_eq_ok, Bool.and_eq_true,
      all_eq_iff, all_eq_iff] at ran
    obtain ⟨⟨agrees, also⟩, rfl⟩ := ran
    refine ⟨?_, ?_, ?_, ?_, filled.parents, ?_, ?_⟩
    · simpa using filled.receipts
    · intro other stored
      rw [Dict.lookup_insert_eq]
      by_cases same : other = key
      · subst same
        rw [if_pos rfl]
        simp only [Set.mem_union, Set.mem_singleton_iff, Fact.owner.injEq, true_and,
          Option.some.injEq, ← filled.owners]
        exact ⟨fun equal => .inr equal.symm, fun either =>
          either.elim (fun found => (agrees _ found).symm) Eq.symm⟩
      · rw [if_neg same, filled.owners]
        simp [same]
    · intro stored other
      rw [Dict.lookup_insert_eq]
      by_cases same : other = identity
      · subst same
        rw [if_pos rfl]
        simp only [Set.mem_union, Set.mem_singleton_iff, Fact.owner.injEq, and_true,
          Option.some.injEq, ← filled.sequences]
        exact ⟨fun equal => .inr equal.symm, fun either =>
          either.elim (fun found => (also _ found).symm) Eq.symm⟩
      · rw [if_neg same, filled.sequences]
        simp [same]
    · simpa using filled.values
    · simpa using filled.proper
    · simpa using filled.covered
  · intro consistent
    apply Exists.intro
    rw [HistoryCheck.addSequenceOwner, require_bind_eq_ok, Bool.and_eq_true, all_eq_iff,
      all_eq_iff]
    refine ⟨⟨?_, ?_⟩, rfl⟩
    · intro stored found
      exact consistent.owners (.inl ((filled.owners _ _).mp found)) (.inr rfl)
    · intro stored found
      exact consistent.sequences (.inl ((filled.sequences _ _).mp found)) (.inr rfl)

theorem Adds.envelope {envelope : Envelope} :
    Adds allowed (HistoryCheck.addEnvelope envelope) {.envelope envelope} := by
  intro check before _ filled
  constructor
  · intro next ran
    rw [HistoryCheck.addEnvelope, require_bind_eq_ok, require_bind_eq_ok, pure_eq_ok,
      all_eq_iff, bne_iff_ne] at ran
    obtain ⟨proper, agrees, rfl⟩ := ran
    refine ⟨?_, ?_, ?_, ?_, ?_, ?_, ?_⟩
    · simpa using filled.receipts
    · simpa using filled.owners
    · simpa using filled.sequences
    · intro key stored
      rw [Dict.lookup_insert_eq]
      by_cases same : key = envelope.revisionKey
      · subst same
        rw [if_pos rfl]
        simp only [Set.mem_union, Set.mem_singleton_iff, Fact.envelope.injEq, Option.some.injEq]
        constructor
        · rintro rfl
          exact ⟨.inr rfl, rfl⟩
        · rintro ⟨member | rfl, shape⟩
          · exact (agrees stored ((filled.values _ _).mpr ⟨member, shape⟩)).symm
          · rfl
      · rw [if_neg same, filled.values]
        simp only [Set.mem_union, Set.mem_singleton_iff, Fact.envelope.injEq]
        constructor
        · exact fun found => ⟨.inl found.1, found.2⟩
        · rintro ⟨member | rfl, shape⟩
          · exact ⟨member, shape⟩
          · exact absurd shape.symm same
    · intro key
      rw [Dict.lookup_insert_eq, Dict.lookup_insert_eq]
      split
      case isTrue => rfl
      case isFalse => exact filled.parents key
    · intro other member
      rcases member with member | member
      · exact filled.proper other member
      · rw [Set.mem_singleton_iff, Fact.envelope.injEq] at member
        rwa [member]
    · simpa using filled.covered
  · intro consistent
    apply Exists.intro
    rw [HistoryCheck.addEnvelope, require_bind_eq_ok, require_bind_eq_ok, all_eq_iff,
      bne_iff_ne]
    refine ⟨consistent.parents (.inr rfl), ?_, rfl⟩
    intro stored found
    obtain ⟨member, same⟩ := (filled.values _ _).mp found
    exact consistent.revisions (.inl member) (.inr rfl) same

theorem Filled.addSnapshotSequence {check : HistoryCheck Digest} (filled : Filled check facts)
    (device : String) (sequence : Nat) :
    Filled (check.addSnapshotSequence device sequence) (facts ∪ {.covered device sequence}) := by
  refine ⟨?_, ?_, ?_, ?_, filled.parents, ?_, ?_⟩
  · simpa [HistoryCheck.addSnapshotSequence] using filled.receipts
  · simpa [HistoryCheck.addSnapshotSequence] using filled.owners
  · simpa [HistoryCheck.addSnapshotSequence] using filled.sequences
  · simpa [HistoryCheck.addSnapshotSequence] using filled.values
  · simpa using filled.proper
  · intro other
    rw [HistoryCheck.addSnapshotSequence]
    dsimp only
    rw [Dict.lookup_insert_eq]
    by_cases same : other = device
    · subst same
      rw [if_pos rfl, Option.getD_some]
      rcases max_choice ((check.snapshotSequences.lookup other).getD 0) sequence with larger | larger
      · rw [larger]
        exact (filled.covered other).imp_right .inl
      · rw [larger]
        exact .inr (.inr rfl)
    · rw [if_neg same]
      exact (filled.covered other).imp_right .inl

theorem Filled.addSnapshotSequences {check : HistoryCheck Digest} {items : List (String × Nat)}
    (filled : Filled check facts) :
    Filled (items.foldl (fun check item => check.addSnapshotSequence item.1 item.2) check)
      (facts ∪ ⋃ item ∈ items, {.covered item.1 item.2}) := by
  induction items generalizing check facts with
  | nil => simpa using filled
  | cons head tail induction =>
    have later := induction (filled.addSnapshotSequence head.1 head.2)
    rw [Set.union_assoc] at later
    simpa using later

theorem Adds.sequences (items : List (String × Nat)) :
    Adds allowed
      (fun check => .ok (items.foldl
        (fun check item => check.addSnapshotSequence item.1 item.2) check))
      (⋃ item ∈ items, {.covered item.1 item.2}) := by
  intro check before _ filled
  refine ⟨?_, fun _ => ⟨_, rfl⟩⟩
  intro next ran
  cases ran
  exact filled.addSnapshotSequences

theorem Adds.snapshot [DecidableEq Digest] {snapshot : Snapshot Digest Tag} :
    Adds (fun _ => True) (HistoryCheck.addSnapshot snapshot) (snapshotFacts snapshot) := by
  have receipts : Adds (fun _ => True) (HistoryCheck.addEach
      (fun item => HistoryCheck.addReceipt item.1 item.2) snapshot.appliedFingerprints.items)
      (⋃ item ∈ snapshot.appliedFingerprints.items, {Fact.receipt item.1 item.2}) :=
    .each (fun _ _ => .receipt) fun _ _ _ _ => trivial
  have owners : Adds (fun _ => True) (HistoryCheck.addEach
      (fun item => HistoryCheck.addSequenceOwner item.1 item.2)
        snapshot.authorSequenceOwners.items)
      (⋃ item ∈ snapshot.authorSequenceOwners.items,
        ({.owner item.1 item.2} : Set (Fact Digest))) :=
    .each (fun _ _ => .owner) fun _ _ _ _ => trivial
  have records : Adds (fun _ => True) (HistoryCheck.addEach
      HistoryCheck.addEnvelope snapshot.records)
      (⋃ envelope ∈ snapshot.records, ({.envelope envelope} : Set (Fact Digest))) :=
    .each (fun _ _ => .envelope) fun _ _ _ _ => trivial
  have whole := receipts.bind
    (.bind (.sequences snapshot.authorSequences.items)
      (owners.bind records fun _ _ => trivial) fun _ _ => trivial) fun _ _ => trivial
  have facts : snapshotFacts snapshot =
      (⋃ item ∈ snapshot.appliedFingerprints.items, {Fact.receipt item.1 item.2}) ∪
        ((⋃ item ∈ snapshot.authorSequences.items, {Fact.covered item.1 item.2}) ∪
          ((⋃ item ∈ snapshot.authorSequenceOwners.items, {Fact.owner item.1 item.2}) ∪
            ⋃ envelope ∈ snapshot.records, {Fact.envelope envelope})) := by
    ext fact
    cases fact <;> simp [Dict.mem_items]
  rw [facts]
  exact whole

/-- Every sequence a snapshot covers has an owner, whose receipt is there. -/
def Backed (facts : Set (Fact Digest)) : Prop :=
  ∀ device covered sequence, .covered device covered ∈ facts → 1 ≤ sequence →
    sequence ≤ covered → ∃ identity digest,
      .owner (toLex (device, sequence)) identity ∈ facts ∧ .receipt identity digest ∈ facts

theorem Backed.union (backed : Backed before) (alone : Backed added) :
    Backed (before ∪ added) := by
  intro device covered sequence member positive bound
  rcases member with member | member
  · obtain ⟨identity, digest, owner, receipt⟩ := backed device covered sequence member positive bound
    exact ⟨identity, digest, .inl owner, .inl receipt⟩
  · obtain ⟨identity, digest, owner, receipt⟩ := alone device covered sequence member positive bound
    exact ⟨identity, digest, .inr owner, .inr receipt⟩

theorem backed_operationFacts {operation : Operation} :
    Backed (operationFacts library operation) := by
  intro device covered sequence member
  simp [operationFacts] at member

/-- The check of an operation against what the snapshots cover is implied by the others:
an uncovered operation below a covered sequence shares it with another one. -/
theorem Adds.operation [DecidableEq Digest] {operation : Operation}
    (positive : 1 ≤ operation.authorSequence) :
    Adds Backed (HistoryCheck.addOperation library operation)
      (operationFacts library operation) := by
  intro check before backed filled
  let receipt : Set (Fact Digest) :=
    {.receipt operation.operationId (library.fingerprint operation)}
  let owner : Set (Fact Digest) := {.owner operation.sequenceKey operation.operationId}
  have parts : before ∪ operationFacts library operation =
      before ∪ receipt ∪ owner ∪ {.envelope operation.envelope} := by
    rw [Set.union_assoc, Set.union_assoc]
    rfl
  rw [parts]
  have addsReceipt : Adds (fun _ => True) (HistoryCheck.addReceipt operation.operationId
      (library.fingerprint operation)) receipt := .receipt
  have addsOwner : Adds (fun _ => True) (HistoryCheck.addSequenceOwner operation.sequenceKey
      operation.operationId) owner := .owner
  have addsEnvelope : Adds (fun _ => True) (HistoryCheck.addEnvelope operation.envelope)
      ({.envelope operation.envelope} : Set (Fact Digest)) := .envelope
  obtain ⟨receives, passes⟩ := addsReceipt check before trivial filled
  constructor
  · intro next ran
    rw [HistoryCheck.addOperation, bind_eq_ok] at ran
    obtain ⟨one, ran, rest⟩ := ran
    rw [bind_eq_ok] at rest
    obtain ⟨two, also, rest⟩ := rest
    rw [require_bind_eq_ok] at rest
    have owned := (addsOwner one _ trivial (receives one ran)).1 two also
    exact (addsEnvelope two _ trivial owned).1 next rest.2
  · intro consistent
    have fewer : Consistent (before ∪ receipt ∪ owner) := consistent.mono Set.subset_union_left
    obtain ⟨one, ran⟩ := passes (fewer.mono Set.subset_union_left)
    obtain ⟨owns, proceeds⟩ := addsOwner one _ trivial (receives one ran)
    obtain ⟨two, also⟩ := proceeds fewer
    obtain ⟨next, rest⟩ := (addsEnvelope two _ trivial (owns two also)).2 consistent
    refine ⟨next, ?_⟩
    rw [HistoryCheck.addOperation, ran, ok_bind, also, ok_bind, require_bind_eq_ok]
    refine ⟨?_, rest⟩
    rw [Bool.not_eq_true', Bool.and_eq_false_iff]
    by_contra unknown
    rw [not_or, Bool.not_eq_false, Bool.not_eq_false, decide_eq_true_eq,
      Option.isNone_iff_eq_none] at unknown
    obtain ⟨absent, behind⟩ := unknown
    have covered : .covered operation.authorDeviceId
        ((two.snapshotSequences.lookup operation.authorDeviceId).getD 0) ∈ before := by
      rcases (owns two also).covered operation.authorDeviceId with none_ | (member | member) | member
      · omega
      · exact member
      · cases member
      · cases member
    obtain ⟨identity, digest, taken, received⟩ := backed _ _ _ covered positive behind
    have same : identity = operation.operationId :=
      fewer.owners (.inl (.inl taken)) (.inr rfl)
    rw [same, ← filled.receipts, absent] at received
    cases received

/-! ## Cycles -/

def Parent (facts : Set (Fact Digest)) (child parent : RevisionKey) : Prop :=
  ∃ envelope : Envelope, .envelope envelope ∈ facts ∧ envelope.revisionKey = child ∧
    ∃ revision, envelope.parentRevision = some revision ∧
      parent = toLex (envelope.objectId, revision)

def Acyclic (facts : Set (Fact Digest)) : Prop :=
  ∀ key, ¬ Relation.TransGen (Parent facts) key key

theorem Acyclic.mono (acyclic : Acyclic facts) (fewer : before ⊆ facts) : Acyclic before := by
  intro key cycle
  apply acyclic key
  have weaker : Parent before ≤ Parent facts :=
    fun child parent ⟨envelope, member, rest⟩ => ⟨envelope, fewer member, rest⟩
  exact Relation.TransGen.mono weaker key key cycle

variable {check : HistoryCheck Digest}

theorem Filled.parent_iff (filled : Filled check facts) {child parent : RevisionKey} :
    Parent facts child parent ↔ ∃ revision, check.revisionParents.lookup child = some (some revision) ∧
      parent = toLex ((ofLex child).1, revision) := by
  rw [filled.parents]
  constructor
  · rintro ⟨envelope, member, rfl, revision, names, rfl⟩
    have stored := (filled.values _ envelope).mpr ⟨member, rfl⟩
    exact ⟨revision, by rw [stored, Option.map_some, names], rfl⟩
  · rintro ⟨revision, found, rfl⟩
    rw [Option.map_eq_some_iff] at found
    obtain ⟨envelope, stored, names⟩ := found
    obtain ⟨member, rfl⟩ := (filled.values _ envelope).mp stored
    exact ⟨envelope, member, rfl, revision, names, rfl⟩

theorem Filled.not_chainEnds (filled : Filled check facts) {fuel : Nat} {seen : List RevisionKey}
    {current : RevisionKey} (cycle : Relation.TransGen (Parent facts) current current) :
    chainEnds check.revisionParents fuel seen (some current) = false := by
  induction fuel generalizing seen current with
  | zero => rfl
  | succ fuel induction =>
    obtain ⟨next, first, back⟩ := Relation.TransGen.head'_iff.mp cycle
    have again : Relation.TransGen (Parent facts) next next := .tail' back first
    obtain ⟨revision, found, rfl⟩ := filled.parent_iff.mp first
    rw [chainEnds, found]
    dsimp only
    split
    case isTrue => rfl
    case isFalse => exact induction again

theorem Filled.chainEnds (filled : Filled check facts) (acyclic : Acyclic facts)
    {fuel : Nat} {seen : List RevisionKey} {current : Option RevisionKey}
    (enough : check.revisionParents.size + 1 = fuel + seen.length) (distinct : seen.Nodup)
    (known : ∀ key ∈ seen, key ∈ check.revisionParents)
    (leads : ∀ key ∈ seen, ∀ here, current = some here → Relation.TransGen (Parent facts) key here) :
    SyncQueue.chainEnds check.revisionParents fuel seen current = true := by
  induction fuel generalizing seen current with
  | zero =>
    exfalso
    have inside : seen.toFinset ⊆ check.revisionParents.keys := by
      intro key member
      exact Finmap.mem_keys.mpr (known key (List.mem_toFinset.mp member))
    have bound := Finset.card_le_card inside
    rw [List.toFinset_card_of_nodup distinct] at bound
    rw [Dict.size] at enough
    omega
  | succ fuel induction =>
    cases current with
    | none => rfl
    | some here =>
      rw [SyncQueue.chainEnds]
      cases found : check.revisionParents.lookup here with
      | none => rfl
      | some parent =>
        have fresh : here ∉ seen := fun member =>
          acyclic here (leads here member here rfl)
        dsimp only
        rw [if_neg fresh]
        apply induction
        · rw [List.length_cons]
          omega
        · exact List.nodup_cons.mpr ⟨fresh, distinct⟩
        · intro key member
          rcases List.mem_cons.mp member with rfl | member
          · exact Finmap.mem_of_lookup_eq_some found
          · exact known key member
        · intro key member next step
          rw [Option.map_eq_some_iff] at step
          obtain ⟨revision, rfl, rfl⟩ := step
          have last : Parent facts here (toLex ((ofLex here).1, revision)) :=
            filled.parent_iff.mpr ⟨revision, found, rfl⟩
          rcases List.mem_cons.mp member with rfl | member
          · exact .single last
          · exact .tail (leads key member here rfl) last

theorem Filled.acyclic_iff (filled : Filled check facts) :
    (check.revisionParents.items.all fun item =>
      SyncQueue.chainEnds check.revisionParents (check.revisionParents.size + 1) []
        (some item.1)) = true ↔ Acyclic facts := by
  rw [List.all_eq_true]
  constructor
  · intro ends key cycle
    obtain ⟨next, first, -⟩ := Relation.TransGen.head'_iff.mp cycle
    obtain ⟨revision, found, -⟩ := filled.parent_iff.mp first
    have walked := ends _ (Dict.mem_items.mpr found)
    rw [filled.not_chainEnds cycle] at walked
    cases walked
  · intro acyclic item _
    apply filled.chainEnds acyclic
    · rfl
    · exact List.nodup_nil
    · exact fun _ member => absurd member List.not_mem_nil
    · exact fun _ member => absurd member List.not_mem_nil

/-! ## The whole check -/

/-- What the check of a history asks for. -/
structure Coherent (library : Library Digest) (operations : List Operation)
    (snapshots : List (Snapshot Digest Tag)) : Prop where
  consistent : Consistent (historyFacts library operations snapshots)
  acyclic : Acyclic (historyFacts library operations snapshots)
  room : ∀ identities : Finset String,
    (∀ identity ∈ identities,
      ∃ digest, .receipt identity digest ∈ historyFacts library operations snapshots) →
    identities.card ≤ maximumQueueOperations

variable {operations fewerOperations : List Operation}
  {snapshots fewerSnapshots : List (Snapshot Digest Tag)}

theorem historyFacts_mono (inside : ∀ operation ∈ fewerOperations, operation ∈ operations)
    (within : ∀ snapshot ∈ fewerSnapshots, snapshot ∈ snapshots) :
    historyFacts library fewerOperations fewerSnapshots ⊆
      historyFacts library operations snapshots := by
  apply Set.union_subset_union
  · intro fact member
    simp only [Set.mem_iUnion] at member ⊢
    obtain ⟨snapshot, listed, holds⟩ := member
    exact ⟨snapshot, within snapshot listed, holds⟩
  · intro fact member
    simp only [Set.mem_iUnion] at member ⊢
    obtain ⟨operation, listed, holds⟩ := member
    exact ⟨operation, inside operation listed, holds⟩

theorem Coherent.mono (coherent : Coherent library operations snapshots)
    (inside : ∀ operation ∈ fewerOperations, operation ∈ operations)
    (within : ∀ snapshot ∈ fewerSnapshots, snapshot ∈ snapshots) :
    Coherent library fewerOperations fewerSnapshots where
  consistent := coherent.consistent.mono (historyFacts_mono inside within)
  acyclic := coherent.acyclic.mono (historyFacts_mono inside within)
  room := by
    intro identities received
    apply coherent.room
    intro identity member
    obtain ⟨digest, holds⟩ := received identity member
    exact ⟨digest, historyFacts_mono inside within holds⟩

def Snapshot.Backed (snapshot : Snapshot Digest Tag) : Prop :=
  SyncQueue.Backed (snapshotFacts snapshot)

variable [DecidableEq Digest]

theorem validateConvergentHistory_spec (library : Library Digest)
    (backed : ∀ snapshot ∈ snapshots, snapshot.Backed)
    (positive : ∀ operation ∈ operations, 1 ≤ operation.authorSequence) :
    (∀ receipts, validateConvergentHistory library operations snapshots = .ok receipts →
      Coherent library operations snapshots ∧ ∀ identity digest,
        receipts.lookup identity = some digest ↔
          .receipt identity digest ∈ historyFacts library operations snapshots) ∧
    (Coherent library operations snapshots →
      ∃ receipts, validateConvergentHistory library operations snapshots = .ok receipts) := by
  have addsSnapshots : Adds (fun _ => True) (HistoryCheck.addEach HistoryCheck.addSnapshot snapshots)
      (⋃ snapshot ∈ snapshots, snapshotFacts snapshot) :=
    .each (fun _ _ => .snapshot) fun _ _ _ _ => trivial
  have addsOperations : Adds SyncQueue.Backed
      (HistoryCheck.addEach (HistoryCheck.addOperation library) operations)
      (⋃ operation ∈ operations, operationFacts library operation) :=
    .each (fun operation member => .operation (positive operation member))
      fun _ _ _ before => before.union backed_operationFacts
  have backing : SyncQueue.Backed (⋃ snapshot ∈ snapshots, snapshotFacts snapshot) := by
    intro device covered sequence member low high
    simp only [Set.mem_iUnion] at member ⊢
    obtain ⟨snapshot, listed, holds⟩ := member
    obtain ⟨identity, digest, owner, receipt⟩ :=
      backed snapshot listed device covered sequence holds low high
    exact ⟨identity, digest, ⟨snapshot, listed, owner⟩, ⟨snapshot, listed, receipt⟩⟩
  obtain ⟨fills, passes⟩ := addsSnapshots .empty ∅ trivial .empty
  rw [Set.empty_union] at fills passes
  have rooms : ∀ check : HistoryCheck Digest,
      Filled check (historyFacts library operations snapshots) →
        (check.receipts.size ≤ maximumQueueOperations ↔ ∀ identities : Finset String,
          (∀ identity ∈ identities, ∃ digest,
            .receipt identity digest ∈ historyFacts library operations snapshots) →
          identities.card ≤ maximumQueueOperations) := by
    intro check filled
    constructor
    · intro room identities received
      apply (Finset.card_le_card _).trans room
      intro identity member
      obtain ⟨digest, holds⟩ := received identity member
      exact Finmap.mem_keys.mpr (Finmap.mem_of_lookup_eq_some ((filled.receipts _ _).mpr holds))
    · intro room
      apply room check.receipts.keys
      intro identity member
      obtain ⟨digest, found⟩ := Finmap.mem_iff.mp (Finmap.mem_keys.mp member)
      exact ⟨digest, (filled.receipts _ _).mp found⟩
  constructor
  · intro receipts ran
    rw [validateConvergentHistory, bind_eq_ok] at ran
    obtain ⟨middle, ran, rest⟩ := ran
    rw [bind_eq_ok] at rest
    obtain ⟨final, also, rest⟩ := rest
    rw [require_bind_eq_ok, require_bind_eq_ok, pure_eq_ok, decide_eq_true_eq] at rest
    obtain ⟨room, ends, rfl⟩ := rest
    have filled : Filled final (historyFacts library operations snapshots) :=
      (addsOperations middle _ backing (fills middle ran)).1 final also
    exact ⟨⟨filled.consistent, filled.acyclic_iff.mp ends, (rooms final filled).mp room⟩,
      filled.receipts⟩
  · intro coherent
    obtain ⟨middle, ran⟩ := passes (coherent.consistent.mono Set.subset_union_left)
    obtain ⟨fillsAll, passesAll⟩ := addsOperations middle _ backing (fills middle ran)
    obtain ⟨final, also⟩ := passesAll coherent.consistent
    have filled : Filled final (historyFacts library operations snapshots) := fillsAll final also
    refine ⟨final.receipts, ?_⟩
    rw [validateConvergentHistory, ran, ok_bind, also, ok_bind, require_bind_eq_ok,
      require_bind_eq_ok, decide_eq_true_eq]
    exact ⟨(rooms final filled).mpr coherent.room, filled.acyclic_iff.mpr coherent.acyclic, rfl⟩

end JobAgg.SyncQueue
