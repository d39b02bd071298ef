import JobAgg.SyncQueue.Replay
import Mathlib.Algebra.BigOperators.Group.Finset.Basic

/-! # Compaction

A snapshot is built from a replay and checked field by field before it replaces the
tail. For the replay of an accepted history every check passes and reading the snapshot
back gives the same replay, so nothing that a collection answers depends on when it was
compacted. -/

namespace JobAgg.SyncQueue

variable {Digest Tag : Type}

theorem lookup_foldl_placeOwner {rows : List ((String ×ₗ Nat) × String)}
    (distinct : (rows.map (·.1)).Nodup) {start : Dict String (Dict Nat String)}
    {device : String} {sequence : Nat} {identity : String} :
    (((rows.foldl placeOwner start).lookup device).getD ∅).lookup sequence = some identity ↔
      (toLex (device, sequence), identity) ∈ rows ∨
        toLex (device, sequence) ∉ rows.map (·.1) ∧
          ((start.lookup device).getD ∅).lookup sequence = some identity := by
  induction rows generalizing start with
  | nil => simp
  | cons head tail induction =>
    rw [List.map_cons, List.nodup_cons] at distinct
    rw [List.foldl_cons, induction distinct.2, placeOwner, Dict.lookup_insert_eq]
    by_cases same : toLex (device, sequence) = head.1
    · have parts : device = (ofLex head.1).1 ∧ sequence = (ofLex head.1).2 := by
        rw [← same]
        exact ⟨rfl, rfl⟩
      have absent : toLex (device, sequence) ∉ tail.map (·.1) := same ▸ distinct.1
      rw [if_pos parts.1, Option.getD_some, Dict.lookup_insert_eq, if_pos parts.2]
      constructor
      · rintro (member | ⟨-, found⟩)
        · exact .inl (List.mem_cons_of_mem _ member)
        · rw [Option.some.injEq] at found
          rw [same, ← found]
          exact .inl List.mem_cons_self
      · rintro (member | ⟨outside, -⟩)
        · rcases List.mem_cons.mp member with equal | member
          · exact .inr ⟨absent, by rw [← equal]⟩
          · exact .inl member
        · exact absurd (same ▸ List.mem_cons_self) outside
    · have kept : ((if device = (ofLex head.1).1 then
          some (((start.lookup (ofLex head.1).1).getD ∅).insert (ofLex head.1).2 head.2)
          else start.lookup device).getD ∅).lookup sequence =
            ((start.lookup device).getD ∅).lookup sequence := by
        split
        case isTrue equal =>
          have other : sequence ≠ (ofLex head.1).2 := by
            intro also
            exact same (by rw [equal, also]; rfl)
          rw [Option.getD_some, Finmap.lookup_insert_of_ne _ other, equal]
        case isFalse => rfl
      rw [kept, List.map_cons, List.mem_cons (l := tail), List.mem_cons (l := tail.map _), not_or]
      constructor
      · rintro (member | ⟨outside, found⟩)
        · exact .inl (.inr member)
        · exact .inr ⟨⟨same, outside⟩, found⟩
      · rintro ((equal | member) | ⟨⟨-, outside⟩, found⟩)
        · exact absurd (congrArg Prod.fst equal) same
        · exact .inl member
        · exact .inr ⟨outside, found⟩

theorem mem_foldl_placeOwner {rows : List ((String ×ₗ Nat) × String)}
    {start : Dict String (Dict Nat String)} {device : String} :
    device ∈ rows.foldl placeOwner start ↔
      device ∈ start ∨ ∃ item ∈ rows, (ofLex item.1).1 = device := by
  induction rows generalizing start with
  | nil => simp
  | cons head tail induction =>
    rw [List.foldl_cons, induction, placeOwner, Finmap.mem_insert, List.exists_mem_cons_iff]
    constructor
    · rintro ((rfl | member) | found)
      · exact .inr (.inl rfl)
      · exact .inl member
      · exact .inr (.inr found)
    · rintro (member | rfl | found)
      · exact .inl (.inr member)
      · exact .inl (.inl rfl)
      · exact .inr found

variable {owners : Dict (String ×ₗ Nat) String} {device : String} {sequence : Nat}

theorem lookup_sequenceOwnersJson :
    (((sequenceOwnersJson owners).lookup device).getD ∅).lookup sequence =
      owners.lookup (toLex (device, sequence)) := by
  apply Option.ext
  intro identity
  rw [sequenceOwnersJson, lookup_foldl_placeOwner Dict.items_distinct, Dict.mem_items]
  simp

theorem mem_sequenceOwnersJson : device ∈ sequenceOwnersJson owners ↔
    ∃ sequence, toLex (device, sequence) ∈ owners := by
  rw [sequenceOwnersJson, mem_foldl_placeOwner]
  constructor
  · rintro (member | ⟨⟨key, identity⟩, listed, rfl⟩)
    · exact absurd member Finmap.notMem_empty
    · exact ⟨(ofLex key).2, Finmap.mem_of_lookup_eq_some (Dict.mem_items.mp listed)⟩
  · rintro ⟨sequence, member⟩
    obtain ⟨identity, found⟩ := Finmap.mem_iff.mp member
    exact .inr ⟨(toLex (device, sequence), identity), Dict.mem_items.mpr found, rfl⟩

theorem readOwners_eq_ok (raw : Dict String (Dict Nat String))
    (sequences : List (String × Nat)) (start : Dict (String ×ₗ Nat) String)
    (distinct : (sequences.map (·.1)).Nodup)
    (sized : ∀ item ∈ sequences,
      ((raw.lookup item.1).getD ∅).keys = Finset.Icc 1 item.2)
    (identified : ∀ item ∈ sequences, ∀ sequence identity,
      ((raw.lookup item.1).getD ∅).lookup sequence = some identity →
        isCanonicalUuid identity = true)
    (fresh : ∀ item ∈ sequences, ∀ sequence, toLex (item.1, sequence) ∉ start) :
    ∃ owners, readOwners raw sequences start = .ok owners ∧
      ∀ device sequence, owners.lookup (toLex (device, sequence)) =
        if device ∈ sequences.map (·.1) then ((raw.lookup device).getD ∅).lookup sequence
        else start.lookup (toLex (device, sequence)) := by
  induction sequences generalizing start with
  | nil => exact ⟨start, rfl, by simp⟩
  | cons head tail induction =>
    obtain ⟨name, maximum⟩ := head
    rw [List.map_cons, List.nodup_cons] at distinct
    have keys : ((raw.lookup name).getD ∅).keys = Finset.Icc 1 maximum :=
      sized _ List.mem_cons_self
    have notBefore : ∀ sequence, toLex (name, sequence) ∉ start :=
      fresh _ List.mem_cons_self
    generalize inner_eq : (raw.lookup name).getD ∅ = inner at keys
    let middle := inner.items.foldl
      (fun (owners : Dict (String ×ₗ Nat) String) item =>
        owners.insert (toLex (name, item.1)) item.2) start
    have columns : (inner.items.map fun item => toLex (name, item.1)).Nodup := by
      have spread : (inner.items.map fun item => toLex (name, item.1)) =
          (inner.items.map (·.1)).map fun sequence => toLex (name, sequence) := by
        rw [List.map_map]
        rfl
      rw [spread]
      apply Dict.items_distinct.map
      intro first second same
      exact congrArg (fun key => (ofLex key).2) same
    have placed : ∀ device sequence, middle.lookup (toLex (device, sequence)) =
        if device = name then inner.lookup sequence
        else start.lookup (toLex (device, sequence)) := by
      intro device sequence
      apply Option.ext
      intro identity
      rw [Dict.lookup_foldl_insert _ columns]
      by_cases same : device = name
      · subst same
        rw [if_pos rfl]
        constructor
        · rintro (⟨item, member, equal, rfl⟩ | ⟨-, found⟩)
          · have position : item.1 = sequence := congrArg (fun key => (ofLex key).2) equal
            rw [← position]
            exact Dict.mem_items.mp member
          · exact absurd (Finmap.mem_of_lookup_eq_some found) (notBefore sequence)
        · intro found
          exact .inl ⟨(sequence, identity), Dict.mem_items.mpr found, rfl, rfl⟩
      · rw [if_neg same]
        constructor
        · rintro (⟨item, -, equal, -⟩ | ⟨-, found⟩)
          · exact absurd (congrArg (fun key => (ofLex key).1) equal).symm same
          · exact found
        · intro found
          refine .inr ⟨?_, found⟩
          intro member
          obtain ⟨item, -, equal⟩ := List.mem_map.mp member
          exact same (congrArg (fun key => (ofLex key).1) equal).symm
    have later : ∀ item ∈ tail, ∀ sequence, toLex (item.1, sequence) ∉ middle := by
      intro item member sequence
      have other : item.1 ≠ name := by
        intro equal
        exact distinct.1 (List.mem_map.mpr ⟨item, member, equal⟩)
      rw [← Finmap.lookup_eq_none, placed, if_neg other, Finmap.lookup_eq_none]
      exact fresh item (List.mem_cons_of_mem _ member) sequence
    obtain ⟨owners, read, found⟩ := induction _ distinct.2
      (fun item member => sized item (List.mem_cons_of_mem _ member))
      (fun item member => identified item (List.mem_cons_of_mem _ member)) later
    refine ⟨owners, ?_, ?_⟩
    · rw [readOwners, inner_eq]
      have size : (inner.size == maximum) = true := by
        rw [Dict.size, keys, beq_iff_eq, Nat.card_Icc]
        omega
      have entries : (inner.items.all fun item =>
          decide (1 ≤ item.1) && isCanonicalUuid item.2) = true := by
        rw [List.all_eq_true]
        rintro ⟨sequence, identity⟩ member
        have stored := Dict.mem_items.mp member
        have inside : sequence ∈ Finset.Icc 1 maximum := by
          rw [← keys, Finmap.mem_keys]
          exact Finmap.mem_of_lookup_eq_some stored
        rw [Bool.and_eq_true, decide_eq_true_eq]
        refine ⟨(Finset.mem_Icc.mp inside).1, ?_⟩
        apply identified _ List.mem_cons_self sequence
        rw [inner_eq]
        exact stored
      have range : ((middle.keys.filter fun key => (ofLex key).1 = name).image
          fun key => (ofLex key).2) = Finset.Icc 1 maximum := by
        rw [← keys]
        ext sequence
        rw [Finset.mem_image, Finmap.mem_keys]
        constructor
        · rintro ⟨key, member, rfl⟩
          rw [Finset.mem_filter, Finmap.mem_keys] at member
          obtain ⟨identity, found⟩ := Finmap.mem_iff.mp member.1
          have shape : key = toLex (name, (ofLex key).2) := by
            rw [← member.2]
            rfl
          rw [shape, placed, if_pos rfl] at found
          exact Finmap.mem_of_lookup_eq_some found
        · intro member
          obtain ⟨identity, found⟩ := Finmap.mem_iff.mp member
          refine ⟨toLex (name, sequence), ?_, rfl⟩
          rw [Finset.mem_filter, Finmap.mem_keys]
          refine ⟨Finmap.mem_of_lookup_eq_some (b := identity) ?_, rfl⟩
          rw [placed, if_pos rfl, found]
      simp only [require_bind_eq_ok]
      exact ⟨size, entries, decide_eq_true range, read⟩
    · intro device sequence
      rw [found, placed, List.map_cons]
      by_cases same : device = name
      · subst same
        rw [if_neg distinct.1, if_pos rfl, if_pos List.mem_cons_self, inner_eq]
      · rw [if_neg same]
        simp only [List.mem_cons, same, false_or]

section Checks

variable {library : Library Digest} {operations : List Operation} {replay : CollectionReplay Digest}

theorem Replays.record (replays : Replays library replay operations) {object : String}
    {envelope : Envelope} (found : replay.records.lookup object = some envelope) :
    ∃ operation ∈ operations, operation.envelope = envelope ∧ envelope.objectId = object := by
  rw [replays.records, lastEnvelope, Option.map_eq_some_iff] at found
  obtain ⟨operation, last, rfl⟩ := found
  obtain ⟨member, same⟩ := mem_written.mp (List.mem_of_getLast? last)
  exact ⟨operation, member, rfl, same⟩

theorem Replays.receipt (replays : Replays library replay operations) {identity : String} :
    identity ∈ replay.fingerprints ↔ identity ∈ operations.map (·.operationId) := by
  rw [← not_iff_not, ← Finmap.lookup_eq_none, replays.fingerprints, Option.map_eq_none_iff,
    List.find?_eq_none, List.mem_map]
  simp

theorem Replays.owner (replays : Replays library replay operations)
    (linear : Linear operations) {key : String ×ₗ Nat} {identity : String} :
    replay.authorSequenceOwners.lookup key = some identity ↔
      ∃ operation ∈ operations, operation.sequenceKey = key ∧ operation.operationId = identity := by
  rw [replays.owners, Option.map_eq_some_iff]
  constructor
  · rintro ⟨operation, found, same⟩
    refine ⟨operation, List.mem_of_find?_eq_some found, ?_, same⟩
    simpa using List.find?_some found
  · rintro ⟨operation, member, rfl, same⟩
    refine ⟨operation, ?_, same⟩
    exact find?_key_of_mem linear.sequenceKeys_distinct member

theorem Replays.author (replays : Replays library replay operations) (linear : Linear operations)
    {device : String} {sequence : Nat} :
    replay.authorSequences.lookup device = some sequence ↔
      sequence = (authored device operations).length ∧ sequence ≠ 0 := by
  rw [replays.describes.sequences]
  have last := linear.last_sequence device
  cases found : (authored device operations).getLast? with
  | none =>
    rw [List.getLast?_eq_none_iff] at found
    rw [found]
    simp
  | some operation =>
    rw [found] at last
    have some_ : (authored device operations).length ≠ 0 := by
      intro empty
      rw [List.length_eq_zero_iff.mp empty] at found
      cases found
    rw [Option.map_some, Option.getD_some] at last
    rw [Option.map_some, last, Option.some.injEq]
    constructor
    · rintro rfl
      exact ⟨rfl, some_⟩
    · exact fun same => same.1.symm

theorem Replays.records_ordered (replays : Replays library replay operations) :
    (replay.records.items.map (·.2)).Pairwise
      fun first second => first.objectId < second.objectId := by
  rw [List.pairwise_map]
  apply List.Pairwise.imp_of_mem _ Dict.items_increasing
  rintro ⟨object, envelope⟩ ⟨other, later⟩ member listed below
  obtain ⟨-, -, -, same⟩ := replays.record (Dict.mem_items.mp member)
  obtain ⟨-, -, -, also⟩ := replays.record (Dict.mem_items.mp listed)
  dsimp only at below ⊢
  rwa [same, also]

theorem Replays.records_size (replays : Replays library replay operations) :
    replay.records.size ≤ operations.length := by
  apply (Dict.size_le_of_keys (operations.map (·.envelope.objectId)).toFinset _).trans
  · exact (List.toFinset_card_le _).trans (by rw [List.length_map])
  · intro object member
    obtain ⟨envelope, found⟩ := Finmap.mem_iff.mp member
    obtain ⟨operation, listed, rfl, rfl⟩ := replays.record found
    rw [List.mem_toFinset]
    exact List.mem_map_of_mem listed

theorem Replays.sum_sequences (replays : Replays library replay operations)
    (linear : Linear operations) :
    (replay.authorSequences.items.map (·.2)).sum = operations.length := by
  let devices := operations.map (·.authorDeviceId)
  have counts : ∀ device, (authored device operations).length = devices.count device := by
    intro device
    rw [authored, ← List.countP_eq_length_filter, List.count, List.countP_map]
    rfl
  have keys : replay.authorSequences.keys = devices.toFinset := by
    ext device
    rw [Finmap.mem_keys, Finmap.mem_iff, List.mem_toFinset, ← List.count_pos_iff, ← counts]
    simp only [replays.author linear]
    constructor
    · rintro ⟨sequence, rfl, some_⟩
      exact Nat.pos_of_ne_zero some_
    · exact fun some_ => ⟨_, rfl, some_.ne'⟩
  have listed : replay.authorSequences.items.map (·.2) =
      (replay.authorSequences.items.map (·.1)).map devices.count := by
    rw [List.map_map]
    apply List.map_congr_left
    rintro ⟨device, sequence⟩ member
    rw [Dict.mem_items, replays.author linear] at member
    rw [Function.comp_apply, ← counts]
    exact member.1
  calc (replay.authorSequences.items.map (·.2)).sum
      = (replay.authorSequences.keys.sort.map devices.count).sum := by
        rw [listed, Dict.items_map_fst]
    _ = ∑ device ∈ replay.authorSequences.keys, devices.count device := by
        rw [← List.sum_toFinset _ (Finset.sort_nodup _ _), Finset.sort_toFinset]
    _ = devices.length := by
        rw [keys, List.sum_toFinset_count_eq_length]
    _ = operations.length := List.length_map _

theorem mem_keys_inner {device : String} {sequence : Nat}
    (replays : Replays library replay operations) (linear : Linear operations) :
    sequence ∈ (((sequenceOwnersJson replay.authorSequenceOwners).lookup device).getD ∅).keys ↔
      1 ≤ sequence ∧ sequence ≤ (authored device operations).length := by
  rw [Finmap.mem_keys, Finmap.mem_iff]
  simp only [lookup_sequenceOwnersJson, replays.owner linear]
  constructor
  · rintro ⟨-, operation, member, same, -⟩
    have bounds := linear.sequence_le member
    have parts : operation.authorDeviceId = device ∧ operation.authorSequence = sequence := by
      simpa [Operation.sequenceKey] using same
    rw [parts.1, parts.2] at bounds
    exact bounds
  · rintro ⟨positive, bound⟩
    have listed : sequence ∈ (authored device operations).map Operation.authorSequence := by
      rw [linear.contiguous, List.mem_range'_1]
      omega
    obtain ⟨operation, member, same⟩ := List.mem_map.mp listed
    obtain ⟨member, author⟩ := mem_authored.mp member
    exact ⟨operation.operationId, operation, member, by rw [Operation.sequenceKey, author, same],
      rfl⟩

theorem Replays.owners_read (replays : Replays library replay operations)
    (accepted : Accepted library operations) :
    readOwners (sequenceOwnersJson replay.authorSequenceOwners) replay.authorSequences.items ∅ =
      .ok replay.authorSequenceOwners := by
  have linear := accepted.linear
  obtain ⟨owners, read, found⟩ := readOwners_eq_ok
    (sequenceOwnersJson replay.authorSequenceOwners) replay.authorSequences.items ∅
    Dict.items_distinct
    (by
      rintro ⟨device, sequence⟩ member
      rw [Dict.mem_items, replays.author linear] at member
      ext position
      rw [mem_keys_inner replays linear, Finset.mem_Icc, member.1])
    (by
      intro item member sequence identity stored
      rw [lookup_sequenceOwnersJson, replays.owner linear] at stored
      obtain ⟨operation, listed, -, rfl⟩ := stored
      exact (Operation.fields_of_isValid (accepted.valid operation listed)).1)
    (fun _ _ _ => Finmap.notMem_empty)
  rw [read]
  apply congrArg
  apply Finmap.ext_lookup
  intro key
  have whole : key = toLex ((ofLex key).1, (ofLex key).2) := rfl
  rw [whole, found, lookup_sequenceOwnersJson]
  split
  case isTrue => rfl
  case isFalse outside =>
    rw [Finmap.lookup_empty, eq_comm, Finmap.lookup_eq_none]
    intro member
    obtain ⟨identity, stored⟩ := Finmap.mem_iff.mp member
    rw [replays.owner linear] at stored
    obtain ⟨operation, listed, same, -⟩ := stored
    have author : operation.authorDeviceId = (ofLex key).1 :=
      congrArg (fun key => (ofLex key).1) same
    apply outside
    have some_ : (authored (ofLex key).1 operations).length ≠ 0 :=
      (List.length_pos_of_mem (mem_authored.mpr ⟨listed, author⟩)).ne'
    exact List.mem_map.mpr ⟨((ofLex key).1, _),
      Dict.mem_items.mpr ((replays.author linear).mpr ⟨rfl, some_⟩), rfl⟩

theorem Replays.owner_keys (replays : Replays library replay operations)
    (linear : Linear operations) :
    (sequenceOwnersJson replay.authorSequenceOwners).keys = replay.authorSequences.keys := by
  ext device
  rw [Finmap.mem_keys, Finmap.mem_keys, mem_sequenceOwnersJson, Finmap.mem_iff]
  simp only [replays.author linear, Finmap.mem_iff, replays.owner linear]
  constructor
  · rintro ⟨sequence, -, operation, member, same, -⟩
    have author : operation.authorDeviceId = device := congrArg (fun key => (ofLex key).1) same
    exact ⟨_, rfl, (List.length_pos_of_mem (mem_authored.mpr ⟨member, author⟩)).ne'⟩
  · rintro ⟨sequence, rfl, some_⟩
    obtain ⟨operation, listed⟩ := List.exists_mem_of_length_pos (Nat.pos_of_ne_zero some_)
    obtain ⟨member, author⟩ := mem_authored.mp listed
    exact ⟨operation.authorSequence, operation.operationId, operation, member,
      by rw [Operation.sequenceKey, author], rfl⟩

theorem Replays.owner_values (replays : Replays library replay operations)
    (linear : Linear operations) :
    replay.authorSequenceOwners.values = replay.fingerprints.keys := by
  ext identity
  rw [Dict.mem_values, Finmap.mem_keys, replays.receipt]
  simp only [replays.owner linear, List.mem_map]
  constructor
  · rintro ⟨-, operation, member, -, same⟩
    exact ⟨operation, member, same⟩
  · rintro ⟨operation, member, same⟩
    exact ⟨operation.sequenceKey, operation, member, rfl, same⟩

def snapshotOf (library : SnapshotLibrary Digest Tag) (collectionId : String)
    (replay : CollectionReplay Digest) (lastOrder : OrderKey) : Snapshot Digest Tag :=
  let records := replay.records.items.map (·.2)
  let payload : Payload Digest := {
    collectionId := collectionId
    collectionRevision := replay.fingerprints.size
    lastOrder := lastOrder
    records := records
    appliedFingerprints := replay.fingerprints
    authorSequences := replay.authorSequences
    authorSequenceOwners := sequenceOwnersJson replay.authorSequenceOwners
    recordCount := records.length
    liveRecordCount := liveCount records
    tombstoneCount := tombstoneCount records }
  { collectionId := collectionId
    collectionRevision := replay.fingerprints.size
    lastOrder := lastOrder
    records := records
    appliedFingerprints := replay.fingerprints
    authorSequences := replay.authorSequences
    authorSequenceOwners := replay.authorSequenceOwners
    authenticationTag := library.authenticate payload
    canonicalPayloadSha256 := library.payloadSha256 payload }

variable {snapshots : SnapshotLibrary Digest Tag} {collectionId : String} {lastOrder : OrderKey}

theorem Replays.fromSnapshot (replays : Replays snapshots.toLibrary replay operations)
    (last : replay.lastOrder = some lastOrder) :
    CollectionReplay.fromSnapshot (some (snapshotOf snapshots collectionId replay lastOrder)) =
      replay := by
  have distinct : ((replay.records.items.map (·.2)).map Envelope.objectId).Nodup := by
    rw [List.Nodup, List.pairwise_map]
    exact replays.records_ordered.imp fun below => below.ne
  have listed : ∀ object envelope, (∃ row ∈ replay.records.items.map (·.2),
      row.objectId = object ∧ row = envelope) ↔ replay.records.lookup object = some envelope := by
    intro object envelope
    constructor
    · rintro ⟨row, member, rfl, rfl⟩
      obtain ⟨item, placed, rfl⟩ := List.mem_map.mp member
      have stored := Dict.mem_items.mp placed
      obtain ⟨-, -, -, same⟩ := replays.record stored
      rw [same, stored]
    · intro stored
      obtain ⟨-, -, -, same⟩ := replays.record stored
      exact ⟨envelope, List.mem_map.mpr ⟨_, Dict.mem_items.mpr stored, rfl⟩, same, rfl⟩
  have records : recordsByObject (replay.records.items.map (·.2)) = replay.records := by
    apply Finmap.ext_lookup
    intro object
    apply Option.ext
    intro envelope
    rw [recordsByObject, Dict.lookup_foldl_insert (fun record => record) distinct,
      Finmap.lookup_empty]
    simpa using listed object envelope
  have revisions : revisionsByObject (replay.records.items.map (·.2)) =
      replay.objectRevisions := by
    apply Finmap.ext_lookup
    intro object
    apply Option.ext
    intro revision
    rw [revisionsByObject, Dict.lookup_foldl_insert _ distinct, Finmap.lookup_empty,
      replays.describes.revisions]
    have link : lastRevision object operations =
        (replay.records.lookup object).map (·.revision) := by
      rw [replays.records, lastEnvelope, lastRevision, Option.map_map]
      rfl
    rw [link, Option.map_eq_some_iff]
    simp only [← listed object]
    constructor
    · rintro (⟨row, member, same, content⟩ | ⟨-, impossible⟩)
      · exact ⟨row, ⟨row, member, same, rfl⟩, content⟩
      · cases impossible
    · rintro ⟨_, ⟨row, member, same, rfl⟩, content⟩
      exact .inl ⟨row, member, same, content⟩
  cases replay
  simp only [CollectionReplay.fromSnapshot, snapshotOf] at records revisions last ⊢
  rw [records, revisions, ← last]

variable [DecidableEq Digest] [DecidableEq Tag]

theorem fromFile_toFile_snapshotOf :
    Snapshot.fromFile snapshots (snapshotOf snapshots collectionId replay lastOrder).toFile =
      Snapshot.create snapshots collectionId replay lastOrder := rfl

theorem Replays.create (replays : Replays snapshots.toLibrary replay operations)
    (accepted : Accepted snapshots.toLibrary operations)
    (identified : isIdentifier collectionId = true) (last : replay.lastOrder = some lastOrder) :
    Snapshot.create snapshots collectionId replay lastOrder =
      .ok (snapshotOf snapshots collectionId replay lastOrder) := by
  have linear := accepted.linear
  have room := accepted.room
  rw [replays.describes.lastOrder, Option.map_eq_some_iff] at last
  obtain ⟨operation, lastly, rfl⟩ := last
  have member := List.mem_of_getLast? lastly
  have positive : 0 < operations.length := List.length_pos_of_mem member
  have authors := replays.describes.sizes.1
  have records := replays.records_size
  have ordered := replays.records_ordered
  have revision : isInteger replay.fingerprints.size = true := by
    rw [isInteger, replays.counted, Bool.and_eq_true, decide_eq_true_eq, decide_eq_true_eq]
    have small : maximumQueueOperations ≤ maximumInteger := by decide
    omega
  have recordFields : (replay.records.items.map (·.2)).all (·.isValid snapshots.toLibrary) = true := by
    rw [List.all_eq_true]
    intro envelope listed
    obtain ⟨item, stored, rfl⟩ := List.mem_map.mp listed
    obtain ⟨source, held, same, -⟩ := replays.record (Dict.mem_items.mp stored)
    rw [← same]
    exact Operation.envelope_of_isValid (accepted.valid source held)
  have receipts : replay.fingerprints.items.all (isCanonicalUuid ·.1) = true := by
    rw [List.all_eq_true]
    intro item listed
    have received := Finmap.mem_of_lookup_eq_some (Dict.mem_items.mp listed)
    obtain ⟨source, held, same⟩ := List.mem_map.mp (replays.receipt.mp received)
    rw [← same]
    exact (Operation.fields_of_isValid (accepted.valid source held)).1
  have sequences : (replay.authorSequences.items.all fun item =>
      isIdentifier item.1 && isInteger item.2) = true := by
    rw [List.all_eq_true]
    rintro ⟨device, sequence⟩ listed
    obtain ⟨source, held, rfl, rfl⟩ := replays.describes.exists_author (Dict.mem_items.mp listed)
    have fields := Operation.fields_of_isValid (accepted.valid source held)
    rw [Bool.and_eq_true]
    exact ⟨fields.2.1, fields.2.2.1⟩
  have someAuthor : (replay.authorSequences.size != 0) = true := by
    have listed := mem_authored.mpr ⟨member, rfl⟩
    have found := (replays.author linear).mpr ⟨rfl, (List.length_pos_of_mem listed).ne'⟩
    rw [bne_iff_ne, Dict.size, Finset.card_ne_zero]
    exact ⟨_, Finmap.mem_keys.mpr (Finmap.mem_of_lookup_eq_some found)⟩
  have known : operation.operationId ∈ replay.fingerprints :=
    replays.receipt.mpr (List.mem_map_of_mem member)
  have live : liveCount (replay.records.items.map (·.2)) +
      tombstoneCount (replay.records.items.map (·.2)) =
        (replay.records.items.map (·.2)).length := by
    rw [List.length_eq_countP_add_countP Envelope.tombstone, Nat.add_comm, liveCount]
    congr 1
    apply List.countP_congr
    simp
  simp only [Snapshot.create, Snapshot.fromFile, require_bind_eq_ok, replays.owners_read accepted,
    ok_bind, pure_eq_ok, Bool.and_eq_true, decide_eq_true_eq, beq_iff_eq]
  refine ⟨trivial, revision, Operation.orderKey_of_isValid (accepted.valid operation member), ?_,
    recordFields, ⟨(orderBy_eq_self (ordered.imp le_of_lt)).symm, ?_⟩, ⟨trivial, ?_⟩, receipts,
    ⟨someAuthor, ?_⟩, sequences, ⟨?_, known⟩, replays.owner_keys linear,
    ⟨?_, replays.owner_values linear⟩,
    ⟨⟨⟨trivial, trivial⟩, trivial⟩, live⟩, identified, rfl⟩
  · rw [List.length_map, Dict.length_items]
    omega
  · rw [List.Nodup, List.pairwise_map]
    exact ordered.imp fun below => below.ne
  · rw [replays.counted]
    exact room
  · omega
  · rw [replays.sum_sequences linear, replays.counted]
  · rw [replays.owner_values linear]
    rfl

end Checks

end JobAgg.SyncQueue
