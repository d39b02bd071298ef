import JobAgg.SyncQueue.Collection

/-! # What a collection replays

A replay holds nothing but summaries of the operations accepted so far: two replays of
one history are the same, and whether it takes one more operation is a question about
the history. -/

namespace JobAgg.SyncQueue

variable {Digest Tag : Type} {library : Library Digest} {operations tail : List Operation}
  {operation : Operation} {replay next : CollectionReplay Digest}

structure Accepted (library : Library Digest) (operations : List Operation) : Prop where
  linear : Linear operations
  distinct : (operations.map (·.operationId)).Nodup
  valid : ∀ operation ∈ operations, operation.isValid library = true
  room : operations.length ≤ maximumQueueOperations

theorem Accepted.nil : Accepted library [] :=
  ⟨.nil, List.nodup_nil, fun _ member => absurd member List.not_mem_nil, Nat.zero_le _⟩

theorem Accepted.of_append (accepted : Accepted library (operations ++ tail)) :
    Accepted library operations where
  linear := accepted.linear.of_append
  distinct := by
    have distinct := accepted.distinct
    rw [List.map_append] at distinct
    exact (List.nodup_append.mp distinct).1
  valid := fun operation member => accepted.valid operation (List.mem_append_left _ member)
  room := by
    have room := accepted.room
    rw [List.length_append] at room
    omega

def lastEnvelope (object : String) (operations : List Operation) : Option Envelope :=
  (written object operations).getLast?.map (·.envelope)

theorem written_concat {object : String} : written object (operations ++ [operation]) =
    if operation.envelope.objectId = object then written object operations ++ [operation]
    else written object operations := by
  rw [written, List.filter_append]
  by_cases same : operation.envelope.objectId = object
  · rw [if_pos same, List.filter_cons_of_pos (by simpa using same), List.filter_nil]
    rfl
  · rw [if_neg same, List.filter_cons_of_neg (by simpa using same), List.filter_nil,
      List.append_nil]
    rfl

theorem lastEnvelope_concat {object : String} :
    lastEnvelope object (operations ++ [operation]) =
      if operation.envelope.objectId = object then some operation.envelope
      else lastEnvelope object operations := by
  rw [lastEnvelope, written_concat]
  split
  case isTrue => rw [List.getLast?_concat, Option.map_some]
  case isFalse => rfl

structure Replays (library : Library Digest) (replay : CollectionReplay Digest)
    (operations : List Operation) : Prop where
  describes : Describes replay.toMetadata operations
  records : ∀ object, replay.records.lookup object = lastEnvelope object operations
  fingerprints : ∀ identity, replay.fingerprints.lookup identity =
    (operations.find? (·.operationId == identity)).map library.fingerprint
  owners : ∀ key, replay.authorSequenceOwners.lookup key =
    (operations.find? (·.sequenceKey == key)).map (·.operationId)
  counted : replay.fingerprints.size = operations.length

theorem Replays.empty : Replays library .empty [] where
  describes := .empty
  records := fun _ => rfl
  fingerprints := fun _ => rfl
  owners := fun _ => rfl
  counted := Dict.size_empty

theorem Replays.unique (replays : Replays library replay operations)
    (also : Replays library next operations) : replay = next := by
  have metadata := replays.describes.unique also.describes
  have records : replay.records = next.records :=
    Finmap.ext_lookup fun object => by rw [replays.records, also.records]
  have fingerprints : replay.fingerprints = next.fingerprints :=
    Finmap.ext_lookup fun identity => by rw [replays.fingerprints, also.fingerprints]
  have owners : replay.authorSequenceOwners = next.authorSequenceOwners :=
    Finmap.ext_lookup fun key => by rw [replays.owners, also.owners]
  cases replay
  cases next
  simp only [CollectionReplay.mk.injEq]
  exact ⟨metadata, records, fingerprints, owners⟩

theorem Linear.sequence_le (linear : Linear operations) (member : operation ∈ operations) :
    1 ≤ operation.authorSequence ∧
      operation.authorSequence ≤ (authored operation.authorDeviceId operations).length := by
  have listed : operation.authorSequence ∈
      (authored operation.authorDeviceId operations).map Operation.authorSequence :=
    List.mem_map_of_mem (mem_authored.mpr ⟨member, rfl⟩)
  rw [linear.contiguous, List.mem_range'_1] at listed
  omega

theorem Linear.sequenceKeys_distinct (linear : Linear operations) :
    (operations.map (·.sequenceKey)).Nodup := by
  induction operations using List.reverseRecOn with
  | nil => exact List.nodup_nil
  | append_singleton front last induction =>
    obtain ⟨before, extending⟩ := linear_concat.mp linear
    rw [List.map_append, List.map_singleton, List.nodup_append]
    refine ⟨induction before, List.nodup_singleton _, ?_⟩
    rintro key earlier other listed rfl
    rw [List.mem_singleton] at listed
    obtain ⟨operation, member, same⟩ := List.mem_map.mp earlier
    rw [listed] at same
    simp only [Operation.sequenceKey, EmbeddingLike.apply_eq_iff_eq, Prod.mk.injEq] at same
    have bound := (before.sequence_le member).2
    rw [same.1, same.2, extending.next] at bound
    omega

theorem find?_concat {Row : Type} {rows : List Row} {row : Row} {selects : Row → Bool}
    (fresh : selects row = true → rows.find? selects = none) :
    (rows ++ [row]).find? selects = if selects row then some row else rows.find? selects := by
  rw [List.find?_append]
  cases selected : selects row with
  | false =>
    rw [List.find?_cons_of_neg (by simp [selected]), List.find?_nil, Option.or_none]
    rfl
  | true =>
    rw [fresh selected, List.find?_cons_of_pos selected, Option.none_or]
    rfl

variable [DecidableEq Digest]

theorem Replays.apply (replays : Replays library replay operations)
    (accepted : Accepted library operations) (valid : operation.isValid library = true)
    (applied : replay.apply library operation = .ok (some next)) :
    Accepted library (operations ++ [operation]) ∧
      Replays library next (operations ++ [operation]) := by
  rw [CollectionReplay.apply] at applied
  cases found : replay.fingerprints.lookup operation.operationId with
  | some known =>
    rw [found] at applied
    dsimp only at applied
    rw [require_bind_eq_ok, pure_eq_ok] at applied
    exact absurd applied.2 (Option.some_ne_none _).symm
  | none =>
    rw [found] at applied
    dsimp only at applied
    rw [require_bind_eq_ok, require_bind_eq_ok, bind_eq_ok, decide_eq_true_eq,
      replays.counted] at applied
    obtain ⟨room, -, metadata, advanced, same⟩ := applied
    rw [pure_eq_ok, Option.some.injEq] at same
    subst same
    obtain ⟨linear, described⟩ := replays.describes.advance accepted.linear advanced
    have absent : operations.find? (·.operationId == operation.operationId) = none := by
      rw [replays.fingerprints, Option.map_eq_none_iff] at found
      exact found
    have fresh : operation.operationId ∉ operations.map (·.operationId) := by
      intro member
      obtain ⟨other, listed, same⟩ := List.mem_map.mp member
      exact List.find?_eq_none.mp absent other listed (beq_iff_eq.mpr same)
    have ownerless : operations.find? (·.sequenceKey == operation.sequenceKey) = none := by
      have distinct := linear.sequenceKeys_distinct
      rw [List.map_append, List.nodup_append] at distinct
      rw [List.find?_eq_none]
      intro other member same
      exact distinct.2.2 _ (List.mem_map_of_mem member) _ List.mem_cons_self (beq_iff_eq.mp same)
    refine ⟨⟨linear, ?_, ?_, ?_⟩, described, ?_, ?_, ?_, ?_⟩
    · rw [List.map_append, List.nodup_append]
      refine ⟨accepted.distinct, List.nodup_singleton _, ?_⟩
      rintro identity earlier other listed rfl
      rw [List.map_singleton, List.mem_singleton] at listed
      exact fresh (listed ▸ earlier)
    · intro other member
      rcases List.mem_append.mp member with member | member
      · exact accepted.valid other member
      · exact List.mem_singleton.mp member ▸ valid
    · rw [List.length_append, List.length_singleton]
      exact room
    · intro object
      rw [lastEnvelope_concat, Dict.lookup_insert_eq]
      by_cases same : object = operation.envelope.objectId
      · rw [if_pos same, if_pos same.symm]
      · rw [if_neg same, if_neg (Ne.symm same), replays.records]
    · intro identity
      rw [Dict.lookup_insert_eq, find?_concat]
      · by_cases same : identity = operation.operationId
        · rw [if_pos same, if_pos (by simp [same]), Option.map_some]
        · rw [if_neg same, if_neg (by simpa using Ne.symm same), replays.fingerprints]
      · intro same
        rw [← beq_iff_eq.mp same]
        exact absent
    · intro key
      rw [Dict.lookup_insert_eq, find?_concat]
      · by_cases same : key = operation.sequenceKey
        · rw [if_pos same, if_pos (by simp [same]), Option.map_some]
        · rw [if_neg same, if_neg (by simpa using Ne.symm same), replays.owners]
      · intro same
        rw [← beq_iff_eq.mp same]
        exact ownerless
    · rw [Dict.size_insert_of_notMem, replays.counted, List.length_append,
        List.length_singleton]
      exact Finmap.lookup_eq_none.mp found

theorem Replays.applies (replays : Replays library replay operations)
    (accepted : Accepted library (operations ++ [operation])) :
    ∃ next, replay.apply library operation = .ok (some next) := by
  have distinct := accepted.distinct
  rw [List.map_append, List.nodup_append] at distinct
  have absent : operations.find? (·.operationId == operation.operationId) = none := by
    rw [List.find?_eq_none]
    intro other member same
    exact distinct.2.2 _ (List.mem_map_of_mem member) _ List.mem_cons_self (beq_iff_eq.mp same)
  have ownerless : operations.find? (·.sequenceKey == operation.sequenceKey) = none := by
    have keys := accepted.linear.sequenceKeys_distinct
    rw [List.map_append, List.nodup_append] at keys
    rw [List.find?_eq_none]
    intro other member same
    exact keys.2.2 _ (List.mem_map_of_mem member) _ List.mem_cons_self (beq_iff_eq.mp same)
  have room := accepted.room
  rw [List.length_append, List.length_singleton] at room
  obtain ⟨metadata, advanced⟩ := replays.describes.advances accepted.linear
  rw [CollectionReplay.apply, replays.fingerprints, absent, Option.map_none]
  dsimp only
  rw [replays.counted, replays.owners, ownerless, Option.map_none, Option.all_none, advanced]
  have small : decide (operations.length < maximumQueueOperations) = true := by
    rw [decide_eq_true_eq]
    omega
  rw [small]
  exact ⟨_, rfl⟩

theorem Replays.applyTail (replays : Replays library replay operations)
    (accepted : Accepted library (operations ++ tail)) :
    ∃ final, CollectionReplay.applyTail library tail replay = .ok final ∧
      Replays library final (operations ++ tail) := by
  induction tail generalizing operations replay with
  | nil => exact ⟨replay, rfl, by rwa [List.append_nil]⟩
  | cons head rest induction =>
    rw [← List.singleton_append, ← List.append_assoc] at accepted
    have first := accepted.of_append
    obtain ⟨next, applied⟩ := replays.applies first
    have valid : head.isValid library = true :=
      first.valid head (List.mem_append_right _ List.mem_cons_self)
    obtain ⟨-, replayed⟩ := replays.apply first.of_append valid applied
    obtain ⟨final, ran, finished⟩ := induction replayed accepted
    rw [List.append_assoc, List.singleton_append] at finished
    refine ⟨final, ?_, finished⟩
    rw [CollectionReplay.applyTail, applied, ok_bind]
    exact ran

end JobAgg.SyncQueue
