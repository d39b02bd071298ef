import JobAgg.SyncQueue.Operation

/-! # The metadata an operation is checked against

`advanceMetadata` looks at three summaries of the operations before it. `Linear` says of
a whole history what the checks are for, `Describes` that the summaries are those of a
history, and the two theorems at the end that the checks pass exactly when the history
stays linear. -/

namespace JobAgg.SyncQueue

structure Metadata where
  authorSequences : Dict String Nat
  objectRevisions : Dict String String
  lastOrder : Option OrderKey
deriving DecidableEq

def Metadata.empty : Metadata := ⟨∅, ∅, none⟩

def advanceMetadata (operation : Operation) (metadata : Metadata) :
    Except String Metadata := do
  require (metadata.lastOrder.all fun last => decide (last < operation.orderKey)) invalid
  let expectedSequence := (metadata.authorSequences.lookup operation.authorDeviceId).getD 0 + 1
  require (operation.authorSequence == expectedSequence) invalid
  let expectedParent := metadata.objectRevisions.lookup operation.envelope.objectId
  require (operation.envelope.parentRevision == expectedParent) invalid
  return {
    authorSequences :=
      metadata.authorSequences.insert operation.authorDeviceId operation.authorSequence
    objectRevisions :=
      metadata.objectRevisions.insert operation.envelope.objectId operation.envelope.revision
    lastOrder := some operation.orderKey }

variable {operations before after : List Operation} {operation : Operation} {device object : String}

def authored (device : String) (operations : List Operation) : List Operation :=
  operations.filter (·.authorDeviceId == device)

def written (object : String) (operations : List Operation) : List Operation :=
  operations.filter (·.envelope.objectId == object)

def lastRevision (object : String) (operations : List Operation) : Option String :=
  (written object operations).getLast?.map (·.envelope.revision)

/-- Every operation comes after all before it, is its author's next and continues its
object from the last revision. -/
structure Linear (operations : List Operation) : Prop where
  increasing : operations.Pairwise fun first second => first.orderKey < second.orderKey
  contiguous : ∀ device, (authored device operations).map Operation.authorSequence =
    List.range' 1 (authored device operations).length
  continues : ∀ before operation after, operations = before ++ operation :: after →
    operation.envelope.parentRevision = lastRevision operation.envelope.objectId before

theorem Linear.nil : Linear [] where
  increasing := .nil
  contiguous := fun _ => rfl
  continues := fun before operation after same => by simp at same

theorem Linear.of_append (linear : Linear (before ++ after)) : Linear before where
  increasing := (List.pairwise_append.mp linear.increasing).1
  contiguous := by
    intro device
    have whole := linear.contiguous device
    rw [authored, List.filter_append, List.map_append, List.length_append,
      List.range'_append_1.symm] at whole
    exact List.append_inj_left whole (by simp [authored])
  continues := by
    intro front operation rest same
    apply linear.continues front operation (rest ++ after)
    rw [same, List.append_assoc, List.cons_append]

theorem authored_concat : authored device (operations ++ [operation]) =
    if operation.authorDeviceId = device then authored device operations ++ [operation]
    else authored device operations := by
  rw [authored, List.filter_append]
  by_cases same : operation.authorDeviceId = device
  · rw [if_pos same, List.filter_cons_of_pos (by simpa using same), List.filter_nil]
    rfl
  · rw [if_neg same, List.filter_cons_of_neg (by simpa using same), List.filter_nil,
      List.append_nil]
    rfl

theorem lastRevision_concat : lastRevision object (operations ++ [operation]) =
    if operation.envelope.objectId = object then some operation.envelope.revision
    else lastRevision object operations := by
  rw [lastRevision, written, List.filter_append]
  by_cases same : operation.envelope.objectId = object
  · rw [if_pos same, List.filter_cons_of_pos (by simpa using same), List.filter_nil,
      List.getLast?_concat, Option.map_some]
  · rw [if_neg same, List.filter_cons_of_neg (by simpa using same), List.filter_nil,
      List.append_nil]
    rfl

structure Extends (operations : List Operation) (operation : Operation) : Prop where
  above : ∀ earlier ∈ operations, earlier.orderKey < operation.orderKey
  next : operation.authorSequence = (authored operation.authorDeviceId operations).length + 1
  parent : operation.envelope.parentRevision =
    lastRevision operation.envelope.objectId operations

theorem linear_concat :
    Linear (operations ++ [operation]) ↔ Linear operations ∧ Extends operations operation := by
  constructor
  · intro linear
    refine ⟨linear.of_append, ?_, ?_, ?_⟩
    · intro earlier member
      exact (List.pairwise_append.mp linear.increasing).2.2 earlier member operation
        List.mem_cons_self
    · have whole := linear.contiguous operation.authorDeviceId
      have front := linear.of_append.contiguous operation.authorDeviceId
      rw [authored_concat, if_pos rfl, List.map_append, front, List.length_append,
        List.length_singleton, ← List.range'_append_1] at whole
      have last := List.append_cancel_left whole
      simpa [Nat.add_comm] using last
    · exact linear.continues operations operation [] rfl
  · rintro ⟨linear, extending⟩
    refine ⟨?_, ?_, ?_⟩
    · rw [List.pairwise_append]
      refine ⟨linear.increasing, List.pairwise_singleton _ _, ?_⟩
      intro earlier member later listed
      rw [List.mem_singleton.mp listed]
      exact extending.above earlier member
    · intro device
      rw [authored_concat]
      split
      case isTrue same =>
        subst same
        rw [List.map_append, linear.contiguous, List.length_append, List.length_singleton,
          ← List.range'_append_1, List.map_singleton, extending.next]
        simp [Nat.add_comm]
      case isFalse => exact linear.contiguous device
    · intro front middle rest same
      rcases List.append_eq_append_iff.mp same with ⟨gap, front_eq, rest_eq⟩ | ⟨gap, front_eq, rest_eq⟩
      · cases gap with
        | nil =>
          rw [List.nil_append, List.cons.injEq] at rest_eq
          rw [List.append_nil] at front_eq
          rw [← rest_eq.1, front_eq]
          exact extending.parent
        | cons head tail =>
          have shape := congrArg List.length rest_eq
          simp at shape
      · cases gap with
        | nil =>
          rw [List.nil_append, List.cons.injEq] at rest_eq
          rw [List.append_nil] at front_eq
          rw [rest_eq.1, ← front_eq]
          exact extending.parent
        | cons head tail =>
          rw [List.cons_append, List.cons.injEq] at rest_eq
          apply linear.continues front middle tail
          rw [front_eq, rest_eq.1]

/-- The three summaries are those of a history. -/
structure Describes (metadata : Metadata) (operations : List Operation) : Prop where
  lastOrder : metadata.lastOrder = operations.getLast?.map Operation.orderKey
  sequences : ∀ device, metadata.authorSequences.lookup device =
    (authored device operations).getLast?.map Operation.authorSequence
  revisions : ∀ object, metadata.objectRevisions.lookup object = lastRevision object operations

theorem Describes.empty : Describes .empty [] where
  lastOrder := rfl
  sequences := fun _ => rfl
  revisions := fun _ => rfl

variable {metadata next : Metadata}

theorem Linear.last_sequence (linear : Linear operations) (device : String) :
    ((authored device operations).getLast?.map Operation.authorSequence).getD 0 =
      (authored device operations).length := by
  rw [← List.getLast?_map, linear.contiguous]
  cases (authored device operations).length with
  | zero => rfl
  | succ count =>
    rw [List.range'_concat, List.getLast?_concat, Option.getD_some]
    omega

theorem Linear.all_last_iff (linear : Linear operations) {order : OrderKey} :
    ((operations.getLast?.map Operation.orderKey).all fun last => decide (last < order)) = true ↔
      ∀ earlier ∈ operations, earlier.orderKey < order := by
  have increasing := linear.increasing
  cases operations using List.reverseRecOn with
  | nil => simp
  | append_singleton front last _ =>
    have below := (List.pairwise_append.mp increasing).2.2
    rw [List.getLast?_append_of_ne_nil _ (List.cons_ne_nil _ _)]
    simp only [List.getLast?_singleton, Option.map_some, Option.all_some, decide_eq_true_eq,
      List.mem_append, List.mem_singleton]
    constructor
    · intro above earlier member
      rcases member with member | rfl
      · exact (below earlier member last (List.mem_singleton_self last)).trans above
      · exact above
    · exact fun above => above last (.inr rfl)

theorem Describes.advance_iff (describes : Describes metadata operations)
    (linear : Linear operations) :
    advanceMetadata operation metadata = .ok next ↔
      Extends operations operation ∧ next = {
        authorSequences :=
          metadata.authorSequences.insert operation.authorDeviceId operation.authorSequence
        objectRevisions :=
          metadata.objectRevisions.insert operation.envelope.objectId operation.envelope.revision
        lastOrder := some operation.orderKey } := by
  simp only [advanceMetadata, require_bind_eq_ok, pure_eq_ok, describes.lastOrder,
    describes.sequences, describes.revisions, linear.all_last_iff, linear.last_sequence, beq_iff_eq]
  constructor
  · rintro ⟨above, sequence, parent, same⟩
    exact ⟨⟨above, sequence, parent⟩, same.symm⟩
  · rintro ⟨⟨above, sequence, parent⟩, same⟩
    exact ⟨above, sequence, parent, same.symm⟩

theorem Describes.advance (describes : Describes metadata operations)
    (linear : Linear operations) (advanced : advanceMetadata operation metadata = .ok next) :
    Linear (operations ++ [operation]) ∧ Describes next (operations ++ [operation]) := by
  rw [describes.advance_iff linear] at advanced
  obtain ⟨extending, rfl⟩ := advanced
  refine ⟨linear_concat.mpr ⟨linear, extending⟩, ?_, ?_, ?_⟩
  · simp
  · intro device
    rw [authored_concat, Dict.lookup_insert_eq]
    by_cases same : device = operation.authorDeviceId
    · rw [if_pos same, if_pos same.symm]
      simp
    · rw [if_neg same, if_neg (Ne.symm same), describes.sequences]
  · intro object
    rw [lastRevision_concat, Dict.lookup_insert_eq]
    by_cases same : object = operation.envelope.objectId
    · rw [if_pos same, if_pos same.symm]
    · rw [if_neg same, if_neg (Ne.symm same), describes.revisions]

theorem Describes.advances (describes : Describes metadata operations)
    (linear : Linear (operations ++ [operation])) :
    ∃ next, advanceMetadata operation metadata = .ok next := by
  obtain ⟨linear, extending⟩ := linear_concat.mp linear
  exact ⟨_, (describes.advance_iff linear).mpr ⟨extending, rfl⟩⟩

theorem Describes.unique {other : Metadata} (describes : Describes metadata operations)
    (also : Describes other operations) : metadata = other := by
  have sequences : metadata.authorSequences = other.authorSequences := by
    apply Finmap.ext_lookup
    intro device
    rw [describes.sequences, also.sequences]
  have revisions : metadata.objectRevisions = other.objectRevisions := by
    apply Finmap.ext_lookup
    intro object
    rw [describes.revisions, also.revisions]
  cases metadata
  cases other
  simp only [Metadata.mk.injEq]
  exact ⟨sequences, revisions, describes.lastOrder.trans also.lastOrder.symm⟩

theorem mem_authored {device : String} {operations : List Operation} {operation : Operation} :
    operation ∈ authored device operations ↔
      operation ∈ operations ∧ operation.authorDeviceId = device := by
  rw [authored, List.mem_filter, beq_iff_eq]

theorem mem_written {object : String} {operations : List Operation} {operation : Operation} :
    operation ∈ written object operations ↔
      operation ∈ operations ∧ operation.envelope.objectId = object := by
  rw [written, List.mem_filter, beq_iff_eq]

theorem Describes.exists_author {metadata : Metadata} {operations : List Operation}
    (describes : Describes metadata operations) {device : String} {sequence : Nat}
    (found : metadata.authorSequences.lookup device = some sequence) :
    ∃ operation ∈ operations, operation.authorDeviceId = device ∧
      operation.authorSequence = sequence := by
  rw [describes.sequences, Option.map_eq_some_iff] at found
  obtain ⟨operation, last, same⟩ := found
  obtain ⟨member, author⟩ := mem_authored.mp (List.mem_of_getLast? last)
  exact ⟨operation, member, author, same⟩

theorem Describes.exists_object {metadata : Metadata} {operations : List Operation}
    (describes : Describes metadata operations) {object revision : String}
    (found : metadata.objectRevisions.lookup object = some revision) :
    ∃ operation ∈ operations, operation.envelope.objectId = object ∧
      operation.envelope.revision = revision := by
  rw [describes.revisions, lastRevision, Option.map_eq_some_iff] at found
  obtain ⟨operation, last, same⟩ := found
  obtain ⟨member, holds⟩ := mem_written.mp (List.mem_of_getLast? last)
  exact ⟨operation, member, holds, same⟩

theorem Describes.sizes {metadata : Metadata} {operations : List Operation}
    (describes : Describes metadata operations) :
    metadata.authorSequences.size ≤ operations.length ∧
      metadata.objectRevisions.size ≤ operations.length := by
  constructor
  · apply (Dict.size_le_of_keys (operations.map (·.authorDeviceId)).toFinset _).trans
    · exact (List.toFinset_card_le _).trans (by rw [List.length_map])
    · intro device member
      obtain ⟨sequence, found⟩ := Finmap.mem_iff.mp member
      obtain ⟨operation, listed, same, -⟩ := describes.exists_author found
      rw [List.mem_toFinset, List.mem_map]
      exact ⟨operation, listed, same⟩
  · apply (Dict.size_le_of_keys (operations.map (·.envelope.objectId)).toFinset _).trans
    · exact (List.toFinset_card_le _).trans (by rw [List.length_map])
    · intro object member
      obtain ⟨revision, found⟩ := Finmap.mem_iff.mp member
      obtain ⟨operation, listed, same, -⟩ := describes.exists_object found
      rw [List.mem_toFinset, List.mem_map]
      exact ⟨operation, listed, same⟩

end JobAgg.SyncQueue
