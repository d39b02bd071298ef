import JobAgg.CommitmentLog.LogWrites

/-! # The log of one vault

What the tables hold of one vault is a log that only grows. Its rows lie in the order of their
numbers, so the queries read them as they were inserted. -/

namespace JobAgg.CommitmentLog

open EpochVault

variable {Digest : Type}

section Sorted

variable {Row : Type} {key : Row → Nat} {rows : List Row}

theorem insertionSort_of_ascending (ascending : rows.Pairwise fun one two => key one < key two) :
    rows.insertionSort (fun one two => key one ≤ key two) = rows :=
  (ascending.imp le_of_lt).insertionSort_eq

theorem orderedInsert_of_forall_gt {row : Row} (last : ∀ other ∈ rows, key row < key other) :
    rows.orderedInsert (fun one two => key two ≤ key one) row = rows ++ [row] := by
  induction rows with
  | nil => rfl
  | cons head tail induction =>
    have less := last head List.mem_cons_self
    rw [List.orderedInsert_of_not_le _ _ (by omega), List.cons_append,
      induction fun other listed => last other (List.mem_cons_of_mem _ listed)]

theorem insertionSort_of_descending (ascending : rows.Pairwise fun one two => key one < key two) :
    rows.insertionSort (fun one two => key two ≤ key one) = rows.reverse := by
  induction rows with
  | nil => rfl
  | cons head tail induction =>
    rw [List.pairwise_cons] at ascending
    rw [List.insertionSort_cons, induction ascending.2, List.reverse_cons]
    apply orderedInsert_of_forall_gt
    intro other listed
    exact ascending.1 other (List.mem_reverse.mp listed)

end Sorted

structure VaultLog (Digest : Type) where
  commitments : List (CommitmentRow Digest)
  activations : List (ActivationRow Digest)
  deliveries : List (DeliveryRow Digest)
  enrollments : List (EnrollmentRow Digest)

def Database.vaultLog (vault : VaultKey) (db : Database Digest) : VaultLog Digest where
  commitments := db.commitments.filter (·.vault == vault)
  activations := db.activations.filter (·.vault == vault)
  deliveries := db.deviceDeliveries.filter (·.vault == vault)
  enrollments := db.enrollments.filter (·.vault == vault)

namespace VaultLog

variable (log : VaultLog Digest)

def empty : VaultLog Digest := ⟨[], [], [], []⟩

def views : List (View Digest) := log.commitments.map (·.body)

def founder : Option String := log.commitments.head?.map (·.authority)

def current : Option (ActivationRecord Digest) := log.activations.getLast?.map (·.body)

def addView (vault : VaultKey) (view : View Digest) (authority : String) : VaultLog Digest :=
  { log with commitments :=
      log.commitments ++ [⟨vault, view.sequence, view.root, authority, view⟩] }

def addDeliveries (deliveries : List (DeliveryRow Digest)) : VaultLog Digest :=
  { log with deliveries := log.deliveries ++ deliveries }

def recordOf (proof : Rotation Digest) : ActivationRecord Digest :=
  ⟨"ACTIVATION_ACCEPTED", proof.root, proof⟩

def addActivation (vault : VaultKey) (proof : Rotation Digest)
    (deliveries : List (DeliveryRow Digest)) : VaultLog Digest :=
  { log with
    activations := log.activations ++ [⟨vault, proof.plan.newEpoch, proof.root, recordOf proof⟩]
    deliveries := log.deliveries ++ deliveries }

def addEnrollment (vault : VaultKey) (proof : Enrollment Digest) : VaultLog Digest :=
  { log with enrollments := log.enrollments ++
      [⟨vault, proof.activationId, proof.nextRegistryGeneration, proof.root, proof⟩] }

@[simp] theorem views_addView {vault : VaultKey} {view : View Digest} {authority : String} :
    (log.addView vault view authority).views = log.views ++ [view] := by
  rw [views, addView, List.map_append, List.map_singleton, views]

@[simp] theorem current_addActivation {vault : VaultKey} {proof : Rotation Digest}
    {deliveries : List (DeliveryRow Digest)} :
    (log.addActivation vault proof deliveries).current = some (recordOf proof) := by
  rw [current, addActivation, List.getLast?_concat, Option.map_some]

variable [DecidableEq Digest]

def additions (activation : Digest) : List (Enrollment Digest) :=
  (log.enrollments.filter (·.activation == activation)).map (·.body)

def membership (library : LogLibrary Digest) (vault : VaultKey) :
    Except String (Membership Digest) :=
  match log.current with
  | none => .error commitmentConflict
  | some current => conflicted
      (membershipOf library vault current log.views (log.additions current.transitionId))

end VaultLog

structure Ordered [DecidableEq Digest] (log : VaultLog Digest) : Prop where
  sequences : log.commitments.map (·.sequence) = List.range' 1 log.commitments.length
  epochs : log.activations.Pairwise fun one two => one.epoch < two.epoch
  generations : ∀ activation, (log.enrollments.filter (·.activation == activation)).Pairwise
    fun one two => one.generation < two.generation

section Queries

variable [DecidableEq Digest] {vault : VaultKey} {db : Database Digest}

theorem Ordered.commitmentRows (ordered : Ordered (db.vaultLog vault)) :
    db.commitmentRows vault = (db.vaultLog vault).commitments := by
  apply @insertionSort_of_ascending _ fun row : CommitmentRow Digest => row.sequence
  have ascending : (List.range' 1 (db.vaultLog vault).commitments.length).Pairwise (· < ·) :=
    List.pairwise_lt_range'
  rw [← ordered.sequences, List.pairwise_map] at ascending
  exact ascending

theorem Ordered.read (ordered : Ordered (db.vaultLog vault)) :
    db.read vault = (db.vaultLog vault).views := by
  rw [Database.read, ordered.commitmentRows, VaultLog.views]

theorem Ordered.activation (ordered : Ordered (db.vaultLog vault)) :
    db.activation vault = (db.vaultLog vault).current := by
  have sorted : db.activationRows vault = (db.vaultLog vault).activations.reverse :=
    insertionSort_of_descending ordered.epochs
  rw [Database.activation, sorted, List.head?_reverse, VaultLog.current]

theorem Ordered.enrollmentRows (ordered : Ordered (db.vaultLog vault)) (activation : Digest) :
    (db.enrollmentRows vault activation).map (·.body) =
      (db.vaultLog vault).additions activation := by
  have rows : (db.enrollments.filter fun row =>
      row.vault == vault && row.activation == activation) =
        (db.vaultLog vault).enrollments.filter (·.activation == activation) := by
    rw [Database.vaultLog, List.filter_filter]
    congr 1
    funext row
    exact Bool.and_comm _ _
  have ascending := ordered.generations activation
  rw [Database.enrollmentRows, rows, VaultLog.additions]
  congr 1
  exact insertionSort_of_ascending ascending

theorem Ordered.rebuildMembership (ordered : Ordered (db.vaultLog vault))
    (library : LogLibrary Digest) :
    rebuildMembership library vault db = (db.vaultLog vault).membership library vault := by
  rw [CommitmentLog.rebuildMembership, rebuildMembershipFrom, ordered.activation,
    VaultLog.membership]
  cases (db.vaultLog vault).current with
  | none => rfl
  | some current =>
    dsimp only
    rw [ordered.read, ordered.enrollmentRows]

end Queries

end JobAgg.CommitmentLog
