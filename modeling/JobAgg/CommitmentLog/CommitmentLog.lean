import JobAgg.EpochVault.RegistryOrder
import JobAgg.EpochVault.VaultState

/-! # The log of commitments

The service keeps the views of a vault, the rotations that were activated, the delivery packets
of each and the enrollments since. A transaction reads what is there, checks what it is asked
to add and adds it, or leaves everything as it was. -/

namespace JobAgg.CommitmentLog

open EpochVault

variable {Digest : Type}

abbrev VaultKey : Type := String × String

/-- A row of `commitments` -/
structure CommitmentRow (Digest : Type) where
  vault : VaultKey
  sequence : Nat
  root : Digest
  authority : String
  body : View Digest
deriving DecidableEq

/-- A row of `activations` -/
structure ActivationRow (Digest : Type) where
  vault : VaultKey
  epoch : Nat
  root : Digest
  body : ActivationRecord Digest
deriving DecidableEq

/-- A row of `device_deliveries` -/
structure DeliveryRow (Digest : Type) where
  vault : VaultKey
  epoch : Nat
  recipient : String
  body : Packet Digest
deriving DecidableEq

/-- A row of `prepared_device_deliveries` -/
structure PreparedRow (Digest : Type) where
  vault : VaultKey
  transition : Digest
  epoch : Nat
  recipient : String
  issuer : String
  body : Packet Digest
deriving DecidableEq

/-- A row of `enrollments` -/
structure EnrollmentRow (Digest : Type) where
  vault : VaultKey
  activation : Digest
  generation : Nat
  root : Digest
  body : Enrollment Digest
deriving DecidableEq

/-- The rows of the tables as they were inserted. -/
structure Database (Digest : Type) where
  commitments : List (CommitmentRow Digest)
  activations : List (ActivationRow Digest)
  deviceDeliveries : List (DeliveryRow Digest)
  preparedDeviceDeliveries : List (PreparedRow Digest)
  enrollments : List (EnrollmentRow Digest)
deriving DecidableEq

def commitmentConflict : String := "Commitment conflict."

def activationUnavailable : String := "ATLAS_ACTIVATION_STORAGE_UNAVAILABLE"

def integrityError : String := "sqlite3.IntegrityError"

def conflicted {Value : Type} (checked : Except String Value) : Except String Value :=
  checked.mapError fun _ => commitmentConflict

/-- `INSERT`, where no row may be there that conflicts with the new one -/
def insertRow {Row : Type} (conflicts : Row → Row → Bool) (row : Row) (rows : List Row) :
    Except String (List Row) :=
  if rows.any (conflicts row) then .error integrityError else .ok (rows ++ [row])

section Keys

variable [DecidableEq Digest]

/-- `PRIMARY KEY(account,vault,sequence), UNIQUE(account,vault,root)` -/
def CommitmentRow.conflicts (row known : CommitmentRow Digest) : Bool :=
  row.vault == known.vault && (row.sequence == known.sequence || row.root == known.root)

/-- `PRIMARY KEY(account,vault,epoch), UNIQUE(account,vault,root)` -/
def ActivationRow.conflicts (row known : ActivationRow Digest) : Bool :=
  row.vault == known.vault && (row.epoch == known.epoch || row.root == known.root)

/-- `PRIMARY KEY(account,vault,epoch,recipient)` -/
def DeliveryRow.conflicts (row known : DeliveryRow Digest) : Bool :=
  row.vault == known.vault && row.epoch == known.epoch && row.recipient == known.recipient

/-- `PRIMARY KEY(account,vault,transition,recipient)` -/
def PreparedRow.conflicts (row known : PreparedRow Digest) : Bool :=
  row.vault == known.vault && row.transition == known.transition &&
    row.recipient == known.recipient

/-- `PRIMARY KEY(account,vault,activation,generation), UNIQUE(account,vault,root)` -/
def EnrollmentRow.conflicts (row known : EnrollmentRow Digest) : Bool :=
  row.vault == known.vault && (row.activation == known.activation &&
    row.generation == known.generation || row.root == known.root)

end Keys

namespace Database

def empty : Database Digest := ⟨[], [], [], [], []⟩

variable (vault : VaultKey) (db : Database Digest)

/-- `SELECT … FROM commitments … ORDER BY sequence` -/
def commitmentRows : List (CommitmentRow Digest) :=
  (db.commitments.filter (·.vault == vault)).insertionSort (·.sequence ≤ ·.sequence)

def read : List (View Digest) := (db.commitmentRows vault).map (·.body)

/-- `SELECT … FROM activations … ORDER BY epoch DESC` -/
def activationRows : List (ActivationRow Digest) :=
  (db.activations.filter (·.vault == vault)).insertionSort fun one two => two.epoch ≤ one.epoch

def activation : Option (ActivationRecord Digest) := (db.activationRows vault).head?.map (·.body)

def activationAt (epoch : Nat) : Option (ActivationRecord Digest) :=
  (db.activations.find? fun row => row.vault == vault && row.epoch == epoch).map (·.body)

/-- `SELECT … FROM enrollments … ORDER BY generation` -/
def enrollmentRows [DecidableEq Digest] (activation : Digest) : List (EnrollmentRow Digest) :=
  (db.enrollments.filter fun row => row.vault == vault && row.activation == activation).insertionSort
    (·.generation ≤ ·.generation)

end Database

/-! ## Membership -/

/-- What `membership` answers -/
structure Membership (Digest : Type) where
  registry : Registry
  context : EnrollmentContext Digest
  records : List (Enrollment Digest)
deriving DecidableEq

/-- The digests, how long the JSON of what is kept would be, and whether it is kept in a
file. -/
structure LogLibrary (Digest : Type) extends HistoryLibrary Digest where
  durable : Bool
  packetBytes : Packet Digest → Nat
  recordBytes : ActivationRecord Digest → Nat
  enrollmentBytes : Enrollment Digest → Nat
  membershipBytes : Membership Digest → Nat

def Membership.enroll (membership : Membership Digest) (registry : Registry)
    (proof : Enrollment Digest) : Membership Digest where
  registry := registry
  context := { membership.context with registryGeneration := proof.nextRegistryGeneration }
  records := membership.records ++ [proof]

section Log

variable [DecidableEq Digest] (library : LogLibrary Digest)

def verifyEnrollmentAttestation (proof : Enrollment Digest) (registry : Registry)
    (context : EnrollmentContext Digest) : Except String Registry :=
  verifyEnrollment library.toRotationLibrary proof registry context proof.transcriptSha256

/-- One round of the loop of `_rebuild_membership`, with the position of the view that the
round before named. The roots of the views are all different. -/
def readmission (roots : List Digest) (state : Membership Digest × Nat) (addition : Enrollment Digest) :
    Except String (Membership Digest × Nat) := do
  require (decide (addition.stateRoot ∈ roots) && decide (state.2 ≤ roots.idxOf addition.stateRoot))
    commitmentConflict
  let context := { state.1.context with stateRoot := addition.stateRoot }
  let registry ← verifyEnrollmentAttestation library addition state.1.registry context
  return ({ state.1 with context := context }.enroll registry addition,
    roots.idxOf addition.stateRoot)

def activated (vault : VaultKey) (record : ActivationRecord Digest) (registry : Registry) :
    Membership Digest where
  registry := registry
  context := {
    accountId := vault.1
    vaultId := vault.2
    registryGeneration := record.proof.plan.newEpoch
    keyEpoch := record.proof.plan.newEpoch
    stateRoot := record.proof.plan.stateRoot
    activationId := record.transitionId }
  records := []

/-- What `_rebuild_membership` makes of the rows that it reads -/
def membershipOf (vault : VaultKey) (current : ActivationRecord Digest)
    (history : List (View Digest)) (additions : List (Enrollment Digest)) :
    Except String (Membership Digest) := do
  let proof := current.proof
  let registry ← verifyTransition library.toRevocationLibrary proof.revocation proof.registry
  let roots := history.map View.root
  require (decide (proof.plan.stateRoot ∈ roots)) commitmentConflict
  let (membership, _) ← additions.foldlM (readmission library roots)
    (activated vault current registry, roots.idxOf proof.plan.stateRoot)
  let stateRoot := (history.getLast?.map View.root).getD proof.plan.stateRoot
  return { membership with context := { membership.context with stateRoot := stateRoot } }

/-- `_rebuild_membership`, with the databases that its three queries read; `membership` turns
what it raises into a conflict. -/
def rebuildMembershipFrom (vault : VaultKey) (first second third : Database Digest) :
    Except String (Membership Digest) :=
  match first.activation vault with
  | none => .error commitmentConflict
  | some current => conflicted (membershipOf library vault current (second.read vault)
      ((third.enrollmentRows vault current.transitionId).map (·.body)))

def rebuildMembership (vault : VaultKey) (db : Database Digest) :
    Except String (Membership Digest) :=
  rebuildMembershipFrom library vault db db db

/-- What a transaction that ran to its end leaves, how many rows it changed and what it
answers -/
structure Committed (Digest Answer : Type) where
  database : Database Digest
  changes : Nat
  answer : Answer

/-! ## Enrollments -/

/-- `accept`, with what `membership` answers inside the transaction -/
def acceptEnrollment (vault : VaultKey) (proof : Enrollment Digest) (issuerId : String)
    (membership : Except String (Membership Digest)) (db : Database Digest) :
    Except String (Committed Digest Bool) := do
  require library.durable activationUnavailable
  let current ← membership
  require (proof.issuerDeviceId == issuerId && isActive current.registry issuerId)
    commitmentConflict
  match current.records.find? (·.root == proof.root) with
  | some old => do
    require (old == proof) commitmentConflict
    return ⟨db, 0, false⟩
  | none => do
    let _ ← conflicted (verifyEnrollmentAttestation library proof current.registry current.context)
    require (decide (library.enrollmentBytes proof ≤ 16384) &&
      decide (db.enrollments.countP (·.vault == vault) < 8192)) commitmentConflict
    let enrollments ← (insertRow EnrollmentRow.conflicts
      ⟨vault, proof.activationId, proof.nextRegistryGeneration, proof.root, proof⟩
      db.enrollments).mapError fun _ => activationUnavailable
    return ⟨{ db with enrollments := enrollments }, 1, true⟩

/-! ## Views -/

/-- Whose key signs the next view: that of the rotation, or that of the first view -/
def authorityOf (founder : String) : Option (ActivationRecord Digest) → Except String String
  | none => .ok founder
  | some record =>
    match entryOf record.proof.registry record.proof.rotationSignerDeviceId with
    | none => .error stopIteration
    | some signer => .ok signer.signingPublicB64

/-- What `append` asks of a view that is new -/
def continuesLog (registryRoot : Digest) (initialEpoch : Nat)
    (activation : Option (ActivationRecord Digest)) (history : List (View Digest))
    (view : View Digest) : Bool :=
  let last := history.getLast?
  let epoch := match activation with
    | some record => record.proof.plan.newEpoch
    | none => (last.map fun view => view.keyEpoch).getD initialEpoch
  view.sequence == history.length + 1 &&
    view.previousRoot == (last.map View.root).getD library.zero &&
    view.previousRegistryRoot == (last.map fun view => view.registryRoot).getD
      library.emptyRegistry &&
    view.registryRoot == registryRoot && view.keyEpoch == epoch && decide (history.length < limit)

def append (vault : VaultKey) (view : View Digest) (registryRoot : Digest) (publicB64 : String)
    (initialEpoch : Nat) (db : Database Digest) : Except String (Committed Digest Bool) := do
  let rows := db.commitmentRows vault
  let history := rows.map (·.body)
  let authority ← authorityOf ((rows.head?.map (·.authority)).getD publicB64) (db.activation vault)
  require (view.isVerified library.toHistoryLibrary authority) commitmentConflict
  require (view.accountId == vault.1 && view.vaultId == vault.2) commitmentConflict
  match history.find? (·.root == view.root) with
  | some old => do
    require (old == view) commitmentConflict
    return ⟨db, 0, false⟩
  | none => do
    require (continuesLog library registryRoot initialEpoch (db.activation vault) history view &&
      decide (db.commitments.length < 8192)) commitmentConflict
    let commitments ← conflicted (insertRow CommitmentRow.conflicts
      ⟨vault, view.sequence, view.root, authority, view⟩ db.commitments)
    return ⟨{ db with commitments := commitments }, 1, true⟩

/-! ## Deliveries -/

/-- The packet is for the activation that is recorded, or else for this epoch of the vault. -/
def matchesRecord (vault : VaultKey) (epoch : Nat) (packet : Packet Digest) :
    Option (ActivationRecord Digest) → Bool
  | some record =>
    let proof := packet.proof
    let old := record.proof
    proof.activationId == record.transitionId && proof.plan == old.plan &&
      proof.revocation == old.revocation && proof.registry == old.registry &&
      proof.rotationSignerDeviceId == old.rotationSignerDeviceId &&
      old.deliveries.find? (·.deviceId == proof.recipientDeviceId) == some packet.wrapper
  | none =>
    let plan := packet.proof.plan
    plan.accountId == vault.1 && plan.vaultId == vault.2 && plan.newEpoch == epoch

/-- `_delivery_body`: whom the packet is for -/
def deliveryBody (vault : VaultKey) (epoch : Nat) (issuerId : String) (packet : Packet Digest)
    (record : Option (ActivationRecord Digest)) : Except String String := do
  let proof := packet.proof
  let recipient := proof.recipientDeviceId
  require (proof.issuerDeviceId == issuerId) commitmentConflict
  require (matchesRecord vault epoch packet record) commitmentConflict
  let _ ← conflicted (verifyDeviceDelivery library.toRotationLibrary packet proof.registry vault.1
    vault.2 proof.plan.previousEpoch proof.plan.stateRoot proof.activationId recipient)
  require (decide (library.packetBytes packet ≤ 1024 * 1024)) commitmentConflict
  return recipient

/-- `MAX_VAULT_ROTATION_ROWS` and `MAX_ACCOUNT_ROTATION_ROWS` -/
def maxRotationRows : Nat := 8192

/-- The loops of `put_delivery` that make room for one more row: as long as too many of these
rows are there, all rows of the transition go that is next in this list. -/
def makeRoom (counted : PreparedRow Digest → Bool) :
    List (VaultKey × Digest) → List (PreparedRow Digest) → Except String (List (PreparedRow Digest))
  | stale, rows =>
    if rows.countP counted < maxRotationRows then .ok rows
    else match stale with
      | [] => .error commitmentConflict
      | (vault, transition) :: rest => makeRoom counted rest
          (rows.filter fun row => !(row.vault == vault && row.transition == transition))

/-- The rows of `prepared_device_deliveries` with one more, and how many went for it -/
def prepareDelivery (row : PreparedRow Digest) (rows : List (PreparedRow Digest)) :
    Except String (List (PreparedRow Digest) × Nat) := do
  let other := rows.filter fun known =>
    !(known.vault == row.vault && known.transition == row.transition)
  let fewer ← makeRoom (·.vault == row.vault)
    ((other.filter (·.vault == row.vault)).map fun known => (known.vault, known.transition)) rows
  let least ← makeRoom (·.vault.1 == row.vault.1)
    ((other.filter (·.vault.1 == row.vault.1)).map fun known => (known.vault, known.transition))
    fewer
  let prepared ← conflicted (insertRow PreparedRow.conflicts row least)
  return (prepared, rows.length - least.length)

/-- Once there was a rotation only active members take part in deliveries. -/
def requireActive (vault : VaultKey) (devices : List String)
    (membership : Except String (Membership Digest)) (db : Database Digest) :
    Except String Unit :=
  match db.activation vault with
  | none => .ok ()
  | some _ => do
    let members ← membership
    require (devices.all (isActive members.registry)) commitmentConflict

/-- `put_delivery`, with what `enrollment_membership` answers inside the transaction -/
def putDelivery (vault : VaultKey) (epoch : Nat) (issuerId : String) (packet : Packet Digest)
    (membership : Except String (Membership Digest)) (db : Database Digest) :
    Except String (Committed Digest Unit) := do
  let record := db.activationAt vault epoch
  let recipient ← deliveryBody library vault epoch issuerId packet record
  requireActive vault [issuerId, recipient] membership db
  match record with
  | none =>
    let transition := packet.proof.activationId
    match db.preparedDeviceDeliveries.find? fun row =>
        row.vault == vault && row.transition == transition && row.recipient == recipient with
    | some row => do
      require (row.issuer == issuerId && row.body == packet) commitmentConflict
      return ⟨db, 0, ()⟩
    | none => do
      let (prepared, dropped) ← prepareDelivery
        ⟨vault, transition, epoch, recipient, issuerId, packet⟩ db.preparedDeviceDeliveries
      return ⟨{ db with preparedDeviceDeliveries := prepared }, dropped + 1, ()⟩
  | some _ =>
    match db.deviceDeliveries.find? fun row =>
        row.vault == vault && row.epoch == epoch && row.recipient == recipient with
    | some row => do
      require (row.body == packet) commitmentConflict
      return ⟨db, 0, ()⟩
    | none => do
      require (decide (db.deviceDeliveries.countP (·.vault == vault) < maxRotationRows))
        commitmentConflict
      let deliveries ← conflicted (insertRow DeliveryRow.conflicts
        ⟨vault, epoch, recipient, packet⟩ db.deviceDeliveries)
      return ⟨{ db with deviceDeliveries := deliveries }, 1, ()⟩

/-! ## Activations -/

/-- A rotation that is activated already is answered again where its deliveries are those of
this device. -/
def activateAgain (vault : VaultKey) (proof : Rotation Digest) (device : String)
    (current : ActivationRecord Digest) (db : Database Digest) :
    Except String (Committed Digest (ActivationRecord Digest)) := do
  require (current.proof == proof && decide (device ∈ proof.plan.recipients)) commitmentConflict
  let rows := db.deviceDeliveries.filter fun row =>
    row.vault == vault && row.epoch == proof.plan.newEpoch
  require (decide ((rows.map (·.recipient)).toFinset = proof.plan.recipients.toFinset) &&
    rows.all fun row => (deliveryBody library vault proof.plan.newEpoch device row.body
      (some current)).toOption == some row.recipient) commitmentConflict
  return ⟨db, 0, current⟩

/-- What the next rotation is verified against: the registry and the epoch -/
def priorAuthority (registry : Registry) (last : View Digest)
    (membership : Except String (Membership Digest)) :
    Option (ActivationRecord Digest) → Except String (Registry × Nat)
  | none => .ok (registry, last.keyEpoch)
  | some current => do
    let members ← membership
    return (members.registry, current.proof.plan.newEpoch)

/-- The deliveries of a rotation: one was prepared for each recipient, by this device. -/
def preparedFor (vault : VaultKey) (record : ActivationRecord Digest) (device : String)
    (db : Database Digest) : Except String (List (PreparedRow Digest)) := do
  let plan := record.proof.plan
  let prepared := db.preparedDeviceDeliveries.filter fun row =>
    row.vault == vault && row.transition == record.transitionId && row.epoch == plan.newEpoch
  require (decide ((prepared.map (·.recipient)).toFinset = plan.recipients.toFinset) &&
    prepared.all fun row => row.issuer == device && (deliveryBody library vault plan.newEpoch
      row.issuer row.body (some record)).toOption == some row.recipient) commitmentConflict
  return prepared

/-- `INSERT INTO device_deliveries`, one after the other -/
def insertDeliveries (rows known : List (DeliveryRow Digest)) :
    Except String (List (DeliveryRow Digest)) :=
  rows.foldlM (fun known row => insertRow DeliveryRow.conflicts row known) known

/-- `accept_activation` of a rotation that is new -/
def activateAnew (vault : VaultKey) (proof : Rotation Digest) (prior : Registry × Nat)
    (last : View Digest) (device : String) (db : Database Digest) :
    Except String (Committed Digest (ActivationRecord Digest)) := do
  let result ← conflicted (verifyEpochRotation library.toRotationLibrary proof prior.1 vault.1
    vault.2 prior.2 last.root)
  let priorRoot ← conflicted (registryRoot library.toRevocationLibrary prior.1)
  require (device == proof.rotationSignerDeviceId && decide (device ∈ result.recipients) &&
    proof.plan.priorRegistryRoot == priorRoot &&
    decide (db.activations.countP (·.vault == vault) < maxRotationRows)) commitmentConflict
  let record : ActivationRecord Digest := ⟨"ACTIVATION_ACCEPTED", proof.root, proof⟩
  require (decide (library.recordBytes record ≤ 1024 * 1024)) commitmentConflict
  let prepared ← preparedFor library vault record device db
  require (decide (db.deviceDeliveries.countP (·.vault == vault) + prepared.length ≤
    maxRotationRows)) commitmentConflict
  let activations ← conflicted (insertRow ActivationRow.conflicts
    ⟨vault, result.newEpoch, proof.root, record⟩ db.activations)
  let deliveries ← conflicted (insertDeliveries
    (prepared.map fun row => ⟨vault, result.newEpoch, row.recipient, row.body⟩)
    db.deviceDeliveries)
  let left := db.preparedDeviceDeliveries.filter fun row =>
    !(row.vault == vault && decide (row.epoch ≤ result.newEpoch))
  return ⟨{ db with
      activations := activations
      deviceDeliveries := deliveries
      preparedDeviceDeliveries := left },
    1 + prepared.length + (db.preparedDeviceDeliveries.length - left.length), record⟩

/-- `accept_activation`, with what `enrollment_membership` answers inside the transaction -/
def acceptActivation (vault : VaultKey) (proof : Rotation Digest) (registry : Registry)
    (device : String) (membership : Except String (Membership Digest)) (db : Database Digest) :
    Except String (Committed Digest (ActivationRecord Digest)) := do
  require library.durable activationUnavailable
  match (db.read vault).getLast? with
  | none => .error commitmentConflict
  | some last =>
    match (db.activation vault).filter (·.proof.root == proof.root) with
    | some current => activateAgain library vault proof device current db
    | none => do
      let prior ← priorAuthority registry last membership (db.activation vault)
      activateAnew library vault proof prior last device db

inductive LogCall (Digest : Type) where
  | append (vault : VaultKey) (view : View Digest) (registryRoot : Digest) (publicB64 : String)
      (initialEpoch : Nat)
  | putDelivery (vault : VaultKey) (epoch : Nat) (issuerId : String) (packet : Packet Digest)
  | acceptActivation (vault : VaultKey) (proof : Rotation Digest) (registry : Registry)
      (device : String)
  | acceptEnrollment (vault : VaultKey) (proof : Enrollment Digest) (issuerId : String)

inductive LogAnswer (Digest : Type) where
  | appended (appended : Bool)
  | delivered
  | activated (record : ActivationRecord Digest)
  | enrolled (appended : Bool)

def LogCall.vault : LogCall Digest → VaultKey
  | .append vault .. => vault
  | .putDelivery vault .. => vault
  | .acceptActivation vault .. => vault
  | .acceptEnrollment vault .. => vault

def Committed.answering {Answer Other : Type} (answer : Answer → Other)
    (committed : Committed Digest Answer) : Committed Digest Other :=
  ⟨committed.database, committed.changes, answer committed.answer⟩

/-- A transaction of the log, with what `membership` answers inside it -/
def LogCall.transact (membership : Except String (Membership Digest)) (db : Database Digest) :
    LogCall Digest → Except String (Committed Digest (LogAnswer Digest))
  | .append vault view registryRoot publicB64 initialEpoch =>
    (CommitmentLog.append library vault view registryRoot publicB64 initialEpoch db).map
      (.answering .appended)
  | .putDelivery vault epoch issuerId packet =>
    (CommitmentLog.putDelivery library vault epoch issuerId packet membership db).map
      (.answering fun _ => .delivered)
  | .acceptActivation vault proof registry device =>
    (CommitmentLog.acceptActivation library vault proof registry device membership db).map
      (.answering .activated)
  | .acceptEnrollment vault proof issuerId =>
    (CommitmentLog.acceptEnrollment library vault proof issuerId membership db).map
      (.answering .enrolled)

/-- A transaction that knows the membership from the database itself -/
def LogCall.perform (db : Database Digest) (call : LogCall Digest) :
    Except String (Committed Digest (LogAnswer Digest)) :=
  call.transact library (rebuildMembership library call.vault db) db

/-- A call and its answer. -/
structure LogEvent (Digest : Type) where
  call : LogCall Digest
  answer : Except String (LogAnswer Digest)

def LogStep (before : Database Digest) (event : LogEvent Digest) (after : Database Digest) :
    Prop :=
  match event.call.perform library before with
  | .ok committed => after = committed.database ∧ event.answer = .ok committed.answer
  | .error reason => after = before ∧ event.answer = .error reason

end Log

end JobAgg.CommitmentLog
