import JobAgg.CommitmentLog.VaultGrowth
import JobAgg.Foundation.StampedCache

/-! # The cache of memberships

One connection keeps the memberships it verified, stamped with two counters of the database:
other connections advance `data_version` when they commit, and every row that this connection
changes advances `total_changes`, also when it is rolled back. Other connections commit between
any two queries, except while this one is in a transaction. -/

namespace JobAgg.CommitmentLog

open EpochVault

variable {Digest : Type}

def maxCachedMemberships : Nat := 8

def maxMembershipCacheBytes : Nat := 32 * 1024 * 1024

/-- A connection to the database, with its two counters and its cache -/
structure Connection (Digest : Type) where
  database : Database Digest
  dataVersion : Nat
  totalChanges : Nat
  cache : StampedCache (Nat × Nat) VaultKey (Membership Digest)

/-- What other connections commit around the queries of `_rebuild_membership` -/
structure Interference (Digest : Type) where
  first : List (LogCall Digest)
  second : List (LogCall Digest)
  third : List (LogCall Digest)
  last : List (LogCall Digest)

def Interference.none : Interference Digest := ⟨[], [], [], []⟩

/-- What other connections commit during the three attempts of `membership` -/
abbrev Schedule (Digest : Type) : Type :=
  Interference Digest × Interference Digest × Interference Digest

def Schedule.quiet : Schedule Digest := (.none, .none, .none)

/-- What happens around the transaction of `accept`: other connections commit before it and
after it, and a transaction that raises, as it does when `COMMIT` fails, has changed rows that
are rolled back. -/
structure Course (Digest : Type) where
  schedule : Schedule Digest
  before : List (LogCall Digest)
  after : List (LogCall Digest)
  commits : Bool
  undone : Nat

namespace Connection

def opened (db : Database Digest) (dataVersion : Nat) : Connection Digest :=
  ⟨db, dataVersion, 0, .empty⟩

def stamp (connection : Connection Digest) : Nat × Nat :=
  (connection.dataVersion, connection.totalChanges)

/-- `ROLLBACK`, after so many rows were changed -/
def undo (undone : Nat) (connection : Connection Digest) : Connection Digest :=
  { connection with totalChanges := connection.totalChanges + undone }

variable [DecidableEq Digest] (library : LogLibrary Digest)

def remember (vault : VaultKey) (value : Membership Digest) (stamp : Nat × Nat)
    (connection : Connection Digest) : Connection Digest :=
  let cache := connection.cache.remember maxCachedMemberships maxMembershipCacheBytes vault value
    (library.membershipBytes value) stamp
  { connection with cache := cache }

def other (connection : Connection Digest) (call : LogCall Digest) : Connection Digest :=
  match call.perform library connection.database with
  | .ok committed => { connection with
      database := committed.database
      dataVersion := connection.dataVersion + 1 }
  | .error _ => connection

def others (calls : List (LogCall Digest)) (connection : Connection Digest) :
    Connection Digest :=
  calls.foldl (other library) connection

/-- `_cache` -/
def refreshed (connection : Connection Digest) : Connection Digest :=
  { connection with cache := connection.cache.forStamp connection.stamp }

/-- Rebuild the membership, while other connections commit: what is answered, unless the stamp is
another one afterwards -/
def rebuilt (vault : VaultKey) (meanwhile : Interference Digest) (connection : Connection Digest) :
    Connection Digest × Option (Except String (Membership Digest)) :=
  let first := connection.others library meanwhile.first
  let second := first.others library meanwhile.second
  let third := second.others library meanwhile.third
  let last := third.others library meanwhile.last
  match rebuildMembershipFrom library vault first.database second.database third.database with
  | .error reason => (last, some (.error reason))
  | .ok value =>
    if last.stamp = connection.stamp then
      (last.remember library vault value connection.stamp, some (.ok value))
    else (last, none)

/-- One attempt of `membership` -/
def attempt (vault : VaultKey) (meanwhile : Interference Digest) (connection : Connection Digest) :
    Connection Digest × Option (Except String (Membership Digest)) :=
  match connection.refreshed.cache.lookup vault with
  | some value =>
    ({ connection with cache := connection.refreshed.cache.touch vault }, some (.ok value))
  | none => connection.refreshed.rebuilt library vault meanwhile

/-- The attempts of `membership`, one after the other -/
def attempts (vault : VaultKey) :
    List (Interference Digest) → Connection Digest →
      Connection Digest × Except String (Membership Digest)
  | [], connection => (connection, .error activationUnavailable)
  | meanwhile :: rest, connection =>
    match connection.attempt library vault meanwhile with
    | (next, some answer) => (next, answer)
    | (next, none) => attempts vault rest next

def membership (vault : VaultKey) (schedule : Schedule Digest) (connection : Connection Digest) :
    Connection Digest × Except String (Membership Digest) :=
  connection.attempts library vault [schedule.1, schedule.2.1, schedule.2.2]

end Connection

section Calls

variable [DecidableEq Digest] (library : LogLibrary Digest)

/-- The transaction asks for the membership. -/
def LogCall.consults (db : Database Digest) : LogCall Digest → Bool
  | .append .. => false
  | .putDelivery vault epoch issuerId packet =>
    (deliveryBody library vault epoch issuerId packet (db.activationAt vault epoch)).isOk &&
      (db.activation vault).isSome
  | .acceptActivation vault proof _ _ =>
    library.durable && (db.read vault).getLast?.isSome &&
      (db.activation vault).any (·.proof.root != proof.root)
  | .acceptEnrollment .. => library.durable

namespace Connection

/-- After `COMMIT` -/
def commit {Answer : Type} (committed : Committed Digest Answer) (connection : Connection Digest) :
    Connection Digest :=
  { connection with
    database := committed.database
    totalChanges := connection.totalChanges + committed.changes }

/-- `append`, `put_delivery` or `accept_activation` on this connection -/
def transact (call : LogCall Digest) (commits : Bool) (undone : Nat)
    (connection : Connection Digest) : Connection Digest × Except String (LogAnswer Digest) :=
  let (inside, members) :=
    if call.consults library connection.database then
      connection.membership library call.vault .quiet
    else (connection, .error commitmentConflict)
  match call.transact library members inside.database with
  | .error reason => (inside.undo undone, .error reason)
  | .ok committed =>
    if commits then (inside.commit committed, .ok committed.answer)
    else (inside.undo undone, .error commitmentConflict)

/-- What `accept` remembers when it added the enrollment: the membership before it, with the new
registry -/
def learn (vault : VaultKey) (proof : Enrollment Digest)
    (members : Except String (Membership Digest)) (appended : Bool) (stamp : Nat × Nat)
    (connection : Connection Digest) : Connection Digest :=
  match appended, members with
  | true, .ok current =>
    match verifyEnrollmentAttestation library proof current.registry current.context with
    | .ok registry => connection.remember library vault (current.enroll registry proof) stamp
    | .error _ => connection
  | _, _ => connection

/-- `accept` on this connection -/
def accept (vault : VaultKey) (proof : Enrollment Digest) (issuerId : String)
    (course : Course Digest) (connection : Connection Digest) :
    Connection Digest × Except String Bool :=
  if library.durable then
    match connection.membership library vault course.schedule with
    | (warm, .error reason) => (warm, .error reason)
    | (warm, .ok _) =>
      let (inside, members) := (warm.others library course.before).membership library vault .quiet
      match acceptEnrollment library vault proof issuerId members inside.database with
      | .error reason => (inside.undo course.undone, .error reason)
      | .ok committed =>
        if course.commits then
          let done := inside.commit committed
          ((done.others library course.after).learn library vault proof members
            committed.answer done.stamp, .ok committed.answer)
        else (inside.undo course.undone, .error activationUnavailable)
  else (connection, .error activationUnavailable)

end Connection

/-- What may happen to a connection -/
inductive Operation (Digest : Type) where
  | membership (vault : VaultKey) (schedule : Schedule Digest)
  | accept (vault : VaultKey) (proof : Enrollment Digest) (issuerId : String)
      (course : Course Digest)
  | transact (call : LogCall Digest) (commits : Bool) (undone : Nat)
  | rollback (undone : Nat)
  | others (calls : List (LogCall Digest))

def Operation.perform (connection : Connection Digest) : Operation Digest → Connection Digest
  | .membership vault schedule => (connection.membership library vault schedule).1
  | .accept vault proof issuerId course => (connection.accept library vault proof issuerId course).1
  | .transact call commits undone => (connection.transact library call commits undone).1
  | .rollback undone => connection.undo undone
  | .others calls => connection.others library calls

def OperationStep (before : Connection Digest) (operation : Operation Digest)
    (after : Connection Digest) : Prop :=
  operation.perform library before = after

end Calls

end JobAgg.CommitmentLog
