import JobAgg.CommitmentLog.VaultGrowth

/-! # What the service asks of the log

The service appends a view under the registry of the membership, once it has admitted the
device and the epoch of the view. It does both under one lock. -/

namespace JobAgg.CommitmentLog

open EpochVault

variable {Digest : Type} [DecidableEq Digest]

/-- `AtlasVaultBackend._vault_session` and `require_active_epoch`, for a session that is
authorized -/
def vaultSession (vault : VaultKey) (device : String) (epoch : Nat)
    (membership : Except String (Membership Digest)) (db : Database Digest) :
    Except String Unit :=
  match db.activation vault with
  | none => .ok ()
  | some record => do
    let members ← membership
    require (isActive members.registry device) deviceRevoked
    require (epoch == record.proof.plan.newEpoch) commitmentConflict

variable (library : LogLibrary Digest)

def activeRegistry (vault : VaultKey) (entries : List (Descriptor Digest))
    (membership : Except String (Membership Digest)) (db : Database Digest) :
    Except String Digest :=
  match db.activation vault with
  | none => descriptorRoot library.toHistoryLibrary entries
  | some _ => do
    let members ← membership
    registryRoot library.toRevocationLibrary members.registry

def LogCall.isAppend : LogCall Digest → Bool
  | .append .. => true
  | _ => false

/-- A request of a session that is authorized: `append_commitment`, with the devices of the
account and the key of this one, or one that the log answers directly -/
inductive Request (Digest : Type) where
  | appendCommitment (vault : VaultKey) (device : String) (view : View Digest)
      (entries : List (Descriptor Digest)) (publicB64 : String) (initialEpoch : Nat)
  | direct (call : LogCall Digest) (other : call.isAppend = false)

def Request.call (db : Database Digest) : Request Digest → Except String (LogCall Digest)
  | .appendCommitment vault device view entries publicB64 initialEpoch => do
    let membership := rebuildMembership library vault db
    vaultSession vault device view.keyEpoch membership db
    let registryRoot ← activeRegistry library vault entries membership db
    return .append vault view registryRoot publicB64 initialEpoch
  | .direct call _ => .ok call

def Request.perform (db : Database Digest) (request : Request Digest) :
    Except String (Committed Digest (LogAnswer Digest)) := do
  let call ← request.call library db
  call.perform library db

structure RequestEvent (Digest : Type) where
  request : Request Digest
  answer : Except String (LogAnswer Digest)

def RequestStep (before : Database Digest) (event : RequestEvent Digest) (after : Database Digest) :
    Prop :=
  match event.request.perform library before with
  | .ok committed => after = committed.database ∧ event.answer = .ok committed.answer
  | .error reason => after = before ∧ event.answer = .error reason

variable {library} {before after : Database Digest} {event : RequestEvent Digest}

theorem RequestStep.called (step : RequestStep library before event after) :
    (after = before ∧ ∃ reason, event.answer = .error reason) ∨
      ∃ call, event.request.call library before = .ok call ∧
        LogStep library before ⟨call, event.answer⟩ after := by
  rw [RequestStep, Request.perform] at step
  cases made : event.request.call library before with
  | error reason =>
    rw [made] at step
    exact .inl ⟨step.1, reason, step.2⟩
  | ok call =>
    rw [made, ok_bind] at step
    exact .inr ⟨call, rfl, step⟩

theorem calls_of_requests {events : List (RequestEvent Digest)} {db : Database Digest}
    (run : Run (RequestStep library) before events db) :
    ∃ calls, Run (LogStep library) before calls db := by
  induction run with
  | nil => exact ⟨[], .nil _⟩
  | cons step rest induction =>
    obtain ⟨calls, run⟩ := induction
    rcases step.called with ⟨rfl, -⟩ | ⟨call, -, stepped⟩
    · exact ⟨calls, run⟩
    · exact ⟨_, .cons stepped run⟩

end JobAgg.CommitmentLog
