import JobAgg.CommitmentLog.Requests
import JobAgg.EpochVault.AuthorityChain

/-! # A vault with a removal and an enrollment

The first view is followed by the removal of the second device, by the enrollment of a third one
and by a view under the next epoch. -/

namespace JobAgg.CommitmentLog

open EpochVault

def plainLog : LogLibrary Mark where
  toHistoryLibrary := plainLibrary
  durable := true
  packetBytes _ := 1024
  recordBytes _ := 1024
  enrollmentBytes _ := 1024
  membershipBytes _ := 1024

def plainVault : VaultKey := ("account", "vault")

def plainRemoval : Rotation Mark := plainRotation plainDevices 'B' 1 plainOpening.root

/-- The packet that proves the wrapper of the first device. -/
def plainPacket : Packet Mark where
  proof := {
    activationId := plainRemoval.root
    plan := plainRemoval.plan
    revocation := plainRemoval.revocation
    registry := plainRemoval.registry
    recipientDeviceId := plainId 'A'
    recipientAgreementSha256 := .number 4000
    wrapperSha256 := .number 3002
    registryGeneration := 2
    issuerDeviceId := plainId 'A'
    rotationSignerDeviceId := plainId 'A'
    root := .number 2002
    signatureB64 := plainSignature }
  wrapper := plainWrapper 2 (plainId 'A')

def plainArrival : Enrollment Mark := plainEnrollment plainRemaining 'C' 2 2 plainOpening.root

def plainNext : View Mark :=
  plainView (some plainOpening) (.registry (enrolled plainRemaining 'C').toFinset) 2

def plainRequests : List (Request Mark) :=
  [.appendCommitment plainVault (plainId 'A') plainOpening [⟨.number 1, .number 2⟩]
      (plainKey 'A') 1,
    .direct (.putDelivery plainVault 2 (plainId 'A') plainPacket) rfl,
    .direct (.acceptActivation plainVault plainRemoval plainDevices (plainId 'A')) rfl,
    .direct (.acceptEnrollment plainVault plainArrival (plainId 'A')) rfl,
    .appendCommitment plainVault (plainId 'A') plainNext [] (plainKey 'A') 1]

def databaseAfter (requests : List (Request Mark)) (db : Database Mark) : Option (Database Mark) :=
  requests.foldlM (fun db request => (request.perform plainLog db).toOption.map (·.database)) db

theorem run_of_databaseAfter {requests : List (Request Mark)} {db final : Database Mark}
    (reached : databaseAfter requests db = some final) :
    ∃ events, Run (RequestStep plainLog) db events final := by
  induction requests generalizing db with
  | nil =>
    cases reached
    exact ⟨[], .nil _⟩
  | cons request rest induction =>
    rw [databaseAfter, List.foldlM_cons] at reached
    cases performed : request.perform plainLog db with
    | error reason =>
      rw [performed] at reached
      cases reached
    | ok committed =>
      rw [performed] at reached
      obtain ⟨events, run⟩ := induction reached
      refine ⟨⟨request, .ok committed.answer⟩ :: events, .cons ?_ run⟩
      rw [RequestStep, performed]
      exact ⟨rfl, rfl⟩

theorem plainRequests_evaluated : (databaseAfter (plainRequests.take 3) .empty).any (fun db =>
    (db.activation plainVault).isSome) = true := by
  decide +kernel

theorem plainRun : ∃ db events, Run (RequestStep plainLog) .empty events db ∧
    (db.activation plainVault).isSome = true := by
  have evaluated := plainRequests_evaluated
  rw [Option.any_eq_true] at evaluated
  obtain ⟨db, reached, holds⟩ := evaluated
  obtain ⟨events, run⟩ := run_of_databaseAfter reached
  exact ⟨db, events, run, holds⟩

end JobAgg.CommitmentLog
