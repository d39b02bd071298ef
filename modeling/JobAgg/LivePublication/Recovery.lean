import JobAgg.LivePublication.Gate

/-! # Recovery of a generation

What the checks of a recovery request show about the gate, its plan and its result.
-/

namespace JobAgg.LivePublication

variable {library : Library} {journal : Journal} {request : Fields}
  {database outputDir stateDir : String} {gate : Gate} {plan : Plan}

structure Documented (library : Library) (request : Fields) (database outputDir stateDir : String)
    (journal : Journal) (gate : Gate) (plan : Plan) : Prop where
  current : journal.gate = some gate
  path : gate.planPath = planPath (generationDir stateDir gate.generationId)
  saved : journal.plans gate.planPath = some plan
  digest : library.planDigest plan = gate.planSha256
  generationId : plan.generationId = some gate.generationId
  workerDatabase : plan.workerDatabase = database
  outputDir : plan.outputDir = outputDir
  registry : Json.get "registry_sha256" request = .string plan.registrySha256
  observations : plan.observationSetSha256 = gate.observationSetSha256

theorem gateDocuments_eq_ok
    (documents : gateDocuments library request database outputDir stateDir journal =
      .ok (gate, plan)) :
    Documented library request database outputDir stateDir journal gate plan := by
  unfold gateDocuments at documents
  split at documents
  · cases documents
  · rename_i found current
    simp only [require_bind_eq_ok] at documents
    obtain ⟨-, -, path, documents⟩ := documents
    split at documents
    · cases documents
    · rename_i saved named
      simp only [require_bind_eq_ok, pure_eq_ok, Bool.and_eq_true, beq_iff_eq,
        Prod.mk.injEq] at documents
      obtain ⟨⟨⟨⟨⟨⟨⟨⟨digest, generation⟩, -⟩, output⟩, worker⟩, registry⟩, observations⟩, -⟩, -,
        rfl, rfl⟩ := documents
      rw [beq_iff_eq] at path
      rw [← path] at named
      exact ⟨current, path, named, digest, generation, worker, output, registry, observations⟩

/-- A binding and its documents, and the completed result of a complete gate. -/
structure Validated (library : Library) (request : Fields) (database outputDir stateDir : String)
    (journal : Journal) (binding : Binding) (completed : Option Gate) (gate : Gate) (plan : Plan) :
    Prop where
  documents : Documented library request database outputDir stateDir journal gate plan
  identity : binding.requestIdentitySha256 = recoveryIdentity library request
  generationId : gate.generationId = binding.generationId
  planPath : gate.planPath = binding.planPath
  planSha256 : gate.planSha256 = binding.planSha256
  observations : gate.observationSetSha256 = binding.observationSetSha256
  completed : completed = if gate.state = "complete" then some gate else none

theorem validateRecoveryGeneration_eq_ok {given : Option Binding} {binding : Binding}
    {completed : Option Gate}
    (validated : validateRecoveryGeneration library request given database outputDir stateDir
      journal = .ok (binding, completed)) :
    given = some binding ∧ ∃ gate plan, Validated library request database outputDir stateDir
      journal binding completed gate plan := by
  unfold validateRecoveryGeneration at validated
  split at validated
  · cases validated
  · rw [require_bind_eq_ok, bind_eq_ok] at validated
    obtain ⟨bound, ⟨gate, plan⟩, documents, validated⟩ := validated
    simp only [Bool.and_eq_true, beq_iff_eq] at bound
    obtain ⟨⟨⟨⟨⟨identity, -⟩, -⟩, -⟩, -⟩, -⟩ := bound
    replace documents := gateDocuments_eq_ok documents
    simp only [require_bind_eq_ok, Bool.and_eq_true, beq_iff_eq] at validated
    obtain ⟨⟨⟨⟨generation, digest⟩, path⟩, observations⟩, -, validated⟩ := validated
    rw [documents.digest] at digest
    rw [← documents.path] at path
    split at validated
    · rename_i complete
      split at validated
      · cases validated
      · simp only [require_bind_eq_ok, pure_eq_ok, Bool.and_eq_true, beq_iff_eq,
          Prod.mk.injEq] at validated
        obtain ⟨⟨⟨rfl, -⟩, -⟩, rfl, rfl⟩ := validated
        exact ⟨rfl, _, plan, documents, identity, generation, path, digest, observations,
          (if_pos complete).symm⟩
    · rename_i unfinished
      simp only [pure_eq_ok, Prod.mk.injEq] at validated
      obtain ⟨rfl, rfl⟩ := validated
      exact ⟨rfl, gate, plan, documents, identity, generation, path, digest, observations,
        (if_neg unfinished).symm⟩

/-- The evidence for a first binding: the plan is not older than the request, and it
carries the identity of the request or none. -/
structure Captured (library : Library) (request : Fields) (database outputDir stateDir : String)
    (journal : Journal) (binding : Binding) (gate : Gate) (plan : Plan) : Prop where
  documents : Documented library request database outputDir stateDir journal gate plan
  generationId : binding.generationId = gate.generationId
  planPath : binding.planPath = gate.planPath
  planSha256 : binding.planSha256 = gate.planSha256
  generated : ∃ start, parseTime library request "generated_at" = .ok start ∧
    start ≤ plan.createdAt
  ownership : gate.requestIdentitySha256 = some (recoveryIdentity library request) ∨
    gate.requestIdentitySha256 = none

theorem captureRecoveryGeneration_eq_ok {ownerHeld : Bool} {binding : Binding}
    {authorized : Option ExpiredAuthorization}
    (captured : captureRecoveryGeneration library request database outputDir stateDir ownerHeld
      authorized journal = .ok binding) :
    ∃ gate plan, Captured library request database outputDir stateDir journal binding gate
      plan := by
  unfold captureRecoveryGeneration at captured
  rw [require_bind_eq_ok, bind_eq_ok] at captured
  obtain ⟨-, ⟨gate, plan⟩, documents, captured⟩ := captured
  replace documents := gateDocuments_eq_ok documents
  rw [require_bind_eq_ok, bind_eq_ok] at captured
  obtain ⟨-, start, parsed, captured⟩ := captured
  rw [bind_eq_ok] at captured
  obtain ⟨deadline, -, captured⟩ := captured
  simp only [require_bind_eq_ok, pure_eq_ok, Bool.and_eq_true, Bool.or_eq_true, beq_iff_eq,
    decide_eq_true_eq] at captured
  obtain ⟨⟨after, -⟩, ownership, -, -, rfl⟩ := captured
  refine ⟨gate, plan, documents, rfl, documents.path.symm, documents.digest,
    ⟨start, parsed, after⟩, ?_⟩
  rcases ownership with ⟨owned, -⟩ | ⟨absent, -⟩
  · exact .inl owned
  · exact .inr (Option.isNone_iff_eq_none.mp absent)

theorem captureUnstartedPublication_eq_ok {ownerHeld : Bool}
    (captured : captureUnstartedPublication library request stateDir ownerHeld journal =
      .ok gate) :
    journal.gate = some gate ∧ ∃ start receipt,
      parseTime library request "generated_at" = .ok start ∧ gate.receipt = some receipt ∧
      receipt.completedAt < start := by
  unfold captureUnstartedPublication at captured
  rw [require_bind_eq_ok] at captured
  obtain ⟨-, captured⟩ := captured
  split at captured
  · cases captured
  · rename_i found current
    rw [bind_eq_ok] at captured
    obtain ⟨start, parsed, captured⟩ := captured
    split at captured
    · cases captured
    · rename_i receipt received
      simp only [require_bind_eq_ok, Bool.and_eq_true, decide_eq_true_eq] at captured
      obtain ⟨⟨⟨-, before⟩, -⟩, -, -, captured⟩ := captured
      split at captured
      · rw [require_bind_eq_ok, pure_eq_ok] at captured
        obtain ⟨-, rfl⟩ := captured
        exact ⟨current, start, receipt, parsed, received, before⟩
      · cases captured

end JobAgg.LivePublication
