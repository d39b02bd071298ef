import JobAgg.LivePublication.PublishWorker

/-! # What every step of a publication keeps

The gate names a plan that was saved before it, and a complete gate carries the receipt of
that plan. A publication either finishes the generation of its gate or leaves the gate
alone.
-/

namespace JobAgg.LivePublication

open Durable

variable {library : Library} {journal : Journal} {plan : Plan} {gate : Gate} {call : Call}

def UnitsOf (selection : Option Json) (units : List ProcessedUnit) : Prop :=
  ∀ unit ∈ units, ∃ item ∈ selection.elim [] selectedUnits, unit = processedUnit item

theorem unitsOf_planUnits (survey : Survey) : UnitsOf survey.selection (planUnits survey) := by
  intro unit inPlan
  simp only [planUnits, List.mem_map, List.mem_append, List.mem_filter, List.mem_filterMap]
    at inPlan
  obtain ⟨item, (⟨selected, -⟩ | ⟨selected, -⟩) | ⟨jobKey, -, found⟩, rfl⟩ := inPlan
  · exact ⟨item, selected, rfl⟩
  · exact ⟨item, selected, rfl⟩
  · exact ⟨item, List.mem_of_find?_eq_some found, rfl⟩

theorem callPlan_eq_ok (planned : callPlan call = .ok plan) :
    ∃ survey, call.survey = .ok survey ∧ plan.workerDatabase = call.workerDatabase ∧
      plan.registrySha256 = call.registrySha256 ∧
      plan.publicationSelection = survey.selection ∧
      plan.processedUnits = planUnits survey ∧
      plan.createdAt = call.createdAt ∧ plan.outputDir = call.outputDir ∧
      (call.publicationSelection.isSome →
        plan.publicationSelection = call.publicationSelection) := by
  simp only [callPlan, bind_eq_ok, require_eq_ok, pure_eq_ok] at planned
  obtain ⟨survey, surveyed, -, selected, verified, -, rfl⟩ := planned
  refine ⟨survey, surveyed, rfl, rfl, rfl, rfl, rfl, rfl, fun given => ?_⟩
  simp only [Bool.or_eq_true, beq_iff_eq] at selected
  rcases selected with absent | same
  · rw [Option.isNone_iff_eq_none] at absent
    rw [absent] at given
    cases given
  · exact same

/-! ## The gate -/

namespace Journal

structure Named (library : Library) (journal : Journal) (gate : Gate) (plan : Plan) : Prop where
  saved : journal.plans gate.planPath = some plan
  digest : library.planDigest plan = gate.planSha256
  generationId : plan.generationId = some gate.generationId
  observations : plan.observationSetSha256 = gate.observationSetSha256
  identity : plan.requestIdentitySha256 = gate.requestIdentitySha256
  units : UnitsOf plan.publicationSelection plan.processedUnits

def Receipted (gate : Gate) (plan : Plan) : Prop :=
  gate.state = "complete" → ∃ receipt, gate.receipt = some receipt ∧
    receipt.status = "published" ∧ receipt.processedUnits = plan.processedUnits

/-- What holds whenever a publication may be stopped. -/
def Sound (library : Library) (journal : Journal) : Prop :=
  ∀ gate, journal.gate = some gate → ∃ plan, journal.Named library gate plan ∧
    Receipted gate plan

end Journal

def KeepsPlans (before after : Journal) : Prop :=
  ∀ path plan, before.plans path = some plan → after.plans path = some plan

def Moves (library : Library) (before after : Journal) : Prop :=
  after.Sound library ∧ KeepsPlans before after

/-- A step that leaves the gate alone. -/
def Quiet (library : Library) (before after : Journal) : Prop :=
  Moves library before after ∧ after.gate = before.gate

/-- A return promises nothing more. -/
abbrev Whatever {Value : Type} (_ : Value) (_ : Journal) : Prop := True

/-- A raise promises nothing more. -/
abbrev Anything (_ : String) (_ : Journal) : Prop := True

/-! ## Finishing a generation -/

/-- The result of a call that finishes the generation of `gate`. -/
structure Finishes (gate : Gate) (plan : Plan) (result : Result) : Prop where
  status : result.status = "published" ∨ result.status = "publication_pending"
  generationId : result.generationId = some gate.generationId
  planPath : result.planPath = some gate.planPath
  units : result.status = "published" → result.processedUnits = plan.processedUnits
  observations : result.observationSetSha256 = some gate.observationSetSha256

theorem finishes_pending (reason : String) : Finishes gate plan (pending gate reason) where
  status := .inr rfl
  generationId := rfl
  planPath := rfl
  units impossible := by
    have status : (pending gate reason).status = "publication_pending" := rfl
    rw [status] at impossible
    exact absurd impossible (by decide)
  observations := rfl

theorem Journal.Named.congr {other : Journal} (named : journal.Named library gate plan)
    (same : other.plans = journal.plans) : other.Named library gate plan :=
  ⟨by rw [same, named.saved], named.digest, named.generationId, named.observations,
    named.identity, named.units⟩

theorem Journal.Sound.saveResult {path : String} {result : Gate}
    (sound : journal.Sound library) : (journal.saveResult path result).Sound library := by
  intro gate found
  obtain ⟨plan, named, receipted⟩ := sound gate found
  exact ⟨plan, named.congr rfl, receipted⟩

theorem sound_saveGate {next : Gate} (named : journal.Named library next plan)
    (receipted : Journal.Receipted next plan) : (journal.saveGate next).Sound library := by
  rintro _ ⟨⟩
  exact ⟨plan, named.congr rfl, receipted⟩

theorem Journal.Named.moved {next : Gate} (named : journal.Named library gate plan)
    (path : next.planPath = gate.planPath) (digest : next.planSha256 = gate.planSha256)
    (generationId : next.generationId = gate.generationId)
    (observations : next.observationSetSha256 = gate.observationSetSha256)
    (identity : next.requestIdentitySha256 = gate.requestIdentitySha256) :
    journal.Named library next plan where
  saved := by rw [path, named.saved]
  digest := by rw [digest, named.digest]
  generationId := by rw [generationId, named.generationId]
  observations := by rw [observations, named.observations]
  identity := by rw [identity, named.identity]
  units := named.units

theorem meets_finishGeneration {work : Work} (named : journal.Named library gate plan) :
    Meets (finishGeneration plan gate work) journal (Moves library)
      (fun result final => Finishes gate plan result ∧ final.Named library gate plan)
      Anything := by
  apply Meets.bind
  apply Meets.examine _ fun _ _ => trivial
  intro finished _
  cases finished with
  | false => exact .pure ⟨finishes_pending _, named⟩
  | true =>
    let exporting : Gate :=
      { gate with databaseTransactionsComplete := true, state := "exporting" }
    have unfinished : Journal.Receipted exporting plan := fun complete =>
      absurd complete (by simp [exporting])
    have next : journal.Named library exporting plan := named.moved rfl rfl rfl rfl rfl
    have moved : (journal.saveGate exporting).Sound library := sound_saveGate next unfinished
    apply Meets.bind
    apply Meets.write
    · exact ⟨moved, fun _ _ => id⟩
    apply Meets.bind
    apply Meets.examine _ fun _ _ => trivial
    intro exported _
    cases exported with
    | some reason =>
      apply Meets.pure
      have pending : Finishes exporting plan (pending exporting reason) :=
        finishes_pending reason
      exact ⟨⟨pending.status, pending.generationId, pending.planPath, pending.units,
        pending.observations⟩, named.congr rfl⟩
    | none =>
      apply Meets.bind
      apply Meets.examine _ fun _ _ => trivial
      intro boundary _
      apply Meets.bind
      apply Meets.examine _ fun _ _ => trivial
      intro root _
      let complete : Gate :=
        { exporting with
          state := "complete", receipt := some (receipt plan boundary work.completedAt) }
      have done : journal.Named library complete plan := named.moved rfl rfl rfl rfl rfl
      apply Meets.bind
      apply Meets.write
      · exact ⟨moved.saveResult, fun _ _ => id⟩
      apply Meets.bind
      apply Meets.write
      · exact ⟨sound_saveGate (done.congr rfl) fun _ => ⟨_, rfl, rfl, rfl⟩, fun _ _ => id⟩
      apply Meets.pure
      exact ⟨⟨.inl rfl, rfl, rfl, fun _ => rfl, rfl⟩, named.congr rfl⟩

/-! ## A publication -/

/-- A call that starts no generation. -/
structure Unstarted (result : Result) : Prop where
  status : result.status ≠ "published" ∧ result.status ≠ "publication_pending"
  generationId : result.generationId = none

/-- The plan of a call, from what it surveys. -/
structure PlannedBy (call : Call) (plan : Plan) : Prop where
  workerDatabase : plan.workerDatabase = call.workerDatabase
  registry : plan.registrySha256 = call.registrySha256
  survey : ∃ survey, call.survey = .ok survey ∧ plan.publicationSelection = survey.selection
  selected : call.publicationSelection.isSome →
    plan.publicationSelection = call.publicationSelection
  createdAt : plan.createdAt = call.createdAt
  identity : plan.requestIdentitySha256 = call.requestIdentity

def Generates (library : Library) (origin : Gate → Plan → Prop) (result : Result)
    (final : Journal) : Prop :=
  ∃ gate plan, Finishes gate plan result ∧ final.Named library gate plan ∧ origin gate plan

theorem meets_recoverGeneration (sound : journal.Sound library) (execute : call.execute = true)
    (current : journal.gate = some gate) :
    Meets (recoverGeneration library call gate) journal (Moves library)
      (Generates library fun other plan => other = gate ∧ journal.Named library gate plan)
      Anything := by
  obtain ⟨plan, named, -⟩ := sound gate current
  rw [recoverGeneration, if_pos execute]
  apply Meets.bind
  apply Meets.examine _ fun _ _ => trivial
  intro found recovered
  have same : found = plan := by
    simp only [recoveryPlan, named.saved, bind_eq_ok, require_eq_ok, pure_eq_ok] at recovered
    obtain ⟨_, _, _, _, _, _, rfl⟩ := recovered
    rfl
  subst same
  apply (meets_finishGeneration named).mono (fun _ _ => id) _ fun _ _ => id
  exact fun result final ended => ⟨gate, found, ended.1, ended.2, rfl, named⟩

theorem sound_savePlan {path : String} (sound : journal.Sound library)
    (unused : journal.plans path = none) : (journal.savePlan path plan).Sound library := by
  intro gate found
  obtain ⟨named, saved, receipted⟩ := sound gate found
  have apart : gate.planPath ≠ path := by
    intro same
    have present := saved.saved
    rw [same, unused] at present
    cases present
  refine ⟨named, ⟨?_, saved.digest, saved.generationId, saved.observations, saved.identity,
    saved.units⟩, receipted⟩
  simp [Journal.savePlan, Function.update_of_ne apart, saved.saved]

theorem quiet_savePlan {path : String} (sound : journal.Sound library)
    (unused : journal.plans path = none) :
    Quiet library journal (journal.savePlan path plan) := by
  refine ⟨⟨sound_savePlan sound unused, ?_⟩, rfl⟩
  intro other old found
  have apart : other ≠ path := by
    intro same
    rw [same, unused] at found
    cases found
  simp [Journal.savePlan, Function.update_of_ne apart, found]

/-- The plan that `_prepare` saves. -/
def preparedPlan (call : Call) (plan : Plan) : Plan :=
  { plan with
    requestIdentitySha256 := call.requestIdentity
    generationId := some call.uuid, generationRoot := some call.root }

theorem meets_prepare (sound : journal.Sound library)
    (unused : journal.plans (planPath call.root) = none) :
    Meets (prepare call { plan with requestIdentitySha256 := call.requestIdentity }) journal
      (Quiet library)
      (fun prepared middle => prepared = preparedPlan call plan ∧ middle.Sound library ∧
        middle.plans (planPath call.root) = some prepared) Anything := by
  apply Meets.bind
  apply Meets.examine _ fun _ _ => trivial
  intro _ _
  apply Meets.bind
  apply Meets.write (quiet_savePlan sound unused)
  apply Meets.pure
  exact ⟨rfl, sound_savePlan sound unused, by simp [Journal.savePlan]⟩

theorem meets_installGeneration (origin : PlannedBy call (preparedPlan call plan))
    (units : UnitsOf plan.publicationSelection plan.processedUnits)
    (saved : journal.plans (planPath call.root) = some (preparedPlan call plan)) :
    Meets (installGeneration library call (preparedPlan call plan)) journal (Moves library)
      (Generates library fun _ plan => PlannedBy call plan) Anything := by
  have named : journal.Named library (publishingGate library call (preparedPlan call plan))
      (preparedPlan call plan) := ⟨saved, rfl, rfl, rfl, rfl, units⟩
  have unfinished : Journal.Receipted (publishingGate library call (preparedPlan call plan))
      (preparedPlan call plan) := by
    intro complete
    have publishing : (publishingGate library call (preparedPlan call plan)).state =
        "publishing" := rfl
    rw [publishing] at complete
    exact absurd complete (by decide)
  apply Meets.bind
  apply Meets.write
  · exact ⟨sound_saveGate named unfinished, fun _ _ => id⟩
  have kept : (journal.saveGate (publishingGate library call (preparedPlan call plan))).Named
      library (publishingGate library call (preparedPlan call plan)) (preparedPlan call plan) :=
    named.congr rfl
  apply (meets_finishGeneration kept).mono (fun _ _ => id) _ fun _ _ => id
  exact fun result final ended => ⟨_, _, ended.1, ended.2, origin⟩

theorem Quiet.moves {before after : Journal} (quiet : Quiet library before after) :
    Moves library before after := quiet.1

theorem meets_startGeneration (sound : journal.Sound library) (execute : call.execute = true)
    (unused : journal.plans (planPath call.root) = none)
    (origin : PlannedBy call (preparedPlan call plan))
    (units : UnitsOf plan.publicationSelection plan.processedUnits) :
    Meets (startGeneration library call plan) journal (Quiet library)
        (fun result _ => Unstarted result) Anything ∨
      Meets (startGeneration library call plan) journal (Moves library)
        (Generates library fun _ plan => PlannedBy call plan) Anything := by
  have executes : (!call.execute) = false := by simp [execute]
  simp only [startGeneration, executes, Bool.false_eq_true, if_false]
  cases empty : plan.changes.isEmpty && plan.listingFrames.isEmpty with
  | true =>
    left
    rw [if_pos rfl]
    apply Meets.pure
    refine ⟨?_, rfl⟩
    simp only [notStarted]
    split <;> decide
  | false =>
    rw [if_neg Bool.false_ne_true]
    cases early : call.lateBeforePreparation with
    | true =>
      left
      rw [if_pos rfl]
      apply Meets.pure
      exact ⟨by simp only [late]; decide, rfl⟩
    | false =>
      rw [if_neg Bool.false_ne_true]
      have prepared : Meets
          (prepare call { plan with requestIdentitySha256 := call.requestIdentity }) journal
          (Quiet library)
          (fun prepared middle => prepared = preparedPlan call plan ∧
            middle.Sound library ∧ middle.plans (planPath call.root) = some prepared)
          Anything := meets_prepare sound unused
      cases afterwards : call.lateAfterPreparation with
      | true =>
        left
        apply Meets.bind
        apply prepared.mono (fun _ _ => id) _ fun _ _ => id
        rintro _ middle ⟨rfl, -, -⟩
        rw [if_pos rfl]
        apply Meets.pure
        exact ⟨by simp only [late]; decide, rfl⟩
      | false =>
        right
        apply Meets.bind
        apply prepared.mono (fun _ _ => Quiet.moves) _ fun _ _ => id
        rintro _ middle ⟨rfl, -, saved⟩
        rw [if_neg Bool.false_ne_true]
        exact meets_installGeneration origin units saved

theorem plannedBy_of_callPlan (planned : callPlan call = .ok plan) :
    PlannedBy call (preparedPlan call plan) ∧
      UnitsOf plan.publicationSelection plan.processedUnits := by
  obtain ⟨survey, surveyed, database, registry, selection, units, created, -, selected⟩ :=
    callPlan_eq_ok planned
  refine ⟨⟨database, registry, ⟨survey, surveyed, selection⟩, selected, created, rfl⟩, ?_⟩
  rw [selection, units]
  exact unitsOf_planUnits survey

theorem meets_planGeneration (sound : journal.Sound library) (execute : call.execute = true)
    (unused : journal.plans (planPath call.root) = none) :
    Meets (planGeneration library call) journal (Quiet library)
        (fun result _ => Unstarted result) Anything ∨
      Meets (planGeneration library call) journal (Moves library)
        (Generates library fun _ plan => PlannedBy call plan) Anything := by
  cases planned : callPlan call with
  | error message =>
    left
    apply Meets.bind
    apply Meets.examine _ fun _ _ => trivial
    intro plan found
    rw [planned] at found
    cases found
  | ok plan =>
    obtain ⟨origin, units⟩ := plannedBy_of_callPlan planned
    rcases meets_startGeneration sound execute unused origin units with quiet | moves
    · left
      apply Meets.bind
      apply Meets.examined (by exact planned)
      exact quiet
    · right
      apply Meets.bind
      apply Meets.examined (by exact planned)
      exact moves

def Journal.Met (journal : Journal) (gate : Gate) : Prop :=
  journal.gate = some gate ∧ gate.state ≠ "complete"

theorem meets_publishing {allows : Journal → Journal → Prop} {returns : Result → Journal → Prop}
    (meets : Meets (publishGeneration library call journal.gate) journal allows returns
      Anything) : Meets (publishIncremental library call) journal allows returns Anything := by
  apply Meets.bind
  apply Meets.examine _ fun _ _ => trivial
  intro _ _
  apply Meets.bind
  apply Meets.examine _ fun _ _ => trivial
  intro _ _
  apply Meets.bind
  apply Meets.read
  apply Meets.bind
  apply meets.mono (fun _ _ => id) _ fun _ _ => id
  intro result final returned
  apply Meets.bind
  apply Meets.examine _ fun _ _ => trivial
  intro _ _
  exact .pure returned

theorem moves_planGeneration (sound : journal.Sound library) (execute : call.execute = true)
    (unused : journal.plans (planPath call.root) = none) :
    Meets (planGeneration library call) journal (Moves library) Whatever Anything := by
  rcases meets_planGeneration sound execute unused with quiet | moves
  · exact quiet.mono (fun _ _ => Quiet.moves) (fun _ _ _ => trivial) fun _ _ => id
  · exact moves.mono (fun _ _ => id) (fun _ _ _ => trivial) fun _ _ => id

theorem moves_publishIncremental (sound : journal.Sound library) (execute : call.execute = true)
    (unused : journal.plans (planPath call.root) = none) :
    Meets (publishIncremental library call) journal (Moves library) Whatever Anything := by
  apply meets_publishing
  cases current : journal.gate with
  | none => exact moves_planGeneration sound execute unused
  | some gate =>
    by_cases complete : gate.state == "complete"
    · rw [publishGeneration, if_pos complete]
      exact moves_planGeneration sound execute unused
    · rw [publishGeneration, if_neg complete]
      exact (meets_recoverGeneration sound execute current).mono (fun _ _ => id)
        (fun _ _ _ => trivial) fun _ _ => id

end JobAgg.LivePublication
