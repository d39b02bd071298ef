import JobAgg.LivePublication.Recovery

/-! # What a published outcome belongs to

Runs of `publish_worker`, each stopped anywhere, on one output directory. A run that
reports `published` names the generation of the plan it made, or of the gate it met.
-/

namespace JobAgg.LivePublication

open Durable

variable {library : Library} {journal : Journal} {run : Invocation} {database : String}
  {result : Result} {later : List Journal}

def Origin (library : Library) (journal : Journal) (call : Call) (gate : Gate) (plan : Plan) :
    Prop :=
  (journal.Met gate ∧ journal.Named library gate plan) ∨
    ((∀ other, ¬ journal.Met other) ∧ PlannedBy call plan)

theorem meets_publishGeneration {call : Call} (sound : journal.Sound library)
    (execute : call.execute = true) (unused : journal.plans (planPath call.root) = none) :
    Meets (publishGeneration library call journal.gate) journal (Quiet library)
        (fun result _ => Unstarted result) Anything ∨
      Meets (publishGeneration library call journal.gate) journal (Moves library)
        (Generates library (Origin library journal call)) Anything := by
  have plans (absent : ∀ other, ¬ journal.Met other) :
      Meets (planGeneration library call) journal (Quiet library)
          (fun result _ => Unstarted result) Anything ∨
        Meets (planGeneration library call) journal (Moves library)
          (Generates library (Origin library journal call)) Anything := by
    refine (meets_planGeneration sound execute unused).imp_right fun moves => ?_
    apply moves.mono (fun _ _ => id) _ fun _ _ => id
    rintro _ _ ⟨gate, plan, finishes, named, origin⟩
    exact ⟨gate, plan, finishes, named, .inr ⟨absent, origin⟩⟩
  cases current : journal.gate with
  | none =>
    apply plans
    rintro other ⟨found, -⟩
    rw [current] at found
    cases found
  | some gate =>
    by_cases complete : gate.state = "complete"
    · rw [publishGeneration, if_pos (by simpa using complete)]
      apply plans
      rintro other ⟨found, unfinished⟩
      cases current.symm.trans found
      exact unfinished complete
    · right
      rw [publishGeneration, if_neg (by simpa using complete)]
      apply (meets_recoverGeneration sound execute current).mono (fun _ _ => id) _ fun _ _ => id
      rintro _ _ ⟨other, plan, finishes, named, rfl, found⟩
      exact ⟨other, plan, finishes, named, .inl ⟨⟨current, complete⟩, found⟩⟩

theorem meets_publishIncremental {call : Call} (sound : journal.Sound library)
    (execute : call.execute = true) (unused : journal.plans (planPath call.root) = none) :
    Meets (publishIncremental library call) journal (Quiet library)
        (fun result _ => Unstarted result) Anything ∨
      Meets (publishIncremental library call) journal (Moves library)
        (Generates library (Origin library journal call)) Anything := by
  exact (meets_publishGeneration sound execute unused).imp meets_publishing meets_publishing

/-- The plan path of the generation a run may prepare is not in use. -/
def Invocation.Fresh (run : Invocation) (journal : Journal) : Prop :=
  journal.plans (planPath (generationDir run.stateDir run.uuid)) = none

/-- No publication was made. -/
def emptyJournal : Journal := ⟨none, fun _ => none, fun _ => none⟩

/-- The states that runs leave, stopped at any step or not at all. -/
inductive Reached (library : Library) : Journal → Prop
  | empty : Reached library emptyJournal
  | run {journal : Journal} (run : Invocation) (states : List Journal) :
      Reached library journal → run.Fresh journal → Stopped (runWorker library run) journal states →
      Reached library (states.getLastD journal)

theorem meets_publish (sound : journal.Sound library) (fresh : run.Fresh journal)
    (recovered : Option (Binding × Option Gate)) :
    Meets (publish library run database recovered) journal (Moves library)
      Whatever Anything := by
  have called : Meets (publishIncremental library (run.call library database)) journal
      (Moves library) Whatever Anything := moves_publishIncremental sound rfl fresh
  match recovered with
  | none => exact called
  | some (binding, none) => exact called
  | some (binding, some completed) =>
    rw [publish]
    cases completed.receipt with
    | none => exact .fail trivial
    | some receipt => exact .pure trivial

theorem meets_runWorker (sound : journal.Sound library) (fresh : run.Fresh journal) :
    Meets (runWorker library run) journal (Moves library) Whatever Anything := by
  apply Meets.bind
  apply Meets.examine _ fun _ _ => trivial
  intro _ _
  apply Meets.bind
  apply Meets.examine _ fun _ _ => trivial
  intro database _
  apply Meets.bind
  apply Meets.examine _ fun _ _ => trivial
  intro _ _
  apply Meets.bind
  apply Meets.examine _ fun _ _ => trivial
  intro recovered _
  apply Meets.bind
  apply (meets_publish sound fresh recovered).mono (fun _ _ => id) _ fun _ _ => id
  intro result final _
  apply Meets.bind
  apply Meets.examine _ fun _ _ => trivial
  intro _ _
  apply Meets.bind
  apply Meets.examine _ fun _ _ => trivial
  intro _ _
  apply Meets.bind
  apply Meets.examine _ fun _ _ => trivial
  intro _ _
  exact .pure trivial

theorem sound_of_chain {states : List Journal} (sound : journal.Sound library)
    (chain : List.IsChain (Moves library) (journal :: states)) :
    (states.getLastD journal).Sound library := by
  induction states generalizing journal with
  | nil => exact sound
  | cons next rest induction =>
    rw [List.isChain_cons_cons] at chain
    rw [List.getLastD_cons]
    exact induction chain.1.1 chain.2

theorem Reached.sound (reached : Reached library journal) : journal.Sound library := by
  induction reached with
  | empty =>
    intro gate found
    cases found
  | run run states _ fresh stopped induction =>
    exact sound_of_chain induction (stopped.isChain (meets_runWorker induction fresh))

/-! ## The end of a run -/

def Invocation.selection (run : Invocation) : Option Json :=
  optional "publication_selection" run.request

/-- Does the request want a bound generation recovered? -/
def Invocation.recovers (run : Invocation) : Bool :=
  Json.get "recover_publication" run.request == .bool true

/-- A plan made from the effective database, the registry and the selection of a request. -/
structure PlannedFor (run : Invocation) (database : String) (plan : Plan) : Prop where
  workerDatabase : plan.workerDatabase = database
  registry : plan.registrySha256 = run.registrySha256
  selection : plan.publicationSelection = run.selection

def GenerationOf (run : Invocation) (database : String) (final : Journal) (result : Result) :
    Prop :=
  if run.recovers then
    ∃ binding, run.binding = some binding ∧ result.generationId = some binding.generationId
  else ∃ path plan, result.planPath = some path ∧ final.plans path = some plan ∧
    plan.generationId = result.generationId ∧ PlannedFor run database plan

/-- A publication belongs to its request, with all the units it processed. -/
structure Belongs (run : Invocation) (database : String) (final : Journal) (result : Result) :
    Prop where
  generation : GenerationOf run database final result
  units : UnitsOf run.selection result.processedUnits

/-- What a request finds: the gate of a bound generation holds units of its selection, an
unfinished gate was planned for it, and otherwise the database it plans from seals the
selection it names. -/
def Matches (run : Invocation) (database : String) (journal : Journal) : Prop :=
  if run.recovers then
    ∀ gate plan, journal.gate = some gate → journal.plans gate.planPath = some plan →
      UnitsOf run.selection plan.processedUnits
  else
    (∀ gate plan, journal.Met gate → journal.plans gate.planPath = some plan →
      PlannedFor run database plan) ∧
    ((∀ gate, ¬ journal.Met gate) →
      ∀ survey, run.survey = .ok survey → survey.selection = run.selection)

theorem ran_runWorker {reported : Report}
    (ran : Ran (runWorker library run) journal later reported) :
    ∃ database recovered result kept, checkRequest run = .ok database ∧
      recovery library run database journal = .ok recovered ∧
      Ran (publish library run database recovered) journal later result ∧
      keepBoundary run result = .ok kept ∧ reported = report run kept := by
  simp only [runWorker, ran_bind, ran_examine, ran_pure] at ran
  obtain ⟨_, _, _, ⟨rfl, -⟩, ⟨_, _, database, ⟨rfl, checked⟩, ⟨_, _, _, ⟨rfl, -⟩,
    ⟨_, _, recovered, ⟨rfl, recovering⟩, ⟨before, _, result, published, ⟨_, _, _, ⟨rfl, -⟩,
      ⟨_, _, kept, ⟨rfl, keeping⟩, ⟨_, _, _, ⟨rfl, -⟩, ⟨rfl, rfl⟩, rfl⟩, rfl⟩, rfl⟩,
      rfl⟩, rfl⟩, rfl⟩, rfl⟩, rfl⟩ := ran
  refine ⟨database, recovered, result, kept, checked, recovering, ?_, keeping, rfl⟩
  simpa using published

theorem keepBoundary_eq_ok {kept : Result} (keeping : keepBoundary run result = .ok kept) :
    kept.status = result.status ∧ kept.generationId = result.generationId ∧
      kept.planPath = result.planPath ∧ kept.processedUnits = result.processedUnits := by
  unfold keepBoundary at keeping
  split at keeping
  · rw [pure_eq_ok] at keeping
    rw [← keeping]
    exact ⟨rfl, rfl, rfl, rfl⟩
  · split at keeping
    · rw [bind_eq_ok] at keeping
      obtain ⟨current, -, keeping⟩ := keeping
      split at keeping
      · rw [pure_eq_ok] at keeping
        rw [← keeping]
        exact ⟨rfl, rfl, rfl, rfl⟩
      · rw [pure_eq_ok] at keeping
        rw [← keeping]
        exact ⟨rfl, rfl, rfl, rfl⟩
    · rw [pure_eq_ok] at keeping
      rw [← keeping]
      exact ⟨rfl, rfl, rfl, rfl⟩

theorem recovery_eq_ok {recovered : Option (Binding × Option Gate)}
    (recovering : recovery library run database journal = .ok recovered) :
    (run.recovers = false ∧ recovered = none) ∨
      (run.recovers = true ∧ ∃ binding completed gate plan,
        recovered = some (binding, completed) ∧ run.binding = some binding ∧
        Validated library run.request database run.outputDir run.stateDir journal binding
          completed gate plan) := by
  unfold recovery at recovering
  cases recovers : Json.get "recover_publication" run.request == .bool true with
  | false =>
    rw [recovers, if_neg Bool.false_ne_true, pure_eq_ok] at recovering
    exact .inl ⟨recovers, recovering.symm⟩
  | true =>
    rw [recovers, if_pos rfl, bind_eq_ok] at recovering
    obtain ⟨⟨binding, completed⟩, validated, returned⟩ := recovering
    rw [pure_eq_ok] at returned
    obtain ⟨given, gate, plan, shown⟩ := validateRecoveryGeneration_eq_ok validated
    exact .inr ⟨recovers, binding, completed, gate, plan, returned.symm, given, shown⟩

/-- What a run may publish: the generation of the gate it finds, when that is bound or
unfinished, or one it planned. -/
def Source (library : Library) (run : Invocation) (database : String) (journal : Journal)
    (gate : Gate) (plan : Plan) : Prop :=
  if run.recovers then
    journal.gate = some gate ∧ journal.Named library gate plan ∧
      ∃ binding, run.binding = some binding ∧ gate.generationId = binding.generationId
  else Origin library journal (run.call library database) gate plan

/-- A run leaves the gate alone, or publishes. -/
def Ended (library : Library) (run : Invocation) (database : String) (journal : Journal)
    (later : List Journal) (result : Result) : Prop :=
  (Unstarted result ∧ ∀ state ∈ later, state.gate = journal.gate) ∨
    ∃ gate plan, Finishes gate plan result ∧ (later.getLastD journal).Named library gate plan ∧
      Source library run database journal gate plan

theorem gate_of_quiet (chain : List.IsChain (Quiet library) (journal :: later)) :
    ∀ state ∈ later, state.gate = journal.gate := by
  induction later generalizing journal with
  | nil =>
    intro state absent
    cases absent
  | cons next rest induction =>
    rw [List.isChain_cons_cons] at chain
    intro state inLater
    cases inLater with
    | head => exact chain.1.2
    | tail _ inRest => rw [induction chain.2 state inRest, chain.1.2]

theorem ended_publishIncremental (sound : journal.Sound library) (fresh : run.Fresh journal)
    (source : ∀ gate plan, Origin library journal (run.call library database) gate plan →
      Source library run database journal gate plan)
    (ran : Ran (publishIncremental library (run.call library database)) journal later result) :
    Ended library run database journal later result := by
  have execute : (run.call library database).execute = true := rfl
  rcases meets_publishIncremental sound execute fresh with quiet | moves
  · obtain ⟨chain, unstarted⟩ := quiet.ran ran
    exact .inl ⟨unstarted, gate_of_quiet chain⟩
  · obtain ⟨-, gate, plan, finishes, named, origin⟩ := moves.ran ran
    exact .inr ⟨gate, plan, finishes, named, source gate plan origin⟩

theorem ended_publish (sound : journal.Sound library) (fresh : run.Fresh journal)
    {recovered : Option (Binding × Option Gate)}
    (recovering : recovery library run database journal = .ok recovered)
    (ran : Ran (publish library run database recovered) journal later result) :
    Ended library run database journal later result := by
  rcases recovery_eq_ok recovering with ⟨own, rfl⟩ |
    ⟨recovers, binding, completed, gate, plan, rfl, given, validated⟩
  · apply ended_publishIncremental sound fresh _ ran
    intro gate plan origin
    rwa [Source, own, if_neg Bool.false_ne_true]
  · have current := validated.documents.current
    have bound : ∃ binding, run.binding = some binding ∧
        gate.generationId = binding.generationId := ⟨binding, given, validated.generationId⟩
    have same := validated.completed
    obtain ⟨named, saved, receipted⟩ := sound gate current
    by_cases complete : gate.state = "complete"
    · rw [if_pos complete] at same
      obtain ⟨receipt, received, status, units⟩ := receipted complete
      simp only [same, publish, received, ran_pure] at ran
      obtain ⟨rfl, rfl⟩ := ran
      refine .inr ⟨gate, named, ⟨.inl status, rfl, rfl, fun _ => units, rfl⟩, saved, ?_⟩
      rw [Source, recovers, if_pos rfl]
      exact ⟨current, saved, bound⟩
    · rw [if_neg complete] at same
      rw [same] at ran
      apply ended_publishIncremental sound fresh _ ran
      rintro other plan (⟨⟨found, -⟩, saved⟩ | ⟨absent, -⟩)
      · cases current.symm.trans found
        rw [Source, recovers, if_pos rfl]
        exact ⟨current, saved, bound⟩
      · exact absurd ⟨current, complete⟩ (absent gate)

theorem generationOf_iff {final : Journal} {gate : Gate} {plan : Plan}
    (own : run.recovers = false) (finishes : Finishes gate plan result)
    (named : final.Named library gate plan) :
    GenerationOf run database final result ↔ PlannedFor run database plan := by
  rw [GenerationOf, own, if_neg Bool.false_ne_true]
  constructor
  · rintro ⟨path, other, at_, found, -, planned⟩
    rw [finishes.planPath, Option.some.injEq] at at_
    rw [← at_, named.saved, Option.some.injEq] at found
    rwa [found]
  · intro planned
    refine ⟨gate.planPath, plan, finishes.planPath, named.saved, ?_, planned⟩
    rw [finishes.generationId, named.generationId]

theorem belongs_iff {gate : Gate} {plan : Plan} (finishes : Finishes gate plan result)
    (published : result.status = "published")
    (named : (later.getLastD journal).Named library gate plan)
    (source : Source library run database journal gate plan) :
    Belongs run database (later.getLastD journal) result ↔ Matches run database journal := by
  have units := finishes.units published
  cases recovers : run.recovers with
  | true =>
    rw [Source, recovers, if_pos rfl] at source
    obtain ⟨current, saved, binding, given, same⟩ := source
    rw [Matches, recovers, if_pos rfl]
    constructor
    · intro belongs other found at_ foundPlan
      cases current.symm.trans at_
      cases saved.saved.symm.trans foundPlan
      rw [← units]
      exact belongs.units
    · intro matching
      refine ⟨?_, ?_⟩
      · rw [GenerationOf, recovers, if_pos rfl]
        exact ⟨binding, given, by rw [finishes.generationId, same]⟩
      · rw [units]
        exact matching gate plan current saved.saved
  | false =>
    rw [Source, recovers, if_neg Bool.false_ne_true] at source
    have belongs : Belongs run database (later.getLastD journal) result ↔
        PlannedFor run database plan := by
      rw [← generationOf_iff recovers finishes named]
      refine ⟨Belongs.generation, fun generation => ⟨generation, ?_⟩⟩
      rw [units, ← ((generationOf_iff recovers finishes named).mp generation).selection]
      exact named.units
    rw [belongs, Matches, recovers, if_neg Bool.false_ne_true]
    rcases source with ⟨met, saved⟩ | ⟨absent, planned⟩
    · constructor
      · intro planned
        refine ⟨fun other found otherMet at_ => ?_, fun absent => absurd met (absent gate)⟩
        cases met.1.symm.trans otherMet.1
        cases saved.saved.symm.trans at_
        exact planned
      · exact fun matching => matching.1 gate plan met saved.saved
    · obtain ⟨survey, surveyed, selection⟩ := planned.survey
      constructor
      · intro plannedFor
        refine ⟨fun other _ met => absurd met (absent other), fun _ other found => ?_⟩
        cases surveyed.symm.trans found
        rw [← selection, plannedFor.selection]
      · rintro ⟨-, seals⟩
        exact ⟨planned.workerDatabase, planned.registry,
          selection.trans (seals absent survey surveyed)⟩

theorem reportStatus_eq_published {status : String}
    (published : reportStatus status = "published") : status = "published" := by
  unfold reportStatus at published
  split at published
  · assumption
  · split at published
    · exact absurd published (by decide)
    · split at published <;> exact absurd published (by decide)

theorem reportStatus_unstarted {status : String}
    (unstarted : reportStatus status = "noop" ∨ reportStatus status = "deferred") :
    status = "no_changes" ∨ status = "deferred" := by
  unfold reportStatus at unstarted
  split at unstarted
  · exact absurd unstarted (by decide)
  · split at unstarted
    · left
      assumption
    · split at unstarted
      · right
        assumption
      · exact absurd unstarted (by decide)

/-- A run that ends `published` publishes the generation its request asks for exactly when
it finds what its request matches, and a run that ends `noop` or `deferred` installs no
generation. -/
theorem Reached.outcome_belongs_iff (reached : Reached library journal)
    (fresh : run.Fresh journal) {reported : Report}
    (ran : Ran (runWorker library run) journal later reported) :
    ∃ database, checkRequest run = .ok database ∧
      (reported.status = "published" →
        (Belongs run database (later.getLastD journal) reported.publication ↔
          Matches run database journal)) ∧
      (reported.status = "noop" ∨ reported.status = "deferred" →
        ∀ state ∈ later, state.gate = journal.gate) := by
  obtain ⟨database, recovered, result, kept, checked, recovering, published, keeping, rfl⟩ :=
    ran_runWorker ran
  obtain ⟨status, generationId, planPath, units⟩ := keepBoundary_eq_ok keeping
  have ended := ended_publish reached.sound fresh recovering published
  refine ⟨database, checked, fun publishes => ?_, fun unstarted => ?_⟩
  · have publishedResult := reportStatus_eq_published publishes
    rw [status] at publishedResult
    rcases ended with ⟨unstarted, -⟩ | ⟨gate, plan, finishes, named, source⟩
    · exact absurd publishedResult unstarted.status.1
    · rw [← belongs_iff finishes publishedResult named source]
      have same : GenerationOf run database (later.getLastD journal) kept ↔
          GenerationOf run database (later.getLastD journal) result := by
        simp only [GenerationOf, generationId, planPath]
      constructor
      · intro belongs
        exact ⟨same.mp belongs.generation, by rw [← units]; exact belongs.units⟩
      · intro belongs
        exact ⟨same.mpr belongs.generation, by
          show UnitsOf _ kept.processedUnits
          rw [units]
          exact belongs.units⟩
  · have unpublished := reportStatus_unstarted unstarted
    rw [status] at unpublished
    rcases ended with ⟨-, untouched⟩ | ⟨gate, plan, finishes, -⟩
    · exact untouched
    · rcases finishes.status with other | other
      · rw [other] at unpublished
        exact absurd unpublished (by decide)
      · rw [other] at unpublished
        exact absurd unpublished (by decide)

/-! ## A gate of another request -/

/-- A digest of a plan is its generation, and of a request its database. Times are counted
from the first of September 2026. -/
def plainLibrary : Library :=
  { planDigest := fun plan => plan.generationId.getD ""
    digest := fun
      | .object fields =>
        match Json.get "worker_database" fields with
        | .string path => path
        | _ => ""
      | _ => ""
    fromisoformat := fun text =>
      if text = "2026-09-01T00:00:00+00:00" then some 0
      else if text = "2026-09-01T01:00:00+00:00" then some 3600000000
      else none }

def plainRequest (database : String) : Fields :=
  [("schema_version", .number "1"), ("run_id", .string database),
   ("worker_database", .string database), ("shared_lock_path", .string "/owner.lock"),
   ("registry_sha256", .string "registry"), ("expected_source_ids", .array [.string "source"]),
   ("generated_at", .string "2026-09-01T00:00:00+00:00"),
   ("deadline_at", .string "2026-09-01T01:00:00+00:00")]

def plainRun (database uuid : String) : Invocation :=
  { request := plainRequest database, binding := none, workerDatabase := database
    registrySha256 := "registry", outputDir := "/live", stateDir := "/state"
    sharedLock := "/owner.lock", enabledSources := [.string "source"], lease := none
    admission := .ok (), runtimeContract := .ok (), snapshotFiles := .ok ()
    selectionCurrent := .ok (), targets := .ok ()
    survey := .ok
      { selection := none, observations := ["job"], reach := 1
        verdict := fun _ => .change ⟨"job", "source"⟩ [], listingFrames := []
        listingRejected := [], listingComplete := true, processedSourceIds := []
        observationSetSha256 :=
          "0123456789abcdef0123456789abcdef0123456789abcdef0123456789abcdef" }
    boundaryVerified := .ok false, boundaryCurrent := .ok false, preparation := .ok ()
    lateBeforePreparation := false, lateAfterPreparation := false, uuid, createdAt := 1
    startedAt := 2
    work := { databases := .ok true, exports := .ok none, readback := .ok none, completedAt := 3 }
    settlement := .ok (), finalContract := .ok () }

theorem plainRun_ran (journal : Journal) (database uuid : String)
    (ends : (runWorker plainLibrary (plainRun database uuid) journal).outcome.toOption.map
      Report.status = some "published") :
    ∃ reported, Ran (runWorker plainLibrary (plainRun database uuid)) journal
      (runWorker plainLibrary (plainRun database uuid) journal).later reported ∧
      reported.status = "published" := by
  cases outcome : (runWorker plainLibrary (plainRun database uuid) journal).outcome with
  | error message =>
    rw [outcome] at ends
    cases ends
  | ok reported =>
    rw [outcome] at ends
    exact ⟨reported, by rw [Ran, ← outcome], Option.some.inj ends⟩

/-- The first run of an output directory publishes for its request. -/
theorem Reached.outcome_belongs_plain : ∃ later reported,
    Ran (runWorker plainLibrary (plainRun "/worker-1.sqlite3" "1")) emptyJournal later reported ∧
      reported.status = "published" ∧
      Belongs (plainRun "/worker-1.sqlite3" "1") "/worker-1.sqlite3"
        (later.getLastD emptyJournal) reported.publication := by
  obtain ⟨reported, ran, published⟩ :=
    plainRun_ran emptyJournal "/worker-1.sqlite3" "1" (by decide)
  obtain ⟨database, checked, belongs, -⟩ := Reached.empty.outcome_belongs_iff rfl ran
  have same : checkRequest (plainRun "/worker-1.sqlite3" "1") = .ok "/worker-1.sqlite3" := by
    decide
  cases same.symm.trans checked
  refine ⟨_, reported, ran, published, (belongs published).mpr ?_⟩
  rw [Matches, if_neg (by decide)]
  refine ⟨fun gate plan met => ?_, fun _ survey surveyed => ?_⟩
  · cases met.1
  · cases surveyed
    decide

/-- The first run, stopped when its gate is installed. -/
def metJournal : Journal :=
  ((runWorker plainLibrary (plainRun "/worker-1.sqlite3" "1") emptyJournal).later.take 2).getLastD
    emptyJournal

/-- A run for another worker database finishes the generation it meets and reports it as
its own. -/
theorem Reached.outcome_not_always_belongs : ¬ ∀ (library : Library) (journal : Journal)
    (run : Invocation) (database : String) (later : List Journal) (reported : Report),
    Reached library journal → run.Fresh journal → checkRequest run = .ok database →
      Ran (runWorker library run) journal later reported → reported.status = "published" →
      Belongs run database (later.getLastD journal) reported.publication := by
  intro always
  have reached : Reached plainLibrary metJournal :=
    .run (plainRun "/worker-1.sqlite3" "1") _ .empty rfl (List.take_prefix 2 _)
  obtain ⟨reported, ran, published⟩ :=
    plainRun_ran metJournal "/worker-2.sqlite3" "2" (by decide)
  have unused : (metJournal.plans (planPath (generationDir "/state" "2"))).isNone := by
    decide
  have belongs := always plainLibrary metJournal (plainRun "/worker-2.sqlite3" "2")
    "/worker-2.sqlite3" _ reported reached (Option.isNone_iff_eq_none.mp unused)
    (by decide) ran published
  have own : (plainRun "/worker-2.sqlite3" "2").recovers = false := by decide
  have generation := belongs.generation
  rw [GenerationOf, own, if_neg Bool.false_ne_true] at generation
  obtain ⟨path, plan, named, found, -, planned⟩ := generation
  have other : (do
      let reported ← (runWorker plainLibrary (plainRun "/worker-2.sqlite3" "2")
        metJournal).outcome.toOption
      let path ← reported.publication.planPath
      let plan ← ((runWorker plainLibrary (plainRun "/worker-2.sqlite3" "2")
        metJournal).later.getLastD metJournal).plans path
      pure plan.workerDatabase) = some "/worker-1.sqlite3" := by decide
  have outcome : (runWorker plainLibrary (plainRun "/worker-2.sqlite3" "2") metJournal).outcome =
      .ok reported := congrArg Trace.outcome ran
  rw [outcome] at other
  simp only [Except.toOption, Option.bind_eq_bind, Option.bind_some, named, found,
    planned.workerDatabase] at other
  exact absurd other (by decide)

end JobAgg.LivePublication
