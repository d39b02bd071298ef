import JobAgg.JobDatabase.Advance
import JobAgg.SyncSource.SyncSource

/-! # Only a complete list retires vacancies

Outside the listed keys, nothing but the two retiring writes changes a status or
a count, and these run only after a list that is known to be complete.
-/

namespace JobAgg.SyncSource

open JobDatabase

def outside (listed : List String) (database : Database) : List (String × String × ℕ) :=
  (database.jobs.filter fun row => decide (row.jobKey ∉ listed)).map fun row =>
    (row.jobKey, row.status, row.missingRunCount)

section Outside

variable {environment : Environment} {clock : Clock} {listed : List String}
  {database next : Database}

theorem outside_upsertJob {now : Instant} {job : JobRecord} {result : UpsertResult}
    (upserted : database.upsertJob environment.derivations now job = .ok (next, result))
    (inList : environment.derivations.identityKey job ∈ listed) :
    outside listed next = outside listed database := by
  rcases upsertJob_eq_ok upserted with ⟨stored, _, written⟩
  unfold outside
  cases written with
  | inserted _ jobs _ _ =>
    have key := (reviewed_keeps (insertedRow (environment.derivations.identityKey job)
      (stored.normalizedHash.getD "") stored) environment.derivations stored).1
    rw [jobs, List.filter_append, List.filter_cons_of_neg, List.filter_nil, List.append_nil]
    rw [key]
    exact ne_true_of_eq_false (decide_eq_false (not_not.mpr inList))
  | refreshed row _ jobs _ _ _ =>
    rw [jobs, filter_updateWhere_of_forall_not]
    intro old _ selected
    have key := (reviewed_keeps (old.refreshed (stored.normalizedHash.getD "") stored)
      environment.derivations stored).1
    have same : old.jobKey = environment.derivations.identityKey job := by simpa using selected
    have listedKey : old.jobKey ∈ listed := same ▸ inList
    rw [key]
    exact ⟨decide_eq_false (not_not.mpr listedKey), decide_eq_false (not_not.mpr listedKey)⟩

theorem outside_upsertJobs {jobs : List (Instant × JobRecord)}
    (upserted : database.upsertJobs environment.derivations jobs = .ok next)
    (inList : ∀ entry ∈ jobs, environment.derivations.identityKey entry.2 ∈ listed) :
    outside listed next = outside listed database := by
  induction jobs generalizing database with
  | nil =>
    simp only [Database.upsertJobs, pure_eq_ok] at upserted
    rw [upserted]
  | cons entry jobs induction =>
    rcases bind_eq_ok.mp upserted with ⟨⟨middle, result⟩, first, rest⟩
    rw [induction rest fun other member => inList other (List.mem_cons_of_mem _ member)]
    exact outside_upsertJob first (inList entry List.mem_cons_self)

theorem outside_recordListingObservation {sourceId : String} {observedJobKeys : List String}
    {observedAt : Instant} {inventoryComplete : Option Bool} :
    outside listed (recordListingObservation environment sourceId observedJobKeys observedAt
      inventoryComplete database) = outside listed database := by
  unfold outside recordListingObservation
  dsimp only
  rw [filter_updateWhere]
  · apply map_updateWhere_of_stable
    intro row _ _
    rfl
  · intro row _ _
    rfl

theorem outside_persistCompletedDetail {listingJob detailJob : JobRecord}
    (persisted : environment.persistCompletedDetail clock database listingJob detailJob = .ok next)
    (inList : environment.derivations.identityKey listingJob ∈ listed) :
    outside listed next = outside listed database := by
  unfold Environment.persistCompletedDetail at persisted
  rcases require_bind_eq_ok.mp persisted with ⟨sameKey, rest⟩
  rcases bind_eq_ok.mp rest with ⟨⟨middle, result⟩, upserted, done⟩
  rw [pure_eq_ok] at done
  rw [← done]
  apply outside_upsertJob upserted
  simpa [beq_iff_eq.mp sameKey] using inList

structure DetailPhase.Within (environment : Environment) (listed : List String)
    (database : Database) (phase : DetailPhase) : Prop where
  kept : outside listed phase.database = outside listed database
  jobs : ∀ job ∈ phase.jobs, environment.derivations.identityKey job ∈ listed

variable {phase : DetailPhase} {settings : DetailSettings} {source : OrganizationSource}

theorem DetailPhase.Within.keep {job : JobRecord}
    (within : phase.Within environment listed database)
    (inList : environment.derivations.identityKey job ∈ listed) :
    (phase.keep job).Within environment listed database := by
  refine ⟨within.kept, ?_⟩
  intro other member
  rcases List.mem_append.mp member with old | added
  · exact within.jobs other old
  · exact List.mem_singleton.mp added ▸ inList

theorem DetailPhase.Within.of_same {other : DetailPhase}
    (within : phase.Within environment listed database)
    (sameDatabase : other.database = phase.database) (sameJobs : other.jobs = phase.jobs) :
    other.Within environment listed database :=
  ⟨sameDatabase ▸ within.kept, sameJobs ▸ within.jobs⟩

theorem DetailPhase.Within.stopAtLimit (within : phase.Within environment listed database) :
    (phase.stopAtLimit settings source).Within environment listed database := by
  unfold DetailPhase.stopAtLimit
  split
  · exact within
  · split
    · exact within.of_same rfl rfl
    · exact within

theorem DetailPhase.Within.openBreaker (within : phase.Within environment listed database) :
    (phase.openBreaker source).Within environment listed database := by
  unfold DetailPhase.openBreaker
  split
  · exact within.of_same rfl rfl
  · exact within

theorem DetailPhase.Within.failRaised {job : JobRecord} {label : String} {error : RaisedError}
    (within : phase.Within environment listed database)
    (inList : environment.derivations.identityKey job ∈ listed) :
    (phase.failRaised settings source job label error).Within environment listed database := by
  have failed : (phase.fail (s!"{label} detail refresh failed: {error.text}")).Within environment
      listed database := within.of_same rfl rfl
  unfold DetailPhase.failRaised
  dsimp only
  split
  · apply DetailPhase.Within.keep _ inList
    apply DetailPhase.Within.stopAtLimit
    exact failed.of_same rfl rfl
  · exact failed.stopAtLimit.openBreaker.keep inList

theorem DetailPhase.Within.attempt {fetchDetail : ℕ → JobRecord → DetailOutcome} {job : JobRecord}
    (within : phase.Within environment listed database)
    (inList : environment.derivations.identityKey job ∈ listed) :
    (phase.attempt environment settings source clock fetchDetail job).Within environment listed
      database := by
  have tried : ({ phase with attempts := phase.attempts + 1 } : DetailPhase).Within environment
      listed database := within.of_same rfl rfl
  unfold DetailPhase.attempt
  dsimp only
  split
  · split
    · apply DetailPhase.Within.keep _ inList
      apply DetailPhase.Within.stopAtLimit
      exact tried.of_same rfl rfl
    · apply DetailPhase.Within.keep _ inList
      apply DetailPhase.Within.openBreaker
      exact tried.of_same rfl rfl
  · split
    · split
      · rename_i stored persisted
        exact ⟨(outside_persistCompletedDetail persisted inList).trans within.kept, within.jobs⟩
      · exact tried.failRaised inList
    · apply DetailPhase.Within.keep _ inList
      apply DetailPhase.Within.openBreaker
      exact tried.of_same rfl rfl
  · apply DetailPhase.Within.keep _ inList
    exact tried.of_same rfl rfl
  · exact tried.failRaised inList

/-- What a turn leaves, also when it raises. -/
def Within (environment : Environment) (listed : List String) (database : Database) :
    Except Raised DetailPhase → Prop
  | .ok phase => phase.Within environment listed database
  | .error raised => outside listed raised.database = outside listed database

theorem within_turn {queue : DetailQueue}
    {fetchDetail : Option (ℕ → JobRecord → DetailOutcome)} {job : JobRecord}
    (within : phase.Within environment listed database)
    (inList : environment.derivations.identityKey job ∈ listed) :
    Within environment listed database
      (phase.turn environment settings source clock queue fetchDetail job) := by
  have skipped : (phase.skip job).Within environment listed database :=
    DetailPhase.Within.keep (within.of_same rfl rfl) inList
  unfold DetailPhase.turn
  split
  · exact within.keep inList
  · split
    · split
      · rename_i stored persisted
        exact ⟨(outside_persistCompletedDetail persisted inList).trans within.kept, within.jobs⟩
      · exact within.kept
    · split
      · exact skipped
      · split
        · exact skipped
        · exact within.attempt inList

theorem within_run {queue : DetailQueue}
    {fetchDetail : Option (ℕ → JobRecord → DetailOutcome)} {jobs : List JobRecord}
    (within : phase.Within environment listed database)
    (inList : ∀ job ∈ jobs, environment.derivations.identityKey job ∈ listed) :
    Within environment listed database
      (phase.run environment settings source clock queue fetchDetail jobs) := by
  induction jobs generalizing phase with
  | nil => exact within
  | cons job jobs induction =>
    have turned : Within environment listed database
        (phase.turn environment settings source clock queue fetchDetail job) :=
      within_turn within (inList job List.mem_cons_self)
    unfold DetailPhase.run
    rw [List.foldlM_cons]
    cases outcome : phase.turn environment settings source clock queue fetchDetail job with
    | error raised =>
      rw [outcome] at turned
      exact turned
    | ok next =>
      rw [outcome] at turned
      exact induction turned fun other member => inList other (List.mem_cons_of_mem _ member)

end Outside

section ListPhase

variable {environment : Environment} {clock : Clock} {request : Request} {store : Store}

theorem prepareListBreakerForRun_database {sourceId : String} {now : Instant} :
    (store.prepareListBreakerForRun sourceId now).1.database = store.database := by
  unfold Store.prepareListBreakerForRun
  dsimp only
  split
  · rfl
  · split <;> rfl

theorem recordListBreakerSuccess_database {source : OrganizationSource}
    {diagnostics : SourceRunDiagnostics} {jobs : List JobRecord} :
    (store.recordListBreakerSuccess source diagnostics jobs).1.database = store.database := by
  unfold Store.recordListBreakerSuccess
  dsimp only
  split <;> rfl

theorem recordListBreakerSuccess_paginationComplete {source : OrganizationSource}
    {diagnostics : SourceRunDiagnostics} {jobs : List JobRecord} :
    (store.recordListBreakerSuccess source diagnostics jobs).2.paginationComplete =
      diagnostics.paginationComplete := by
  unfold Store.recordListBreakerSuccess
  dsimp only
  split <;> rfl

theorem recordListBreakerSuccess_scope {source : OrganizationSource}
    {diagnostics : SourceRunDiagnostics} {jobs : List JobRecord} :
    (store.recordListBreakerSuccess source diagnostics jobs).2.scopeValidationStatus =
      diagnostics.scopeValidationStatus := by
  unfold Store.recordListBreakerSuccess
  dsimp only
  split <;> rfl

theorem fromAdapter_paginationComplete {sourceId : String}
    {reported : Option SourceRunDiagnostics} :
    (SourceRunDiagnostics.fromAdapter sourceId reported).paginationComplete =
      reported.bind SourceRunDiagnostics.paginationComplete := by
  cases reported <;> rfl

theorem capJobsForPolicy_sublist {result : SyncResult} {cap : ℤ} {jobs : List JobRecord} :
    ∀ job ∈ (result.capJobsForPolicy cap jobs).2, job ∈ jobs := by
  unfold SyncResult.capJobsForPolicy
  split
  · exact fun job member => member
  · exact fun job member => List.mem_of_mem_take member

theorem finalizeListDiagnostics_scope {result : SyncResult} {sourceId : String}
    {requires : Bool} {jobs : List JobRecord} :
    (result.finalizeListDiagnostics sourceId requires
      jobs).diagnostics.scopeValidationStatus.isSome = true := by
  have judged : (SyncResult.judgeList result.defaultListDiagnostics requires
      jobs).scopeValidationStatus.isSome = true := by
    have defaulted : result.defaultListDiagnostics.scopeValidationStatus.isSome = true := by
      simp [SyncResult.defaultListDiagnostics]
    unfold SyncResult.judgeList
    split
    · split
      · exact defaulted
      · split <;> exact defaulted
    · split
      · exact defaulted
      · split <;> exact defaulted
  unfold SyncResult.finalizeListDiagnostics
  dsimp only
  split <;> exact judged

theorem finalizeListDiagnostics_paginationComplete {result : SyncResult} {sourceId : String}
    {requires : Bool} {jobs : List JobRecord} :
    (result.finalizeListDiagnostics sourceId requires jobs).diagnostics.paginationComplete =
      if result.errors.isEmpty then result.diagnostics.paginationComplete.or (some true)
      else result.diagnostics.paginationComplete := by
  have judged : (SyncResult.judgeList result.defaultListDiagnostics requires jobs).paginationComplete =
      result.defaultListDiagnostics.paginationComplete := by
    unfold SyncResult.judgeList
    split
    · split
      · rfl
      · split <;> rfl
    · split
      · rfl
      · split <;> rfl
  unfold SyncResult.finalizeListDiagnostics
  dsimp only
  split <;> exact judged

theorem complete_of_finalized {reported : SourceRunDiagnostics} {cap : ℤ}
    {listed jobs : List JobRecord} {fetched : ℕ} {sourceId : String} {requires : Bool}
    (complete : (SyncResult.finalizeListDiagnostics
      { (SyncResult.capJobsForPolicy { diagnostics := reported } cap listed).1 with fetched }
      sourceId requires jobs).diagnostics.paginationComplete = some true) :
    (listed.length : ℤ) ≤ cap ∧ reported.paginationComplete ≠ some false := by
  rw [finalizeListDiagnostics_paginationComplete] at complete
  unfold SyncResult.capJobsForPolicy at complete
  by_cases within : (listed.length : ℤ) ≤ cap
  · refine ⟨within, ?_⟩
    intro incomplete
    simp [within, incomplete] at complete
  · simp [within] at complete

def Request.adapterRun (request : Request) (environment : Environment) (clock : Clock)
    (listingExtra : Raw → Raw) (store : Store) : AdapterRun :=
  let breaker := (store.prepareListBreakerForRun request.source.id clock.started).2
  let source := request.boundedSource environment breaker.state
  request.adapter { source with extra := listingExtra source.extra }

theorem listPhase_eq_error {listingExtra : Raw → Raw} {ended : Store} {result : SyncResult}
    (early : listPhase environment clock request listingExtra store = .error (ended, result)) :
    ended.database = store.database := by
  have prepared : (store.prepareListBreakerForRun request.source.id clock.started).1.database =
      store.database := prepareListBreakerForRun_database
  unfold listPhase at early
  dsimp only at early
  split at early
  · rw [Except.error.injEq, Prod.mk.injEq] at early
    rw [← early.1]
    exact prepared
  · split at early
    · rw [Except.error.injEq, Prod.mk.injEq] at early
      rw [← early.1]
      exact prepared
    · split at early
      · rw [Except.error.injEq, Prod.mk.injEq] at early
        rw [← early.1]
        exact recordListBreakerSuccess_database.trans prepared
      · split at early
        · rw [Except.error.injEq, Prod.mk.injEq] at early
          rw [← early.1]
          exact recordListBreakerSuccess_database.trans prepared
        · simp at early

theorem listPhase_eq_ok {listingExtra : Raw → Raw} {listed : Listed}
    (listing : listPhase environment clock request listingExtra store = .ok listed) :
    ∃ fetched, (request.adapterRun environment clock listingExtra store).fetchJobs = .ok fetched ∧
      listed.store.database = store.database ∧
      listed.seenJobKeys = (environment.excludeConfiguredJobs listed.source fetched).map
        environment.derivations.identityKey ∧
      (∀ job ∈ listed.jobs, environment.derivations.identityKey job ∈ listed.seenJobKeys) ∧
      listed.result.diagnostics.scopeValidationStatus.isSome = true ∧
      (listed.result.diagnostics.paginationComplete = some true →
        ((environment.excludeConfiguredJobs listed.source fetched).length : ℤ) ≤
            request.policy.maxJobsPerSource ∧
          ((request.adapterRun environment clock listingExtra store).runDiagnostics.bind
            SourceRunDiagnostics.paginationComplete) ≠ some false) := by
  unfold listPhase at listing
  dsimp only at listing
  split at listing
  · simp at listing
  · split at listing
    · simp at listing
    · rename_i fetched fetchedJobs
      split at listing
      · simp at listing
      · split at listing
        · simp at listing
        · rw [Except.ok.injEq] at listing
          rw [← listing]
          refine ⟨fetched, fetchedJobs, ?_, rfl, ?_, ?_, ?_⟩
          · exact recordListBreakerSuccess_database.trans prepareListBreakerForRun_database
          · intro job member
            exact List.mem_map_of_mem (capJobsForPolicy_sublist job member)
          · dsimp only
            rw [recordListBreakerSuccess_scope]
            exact finalizeListDiagnostics_scope
          · intro complete
            dsimp only at complete
            rw [recordListBreakerSuccess_paginationComplete] at complete
            have whole := complete_of_finalized complete
            rw [fromAdapter_paginationComplete] at whole
            exact whole

end ListPhase

section Pipelines

variable {environment : Environment} {clock : Clock} {request : Request} {store : Store}

theorem outside_storeListing {listed : Listed} {jobs : List JobRecord} {result : SyncResult}
    {database : Database}
    (inList : ∀ job ∈ jobs, environment.derivations.identityKey job ∈ listed.seenJobKeys) :
    outside listed.seenJobKeys (storeListing environment clock request listed jobs false result
      database).store.database = outside listed.seenJobKeys database := by
  unfold storeListing
  dsimp only
  split
  · rfl
  · rename_i stored upserted
    dsimp only
    rw [if_neg (by simp), outside_recordListingObservation]
    apply outside_upsertJobs upserted
    intro entry member
    rcases List.mem_map.mp member with ⟨job, jobMember, rfl⟩
    exact inList job jobMember

theorem storeListing_cases (environment : Environment) (clock : Clock) (request : Request)
    (listed : Listed) (jobs : List JobRecord) (allowed : Bool) (result : SyncResult)
    (database : Database) :
    (storeListing environment clock request listed jobs allowed result database).store.database =
        database ∨
      ∃ final, (storeListing environment clock request listed jobs allowed result
          database).result = .ok final ∧
        final.diagnostics.paginationComplete = result.diagnostics.paginationComplete ∧
        final.diagnostics.scopeValidationStatus = result.diagnostics.scopeValidationStatus ∧
        final.diagnostics.healthStatus = result.diagnostics.healthStatus := by
  unfold storeListing
  dsimp only
  split
  · exact .inl rfl
  · exact .inr ⟨_, rfl, rfl, rfl, rfl⟩

theorem applyDetailDiagnostics_keeps {result : SyncResult} {attempts failures skipped : ℕ}
    {errors : List String} {percent : ℕ → ℕ → String} {opened : Bool} :
    (result.applyDetailDiagnostics attempts failures skipped errors percent
        opened).diagnostics.paginationComplete = result.diagnostics.paginationComplete ∧
      (result.applyDetailDiagnostics attempts failures skipped errors percent
        opened).diagnostics.scopeValidationStatus = result.diagnostics.scopeValidationStatus := by
  unfold SyncResult.applyDetailDiagnostics
  dsimp only
  split
  · exact ⟨rfl, rfl⟩
  · split
    · exact ⟨rfl, rfl⟩
    · split <;> exact ⟨rfl, rfl⟩

/-- What a list must be before a run retires a vacancy outside it. -/
structure CompleteList (environment : Environment) (clock : Clock) (request : Request)
    (store : Store) (pipeline : Pipeline) (listed : Listed) (result : SyncResult) : Prop where
  listing : listPhase environment clock request pipeline.listingExtra store = .ok listed
  finished : (pipeline.run environment clock request store).result = .ok result
  listComplete : listed.result.diagnostics.paginationComplete = some true
  paginationComplete : result.diagnostics.paginationComplete = some true
  scope : result.diagnostics.scopeValidationStatus = some "passed" ∨
    result.diagnostics.scopeValidationStatus = some "not_applicable"
  health : listed.result.diagnostics.healthStatus = some "ok" ∨
    listed.result.diagnostics.healthStatus = some "ok_empty"
  finalHealth : pipeline = .syncSource →
    result.diagnostics.healthStatus = listed.result.diagnostics.healthStatus
  nonempty : listed.jobs ≠ [] ∨ listed.result.diagnostics.verifiedZeroFetch = true

theorem missingTransitionIsAllowed_iff {diagnostics : SourceRunDiagnostics} {closeMissing : Bool}
    {jobs : List JobRecord}
    (allowed : diagnostics.missingTransitionIsAllowed closeMissing jobs = true) :
    (diagnostics.healthStatus = some "ok" ∨ diagnostics.healthStatus = some "ok_empty") ∧
      diagnostics.paginationComplete = some true ∧
      (diagnostics.scopeValidationStatus.isSome = true →
        diagnostics.scopeValidationStatus = some "passed" ∨
          diagnostics.scopeValidationStatus = some "not_applicable") ∧
      (jobs ≠ [] ∨ diagnostics.verifiedZeroFetch = true) := by
  simp only [SourceRunDiagnostics.missingTransitionIsAllowed, Bool.and_eq_true, beq_iff_eq,
    Bool.or_eq_true] at allowed
  rcases allowed with ⟨⟨⟨⟨_, health⟩, complete⟩, scope⟩, nonempty⟩
  refine ⟨?_, complete, ?_, ?_⟩
  · cases status : diagnostics.healthStatus with
    | none => simp [status] at health
    | some text => simpa [status, missingAllowedHealth] using health
  · intro present
    cases status : diagnostics.scopeValidationStatus with
    | none => simp [status] at present
    | some text => simpa [status] using scope
  · rcases nonempty with some | verified
    · exact .inl (by simpa using some)
    · exact .inr verified

theorem outside_storeListing_or {listed : Listed} {jobs : List JobRecord} {result : SyncResult}
    {database : Database}
    (inList : ∀ job ∈ jobs, environment.derivations.identityKey job ∈ listed.seenJobKeys) :
    outside listed.seenJobKeys (storeListing environment clock request listed jobs
        (listed.result.diagnostics.missingTransitionIsAllowed request.closeMissing listed.jobs)
        result database).store.database = outside listed.seenJobKeys database ∨
      listed.result.diagnostics.missingTransitionIsAllowed request.closeMissing listed.jobs = true ∧
      ∃ final, (storeListing environment clock request listed jobs
        (listed.result.diagnostics.missingTransitionIsAllowed request.closeMissing listed.jobs)
          result database).result = .ok final ∧
        final.diagnostics.paginationComplete = result.diagnostics.paginationComplete ∧
        final.diagnostics.scopeValidationStatus = result.diagnostics.scopeValidationStatus ∧
        final.diagnostics.healthStatus = result.diagnostics.healthStatus := by
  cases allowed :
      listed.result.diagnostics.missingTransitionIsAllowed request.closeMissing listed.jobs with
  | false => exact .inl (outside_storeListing inList)
  | true =>
    rcases storeListing_cases environment clock request listed jobs true result database with
      same | final
    · exact .inl (by rw [same])
    · exact .inr ⟨rfl, final⟩

theorem outside_selective_or {queue : DetailQueue} {listed : Listed}
    (listing : listPhase environment clock request (assign "fetch_details" (.bool false)) store =
      .ok listed)
    (inList : ∀ job ∈ listed.jobs,
      environment.derivations.identityKey job ∈ listed.seenJobKeys) :
    outside listed.seenJobKeys
        (syncSourceWithSelectiveDetails environment clock request queue store).store.database =
      outside listed.seenJobKeys listed.store.database ∨
      listed.result.diagnostics.missingTransitionIsAllowed request.closeMissing listed.jobs = true ∧
      ∃ final,
        (syncSourceWithSelectiveDetails environment clock request queue store).result = .ok final ∧
        final.diagnostics.paginationComplete = listed.result.diagnostics.paginationComplete ∧
        final.diagnostics.scopeValidationStatus =
          listed.result.diagnostics.scopeValidationStatus := by
  have prioritized : ∀ job ∈ orderBy (queue.priority listed.store.database) listed.jobs,
      environment.derivations.identityKey job ∈ listed.seenJobKeys :=
    fun job member => inList job (orderBy_perm.mem_iff.mp member)
  have started : ({ database := listed.store.database } : DetailPhase).Within environment
      listed.seenJobKeys listed.store.database := ⟨rfl, by simp⟩
  have within : Within environment listed.seenJobKeys listed.store.database
      (DetailPhase.run environment (environment.detailSettings listed.source
          (Environment.detailBreaker listed.store listed.source.id clock.listed))
        listed.source clock queue listed.fetchDetail { database := listed.store.database }
        (orderBy (queue.priority listed.store.database) listed.jobs)) :=
    within_run started prioritized
  unfold syncSourceWithSelectiveDetails
  rw [listing]
  dsimp only
  split
  · rename_i raised outcome
    rw [outcome] at within
    exact .inl within
  · rename_i phase outcome
    rw [outcome] at within
    rcases outside_storeListing_or within.jobs with
      kept | ⟨allowed, final, finished, complete, scope, _⟩
    · exact .inl (kept.trans within.kept)
    · exact .inr ⟨allowed, final, finished, complete.trans applyDetailDiagnostics_keeps.1,
        scope.trans applyDetailDiagnostics_keeps.2⟩

theorem outside_run_or (environment : Environment) (clock : Clock) (request : Request)
    (store : Store) (pipeline : Pipeline) :
    (∃ keys, outside keys (pipeline.run environment clock request store).store.database =
        outside keys store.database ∧
      ∀ key ∈ keys, ∃ fetched,
        (request.adapterRun environment clock pipeline.listingExtra store).fetchJobs = .ok fetched ∧
        key ∈ fetched.map environment.derivations.identityKey) ∨
    ∃ listed result,
      CompleteList environment clock request store pipeline listed result := by
  cases listing : listPhase environment clock request pipeline.listingExtra store with
  | error early =>
    rcases early with ⟨ended, result⟩
    refine .inl ⟨[], ?_, by simp⟩
    have kept := listPhase_eq_error listing
    have stopped : (pipeline.run environment clock request store).store = ended := by
      cases pipeline with
      | syncSource =>
        change listPhase environment clock request id store = _ at listing
        simp only [Pipeline.run, syncSource, listing]
      | selectiveDetails queue =>
        change listPhase environment clock request (assign "fetch_details" (.bool false))
          store = _ at listing
        simp only [Pipeline.run, syncSourceWithSelectiveDetails, listing]
    rw [stopped, kept]
  | ok listed =>
    rcases listPhase_eq_ok listing with ⟨fetched, answered, sameDatabase, seen, inList, scope, _⟩
    have within : ∀ key ∈ listed.seenJobKeys, ∃ fetched,
        (request.adapterRun environment clock pipeline.listingExtra store).fetchJobs =
          .ok fetched ∧ key ∈ fetched.map environment.derivations.identityKey := by
      intro key member
      rw [seen] at member
      rcases List.mem_map.mp member with ⟨job, jobMember, rfl⟩
      exact ⟨fetched, answered, List.mem_map_of_mem (List.mem_of_mem_filter jobMember)⟩
    cases pipeline with
    | syncSource =>
      change listPhase environment clock request id store = _ at listing
      have ended : Pipeline.run environment clock request store .syncSource =
          storeListing environment clock request listed listed.jobs
            (listed.result.diagnostics.missingTransitionIsAllowed request.closeMissing
              listed.jobs) listed.result listed.store.database := by
        simp only [Pipeline.run, syncSource, listing]
      rcases outside_storeListing_or inList with
        kept | ⟨allowed, final, finished, complete, sameScope, health⟩
      · exact .inl ⟨listed.seenJobKeys, by rw [ended, kept, sameDatabase], within⟩
      · have permits := missingTransitionIsAllowed_iff allowed
        exact .inr ⟨listed, final, listing, by rw [ended, finished], permits.2.1,
          complete.trans permits.2.1, sameScope ▸ permits.2.2.1 scope, permits.1,
          fun _ => health, permits.2.2.2⟩
    | selectiveDetails queue =>
      rcases outside_selective_or listing inList with
        kept | ⟨allowed, final, finished, complete, sameScope⟩
      · exact .inl ⟨listed.seenJobKeys, kept.trans (by rw [sameDatabase]), within⟩
      · have permits := missingTransitionIsAllowed_iff allowed
        exact .inr ⟨listed, final, listing, finished, permits.2.1,
          complete.trans permits.2.1, sameScope ▸ permits.2.2.1 scope, permits.1, fun plain => by simp at plain,
          permits.2.2.2⟩

/-- A run changes the status or raises the count of a vacancy outside the fetched
listing only when the adapter returned, the list was not cut and is complete, and
the adapter did not report it incomplete, as after a capped probe it should. -/
theorem retiresOnlyByCompleteList {pipeline : Pipeline} {row new : JobRow}
    (distinct : (store.database.jobs.map JobRow.jobKey).Nodup)
    (before : row ∈ store.database.jobs)
    (after : new ∈ (pipeline.run environment clock request store).store.database.jobs)
    (same : new.jobKey = row.jobKey)
    (absent : ∀ fetched,
      (request.adapterRun environment clock pipeline.listingExtra store).fetchJobs = .ok fetched →
      row.jobKey ∉ fetched.map environment.derivations.identityKey)
    (retired : new.status ≠ row.status ∨ row.missingRunCount < new.missingRunCount) :
    ∃ fetched listed result,
      (request.adapterRun environment clock pipeline.listingExtra store).fetchJobs = .ok fetched ∧
      ((environment.excludeConfiguredJobs listed.source fetched).length : ℤ) ≤
        request.policy.maxJobsPerSource ∧
      CompleteList environment clock request store pipeline listed result ∧
      ((request.adapterRun environment clock pipeline.listingExtra store).runDiagnostics.bind
        SourceRunDiagnostics.paginationComplete) ≠ some false := by
  rcases outside_run_or environment clock request store pipeline with
    ⟨keys, kept, within⟩ | ⟨listed, result, complete⟩
  · have unlisted : row.jobKey ∉ keys := by
      intro member
      rcases within row.jobKey member with ⟨fetched, answered, listed⟩
      exact absent fetched answered listed
    have newKept : (new.jobKey, new.status, new.missingRunCount) ∈
        outside keys store.database := by
      rw [← kept]
      exact List.mem_map_of_mem (List.mem_filter.mpr ⟨after, by simpa [same] using unlisted⟩)
    rcases List.mem_map.mp newKept with ⟨old, oldMember, fields⟩
    simp only [Prod.mk.injEq] at fields
    have sameRow : old = row := eq_of_key_eq distinct (List.mem_of_mem_filter oldMember) before
      (fields.1.trans same)
    rw [← sameRow] at retired
    rcases retired with moved | raised
    · exact absurd fields.2.1.symm moved
    · exact absurd fields.2.2.symm (Nat.ne_of_gt raised)
  · rcases listPhase_eq_ok complete.listing with ⟨fetched, answered, _, _, _, _, whole⟩
    have uncut := whole complete.listComplete
    exact ⟨fetched, listed, result, answered, uncut.1, complete, uncut.2⟩

end Pipelines

section Runs

private def plainEnvironment : Environment where
  derivations := {
    identityKey := fun job => job.externalId.getD ""
    contentHash := JobRecord.title
    postingFingerprint := JobRecord.title
    mergeExistingDetailFields := fun job _ => .ok job
    fromIsoFormat := fun _ => none }
  casefold := id
  strip := id
  optionalInt _ := none
  isoFormat _ := ""
  percent _ _ := "100%"
  detailQualityStatus _ := "complete"
  refusal text := { text, folded := text }

private def noon : Clock where
  started := 0
  listed := 1
  upserted _ := 2
  marked _ := 3

private def vacancy (externalId : String) : JobRecord where
  sourceId := "board"
  orgId := "BOARD"
  atsFamily := "static"
  title := externalId
  applyUrl := "/"
  externalId := some externalId
  firstSeenAt := 0
  lastSeenAt := 0

private def retained : JobRow := insertedRow "old" "old" (vacancy "old")

private def request (run : AdapterRun) : Request where
  source := { id := "board", atsFamily := "static" }
  policy := {}
  adapter _ := run

private def queueAll : DetailQueue where
  priority _ _ := 0
  decide _ _ := .queued false

/-- The board lists the new vacancy completely, and has no detail for it. -/
private def withoutDetail : AdapterRun where
  fetchJobs := .ok [vacancy "new"]
  runDiagnostics := some { sourceId := "board", paginationComplete := some true }
  fetchDetail := some fun _ _ => .none

/-- The board says nothing about its pages. -/
private def unpaged : AdapterRun where
  fetchJobs := .ok [vacancy "new"]

private def halfOpen : Store where
  database := { jobs := [retained] }
  breakers := [{
    sourceId := "board", breakerType := "list", state := "half_open", failureCount := 2
    successCount := 0, cooldownUntil := none, lastReason := none }]

private def counts (store : Store) : List (String × ℕ) :=
  store.database.jobs.map fun row => (row.jobKey, row.missingRunCount)

private def listedWithoutDetail : Listed where
  store := {
    database := { jobs := [retained] }
    breakers := [{
      sourceId := "board", breakerType := "list", state := "closed", failureCount := 0
      successCount := 1, cooldownUntil := none, lastReason := some "healthy list run" }] }
  source := {
    id := "board", atsFamily := "static"
    extra := [("max_pages", .number "25"), ("fallback_max_pages", .number "25")] }
  jobs := [vacancy "new"]
  seenJobKeys := ["new"]
  result := {
    fetched := 1
    diagnostics := {
      sourceId := "board", pagesFetched := some 1, paginationComplete := some true
      healthStatus := some "ok", runClassification := some "ok"
      listBreakerState := some "closed", scopeValidationStatus := some "not_applicable" } }
  fetchDetail := some fun _ _ => .none

/-- A run whose details fail ends with an issue, and still counts the vacancy that
a complete list leaves out; and a capped probe counts it although the adapter
did not report a complete list. -/
theorem retiresOnlyByCompleteList_counterexample :
    (∃ result, (Pipeline.run plainEnvironment noon (request withoutDetail)
        { database := { jobs := [retained] } } (.selectiveDetails queueAll)).result = .ok result ∧
      result.diagnostics.healthStatus = some "issue" ∧
      counts { database := { jobs := [retained] } } = [("old", 0)] ∧
      counts (Pipeline.run plainEnvironment noon (request withoutDetail)
        { database := { jobs := [retained] } } (.selectiveDetails queueAll)).store =
        [("old", 1), ("new", 0)]) ∧
    (halfOpen.prepareListBreakerForRun "board" 0).2.state = "half_open" ∧
      unpaged.runDiagnostics.bind SourceRunDiagnostics.paginationComplete ≠ some true ∧
      counts halfOpen = [("old", 0)] ∧
      counts (Pipeline.run plainEnvironment noon (request unpaged) halfOpen .syncSource).store =
        [("old", 1), ("new", 0)] := by
  have listing : listPhase plainEnvironment noon (request withoutDetail)
      (assign "fetch_details" (.bool false)) { database := { jobs := [retained] } } =
      .ok listedWithoutDetail := rfl
  have prioritized : orderBy (queueAll.priority listedWithoutDetail.store.database)
      listedWithoutDetail.jobs = listedWithoutDetail.jobs :=
    orderBy_eq_self (List.pairwise_singleton _ _)
  constructor
  · simp only [Pipeline.run, syncSourceWithSelectiveDetails, listing, prioritized]
    exact ⟨_, rfl, rfl, rfl, rfl⟩
  · exact ⟨rfl, by decide, rfl, rfl⟩

private def missed : JobRow :=
  { retained with
    missingRunCount := 1
    raw := assign "_jobagg_listing_verification"
      (listingVerification plainEnvironment "board" 1 (some true) false) retained.raw }

/-- A complete list without the old vacancy counts it as missed. -/
theorem retiresOnlyByCompleteList_missed :
    ∃ fetched listed result, withoutDetail.fetchJobs = .ok fetched ∧
      ((plainEnvironment.excludeConfiguredJobs listed.source fetched).length : ℤ) ≤ 1000 ∧
      CompleteList plainEnvironment noon (request withoutDetail)
        { database := { jobs := [retained] } } .syncSource listed result ∧
      withoutDetail.runDiagnostics.bind SourceRunDiagnostics.paginationComplete ≠ some false := by
  have after : missed ∈ (Pipeline.run plainEnvironment noon (request withoutDetail)
      { database := { jobs := [retained] } } .syncSource).store.database.jobs :=
    List.mem_cons_self
  have before : retained ∈ ({ database := { jobs := [retained] } } : Store).database.jobs :=
    List.mem_cons_self
  have absent : ∀ fetched, withoutDetail.fetchJobs = .ok fetched →
      retained.jobKey ∉ fetched.map plainEnvironment.derivations.identityKey := by
    intro fetched answered
    have same : fetched = [vacancy "new"] := (Except.ok.inj answered).symm
    rw [same]
    decide
  have distinct : (({ database := { jobs := [retained] } } : Store).database.jobs.map
      JobRow.jobKey).Nodup := List.nodup_singleton _
  exact retiresOnlyByCompleteList distinct before after rfl absent (.inr Nat.zero_lt_one)

end Runs

end JobAgg.SyncSource
