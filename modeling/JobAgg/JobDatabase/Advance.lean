import JobAgg.JobDatabase.History

/-! # What one write does to the tables

Rows are kept and touched, each with its own event; a new row comes with its
creation.
-/

namespace JobAgg.JobDatabase

structure Advance (database next : Database) : Prop where
  kept : ∀ row ∈ database.jobs, ∃ new ∈ next.jobs, ∃ event, Touched row event new ∧
    next.eventsOf row.jobKey = database.eventsOf row.jobKey ++ event.toList
  fresh : ∀ new ∈ next.jobs, (∃ row ∈ database.jobs, row.jobKey = new.jobKey) ∨
    ∃ event, next.eventsOf new.jobKey = database.eventsOf new.jobKey ++ [event] ∧
      event.changeType = .created ∧ event.newHash = some new.normalizedHash
  distinct : (next.jobs.map JobRow.jobKey).Nodup
  owned : ∀ event ∈ next.changeEvents, event ∈ database.changeEvents ∨
    ∃ new ∈ next.jobs, new.jobKey = event.jobKey

section Revise

variable {database : Database} {change : JobRow → JobRow × Option ChangeEvent}

theorem filter_revised_events {row : JobRow} (member : row ∈ database.jobs)
    (distinct : (database.jobs.map JobRow.jobKey).Nodup)
    (touches : ∀ row ∈ database.jobs, Touched row (change row).2 (change row).1) :
    (database.jobs.filterMap fun row => (change row).2).filter (·.jobKey == row.jobKey) =
      (change row).2.toList := by
  have others : ∀ rows : List JobRow, (∀ other ∈ rows, other ∈ database.jobs) →
      (∀ other ∈ rows, other.jobKey ≠ row.jobKey) →
      (rows.filterMap fun row => (change row).2).filter (·.jobKey == row.jobKey) = [] := by
    intro rows present apart
    rw [List.filter_eq_nil_iff]
    intro event logged
    rcases List.mem_filterMap.mp logged with ⟨other, otherMember, isEvent⟩
    have key := ((touches other (present other otherMember)).logged event isEvent).1
    simpa [key] using apart other otherMember
  rcases List.append_of_mem member with ⟨before, after, split⟩
  rw [split] at distinct
  have apart := key_ne_of_nodup distinct
  have fromBefore := others before (fun other inside => by simp [split, inside]) apart.1
  have fromAfter := others after (fun other inside => by simp [split, inside]) apart.2
  have own : (change row).2.toList.filter (·.jobKey == row.jobKey) = (change row).2.toList := by
    apply List.filter_eq_self.mpr
    intro event inside
    simpa using ((touches row member).logged event (Option.mem_toList.mp inside)).1
  have head : (row :: after).filterMap (fun row => (change row).2) =
      (change row).2.toList ++ after.filterMap fun row => (change row).2 := by
    cases logged : (change row).2 <;> simp [logged]
  rw [split, List.filterMap_append, head, List.filter_append, List.filter_append, fromBefore,
    fromAfter, own]
  simp

theorem advance_of_touches {next : Database}
    (jobs : next.jobs = database.jobs.map fun row => (change row).1)
    (events : next.changeEvents =
      database.changeEvents ++ database.jobs.filterMap fun row => (change row).2)
    (distinct : (database.jobs.map JobRow.jobKey).Nodup)
    (touches : ∀ row ∈ database.jobs, Touched row (change row).2 (change row).1) :
    Advance database next := by
  have sameKeys : next.jobs.map JobRow.jobKey = database.jobs.map JobRow.jobKey := by
    rw [jobs, List.map_map]
    apply List.map_congr_left
    intro row member
    exact (touches row member).jobKey
  have changed : ∀ row ∈ database.jobs, (change row).1 ∈ next.jobs := by
    intro row member
    rw [jobs]
    exact List.mem_map_of_mem member
  constructor
  case kept =>
    intro row member
    refine ⟨_, changed row member, _, touches row member, ?_⟩
    rw [← filter_revised_events member distinct touches]
    simp [Database.eventsOf, events]
  case fresh =>
    intro new member
    rw [jobs] at member
    rcases List.mem_map.mp member with ⟨row, present, rfl⟩
    exact .inl ⟨row, present, (touches row present).jobKey.symm⟩
  case distinct => rwa [sameKeys]
  case owned =>
    intro event member
    rw [events] at member
    rcases List.mem_append.mp member with old | logged
    · exact .inl old
    · rcases List.mem_filterMap.mp logged with ⟨row, present, isEvent⟩
      have own := touches row present
      exact .inr ⟨_, changed row present, own.jobKey.trans (own.logged event isEvent).1.symm⟩

end Revise

section Writers

variable {derivations : Derivations} {database next : Database}

theorem advance_markMissing {sourceId : String} {seenJobKeys : List String}
    {missingRunThreshold : ℤ} {clock : String → Instant}
    (distinct : (database.jobs.map JobRow.jobKey).Nodup) :
    Advance database
      (database.markMissing sourceId seenJobKeys missingRunThreshold clock) := by
  apply advance_of_touches rfl rfl distinct
  intro row _
  split
  · rename_i selected
    simp only [Bool.and_eq_true] at selected
    exact touched_marked selected.2
  · exact .refl

theorem advance_refl (distinct : (database.jobs.map JobRow.jobKey).Nodup) :
    Advance database database := by
  constructor
  case kept => exact fun row member => ⟨row, member, none, .refl, by simp⟩
  case fresh => exact fun new member => .inl ⟨new, member, rfl⟩
  case distinct => exact distinct
  case owned => exact fun event member => .inl member

theorem advance_closeConfiguredExcludedJobs {sourceId : String} {exclusions : Exclusions}
    (distinct : (database.jobs.map JobRow.jobKey).Nodup) :
    Advance database (database.closeConfiguredExcludedJobs sourceId exclusions) := by
  unfold Database.closeConfiguredExcludedJobs
  split
  · exact advance_refl distinct
  · apply advance_of_touches rfl rfl distinct
    intro row _
    split
    · rename_i selected
      simp only [Bool.and_eq_true] at selected
      exact touched_closedByConfiguration selected.1.2
    · exact .refl

theorem current_eq_none {jobKey : String} (absent : database.current jobKey = none) :
    ∀ row ∈ database.jobs, row.jobKey ≠ jobKey := by
  simpa [Database.current, List.find?_eq_none] using absent

theorem current_eq_some {jobKey : String} {row : JobRow}
    (present : database.current jobKey = some row) : row ∈ database.jobs ∧ row.jobKey = jobKey :=
  ⟨List.mem_of_find?_eq_some present, by simpa using List.find?_some present⟩

def createdEvent (jobKey : String) (stored : JobRecord) : ChangeEvent where
  sourceId := stored.sourceId
  jobKey := jobKey
  changeType := .created
  oldHash := none
  newHash := some (stored.normalizedHash.getD "")

def upsertEvent (row : JobRow) (stored : JobRecord) : Option ChangeEvent :=
  (classifyUpsert row stored.status (stored.normalizedHash.getD "")).map fun changeType =>
    { sourceId := stored.sourceId, jobKey := row.jobKey, changeType
      oldHash := some row.normalizedHash, newHash := some (stored.normalizedHash.getD "") }

def upsertChange (derivations : Derivations) (row : JobRow) (stored : JobRecord)
    (old : JobRow) : JobRow × Option ChangeEvent :=
  if old.jobKey == row.jobKey then
    ((old.refreshed (stored.normalizedHash.getD "") stored).reviewed derivations stored,
      upsertEvent row stored)
  else (old, none)

theorem touched_upsertChange {row : JobRow} {stored : JobRecord}
    (distinct : (database.jobs.map JobRow.jobKey).Nodup) (member : row ∈ database.jobs) :
    ∀ old ∈ database.jobs, Touched old (upsertChange derivations row stored old).2
      (upsertChange derivations row stored old).1 := by
  intro old oldMember
  unfold upsertChange
  split
  · rename_i selected
    have same : old = row := eq_of_key_eq distinct oldMember member (by simpa using selected)
    rw [same]
    exact touched_refreshed
  · exact .refl

theorem filterMap_upsertChange {row : JobRow} {stored : JobRecord}
    (distinct : (database.jobs.map JobRow.jobKey).Nodup) (member : row ∈ database.jobs) :
    (database.jobs.filterMap fun old => (upsertChange derivations row stored old).2) =
      (upsertEvent row stored).toList := by
  have others : ∀ rows : List JobRow, (∀ other ∈ rows, other.jobKey ≠ row.jobKey) →
      (rows.filterMap fun old => (upsertChange derivations row stored old).2) = [] := by
    intro rows apart
    apply List.filterMap_eq_nil_iff.mpr
    intro other inside
    simp [upsertChange, apart other inside]
  rcases List.append_of_mem member with ⟨before, after, split⟩
  rw [split] at distinct ⊢
  have apart := key_ne_of_nodup distinct
  rw [List.filterMap_append, others before apart.1, List.filterMap_cons, others after apart.2]
  cases logged : upsertEvent row stored <;> simp [upsertChange, logged]

inductive Upserted (derivations : Derivations) (database : Database) (jobKey : String)
    (stored : JobRecord) (next : Database) (result : UpsertResult) : Prop
  | inserted (absent : database.current jobKey = none)
      (jobs : next.jobs = database.jobs ++
        [(insertedRow jobKey (stored.normalizedHash.getD "") stored).reviewed derivations stored])
      (events : next.changeEvents = database.changeEvents ++ [createdEvent jobKey stored])
      (result : result = .inserted)
  | refreshed (row : JobRow) (present : database.current jobKey = some row)
      (jobs : next.jobs = updateWhere (·.jobKey == jobKey)
        (fun old => (old.refreshed (stored.normalizedHash.getD "") stored).reviewed
          derivations stored) database.jobs)
      (events : next.changeEvents =
        database.changeEvents ++ (upsertEvent row stored).toList)
      (snapshots : next.snapshots = database.snapshots ++
        ((upsertEvent row stored).map fun _ => snapshotOf derivations stored).toList)
      (result : result = if (upsertEvent row stored).isNone then .unchanged else .updated)

theorem upsertJob_eq_ok {now : Instant} {job : JobRecord} {result : UpsertResult}
    (upserted : database.upsertJob derivations now job = .ok (next, result)) :
    ∃ stored, preparedRecord derivations now job
        (database.current (derivations.identityKey job)) = .ok stored ∧
      Upserted derivations database (derivations.identityKey job) stored next result := by
  unfold Database.upsertJob at upserted
  rcases bind_eq_ok.mp upserted with ⟨stored, prepared, written⟩
  refine ⟨stored, prepared, ?_⟩
  cases found : database.current (derivations.identityKey job) with
  | none =>
    rw [found] at written
    simp only [pure_eq_ok, Prod.mk.injEq] at written
    rcases written with ⟨rfl, rfl⟩
    exact .inserted found rfl rfl rfl
  | some row =>
    have key := (current_eq_some found).2
    rw [found] at written
    dsimp only at written
    cases classified : classifyUpsert row stored.status (stored.normalizedHash.getD "") with
    | none =>
      rw [classified] at written
      simp only [pure_eq_ok, Prod.mk.injEq] at written
      rcases written with ⟨rfl, rfl⟩
      have silent : upsertEvent row stored = none := by
        unfold upsertEvent
        rw [classified]
        rfl
      apply Upserted.refreshed row found rfl <;> simp [silent]
    | some changeType =>
      rw [classified] at written
      simp only [pure_eq_ok, Prod.mk.injEq] at written
      rcases written with ⟨rfl, rfl⟩
      have logged : upsertEvent row stored = some
          { sourceId := stored.sourceId, jobKey := derivations.identityKey job, changeType
            oldHash := some row.normalizedHash
            newHash := some (stored.normalizedHash.getD "") } := by
        unfold upsertEvent
        rw [classified, ← key]
        rfl
      apply Upserted.refreshed row found rfl <;> simp [logged]

theorem advance_upserted {stored : JobRecord} {jobKey : String}
    {result : UpsertResult}
    (distinct : (database.jobs.map JobRow.jobKey).Nodup)
    (upserted : Upserted derivations database jobKey stored next result) :
    Advance database next := by
  cases upserted with
  | inserted absent jobs events _ =>
    rcases reviewed_keeps (insertedRow jobKey (stored.normalizedHash.getD "") stored)
      derivations stored with ⟨newKey, _, _, _, newHash, _⟩
    have apart := current_eq_none absent
    constructor
    case kept =>
      intro row member
      refine ⟨row, by simp [jobs, member], none, .refl, ?_⟩
      simp [Database.eventsOf, events, createdEvent, (apart row member).symm]
    case fresh =>
      intro new member
      rw [jobs] at member
      rcases List.mem_append.mp member with old | added
      · exact .inl ⟨new, old, rfl⟩
      · rw [List.mem_singleton.mp added]
        refine .inr ⟨createdEvent jobKey stored, ?_, rfl, congrArg some newHash.symm⟩
        rw [newKey]
        simp [Database.eventsOf, events, insertedRow, createdEvent]
    case distinct =>
      rw [jobs, List.map_append, List.nodup_append]
      refine ⟨distinct, by simp, ?_⟩
      intro key old added addedMember
      rcases List.mem_map.mp old with ⟨row, present, rfl⟩
      rw [List.mem_singleton.mp addedMember]
      exact fun equal => apart row present (equal.trans newKey)
    case owned =>
      intro event member
      rw [events] at member
      rcases List.mem_append.mp member with old | added
      · exact .inl old
      · rw [List.mem_singleton.mp added]
        exact .inr ⟨_, by simp [jobs], newKey⟩
  | refreshed row present jobs events _ _ =>
    rcases current_eq_some present with ⟨member, rfl⟩
    have touches : ∀ old ∈ database.jobs,
        Touched old (upsertChange derivations row stored old).2
          (upsertChange derivations row stored old).1 :=
      touched_upsertChange distinct member
    apply advance_of_touches _ _ distinct touches
    · rw [jobs, updateWhere]
      apply List.map_congr_left
      intro old _
      unfold upsertChange
      split <;> rfl
    · rw [events, filterMap_upsertChange distinct member]

end Writers

end JobAgg.JobDatabase
