import Mathlib.Data.List.ReduceOption
import JobAgg.JobDatabase.Advance

/-! # The vacancy lifecycle log

Over every run of the writers on one database, the change events tell the story
of each row. A call that raises is rolled back and is no step of a run.
-/

namespace JobAgg.JobDatabase

inductive Write
  | upsert (now : Instant) (job : JobRecord)
  | markMissing (sourceId : String) (seenJobKeys : List String) (missingRunThreshold : ℤ)
      (clock : String → Instant)
  | closeExcluded (sourceId : String) (exclusions : Exclusions)

inductive Call
  | upsertJob (now : Instant) (job : JobRecord)
  | upsertJobs (jobs : List (Instant × JobRecord))
  | markMissing (sourceId : String) (seenJobKeys : List String) (missingRunThreshold : ℤ)
      (clock : String → Instant)
  | closeConfiguredExcludedJobs (sourceId : String) (exclusions : Exclusions)

def Call.writes : Call → List Write
  | upsertJob now job => [.upsert now job]
  | upsertJobs jobs => jobs.map fun (now, job) => .upsert now job
  | markMissing sourceId seenJobKeys missingRunThreshold clock =>
    [.markMissing sourceId seenJobKeys missingRunThreshold clock]
  | closeConfiguredExcludedJobs sourceId exclusions => [.closeExcluded sourceId exclusions]

inductive Step (derivations : Derivations) : Database → Call → Database → Prop
  | upsertJob {database next : Database} {now : Instant} {job : JobRecord}
      {result : UpsertResult}
      (accepted : database.upsertJob derivations now job = .ok (next, result)) :
      Step derivations database (.upsertJob now job) next
  | upsertJobs {database next : Database} {jobs : List (Instant × JobRecord)}
      (accepted : database.upsertJobs derivations jobs = .ok next) :
      Step derivations database (.upsertJobs jobs) next
  | markMissing {database : Database} {sourceId : String} {seenJobKeys : List String}
      {missingRunThreshold : ℤ} {clock : String → Instant} :
      Step derivations database
        (.markMissing sourceId seenJobKeys missingRunThreshold clock)
        (database.markMissing sourceId seenJobKeys missingRunThreshold clock)
  | closeConfiguredExcludedJobs {database : Database} {sourceId : String}
      {exclusions : Exclusions} :
      Step derivations database (.closeConfiguredExcludedJobs sourceId exclusions)
        (database.closeConfiguredExcludedJobs sourceId exclusions)

inductive WriteStep (derivations : Derivations) : Database → Write → Database → Prop
  | upsert {database next : Database} {now : Instant} {job : JobRecord} {result : UpsertResult}
      (accepted : database.upsertJob derivations now job = .ok (next, result)) :
      WriteStep derivations database (.upsert now job) next
  | markMissing {database : Database} {sourceId : String} {seenJobKeys : List String}
      {missingRunThreshold : ℤ} {clock : String → Instant} :
      WriteStep derivations database
        (.markMissing sourceId seenJobKeys missingRunThreshold clock)
        (database.markMissing sourceId seenJobKeys missingRunThreshold clock)
  | closeExcluded {database : Database} {sourceId : String} {exclusions : Exclusions} :
      WriteStep derivations database (.closeExcluded sourceId exclusions)
        (database.closeConfiguredExcludedJobs sourceId exclusions)

/-- What a write does with the count of the `mark_missing` calls of a source since
a row was last upserted or listed as seen. -/
def Write.counted (derivations : Derivations) (jobKey sourceId : String) (count : ℕ) :
    Write → ℕ
  | upsert _ job => if derivations.identityKey job = jobKey then 0 else count
  | markMissing marked seenJobKeys _ _ =>
    if marked = sourceId then if jobKey ∈ seenJobKeys then 0 else count + 1 else count
  | closeExcluded _ _ => count

def missedCalls (derivations : Derivations) (jobKey sourceId : String) (writes : List Write) :
    ℕ :=
  writes.foldl (Write.counted derivations jobKey sourceId) 0

section Steps

variable {derivations : Derivations} {database next : Database}

theorem run_upsertJobs {jobs : List (Instant × JobRecord)}
    (accepted : database.upsertJobs derivations jobs = .ok next) :
    Run (WriteStep derivations) database
      (jobs.map fun (now, job) => .upsert now job) next := by
  induction jobs generalizing database with
  | nil =>
    simp only [Database.upsertJobs, pure_eq_ok] at accepted
    rw [accepted]
    exact .nil next
  | cons entry jobs induction =>
    rcases bind_eq_ok.mp accepted with ⟨⟨middle, result⟩, first, rest⟩
    exact .cons (.upsert first) (induction rest)

theorem Step.writes {call : Call} (step : Step derivations database call next) :
    Run (WriteStep derivations) database call.writes next := by
  cases step with
  | upsertJob accepted => exact .single (.upsert accepted)
  | upsertJobs accepted => exact run_upsertJobs accepted
  | markMissing => exact .single .markMissing
  | closeConfiguredExcludedJobs => exact .single .closeExcluded

theorem WriteStep.advance {write : Write} (step : WriteStep derivations database write next)
    (distinct : (database.jobs.map JobRow.jobKey).Nodup) : Advance database next := by
  cases step with
  | upsert accepted =>
    rcases upsertJob_eq_ok accepted with ⟨stored, _, upserted⟩
    exact advance_upserted distinct upserted
  | markMissing => exact advance_markMissing distinct
  | closeExcluded => exact advance_closeConfiguredExcludedJobs distinct

end Steps

/-- The log of a key tells its row. -/
structure Consistent (database : Database) : Prop where
  distinct : (database.jobs.map JobRow.jobKey).Nodup
  owned : ∀ event ∈ database.changeEvents, ∃ row ∈ database.jobs, row.jobKey = event.jobKey
  chained : ∀ row ∈ database.jobs, Chained (database.eventsOf row.jobKey)
  hashed : ∀ row ∈ database.jobs,
    lastHash (database.eventsOf row.jobKey) = some row.normalizedHash

theorem Consistent.empty : Consistent {} := by
  constructor <;> simp

theorem Touched.chained {row new : JobRow} {event : Option ChangeEvent}
    {events : List ChangeEvent} (touched : Touched row event new) (chained : Chained events)
    (hashed : lastHash events = some row.normalizedHash) :
    Chained (events ++ event.toList) ∧
      lastHash (events ++ event.toList) = some new.normalizedHash := by
  cases event with
  | none =>
    rw [(touched.silent rfl).2]
    simpa using ⟨chained, hashed⟩
  | some event =>
    rcases touched.logged event rfl with ⟨_, later, old, hash, _⟩
    refine ⟨chained.append later (old.trans hashed.symm), ?_⟩
    rw [Option.toList_some, lastHash_append, hashed, ← hash]
    cases event.newHash <;> rfl

theorem Advance.consistent {database next : Database} (advance : Advance database next)
    (consistent : Consistent database) : Consistent next := by
  have tells : ∀ new ∈ next.jobs, Chained (next.eventsOf new.jobKey) ∧
      lastHash (next.eventsOf new.jobKey) = some new.normalizedHash := by
    intro new member
    by_cases stored : ∃ row ∈ database.jobs, row.jobKey = new.jobKey
    · rcases stored with ⟨row, rowMember, key⟩
      rcases advance.kept row rowMember with ⟨touched, touchedMember, event, touch, events⟩
      have same : touched = new :=
        eq_of_key_eq advance.distinct touchedMember member (touch.jobKey.trans key)
      rw [← same, touch.jobKey, events]
      exact touch.chained (consistent.chained row rowMember) (consistent.hashed row rowMember)
    · rcases advance.fresh new member with old | ⟨event, events, created, hash⟩
      · exact absurd old stored
      have noEvents : database.eventsOf new.jobKey = [] := by
        apply List.filter_eq_nil_iff.mpr
        intro event logged own
        rcases consistent.owned event logged with ⟨row, rowMember, key⟩
        exact stored ⟨row, rowMember, key.trans (by simpa using own)⟩
      rw [events, noEvents]
      exact ⟨.single created, by simp [lastHash, hash]⟩
  constructor
  case distinct => exact advance.distinct
  case owned =>
    intro event member
    rcases advance.owned event member with old | own
    · rcases consistent.owned event old with ⟨row, rowMember, key⟩
      rcases advance.kept row rowMember with ⟨new, newMember, _, touch, _⟩
      exact ⟨new, newMember, touch.jobKey.trans key⟩
    · exact own
  case chained => exact fun new member => (tells new member).1
  case hashed => exact fun new member => (tells new member).2

section Counting

variable {derivations : Derivations} {database next : Database}

/-- A listed row continues the count of a listed row, or starts one. -/
def Counted (derivations : Derivations) (database : Database) (write : Write)
    (new : JobRow) : Prop :=
  (∃ row ∈ database.jobs, row.listed = true ∧ new.jobKey = row.jobKey ∧
    new.sourceId = row.sourceId ∧
    new.missingRunCount =
      write.counted derivations row.jobKey row.sourceId row.missingRunCount) ∨
  new.missingRunCount = 0 ∧
    ∀ count, write.counted derivations new.jobKey new.sourceId count = 0

theorem counted_upserted {now : Instant} {job : JobRecord} {stored : JobRecord}
    {result : UpsertResult}
    (upserted : Upserted derivations database (derivations.identityKey job) stored next result)
    {new : JobRow} (member : new ∈ next.jobs) (listed : new.listed = true) :
    Counted derivations database (.upsert now job) new := by
  cases upserted with
  | inserted absent jobs _ _ =>
    rw [jobs] at member
    rcases List.mem_append.mp member with old | added
    · have apart := current_eq_none absent new old
      exact .inl ⟨new, old, listed, rfl, rfl, by simp [Write.counted, apart.symm]⟩
    · rcases reviewed_keeps
        (insertedRow (derivations.identityKey job) (stored.normalizedHash.getD "") stored)
        derivations stored with ⟨key, _, _, _, _, count⟩
      rw [List.mem_singleton.mp added]
      exact .inr ⟨count, fun _ => if_pos key.symm⟩
  | refreshed row present jobs _ _ _ =>
    rw [jobs] at member
    rcases mem_updateWhere.mp member with ⟨old, oldMember, updated⟩
    split at updated
    · rename_i selected
      rcases reviewed_keeps (old.refreshed (stored.normalizedHash.getD "") stored)
        derivations stored with ⟨key, _, _, _, _, count⟩
      rw [← updated]
      have same : old.jobKey = derivations.identityKey job := by simpa using selected
      exact .inr ⟨count, fun _ => if_pos (same.symm.trans key.symm)⟩
    · rename_i apart
      have different : old.jobKey ≠ derivations.identityKey job := by simpa using apart
      rw [← updated] at listed ⊢
      exact .inl ⟨old, oldMember, listed, rfl, rfl, by simp [Write.counted, different.symm]⟩

theorem counted_marked {sourceId : String} {seenJobKeys : List String}
    {missingRunThreshold : ℤ} {clock : String → Instant} {new : JobRow}
    (member : new ∈ (database.markMissing sourceId seenJobKeys missingRunThreshold clock).jobs)
    (listed : new.listed = true) :
    Counted derivations database
      (.markMissing sourceId seenJobKeys missingRunThreshold clock) new := by
  rcases List.mem_map.mp member with ⟨row, rowMember, changed⟩
  dsimp only at changed
  split at changed
  · rename_i selected
    simp only [Bool.and_eq_true, beq_iff_eq] at selected
    rw [← changed]
    refine .inl ⟨row, rowMember, selected.2, ?_⟩
    unfold JobRow.marked
    by_cases seen : row.jobKey ∈ seenJobKeys
    · simp [seen, Write.counted, selected.1]
    · simp only [seen, if_false, Write.counted, selected.1, if_true]
      split
      · simp
      · split <;> simp
  · rename_i notSelected
    dsimp only at changed
    rw [← changed] at listed ⊢
    have elsewhere : sourceId ≠ row.sourceId := by
      intro same
      simp [same, listed] at notSelected
    exact .inl ⟨row, rowMember, listed, rfl, rfl, by simp [Write.counted, elsewhere]⟩

theorem counted_closed {sourceId : String} {exclusions : Exclusions} {new : JobRow}
    (member : new ∈ (database.closeConfiguredExcludedJobs sourceId exclusions).jobs)
    (listed : new.listed = true) :
    Counted derivations database (.closeExcluded sourceId exclusions) new := by
  have kept : new ∈ database.jobs := by
    unfold Database.closeConfiguredExcludedJobs at member
    split at member
    · exact member
    · rcases List.mem_map.mp member with ⟨row, rowMember, changed⟩
      dsimp only at changed
      split at changed
      · rw [← changed] at listed
        simp [JobRow.closedByConfiguration, JobRow.listed] at listed
      · dsimp only at changed
        exact changed ▸ rowMember
  exact .inl ⟨new, kept, listed, rfl, rfl, rfl⟩

theorem WriteStep.counted {write : Write} (step : WriteStep derivations database write next) :
    ∀ new ∈ next.jobs, new.listed = true → Counted derivations database write new := by
  intro new member listed
  cases step with
  | upsert accepted =>
    rcases upsertJob_eq_ok accepted with ⟨stored, _, upserted⟩
    exact counted_upserted upserted member listed
  | markMissing => exact counted_marked member listed
  | closeExcluded => exact counted_closed member listed

theorem missedCalls_append {jobKey sourceId : String} {writes : List Write} {write : Write} :
    missedCalls derivations jobKey sourceId (writes ++ [write]) =
      write.counted derivations jobKey sourceId
        (missedCalls derivations jobKey sourceId writes) := by
  simp [missedCalls]

theorem missingRunCount_eq_missedCalls {writes : List Write}
    (run : Run (WriteStep derivations) {} writes database) :
    ∀ row ∈ database.jobs, row.listed = true →
      row.missingRunCount = missedCalls derivations row.jobKey row.sourceId writes := by
  apply run.invariant_history fun writes database => ∀ row ∈ database.jobs,
    row.listed = true →
      row.missingRunCount = missedCalls derivations row.jobKey row.sourceId writes
  · intro past state write next step holds new member listed
    rw [missedCalls_append]
    rcases step.counted new member listed with
      ⟨row, rowMember, rowListed, key, source, count⟩ | ⟨count, starts⟩
    · rw [count, key, source, holds row rowMember rowListed]
    · rw [count, starts]
  · simp

end Counting

section Runs

variable {derivations : Derivations} {database next : Database}

theorem Consistent.run {writes : List Write} (consistent : Consistent database)
    (run : Run (WriteStep derivations) database writes next) : Consistent next :=
  run.invariant Consistent
    (fun _ _ _ step held => (step.advance held.distinct).consistent held) consistent

theorem kept_of_touches {row new : JobRow} {touches : List (Option ChangeEvent)}
    (run : Run Touched row touches new) :
    new.jobKey = row.jobKey ∧ new.firstSeenAt = row.firstSeenAt := by
  induction run with
  | nil => exact ⟨rfl, rfl⟩
  | cons touch _ induction =>
    exact ⟨induction.1.trans touch.jobKey, induction.2.trans touch.firstSeenAt⟩

theorem unchanged_of_silent {row new : JobRow} {touches : List (Option ChangeEvent)}
    (run : Run Touched row touches new) (silent : touches.reduceOption = []) :
    new.status = row.status ∧ new.normalizedHash = row.normalizedHash := by
  induction run with
  | nil => exact ⟨rfl, rfl⟩
  | @cons current middle final event events touch _ induction =>
    cases event with
    | none =>
      rw [List.reduceOption_cons_of_none] at silent
      have later := induction silent
      have first := touch.silent rfl
      exact ⟨later.1.trans first.1, later.2.trans first.2⟩
    | some event => simp at silent

theorem touches_of_run {writes : List Write} (run : Run (WriteStep derivations) database writes next)
    (consistent : Consistent database) {row : JobRow} (member : row ∈ database.jobs) :
    ∃ new ∈ next.jobs, ∃ touches, Run Touched row touches new ∧
      next.eventsOf row.jobKey = database.eventsOf row.jobKey ++ touches.reduceOption := by
  induction run generalizing row with
  | nil => exact ⟨row, member, [], .nil row, by simp⟩
  | cons step _ induction =>
    have advance := step.advance consistent.distinct
    rcases advance.kept row member with ⟨middle, middleMember, event, touch, first⟩
    rcases induction (advance.consistent consistent) middleMember with
      ⟨new, newMember, touches, rest, later⟩
    refine ⟨new, newMember, event :: touches, .cons touch rest, ?_⟩
    rw [← touch.jobKey, later, touch.jobKey, first, List.append_assoc]
    cases event <;> simp

end Runs

/-- For every run of the writers from an empty database: (a) the events of a key
are chained from its creation to the stored hash, and belong to a row; (b) a
call takes a row through touches, each of which changes the status exactly with
an event other than `updated`, and without an event changes neither status nor
hash; (c) a listed row counts the missed calls; (d) `first_seen_at` stays. -/
theorem lifecycleLog {derivations : Derivations} {database : Database} {calls : List Call}
    (run : Run (Step derivations) {} calls database) :
    ((∀ row ∈ database.jobs, Chained (database.eventsOf row.jobKey) ∧
        lastHash (database.eventsOf row.jobKey) = some row.normalizedHash) ∧
      (∀ event ∈ database.changeEvents, ∃ row ∈ database.jobs, row.jobKey = event.jobKey)) ∧
    (∀ call next, Step derivations database call next → ∀ row ∈ database.jobs,
      ∃ new ∈ next.jobs, new.jobKey = row.jobKey ∧
        (∃ touches, Run Touched row touches new ∧
          next.eventsOf row.jobKey = database.eventsOf row.jobKey ++ touches.reduceOption) ∧
        (next.eventsOf row.jobKey = database.eventsOf row.jobKey →
          new.status = row.status ∧ new.normalizedHash = row.normalizedHash)) ∧
    (∀ row ∈ database.jobs, row.listed = true → row.missingRunCount =
      missedCalls derivations row.jobKey row.sourceId (calls.flatMap Call.writes)) ∧
    (∀ calls later, Run (Step derivations) database calls later →
      ∀ row ∈ database.jobs, ∀ new ∈ later.jobs, new.jobKey = row.jobKey →
        new.firstSeenAt = row.firstSeenAt) := by
  have writes := run.flatMap fun _ _ _ step => step.writes
  have consistent := Consistent.empty.run writes
  refine ⟨⟨?_, consistent.owned⟩, ?_, missingRunCount_eq_missedCalls writes, ?_⟩
  · exact fun row member => ⟨consistent.chained row member, consistent.hashed row member⟩
  · intro call next step row member
    rcases touches_of_run step.writes consistent member with
      ⟨new, newMember, touches, touched, events⟩
    refine ⟨new, newMember, (kept_of_touches touched).1, ⟨touches, touched, events⟩, ?_⟩
    intro sameEvents
    apply unchanged_of_silent touched
    simpa [sameEvents] using events
  · intro calls later onward row member new newMember key
    have laterWrites := onward.flatMap fun _ _ _ step => step.writes
    rcases touches_of_run laterWrites consistent member with ⟨other, otherMember, _, touched, _⟩
    have kept := kept_of_touches touched
    have same : new = other := eq_of_key_eq (consistent.run laterWrites).distinct newMember
      otherMember (key.trans kept.1.symm)
    exact same ▸ kept.2

private def plainDerivations : Derivations where
  identityKey job := job.externalId.getD ""
  contentHash job := job.title
  postingFingerprint job := job.title
  mergeExistingDetailFields job _ := .ok job
  fromIsoFormat _ := none

private def officer : JobRecord where
  sourceId := "undp"
  orgId := "UNDP"
  atsFamily := "oracle"
  title := "Officer"
  applyUrl := "/1"
  externalId := some "1"
  firstSeenAt := 5
  lastSeenAt := 5

private def officerRow : JobRow :=
  insertedRow "1" "Officer" { officer with
    normalizedHash := some "Officer", postingFingerprint := some "Officer" }

private def officerListed : Database where
  jobs := [officerRow]
  changeEvents :=
    [{ sourceId := "undp", jobKey := "1", changeType := .created, oldHash := none
       newHash := some "Officer" }]
  snapshots := [{ sourceId := "undp", jobKey := "1", contentHash := "Officer", observedAt := 5 }]

/-- A listed vacancy goes missing at the second call that does not list it. -/
theorem lifecycleLog_missing :
    ∃ database, Run (Step plainDerivations) {}
        [.upsertJobs [(5, officer)], .markMissing "undp" [] 2 fun _ => 6,
          .markMissing "undp" [] 2 fun _ => 7] database ∧
      database.jobs = [{ officerRow with status := "missing", missingRunCount := 2 }] ∧
      (database.eventsOf "1").map ChangeEvent.changeType = [.created, .missing] ∧
      Chained (database.eventsOf "1") ∧ lastHash (database.eventsOf "1") = some "Officer" := by
  have inserted : Step plainDerivations {} (.upsertJobs [(5, officer)]) officerListed :=
    .upsertJobs rfl
  have missed : ∀ database time, Step plainDerivations database
      (.markMissing "undp" [] 2 fun _ => time)
      (database.markMissing "undp" [] 2 fun _ => time) := fun _ _ => .markMissing
  have run := Run.cons inserted (.cons (missed _ 6) (.single (missed _ 7)))
  have holds := (lifecycleLog run).1.1 { officerRow with status := "missing", missingRunCount := 2 }
    (by exact List.mem_singleton.mpr rfl)
  exact ⟨_, run, rfl, rfl, holds⟩

end JobAgg.JobDatabase
