import JobAgg.Foundation.Run
import JobAgg.JobDatabase.JobDatabase

/-! # Vacancy history

The change events of a key are a chain of hashes that starts with its creation
and ends at the stored hash. Every writer touches a row in one way only: it
changes status or hash together with an event that says so, or neither.
-/

namespace JobAgg.JobDatabase

/-- How any writer may change a row, with the event it logs. -/
structure Touched (old : JobRow) (event : Option ChangeEvent) (new : JobRow) : Prop where
  jobKey : new.jobKey = old.jobKey
  sourceId : new.sourceId = old.sourceId
  firstSeenAt : new.firstSeenAt = old.firstSeenAt
  silent : event = none → new.status = old.status ∧ new.normalizedHash = old.normalizedHash
  logged : ∀ logged ∈ event, logged.jobKey = old.jobKey ∧ logged.changeType ≠ .created ∧
    logged.oldHash = some old.normalizedHash ∧
    logged.newHash.getD old.normalizedHash = new.normalizedHash ∧
    (new.status ≠ old.status ↔ logged.changeType ≠ .updated)

theorem Touched.refl {row : JobRow} : Touched row none row :=
  ⟨rfl, rfl, rfl, fun _ => ⟨rfl, rfl⟩, by simp⟩

section Rows

variable {derivations : Derivations} {row : JobRow}

theorem reviewed_keeps (row : JobRow) (derivations : Derivations) (job : JobRecord) :
    (row.reviewed derivations job).jobKey = row.jobKey ∧
      (row.reviewed derivations job).sourceId = row.sourceId ∧
      (row.reviewed derivations job).firstSeenAt = row.firstSeenAt ∧
      (row.reviewed derivations job).status = row.status ∧
      (row.reviewed derivations job).normalizedHash = row.normalizedHash ∧
      (row.reviewed derivations job).missingRunCount = row.missingRunCount := by
  unfold JobRow.reviewed
  split <;> exact ⟨rfl, rfl, rfl, rfl, rfl, rfl⟩

theorem classifyUpsert_eq_none {status contentHash : String}
    (unchanged : classifyUpsert row status contentHash = none) :
    status = row.status ∧ contentHash = row.normalizedHash := by
  unfold classifyUpsert at unchanged
  split at unchanged
  · simp at unchanged
  · split at unchanged
    · split at unchanged
      · simp at unchanged
      · split at unchanged <;> simp at unchanged
    · rename_i sameStatus
      split at unchanged
      · simp at unchanged
      · rename_i sameHash
        exact ⟨(not_not.mp sameStatus).symm, (not_not.mp sameHash).symm⟩

theorem classifyUpsert_eq_some {status contentHash : String} {changeType : ChangeType}
    (changed : classifyUpsert row status contentHash = some changeType) :
    changeType ≠ .created ∧ (status ≠ row.status ↔ changeType ≠ .updated) := by
  unfold classifyUpsert at changed
  split at changed
  · rename_i reopened
    rw [Option.some.injEq] at changed
    rw [← changed, reopened.2]
    refine ⟨by decide, iff_of_true ?_ (by decide)⟩
    rcases reopened.1 with closed | missing
    · simp [closed]
    · simp [missing]
  · split at changed
    · rename_i different
      have moved : status ≠ row.status := Ne.symm different
      split at changed
      · rw [Option.some.injEq] at changed
        rw [← changed]
        exact ⟨by decide, iff_of_true moved (by decide)⟩
      · split at changed <;>
          (rw [Option.some.injEq] at changed
           rw [← changed]
           exact ⟨by decide, iff_of_true moved (by decide)⟩)
    · rename_i same
      split at changed
      · rw [Option.some.injEq] at changed
        rw [← changed]
        exact ⟨by decide, iff_of_false (fun moved => moved (not_not.mp same).symm) (by simp)⟩
      · simp at changed

theorem touched_refreshed {stored : JobRecord} {contentHash sourceId : String} :
    Touched row
      ((classifyUpsert row stored.status contentHash).map fun changeType =>
        { sourceId, jobKey := row.jobKey, changeType
          oldHash := some row.normalizedHash, newHash := some contentHash })
      ((row.refreshed contentHash stored).reviewed derivations stored) := by
  rcases reviewed_keeps (row.refreshed contentHash stored) derivations stored with
    ⟨sameKey, sameSource, sameSeen, status, hash, _⟩
  refine ⟨sameKey, sameSource, sameSeen, ?_, ?_⟩
  · intro silent
    have unchanged := classifyUpsert_eq_none (Option.map_eq_none_iff.mp silent)
    exact ⟨status.trans unchanged.1, hash.trans unchanged.2⟩
  · intro logged member
    rcases Option.map_eq_some_iff.mp member with ⟨changeType, changed, rfl⟩
    have classified := classifyUpsert_eq_some changed
    exact ⟨rfl, classified.1, rfl, hash.symm, status ▸ classified.2⟩

theorem touched_marked {sourceId : String} {seenJobKeys : List String} {threshold : ℤ}
    {now : Instant} (listed : row.listed = true) :
    Touched row (row.marked sourceId seenJobKeys threshold now).2
      (row.marked sourceId seenJobKeys threshold now).1 := by
  have notClosed : row.status ≠ "closed" := by
    intro closed
    simp [JobRow.listed, closed] at listed
  unfold JobRow.marked
  split
  · exact ⟨rfl, rfl, rfl, fun _ => ⟨rfl, rfl⟩, by simp⟩
  · dsimp only
    split
    · refine ⟨rfl, rfl, rfl, by simp, ?_⟩
      simpa using Ne.symm notClosed
    · split
      · split
        · rename_i missing
          exact ⟨rfl, rfl, rfl, fun _ => ⟨missing.symm, rfl⟩, by simp⟩
        · rename_i notMissing
          refine ⟨rfl, rfl, rfl, by simp, ?_⟩
          simpa using Ne.symm notMissing
      · exact ⟨rfl, rfl, rfl, fun _ => ⟨rfl, rfl⟩, by simp⟩

theorem touched_closedByConfiguration {sourceId : String} (listed : row.listed = true) :
    Touched row (row.closedByConfiguration sourceId).2 (row.closedByConfiguration sourceId).1 := by
  have notClosed : row.status ≠ "closed" := by
    intro closed
    simp [JobRow.listed, closed] at listed
  refine ⟨rfl, rfl, rfl, by simp [JobRow.closedByConfiguration], ?_⟩
  simpa [JobRow.closedByConfiguration] using Ne.symm notClosed

end Rows

def Database.eventsOf (database : Database) (jobKey : String) : List ChangeEvent :=
  database.changeEvents.filter (·.jobKey == jobKey)

def lastHash (events : List ChangeEvent) : Option String :=
  (events.filterMap ChangeEvent.newHash).getLast?

structure Chained (events : List ChangeEvent) : Prop where
  created : ∃ first rest, events = first :: rest ∧ first.changeType = .created ∧
    ∀ event ∈ rest, event.changeType ≠ .created
  linked : ∀ before event after, events = before ++ event :: after → before ≠ [] →
    event.oldHash = lastHash before

theorem lastHash_append {events : List ChangeEvent} {event : ChangeEvent} :
    lastHash (events ++ [event]) = event.newHash.or (lastHash events) := by
  unfold lastHash
  rw [List.filterMap_append]
  cases new : event.newHash with
  | none => simp [new]
  | some hash => simp [new]

theorem Chained.single {event : ChangeEvent} (created : event.changeType = .created) :
    Chained [event] := by
  refine ⟨⟨event, [], rfl, created, by simp⟩, ?_⟩
  intro before other after split nonempty
  cases before with
  | nil => exact absurd rfl nonempty
  | cons first rest => simp at split

theorem Chained.append {events : List ChangeEvent} {event : ChangeEvent}
    (chained : Chained events) (later : event.changeType ≠ .created)
    (continues : event.oldHash = lastHash events) : Chained (events ++ [event]) := by
  rcases chained.created with ⟨first, rest, shape, created, others⟩
  refine ⟨⟨first, rest ++ [event], by simp [shape], created, ?_⟩, ?_⟩
  · intro other member
    rcases List.mem_append.mp member with earlier | last
    · exact others other earlier
    · rw [List.mem_singleton.mp last]
      exact later
  · intro before other after split nonempty
    rcases List.eq_nil_or_concat after with rfl | ⟨middle, last, rfl⟩
    · rcases List.append_inj' split rfl with ⟨same, lastSame⟩
      rw [List.singleton_inj] at lastSame
      rw [← same, ← lastSame]
      exact continues
    · have regrouped : events ++ [event] = (before ++ other :: middle) ++ [last] := by
        rw [split]
        simp
      rcases List.append_inj' regrouped rfl with ⟨same, _⟩
      exact chained.linked before other middle same nonempty

end JobAgg.JobDatabase
