import JobAgg.PublicationWork.Tracking

/-! # Time transitions

A transition names its unit by its key, and the due time of a listing transition
is the stored `last_list_at` of its source plus the maximal age. A transition
that has not fired therefore keeps its due time until a write, or its firing,
records a new version of its unit.
-/

namespace JobAgg.PublicationWork

inductive Transition.Shaped (row : Transition) : Prop
  | closing {job : String} (nonempty : job ≠ "") (keyed : row.objectKey = closingKey job)
      (owned : row.jobKey = some job)
  | detail {job : String} (nonempty : job ≠ "") (keyed : row.objectKey = detailKey job)
      (owned : row.jobKey = some job)
  | listing (keyed : row.objectKey = listingKey row.sourceId) (unowned : row.jobKey = none)

theorem truthy_some {text : String} (nonempty : text ≠ "") : truthy (some text) = some text := by
  simp [truthy, Option.filter, nonempty]

@[simp] theorem closingKey_inj {job other : String} :
    closingKey job = closingKey other ↔ job = other := by
  exact String.append_right_inj _

@[simp] theorem freshnessKey_inj {kind key other : String} :
    freshnessKey kind key = freshnessKey kind other ↔ key = other := by
  rw [freshnessKey, freshnessKey, String.append_right_inj, String.append_right_inj]

@[simp] theorem closingKey_ne_freshnessKey {job kind key : String} :
    closingKey job ≠ freshnessKey kind key := by
  intro equal
  have letters := congrArg String.toList equal
  rw [closingKey, freshnessKey, String.toList_append, String.toList_append,
    String.toList_ofList, String.toList_ofList] at letters
  simp at letters

@[simp] theorem detailKey_ne_listingKey {job source : String} :
    detailKey job ≠ listingKey source := by
  intro equal
  rw [detailKey, listingKey, freshnessKey, freshnessKey, String.append_right_inj,
    String.append_assoc, String.append_assoc] at equal
  have letters := congrArg String.toList equal
  rw [String.toList_append, String.toList_append, String.toList_ofList,
    String.toList_ofList] at letters
  simp at letters

namespace Transition

variable {row other : Transition}

theorem dirtyUnit_of_job {job : String} (nonempty : job ≠ "") (owned : row.jobKey = some job) :
    row.dirtyUnit.unit = "job:" ++ job := by
  simp [dirtyUnit, owned, truthy_some nonempty]

theorem dirtyUnit_of_listing (unowned : row.jobKey = none) :
    row.dirtyUnit.unit = "listing:" ++ row.sourceId := by
  simp [dirtyUnit, unowned, truthy]

theorem Shaped.unit_eq (shaped : row.Shaped) (otherShaped : other.Shaped)
    (sameKey : row.objectKey = other.objectKey) :
    row.dirtyUnit.unit = other.dirtyUnit.unit := by
  cases shaped with
  | @closing job nonempty keyed owned =>
    cases otherShaped with
    | closing otherNonempty otherKeyed otherOwned =>
      rw [keyed, otherKeyed, closingKey_inj] at sameKey
      rw [dirtyUnit_of_job nonempty owned, dirtyUnit_of_job otherNonempty otherOwned, sameKey]
    | detail _ otherKeyed _ => simp [keyed, otherKeyed, detailKey] at sameKey
    | listing otherKeyed _ => simp [keyed, otherKeyed, listingKey] at sameKey
  | @detail job nonempty keyed owned =>
    cases otherShaped with
    | closing _ otherKeyed _ => simp [keyed, otherKeyed, detailKey, eq_comm] at sameKey
    | detail otherNonempty otherKeyed otherOwned =>
      rw [keyed, otherKeyed, detailKey, detailKey, freshnessKey_inj] at sameKey
      rw [dirtyUnit_of_job nonempty owned, dirtyUnit_of_job otherNonempty otherOwned, sameKey]
    | listing otherKeyed _ => simp [keyed, otherKeyed] at sameKey
  | listing keyed unowned =>
    cases otherShaped with
    | closing _ otherKeyed _ => simp [keyed, otherKeyed, listingKey, eq_comm] at sameKey
    | detail _ otherKeyed _ => simp [keyed, otherKeyed, eq_comm] at sameKey
    | listing otherKeyed otherUnowned =>
      rw [keyed, otherKeyed, listingKey, listingKey, freshnessKey_inj] at sameKey
      rw [dirtyUnit_of_listing unowned, dirtyUnit_of_listing otherUnowned, sameKey]

theorem Shaped.carry {old : Transition} {movesSource : Bool} (shaped : old.Shaped)
    (stays : movesSource = true → ∀ source, old.objectKey ≠ listingKey source) :
    (row.carry movesSource old).Shaped := by
  cases shaped with
  | closing nonempty keyed owned => exact .closing nonempty keyed owned
  | detail nonempty keyed owned => exact .detail nonempty keyed owned
  | listing keyed unowned =>
    cases movesSource with
    | true => exact absurd keyed (stays rfl _)
    | false => exact .listing keyed unowned

end Transition

section Upsert

variable {store : Store} {row kept : Transition} {movesSource : Bool}

theorem mem_upsertTransition
    (member : kept ∈ (store.upsertTransition row movesSource).transitions) :
    (kept ∈ store.transitions ∧ kept.objectKey ≠ row.objectKey) ∨ kept = row ∨
      ∃ old ∈ store.transitions, old.objectKey = row.objectKey ∧
        kept = row.carry movesSource old := by
  unfold Store.upsertTransition at member
  dsimp only at member
  split at member
  · rcases mem_updateWhere.mp member with ⟨old, oldMember, rfl⟩
    by_cases same : old.objectKey = row.objectKey
    · exact .inr (.inr ⟨old, oldMember, same, by simp [same]⟩)
    · exact .inl (by simpa [same] using oldMember)
  · rename_i absent
    have different : ∀ old ∈ store.transitions, old.objectKey ≠ row.objectKey := by
      simpa using absent
    rcases List.mem_append.mp member with old | added
    · exact .inl ⟨old, different kept old⟩
    · exact .inr (.inl (List.mem_singleton.mp added))

theorem waiting_upsertTransition (movesSource : Bool) (member : kept ∈ store.transitions)
    (unfired : kept.fired = false)
    (sameDue : kept.objectKey = row.objectKey → kept.dueAt = row.dueAt) :
    ∃ next ∈ (store.upsertTransition row movesSource).transitions,
      next.objectKey = kept.objectKey ∧ next.fired = false ∧ next.dueAt = kept.dueAt := by
  unfold Store.upsertTransition
  dsimp only
  split
  · refine ⟨_, mem_updateWhere.mpr ⟨kept, member, rfl⟩, ?_⟩
    by_cases same : kept.objectKey = row.objectKey
    · simp [same, Transition.carry, sameDue same, unfired]
    · simp [same, unfired]
  · exact ⟨kept, List.mem_append_left _ member, rfl, unfired, rfl⟩

end Upsert

/-- Written rows carry identifiers: a job key has a colon in it and a source id
names its configuration. -/
def Mutation.Identified : Mutation → Prop
  | .jobs _ jobKey sourceId _ => jobKey ≠ "" ∧ sourceId ≠ ""
  | .observations _ jobKey sourceId _ => jobKey ≠ "" ∧ sourceId ≠ ""
  | .sources _ sourceId _ _ => sourceId ≠ ""
  | .other .. => True

structure Timed (store : Store) : Prop where
  shaped : ∀ row ∈ store.transitions, row.Shaped
  listed : ∀ freshness, store.freshness = some freshness →
    ∀ listing ∈ store.listings, ∀ row ∈ store.transitions,
      row.objectKey = listingKey listing.sourceId →
      row.dueAt = listing.lastListAt.map (· + freshness.listingMaxAgeSeconds)

section Mutate

variable {store : Store} {mutation : Mutation} {row : Transition} {movesSource : Bool}

theorem shaped_of_transitionRow (identified : mutation.Identified)
    (fires : store.transitionRow mutation = some (row, movesSource)) : row.Shaped := by
  unfold Store.transitionRow at fires
  split at fires
  · simp at fires
  · cases mutation with
    | jobs operation jobKey sourceId closesAt =>
      simp only [Option.some.injEq, Prod.mk.injEq] at fires
      rw [← fires.1]
      exact .closing identified.1 rfl rfl
    | observations operation jobKey sourceId checkedAt =>
      rcases Option.map_eq_some_iff.mp fires with ⟨freshness, _, equal⟩
      rw [← (Prod.mk.inj equal).1]
      exact .detail identified.1 rfl rfl
    | sources operation sourceId lastListAt frameChanged =>
      rcases Option.map_eq_some_iff.mp fires with ⟨freshness, _, equal⟩
      rw [← (Prod.mk.inj equal).1]
      exact .listing rfl rfl
    | other table operation payload => simp at fires

theorem key_ne_of_movesSource (fires : store.transitionRow mutation = some (row, movesSource))
    (moves : movesSource = true) {source : String} : row.objectKey ≠ listingKey source := by
  unfold Store.transitionRow at fires
  split at fires
  · simp at fires
  · cases mutation with
    | jobs operation jobKey sourceId closesAt =>
      simp only [Option.some.injEq, Prod.mk.injEq] at fires
      rw [← fires.1]
      exact closingKey_ne_freshnessKey
    | observations operation jobKey sourceId checkedAt => simp_all
    | sources operation sourceId lastListAt frameChanged => simp_all
    | other table operation payload => simp at fires

theorem dirtyUnits_of_job {table job source : String} {operation : Operation}
    {payload : Payload} {lookup : Lookup} (written : operation ≠ .delete)
    (jobNonempty : job ≠ "") (sourceNonempty : source ≠ "")
    (ofJob : payload.jobKey = some job) (ofSource : payload.sourceId = some source) :
    ∃ dirty ∈ dirtyUnits table operation payload lookup, dirty.unit = "job:" ++ job := by
  refine ⟨{ unit := "job:" ++ job, kind := .job, source, job := some job }, ?_, rfl⟩
  simp [dirtyUnits, written, ofJob, ofSource, truthy_some jobNonempty,
    truthy_some sourceNonempty]

theorem dirtyUnits_of_listing {source : String} {operation : Operation}
    {payload : Payload} {lookup : Lookup} (written : operation ≠ .delete)
    (sourceNonempty : source ≠ "") (ofJob : payload.jobKey = none)
    (ofSource : payload.sourceId = some source) (changed : payload.listingChanged = true) :
    ∃ dirty ∈ dirtyUnits "remediation_sources" operation payload lookup,
      dirty.unit = "listing:" ++ source := by
  refine ⟨{ unit := "listing:" ++ source, kind := .listing, source, job := none }, ?_, rfl⟩
  have noJob : truthy none = none := rfl
  simp [dirtyUnits, written, ofJob, ofSource, noJob, truthy_some sourceNonempty, changed]

theorem listingChanged_of_dueAt_ne {operation : Operation} {sourceId : String}
    {lastListAt : Option ℚ} {frameChanged : Bool} {freshness : Freshness} {kept : Transition}
    (timed : Timed store) (fresh : store.freshness = some freshness)
    (member : kept ∈ store.transitions) (keyed : kept.objectKey = listingKey sourceId)
    (moved : kept.dueAt ≠ lastListAt.map (· + freshness.listingMaxAgeSeconds)) :
    store.listingChanged operation sourceId lastListAt frameChanged = true := by
  unfold Store.listingChanged
  split
  · rename_i old found
    have oldMember := List.mem_of_find?_eq_some found
    have sameSource : old.sourceId = sourceId := by simpa using List.find?_some found
    have due := timed.listed freshness fresh old oldMember kept member (by rw [sameSource, keyed])
    have differ : old.lastListAt ≠ lastListAt := by
      intro same
      exact moved (by rw [due, same])
    simp [differ]
  · rfl

theorem marks_of_dueAt_ne (lookup : Lookup) {kept : Transition} (timed : Timed store)
    (identified : mutation.Identified)
    (fires : store.transitionRow mutation = some (row, movesSource))
    (member : kept ∈ store.transitions) (sameKey : kept.objectKey = row.objectKey)
    (moved : kept.dueAt ≠ row.dueAt) :
    ∃ dirty ∈ dirtyUnits mutation.table mutation.operation (store.payload mutation) lookup,
      dirty.unit = row.dirtyUnit.unit := by
  unfold Store.transitionRow at fires
  split at fires
  · simp at fires
  · rename_i written
    cases mutation with
    | jobs operation jobKey sourceId closesAt =>
      simp only [Option.some.injEq, Prod.mk.injEq] at fires
      rw [← fires.1, Transition.dirtyUnit_of_job identified.1 rfl]
      exact dirtyUnits_of_job written identified.1 identified.2 rfl rfl
    | observations operation jobKey sourceId checkedAt =>
      rcases Option.map_eq_some_iff.mp fires with ⟨freshness, _, equal⟩
      rw [← (Prod.mk.inj equal).1, Transition.dirtyUnit_of_job identified.1 rfl]
      exact dirtyUnits_of_job written identified.1 identified.2 rfl rfl
    | sources operation sourceId lastListAt frameChanged =>
      rcases Option.map_eq_some_iff.mp fires with ⟨freshness, fresh, equal⟩
      rw [← (Prod.mk.inj equal).1] at sameKey moved
      have changed : store.listingChanged operation sourceId lastListAt frameChanged = true :=
        listingChanged_of_dueAt_ne timed fresh member sameKey moved
      rw [← (Prod.mk.inj equal).1, Transition.dirtyUnit_of_listing rfl]
      exact dirtyUnits_of_listing written identified rfl rfl changed
    | other table operation payload => simp at fires

@[simp] theorem versions_transitionTriggers :
    (store.transitionTriggers mutation).versions = store.versions := by
  unfold Store.transitionTriggers
  split <;> rfl

@[simp] theorem current_transitionTriggers :
    (store.transitionTriggers mutation).current = store.current := by
  unfold Store.transitionTriggers
  split <;> rfl

@[simp] theorem listings_transitionTriggers :
    (store.transitionTriggers mutation).listings = store.listings := by
  unfold Store.transitionTriggers
  split <;> rfl

@[simp] theorem freshness_transitionTriggers :
    (store.transitionTriggers mutation).freshness = store.freshness := by
  unfold Store.transitionTriggers
  split <;> rfl

theorem writeRow_cases (next : Store) :
    (next.writeRow mutation).versions = next.versions ∧
      (next.writeRow mutation).current = next.current ∧
      (next.writeRow mutation).transitions = next.transitions ∧
      (next.writeRow mutation).freshness = next.freshness := by
  unfold Store.writeRow
  split <;> exact ⟨rfl, rfl, rfl, rfl⟩

theorem marks_mutate {lookup : Lookup} {now : ℚ}
    (tracked : Tracked store.versions store.current) :
    store.Marks (store.mutate mutation lookup now) := by
  have trackedNext : Tracked (store.transitionTriggers mutation).versions
      (store.transitionTriggers mutation).current := by simpa using tracked
  have marked : (store.transitionTriggers mutation).Marks
      ((store.transitionTriggers mutation).dirtyTrigger
        (dirtyUnits mutation.table mutation.operation (store.payload mutation) lookup) now
        (mutation.table ++ ":" ++ mutation.operation.text)) :=
    Store.marks_dirtyTrigger trackedNext
  unfold Store.mutate Store.Marks
  rw [(writeRow_cases _).1, (writeRow_cases _).2.1]
  simpa [Store.Marks] using marked

theorem transitions_mutate {lookup : Lookup} {now : ℚ} :
    (store.mutate mutation lookup now).transitions =
      (store.transitionTriggers mutation).transitions := by
  unfold Store.mutate
  rw [(writeRow_cases _).2.2.1]
  rfl

theorem freshness_mutate {lookup : Lookup} {now : ℚ} :
    (store.mutate mutation lookup now).freshness = store.freshness := by
  unfold Store.mutate
  rw [(writeRow_cases _).2.2.2]
  exact freshness_transitionTriggers

theorem listing_of_mem_mutate {lookup : Lookup} {now : ℚ} {listing : ListingRow}
    (member : listing ∈ (store.mutate mutation lookup now).listings) :
    (listing ∈ store.listings ∧ ∀ row movesSource,
      store.transitionRow mutation = some (row, movesSource) →
        row.objectKey ≠ listingKey listing.sourceId) ∨
    ∀ freshness, store.freshness = some freshness → ∃ row movesSource,
      store.transitionRow mutation = some (row, movesSource) ∧
      row.objectKey = listingKey listing.sourceId ∧
      row.dueAt = listing.lastListAt.map (· + freshness.listingMaxAgeSeconds) := by
  have listings : ((store.transitionTriggers mutation).dirtyTrigger
      (dirtyUnits mutation.table mutation.operation (store.payload mutation) lookup) now
      (mutation.table ++ ":" ++ mutation.operation.text)).listings = store.listings :=
    listings_transitionTriggers
  unfold Store.mutate Store.writeRow at member
  dsimp only at member
  rw [listings] at member
  cases mutation with
  | jobs operation jobKey sourceId closesAt =>
    refine .inl ⟨listings ▸ member, ?_⟩
    intro row movesSource fires
    unfold Store.transitionRow at fires
    split at fires
    · simp at fires
    · simp only [Option.some.injEq, Prod.mk.injEq] at fires
      rw [← fires.1]
      exact closingKey_ne_freshnessKey
  | observations operation jobKey sourceId checkedAt =>
    refine .inl ⟨listings ▸ member, ?_⟩
    intro row movesSource fires
    unfold Store.transitionRow at fires
    split at fires
    · simp at fires
    · rcases Option.map_eq_some_iff.mp fires with ⟨freshness, _, equal⟩
      rw [← (Prod.mk.inj equal).1]
      exact detailKey_ne_listingKey
  | sources operation sourceId lastListAt frameChanged =>
    by_cases deleted : operation = .delete
    · simp only [deleted, if_true] at member
      refine .inl ⟨(List.mem_filter.mp member).1, ?_⟩
      simp [Store.transitionRow, Mutation.operation, deleted]
    · simp only [deleted, if_false] at member
      rcases List.mem_append.mp member with other | new
      · rcases List.mem_filter.mp other with ⟨old, different⟩
        refine .inl ⟨old, ?_⟩
        intro row movesSource fires
        simp only [Store.transitionRow, Mutation.operation, deleted, if_false,
          Option.map_eq_some_iff, Prod.mk.injEq] at fires
        rcases fires with ⟨freshness, _, rfl, _⟩
        rw [listingKey, listingKey, Ne, freshnessKey_inj]
        exact fun same => by simp [same] at different
      · rw [List.mem_singleton.mp new]
        refine .inr fun freshness fresh => ⟨{
          objectKey := listingKey sourceId, sourceId, jobKey := none
          dueAt := lastListAt.map (· + freshness.listingMaxAgeSeconds) }, false, ?_, rfl, rfl⟩
        simp [Store.transitionRow, Mutation.operation, deleted, fresh]
  | other table operation row =>
    refine .inl ⟨listings ▸ member, ?_⟩
    simp [Store.transitionRow]

theorem Timed.mutate {lookup : Lookup} {now : ℚ} (timed : Timed store)
    (identified : mutation.Identified) : Timed (store.mutate mutation lookup now) := by
  constructor
  · intro kept member
    rw [transitions_mutate, Store.transitionTriggers] at member
    split at member
    · rename_i row movesSource fires
      have rowShaped := shaped_of_transitionRow identified fires
      rcases mem_upsertTransition member with ⟨old, _⟩ | rfl | ⟨old, oldMember, sameKey, rfl⟩
      · exact timed.shaped kept old
      · exact rowShaped
      · apply (timed.shaped old oldMember).carry
        intro moves source
        rw [sameKey]
        exact key_ne_of_movesSource fires moves
    · exact timed.shaped kept member
  · intro freshness fresh listing listingMember kept member keyed
    rw [freshness_mutate] at fresh
    rw [transitions_mutate, Store.transitionTriggers] at member
    rcases listing_of_mem_mutate listingMember with ⟨old, otherKey⟩ | written
    · split at member
      · rename_i row movesSource fires
        have different := otherKey row movesSource fires
        rcases mem_upsertTransition member with ⟨keptOld, _⟩ | rfl | ⟨carried, _, sameKey, rfl⟩
        · exact timed.listed freshness fresh listing old kept keptOld keyed
        · exact absurd keyed different
        · exact absurd (sameKey.symm.trans keyed) different
      · exact timed.listed freshness fresh listing old kept member keyed
    · rcases written freshness fresh with ⟨row, movesSource, fires, rowKeyed, rowDue⟩
      simp only [fires] at member
      rcases mem_upsertTransition member with ⟨_, different⟩ | rfl | ⟨carried, _, _, rfl⟩
      · exact absurd (keyed.trans rowKeyed.symm) different
      · exact rowDue
      · exact rowDue

/-- A transition is waiting when it has neither fired nor moved, or a version of
its unit above the bound has been recorded. -/
def Waiting (bound : ℕ) (row : Transition) (store : Store) : Prop :=
  RecordedAbove bound row.dirtyUnit.unit store.versions ∨
    ∃ kept ∈ store.transitions,
      kept.objectKey = row.objectKey ∧ kept.fired = false ∧ kept.dueAt = row.dueAt

theorem waiting_mutate {bound : ℕ} {waits : Transition} {lookup : Lookup} {now : ℚ}
    (timed : Timed store) (tracked : Tracked store.versions store.current)
    (identified : mutation.Identified) (shaped : waits.Shaped)
    (bounded : bound ≤ maxVersion (store.versions.map VersionRow.version))
    (waiting : Waiting bound waits store) :
    Waiting bound waits (store.mutate mutation lookup now) := by
  have marked : store.Marks (store.mutate mutation lookup now) := marks_mutate tracked
  rcases waiting with recorded | ⟨kept, member, sameKey, unfired, sameDue⟩
  · exact .inl (recorded.mono marked.subset)
  · cases fires : store.transitionRow mutation with
    | none =>
      refine .inr ⟨kept, ?_, sameKey, unfired, sameDue⟩
      rw [transitions_mutate, Store.transitionTriggers, fires]
      exact member
    | some fired =>
      rcases fired with ⟨row, movesSource⟩
      by_cases moved : kept.objectKey = row.objectKey ∧ kept.dueAt ≠ row.dueAt
      · left
        rcases marks_of_dueAt_ne lookup timed identified fires member moved.1 moved.2
          with ⟨dirty, dirtyMember, sameUnit⟩
        have rowShaped := shaped_of_transitionRow identified fires
        have unit := rowShaped.unit_eq shaped (moved.1.symm.trans sameKey)
        have trackedNext : Tracked (store.transitionTriggers mutation).versions
            (store.transitionTriggers mutation).current := by simpa using tracked
        have above := Store.recordedAbove_dirtyTrigger now
          (mutation.table ++ ":" ++ mutation.operation.text) trackedNext dirtyMember
          (by simpa using bounded)
        unfold Store.mutate
        rw [(writeRow_cases _).1, ← unit, ← sameUnit]
        exact above
      · right
        have stays : kept.objectKey = row.objectKey → kept.dueAt = row.dueAt := by
          intro same
          by_contra different
          exact moved ⟨same, different⟩
        rcases waiting_upsertTransition movesSource member unfired stays
          with ⟨next, nextMember, nextKey, nextUnfired, nextDue⟩
        refine ⟨next, ?_, nextKey.trans sameKey, nextUnfired, nextDue.trans sameDue⟩
        rw [transitions_mutate, Store.transitionTriggers, fires]
        exact nextMember

end Mutate

/-- Operations on other tables leave the transitions and what they depend on alone. -/
structure Store.KeepsTime (store next : Store) : Prop where
  transitions : next.transitions = store.transitions
  listings : next.listings = store.listings
  freshness : next.freshness = store.freshness

section Operations

variable {store next : Store} {bound : ℕ} {waits : Transition}

theorem Store.KeepsTime.timed (keeps : store.KeepsTime next) (timed : Timed store) :
    Timed next := by
  constructor
  · rw [keeps.transitions]
    exact timed.shaped
  · rw [keeps.freshness, keeps.listings, keeps.transitions]
    exact timed.listed

theorem Store.KeepsTime.waiting (keeps : store.KeepsTime next) (marks : store.Marks next)
    (waiting : Waiting bound waits store) : Waiting bound waits next := by
  rcases waiting with recorded | kept
  · exact .inl (recorded.mono marks.subset)
  · exact .inr (keeps.transitions ▸ kept)

theorem keepsTime_foldl_mark {Item : Type*} (dirty : Item → DirtyUnit) (changedAt : ℚ)
    (operation : String) (items : List Item) :
    store.KeepsTime (items.foldl
      (fun store item => store.mark (dirty item) changedAt operation) store) where
  transitions := by
    apply foldl_stable Store.transitions
    exact fun _ _ => rfl
  listings := by
    apply foldl_stable Store.listings
    exact fun _ _ => rfl
  freshness := by
    apply foldl_stable Store.freshness
    exact fun _ _ => rfl

theorem marks_foldl_mark {Item : Type*} (dirty : Item → DirtyUnit) (changedAt : ℚ)
    (operation : String) (items : List Item) :
    store.Marks (items.foldl
      (fun store item => store.mark (dirty item) changedAt operation) store) :=
  Store.Marks.foldl (fun _ _ => Store.marks_mark _ _ _) items

theorem revalidateContract_spec {contractSha256 receiptSha256 : String} {limit : ℕ}
    {expired : ℕ → Bool} {changedAt : ℚ} {complete : Bool}
    (paged : store.revalidateContract contractSha256 receiptSha256 limit expired changedAt =
      .ok (next, complete)) : store.Marks next ∧ store.KeepsTime next := by
  unfold Store.revalidateContract at paged
  simp only [require_bind_eq_ok] at paged
  rcases paged with ⟨_, _, paged⟩
  split at paged
  · simp only [pure_eq_ok, Prod.mk.injEq] at paged
    rw [← paged.1]
    exact ⟨.none, ⟨rfl, rfl, rfl⟩⟩
  · simp only [require_bind_eq_ok, pure_eq_ok, Prod.mk.injEq] at paged
    rw [← paged.2.1]
    refine ⟨marks_foldl_mark CurrentRow.dirtyUnit changedAt "contract_revalidation" _, ?_⟩
    have keeps : ∀ rows : List CurrentRow, store.KeepsTime (rows.foldl
        (fun store row => store.mark row.dirtyUnit changedAt "contract_revalidation") store) :=
      keepsTime_foldl_mark CurrentRow.dirtyUnit changedAt "contract_revalidation"
    exact ⟨(keeps _).transitions, (keeps _).listings, (keeps _).freshness⟩

theorem marks_fire (row : Transition) (changedAt : ℚ) :
    store.Marks (store.fire row changedAt) :=
  Store.marks_mark row.dirtyUnit changedAt "time_transition_revalidation"

theorem Store.Marks.bounded (marks : store.Marks next)
    (bounded : bound ≤ maxVersion (store.versions.map VersionRow.version)) :
    bound ≤ maxVersion (next.versions.map VersionRow.version) := by
  apply bounded.trans
  apply maxVersion_le
  intro version member
  rcases List.mem_map.mp member with ⟨row, rowMember, rfl⟩
  exact le_maxVersion (List.mem_map_of_mem (marks.subset rowMember))

theorem Timed.fire {row : Transition} {changedAt : ℚ} (timed : Timed store) :
    Timed (store.fire row changedAt) := by
  constructor
  · intro kept member
    rcases mem_updateWhere.mp member with ⟨old, oldMember, rfl⟩
    split
    · cases timed.shaped old oldMember with
      | closing nonempty keyed owned => exact .closing nonempty keyed owned
      | detail nonempty keyed owned => exact .detail nonempty keyed owned
      | listing keyed unowned => exact .listing keyed unowned
    · exact timed.shaped old oldMember
  · intro freshness fresh listing listingMember kept member keyed
    rcases mem_updateWhere.mp member with ⟨old, oldMember, rfl⟩
    split at keyed
    · rw [if_pos (by assumption)]
      exact timed.listed freshness fresh listing listingMember old oldMember keyed
    · rw [if_neg (by assumption)]
      exact timed.listed freshness fresh listing listingMember old oldMember keyed

theorem waiting_fire {row : Transition} {changedAt : ℚ} (rowShaped : row.Shaped)
    (shaped : waits.Shaped)
    (bounded : bound ≤ maxVersion (store.versions.map VersionRow.version))
    (waiting : Waiting bound waits store) : Waiting bound waits (store.fire row changedAt) := by
  rcases waiting with recorded | ⟨kept, member, sameKey, unfired, sameDue⟩
  · exact .inl (recorded.mono (marks_fire row changedAt).subset)
  · by_cases fired : kept.objectKey = row.objectKey
    · left
      rw [shaped.unit_eq rowShaped (sameKey.symm.trans fired)]
      exact Store.recordedAbove_mark row.dirtyUnit changedAt "time_transition_revalidation" bounded
    · right
      refine ⟨kept, mem_updateWhere.mpr ⟨kept, member, ?_⟩, sameKey, unfired, sameDue⟩
      simp [fired]

theorem mem_dueTransitions {now : ℚ} {limit : ℕ} {row : Transition}
    (member : row ∈ store.dueTransitions now limit) : row ∈ store.transitions :=
  (List.mem_filter.mp (orderBy_perm.subset (List.mem_of_mem_take member))).1

theorem Timed.advanceTime {now : ℚ} {limit : ℕ} {changedAt : ℚ} (timed : Timed store) :
    Timed (store.advanceTime now limit changedAt) := by
  unfold Store.advanceTime
  generalize store.dueTransitions now limit = rows
  induction rows generalizing store with
  | nil => exact timed
  | cons row rows induction => exact induction timed.fire

theorem marks_advanceTime (now : ℚ) (limit : ℕ) (changedAt : ℚ) :
    store.Marks (store.advanceTime now limit changedAt) := by
  unfold Store.advanceTime
  exact Store.Marks.foldl (fun store row => marks_fire row changedAt) _

theorem waiting_advanceTime {now : ℚ} {limit : ℕ} {changedAt : ℚ} (timed : Timed store)
    (shaped : waits.Shaped)
    (bounded : bound ≤ maxVersion (store.versions.map VersionRow.version))
    (waiting : Waiting bound waits store) :
    Waiting bound waits (store.advanceTime now limit changedAt) := by
  have rowsShaped : ∀ row ∈ store.dueTransitions now limit, row.Shaped :=
    fun row member => timed.shaped row (mem_dueTransitions member)
  unfold Store.advanceTime
  generalize store.dueTransitions now limit = rows at rowsShaped
  clear timed
  induction rows generalizing store with
  | nil => exact waiting
  | cons row rows induction =>
    apply induction ((marks_fire row changedAt).bounded bounded)
    · exact waiting_fire (rowsShaped row List.mem_cons_self) shaped bounded waiting
    · exact fun other member => rowsShaped other (List.mem_cons_of_mem _ member)

theorem marks_bootstrapRow (row : Store.BootstrapRow) (changedAt : ℚ) :
    store.Marks (store.bootstrapRow row changedAt) :=
  Store.marks_mark _ changedAt "verified_legacy_import"

theorem marks_bootstrap (rows : List Store.BootstrapRow) (exhausted : Bool) (changedAt : ℚ) :
    store.Marks (store.bootstrap rows exhausted changedAt) := by
  have marks : store.Marks (rows.foldl (fun store row => store.bootstrapRow row changedAt) store) :=
    Store.Marks.foldl (fun store row => marks_bootstrapRow row changedAt) rows
  exact marks

theorem mem_importClosing {transitions : List Transition} {row : Store.BootstrapRow}
    {kept : Transition} (member : kept ∈ Store.importClosing transitions row) :
    kept ∈ transitions ∨ kept.objectKey = closingKey row.key ∧ kept.jobKey = some row.key := by
  unfold Store.importClosing at member
  split at member
  · split at member
    · exact .inl member
    · rcases List.mem_append.mp member with old | added
      · exact .inl old
      · rw [List.mem_singleton.mp added]
        exact .inr ⟨rfl, rfl⟩
  · exact .inl member

theorem subset_importClosing {transitions : List Transition} {row : Store.BootstrapRow} :
    transitions ⊆ Store.importClosing transitions row := by
  unfold Store.importClosing
  split
  · split
    · exact List.Subset.refl _
    · exact List.subset_append_left _ _
  · exact List.Subset.refl _

theorem bootstrap_spec {rows : List Store.BootstrapRow} {exhausted : Bool} {changedAt : ℚ}
    (named : ∀ row ∈ rows, row.key ≠ "") (timed : Timed store) :
    Timed (store.bootstrap rows exhausted changedAt) ∧
      store.transitions ⊆ (store.bootstrap rows exhausted changedAt).transitions := by
  suffices imported : Timed (rows.foldl (fun store row => store.bootstrapRow row changedAt) store) ∧
      store.transitions ⊆
        (rows.foldl (fun store row => store.bootstrapRow row changedAt) store).transitions from
    ⟨⟨imported.1.shaped, imported.1.listed⟩, imported.2⟩
  induction rows generalizing store with
  | nil => exact ⟨timed, List.Subset.refl _⟩
  | cons row rows induction =>
    have timedNext : Timed (store.bootstrapRow row changedAt) := by
      constructor
      · intro kept member
        rcases mem_importClosing member with old | ⟨keyed, owned⟩
        · exact timed.shaped kept old
        · exact .closing (named row List.mem_cons_self) keyed owned
      · intro freshness fresh listing listingMember kept member keyed
        rcases mem_importClosing member with old | ⟨closing, _⟩
        · exact timed.listed freshness fresh listing listingMember kept old keyed
        · exact absurd (closing.symm.trans keyed) closingKey_ne_freshnessKey
    have rest := induction (fun other member => named other (List.mem_cons_of_mem _ member))
      timedNext
    exact ⟨rest.1, List.Subset.trans subset_importClosing rest.2⟩

end Operations

end JobAgg.PublicationWork
