import JobAgg.PolicyAuthority.AttemptFiles
import Mathlib.Data.List.Dedup

/-! # What the batch projection shows

In every store that the writers leave, a scan reads each attempt once, and the batch
holds the same events in the order of their start times. The two can differ only in the
order of events that start together.
-/

namespace JobAgg.PolicyAuthority.AttemptFiles

variable {hash : String → String} {store next : Store} {files order : List (String × SharedEvent)}
  {events : List SharedEvent} {source : String}

def eventsOf (files : List (String × SharedEvent)) : List SharedEvent := files.map Prod.snd

/-- The stored files are told apart by their attempts, and the index names some of them. -/
structure Kept (hash : String → String) (store : Store) : Prop where
  distinct : (store.files.map Prod.fst).Nodup
  named : ∀ entry ∈ store.files, entry.1 = attemptFile hash entry.2.attemptId
  indexed : ∀ name ∈ store.index, name ∈ store.files.map Prod.fst
  indexDistinct : store.index.Nodup

def Shows (events : List SharedEvent) (source : String) (found : Option (List SharedEvent)) :
    Prop :=
  (found = none ∧ events.filter (SharedEvent.isDetailOf source) = []) ∨
    ∃ rows, found = some rows ∧ rows ≠ [] ∧
      rows.Perm (events.filter (SharedEvent.isDetailOf source)) ∧
      rows.Pairwise fun left right => left.startedAt ≤ right.startedAt

/-- The batch, when there is one, shows the stored events of every source. -/
def Projects (store : Store) : Prop :=
  ∀ groups, store.batch = some groups →
    ∀ source, Shows (eventsOf store.files) source (lookup source groups)

theorem filter_details :
    (details events).filter (fun event => event.sourceId == source) =
      events.filter (SharedEvent.isDetailOf source) := by
  unfold details
  rw [List.filter_filter]
  apply List.filter_congr
  intro event _
  exact Bool.and_comm _ _

theorem lookup_snapshotGroups :
    lookup source (snapshotGroups order) =
      (if (eventsOf order).filter (SharedEvent.isDetailOf source) = [] then none
        else some ((eventsOf order).filter (SharedEvent.isDetailOf source))).map
          (orderBy SharedEvent.startedAt) := by
  rw [snapshotGroups, lookup_sortGroups, lookup_grouped]
  simp only [groupOf, filter_details]
  rfl

theorem shows_snapshotGroups (scanned : order.Perm files) :
    Shows (eventsOf files) source (lookup source (snapshotGroups order)) := by
  have same : ((eventsOf order).filter (SharedEvent.isDetailOf source)).Perm
      ((eventsOf files).filter (SharedEvent.isDetailOf source)) := (scanned.map _).filter _
  rw [lookup_snapshotGroups]
  by_cases empty : (eventsOf order).filter (SharedEvent.isDetailOf source) = []
  · left
    rw [empty] at same
    rw [if_pos empty]
    exact ⟨rfl, same.symm.eq_nil⟩
  · right
    rw [if_neg empty]
    refine ⟨_, rfl, ?_, orderBy_perm.trans same, orderBy_ordered⟩
    intro sorted
    have perm := @orderBy_perm SharedEvent ℚ _ SharedEvent.startedAt
      ((eventsOf order).filter (SharedEvent.isDetailOf source))
    rw [sorted] at perm
    exact empty perm.symm.eq_nil

/-- No two detail events of a source start together. -/
def NoTies (events : List SharedEvent) : Prop :=
  ∀ left ∈ events, ∀ right ∈ events, left.kind = .detail → right.kind = .detail →
    left.sourceId = right.sourceId → left.startedAt = right.startedAt → left = right

theorem isDetailOf_iff {event : SharedEvent} :
    event.isDetailOf source = true ↔ event.kind = .detail ∧ event.sourceId = source := by
  simp [SharedEvent.isDetailOf]

theorem Shows.unique {left right : Option (List SharedEvent)} (noTies : NoTies events)
    (first : Shows events source left) (second : Shows events source right) : left = right := by
  rcases first with ⟨rfl, empty⟩ | ⟨rows, rfl, present, perm, ordered⟩
  · rcases second with ⟨rfl, _⟩ | ⟨others, rfl, present, perm, _⟩
    · rfl
    · rw [empty] at perm
      exact absurd perm.eq_nil present
  · rcases second with ⟨rfl, empty⟩ | ⟨others, rfl, _, otherPerm, otherOrdered⟩
    · rw [empty] at perm
      exact absurd perm.eq_nil present
    · congr 1
      apply eq_of_perm_of_ordered (perm.trans otherPerm.symm) ordered otherOrdered
      intro a aMember b bMember equal
      rcases List.mem_filter.mp (perm.mem_iff.mp aMember) with ⟨aStored, aOf⟩
      rcases List.mem_filter.mp (perm.mem_iff.mp bMember) with ⟨bStored, bOf⟩
      rw [isDetailOf_iff] at aOf bOf
      exact noTies a aStored b bStored aOf.1 bOf.1 (aOf.2.trans bOf.2.symm) equal

/-! ## Writes -/

/-- A write of one event in place of its earlier state, seen by source. -/
structure Replaces (event : SharedEvent) (before after : List SharedEvent) : Prop where
  perm : after.Perm (before.filter (fun old => old.attemptId != event.attemptId) ++ [event])
  sameSource : ∀ old ∈ before, old.attemptId = event.attemptId →
    old.sourceId = event.sourceId ∧ old.kind = event.kind

theorem Replaces.filter {event : SharedEvent} {before after : List SharedEvent}
    (replaces : Replaces event before after) :
    (after.filter (SharedEvent.isDetailOf source)).Perm
      ((before.filter (SharedEvent.isDetailOf source)).filter
          (fun old => old.attemptId != event.attemptId) ++
        [event].filter (SharedEvent.isDetailOf source)) := by
  have perm := replaces.perm.filter (SharedEvent.isDetailOf source)
  rw [List.filter_append, List.filter_comm] at perm
  exact perm

theorem Replaces.filter_of_not {event : SharedEvent} {before after : List SharedEvent}
    (replaces : Replaces event before after) (other : event.isDetailOf source = false) :
    (after.filter (SharedEvent.isDetailOf source)).Perm
      (before.filter (SharedEvent.isDetailOf source)) := by
  have perm := @Replaces.filter source event before after replaces
  have kept : (before.filter (SharedEvent.isDetailOf source)).filter
      (fun old => old.attemptId != event.attemptId) =
        before.filter (SharedEvent.isDetailOf source) := by
    apply List.filter_eq_self.mpr
    intro old member
    rcases List.mem_filter.mp member with ⟨stored, isOf⟩
    rw [bne_iff_ne]
    intro same
    have identity := replaces.sameSource old stored same
    rw [isDetailOf_iff, identity.1, identity.2, ← isDetailOf_iff, other] at isOf
    cases isOf
  rw [kept, List.filter_cons_of_neg (by simp [other]), List.filter_nil, List.append_nil] at perm
  exact perm

theorem Shows.of_perm {later : List SharedEvent} {found : Option (List SharedEvent)}
    (same : (later.filter (SharedEvent.isDetailOf source)).Perm
      (events.filter (SharedEvent.isDetailOf source)))
    (shows : Shows events source found) : Shows later source found := by
  rcases shows with ⟨absent, empty⟩ | ⟨rows, found, present, perm, ordered⟩
  · rw [empty] at same
    exact .inl ⟨absent, same.eq_nil⟩
  · exact .inr ⟨rows, found, present, perm.trans same.symm, ordered⟩

theorem shows_updateGroups {event : SharedEvent} {before after : List SharedEvent}
    {groups : Groups} (replaces : Replaces event before after)
    (shows : ∀ source, Shows before source (lookup source groups)) (source : String) :
    Shows after source (lookup source (updateGroups event groups)) := by
  unfold updateGroups
  by_cases isDetail : event.kind = .detail
  · rw [if_pos isDetail]
    by_cases same : event.sourceId = source
    · subst same
      right
      rw [lookup_assign_self]
      have isOf : event.isDetailOf event.sourceId = true := isDetailOf_iff.mpr ⟨isDetail, rfl⟩
      have perm := @Replaces.filter event.sourceId event before after replaces
      rw [List.filter_cons_of_pos isOf, List.filter_nil] at perm
      have rows : ((lookup event.sourceId groups).getD []).Perm
          (before.filter (SharedEvent.isDetailOf event.sourceId)) := by
        rcases shows event.sourceId with ⟨absent, empty⟩ | ⟨rows, found, _, perm, _⟩
        · rw [absent, empty]
          rfl
        · rw [found]
          exact perm
      refine ⟨_, rfl, ?_, ?_, orderBy_ordered⟩
      · intro empty
        have member : event ∈ orderBy SharedEvent.startedAt
            (((lookup event.sourceId groups).getD []).filter
              (fun row => row.attemptId != event.attemptId) ++ [event]) :=
          mem_orderBy.mpr (by simp)
        rw [empty] at member
        cases member
      · exact (orderBy_perm.trans ((rows.filter _).append_right _)).trans perm.symm
    · rw [lookup_assign_of_ne (Ne.symm same)]
      apply Shows.of_perm _ (shows source)
      apply replaces.filter_of_not
      simp [SharedEvent.isDetailOf, same]
  · rw [if_neg isDetail]
    apply Shows.of_perm _ (shows source)
    apply replaces.filter_of_not
    simp [SharedEvent.isDetailOf, isDetail]

/-! ## Stores that the writers leave -/

theorem Kept.idsNodup (kept : Kept hash store) :
    ((eventsOf store.files).map SharedEvent.attemptId).Nodup := by
  apply List.Nodup.of_map (attemptFile hash)
  have names : ((eventsOf store.files).map SharedEvent.attemptId).map (attemptFile hash) =
      store.files.map Prod.fst := by
    rw [eventsOf, List.map_map, List.map_map]
    apply List.map_congr_left
    intro entry member
    exact (kept.named entry member).symm
  rw [names]
  exact kept.distinct

theorem writeReservation_eq_ok {reservation : Reservation} :
    writeReservation hash store reservation = .ok next ↔
      attemptFile hash reservation.attemptId ∉ store.files.map Prod.fst ∧
        { store with
          files := store.files ++
            [(attemptFile hash reservation.attemptId, reservation.event)] } = next := by
  rw [writeReservation, require_bind_eq_ok, pure_eq_ok]
  apply and_congr _ Iff.rfl
  simp only [Bool.not_eq_true', List.any_eq_false, beq_iff_eq, List.mem_map, not_exists, not_and]

theorem Kept.writeReservation {reservation : Reservation}
    (written : writeReservation hash store reservation = .ok next) (kept : Kept hash store) :
    Kept hash next := by
  rw [writeReservation_eq_ok] at written
  rcases written with ⟨absent, rfl⟩
  refine ⟨?_, ?_, ?_, kept.indexDistinct⟩
  · rw [List.map_append, List.map_singleton]
    refine List.nodup_append.mpr ⟨kept.distinct, List.nodup_singleton _, ?_⟩
    intro name old other added same
    rw [same, List.mem_singleton.mp added] at old
    exact absent old
  · intro entry member
    rcases List.mem_append.mp member with old | added
    · exact kept.named entry old
    · rw [List.mem_singleton.mp added]
      rfl
  · intro name listed
    rw [List.map_append]
    exact List.mem_append_left _ (kept.indexed name listed)

theorem replaces_writeReservation {reservation : Reservation} (kept : Kept hash store)
    (written : AttemptFiles.writeReservation hash store reservation = .ok next) :
    Replaces reservation.event (eventsOf store.files) (eventsOf next.files) := by
  rw [writeReservation_eq_ok] at written
  rcases written with ⟨absent, rfl⟩
  have other : ∀ old ∈ eventsOf store.files, old.attemptId ≠ reservation.event.attemptId := by
    intro old member same
    rcases List.mem_map.mp member with ⟨entry, stored, rfl⟩
    apply absent
    have named := kept.named entry stored
    rw [same] at named
    exact List.mem_map.mpr ⟨entry, stored, named⟩
  constructor
  · have unchanged : (eventsOf store.files).filter
        (fun old => old.attemptId != reservation.event.attemptId) = eventsOf store.files :=
      List.filter_eq_self.mpr fun old member => bne_iff_ne.mpr (other old member)
    rw [unchanged, eventsOf, List.map_append]
    rfl
  · intro old member same
    exact absurd same (other old member)

theorem Kept.writeIndex {name : String} (present : name ∈ store.files.map Prod.fst)
    (kept : Kept hash store) : Kept hash (writeIndex store name) where
  distinct := kept.distinct
  named := kept.named
  indexed other listed := by
    have member := List.mem_dedup.mp (mem_orderBy.mp listed)
    rcases List.mem_append.mp member with old | added
    · exact kept.indexed other old
    · rw [List.mem_singleton.mp added]
      exact present
  indexDistinct := orderBy_perm.nodup_iff.mpr (List.nodup_dedup _)

theorem assign_of_split {key : String} {old value : SharedEvent}
    {before after : List (String × SharedEvent)}
    (distinct : ((before ++ (key, old) :: after).map Prod.fst).Nodup) :
    assign key value (before ++ (key, old) :: after) = before ++ (key, value) :: after := by
  rw [assign, if_pos (by simp)]
  exact @updateWhere_key (String × SharedEvent) String (fun _ => (key, value)) _ _ Prod.fst
    (key, old) before after distinct

theorem finish_eq_ok {attemptId status : String} {now : ℚ}
    (ended : finish hash store attemptId status now = .ok next) :
    ∃ event finished, lookup (attemptFile hash attemptId) store.files = some event ∧
      finished = { event with finishedAt := some now, status := status } ∧
      next = batchUpdate
        { store with files := assign (attemptFile hash attemptId) finished store.files }
        finished := by
  unfold finish at ended
  cases found : lookup (attemptFile hash attemptId) store.files with
  | none =>
    simp only [found] at ended
    cases ended
  | some event =>
    simp only [found, Except.ok.injEq] at ended
    exact ⟨event, _, rfl, rfl, ended.symm⟩

theorem Kept.split {name : String} {event : SharedEvent} (kept : Kept hash store)
    (found : lookup name store.files = some event) :
    ∃ before after, store.files = before ++ (name, event) :: after ∧
      ∀ value, assign name value store.files = before ++ (name, value) :: after := by
  rcases List.append_of_mem (mem_of_lookup_eq_some found) with ⟨before, after, split⟩
  refine ⟨before, after, split, ?_⟩
  intro value
  have distinct := kept.distinct
  rw [split] at distinct ⊢
  exact assign_of_split distinct

theorem Kept.rewrite {name : String} {event finished : SharedEvent}
    (found : lookup name store.files = some event)
    (same : finished.attemptId = event.attemptId) (kept : Kept hash store) :
    Kept hash { store with files := assign name finished store.files } := by
  rcases kept.split found with ⟨before, after, split, rewritten⟩
  have names : (assign name finished store.files).map Prod.fst = store.files.map Prod.fst := by
    rw [rewritten, split]
    simp
  refine ⟨?_, ?_, ?_, kept.indexDistinct⟩
  · simpa only [names] using kept.distinct
  · intro entry member
    rcases mem_assign member with rfl | old
    · rw [same]
      exact kept.named _ (mem_of_lookup_eq_some found)
    · exact kept.named entry old
  · simpa only [names] using kept.indexed

theorem replaces_rewrite {name : String} {event finished : SharedEvent} (kept : Kept hash store)
    (found : lookup name store.files = some event)
    (same : finished.attemptId = event.attemptId)
    (identity : event.sourceId = finished.sourceId ∧ event.kind = finished.kind) :
    Replaces finished (eventsOf store.files) (eventsOf (assign name finished store.files)) := by
  rcases kept.split found with ⟨before, after, split, rewritten⟩
  have ids := kept.idsNodup
  have events : eventsOf store.files = eventsOf before ++ event :: eventsOf after := by
    rw [split, eventsOf, List.map_append, List.map_cons]
    rfl
  constructor
  · rw [events] at ids
    rw [rewritten, events, same, filter_key_ne ids, eventsOf, List.map_append, List.map_cons]
    exact List.perm_middle.trans (List.perm_append_singleton _ _).symm
  · intro old member equal
    have isEvent : old = event := by
      apply eq_of_key_eq ids member _ (equal.trans same)
      rw [events]
      exact List.mem_append_right _ List.mem_cons_self
    rw [isEvent]
    exact identity

structure Sound (hash : String → String) (store : Store) : Prop where
  kept : Kept hash store
  projects : Projects store

theorem Kept.withBatch {batch : Option Groups} (kept : Kept hash store) :
    Kept hash { store with batch := batch } where
  distinct := kept.distinct
  named := kept.named
  indexed := kept.indexed
  indexDistinct := kept.indexDistinct

theorem projects_batchUpdate {event : SharedEvent} (projects : Projects store)
    (sameBatch : next.batch = store.batch)
    (replaces : Replaces event (eventsOf store.files) (eventsOf next.files)) :
    Projects (batchUpdate next event) := by
  intro groups holds
  rcases Option.map_eq_some_iff.mp holds with ⟨before, held, rfl⟩
  rw [sameBatch] at held
  exact shows_updateGroups replaces (projects before held)

theorem Sound.reserve {reservation : Reservation} (sound : Sound hash store)
    (reserved : reserve hash store reservation = .ok next) : Sound hash next := by
  rcases bind_eq_ok.mp reserved with ⟨written, writes, reserved⟩
  rw [pure_eq_ok] at reserved
  subst reserved
  have replaces := replaces_writeReservation sound.kept writes
  have kept := sound.kept.writeReservation writes
  have files := (writeReservation_eq_ok.mp writes).2
  constructor
  · apply Kept.withBatch
    apply kept.writeIndex
    rw [← files]
    simp
  · apply projects_batchUpdate sound.projects _ replaces
    rw [← files]

theorem Sound.finish {attemptId status : String} {now : ℚ} (sound : Sound hash store)
    (finished : finish hash store attemptId status now = .ok next) : Sound hash next := by
  rcases finish_eq_ok finished with ⟨event, _, found, rfl, rfl⟩
  constructor
  · apply Kept.withBatch
    apply sound.kept.rewrite found
    rfl
  · exact projects_batchUpdate sound.projects rfl
      (replaces_rewrite sound.kept found rfl ⟨rfl, rfl⟩)

theorem Sound.after (sound : Sound hash store) (request : Call) :
    Sound hash (after hash store request) := by
  unfold AttemptFiles.after
  cases called : call hash store request with
  | error message => exact sound
  | ok next =>
    cases request with
    | reserve reservation => exact sound.reserve called
    | finish attemptId status now => exact sound.finish called

theorem Sound.crashed (kept : Kept hash store) : Sound hash (crashed store) where
  kept := kept.withBatch
  projects _ held := by cases held

/-! ## Reading a store -/

theorem isAttemptFile_attemptFile {attemptId : String}
    (isHash : isSha256 (hash attemptId) = true) :
    isAttemptFile (attemptFile hash attemptId) = true := by
  have length : (hash attemptId).toList.length = 64 := by
    have sized := isHash
    simp only [isSha256, Bool.and_eq_true, beq_iff_eq] at sized
    rw [String.length_toList]
    exact sized.1
  have letters : (attemptFile hash attemptId).toList =
      (hash attemptId).toList ++ ".json".toList := String.toList_append
  rw [isAttemptFile, letters, List.take_left' length, List.drop_left' length,
    String.ofList_toList, isHash]
  rfl

theorem eventSnapshot_of_kept (hashes : ∀ text, isSha256 (hash text) = true)
    (kept : Kept hash store) (scanned : order.Perm store.files) :
    eventSnapshot store order = .ok (snapshotGroups order) := by
  have names : ∀ name ∈ store.index, ∃ entry ∈ order, entry.1 = name := by
    intro name listed
    rcases List.mem_map.mp (kept.indexed name listed) with ⟨entry, stored, same⟩
    exact ⟨entry, scanned.mem_iff.mpr stored, same⟩
  rw [eventSnapshot, require_bind_eq_ok, require_bind_eq_ok]
  refine ⟨?_, ?_, rfl⟩
  · rw [Bool.and_eq_true, List.all_eq_true, decide_eq_true_eq]
    refine ⟨?_, kept.indexDistinct⟩
    intro name listed
    rcases names name listed with ⟨entry, present, rfl⟩
    rw [kept.named entry (scanned.mem_iff.mp present)]
    exact isAttemptFile_attemptFile (hashes _)
  · rw [List.all_eq_true]
    intro name listed
    rw [List.any_eq_true]
    rcases names name listed with ⟨entry, present, same⟩
    exact ⟨entry, present, beq_iff_eq.mpr same⟩

theorem Sound.step {action : Action} (hashes : ∀ text, isSha256 (hash text) = true)
    (sound : Sound hash store) (step : Step hash store action next) : Sound hash next := by
  cases action with
  | call request => exact step ▸ sound.after request
  | crash => exact step ▸ .crashed sound.kept
  | crashInReserve reservation =>
    rcases step with ⟨written, writes, rfl⟩
    exact .crashed (sound.kept.writeReservation writes)
  | beginBatch order =>
    rcases step with ⟨scanned, begun⟩
    rw [AttemptFiles.beginBatch, eventSnapshot_of_kept hashes sound.kept scanned] at begun
    cases begun
    refine ⟨sound.kept.withBatch, ?_⟩
    intro groups held source
    cases held
    exact shows_snapshotGroups scanned
  | finishBatch order =>
    rcases step with ⟨scanned, rfl⟩
    cases finished : finishBatch store order with
    | error message => exact .crashed sound.kept
    | ok ended =>
      unfold AttemptFiles.finishBatch at finished
      cases held : store.batch with
      | none =>
        simp only [held, pure_eq_ok] at finished
        subst finished
        exact sound
      | some groups =>
        simp only [held] at finished
        rcases bind_eq_ok.mp finished with ⟨actual, _, finished⟩
        rw [require_bind_eq_ok, pure_eq_ok] at finished
        rcases finished with ⟨_, rfl⟩
        exact .crashed sound.kept

end JobAgg.PolicyAuthority.AttemptFiles
