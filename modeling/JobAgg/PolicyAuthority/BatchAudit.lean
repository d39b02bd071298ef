import JobAgg.PolicyAuthority.BatchEvidence

/-! # The final audit of a batch

The audit compares the batch with a new scan. It passes for every scan exactly when no
two detail attempts of a source start together. A reservation that a crash left out of
the index is still read, and still refused a second time.
-/

namespace JobAgg.PolicyAuthority.AttemptFiles

variable {hash : String → String} {store next : Store} {order : List (String × SharedEvent)}
  {attempts : List SharedEvent} {groups : Groups} {reservation : Reservation}

theorem sound_initialized : Sound hash (initialized hash attempts) := by
  have files : ((initialized hash attempts).files.map Prod.fst).Nodup ∧
      ∀ entry ∈ (initialized hash attempts).files,
        entry.1 = attemptFile hash entry.2.attemptId := by
    unfold initialized
    refine List.foldlRecOn (motive := fun files : List (String × SharedEvent) =>
      (files.map Prod.fst).Nodup ∧ ∀ entry ∈ files, entry.1 = attemptFile hash entry.2.attemptId)
      attempts _ ⟨List.nodup_nil, by simp⟩ ?_
    rintro files ⟨distinct, named⟩ event _
    refine ⟨nodup_keys_assign distinct, ?_⟩
    intro entry member
    rcases mem_assign member with rfl | old
    · rfl
    · exact named entry old
  refine ⟨⟨files.1, files.2, ?_, ?_⟩, ?_⟩
  · intro name listed
    exact mem_orderBy.mp listed
  · exact orderBy_perm.nodup_iff.mpr files.1
  · intro groups held
    cases held

theorem sound_of_run {actions : List Action} (hashes : ∀ text, isSha256 (hash text) = true)
    (run : Run (Step hash) (initialized hash attempts) actions store) : Sound hash store :=
  run.invariant (Sound hash) (fun _ _ _ step sound => sound.step hashes step) sound_initialized

/-- The batch holds what a scan reads, and the audit passes. -/
def Agrees (store : Store) (last : List (String × SharedEvent)) : Prop :=
  ∃ actual events ended, eventSnapshot store last = .ok actual ∧ store.batch = some events ∧
    (∀ source, lookup source actual = lookup source events) ∧
    finishBatch store last = .ok ended

theorem finishBatch_eq (held : store.batch = some groups)
    (read : eventSnapshot store order = .ok (snapshotGroups order)) :
    finishBatch store order =
      if sameEntries (snapshotGroups order) groups then .ok (crashed store)
      else .error "Shared policy evidence changed during owner batch" := by
  simp only [finishBatch, held, read, ok_bind]
  cases sameEntries (snapshotGroups order) groups with
  | true => rfl
  | false => rfl

theorem agrees_of_noTies (hashes : ∀ text, isSha256 (hash text) = true)
    (sound : Sound hash store) (held : store.batch = some groups)
    (noTies : NoTies (eventsOf store.files)) (scanned : order.Perm store.files) :
    Agrees store order := by
  have read := eventSnapshot_of_kept hashes sound.kept scanned
  have same : ∀ source, lookup source (snapshotGroups order) = lookup source groups :=
    fun source => (shows_snapshotGroups scanned).unique noTies (sound.projects groups held source)
  have passes := finishBatch_eq held read
  rw [if_pos (sameEntries_iff.mpr same)] at passes
  exact ⟨_, groups, _, read, held, same, passes⟩

theorem pair_in_snapshot {first second : SharedEvent} {names : String × String}
    {rest : List (String × SharedEvent)} {rows : List SharedEvent} {source : String}
    (firstOf : first.isDetailOf source = true) (secondOf : second.isDetailOf source = true)
    (ordered : first.startedAt ≤ second.startedAt)
    (found : lookup source (snapshotGroups ((names.1, first) :: (names.2, second) :: rest)) =
      some rows) : List.Sublist [first, second] rows := by
  rw [lookup_snapshotGroups, eventsOf, List.map_cons, List.map_cons,
    List.filter_cons_of_pos firstOf, List.filter_cons_of_pos secondOf, if_neg (by simp),
    Option.map_some, Option.some.injEq] at found
  rw [← found]
  apply pair_sublist_orderBy ordered
  exact ((List.nil_sublist _).cons_cons second).cons_cons first

theorem lookup_snapshotGroups_isSome {event : SharedEvent} {source : String}
    (isOf : event.isDetailOf source = true) (stored : event ∈ eventsOf order) :
    ∃ rows, lookup source (snapshotGroups order) = some rows ∧ event ∈ rows := by
  have member := List.mem_filter.mpr ⟨stored, isOf⟩
  rw [lookup_snapshotGroups, if_neg (List.ne_nil_of_mem member)]
  exact ⟨_, rfl, mem_orderBy.mpr member⟩

/-- Two events that start together can be scanned in both orders, and the batch shows one. -/
theorem exists_failing_audit (hashes : ∀ text, isSha256 (hash text) = true)
    (sound : Sound hash store) (held : store.batch = some groups)
    (ties : ¬ NoTies (eventsOf store.files)) :
    ∃ last, last.Perm store.files ∧
      finishBatch store last = .error "Shared policy evidence changed during owner batch" := by
  simp only [NoTies, not_forall] at ties
  rcases ties with ⟨first, firstStored, second, secondStored, firstDetail, secondDetail, sameSource,
    together, different⟩
  rcases List.mem_map.mp firstStored with ⟨firstEntry, firstMember, rfl⟩
  rcases List.mem_map.mp secondStored with ⟨secondEntry, secondMember, rfl⟩
  have apart : firstEntry ≠ secondEntry := fun same => different (by rw [same])
  rcases exists_perm_cons_cons apart firstMember secondMember with ⟨rest, perm⟩
  have swapped : store.files.Perm (secondEntry :: firstEntry :: rest) :=
    perm.trans (List.Perm.swap secondEntry firstEntry rest)
  have firstOf : firstEntry.2.isDetailOf secondEntry.2.sourceId = true :=
    isDetailOf_iff.mpr ⟨firstDetail, sameSource⟩
  have secondOf : secondEntry.2.isDetailOf secondEntry.2.sourceId = true :=
    isDetailOf_iff.mpr ⟨secondDetail, rfl⟩
  by_contra allPass
  push Not at allPass
  -- Both scans agree with the batch, which then shows the two events in both orders.
  have agrees : ∀ last, last.Perm store.files →
      ∀ source, lookup source (snapshotGroups last) = lookup source groups := by
    intro last scanned
    have passes := allPass last scanned
    rw [finishBatch_eq held (eventSnapshot_of_kept hashes sound.kept scanned)] at passes
    cases same : sameEntries (snapshotGroups last) groups with
    | true => exact sameEntries_iff.mp same
    | false =>
      rw [same] at passes
      exact absurd rfl passes
  have one := agrees _ perm.symm secondEntry.2.sourceId
  have two := agrees _ swapped.symm secondEntry.2.sourceId
  rcases @lookup_snapshotGroups_isSome (firstEntry :: secondEntry :: rest) firstEntry.2 _ firstOf
    List.mem_cons_self with ⟨rows, found, _⟩
  have inOrder := @pair_in_snapshot firstEntry.2 secondEntry.2 (firstEntry.1, secondEntry.1) rest
    rows _ firstOf secondOf together.le found
  have inReverse := @pair_in_snapshot secondEntry.2 firstEntry.2 (secondEntry.1, firstEntry.1) rest
    rows _ secondOf firstOf together.ge (two.trans (one.symm.trans found))
  have nodup : rows.Nodup := by
    rcases sound.projects groups held secondEntry.2.sourceId with
      ⟨absent, _⟩ | ⟨shown, shows, _, perm, _⟩
    · rw [one, absent] at found
      cases found
    · rw [one, shows, Option.some.injEq] at found
      rw [← found]
      exact perm.nodup_iff.mpr (sound.kept.idsNodup.of_map.filter _)
  exact different (eq_of_both_orders nodup inOrder inReverse)

theorem batch_after {request : Call} (held : store.batch.isSome = true) :
    (after hash store request).batch.isSome = true := by
  unfold after
  cases called : call hash store request with
  | error message => exact held
  | ok next =>
    change next.batch.isSome = true
    cases request with
    | reserve reservation =>
      rcases bind_eq_ok.mp called with ⟨written, writes, reserved⟩
      rw [pure_eq_ok] at reserved
      subst reserved
      rw [← (writeReservation_eq_ok.mp writes).2]
      simpa [batchUpdate, writeIndex] using held
    | finish attemptId status now =>
      rcases finish_eq_ok called with ⟨event, finished, _, _, rfl⟩
      simpa [batchUpdate] using held

theorem sound_calls {calls : List Call} (sound : Sound hash store)
    (held : store.batch.isSome = true) :
    Sound hash (calls.foldl (after hash) store) ∧
      (calls.foldl (after hash) store).batch.isSome = true := by
  induction calls generalizing store with
  | nil => exact ⟨sound, held⟩
  | cons request calls induction => exact induction (sound.after request) (batch_after held)

/-- The file of a reservation, finished or not. -/
def Stored (hash : String → String) (reservation : Reservation) (store : Store) : Prop :=
  ∃ event, (attemptFile hash reservation.attemptId, event) ∈ store.files ∧
    event.attemptId = reservation.attemptId ∧ event.sourceId = reservation.sourceId ∧
    event.kind = reservation.kind ∧ event.startedAt = reservation.startedAt

theorem Stored.of_files (stored : Stored hash reservation store)
    (grows : ∀ entry ∈ store.files, entry ∈ next.files) : Stored hash reservation next := by
  rcases stored with ⟨event, member, identity⟩
  exact ⟨event, grows _ member, identity⟩

theorem mem_files_of_writeReservation {request : Reservation}
    (writes : writeReservation hash store request = .ok next) :
    ∀ entry ∈ store.files, entry ∈ next.files := by
  intro entry member
  rw [← (writeReservation_eq_ok.mp writes).2]
  exact List.mem_append_left _ member

theorem Stored.after {request : Call} (kept : Kept hash store)
    (stored : Stored hash reservation store) :
    Stored hash reservation (after hash store request) := by
  unfold AttemptFiles.after
  cases called : call hash store request with
  | error message => exact stored
  | ok next =>
    change Stored hash reservation next
    cases request with
    | reserve other =>
      rcases bind_eq_ok.mp called with ⟨written, writes, reserved⟩
      rw [pure_eq_ok] at reserved
      subst reserved
      have kept : Stored hash reservation written :=
        stored.of_files (mem_files_of_writeReservation writes)
      exact kept
    | finish attemptId status now =>
      rcases finish_eq_ok called with ⟨event, finished, found, rfl, rfl⟩
      rcases stored with ⟨old, member, identity⟩
      by_cases same : attemptFile hash attemptId = attemptFile hash reservation.attemptId
      · rw [same] at found ⊢
        rw [lookup_eq_some_of_mem kept.distinct member] at found
        cases found
        exact ⟨_, mem_of_lookup_eq_some lookup_assign_self, identity⟩
      · refine ⟨old, mem_of_lookup_eq_some ?_, identity⟩
        exact (lookup_assign_of_ne (Ne.symm same)).trans
          (lookup_eq_some_of_mem kept.distinct member)

theorem Stored.step {action : Action} (kept : Kept hash store)
    (stored : Stored hash reservation store) (step : Step hash store action next) :
    Stored hash reservation next := by
  cases action with
  | call request => exact step ▸ stored.after kept
  | crash => exact step ▸ stored
  | crashInReserve other =>
    rcases step with ⟨written, writes, rfl⟩
    have kept : Stored hash reservation written :=
      stored.of_files (mem_files_of_writeReservation writes)
    exact kept
  | beginBatch order =>
    rcases bind_eq_ok.mp step.2 with ⟨events, _, begun⟩
    rw [pure_eq_ok] at begun
    exact begun ▸ stored
  | finishBatch order =>
    rcases step with ⟨_, rfl⟩
    have files : ((finishBatch store order).toOption.getD (crashed store)).files =
        store.files := by
      cases ended : finishBatch store order with
      | error message => rfl
      | ok final =>
        unfold AttemptFiles.finishBatch at ended
        cases held : store.batch with
        | none =>
          simp only [held, pure_eq_ok] at ended
          rw [← ended]
          rfl
        | some groups =>
          simp only [held] at ended
          rcases bind_eq_ok.mp ended with ⟨actual, _, ended⟩
          rw [require_bind_eq_ok, pure_eq_ok] at ended
          rw [← ended.2]
          rfl
    exact stored.of_files fun entry member => by rw [files]; exact member

/-- The reservation is read by every scan, and its attempt is not reserved again. -/
structure Charged (hash : String → String) (reservation : Reservation) (store : Store) : Prop where
  read : ∀ order, order.Perm store.files → ∃ groups, eventSnapshot store order = .ok groups ∧
    (∀ event ∈ eventsOf store.files, event.kind = .detail →
      ∃ rows, lookup event.sourceId groups = some rows ∧ event ∈ rows) ∧
    (reservation.kind = .detail → ∃ rows event, lookup reservation.sourceId groups = some rows ∧
      event ∈ rows ∧ event.attemptId = reservation.attemptId ∧
      event.startedAt = reservation.startedAt)
  refused : ∀ again : Reservation, again.attemptId = reservation.attemptId →
    reserve hash store again = .error "Durable shared attempt already exists"

theorem charged_of_stored (hashes : ∀ text, isSha256 (hash text) = true)
    (kept : Kept hash store) (stored : Stored hash reservation store) :
    Charged hash reservation store where
  read order scanned := by
    have shown : ∀ event ∈ eventsOf store.files, event.kind = .detail →
        ∃ rows, lookup event.sourceId (snapshotGroups order) = some rows ∧ event ∈ rows := by
      intro event member isDetail
      have inOrder : event ∈ eventsOf order := (scanned.map Prod.snd).mem_iff.mpr member
      exact lookup_snapshotGroups_isSome (isDetailOf_iff.mpr ⟨isDetail, rfl⟩) inOrder
    refine ⟨_, eventSnapshot_of_kept hashes kept scanned, shown, ?_⟩
    intro isDetail
    rcases stored with ⟨event, member, sameId, sameSource, sameKind, sameStart⟩
    have inEvents : event ∈ eventsOf store.files := List.mem_map.mpr ⟨_, member, rfl⟩
    rcases shown event inEvents (sameKind.trans isDetail) with ⟨rows, found, present⟩
    rw [sameSource] at found
    exact ⟨rows, event, found, present, sameId, sameStart⟩
  refused again sameId := by
    rcases stored with ⟨event, member, _⟩
    have exists' : store.files.any (·.1 == attemptFile hash again.attemptId) = true := by
      rw [List.any_eq_true]
      exact ⟨_, member, by rw [sameId]; exact beq_self_eq_true _⟩
    simp [reserve, writeReservation, exists', require, bind, Except.bind]

theorem stored_crashed {written : Store}
    (writes : writeReservation hash store reservation = .ok written) :
    Stored hash reservation (crashed written) := by
  refine ⟨reservation.event, ?_, rfl, rfl, rfl, rfl⟩
  change _ ∈ written.files
  rw [← (writeReservation_eq_ok.mp writes).2]
  exact List.mem_append_right _ (List.mem_singleton_self _)

/-- In every store that the writers leave: a batch and any calls in it agree with every
scan at its end exactly when no two detail attempts of a source start together, and a
reservation whose process ended before the index was written stays charged. -/
theorem batch_agrees_iff {actions : List Action} {begun : Store}
    (hashes : ∀ text, isSha256 (hash text) = true)
    (run : Run (Step hash) (initialized hash attempts) actions store)
    (scanned : order.Perm store.files) (starts : beginBatch store order = .ok begun)
    (calls : List Call) :
    ((∀ last, last.Perm (calls.foldl (after hash) begun).files →
        Agrees (calls.foldl (after hash) begun) last) ↔
      NoTies (eventsOf (calls.foldl (after hash) begun).files)) ∧
    ∀ reservation written later final, writeReservation hash store reservation = .ok written →
      Run (Step hash) (crashed written) later final → Charged hash reservation final := by
  have sound := sound_of_run hashes run
  constructor
  · have begins : Step hash store (.beginBatch order) begun := ⟨scanned, starts⟩
    have open' : begun.batch.isSome = true := by
      rcases bind_eq_ok.mp starts with ⟨events, _, starts⟩
      rw [pure_eq_ok] at starts
      subst starts
      rfl
    have ended := @sound_calls hash begun calls (sound.step hashes begins) open'
    rcases Option.isSome_iff_exists.mp ended.2 with ⟨groups, held⟩
    constructor
    · intro agrees
      by_contra ties
      rcases exists_failing_audit hashes ended.1 held ties with ⟨last, scan, fails⟩
      rcases agrees last scan with ⟨_, _, _, _, _, _, passes⟩
      rw [fails] at passes
      cases passes
    · intro noTies last scan
      exact agrees_of_noTies hashes ended.1 held noTies scan
  · intro reservation written later final writes rest
    have started : Sound hash (crashed written) := .crashed (sound.kept.writeReservation writes)
    have both := rest.invariant (fun state => Sound hash state ∧ Stored hash reservation state)
      (fun _ _ _ step state => ⟨state.1.step hashes step, state.2.step state.1.kept step⟩)
      ⟨started, stored_crashed writes⟩
    exact charged_of_stored hashes both.1.kept both.2

/-! Two attempts of a source, with the digests of their identifiers. -/

def sampleHash (text : String) : String :=
  if text = "a" then "ca978112ca1bbdcafac231b39a23dc4da786eff8147c4e72b9807785afee48bb"
  else if text = "b" then "3e23e8160039594a33894f6564e1b1348bbd7a0088d42c4acb73eeaed59c009d"
  else String.ofList (List.replicate 64 '0')

theorem isSha256_sampleHash (text : String) : isSha256 (sampleHash text) = true := by
  unfold sampleHash
  split
  · decide
  · split
    · decide
    · exact isSha256_replicate (by decide)

def sampleReservation (attemptId : String) (startedAt : ℚ) : Reservation where
  attemptId := attemptId
  sourceId := "demo"
  kind := .detail
  startedAt := startedAt
  workspace := "workspace"
  taskId := attemptId

def sampleBegun : Store := { files := [], index := [], batch := some [] }

theorem sound_sampleBegun : Sound sampleHash sampleBegun where
  kept := ⟨List.nodup_nil, by simp [sampleBegun], by simp [sampleBegun], List.nodup_nil⟩
  projects groups held source := by
    cases held
    exact .inl ⟨rfl, rfl⟩

/-- Two attempts start together, and the first one finishes. -/
def tiedCalls : List Call := [
  .reserve (sampleReservation "a" 5), .reserve (sampleReservation "b" 5), .finish "a" "done" 6]

theorem tied_files :
    eventsOf (tiedCalls.foldl (after sampleHash) sampleBegun).files =
      [{ (sampleReservation "a" 5).event with finishedAt := some 6, status := "done" },
        (sampleReservation "b" 5).event] := by
  decide

/-- Attempts that start together can be reported as changed evidence. -/
theorem tied_batch_reported :
    ∃ last, last.Perm (tiedCalls.foldl (after sampleHash) sampleBegun).files ∧
      finishBatch (tiedCalls.foldl (after sampleHash) sampleBegun) last =
        .error "Shared policy evidence changed during owner batch" := by
  have ended := @sound_calls sampleHash sampleBegun tiedCalls sound_sampleBegun rfl
  rcases Option.isSome_iff_exists.mp ended.2 with ⟨groups, held⟩
  apply exists_failing_audit isSha256_sampleHash ended.1 held
  rw [tied_files]
  intro noTies
  have same := noTies _ (List.mem_cons_self) _ (List.mem_cons_of_mem _ List.mem_cons_self) rfl rfl
    rfl rfl
  exact absurd same (by decide)

/-- Attempts that start apart agree with every scan. -/
theorem apart_batch_agrees :
    ∃ begun, beginBatch (initialized sampleHash []) [] = .ok begun ∧
      ∀ last, last.Perm (List.foldl (after sampleHash) begun
          [.reserve (sampleReservation "a" 5), .finish "a" "done" 6]).files →
        Agrees (List.foldl (after sampleHash) begun
          [.reserve (sampleReservation "a" 5), .finish "a" "done" 6]) last := by
  have sound : Sound sampleHash (initialized sampleHash []) := sound_initialized
  have read := eventSnapshot_of_kept isSha256_sampleHash sound.kept (List.Perm.refl [])
  have starts : beginBatch (initialized sampleHash []) [] =
      .ok { initialized sampleHash [] with batch := some (snapshotGroups []) } := by
    rw [beginBatch, read]
    rfl
  refine ⟨_, starts, ?_⟩
  apply (batch_agrees_iff isSha256_sampleHash (.nil _) (List.Perm.refl []) starts _).1.mpr
  have events : eventsOf (List.foldl (after sampleHash)
      { initialized sampleHash [] with batch := some (snapshotGroups []) }
      [.reserve (sampleReservation "a" 5), .finish "a" "done" 6]).files =
        [{ (sampleReservation "a" 5).event with finishedAt := some 6, status := "done" }] := by
    decide
  rw [events]
  intro left leftMember right rightMember _ _ _ _
  rw [List.mem_singleton.mp leftMember, List.mem_singleton.mp rightMember]

end JobAgg.PolicyAuthority.AttemptFiles
