import JobAgg.Foundation.Run
import JobAgg.RemediationWorker.Enqueue

/-! # What queueing again keeps

A call has one of four effects on the stored tasks. Three of them touch no stored
task's history, and the fourth is guarded by the whole cascade.
-/

namespace JobAgg.RemediationWorker

variable (library : Library) (worker : Worker) (request : Request) (readings : Readings)
  (store : Store)

/-- An unreleased hold of the task is bound to the current review of its job, and the
proposed deadline is in the future. -/
def Extended : Prop :=
  ∃ hold job proposed deadline, hold ∈ store.holds ∧ hold.taskId = taskKey library request ∧
    hold.releasedAt = none ∧ store.job request.source request.identity = some job ∧
    BoundTo library hold job ∧ proposedDeadline request.payload = .ok proposed ∧
    instant library proposed = some deadline ∧ readings.extendedAt < deadline

/-- The failed task's saved input is not the new one, under the worker's binding and
under every implementation that the worker accepts in its place. -/
def InputChanged (old : TaskRow) : Prop :=
  ∃ saved, savedRetryInput library worker old = .ok (some saved) ∧
    saved ≠ .string (retryInputFingerprint library request.payload worker.binding) ∧
    (worker.retryCompatibleSuccessor = some worker.binding.implementationSha256 →
      ∀ implementation ∈ retryEquivalentImplementations,
        saved ≠ .string
          (retryInputFingerprint library request.payload (worker.boundTo implementation)))

inductive Effect (next : Store) : Prop
  | kept (same : next.tasks = store.tasks)
  | added (row : TaskRow) (fresh : row.taskId = taskKey library request)
      (absent : store.task row.taskId = none) (same : next.tasks = store.tasks ++ [row])
  | putAside (old : TaskRow) (found : store.task (taskKey library request) = some old)
      (waiting : old.status = .pending)
      (same : next.tasks = updateWhere
        (fun row => row.taskId == taskKey library request && row.status == .pending)
        (fun row => { row with status := .pastDeadline }) store.tasks)
  | requeued (old : TaskRow) (found : store.task (taskKey library request) = some old)
      (free : old.status.isProtected = false)
      (changed : old.status = .deadLetter ∨ old.status = .blocked →
        InputChanged library worker request old)
      (released : request.kind = .detail → old.status = .pastDeadline →
        Extended library request readings store)
      (same : next.tasks = updateWhere (fun row => row.taskId == taskKey library request)
        (requeue library request readings old) store.tasks)

variable {library worker request readings store}

theorem putAside_effect {proposed : Json} {next : Store}
    (ran : putAside library request readings store proposed = .ok next) :
    Effect library worker request readings store next := by
  unfold putAside at ran
  cases found : store.task (taskKey library request) with
  | none =>
    rw [found] at ran
    rcases bind_eq_ok.mp ran with ⟨holds, _, ran⟩
    rw [pure_eq_ok] at ran
    subst ran
    exact .added _ rfl found rfl
  | some old =>
    rw [found] at ran
    by_cases waiting : old.status = .pending
    · simp only [waiting, if_true] at ran
      rcases bind_eq_ok.mp ran with ⟨holds, _, ran⟩
      rw [pure_eq_ok] at ran
      subst ran
      exact .putAside old found waiting rfl
    · simp only [waiting, if_false] at ran
      by_cases held : old.status = .pastDeadline
      · simp only [held, if_true] at ran
        rcases bind_eq_ok.mp ran with ⟨holds, _, ran⟩
        rw [pure_eq_ok] at ran
        subst ran
        exact .kept rfl
      · simp only [held, if_false, pure_eq_ok] at ran
        subst ran
        exact .kept rfl

theorem extended_of_holdEnds {proposed : Json}
    (read : proposedDeadline request.payload = .ok proposed)
    (ends : holdEnds library request readings store proposed = .ok true) :
    Extended library request readings store := by
  unfold holdEnds at ends
  rcases bind_eq_ok.mp ends with ⟨extended, future, ends⟩
  cases extended with
  | false =>
    rw [if_neg (by simp), pure_eq_ok] at ends
    cases ends
  | true =>
    rw [if_pos rfl] at ends
    rcases reviewedFutureExtension_eq_true future with ⟨deadline, isDeadline, inFuture⟩
    rcases matchesHoldReview_eq_true ends with ⟨hold, job, active, current, bound⟩
    have stored := activeHold_eq_some active
    exact ⟨hold, job, proposed, deadline, stored.1, stored.2.1, stored.2.2, current, bound, read,
      isDeadline, inFuture⟩

theorem reopen_cases {proposed : Json} {outcome : Outcome}
    (read : proposedDeadline request.payload = .ok proposed)
    (ran : reopen library request readings store proposed = .ok outcome) :
    outcome = .returned store ∨
      ∃ holds, outcome = .continues { store with holds } true ∧
        Extended library request readings store := by
  unfold reopen at ran
  rcases bind_eq_ok.mp ran with ⟨ends, decided, ran⟩
  cases ends with
  | false =>
    rw [if_neg (by simp), pure_eq_ok] at ran
    exact .inl ran.symm
  | true =>
    rw [if_pos rfl, pure_eq_ok] at ran
    exact .inr ⟨_, ran.symm, extended_of_holdEnds read decided⟩

theorem classifyDeadline_cases {outcome : Outcome}
    (ran : classifyDeadline library request readings store = .ok outcome) :
    (∃ next, outcome = .returned next ∧ Effect library worker request readings store next) ∨
      ∃ holds refresh, outcome = .continues { store with holds } refresh ∧
        ∀ old, store.task (taskKey library request) = some old → request.kind = .detail →
          old.status = .pastDeadline → Extended library request readings store := by
  unfold classifyDeadline at ran
  by_cases detail : request.kind = .detail
  · rw [if_pos detail] at ran
    rcases bind_eq_ok.mp ran with ⟨proposed, read, ran⟩
    rcases bind_eq_ok.mp ran with ⟨blocks, _, ran⟩
    cases blocks with
    | true =>
      rw [if_pos rfl] at ran
      rcases bind_eq_ok.mp ran with ⟨next, aside, ran⟩
      rw [pure_eq_ok] at ran
      exact .inl ⟨next, ran.symm, putAside_effect aside⟩
    | false =>
      rw [if_neg (by simp)] at ran
      cases found : store.task (taskKey library request) with
      | none =>
        simp only [found, pure_eq_ok] at ran
        refine .inr ⟨store.holds, request.refresh, ran.symm, ?_⟩
        intro old absent
        cases absent
      | some old =>
        simp only [found] at ran
        by_cases held : old.status = .pastDeadline
        · rw [if_pos held] at ran
          rcases reopen_cases read ran with returned | ⟨holds, continues, extended⟩
          · exact .inl ⟨store, returned, .kept rfl⟩
          · exact .inr ⟨holds, true, continues, fun _ _ _ _ => extended⟩
        · rw [if_neg held, pure_eq_ok] at ran
          refine .inr ⟨store.holds, request.refresh, ran.symm, ?_⟩
          intro other same _ past
          rw [← Option.some.inj same] at past
          exact absurd past held
  · rw [if_neg detail, pure_eq_ok] at ran
    exact .inr ⟨store.holds, request.refresh, ran.symm, fun _ _ isDetail => absurd isDetail detail⟩

theorem inputChanged_of_not_matches {old : TaskRow} {saved : Json}
    (stored : savedRetryInput library worker old = .ok (some saved))
    (differs : retryInputMatches library worker saved request.payload = false) :
    InputChanged library worker request old := by
  simp only [retryInputMatches, Bool.or_eq_false_iff, decide_eq_false_iff_not] at differs
  refine ⟨saved, stored, differs.1, ?_⟩
  intro successor implementation member same
  have none := differs.2
  simp only [successor, decide_true, Bool.true_and, List.any_eq_false, decide_eq_true_eq] at none
  exact none implementation member same

theorem reconsider_cases {old : TaskRow} {refresh later : Bool}
    (ran : reconsider library worker request old refresh = .ok (some later)) :
    old.status.isProtected = false ∧
      (old.status = .deadLetter ∨ old.status = .blocked →
        InputChanged library worker request old) := by
  unfold reconsider at ran
  cases free : old.status.isProtected with
  | true =>
    rw [free, if_pos rfl, pure_eq_ok] at ran
    cases ran
  | false =>
    rw [free, if_neg (by simp)] at ran
    refine ⟨rfl, ?_⟩
    intro failed
    rw [if_pos failed] at ran
    rcases bind_eq_ok.mp ran with ⟨saved, stored, ran⟩
    rw [pure_eq_ok] at ran
    cases saved with
    | none => cases ran
    | some saved =>
      dsimp only at ran
      cases matching : retryInputMatches library worker saved request.payload with
      | true =>
        rw [matching, if_pos rfl] at ran
        cases ran
      | false => exact inputChanged_of_not_matches stored matching

theorem enqueue_effect {next : Store}
    (ran : enqueue library worker request readings store = .ok next) :
    Effect library worker request readings store next := by
  unfold enqueue at ran
  rcases bind_eq_ok.mp ran with ⟨outcome, classified, ran⟩
  rcases classifyDeadline_cases classified with
    ⟨ended, rfl, effect⟩ | ⟨holds, refresh, rfl, released⟩
  · rw [pure_eq_ok] at ran
    exact ran ▸ effect
  · cases found : store.task (taskKey library request) with
    | none =>
      simp only [found, pure_eq_ok] at ran
      subst ran
      exact .added _ rfl found rfl
    | some old =>
      simp only [found] at ran
      rcases bind_eq_ok.mp ran with ⟨decided, decision, ran⟩
      rw [pure_eq_ok] at ran
      subst ran
      cases decided with
      | none => exact .kept rfl
      | some later =>
        simp only [applyDecision]
        split
        · have guards := reconsider_cases decision
          exact .requeued old found guards.1 guards.2 (released old found) rfl
        · exact .kept rfl

/-- What a call leaves of a stored task that it is about. -/
structure NotRefunded (library : Library) (worker : Worker) (request : Request)
    (readings : Readings) (store : Store) (old later : TaskRow) : Prop where
  guarded : old.status.isProtected = true → later = old
  attempts : later.attempts = old.attempts
  claim : later.claim = old.claim
  receipt : later.receipt = old.receipt
  lastError : later.lastError = old.lastError
  eligible : old.status = .pending ∨ old.status = .pastDeadline → old.hasError = true →
    old.eligibleAt ≤ later.eligibleAt
  retried : old.status = .deadLetter ∨ old.status = .blocked → later.status = .pending →
    InputChanged library worker request old
  released : request.kind = .detail → old.status = .pastDeadline →
    later.status ≠ .pastDeadline → Extended library request readings store

theorem NotRefunded.refl {task : TaskRow} :
    NotRefunded library worker request readings store task task where
  guarded _ := rfl
  attempts := rfl
  claim := rfl
  receipt := rfl
  lastError := rfl
  eligible _ _ := le_refl _
  retried failed pending := by
    rw [pending] at failed
    rcases failed with isDead | isBlocked
    · cases isDead
    · cases isBlocked
  released _ held left := absurd held left

theorem isProtected_pending : TaskStatus.pending.isProtected = false := rfl

theorem NotRefunded.putAside {task : TaskRow} (waiting : task.status = .pending) :
    NotRefunded library worker request readings store task
      { task with status := .pastDeadline } where
  guarded kept := by rw [waiting, isProtected_pending] at kept; cases kept
  attempts := rfl
  claim := rfl
  receipt := rfl
  lastError := rfl
  eligible _ _ := le_refl _
  retried _ pending := by cases pending
  released _ held := by rw [waiting] at held; cases held

theorem le_eligibleAt {old : TaskRow} (waits : old.status = .pending ∨ old.status = .pastDeadline)
    (failed : old.hasError = true) : old.eligibleAt ≤ eligibleAt request readings old := by
  simp only [eligibleAt, waits, failed, and_self, if_true]
  exact le_max_right _ _

theorem NotRefunded.requeued {task : TaskRow} (free : task.status.isProtected = false)
    (changed : task.status = .deadLetter ∨ task.status = .blocked →
      InputChanged library worker request task)
    (released : request.kind = .detail → task.status = .pastDeadline →
      Extended library request readings store) :
    NotRefunded library worker request readings store task
      (requeue library request readings task task) where
  guarded kept := by rw [free] at kept; cases kept
  attempts := rfl
  claim := rfl
  receipt := rfl
  lastError := rfl
  eligible := le_eligibleAt
  retried failed _ := changed failed
  released detail held _ := released detail held

theorem Store.taskId_of_task {taskId : String} {task : TaskRow}
    (found : store.task taskId = some task) : task.taskId = taskId := by
  have selected := List.find?_some found
  rw [beq_iff_eq] at selected
  exact selected

theorem task_updateWhere {selects : TaskRow → Bool} {update : TaskRow → TaskRow} {next : Store}
    {taskId : String} {old : TaskRow} (found : store.task taskId = some old)
    (same : next.tasks = updateWhere selects update store.tasks)
    (sameId : ∀ row, (update row).taskId = row.taskId) :
    next.task taskId = some (if selects old then update old else old) := by
  unfold Store.task at found ⊢
  rw [same, find?_updateWhere fun row _ _ => by rw [sameId], found]
  rfl

theorem Effect.of_task {next : Store} {taskId : String} {old : TaskRow}
    (effect : Effect library worker request readings store next)
    (found : store.task taskId = some old) :
    ∃ later, next.task taskId = some later ∧
      (taskId ≠ taskKey library request → later = old) ∧
      (taskId = taskKey library request →
        NotRefunded library worker request readings store old later) := by
  have sameId := Store.taskId_of_task found
  cases effect with
  | kept same =>
    refine ⟨old, ?_, fun _ => rfl, fun _ => .refl⟩
    unfold Store.task at found ⊢
    rw [same, found]
  | added row fresh absent same =>
    refine ⟨old, ?_, fun _ => rfl, fun _ => .refl⟩
    unfold Store.task at found ⊢
    rw [same, List.find?_append, found]
    rfl
  | putAside stored holder waiting same =>
    refine ⟨_, task_updateWhere found same fun _ => rfl, ?_, ?_⟩
    · intro different
      have unselected : (old.taskId == taskKey library request) = false := by
        simpa [sameId] using different
      rw [if_neg (by simp [unselected])]
    · intro isKey
      subst isKey
      rw [found] at holder
      cases holder
      rw [if_pos (by simp [sameId, waiting])]
      exact .putAside waiting
  | requeued stored holder free changed released same =>
    refine ⟨_, task_updateWhere found same fun _ => rfl, ?_, ?_⟩
    · intro different
      have unselected : (old.taskId == taskKey library request) = false := by
        simpa [sameId] using different
      rw [if_neg (by simp [unselected])]
    · intro isKey
      subst isKey
      rw [found] at holder
      cases holder
      rw [if_pos (by simp [sameId])]
      exact .requeued free changed released

/-- Queueing again gives nothing back: whatever is stored, a call leaves every other
task as it is, and of the task it is about the accounting, the back-off after an error,
the protected states, the charged retries and the reviewed holds of details. -/
theorem enqueue_refunds_nothing {next : Store} {taskId : String} {old : TaskRow}
    (found : store.task taskId = some old)
    (ran : enqueue library worker request readings store = .ok next) :
    ∃ later, next.task taskId = some later ∧
      (taskId ≠ taskKey library request → later = old) ∧
      (taskId = taskKey library request →
        NotRefunded library worker request readings store old later) :=
  (enqueue_effect ran).of_task found

/-! A held detail, its review and the request that lets it go, as the worker would
store them. -/

def sampleReview : Fields := [
  ("active", .bool true),
  ("authority", .string "user_requested_deadline_classification"),
  ("deadline_utc", .string "2026-07-01T00:00:00+00:00"),
  ("external_id", .string "R1"),
  ("review_id", .string "review-1"),
  ("reviewed_at", .string "2026-07-02T00:00:00+00:00"),
  ("source_id", .string "demo")]

def sampleReviewText : String :=
  "\x7b\"active\": true, \"authority\": \"user_requested_deadline_classification\", " ++
  "\"deadline_utc\": \"2026-07-01T00:00:00+00:00\", \"external_id\": \"R1\", " ++
  "\"review_id\": \"review-1\", \"reviewed_at\": \"2026-07-02T00:00:00+00:00\", " ++
  "\"source_id\": \"demo\"\x7d"

def sampleRawText : String :=
  "\x7b\"_past_deadline_review\": " ++ sampleReviewText ++ "\x7d"

def detailKey : String := "6b88b97d6c73567159778dc67cee4c9cb40dc3c9ad29736db96d645f9decff0d"

def listingKey : String := "e4928c9f3488c1134a28fed678c232badace5df1fa12ddb38b136df5737e0620"

/-- The language on these values. -/
def sampleLibrary : Library where
  fromIsoFormat text :=
    if text = "2026-07-01T00:00:00+00:00" then some 1782864000
    else if text = "2026-07-02T00:00:00+00:00" then some 1782950400
    else if text = "2099-01-01T00:00:00+00:00" then some 4070908800
    else none
  isoFormat _ := "2026-07-01T00:00:00+00:00"
  loads text :=
    if text = sampleReviewText then .ok (.object sampleReview)
    else if text = sampleRawText then .ok (.object [(marker, .object sampleReview)])
    else .error "JSONDecodeError"
  dumps _ := sampleReviewText
  dump value :=
    if value = .object [] then "\x7b\x7d"
    else "\x7b\"listing\": \x7b\"closes_at\": \"2099-01-01T00:00:00+00:00\"\x7d\x7d"
  sha256 text := if text = "demo\x00detail\x00R1" then detailKey else listingKey
  str value := value.asText.getD ""
  same left right := left = right

def sampleWorker : Worker where
  binding := {
    version := "deterministic-fetch-v1", registrySha256 := "", robotsSha256 := "",
    implementationSha256 := "", sharedLock := "" }
  retryCompatibleSuccessor := none

def sampleReadings : Readings where
  now := 1783000000
  blockedAt := 1783000000
  recordedAt := 1783000000
  extendedAt := 1783000000
  stamp := "2026-07-02T13:46:40+00:00"
  holdId := "00000000000000000000000000000002"

def heldDetail : TaskRow where
  taskId := detailKey
  sourceId := "demo"
  kind := .detail
  externalId := "R1"
  payload := "\x7b\x7d"
  status := .pastDeadline
  eligibleAt := 1783100000
  discoveredAt := 1782000000
  attempts := 2
  lastError := some "Timeout"

def heldStore : Store where
  tasks := [heldDetail]
  jobs := [{
    sourceId := "demo", externalId := "R1", closesAt := none, rawJson := some sampleRawText }]
  holds := [{
    holdId := "00000000000000000000000000000001", taskId := detailKey, sourceId := "demo",
    externalId := "R1", reviewJson := sampleReviewText,
    deadlineUtc := "2026-07-01T00:00:00+00:00", recordedAt := "2026-07-02T00:00:01+00:00" }]

def extendedRequest : Request where
  source := "demo"
  kind := .detail
  identity := "R1"
  payload := [("listing", .object [("closes_at", .string "2099-01-01T00:00:00+00:00")])]
  refresh := true

theorem enqueue_heldStore :
    (enqueue sampleLibrary sampleWorker extendedRequest sampleReadings heldStore).toOption.isSome =
      true := by
  decide +kernel

/-- The held detail goes back to the queue, with its attempts and its back-off. -/
theorem heldDetail_not_refunded :
    ∃ next later, enqueue sampleLibrary sampleWorker extendedRequest sampleReadings heldStore =
        .ok next ∧ next.task detailKey = some later ∧
      NotRefunded sampleLibrary sampleWorker extendedRequest sampleReadings heldStore heldDetail
        later := by
  have ran := eq_ok_of_isSome enqueue_heldStore heldStore
  have stored : heldStore.task detailKey = some heldDetail := by decide
  rcases enqueue_refunds_nothing stored ran with ⟨later, found, _, kept⟩
  exact ⟨_, later, ran, found, kept (by decide)⟩

def heldListing : TaskRow where
  taskId := listingKey
  sourceId := "demo"
  kind := .listing
  externalId := ""
  payload := "\x7b\x7d"
  status := .pastDeadline
  eligibleAt := 1783000000
  discoveredAt := 1782000000

def listingRequest : Request where
  source := "demo"
  kind := .listing
  identity := ""
  payload := []
  refresh := true

/-- The deadline part is for details: another task leaves the state without a hold. -/
theorem heldListing_requeued :
    taskKey sampleLibrary listingRequest = listingKey ∧
      ((enqueue sampleLibrary sampleWorker listingRequest sampleReadings
        ⟨[heldListing], [], []⟩).toOption.map fun next => next.tasks.map TaskRow.status) =
          some [.pending] := by
  decide

end JobAgg.RemediationWorker
