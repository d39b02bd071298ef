import JobAgg.RemediationWorker.DeadlineReview

/-! # Queueing a task again

`Worker.enqueue` of `jobagg.remediation_worker`. A stored task is queued again only
where nothing of its history is given back: a protected task stays as it is, a
failed one needs a changed input, and a held one needs its reviewed deadline to
move. Times are seconds since the epoch.
-/

namespace JobAgg.RemediationWorker

inductive TaskKind
  | listing
  | detail
  | document
deriving DecidableEq

def TaskKind.text : TaskKind → String
  | listing => "listing"
  | detail => "detail"
  | document => "document"

inductive TaskStatus
  | pending
  | inflight
  | interrupted
  | storageHeld
  | unavailablePendingInventory
  | listingDetailConflict
  | deadLetter
  | blocked
  | notRequired
  | pastDeadline
  | other (text : String)
deriving DecidableEq

def unavailableStatuses : List TaskStatus := [.unavailablePendingInventory, .listingDetailConflict]

/-- A row of `remediation_tasks`. -/
structure TaskRow where
  taskId : String
  sourceId : String
  kind : TaskKind
  externalId : String
  payload : String
  status : TaskStatus
  eligibleAt : ℚ
  discoveredAt : ℚ
  attempts : ℕ := 0
  claim : Option String := none
  lastError : Option String := none
  receipt : Option String := none
deriving DecidableEq

structure Store where
  tasks : List TaskRow
  jobs : List JobRow
  holds : List HoldRow

def Store.task (store : Store) (taskId : String) : Option TaskRow :=
  store.tasks.find? (·.taskId == taskId)

def Store.job (store : Store) (sourceId externalId : String) : Option JobRow :=
  store.jobs.find? fun job => job.sourceId == sourceId && job.externalId == externalId

structure Binding where
  version : String
  registrySha256 : String
  robotsSha256 : String
  implementationSha256 : String
  sharedLock : String

def Binding.toJson (binding : Binding) : Json :=
  .object [
    ("version", .string binding.version),
    ("registry_sha256", .string binding.registrySha256),
    ("robots_sha256", .string binding.robotsSha256),
    ("implementation_sha256", .string binding.implementationSha256),
    ("shared_lock", .string binding.sharedLock)]

structure Worker where
  binding : Binding
  retryCompatibleSuccessor : Option String

/-- The arguments of one call. -/
structure Request where
  source : String
  kind : TaskKind
  identity : String
  payload : Fields
  due : Option ℚ := none
  refresh : Bool := false

/-- What one call reads of the clock, and the identifier it draws. -/
structure Readings where
  now : ℚ
  blockedAt : ℚ
  recordedAt : ℚ
  extendedAt : ℚ
  stamp : String
  holdId : String

/-- The reviewed predecessors whose retries stay charged. -/
def retryEquivalentImplementations : List String := [
  "ab4ec954db6f68b7964bb2d4672e561e5ed5a4d971d25dcafb46dcf0870932e9",
  "4642596ad8c19900a6d2cf474c144d22907df89b90e26ee78aa7d0c709f70c39",
  "48f37af1a7b4e674547cc10a8d6db13cf3b27bf70c65cb2d4da3a31f5acda903",
  "72f7e64ad22881759854b4fc33bbcddc83bc7998e758e872f1c678c399bc2b08",
  "ca42922ee7982fdc51cd05a3a1d3e9911f23760feaa0bba6e1b3b049e40e30e0",
  "985d89ddc9b99e0e6d869b8d9175adc69818b216f5b9261fcb04cbd3fc760f3b",
  "7ec4f5b4d37797599eed3ae04af4c18992dd8a2d7e3c01db742e6d3a8c34362b",
  "fa57f6e056aad8afd2ded124162343b18ff98eb7319fce9fcdd2063307630ea3"]

def semanticListing (listing : Fields) : Fields :=
  let kept := ["first_seen_at", "last_seen_at", "normalized_hash", "posting_fingerprint"].foldl
    (fun fields key => remove key fields) listing
  match Json.get "raw" kept with
  | .object raw => assign "raw" (.object (remove "_jobagg_listing_verification" raw)) kept
  | _ => kept

/-- A fresh frame path or timestamp is not a repair. -/
def semanticPayload (payload : Fields) : Fields :=
  let kept := remove "frame_sha256" (remove "frame_path" payload)
  match Json.get "listing" kept with
  | .object listing => assign "listing" (.object (semanticListing listing)) kept
  | _ => kept

/-- The two decisions that make a content link evidence. -/
def contentReasons : List String := ["explicit_job_document", "document_purpose_unresolved"]

/-- `value in {...}` of a set of texts; a list or a dictionary has no hash. -/
def inTexts (texts : List String) : Json → Except String Bool
  | .array _ => .error "TypeError: unhashable type: 'list'"
  | .object _ => .error "TypeError: unhashable type: 'dict'"
  | .string text => .ok (texts.contains text)
  | _ => .ok false

def classified : Json → Except String Bool
  | .object value =>
    if Json.get "decision" value = .string "candidate" ∧
        Json.get "region" value = .string "content" then
      inTexts contentReasons (Json.get "reason" value)
    else .ok false
  | _ => .ok false

def declaredRequired (item : Fields) : Bool :=
  Json.get "kind" item = .string "declared_required_url" &&
  Json.get "path" item = .string "raw.required_attachment_urls" &&
  Json.get "source" item = .string "supplied_job_record_current_top_level_declaration"

/-- The values a loop over `provenance` sees: the keys of a dictionary and the letters
of a text are no dictionaries. -/
def provenanceItems (payload : Fields) : Except String (List Json) :=
  match lookup "provenance" payload with
  | none => .ok []
  | some (.array items) => .ok items
  | some (.object _) => .ok []
  | some (.string _) => .ok []
  | some _ => .error "TypeError: object is not iterable"

section Evidence

variable (library : Library)

def itemEvidence : List Json → Except String (List String)
  | [] => .ok []
  | .object item :: rest => do
    if (Json.get "field_sha256" item).truthy then
      let content ← classified (Json.get "classification" item)
      let evidence ← itemEvidence rest
      pure (if content || declaredRequired item then
        library.dump (.object item) :: evidence else evidence)
    else itemEvidence rest
  | _ :: rest => itemEvidence rest

def contentEvidence (payload : Fields) : Except String (List String) := do
  let classification := Json.get "classification" payload
  let content ← classified classification
  let items ← provenanceItems payload
  let evidence ← itemEvidence library items
  pure (if content then
    library.dump (.object [("classification", classification)]) :: evidence else evidence)

/-- Reconsider a dismissal only for a new body or current content evidence. -/
def documentDispositionChanged (prior current : Fields) : Except String Bool := do
  let oldBody := Json.get "parent_description_sha256" prior
  let newBody := Json.get "parent_description_sha256" current
  if !newBody.truthy || ["job_key", "url", "attachment_id"].any fun key =>
      !library.same (Json.get key prior) (Json.get key current) then
    pure false
  else if oldBody.truthy && !library.same oldBody newBody then
    pure true
  else
    let after ← contentEvidence library current
    let before ← contentEvidence library prior
    pure (after.any fun evidence => !before.contains evidence)

end Evidence

section Retries

variable (library : Library) (worker : Worker)

def retryInputFingerprint (payload : Fields) (binding : Binding) : String :=
  library.sha256 (library.dump (.object [
    ("payload", .object (semanticPayload payload)), ("binding", binding.toJson)]))

def Worker.boundTo (implementation : String) : Binding :=
  { worker.binding with implementationSha256 := implementation }

def retryInputMatches (saved : Json) (payload : Fields) : Bool :=
  saved = .string (retryInputFingerprint library payload worker.binding) ||
    match worker.retryCompatibleSuccessor with
    | none => false
    | some successor => worker.binding.implementationSha256 = successor &&
        retryEquivalentImplementations.any fun implementation =>
          saved = .string (retryInputFingerprint library payload (worker.boundTo implementation))

/-- The input that a failed task was charged for; a legacy block has none. -/
def savedRetryInput (task : TaskRow) : Except String (Option Json) := do
  let loaded ← library.loads (textOr "{}" task.receipt)
  let receipt ← dictionary loaded
  let saved := Json.get "retry_input_sha256" receipt
  if saved.truthy then
    pure (some saved)
  else if task.status = .blocked then
    pure none
  else
    let stored ← library.loads task.payload
    let payload ← dictionary stored
    pure (some (.string (retryInputFingerprint library payload worker.binding)))

end Retries

/-- A task with a durable claim or an answered listing is not queued again. -/
def TaskStatus.isProtected (status : TaskStatus) : Bool :=
  status ∈ [.inflight, .interrupted, .storageHeld] ++ unavailableStatuses

def TaskRow.hasError (task : TaskRow) : Bool := textOr "" task.lastError != ""

/-- `f"{source}\0{kind}\0{identity}"`, hashed. -/
def taskKey (library : Library) (request : Request) : String :=
  library.sha256 (request.source ++ "\x00" ++ request.kind.text ++ "\x00" ++ request.identity)

/-- A part of the cascade ends the call, or goes on with a refresh flag. -/
inductive Outcome
  | returned (store : Store)
  | continues (store : Store) (refresh : Bool)

section Enqueue

variable (library : Library) (worker : Worker) (request : Request) (readings : Readings)

def newTask (status : TaskStatus) : TaskRow where
  taskId := taskKey library request
  sourceId := request.source
  kind := request.kind
  externalId := request.identity
  payload := library.dump (.object request.payload)
  status := status
  eligibleAt := match request.due with
    | none => readings.now
    | some due => if due = 0 then readings.now else due
  discoveredAt := readings.now

def proposedDeadline (payload : Fields) : Except String Json := do
  let listing ← match lookup "listing" payload with
    | none => .ok []
    | some value => dictionary value
  pure (Json.get "closes_at" listing)

def holdFor (store : Store) (proposed : Json) : Except String (List HoldRow) :=
  recordHold library store.holds (taskKey library request) request.source request.identity
    (store.job request.source request.identity) proposed readings.recordedAt readings.holdId
    readings.stamp

/-- A reviewed past deadline: the task is put aside with its evidence. -/
def putAside (store : Store) (proposed : Json) : Except String Store := do
  match store.task (taskKey library request) with
  | none =>
    let holds ← holdFor library request readings store proposed
    pure { store with
      tasks := store.tasks ++ [newTask library request readings .pastDeadline], holds }
  | some old =>
    if old.status = .pending then
      let holds ← holdFor library request readings store proposed
      -- Errors, receipts, attempts, claims and the eligible time stay.
      let tasks := updateWhere
        (fun row => row.taskId == taskKey library request && row.status == .pending)
        (fun row => { row with status := .pastDeadline }) store.tasks
      pure { store with tasks, holds }
    else if old.status = .pastDeadline then
      let holds ← holdFor library request readings store proposed
      pure { store with holds }
    else pure store

def releaseEvidence (proposed : Json) : Json :=
  .object [("kind", .string "positive_future_deadline"), ("deadline", proposed)]

/-- Whether the reviewed hold of a task may end. -/
def holdEnds (store : Store) (proposed : Json) : Except String Bool := do
  let current := store.job request.source request.identity
  let extended ← reviewedFutureExtension library current proposed readings.extendedAt
  if extended then
    matchesHoldReview library (activeHold store.holds (taskKey library request)) current
  else pure false

/-- A held detail waits for its own review's deadline to move. -/
def reopen (store : Store) (proposed : Json) : Except String Outcome := do
  let ends ← holdEnds library request readings store proposed
  if ends then
    let holds := releaseHold library store.holds (taskKey library request)
      (releaseEvidence proposed) readings.stamp
    pure (.continues { store with holds } true)
  else pure (.returned store)

/-- The deadline part, for details alone. -/
def classifyDeadline (store : Store) : Except String Outcome := do
  if request.kind = .detail then
    let proposed ← proposedDeadline request.payload
    let blocks ← blocksDetail library (store.job request.source request.identity) proposed
      readings.blockedAt
    if blocks then
      let next ← putAside library request readings store proposed
      pure (.returned next)
    else
      match store.task (taskKey library request) with
      | none => pure (.continues store request.refresh)
      | some old =>
        if old.status = .pastDeadline then reopen library request readings store proposed
        else pure (.continues store request.refresh)
  else pure (.continues store request.refresh)

/-- The terminal states: none ends the call, a flag says whether to refresh. -/
def reconsider (old : TaskRow) (refresh : Bool) : Except String (Option Bool) := do
  if old.status.isProtected then
    pure none
  else if old.status = .deadLetter ∨ old.status = .blocked then
    let saved ← savedRetryInput library worker old
    pure <| match saved with
      | none => none
      | some saved => if retryInputMatches library worker saved request.payload then none
          else some true
  else if request.kind = .document ∧ old.status = .notRequired then
    let stored ← library.loads old.payload
    let prior ← dictionary stored
    let changed ← documentDispositionChanged library prior request.payload
    pure (if changed then some true else none)
  else pure (some refresh)

/-- A failed task's back-off is kept. -/
def eligibleAt (old : TaskRow) : ℚ :=
  let eligible := request.due.getD readings.now
  if (old.status = .pending ∨ old.status = .pastDeadline) ∧ old.hasError then
    max eligible old.eligibleAt
  else eligible

def requeue (old row : TaskRow) : TaskRow :=
  { row with
    payload := library.dump (.object request.payload), status := .pending,
    eligibleAt := eligibleAt request readings old }

def applyDecision (store : Store) (old : TaskRow) : Option Bool → Store
  | none => store
  | some refresh =>
    if refresh || old.status = .pending then
      let tasks := updateWhere (fun row => row.taskId == taskKey library request)
        (requeue library request readings old) store.tasks
      { store with tasks }
    else store

def enqueue (store : Store) : Except String Store := do
  let outcome ← classifyDeadline library request readings store
  match outcome with
  | .returned next => pure next
  | .continues next refresh =>
    match store.task (taskKey library request) with
    | none =>
      let tasks := next.tasks ++ [newTask library request readings .pending]
      pure { next with tasks }
    | some old =>
      let decided ← reconsider library worker request old refresh
      pure (applyDecision library request readings next old decided)

end Enqueue

end JobAgg.RemediationWorker
