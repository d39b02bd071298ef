import JobAgg.SyncSource.SyncSource

/-! # The detail breakers of a source

The two breaker rows that `sync_source_with_selective_details` reads before its
detail loop and writes in it and after it. Listings, stored vacancies and the
backlog reach the rows only through what each listed item asks for, so that is
the input here. Instants are seconds since the epoch.
-/

namespace JobAgg.SyncSource.DetailBreaker

inductive State
  | closed
  | opened
  | halfOpen
deriving DecidableEq

inductive BreakerType
  | detail
  | transientDetail
deriving DecidableEq

def BreakerType.text : BreakerType → String
  | detail => "detail"
  | transientDetail => "transient_detail"

/-- A row of `source_circuit_breakers`. Every write that opens it starts a new count. -/
structure Row where
  state : State
  failureCount : ℕ
  successCount : ℕ
  cooldownUntil : Option ℚ
  reason : Option String
  fresh : state = .opened → successCount = 0
deriving DecidableEq

def Row.missing : Row where
  state := .closed
  failureCount := 0
  successCount := 0
  cooldownUntil := none
  reason := none
  fresh := by simp

def Row.open (failureCount : ℕ) (cooldownUntil : Option ℚ) (reason : String) : Row where
  state := .opened
  failureCount := failureCount
  successCount := 0
  cooldownUntil := cooldownUntil
  reason := some reason
  fresh _ := rfl

def Row.close (failureCount successCount : ℕ) (reason : String) : Row where
  state := .closed
  failureCount := failureCount
  successCount := successCount
  cooldownUntil := none
  reason := some reason
  fresh := by simp

def Row.probe (failureCount successCount : ℕ) (reason : String) : Row where
  state := .halfOpen
  failureCount := failureCount
  successCount := successCount
  cooldownUntil := none
  reason := some reason
  fresh := by simp

/-- Open, with a cooldown in the future. -/
def Row.blocks (row : Row) (now : ℚ) : Bool :=
  row.state = .opened && row.cooldownUntil.any fun cooldownUntil => decide (now < cooldownUntil)

abbrev Rows := BreakerType → Row

/-- What a run makes of the rows before it fetches details. -/
structure Prepared where
  state : State
  maxAttempts : Option ℕ
  breakerType : BreakerType
deriving DecidableEq

def prepareDetailBreakerState (rows : Rows) (breakerType : BreakerType) (now : ℚ) :
    Rows × Prepared :=
  let breaker := rows breakerType
  match breaker.state with
  | .opened =>
    if breaker.blocks now then (rows, ⟨.opened, some 0, breakerType⟩)
    else
      (Function.update rows breakerType
        (.probe breaker.failureCount breaker.successCount
          (breakerType.text ++ " breaker probe")),
        ⟨.halfOpen, some 1, breakerType⟩)
  | .halfOpen => (rows, ⟨.halfOpen, some 3, breakerType⟩)
  | .closed => (rows, ⟨.closed, none, breakerType⟩)

/-- The first row that is not closed decides, the detail row before the other. -/
def prepareDetailBreakerForRun (rows : Rows) (now : ℚ) : Rows × Prepared :=
  if (rows .detail).state ≠ .closed then prepareDetailBreakerState rows .detail now
  else if (rows .transientDetail).state ≠ .closed then
    prepareDetailBreakerState rows .transientDetail now
  else (rows, ⟨.closed, none, .detail⟩)

structure Settings where
  maxDetailPages : Option ℤ := none
  transientFailureLimit : Option ℤ := none
  failureCooldown : Option ℤ := none
  detailNoneIsTransient : Bool := false
  probeCooldown : Option ℤ := none

/-- What comes of a detail request. -/
inductive Answer
  | noDetail
  | incomplete
  | complete
  | unavailable
  | raised (isTransient : Bool) (reason : String)
deriving DecidableEq

/-- What a listed item asks for: nothing, nothing but its own payload, or a request
once its own cooldown is over. -/
inductive Demand
  | notQueued
  | satisfied
  | queued (cooldownUntil : Option ℚ) (answer : Answer)
deriving DecidableEq

structure Item where
  consideredAt : ℚ
  answeredAt : ℚ
  demand : Demand

/-- One run that reaches the detail loop; one that raises on the way has no end. -/
structure Visit where
  settings : Settings
  hasFetchDetail : Bool
  startedAt : ℚ
  items : List Item
  finishedAt : Option ℚ

/-- The request of one detail, with the rows it was sent under. -/
structure Dispatch where
  sentAt : ℚ
  rows : Rows

structure Progress where
  rows : Rows
  attempts : ℕ := 0
  failures : ℕ := 0
  transientFailures : ℕ := 0
  unavailable : ℕ := 0
  completions : ℕ := 0
  aborted : Bool := false
  breakerOpened : Bool := false
  dispatched : List Dispatch := []

def detailBreakerCooldownSeconds (settings : Settings) : ℤ :=
  Environment.firstNonZero settings.probeCooldown (24 * 60 * 60)

def hostCooldownUntil (settings : Settings) (now : ℚ) : Option ℚ :=
  settings.failureCooldown.bind fun seconds =>
    if seconds = 0 then none else some (now + seconds)

def maxDetailPages (settings : Settings) (prepared : Prepared) : Option ℤ :=
  match prepared.state with
  | .opened => some 0
  | .halfOpen =>
    let probeLimit : ℤ := prepared.maxAttempts.getD 3
    some (settings.maxDetailPages.elim probeLimit fun pages => min pages probeLimit)
  | .closed => settings.maxDetailPages

namespace Progress

variable (settings : Settings) (now : ℚ) (progress : Progress)

def fail : Progress := { progress with failures := progress.failures + 1 }

/-- Stop, and open the transient breaker, where the transient failures reach their limit. -/
def stopAtLimit (reason : String) : Progress :=
  match settings.transientFailureLimit with
  | none => progress
  | some limit =>
    if 0 < limit ∧ limit ≤ progress.transientFailures then
      { progress with
        aborted := true
        rows := Function.update progress.rows .transientDetail
          (.open progress.transientFailures (hostCooldownUntil settings now) reason) }
    else progress

def openDetailAdapterBreaker : Progress :=
  if shouldOpenDetailAdapterBreaker (progress.attempts - progress.unavailable)
      progress.failures then
    { progress with
      breakerOpened := true
      aborted := true
      rows := Function.update progress.rows .detail
        (.open progress.failures (some (now + detailBreakerCooldownSeconds settings))
          "adapter_failed") }
  else progress

def record (answer : Answer) : Progress :=
  match answer with
  | .complete => progress
  | .unavailable => { progress with unavailable := progress.unavailable + 1 }
  | .incomplete => progress.fail.openDetailAdapterBreaker settings now
  | .noDetail =>
    if settings.detailNoneIsTransient then
      { progress.fail with
        transientFailures := progress.transientFailures + 1 }.stopAtLimit settings now
          "no_detail_response"
    else progress.fail.openDetailAdapterBreaker settings now
  | .raised isTransient reason =>
    if isTransient then
      { progress.fail with
        transientFailures := progress.transientFailures + 1 }.stopAtLimit settings now reason
    else
      (progress.fail.stopAtLimit settings now reason).openDetailAdapterBreaker settings now

/-- A request is sent, unless the breaker, a stop, the item's cooldown or the budget
holds it back. -/
def sends (visit : Visit) (prepared : Prepared) (cooldownUntil : Option ℚ)
    (consideredAt : ℚ) : Bool :=
  visit.hasFetchDetail && prepared.state != .opened && !progress.aborted &&
    !(cooldownUntil.any fun cooldownUntil => decide (consideredAt < cooldownUntil)) &&
    (maxDetailPages visit.settings prepared).all fun pages =>
      decide ((progress.attempts : ℤ) < pages)

def send (sentAt : ℚ) : Progress :=
  { progress with
    attempts := progress.attempts + 1
    dispatched := progress.dispatched ++ [{ sentAt, rows := progress.rows }] }

end Progress

variable (visit : Visit) (rows : Rows)

def turn (prepared : Prepared) (progress : Progress) (item : Item) : Progress :=
  match item.demand with
  | .notQueued => progress
  | .satisfied => { progress with completions := progress.completions + 1 }
  | .queued cooldownUntil answer =>
    if progress.sends visit prepared cooldownUntil item.consideredAt then
      (progress.send item.consideredAt).record visit.settings item.answeredAt answer
    else progress

def prepared : Prepared := (prepareDetailBreakerForRun rows visit.startedAt).2

/-- The loop over the listed items. -/
def details : Progress :=
  let start := prepareDetailBreakerForRun rows visit.startedAt
  visit.items.foldl (turn visit start.2) { rows := start.1 }

/-- `_record_detail_breaker_after_run`; the attempts are those that were evaluated. -/
def recordDetailBreakerAfterRun (settings : Settings) (rows : Rows) (breaker : Prepared)
    (detailAttempts detailFailures : ℕ) (opened : Bool) (now : ℚ) : Rows :=
  if opened || detailAttempts = 0 then rows
  else if breaker.state = .closed then
    Function.update rows breaker.breakerType
      (.close detailFailures (if detailFailures = 0 then 1 else 0) "detail run complete")
  else if detailFailures = 0 then
    let successCount := (rows breaker.breakerType).successCount + 1
    Function.update rows breaker.breakerType
      (if breaker.state = .halfOpen ∧ 2 ≤ successCount then
        .close 0 successCount "successful detail probe"
      else .probe 0 successCount "successful detail probe")
  else if 10 * detailFailures < 2 * detailAttempts then
    Function.update rows breaker.breakerType (.close 0 1 "detail failure ratio below threshold")
  else
    Function.update rows breaker.breakerType
      (.open detailFailures (some (now + detailBreakerCooldownSeconds settings))
        "detail probe failed")

/-- Listings that carry their details close the detail breaker of a run without requests. -/
def closeSatisfied (progress : Progress) (rows : Rows) : Rows :=
  if 0 < progress.completions ∧ progress.attempts = 0 ∧ progress.breakerOpened = false then
    Function.update rows .detail (.close 0 1 "listing payload satisfies detail")
  else rows

def sync : Rows :=
  let progress := details visit rows
  match visit.finishedAt with
  | none => progress.rows
  | some now =>
    closeSatisfied progress
      (recordDetailBreakerAfterRun visit.settings progress.rows (prepared visit rows)
        (progress.attempts - progress.unavailable) progress.failures progress.breakerOpened now)

def syncAll (visits : List Visit) : Rows := visits.foldl (fun rows visit => sync visit rows) rows

end JobAgg.SyncSource.DetailBreaker
