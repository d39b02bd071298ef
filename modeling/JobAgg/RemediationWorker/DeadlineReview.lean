import JobAgg.Foundation.Checked
import JobAgg.Foundation.Json
import JobAgg.Foundation.Table
import Mathlib.Algebra.Order.Ring.Rat

/-! # Reviewed past-deadline classifications

`jobagg.deadline_review`: a review marker in the stored job names the posting it
is about, a hold keeps the review that a detail task is held under, and only a
future deadline under that same review lets the task go. Instants are seconds
since the epoch.
-/

namespace JobAgg.RemediationWorker

/-- What the worker uses of the language. -/
structure Library where
  /-- `datetime.fromisoformat` after the `Z` suffix is replaced, a naive value read as UTC. -/
  fromIsoFormat : String → Option ℚ
  isoFormat : ℚ → String
  loads : String → Except String Json
  /-- `json.dumps(value, sort_keys=True)`. -/
  dumps : Json → String
  /-- The worker's `dump`, which keeps letters outside ASCII. -/
  dump : Json → String
  sha256 : String → String
  str : Json → String
  /-- `left == right`. -/
  same : Json → Json → Bool

abbrev Fields := List (String × Json)

/-- A row of `jobs`, with the columns that the queue reads. -/
structure JobRow where
  sourceId : String
  externalId : String
  closesAt : Option String
  rawJson : Option String

/-- A row of `remediation_deadline_holds`. -/
structure HoldRow where
  holdId : String
  taskId : String
  sourceId : String
  externalId : String
  reviewJson : String
  deadlineUtc : String
  recordedAt : String
  releasedAt : Option String := none
  releaseJson : Option String := none
deriving DecidableEq

/-- `value or default`, for a text column. -/
def textOr (default : String) : Option String → String
  | none => default
  | some text => if text = "" then default else text

/-- A value whose `get` is called. -/
def dictionary : Json → Except String Fields
  | .object fields => .ok fields
  | _ => .error "AttributeError: get"

def column : Option String → Json
  | none => .null
  | some text => .string text

def marker : String := "_past_deadline_review"

variable (library : Library)

/-- `instant`: a text that is no instant gives none, as every other value does. -/
def instant : Json → Option ℚ
  | .string text => if text = "" then none else library.fromIsoFormat text
  | _ => none

/-- The conditions of `marker_for` on a review. -/
def identityBound (review : Fields) (sourceId externalId : String) : Bool :=
  Json.get "authority" review = .string "user_requested_deadline_classification" &&
  Json.get "source_id" review = .string sourceId &&
  library.str (Json.get "external_id" review) = externalId &&
  (Json.get "review_id" review).truthy &&
  (instant library (Json.get "reviewed_at" review)).isSome

def markerFor (raw : Json) (sourceId externalId : String) : Except String (Option Fields) := do
  let fields ← dictionary raw
  pure ((Json.get marker fields).asObject.filter fun review =>
    identityBound library review sourceId externalId)

def rawOf (current : JobRow) : Except String Json := library.loads (textOr "{}" current.rawJson)

/-- The deadline that decides: the proposed one, the stored one, the reviewed one. -/
def deadlineOf (review : Fields) (current : JobRow) (proposed : Json) : Option ℚ :=
  (instant library proposed).or ((instant library (column current.closesAt)).or
    (instant library (Json.get "deadline_utc" review)))

def blocksDetail (current : Option JobRow) (proposed : Json) (now : ℚ) : Except String Bool := do
  match current with
  | none => pure false
  | some job =>
    let raw ← rawOf library job
    let review ← markerFor library raw job.sourceId job.externalId
    pure <| match review with
      | none => false
      | some review => (Json.get "active" review).isTrue &&
          (deadlineOf library review job proposed).any fun deadline => decide (deadline < now)

def reviewedFutureExtension (current : Option JobRow) (proposed : Json) (now : ℚ) :
    Except String Bool := do
  match current with
  | none => pure false
  | some job =>
    let raw ← rawOf library job
    let review ← markerFor library raw job.sourceId job.externalId
    pure (review.isSome && (instant library proposed).any fun deadline => decide (now < deadline))

/-- `active_hold`; a database without the table has no hold. -/
def activeHold (holds : List HoldRow) (taskId : String) : Option HoldRow :=
  holds.find? fun hold => hold.taskId == taskId && hold.releasedAt.isNone

/-- Retain the deadline evidence. -/
def recordHold (holds : List HoldRow) (taskId sourceId externalId : String)
    (current : Option JobRow) (proposed : Json) (now : ℚ) (holdId stamp : String) :
    Except String (List HoldRow) := do
  match current with
  | none => .error "TypeError: 'NoneType' object is not subscriptable"
  | some job =>
    let raw ← rawOf library job
    let review ← markerFor library raw sourceId externalId
    let blocks ← blocksDetail library current proposed now
    match review, blocks with
    | some review, true =>
      match deadlineOf library review job proposed with
      | none => .error "AttributeError: isoformat"
      | some deadline =>
        if (activeHold holds taskId).isSome then
          pure holds
        else
          pure (holds ++ [{
            holdId, taskId, sourceId, externalId,
            reviewJson := library.dumps (.object review),
            deadlineUtc := library.isoFormat deadline, recordedAt := stamp }])
    | _, _ => .error "Deadline hold requires identity-bound review evidence"

def boundFields : List String :=
  ["authority", "source_id", "external_id", "review_id", "reviewed_at"]

/-- A current marker cannot prove which review created a hold without its own evidence. -/
def matchesHoldReview (hold : Option HoldRow) (current : Option JobRow) : Except String Bool := do
  match hold, current with
  | none, _ => pure false
  | some _, none => .error "TypeError: 'NoneType' object is not subscriptable"
  | some hold, some job =>
    let raw ← rawOf library job
    let review ← markerFor library raw hold.sourceId hold.externalId
    let saved ← library.loads hold.reviewJson
    match review with
    | none => pure false
    | some review =>
      let prior ← dictionary saved
      pure (boundFields.all fun key => library.same (Json.get key review) (Json.get key prior))

def releaseHold (holds : List HoldRow) (taskId : String) (evidence : Json) (stamp : String) :
    List HoldRow :=
  match activeHold holds taskId with
  | none => holds
  | some hold =>
    updateWhere (fun row => row.holdId == hold.holdId && row.releasedAt.isNone)
      (fun row => { row with
        releasedAt := some stamp, releaseJson := some (library.dumps evidence) }) holds

def BoundTo (hold : HoldRow) (job : JobRow) : Prop :=
  ∃ raw review prior, rawOf library job = .ok raw ∧
    markerFor library raw hold.sourceId hold.externalId = .ok (some review) ∧
    library.loads hold.reviewJson = .ok (.object prior) ∧
    ∀ key ∈ boundFields, library.same (Json.get key review) (Json.get key prior) = true

variable {library}

theorem dictionary_eq_ok {value : Json} {fields : Fields} :
    dictionary value = .ok fields ↔ value = .object fields := by
  cases value <;> simp [dictionary]

theorem reviewedFutureExtension_eq_true {current : Option JobRow} {proposed : Json} {now : ℚ}
    (extended : reviewedFutureExtension library current proposed now = .ok true) :
    ∃ deadline, instant library proposed = some deadline ∧ now < deadline := by
  cases current with
  | none => cases extended
  | some job =>
    simp only [reviewedFutureExtension] at extended
    rcases bind_eq_ok.mp extended with ⟨raw, _, extended⟩
    rcases bind_eq_ok.mp extended with ⟨review, _, extended⟩
    simp only [pure_eq_ok, Bool.and_eq_true, Option.any_eq_true, decide_eq_true_eq] at extended
    exact extended.2

theorem matchesHoldReview_eq_true {hold : Option HoldRow} {current : Option JobRow}
    (matching : matchesHoldReview library hold current = .ok true) :
    ∃ row job, hold = some row ∧ current = some job ∧ BoundTo library row job := by
  cases hold with
  | none => cases matching
  | some row =>
    cases current with
    | none => cases matching
    | some job =>
      simp only [matchesHoldReview] at matching
      rcases bind_eq_ok.mp matching with ⟨raw, read, matching⟩
      rcases bind_eq_ok.mp matching with ⟨review, marked, matching⟩
      rcases bind_eq_ok.mp matching with ⟨saved, loaded, matching⟩
      cases review with
      | none => cases matching
      | some review =>
        rcases bind_eq_ok.mp matching with ⟨prior, fields, matching⟩
        rw [dictionary_eq_ok] at fields
        rw [fields] at loaded
        rw [pure_eq_ok, List.all_eq_true] at matching
        exact ⟨row, job, rfl, rfl, raw, review, prior, read, marked, loaded, matching⟩

theorem activeHold_eq_some {holds : List HoldRow} {taskId : String} {hold : HoldRow}
    (found : activeHold holds taskId = some hold) :
    hold ∈ holds ∧ hold.taskId = taskId ∧ hold.releasedAt = none := by
  have selected := List.find?_some found
  rw [Bool.and_eq_true, beq_iff_eq, Option.isNone_iff_eq_none] at selected
  exact ⟨List.mem_of_find?_eq_some found, selected⟩

end JobAgg.RemediationWorker
