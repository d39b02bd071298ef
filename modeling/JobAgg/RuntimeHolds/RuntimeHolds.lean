import JobAgg.Foundation.Checked
import JobAgg.Foundation.Json
import JobAgg.Foundation.Table

/-! # Integrity holds

The reviews of `runtime_holds.py`. One review stands for an exact scope and
identity and carries every cause that was put there; its first active cause is
copied to the top of the record.
-/

namespace JobAgg.RuntimeHolds

inductive Scope
  | task
  | source
  | host
  | unit
  deriving DecidableEq

def Scope.text : Scope → String
  | task => "task"
  | source => "source"
  | host => "host"
  | unit => "unit"

inductive Phase
  | idle
  | worker
  | accepted
  | publisher
  deriving DecidableEq

/-- The state that `runtime_authority` validates. -/
structure Runtime where
  epoch : String
  phase : Phase

structure Release where
  reviewSha256 : String
  correction : String
  deriving DecidableEq

structure Cause where
  schema : String
  epoch : String
  scope : Scope
  identity : String
  reason : String
  evidenceSha256 : String
  nextCondition : String
  release : Option Release := none
  deriving DecidableEq

def Cause.active (cause : Cause) : Bool := cause.release.isNone

abbrev Fields := List (String × Json)

def Cause.reviewed (cause : Cause) : Fields :=
  [("schema", .string cause.schema), ("epoch", .string cause.epoch),
    ("scope", .string cause.scope.text), ("identity", .string cause.identity),
    ("reason", .string cause.reason), ("evidence_sha256", .string cause.evidenceSha256),
    ("next_condition", .string cause.nextCondition), ("automatic_retry", .bool false),
    ("probe_ceiling", .number "0"), ("on_exhaustion", .string "operator_review"),
    ("certifies_acceptance_or_publication", .bool false)]

def Cause.fields (cause : Cause) : Fields :=
  cause.reviewed ++
    match cause.release with
    | none => []
    | some release =>
      [("released", .bool true), ("release_review_sha256", .string release.reviewSha256),
        ("correction", .string release.correction), ("previous_review", .object cause.reviewed)]

structure Review where
  current : Cause
  causes : Option (List Cause) := none

/-- `previous.get("causes", [previous])`. -/
def Review.allCauses (review : Review) : List Cause := review.causes.getD [review.current]

def Review.fields (review : Review) : Fields :=
  review.current.fields ++
    match review.causes with
    | none => []
    | some causes => [("causes", .array (causes.map fun cause => .object cause.fields))]

structure Audit where
  previous : Review
  current : Review

/-- The rows of `jobagg_legacy_review_holds` that holds are about: reviews by
their run id, the audits of releases, and the containment receipt. -/
structure Ledger where
  reviews : List (String × Review) := []
  audits : List (String × Audit) := []
  containment : Option Fields := none

def schema : String := "native-scoped-integrity-hold-1"

/-- `PREFIX + scope + "/" + identity`. -/
def holdId (scope : Scope) (identity : String) : String :=
  "runtime-hold/" ++ scope.text ++ "/" ++ identity

def key (scope : Scope) (identity : String) : Except String String := do
  require (identity != "") "exact_runtime_hold_scope_required"
  return holdId scope identity

def Cause.boundTo (cause : Cause) (epoch : String) (scope : Scope) (identity : String) : Bool :=
  cause.epoch == epoch && cause.scope == scope && cause.identity == identity

/-- The value that `put` writes. -/
def activeCause (epoch : String) (scope : Scope)
    (identity reason evidenceSha256 nextCondition : String) : Cause where
  schema := schema
  epoch := epoch
  scope := scope
  identity := identity
  reason := reason
  evidenceSha256 := evidenceSha256
  nextCondition := nextCondition

def addCause (old : Review) (value : Cause) : Except String (Option Review × Cause) :=
  match old.allCauses.find? fun cause =>
      cause.evidenceSha256 == value.evidenceSha256 && cause.reason == value.reason with
  | some cause =>
    if cause = value then .ok (none, cause)
    else .error "runtime_hold_existing_review_differs"
  | none =>
    if 64 ≤ old.allCauses.length then .error "runtime_hold_active_review_bound"
    else
      let causes := old.allCauses ++ [value]
      match causes.find? Cause.active with
      | some first => .ok (some { current := first, causes := some causes }, value)
      | none => .error "StopIteration"

/-- The review table after `put`. -/
def putReview (reviews : List (String × Review)) (runId : String) (value : Cause) :
    Except String (List (String × Review) × Cause) :=
  match lookup runId reviews with
  | none => .ok (reviews ++ [(runId, { current := value })], value)
  | some old =>
    if old.current.boundTo value.epoch value.scope value.identity then do
      let (changed, cause) ← addCause old value
      return (changed.elim reviews (assign runId · reviews), cause)
    else .error "runtime_hold_existing_review_differs"

def put (authority : Except String Runtime) (ledger : Ledger) (scope : Scope)
    (identity reason evidenceSha256 nextCondition : String) : Except String (Ledger × Cause) := do
  let runtime ← authority
  require (runtime.phase == .idle) "runtime_hold_requires_idle_review"
  require (reason != "" && nextCondition != "" && isSha256 evidenceSha256)
    "runtime_hold_evidence_and_release_condition_required"
  let value := activeCause runtime.epoch scope identity reason evidenceSha256 nextCondition
  let runId ← key scope identity
  let (reviews, cause) ← putReview ledger.reviews runId value
  return ({ ledger with reviews }, cause)

/-- `find`, over the scopes in their order. -/
def findAmong (runtime : Option Runtime) (ledger : Ledger) (subject : Scope → Option String) :
    List Scope → Except String (Option Review)
  | [] => .ok none
  | scope :: scopes =>
    match subject scope with
    | none => findAmong runtime ledger subject scopes
    | some identity => do
      let runId ← key scope identity
      match lookup runId ledger.reviews with
      | none => findAmong runtime ledger subject scopes
      | some review =>
        require (review.current.schema == schema && runtime.any fun state =>
            review.current.boundTo state.epoch scope identity)
          "runtime_hold_binding_changed"
        if (Json.get "released" review.fields).isTrue then
          findAmong runtime ledger subject scopes
        else return some review

def find (runtime : Option Runtime) (ledger : Ledger) (subject : Scope → Option String) :
    Except String (Option Review) :=
  findAmong runtime ledger subject [.source, .task, .host, .unit]

/-- `coalesce(json_extract(review_json,'$.released'),0)=1`. -/
def releasedColumn (fields : Fields) : Bool :=
  match Json.get "released" fields with
  | .bool flag => flag
  | .number numeral => numeral == "1" || numeral == "1.0"
  | _ => false

/-- `json_extract(review_json,'$.epoch')=epoch`, with `none` for NULL. -/
def epochColumn (fields : Fields) (epoch : Option String) : Option Bool :=
  match Json.get "epoch" fields, epoch with
  | .null, _ => none
  | _, none => none
  | .string text, some epoch => some (text == epoch)
  | _, some _ => some false

/-- `NOT (released AND epoch)` as a condition on rows: NULL selects none. -/
def standing (fields : Fields) (epoch : Option String) : Bool :=
  !releasedColumn fields || epochColumn fields epoch == some false

/-- The condition of `task_predicate` on one row of tasks; a NULL column gives no
run id. -/
def taskPredicate (runtime : Option Runtime) (ledger : Ledger) (source task host : Option String) :
    Bool :=
  [(Scope.source, source), (Scope.task, task), (Scope.host, host)].all fun (scope, column) =>
    !ledger.reviews.any fun row =>
      column.any (fun identity => row.1 == holdId scope identity) &&
        standing row.2.fields (runtime.map Runtime.epoch)

def invalidate (reason : String) (containment : Option Fields) : Option Fields :=
  containment.map fun value =>
    if !value.isEmpty && !(Json.get "invalidated" value).truthy then
      assign "invalidated" (.string reason) value
    else value

def names (expectedEvidenceSha256 : String) (cause : Cause) : Bool :=
  cause.evidenceSha256 == expectedEvidenceSha256 && cause.active

def releaseCause (previous : Review) (expectedEvidenceSha256 : String) (release : Release) :
    Except String (Review × Cause) :=
  match previous.allCauses.filter (names expectedEvidenceSha256) with
  | [original] =>
    let value := { original with release := some release }
    let causes :=
      updateWhere (names expectedEvidenceSha256) (fun _ => value) previous.allCauses
    if 1 < causes.length then
      let active := causes.filter Cause.active
      .ok ({ current := active.head?.getD value, causes := some causes }, value)
    else .ok ({ current := value }, value)
  | _ => .error "runtime_hold_release_original_review_changed"

/-- `release`; the digest is the SHA-256 of the audit's text. -/
def release (digest : Audit → String) (authority : Except String Runtime) (ledger : Ledger)
    (scope : Scope) (identity expectedEvidenceSha256 reviewSha256 correction : String) :
    Except String (Ledger × Cause) := do
  let runtime ← authority
  require (runtime.phase == .idle && correction != "" && isSha256 reviewSha256)
    "runtime_hold_release_requires_idle_exact_review"
  let runId ← key scope identity
  let previous ← (lookup runId ledger.reviews).elim
    (.error "runtime_hold_release_exact_scope_missing") .ok
  require (previous.current.schema == schema &&
      previous.current.boundTo runtime.epoch scope identity)
    "runtime_hold_release_original_review_changed"
  let (current, value) ←
    releaseCause previous expectedEvidenceSha256 { reviewSha256, correction }
  let audit := Audit.mk previous current
  let auditId := "runtime-hold-release/" ++ digest audit
  require (lookup auditId ledger.audits).isNone "UNIQUE constraint failed"
  return ({
    reviews := assign runId current ledger.reviews
    audits := ledger.audits ++ [(auditId, audit)]
    containment := invalidate "scoped hold release requires updated shared-state review"
      ledger.containment }, value)

end JobAgg.RuntimeHolds
