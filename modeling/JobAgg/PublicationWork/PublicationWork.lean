import Mathlib.Algebra.Order.Field.Rat
import Mathlib.Data.Prod.Lex
import JobAgg.Foundation.Checked
import JobAgg.Foundation.Table

/-! # Publication work

The dirty tables of `publication_work.py` and everything that writes to them
before a selection: the generated triggers, explicit marks, the historical
import, time transitions and contract revalidation. Times are rational epoch
seconds. The schema hash that `validate` recomputes does not change while the
tables stand and is left out.
-/

namespace JobAgg.PublicationWork

inductive Kind
  | job
  | listing
  | health
  | unknown
  deriving DecidableEq, Repr

inductive Disposition
  | pending
  | held
  | acknowledged
  deriving DecidableEq, Repr

structure VersionRow where
  version : ℕ
  unit : String
  sourceId : String
  jobKey : Option String
  kind : Kind
  changedAt : ℚ
  operation : String
  deriving DecidableEq

structure CurrentRow where
  unit : String
  version : ℕ
  sourceId : String
  jobKey : Option String
  kind : Kind
  firstChangedAt : ℚ
  lastChangedAt : ℚ
  disposition : Disposition := .pending
  reason : Option String := none
  acknowledgementSha256 : Option String := none
  deriving DecidableEq

structure Transition where
  objectKey : String
  sourceId : String
  jobKey : Option String
  dueAt : Option ℚ
  fired : Bool := false

structure Revalidation where
  contractSha256 : String
  receiptSha256 : String
  afterUnit : String
  complete : Bool

def Revalidation.isOf (row : Revalidation) (contractSha256 receiptSha256 : String) : Bool :=
  row.contractSha256 == contractSha256 && row.receiptSha256 == receiptSha256

structure Freshness where
  listingMaxAgeSeconds : ℚ
  detailMaxAgeSeconds : ℚ

/-- A row of `remediation_sources`, as far as the triggers compare it. -/
structure ListingRow where
  sourceId : String
  lastListAt : Option ℚ

/-- `listings` stands for the stored `remediation_sources`; everything else is
a table or a row that `prepare` creates. -/
structure Store where
  epoch : String
  contractSha256 : String
  nextTransitionAt : Option ℚ := none
  bootstrapComplete : Bool := false
  freshness : Option Freshness := none
  versions : List VersionRow := []
  current : List CurrentRow := []
  bootstrapped : List String := []
  cohorts : List (String × ℕ) := []
  transitions : List Transition := []
  revalidation : Option Revalidation := none
  listings : List ListingRow := []

/-- `coalesce(max(version),0)`. -/
def maxVersion (versions : List ℕ) : ℕ := versions.foldr max 0

/-- One dirty unit, as `jobagg_dirty_units` lists it. -/
structure DirtyUnit where
  unit : String
  kind : Kind
  source : String
  job : Option String

/-- A column value counts when it is neither missing nor empty. -/
def truthy (value : Option String) : Option String :=
  value.filter fun text => text != ""

inductive Operation
  | insert
  | update
  | delete
  deriving DecidableEq, Repr

def Operation.text : Operation → String
  | .insert => "INSERT"
  | .update => "UPDATE"
  | .delete => "DELETE"

/-- The columns a trigger hands to `jobagg_dirty_units`. -/
structure Payload where
  sourceId : Option String := none
  jobKey : Option String := none
  contentSha256 : Option String := none
  taskId : Option String := none
  listingChanged : Bool := true

/-- What `jobagg_dirty_units` looks up: the source of a stored job, and the jobs
whose documents hold some content. -/
structure Lookup where
  jobSource : String → Option String
  documentJobs : String → List String

/-- `units` of `configure`. -/
def dirtyUnits (table : String) (operation : Operation) (row : Payload) (lookup : Lookup) :
    List DirtyUnit :=
  if operation = .delete then
    let name := ((truthy row.jobKey).or ((truthy row.sourceId).or
      ((truthy row.taskId).or row.contentSha256))).getD "None"
    [{ unit := "deleted:" ++ table ++ ":" ++ name, kind := .unknown
       source := (truthy row.sourceId).getD "*", job := row.jobKey }]
  else
    let source :=
      match truthy row.jobKey, truthy row.sourceId with
      | some job, none => lookup.jobSource job
      | _, _ => row.sourceId
    match truthy row.jobKey, truthy source with
    | some job, some source => [{ unit := "job:" ++ job, kind := .job, source, job }]
    | _, _ =>
      let documents :=
        if table = "attachment_blobs" then
          (lookup.documentJobs (row.contentSha256.getD "")).filterMap fun job =>
            (lookup.jobSource job).map fun source =>
              { unit := "job:" ++ job, kind := .job, source, job := some job }
        else []
      if documents.isEmpty then
        match truthy source with
        | some source =>
          if table = "remediation_sources" ∧ row.listingChanged = true then
            [{ unit := "listing:" ++ source, kind := .listing, source, job := none }]
          else
            [{ unit := "health:" ++ source, kind := .health, source, job := none }]
        | none => [{ unit := "unknown:" ++ table, kind := .unknown, source := "*", job := none }]
      else documents

def CurrentRow.dirtyUnit (row : CurrentRow) : DirtyUnit where
  unit := row.unit
  kind := row.kind
  source := row.sourceId
  job := row.jobKey

def Transition.dirtyUnit (row : Transition) : DirtyUnit :=
  match truthy row.jobKey with
  | some job => { unit := "job:" ++ job, kind := .job, source := row.sourceId, job := row.jobKey }
  | none =>
    { unit := "listing:" ++ row.sourceId, kind := .listing, source := row.sourceId
      job := row.jobKey }

/-- `ON CONFLICT(unit) DO UPDATE` of a current row by a newer version. -/
def CurrentRow.carry (row : VersionRow) (old : CurrentRow) : CurrentRow :=
  { old with
    version := row.version
    lastChangedAt := row.changedAt
    firstChangedAt :=
      if old.disposition = .acknowledged then row.changedAt else old.firstChangedAt
    disposition := .pending
    reason := none
    acknowledgementSha256 := none }

/-- `INSERT INTO jobagg_dirty_current`. -/
def upsertCurrent (current : List CurrentRow) (row : VersionRow) : List CurrentRow :=
  if current.any (·.unit == row.unit) then
    updateWhere (·.unit == row.unit) (CurrentRow.carry row) current
  else
    current ++ [{
      unit := row.unit, version := row.version, sourceId := row.sourceId, jobKey := row.jobKey
      kind := row.kind, firstChangedAt := row.changedAt, lastChangedAt := row.changedAt }]

/-- The row that `AUTOINCREMENT` numbers next. -/
def nextVersion (versions : List VersionRow) (dirty : DirtyUnit) (changedAt : ℚ)
    (operation : String) : VersionRow where
  version := maxVersion (versions.map VersionRow.version) + 1
  unit := dirty.unit
  sourceId := dirty.source
  jobKey := dirty.job
  kind := dirty.kind
  changedAt := changedAt
  operation := operation

/-- `ON CONFLICT(object_key) DO UPDATE` of a transition. Only the closing trigger
moves the source as well. -/
def Transition.carry (row : Transition) (movesSource : Bool) (old : Transition) : Transition :=
  { old with
    sourceId := if movesSource then row.sourceId else old.sourceId
    dueAt := row.dueAt
    fired := if old.dueAt = row.dueAt then old.fired else false }

namespace Store

def mark (store : Store) (dirty : DirtyUnit) (changedAt : ℚ) (operation : String) : Store :=
  let row := nextVersion store.versions dirty changedAt operation
  { store with
    versions := store.versions ++ [row]
    current := upsertCurrent store.current row }

/-- The body of a generated trigger: all units get their versions first, and the
versions above the watermark are then carried to the current rows. -/
def dirtyTrigger (store : Store) (units : List DirtyUnit) (changedAt : ℚ)
    (operation : String) : Store :=
  let versions := units.foldl
    (fun versions dirty => versions ++ [nextVersion versions dirty changedAt operation])
    store.versions
  let watermark := maxVersion (store.current.map CurrentRow.version)
  let fresh := versions.filter fun row => decide (watermark < row.version)
  { store with versions := versions, current := fresh.foldl upsertCurrent store.current }

/-- `INSERT INTO jobagg_dirty_transitions`. -/
def upsertTransition (store : Store) (row : Transition) (movesSource : Bool) : Store :=
  { store with
    transitions :=
      if store.transitions.any (·.objectKey == row.objectKey) then
        updateWhere (·.objectKey == row.objectKey) (Transition.carry row movesSource)
          store.transitions
      else store.transitions ++ [row] }

end Store

/-- The writes that fire triggers. The three tables with a transition trigger of
their own carry the columns it reads; `frameChanged` says that another listing
column of `remediation_sources` changed. -/
inductive Mutation
  | jobs (operation : Operation) (jobKey sourceId : String) (closesAt : Option ℚ)
  | observations (operation : Operation) (jobKey sourceId : String) (checkedAt : ℚ)
  | sources (operation : Operation) (sourceId : String) (lastListAt : Option ℚ)
      (frameChanged : Bool)
  | other (table : String) (operation : Operation) (row : Payload)

def Mutation.table : Mutation → String
  | .jobs .. => "jobs"
  | .observations .. => "remediation_observations"
  | .sources .. => "remediation_sources"
  | .other table .. => table

def Mutation.operation : Mutation → Operation
  | .jobs operation .. => operation
  | .observations operation .. => operation
  | .sources operation .. => operation
  | .other _ operation _ => operation

def closingKey (jobKey : String) : String := "closing:" ++ jobKey

/-- `'freshness:{kind}:'||key`. -/
def freshnessKey (kind key : String) : String := "freshness:" ++ (kind ++ ":" ++ key)

def detailKey (jobKey : String) : String := freshnessKey "detail" jobKey

def listingKey (sourceId : String) : String := freshnessKey "listing" sourceId

namespace Store

/-- `new.last_list_at IS NOT old.last_list_at OR ...`, on an update only. -/
def listingChanged (store : Store) (operation : Operation) (sourceId : String)
    (lastListAt : Option ℚ) (frameChanged : Bool) : Bool :=
  match operation, store.listings.find? (·.sourceId == sourceId) with
  | .update, some old => old.lastListAt != lastListAt || frameChanged
  | _, _ => true

def payload (store : Store) : Mutation → Payload
  | .jobs _ jobKey sourceId _ => { jobKey := some jobKey, sourceId := some sourceId }
  | .observations _ jobKey sourceId _ => { jobKey := some jobKey, sourceId := some sourceId }
  | .sources operation sourceId lastListAt frameChanged =>
    { sourceId := some sourceId
      listingChanged := store.listingChanged operation sourceId lastListAt frameChanged }
  | .other _ _ row => row

/-- The row that the closing trigger or a freshness trigger inserts, and whether
a conflict moves the source. None of them fires on a delete. -/
def transitionRow (store : Store) (mutation : Mutation) : Option (Transition × Bool) :=
  if mutation.operation = .delete then none
  else
    match mutation with
    | .jobs _ jobKey sourceId closesAt =>
      some ({ objectKey := closingKey jobKey, sourceId, jobKey := some jobKey
              dueAt := closesAt }, true)
    | .observations _ jobKey sourceId checkedAt =>
      store.freshness.map fun freshness =>
        ({ objectKey := detailKey jobKey, sourceId, jobKey := some jobKey
           dueAt := some (checkedAt + freshness.detailMaxAgeSeconds) }, false)
    | .sources _ sourceId lastListAt _ =>
      store.freshness.map fun freshness =>
        ({ objectKey := listingKey sourceId, sourceId, jobKey := none
           dueAt := lastListAt.map (· + freshness.listingMaxAgeSeconds) }, false)
    | .other .. => none

def transitionTriggers (store : Store) (mutation : Mutation) : Store :=
  match store.transitionRow mutation with
  | some (row, movesSource) => store.upsertTransition row movesSource
  | none => store

/-- The stored row itself; only `remediation_sources` is read again. -/
def writeRow (store : Store) : Mutation → Store
  | .sources operation sourceId lastListAt _ =>
    let others := store.listings.filter (·.sourceId != sourceId)
    { store with
      listings :=
        if operation = .delete then others else others ++ [{ sourceId, lastListAt }] }
  | _ => store

/-- One written row with all its triggers. -/
def mutate (store : Store) (mutation : Mutation) (lookup : Lookup) (now : ℚ) : Store :=
  let units := dirtyUnits mutation.table mutation.operation (store.payload mutation) lookup
  ((store.transitionTriggers mutation).dirtyTrigger units now
    (mutation.table ++ ":" ++ mutation.operation.text)).writeRow mutation

/-- Time transitions that are due, oldest first, at most `limit`. -/
def dueTransitions (store : Store) (now : ℚ) (limit : ℕ) : List Transition :=
  (orderBy (fun row => toLex (row.dueAt.getD 0, row.objectKey))
    (store.transitions.filter fun row => !row.fired && row.dueAt.any fun due => decide (due ≤ now))).take
    limit

def fire (store : Store) (row : Transition) (changedAt : ℚ) : Store :=
  let marked := store.mark row.dirtyUnit changedAt "time_transition_revalidation"
  { marked with
    transitions := updateWhere (·.objectKey == row.objectKey)
      (fun old => { old with fired := true }) marked.transitions }

def advanceTime (store : Store) (now : ℚ) (limit : ℕ) (changedAt : ℚ) : Store :=
  (store.dueTransitions now limit).foldl (fun store row => store.fire row changedAt) store

def revalidationPage (store : Store) (contractSha256 receiptSha256 : String) : Revalidation :=
  (store.revalidation.filter (·.isOf contractSha256 receiptSha256)).getD
    { contractSha256, receiptSha256, afterUnit := "", complete := false }

/-- One page of an explicit contract change. A page that runs into its deadline
(`expired` at the index of a row) raises, and its transaction is rolled back. -/
def revalidateContract (store : Store) (contractSha256 receiptSha256 : String) (limit : ℕ)
    (expired : ℕ → Bool) (changedAt : ℚ) : Except String (Store × Bool) := do
  require (decide (0 < limit) && contractSha256 != "" && receiptSha256 != "")
    "reviewed_contract_revalidation_page_required"
  require (store.revalidation.all fun row =>
    row.isOf contractSha256 receiptSha256 || row.complete)
    "another_contract_revalidation_is_pending"
  let page := store.revalidationPage contractSha256 receiptSha256
  if page.complete then return (store, true)
  let rows := (orderBy CurrentRow.unit
    (store.current.filter fun row => decide (page.afterUnit < row.unit))).take limit
  require ((List.range rows.length).all fun index => !expired index)
    "contract_revalidation_deadline"
  let marked := rows.foldl
    (fun store row => store.mark row.dirtyUnit changedAt "contract_revalidation") store
  let after := (rows.getLast?.map CurrentRow.unit).getD page.afterUnit
  let complete := decide (rows.length < limit)
  return ({ marked with
    contractSha256 := if complete then contractSha256 else store.contractSha256
    revalidation := some { page with afterUnit := after, complete := complete } }, complete)

/-- A historical observation or listing frame. `stored` is the source and the
closing date of the row of `jobs`, if there is one. -/
structure BootstrapRow where
  key : String
  sourceId : String
  kind : Kind
  stored : Option (String × Option ℚ)

/-- `INSERT OR IGNORE INTO jobagg_dirty_transitions SELECT ... FROM jobs`. -/
def importClosing (transitions : List Transition) (row : BootstrapRow) : List Transition :=
  match row.kind, row.stored with
  | .job, some (sourceId, closesAt) =>
    if transitions.any (·.objectKey == closingKey row.key) then transitions
    else transitions ++ [{
      objectKey := closingKey row.key, sourceId, jobKey := some row.key, dueAt := closesAt }]
  | _, _ => transitions

def bootstrapRow (store : Store) (row : BootstrapRow) (changedAt : ℚ) : Store :=
  let label := (if row.kind = .job then "job:" else "listing:") ++ row.key
  let job := if row.kind = .job then some row.key else none
  let marked := store.mark { unit := label, kind := row.kind, source := row.sourceId, job }
    changedAt "verified_legacy_import"
  { marked with
    bootstrapped := marked.bootstrapped ++ [label]
    transitions := importClosing marked.transitions row }

/-- One page of the historical import: the rows it reads, and whether the page
was not full, which completes the import. -/
def bootstrap (store : Store) (rows : List BootstrapRow) (exhausted : Bool)
    (changedAt : ℚ) : Store :=
  let imported := rows.foldl (fun store row => store.bootstrapRow row changedAt) store
  { imported with bootstrapComplete := imported.bootstrapComplete || exhausted }

/-- The tables as `prepare` leaves them, with the freshness transitions of what
is already stored. -/
def prepare (contractSha256 epoch : String) (freshness : Option Freshness)
    (observations : List (String × String × ℚ)) (listings : List ListingRow) : Store where
  epoch := epoch
  contractSha256 := contractSha256
  freshness := freshness
  listings := listings
  transitions :=
    match freshness with
    | none => []
    | some freshness =>
      observations.map (fun (jobKey, sourceId, checkedAt) =>
        { objectKey := detailKey jobKey, sourceId, jobKey := some jobKey
          dueAt := some (checkedAt + freshness.detailMaxAgeSeconds) }) ++
      listings.filterMap fun row => row.lastListAt.map fun lastListAt =>
        { objectKey := listingKey row.sourceId, sourceId := row.sourceId, jobKey := none
          dueAt := some (lastListAt + freshness.listingMaxAgeSeconds) }

end Store

structure Vector where
  empty : Bool
  epoch : String
  pending : Option CurrentRow
  held : Option CurrentRow
  unscopedHeld : Option CurrentRow
  revalidationReasons : List String
  nextTransitionAt : Option ℚ

/-- `ORDER BY first_changed_at,unit`. -/
def oldestFirst (rows : List CurrentRow) : List CurrentRow :=
  orderBy (fun row => toLex (row.firstChangedAt, row.unit)) rows

namespace Store

/-- `min(due_at)` over the transitions that have not fired, and the stored
bound when there is one. -/
def nextTransition (store : Store) : Option ℚ :=
  let due := (store.transitions.filter fun row => !row.fired).filterMap Transition.dueAt
  match due.min?, store.nextTransitionAt with
  | none, stored => stored
  | some due, none => some due
  | some due, some stored => some (min due stored)

def withDisposition (store : Store) (disposition : Disposition) : List CurrentRow :=
  store.current.filter fun row => row.disposition == disposition

def vector (store : Store) (contractSha256 : String) (now : ℚ) : Except String Vector := do
  require store.bootstrapComplete "publication_work_bootstrap_incomplete"
  let reasons :=
    (if store.contractSha256 = contractSha256 then [] else ["contract_epoch_changed"]) ++
    (if store.nextTransition.any fun due => decide (due ≤ now) then ["time_transition_due"] else [])
  let pending := (oldestFirst (store.withDisposition .pending)).head?
  let held := (oldestFirst (store.withDisposition .held)).head?
  let unscoped := fun (scope : String) =>
    (orderBy CurrentRow.unit ((store.withDisposition .held).filter fun row =>
      row.unit.startsWith scope)).head?
  return {
    empty := pending.isNone && held.isNone && reasons.isEmpty
    epoch := store.epoch
    pending := pending
    held := held
    unscopedHeld := (unscoped "unknown:").or (unscoped "deleted:")
    revalidationReasons := reasons
    nextTransitionAt := store.nextTransition }

end Store

end JobAgg.PublicationWork
