import JobAgg.Foundation.Run
import JobAgg.PolicyAuthority.Projection
import Mathlib.Data.Prod.Lex

/-! # Delivery of attempts as files

Each attempt that is reserved or finished is queued as a new version of its row in the export
queue. An export run reads a page of that queue, writes the file of each row and acknowledges the
version that it wrote. Attempts that a migration brought along are not queued. -/

namespace JobAgg.PolicyAuthority

/-- A row of `json_exports` -/
structure ExportRow where
  attemptId : String
  version : ℕ
  exportedVersion : ℕ
  event : SharedEvent
  changedAt : ℚ
deriving DecidableEq

def ExportRow.isPending (row : ExportRow) : Bool := decide (row.exportedVersion < row.version)

structure Tables where
  authority : Authority
  exports : List ExportRow

def queueExport (exports : List ExportRow) (event : SharedEvent) (changedAt : ℚ) :
    List ExportRow :=
  if exports.any fun row => row.attemptId == event.attemptId then
    updateWhere (fun row => row.attemptId == event.attemptId)
      (fun row => { row with
        version := row.version + 1
        event := event
        changedAt := if row.version = row.exportedVersion then changedAt else row.changedAt })
      exports
  else exports ++ [⟨event.attemptId, 1, 0, event, changedAt⟩]

namespace Tables

/-- `_insert` -/
def reserve (tables : Tables) (event : SharedEvent) (changedAt : ℚ) : Except String Tables := do
  let authority ← tables.authority.insert event
  if tables.authority.attempts.any fun row => row.attemptId == event.attemptId then
    return tables
  else return { authority, exports := queueExport tables.exports event changedAt }

/-- `finish`, with the stamp of the queue -/
def finish (tables : Tables) (attemptId status : String) (now changedAt : ℚ) :
    Except String Tables := do
  let authority ← tables.authority.finish attemptId status now
  match tables.authority.attempts.find? fun row => row.attemptId == attemptId with
  | none => return tables
  | some row =>
    if row.event.finishedAt.isSome then return tables
    else
      let event := { row.event with finishedAt := some now, status := status }
      return { authority, exports := queueExport tables.exports event changedAt }

/-- `UPDATE json_exports SET exported_version=? WHERE attempt_id=? AND version=?` -/
def acknowledge (tables : Tables) (taken : ExportRow) : Tables :=
  { tables with
    exports := updateWhere
      (fun row => row.attemptId == taken.attemptId && row.version == taken.version)
      (fun row => { row with exportedVersion := taken.version }) tables.exports }

end Tables

/-! ## Runs of an export -/

/-- A row whose file is written and is not acknowledged yet, and the rows after it -/
structure Page where
  written : Option ExportRow := none
  rest : List ExportRow

structure Delivery where
  tables : Tables
  /-- `authority_exports`: what the file of a name holds -/
  files : String → Option SharedEvent := fun _ => none
  /-- A head that is pending refuses every connection. -/
  headPending : Bool := false
  page : Option Page := none

/-- How far a transaction came: behind the pending head, behind the commit, or to its end -/
inductive Stage where
  | begun
  | committed
  | done
deriving DecidableEq

/-- A transaction between its two heads. One that raises leaves the head pending, one that does
not come to its end ends the process. -/
def Delivery.transact (delivery : Delivery) (outcome : Except String Tables) (stage : Stage) :
    Delivery :=
  match outcome, stage with
  | .error _, .done => { delivery with headPending := true }
  | .error _, _ => { delivery with headPending := true, page := none }
  | .ok _, .begun => { delivery with headPending := true, page := none }
  | .ok tables, .committed => { delivery with tables := tables, headPending := true, page := none }
  | .ok tables, .done => { delivery with tables := tables }

/-- The rows of a page whose texts fit together -/
def fitting (bytes : SharedEvent → ℕ) (maxBytes : ℕ) : ℕ → List ExportRow → List ExportRow
  | _, [] => []
  | size, row :: rows =>
    if maxBytes < size + bytes row.event then []
    else row :: fitting bytes maxBytes (size + bytes row.event) rows

/-- `WHERE version>exported_version ORDER BY changed_at,attempt_id LIMIT ?` -/
def Delivery.candidates (delivery : Delivery) (limit : ℕ) : List ExportRow :=
  (orderBy (fun row : ExportRow => toLex (row.changedAt, row.attemptId))
    (delivery.tables.exports.filter ExportRow.isPending)).take limit

/-- `json_export_status` -/
def Delivery.status (delivery : Delivery) : Except String (Option ExportRow) :=
  if delivery.headPending then .error "policy_authority_restore_or_pending_repair_required"
  else .ok (delivery.candidates 1).head?

inductive DeliveryEvent where
  | reserve (event : SharedEvent) (changedAt : ℚ) (stage : Stage)
  | finish (attemptId status : String) (now changedAt : ℚ) (stage : Stage)
  /-- The page of an export run -/
  | select (limit maxBytes : ℕ)
  /-- The file of the next row of a run -/
  | write
  | acknowledge (stage : Stage)
  /-- The end of a process, or a run that raises -/
  | crash

/-- What one call, or one part of an export run, does -/
def Delivery.perform (name : String → String) (bytes : SharedEvent → ℕ) (delivery : Delivery) :
    DeliveryEvent → Delivery
  | .reserve event changedAt stage =>
    if delivery.headPending then delivery
    else delivery.transact (delivery.tables.reserve event changedAt) stage
  | .finish attemptId status now changedAt stage =>
    if delivery.headPending then delivery
    else delivery.transact (delivery.tables.finish attemptId status now changedAt) stage
  | .select limit maxBytes =>
    if delivery.headPending || delivery.page.isSome then delivery
    else
      { delivery with
        page := some { rest := fitting bytes maxBytes 0 (delivery.candidates limit) } }
  | .write =>
    match delivery.page with
    | some ⟨none, row :: rest⟩ => { delivery with
        files := Function.update delivery.files (name row.attemptId) (some row.event)
        page := some ⟨some row, rest⟩ }
    | _ => delivery
  | .acknowledge stage =>
    match delivery.page with
    | some ⟨some row, rest⟩ =>
      if delivery.headPending then { delivery with page := none }
      else { delivery with page := some ⟨none, rest⟩ }.transact
        (.ok (delivery.tables.acknowledge row)) stage
    | _ => delivery
  | .crash => { delivery with page := none }

/-! ## Attempts and what is recorded of them -/

/-- The attempts with their `event_json` -/
def Authority.contents (authority : Authority) : List (String × SharedEvent) :=
  authority.attempts.map fun row => (row.attemptId, row.event)

variable {authority extended : Authority} {event : SharedEvent} {attemptId status : String}
  {now : ℚ}

theorem Authority.contents_insert (inserted : authority.insert event = .ok extended)
    (absent : ∀ row ∈ authority.attempts, row.attemptId ≠ event.attemptId) :
    extended.contents = authority.contents ++ [(event.attemptId, event)] := by
  have notFound : authority.attempts.find? (·.attemptId == event.attemptId) = none := by
    rw [List.find?_eq_none]
    intro row listed same
    exact absent row listed (beq_iff_eq.mp same)
  obtain ⟨summary, -, ⟨-, rfl⟩ | ⟨-, rfl⟩⟩ := Authority.insert_cases notFound inserted
  · exact List.map_append
  · exact List.map_append

theorem Authority.contents_finish {row : AttemptRow}
    (found : authority.attempts.find? (·.attemptId == attemptId) = some row)
    (identified : row.event.attemptId = row.attemptId) (unfinished : row.event.finishedAt = none)
    (recorded : authority.finish attemptId status now = .ok extended) :
    extended.contents = updateWhere (fun entry => entry.1 == attemptId)
      (fun entry => (entry.1, { row.event with finishedAt := some now, status := status }))
      authority.contents := by
  have rowId := List.find?_some found
  rw [beq_iff_eq] at rowId
  have finishedId : ({ row.event with finishedAt := some now, status := status } :
      SharedEvent).attemptId = attemptId := identified.trans rowId
  obtain ⟨-, cases⟩ := Authority.finish_cases found unfinished rfl finishedId recorded
  have finishes : (updateWhere (·.attemptId == attemptId)
      (AttemptRow.finishAt now { row.event with finishedAt := some now, status := status })
      authority.attempts).map (fun row => (row.attemptId, row.event)) =
      updateWhere (fun entry => entry.1 == attemptId)
        (fun entry => (entry.1, { row.event with finishedAt := some now, status := status }))
        authority.contents := by
    apply map_updateWhere
    · intro other _
      rfl
    · intro other _ _
      rfl
  rw [finishedId] at cases
  rcases cases with ⟨-, summary, -, rfl⟩ | ⟨-, rfl⟩
  · change (finishRows _ _ _ _ _).map _ = _
    rw [finishRows, finishedId]
    dsimp only
    split
    · exact finishes
    · refine (map_updateWhere_of_stable ?_).trans finishes
      intro other _ _
      rfl
  · exact finishes

/-! ## What a transaction records -/

variable {exports : List ExportRow} {row : ExportRow} {changedAt : ℚ}
  {tables next : Tables} {imported : List (String × SharedEvent)}

theorem mem_queueExport (listed : row ∈ queueExport exports event changedAt) :
    (row ∈ exports ∧ row.attemptId ≠ event.attemptId) ∨
      (row.attemptId = event.attemptId ∧ row.event = event ∧ (row.version = 1 ∧
        row.exportedVersion = 0 ∨ ∃ old ∈ exports, old.attemptId = event.attemptId ∧
          row.version = old.version + 1 ∧ row.exportedVersion = old.exportedVersion)) := by
  rw [queueExport] at listed
  split at listed
  case isTrue =>
    obtain ⟨old, member, same⟩ := mem_updateWhere.mp listed
    split at same
    case isTrue own =>
      rw [beq_iff_eq] at own
      subst same
      exact .inr ⟨own, rfl, .inr ⟨old, member, own, rfl, rfl⟩⟩
    case isFalse other =>
      rw [beq_iff_eq] at other
      subst same
      exact .inl ⟨member, other⟩
  case isFalse absent =>
    rcases List.mem_append.mp listed with old | new
    · refine .inl ⟨old, ?_⟩
      intro same
      exact absent (List.any_eq_true.mpr ⟨row, old, beq_iff_eq.mpr same⟩)
    · rw [List.mem_singleton.mp new]
      exact .inr ⟨rfl, rfl, .inl ⟨rfl, rfl⟩⟩

theorem exists_mem_queueExport (listed : row ∈ exports) :
    ∃ later ∈ queueExport exports event changedAt, later.attemptId = row.attemptId ∧
      later.exportedVersion = row.exportedVersion ∧
        (later = row ∨ row.version < later.version) := by
  rw [queueExport]
  split
  case isTrue =>
    refine ⟨_, mem_updateWhere.mpr ⟨row, listed, rfl⟩, ?_⟩
    split
    · exact ⟨rfl, rfl, .inr (Nat.lt_succ_self _)⟩
    · exact ⟨rfl, rfl, .inl rfl⟩
  case isFalse => exact ⟨row, List.mem_append_left _ listed, rfl, rfl, .inl rfl⟩

theorem exists_queued : ∃ row ∈ queueExport exports event changedAt,
    row.attemptId = event.attemptId := by
  rw [queueExport]
  split
  case isTrue present =>
    obtain ⟨row, listed, same⟩ := List.any_eq_true.mp present
    refine ⟨_, mem_updateWhere.mpr ⟨row, listed, rfl⟩, ?_⟩
    rw [if_pos same]
    exact beq_iff_eq.mp same
  case isFalse => exact ⟨_, List.mem_append_right _ (List.mem_singleton_self _), rfl⟩

theorem nodup_queueExport (distinct : (exports.map ExportRow.attemptId).Nodup) :
    ((queueExport exports event changedAt).map ExportRow.attemptId).Nodup := by
  rw [queueExport]
  split
  case isTrue =>
    have ids : (updateWhere (fun row => row.attemptId == event.attemptId)
        (fun row => { row with
          version := row.version + 1
          event := event
          changedAt := if row.version = row.exportedVersion then changedAt else row.changedAt })
        exports).map ExportRow.attemptId = exports.map ExportRow.attemptId :=
      map_updateWhere_of_stable fun _ _ _ => rfl
    rw [ids]
    exact distinct
  case isFalse absent =>
    rw [List.map_append, List.map_singleton, List.nodup_append_comm, List.singleton_append,
      List.nodup_cons]
    refine ⟨?_, distinct⟩
    intro listed
    obtain ⟨row, member, same⟩ := List.mem_map.mp listed
    exact absent (List.any_eq_true.mpr ⟨row, member, beq_iff_eq.mpr same⟩)

/-- The attempts and their queue, when some attempts were imported -/
structure Recorded (imported : List (String × SharedEvent)) (tables : Tables) : Prop where
  distinct : (tables.authority.contents.map Prod.fst).Nodup
  identified : ∀ entry ∈ tables.authority.contents, entry.2.attemptId = entry.1
  exportsDistinct : (tables.exports.map ExportRow.attemptId).Nodup
  current : ∀ row ∈ tables.exports, (row.attemptId, row.event) ∈ tables.authority.contents
  queued : ∀ entry ∈ tables.authority.contents,
    entry ∈ imported ∨ ∃ row ∈ tables.exports, row.attemptId = entry.1
  bounded : ∀ row ∈ tables.exports, row.exportedVersion ≤ row.version

/-- A transaction that records an event: the text of its attempt, and a version in the queue -/
structure Records (tables : Tables) (event : SharedEvent) (changedAt : ℚ) (next : Tables) :
    Prop where
  exports : next.exports = queueExport tables.exports event changedAt
  written : (event.attemptId, event) ∈ next.authority.contents
  others : ∀ entry ∈ tables.authority.contents, entry.1 ≠ event.attemptId →
    entry ∈ next.authority.contents
  origin : ∀ entry ∈ next.authority.contents, entry ∈ tables.authority.contents ∧
    entry.1 ≠ event.attemptId ∨ entry = (event.attemptId, event)
  distinct : (next.authority.contents.map Prod.fst).Nodup

theorem Recorded.records (recorded : Recorded imported tables)
    (records : Records tables event changedAt next) : Recorded imported next where
  distinct := records.distinct
  identified := by
    intro entry listed
    rcases records.origin entry listed with ⟨old, -⟩ | rfl
    · exact recorded.identified entry old
    · rfl
  exportsDistinct := by
    rw [records.exports]
    exact nodup_queueExport recorded.exportsDistinct
  current := by
    intro row listed
    rw [records.exports] at listed
    rcases mem_queueExport listed with ⟨old, other⟩ | ⟨id, same, -⟩
    · exact records.others _ (recorded.current row old) other
    · rw [id, same]
      exact records.written
  queued := by
    intro entry listed
    rw [records.exports]
    rcases records.origin entry listed with ⟨old, -⟩ | rfl
    · rcases recorded.queued entry old with member | ⟨row, inQueue, same⟩
      · exact .inl member
      · obtain ⟨later, inNext, id, -⟩ := exists_mem_queueExport inQueue
        exact .inr ⟨later, inNext, id.trans same⟩
    · exact .inr exists_queued
  bounded := by
    intro row listed
    rw [records.exports] at listed
    rcases mem_queueExport listed with ⟨old, -⟩ | ⟨-, -, ⟨-, none⟩ | ⟨old, member, -, more, same⟩⟩
    · exact recorded.bounded row old
    · omega
    · have before := recorded.bounded old member
      omega

theorem Recorded.of_reserve (recorded : Recorded imported tables)
    (reserved : tables.reserve event changedAt = .ok next) :
    next = tables ∨ Records tables event changedAt next := by
  rw [Tables.reserve, bind_eq_ok] at reserved
  obtain ⟨extended, inserted, reserved⟩ := reserved
  split at reserved
  case isTrue =>
    rw [pure_eq_ok] at reserved
    exact .inl reserved.symm
  case isFalse new =>
    rw [pure_eq_ok] at reserved
    subst reserved
    have absent : ∀ row ∈ tables.authority.attempts, row.attemptId ≠ event.attemptId := by
      intro row listed same
      exact new (List.any_eq_true.mpr ⟨row, listed, beq_iff_eq.mpr same⟩)
    have contents := Authority.contents_insert inserted absent
    have notListed : ∀ entry ∈ tables.authority.contents, entry.1 ≠ event.attemptId := by
      intro entry listed
      obtain ⟨row, member, rfl⟩ := List.mem_map.mp listed
      exact absent row member
    refine .inr ⟨rfl, ?_, ?_, ?_, ?_⟩
    · rw [contents]
      exact List.mem_append_right _ (List.mem_singleton_self _)
    · intro entry listed _
      rw [contents]
      exact List.mem_append_left _ listed
    · intro entry listed
      rw [contents] at listed
      rcases List.mem_append.mp listed with old | fresh
      · exact .inl ⟨old, notListed entry old⟩
      · exact .inr (List.mem_singleton.mp fresh)
    · rw [contents, List.map_append, List.map_singleton, List.nodup_append_comm,
        List.singleton_append, List.nodup_cons]
      refine ⟨?_, recorded.distinct⟩
      intro listed
      obtain ⟨entry, member, same⟩ := List.mem_map.mp listed
      exact notListed entry member same

theorem Recorded.of_finish (recorded : Recorded imported tables)
    (finished : tables.finish attemptId status now changedAt = .ok next) :
    next = tables ∨ ∃ event, event.attemptId = attemptId ∧ event.finishedAt.isSome = true ∧
      Records tables event changedAt next := by
  rw [Tables.finish, bind_eq_ok] at finished
  obtain ⟨extended, recordedFinish, finished⟩ := finished
  split at finished
  case h_1 =>
    rw [pure_eq_ok] at finished
    exact .inl finished.symm
  case h_2 row found =>
    split at finished
    case isTrue =>
      rw [pure_eq_ok] at finished
      exact .inl finished.symm
    case isFalse unfinished =>
      rw [pure_eq_ok] at finished
      subst finished
      have rowId := List.find?_some found
      rw [beq_iff_eq] at rowId
      have inAttempts := List.mem_of_find?_eq_some found
      have identified : row.event.attemptId = row.attemptId :=
        recorded.identified _ (List.mem_map.mpr ⟨row, inAttempts, rfl⟩)
      have none : row.event.finishedAt = none := Option.not_isSome_iff_eq_none.mp unfinished
      have contents := Authority.contents_finish found identified none recordedFinish
      have eventId := identified.trans rowId
      refine .inr ⟨{ row.event with finishedAt := some now, status := status }, eventId, rfl,
        rfl, ?_, ?_, ?_, ?_⟩
      · rw [contents]
        refine mem_updateWhere.mpr ⟨(row.attemptId, row.event),
          List.mem_map.mpr ⟨row, inAttempts, rfl⟩, ?_⟩
        rw [if_pos (beq_iff_eq.mpr rowId)]
        exact congrArg (·, _) identified.symm
      · intro entry listed other
        rw [contents]
        refine mem_updateWhere.mpr ⟨entry, listed, ?_⟩
        rw [if_neg]
        intro same
        exact other ((beq_iff_eq.mp same).trans eventId.symm)
      · intro entry listed
        rw [contents] at listed
        obtain ⟨old, member, same⟩ := mem_updateWhere.mp listed
        split at same
        case isTrue own =>
          subst same
          rw [beq_iff_eq] at own
          exact .inr (congrArg (·, _) (own.trans eventId.symm))
        case isFalse other =>
          subst same
          rw [beq_iff_eq] at other
          exact .inl ⟨member, fun same => other (same.trans eventId)⟩
      · rw [contents]
        have ids : ∀ entries : List (String × SharedEvent), (updateWhere
            (fun entry => entry.1 == attemptId) (fun entry => (entry.1,
              { row.event with finishedAt := some now, status := status })) entries).map
              Prod.fst = entries.map Prod.fst := fun entries =>
          map_updateWhere_of_stable fun _ _ _ => rfl
        rw [ids]
        exact recorded.distinct

/-! ## Deliveries -/

variable {name : String → String} {bytes : SharedEvent → ℕ} {taken : ExportRow}

/-- A row that a run has taken and not acknowledged: its version is not newer than that of the
queue, which is not exported yet. -/
def Taken (exports : List ExportRow) (taken : ExportRow) : Prop :=
  ∃ row ∈ exports, row.attemptId = taken.attemptId ∧ row.exportedVersion < row.version ∧
    taken.version ≤ row.version ∧ (taken.version = row.version → taken.event = row.event)

def Page.rows (page : Page) : List ExportRow := page.written.toList ++ page.rest

structure Delivering (name : String → String) (imported : List (String × SharedEvent))
    (delivery : Delivery) : Prop where
  recorded : Recorded imported delivery.tables
  delivered : ∀ row ∈ delivery.tables.exports, row.exportedVersion = row.version →
    delivery.files (name row.attemptId) = some row.event
  taken : ∀ page ∈ delivery.page, (page.rows.map ExportRow.attemptId).Nodup ∧
    ∀ row ∈ page.rows, Taken delivery.tables.exports row
  written : ∀ page ∈ delivery.page, ∀ row ∈ page.written,
    delivery.files (name row.attemptId) = some row.event

theorem Taken.queueExport (holds : Taken exports taken) :
    Taken (queueExport exports event changedAt) taken := by
  obtain ⟨row, listed, id, pending, older, same⟩ := holds
  obtain ⟨later, member, laterId, exported, rfl | newer⟩ := exists_mem_queueExport listed
  · exact ⟨later, member, id, pending, older, same⟩
  · refine ⟨later, member, laterId.trans id, by omega, by omega, ?_⟩
    intro equal
    omega

theorem Delivering.records {delivery : Delivery} (delivering : Delivering name imported delivery)
    (records : Records delivery.tables event changedAt next) :
    Delivering name imported { delivery with tables := next } where
  recorded := delivering.recorded.records records
  delivered := by
    intro row listed exported
    change row ∈ next.exports at listed
    rw [records.exports] at listed
    rcases mem_queueExport listed with ⟨old, -⟩ | ⟨-, -, ⟨version, none⟩ | ⟨old, member, -, more,
      same⟩⟩
    · exact delivering.delivered row old exported
    · omega
    · have before := delivering.recorded.bounded old member
      omega
  taken := by
    intro page listed
    obtain ⟨distinct, taken⟩ := delivering.taken page listed
    refine ⟨distinct, ?_⟩
    intro row member
    change Taken next.exports row
    rw [records.exports]
    exact (taken row member).queueExport
  written := delivering.written

theorem Delivering.without_page {delivery : Delivery} {headPending : Bool}
    (delivering : Delivering name imported delivery) :
    Delivering name imported { delivery with headPending := headPending, page := none } where
  recorded := delivering.recorded
  delivered := delivering.delivered
  taken := by
    intro page running
    cases running
  written := by
    intro page running
    cases running

theorem Delivering.with_head {delivery : Delivery} {headPending : Bool}
    (delivering : Delivering name imported delivery) :
    Delivering name imported { delivery with headPending := headPending } where
  recorded := delivering.recorded
  delivered := delivering.delivered
  taken := delivering.taken
  written := delivering.written

theorem Delivering.transact {delivery : Delivery} {outcome : Except String Tables} {stage : Stage}
    (delivering : Delivering name imported delivery)
    (keeps : ∀ next, outcome = .ok next →
      Delivering name imported { delivery with tables := next }) :
    Delivering name imported (delivery.transact outcome stage) := by
  cases outcome with
  | error reason =>
    cases stage with
    | begun => exact delivering.without_page
    | committed => exact delivering.without_page
    | done => exact delivering.with_head
  | ok next =>
    cases stage with
    | begun => exact delivering.without_page
    | committed => exact (keeps next rfl).without_page
    | done => exact keeps next rfl

theorem fitting_sublist {maxBytes size : ℕ} {rows : List ExportRow} :
    (fitting bytes maxBytes size rows).Sublist rows := by
  induction rows generalizing size with
  | nil => exact .slnil
  | cons row rows induction =>
    rw [fitting]
    split
    · exact List.nil_sublist _
    · exact induction.cons_cons row

theorem Delivering.select {delivery : Delivery} {limit maxBytes : ℕ}
    (delivering : Delivering name imported delivery) :
    Delivering name imported { delivery with
      page := some { rest := fitting bytes maxBytes 0 (delivery.candidates limit) } } where
  recorded := delivering.recorded
  delivered := delivering.delivered
  taken := by
    intro page listed
    cases listed
    have rows : (fitting bytes maxBytes 0 (delivery.candidates limit)).Subperm
        delivery.tables.exports :=
      (fitting_sublist.trans (List.take_sublist _ _)).subperm.trans
        (orderBy_perm.subperm.trans List.filter_sublist.subperm)
    constructor
    · obtain ⟨permuted, perm, sub⟩ := rows
      exact (perm.map _).nodup_iff.mp (delivering.recorded.exportsDistinct.sublist (sub.map _))
    · intro row member
      have inQueue := List.mem_of_mem_take (fitting_sublist.subset member)
      have pending := (List.mem_filter.mp (mem_orderBy.mp inQueue)).2
      rw [ExportRow.isPending, decide_eq_true_iff] at pending
      exact ⟨row, rows.subset member, rfl, pending, le_rfl, fun _ => rfl⟩
  written := by
    intro page listed row member
    cases listed
    cases member

theorem Delivering.write {delivery : Delivery} {row : ExportRow} {rest : List ExportRow}
    (injective : Function.Injective name) (delivering : Delivering name imported delivery)
    (running : delivery.page = some ⟨none, row :: rest⟩) :
    Delivering name imported { delivery with
      files := Function.update delivery.files (name row.attemptId) (some row.event)
      page := some ⟨some row, rest⟩ } where
  recorded := delivering.recorded
  delivered := by
    intro other listed exported
    have apart : other.attemptId ≠ row.attemptId := by
      intro same
      obtain ⟨queued, member, id, pending, -⟩ :=
        (delivering.taken _ running).2 row List.mem_cons_self
      have equal := List.inj_on_of_nodup_map delivering.recorded.exportsDistinct listed member
        (same.trans id.symm)
      rw [equal] at exported
      omega
    change Function.update _ _ _ _ = _
    rw [Function.update_of_ne (injective.ne apart)]
    exact delivering.delivered other listed exported
  taken := by
    intro page listed
    cases listed
    have before := delivering.taken _ running
    exact before
  written := by
    intro page listed other member
    cases listed
    cases member
    exact Function.update_self _ _ _

theorem Delivering.acknowledge {delivery : Delivery} {rest : List ExportRow}
    (delivering : Delivering name imported delivery)
    (running : delivery.page = some ⟨some taken, rest⟩) :
    Delivering name imported { delivery with
      page := some ⟨none, rest⟩
      tables := delivery.tables.acknowledge taken } := by
  have recorded := delivering.recorded
  obtain ⟨distinct, rows⟩ := delivering.taken _ running
  have written := delivering.written _ running taken rfl
  have ids : (delivery.tables.acknowledge taken).exports.map ExportRow.attemptId =
      delivery.tables.exports.map ExportRow.attemptId :=
    map_updateWhere_of_stable fun _ _ _ => rfl
  have cases : ∀ row ∈ (delivery.tables.acknowledge taken).exports,
      row ∈ delivery.tables.exports ∨ ∃ old ∈ delivery.tables.exports,
        old.attemptId = taken.attemptId ∧ old.version = taken.version ∧
          row = { old with exportedVersion := taken.version } := by
    intro row listed
    obtain ⟨old, member, same⟩ := mem_updateWhere.mp listed
    split at same
    case isTrue own =>
      rw [Bool.and_eq_true, beq_iff_eq, beq_iff_eq] at own
      exact .inr ⟨old, member, own.1, own.2, same.symm⟩
    case isFalse => exact .inl (same ▸ member)
  refine ⟨⟨recorded.distinct, recorded.identified, ids ▸ recorded.exportsDistinct, ?_, ?_, ?_⟩,
    ?_, ?_, ?_⟩
  · intro row listed
    rcases cases row listed with old | ⟨old, member, -, -, rfl⟩
    · exact recorded.current row old
    · exact recorded.current old member
  · intro entry listed
    rcases recorded.queued entry listed with old | ⟨row, member, same⟩
    · exact .inl old
    · have inIds := List.mem_map_of_mem (f := ExportRow.attemptId) member
      rw [← ids] at inIds
      obtain ⟨later, inNext, id⟩ := List.mem_map.mp inIds
      exact .inr ⟨later, inNext, id.trans same⟩
  · intro row listed
    rcases cases row listed with old | ⟨old, member, -, version, rfl⟩
    · exact recorded.bounded row old
    · exact version.ge
  · intro row listed exported
    rcases cases row listed with old | ⟨old, member, id, version, rfl⟩
    · exact delivering.delivered row old exported
    · obtain ⟨queued, inQueue, queuedId, -, -, same⟩ := rows taken List.mem_cons_self
      have equal := List.inj_on_of_nodup_map recorded.exportsDistinct inQueue member
        (queuedId.trans id.symm)
      subst equal
      change delivery.files (name queued.attemptId) = some queued.event
      rw [id, written, same version.symm]
  · intro page listed
    cases listed
    have split : (taken.attemptId :: rest.map ExportRow.attemptId).Nodup := distinct
    rw [List.nodup_cons] at split
    refine ⟨split.2, ?_⟩
    intro row member
    obtain ⟨queued, inQueue, id, pending, older, same⟩ := rows row (List.mem_cons_of_mem _ member)
    refine ⟨queued, mem_updateWhere.mpr ⟨queued, inQueue, if_neg ?_⟩, id, pending, older, same⟩
    intro own
    rw [Bool.and_eq_true, beq_iff_eq] at own
    exact split.1 (List.mem_map.mpr ⟨row, member, id.symm.trans own.1⟩)
  · intro page listed row member
    cases listed
    cases member

theorem Delivery.tables_transact {delivery : Delivery} {stage : Stage} :
    (delivery.transact (.ok next) stage).tables =
      if stage = .begun then delivery.tables else next := by
  cases stage with
  | begun => rfl
  | committed => rfl
  | done => rfl

theorem Delivering.perform {delivery : Delivery} (injective : Function.Injective name)
    (delivering : Delivering name imported delivery) (event : DeliveryEvent) :
    Delivering name imported (delivery.perform name bytes event) := by
  cases event with
  | reserve event changedAt stage =>
    rw [Delivery.perform]
    split
    case isTrue => exact delivering
    case isFalse =>
      refine delivering.transact fun next reserved => ?_
      rcases delivering.recorded.of_reserve reserved with rfl | records
      · exact delivering
      · exact delivering.records records
  | finish attemptId status now changedAt stage =>
    rw [Delivery.perform]
    split
    case isTrue => exact delivering
    case isFalse =>
      refine delivering.transact fun next finished => ?_
      rcases delivering.recorded.of_finish finished with rfl | ⟨event, -, -, records⟩
      · exact delivering
      · exact delivering.records records
  | select limit maxBytes =>
    rw [Delivery.perform]
    split
    case isTrue => exact delivering
    case isFalse => exact delivering.select
  | write =>
    rw [Delivery.perform]
    split
    case h_1 row rest running => exact delivering.write injective running
    case h_2 => exact delivering
  | acknowledge stage =>
    rw [Delivery.perform]
    split
    case h_1 taken rest running =>
      split
      case isTrue => exact @Delivering.without_page _ _ _ delivery.headPending delivering
      case isFalse =>
        have acknowledged := delivering.acknowledge running
        cases stage with
        | begun => exact delivering.without_page
        | committed => exact acknowledged.without_page
        | done => exact acknowledged
    case h_2 => exact delivering
  | crash => exact @Delivering.without_page _ _ _ delivery.headPending delivering

/-- Calls one after the other, and the parts of export runs between them -/
def Delivers (name : String → String) (bytes : SharedEvent → ℕ) (delivery : Delivery)
    (event : DeliveryEvent) (later : Delivery) : Prop :=
  later = delivery.perform name bytes event

/-- An authority after its migration: attempts that were imported, and an empty queue -/
structure Migrated (delivery : Delivery) : Prop where
  distinct : (delivery.tables.authority.contents.map Prod.fst).Nodup
  identified : ∀ entry ∈ delivery.tables.authority.contents, entry.2.attemptId = entry.1
  unqueued : delivery.tables.exports = []
  idle : delivery.page = none

theorem Delivering.migrated {delivery : Delivery} (migrated : Migrated delivery) :
    Delivering name delivery.tables.authority.contents delivery := by
  refine ⟨⟨migrated.distinct, migrated.identified, ?_, ?_, fun entry listed => .inl listed, ?_⟩,
    ?_, ?_, ?_⟩
  · rw [migrated.unqueued]
    exact List.nodup_nil
  · rw [migrated.unqueued]
    intro row listed
    cases listed
  · rw [migrated.unqueued]
    intro row listed
    cases listed
  · rw [migrated.unqueued]
    intro row listed
    cases listed
  · rw [migrated.idle]
    intro page running
    cases running
  · rw [migrated.idle]
    intro page running
    cases running

theorem Delivering.of_run {start final : Delivery} {events : List DeliveryEvent}
    (injective : Function.Injective name) (migrated : Migrated start)
    (run : Run (Delivers name bytes) start events final) :
    Delivering name start.tables.authority.contents final := by
  apply run.invariant (Delivering name start.tables.authority.contents) _ (.migrated migrated)
  rintro delivery event _ rfl delivering
  exact delivering.perform injective event

theorem Delivery.exported_of_status {delivery : Delivery} (idle : delivery.status = .ok none)
    (listed : row ∈ delivery.tables.exports) : row.version ≤ row.exportedVersion := by
  rw [status] at idle
  split at idle
  case isTrue => cases idle
  case isFalse =>
    rw [Except.ok.injEq, List.head?_eq_none_iff, candidates, List.take_eq_nil_iff,
      or_iff_right Nat.one_ne_zero] at idle
    by_contra pending
    have isPending : row.isPending = true := decide_eq_true (Nat.not_le.mp pending)
    have waiting : row ∈ orderBy (fun row : ExportRow => toLex (row.changedAt, row.attemptId))
        (delivery.tables.exports.filter ExportRow.isPending) :=
      mem_orderBy.mpr (List.mem_filter.mpr ⟨listed, isPending⟩)
    rw [idle] at waiting
    cases waiting

/-- In every run from a migrated authority, when nothing is pending the file of every attempt
that a reservation or a finish wrote holds its current event. An acknowledgement of a file that
was written before its attempt changed leaves the attempt pending. -/
theorem export_delivery (name : String → String) (injective : Function.Injective name)
    (bytes : SharedEvent → ℕ) (start final : Delivery) (migrated : Migrated start)
    (events : List DeliveryEvent) (run : Run (Delivers name bytes) start events final) :
    (final.status = .ok none → ∀ entry ∈ final.tables.authority.contents,
      entry ∈ start.tables.authority.contents ∨ final.files (name entry.1) = some entry.2) ∧
    ∀ taken rest, final.page = some ⟨some taken, rest⟩ →
      ∀ event, (taken.attemptId, event) ∈ final.tables.authority.contents → event ≠ taken.event →
      ∀ stage, ∃ row ∈ (final.perform name bytes (.acknowledge stage)).tables.exports,
        row.attemptId = taken.attemptId ∧ row.exportedVersion < row.version := by
  have delivering := Delivering.of_run injective migrated run
  have recorded := delivering.recorded
  constructor
  · intro idle entry listed
    rcases recorded.queued entry listed with old | ⟨row, member, id⟩
    · exact .inl old
    · have exported := Delivery.exported_of_status idle member
      have held := delivering.delivered row member
        (le_antisymm (recorded.bounded row member) exported)
      have equal := List.inj_on_of_nodup_map recorded.distinct (recorded.current row member) listed
        id
      rw [← equal]
      exact .inr held
  · intro taken rest running event listed changed stage
    obtain ⟨row, member, id, pending, older, same⟩ :=
      (delivering.taken _ running).2 taken List.mem_cons_self
    have newer : row.version ≠ taken.version := by
      intro equal
      have current := recorded.current row member
      have entry := List.inj_on_of_nodup_map recorded.distinct current listed id
      rw [Prod.mk.injEq] at entry
      exact changed (entry.2.symm.trans (same equal.symm).symm)
    have kept : row ∈ (final.tables.acknowledge taken).exports := by
      refine mem_updateWhere.mpr ⟨row, member, if_neg ?_⟩
      rw [Bool.and_eq_true, beq_iff_eq, beq_iff_eq]
      exact fun own => newer own.2
    refine ⟨row, ?_, id, pending⟩
    rw [Delivery.perform, running]
    dsimp only
    split
    case isTrue => exact member
    case isFalse =>
      rw [Delivery.tables_transact]
      split
      · exact member
      · exact kept

/-! ## A listing that was imported, and one that was reserved -/

def listingEvent (attemptId : String) : SharedEvent where
  attemptId := attemptId
  sourceId := "example"
  kind := .listing
  startedAt := 1
  workspace := "/srv"
  taskId := "task"

def importedDelivery : Delivery where
  tables :=
    { authority :=
        { sources := fun _ => some ⟨0, 0⟩
          attempts := [plainRow (listingEvent "legacy")] }
      exports := [] }

theorem migrated_imported : Migrated importedDelivery := by
  refine ⟨List.nodup_singleton _, ?_, rfl, rfl⟩
  intro entry listed
  rw [List.mem_singleton.mp listed]
  rfl

/-- Nothing is pending, and an imported attempt has no file. -/
theorem export_imported : Migrated importedDelivery ∧
    Run (Delivers id fun _ => 1) importedDelivery [] importedDelivery ∧
    importedDelivery.status = .ok none ∧
    ∃ entry ∈ importedDelivery.tables.authority.contents,
      importedDelivery.files (id entry.1) ≠ some entry.2 := by
  refine ⟨migrated_imported, .nil _, ?_, ("legacy", listingEvent "legacy"),
    List.mem_singleton_self _, ?_⟩
  · simp [Delivery.status, Delivery.candidates, orderBy, importedDelivery]
  · intro held
    cases held

def deliveryCalls : List DeliveryEvent :=
  [.reserve (listingEvent "fresh") 1 .done, .select 5 100, .write, .acknowledge .done]

theorem deliver_fresh : ∃ final,
    Run (Delivers id fun _ => 1) importedDelivery deliveryCalls final ∧
      final.status = .ok none ∧ final.files "fresh" = some (listingEvent "fresh") := by
  refine ⟨_, .cons rfl (.cons rfl (.cons rfl (.cons rfl (.nil _)))), ?_, ?_⟩
  · simp [Delivery.perform, importedDelivery, Delivery.transact, Tables.reserve, Authority.insert,
      listingEvent, plainRow, queueExport, fitting, Delivery.candidates, orderBy,
      ExportRow.isPending, Tables.acknowledge, Delivery.status]
  · simp [Delivery.perform, importedDelivery, Delivery.transact, Tables.reserve, Authority.insert,
      listingEvent, plainRow, queueExport, fitting, Delivery.candidates, orderBy,
      ExportRow.isPending]

/-- The same for the theorem on all runs: what was imported is unchanged, and the file of what was
reserved holds it. -/
theorem export_delivery_fresh : ∃ final,
    Run (Delivers id fun _ => 1) importedDelivery deliveryCalls final ∧
      final.status = .ok none ∧ ∀ entry ∈ final.tables.authority.contents,
        entry ∈ importedDelivery.tables.authority.contents ∨
          final.files (id entry.1) = some entry.2 := by
  obtain ⟨final, run, idle, -⟩ := deliver_fresh
  exact ⟨final, run, idle, (export_delivery id Function.injective_id (fun _ => 1)
    importedDelivery final migrated_imported deliveryCalls run).1 idle⟩

end JobAgg.PolicyAuthority
