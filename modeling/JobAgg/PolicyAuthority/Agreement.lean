import Mathlib.Tactic.Linarith
import JobAgg.Foundation.Run
import JobAgg.PolicyAuthority.Projection

/-! # Agreement of native and legacy accounting

One deployment runs the native authority and the legacy files side by side on
the same calls. The attempt rows of every source stay the projection of its
shared events, the owner batch stays the sorted events, and a cached due time is
one that the events still give; hence both sides answer alike.
-/

namespace JobAgg.PolicyAuthority

structure Deployment where
  authority : Authority
  worker : Worker := {}
  clock : ℚ := 0

inductive Call
  | reserve (now : ℚ) (attemptId sourceId : String) (kind : Kind) (startedAt : ℚ)
      (workspace taskId : String)
  | finish (now : ℚ) (attemptId status : String)
  | policyDue (now : ℚ) (sourceId : String) (kind : Kind)
  | beginBatch (now : ℚ)
  | finishBatch (now : ℚ)

/-- An authority migrated before the first attempt, with the pauses of the
pacing policy. -/
def Authority.migrated (scope : String → Bool) (pacing : String → Pacing) : Authority where
  sources sourceId :=
    if scope sourceId then some { n := 0, pause := (pacing sourceId).pause } else none

/-- Attempts are reserved once, at stamps that increase within a source and lie
in the past of the call, and finished once. -/
inductive Step (pacing : String → Pacing) : Deployment → Call → Deployment → Prop
  | reserve {deployment : Deployment} {now startedAt : ℚ} {attemptId sourceId : String}
      {kind : Kind} {workspace taskId : String} {authority : Authority}
      {policy : SharedPolicy} (later : deployment.clock ≤ now)
      (stamped : 0 ≤ startedAt ∧ startedAt ≤ now)
      (increasing : ∀ event ∈ deployment.worker.sharedPolicy.files,
        event.isDetailOf sourceId → event.startedAt < startedAt)
      (native : deployment.authority.reserve attemptId sourceId kind startedAt workspace taskId =
        .ok authority)
      (legacy : deployment.worker.sharedPolicy.reserve attemptId sourceId kind startedAt
        workspace taskId = .ok policy) :
      Step pacing deployment
        (.reserve now attemptId sourceId kind startedAt workspace taskId)
        { authority := authority
          worker := { deployment.worker with sharedPolicy := policy }
          clock := now }
  | finish {deployment : Deployment} {now : ℚ} {attemptId status : String}
      {authority : Authority} {policy : SharedPolicy} (later : deployment.clock ≤ now)
      (unfinished : ∀ event ∈ deployment.worker.sharedPolicy.files,
        event.attemptId = attemptId → event.finishedAt = none)
      (native : deployment.authority.finish attemptId status now = .ok authority)
      (legacy : deployment.worker.sharedPolicy.finish attemptId status now = .ok policy) :
      Step pacing deployment (.finish now attemptId status)
        { authority := authority
          worker := { deployment.worker with sharedPolicy := policy }
          clock := now }
  | policyDue {deployment : Deployment} {now : ℚ} {sourceId : String} {kind : Kind}
      (later : deployment.clock ≤ now) :
      Step pacing deployment (.policyDue now sourceId kind)
        { deployment with
          worker := (deployment.worker.policyDue pacing sourceId kind now).2
          clock := now }
  | beginBatch {deployment : Deployment} {now : ℚ} (later : deployment.clock ≤ now) :
      Step pacing deployment (.beginBatch now)
        { deployment with worker := deployment.worker.beginBatch, clock := now }
  | finishBatch {deployment : Deployment} {now : ℚ} (later : deployment.clock ≤ now) :
      Step pacing deployment (.finishBatch now)
        { deployment with
          worker := { deployment.worker with
            sharedPolicy := deployment.worker.sharedPolicy.finishBatch }
          clock := now }

def detailEvents (files : List SharedEvent) (sourceId : String) : List SharedEvent :=
  files.filter (SharedEvent.isDetailOf sourceId)

theorem detailEvents_updateWhere {files : List SharedEvent} {event finished : SharedEvent}
    {sourceId : String} (distinct : (files.map SharedEvent.attemptId).Nodup)
    (member : event ∈ files) (sameSource : finished.sourceId = event.sourceId)
    (sameKind : finished.kind = event.kind) :
    detailEvents (updateWhere (·.attemptId == event.attemptId) (fun _ => finished) files) sourceId =
      updateWhere (·.attemptId == event.attemptId) (fun _ => finished)
        (detailEvents files sourceId) := by
  apply filter_updateWhere
  intro other otherMember selected
  have same : other = event := eq_of_key_eq distinct otherMember member (by simpa using selected)
  rw [same, SharedEvent.isDetailOf, SharedEvent.isDetailOf, sameSource, sameKind]

def AttemptRow.Identified (row : AttemptRow) : Prop :=
  row.attemptId = row.event.attemptId ∧ row.sourceId = row.event.sourceId ∧
    row.kind = row.event.kind ∧ row.startedAt = row.event.startedAt

structure Projected (scope : String → Bool) (pacing : String → Pacing)
    (authority : Authority) (files : List SharedEvent) (clock : ℚ) : Prop where
  sources : ∀ sourceId, authority.sources sourceId =
    if scope sourceId then
      some { n := (detailEvents files sourceId).length, pause := (pacing sourceId).pause }
    else none
  events : authority.attempts.map AttemptRow.event = files
  identified : ∀ row ∈ authority.attempts, row.Identified
  allInScope : ∀ event ∈ files, scope event.sourceId = true
  distinct : (files.map SharedEvent.attemptId).Nodup
  projected : ∀ sourceId, authority.details sourceId =
    projectFrom (pacing sourceId).pause none 1 (detailEvents files sourceId)
  increasing : ∀ sourceId, (detailEvents files sourceId).Pairwise
    fun left right => left.startedAt < right.startedAt
  stamped : ∀ event ∈ files, 0 ≤ event.startedAt ∧ event.startedAt ≤ clock ∧
    event.eligibilityAccountingUntil = none

def CacheFresh (pacing : Pacing) (sourceId : String) (events : List SharedEvent) (clock due : ℚ) :
    Prop :=
  events ≠ [] ∧ ∀ now, clock ≤ now → max now due = max now (eventsDue pacing sourceId events now)

/-- The batch holds the events of the files, and the cache answers from them. -/
structure Batched (pacing : String → Pacing) (worker : Worker) (clock : ℚ) : Prop where
  events : ∀ batch ∈ worker.sharedPolicy.batch, ∀ sourceId,
    batch.events sourceId = detailEvents worker.sharedPolicy.files sourceId
  cached : ∀ batch ∈ worker.sharedPolicy.batch, ∀ sourceId revision due,
    worker.policyDueCache sourceId = some (revision, due) →
      revision ≤ batch.revisions sourceId ∧
      (revision = batch.revisions sourceId →
        CacheFresh (pacing sourceId) sourceId
          (detailEvents worker.sharedPolicy.files sourceId) clock due)

variable {scope : String → Bool} {pacing : String → Pacing} {deployment next : Deployment}
  {call : Call} {now : ℚ} {sourceId : String}

theorem eventsDue_eq {events : List SharedEvent} {pace : Pacing} :
    eventsDue pace sourceId events now =
      ((if sourceId = "unicef_pageup" then
          (orderByDesc id (events.map SharedEvent.accountedEnd))[9]?
        else none).filter fun finish => decide (now - 3600 < finish)).elim (pacedDue pace events)
        fun finish => max (pacedDue pace events) (finish + 3600) := by
  by_cases unicef : sourceId = "unicef_pageup"
  · have window := @tenth_eq
      ((events.map SharedEvent.accountedEnd).filter fun finish => decide (now - 3600 < finish))
    have descending : (orderByDesc id (events.map SharedEvent.accountedEnd)).Pairwise
        fun left right => right ≤ left := orderByDesc_ordered
    have selected : orderByDesc id ((events.map SharedEvent.accountedEnd).filter
        fun finish => decide (now - 3600 < finish)) =
          (orderByDesc id (events.map SharedEvent.accountedEnd)).filter
            fun finish => decide (now - 3600 < finish) :=
      orderByDesc_filter fun _ _ _ _ => id
    rw [selected, getElem?_filter_of_descending descending] at window
    rw [if_pos unicef, window, eventsDue, if_pos unicef]
    dsimp only
    generalize orderBy id ((events.map SharedEvent.accountedEnd).filter
      fun finish => decide (now - 3600 < finish)) = active
    by_cases enough : 10 ≤ active.length
    · simp only [if_pos enough, Option.elim_some]
    · simp only [if_neg enough, Option.elim_none]
  · simp [eventsDue, unicef]

/-- A due time computed at `now` stays right afterwards: an end that leaves the
hourly window has no bearing on later times. -/
theorem cacheFresh_eventsDue {events : List SharedEvent} {pace : Pacing}
    (nonempty : events ≠ []) :
    CacheFresh pace sourceId events now (eventsDue pace sourceId events now) := by
  refine ⟨nonempty, fun later order => ?_⟩
  rw [eventsDue_eq, eventsDue_eq]
  generalize (if sourceId = "unicef_pageup" then
    (orderByDesc id (events.map SharedEvent.accountedEnd))[9]? else none) = tenth
  cases tenth with
  | none => rfl
  | some finish =>
    by_cases stillActive : later - 3600 < finish
    · have active : now - 3600 < finish := (sub_le_sub_right order 3600).trans_lt stillActive
      simp [stillActive, active, Option.filter]
    · have past : finish + 3600 ≤ later := by linarith
      by_cases active : now - 3600 < finish
      · simp only [active, stillActive, Option.filter, decide_true, decide_false, if_true,
          Bool.false_eq_true, if_false, Option.elim_some, Option.elim_none]
        rw [max_comm (pacedDue pace events), ← max_assoc, max_eq_left past]
      · simp [stillActive, active, Option.filter]

namespace Projected

variable {authority extended : Authority} {files : List SharedEvent} {clock : ℚ}
  {event : SharedEvent}

theorem initial : Projected scope pacing (.migrated scope pacing) [] 0 where
  sources _ := rfl
  events := rfl
  identified := by simp [Authority.migrated]
  allInScope := by simp
  distinct := by simp
  projected _ := rfl
  increasing _ := by simp [detailEvents]
  stamped := by simp

theorem advance (projected : Projected scope pacing authority files clock)
    (later : clock ≤ now) : Projected scope pacing authority files now :=
  { projected with
    stamped := fun event member =>
      have stamps := projected.stamped event member
      ⟨stamps.1, stamps.2.1.trans later, stamps.2.2⟩ }

theorem attemptIds (projected : Projected scope pacing authority files clock) :
    authority.attempts.map AttemptRow.attemptId = files.map SharedEvent.attemptId := by
  rw [← projected.events, List.map_map]
  apply List.map_congr_left
  intro row member
  exact (projected.identified row member).1

theorem attemptsDistinct (projected : Projected scope pacing authority files clock) :
    (authority.attempts.map AttemptRow.attemptId).Nodup := by
  rw [projected.attemptIds]
  exact projected.distinct

theorem not_found (projected : Projected scope pacing authority files clock)
    (fresh : event.attemptId ∉ files.map SharedEvent.attemptId) :
    authority.attempts.find? (·.attemptId == event.attemptId) = none := by
  apply List.find?_eq_none.mpr
  intro row member
  simp only [beq_iff_eq]
  intro equal
  rw [← projected.attemptIds] at fresh
  exact fresh (equal ▸ List.mem_map_of_mem member)

theorem insert (projected : Projected scope pacing authority files clock)
    (later : clock ≤ now) (unended : event.eligibilityAccountingUntil = none)
    (stamped : 0 ≤ event.startedAt ∧ event.startedAt ≤ now)
    (fresh : event.attemptId ∉ files.map SharedEvent.attemptId)
    (increasing : ∀ other ∈ files, other.isDetailOf event.sourceId →
      other.startedAt < event.startedAt)
    (inserted : authority.insert event = .ok extended) :
    Projected scope pacing extended (files ++ [event]) now := by
  have absent := projected.not_found fresh
  have distinct : ((files ++ [event]).map SharedEvent.attemptId).Nodup := by
    simpa [List.nodup_append, projected.distinct] using fresh
  have stampedAll : ∀ other ∈ files ++ [event], 0 ≤ other.startedAt ∧ other.startedAt ≤ now ∧
      other.eligibilityAccountingUntil = none := by
    intro other member
    rcases List.mem_append.mp member with old | new
    · exact (projected.advance later).stamped other old
    · rw [List.mem_singleton.mp new]
      exact ⟨stamped.1, stamped.2, unended⟩
  have extendsIncreasing : ∀ sourceId, (detailEvents (files ++ [event]) sourceId).Pairwise
      fun left right => left.startedAt < right.startedAt := by
    intro sourceId
    rw [detailEvents, List.filter_append, List.pairwise_append]
    refine ⟨projected.increasing sourceId, (List.pairwise_singleton _ _).sublist
      List.filter_sublist, ?_⟩
    intro left leftMember right rightMember
    rcases List.mem_filter.mp leftMember with ⟨leftFile, leftDetail⟩
    rcases List.mem_filter.mp rightMember with ⟨rightNew, rightDetail⟩
    rw [List.mem_singleton.mp rightNew] at rightDetail ⊢
    simp only [SharedEvent.isDetailOf, Bool.and_eq_true, beq_iff_eq] at leftDetail rightDetail
    apply increasing left leftFile
    simp [SharedEvent.isDetailOf, leftDetail, rightDetail.2]
  rcases Authority.insert_cases absent inserted with ⟨summary, present, branches⟩
  have known := projected.sources event.sourceId
  have inScope : scope event.sourceId = true := by
    by_contra outside
    simp [present, outside] at known
  have allInScope : ∀ other ∈ files ++ [event], scope other.sourceId = true := by
    intro other member
    rcases List.mem_append.mp member with old | new
    · exact projected.allInScope other old
    · rw [List.mem_singleton.mp new]
      exact inScope
  rcases branches with detail | plain
  · rcases detail with ⟨isDetail, rfl⟩
    simp only [present, inScope, if_true, Option.some.injEq] at known
    have ofSource : ∀ sourceId, event.isDetailOf sourceId = decide (sourceId = event.sourceId) := by
      intro sourceId
      rw [SharedEvent.isDetailOf, isDetail, decide_eq_decide.mpr eq_comm]
      rfl
    have rowOfSource : ∀ sourceId pause previous sequence,
        (projectRow pause previous sequence event).isDetailOf sourceId =
          decide (sourceId = event.sourceId) :=
      fun sourceId _ _ _ => ofSource sourceId
    refine ⟨?_, ?_, ?_, allInScope, distinct, ?_, extendsIncreasing, stampedAll⟩
    · intro sourceId
      by_cases same : sourceId = event.sourceId
      · subst same
        simp [detailEvents, ofSource, known, inScope]
      · simp [detailEvents, ofSource, same, projected.sources sourceId]
    · simp [projected.events, projectRow]
    · intro row member
      rcases List.mem_append.mp member with old | new
      · exact projected.identified row old
      · rw [List.mem_singleton.mp new]
        exact ⟨rfl, rfl, rfl, rfl⟩
    · intro sourceId
      rw [Authority.details, detailEvents, List.filter_append, List.filter_append]
      by_cases same : sourceId = event.sourceId
      · subst same
        simp only [List.filter_cons, List.filter_nil, ofSource, rowOfSource, decide_true, if_true]
        rw [projectFrom_append, ← Authority.details, ← detailEvents, projected.projected]
        rw [newest_projectFrom, getLast?_effectiveEnd_projectFrom, ← endAfter_none, known]
        simp [projectFrom, Nat.add_comm]
      · simp only [List.filter_cons, List.filter_nil, ofSource, rowOfSource, same,
          decide_false, Bool.false_eq_true, if_false, List.append_nil]
        exact projected.projected sourceId
  · rcases plain with ⟨notDetail, rfl⟩
    have notOf : ∀ sourceId, event.isDetailOf sourceId = false := by
      simp [SharedEvent.isDetailOf, notDetail]
    have rowNotOf : ∀ sourceId, (plainRow event).isDetailOf sourceId = false := notOf
    refine ⟨?_, ?_, ?_, allInScope, distinct, ?_, extendsIncreasing, stampedAll⟩
    · intro sourceId
      simpa [detailEvents, notOf] using projected.sources sourceId
    · simp [projected.events, plainRow]
    · intro row member
      rcases List.mem_append.mp member with old | new
      · exact projected.identified row old
      · rw [List.mem_singleton.mp new]
        exact ⟨rfl, rfl, rfl, rfl⟩
    · intro sourceId
      simpa [Authority.details, detailEvents, notOf, rowNotOf] using projected.projected sourceId

theorem find_row (projected : Projected scope pacing authority files clock)
    (member : event ∈ files) :
    ∃ row ∈ authority.attempts, row.event = event ∧ row.attemptId = event.attemptId ∧
      authority.attempts.find? (·.attemptId == event.attemptId) = some row := by
  rw [← projected.events] at member
  rcases List.mem_map.mp member with ⟨row, rowMember, rfl⟩
  have sameId := (projected.identified row rowMember).1
  refine ⟨row, rowMember, rfl, sameId, ?_⟩
  rw [← sameId]
  exact find?_key_of_mem projected.attemptsDistinct rowMember

theorem row_unique (projected : Projected scope pacing authority files clock)
    {left right : AttemptRow} (leftMember : left ∈ authority.attempts)
    (rightMember : right ∈ authority.attempts) (equal : left.attemptId = right.attemptId) :
    left = right :=
  eq_of_key_eq projected.attemptsDistinct leftMember rightMember equal

end Projected

theorem accountedEnd_finish {event : SharedEvent} {status : String}
    (unended : event.eligibilityAccountingUntil = none) (started : 0 ≤ event.startedAt)
    (later : event.startedAt ≤ now) :
    ({ event with finishedAt := some now, status := status } : SharedEvent).accountedEnd =
      now := by
  by_cases zero : now = 0
  · have startZero : event.startedAt = 0 := le_antisymm (zero ▸ later) started
    simp [SharedEvent.accountedEnd, zero, unended, startZero, Option.filter]
  · simp [SharedEvent.accountedEnd, zero, Option.filter]

namespace Projected

variable {authority extended : Authority} {files : List SharedEvent} {clock : ℚ}
  {event : SharedEvent}

theorem filter_finishRows_same {finished : SharedEvent} {pause : ℚ} {sequence : Option ℕ}
    {rows : List AttemptRow} :
    (finishRows pause finished now
        (fun other => other.isDetailOf sourceId && other.sequence == sequence) rows).filter
        (AttemptRow.isDetailOf sourceId) =
      finishRows pause finished now (fun other => other.sequence == sequence)
        (rows.filter (AttemptRow.isDetailOf sourceId)) := by
  have first : ∀ {rows : List AttemptRow}, (updateWhere (·.attemptId == finished.attemptId)
      (AttemptRow.finishAt now finished) rows).filter (AttemptRow.isDetailOf sourceId) =
        updateWhere (·.attemptId == finished.attemptId) (AttemptRow.finishAt now finished)
          (rows.filter (AttemptRow.isDetailOf sourceId)) :=
    filter_updateWhere fun _ _ _ => rfl
  have search : ∀ {rows : List AttemptRow},
      (rows.filter (AttemptRow.isDetailOf sourceId)).find? (fun other => other.sequence == sequence) =
        rows.find? fun other => other.isDetailOf sourceId && other.sequence == sequence := by
    intro rows
    rw [List.find?_filter]
    congr 1
    funext other
    exact Bool.eq_iff_iff.mpr (by simp)
  simp only [finishRows, ← first, search]
  cases (updateWhere (·.attemptId == finished.attemptId) (AttemptRow.finishAt now finished)
      rows).find? fun other => other.isDetailOf sourceId && other.sequence == sequence with
  | none => rfl
  | some following => exact filter_updateWhere fun _ _ _ => rfl

theorem filter_finishRows_other {finished : SharedEvent} {pause : ℚ} {other : String}
    {follows : AttemptRow → Bool} {rows : List AttemptRow}
    (distinct : (rows.map AttemptRow.attemptId).Nodup) (different : other ≠ sourceId)
    (owned : ∀ row ∈ rows, row.attemptId = finished.attemptId → row.sourceId = sourceId)
    (follower : ∀ row, follows row = true → row.sourceId = sourceId) :
    (finishRows pause finished now follows rows).filter (AttemptRow.isDetailOf other) =
      rows.filter (AttemptRow.isDetailOf other) := by
  have notOther : ∀ row : AttemptRow, row.sourceId = sourceId → row.isDetailOf other = false := by
    intro row source
    simp [AttemptRow.isDetailOf, source, different.symm]
  have first : (updateWhere (·.attemptId == finished.attemptId)
      (AttemptRow.finishAt now finished) rows).filter (AttemptRow.isDetailOf other) =
        rows.filter (AttemptRow.isDetailOf other) := by
    apply filter_updateWhere_of_forall_not
    intro row member selected
    have source := owned row member (by simpa using selected)
    exact ⟨notOther row source, notOther _ source⟩
  have keptIds : (updateWhere (·.attemptId == finished.attemptId)
      (AttemptRow.finishAt now finished) rows).map AttemptRow.attemptId =
        rows.map AttemptRow.attemptId :=
    map_updateWhere_of_stable fun _ _ _ => rfl
  rw [finishRows]
  cases followed : (updateWhere (·.attemptId == finished.attemptId)
      (AttemptRow.finishAt now finished) rows).find? follows with
  | none => exact first
  | some following =>
    refine Eq.trans ?_ first
    apply filter_updateWhere_of_forall_not
    intro row member selected
    have same : row = following := eq_of_key_eq (keptIds ▸ distinct) member
      (List.mem_of_find?_eq_some followed) (by simpa using selected)
    have source := follower row (same ▸ List.find?_some followed)
    exact ⟨notOther row source, notOther _ source⟩

theorem identified_finishAt {finished : SharedEvent} {rows : List AttemptRow}
    (identified : ∀ row ∈ rows, row.Identified)
    (owned : ∀ row ∈ rows, row.attemptId = finished.attemptId →
      row.sourceId = finished.sourceId ∧ row.kind = finished.kind ∧
        row.startedAt = finished.startedAt) :
    ∀ row ∈ updateWhere (·.attemptId == finished.attemptId)
      (AttemptRow.finishAt now finished) rows, row.Identified := by
  intro row member
  rcases mem_updateWhere.mp member with ⟨old, oldMember, rfl⟩
  by_cases selected : old.attemptId = finished.attemptId
  · simp only [selected, beq_self_eq_true, if_true]
    exact ⟨selected, owned old oldMember selected⟩
  · simpa [selected] using identified old oldMember

theorem identified_finishRows {finished : SharedEvent} {pause : ℚ}
    {follows : AttemptRow → Bool} {rows : List AttemptRow}
    (identified : ∀ row ∈ updateWhere (·.attemptId == finished.attemptId)
      (AttemptRow.finishAt now finished) rows, row.Identified) :
    ∀ row ∈ finishRows pause finished now follows rows, row.Identified := by
  intro row member
  rw [finishRows] at member
  split at member
  · exact identified row member
  · rcases mem_updateWhere.mp member with ⟨old, oldMember, rfl⟩
    have oldIdentified := identified old oldMember
    split <;> exact oldIdentified

theorem map_event_finishRows {finished : SharedEvent} {pause : ℚ}
    {follows : AttemptRow → Bool} {rows : List AttemptRow} :
    (finishRows pause finished now follows rows).map AttemptRow.event =
      (updateWhere (·.attemptId == finished.attemptId)
        (AttemptRow.finishAt now finished) rows).map AttemptRow.event := by
  rw [finishRows]
  split
  · rfl
  · exact map_updateWhere_of_stable fun _ _ _ => rfl

theorem finish {attemptId status : String}
    (projected : Projected scope pacing authority files clock) (later : clock ≤ now)
    (found : files.find? (·.attemptId == attemptId) = some event)
    (unfinished : event.finishedAt = none)
    (recorded : authority.finish attemptId status now = .ok extended) :
    Projected scope pacing extended
      (updateWhere (·.attemptId == attemptId)
        (fun _ => { event with finishedAt := some now, status := status }) files) now := by
  have member : event ∈ files := List.mem_of_find?_eq_some found
  have named : event.attemptId = attemptId := by simpa using List.find?_some found
  subst named
  obtain ⟨finished, finishes⟩ : ∃ finished : SharedEvent,
      finished = { event with finishedAt := some now, status := status } := ⟨_, rfl⟩
  rw [← finishes]
  have stamps := projected.stamped event member
  have ends : finished.accountedEnd = now := by
    rw [finishes]
    exact accountedEnd_finish stamps.2.2 stamps.1 (stamps.2.1.trans later)
  have sameAttempt : finished.attemptId = event.attemptId := by rw [finishes]
  have sameSource : finished.sourceId = event.sourceId := by rw [finishes]
  have sameKind : finished.kind = event.kind := by rw [finishes]
  have sameStart : finished.startedAt = event.startedAt := by rw [finishes]
  have onlyEvent : ∀ other ∈ files, (other.attemptId == event.attemptId) = true → other = event := by
    intro other otherMember selected
    exact eq_of_key_eq projected.distinct otherMember member (by simpa using selected)
  rcases projected.find_row member with ⟨row, rowMember, rowEvent, rowId, rowFound⟩
  have rowIdentified := projected.identified row rowMember
  rw [AttemptRow.Identified, rowEvent] at rowIdentified
  have owned : ∀ other ∈ authority.attempts, other.attemptId = finished.attemptId →
      other.sourceId = finished.sourceId ∧ other.kind = finished.kind ∧
        other.startedAt = finished.startedAt := by
    intro other otherMember equal
    rw [projected.row_unique otherMember rowMember (by rw [equal, sameAttempt, rowId]),
      sameSource, sameKind, sameStart]
    exact rowIdentified.2
  -- what a finish does to the files, whatever its kind
  have details : ∀ sourceId,
      detailEvents (updateWhere (·.attemptId == event.attemptId) (fun _ => finished) files) sourceId =
        updateWhere (·.attemptId == event.attemptId) (fun _ => finished)
          (detailEvents files sourceId) :=
    fun _ => detailEvents_updateWhere projected.distinct member sameSource sameKind
  have starts : ∀ sourceId,
      (updateWhere (·.attemptId == event.attemptId) (fun _ => finished)
        (detailEvents files sourceId)).map SharedEvent.startedAt =
          (detailEvents files sourceId).map SharedEvent.startedAt := by
    intro sourceId
    apply map_updateWhere_of_stable
    intro other otherMember selected
    rw [onlyEvent other (List.mem_filter.mp otherMember).1 selected, sameStart]
  have distinct : ((updateWhere (·.attemptId == event.attemptId) (fun _ => finished) files).map
      SharedEvent.attemptId).Nodup := by
    rw [map_updateWhere_of_stable fun other otherMember selected => by
      rw [onlyEvent other otherMember selected, sameAttempt]]
    exact projected.distinct
  have allInScope : ∀ other ∈ updateWhere (·.attemptId == event.attemptId) (fun _ => finished) files,
      scope other.sourceId = true := by
    intro other otherMember
    rcases mem_updateWhere.mp otherMember with ⟨old, oldMember, rfl⟩
    split
    · rw [sameSource]
      exact projected.allInScope event member
    · exact projected.allInScope old oldMember
  have increasing : ∀ sourceId,
      (detailEvents (updateWhere (·.attemptId == event.attemptId) (fun _ => finished) files)
        sourceId).Pairwise fun left right => left.startedAt < right.startedAt := by
    intro sourceId
    rw [details, ← List.pairwise_map (f := SharedEvent.startedAt) (R := (· < ·)), starts,
      List.pairwise_map]
    exact projected.increasing sourceId
  have stamped : ∀ other ∈ updateWhere (·.attemptId == event.attemptId) (fun _ => finished) files,
      0 ≤ other.startedAt ∧ other.startedAt ≤ now ∧ other.eligibilityAccountingUntil = none := by
    intro other otherMember
    rcases mem_updateWhere.mp otherMember with ⟨old, oldMember, rfl⟩
    split
    · rw [finishes]
      exact ⟨stamps.1, stamps.2.1.trans later, stamps.2.2⟩
    · exact (projected.advance later).stamped old oldMember
  have sources : ∀ sourceId, authority.sources sourceId =
      if scope sourceId then
        some {
          n := (detailEvents (updateWhere (·.attemptId == event.attemptId) (fun _ => finished)
            files) sourceId).length
          pause := (pacing sourceId).pause }
      else none := by
    intro sourceId
    rw [details, length_updateWhere]
    exact projected.sources sourceId
  have events : (updateWhere (·.attemptId == finished.attemptId)
      (AttemptRow.finishAt now finished) authority.attempts).map AttemptRow.event =
        updateWhere (·.attemptId == event.attemptId) (fun _ => finished) files := by
    rw [← projected.events]
    apply map_updateWhere
    · intro other otherMember
      rw [(projected.identified other otherMember).1, sameAttempt]
    · intro other _ _
      rfl
  have identified : ∀ other ∈ updateWhere (·.attemptId == finished.attemptId)
      (AttemptRow.finishAt now finished) authority.attempts, other.Identified :=
    identified_finishAt projected.identified owned
  have notOwned : ∀ other, other ≠ row.sourceId →
      updateWhere (·.attemptId == event.attemptId) (fun _ => finished) (detailEvents files other) =
        detailEvents files other := by
    intro other different
    apply updateWhere_of_forall_not
    intro kept keptMember
    rcases List.mem_filter.mp keptMember with ⟨keptFile, keptDetail⟩
    by_contra selected
    rw [onlyEvent kept keptFile (by simpa using selected)] at keptDetail
    simp only [SharedEvent.isDetailOf, Bool.and_eq_true, beq_iff_eq] at keptDetail
    exact different (by rw [rowIdentified.2.1, keptDetail.2])
  rcases Authority.finish_cases rowFound (by rw [rowEvent, unfinished])
    (by rw [rowEvent, finishes]) sameAttempt recorded with ⟨_, detail | plain⟩
  · rcases detail with ⟨isDetail, summary, present, rfl⟩
    refine ⟨sources, map_event_finishRows.trans events, identified_finishRows identified,
      allInScope, distinct, ?_, increasing, stamped⟩
    intro sourceId
    rw [details]
    by_cases same : sourceId = row.sourceId
    · subst same
      have known := projected.sources row.sourceId
      have inScope : scope row.sourceId = true := by
        by_contra outside
        simp [present, outside] at known
      simp only [present, inScope, if_true, Option.some.injEq] at known
      have eventMember : event ∈ detailEvents files row.sourceId := by
        refine List.mem_filter.mpr ⟨member, ?_⟩
        simp [SharedEvent.isDetailOf, ← rowIdentified.2.1, ← rowIdentified.2.2.1, isDetail]
      rcases List.append_of_mem eventMember with ⟨before, after, split⟩
      have listed := projected.projected row.sourceId
      have detailsDistinct : ((before ++ event :: after).map SharedEvent.attemptId).Nodup := by
        rw [← split]
        exact projected.distinct.sublist (List.filter_sublist.map _)
      have rowEqual : row = projectRow (pacing row.sourceId).pause
          (endAfter none before) (1 + before.length) event := by
        have projectedMember : projectRow (pacing row.sourceId).pause
            (endAfter none before) (1 + before.length) event ∈ authority.details row.sourceId := by
          rw [listed, split, projectFrom_append, projectFrom]
          exact List.mem_append_right _ List.mem_cons_self
        exact projected.row_unique rowMember (List.mem_filter.mp projectedMember).1 rowId
      have next : row.sequence.map (· + 1) = some (1 + before.length + 1) := by
        rw [rowEqual]
        rfl
      rw [Authority.details, filter_finishRows_same, ← Authority.details, listed, split, next, known,
        updateWhere_key detailsDistinct]
      exact projectFrom_finish detailsDistinct sameAttempt sameSource sameKind sameStart ends
    · rw [Authority.details, notOwned sourceId same,
        filter_finishRows_other projected.attemptsDistinct same]
      · exact projected.projected sourceId
      · intro other otherMember equal
        rw [(owned other otherMember equal).1, sameSource, rowIdentified.2.1]
      · intro other follows
        simp only [AttemptRow.isDetailOf, Bool.and_eq_true, beq_iff_eq] at follows
        exact follows.1.2
  · rcases plain with ⟨notDetail, rfl⟩
    refine ⟨sources, events, identified, allInScope, distinct, ?_, increasing, stamped⟩
    intro sourceId
    have unselected : updateWhere (·.attemptId == event.attemptId) (fun _ => finished)
        (detailEvents files sourceId) = detailEvents files sourceId := by
      apply updateWhere_of_forall_not
      intro kept keptMember
      rcases List.mem_filter.mp keptMember with ⟨keptFile, keptDetail⟩
      by_contra selected
      rw [onlyEvent kept keptFile (by simpa using selected)] at keptDetail
      simp only [SharedEvent.isDetailOf, Bool.and_eq_true, beq_iff_eq] at keptDetail
      exact notDetail (by rw [rowIdentified.2.2.1, keptDetail.1])
    rw [details, unselected, ← projected.projected sourceId]
    apply filter_updateWhere_of_forall_not
    intro other otherMember selected
    have otherKind := (owned other otherMember (by simpa using selected)).2.1
    have notKind : other.kind ≠ .detail := by
      rwa [otherKind, sameKind, ← rowIdentified.2.2.1]
    exact ⟨by simp [AttemptRow.isDetailOf, notKind],
      by simp [AttemptRow.isDetailOf, AttemptRow.finishAt, notKind]⟩

end Projected

namespace Batched

variable {worker : Worker} {clock : ℚ} {event : SharedEvent}

theorem initial : Batched pacing {} 0 where
  events := by simp
  cached := by simp

theorem advance (batched : Batched pacing worker clock) (later : clock ≤ now) :
    Batched pacing worker now where
  events := batched.events
  cached batch present sourceId revision due entry := by
    have fresh := batched.cached batch present sourceId revision due entry
    refine ⟨fresh.1, fun current => ?_⟩
    have given := fresh.2 current
    exact ⟨given.1, fun time order => given.2 time (later.trans order)⟩

theorem admissionEvents_eq (batched : Batched pacing worker clock)
    (increasing : (detailEvents worker.sharedPolicy.files sourceId).Pairwise
      fun left right => left.startedAt < right.startedAt) :
    worker.sharedPolicy.admissionEvents sourceId =
      detailEvents worker.sharedPolicy.files sourceId := by
  cases present : worker.sharedPolicy.batch with
  | none =>
    simp only [SharedPolicy.admissionEvents, present, SharedPolicy.eventSnapshot]
    exact orderBy_eq_self (increasing.imp le_of_lt)
  | some batch =>
    simp only [SharedPolicy.admissionEvents, present]
    exact batched.events batch present sourceId

theorem policyDue {kind : Kind} (batched : Batched pacing worker clock) (later : clock ≤ now)
    (increasing : (detailEvents worker.sharedPolicy.files sourceId).Pairwise
      fun left right => left.startedAt < right.startedAt) :
    Batched pacing (worker.policyDue pacing sourceId kind now).2 now := by
  have unchanged := batched.advance later
  unfold Worker.policyDue
  split
  · exact unchanged
  split
  · exact unchanged
  dsimp only
  split
  · exact unchanged
  next nonempty =>
  rw [batched.admissionEvents_eq increasing] at nonempty ⊢
  cases present : worker.sharedPolicy.batch with
  | none => simpa [SharedPolicy.admissionRevision, present] using unchanged
  | some batch =>
    simp only [SharedPolicy.admissionRevision, present, Option.map_some]
    refine ⟨unchanged.events, ?_⟩
    intro other otherPresent source revision due entry
    rw [present, Option.mem_def, Option.some.injEq] at otherPresent
    subst otherPresent
    by_cases same : source = sourceId
    · subst same
      simp only [Function.update_self, Option.some.injEq, Prod.mk.injEq] at entry
      rcases entry with ⟨rfl, rfl⟩
      exact ⟨le_rfl, fun _ => cacheFresh_eventsDue (by simpa using nonempty)⟩
    · simp only [Function.update_of_ne same] at entry
      exact unchanged.cached batch present source revision due entry

theorem batchUpdate {files : List SharedEvent} (batched : Batched pacing worker clock)
    (others : ∀ sourceId, event.isDetailOf sourceId = false →
      detailEvents files sourceId = detailEvents worker.sharedPolicy.files sourceId)
    (own : event.kind = .detail →
      ((detailEvents worker.sharedPolicy.files event.sourceId).filter
        (·.attemptId != event.attemptId) ++ [event]).Perm (detailEvents files event.sourceId))
    (increasing : (detailEvents files event.sourceId).Pairwise
      fun left right => left.startedAt < right.startedAt) :
    Batched pacing
      { worker with
        sharedPolicy := {
          files := files
          batch := worker.sharedPolicy.batch.map fun batch =>
            SharedPolicy.batchUpdate batch event } } clock := by
  cases present : worker.sharedPolicy.batch with
  | none => constructor <;> simp
  | some batch =>
    by_cases isDetail : event.kind = .detail
    · constructor
      · intro updated equal sourceId
        simp only [Option.map_some, Option.mem_def, Option.some.injEq] at equal
        subst equal
        by_cases same : sourceId = event.sourceId
        · subst same
          simp only [SharedPolicy.batchUpdate, isDetail, if_true, Function.update_self]
          rw [batched.events batch present]
          exact orderBy_eq_of_perm (own isDetail) increasing
        · simp only [SharedPolicy.batchUpdate, isDetail, if_true, Function.update_of_ne same]
          rw [batched.events batch present]
          exact (others sourceId (by simp [SharedEvent.isDetailOf, Ne.symm same])).symm
      · intro updated equal sourceId revision due entry
        simp only [Option.map_some, Option.mem_def, Option.some.injEq] at equal
        subst equal
        have fresh := batched.cached batch present sourceId revision due entry
        by_cases same : sourceId = event.sourceId
        · subst same
          simp only [SharedPolicy.batchUpdate, isDetail, if_true, Function.update_self]
          refine ⟨fresh.1.trans (Nat.le_succ _), fun current => ?_⟩
          have older := fresh.1
          omega
        · simp only [SharedPolicy.batchUpdate, isDetail, if_true, Function.update_of_ne same]
          rw [others sourceId (by simp [SharedEvent.isDetailOf, Ne.symm same])]
          exact fresh
    · have kept : ∀ sourceId, detailEvents files sourceId =
          detailEvents worker.sharedPolicy.files sourceId :=
        fun sourceId => others sourceId (by simp [SharedEvent.isDetailOf, isDetail])
      have same : SharedPolicy.batchUpdate batch event = batch := by
        simp [SharedPolicy.batchUpdate, isDetail]
      constructor
      · intro updated equal sourceId
        simp only [Option.map_some, same, Option.mem_def, Option.some.injEq] at equal
        subst equal
        rw [batched.events batch present, kept]
      · intro updated equal sourceId revision due entry
        simp only [Option.map_some, same, Option.mem_def, Option.some.injEq] at equal
        subst equal
        rw [kept]
        exact batched.cached batch present sourceId revision due entry

end Batched

theorem Worker.policyDue_sharedPolicy (worker : Worker) (pacing : String → Pacing)
    (sourceId : String) (kind : Kind) (now : ℚ) :
    (worker.policyDue pacing sourceId kind now).2.sharedPolicy = worker.sharedPolicy := by
  unfold Worker.policyDue
  split
  · rfl
  split
  · rfl
  dsimp only
  split <;> rfl

/-- What holds of every deployment. -/
structure Agrees (scope : String → Bool) (pacing : String → Pacing)
    (deployment : Deployment) : Prop where
  projected : Projected scope pacing deployment.authority deployment.worker.sharedPolicy.files
    deployment.clock
  batched : Batched pacing deployment.worker deployment.clock

namespace Agrees

theorem initial : Agrees scope pacing { authority := .migrated scope pacing } :=
  ⟨.initial, .initial⟩

theorem reserve {startedAt : ℚ} {attemptId workspace taskId : String} {kind : Kind}
    {authority : Authority} {policy : SharedPolicy} (agrees : Agrees scope pacing deployment)
    (later : deployment.clock ≤ now) (stamped : 0 ≤ startedAt ∧ startedAt ≤ now)
    (increasing : ∀ event ∈ deployment.worker.sharedPolicy.files,
      event.isDetailOf sourceId → event.startedAt < startedAt)
    (native : deployment.authority.reserve attemptId sourceId kind startedAt workspace taskId =
      .ok authority)
    (legacy : deployment.worker.sharedPolicy.reserve attemptId sourceId kind startedAt
      workspace taskId = .ok policy) :
    Agrees scope pacing { authority := authority
                          worker := { deployment.worker with sharedPolicy := policy }
                          clock := now } := by
  simp only [SharedPolicy.reserve] at legacy
  split at legacy
  · cases legacy
  next fresh =>
  rw [← Except.ok.inj legacy]
  have absent : attemptId ∉ deployment.worker.sharedPolicy.files.map SharedEvent.attemptId := by
    simpa using fresh
  have projected := agrees.projected.insert later rfl stamped absent increasing native
  refine ⟨projected, (agrees.batched.advance later).batchUpdate ?_ ?_ (projected.increasing _)⟩
  · intro other notOf
    simp [detailEvents, notOf]
  · intro isDetail
    have kept : (detailEvents deployment.worker.sharedPolicy.files sourceId).filter
        (·.attemptId != attemptId) = detailEvents deployment.worker.sharedPolicy.files sourceId := by
      apply List.filter_eq_self.mpr
      intro event member
      simp only [bne_iff_ne]
      intro equal
      exact absent (equal ▸ List.mem_map_of_mem (List.mem_filter.mp member).1)
    dsimp only at isDetail ⊢
    rw [kept]
    simp [detailEvents, SharedEvent.isDetailOf, isDetail]

theorem finish {attemptId status : String} {authority : Authority} {policy : SharedPolicy}
    (agrees : Agrees scope pacing deployment) (later : deployment.clock ≤ now)
    (unfinished : ∀ event ∈ deployment.worker.sharedPolicy.files,
      event.attemptId = attemptId → event.finishedAt = none)
    (native : deployment.authority.finish attemptId status now = .ok authority)
    (legacy : deployment.worker.sharedPolicy.finish attemptId status now = .ok policy) :
    Agrees scope pacing { authority := authority
                          worker := { deployment.worker with sharedPolicy := policy }
                          clock := now } := by
  simp only [SharedPolicy.finish] at legacy
  cases found : deployment.worker.sharedPolicy.files.find? (·.attemptId == attemptId) with
  | none => simp [found] at legacy
  | some event =>
    simp only [found] at legacy
    rw [← Except.ok.inj legacy]
    have member : event ∈ deployment.worker.sharedPolicy.files :=
      List.mem_of_find?_eq_some found
    have named : event.attemptId = attemptId := by simpa using List.find?_some found
    have projected := agrees.projected.finish later found (unfinished event member named) native
    refine ⟨projected, (agrees.batched.advance later).batchUpdate ?_ ?_ (projected.increasing _)⟩
    · intro other notOf
      apply filter_updateWhere_of_forall_not
      intro row rowMember selected
      have same : row = event := eq_of_key_eq agrees.projected.distinct rowMember member
        (by simpa [named] using selected)
      rw [same]
      exact ⟨notOf, notOf⟩
    · intro isDetail
      have ownMember : event ∈ detailEvents deployment.worker.sharedPolicy.files
          event.sourceId := by
        refine List.mem_filter.mpr ⟨member, ?_⟩
        simpa [SharedEvent.isDetailOf] using isDetail
      rcases List.append_of_mem ownMember with ⟨before, after, split⟩
      have distinct : ((before ++ event :: after).map SharedEvent.attemptId).Nodup := by
        rw [← split]
        exact agrees.projected.distinct.sublist (List.filter_sublist.map _)
      have updated : detailEvents (updateWhere (·.attemptId == attemptId)
          (fun _ => { event with finishedAt := some now, status := status })
          deployment.worker.sharedPolicy.files) event.sourceId =
            before ++ { event with finishedAt := some now, status := status } :: after := by
        rw [← named]
        refine (detailEvents_updateWhere agrees.projected.distinct member (by rfl) (by rfl)).trans ?_
        rw [split]
        exact updateWhere_key distinct
      dsimp only
      rw [updated, split, filter_key_ne distinct]
      exact (List.perm_append_singleton _ _).trans List.perm_middle.symm

theorem step (agrees : Agrees scope pacing deployment) (step : Step pacing deployment call next) :
    Agrees scope pacing next := by
  cases step with
  | reserve later stamped increasing native legacy =>
    exact agrees.reserve later stamped increasing native legacy
  | finish later unfinished native legacy => exact agrees.finish later unfinished native legacy
  | policyDue later =>
    refine ⟨?_, agrees.batched.policyDue later (agrees.projected.increasing _)⟩
    rw [Worker.policyDue_sharedPolicy]
    exact agrees.projected.advance later
  | beginBatch later =>
    refine ⟨agrees.projected.advance later, ?_, ?_⟩
    · intro batch equal sourceId
      simp only [Worker.beginBatch, SharedPolicy.beginBatch, Option.mem_def,
        Option.some.injEq] at equal
      subst equal
      exact orderBy_eq_self ((agrees.projected.increasing sourceId).imp le_of_lt)
    · intro batch equal sourceId revision due entry
      simp [Worker.beginBatch] at entry
  | finishBatch later =>
    exact ⟨agrees.projected.advance later, by simp [SharedPolicy.finishBatch],
      by simp [SharedPolicy.finishBatch]⟩

end Agrees

end JobAgg.PolicyAuthority
