import Mathlib.Data.List.GetD
import JobAgg.PolicyAuthority.PolicyAuthority

/-! # The attempt rows as a projection of the shared events

`projectFrom` builds in one scan the rows that the authority keeps up to date
step by step. A reservation extends the projection at its end, a finish rewrites
the finished row and the batch flag of its successor, and the due time read off
the projected rows is the one computed from the events.
-/

namespace JobAgg.PolicyAuthority

def projectRow (pause : ℚ) (previous : Option ℚ) (sequence : ℕ) (event : SharedEvent) :
    AttemptRow where
  attemptId := event.attemptId
  sourceId := event.sourceId
  kind := event.kind
  sequence := some sequence
  startedAt := event.startedAt
  effectiveEnd := event.accountedEnd
  batchBreak := opensBatch pause previous event.startedAt
  event := event

def projectFrom (pause : ℚ) : Option ℚ → ℕ → List SharedEvent → List AttemptRow
  | _, _, [] => []
  | previous, sequence, event :: events =>
    projectRow pause previous sequence event ::
      projectFrom pause (some event.accountedEnd) (sequence + 1) events

/-- The end that the event after `events` is measured against. -/
def endAfter : Option ℚ → List SharedEvent → Option ℚ
  | previous, [] => previous
  | _, event :: events => endAfter (some event.accountedEnd) events

variable {pause : ℚ} {previous : Option ℚ} {sequence : ℕ} {event : SharedEvent}
  {events later : List SharedEvent} {now : ℚ}

theorem endAfter_append :
    endAfter previous (events ++ later) = endAfter (endAfter previous events) later := by
  induction events generalizing previous with
  | nil => rfl
  | cons event events induction => exact induction

theorem endAfter_none :
    endAfter none events = events.getLast?.map SharedEvent.accountedEnd := by
  induction events using List.reverseRecOn with
  | nil => rfl
  | append_singleton events event _ => simp [endAfter_append, endAfter]

@[simp] theorem projectFrom_nil : projectFrom pause previous sequence [] = [] := rfl

theorem projectFrom_append :
    projectFrom pause previous sequence (events ++ later) =
      projectFrom pause previous sequence events ++
        projectFrom pause (endAfter previous events) (sequence + events.length) later := by
  induction events generalizing previous sequence with
  | nil => simp [endAfter]
  | cons event events induction =>
    have shifted : sequence + 1 + events.length = sequence + (events.length + 1) := by omega
    simp [projectFrom, endAfter, induction, shifted]

@[simp] theorem map_effectiveEnd_projectFrom :
    (projectFrom pause previous sequence events).map AttemptRow.effectiveEnd =
      events.map SharedEvent.accountedEnd := by
  induction events generalizing previous sequence with
  | nil => rfl
  | cons event events induction => simp [projectFrom, projectRow, induction]

@[simp] theorem map_attemptId_projectFrom :
    (projectFrom pause previous sequence events).map AttemptRow.attemptId =
      events.map SharedEvent.attemptId := by
  induction events generalizing previous sequence with
  | nil => rfl
  | cons event events induction => simp [projectFrom, projectRow, induction]

theorem sequence_of_mem_projectFrom {row : AttemptRow}
    (member : row ∈ projectFrom pause previous sequence events) :
    ∃ number, row.sequence = some number ∧ sequence ≤ number ∧
      number < sequence + events.length := by
  induction events generalizing previous sequence with
  | nil => simp at member
  | cons event events induction =>
    rcases List.mem_cons.mp member with rfl | inTail
    · exact ⟨sequence, rfl, le_rfl, by simp⟩
    · rcases induction inTail with ⟨number, equal, atLeast, below⟩
      refine ⟨number, equal, by omega, ?_⟩
      simp only [List.length_cons]
      omega

theorem projectFrom_sequence_increasing :
    (projectFrom pause previous sequence events).Pairwise fun left right =>
      left.sequence.getD 0 < right.sequence.getD 0 := by
  induction events generalizing previous sequence with
  | nil => simp
  | cons event events induction =>
    refine List.pairwise_cons.mpr ⟨?_, induction⟩
    intro row member
    rcases sequence_of_mem_projectFrom member with ⟨number, equal, atLeast, _⟩
    simp only [projectRow, equal, Option.getD_some]
    omega

theorem newest_projectFrom :
    Authority.newest (projectFrom pause previous sequence events) =
      (projectFrom pause previous sequence events).getLast? :=
  head?_orderByDesc_of_increasing projectFrom_sequence_increasing

theorem getLast?_effectiveEnd_projectFrom :
    (projectFrom pause previous sequence events).getLast?.map AttemptRow.effectiveEnd =
      events.getLast?.map SharedEvent.accountedEnd := by
  rw [← List.getLast?_map, ← List.getLast?_map, map_effectiveEnd_projectFrom]

theorem tenth_eq {ends : List ℚ} :
    (orderByDesc id ends)[9]? =
      if 10 ≤ (orderBy id ends).length then
        some ((orderBy id ends).getD ((orderBy id ends).length - 10) 0)
      else none := by
  rw [@orderByDesc_eq_reverse _ _ _ id ends fun _ _ _ _ => id]
  split
  · next enough =>
      have sameIndex : (orderBy id ends).length - 1 - 9 = (orderBy id ends).length - 10 := by
        omega
      rw [List.getElem?_reverse (by omega), sameIndex, List.getD_eq_getElem _ _ (by omega)]
      exact List.getElem?_eq_getElem _
  · next few =>
      exact List.getElem?_eq_none (by simp; omega)

theorem finishAt_projectRow {finished : SharedEvent}
    (sameAttempt : finished.attemptId = event.attemptId)
    (sameSource : finished.sourceId = event.sourceId) (sameKind : finished.kind = event.kind)
    (sameStart : finished.startedAt = event.startedAt) (ends : finished.accountedEnd = now) :
    (projectRow pause previous sequence event).finishAt now finished =
      projectRow pause previous sequence finished := by
  simp [AttemptRow.finishAt, projectRow, sameAttempt, sameSource, sameKind, sameStart, ends]

theorem attemptId_of_mem_projectFrom {row : AttemptRow}
    (member : row ∈ projectFrom pause previous sequence events) :
    row.attemptId ∈ events.map SharedEvent.attemptId := by
  rw [← map_attemptId_projectFrom]
  exact List.mem_map_of_mem member

theorem updateWhere_projectFrom {attemptId : String} {update : AttemptRow → AttemptRow}
    (absent : attemptId ∉ events.map SharedEvent.attemptId) :
    updateWhere (·.attemptId == attemptId) update (projectFrom pause previous sequence events) =
      projectFrom pause previous sequence events := by
  apply updateWhere_of_forall_not
  intro row member
  rw [beq_eq_false_iff_ne]
  intro equal
  exact absent (equal ▸ attemptId_of_mem_projectFrom member)

def plainRow (event : SharedEvent) : AttemptRow where
  attemptId := event.attemptId
  sourceId := event.sourceId
  kind := event.kind
  sequence := none
  startedAt := event.startedAt
  effectiveEnd := event.accountedEnd
  batchBreak := false
  event := event

theorem Authority.insert_cases {authority extended : Authority}
    (absent : authority.attempts.find? (·.attemptId == event.attemptId) = none)
    (inserted : authority.insert event = .ok extended) :
    ∃ summary, authority.sources event.sourceId = some summary ∧
      (event.kind = .detail ∧ extended =
          { sources := Function.update authority.sources event.sourceId
              (some { summary with n := summary.n + 1 })
            attempts := authority.attempts ++ [projectRow summary.pause
              ((newest (authority.details event.sourceId)).map AttemptRow.effectiveEnd)
              (summary.n + 1) event] } ∨
        event.kind ≠ .detail ∧ extended =
          { authority with attempts := authority.attempts ++ [plainRow event] }) := by
  simp only [Authority.insert, absent] at inserted
  cases summary : authority.sources event.sourceId with
  | none => simp [summary] at inserted
  | some value =>
    refine ⟨value, rfl, ?_⟩
    simp only [summary] at inserted
    split at inserted
    · next isDetail =>
        split at inserted
        · cases inserted
        · exact .inl ⟨isDetail, (Except.ok.inj inserted).symm⟩
    · next notDetail => exact .inr ⟨notDetail, (Except.ok.inj inserted).symm⟩

def finishRows (pause : ℚ) (finished : SharedEvent) (now : ℚ) (follows : AttemptRow → Bool)
    (rows : List AttemptRow) : List AttemptRow :=
  let attempts := updateWhere (·.attemptId == finished.attemptId)
    (AttemptRow.finishAt now finished) rows
  match attempts.find? follows with
  | none => attempts
  | some following =>
    updateWhere (·.attemptId == following.attemptId)
      (AttemptRow.withBreak (opensBatch pause (some now) following.startedAt)) attempts

theorem projectFrom_finish {before after : List SharedEvent} {finished : SharedEvent}
    (distinct : ((before ++ event :: after).map SharedEvent.attemptId).Nodup)
    (sameAttempt : finished.attemptId = event.attemptId)
    (sameSource : finished.sourceId = event.sourceId) (sameKind : finished.kind = event.kind)
    (sameStart : finished.startedAt = event.startedAt) (ends : finished.accountedEnd = now) :
    finishRows pause finished now
        (fun row => row.sequence == some (sequence + before.length + 1))
        (projectFrom pause previous sequence (before ++ event :: after)) =
      projectFrom pause previous sequence (before ++ finished :: after) := by
  simp only [List.map_append, List.map_cons, List.nodup_append, List.nodup_cons,
    List.mem_cons] at distinct
  rcases distinct with ⟨_, ⟨notAfter, afterDistinct⟩, apart⟩
  have notBefore : finished.attemptId ∉ before.map SharedEvent.attemptId := by
    intro member
    exact apart _ member _ (.inl rfl) sameAttempt
  rw [← sameAttempt] at notAfter
  have beforeSkipped : (projectFrom pause previous sequence before).find?
      (fun row => row.sequence == some (sequence + before.length + 1)) = none := by
    apply List.find?_eq_none.mpr
    intro row member
    rcases sequence_of_mem_projectFrom member with ⟨number, equal, _, below⟩
    simp only [equal, beq_iff_eq, Option.some.injEq]
    omega
  have headId : ∀ previous sequence,
      (projectRow pause previous sequence event).attemptId = finished.attemptId :=
    fun _ _ => sameAttempt.symm
  simp only [finishRows, projectFrom_append, projectFrom, updateWhere_append, updateWhere_cons,
    updateWhere_projectFrom notBefore, updateWhere_projectFrom notAfter, headId,
    beq_self_eq_true, if_true, List.find?_append, beforeSkipped, Option.none_or,
    finishAt_projectRow sameAttempt sameSource sameKind sameStart ends]
  cases after with
  | nil => simp [projectRow]
  | cons next rest =>
    have nextBefore : next.attemptId ∉ before.map SharedEvent.attemptId := by
      intro member
      exact apart _ member _ (.inr (by simp)) rfl
    have nextRest : next.attemptId ∉ rest.map SharedEvent.attemptId := by
      simpa using (List.nodup_cons.mp afterDistinct).1
    have notNext : finished.attemptId ≠ next.attemptId := by
      intro equal
      exact notAfter (by simp [equal])
    have nextFound : (projectRow pause (endAfter previous before) (sequence + before.length)
          finished :: projectFrom pause (some event.accountedEnd)
            (sequence + before.length + 1) (next :: rest)).find?
        (fun row => row.sequence == some (sequence + before.length + 1)) =
        some (projectRow pause (some event.accountedEnd) (sequence + before.length + 1) next) := by
      simp [projectFrom, projectRow]
    simp only [nextFound]
    have nextId : ∀ previous sequence,
        (projectRow pause previous sequence next).attemptId = next.attemptId := fun _ _ => rfl
    have finishedId : ∀ previous sequence,
        (projectRow pause previous sequence finished).attemptId = finished.attemptId :=
      fun _ _ => rfl
    simp only [projectFrom, updateWhere_cons, nextId, finishedId,
      updateWhere_projectFrom nextBefore, updateWhere_projectFrom nextRest,
      beq_self_eq_true, if_true, beq_eq_false_iff_ne.mpr notNext, Bool.false_eq_true, if_false,
      ends]
    simp [AttemptRow.withBreak, projectRow]

theorem Authority.finish_cases {authority extended : Authority} {attemptId status : String}
    {row : AttemptRow} {finished : SharedEvent}
    (found : authority.attempts.find? (·.attemptId == attemptId) = some row)
    (unfinished : row.event.finishedAt = none)
    (finishes : finished = { row.event with finishedAt := some now, status := status })
    (sameAttempt : finished.attemptId = attemptId)
    (recorded : authority.finish attemptId status now = .ok extended) :
    row.startedAt ≤ now ∧
      (row.kind = .detail ∧ (∃ summary, authority.sources row.sourceId = some summary ∧
        extended = { authority with
          attempts := finishRows summary.pause finished now
            (fun other => other.isDetailOf row.sourceId &&
              other.sequence == row.sequence.map (· + 1)) authority.attempts }) ∨
      row.kind ≠ .detail ∧ extended = { authority with
        attempts := updateWhere (·.attemptId == finished.attemptId)
          (AttemptRow.finishAt now finished) authority.attempts }) := by
  simp only [Authority.finish, found, unfinished, Option.isSome_none, Bool.false_eq_true,
    if_false, ← finishes] at recorded
  by_cases regressed : now < row.startedAt
  · simp [regressed] at recorded
  refine ⟨not_lt.mp regressed, ?_⟩
  rw [if_neg regressed] at recorded
  rw [← sameAttempt] at recorded
  split at recorded
  · next isDetail =>
      refine .inl ⟨isDetail, ?_⟩
      cases summary : authority.sources row.sourceId with
      | none => simp [summary] at recorded
      | some value =>
        refine ⟨value, rfl, ?_⟩
        simp only [summary] at recorded
        rw [finishRows]
        cases followed : (updateWhere (·.attemptId == finished.attemptId)
            (AttemptRow.finishAt now finished) authority.attempts).find? fun other =>
              other.isDetailOf row.sourceId &&
                other.sequence == row.sequence.map (· + 1) with
        | none =>
          simp only [followed, Except.ok.injEq] at recorded ⊢
          exact recorded.symm
        | some following =>
          simp only [followed, Except.ok.injEq] at recorded ⊢
          exact recorded.symm
  · next notDetail => exact .inr ⟨notDetail, (Except.ok.inj recorded).symm⟩

end JobAgg.PolicyAuthority
