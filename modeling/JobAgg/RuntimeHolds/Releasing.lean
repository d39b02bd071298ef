import JobAgg.RuntimeHolds.Composition

/-! # Which holds can be released

A release names its cause by the evidence alone, while `put` keeps causes of one
evidence apart by their reason. A cause can be released exactly when no other
active cause of its place has the same evidence.
-/

namespace JobAgg.RuntimeHolds

theorem nodup_of_apart {Row Key : Type} {keeps : Row → Bool} {key : Row → Key} {rows : List Row}
    (apart : ∀ before row after, rows = before ++ row :: after → keeps row = true →
      ∀ other ∈ after, keeps other = true → key row ≠ key other) :
    ((rows.filter keeps).map key).Nodup := by
  induction rows with
  | nil => simp
  | cons row rows induction =>
    have rest := induction fun before other after same =>
      apart (row :: before) other after (same ▸ rfl)
    cases kept : keeps row with
    | false => simpa [kept] using rest
    | true =>
      rw [List.filter_cons_of_pos kept, List.map_cons, List.nodup_cons]
      refine ⟨?_, rest⟩
      intro member
      rcases List.mem_map.mp member with ⟨other, later, equal⟩
      rw [List.mem_filter] at later
      exact apart [] row rows rfl kept other later.1 later.2 equal.symm

section Releases

variable {digest : Audit → String} {epoch : String} {events : List Event}
  {ledger next : Ledger} {scope : Scope} {identity : String} {phase : Phase}

def DistinctEvidence (causes : List Cause) : Prop :=
  ((causes.filter Cause.active).map Cause.evidenceSha256).Nodup

theorem names_only {before after : List Cause} {cause : Cause}
    (distinct : DistinctEvidence (before ++ cause :: after)) (active : cause.active = true) :
    (∀ other ∈ before, names cause.evidenceSha256 other = false) ∧
      ∀ other ∈ after, names cause.evidenceSha256 other = false := by
  unfold DistinctEvidence at distinct
  rw [List.filter_append, List.filter_cons_of_pos active] at distinct
  have apart := key_ne_of_nodup distinct
  constructor
  · intro other member
    rw [Bool.eq_false_iff]
    intro named
    simp only [names, Bool.and_eq_true, beq_iff_eq] at named
    exact apart.1 other (List.mem_filter.mpr ⟨member, named.2⟩) named.1
  · intro other member
    rw [Bool.eq_false_iff]
    intro named
    simp only [names, Bool.and_eq_true, beq_iff_eq] at named
    exact apart.2 other (List.mem_filter.mpr ⟨member, named.2⟩) named.1

theorem releaseCause_eq_ok {previous current : Review} {expected : String} {release : Release}
    {value : Cause} (released : releaseCause previous expected release = .ok (current, value)) :
    ∃ original, previous.allCauses.filter (names expected) = [original] := by
  unfold releaseCause at released
  split at released
  · rename_i original only
    exact ⟨original, only⟩
  · simp at released

theorem exists_releaseCause {previous : Review} {expected : String} {original : Cause}
    (release : Release) (only : previous.allCauses.filter (names expected) = [original]) :
    ∃ current value, releaseCause previous expected release = .ok (current, value) := by
  unfold releaseCause
  rw [only]
  dsimp only
  split
  · exact ⟨_, _, rfl⟩
  · exact ⟨_, _, rfl⟩

theorem Kept.of_release (kept : Kept digest epoch events ledger)
    {expected reviewSha256 correction : String} {value : Cause}
    (done : release digest (.ok { epoch, phase }) ledger scope identity expected reviewSha256
      correction = .ok (next, value)) :
    ∃ before original after, causesAt ledger scope identity = before ++ original :: after ∧
      original.release = none ∧ original.evidenceSha256 = expected ∧
      (∀ other ∈ before, names expected other = false) ∧
      (∀ other ∈ after, names expected other = false) ∧
      causesAt next scope identity =
        before ++ { original with release := some { reviewSha256, correction } } :: after := by
  rcases release_eq_ok done with ⟨_, previous, current, found, _, released, reviews, _⟩
  rcases (kept.represented found).releaseCause released with
    ⟨⟨before, original, after, causes, named, notBefore, notAfter, _⟩, represents⟩
  have active := named
  simp only [names, Cause.active, Bool.and_eq_true, beq_iff_eq,
    Option.isNone_iff_eq_none] at active
  refine ⟨before, original, after, ?_, active.2, active.1, notBefore, notAfter, ?_⟩
  · rw [kept.causesAt_eq, causes]
  · rw [causesAt, reviews, lookup_assign_self, Option.map_some, Option.getD_some,
      represents.kept, causes]
    exact updateWhere_alone named notBefore notAfter

theorem Kept.elsewhere (kept : Kept digest epoch events ledger) {event : Event}
    (step : Step digest epoch ledger event next) (place : event.place ≠ (scope, identity)) :
    causesAt next scope identity = causesAt ledger scope identity := by
  rw [(kept.step step).causesAt_eq, kept.causesAt_eq, recorded_concat, record_elsewhere place]

def CollisionFree (digest : Audit → String) (ledger : Ledger) : Prop :=
  ∀ row ∈ ledger.audits, ∀ audit, digest audit = digest row.2 → audit = row.2

theorem Kept.exists_release (kept : Kept digest epoch events ledger)
    (collisionFree : CollisionFree digest ledger) {before after : List Cause} {cause : Cause}
    (causes : causesAt ledger scope identity = before ++ cause :: after)
    (distinct : DistinctEvidence (causesAt ledger scope identity))
    (active : cause.release = none) {reviewSha256 correction : String}
    (reviewed : isSha256 reviewSha256 = true) (corrected : correction ≠ "") :
    ∃ next value, release digest (.ok { epoch, phase := .idle }) ledger scope
      identity cause.evidenceSha256 reviewSha256 correction = .ok (next, value) := by
  rw [kept.causesAt_eq] at causes distinct
  cases found : lookup (holdId scope identity) ledger.reviews with
  | none =>
    have filed := kept.filed scope identity
    rw [found] at filed
    rw [show recorded epoch events scope identity = [] from filed] at causes
    simp at causes
  | some previous =>
    have represents := kept.represented found
    have bound := represents.bound previous.current represents.member
    have isActive : cause.active = true := by simp [Cause.active, active]
    have others := names_only (causes ▸ distinct) isActive
    have named : names cause.evidenceSha256 cause = true := by simp [names, isActive]
    have only : previous.allCauses.filter (names cause.evidenceSha256) = [cause] := by
      rw [represents.kept, filter_eq_singleton_iff]
      exact ⟨before, after, causes, named, others.1, others.2⟩
    rcases exists_releaseCause { reviewSha256, correction } only with
      ⟨current, value, released⟩
    have identified : identity ≠ "" := by
      rintro rfl
      rw [kept.named] at causes
      simp at causes
    have place := bound.2
    simp only [Cause.boundTo, Bool.and_eq_true, beq_iff_eq] at place
    have fresh : lookup ("runtime-hold-release/" ++ digest ⟨previous, current⟩) ledger.audits =
        none := by
      rw [Option.eq_none_iff_forall_ne_some]
      intro audit earlier
      have member := mem_of_lookup_eq_some earlier
      have behind := kept.audits _ member
      have same : ⟨previous, current⟩ = audit :=
        collisionFree _ member _ (by simpa using behind.1)
      subst same
      rw [represents.kept, place.1.2, place.2] at behind
      exact absurd behind.2 (lt_irrefl _)
    simp only [RuntimeHolds.release, key, bind_eq_ok, require_eq_ok, pure_eq_ok]
    exact ⟨_, value, _, rfl, (), by simp [corrected, reviewed], _,
      ⟨(), by simpa using identified, rfl⟩, previous, by rw [found]; rfl, (),
      by simp [bound.1, bound.2], _, released, (), by simp [fresh], rfl⟩

/-- Every active cause has a release that names its evidence and takes away exactly
this cause. -/
def Releasable (digest : Audit → String) (epoch : String) (ledger : Ledger) : Prop :=
  ∀ scope identity before cause after,
    causesAt ledger scope identity = before ++ cause :: after → cause.release = none →
    ∃ reviewSha256 correction next value,
      release digest (.ok { epoch, phase := .idle }) ledger scope identity cause.evidenceSha256
        reviewSha256 correction = .ok (next, value) ∧
      causesAt next scope identity =
        before ++ { cause with release := some { reviewSha256, correction } } :: after ∧
      ∀ other name, (scope, identity) ≠ (other, name) →
        causesAt next other name = causesAt ledger other name

theorem Kept.releasable_iff (kept : Kept digest epoch events ledger)
    (collisionFree : CollisionFree digest ledger) :
    Releasable digest epoch ledger ↔
      ∀ scope identity, DistinctEvidence (causesAt ledger scope identity) := by
  constructor
  · intro releasable scope identity
    apply nodup_of_apart
    intro before cause after causes active other later otherActive same
    rcases releasable scope identity before cause after causes (by simpa [Cause.active] using active)
      with ⟨_, _, _, _, released, _⟩
    rcases release_eq_ok released with ⟨_, previous, _, found, _, done, _⟩
    rcases releaseCause_eq_ok done with ⟨original, only⟩
    rw [(kept.represented found).kept, ← kept.causesAt_eq, causes, List.filter_append,
      List.filter_cons_of_pos (by simp [names, active])] at only
    have second : other ∈ after.filter (names cause.evidenceSha256) :=
      List.mem_filter.mpr ⟨later, by simp [names, same, otherActive]⟩
    have two := congrArg List.length only
    have some := List.length_pos_of_mem second
    simp only [List.length_append, List.length_cons, List.length_nil] at two
    omega
  · intro distinct scope identity before cause after causes active
    have reviewed : isSha256 (String.ofList (List.replicate 64 '0')) = true :=
      isSha256_replicate rfl
    rcases kept.exists_release collisionFree causes (distinct scope identity) active reviewed
      (by decide : "corrected" ≠ "") with
      ⟨next, value, released⟩
    refine ⟨_, _, next, value, released, ?_, ?_⟩
    · rcases release_eq_ok released with ⟨_, previous, current, found, _, done, reviews, _⟩
      have isActive : cause.active = true := by simp [Cause.active, active]
      have others := names_only (causes ▸ distinct scope identity) isActive
      have represents := (kept.represented found).releaseCause done
      rw [causesAt, reviews, lookup_assign_self, Option.map_some, Option.getD_some,
        represents.2.kept, ← kept.causesAt_eq, causes]
      exact updateWhere_alone (by simp [names, isActive]) others.1 others.2
    · exact fun other name place => kept.elsewhere (.release released) place

end Releases

/-- A put names no evidence that another active cause of its place has. -/
def Separate (epoch : String) (past : List Event) : Event → Prop
  | .put scope identity reason evidenceSha256 _ =>
    ∀ cause ∈ recorded epoch past scope identity, cause.release = none →
      cause.evidenceSha256 = evidenceSha256 → cause.reason = reason
  | .release .. => True

theorem distinctEvidence_record {epoch : String} {past : List Event} {event : Event}
    {scope : Scope} {identity : String} (separate : Separate epoch past event)
    (distinct : DistinctEvidence (recorded epoch past scope identity)) :
    DistinctEvidence (record epoch scope identity (recorded epoch past scope identity) event) := by
  cases event with
  | put other name reason evidenceSha256 nextCondition =>
    simp only [record]
    split
    · rename_i place
      rcases place with ⟨rfl, rfl, fresh⟩
      have alone : [activeCause epoch other name reason evidenceSha256 nextCondition].filter
          Cause.active = [activeCause epoch other name reason evidenceSha256 nextCondition] := rfl
      unfold DistinctEvidence at distinct ⊢
      rw [List.filter_append, alone, List.map_append, List.nodup_append]
      refine ⟨distinct, by simp, ?_⟩
      intro evidence old added new same
      rcases List.mem_map.mp old with ⟨cause, member, rfl⟩
      rw [List.mem_filter] at member
      have newEvidence : added = evidenceSha256 := List.mem_singleton.mp new
      have sameReason := separate cause member.1 (by simpa [Cause.active] using member.2)
        (same.trans newEvidence)
      apply fresh
      rw [List.any_eq_true]
      exact ⟨cause, member.1, by simp [same, newEvidence, sameReason]⟩
    · exact distinct
  | release other name expected review correction =>
    simp only [record]
    split
    · unfold DistinctEvidence at distinct ⊢
      have fewer : ((updateWhere (names expected) (fun cause =>
          { cause with release := some ⟨review, correction⟩ })
            (recorded epoch past scope identity)).filter Cause.active).map
              Cause.evidenceSha256 =
          (((recorded epoch past scope identity).filter Cause.active).filter
            fun cause => !names expected cause).map Cause.evidenceSha256 := by
        generalize recorded epoch past scope identity = causes
        induction causes with
        | nil => rfl
        | cons cause causes induction =>
          have inactive : Cause.active
              { cause with release := some ⟨review, correction⟩ } = false := rfl
          cases active : cause.active <;> cases named : names expected cause <;>
            simp [active, named, inactive, induction]
      rw [fewer]
      exact distinct.sublist (List.filter_sublist.map _)
    · exact distinct

theorem distinctEvidence_recorded {epoch : String} {events : List Event}
    (separate : ∀ past event later, events = past ++ event :: later → Separate epoch past event)
    (scope : Scope) (identity : String) : DistinctEvidence (recorded epoch events scope identity) := by
  induction events using List.reverseRecOn with
  | nil => simp [DistinctEvidence, recorded]
  | append_singleton past event induction =>
    rw [recorded_concat]
    apply distinctEvidence_record (separate past event [] rfl)
    apply induction
    intro earlier other later same
    exact separate earlier other (later ++ [event]) (by simp [same])

def Composes (epoch : String) (old new : List Cause) : Event → Prop
  | .put scope identity reason evidenceSha256 nextCondition =>
    new = old ∨
      new = old ++ [activeCause epoch scope identity reason evidenceSha256 nextCondition]
  | .release _ _ expected reviewSha256 correction =>
    ∃ before original after, old = before ++ original :: after ∧
      original.release = none ∧ original.evidenceSha256 = expected ∧
      new = before ++ { original with release := some { reviewSha256, correction } } :: after

theorem Kept.composes {digest : Audit → String} {epoch : String} {events : List Event}
    {ledger next : Ledger} {event : Event} (kept : Kept digest epoch events ledger)
    (step : Step digest epoch ledger event next) :
    Composes epoch (causesAt ledger event.place.1 event.place.2)
      (causesAt next event.place.1 event.place.2) event := by
  cases step with
  | @put _ _ scope identity reason evidenceSha256 nextCondition _ done =>
    have keptNext := kept.step (.put done)
    rw [keptNext.causesAt_eq, kept.causesAt_eq, recorded_concat]
    simp only [Event.place, record, Composes]
    split
    · exact .inr rfl
    · exact .inl rfl
  | release done =>
    rcases kept.of_release done with ⟨before, original, after, old, active, expected, _, _, new⟩
    exact ⟨before, original, after, old, active, expected, new⟩

theorem put_recorded {epoch : String} {events : List Event} {scope : Scope}
    {identity reason evidenceSha256 nextCondition : String}
    (put : Event.put scope identity reason evidenceSha256 nextCondition ∈ events) :
    ∃ cause ∈ recorded epoch events scope identity,
      cause.reason = reason ∧ cause.evidenceSha256 = evidenceSha256 := by
  induction events using List.reverseRecOn with
  | nil => simp at put
  | append_singleton past event induction =>
    rw [recorded_concat]
    rcases List.mem_append.mp put with earlier | now
    · rcases induction earlier with ⟨cause, member, same⟩
      cases event with
      | put other name otherReason otherEvidence otherCondition =>
        simp only [record]
        split
        · exact ⟨cause, List.mem_append_left _ member, same⟩
        · exact ⟨cause, member, same⟩
      | release other name expected review correction =>
        simp only [record]
        split
        · refine ⟨_, mem_updateWhere.mpr ⟨cause, member, rfl⟩, ?_⟩
          split
          · exact same
          · exact same
        · exact ⟨cause, member, same⟩
    · rw [← List.mem_singleton.mp now]
      simp only [record]
      split
      · exact ⟨_, List.mem_append_right _ (List.mem_singleton_self _), rfl, rfl⟩
      · rename_i seen
        simp only [true_and, not_not, List.any_eq_true, Bool.and_eq_true, beq_iff_eq] at seen
        rcases seen with ⟨cause, member, evidence, sameReason⟩
        exact ⟨cause, member, sameReason, evidence⟩

def atPlace (scope : Scope) (identity : String) (other : Scope) : Option String :=
  if other = scope then some identity else none

theorem Kept.find_atPlace {digest : Audit → String} {epoch : String} {events : List Event}
    {ledger : Ledger} {runtime : Runtime} {scope : Scope} {identity : String}
    (kept : Kept digest epoch events ledger) (same : runtime.epoch = epoch)
    (identified : identity ≠ "") :
    ∃ found, find (some runtime) ledger (atPlace scope identity) = .ok found ∧
      (found.isSome = true ↔ Held epoch events scope identity) := by
  have single : find (some runtime) ledger (atPlace scope identity) =
      findAmong (some runtime) ledger (atPlace scope identity) [scope] := by
    cases scope <;> rfl
  rw [single]
  have given : atPlace scope identity scope = some identity := if_pos rfl
  rcases kept.findAmong_cons same [] given identified with
    ⟨held, review, found⟩ | ⟨clear, found⟩
  · exact ⟨some review, found, by simp [held]⟩
  · exact ⟨none, found, by simp [clear]⟩

theorem kept_start {digest : Audit → String} {epoch : String} {containment : Option Fields} :
    Kept digest epoch [] { containment } where
  keys := List.nodup_nil
  filed := fun _ _ => rfl
  named := fun _ => rfl
  audits := by simp

/-- For every run of puts and releases under one epoch: `find` returns a hold exactly
where a cause is left, a call adds or releases one cause and leaves the others, every
cause stays in the record, and the predicate of the task query agrees with `find`.
Every active cause can be released exactly when the active causes of each place have
different evidence, as they have when every put kept its evidence apart. -/
theorem holdsCompose {digest : Audit → String} {epoch : String} {events : List Event}
    {containment : Option Fields} {ledger : Ledger}
    (run : Run (Step digest epoch) { containment } events ledger)
    (collisionFree : CollisionFree digest ledger) :
    (∀ runtime scope identity, runtime.epoch = epoch → identity ≠ "" →
      ∃ found, find (some runtime) ledger (atPlace scope identity) = .ok found ∧
        (found.isSome = true ↔
          ∃ cause ∈ recorded epoch events scope identity, cause.release = none)) ∧
    (∀ event next, Step digest epoch ledger event next →
      Composes epoch (causesAt ledger event.place.1 event.place.2)
        (causesAt next event.place.1 event.place.2) event ∧
      ∀ scope identity, event.place ≠ (scope, identity) →
        causesAt next scope identity = causesAt ledger scope identity) ∧
    (∀ scope identity reason evidenceSha256 nextCondition,
      Event.put scope identity reason evidenceSha256 nextCondition ∈ events →
      ∃ cause ∈ causesAt ledger scope identity,
        cause.reason = reason ∧ cause.evidenceSha256 = evidenceSha256) ∧
    (∀ runtime source task host, runtime.epoch = epoch → source ≠ some "" → task ≠ some "" →
      (taskPredicate (some runtime) ledger source task host = false ↔
        ∃ hold, find (some runtime) ledger (ofTask source task host) = .ok (some hold))) ∧
    (Releasable digest epoch ledger ↔
      ∀ scope identity, DistinctEvidence (causesAt ledger scope identity)) ∧
    ((∀ past event later, events = past ++ event :: later → Separate epoch past event) →
      Releasable digest epoch ledger) := by
  have kept : Kept digest epoch events ledger :=
    run.invariant_history (Kept digest epoch) (fun _ _ _ _ step kept => kept.step step) kept_start
  refine ⟨?_, ?_, ?_, ?_, kept.releasable_iff collisionFree, ?_⟩
  · exact fun runtime scope identity same identified => kept.find_atPlace same identified
  · exact fun event next step =>
      ⟨kept.composes step, fun scope identity => kept.elsewhere step⟩
  · intro scope identity reason evidenceSha256 nextCondition put
    rw [kept.causesAt_eq]
    exact put_recorded put
  · intro runtime source task host same namedSource namedTask
    rw [kept.taskPredicate_iff same]
    have identified : ∀ scope ∈ [Scope.source, Scope.task],
        ofTask source task host scope ≠ some "" := by
      simp [ofTask, namedSource, namedTask]
    have ends : ∀ scope ∈ [Scope.unit], ofTask source task host scope = none := by
      simp [ofTask]
    have found := kept.findAmong_iff same .host identified ends
    refine Iff.trans ?_ found.symm
    constructor
    · rintro ⟨scope, identity, given, held⟩
      refine ⟨scope, ?_, identity, given, held⟩
      cases scope with
      | unit => simp [ofTask] at given
      | _ => simp
    · rintro ⟨scope, _, identity, given, held⟩
      exact ⟨scope, identity, given, held⟩
  · intro separate
    rw [kept.releasable_iff collisionFree]
    intro scope identity
    rw [kept.causesAt_eq]
    exact distinctEvidence_recorded separate scope identity

/-- Two gaps of one task that are put with their evidence. -/
private def gaps (first second : String) : List Event :=
  [.put .task "job" "first gap" first "review", .put .task "job" "second gap" second "review"]

private def gap (reason evidenceSha256 : String) : Cause :=
  activeCause "epoch" .task "job" reason evidenceSha256 "review"

private def gapReview (first second : String) : Review where
  current := gap "first gap" first
  causes := some [gap "first gap" first, gap "second gap" second]

private def gapLedger (first second : String) : Ledger where
  reviews := [(holdId .task "job", gapReview first second)]

private theorem gapRun (digest : Audit → String) {first second : String}
    (firstEvidence : isSha256 first = true) (secondEvidence : isSha256 second = true) :
    Run (Step digest "epoch") {} (gaps first second) (gapLedger first second) := by
  have one : put (.ok { epoch := "epoch", phase := .idle }) {} .task "job" "first gap" first
      "review" = .ok ({ reviews := [(holdId .task "job", { current := gap "first gap" first })] },
        gap "first gap" first) := by
    simp [put, firstEvidence, key, putReview, require, bind, Except.bind, pure, Except.pure, gap]
  have two : put (.ok { epoch := "epoch", phase := .idle })
      { reviews := [(holdId .task "job", { current := gap "first gap" first })] } .task "job"
      "second gap" second "review" = .ok (gapLedger first second, gap "second gap" second) := by
    simp [put, secondEvidence, key, putReview, addCause, require, bind, Except.bind, pure,
      Except.pure, gap, gapLedger, gapReview, lookup_cons, activeCause, Review.allCauses,
      Cause.boundTo, Cause.active, assign, List.find?_cons]
  exact .cons (.put one) (.single (.put two))

private theorem gapCauses (first second : String) :
    causesAt (gapLedger first second) .task "job" =
      [gap "first gap" first, gap "second gap" second] := by
  simp [causesAt, gapLedger, lookup_cons, gapReview, Review.allCauses]

private theorem evidence_ofList (letter : Char) (hexadecimal :
    (letter.isDigit || (decide ('a' ≤ letter) && decide (letter ≤ 'f'))) = true) :
    isSha256 (String.ofList (List.replicate 64 letter)) = true :=
  isSha256_replicate hexadecimal

theorem holdsCompose_gaps :
    Releasable (fun _ => "") "epoch" (gapLedger (String.ofList (List.replicate 64 'a'))
      (String.ofList (List.replicate 64 'b'))) := by
  have different : String.ofList (List.replicate 64 'a') ≠ String.ofList (List.replicate 64 'b') := by
    rw [Ne, String.ofList_inj]
    decide
  have run := gapRun (fun _ => "") (evidence_ofList 'a' rfl) (evidence_ofList 'b' rfl)
  generalize String.ofList (List.replicate 64 'a') = first at run different ⊢
  generalize String.ofList (List.replicate 64 'b') = second at run different ⊢
  have collisionFree : CollisionFree (fun _ => "") (gapLedger first second) := by
    simp [CollisionFree, gapLedger]
  apply (holdsCompose run collisionFree).2.2.2.2.2
  intro past event later same
  cases past with
  | nil =>
    rcases List.cons.inj same with ⟨rfl, _⟩
    simp [Separate, recorded]
  | cons earlier past =>
    rcases List.cons.inj same with ⟨rfl, rest⟩
    cases past with
    | nil =>
      rcases List.cons.inj rest with ⟨rfl, _⟩
      simp [Separate, recorded, record, activeCause, different]
    | cons other past => simp at rest

/-- Two causes of one evidence: no release takes either of them away. -/
theorem holdsCompose_counterexample :
    ¬ ∀ (digest : Audit → String) (epoch : String) (events : List Event)
      (containment : Option Fields) (ledger : Ledger),
      Run (Step digest epoch) { containment } events ledger → CollisionFree digest ledger →
      Releasable digest epoch ledger := by
  intro claimed
  have evidence := evidence_ofList 'a' rfl
  generalize String.ofList (List.replicate 64 'a') = shared at evidence
  have run := gapRun (fun _ => "") evidence evidence
  have collisionFree : CollisionFree (fun _ => "") (gapLedger shared shared) := by
    simp [CollisionFree, gapLedger]
  have releasable := claimed _ _ _ _ _ run collisionFree
  have kept := run.invariant_history (Kept (fun _ => "") "epoch")
    (fun _ _ _ _ step kept => kept.step step) kept_start
  have distinct := (kept.releasable_iff collisionFree).mp releasable .task "job"
  rw [gapCauses] at distinct
  simp [DistinctEvidence, Cause.active, gap, activeCause, List.filter_cons] at distinct

end JobAgg.RuntimeHolds
