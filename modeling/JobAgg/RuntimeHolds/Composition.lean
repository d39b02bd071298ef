import JobAgg.Foundation.Run
import JobAgg.RuntimeHolds.RuntimeHolds

/-! # How holds compose

The causes that were put at a scope and identity, with those released among them,
are a fold over the calls. The ledger keeps exactly this list.
-/

namespace JobAgg.RuntimeHolds

theorem holdId_inj {scope other : Scope} {identity name : String} :
    holdId scope identity = holdId other name ↔ scope = other ∧ identity = name := by
  constructor
  · intro same
    have scopes : scope = other := by
      have letters := congrArg String.toList same
      simp only [holdId, String.toList_append] at letters
      -- the scopes differ in their first letter
      cases scope <;> cases other <;> first | rfl | simp [Scope.text] at letters
    subst scopes
    simpa [holdId] using same
  · rintro ⟨rfl, rfl⟩
    rfl

@[simp] theorem get_released {review : Review} :
    Json.get "released" review.fields = if review.current.active then .null else .bool true := by
  cases release : review.current.release <;> cases causes : review.causes <;>
    simp [Review.fields, Cause.fields, Cause.reviewed, Cause.active, Json.get, lookup_cons,
      release, causes]

@[simp] theorem get_epoch {review : Review} :
    Json.get "epoch" review.fields = .string review.current.epoch := by
  simp [Review.fields, Cause.fields, Cause.reviewed, Json.get, lookup_cons]

inductive Event
  | put (scope : Scope) (identity reason evidenceSha256 nextCondition : String)
  | release (scope : Scope) (identity expectedEvidenceSha256 reviewSha256 correction : String)

/-- The calls that return, under one epoch. -/
inductive Step (digest : Audit → String) (epoch : String) : Ledger → Event → Ledger → Prop
  | put {ledger next : Ledger} {phase : Phase} {scope : Scope}
      {identity reason evidenceSha256 nextCondition : String} {cause : Cause}
      (done : RuntimeHolds.put (.ok { epoch, phase }) ledger scope identity reason evidenceSha256
        nextCondition = .ok (next, cause)) :
      Step digest epoch ledger (.put scope identity reason evidenceSha256 nextCondition) next
  | release {ledger next : Ledger} {phase : Phase} {scope : Scope}
      {identity expectedEvidenceSha256 reviewSha256 correction : String} {cause : Cause}
      (done : RuntimeHolds.release digest (.ok { epoch, phase }) ledger scope identity
        expectedEvidenceSha256 reviewSha256 correction = .ok (next, cause)) :
      Step digest epoch ledger
        (.release scope identity expectedEvidenceSha256 reviewSha256 correction) next

/-- A cause is put once, and released by its evidence; no cause leaves the list. -/
def record (epoch : String) (scope : Scope) (identity : String) (causes : List Cause) :
    Event → List Cause
  | .put at_ name reason evidenceSha256 nextCondition =>
    if at_ = scope ∧ name = identity ∧
        ¬ causes.any (fun cause =>
          cause.evidenceSha256 == evidenceSha256 && cause.reason == reason) then
      causes ++ [activeCause epoch scope identity reason evidenceSha256 nextCondition]
    else causes
  | .release at_ name expectedEvidenceSha256 reviewSha256 correction =>
    if at_ = scope ∧ name = identity then
      updateWhere (names expectedEvidenceSha256)
        (fun cause => { cause with release := some { reviewSha256, correction } }) causes
    else causes

def recorded (epoch : String) (events : List Event) (scope : Scope) (identity : String) :
    List Cause :=
  events.foldl (record epoch scope identity) []

/-- A review keeps a list of causes, and its first active one at the top. -/
structure Represents (epoch : String) (scope : Scope) (identity : String) (causes : List Cause)
    (review : Review) : Prop where
  bound : ∀ cause ∈ causes, cause.schema = schema ∧ cause.boundTo epoch scope identity = true
  kept : review.allCauses = causes
  member : review.current ∈ causes
  first : ∀ first ∈ causes.find? Cause.active, review.current = first

def causesAt (ledger : Ledger) (scope : Scope) (identity : String) : List Cause :=
  ((lookup (holdId scope identity) ledger.reviews).map Review.allCauses).getD []

section Represents

variable {epoch : String} {scope : Scope} {identity : String} {causes : List Cause}
  {review : Review}

theorem Represents.active_iff (represents : Represents epoch scope identity causes review) :
    review.current.active = true ↔ ∃ cause ∈ causes, cause.active = true := by
  constructor
  · intro active
    exact ⟨review.current, represents.member, active⟩
  · rintro ⟨cause, member, active⟩
    cases found : causes.find? Cause.active with
    | none => exact absurd active (List.find?_eq_none.mp found cause member)
    | some first =>
      rw [represents.first first found]
      exact List.find?_some found

theorem represents_single {value : Cause} (bound : value.schema = schema ∧
    value.boundTo epoch scope identity = true) :
    Represents epoch scope identity [value] { current := value } where
  bound := by simpa using bound
  kept := rfl
  member := List.mem_singleton_self value
  first := by
    intro first found
    exact (List.mem_singleton.mp (List.mem_of_find?_eq_some found)).symm

theorem Represents.addCause {value cause : Cause} {changed : Option Review}
    (represents : Represents epoch scope identity causes review)
    (bound : value.schema = schema ∧ value.boundTo epoch scope identity = true)
    (added : addCause review value = .ok (changed, cause)) :
    changed = none ∧ causes.any (fun cause =>
        cause.evidenceSha256 == value.evidenceSha256 && cause.reason == value.reason) = true ∨
      causes.any (fun cause =>
        cause.evidenceSha256 == value.evidenceSha256 && cause.reason == value.reason) = false ∧
      ∃ next, changed = some next ∧
        Represents epoch scope identity (causes ++ [value]) next := by
  unfold RuntimeHolds.addCause at added
  rw [represents.kept] at added
  split at added
  · rename_i old found
    split at added
    · rw [Except.ok.injEq, Prod.mk.injEq] at added
      refine .inl ⟨added.1.symm, ?_⟩
      rw [List.any_eq_true]
      have same := List.find?_some found
      exact ⟨old, List.mem_of_find?_eq_some found, same⟩
    · simp at added
  · rename_i absent
    right
    constructor
    · rw [List.any_eq_false]
      exact List.find?_eq_none.mp absent
    split at added
    · simp at added
    dsimp only at added
    split at added
    · rename_i first found
      rw [Except.ok.injEq, Prod.mk.injEq] at added
      refine ⟨_, added.1.symm, ?_⟩
      constructor
      case bound =>
        intro other member
        rcases List.mem_append.mp member with old | new
        · exact represents.bound other old
        · rw [List.mem_singleton.mp new]
          exact bound
      case kept => rfl
      case member => exact List.mem_of_find?_eq_some found
      case first =>
        intro other same
        rw [found, Option.mem_some_iff] at same
        exact same
    · simp at added

theorem Represents.releaseCause {expected : String} {release : Release} {current : Review}
    {value : Cause} (represents : Represents epoch scope identity causes review)
    (released : releaseCause review expected release = .ok (current, value)) :
    (∃ before original after, causes = before ++ original :: after ∧
      names expected original = true ∧
      (∀ other ∈ before, names expected other = false) ∧
      (∀ other ∈ after, names expected other = false) ∧
      value = { original with release := some release }) ∧
    Represents epoch scope identity (updateWhere (names expected)
      (fun cause => { cause with release := some release }) causes) current := by
  unfold RuntimeHolds.releaseCause at released
  rw [represents.kept] at released
  split at released
  · rename_i original only
    rcases filter_eq_singleton_iff.mp only with
      ⟨before, after, rfl, named, notBefore, notAfter⟩
    have bound : ∀ cause ∈ before ++ { original with release := some release } :: after,
        cause.schema = schema ∧ cause.boundTo epoch scope identity = true := by
      have old := represents.bound
      simp only [List.mem_append, List.mem_cons] at old ⊢
      rintro cause (inBefore | rfl | inAfter)
      · exact old cause (.inl inBefore)
      · exact old original (.inr (.inl rfl))
      · exact old cause (.inr (.inr inAfter))
    dsimp only at released
    rw [updateWhere_alone named notBefore notAfter] at released ⊢
    split at released
    · rw [Except.ok.injEq, Prod.mk.injEq] at released
      rcases released with ⟨rfl, rfl⟩
      refine ⟨⟨before, original, after, rfl, named, notBefore, notAfter, rfl⟩, ?_⟩
      rw [List.head?_filter]
      constructor
      case bound => exact bound
      case kept => rfl
      case member =>
        cases found : (before ++ { original with release := some release } :: after).find?
            Cause.active with
        | none => simp
        | some first => exact List.mem_of_find?_eq_some found
      case first =>
        intro first found
        rw [Option.mem_def] at found
        simp [found]
    · rename_i short
      rw [Except.ok.injEq, Prod.mk.injEq] at released
      rcases released with ⟨rfl, rfl⟩
      refine ⟨⟨before, original, after, rfl, named, notBefore, notAfter, rfl⟩, ?_⟩
      have alone : before = [] ∧ after = [] := by
        simp only [List.length_append, List.length_cons] at short
        exact ⟨List.length_eq_zero_iff.mp (by omega), List.length_eq_zero_iff.mp (by omega)⟩
      rw [alone.1, alone.2] at bound ⊢
      exact represents_single (bound _ (List.mem_singleton_self _))
  · simp at released

end Represents

def Event.place : Event → Scope × String
  | put scope identity _ _ _ => (scope, identity)
  | release scope identity _ _ _ => (scope, identity)

theorem record_elsewhere {epoch : String} {scope : Scope} {identity : String}
    {causes : List Cause} {event : Event} (elsewhere : event.place ≠ (scope, identity)) :
    record epoch scope identity causes event = causes := by
  have apart : ¬ (event.place.1 = scope ∧ event.place.2 = identity) :=
    fun same => elsewhere (Prod.ext same.1 same.2)
  cases event with
  | put other name reason evidenceSha256 nextCondition =>
    exact if_neg fun same => apart ⟨same.1, same.2.1⟩
  | release other name expected review correction => exact if_neg apart

theorem recorded_concat {epoch : String} {scope : Scope} {identity : String}
    {events : List Event} {event : Event} :
    recorded epoch (events ++ [event]) scope identity =
      record epoch scope identity (recorded epoch events scope identity) event := by
  simp [recorded]

/-- What a row of the ledger, if there is one, says of the causes. -/
def Filed (epoch : String) (scope : Scope) (identity : String) (causes : List Cause) :
    Option Review → Prop
  | none => causes = []
  | some review => Represents epoch scope identity causes review

def releasedCount (causes : List Cause) : ℕ := causes.countP fun cause => !cause.active

/-- The ledger after a run. An audit is older than the review that it is about. -/
structure Kept (digest : Audit → String) (epoch : String) (events : List Event)
    (ledger : Ledger) : Prop where
  keys : (ledger.reviews.map Prod.fst).Nodup
  filed : ∀ scope identity, Filed epoch scope identity (recorded epoch events scope identity)
    (lookup (holdId scope identity) ledger.reviews)
  named : ∀ scope, recorded epoch events scope "" = []
  audits : ∀ row ∈ ledger.audits, row.1 = "runtime-hold-release/" ++ digest row.2 ∧
    releasedCount row.2.previous.allCauses < releasedCount
      (recorded epoch events row.2.previous.current.scope row.2.previous.current.identity)

section Steps

variable {digest : Audit → String} {epoch : String} {ledger next : Ledger} {scope : Scope}
  {identity : String} {causes : List Cause} {events : List Event} {phase : Phase}

theorem put_eq_ok {reason evidenceSha256 nextCondition : String} {cause : Cause}
    (done : put (.ok { epoch, phase }) ledger scope identity reason evidenceSha256
      nextCondition = .ok (next, cause)) :
    identity ≠ "" ∧ ∃ reviews, putReview ledger.reviews (holdId scope identity)
        (activeCause epoch scope identity reason evidenceSha256 nextCondition) =
          .ok (reviews, cause) ∧
      next = { ledger with reviews } := by
  simp only [put, key, bind_eq_ok, require_eq_ok, pure_eq_ok, Except.ok.injEq] at done
  rcases done with ⟨_, rfl, _, _, _, _, runId, ⟨_, named, rfl⟩, ⟨reviews, _⟩, filed, same⟩
  rw [Prod.mk.injEq] at same
  exact ⟨by simpa using named, reviews, same.2 ▸ filed, same.1.symm⟩

theorem putReview_eq_ok {reviews changed : List (String × Review)} {value cause : Cause}
    (bound : value.schema = schema ∧ value.boundTo epoch scope identity = true)
    (filed : Filed epoch scope identity causes (lookup (holdId scope identity) reviews))
    (done : putReview reviews (holdId scope identity) value = .ok (changed, cause)) :
    changed = reviews ∧ causes.any (fun cause =>
        cause.evidenceSha256 == value.evidenceSha256 && cause.reason == value.reason) = true ∨
      causes.any (fun cause =>
        cause.evidenceSha256 == value.evidenceSha256 && cause.reason == value.reason) = false ∧
      ∃ review, changed = assign (holdId scope identity) review reviews ∧
        Represents epoch scope identity (causes ++ [value]) review := by
  unfold putReview at done
  split at done
  · rename_i absent
    rw [Except.ok.injEq, Prod.mk.injEq] at done
    rw [absent] at filed
    subst filed
    right
    refine ⟨rfl, _, ?_, represents_single bound⟩
    rw [assign_of_lookup_none absent, ← done.1]
  · rename_i old found
    rw [found] at filed
    split at done
    · rcases bind_eq_ok.mp done with ⟨⟨review, _⟩, added, same⟩
      rw [pure_eq_ok, Prod.mk.injEq] at same
      rcases Represents.addCause filed bound added with
        ⟨rfl, seen⟩ | ⟨fresh, next, rfl, represents⟩
      · exact .inl ⟨same.1.symm, seen⟩
      · exact .inr ⟨fresh, next, same.1.symm, represents⟩
    · simp at done

theorem release_eq_ok {expected reviewSha256 correction : String} {value : Cause}
    (done : release digest (.ok { epoch, phase }) ledger scope identity expected reviewSha256
      correction = .ok (next, value)) :
    identity ≠ "" ∧ ∃ previous current,
      lookup (holdId scope identity) ledger.reviews = some previous ∧
      previous.current.boundTo epoch scope identity = true ∧
      releaseCause previous expected { reviewSha256, correction } = .ok (current, value) ∧
      next.reviews = assign (holdId scope identity) current ledger.reviews ∧
      next.audits = ledger.audits ++
        [("runtime-hold-release/" ++ digest ⟨previous, current⟩, ⟨previous, current⟩)] := by
  simp only [release, key, bind_eq_ok, require_eq_ok, pure_eq_ok, Except.ok.injEq] at done
  rcases done with ⟨_, rfl, _, _, runId, ⟨_, named, rfl⟩, previous, found, _, bound,
    ⟨current, _⟩, released, _, _, same⟩
  rw [Prod.mk.injEq] at same
  rcases same with ⟨rfl, rfl⟩
  simp only [Bool.and_eq_true] at bound
  refine ⟨by simpa using named, previous, current, ?_, bound.2, released, rfl, rfl⟩
  cases row : lookup (holdId scope identity) ledger.reviews with
  | none => simp [row] at found
  | some review => simpa [row] using found

theorem releasedCount_le_record {event : Event} :
    releasedCount causes ≤ releasedCount (record epoch scope identity causes event) := by
  cases event with
  | put other name reason evidenceSha256 nextCondition =>
    simp only [record]
    split
    · simp [releasedCount, List.countP_append]
    · exact le_rfl
  | release other name expected review correction =>
    simp only [record]
    split
    · unfold releasedCount updateWhere
      rw [List.countP_map]
      apply List.countP_mono_left
      intro cause _ released
      simp only [Function.comp_apply]
      split
      · rfl
      · exact released
    · exact le_rfl

theorem record_release {expected reviewSha256 correction : String} {before after : List Cause}
    {original : Cause} (named : names expected original = true)
    (notBefore : ∀ other ∈ before, names expected other = false)
    (notAfter : ∀ other ∈ after, names expected other = false) :
    record epoch scope identity (before ++ original :: after)
        (.release scope identity expected reviewSha256 correction) =
      before ++ { original with release := some { reviewSha256, correction } } :: after := by
  simp only [record, and_self, if_true]
  exact updateWhere_alone named notBefore notAfter

theorem filed_assign {event : Event} {review : Review} {reviews : List (String × Review)}
    (place : event.place = (scope, identity))
    (filed : ∀ scope identity, Filed epoch scope identity (recorded epoch events scope identity)
      (lookup (holdId scope identity) reviews))
    (represents : Represents epoch scope identity
      (record epoch scope identity (recorded epoch events scope identity) event) review)
    (other : Scope) (name : String) :
    Filed epoch other name (recorded epoch (events ++ [event]) other name)
      (lookup (holdId other name) (assign (holdId scope identity) review reviews)) := by
  rw [recorded_concat]
  by_cases same : (scope, identity) = (other, name)
  · rcases Prod.mk.inj same with ⟨rfl, rfl⟩
    rw [lookup_assign_self]
    exact represents
  · rw [record_elsewhere (place ▸ same), lookup_assign_of_ne]
    · exact filed other name
    · intro equal
      rcases holdId_inj.mp equal with ⟨rfl, rfl⟩
      exact same rfl

theorem Kept.step {event : Event} (kept : Kept digest epoch events ledger)
    (step : Step digest epoch ledger event next) :
    Kept digest epoch (events ++ [event]) next := by
  have older : ∀ row ∈ ledger.audits, row.1 = "runtime-hold-release/" ++ digest row.2 ∧
      releasedCount row.2.previous.allCauses < releasedCount (recorded epoch (events ++ [event])
        row.2.previous.current.scope row.2.previous.current.identity) := by
    intro row member
    have behind := kept.audits row member
    rw [recorded_concat]
    exact ⟨behind.1, lt_of_lt_of_le behind.2 releasedCount_le_record⟩
  have identities : event.place.2 ≠ "" → ∀ scope, recorded epoch (events ++ [event]) scope "" = [] := by
    intro place scope
    rw [recorded_concat, record_elsewhere, kept.named]
    intro same
    exact place (congrArg Prod.snd same)
  cases step with
  | @put _ _ scope identity reason evidenceSha256 nextCondition _ done =>
    rcases put_eq_ok done with ⟨identified, reviews, filed, rfl⟩
    have bound : Cause.boundTo
        (activeCause epoch scope identity reason evidenceSha256 nextCondition) epoch scope
          identity = true := by simp [Cause.boundTo, activeCause]
    rcases putReview_eq_ok ⟨rfl, bound⟩ (kept.filed scope identity) filed with
      ⟨rfl, seen⟩ | ⟨fresh, review, rfl, represents⟩
    · constructor
      case keys => exact kept.keys
      case filed =>
        intro other name
        rw [recorded_concat]
        have unchanged : record epoch other name (recorded epoch events other name)
            (.put scope identity reason evidenceSha256 nextCondition) =
              recorded epoch events other name := by
          apply if_neg
          rintro ⟨rfl, rfl, fresh⟩
          exact fresh seen
        rw [unchanged]
        exact kept.filed other name
      case named => exact identities identified
      case audits => exact older
    · have added : record epoch scope identity (recorded epoch events scope identity)
          (.put scope identity reason evidenceSha256 nextCondition) =
            recorded epoch events scope identity ++
              [activeCause epoch scope identity reason evidenceSha256 nextCondition] := by
        apply if_pos
        exact ⟨rfl, rfl, Bool.eq_false_iff.mp fresh⟩
      constructor
      case keys => exact nodup_keys_assign kept.keys
      case filed => exact filed_assign rfl kept.filed (added ▸ represents)
      case named => exact identities identified
      case audits => exact older
  | @release _ _ scope identity expected reviewSha256 correction _ done =>
    rcases release_eq_ok done with
      ⟨identified, previous, current, found, bound, released, reviews, audits⟩
    have filed := kept.filed scope identity
    rw [found] at filed
    rcases Represents.releaseCause filed released with
      ⟨⟨before, original, after, causes, named, notBefore, notAfter, _⟩, represents⟩
    constructor
    case keys =>
      rw [reviews]
      exact nodup_keys_assign kept.keys
    case named => exact identities identified
    case filed =>
      rw [reviews]
      apply filed_assign rfl kept.filed
      simpa only [record, and_self, if_true] using represents
    case audits =>
      rw [audits]
      intro row member
      rcases List.mem_append.mp member with old | new
      · exact older row old
      · rw [List.mem_singleton.mp new]
        simp only [Cause.boundTo, Bool.and_eq_true, beq_iff_eq] at bound
        rw [bound.1.2, bound.2, recorded_concat, filed.kept, causes,
          record_release named notBefore notAfter]
        have active : original.active = true := (Bool.and_eq_true_iff.mp named).2
        have inactive : Cause.active
            { original with release := some { reviewSha256, correction } } = false := rfl
        refine ⟨rfl, ?_⟩
        simp only [releasedCount, List.countP_append, List.countP_cons, active, inactive,
          Bool.not_true, Bool.not_false, if_true, Bool.false_eq_true, if_false]
        omega

end Steps

section Readers

variable {digest : Audit → String} {epoch : String} {events : List Event} {ledger : Ledger}
  {runtime : Runtime} {scope : Scope} {identity : String}

/-- Some cause at the place has not been released. -/
def Held (epoch : String) (events : List Event) (scope : Scope) (identity : String) : Prop :=
  ∃ cause ∈ recorded epoch events scope identity, cause.release = none

theorem Kept.represented (kept : Kept digest epoch events ledger) {review : Review}
    (found : lookup (holdId scope identity) ledger.reviews = some review) :
    Represents epoch scope identity (recorded epoch events scope identity) review := by
  have filed := kept.filed scope identity
  rw [found] at filed
  exact filed

theorem Kept.causesAt_eq (kept : Kept digest epoch events ledger) (scope : Scope)
    (identity : String) : causesAt ledger scope identity = recorded epoch events scope identity := by
  unfold causesAt
  cases found : lookup (holdId scope identity) ledger.reviews with
  | none =>
    have filed := kept.filed scope identity
    rw [found] at filed
    exact filed.symm
  | some review => exact (kept.represented found).kept

theorem Represents.held_iff {review : Review}
    (represents : Represents epoch scope identity (recorded epoch events scope identity) review) :
    Held epoch events scope identity ↔ review.current.active = true := by
  rw [represents.active_iff]
  simp only [Held, Cause.active, Option.isNone_iff_eq_none]

theorem Kept.not_held (kept : Kept digest epoch events ledger)
    (absent : lookup (holdId scope identity) ledger.reviews = none) :
    ¬ Held epoch events scope identity := by
  have filed := kept.filed scope identity
  rw [absent] at filed
  rintro ⟨cause, member, _⟩
  rw [show recorded epoch events scope identity = [] from filed] at member
  simp at member

theorem Kept.findAmong_cons (kept : Kept digest epoch events ledger) (same : runtime.epoch = epoch)
    {subject : Scope → Option String} (scopes : List Scope) (given : subject scope = some identity)
    (identified : identity ≠ "") :
    (Held epoch events scope identity ∧
      ∃ review, findAmong (some runtime) ledger subject (scope :: scopes) = .ok (some review)) ∨
    (¬ Held epoch events scope identity ∧
      findAmong (some runtime) ledger subject (scope :: scopes) =
        findAmong (some runtime) ledger subject scopes) := by
  have named : key scope identity = .ok (holdId scope identity) := by
    simp [key, identified, require, bind, Except.bind, pure, Except.pure]
  rw [findAmong, given]
  dsimp only
  rw [named, ok_bind]
  cases found : lookup (holdId scope identity) ledger.reviews with
  | none => exact .inr ⟨kept.not_held found, rfl⟩
  | some review =>
    have represents := kept.represented found
    have bound := represents.bound review.current represents.member
    have accepted : (review.current.schema == schema && (some runtime).any fun state =>
        review.current.boundTo state.epoch scope identity) = true := by
      simp [bound.1, same, bound.2]
    dsimp only
    rw [accepted, represents.held_iff]
    cases active : review.current.active with
    | true =>
      left
      refine ⟨rfl, review, ?_⟩
      simp [active, require, bind, Except.bind, Json.isTrue, pure, Except.pure]
    | false =>
      right
      refine ⟨by simp, ?_⟩
      simp [active, require, bind, Except.bind, Json.isTrue]

theorem findAmong_none {subject : Scope → Option String} {scopes : List Scope}
    (given : subject scope = none) :
    findAmong (some runtime) ledger subject (scope :: scopes) =
      findAmong (some runtime) ledger subject scopes := by
  rw [findAmong, given]

theorem Kept.standing_iff (kept : Kept digest epoch events ledger) :
    (∃ row ∈ ledger.reviews, row.1 = holdId scope identity ∧
      standing row.2.fields (some epoch) = true) ↔ Held epoch events scope identity := by
  have active : ∀ {review : Review}, Represents epoch scope identity
      (recorded epoch events scope identity) review →
      standing review.fields (some epoch) = review.current.active := by
    intro review represents
    have bound := (represents.bound review.current represents.member).2
    simp only [Cause.boundTo, Bool.and_eq_true, beq_iff_eq] at bound
    cases active : review.current.active <;>
      simp [standing, releasedColumn, epochColumn, active, bound.1.1]
  constructor
  · rintro ⟨row, member, named, stands⟩
    have found : lookup (holdId scope identity) ledger.reviews = some row.2 :=
      lookup_eq_some_of_mem kept.keys (named ▸ member)
    have represents := kept.represented found
    rw [represents.held_iff, ← active represents]
    exact stands
  · intro held
    cases found : lookup (holdId scope identity) ledger.reviews with
    | none => exact absurd held (kept.not_held found)
    | some review =>
      have represents := kept.represented found
      refine ⟨(holdId scope identity, review), mem_of_lookup_eq_some found, rfl, ?_⟩
      rw [active represents, ← represents.held_iff]
      exact held

def ofTask (source task host : Option String) : Scope → Option String
  | .source => source
  | .task => task
  | .host => host
  | .unit => none

theorem Kept.taskPredicate_iff (kept : Kept digest epoch events ledger)
    (same : runtime.epoch = epoch) {source task host : Option String} :
    taskPredicate (some runtime) ledger source task host = false ↔
      ∃ scope identity, ofTask source task host scope = some identity ∧
        Held epoch events scope identity := by
  have row : ∀ (scope : Scope) (column : Option String),
      (ledger.reviews.any fun row =>
        column.any (fun identity => row.1 == holdId scope identity) &&
          standing row.2.fields ((some runtime).map Runtime.epoch)) = true ↔
      ∃ identity, column = some identity ∧ Held epoch events scope identity := by
    intro scope column
    cases column with
    | none => simp
    | some identity =>
      rw [Option.map_some, same]
      simp only [Option.any_some, List.any_eq_true, Bool.and_eq_true, beq_iff_eq,
        Option.some.injEq, exists_eq_left', ← kept.standing_iff]
  simp only [taskPredicate, List.all_cons, List.all_nil, Bool.and_true, Bool.and_eq_false_iff,
    Bool.not_eq_false', row]
  constructor
  · rintro (⟨identity, given, held⟩ | ⟨identity, given, held⟩ | ⟨identity, given, held⟩)
    · exact ⟨.source, identity, given, held⟩
    · exact ⟨.task, identity, given, held⟩
    · exact ⟨.host, identity, given, held⟩
  · rintro ⟨scope, identity, given, held⟩
    cases scope with
    | source => exact .inl ⟨identity, given, held⟩
    | task => exact .inr (.inl ⟨identity, given, held⟩)
    | host => exact .inr (.inr ⟨identity, given, held⟩)
    | unit => simp [ofTask] at given

theorem findAmong_of_none (runtime : Runtime) (ledger : Ledger)
    {subject : Scope → Option String} {scopes : List Scope}
    (none : ∀ scope ∈ scopes, subject scope = none) :
    findAmong (some runtime) ledger subject scopes = .ok .none := by
  induction scopes with
  | nil => rfl
  | cons scope scopes induction =>
    rw [findAmong_none (none scope List.mem_cons_self)]
    exact induction fun other member => none other (List.mem_cons_of_mem _ member)

theorem Kept.findAmong_iff (kept : Kept digest epoch events ledger)
    (same : runtime.epoch = epoch) {subject : Scope → Option String} {scopes rest : List Scope}
    (last : Scope) (identified : ∀ scope ∈ scopes, subject scope ≠ some "")
    (ends : ∀ scope ∈ rest, subject scope = none) :
    (∃ hold, findAmong (some runtime) ledger subject (scopes ++ last :: rest) =
        .ok (some hold)) ↔
      ∃ scope ∈ scopes ++ [last], ∃ identity, subject scope = some identity ∧
        Held epoch events scope identity := by
  induction scopes with
  | nil =>
    have clearRest := findAmong_of_none runtime ledger ends
    simp only [List.nil_append, List.mem_singleton, exists_eq_left]
    cases given : subject last with
    | none =>
      rw [findAmong_none given, clearRest]
      simp
    | some identity =>
      by_cases empty : identity = ""
      · subst empty
        simp [findAmong, given, key, require, bind, Except.bind, Held, kept.named]
      · rcases kept.findAmong_cons same rest given empty with
          ⟨held, review, found⟩ | ⟨clear, found⟩
        · simp [found, held]
        · rw [found, clearRest]
          simp [clear]
  | cons scope scopes induction =>
    have later := induction fun other member => identified other (List.mem_cons_of_mem _ member)
    have head := identified scope List.mem_cons_self
    rw [List.cons_append, List.cons_append]
    simp only [List.mem_cons, exists_eq_or_imp]
    cases given : subject scope with
    | none =>
      rw [findAmong_none given, later]
      simp
    | some identity =>
      have nonempty : identity ≠ "" := by
        rintro rfl
        exact head given
      rcases kept.findAmong_cons same (scopes ++ last :: rest) given nonempty with
        ⟨held, review, found⟩ | ⟨clear, found⟩
      · simp [found, held]
      · rw [found, later]
        simp [clear]

end Readers

end JobAgg.RuntimeHolds
