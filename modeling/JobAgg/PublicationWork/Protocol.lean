import Mathlib.Tactic.NormNum
import JobAgg.Foundation.Run
import JobAgg.PublicationWork.Transitions

/-! # Acknowledgements and newer work

The dirty tables under any interleaving of producers and consumers. A selection
may be acknowledged at any time after it was taken, any number of times; it
clears exactly the versions it holds, and everything recorded since stays.
-/

namespace JobAgg.PublicationWork

section Select

variable {policy : AdmissionPolicy} {environment : Environment}

theorem Progress.visit_chosen {progress next : Progress} {row : CurrentRow}
    (visited : progress.visit policy environment row = .ok next) :
    next.chosen = progress.chosen ∨ next.chosen = progress.chosen ++ [row] := by
  unfold Progress.visit at visited
  rcases bind_eq_ok.mp visited with ⟨reason, _, visited⟩
  dsimp only at visited
  -- one branch chooses the row, all others hold it or pass over it
  repeat' split at visited
  all_goals rw [pure_eq_ok] at visited
  all_goals simp [← visited, Progress.hold]

theorem Progress.run_chosen {rows : List CurrentRow} {index : ℕ} {progress last : Progress}
    (ran : Progress.run policy environment index progress rows = .ok last) :
    ∀ row ∈ last.chosen, row ∈ progress.chosen ∨ row ∈ rows := by
  induction rows generalizing index progress with
  | nil =>
    simp only [Progress.run, Except.ok.injEq] at ran
    exact fun row member => .inl (ran ▸ member)
  | cons first rows induction =>
    unfold Progress.run at ran
    split at ran
    · simp only [Except.ok.injEq] at ran
      exact fun row member => .inl (ran ▸ member)
    · rcases bind_eq_ok.mp ran with ⟨next, visited, ran⟩
      have fromNext : ∀ row ∈ next.chosen, row ∈ progress.chosen ∨ row ∈ first :: rows := by
        intro row member
        rcases Progress.visit_chosen visited with same | more
        · exact .inl (same ▸ member)
        · rw [more] at member
          rcases List.mem_append.mp member with old | new
          · exact .inl old
          · exact .inr (by simp [List.mem_singleton.mp new])
      split at ran
      · rw [pure_eq_ok] at ran
        exact ran ▸ fromNext
      · intro row member
        rcases induction ran row member with chosen | later
        · exact fromNext row chosen
        · exact .inr (List.mem_cons_of_mem _ later)

variable {store : Store}

theorem mem_candidates {sources : List String} {row : CurrentRow}
    (member : row ∈ store.candidates policy sources) : row ∈ store.current := by
  unfold Store.candidates at member
  suffices collected : ∀ (cohorts : List String) (rows : List CurrentRow),
      (∀ row ∈ rows, row ∈ store.current) →
      ∀ row ∈ cohorts.foldl (fun rows source =>
        rows ++ (((store.pendingOf source).filter fun row =>
          store.versions.any (·.version == row.version)).take
            (policy.maxCandidates - rows.length))) rows, row ∈ store.current from
    collected _ [] (by simp) row member
  intro cohorts
  induction cohorts with
  | nil => exact fun rows stored => stored
  | cons source cohorts induction =>
    intro rows stored
    apply induction
    intro row member
    rcases List.mem_append.mp member with old | new
    · exact stored row old
    · have pending := (List.mem_filter.mp (List.mem_of_mem_take new)).1
      have filtered := List.mem_filter.mp (orderBy_perm.subset pending)
      exact (List.mem_filter.mp filtered.1).1

theorem mem_units_of_select {contractSha256 : String} {selection : Selection}
    (selected : store.select policy contractSha256 environment = .ok selection)
    {row : CurrentRow} (member : row ∈ selection.units) : row ∈ store.current := by
  unfold Store.select at selected
  simp only [require_bind_eq_ok] at selected
  rcases selected with ⟨_, _, selected⟩
  rcases bind_eq_ok.mp selected with ⟨work, _, selected⟩
  simp only [require_bind_eq_ok] at selected
  rcases bind_eq_ok.mp selected.2 with ⟨progress, ran, selected⟩
  rw [pure_eq_ok] at selected
  rw [← selected] at member
  rcases Progress.run_chosen ran row member with chosen | candidate
  · simp at chosen
  · exact mem_candidates candidate

end Select

/-- `next` differs from `store` by dispositions only, and every row that it has
newly acknowledged is allowed to be. -/
structure Store.Clears (allowed : String → ℕ → Prop) (store next : Store) : Prop where
  keepsTime : store.KeepsTime next
  versions : next.versions = store.versions
  tracked : Tracked store.versions store.current → Tracked next.versions next.current
  acknowledged : ∀ row ∈ next.current, row.disposition = .acknowledged →
    row ∈ store.current ∨ allowed row.unit row.version

namespace Store.Clears

variable {allowed : String → ℕ → Prop} {store middle next : Store}

theorem refl : store.Clears allowed store where
  keepsTime := ⟨rfl, rfl, rfl⟩
  versions := rfl
  tracked := fun tracked => tracked
  acknowledged := fun _ member _ => .inl member

theorem trans (first : store.Clears allowed middle) (second : middle.Clears allowed next) :
    store.Clears allowed next where
  keepsTime := {
    transitions := second.keepsTime.transitions.trans first.keepsTime.transitions
    listings := second.keepsTime.listings.trans first.keepsTime.listings
    freshness := second.keepsTime.freshness.trans first.keepsTime.freshness }
  versions := second.versions.trans first.versions
  tracked := fun tracked => second.tracked (first.tracked tracked)
  acknowledged := by
    intro row member cleared
    rcases second.acknowledged row member cleared with earlier | now
    · exact first.acknowledged row earlier cleared
    · exact .inr now

theorem foldl {Item : Type*} {step : Store → Item → Store} {items : List Item}
    (clears : ∀ store, ∀ item ∈ items, Store.Clears allowed store (step store item)) :
    store.Clears allowed (items.foldl step store) := by
  induction items generalizing store with
  | nil => exact refl
  | cons item items induction =>
    apply (clears store item List.mem_cons_self).trans
    apply induction
    exact fun store other member => clears store other (List.mem_cons_of_mem _ member)

theorem updateVersion {unit : String} {version : ℕ} {update : CurrentRow → CurrentRow}
    (sameUnit : ∀ row, (update row).unit = row.unit)
    (sameVersion : ∀ row, (update row).version = row.version)
    (permitted : ∀ row, (update row).disposition = .acknowledged → allowed unit version) :
    store.Clears allowed (store.updateVersion unit version update) where
  keepsTime := ⟨rfl, rfl, rfl⟩
  versions := rfl
  tracked := fun tracked => tracked.updateWhere sameUnit sameVersion
  acknowledged := by
    intro row member cleared
    rcases mem_updateWhere.mp member with ⟨old, oldMember, rfl⟩
    split at cleared
    · rename_i selected
      rw [if_pos selected]
      right
      have selectedKey : old.unit = unit ∧ old.version = version := by simpa using selected
      rw [sameUnit, sameVersion, selectedKey.1, selectedKey.2]
      exact permitted old cleared
    · rename_i other
      rw [if_neg other]
      exact .inl oldMember

end Store.Clears

def Selection.Processes (selection : Selection) (processedUnits : List (String × ℕ))
    (unit : String) (version : ℕ) : Prop :=
  (unit, version) ∈ processedUnits ∧
    ∃ row ∈ selection.units, row.unit = unit ∧ row.version = version

theorem clears_acknowledge {store next : Store} {selection : Selection}
    {hold : String → String → Except String (Option String)} {resultSha256 : String}
    {processedUnits : List (String × ℕ)} {rejected : List Rejection}
    (acknowledged : store.acknowledge selection hold resultSha256 processedUnits rejected =
      .ok next) : store.Clears (selection.Processes processedUnits) next := by
  unfold Store.acknowledge at acknowledged
  rcases bind_eq_ok.mp acknowledged with ⟨_, _, acknowledged⟩
  simp only [require_bind_eq_ok, pure_eq_ok] at acknowledged
  rw [← acknowledged.2]
  have rows : ∀ store : Store, store.Clears (selection.Processes processedUnits)
      ((selection.processed processedUnits).foldl
        (fun store row => store.acknowledgeRow row rejected resultSha256) store) := by
    intro store
    apply Store.Clears.foldl
    intro store row member
    have selected := List.mem_filter.mp member
    apply Store.Clears.updateVersion
    · exact fun _ => rfl
    · exact fun _ => rfl
    · exact fun _ _ => ⟨by simpa using selected.2, row, selected.1, rfl, rfl⟩
  have served : ∀ store : Store, store.Clears (selection.Processes processedUnits)
      ((selection.processed processedUnits).foldl
        (fun store row => store.serve row.sourceId row.version) store) := by
    intro store
    apply Store.Clears.foldl
    intro store row member
    exact ⟨⟨rfl, rfl, rfl⟩, rfl, fun tracked => tracked, fun _ kept _ => .inl kept⟩
  have held : ∀ store : Store, store.Clears (selection.Processes processedUnits)
      (selection.held.foldl Store.holdRow store) := by
    intro store
    apply Store.Clears.foldl
    intro store held member
    apply Store.Clears.updateVersion
    · exact fun _ => rfl
    · exact fun _ => rfl
    · exact fun _ cleared => by simp at cleared
  exact ((rows _).trans (served _)).trans (held _)

/-- The tables with all selections taken so far. -/
structure Session where
  store : Store
  taken : List Selection := []

inductive Event
  | mutate (mutation : Mutation) (lookup : Lookup) (now : ℚ)
  | mark (dirty : DirtyUnit) (changedAt : ℚ) (operation : String)
  | bootstrap (rows : List Store.BootstrapRow) (exhausted : Bool) (changedAt : ℚ)
  | advanceTime (now : ℚ) (limit : ℕ) (changedAt : ℚ)
  | revalidateContract (contractSha256 receiptSha256 : String) (limit : ℕ)
      (expired : ℕ → Bool) (changedAt : ℚ)
  | select (policy : AdmissionPolicy) (contractSha256 : String) (environment : Environment)
  | acknowledge (selection : Selection) (hold : String → String → Except String (Option String))
      (resultSha256 : String) (processedUnits : List (String × ℕ)) (rejected : List Rejection)

/-- One transaction. A call that raises is rolled back and is no step. -/
inductive Step : Session → Event → Session → Prop
  | mutate {session : Session} {mutation : Mutation} {lookup : Lookup} {now : ℚ}
      (identified : mutation.Identified) :
      Step session (.mutate mutation lookup now)
        { session with store := session.store.mutate mutation lookup now }
  | mark {session : Session} {dirty : DirtyUnit} {changedAt : ℚ} {operation : String} :
      Step session (.mark dirty changedAt operation)
        { session with store := session.store.mark dirty changedAt operation }
  | bootstrap {session : Session} {rows : List Store.BootstrapRow} {exhausted : Bool}
      {changedAt : ℚ} (named : ∀ row ∈ rows, row.key ≠ "") :
      Step session (.bootstrap rows exhausted changedAt)
        { session with store := session.store.bootstrap rows exhausted changedAt }
  | advanceTime {session : Session} {now : ℚ} {limit : ℕ} {changedAt : ℚ} :
      Step session (.advanceTime now limit changedAt)
        { session with store := session.store.advanceTime now limit changedAt }
  | revalidateContract {session : Session} {contractSha256 receiptSha256 : String} {limit : ℕ}
      {expired : ℕ → Bool} {changedAt : ℚ} {next : Store} {complete : Bool}
      (paged : session.store.revalidateContract contractSha256 receiptSha256 limit expired
        changedAt = .ok (next, complete)) :
      Step session (.revalidateContract contractSha256 receiptSha256 limit expired changedAt)
        { session with store := next }
  | select {session : Session} {policy : AdmissionPolicy} {contractSha256 : String}
      {environment : Environment} {selection : Selection}
      (selected : session.store.select policy contractSha256 environment = .ok selection) :
      Step session (.select policy contractSha256 environment)
        { session with taken := session.taken ++ [selection] }
  | acknowledge {session : Session} {selection : Selection}
      {hold : String → String → Except String (Option String)} {resultSha256 : String}
      {processedUnits : List (String × ℕ)} {rejected : List Rejection} {next : Store}
      (takenEarlier : selection ∈ session.taken)
      (acknowledged : session.store.acknowledge selection hold resultSha256 processedUnits
        rejected = .ok next) :
      Step session (.acknowledge selection hold resultSha256 processedUnits rejected)
        { session with store := next }

/-- The tables right after `prepare`. -/
structure Initial (session : Session) : Prop where
  prepared : ∃ contractSha256 epoch freshness observations listings,
    (∀ observation ∈ observations, observation.1 ≠ "") ∧
    (listings.map ListingRow.sourceId).Nodup ∧
    session.store = Store.prepare contractSha256 epoch freshness observations listings
  untaken : session.taken = []

def Event.Processes (unit : String) (version : ℕ) : Event → Prop
  | .acknowledge selection _ _ processedUnits _ => selection.Processes processedUnits unit version
  | _ => False

def newestVersion (session : Session) : ℕ :=
  maxVersion (session.store.versions.map VersionRow.version)

/-- What holds after the events `past`. -/
structure Sound (past : List Event) (session : Session) : Prop where
  tracked : Tracked session.store.versions session.store.current
  timed : Timed session.store
  processed : ∀ row ∈ session.store.current, row.disposition = .acknowledged →
    ∃ event ∈ past, event.Processes row.unit row.version
  recorded : ∀ selection ∈ session.taken, ∀ row ∈ selection.units,
    row.version ≤ newestVersion session

section Steps

variable {past : List Event} {session next : Session} {event : Event}

theorem Step.marks_or_clears (step : Step session event next)
    (tracked : Tracked session.store.versions session.store.current) :
    session.store.Marks next.store ∨
      ∃ selection ∈ session.taken, ∃ hold resultSha256 processedUnits rejected,
        event = .acknowledge selection hold resultSha256 processedUnits rejected ∧
        session.store.Clears (selection.Processes processedUnits) next.store := by
  cases step with
  | mutate identified => exact .inl (marks_mutate tracked)
  | mark => exact .inl (Store.marks_mark _ _ _)
  | bootstrap named => exact .inl (marks_bootstrap _ _ _)
  | advanceTime => exact .inl (marks_advanceTime _ _ _)
  | revalidateContract paged => exact .inl (revalidateContract_spec paged).1
  | select selected => exact .inl .none
  | acknowledge takenEarlier acknowledged =>
    exact .inr ⟨_, takenEarlier, _, _, _, _, rfl, clears_acknowledge acknowledged⟩

theorem Step.tracked (step : Step session event next)
    (tracked : Tracked session.store.versions session.store.current) :
    Tracked next.store.versions next.store.current := by
  rcases step.marks_or_clears tracked with marks | ⟨_, _, _, _, _, _, _, clears⟩
  · exact marks.tracked tracked
  · exact clears.tracked tracked

theorem Step.subset (step : Step session event next)
    (tracked : Tracked session.store.versions session.store.current) :
    session.store.versions ⊆ next.store.versions := by
  rcases step.marks_or_clears tracked with marks | ⟨_, _, _, _, _, _, _, clears⟩
  · exact marks.subset
  · rw [clears.versions]
    exact List.Subset.refl _

theorem Step.newestVersion_le (step : Step session event next)
    (tracked : Tracked session.store.versions session.store.current) :
    newestVersion session ≤ newestVersion next := by
  apply maxVersion_le
  intro version member
  rcases List.mem_map.mp member with ⟨row, rowMember, rfl⟩
  exact le_maxVersion (List.mem_map_of_mem (step.subset tracked rowMember))

theorem Step.timed (step : Step session event next) (timed : Timed session.store) :
    Timed next.store := by
  cases step with
  | mutate identified => exact timed.mutate identified
  | mark => exact ⟨timed.shaped, timed.listed⟩
  | bootstrap named => exact (bootstrap_spec named timed).1
  | advanceTime => exact timed.advanceTime
  | revalidateContract paged => exact (revalidateContract_spec paged).2.timed timed
  | select selected => exact timed
  | acknowledge takenEarlier acknowledged =>
    exact (clears_acknowledge acknowledged).keepsTime.timed timed

theorem Step.waiting {bound : ℕ} {waits : Transition} (step : Step session event next)
    (tracked : Tracked session.store.versions session.store.current)
    (timed : Timed session.store) (shaped : waits.Shaped) (bounded : bound ≤ newestVersion session)
    (waiting : Waiting bound waits session.store) : Waiting bound waits next.store := by
  have recordedStays : RecordedAbove bound waits.dirtyUnit.unit session.store.versions →
      Waiting bound waits next.store :=
    fun recorded => .inl (recorded.mono (step.subset tracked))
  cases step with
  | mutate identified => exact waiting_mutate timed tracked identified shaped bounded waiting
  | mark =>
    rcases waiting with recorded | kept
    · exact recordedStays recorded
    · exact .inr kept
  | bootstrap named =>
    rcases waiting with recorded | ⟨kept, member, rest⟩
    · exact recordedStays recorded
    · exact .inr ⟨kept, (bootstrap_spec named timed).2 member, rest⟩
  | advanceTime => exact waiting_advanceTime timed shaped bounded waiting
  | revalidateContract paged =>
    exact (revalidateContract_spec paged).2.waiting (revalidateContract_spec paged).1 waiting
  | select selected => exact waiting
  | acknowledge takenEarlier acknowledged =>
    have clears := clears_acknowledge acknowledged
    rcases waiting with recorded | kept
    · exact recordedStays recorded
    · exact .inr (clears.keepsTime.transitions ▸ kept)

theorem mem_prepare {contractSha256 epoch : String} {freshness : Option Freshness}
    {observations : List (String × String × ℚ)} {listings : List ListingRow} {row : Transition}
    (member : row ∈
      (Store.prepare contractSha256 epoch freshness observations listings).transitions) :
    ∃ age ∈ freshness,
      (∃ observation ∈ observations,
        row.objectKey = detailKey observation.1 ∧ row.jobKey = some observation.1) ∨
      ∃ listing ∈ listings, row.objectKey = listingKey listing.sourceId ∧
        row.sourceId = listing.sourceId ∧ row.jobKey = none ∧
        row.dueAt = listing.lastListAt.map (· + age.listingMaxAgeSeconds) := by
  cases freshness with
  | none => simp [Store.prepare] at member
  | some age =>
    refine ⟨age, rfl, ?_⟩
    rcases List.mem_append.mp member with ofDetail | ofListing
    · rcases List.mem_map.mp ofDetail with ⟨observation, observed, rfl⟩
      exact .inl ⟨observation, observed, rfl, rfl⟩
    · rcases List.mem_filterMap.mp ofListing with ⟨listing, listed, found⟩
      rcases Option.map_eq_some_iff.mp found with ⟨lastListAt, present, rfl⟩
      exact .inr ⟨listing, listed, rfl, rfl, rfl, by simp [present]⟩

theorem Timed.prepare {contractSha256 epoch : String} {freshness : Option Freshness}
    {observations : List (String × String × ℚ)} {listings : List ListingRow}
    (named : ∀ observation ∈ observations, observation.1 ≠ "")
    (distinct : (listings.map ListingRow.sourceId).Nodup) :
    Timed (Store.prepare contractSha256 epoch freshness observations listings) := by
  constructor
  · intro row member
    rcases mem_prepare member with ⟨age, _, ⟨observation, observed, keyed, owned⟩ | ofListing⟩
    · exact .detail (named observation observed) keyed owned
    · rcases ofListing with ⟨listing, _, keyed, source, owned, _⟩
      exact .listing (source ▸ keyed) owned
  · intro age fresh listing listed row member keyed
    rcases mem_prepare member with ⟨found, stored, ⟨observation, _, detail, _⟩ | ofListing⟩
    · exact absurd (detail.symm.trans keyed) detailKey_ne_listingKey
    · rcases ofListing with ⟨other, otherListed, otherKeyed, _, _, due⟩
      have sameSource : other.sourceId = listing.sourceId := by
        rw [otherKeyed, listingKey, listingKey, freshnessKey_inj] at keyed
        exact keyed
      have sameListing := eq_of_key_eq distinct otherListed listed sameSource
      have sameAge : found = age := Option.some_inj.mp (stored.symm.trans fresh)
      rw [due, sameListing, sameAge]

theorem Sound.initial (initial : Initial session) : Sound [] session := by
  rcases initial.prepared with
    ⟨contractSha256, epoch, freshness, observations, listings, named, distinct, prepared⟩
  refine ⟨?_, ?_, ?_, ?_⟩
  · rw [prepared]
    exact Tracked.nil
  · rw [prepared]
    exact Timed.prepare named distinct
  · intro row member
    simp [prepared, Store.prepare] at member
  · simp [initial.untaken]

theorem Sound.step (sound : Sound past session) (step : Step session event next) :
    Sound (past ++ [event]) next where
  tracked := step.tracked sound.tracked
  timed := step.timed sound.timed
  processed := by
    intro row member cleared
    have earlier : row ∈ session.store.current →
        ∃ event' ∈ past ++ [event], event'.Processes row.unit row.version := by
      intro stored
      rcases sound.processed row stored cleared with ⟨called, inPast, processes⟩
      exact ⟨called, List.mem_append_left _ inPast, processes⟩
    rcases step.marks_or_clears sound.tracked with
      marks | ⟨selection, _, hold, sha, units, rejected, rfl, clears⟩
    · exact earlier (Marked.acknowledged marks member cleared)
    · rcases clears.acknowledged row member cleared with stored | processes
      · exact earlier stored
      · exact ⟨_, List.mem_append_right _ (List.mem_singleton_self _), processes⟩
  recorded := by
    intro selection takenNow row member
    have grows := step.newestVersion_le sound.tracked
    cases step with
    | select selected =>
      rcases List.mem_append.mp takenNow with earlier | new
      · exact sound.recorded selection earlier row member
      · rw [List.mem_singleton.mp new] at member
        have stored := mem_units_of_select selected member
        rcases (sound.tracked.latest row stored).recorded with ⟨version, present, _, same⟩
        rw [← same]
        exact le_maxVersion (List.mem_map_of_mem present)
    | mutate | mark | bootstrap | advanceTime | revalidateContract | acknowledge =>
      exact (sound.recorded selection takenNow row member).trans grows

theorem stale_acknowledgements {events : List Event} {later : Session}
    (sound : Sound past session) (run : Run Step session events later)
    (stale : ∀ event ∈ events, ∀ selection hold resultSha256 processedUnits rejected,
      event = .acknowledge selection hold resultSha256 processedUnits rejected →
      selection ∈ session.taken) :
    Tracked later.store.versions later.store.current ∧
      ∀ row ∈ later.store.current, newestVersion session < row.version →
        row.disposition ≠ .acknowledged := by
  refine run.invariant_of_forall
    (fun event => ∀ selection hold resultSha256 processedUnits rejected,
      event = .acknowledge selection hold resultSha256 processedUnits rejected →
      selection ∈ session.taken)
    (fun state => Tracked state.store.versions state.store.current ∧
      ∀ row ∈ state.store.current, newestVersion session < row.version →
        row.disposition ≠ .acknowledged) ?_ stale ⟨sound.tracked, ?_⟩
  · rintro state event next old step ⟨tracked, uncleared⟩
    refine ⟨step.tracked tracked, ?_⟩
    intro row member newer cleared
    rcases step.marks_or_clears tracked with
      marks | ⟨selection, _, hold, sha, units, rejected, equal, clears⟩
    · exact uncleared row (Marked.acknowledged marks member cleared) newer cleared
    · rcases clears.acknowledged row member cleared with stored | ⟨_, chosen, selected, _, same⟩
      · exact uncleared row stored newer cleared
      · have bounded := sound.recorded selection (old _ _ _ _ _ equal) chosen selected
        omega
  · intro row member newer
    rcases (sound.tracked.latest row member).recorded with ⟨version, present, _, same⟩
    have bounded : version.version ≤ newestVersion session :=
      le_maxVersion (List.mem_map_of_mem present)
    omega

end Steps

section Vector

variable {store : Store} {contractSha256 : String} {now : ℚ} {work : Vector}

theorem due_of_nextTransition {row : Transition} {due : ℚ} (member : row ∈ store.transitions)
    (unfired : row.fired = false) (dueAt : row.dueAt = some due) (past : due ≤ now) :
    store.nextTransition.any (fun next => decide (next ≤ now)) = true := by
  have listed : due ∈ (store.transitions.filter fun row => !row.fired).filterMap
      Transition.dueAt :=
    List.mem_filterMap.mpr ⟨row, List.mem_filter.mpr ⟨member, by simp [unfired]⟩, dueAt⟩
  unfold Store.nextTransition
  cases least : ((store.transitions.filter fun row => !row.fired).filterMap
      Transition.dueAt).min? with
  | none => rw [List.min?_eq_none_iff.mp least] at listed; simp at listed
  | some first =>
    have earliest : first ≤ due := (List.min?_eq_some_iff.mp least).2 due listed
    cases store.nextTransitionAt with
    | none => simpa [least] using earliest.trans past
    | some stored => simpa [least] using .inl (earliest.trans past)

theorem empty_vector (seen : store.vector contractSha256 now = .ok work)
    (empty : work.empty = true) :
    (∀ row ∈ store.current, row.disposition = .acknowledged) ∧
      store.contractSha256 = contractSha256 ∧
      store.nextTransition.any (fun next => decide (next ≤ now)) = false := by
  unfold Store.vector at seen
  simp only [require_bind_eq_ok, pure_eq_ok] at seen
  rw [← seen.2] at empty
  simp only [Bool.and_eq_true, Option.isNone_iff_eq_none, List.head?_eq_none_iff,
    List.isEmpty_iff, List.append_eq_nil_iff] at empty
  rcases empty with ⟨⟨nonePending, noneHeld⟩, sameContract, notDue⟩
  have absent : ∀ disposition, oldestFirst (store.withDisposition disposition) = [] →
      ∀ row ∈ store.current, row.disposition ≠ disposition := by
    intro disposition nothing row member same
    have selected : row ∈ store.withDisposition disposition :=
      List.mem_filter.mpr ⟨member, by simpa using same⟩
    have sorted : row ∈ oldestFirst (store.withDisposition disposition) :=
      orderBy_perm.mem_iff.mpr selected
    rw [nothing] at sorted
    simp at sorted
  refine ⟨?_, ?_, ?_⟩
  · intro row member
    cases disposition : row.disposition with
    | pending => exact absurd disposition (absent .pending nonePending row member)
    | held => exact absurd disposition (absent .held noneHeld row member)
    | acknowledged => rfl
  · by_contra differ
    simp [differ] at sameContract
  · by_contra isDue
    simp [Bool.eq_true_of_not_eq_false isDue] at notDue

end Vector

/-- Publication acknowledgements, for every run from prepared tables: (a) a
current row has the newest version of its unit, (b) an acknowledged version has
been processed by a call whose selection holds it, and acknowledgements of the
selections taken so far leave the unit of any later version pending or held,
(c) an empty vector means that the newest version of every unit is acknowledged,
that nothing is due and that the contract is current, (d) a due transition keeps
the vector non-empty until its unit has a new version. -/
theorem acknowledgementProtocol {start session : Session} {events : List Event}
    (initial : Initial start) (run : Run Step start events session) :
    ((session.store.current.map CurrentRow.unit).Nodup ∧
      (∀ row ∈ session.store.current, IsLatest session.store.versions row) ∧
      ∀ version ∈ session.store.versions, ∃ row ∈ session.store.current,
        row.unit = version.unit) ∧
    ((∀ row ∈ session.store.current, row.disposition = .acknowledged →
        ∃ event ∈ events, event.Processes row.unit row.version) ∧
      ∀ onward later, Run Step session onward later →
        (∀ event ∈ onward, ∀ selection hold resultSha256 processedUnits rejected,
          event = .acknowledge selection hold resultSha256 processedUnits rejected →
          selection ∈ session.taken) →
        ∀ row ∈ later.store.current,
          RecordedAbove (newestVersion session) row.unit later.store.versions →
          row.disposition = .pending ∨ row.disposition = .held) ∧
    (∀ contractSha256 now work, session.store.vector contractSha256 now = .ok work →
      work.empty = true →
      (∀ version ∈ session.store.versions, ∃ row ∈ session.store.current,
        row.unit = version.unit ∧ IsLatest session.store.versions row ∧
        row.disposition = .acknowledged) ∧
      (∀ row ∈ session.store.transitions, row.fired = false →
        ∀ due, row.dueAt = some due → now < due) ∧
      session.store.contractSha256 = contractSha256) ∧
    (∀ row ∈ session.store.transitions, row.fired = false → ∀ due, row.dueAt = some due →
      ∀ onward later, Run Step session onward later →
      RecordedAbove (newestVersion session) row.dirtyUnit.unit later.store.versions ∨
        ∀ contractSha256 now work, due ≤ now →
          later.store.vector contractSha256 now = .ok work → work.empty = false) := by
  have sound : Sound events session :=
    run.invariant_history Sound (fun _ _ _ _ step sound => sound.step step) (.initial initial)
  refine ⟨⟨sound.tracked.distinct, sound.tracked.latest, sound.tracked.covered⟩,
    ⟨sound.processed, ?_⟩, ?_, ?_⟩
  · rintro onward later onwardRun stale row member ⟨version, recorded, sameUnit, above⟩
    rcases stale_acknowledgements sound onwardRun stale with ⟨tracked, uncleared⟩
    have newest := (tracked.latest row member).newest version recorded sameUnit
    have notCleared := uncleared row member (above.trans_le newest)
    cases disposition : row.disposition with
    | pending => exact .inl rfl
    | held => exact .inr rfl
    | acknowledged => exact absurd disposition notCleared
  · intro contractSha256 now work seen empty
    rcases empty_vector seen empty with ⟨cleared, sameContract, notDue⟩
    refine ⟨?_, ?_, sameContract⟩
    · intro version recorded
      rcases sound.tracked.covered version recorded with ⟨row, member, sameUnit⟩
      exact ⟨row, member, sameUnit, sound.tracked.latest row member, cleared row member⟩
    · intro row member unfired due dueAt
      by_contra passed
      have isDue := due_of_nextTransition member unfired dueAt (not_lt.mp passed)
      rw [notDue] at isDue
      exact Bool.noConfusion isDue
  · intro row member unfired due dueAt onward later onwardRun
    have shaped := sound.timed.shaped row member
    have waited := onwardRun.invariant
      (fun state => Tracked state.store.versions state.store.current ∧ Timed state.store ∧
        newestVersion session ≤ newestVersion state ∧
        Waiting (newestVersion session) row state.store)
      (fun state event next step ⟨tracked, timed, bounded, waiting⟩ =>
        ⟨step.tracked tracked, step.timed timed, bounded.trans (step.newestVersion_le tracked),
          step.waiting tracked timed shaped bounded waiting⟩)
      ⟨sound.tracked, sound.timed, le_rfl, .inr ⟨row, member, rfl, unfired, rfl⟩⟩
    rcases waited.2.2.2 with recorded | ⟨kept, keptMember, _, keptUnfired, sameDue⟩
    · exact .inl recorded
    · right
      intro contractSha256 now work passed seen
      by_contra notEmpty
      have empty := empty_vector seen (Bool.eq_true_of_not_eq_false notEmpty)
      have isDue := due_of_nextTransition keptMember keptUnfired (sameDue.trans dueAt) passed
      rw [empty.2.2] at isDue
      exact Bool.noConfusion isDue

section Stale

private def measurement : String := String.ofList (List.replicate 64 'a')

private theorem isSha256_measurement : isSha256 measurement = true :=
  isSha256_replicate rfl

private def admission : AdmissionPolicy where
  maxCandidates := 5
  maxUnits := 5
  maxSources := 5
  maxTargets := 5
  maxBytes := 100
  minimumSeconds := 1
  measurementSha256 := measurement

private def idle : Environment where
  hold := fun _ _ => .ok none
  sourcePaths := [("s", "s.sqlite3")]
  sharedPath := "s.sqlite3"
  unitBytes := fun _ => .ok 6
  targetBytes := fun _ => 8
  expired := fun _ => false
  now := 10

private def nowhere : Lookup where
  jobSource := fun _ => none
  documentJobs := fun _ => []

private def prepared : Store := Store.prepare "c" "e" none [] []

private def imported : Store := prepared.bootstrap [] true 0

private def jobRow (version : ℕ) (changedAt : ℚ) : CurrentRow where
  unit := "job:s:1"
  version := version
  sourceId := "s"
  jobKey := some "s:1"
  kind := .job
  firstChangedAt := 3
  lastChangedAt := changedAt

private def jobVersion (version : ℕ) (changedAt : ℚ) (operation : String) : VersionRow where
  version := version
  unit := "job:s:1"
  sourceId := "s"
  jobKey := some "s:1"
  kind := .job
  changedAt := changedAt
  operation := operation

private def closing : Transition where
  objectKey := closingKey "s:1"
  sourceId := "s"
  jobKey := some "s:1"
  dueAt := some 50

private def inserted : Store :=
  { imported with
    versions := [jobVersion 1 3 "jobs:INSERT"]
    current := [jobRow 1 3]
    transitions := [closing] }

private def updated : Store :=
  { imported with
    versions := [jobVersion 1 3 "jobs:INSERT", jobVersion 2 4 "jobs:UPDATE"]
    current := [jobRow 2 4]
    transitions := [closing] }

private theorem truthy_job : truthy (some "s:1") = some "s:1" := truthy_some (by simp)

private theorem truthy_source : truthy (some "s") = some "s" := truthy_some (by simp)

private theorem mutate_imported :
    imported.mutate (.jobs .insert "s:1" "s" (some 50)) nowhere 3 = inserted := by
  simp [Store.mutate, truthy_job, truthy_source, imported, prepared, inserted, Store.prepare,
    Store.bootstrap, Store.transitionTriggers, Store.transitionRow, Mutation.operation,
    Store.upsertTransition, Store.dirtyTrigger, dirtyUnits, Store.payload, Mutation.table,
    nextVersion, maxVersion, upsertCurrent, Store.writeRow, jobRow, jobVersion, closing,
    Operation.text]

private theorem mutate_inserted :
    inserted.mutate (.jobs .update "s:1" "s" (some 50)) nowhere 4 = updated := by
  simp [Store.mutate, truthy_job, truthy_source, imported, prepared, inserted, updated,
    Store.prepare, Store.bootstrap, Store.transitionTriggers, Store.transitionRow,
    Mutation.operation, Store.upsertTransition, Store.dirtyTrigger, dirtyUnits, Store.payload,
    Mutation.table, nextVersion, maxVersion, upsertCurrent, Store.writeRow, jobRow, jobVersion,
    closing, Operation.text, CurrentRow.carry, Transition.carry]

private theorem vector_inserted :
    inserted.vector "c" 10 = .ok {
      empty := false, epoch := "e", pending := some (jobRow 1 3), held := none
      unscopedHeld := none, revalidationReasons := [], nextTransitionAt := some 50 } := by
  have pending : inserted.withDisposition .pending = [jobRow 1 3] := rfl
  have held : inserted.withDisposition .held = [] := rfl
  have next : inserted.nextTransition = some 50 := rfl
  unfold Store.vector
  rw [pending, held, next]
  norm_num [oldestFirst, orderBy, inserted, imported, prepared, Store.prepare, Store.bootstrap,
    require]

private theorem candidates_inserted : inserted.candidates admission ["s"] = [jobRow 1 3] := by
  simp [Store.candidates, inserted, Store.cohortOrder, Store.pendingOf, Store.withDisposition,
    oldestFirst, orderBy, jobRow, jobVersion, admission, imported, prepared, Store.prepare,
    Store.bootstrap]

private theorem run_inserted :
    Progress.run admission idle 0 {} [jobRow 1 3] =
      .ok { chosen := [jobRow 1 3], sources := ["s"], targets := ["s.sqlite3"], total := 14 } := by
  simp [Progress.run, Progress.visit, idle, jobRow, admission, Environment.path]

private def firstSelection : Selection where
  epoch := "e"
  contractSha256 := "c"
  units := [jobRow 1 3]
  held := []
  sourceIds := ["s"]
  targetPaths := ["s.sqlite3"]
  estimatedBytes := 14
  candidateCount := 1
  policy := admission

private theorem select_inserted :
    inserted.select admission "c" idle = .ok firstSelection := by
  have bounds : (0 < admission.maxCandidates ∧ 0 < admission.maxUnits ∧ 0 < admission.maxSources ∧
      0 < admission.maxTargets ∧ 0 < admission.maxBytes ∧ 0 < admission.minimumSeconds) := by
    norm_num [admission]
  have sources : List.map Prod.fst idle.sourcePaths = ["s"] := rfl
  unfold Store.select
  rw [show admission.measurementSha256 = measurement from rfl, isSha256_measurement,
    show idle.now = 10 from rfl, vector_inserted, sources, candidates_inserted]
  simp only [decide_eq_true bounds, require, if_true, ok_bind, run_inserted, List.all_nil]
  simp [orderBy, firstSelection, pure, Except.pure]

private theorem acknowledge_updated :
    updated.acknowledge firstSelection (fun _ _ => .ok none) "r" [("job:s:1", 1)] [] =
      .ok { updated with cohorts := [("s", 1)] } := by
  simp [Store.acknowledge, firstSelection, Selection.processed, Store.acknowledgeRow,
    Store.updateVersion, updated, imported, prepared, Store.prepare, Store.bootstrap, jobRow,
    Store.serve, require]

/-- A unit changes between its selection and the acknowledgement, and stays pending. -/
theorem acknowledgementProtocol_stale :
    ∃ session, Run Step { store := prepared }
      [.bootstrap [] true 0, .mutate (.jobs .insert "s:1" "s" (some 50)) nowhere 3,
        .select admission "c" idle, .mutate (.jobs .update "s:1" "s" (some 50)) nowhere 4,
        .acknowledge firstSelection (fun _ _ => .ok none) "r" [("job:s:1", 1)] []] session ∧
      session.store.current = [jobRow 2 4] ∧
      ∀ row ∈ session.store.current, IsLatest session.store.versions row := by
  have initial : Initial { store := prepared } :=
    ⟨⟨"c", "e", none, [], [], by simp, by simp, rfl⟩, rfl⟩
  have first : Step { store := prepared } (.bootstrap [] true 0) { store := imported } :=
    .bootstrap (by simp)
  have insert : Step { store := imported }
      (.mutate (.jobs .insert "s:1" "s" (some 50)) nowhere 3) { store := inserted } := by
    rw [← mutate_imported]
    exact .mutate ⟨by simp, by simp⟩
  have update : Step { store := inserted, taken := [firstSelection] }
      (.mutate (.jobs .update "s:1" "s" (some 50)) nowhere 4)
      { store := updated, taken := [firstSelection] } := by
    rw [← mutate_inserted]
    exact .mutate ⟨by simp, by simp⟩
  have run := Run.cons first (.cons insert (.cons (.select select_inserted)
    (.cons update (.single (.acknowledge (by simp) acknowledge_updated)))))
  exact ⟨_, run, rfl, (acknowledgementProtocol initial run).1.2.1⟩

end Stale

end JobAgg.PublicationWork
