import JobAgg.EpochVault.AuthenticatedHistory
import JobAgg.EpochVault.GuardedReload

/-! # Evidence of a fork

Two clients that trust the same key compare what they accepted. Position by position the
roots agree or they do not: either one history continues the other, up to the signatures, or
the client that compares has proof of a fork and stops. -/

namespace JobAgg.EpochVault

variable {Digest : Type}

/-- One of the histories continues the other, but for the signatures of the views. -/
def Continues (one other : List (View Digest)) : Prop :=
  one.map View.toViewBody <+: other.map View.toViewBody ∨
    other.map View.toViewBody <+: one.map View.toViewBody

/-- What a comparison of the `views` of a client with those of its `peer` does: a number
where one history continues the other, and otherwise an alarm that leaves the views and a
state that is `frozen`. -/
structure Detects {State : Type} (views : State → List (View Digest))
    (comparison : State → Effect State Nat) (frozen : State → Prop) (state : State)
    (peer : List (View Digest)) : Prop where
  agrees : ∀ count, (comparison state).answer = .ok count ↔
    views state ≠ [] ∧ peer ≠ [] ∧ Continues (views state) peer ∧
      count = min (views state).length peer.length
  forked : ∀ (position : Nat) (one other : View Digest), (views state)[position]? = some one →
    peer[position]? = some other → one.toViewBody ≠ other.toViewBody →
      (comparison state).answer = .error stateEquivocation ∧
        views ((comparison state).after state) = views state ∧
        frozen ((comparison state).after state)

section Roots

variable [DecidableEq Digest] {library : HistoryLibrary Digest} {publicB64 : String}

theorem root_eq_iff (injective : Function.Injective library.viewRoot) {one other : View Digest}
    (oneVerified : one.isVerified library publicB64 = true)
    (otherVerified : other.isVerified library publicB64 = true) :
    one.root = other.root ↔ one.toViewBody = other.toViewBody := by
  simp only [View.isVerified, Bool.and_eq_true, beq_iff_eq] at oneVerified otherVerified
  rw [oneVerified.1.1.2, otherVerified.1.1.2]
  exact injective.eq_iff

theorem all_zip_iff (injective : Function.Injective library.viewRoot)
    {views peer : List (View Digest)}
    (verified : ∀ view ∈ views, view.isVerified library publicB64 = true)
    (peerVerified : ∀ view ∈ peer, view.isVerified library publicB64 = true) :
    ((views.zip peer).all fun (left, right) => left.root == right.root) = true ↔
      Continues views peer := by
  induction views generalizing peer with
  | nil => exact ⟨fun _ => .inl List.nil_prefix, fun _ => rfl⟩
  | cons head tail induction =>
    cases peer with
    | nil => exact ⟨fun _ => .inr List.nil_prefix, fun _ => rfl⟩
    | cons first rest =>
      have here := root_eq_iff injective (verified head List.mem_cons_self)
        (peerVerified first List.mem_cons_self)
      have later := induction (fun view member => verified view (List.mem_cons_of_mem _ member))
        fun view member => peerVerified view (List.mem_cons_of_mem _ member)
      rw [List.zip_cons_cons, List.all_cons, Bool.and_eq_true, beq_iff_eq, later, here]
      rw [Continues, Continues, List.map_cons, List.map_cons, List.cons_prefix_cons,
        List.cons_prefix_cons]
      constructor
      · rintro ⟨same, shorter | longer⟩
        · exact .inl ⟨same, shorter⟩
        · exact .inr ⟨same.symm, longer⟩
      · rintro (⟨same, shorter⟩ | ⟨same, longer⟩)
        · exact ⟨same, .inl shorter⟩
        · exact ⟨same.symm, .inr longer⟩

omit [DecidableEq Digest] in
theorem getElem?_of_prefix {Row : Type} {rows more : List Row} {position : Nat} {row : Row}
    (shorter : rows <+: more) (here : rows[position]? = some row) :
    more[position]? = some row := by
  obtain ⟨rest, rfl⟩ := shorter
  obtain ⟨inside, -⟩ := List.getElem?_eq_some_iff.mp here
  rw [List.getElem?_append_left inside, here]

omit [DecidableEq Digest] in
theorem not_continues {views peer : List (View Digest)} {position : Nat} {one other : View Digest}
    (here : views[position]? = some one) (there : peer[position]? = some other)
    (different : one.toViewBody ≠ other.toViewBody) : ¬ Continues views peer := by
  have mapped : (views.map View.toViewBody)[position]? = some one.toViewBody := by
    rw [List.getElem?_map, here, Option.map_some]
  have peerMapped : (peer.map View.toViewBody)[position]? = some other.toViewBody := by
    rw [List.getElem?_map, there, Option.map_some]
  rintro (shorter | longer)
  · have same := getElem?_of_prefix shorter mapped
    rw [peerMapped, Option.some.injEq] at same
    exact different same.symm
  · have same := getElem?_of_prefix longer peerMapped
    rw [mapped, Option.some.injEq] at same
    exact different same

theorem detects_of_eq {State : Type} {views : State → List (View Digest)}
    {comparison : State → Effect State Nat} {frozen : State → Prop} {state : State}
    {peer : List (View Digest)} {refused alarmed : Effect State Nat}
    (same : comparison state =
      if (views state).isEmpty || peer.isEmpty then refused
      else if ((views state).zip peer).all fun (left, right) => left.root == right.root then
        ⟨none, .ok (min (views state).length peer.length)⟩
      else alarmed)
    (sameRoots : (((views state).zip peer).all fun (left, right) => left.root == right.root) =
      true ↔ Continues (views state) peer)
    (refuses : ∃ reason, refused.answer = .error reason)
    (raises : alarmed.answer = .error stateEquivocation)
    (keeps : views (alarmed.after state) = views state) (freezes : frozen (alarmed.after state)) :
    Detects views comparison frozen state peer := by
  have empty : ((views state).isEmpty || peer.isEmpty) = true ↔ views state = [] ∨ peer = [] := by
    rw [Bool.or_eq_true, List.isEmpty_iff, List.isEmpty_iff]
  constructor
  · intro count
    rw [same]
    by_cases missing : views state = [] ∨ peer = []
    · rw [if_pos (empty.mpr missing)]
      obtain ⟨reason, error⟩ := refuses
      rw [error]
      constructor
      · intro impossible
        cases impossible
      · rintro ⟨some, other, -⟩
        exact absurd missing (not_or.mpr ⟨some, other⟩)
    · rw [if_neg (mt empty.mp missing)]
      obtain ⟨some, other⟩ := not_or.mp missing
      by_cases continues : Continues (views state) peer
      · rw [if_pos (sameRoots.mpr continues), Except.ok.injEq]
        exact ⟨fun counted => ⟨some, other, continues, counted.symm⟩, fun counted =>
          counted.2.2.2.symm⟩
      · rw [if_neg (mt sameRoots.mp continues), raises]
        constructor
        · intro impossible
          cases impossible
        · exact fun agreed => absurd agreed.2.2.1 continues
  · intro position one other here there different
    have missing : ¬(views state = [] ∨ peer = []) := by
      rintro (none | none)
      · rw [none] at here
        cases here
      · rw [none] at there
        cases there
    rw [same, if_neg (mt empty.mp missing),
      if_neg (mt sameRoots.mp (not_continues here there different))]
    exact ⟨raises, keeps, freezes⟩

end Roots

variable [DecidableEq Digest] {library : HistoryLibrary Digest} {context : HistoryContext}

/-! ## Authenticated histories -/

/-- After any further calls the views are the same, and `observe` and `compare_evidence`
raise. -/
def HistoryFrozen (library : HistoryLibrary Digest) (context : HistoryContext)
    (state : HistoryState Digest) : Prop :=
  ∀ calls later, Run (HistoryCalls library context) (some state) calls (some later) →
    later.views = state.views ∧
      (∀ view registry commitment opaqueState, ∃ reason,
        (observe library context view registry commitment opaqueState later).answer =
          .error reason) ∧
      ∀ peer, ∃ reason, (compareHistory library context peer later).answer = .error reason

theorem whenOpen_blocked {Answer : Type} {state : HistoryState Digest}
    (blocked : state.blocked = true)
    (continuation : HistoryState Digest → Effect (HistoryState Digest) Answer) :
    ∃ reason, (whenOpen library context state continuation).answer = .error reason := by
  rw [whenOpen]
  cases loading : loadHistory library context state with
  | error reason => exact ⟨reason, rfl⟩
  | ok loaded =>
    obtain ⟨-, -, rfl⟩ := loadHistory_eq_ok.mp loading
    dsimp only
    rw [if_pos blocked]
    exact ⟨stateEquivocation, rfl⟩

theorem historyFrozen_of_blocked {state : HistoryState Digest} (blocked : state.blocked = true) :
    HistoryFrozen library context state := by
  intro calls later run
  have kept := run.invariant (fun file => file = some state) ?_ rfl
  · cases kept
    exact ⟨rfl, fun _ _ _ _ => whenOpen_blocked blocked _, fun _ => whenOpen_blocked blocked _⟩
  · intro before call after called same
    rcases historyCalls_cases called with rfl | ⟨rfl, -⟩ | ⟨current, next, rfl, -, -, isOpen, -⟩
    · exact same
    · cases same
    · cases same
      rw [blocked] at isOpen
      cases isOpen

theorem detects_of_sound (injective : Function.Injective library.viewRoot)
    {state peer : HistoryState Digest} (sound : state.Sound library context)
    (peerSound : peer.Sound library context) (isOpen : state.blocked = false) :
    Detects HistoryState.views (compareHistory library context peer.views)
      (HistoryFrozen library context) state peer.views := by
  have verified := isVerified_of_checkLinks (checkHistory_eq_ok.mp sound.checked).2
  have peerVerified := isVerified_of_checkLinks (checkHistory_eq_ok.mp peerSound.checked).2
  have sameRoots := all_zip_iff injective (fun view member => (verified view member).1)
    fun view member => (peerVerified view member).1
  have effect : compareHistory library context peer.views state =
      if state.views.isEmpty || peer.views.isEmpty then .refuse checkpointRequired
      else if (state.views.zip peer.views).all fun (left, right) => left.root == right.root then
        ⟨none, .ok (min state.views.length peer.views.length)⟩
      else fork state := by
    rw [compareHistory, whenOpen, sound.loads]
    dsimp only
    rw [isOpen, if_neg Bool.false_ne_true, peerSound.checked]
  exact detects_of_eq effect sameRoots ⟨_, rfl⟩ rfl rfl (historyFrozen_of_blocked rfl)

/-! ## Guarded histories without bridges -/

variable {guard : Guard Digest} {state next : GuardedState Digest}

/-- The calls of a history that never rotates and is never resolved by hand. -/
def Call.isWatching : Call Digest → Bool
  | .initializeHistory => true
  | .ingest _ _ _ _ => true
  | .compareEvidence _ => true
  | .resolve _ _ _ => false
  | .stageEpoch _ => false

/-- After any further calls the views are the same, and `ingest` and `compare_evidence`
raise. -/
def GuardedFrozen (library : HistoryLibrary Digest) (guard : Guard Digest)
    (state : GuardedState Digest) : Prop :=
  ∀ calls later, Run (Calls library guard) (some state) calls (some later) →
    later.views = state.views ∧
      (∀ view registry commitment opaqueState, ∃ reason,
        (ingest library guard view registry commitment opaqueState later).answer =
          .error reason) ∧
      ∀ peer, ∃ reason, (compareEvidence library guard peer later).answer = .error reason

/-- Stopped, and not by a replay that a resolution could dismiss. -/
structure Stuck (state : GuardedState Digest) : Prop where
  fenced : state.status ≠ .active
  serious : ∀ found, state.cases.getLast? = some found → found.reason ≠ rollbackRejected

theorem Writes.stuck {call : Call Digest} (writes : Writes library guard call state next)
    (stuck : Stuck state) : next.views = state.views ∧ Stuck next := by
  obtain ⟨disposition, localRoot, peerRoot, found, -, last, rfl⟩ := writes.fenced stuck.fenced
  refine ⟨rfl, ?_, ?_⟩
  · intro active
    rw [EpochVault.settled] at active
    dsimp only at active
    split at active
    · rename_i replay
      rw [Bool.and_eq_true, isKnownReplay, Bool.and_eq_true, Bool.and_eq_true] at replay
      exact stuck.serious found last (beq_iff_eq.mp replay.2.1.1)
    · cases active
  · intro other known
    rw [EpochVault.settled] at known
    dsimp only at known
    rw [List.getLast?_concat, Option.some.injEq] at known
    rw [← known]
    exact stuck.serious found last

omit [DecidableEq Digest] in
theorem whenActive_fenced {Answer : Type} (fenced : state.status ≠ .active)
    (effect : Effect (GuardedState Digest) Answer) :
    ∃ reason, (whenActive state effect).answer = .error reason := by
  rw [whenActive, if_pos (bne_iff_ne.mpr fenced)]
  exact ⟨recoveryPending, rfl⟩

theorem ingest_fenced (fenced : state.status ≠ .active) (view : View Digest)
    (registry : PresentedRegistry Digest) (commitment : Commitment Digest) (opaqueState : Bytes) :
    ∃ reason, (ingest library guard view registry commitment opaqueState state).answer =
      .error reason := by
  rw [ingest]
  cases loading : load library guard state with
  | error reason => exact ⟨reason, rfl⟩
  | ok loaded =>
    obtain ⟨rfl, -⟩ := load_spec loading
    exact whenActive_fenced fenced _

theorem compareEvidence_fenced (fenced : state.status ≠ .active) (peer : List (View Digest)) :
    ∃ reason, (compareEvidence library guard peer state).answer = .error reason := by
  rw [compareEvidence]
  cases loading : load library guard state with
  | error reason => exact ⟨reason, rfl⟩
  | ok loaded =>
    obtain ⟨rfl, -⟩ := load_spec loading
    exact whenActive_fenced fenced _

theorem guardedFrozen_of_stuck (stuck : Stuck state) : GuardedFrozen library guard state := by
  intro calls later run
  have kept := run.invariant (fun file => ∃ current, file = some current ∧
    current.views = state.views ∧ Stuck current) ?_ ⟨state, rfl, rfl, stuck⟩
  · obtain ⟨current, same, views, stuck⟩ := kept
    cases same
    exact ⟨views, ingest_fenced stuck.fenced, compareEvidence_fenced stuck.fenced⟩
  · intro before call after called held
    obtain ⟨current, rfl, views, stuck⟩ := held
    rcases calls_cases called with rfl | ⟨impossible, -, -⟩ | ⟨found, next, same, rfl, -, writes⟩
    · exact ⟨current, rfl, views, stuck⟩
    · cases impossible
    · cases same
      obtain ⟨kept, stuck⟩ := writes.stuck stuck
      exact ⟨next, rfl, kept.trans views, stuck⟩

theorem passViews_nil {views : List (View Digest)} {position : Position Digest}
    (first : position.current = none) (epoch : position.epoch = guard.context.keyEpoch)
    (signer : position.publicB64 = guard.context.signingPublicB64) :
    (passViews library guard [] views position >>= fun _ => pure ()) =
      checkLinks library guard.context views position.sequence position.previous
        position.registry := by
  induction views generalizing position with
  | nil => rfl
  | cons head tail induction =>
    have step : passView library guard [] head position = (do
        require (head.isVerified library guard.context.signingPublicB64) viewRejected
        require (isOfContext guard.context head) viewRejected
        require (head.sequence == position.sequence + 1 &&
          head.previousRoot == position.previous &&
          head.previousRegistryRoot == position.registry) viewRejected
        return { position with
          previous := head.root, registry := head.registryRoot, sequence := head.sequence }) := by
      rw [passView, passBridges, ok_bind, first, epoch, signer]
      rfl
    have rest := @induction { position with
      previous := head.root, registry := head.registryRoot, sequence := head.sequence }
      first epoch signer
    rw [passViews, step, checkLinks]
    cases head.isVerified library guard.context.signingPublicB64 with
    | false => rfl
    | true =>
      cases isOfContext guard.context head with
      | false => rfl
      | true =>
        cases linked : (head.sequence == position.sequence + 1 &&
            head.previousRoot == position.previous &&
            head.previousRegistryRoot == position.registry) with
        | false => rfl
        | true =>
          simp only [Bool.and_eq_true, beq_iff_eq] at linked
          rw [← linked.1.1]
          exact rest

theorem chain_nil (plain : guard.origin = none) (views : List (View Digest)) :
    chain library guard views [] = checkHistory library guard.context views := by
  rw [chain, checkHistory, plain]
  dsimp only
  rw [passViews_nil rfl rfl rfl, startPosition, plain]
  rfl

theorem bridgeProofs_nil (unbridged : state.bridges = []) :
    bridgeProofs library guard state = .ok [] := by
  rw [bridgeProofs, unbridged]
  cases guard.rotationRegistry with
  | none => rfl
  | some registry => rfl

structure Watched (library : HistoryLibrary Digest) (guard : Guard Digest)
    (state : GuardedState Digest) : Prop where
  named : state.context = guard.context
  unbridged : state.bridges = []
  checked : checkHistory library guard.context state.views = .ok ()
  cases : state.cases.length ≤ maximumCases
  records : state.records.size ≤ limit
  calm : state.status = .active → state.cases = []

theorem Watched.loads (watched : Watched library guard state) (plain : guard.origin = none) :
    load library guard state = .ok state :=
  load_eq_ok watched.named watched.cases watched.records (bridgeProofs_nil watched.unbridged)
    ((chain_nil plain state.views).trans watched.checked)

theorem Watched.admitted (watched : Watched library guard state) (plain : guard.origin = none)
    {view : View Digest} {registry : PresentedRegistry Digest} {commitment : Commitment Digest}
    {opaqueState : Bytes}
    (admitted : Admitted library guard state view registry commitment opaqueState next)
    (active : state.status = .active) : Watched library guard next := by
  obtain ⟨publicB64, policy, verified⟩ := admitted.policy
  rw [currentPolicy, bridgeProofs_nil watched.unbridged, ok_bind, List.getLast?_nil] at policy
  dsimp only at policy
  rw [pure_eq_ok, Prod.mk.injEq] at policy
  obtain ⟨epoch, rfl⟩ := policy
  obtain ⟨records, collected, rfl⟩ := admitted.added
  have continuing := admitted.continuing
  simp only [continues, Guard.originOffset, plain, Option.map_none, Option.getD_none,
    Nat.zero_add] at continuing
  have small := admitted.small
  rw [Guard.originOffset, plain] at small
  refine ⟨watched.named, watched.unbridged, ?_, watched.cases,
    size_of_admitCollection collected, fun _ => watched.calm active⟩
  have linked := checkHistory_eq_ok.mp watched.checked
  rw [Bool.and_eq_true, Bool.and_eq_true, Bool.and_eq_true, beq_iff_eq] at continuing
  rw [checkHistory_eq_ok]
  refine ⟨?_, checkLinks_append.mpr ⟨linked.2, ?_⟩⟩
  · rw [List.length_append, List.length_singleton, ← continuing.1.1.1]
    exact small
  · simp only [checkLinks, require_bind_eq_ok]
    refine ⟨verified, ?_, ?_, trivial⟩
    · rw [isOfContext, admitted.account, admitted.vault, beq_self_eq_true, beq_self_eq_true]
      exact beq_iff_eq.mpr epoch.symm
    · rw [Bool.and_eq_true, Bool.and_eq_true, beq_iff_eq, Nat.zero_add]
      exact ⟨⟨continuing.1.1.1, continuing.1.1.2⟩, continuing.1.2⟩

theorem Writes.watched {call : Call Digest} (writes : Writes library guard call state next)
    (watching : call.isWatching = true) (plain : guard.origin = none)
    (watched : Watched library guard state) : Watched library guard next := by
  cases writes with
  | capped active =>
    refine ⟨watched.named, watched.unbridged, watched.checked, watched.cases, watched.records, ?_⟩
    intro impossible
    cases impossible
  | alarmed active room =>
    refine ⟨watched.named, watched.unbridged, watched.checked, ?_, watched.records, ?_⟩
    · rw [alarm]
      dsimp only
      rw [List.length_append, List.length_singleton]
      have bounded := watched.cases
      omega
    · intro impossible
      cases impossible
  | accepted active room admitted => exact watched.admitted plain (admit_spec admitted) active
  | settled pending last => cases watching
  | staged active extended => cases watching

theorem watched_of_run {calls : List (Call Digest)} (plain : guard.origin = none)
    (run : Run (Calls library guard) none calls (some state))
    (watching : ∀ call ∈ calls, call.isWatching = true) : Watched library guard state := by
  have kept := run.invariant_of_forall (fun call => call.isWatching = true)
    (fun file => ∀ state, file = some state → Watched library guard state) ?_ watching ?_
  · exact kept state rfl
  · intro before call after watches called watched found same
    rcases calls_cases called with rfl | ⟨-, -, rfl⟩ | ⟨current, later, rfl, rfl, -, writes⟩
    · exact watched found same
    · cases same
      refine ⟨rfl, rfl, rfl, Nat.zero_le _, ?_, fun _ => rfl⟩
      rw [initialState, Dict.size_empty]
      exact Nat.zero_le _
    · cases same
      exact writes.watched watches plain (watched current rfl)
  · intro state impossible
    cases impossible

theorem compare_watched {peer : List (View Digest)} (plain : guard.origin = none)
    (watched : Watched library guard state)
    (checked : checkHistory library guard.context peer = .ok ()) :
    compare library guard state peer =
      if state.views.isEmpty || peer.isEmpty then .error ⟨checkpointRequired, peer, none⟩
      else if (state.views.zip peer).all fun (left, right) => left.root == right.root then
        .ok (min state.views.length peer.length)
      else .error ⟨stateEquivocation, peer, none⟩ := by
  have bounded : @withEvidence Digest _ [] none
      (require (decide (peer.length ≤ limit)) historyLimit) = .ok () := by
    rw [decide_eq_true (checkHistory_eq_ok.mp checked).1]
    rfl
  have bridged : @withEvidence Digest _ [] none (bridgeProofs library guard state) = .ok [] :=
    withEvidence_eq_ok.mpr (bridgeProofs_nil watched.unbridged)
  have signed : @withEvidence Digest _ [] none (require (peer.all fun view =>
      view.isVerified library (authorityFor guard [] view.keyEpoch)) viewRejected) = .ok () := by
    rw [withEvidence_eq_ok, require_eq_ok, List.all_eq_true]
    intro view member
    exact (isVerified_of_checkLinks (checkHistory_eq_ok.mp checked).2 view member).1
  have named : @withEvidence Digest _ [] none (require
      ([].all fun proof : BridgeProof Digest => (bridgePublic proof).isSome) stopIteration) =
        .ok () := rfl
  rw [EpochVault.compare, bounded, ok_bind, bridged, ok_bind, named, ok_bind, signed, ok_bind,
    chain_nil plain, checked, ok_bind, Guard.originOffset, plain]
  cases state.views.isEmpty with
  | true =>
    cases peer.isEmpty with
    | true => rfl
    | false => rfl
  | false =>
    cases peer.isEmpty with
    | true => rfl
    | false =>
      cases (state.views.zip peer).all fun (left, right) => left.root == right.root with
      | true =>
        rw [Option.map_none, Option.getD_none, Nat.zero_add]
        rfl
      | false => rfl

theorem detects_of_watched (injective : Function.Injective library.viewRoot)
    {peerGuard : Guard Digest} {peer : GuardedState Digest}
    (plain : guard.origin = none) (same : peerGuard.context = guard.context)
    (watched : Watched library guard state) (peerWatched : Watched library peerGuard peer)
    (active : state.status = .active) :
    Detects GuardedState.views (compareEvidence library guard peer.views)
      (GuardedFrozen library guard) state peer.views := by
  have peerChecked := peerWatched.checked
  rw [same] at peerChecked
  have verified := isVerified_of_checkLinks (checkHistory_eq_ok.mp watched.checked).2
  have peerVerified := isVerified_of_checkLinks (checkHistory_eq_ok.mp peerChecked).2
  have sameRoots := all_zip_iff injective (fun view member => (verified view member).1)
    fun view member => (peerVerified view member).1
  have room : (state.cases.length == maximumCases) = false := by
    rw [watched.calm active]
    rfl
  have effect : compareEvidence library guard peer.views state =
      if state.views.isEmpty || peer.views.isEmpty then
        onFailure state ⟨checkpointRequired, peer.views, none⟩
      else if (state.views.zip peer.views).all fun (left, right) => left.root == right.root then
        ⟨none, .ok (min state.views.length peer.views.length)⟩
      else onFailure state ⟨stateEquivocation, peer.views, none⟩ := by
    rw [compareEvidence, watched.loads plain]
    dsimp only
    rw [whenActive, active, if_neg (by decide), room, if_neg Bool.false_ne_true,
      compare_watched plain watched peerChecked]
    cases state.views.isEmpty || peer.views.isEmpty with
    | true => rfl
    | false =>
      cases (state.views.zip peer.views).all fun (left, right) => left.root == right.root with
      | true => rfl
      | false => rfl
  have stuck : Stuck (alarm state stateEquivocation peer.views none) := by
    refine ⟨fun active => absurd active (by simp [alarm]), ?_⟩
    intro found last
    rw [alarm] at last
    dsimp only at last
    rw [List.getLast?_concat, Option.some.injEq] at last
    have different : stateEquivocation ≠ rollbackRejected := by decide
    rw [← last]
    exact different
  exact detects_of_eq effect sameRoots ⟨_, rfl⟩ rfl rfl (guardedFrozen_of_stuck stuck)

def exportEvidence (library : HistoryLibrary Digest) (guard : Guard Digest)
    (file : GuardedState Digest) : Except String (List (View Digest)) := do
  let state ← load library guard file
  return state.views

/-- Two histories of one context, both authenticated or both guarded and never rotated, that
any calls have led to: what one exports the other compares with its own views, as long as it
has not stopped itself. It answers with the shorter length exactly where one continues the
other, and any difference but in the signatures stops it for good. -/
theorem fork_evidence (injective : Function.Injective library.viewRoot) :
    (∀ calls peerCalls state peer, Run (HistoryCalls library context) none calls (some state) →
      Run (HistoryCalls library context) none peerCalls (some peer) → state.blocked = false →
      ∃ evidence, exportHistory library context peer = .ok evidence ∧ evidence = peer.views ∧
        Detects HistoryState.views (compareHistory library context evidence)
          (HistoryFrozen library context) state evidence) ∧
    ∀ (guard peerGuard : Guard Digest) calls peerCalls state peer,
      guard.context = context → peerGuard.context = context → guard.origin = none →
      peerGuard.origin = none → (∀ call ∈ calls ++ peerCalls, call.isWatching = true) →
      Run (Calls library guard) none calls (some state) →
      Run (Calls library peerGuard) none peerCalls (some peer) → state.status = .active →
      ∃ evidence, exportEvidence library peerGuard peer = .ok evidence ∧ evidence = peer.views ∧
        Detects GuardedState.views (compareEvidence library guard evidence)
          (GuardedFrozen library guard) state evidence := by
  constructor
  · intro calls peerCalls state peer run peerRun isOpen
    have peerSound := sound_of_historyRun peerRun
    refine ⟨peer.views, ?_, rfl, detects_of_sound injective (sound_of_historyRun run) peerSound
      isOpen⟩
    rw [exportHistory, peerSound.loads]
    rfl
  · intro guard peerGuard calls peerCalls state peer named peerNamed plain peerPlain watching
      run peerRun active
    have watched := watched_of_run plain run fun call member =>
      watching call (List.mem_append_left _ member)
    have peerWatched := watched_of_run peerPlain peerRun fun call member =>
      watching call (List.mem_append_right _ member)
    refine ⟨peer.views, ?_, rfl, detects_of_watched injective plain (peerNamed.trans named.symm)
      watched peerWatched active⟩
    rw [exportEvidence, peerWatched.loads peerPlain]
    rfl

/-! ## Two signatures of one view -/

def plainHistoryContext : HistoryContext := ⟨"account", "vault", "collection", 1, plainKey 'A'⟩

def plainResigned : View Mark :=
  { plainOpening with signatureB64 := String.ofList ('B' :: List.replicate 85 'A' ++ ['=', '=']) }

def plainRival : View Mark := plainView none (.number 2) 1

def plainObserve (view : View Mark) (registry : List Nat) : HistoryCall Mark :=
  .observe view (.descriptors (registry.map fun device => ⟨.number device, .zero⟩))
    (plainCommitment view none) (List.replicate 16 0)

theorem plainObserve_authentic : ([(plainOpening, [1]), (plainResigned, [1]),
    (plainRival, [1, 2])].all fun (view, registry) =>
      (authenticate plainLibrary plainHistoryContext view
        (.descriptors (registry.map fun device => ⟨.number device, .zero⟩))
        (plainCommitment view none) (List.replicate 16 0)).toOption.isSome) = true := by
  decide

theorem plainObserve_first {view : View Mark} {registry : List Nat}
    (authentic : authenticate plainLibrary plainHistoryContext view
      (.descriptors (registry.map fun device => ⟨.number device, .zero⟩))
      (plainCommitment view none) (List.replicate 16 0) = .ok ())
    (first : isNext plainLibrary [] view (plainCommitment view none) = .ok true) :
    Run (HistoryCalls plainLibrary plainHistoryContext) none
      [.initializeHistory, plainObserve view registry]
      (some ⟨plainHistoryContext, [view], false⟩) := by
  have written : (observe plainLibrary plainHistoryContext view
      (.descriptors (registry.map fun device => ⟨.number device, .zero⟩))
      (plainCommitment view none) (List.replicate 16 0)
      (initialHistory plainHistoryContext)).written =
        some ⟨plainHistoryContext, [view], false⟩ := by
    have loads : loadHistory plainLibrary plainHistoryContext
        (initialHistory plainHistoryContext) = .ok (initialHistory plainHistoryContext) :=
      loadHistory_eq_ok.mpr ⟨rfl, rfl, rfl⟩
    have notFork : isFork (initialHistory plainHistoryContext).views view = false := by
      rw [isFork, initialHistory, List.getElem?_nil, Option.any_none, Bool.and_false]
    rw [observe, whenOpen, loads]
    dsimp only
    rw [authentic, notFork]
    dsimp only [initialHistory]
    rw [first]
    rfl
  have called : (plainObserve view registry).written plainLibrary plainHistoryContext
      (some (initialHistory plainHistoryContext)) = some ⟨plainHistoryContext, [view], false⟩ :=
    written
  have created : HistoryCalls plainLibrary plainHistoryContext none .initializeHistory
      (some (initialHistory plainHistoryContext)) := rfl
  have observed : HistoryCalls plainLibrary plainHistoryContext
      (some (initialHistory plainHistoryContext)) (plainObserve view registry)
      (some ⟨plainHistoryContext, [view], false⟩) := by
    rw [HistoryCalls, called]
    rfl
  exact .cons created (.single observed)

theorem checked_of_isSome {computation : Except String Unit}
    (accepted : computation.toOption.isSome = true) : computation = .ok () := by
  cases computation with
  | error reason => cases accepted
  | ok done => rfl

/-- Two histories that agree on the only view but for its signature: the comparison answers
with one, and neither list of views is a prefix of the other. -/
theorem not_prefix_resigned : ∃ calls peerCalls state peer,
    Run (HistoryCalls plainLibrary plainHistoryContext) none calls (some state) ∧
    Run (HistoryCalls plainLibrary plainHistoryContext) none peerCalls (some peer) ∧
    state.blocked = false ∧
    (compareHistory plainLibrary plainHistoryContext peer.views state).answer = .ok 1 ∧
    ¬ state.views <+: peer.views ∧ ¬ peer.views <+: state.views := by
  have authentic := plainObserve_authentic
  rw [List.all_cons, List.all_cons, Bool.and_eq_true, Bool.and_eq_true] at authentic
  have run := plainObserve_first (checked_of_isSome authentic.1) rfl
  have peerRun := plainObserve_first (checked_of_isSome authentic.2.1) rfl
  have detects := detects_of_sound plainLibrary_collisionFree.views (sound_of_historyRun run)
    (sound_of_historyRun peerRun) rfl
  have different : plainOpening ≠ plainResigned := by
    intro same
    have signatures := congrArg View.signatureB64 same
    exact absurd signatures (by decide)
  refine ⟨_, _, _, _, run, peerRun, rfl, ?_, ?_, ?_⟩
  · rw [detects.agrees]
    exact ⟨List.cons_ne_nil _ _, List.cons_ne_nil _ _, .inl (List.prefix_refl _), rfl⟩
  · intro shorter
    exact different (List.cons_prefix_cons.mp shorter).1
  · intro longer
    exact different (List.cons_prefix_cons.mp longer).1.symm

/-- A history and a rival of it find that they differ. -/
theorem fork_evidence_rival : ∃ state peer : HistoryState Mark,
    state.views = [plainOpening] ∧ peer.views = [plainRival] ∧
    (compareHistory plainLibrary plainHistoryContext peer.views state).answer =
      .error stateEquivocation := by
  have authentic := plainObserve_authentic
  rw [List.all_cons, List.all_cons, List.all_cons, Bool.and_eq_true, Bool.and_eq_true,
    Bool.and_eq_true] at authentic
  have run := plainObserve_first (checked_of_isSome authentic.1) rfl
  have peerRun := plainObserve_first (checked_of_isSome authentic.2.2.1) rfl
  obtain ⟨evidence, -, rfl, detects⟩ :=
    (fork_evidence plainLibrary_collisionFree.views).1 _ _ _ _ run peerRun rfl
  have different : plainOpening.toViewBody ≠ plainRival.toViewBody := by
    intro same
    have registries := congrArg ViewBody.registryRoot same
    cases registries
  exact ⟨_, _, rfl, rfl, (detects.forked 0 plainOpening plainRival rfl rfl different).1⟩

end JobAgg.EpochVault
