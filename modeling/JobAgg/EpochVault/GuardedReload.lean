import JobAgg.EpochVault.HistoryFence

/-! # Reading back what was written

The chain of views is checked by `ingest` one view at a time and by `_load` all at once.
A state is ready if the chain passes and, at its end, the last bridge decides the epoch and
the key: that is where the policy of `ingest` and the check of the next load meet. -/

namespace JobAgg.EpochVault

variable {Digest : Type}

variable [DecidableEq Digest] {library : HistoryLibrary Digest} {guard : Guard Digest}
  {proofs more : List (BridgeProof Digest)} {views : List (View Digest)} {view : View Digest}
  {position middle final : Position Digest}

theorem passBridges_append : passBridges (proofs ++ more) position =
    passBridges proofs position >>= passBridges more := by
  induction proofs generalizing position with
  | nil => rfl
  | cons head tail induction =>
    rw [List.cons_append, passBridges, passBridges]
    split
    · cases bridgePublic head with
      | none => rfl
      | some publicB64 => exact induction
    · exact induction

theorem passBridges_of_ne (apart : ∀ proof ∈ proofs, position.previous ≠ proof.plan.stateRoot) :
    passBridges proofs position = .ok position := by
  induction proofs with
  | nil => rfl
  | cons head tail induction =>
    have different : (position.previous == head.plan.stateRoot) = false :=
      beq_false_of_ne (apart head List.mem_cons_self)
    rw [passBridges, different, Bool.false_and, if_neg Bool.false_ne_true]
    exact induction fun proof member => apart proof (List.mem_cons_of_mem _ member)

theorem passBridges_keeps (passed : passBridges proofs position = .ok final) :
    final.previous = position.previous ∧ final.registry = position.registry ∧
      final.sequence = position.sequence := by
  induction proofs generalizing position with
  | nil =>
    cases passed
    exact ⟨rfl, rfl, rfl⟩
  | cons head tail induction =>
    rw [passBridges] at passed
    split at passed
    · cases signer : bridgePublic head with
      | none =>
        rw [signer] at passed
        cases passed
      | some publicB64 =>
        rw [signer] at passed
        have kept := induction passed
        exact kept
    · exact induction passed

theorem passBridges_singleton {proof : BridgeProof Digest} {publicB64 : String}
    (here : position.previous = proof.plan.stateRoot)
    (epoch : position.epoch = proof.plan.previousEpoch)
    (signer : bridgePublic proof = some publicB64) :
    passBridges [proof] position = .ok { position with
      current := some proof, epoch := proof.plan.newEpoch, publicB64 := publicB64 } := by
  rw [passBridges, here, epoch, beq_self_eq_true, beq_self_eq_true, signer]
  rfl

/-! ## Passing views -/

/-- What one view of the chain has to be, once the bridges before it are passed. -/
structure Follows (library : HistoryLibrary Digest) (guard : Guard Digest) (view : View Digest)
    (position : Position Digest) : Prop where
  verified : view.isVerified library position.publicB64 = true
  account : view.accountId = guard.context.accountId
  vault : view.vaultId = guard.context.vaultId
  epoch : view.keyEpoch = position.epoch
  registered : ∀ proof, position.current = some proof →
    view.registryRoot = proof.plan.resultingRegistryRoot
  sequence : view.sequence = position.sequence + 1
  previous : view.previousRoot = position.previous
  registry : view.previousRegistryRoot = position.registry

theorem passView_eq_ok : passView library guard proofs view position = .ok final ↔
    ∃ ready, passBridges proofs position = .ok ready ∧ Follows library guard view ready ∧
      final = { ready with
        previous := view.root, registry := view.registryRoot, sequence := view.sequence } := by
  rw [passView, bind_eq_ok]
  simp only [require_bind_eq_ok, pure_eq_ok, Bool.and_eq_true, beq_iff_eq]
  constructor
  · rintro ⟨ready, passed, verified, names, registered, order, rfl⟩
    refine ⟨ready, passed, ⟨verified, names.1.1, names.1.2, names.2, ?_, order.1.1, order.1.2,
      order.2⟩, rfl⟩
    intro proof current
    rw [current] at registered
    simpa using registered
  · rintro ⟨ready, passed, follows, rfl⟩
    refine ⟨ready, passed, follows.verified, ⟨⟨follows.account, follows.vault⟩, follows.epoch⟩, ?_,
      ⟨⟨follows.sequence, follows.previous⟩, follows.registry⟩, rfl⟩
    cases current : ready.current with
    | none => rfl
    | some proof => simpa using follows.registered proof current

theorem passViews_append {later : List (View Digest)} :
    passViews library guard proofs (views ++ later) position = .ok final ↔
      ∃ middle, passViews library guard proofs views position = .ok middle ∧
        passViews library guard proofs later middle = .ok final := by
  induction views generalizing position with
  | nil =>
    constructor
    · exact fun passed => ⟨position, rfl, passed⟩
    · rintro ⟨middle, same, passed⟩
      cases same
      exact passed
  | cons head tail induction =>
    rw [List.cons_append, passViews, passViews, bind_eq_ok]
    constructor
    · rintro ⟨next, headed, passed⟩
      obtain ⟨middle, first, second⟩ := induction.mp passed
      exact ⟨middle, by rw [headed, ok_bind, first], second⟩
    · rintro ⟨middle, first, second⟩
      rw [bind_eq_ok] at first
      obtain ⟨next, headed, tailed⟩ := first
      exact ⟨next, headed, induction.mpr ⟨middle, tailed, second⟩⟩

theorem passViews_singleton : passViews library guard proofs [view] position = .ok final ↔
    passView library guard proofs view position = .ok final := by
  rw [passViews, bind_eq_ok]
  constructor
  · rintro ⟨next, passed, same⟩
    cases same
    exact passed
  · exact fun passed => ⟨final, passed, rfl⟩

/-- What a chain of views comes to: its end is its last view, and every view has a root of
its own. -/
structure Chained (library : HistoryLibrary Digest) (views : List (View Digest))
    (position final : Position Digest) : Prop where
  previous : final.previous = (views.getLast?.map View.root).getD position.previous
  registry : final.registry =
    (views.getLast?.map fun view => view.registryRoot).getD position.registry
  sequence : final.sequence = position.sequence + views.length
  roots : ∀ view ∈ views, view.root = library.viewRoot view.toViewBody
  sequences : views.map (fun view => view.sequence) =
    (List.range views.length).map (position.sequence + 1 + ·)

theorem chained_of_passViews (passed : passViews library guard proofs views position = .ok final) :
    Chained library views position final := by
  induction views using List.reverseRecOn generalizing final with
  | nil =>
    cases passed
    exact ⟨rfl, rfl, rfl, fun _ member => absurd member List.not_mem_nil, rfl⟩
  | append_singleton front last induction =>
    obtain ⟨middle, begins, ends⟩ := passViews_append.mp passed
    obtain ⟨ready, bridges, follows, rfl⟩ := passView_eq_ok.mp (passViews_singleton.mp ends)
    have before := induction begins
    have counted : last.sequence = position.sequence + front.length + 1 := by
      rw [follows.sequence, (passBridges_keeps bridges).2.2, before.sequence]
    refine ⟨?_, ?_, ?_, ?_, ?_⟩
    · rw [List.getLast?_concat]
      rfl
    · rw [List.getLast?_concat]
      rfl
    · rw [List.length_append, List.length_singleton]
      exact counted
    · intro view member
      rcases List.mem_append.mp member with old | new
      · exact before.roots view old
      · rw [List.mem_singleton.mp new]
        have verified := follows.verified
        rw [View.isVerified, Bool.and_eq_true, Bool.and_eq_true, Bool.and_eq_true,
          beq_iff_eq] at verified
        exact verified.1.1.2
    · rw [List.map_append, before.sequences, List.length_append, List.length_singleton,
        List.range_succ, List.map_append, List.map_singleton, List.map_singleton, counted]
      congr 2
      omega

omit [DecidableEq Digest] in
theorem Chained.fresh (collisionFree : CollisionFree library) {position final : Position Digest}
    (chained : Chained library views position final)
    (root : view.root = library.viewRoot view.toViewBody)
    (later : final.sequence < view.sequence) : ∀ seen ∈ views, seen.root ≠ view.root := by
  intro seen member same
  rw [chained.roots seen member, root] at same
  have number : seen.sequence = view.sequence :=
    congrArg (fun body : ViewBody Digest => body.sequence) (collisionFree.views same)
  have listed := List.mem_map_of_mem (f := fun view : View Digest => view.sequence) member
  rw [chained.sequences, List.mem_map] at listed
  obtain ⟨index, bound, counted⟩ := listed
  rw [List.mem_range] at bound
  rw [chained.sequence] at later
  omega

theorem passViews_concat_proof {proof : BridgeProof Digest}
    (start : position.previous ≠ proof.plan.stateRoot)
    (apart : ∀ view ∈ views.dropLast, view.root ≠ proof.plan.stateRoot) :
    passViews library guard (proofs ++ [proof]) views position =
      passViews library guard proofs views position := by
  induction views generalizing position with
  | nil => rfl
  | cons head tail induction =>
    have headed : passView library guard (proofs ++ [proof]) head position =
        passView library guard proofs head position := by
      rw [passView, passView, passBridges_append]
      cases passed : passBridges proofs position with
      | error reason => rfl
      | ok ready =>
        have skipped : passBridges [proof] ready = .ok ready := by
          apply passBridges_of_ne
          intro other member
          rw [List.mem_singleton.mp member, (passBridges_keeps passed).1]
          exact start
        rw [ok_bind, skipped]
    rw [passViews, passViews, headed]
    cases passed : passView library guard proofs head position with
    | error reason => rfl
    | ok next =>
      rw [ok_bind, ok_bind]
      cases tail with
      | nil => rfl
      | cons second rest =>
        obtain ⟨ready, -, -, rfl⟩ := passView_eq_ok.mp passed
        apply induction
        · exact apart head List.mem_cons_self
        · intro view member
          exact apart view (List.mem_cons_of_mem _ member)

/-! ## Bridges of a state -/

def Guard.authority (guard : Guard Digest) : Authority Digest :=
  guard.bridgeContext.authority (guard.rotationRegistry.getD [])

variable {state next : GuardedState Digest}

theorem bridgeProofs_eq_ok : bridgeProofs library guard state = .ok proofs ↔
    state.bridges.length ≤ maximumBridges ∧
      (guard.rotationRegistry = none → state.bridges = []) ∧
      (∃ final, verifyBridges library.toRotationLibrary guard.bridgeContext state.bridges
        guard.authority = .ok (proofs, final)) ∧
      inPlace (state.views.map View.root) 0 (proofs.map (·.plan.stateRoot)) = true := by
  rw [bridgeProofs, bind_eq_ok]
  simp only [mapError_eq_ok, bridgeRecords, require_bind_eq_ok, pure_eq_ok, decide_eq_true_eq,
    Guard.authority]
  constructor
  · rintro ⟨records, ⟨bounded, rfl⟩, found⟩
    refine ⟨bounded, ?_⟩
    cases known : guard.rotationRegistry with
    | none =>
      rw [known] at found
      dsimp only at found
      rw [require_bind_eq_ok, pure_eq_ok, List.isEmpty_iff] at found
      obtain ⟨none, rfl⟩ := found
      rw [none]
      exact ⟨fun _ => rfl, ⟨_, rfl⟩, rfl⟩
    | some registry =>
      rw [known] at found
      dsimp only at found
      rw [bind_eq_ok] at found
      obtain ⟨⟨some, final⟩, verified, found⟩ := found
      rw [mapError_eq_ok] at verified
      rw [require_bind_eq_ok, pure_eq_ok] at found
      obtain ⟨placed, rfl⟩ := found
      exact ⟨fun absent => absurd absent (Option.some_ne_none _), ⟨final, verified⟩, placed⟩
  · rintro ⟨bounded, without, ⟨final, verified⟩, placed⟩
    refine ⟨state.bridges, ⟨bounded, rfl⟩, ?_⟩
    cases known : guard.rotationRegistry with
    | none =>
      rw [without known] at verified ⊢
      cases verified
      rfl
    | some registry =>
      rw [known] at verified
      dsimp only
      have mapped : (verifyBridges library.toRotationLibrary guard.bridgeContext state.bridges
          (guard.bridgeContext.authority registry)).mapError (fun _ => viewRejected) =
            .ok (proofs, final) := mapError_eq_ok.mpr verified
      rw [mapped, ok_bind]
      dsimp only
      rw [require_bind_eq_ok]
      exact ⟨placed, rfl⟩

theorem mem_of_inPlace {roots list : List Digest} {least : Nat}
    (placed : inPlace roots least list = true) : ∀ root ∈ list, root ∈ roots := by
  induction list generalizing least with
  | nil =>
    intro root member
    cases member
  | cons head tail induction =>
    rw [inPlace, Bool.and_eq_true, Bool.and_eq_true, decide_eq_true_eq] at placed
    intro root member
    rcases List.mem_cons.mp member with rfl | inTail
    · exact placed.1.1
    · exact induction placed.2 root inTail

theorem inPlace_append {roots list added : List Digest} {least : Nat}
    (placed : inPlace roots least list = true) : inPlace (roots ++ added) least list = true := by
  induction list generalizing least with
  | nil => rfl
  | cons head tail induction =>
    rw [inPlace, Bool.and_eq_true, Bool.and_eq_true, decide_eq_true_eq, decide_eq_true_eq]
      at placed
    obtain ⟨⟨member, order⟩, rest⟩ := placed
    rw [inPlace, List.idxOf_append_of_mem member, decide_eq_true order, Bool.and_true,
      Bool.and_eq_true, decide_eq_true_eq]
    exact ⟨List.mem_append_left _ member, induction rest⟩

/-! ## Ready states -/

/-- The chain of a state passes, and the policy at its end is that of the last bridge. -/
structure Ready (library : HistoryLibrary Digest) (guard : Guard Digest)
    (state : GuardedState Digest) (proofs : List (BridgeProof Digest))
    (position ready : Position Digest) : Prop where
  bridged : bridgeProofs library guard state = .ok proofs
  passed : passViews library guard proofs state.views (startPosition library guard) = .ok position
  bridges : passBridges proofs position = .ok ready
  current : ready.current = proofs.getLast?
  policy : currentPolicy library guard state = .ok (ready.epoch, ready.publicB64)

/-- A state that loads and whose next view will be checked as it is admitted. -/
structure Sound (library : HistoryLibrary Digest) (guard : Guard Digest)
    (state : GuardedState Digest) : Prop where
  context : state.context = guard.context
  cases : state.cases.length ≤ maximumCases
  records : state.records.size ≤ limit
  views : state.views.length ≤ limit
  ready : ∃ proofs position ready, Ready library guard state proofs position ready

theorem chain_eq_ok (plain : guard.origin = none) :
    chain library guard views proofs = .ok () ↔ views.length ≤ limit ∧
      ∃ position, passViews library guard proofs views (startPosition library guard) =
        .ok position := by
  rw [chain, require_bind_eq_ok, decide_eq_true_eq, plain]
  dsimp only
  rw [bind_eq_ok]
  simp only [pure_eq_ok, and_true]

theorem Sound.loads (sound : Sound library guard state) (plain : guard.origin = none) :
    load library guard state = .ok state := by
  obtain ⟨proofs, position, ready, isReady⟩ := sound.ready
  exact load_eq_ok sound.context sound.cases sound.records isReady.bridged
    ((chain_eq_ok plain).mpr ⟨sound.views, position, isReady.passed⟩)

theorem sound_initialState : Sound library guard (initialState guard) := by
  have bridged : bridgeProofs library guard (initialState guard) = .ok [] :=
    bridgeProofs_eq_ok.mpr ⟨Nat.zero_le _, fun _ => rfl, ⟨_, rfl⟩, rfl⟩
  refine ⟨rfl, Nat.zero_le _, ?_, Nat.zero_le _, [], startPosition library guard,
    startPosition library guard, bridged, rfl, rfl, rfl, ?_⟩
  · rw [initialState, Dict.size_empty]
    exact Nat.zero_le _
  · rw [currentPolicy, bridged]
    rfl

theorem Ready.of_eq {position ready : Position Digest}
    (isReady : Ready library guard state proofs position ready) (views : next.views = state.views)
    (bridges : next.bridges = state.bridges) :
    Ready library guard next proofs position ready := by
  have bridged : bridgeProofs library guard next = bridgeProofs library guard state := by
    rw [bridgeProofs, bridgeProofs, views, bridges]
  refine ⟨by rw [bridged, isReady.bridged], by rw [views, isReady.passed], isReady.bridges,
    isReady.current, ?_⟩
  rw [currentPolicy, bridged, ← isReady.policy, currentPolicy]

/-! ## Adding a view -/

theorem size_of_readRecords {keyEpoch : Nat} {known records found : Dict String (Record Digest)}
    {envelopes : List SyncQueue.Envelope}
    (read : readRecords library keyEpoch known envelopes records = .ok found) :
    found.size = records.size + envelopes.length := by
  induction envelopes generalizing records with
  | nil =>
    cases read
    rfl
  | cons head tail induction =>
    rw [readRecords, require_bind_eq_ok, Bool.and_eq_true, Bool.and_eq_true,
      decide_eq_true_eq] at read
    obtain ⟨⟨⟨-, fresh⟩, -⟩, read⟩ := read
    rw [induction read, Dict.size_insert_of_notMem fresh, List.length_cons]
    omega

theorem size_of_admitCollection {opaqueState : Bytes} {records : Dict String (Record Digest)}
    (admitted : admitCollection library state view opaqueState = .ok records) :
    records.size ≤ limit := by
  rw [admitCollection] at admitted
  cases body : library.readCollection opaqueState with
  | none =>
    rw [body] at admitted
    cases admitted
  | some collection =>
    rw [body] at admitted
    dsimp only at admitted
    rw [require_bind_eq_ok, require_bind_eq_ok, bind_eq_ok, decide_eq_true_eq] at admitted
    obtain ⟨-, bounded, found, read, admitted⟩ := admitted
    rw [bind_eq_ok] at admitted
    obtain ⟨done, -, same⟩ := admitted
    cases same
    rw [size_of_readRecords read, Dict.size_empty, Nat.zero_add]
    exact bounded

/-- The view names the registry that the last bridge of the history led to. -/
def MatchesBridge (library : HistoryLibrary Digest) (guard : Guard Digest)
    (state : GuardedState Digest) (view : View Digest) : Prop :=
  ∀ proofs proof, bridgeProofs library guard state = .ok proofs → proofs.getLast? = some proof →
    view.registryRoot = proof.plan.resultingRegistryRoot

section Added

variable {registry : PresentedRegistry Digest} {commitment : Commitment Digest}
  {opaqueState : Bytes} {position ready : Position Digest}

theorem Admitted.follows_iff (plain : guard.origin = none)
    (admitted : Admitted library guard state view registry commitment opaqueState next)
    (isReady : Ready library guard state proofs position ready) :
    Follows library guard view ready ↔ MatchesBridge library guard state view := by
  have chained := chained_of_passViews isReady.passed
  obtain ⟨previous, chainRegistry, sequence⟩ := passBridges_keeps isReady.bridges
  obtain ⟨publicB64, policy, verified⟩ := admitted.policy
  rw [isReady.policy, Except.ok.injEq, Prod.mk.injEq] at policy
  obtain ⟨epoch, rfl⟩ := policy
  have continuing := admitted.continuing
  simp only [continues, Guard.originOffset, plain, Bool.and_eq_true, beq_iff_eq, Option.map_none,
    Option.getD_none, Nat.zero_add] at continuing
  rw [chained.previous] at previous
  rw [chained.registry] at chainRegistry
  rw [chained.sequence] at sequence
  simp only [startPosition, plain, Option.map_none, Option.getD_none, Nat.zero_add]
    at previous chainRegistry sequence
  constructor
  · intro follows proofs' proof bridged last
    rw [isReady.bridged, Except.ok.injEq] at bridged
    subst bridged
    exact follows.registered proof (isReady.current.trans last)
  · intro fits
    refine ⟨verified, admitted.account, admitted.vault, epoch.symm, ?_, ?_, ?_, ?_⟩
    · intro proof current
      exact fits proofs proof isReady.bridged (isReady.current.symm.trans current)
    · rw [sequence]
      exact continuing.1.1.1
    · rw [previous]
      exact continuing.1.1.2
    · rw [chainRegistry]
      exact continuing.1.2

theorem Admitted.sound (collisionFree : CollisionFree library) (plain : guard.origin = none)
    (admitted : Admitted library guard state view registry commitment opaqueState next)
    (sound : Sound library guard state) (fits : MatchesBridge library guard state view) :
    Sound library guard next := by
  obtain ⟨proofs, position, ready, isReady⟩ := sound.ready
  have follows := (admitted.follows_iff plain isReady).mpr fits
  obtain ⟨records, collected, rfl⟩ := admitted.added
  have continuing := admitted.continuing
  simp only [continues, Guard.originOffset, plain, Bool.and_eq_true, beq_iff_eq, Option.map_none,
    Option.getD_none, Nat.zero_add] at continuing
  have small := admitted.small
  rw [Guard.originOffset, plain, continuing.1.1.1] at small
  have bridged := bridgeProofs_eq_ok.mp isReady.bridged
  have stillBridged : bridgeProofs library guard
      { state with records := records, views := state.views ++ [view] } = .ok proofs := by
    apply bridgeProofs_eq_ok.mpr
    refine ⟨bridged.1, bridged.2.1, bridged.2.2.1, ?_⟩
    rw [List.map_append]
    exact inPlace_append bridged.2.2.2
  have passed : passViews library guard proofs (state.views ++ [view])
      (startPosition library guard) = .ok { ready with
        previous := view.root, registry := view.registryRoot, sequence := view.sequence } := by
    apply passViews_append.mpr
    exact ⟨position, isReady.passed,
      passViews_singleton.mpr (passView_eq_ok.mpr ⟨ready, isReady.bridges, follows, rfl⟩)⟩
  have chained := chained_of_passViews isReady.passed
  have root := (chained_of_passViews passed).roots view
    (List.mem_append_right _ List.mem_cons_self)
  have later : position.sequence < view.sequence := by
    rw [follows.sequence, (passBridges_keeps isReady.bridges).2.2]
    exact Nat.lt_succ_self _
  have fresh := chained.fresh collisionFree root later
  refine ⟨sound.context, sound.cases, size_of_admitCollection collected, ?_, proofs, _, _,
    stillBridged, passed, passBridges_of_ne ?_, isReady.current, ?_⟩
  · rw [List.length_append, List.length_singleton]
    exact small
  · intro proof member same
    have listed := mem_of_inPlace bridged.2.2.2 _
      (List.mem_map_of_mem (f := fun proof : BridgeProof Digest => proof.plan.stateRoot) member)
    obtain ⟨seen, known, seenRoot⟩ := List.mem_map.mp listed
    exact fresh seen known (seenRoot.trans same.symm)
  · rw [← isReady.policy, currentPolicy, currentPolicy, stillBridged, isReady.bridged]

end Added

/-! ## Adding a bridge -/

theorem policy_eq_ok {epoch : Nat} {publicB64 : String}
    (bridged : bridgeProofs library guard state = .ok proofs)
    (policy : currentPolicy library guard state = .ok (epoch, publicB64)) :
    epoch = (proofs.getLast?.map (·.plan.newEpoch)).getD guard.context.keyEpoch := by
  rw [currentPolicy, bridged, ok_bind] at policy
  cases last : proofs.getLast? with
  | none =>
    rw [last] at policy
    cases policy
    rfl
  | some proof =>
    rw [last] at policy
    dsimp only at policy
    cases signer : bridgePublic proof with
    | none =>
      rw [signer] at policy
      cases policy
    | some found =>
      rw [signer] at policy
      cases policy
      rfl

omit [DecidableEq Digest] in
theorem bridgePublic_of_lists {proof : BridgeProof Digest}
    (signed : ∃ signer, proof.rotationSignerDeviceId = some signer ∧ Lists proof.registry signer) :
    ∃ publicB64, bridgePublic proof = some publicB64 := by
  obtain ⟨signer, named, listed⟩ := signed
  obtain ⟨entry, member, same⟩ := List.mem_map.mp listed
  rw [bridgePublic, named]
  have found : (entryOf proof.registry signer).isSome = true := by
    rw [entryOf, List.find?_isSome]
    exact ⟨entry, member, beq_iff_eq.mpr same⟩
  obtain ⟨holder, here⟩ := Option.isSome_iff_exists.mp found
  exact ⟨holder.signingPublicB64, by rw [Option.bind_some, here]; rfl⟩

theorem last_apart (collisionFree : CollisionFree library) (plain : guard.origin = none)
    {position : Position Digest} {last : View Digest} (found : views.getLast? = some last)
    (passed : passViews library guard proofs views (startPosition library guard) = .ok position) :
    (startPosition library guard).previous ≠ last.root ∧
      ∀ seen ∈ views.dropLast, seen.root ≠ last.root := by
  have parts : views.dropLast ++ [last] = views := List.dropLast_append_getLast? last found
  have root := (chained_of_passViews passed).roots last (List.mem_of_getLast? found)
  constructor
  · rw [root, startPosition, plain]
    exact (collisionFree.nonzero _).symm
  · rw [← parts] at passed
    obtain ⟨middle, begins, ends⟩ := passViews_append.mp passed
    obtain ⟨ready, bridges, follows, -⟩ := passView_eq_ok.mp (passViews_singleton.mp ends)
    apply (chained_of_passViews begins).fresh collisionFree root
    rw [follows.sequence, (passBridges_keeps bridges).2.2]
    exact Nat.lt_succ_self _

theorem staged_sound (collisionFree : CollisionFree library) (plain : guard.origin = none)
    {bridge : Bridge Digest} (extended : staged library guard state bridge = .ok next)
    (sound : Sound library guard state) : Sound library guard next := by
  obtain ⟨proofs, position, ready, isReady⟩ := sound.ready
  obtain ⟨rfl, ⟨last, found, root⟩, all, bridged, -⟩ := staged_spec extended
  obtain ⟨-, -, ⟨final, verified⟩, -⟩ := bridgeProofs_eq_ok.mp bridged
  obtain ⟨-, -, ⟨authority, before⟩, -⟩ := bridgeProofs_eq_ok.mp isReady.bridged
  obtain ⟨first, second, middle, begins, ends, rfl⟩ := verifyBridges_append.mp verified
  rw [before, Except.ok.injEq, Prod.mk.injEq] at begins
  obtain ⟨rfl, rfl⟩ := begins
  obtain ⟨proof, lastly, rfl⟩ := verifyBridges_singleton.mp ends
  have leads := verifyBridge_spec lastly
  have stateRoot : last.root = proof.plan.stateRoot := root.trans leads.state.symm
  have listed : guard.authority.IssuerListed := by
    intro activated
    rw [Guard.authority, BridgeContext.authority, Guard.bridgeContext, plain] at activated
    cases activated
  obtain ⟨publicB64, signer⟩ := bridgePublic_of_lists
    (verifyBridges_signers collisionFree.registries listed verified proof
      (List.mem_append_right _ List.mem_cons_self))
  -- the new bridge lies after the last view, so the views pass as before
  obtain ⟨start, apart⟩ := last_apart collisionFree plain found isReady.passed
  rw [stateRoot] at start apart
  have passed := isReady.passed
  rw [← passViews_concat_proof start apart] at passed
  have previous : ready.previous = proof.plan.stateRoot := by
    rw [(passBridges_keeps isReady.bridges).1, (chained_of_passViews isReady.passed).previous,
      found]
    exact stateRoot
  have epoch : ready.epoch = proof.plan.previousEpoch := by
    rw [leads.previous, epoch_of_verifyBridges before, policy_eq_ok isReady.bridged isReady.policy]
    rfl
  have bridges : passBridges (proofs ++ [proof]) position =
      passBridges proofs position >>= passBridges [proof] := passBridges_append
  rw [isReady.bridges, ok_bind, passBridges_singleton previous epoch signer] at bridges
  refine ⟨sound.context, sound.cases, sound.records, sound.views, proofs ++ [proof], position, _,
    bridged, passed, bridges, ?_, ?_⟩
  · rw [List.getLast?_concat]
  · rw [currentPolicy, bridged, ok_bind, List.getLast?_concat]
    dsimp only
    rw [signer]
    rfl

theorem Admitted.fits (plain : guard.origin = none) {registry : PresentedRegistry Digest}
    {commitment : Commitment Digest} {opaqueState : Bytes}
    (admitted : Admitted library guard state view registry commitment opaqueState next)
    (sound : Sound library guard state) (loads : load library guard next = .ok next) :
    MatchesBridge library guard state view := by
  obtain ⟨proofs, position, ready, isReady⟩ := sound.ready
  obtain ⟨-, -, -, -, later, bridged, chained⟩ := load_spec loads
  obtain ⟨-, final, passed⟩ := (chain_eq_ok plain).mp chained
  obtain ⟨records, -, rfl⟩ := admitted.added
  obtain ⟨bounded, without, ⟨authority, verified⟩, placed⟩ := bridgeProofs_eq_ok.mp bridged
  obtain ⟨-, -, ⟨other, before⟩, -⟩ := bridgeProofs_eq_ok.mp isReady.bridged
  rw [before, Except.ok.injEq, Prod.mk.injEq] at verified
  obtain ⟨rfl, rfl⟩ := verified
  obtain ⟨middle, begins, ends⟩ := passViews_append.mp passed
  rw [isReady.passed, Except.ok.injEq] at begins
  subst begins
  obtain ⟨found, bridges, follows, -⟩ := passView_eq_ok.mp (passViews_singleton.mp ends)
  rw [isReady.bridges, Except.ok.injEq] at bridges
  subst bridges
  exact (admitted.follows_iff plain isReady).mp follows

/-- A view that a call adds to a history names the registry that the last bridge of the
history led to. -/
def Registered (library : HistoryLibrary Digest) (guard : Guard Digest) :
    Option (GuardedState Digest) → Call Digest → Prop
  | some state, .ingest view registry commitment opaqueState =>
    state.status = .active → state.cases.length ≠ maximumCases →
      (∃ next, checkIngest library guard state view registry commitment opaqueState =
        .ok (some next)) → MatchesBridge library guard state view
  | _, _ => True

variable {call : Call Digest} {calls : List (Call Digest)}

theorem Writes.sound (collisionFree : CollisionFree library) (plain : guard.origin = none)
    (writes : Writes library guard call state next) (sound : Sound library guard state)
    (registered : Registered library guard (some state) call) : Sound library guard next := by
  obtain ⟨proofs, position, ready, isReady⟩ := sound.ready
  cases writes with
  | capped active =>
    exact ⟨sound.context, sound.cases, sound.records, sound.views, proofs, position, ready,
      isReady.of_eq rfl rfl⟩
  | alarmed active room =>
    have bounded := sound.cases
    refine ⟨sound.context, ?_, sound.records, sound.views, proofs, position, ready,
      isReady.of_eq rfl rfl⟩
    rw [alarm, List.length_append, List.length_singleton]
    omega
  | accepted active room admitted =>
    exact (admit_spec admitted).sound collisionFree plain sound
      (registered active room ⟨next, admitted⟩)
  | @settled disposition localRoot peerRoot state found pending last =>
    have bounded := sound.cases
    have parts : state.cases.dropLast ++ [found] = state.cases :=
      List.dropLast_append_getLast? found last
    refine ⟨sound.context, ?_, sound.records, sound.views, proofs, position, ready,
      isReady.of_eq rfl rfl⟩
    rw [← parts, List.length_append, List.length_singleton] at bounded
    rw [EpochVault.settled, List.length_append, List.length_singleton]
    exact bounded
  | staged active extended => exact staged_sound collisionFree plain extended sound

theorem Calls.sound (collisionFree : CollisionFree library) (plain : guard.origin = none)
    {before after : Option (GuardedState Digest)} (called : Calls library guard before call after)
    (registered : Registered library guard before call)
    (sound : ∀ state, before = some state → Sound library guard state) :
    ∀ state, after = some state → Sound library guard state := by
  intro later same
  rcases calls_cases called with rfl | ⟨-, -, rfl⟩ | ⟨state, next, rfl, rfl, -, writes⟩
  · exact sound later same
  · cases same
    exact sound_initialState
  · cases same
    exact writes.sound collisionFree plain (sound state rfl) registered

/-- Every state of a run loads as it was written, as long as every view that is added
fits the last bridge; the first view that does not leaves a file that never loads again. -/
theorem loads_iff_registered (collisionFree : CollisionFree library) (plain : guard.origin = none)
    (run : Run (fun before call after => Calls library guard before call after ∧
      Registered library guard before call) none calls (some state)) :
    load library guard state = .ok state ∧
      ∀ call next, Calls library guard (some state) call (some next) →
        (load library guard next = .ok next ↔ Registered library guard (some state) call) := by
  have kept := run.invariant (fun file => ∀ state, file = some state → Sound library guard state)
    (fun before call after step => step.1.sound collisionFree plain step.2)
    (fun state impossible => by cases impossible)
  have sound := kept state rfl
  refine ⟨sound.loads plain, ?_⟩
  intro call next called
  constructor
  · intro loads
    cases call with
    | ingest view registry commitment opaqueState =>
      rintro active room ⟨found, admitted⟩
      have written : (Call.ingest view registry commitment opaqueState).written library guard
          (some state) = some found := by
        rw [Call.written, EpochVault.ingest, sound.loads plain]
        dsimp only
        rw [whenActive, active, if_neg (by decide), if_neg (by rwa [beq_iff_eq]), admitted]
      rw [Calls, Call.applied, written, Option.some_or, Option.some.injEq] at called
      subst called
      exact (admit_spec admitted).fits plain sound loads
    | _ => trivial
  · intro registered
    exact (called.sound collisionFree plain registered kept next rfl).loads plain

/-! ## A view that names the registry before the bridge -/

def plainFirst : View Mark := plainView none (.number 1) 1

/-- A first view, and the removal of the second device after it. -/
def plainCalls : List (Call Mark) :=
  [.initializeHistory,
    .ingest plainFirst (.descriptors [⟨.number 1, .number 2⟩]) (plainCommitment plainFirst none)
      (List.replicate 16 0),
    .stageEpoch (.rotation (plainRotation [plainDevice 'A', plainDevice 'B'] 'B' 1
      plainFirst.root))]

def plainSecond : View Mark :=
  plainView (some plainFirst) (.registry [plainDevice 'A', plainDevice 'B'].toFinset) 2

/-- The next view, under the key of the new epoch, with the registry of the epoch before. -/
def plainStale : Call Mark :=
  .ingest plainSecond (.devices [plainDevice 'A', plainDevice 'B'])
    (plainCommitment plainSecond (some plainFirst)) (List.replicate 16 0)

def plainFile (calls : List (Call Mark)) : Option (GuardedState Mark) :=
  calls.foldl (Call.applied plainLibrary plainGuard) none

theorem plainFile_evaluated :
    (plainFile plainCalls).any (fun state => state.bridges.length == 1 &&
      (plainStale.written plainLibrary plainGuard (some state)).any fun next =>
        !(load plainLibrary plainGuard next).toOption.isSome) = true := by
  decide +kernel

/-- The second view is admitted and leaves a file that does not load. -/
theorem not_loads_stale : ∃ calls state, Run (Calls plainLibrary plainGuard) none calls (some state) ∧
    ¬ load plainLibrary plainGuard state = .ok state := by
  have evaluated := plainFile_evaluated
  rw [Option.any_eq_true] at evaluated
  obtain ⟨before, reached, after⟩ := evaluated
  rw [Bool.and_eq_true, Option.any_eq_true] at after
  obtain ⟨-, state, written, refused⟩ := after
  refine ⟨plainCalls ++ [plainStale], state, ?_, ?_⟩
  · have first : Run (Calls plainLibrary plainGuard) none plainCalls (plainFile plainCalls) := by
      rw [plainFile, plainCalls, List.foldl_cons, List.foldl_cons, List.foldl_cons, List.foldl_nil]
      exact .cons rfl (.cons rfl (.cons rfl (.nil _)))
    rw [reached] at first
    apply first.append
    apply Run.single
    rw [Calls, Call.applied, written]
    rfl
  · intro loads
    rw [loads] at refused
    cases refused

/-- The run up to the removal loads, and so does what follows it as long as the registry
fits. -/
theorem loads_iff_registered_removal : ∃ state, plainFile plainCalls = some state ∧
    load plainLibrary plainGuard state = .ok state ∧
      ∀ call next, Calls plainLibrary plainGuard (some state) call (some next) →
        (load plainLibrary plainGuard next = .ok next ↔
          Registered plainLibrary plainGuard (some state) call) := by
  have evaluated := plainFile_evaluated
  rw [Option.any_eq_true] at evaluated
  obtain ⟨state, reached, -⟩ := evaluated
  have registered : Registered plainLibrary plainGuard
      (some (initialState plainGuard)) (.ingest plainFirst (.descriptors [⟨.number 1, .number 2⟩])
        (plainCommitment plainFirst none) (List.replicate 16 0)) := by
    intro active room admitted proofs proof bridged last
    have none : bridgeProofs plainLibrary plainGuard (initialState plainGuard) = .ok [] := rfl
    rw [none, Except.ok.injEq] at bridged
    subst bridged
    cases last
  have staging {file : Option (GuardedState Mark)} {bridge : Bridge Mark} :
      Registered plainLibrary plainGuard file (.stageEpoch bridge) := by
    cases file with
    | none => trivial
    | some state => trivial
  have run : Run (fun before call after => Calls plainLibrary plainGuard before call after ∧
      Registered plainLibrary plainGuard before call) none plainCalls (plainFile plainCalls) := by
    rw [plainFile, plainCalls, List.foldl_cons, List.foldl_cons, List.foldl_cons, List.foldl_nil]
    exact .cons ⟨rfl, trivial⟩ (.cons ⟨rfl, registered⟩ (.cons ⟨rfl, staging⟩ (.nil _)))
  rw [reached] at run
  exact ⟨state, reached, loads_iff_registered plainLibrary_collisionFree rfl run⟩

end JobAgg.EpochVault
