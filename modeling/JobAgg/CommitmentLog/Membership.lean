import JobAgg.CommitmentLog.VaultLog

/-! # How a membership is rebuilt

The membership of a vault is that of its last activation with the enrollments since. A view
that is added changes only the root that it names, and an enrollment that was verified against
it adds one device. -/

namespace JobAgg.CommitmentLog

open EpochVault

variable {Digest : Type} [DecidableEq Digest] {library : LogLibrary Digest} {vault : VaultKey}
  {current : ActivationRecord Digest} {history : List (View Digest)} {roots : List Digest}
  {additions : List (Enrollment Digest)} {membership : Membership Digest}
  {state final : Membership Digest × Nat}

theorem readmit_eq_ok {addition : Enrollment Digest} :
    readmission library roots state addition = .ok final ↔
      addition.stateRoot ∈ roots ∧ state.2 ≤ roots.idxOf addition.stateRoot ∧
      ∃ registry, verifyEnrollmentAttestation library addition state.1.registry
          { state.1.context with stateRoot := addition.stateRoot } = .ok registry ∧
        final = ({ state.1 with
            context := { state.1.context with stateRoot := addition.stateRoot } }.enroll registry
              addition, roots.idxOf addition.stateRoot) := by
  rw [readmission, require_bind_eq_ok, bind_eq_ok, Bool.and_eq_true, decide_eq_true_eq,
    decide_eq_true_eq]
  simp only [pure_eq_ok]
  constructor
  · rintro ⟨⟨listed, order⟩, registry, verified, rfl⟩
    exact ⟨listed, order, registry, verified, rfl⟩
  · rintro ⟨listed, order, registry, verified, rfl⟩
    exact ⟨⟨listed, order⟩, registry, verified, rfl⟩

theorem readmit_append {addition : Enrollment Digest} (later : List Digest)
    (readmitted : readmission library roots state addition = .ok final) :
    readmission library (roots ++ later) state addition = .ok final := by
  rw [readmit_eq_ok] at readmitted ⊢
  obtain ⟨listed, order, registry, verified, rfl⟩ := readmitted
  rw [List.idxOf_append_of_mem listed]
  exact ⟨List.mem_append_left _ listed, order, registry, verified, rfl⟩

theorem readmits_append (later : List Digest)
    (readmitted : additions.foldlM (readmission library roots) state = .ok final) :
    additions.foldlM (readmission library (roots ++ later)) state = .ok final := by
  induction additions generalizing state with
  | nil => exact readmitted
  | cons head tail induction =>
    rw [List.foldlM_cons, bind_eq_ok] at readmitted ⊢
    obtain ⟨middle, first, rest⟩ := readmitted
    exact ⟨middle, readmit_append later first, induction rest⟩

/-- What enrollments leave of a membership: they change its registry, its generation and the
root that it names. -/
structure Readmitted (roots : List Digest) (additions : List (Enrollment Digest))
    (state final : Membership Digest × Nat) : Prop where
  inside : state.2 < roots.length → final.2 < roots.length
  accountId : final.1.context.accountId = state.1.context.accountId
  vaultId : final.1.context.vaultId = state.1.context.vaultId
  keyEpoch : final.1.context.keyEpoch = state.1.context.keyEpoch
  activationId : final.1.context.activationId = state.1.context.activationId
  records : final.1.records = state.1.records ++ additions

theorem readmitted_of_readmits
    (readmitted : additions.foldlM (readmission library roots) state = .ok final) :
    Readmitted roots additions state final := by
  induction additions generalizing state with
  | nil =>
    cases readmitted
    exact ⟨id, rfl, rfl, rfl, rfl, (List.append_nil _).symm⟩
  | cons head tail induction =>
    rw [List.foldlM_cons, bind_eq_ok] at readmitted
    obtain ⟨middle, first, rest⟩ := readmitted
    have later := induction rest
    obtain ⟨listed, -, registry, -, rfl⟩ := readmit_eq_ok.mp first
    refine ⟨fun _ => later.inside (List.idxOf_lt_length_of_mem listed), later.accountId,
      later.vaultId, later.keyEpoch, later.activationId, ?_⟩
    rw [later.records, Membership.enroll, List.append_assoc, List.singleton_append]

/-- The membership belongs to this activation, and names this view. -/
structure Belongs (vault : VaultKey) (current : ActivationRecord Digest) (stateRoot : Digest)
    (membership : Membership Digest) : Prop where
  accountId : membership.context.accountId = vault.1
  vaultId : membership.context.vaultId = vault.2
  keyEpoch : membership.context.keyEpoch = current.proof.plan.newEpoch
  activationId : membership.context.activationId = current.transitionId
  stateRoot : membership.context.stateRoot = stateRoot

theorem membershipOf_eq_ok :
    membershipOf library vault current history additions = .ok membership ↔
      current.proof.plan.stateRoot ∈ history.map View.root ∧
      ∃ registry final, verifyTransition library.toRevocationLibrary current.proof.revocation
          current.proof.registry = .ok registry ∧
        additions.foldlM (readmission library (history.map View.root))
          (activated vault current registry,
            (history.map View.root).idxOf current.proof.plan.stateRoot) = .ok final ∧
        membership = { final.1 with context := { final.1.context with
          stateRoot := (history.getLast?.map View.root).getD current.proof.plan.stateRoot } } := by
  rw [membershipOf, bind_eq_ok]
  constructor
  · rintro ⟨registry, removed, made⟩
    dsimp only at made
    rw [require_bind_eq_ok, bind_eq_ok, decide_eq_true_eq] at made
    obtain ⟨listed, final, readmitted, made⟩ := made
    exact ⟨listed, registry, final, removed, readmitted, (pure_eq_ok.mp made).symm⟩
  · rintro ⟨listed, registry, final, removed, readmitted, rfl⟩
    refine ⟨registry, removed, ?_⟩
    dsimp only
    rw [require_bind_eq_ok, bind_eq_ok, decide_eq_true_eq]
    exact ⟨listed, final, readmitted, rfl⟩

theorem belongs_of_membershipOf {last : View Digest} (found : history.getLast? = some last)
    (made : membershipOf library vault current history additions = .ok membership) :
    Belongs vault current last.root membership ∧ membership.records = additions := by
  obtain ⟨-, registry, final, -, readmitted, rfl⟩ := membershipOf_eq_ok.mp made
  have kept := readmitted_of_readmits readmitted
  rw [found]
  refine ⟨⟨kept.accountId, kept.vaultId, kept.keyEpoch, kept.activationId, rfl⟩, ?_⟩
  rw [kept.records, activated, List.nil_append]

theorem membershipOf_view (view : View Digest)
    (made : membershipOf library vault current history additions = .ok membership) :
    membershipOf library vault current (history ++ [view]) additions =
      .ok { membership with context := { membership.context with stateRoot := view.root } } := by
  obtain ⟨listed, registry, final, removed, readmitted, rfl⟩ := membershipOf_eq_ok.mp made
  rw [membershipOf_eq_ok, List.map_append, List.idxOf_append_of_mem listed, List.getLast?_concat]
  exact ⟨List.mem_append_left _ listed, registry, final, removed, readmits_append _ readmitted, rfl⟩

theorem membershipOf_enrolled {proof : Enrollment Digest} {registry : Registry}
    (distinct : (history.map View.root).Nodup)
    (made : membershipOf library vault current history additions = .ok membership)
    (verified : verifyEnrollmentAttestation library proof membership.registry membership.context =
      .ok registry) :
    membershipOf library vault current history (additions ++ [proof]) =
      .ok (membership.enroll registry proof) := by
  obtain ⟨listed, before, final, removed, readmitted, rfl⟩ := membershipOf_eq_ok.mp made
  have nonempty : history ≠ [] := by
    rintro rfl
    cases listed
  have parts := List.dropLast_append_getLast nonempty
  have ended := List.getLast?_eq_some_getLast nonempty
  rw [ended] at verified ⊢
  have context := (verifyEnrollment_spec verified).2.2.2.1
  have anchored : proof.stateRoot = (history.getLast nonempty).root :=
    congrArg EnrollmentContext.stateRoot context
  have position : (history.map View.root).idxOf proof.stateRoot = history.length - 1 := by
    rw [← parts, List.map_append, List.map_singleton, List.nodup_append] at distinct
    have fresh : proof.stateRoot ∉ history.dropLast.map View.root := by
      intro known
      apply distinct.2.2 _ known _ (List.mem_singleton_self _)
      exact anchored
    nth_rewrite 1 [← parts]
    rw [List.map_append, List.idxOf_append_of_notMem fresh, List.map_singleton, anchored,
      List.idxOf_cons_self, List.length_map, List.length_dropLast, Nat.add_zero]
  have inside := (readmitted_of_readmits readmitted).inside (List.idxOf_lt_length_of_mem listed)
  rw [List.length_map] at inside
  have renewed : readmission library (history.map View.root) final proof =
      .ok ({ final.1 with context := { final.1.context with
          stateRoot := proof.stateRoot } }.enroll registry proof,
        (history.map View.root).idxOf proof.stateRoot) := by
    rw [readmit_eq_ok]
    refine ⟨?_, by omega, registry, ?_, rfl⟩
    · rw [anchored]
      exact List.mem_map_of_mem (List.getLast_mem nonempty)
    · rw [anchored]
      exact verified
  rw [membershipOf_eq_ok]
  refine ⟨listed, before, ?_⟩
  rw [List.foldlM_append, readmitted, ok_bind, List.foldlM_cons, renewed, ok_bind, ended]
  exact ⟨_, removed, rfl, rfl⟩

theorem membershipOf_activated {proof : Rotation Digest} {registry : Registry} {epoch : Nat}
    {outcome : Verified} {last : View Digest} {status : String}
    (injective : Function.Injective library.registryDigest)
    (found : history.getLast? = some last)
    (verified : verifyEpochRotation library.toRotationLibrary proof registry vault.1 vault.2 epoch
      last.root = .ok outcome) :
    ∃ after, outcome.registry.Perm after ∧
      membershipOf library vault ⟨status, proof.root, proof⟩ history [] =
        .ok (activated vault ⟨status, proof.root, proof⟩ after) := by
  have anchored := (verifyEpochRotation_spec verified).2.2.state
  obtain ⟨same, removal⟩ := verifyEpochRotation_claims injective verified
  obtain ⟨after, removed, permuted⟩ := verifyTransition_perm same removal
  refine ⟨after, permuted, ?_⟩
  rw [membershipOf_eq_ok]
  refine ⟨?_, after, _, removed, rfl, ?_⟩
  · rw [anchored]
    exact List.mem_map_of_mem (List.mem_of_getLast? found)
  · rw [found, activated]
    dsimp only [Option.map_some, Option.getD_some]
    rw [anchored]

end JobAgg.CommitmentLog
