import JobAgg.EpochVault.Bridges

/-! # Registries in another order

What is checked of a registry does not depend on the order of its entries, and registries of
the same root have the same entries. -/

namespace JobAgg.EpochVault

variable {Digest : Type} {one two : Registry} {device : String}

section Removals

variable {library : RevocationLibrary Digest} {root : Digest}

theorem nodup_of_registryRoot (rooted : registryRoot library one = .ok root) :
    (one.map RegistryEntry.deviceId).Nodup :=
  (registryRoot_eq_ok_iff.mp rooted).2.2.1

theorem perm_of_registryRoot (injective : Function.Injective library.registryDigest)
    (first : registryRoot library one = .ok root) (second : registryRoot library two = .ok root) :
    one.Perm two := by
  rw [registryRoot_eq_ok_iff] at first second
  apply List.perm_of_nodup_nodup_toFinset_eq (.of_map _ first.2.2.1) (.of_map _ second.2.2.1)
  exact injective (first.2.2.2.trans second.2.2.2.symm)

theorem registryRoot_perm (perm : one.Perm two) :
    registryRoot library one = registryRoot library two := by
  have distinct : (one.map RegistryEntry.deviceId).Nodup ↔
      (two.map RegistryEntry.deviceId).Nodup := (perm.map _).nodup_iff
  rw [registryRoot, registryRoot, perm.length_eq, perm.all_eq, decide_eq_decide.mpr distinct,
    List.toFinset_eq_of_perm one two perm]

theorem isActive_perm (perm : one.Perm two) : isActive one device = isActive two device :=
  perm.any_eq

theorem activeDevices_perm (perm : one.Perm two) : activeDevices one = activeDevices two := by
  apply List.Perm.eq_of_pairwise
  · exact fun first second _ _ => le_antisymm
  · exact List.pairwise_insertionSort _ _
  · exact List.pairwise_insertionSort _ _
  · apply (List.perm_insertionSort _ _).trans
    exact ((perm.filter _).map _).trans (List.perm_insertionSort _ _).symm

theorem deviceId_of_entryOf {entry : RegistryEntry} (found : entryOf one device = some entry) :
    entry.deviceId = device := by
  rw [entryOf] at found
  exact beq_iff_eq.mp (@List.find?_some _ (fun entry : RegistryEntry => entry.deviceId == device) _ _ found)

theorem entryOf_eq_some_iff (distinct : (one.map RegistryEntry.deviceId).Nodup)
    {entry : RegistryEntry} :
    entryOf one device = some entry ↔ entry ∈ one ∧ entry.deviceId = device := by
  constructor
  · intro found
    exact ⟨List.mem_of_find?_eq_some found, deviceId_of_entryOf found⟩
  · rintro ⟨listed, rfl⟩
    cases found : entryOf one entry.deviceId with
    | none =>
      rw [entryOf, List.find?_eq_none] at found
      exact absurd (beq_self_eq_true _) (found entry listed)
    | some other =>
      rw [List.inj_on_of_nodup_map distinct (List.mem_of_find?_eq_some found) listed
        (deviceId_of_entryOf found)]

theorem entryOf_perm (perm : one.Perm two)
    (distinct : (one.map RegistryEntry.deviceId).Nodup) : entryOf one device = entryOf two device := by
  apply Option.ext
  intro entry
  rw [entryOf_eq_some_iff distinct, entryOf_eq_some_iff ((perm.map _).nodup_iff.mp distinct),
    perm.mem_iff]

theorem signedBy_perm (perm : one.Perm two) (distinct : (one.map RegistryEntry.deviceId).Nodup)
    {domain : Domain} {signatureB64 : String} :
    signedBy library one device domain root signatureB64 =
      signedBy library two device domain root signatureB64 := by
  rw [signedBy, signedBy, entryOf_perm perm distinct]

variable [DecidableEq Digest]

theorem verifyTransition_perm {transition : Transition Digest} {after : Registry}
    (perm : one.Perm two) (verified : verifyTransition library transition one = .ok after) :
    ∃ other, verifyTransition library transition two = .ok other ∧ after.Perm other := by
  obtain ⟨removes, rooted, resulting⟩ := verifyTransition_spec verified
  have distinct := nodup_of_registryRoot rooted
  have revoked : after.Perm (two.map (revoke transition.targetDeviceId)) := by
    rw [removes]
    exact perm.map _
  refine ⟨_, ?_, revoked⟩
  rw [verifyTransition, require_bind_eq_ok, bind_eq_ok] at verified ⊢
  obtain ⟨valid, found, removal, verified⟩ := verified
  rw [removed_eq_ok_iff] at removal
  obtain ⟨known, fit, rfl⟩ := removal
  refine ⟨valid, _, removed_eq_ok_iff.mpr ⟨?_, ?_, rfl⟩, ?_⟩
  · rwa [← registryRoot_perm perm]
  · rwa [← isActive_perm perm, ← isActive_perm perm, ← activeDevices_perm perm]
  rw [rooted, ok_bind] at verified
  rw [← registryRoot_perm perm, rooted, ok_bind]
  rw [removes] at resulting
  have permuted := @registryRoot_perm _ _ _ library (perm.map (revoke transition.targetDeviceId))
  rw [resulting, ok_bind, require_bind_eq_ok, require_bind_eq_ok] at verified
  rw [← permuted, resulting, ok_bind, require_bind_eq_ok, require_bind_eq_ok]
  exact ⟨verified.1, by rw [← signedBy_perm perm distinct]; exact verified.2.1, rfl⟩

end Removals

section Rotations

variable [DecidableEq Digest] {library : RotationLibrary Digest} {accountId vaultId : String}
  {previousEpoch : Nat} {stateRoot : Digest} {after : Registry}

theorem verifyRemoval_claims {foreign : String} {revocation : Transition Digest}
    {plan : RotationPlan Digest} {claimed : Registry}
    (injective : Function.Injective library.registryDigest)
    (verified : verifyRemoval library foreign revocation plan claimed one accountId vaultId
      previousEpoch stateRoot = .ok after) :
    one.Perm claimed ∧ verifyTransition library.toRevocationLibrary revocation one = .ok after := by
  obtain ⟨-, root, claims, holds⟩ := verifyRemoval_spec verified
  refine ⟨perm_of_registryRoot injective holds claims, ?_⟩
  rw [verifyRemoval, bind_eq_ok] at verified
  obtain ⟨carried, -, verified⟩ := verified
  rw [bind_eq_ok] at verified
  obtain ⟨current, -, verified⟩ := verified
  rw [require_bind_eq_ok, bind_eq_ok] at verified
  obtain ⟨-, found, transition, verified⟩ := verified
  rw [require_bind_eq_ok, bind_eq_ok] at verified
  obtain ⟨-, done, -, same⟩ := verified
  rw [pure_eq_ok] at same
  subst same
  exact mapError_eq_ok.mp transition

theorem verifyEpochRotation_claims {proof : Rotation Digest} {verified : Verified}
    (injective : Function.Injective library.registryDigest)
    (accepted : verifyEpochRotation library proof one accountId vaultId previousEpoch stateRoot =
      .ok verified) :
    one.Perm proof.registry ∧ verifyTransition library.toRevocationLibrary proof.revocation one =
      .ok verified.registry := by
  rw [verifyEpochRotation, bind_eq_ok] at accepted
  obtain ⟨after, removal, accepted⟩ := accepted
  simp only [require_bind_eq_ok, pure_eq_ok] at accepted
  obtain ⟨-, -, -, -, -, rfl⟩ := accepted
  exact verifyRemoval_claims injective removal

end Rotations

end JobAgg.EpochVault
