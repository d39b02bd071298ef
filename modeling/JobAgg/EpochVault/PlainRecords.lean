import JobAgg.EpochVault.Bridges
import JobAgg.EpochVault.StateView

/-! # Records of the plain library

Every plain rotation and enrollment is verified, as long as its registry is one and the
devices it names may do what it says. -/

namespace JobAgg.EpochVault

theorem base64Value_A : SyncQueue.base64Value 'A' = some 0 := by decide

theorem decodes_plainKey {letter : Char} (valid : (SyncQueue.base64Value letter).isSome = true)
    (unpadded : letter ≠ '=') : decodes (plainKey letter) 32 = true := by
  simp [decodes, SyncQueue.canonicalBase64Length, plainKey, List.replicate, valid, unpadded,
    base64Value_A]

theorem decodes_plainKey_A : decodes (plainKey 'A') 32 = true :=
  decodes_plainKey (by decide) (by decide)

theorem isEntry_plainDevice {letter : Char}
    (valid : (SyncQueue.base64Value letter).isSome = true) (unpadded : letter ≠ '=') :
    isEntry plainLibrary.toRevocationLibrary (plainDevice letter) = true := by
  have derived : plainLibrary.deriveDeviceId (plainKey letter) (plainKey 'A') = plainId letter := by
    simp [plainLibrary, plainKey]
  have signing := decodes_plainKey valid unpadded
  rw [isEntry, plainDevice, Bool.and_eq_true, Bool.and_eq_true, beq_iff_eq]
  exact ⟨⟨signing, decodes_plainKey_A⟩, derived.symm⟩

theorem plainTexts_valid : decodes plainSignature 64 = true ∧
    decodes (String.ofList (List.replicate 64 'A')) 48 = true ∧
    SyncQueue.isIdentifier "account" = true ∧ SyncQueue.isIdentifier "vault" = true ∧
    SyncQueue.isIdentifier (plainId 'A') = true := by
  decide

theorem plainSignature_decodes : decodes plainSignature 64 = true :=
  plainTexts_valid.1

theorem isSealed_plainWrapper (keyEpoch : Nat) (device : String) :
    (plainWrapper keyEpoch device).isSealed = true := by
  have ciphertext := plainTexts_valid.2.1
  rw [Wrapper.isSealed, plainWrapper, decodes_plainKey_A]
  exact ciphertext

variable {registry : Registry} {target : Char} {keyEpoch : Nat} {stateRoot : Mark}

/-- A registry of valid devices, each listed once. -/
def Plain (registry : Registry) : Prop :=
  registryRoot plainLibrary.toRevocationLibrary registry = .ok (.registry registry.toFinset)

theorem plain_iff : Plain registry ↔ (1 ≤ registry.length ∧ registry.length ≤ 256) ∧
    (∀ entry ∈ registry, isEntry plainLibrary.toRevocationLibrary entry = true) ∧
    (registry.map RegistryEntry.deviceId).Nodup := by
  rw [Plain, registryRoot_eq_ok_iff]
  constructor
  · exact fun plain => ⟨plain.1, plain.2.1, plain.2.2.1⟩
  · exact fun plain => ⟨plain.1, plain.2.1, plain.2.2, rfl⟩

theorem Plain.revoked (plain : Plain registry) (device : String) :
    Plain (registry.map (revoke device)) := by
  rw [plain_iff] at plain ⊢
  obtain ⟨size, entries, distinct⟩ := plain
  refine ⟨by rwa [List.length_map], ?_, by rwa [List.map_map]⟩
  intro entry member
  obtain ⟨old, known, rfl⟩ := List.mem_map.mp member
  exact entries old known

theorem signedBy_plain (plain : Plain registry) {device : String}
    (active : isActive registry device = true) (domain : Domain) (root : Mark) :
    signedBy plainLibrary.toRevocationLibrary registry device domain root plainSignature =
      true := by
  rw [isActive, List.any_eq_true] at active
  obtain ⟨entry, member, same⟩ := active
  rw [Bool.and_eq_true] at same
  cases found : entryOf registry device with
  | none =>
    rw [entryOf, List.find?_eq_none] at found
    exact absurd same.1 (found entry member)
  | some signer =>
    have listed := List.mem_of_find?_eq_some found
    have valid := (plain_iff.mp plain).2.1 signer listed
    rw [isEntry, Bool.and_eq_true, Bool.and_eq_true] at valid
    rw [signedBy, found]
    dsimp only
    rw [valid.1.1, plainSignature_decodes]
    rfl

theorem all_zip_map {Row Value : Type} {allows : Row × Value → Bool} {make : Row → Value}
    (made : ∀ row, allows (row, make row) = true) (rows : List Row) :
    (rows.zip (rows.map make)).all allows = true := by
  induction rows with
  | nil => rfl
  | cons head tail induction =>
    rw [List.map_cons, List.zip_cons_cons, List.all_cons, made, Bool.true_and]
    exact induction

structure Removable (registry : Registry) (target : Char) : Prop where
  named : SyncQueue.isIdentifier (plainId target) = true
  different : plainId target ≠ plainId 'A'
  active : isActive registry (plainId target) = true
  initiates : isActive registry (plainId 'A') = true

theorem Removable.isActive_revoked (removable : Removable registry target) :
    isActive (registry.map (revoke (plainId target))) (plainId 'A') = true := by
  have initiates := removable.initiates
  rw [isActive, List.any_eq_true] at initiates ⊢
  obtain ⟨entry, member, same⟩ := initiates
  rw [Bool.and_eq_true, beq_iff_eq] at same
  refine ⟨revoke (plainId target) entry, List.mem_map_of_mem member, ?_⟩
  rw [revoke, Bool.and_eq_true, beq_iff_eq, same.1, beq_eq_false_iff_ne.mpr removable.different.symm]
  exact ⟨rfl, same.2⟩

theorem mem_activeDevices_of_isActive {device : String}
    (active : isActive registry device = true) : device ∈ activeDevices registry := by
  rw [isActive, List.any_eq_true] at active
  obtain ⟨entry, member, same⟩ := active
  rw [Bool.and_eq_true, beq_iff_eq] at same
  exact mem_activeDevices.mpr ⟨entry, member, same.2, same.1⟩

theorem plainTransition_verifies (plain : Plain registry) (removable : Removable registry target)
    (number : isNumber keyEpoch = true) :
    verifyTransition plainLibrary.toRevocationLibrary (plainTransition registry target keyEpoch)
      registry = .ok (registry.map (revoke (plainId target))) := by
  have valid : (plainTransition registry target keyEpoch).toTransitionBody.isValid = true := by
    obtain ⟨-, -, account, vault, initiator⟩ := plainTexts_valid
    simp only [TransitionBody.isValid, plainTransition, account, vault, initiator,
      removable.named, number, Bool.true_and]
    decide
  have removal : removed plainLibrary.toRevocationLibrary registry (plainId target)
      (plainId 'A') = .ok (registry.map (revoke (plainId target))) := by
    rw [removed_eq_ok_iff]
    refine ⟨⟨_, plain⟩, ?_, rfl⟩
    simp only [Bool.and_eq_true, bne_iff_ne]
    refine ⟨⟨⟨removable.different, removable.active⟩, removable.initiates⟩, ?_⟩
    rw [List.any_eq_true]
    refine ⟨plainId 'A', mem_activeDevices_of_isActive removable.initiates, ?_⟩
    rw [bne_iff_ne]
    exact removable.different.symm
  rw [verifyTransition, require_bind_eq_ok, bind_eq_ok]
  refine ⟨valid, _, removal, ?_⟩
  rw [bind_eq_ok]
  refine ⟨_, plain, ?_⟩
  rw [bind_eq_ok]
  refine ⟨_, plain.revoked _, ?_⟩
  rw [require_bind_eq_ok, require_bind_eq_ok, pure_eq_ok]
  refine ⟨?_, signedBy_plain plain removable.initiates _ _, rfl⟩
  simp only [Bool.and_eq_true, beq_iff_eq]
  exact ⟨⟨rfl, rfl⟩, rfl⟩

theorem plainRotation_verifies (plain : Plain registry) (removable : Removable registry target)
    (number : isNumber keyEpoch = true) :
    verifyEpochRotation plainLibrary.toRotationLibrary
        (plainRotation registry target keyEpoch stateRoot) registry "account" "vault" keyEpoch
        stateRoot =
      .ok ⟨keyEpoch + 1, activeDevices (registry.map (revoke (plainId target))),
        registry.map (revoke (plainId target))⟩ := by
  have verifies := plainTransition_verifies plain removable number
  have after := plain.revoked (plainId target)
  have removal : verifyRemoval plainLibrary.toRotationLibrary rotationRejected
      (plainTransition registry target keyEpoch)
      (plainRotation registry target keyEpoch stateRoot).plan registry registry "account" "vault"
      keyEpoch stateRoot = .ok (registry.map (revoke (plainId target))) := by
    rw [verifyRemoval, bind_eq_ok]
    refine ⟨_, mapError_eq_ok.mpr plain, ?_⟩
    rw [bind_eq_ok]
    refine ⟨_, mapError_eq_ok.mpr plain, ?_⟩
    rw [require_bind_eq_ok, bind_eq_ok]
    refine ⟨beq_self_eq_true _, _, mapError_eq_ok.mpr verifies, ?_⟩
    rw [require_bind_eq_ok, bind_eq_ok]
    refine ⟨?_, (), mapError_eq_ok.mpr ?_, rfl⟩
    · simp only [Bool.and_eq_true, beq_iff_eq]
      exact ⟨⟨⟨rfl, rfl⟩, rfl⟩, rfl⟩
    · rw [validateRotationPlan, require_bind_eq_ok, bind_eq_ok]
      refine ⟨?_, _, after, ?_⟩
      · rw [Bool.and_eq_true, beq_iff_eq]
        exact ⟨rfl, plainSignature_decodes⟩
      · rw [require_bind_eq_ok, require_bind_eq_ok, require_eq_ok, beq_iff_eq, beq_iff_eq]
        exact ⟨rfl, number, rfl⟩
  rw [verifyEpochRotation, bind_eq_ok]
  refine ⟨_, removal, ?_⟩
  simp only [require_bind_eq_ok, pure_eq_ok]
  refine ⟨?_, ?_, ?_, beq_self_eq_true _, signedBy_plain after removable.isActive_revoked _ _, rfl⟩
  · exact decide_eq_true (mem_activeDevices_of_isActive removable.isActive_revoked)
  · rw [beq_iff_eq]
    exact List.length_map _
  · apply all_zip_map
    intro device
    dsimp only
    rw [isSealed_plainWrapper, Bool.and_true, Wrapper.isFor, Bool.and_eq_true]
    exact ⟨beq_self_eq_true _, beq_self_eq_true _⟩

def plainEnrollment (registry : Registry) (target : Char) (keyEpoch generation : Nat)
    (stateRoot : Mark) : Enrollment Mark where
  accountId := "account"
  vaultId := "vault"
  registryGeneration := generation
  keyEpoch := keyEpoch
  stateRoot := stateRoot
  activationId := .number (1000 + keyEpoch)
  nextRegistryGeneration := generation + 1
  priorRegistryRoot := .registry registry.toFinset
  resultingRegistryRoot := .registry (registry ++ [plainDevice target]).toFinset
  targetDeviceId := plainId target
  targetSigningPublicB64 := plainKey target
  targetAgreementPublicB64 := plainKey 'A'
  targetAgreementSha256 := .number 4000
  transcriptSha256 := .number 1
  issuerDeviceId := plainId 'A'
  authorizationCategory := "SAS_CONFIRMED"
  signatureAlgorithm := "Ed25519"
  root := .number (5000 + (generation + 1))
  signatureB64 := plainSignature

/-- A registry with one more device, in order. -/
def enrolled (registry : Registry) (target : Char) : Registry :=
  (registry ++ [plainDevice target]).insertionSort fun first second =>
    first.deviceId ≤ second.deviceId

structure Enrollable (registry : Registry) (target : Char) : Prop where
  valid : (SyncQueue.base64Value target).isSome = true
  unpadded : target ≠ '='
  fresh : ∀ entry ∈ registry, entry.deviceId ≠ plainId target
  room : registry.length < 256
  issues : isActive registry (plainId 'A') = true

theorem Plain.enrolled (plain : Plain registry) (enrollable : Enrollable registry target) :
    Plain (enrolled registry target) := by
  have perm : (EpochVault.enrolled registry target).Perm (registry ++ [plainDevice target]) :=
    List.perm_insertionSort _ _
  rw [plain_iff] at plain ⊢
  obtain ⟨size, entries, distinct⟩ := plain
  refine ⟨?_, ?_, ?_⟩
  · rw [perm.length_eq, List.length_append, List.length_singleton]
    have room := enrollable.room
    omega
  · intro entry member
    rcases List.mem_append.mp (perm.mem_iff.mp member) with old | added
    · exact entries entry old
    · rw [List.mem_singleton.mp added]
      exact isEntry_plainDevice enrollable.valid enrollable.unpadded
  · rw [(perm.map RegistryEntry.deviceId).nodup_iff, List.map_append, List.nodup_append]
    refine ⟨distinct, List.nodup_singleton _, ?_⟩
    intro device listed other added
    obtain ⟨entry, member, rfl⟩ := List.mem_map.mp listed
    rw [List.map_singleton, List.mem_singleton] at added
    rw [added]
    exact enrollable.fresh entry member

theorem plainEnrollment_verifies (plain : Plain registry) (enrollable : Enrollable registry target)
    (number : isNumber keyEpoch = true) {generation : Nat}
    (counted : isNumber generation = true) (next : isNumber (generation + 1) = true) :
    verifyEnrollment plainLibrary.toRotationLibrary
        (plainEnrollment registry target keyEpoch generation stateRoot) registry
        ⟨"account", "vault", generation, keyEpoch, stateRoot, .number (1000 + keyEpoch)⟩
        (.number 1) = .ok (enrolled registry target) := by
  have after := plain.enrolled enrollable
  have perm : (enrolled registry target).Perm (registry ++ [plainDevice target]) :=
    List.perm_insertionSort _ _
  obtain ⟨-, -, account, vault, -⟩ := plainTexts_valid
  rw [verifyEnrollment, require_bind_eq_ok, require_bind_eq_ok, require_bind_eq_ok,
    require_bind_eq_ok, bind_eq_ok]
  refine ⟨rfl, rfl, ?_, ?_, _, plain, ?_⟩
  · simp only [EnrollmentContext.isValid, number, counted, account, vault, Bool.true_and]
    exact beq_self_eq_true _
  · rw [plainEnrollment, next, Bool.true_and]
    exact beq_self_eq_true _
  · rw [require_bind_eq_ok, require_bind_eq_ok, bind_eq_ok]
    refine ⟨beq_self_eq_true _, ?_, _, after, ?_⟩
    · rw [List.all_eq_true]
      intro entry member
      exact bne_iff_ne.mpr (enrollable.fresh entry member)
    · simp only [require_bind_eq_ok, pure_eq_ok]
      refine ⟨?_, enrollable.issues, beq_self_eq_true _,
        signedBy_plain plain enrollable.issues _ _, rfl⟩
      rw [Bool.and_eq_true, beq_iff_eq, beq_iff_eq, List.toFinset_eq_of_perm _ _ perm]
      exact ⟨rfl, rfl⟩

end JobAgg.EpochVault
