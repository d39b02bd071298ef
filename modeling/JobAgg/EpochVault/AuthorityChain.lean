import JobAgg.EpochVault.PlainRecords
import JobAgg.Foundation.Run

/-! # What a chain of bridges can do to the authority

Rotations, delivery packets and enrollments follow each other in any order. Along the chain
devices are added and revoked but never dropped, changed or restored, and someone is left
to act. The generation counts the enrollments of one activation only. -/

namespace JobAgg.EpochVault

variable {Digest : Type} [DecidableEq Digest]

/-- A verified record leads from one authority to the next. -/
def Admits (library : RotationLibrary Digest) (context : BridgeContext Digest)
    (before : Authority Digest) (bridge : Bridge Digest) (after : Authority Digest) : Prop :=
  ∃ proof, verifyBridge library context before bridge = .ok (proof, after)

structure RegistryEntry.LeadsTo (entry later : RegistryEntry) : Prop where
  device : later.deviceId = entry.deviceId
  signing : later.signingPublicB64 = entry.signingPublicB64
  agreement : later.agreementPublicB64 = entry.agreementPublicB64
  revoked : entry.active = false → later.active = false

/-- Every entry is still there, with its keys. -/
def Registry.Extends (before after : Registry) : Prop :=
  ∀ entry ∈ before, ∃ later ∈ after, entry.LeadsTo later

theorem Registry.Extends.refl (registry : Registry) : registry.Extends registry :=
  fun entry member => ⟨entry, member, ⟨rfl, rfl, rfl, id⟩⟩

theorem Registry.Extends.trans {first second third : Registry} (early : first.Extends second)
    (late : second.Extends third) : first.Extends third := by
  intro entry member
  obtain ⟨middle, inSecond, one⟩ := early entry member
  obtain ⟨last, inThird, two⟩ := late middle inSecond
  refine ⟨last, inThird, ?_⟩
  exact ⟨two.device.trans one.device, two.signing.trans one.signing,
    two.agreement.trans one.agreement, fun revoked => two.revoked (one.revoked revoked)⟩

theorem Registry.extends_revoke (registry : Registry) (target : String) :
    registry.Extends (registry.map (revoke target)) := by
  intro entry member
  refine ⟨revoke target entry, List.mem_map_of_mem member, rfl, rfl, rfl, ?_⟩
  intro revoked
  rw [revoke]
  split
  · rfl
  · exact revoked

theorem Registry.extends_enroll (registry : Registry) (target : RegistryEntry) :
    registry.Extends ((registry ++ [target]).insertionSort fun first second =>
      first.deviceId ≤ second.deviceId) := by
  intro entry member
  refine ⟨entry, ?_, rfl, rfl, rfl, id⟩
  rw [List.mem_insertionSort]
  exact List.mem_append_left _ member

theorem Registry.Extends.not_isActive {before after : Registry} (extended : before.Extends after)
    (distinct : (after.map RegistryEntry.deviceId).Nodup) {entry : RegistryEntry}
    (member : entry ∈ before) (revoked : entry.active = false) :
    isActive after entry.deviceId = false := by
  obtain ⟨later, inAfter, leads⟩ := extended entry member
  rw [isActive, List.any_eq_false]
  intro other inOther active
  rw [Bool.and_eq_true, beq_iff_eq] at active
  have same : other = later := by
    apply List.inj_on_of_nodup_map distinct inOther inAfter
    rw [active.1, leads.device]
  rw [same, leads.revoked revoked] at active
  cases active.2

variable {library : RotationLibrary Digest} {context : BridgeContext Digest}
  {before after : Authority Digest} {bridge : Bridge Digest}

theorem activeDevices_ne_nil {registry : Registry} {device : String}
    (active : isActive registry device = true) : activeDevices registry ≠ [] := by
  rw [isActive, List.any_eq_true] at active
  obtain ⟨entry, member, same⟩ := active
  rw [Bool.and_eq_true] at same
  have listed : entry.deviceId ∈ activeDevices registry :=
    mem_activeDevices.mpr ⟨entry, member, same.2, rfl⟩
  exact List.ne_nil_of_mem listed

theorem verifyEpochRotation_remains {proof : Rotation Digest} {registry : Registry}
    {accountId vaultId : String} {previousEpoch : Nat} {stateRoot : Digest} {verified : Verified}
    (accepted : verifyEpochRotation library proof registry accountId vaultId previousEpoch
      stateRoot = .ok verified) : activeDevices verified.registry ≠ [] := by
  have removes := (verifyEpochRotation_spec accepted).2.2
  rw [verifyEpochRotation, bind_eq_ok] at accepted
  obtain ⟨after, removal, accepted⟩ := accepted
  rw [require_bind_eq_ok, decide_eq_true_eq, removes.recipients] at accepted
  exact List.ne_nil_of_mem accepted.1

theorem verifyDeviceDelivery_remains {packet : Packet Digest} {registry : Registry}
    {accountId vaultId device : String} {previousEpoch : Nat} {stateRoot activationId : Digest}
    {verified : Verified}
    (accepted : verifyDeviceDelivery library packet registry accountId vaultId previousEpoch
      stateRoot activationId device = .ok verified) : activeDevices verified.registry ≠ [] := by
  rw [verifyDeviceDelivery, require_bind_eq_ok, bind_eq_ok] at accepted
  obtain ⟨-, after, removal, accepted⟩ := accepted
  simp only [require_bind_eq_ok, pure_eq_ok, Bool.and_eq_true] at accepted
  obtain ⟨-, ⟨⟨issued, -⟩, -⟩, -, -, -, -, rfl⟩ := accepted
  exact activeDevices_ne_nil issued

structure Advances (library : RotationLibrary Digest) (before : Authority Digest)
    (bridge : Bridge Digest) (after : Authority Digest) : Prop where
  kept : before.registry.Extends after.registry
  registered : ∃ root, registryRoot library.toRevocationLibrary after.registry = .ok root
  remains : activeDevices after.registry ≠ []
  epoch : after.epoch = if bridge.isEnrollment then before.epoch else before.epoch + 1
  generation : after.generation =
    if bridge.isEnrollment then before.generation + 1 else after.epoch

theorem Admits.advances (admits : Admits library context before bridge after) :
    Advances library before bridge after := by
  obtain ⟨proof, verified⟩ := admits
  have leads := verifyBridge_spec verified
  cases bridge with
  | enrollment enrollment =>
    rw [verifyBridge] at verified
    cases activation : before.activationId with
    | none =>
      rw [activation] at verified
      cases verified
    | some activationId =>
      rw [activation] at verified
      dsimp only at verified
      rw [bind_eq_ok] at verified
      obtain ⟨registry, enrolled, same⟩ := verified
      rw [pure_eq_ok, Prod.mk.injEq] at same
      obtain ⟨rfl, rfl⟩ := same
      obtain ⟨sorted, -, -, -, generation, -⟩ := verifyEnrollment_spec enrolled
      refine ⟨?_, ⟨_, leads.root⟩, ?_, leads.epoch, generation⟩
      · dsimp only
        rw [sorted]
        exact Registry.extends_enroll _ _
      · have listed : enrollment.target.deviceId ∈ activeDevices registry := by
          rw [mem_activeDevices, sorted]
          refine ⟨enrollment.target, ?_, rfl, rfl⟩
          rw [List.mem_insertionSort]
          exact List.mem_append_right _ List.mem_cons_self
        exact List.ne_nil_of_mem listed
  | rotation rotation =>
    rw [verifyBridge, bind_eq_ok] at verified
    obtain ⟨outcome, rotated, same⟩ := verified
    rw [pure_eq_ok, Prod.mk.injEq] at same
    obtain ⟨rfl, rfl⟩ := same
    obtain ⟨target, revoked⟩ := (verifyEpochRotation_spec rotated).2.2.revokes
    refine ⟨?_, ⟨_, leads.root⟩, verifyEpochRotation_remains rotated, leads.epoch, rfl⟩
    dsimp only
    rw [revoked]
    exact Registry.extends_revoke _ target
  | packet packet =>
    rw [verifyBridge, bind_eq_ok] at verified
    obtain ⟨outcome, delivered, same⟩ := verified
    rw [pure_eq_ok, Prod.mk.injEq] at same
    obtain ⟨rfl, rfl⟩ := same
    obtain ⟨target, revoked⟩ := (verifyDeviceDelivery_spec delivered).2.2.2.revokes
    refine ⟨?_, ⟨_, leads.root⟩, verifyDeviceDelivery_remains delivered, leads.epoch, rfl⟩
    dsimp only
    rw [revoked]
    exact Registry.extends_revoke _ target

/-! ## Chains -/

variable {bridges more : List (Bridge Digest)} {start middle final : Authority Digest}

theorem run_of_verifyBridges {proofs : List (BridgeProof Digest)}
    (verified : verifyBridges library context bridges start = .ok (proofs, final)) :
    Run (Admits library context) start bridges final := by
  induction bridges generalizing start proofs with
  | nil =>
    cases verified
    exact .nil _
  | cons head tail induction =>
    rw [verifyBridges, bind_eq_ok] at verified
    obtain ⟨⟨proof, next⟩, headed, verified⟩ := verified
    rw [bind_eq_ok] at verified
    obtain ⟨⟨rest, last⟩, tailed, same⟩ := verified
    rw [pure_eq_ok, Prod.mk.injEq] at same
    obtain ⟨rfl, rfl⟩ := same
    exact .cons ⟨proof, headed⟩ (induction tailed)

theorem extends_of_run (run : Run (Admits library context) start bridges final)
    (registered : ∃ root, registryRoot library.toRevocationLibrary start.registry = .ok root) :
    start.registry.Extends final.registry ∧
      ∃ root, registryRoot library.toRevocationLibrary final.registry = .ok root := by
  apply run.invariant (fun authority => start.registry.Extends authority.registry ∧
    ∃ root, registryRoot library.toRevocationLibrary authority.registry = .ok root)
  · intro before bridge after admits kept
    have advances := admits.advances
    exact ⟨kept.1.trans advances.kept, advances.registered⟩
  · exact ⟨Registry.Extends.refl _, registered⟩

/-- The stretch between any two points of a verified chain: devices and their keys stay, who
is revoked is never active again, someone is active after every record, a rotation or a
packet begins the next epoch and its own generation, and an enrollment is the next
generation of the same epoch. -/
theorem authority_only_shrinks {registry : Registry} {proofs : List (BridgeProof Digest)}
    {front back : List (Bridge Digest)}
    (registered : ∃ root, registryRoot library.toRevocationLibrary registry = .ok root)
    (verified : verifyBridges library context (front ++ bridges ++ back)
      (context.authority registry) = .ok (proofs, final)) :
    ∃ earlier later, Run (Admits library context) (context.authority registry) front earlier ∧
      Run (Admits library context) earlier bridges later ∧
      Run (Admits library context) later back final ∧
      earlier.registry.Extends later.registry ∧
      (∀ entry ∈ earlier.registry, entry.active = false →
        isActive later.registry entry.deviceId = false) ∧
      ∀ bridge, bridges = [bridge] → activeDevices later.registry ≠ [] ∧
        later.epoch = (if bridge.isEnrollment then earlier.epoch else earlier.epoch + 1) ∧
        later.generation =
          (if bridge.isEnrollment then earlier.generation + 1 else later.epoch) := by
  rw [List.append_assoc] at verified
  obtain ⟨first, second, earlier, begins, verified, -⟩ := verifyBridges_append.mp verified
  obtain ⟨third, fourth, later, passes, ends, -⟩ := verifyBridges_append.mp verified
  have early := run_of_verifyBridges begins
  have stretch := run_of_verifyBridges passes
  obtain ⟨kept, root, rooted⟩ := extends_of_run stretch (extends_of_run early registered).2
  refine ⟨earlier, later, early, stretch, run_of_verifyBridges ends, kept, ?_, ?_⟩
  · intro entry member revoked
    exact kept.not_isActive (registryRoot_eq_ok_iff.mp rooted).2.2.1 member revoked
  · rintro bridge rfl
    obtain ⟨proof, one, -⟩ := verifyBridges_singleton.mp passes
    have advances : Advances library earlier bridge later := Admits.advances ⟨proof, one⟩
    exact ⟨advances.remains, advances.epoch, advances.generation⟩

/-! ## A removal, an enrollment and a removal -/

def plainContext : BridgeContext Mark where
  accountId := "account"
  vaultId := "vault"
  keyEpoch := 1
  registryGeneration := 1
  activationId := none
  issuerDeviceId := none

def plainDevices : Registry := [plainDevice 'A', plainDevice 'B']

def plainRemaining : Registry := plainDevices.map (revoke (plainId 'B'))

theorem plainDevices_evaluated : (plainDevices.map RegistryEntry.deviceId).Nodup ∧
    (SyncQueue.isIdentifier (plainId 'B') = true ∧ plainId 'B' ≠ plainId 'A') ∧
    (SyncQueue.isIdentifier (plainId 'C') = true ∧ plainId 'C' ≠ plainId 'A') ∧
    isActive plainDevices (plainId 'B') = true ∧ isActive plainDevices (plainId 'A') = true ∧
    (plainRemaining.all (·.deviceId != plainId 'C')) = true ∧
    isActive plainRemaining (plainId 'A') = true ∧
    isActive (enrolled plainRemaining 'C') (plainId 'C') = true ∧
    isActive (enrolled plainRemaining 'C') (plainId 'A') = true := by
  decide

theorem plainDevices_plain : Plain plainDevices := by
  rw [plain_iff]
  refine ⟨by decide, ?_, plainDevices_evaluated.1⟩
  intro entry member
  rcases List.mem_cons.mp member with rfl | other
  · exact isEntry_plainDevice (by decide) (by decide)
  · rw [List.mem_singleton.mp other]
    exact isEntry_plainDevice (by decide) (by decide)

theorem plainDevices_removable : Removable plainDevices 'B' := by
  obtain ⟨-, ⟨named, different⟩, -, active, initiates, -⟩ := plainDevices_evaluated
  exact ⟨named, different, active, initiates⟩

theorem plainRemaining_enrollable : Enrollable plainRemaining 'C' := by
  obtain ⟨-, -, -, -, -, fresh, issues, -⟩ := plainDevices_evaluated
  rw [List.all_eq_true] at fresh
  exact ⟨by decide, by decide, fun entry member => bne_iff_ne.mp (fresh entry member),
    by decide, issues⟩

theorem plainRenewed_removable : Removable (enrolled plainRemaining 'C') 'C' := by
  obtain ⟨-, -, ⟨named, different⟩, -, -, -, -, active, initiates⟩ := plainDevices_evaluated
  exact ⟨named, different, active, initiates⟩

/-- The second device is removed and a third one enrolled. -/
def plainRenewal : List (Bridge Mark) :=
  [.rotation (plainRotation plainDevices 'B' 1 (.number 1)),
    .enrollment (plainEnrollment plainRemaining 'C' 2 2 (.number 1))]

def plainReset : Bridge Mark :=
  .rotation (plainRotation (enrolled plainRemaining 'C') 'C' 2 (.number 1))

def plainRenewed : Authority Mark where
  registry := enrolled plainRemaining 'C'
  epoch := 2
  generation := 3
  activationId := some (.number 1002)
  issuerDeviceId := some (plainId 'A')

theorem plainRenewal_admitted : ∃ proofs, verifyBridges plainLibrary.toRotationLibrary
    plainContext plainRenewal (plainContext.authority plainDevices) =
      .ok (proofs, plainRenewed) := by
  have rotated := @plainRotation_verifies _ _ _ (.number 1) plainDevices_plain
    plainDevices_removable (by decide : isNumber 1 = true)
  have joined := @plainEnrollment_verifies _ _ _ (.number 1)
    (plainDevices_plain.revoked (plainId 'B')) plainRemaining_enrollable
    (by decide : isNumber 2 = true) 2 (by decide) (by decide)
  have first : ∃ proof, verifyBridge plainLibrary.toRotationLibrary plainContext
      (plainContext.authority plainDevices)
      (.rotation (plainRotation plainDevices 'B' 1 (.number 1))) = .ok (proof,
        ⟨plainRemaining, 2, 2, some (.number 1002), some (plainId 'A')⟩) := by
    apply Exists.intro
    rw [verifyBridge, bind_eq_ok]
    exact ⟨_, rotated, rfl⟩
  have second : ∃ proof, verifyBridge plainLibrary.toRotationLibrary plainContext
      ⟨plainRemaining, 2, 2, some (.number 1002), some (plainId 'A')⟩
      (.enrollment (plainEnrollment plainRemaining 'C' 2 2 (.number 1))) =
        .ok (proof, plainRenewed) := by
    apply Exists.intro
    rw [verifyBridge]
    exact bind_eq_ok.mpr ⟨_, joined, rfl⟩
  obtain ⟨one, first⟩ := first
  obtain ⟨two, second⟩ := second
  refine ⟨[one] ++ [two], ?_⟩
  rw [plainRenewal, ← List.singleton_append, verifyBridges_append]
  exact ⟨[one], [two], _, verifyBridges_singleton.mpr ⟨one, first, rfl⟩,
    verifyBridges_singleton.mpr ⟨two, second, rfl⟩, rfl⟩

/-- An accepted chain in which a rotation does not raise the generation. -/
theorem not_generation_increases : ∃ proofs later after,
    verifyBridges plainLibrary.toRotationLibrary plainContext plainRenewal
      (plainContext.authority plainDevices) = .ok (proofs, plainRenewed) ∧
    verifyBridges plainLibrary.toRotationLibrary plainContext (plainRenewal ++ [plainReset])
      (plainContext.authority plainDevices) = .ok (later, after) ∧
    ¬ plainRenewed.generation < after.generation := by
  obtain ⟨proofs, renewed⟩ := plainRenewal_admitted
  have rotated := @plainRotation_verifies _ _ _ (.number 1)
    ((plainDevices_plain.revoked (plainId 'B')).enrolled plainRemaining_enrollable)
    plainRenewed_removable (by decide : isNumber 2 = true)
  have reset : ∃ proof, verifyBridge plainLibrary.toRotationLibrary plainContext plainRenewed
      plainReset = .ok (proof, ⟨(enrolled plainRemaining 'C').map (revoke (plainId 'C')), 3, 3,
        some (.number 1003), some (plainId 'A')⟩) := by
    apply Exists.intro
    rw [plainReset, verifyBridge, bind_eq_ok]
    exact ⟨_, rotated, rfl⟩
  obtain ⟨proof, reset⟩ := reset
  have whole := verifyBridges_append.mpr
    ⟨_, _, _, renewed, verifyBridges_singleton.mpr ⟨_, reset, rfl⟩, rfl⟩
  exact ⟨_, _, _, renewed, whole, lt_irrefl 3⟩

/-- The enrollment in this chain is the next generation of its epoch. -/
theorem authority_only_shrinks_renewal : ∃ earlier later,
    Run (Admits plainLibrary.toRotationLibrary plainContext) earlier
      [.enrollment (plainEnrollment plainRemaining 'C' 2 2 (.number 1))] later ∧
    earlier.registry.Extends later.registry ∧ activeDevices later.registry ≠ [] ∧
    later.epoch = earlier.epoch ∧ later.generation = earlier.generation + 1 := by
  obtain ⟨proofs, renewed⟩ := plainRenewal_admitted
  have verified : verifyBridges plainLibrary.toRotationLibrary plainContext
      ([.rotation (plainRotation plainDevices 'B' 1 (.number 1))] ++
        [.enrollment (plainEnrollment plainRemaining 'C' 2 2 (.number 1))] ++ [])
      (plainContext.authority plainDevices) = .ok (proofs, plainRenewed) := renewed
  obtain ⟨earlier, later, -, run, -, kept, -, one⟩ :=
    authority_only_shrinks ⟨_, plainDevices_plain⟩ verified
  exact ⟨earlier, later, run, kept, one _ rfl⟩

end JobAgg.EpochVault
