import JobAgg.EpochVault.EpochRotation

/-! # Bridges between epochs

A history keeps the rotations and enrollments it went through as bridges. They are
verified as a chain: each from the epoch and the registry that the ones before it led
to. -/

namespace JobAgg.EpochVault

variable {Digest : Type}

inductive Bridge (Digest : Type) where
  | rotation (proof : Rotation Digest)
  | packet (delivery : Packet Digest)
  | enrollment (proof : Enrollment Digest)
deriving DecidableEq

def Bridge.stateRoot : Bridge Digest → Digest
  | .rotation proof => proof.plan.stateRoot
  | .packet delivery => delivery.proof.plan.stateRoot
  | .enrollment proof => proof.stateRoot

def Bridge.isEnrollment : Bridge Digest → Bool
  | .enrollment _ => true
  | _ => false

def Bridge.isPacket : Bridge Digest → Bool
  | .packet _ => true
  | _ => false

def maximumBridges : Nat := 32

def bridgeRecords (records : List (Bridge Digest)) : Except String (List (Bridge Digest)) := do
  require (decide (records.length ≤ maximumBridges)) rotationRejected
  return records

structure BridgeContext (Digest : Type) where
  accountId : String
  vaultId : String
  keyEpoch : Nat
  registryGeneration : Nat
  activationId : Option Digest
  issuerDeviceId : Option String

/-- Where a chain of bridges has led to. -/
structure Authority (Digest : Type) where
  registry : Registry
  epoch : Nat
  generation : Nat
  activationId : Option Digest
  issuerDeviceId : Option String

def BridgeContext.authority (context : BridgeContext Digest) (registry : Registry) :
    Authority Digest where
  registry := registry
  epoch := context.keyEpoch
  generation := context.registryGeneration
  activationId := context.activationId
  issuerDeviceId := context.issuerDeviceId

structure BridgePlan (Digest : Type) where
  previousEpoch : Nat
  newEpoch : Nat
  stateRoot : Digest
  resultingRegistryRoot : Digest
  recipients : List String
deriving DecidableEq

structure BridgeProof (Digest : Type) where
  plan : BridgePlan Digest
  registry : Registry
  rotationSignerDeviceId : Option String
deriving DecidableEq

def RotationPlan.bridgePlan (plan : RotationPlan Digest) : BridgePlan Digest where
  previousEpoch := plan.previousEpoch
  newEpoch := plan.newEpoch
  stateRoot := plan.stateRoot
  resultingRegistryRoot := plan.resultingRegistryRoot
  recipients := plan.recipients

variable [DecidableEq Digest]

/-- One round of the loop of `verify_bridges`. -/
def verifyBridge (library : RotationLibrary Digest) (context : BridgeContext Digest)
    (authority : Authority Digest) : Bridge Digest →
    Except String (BridgeProof Digest × Authority Digest)
  | .enrollment proof =>
    match authority.activationId with
    | none => .error rotationRejected
    | some activationId => do
      let after ← verifyEnrollment library proof authority.registry {
        accountId := context.accountId
        vaultId := context.vaultId
        registryGeneration := authority.generation
        keyEpoch := authority.epoch
        stateRoot := proof.stateRoot
        activationId := activationId } proof.transcriptSha256
      return ({
        plan := {
          previousEpoch := authority.epoch
          newEpoch := authority.epoch
          stateRoot := proof.stateRoot
          resultingRegistryRoot := proof.resultingRegistryRoot
          recipients := activeDevices after }
        registry := authority.registry
        rotationSignerDeviceId := authority.issuerDeviceId },
        { authority with registry := after, generation := proof.nextRegistryGeneration })
  | .rotation proof => do
    let verified ← verifyEpochRotation library proof authority.registry context.accountId
      context.vaultId authority.epoch proof.plan.stateRoot
    return (⟨proof.plan.bridgePlan, proof.registry, some proof.rotationSignerDeviceId⟩,
      ⟨verified.registry, verified.newEpoch, verified.newEpoch, some proof.root,
        some proof.rotationSignerDeviceId⟩)
  | .packet packet => do
    let proof := packet.proof
    let verified ← verifyDeviceDelivery library packet authority.registry context.accountId
      context.vaultId authority.epoch proof.plan.stateRoot proof.activationId
      proof.recipientDeviceId
    return (⟨proof.plan.bridgePlan, proof.registry, some proof.rotationSignerDeviceId⟩,
      ⟨verified.registry, verified.newEpoch, verified.newEpoch, some proof.activationId,
        some proof.rotationSignerDeviceId⟩)

/-- `verify_bridges`, with what the bridges lead to -/
def verifyBridges (library : RotationLibrary Digest) (context : BridgeContext Digest) :
    List (Bridge Digest) → Authority Digest →
      Except String (List (BridgeProof Digest) × Authority Digest)
  | [], authority => .ok ([], authority)
  | bridge :: rest, authority => do
    let (proof, next) ← verifyBridge library context authority bridge
    let (proofs, final) ← verifyBridges library context rest next
    return (proof :: proofs, final)

variable {library : RotationLibrary Digest} {context : BridgeContext Digest}
  {bridges more : List (Bridge Digest)} {bridge : Bridge Digest}
  {authority middle final : Authority Digest} {proof : BridgeProof Digest}
  {proofs later : List (BridgeProof Digest)}

theorem verifyBridges_append :
    verifyBridges library context (bridges ++ more) authority = .ok (later, final) ↔
      ∃ first second middle, verifyBridges library context bridges authority =
          .ok (first, middle) ∧
        verifyBridges library context more middle = .ok (second, final) ∧
        later = first ++ second := by
  induction bridges generalizing authority later with
  | nil =>
    rw [List.nil_append]
    constructor
    · exact fun verified => ⟨[], later, authority, rfl, verified, rfl⟩
    · rintro ⟨first, second, middle, same, verified, rfl⟩
      cases same
      exact verified
  | cons head tail induction =>
    rw [List.cons_append, verifyBridges, verifyBridges]
    constructor
    · intro verified
      rw [bind_eq_ok] at verified
      obtain ⟨⟨proof, next⟩, headed, verified⟩ := verified
      rw [bind_eq_ok] at verified
      obtain ⟨⟨proofs, last⟩, tailed, same⟩ := verified
      rw [pure_eq_ok, Prod.mk.injEq] at same
      obtain ⟨rfl, rfl⟩ := same
      obtain ⟨first, second, middle, begins, ends, rfl⟩ := induction.mp tailed
      refine ⟨proof :: first, second, middle, ?_, ends, rfl⟩
      rw [headed, ok_bind]
      dsimp only
      rw [begins, ok_bind]
      rfl
    · rintro ⟨first, second, middle, verified, ends, rfl⟩
      rw [bind_eq_ok] at verified
      obtain ⟨⟨proof, next⟩, headed, verified⟩ := verified
      rw [bind_eq_ok] at verified
      obtain ⟨⟨proofs, last⟩, tailed, same⟩ := verified
      rw [pure_eq_ok, Prod.mk.injEq] at same
      obtain ⟨rfl, rfl⟩ := same
      have whole := induction.mpr ⟨proofs, second, last, tailed, ends, rfl⟩
      rw [headed, ok_bind]
      dsimp only
      rw [whole, ok_bind]
      rfl

theorem verifyBridges_singleton :
    verifyBridges library context [bridge] authority = .ok (later, final) ↔
      ∃ proof, verifyBridge library context authority bridge = .ok (proof, final) ∧
        later = [proof] := by
  rw [verifyBridges, bind_eq_ok]
  constructor
  · rintro ⟨⟨proof, next⟩, verified, same⟩
    cases same
    exact ⟨proof, verified, rfl⟩
  · rintro ⟨proof, verified, rfl⟩
    exact ⟨(proof, final), verified, rfl⟩

structure Leads (library : RotationLibrary Digest) (bridge : Bridge Digest)
    (authority final : Authority Digest) (proof : BridgeProof Digest) : Prop where
  previous : proof.plan.previousEpoch = authority.epoch
  next : proof.plan.newEpoch = final.epoch
  epoch : final.epoch = if bridge.isEnrollment then authority.epoch else authority.epoch + 1
  state : proof.plan.stateRoot = bridge.stateRoot
  root : registryRoot library.toRevocationLibrary final.registry =
    .ok proof.plan.resultingRegistryRoot
  recipients : proof.plan.recipients = activeDevices final.registry
  activated : bridge.isEnrollment = true → authority.activationId.isSome = true

theorem verifyBridge_spec (verified : verifyBridge library context authority bridge =
    .ok (proof, final)) : Leads library bridge authority final proof := by
  cases bridge with
  | enrollment enrollment =>
    rw [verifyBridge] at verified
    cases activation : authority.activationId with
    | none =>
      rw [activation] at verified
      cases verified
    | some activationId =>
      rw [activation] at verified
      dsimp only at verified
      rw [bind_eq_ok] at verified
      obtain ⟨after, enrolled, same⟩ := verified
      rw [pure_eq_ok, Prod.mk.injEq] at same
      obtain ⟨rfl, rfl⟩ := same
      exact ⟨rfl, rfl, rfl, rfl, (verifyEnrollment_spec enrolled).2.2.1, rfl,
        fun _ => by rw [activation]; rfl⟩
  | rotation rotation =>
    rw [verifyBridge, bind_eq_ok] at verified
    obtain ⟨outcome, rotated, same⟩ := verified
    rw [pure_eq_ok, Prod.mk.injEq] at same
    obtain ⟨rfl, rfl⟩ := same
    obtain ⟨epoch, -, removes⟩ := verifyEpochRotation_spec rotated
    refine ⟨removes.epoch, epoch.symm, ?_, rfl, removes.root, removes.recipients, ?_⟩
    · exact epoch.trans removes.next
    · intro impossible
      cases impossible
  | packet packet =>
    rw [verifyBridge, bind_eq_ok] at verified
    obtain ⟨outcome, delivered, same⟩ := verified
    rw [pure_eq_ok, Prod.mk.injEq] at same
    obtain ⟨rfl, rfl⟩ := same
    obtain ⟨epoch, -, -, removes⟩ := verifyDeviceDelivery_spec delivered
    refine ⟨removes.epoch, epoch.symm, ?_, rfl, removes.root, removes.recipients, ?_⟩
    · exact epoch.trans removes.next
    · intro impossible
      cases impossible

theorem epoch_of_verifyBridges (verified : verifyBridges library context bridges authority =
    .ok (proofs, final)) :
    final.epoch = (proofs.getLast?.map (·.plan.newEpoch)).getD authority.epoch := by
  induction bridges using List.reverseRecOn generalizing final proofs with
  | nil =>
    cases verified
    rfl
  | append_singleton front last _ =>
    obtain ⟨first, second, middle, -, ends, rfl⟩ := verifyBridges_append.mp verified
    obtain ⟨proof, lastly, rfl⟩ := verifyBridges_singleton.mp ends
    rw [List.getLast?_concat, Option.map_some, Option.getD_some]
    exact (verifyBridge_spec lastly).next.symm

def Lists (registry : Registry) (device : String) : Prop :=
  device ∈ registry.map RegistryEntry.deviceId

theorem lists_of_toFinset_eq {one other : Registry} (same : one.toFinset = other.toFinset)
    {device : String} (listed : Lists one device) : Lists other device := by
  obtain ⟨entry, member, rfl⟩ := List.mem_map.mp listed
  rw [← List.mem_toFinset, same, List.mem_toFinset] at member
  exact List.mem_map_of_mem member

def Authority.IssuerListed (authority : Authority Digest) : Prop :=
  authority.activationId.isSome = true →
    ∃ issuer, authority.issuerDeviceId = some issuer ∧ Lists authority.registry issuer

theorem verifyBridge_signer (injective : Function.Injective library.registryDigest)
    (listed : authority.IssuerListed)
    (verified : verifyBridge library context authority bridge = .ok (proof, final)) :
    (∃ signer, proof.rotationSignerDeviceId = some signer ∧ Lists proof.registry signer) ∧
      final.IssuerListed := by
  cases bridge with
  | enrollment enrollment =>
    rw [verifyBridge] at verified
    cases activation : authority.activationId with
    | none =>
      rw [activation] at verified
      cases verified
    | some activationId =>
      rw [activation] at verified
      dsimp only at verified
      rw [bind_eq_ok] at verified
      obtain ⟨after, enrolled, same⟩ := verified
      rw [pure_eq_ok, Prod.mk.injEq] at same
      obtain ⟨rfl, rfl⟩ := same
      obtain ⟨issuer, named, known⟩ := listed (by rw [activation]; rfl)
      refine ⟨⟨issuer, named, known⟩, fun _ => ⟨issuer, named, ?_⟩⟩
      obtain ⟨entry, member, rfl⟩ := List.mem_map.mp known
      rw [(verifyEnrollment_spec enrolled).1]
      apply List.mem_map_of_mem
      rw [List.mem_insertionSort]
      exact List.mem_append_left _ member
  | rotation rotation =>
    rw [verifyBridge, bind_eq_ok] at verified
    obtain ⟨outcome, rotated, same⟩ := verified
    rw [pure_eq_ok, Prod.mk.injEq] at same
    obtain ⟨rfl, rfl⟩ := same
    obtain ⟨signs, carried⟩ := verifyEpochRotation_signer injective rotated
    have removes := (verifyEpochRotation_spec rotated).2.2
    exact ⟨⟨_, rfl, lists_of_toFinset_eq carried.symm signs⟩,
      fun _ => ⟨_, rfl, removes.listed.mpr signs⟩⟩
  | packet packet =>
    rw [verifyBridge, bind_eq_ok] at verified
    obtain ⟨outcome, delivered, same⟩ := verified
    rw [pure_eq_ok, Prod.mk.injEq] at same
    obtain ⟨rfl, rfl⟩ := same
    obtain ⟨signs, carried⟩ := verifyDeviceDelivery_signer injective delivered
    have removes := (verifyDeviceDelivery_spec delivered).2.2.2
    exact ⟨⟨_, rfl, lists_of_toFinset_eq carried.symm signs⟩,
      fun _ => ⟨_, rfl, removes.listed.mpr signs⟩⟩

theorem verifyBridges_signers (injective : Function.Injective library.registryDigest)
    (listed : authority.IssuerListed)
    (verified : verifyBridges library context bridges authority = .ok (proofs, final)) :
    ∀ proof ∈ proofs,
      ∃ signer, proof.rotationSignerDeviceId = some signer ∧ Lists proof.registry signer := by
  induction bridges generalizing authority proofs with
  | nil =>
    cases verified
    intro proof member
    cases member
  | cons head tail induction =>
    rw [verifyBridges, bind_eq_ok] at verified
    obtain ⟨⟨proof, next⟩, headed, verified⟩ := verified
    rw [bind_eq_ok] at verified
    obtain ⟨⟨rest, last⟩, tailed, same⟩ := verified
    rw [pure_eq_ok, Prod.mk.injEq] at same
    obtain ⟨rfl, rfl⟩ := same
    obtain ⟨signed, later⟩ := verifyBridge_signer injective listed headed
    intro other member
    rcases List.mem_cons.mp member with rfl | inRest
    · exact signed
    · exact induction later tailed other inRest

end JobAgg.EpochVault
