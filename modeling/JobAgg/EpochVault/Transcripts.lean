import JobAgg.EpochVault.StateView
import JobAgg.Foundation.Lines
import JobAgg.SyncQueue.Base64

/-! # What is signed

The roots of commitments, views, removals and registries are digests of transcripts: the fields
of a record, each on a line of its own. A transcript determines the fields that it was made of,
as long as these passed their checks. Here a digest is its text of 64 hexadecimal letters. -/

namespace JobAgg.EpochVault

open SyncQueue (isIdentifier decodeBase64 decodeBase64_inj)

/-- The transcript of `_commitment_root` -/
def CommitmentBody.transcript (body : CommitmentBody String) : List Char :=
  lines ["atlasvault-state-commitment-v1".toList, body.collectionId.toList,
    decimal body.sequence, body.previousRoot.toList, body.stateSha256.toList]

/-- The field checks of `SignedStateCommitment.from_dict` -/
def CommitmentBody.isChecked (body : CommitmentBody String) : Bool :=
  isIdentifier body.collectionId && isCommitmentSequence body.sequence &&
    isSha256 body.previousRoot && isSha256 body.stateSha256

/-- The transcript of `_root` of a view -/
def ViewBody.transcript (body : ViewBody String) : Except String (List Char) := do
  require (body.isValid && isSha256 body.previousRoot && isSha256 body.collectionRoot &&
    isSha256 body.registryRoot && isSha256 body.previousRegistryRoot) viewRejected
  return lines ["atlasvault-authenticated-state-view-v2".toList, body.accountId.toList,
    body.vaultId.toList, decimal body.sequence, body.previousRoot.toList,
    body.collectionRoot.toList, body.registryRoot.toList, body.previousRegistryRoot.toList,
    decimal body.keyEpoch]

/-- The transcript of `_root` of a removal -/
def TransitionBody.transcript (body : TransitionBody String) : Except String (List Char) := do
  require (body.isValid && isSha256 body.priorRegistryRoot && isSha256 body.resultingRegistryRoot)
    revocationRejected
  return lines ["atlasvault-device-revocation-v1".toList, body.accountId.toList,
    body.vaultId.toList, body.targetDeviceId.toList, body.initiatorDeviceId.toList,
    body.priorRegistryRoot.toList, body.resultingRegistryRoot.toList, decimal body.keyEpoch,
    decimal body.sequence, body.authorizationCategory.toList]

/-! ## Rows of a registry -/

def hex (bytes : List Nat) : List Char :=
  bytes.flatMap fun byte => (fixedDigits 16 2 byte).map Nat.digitChar

/-- `derive_device_id` of two public keys, for `hashlib.sha256` -/
def deriveDeviceId (sha256 : List Nat → List Nat) (signing agreement : List Nat) : List Char :=
  "avd1-".toList ++ hex (sha256 ("atlasvault-device-id-v1:".toList.map Char.toNat ++ signing ++
    agreement))

variable (sha256 : List Nat → List Nat)

/-- The checks of an entry in `registry_root` -/
def RegistryEntry.isChecked (entry : RegistryEntry) : Bool :=
  decodes entry.signingPublicB64 32 && decodes entry.agreementPublicB64 32 &&
    entry.deviceId.toList == deriveDeviceId sha256 (decodeBase64 entry.signingPublicB64)
      (decodeBase64 entry.agreementPublicB64)

def RegistryEntry.state (entry : RegistryEntry) : List Char :=
  if entry.active then "ACTIVE".toList else "REVOKED".toList

/-- `f"{device}:{signing.hex()}:{agreement.hex()}:{entry['state']}"` -/
def RegistryEntry.row (entry : RegistryEntry) : List Char :=
  entry.deviceId.toList ++ ':' :: (hex (decodeBase64 entry.signingPublicB64) ++
    ':' :: (hex (decodeBase64 entry.agreementPublicB64) ++ ':' :: entry.state))

/-- The transcript of `registry_root` -/
def Registry.transcript (entries : Registry) : Except String (List Char) := do
  require (decide (1 ≤ entries.length) && decide (entries.length ≤ 256)) revocationRejected
  require (entries.all (RegistryEntry.isChecked sha256)) revocationRejected
  require (decide (entries.map RegistryEntry.deviceId).Nodup) revocationRejected
  let sorted := entries.insertionSort fun first second => first.deviceId ≤ second.deviceId
  return lines ("atlasvault-revocation-registry-v1".toList :: sorted.map RegistryEntry.row)

/-! ## Letters of the fields -/

theorem newline_notMem_identifier {text : String} (valid : isIdentifier text = true) :
    '\n' ∉ text.toList := by
  rw [isIdentifier, Bool.and_eq_true] at valid
  exact notMem_of_all valid.2 (by decide)

theorem newline_notMem_sha256 {text : String} (valid : isSha256 text = true) :
    '\n' ∉ text.toList := by
  rw [isSha256, Bool.and_eq_true] at valid
  exact notMem_of_all valid.2 (by decide)

variable {sha256}

theorem mem_hex {bytes : List Nat} {letter : Char} (listed : letter ∈ hex bytes) :
    ∃ digit < 16, digit.digitChar = letter := by
  obtain ⟨byte, -, inByte⟩ := List.mem_flatMap.mp listed
  obtain ⟨digit, member, same⟩ := List.mem_map.mp inByte
  exact ⟨digit, lt_of_mem_fixedDigits (by omega) digit member, same⟩

theorem notMem_hex {bytes : List Nat} : '\n' ∉ hex bytes ∧ ':' ∉ hex bytes := by
  have apart : ∀ digit < 16, digit.digitChar ≠ '\n' ∧ digit.digitChar ≠ ':' := by decide
  constructor
  · intro listed
    obtain ⟨digit, bound, same⟩ := mem_hex listed
    exact (apart digit bound).1 same
  · intro listed
    obtain ⟨digit, bound, same⟩ := mem_hex listed
    exact (apart digit bound).2 same

theorem length_hex {bytes : List Nat} : (hex bytes).length = 2 * bytes.length := by
  induction bytes with
  | nil => rfl
  | cons head tail induction =>
    rw [hex, List.flatMap_cons, List.length_append, List.length_map, length_fixedDigits,
      List.length_cons, ← hex, induction]
    omega

theorem digitChar_inj {one two : Nat} (first : one < 16) (second : two < 16)
    (same : one.digitChar = two.digitChar) : one = two := by
  have all : ∀ one < 16, ∀ two < 16, one.digitChar = two.digitChar → one = two := by decide
  exact all one first two second same

theorem hex_inj {one two : List Nat} (first : ∀ byte ∈ one, byte < 256)
    (second : ∀ byte ∈ two, byte < 256) : hex one = hex two ↔ one = two := by
  constructor
  · intro same
    have lengths : one.length = two.length := by
      have counted := congrArg List.length same
      rw [length_hex, length_hex] at counted
      omega
    induction one generalizing two with
    | nil =>
      rw [List.length_nil, eq_comm, List.length_eq_zero_iff] at lengths
      exact lengths.symm
    | cons head tail induction =>
      cases two with
      | nil => cases lengths
      | cons other others =>
        rw [hex, hex, List.flatMap_cons, List.flatMap_cons] at same
        obtain ⟨heads, tails⟩ := List.append_inj same (by simp)
        have digits : head / 16 = other / 16 ∧ head % 16 = other % 16 := by
          have headBound := first head List.mem_cons_self
          have otherBound := second other List.mem_cons_self
          change [(head / 16 % 16).digitChar, (head % 16).digitChar] =
            [(other / 16 % 16).digitChar, (other % 16).digitChar] at heads
          rw [List.cons_eq_cons, List.cons_eq_cons] at heads
          have high := digitChar_inj (by omega) (by omega) heads.1
          have low := digitChar_inj (by omega) (by omega) heads.2.1
          omega
        have equal : head = other := by omega
        rw [equal, induction (fun byte listed => first byte (List.mem_cons_of_mem _ listed))
          (fun byte listed => second byte (List.mem_cons_of_mem _ listed)) tails]
        rw [List.length_cons, List.length_cons] at lengths
        omega
  · rintro rfl
    rfl

theorem hex_decodeBase64_inj {one two : String} (first : decodes one 32 = true)
    (second : decodes two 32 = true) :
    hex (decodeBase64 one) = hex (decodeBase64 two) ↔ one = two := by
  rw [decodes, beq_iff_eq] at first second
  rw [hex_inj, decodeBase64_inj first second]
  · exact lt_of_mem_fixedDigits (by omega)
  · exact lt_of_mem_fixedDigits (by omega)

theorem notMem_deriveDeviceId {signing agreement : List Nat} :
    '\n' ∉ deriveDeviceId sha256 signing agreement ∧
      ':' ∉ deriveDeviceId sha256 signing agreement := by
  rw [deriveDeviceId, List.mem_append, List.mem_append, not_or, not_or]
  exact ⟨⟨by decide, notMem_hex.1⟩, by decide, notMem_hex.2⟩

/-! ## Transcripts apart -/

theorem CommitmentBody.transcript_inj {one two : CommitmentBody String}
    (first : one.isChecked = true) (second : two.isChecked = true)
    (same : one.transcript = two.transcript) : one = two := by
  have clean : ∀ body : CommitmentBody String, body.isChecked = true → ∀ field ∈
      ["atlasvault-state-commitment-v1".toList, body.collectionId.toList, decimal body.sequence,
        body.previousRoot.toList, body.stateSha256.toList], '\n' ∉ field := by
    intro body checked
    rw [isChecked, Bool.and_eq_true, Bool.and_eq_true, Bool.and_eq_true] at checked
    obtain ⟨⟨⟨collection, -⟩, previous⟩, digest⟩ := checked
    simp only [List.forall_mem_cons]
    exact ⟨by decide, newline_notMem_identifier collection, notMem_decimal (by decide),
      newline_notMem_sha256 previous, newline_notMem_sha256 digest,
      fun _ impossible => absurd impossible List.not_mem_nil⟩
  rw [transcript, transcript, lines_inj (clean one first) (clean two second)] at same
  simp only [List.cons_eq_cons, String.toList_inj, decimal_injective.eq_iff, and_true,
    true_and] at same
  obtain ⟨collection, sequence, previous, digest⟩ := same
  cases one
  cases two
  congr

theorem ViewBody.transcript_inj {one two : ViewBody String} {text : List Char}
    (first : one.transcript = .ok text) (second : two.transcript = .ok text) : one = two := by
  have clean : ∀ body : ViewBody String, (body.isValid && isSha256 body.previousRoot &&
      isSha256 body.collectionRoot && isSha256 body.registryRoot &&
      isSha256 body.previousRegistryRoot) = true → ∀ field ∈
      ["atlasvault-authenticated-state-view-v2".toList, body.accountId.toList,
        body.vaultId.toList, decimal body.sequence, body.previousRoot.toList,
        body.collectionRoot.toList, body.registryRoot.toList, body.previousRegistryRoot.toList,
        decimal body.keyEpoch], '\n' ∉ field := by
    intro body checked
    rw [isValid] at checked
    simp only [Bool.and_eq_true] at checked
    obtain ⟨⟨⟨⟨⟨⟨⟨account, vault⟩, -⟩, -⟩, previous⟩, collection⟩, registry⟩, before⟩ := checked
    simp only [List.forall_mem_cons]
    exact ⟨by decide, newline_notMem_identifier account, newline_notMem_identifier vault,
      notMem_decimal (by decide), newline_notMem_sha256 previous,
      newline_notMem_sha256 collection, newline_notMem_sha256 registry,
      newline_notMem_sha256 before, notMem_decimal (by decide),
      fun _ impossible => absurd impossible List.not_mem_nil⟩
  rw [transcript, require_bind_eq_ok, pure_eq_ok] at first second
  obtain ⟨oneChecked, oneText⟩ := first
  obtain ⟨twoChecked, twoText⟩ := second
  have same := oneText.trans twoText.symm
  rw [lines_inj (clean one oneChecked) (clean two twoChecked)] at same
  simp only [List.cons_eq_cons, String.toList_inj, decimal_injective.eq_iff, and_true,
    true_and] at same
  obtain ⟨account, vault, sequence, previous, collection, registry, before, epoch⟩ := same
  cases one
  cases two
  congr

theorem TransitionBody.transcript_inj {one two : TransitionBody String} {text : List Char}
    (first : one.transcript = .ok text) (second : two.transcript = .ok text) : one = two := by
  have clean : ∀ body : TransitionBody String, (body.isValid &&
      isSha256 body.priorRegistryRoot && isSha256 body.resultingRegistryRoot) = true → ∀ field ∈
      ["atlasvault-device-revocation-v1".toList, body.accountId.toList, body.vaultId.toList,
        body.targetDeviceId.toList, body.initiatorDeviceId.toList,
        body.priorRegistryRoot.toList, body.resultingRegistryRoot.toList, decimal body.keyEpoch,
        decimal body.sequence, body.authorizationCategory.toList], '\n' ∉ field := by
    intro body checked
    rw [isValid] at checked
    simp only [Bool.and_eq_true, beq_iff_eq] at checked
    obtain ⟨⟨⟨⟨⟨⟨⟨⟨account, vault⟩, target⟩, initiator⟩, -⟩, -⟩, category⟩, prior⟩,
      resulting⟩ := checked
    simp only [List.forall_mem_cons]
    refine ⟨by decide, newline_notMem_identifier account, newline_notMem_identifier vault,
      newline_notMem_identifier target, newline_notMem_identifier initiator,
      newline_notMem_sha256 prior, newline_notMem_sha256 resulting, notMem_decimal (by decide),
      notMem_decimal (by decide), ?_, fun _ impossible => absurd impossible List.not_mem_nil⟩
    rw [category]
    decide
  rw [transcript, require_bind_eq_ok, pure_eq_ok] at first second
  obtain ⟨oneChecked, oneText⟩ := first
  obtain ⟨twoChecked, twoText⟩ := second
  have same := oneText.trans twoText.symm
  rw [lines_inj (clean one oneChecked) (clean two twoChecked)] at same
  simp only [List.cons_eq_cons, String.toList_inj, decimal_injective.eq_iff, and_true,
    true_and] at same
  obtain ⟨account, vault, target, initiator, prior, resulting, epoch, sequence, category⟩ := same
  cases one
  cases two
  congr

/-! ## Registries apart -/

theorem RegistryEntry.row_inj {one two : RegistryEntry} (first : one.isChecked sha256 = true)
    (second : two.isChecked sha256 = true) (same : one.row = two.row) : one = two := by
  rw [isChecked, Bool.and_eq_true, Bool.and_eq_true, beq_iff_eq] at first second
  obtain ⟨⟨oneSigning, oneAgreement⟩, oneDevice⟩ := first
  obtain ⟨⟨twoSigning, twoAgreement⟩, twoDevice⟩ := second
  have oneId : ':' ∉ one.deviceId.toList := by
    rw [oneDevice]
    exact notMem_deriveDeviceId.2
  have twoId : ':' ∉ two.deviceId.toList := by
    rw [twoDevice]
    exact notMem_deriveDeviceId.2
  rw [row, row, separated_inj oneId twoId, separated_inj notMem_hex.2 notMem_hex.2,
    separated_inj notMem_hex.2 notMem_hex.2, hex_decodeBase64_inj oneSigning twoSigning,
    hex_decodeBase64_inj oneAgreement twoAgreement, String.toList_inj] at same
  obtain ⟨device, signing, agreement, state⟩ := same
  have active : one.active = two.active := by
    rw [RegistryEntry.state, RegistryEntry.state] at state
    cases oneActive : one.active with
    | true =>
      cases twoActive : two.active with
      | true => rfl
      | false =>
        rw [oneActive, twoActive] at state
        exact absurd state (by decide)
    | false =>
      cases twoActive : two.active with
      | true =>
        rw [oneActive, twoActive] at state
        exact absurd state (by decide)
      | false => rfl
  cases one
  cases two
  congr

theorem RegistryEntry.newline_notMem_row {entry : RegistryEntry}
    (checked : entry.isChecked sha256 = true) : '\n' ∉ entry.row := by
  rw [isChecked, Bool.and_eq_true, beq_iff_eq] at checked
  have state : '\n' ∉ entry.state := by
    rw [RegistryEntry.state]
    split
    · decide
    · decide
  rw [row, checked.2]
  simp only [List.mem_append, List.mem_cons, not_or]
  exact ⟨notMem_deriveDeviceId.1, by decide, notMem_hex.1, by decide, notMem_hex.1, by decide,
    state⟩

theorem Registry.transcript_eq_ok {entries : Registry} {text : List Char}
    (made : Registry.transcript sha256 entries = .ok text) : ∃ sorted : Registry,
      sorted.Perm entries ∧ (∀ entry ∈ sorted, entry.isChecked sha256 = true) ∧
      text = lines ("atlasvault-revocation-registry-v1".toList ::
        sorted.map RegistryEntry.row) := by
  rw [Registry.transcript, require_bind_eq_ok, require_bind_eq_ok, require_bind_eq_ok,
    pure_eq_ok] at made
  obtain ⟨-, checked, -, same⟩ := made
  refine ⟨_, List.perm_insertionSort _ _, ?_, same.symm⟩
  intro entry listed
  rw [List.mem_insertionSort] at listed
  exact List.all_eq_true.mp checked entry listed

theorem Registry.transcript_perm {one two : Registry} {text : List Char}
    (first : Registry.transcript sha256 one = .ok text)
    (second : Registry.transcript sha256 two = .ok text) : one.Perm two := by
  obtain ⟨oneSorted, onePerm, oneChecked, oneText⟩ := transcript_eq_ok first
  obtain ⟨twoSorted, twoPerm, twoChecked, twoText⟩ := transcript_eq_ok second
  have clean : ∀ sorted : Registry, (∀ entry ∈ sorted, entry.isChecked sha256 = true) →
      ∀ field ∈ "atlasvault-revocation-registry-v1".toList :: sorted.map RegistryEntry.row,
        '\n' ∉ field := by
    intro sorted checked field listed
    rcases List.mem_cons.mp listed with rfl | row
    · decide
    · obtain ⟨entry, member, rfl⟩ := List.mem_map.mp row
      exact RegistryEntry.newline_notMem_row (checked entry member)
  have same := oneText.symm.trans twoText
  rw [lines_inj (clean _ oneChecked) (clean _ twoChecked), List.cons_eq_cons] at same
  have equal : oneSorted = twoSorted := by
    apply eq_of_map_eq ?_ same.2
    intro first inOne second inTwo
    exact RegistryEntry.row_inj (oneChecked first inOne) (twoChecked second inTwo)
  rw [equal] at onePerm
  exact onePerm.symm.trans twoPerm

/-- Whatever passes its checks is determined by its transcript, a registry up to the order of
its entries. -/
theorem transcripts_apart :
    (∀ one two : CommitmentBody String, one.isChecked = true → two.isChecked = true →
      one.transcript = two.transcript → one = two) ∧
    (∀ (one two : ViewBody String) text, one.transcript = .ok text →
      two.transcript = .ok text → one = two) ∧
    (∀ (one two : TransitionBody String) text, one.transcript = .ok text →
      two.transcript = .ok text → one = two) ∧
    (∀ (sha256 : List Nat → List Nat) (one two : Registry) text,
      Registry.transcript sha256 one = .ok text → Registry.transcript sha256 two = .ok text →
      one.Perm two) :=
  ⟨fun _ _ first second same => CommitmentBody.transcript_inj first second same,
    fun _ _ _ first second => ViewBody.transcript_inj first second,
    fun _ _ _ first second => TransitionBody.transcript_inj first second,
    fun _ _ _ _ first second => Registry.transcript_perm first second⟩

/-! ## Plain transcripts -/

/-- The first byte behind the domain, as a digest for two plain devices -/
def plainHash (bytes : List Nat) : List Nat :=
  (bytes.drop 24).take 1

def plainHex (letter : Char) : String :=
  String.ofList (List.replicate 64 letter)

def plainPair (letter : Char) (active : Bool) : RegistryEntry where
  deviceId := String.ofList (deriveDeviceId plainHash (decodeBase64 (plainKey letter))
    (decodeBase64 (plainKey 'A')))
  signingPublicB64 := plainKey letter
  agreementPublicB64 := plainKey 'A'
  active := active

def plainCommitted : CommitmentBody String :=
  ⟨"vault", 1, plainHex '0', plainHex 'a'⟩

def plainViewed : ViewBody String :=
  ⟨"account", "vault", 1, plainHex '0', plainHex 'a', plainHex 'b', plainHex 'c', 1⟩

def plainRemoved : TransitionBody String :=
  ⟨"account", "vault", "first", "second", plainHex 'a', plainHex 'b', 1, 1, "DEVICE_PRESENCE"⟩

/-- A registry has one transcript in both orders. -/
theorem transcripts_apart_plain :
    plainCommitted = ⟨"vault", 1, plainHex '0', plainHex 'a'⟩ ∧
    plainViewed = ⟨"account", "vault", 1, plainHex '0', plainHex 'a', plainHex 'b', plainHex 'c',
      1⟩ ∧
    plainRemoved = ⟨"account", "vault", "first", "second", plainHex 'a', plainHex 'b', 1, 1,
      "DEVICE_PRESENCE"⟩ ∧
    [plainPair 'A' true, plainPair 'Q' false].Perm [plainPair 'Q' false, plainPair 'A' true] := by
  obtain ⟨commitments, views, removals, registries⟩ := transcripts_apart
  have sha : isSha256 (plainHex '0') = true ∧ isSha256 (plainHex 'a') = true ∧
      isSha256 (plainHex 'b') = true ∧ isSha256 (plainHex 'c') = true :=
    ⟨isSha256_replicate (by decide), isSha256_replicate (by decide),
      isSha256_replicate (by decide), isSha256_replicate (by decide)⟩
  refine ⟨?_, ?_, ?_, ?_⟩
  · have checked : plainCommitted.isChecked = true := by
      rw [CommitmentBody.isChecked, plainCommitted, sha.1, sha.2.1]
      decide
    exact commitments _ _ checked checked rfl
  · have made : plainViewed.transcript = .ok (lines ["atlasvault-authenticated-state-view-v2".toList,
        "account".toList, "vault".toList, decimal 1, (plainHex '0').toList,
        (plainHex 'a').toList, (plainHex 'b').toList, (plainHex 'c').toList, decimal 1]) := by
      rw [ViewBody.transcript, require_bind_eq_ok, plainViewed, sha.1, sha.2.1, sha.2.2.1, sha.2.2.2]
      exact ⟨by decide, rfl⟩
    exact views _ _ _ made made
  · have made : plainRemoved.transcript = .ok (lines ["atlasvault-device-revocation-v1".toList,
        "account".toList, "vault".toList, "first".toList, "second".toList,
        (plainHex 'a').toList, (plainHex 'b').toList, decimal 1, decimal 1,
        "DEVICE_PRESENCE".toList]) := by
      rw [TransitionBody.transcript, require_bind_eq_ok, plainRemoved, sha.2.1, sha.2.2.1]
      exact ⟨by decide, rfl⟩
    exact removals _ _ _ made made
  · have same : (Registry.transcript plainHash [plainPair 'A' true, plainPair 'Q' false]).toOption =
        (Registry.transcript plainHash [plainPair 'Q' false, plainPair 'A' true]).toOption ∧
        (Registry.transcript plainHash
          [plainPair 'A' true, plainPair 'Q' false]).toOption.isSome = true := by
      decide +kernel
    obtain ⟨orders, made⟩ := same
    cases first : Registry.transcript plainHash [plainPair 'A' true, plainPair 'Q' false] with
    | error reason =>
      rw [first] at made
      cases made
    | ok text =>
      cases second : Registry.transcript plainHash
          [plainPair 'Q' false, plainPair 'A' true] with
      | error reason =>
        rw [first, second] at orders
        cases orders
      | ok other =>
        rw [first, second] at orders
        cases orders
        exact registries _ _ _ _ first second

end JobAgg.EpochVault
