import JobAgg.VaultApi.OpaqueAccounting
import JobAgg.VaultApi.OpaquePages

/-! # What an account sees of the store

The accounts share the heaps and what is pruned from them, the clock and the totals. Two
stores are the same to an account when its vaults and counters are, its receipts are as long
as they have not expired, and its cursors are but for their tokens. -/

namespace JobAgg.VaultApi

variable {Fingerprint : Type} {library : EnvelopeLibrary Fingerprint} {limits : RetainedLimits}
  {before after first second third : OpaqueStore Fingerprint} {account : String}
  {vault other : VaultKey} {now : ℚ}

/-- The clock may read this next. -/
def OpaqueStore.Later (now : ℚ) (store : OpaqueStore Fingerprint) : Prop :=
  ∀ last ∈ store.lastObservedClock, last ≤ now

theorem OpaqueStore.Grows.later (grows : before.Grows after) (later : after.Later now) :
    before.Later now := by
  intro last observed
  obtain ⟨next, nextObserved, ordered⟩ := grows.clock last observed
  exact ordered.trans (later next nextObserved)

def VaultState.content (state : VaultState Fingerprint) : VaultState Fingerprint :=
  { state with receipts := ∅ }

def OpaqueStore.receiptAt (now : ℚ) (vault : VaultKey) (key : Scope × String)
    (store : OpaqueStore Fingerprint) : Option (Receipt Fingerprint) :=
  ((store.state vault).receipts.lookup key).filter (now < ·.expiresAt)

def OpaqueStore.counts (account : String) (store : OpaqueStore Fingerprint) :
    Nat × Nat × Nat × Nat × Nat :=
  (Dict.countOf store.vaultsPerAccount account, Dict.countOf store.objectsPerAccount account,
    Dict.countOf store.patchesPerAccount account, Dict.countOf store.revisionsPerAccount account,
    Dict.countOf store.retainedBytesPerAccount account)

structure SameVaults (account : String) (first second : OpaqueStore Fingerprint) : Prop where
  retained : ∀ vault, vault.1 = account → (vault ∈ first.vaults ↔ vault ∈ second.vaults)
  contents : ∀ vault, vault.1 = account →
    (first.state vault).content = (second.state vault).content
  receipts : ∀ vault key now, vault.1 = account → first.Later now → second.Later now →
    first.receiptAt now vault key = second.receiptAt now vault key
  counts : first.counts account = second.counts account

theorem SameVaults.refl : SameVaults account first first :=
  ⟨fun _ _ => Iff.rfl, fun _ _ => rfl, fun _ _ _ _ _ _ => rfl, rfl⟩

theorem SameVaults.symm (same : SameVaults account first second) :
    SameVaults account second first :=
  ⟨fun vault own => (same.retained vault own).symm, fun vault own => (same.contents vault own).symm,
    fun vault key now own one other => (same.receipts vault key now own other one).symm,
    same.counts.symm⟩

theorem SameVaults.become (same : SameVaults account first second)
    (seen : SameVaults account first third) (grows : first.Grows third) :
    SameVaults account third second := by
  refine ⟨?_, ?_, ?_, ?_⟩
  · intro vault own
    exact (seen.retained vault own).symm.trans (same.retained vault own)
  · intro vault own
    exact (seen.contents vault own).symm.trans (same.contents vault own)
  · intro vault key now own later otherLater
    have earlier := grows.later later
    rw [← seen.receipts vault key now own earlier later]
    exact same.receipts vault key now own earlier otherLater
  · exact seen.counts.symm.trans same.counts

theorem SameVaults.trans (same : SameVaults account first second)
    (seen : SameVaults account second third) (grows : second.Grows third) :
    SameVaults account first third :=
  (same.symm.become seen grows).symm

theorem content_lapse {one two : VaultState Fingerprint} (lapses : one.Lapses now two) :
    one.content = two.content := by
  rw [lapses.content]
  rfl

theorem OpaqueStore.Readies.sameVaults (readies : before.Readies now after) :
    SameVaults account before after := by
  refine ⟨?_, fun vault _ => content_lapse (readies.state vault), ?_, ?_⟩
  · intro vault _
    rw [← Finmap.mem_keys, ← Finmap.mem_keys, readies.vaults.keys]
  · intro vault key time _ _ later
    have reached : now ≤ time := by
      apply later
      rw [readies.rest]
      rfl
    have lapses := readies.state vault
    apply Option.ext
    intro receipt
    rw [OpaqueStore.receiptAt, OpaqueStore.receiptAt, Option.filter_eq_some_iff,
      Option.filter_eq_some_iff, decide_eq_true_eq]
    constructor
    · rintro ⟨found, live⟩
      exact ⟨lapses.kept key receipt found (reached.trans_lt live), live⟩
    · rintro ⟨found, live⟩
      exact ⟨lapses.known key receipt found, live⟩
  · rw [readies.rest]
    rfl

theorem SameVaults.ready {firstReady secondReady : OpaqueStore Fingerprint}
    (same : SameVaults account first second) (one : first.Readies now firstReady)
    (two : second.Readies now secondReady) : SameVaults account firstReady secondReady :=
  ((same.become one.sameVaults one.grows).symm.become two.sameVaults two.grows).symm

/-! ### Writes -/

section Writes

variable {state firstState secondState : VaultState Fingerprint} {key : Scope × String}
  {attempt : WriteAttempt Fingerprint} {response envelope : StorageEnvelope} {scope : Scope}
  {fingerprint : Fingerprint} {revision : String}

theorem receiptAt_record {time : ℚ} {otherKey : Scope × String}
    (receipts : state.receipts = (first.state vault).receipts) :
    (first.record vault state key attempt response now).receiptAt time other otherKey =
      if other = vault ∧ otherKey = key then
        (some (⟨attempt, response, now + receiptLifetimeSeconds⟩ : Receipt Fingerprint)).filter
          (time < ·.expiresAt)
      else first.receiptAt time other otherKey := by
  rw [OpaqueStore.receiptAt, state_record]
  by_cases here : other = vault
  · rw [if_pos here, Dict.lookup_insert_eq]
    by_cases same : otherKey = key
    · rw [if_pos same, if_pos ⟨here, same⟩]
    · rw [if_neg same, if_neg fun both => same both.2, receipts, here]
      rfl
  · rw [if_neg here, if_neg fun both => here both.1]
    rfl

theorem SameVaults.record (same : SameVaults account first second)
    (content : firstState.content = secondState.content)
    (firstReceipts : firstState.receipts = (first.state vault).receipts)
    (secondReceipts : secondState.receipts = (second.state vault).receipts) :
    SameVaults account (first.record vault firstState key attempt response now)
      (second.record vault secondState key attempt response now) := by
  refine ⟨?_, ?_, ?_, same.counts⟩
  · intro other mine
    have one : other ∈ (first.record vault firstState key attempt response now).vaults ↔
        other = vault ∨ other ∈ first.vaults := Finmap.mem_insert
    have two : other ∈ (second.record vault secondState key attempt response now).vaults ↔
        other = vault ∨ other ∈ second.vaults := Finmap.mem_insert
    rw [one, two, same.retained other mine]
  · intro other mine
    rw [state_record, state_record]
    split
    case isTrue => exact content
    case isFalse => exact same.contents other mine
  · intro other otherKey time mine later otherLater
    rw [receiptAt_record firstReceipts, receiptAt_record secondReceipts,
      same.receipts other otherKey time mine later otherLater]

theorem sameVaults_record (foreign : vault.1 ≠ account) :
    SameVaults account first (first.record vault state key attempt response now) := by
  have apart (other : VaultKey) (mine : other.1 = account) : other ≠ vault := by
    rintro rfl
    exact foreign mine
  refine ⟨?_, ?_, ?_, rfl⟩
  · intro other mine
    have inserted : other ∈ (first.record vault state key attempt response now).vaults ↔
        other = vault ∨ other ∈ first.vaults := Finmap.mem_insert
    rw [inserted, or_iff_right (apart other mine)]
  · intro other mine
    rw [state_record, if_neg (apart other mine)]
  · intro other otherKey time mine _ _
    rw [OpaqueStore.receiptAt, OpaqueStore.receiptAt, state_record, if_neg (apart other mine)]

theorem current_content : state.content.current scope = state.current scope := by
  cases scope <;> rfl

theorem compared_content :
    state.content.compared scope revision = state.compared scope revision := by
  cases scope <;> rfl

theorem isHistorical_content :
    state.content.isHistorical revision scope = state.isHistorical revision scope := by
  cases scope <;> rfl

theorem content_write : (state.write fingerprint scope envelope).content =
    state.content.write fingerprint scope envelope := by
  cases scope <;> cases envelope <;> rfl

theorem SameVaults.current (same : SameVaults account first second) (own : vault.1 = account)
    (scope : Scope) : (first.state vault).current scope = (second.state vault).current scope := by
  rw [← current_content, same.contents vault own, current_content]

theorem SameVaults.delta (same : SameVaults account first second) (own : vault.1 = account) :
    capacityDelta library scope envelope vault first =
      capacityDelta library scope envelope vault second := by
  rw [capacityDelta.eq_def, capacityDelta.eq_def, if_congr (same.retained vault own) rfl rfl,
    same.current own scope]

theorem SameVaults.fitsAccount (same : SameVaults account first second) (delta : CapacityDelta) :
    delta.fitsAccount limits first account = delta.fitsAccount limits second account := by
  have counts := same.counts
  rw [OpaqueStore.counts, OpaqueStore.counts, Prod.mk.injEq, Prod.mk.injEq, Prod.mk.injEq,
    Prod.mk.injEq] at counts
  obtain ⟨vaults, objects, patches, revisions, bytes⟩ := counts
  rw [CapacityDelta.fitsAccount, CapacityDelta.fitsAccount, vaults, objects, patches, revisions,
    bytes]

theorem counts_retain {accountId : String} {delta : CapacityDelta} :
    (first.retain accountId delta).counts account =
      ((first.counts account).1 + (if account = accountId then delta.vaults else 0),
        (first.counts account).2.1 + (if account = accountId then delta.objects else 0),
        (first.counts account).2.2.1 + (if account = accountId then delta.patches else 0),
        (first.counts account).2.2.2.1 + (if account = accountId then delta.revisions else 0),
        (first.counts account).2.2.2.2 + if account = accountId then delta.envelopeBytes else 0) := by
  have inserted (counters : Dict String Nat) (amount : Nat) :
      Dict.countOf (counters.insert accountId (Dict.countOf counters accountId + amount)) account =
        Dict.countOf counters account + if account = accountId then amount else 0 := by
    rw [Dict.countOf_insert]
    split
    case isTrue same => rw [same]
    case isFalse => rfl
  rw [OpaqueStore.counts, OpaqueStore.retain, countOf_addTo, countOf_addTo, countOf_addTo, inserted,
    inserted]
  rfl

theorem SameVaults.retain (same : SameVaults account first second) (accountId : String)
    (delta : CapacityDelta) :
    SameVaults account (first.retain accountId delta) (second.retain accountId delta) := by
  refine ⟨same.retained, same.contents, same.receipts, ?_⟩
  rw [counts_retain, counts_retain, same.counts]

theorem sameVaults_retain {accountId : String} (foreign : accountId ≠ account)
    (delta : CapacityDelta) : SameVaults account first (first.retain accountId delta) := by
  refine ⟨fun _ _ => Iff.rfl, fun _ _ => rfl, fun _ _ _ _ _ _ => rfl, ?_⟩
  have other : ¬account = accountId := fun same => foreign same.symm
  rw [counts_retain, if_neg other, if_neg other, if_neg other, if_neg other, if_neg other]
  rfl

end Writes

/-! ### Puts -/

section Puts

variable {scope : Scope} {envelope : StorageEnvelope} {request : WriteRequest}
  {outcome : Except String Reply}

theorem Puts.sameVaults (puts : Puts library limits scope envelope request before after outcome)
    (foreign : request.vault.1 ≠ account) : SameVaults account before after := by
  cases puts with
  | invalid => exact .refl
  | conflict readies => exact readies.sameVaults
  | mismatched readies => exact readies.sameVaults
  | full readies => exact readies.sameVaults
  | replayed readies => exact readies.sameVaults
  | duplicate readies =>
    exact readies.sameVaults.trans (sameVaults_record foreign) (grows_record (List.prefix_refl _))
  | written readies =>
    apply readies.sameVaults.trans _ grows_afterWrite
    exact (sameVaults_record foreign).trans (sameVaults_retain foreign _)
      ⟨fun _ => List.prefix_refl _, fun last observed => ⟨last, observed, le_refl last⟩⟩

/-- The put is not refused for what all accounts have together. -/
def Roomy (library : EnvelopeLibrary Fingerprint) (limits : RetainedLimits) (scope : Scope)
    (envelope : StorageEnvelope) (vault : VaultKey) (store : OpaqueStore Fingerprint)
    (outcome : Except String Reply) : Prop :=
  outcome = .error opaqueStorageCapacityExceeded →
    (capacityDelta library scope envelope vault store).fitsGlobally limits store = true

theorem putAnew_fresh (fresh : (first.state request.vault).Extends scope envelope
      request.expectedRevision) :
    first.putAnew library limits scope envelope request =
      if (capacityDelta library scope envelope request.vault first).fits limits first
          request.vault.1 = true then
        (first.afterWrite library scope envelope request, .ok (.written envelope))
      else (first, .error opaqueStorageCapacityExceeded) := by
  rw [OpaqueStore.putAnew]
  dsimp only
  rw [fresh.new]
  dsimp only
  rw [fresh.notHistorical, fresh.follows, if_neg Bool.false_ne_true,
    if_neg (by simp)]
  cases fits : (capacityDelta library scope envelope request.vault first).fits limits first
      request.vault.1 with
  | false =>
    rw [CapacityDelta.fits] at fits
    rw [fits]
    rfl
  | true =>
    rw [CapacityDelta.fits] at fits
    rw [fits]
    rfl

theorem Roomy.fits (room : Roomy library limits scope envelope request.vault first
      (first.putAnew library limits scope envelope request).2)
    (fresh : (first.state request.vault).Extends scope envelope request.expectedRevision)
    (account : (capacityDelta library scope envelope request.vault first).fitsAccount limits first
      request.vault.1 = true) :
    (capacityDelta library scope envelope request.vault first).fits limits first
      request.vault.1 = true := by
  rw [CapacityDelta.fits, account, Bool.and_true]
  by_contra full
  apply full
  apply room
  rw [Bool.not_eq_true] at full
  rw [putAnew_fresh fresh, CapacityDelta.fits, full]
  rfl

theorem SameVaults.putAnew (same : SameVaults account first second)
    (own : request.vault.1 = account)
    (room : Roomy library limits scope envelope request.vault first
      (first.putAnew library limits scope envelope request).2)
    (otherRoom : Roomy library limits scope envelope request.vault second
      (second.putAnew library limits scope envelope request).2) :
    (first.putAnew library limits scope envelope request).2 =
        (second.putAnew library limits scope envelope request).2 ∧
      SameVaults account (first.putAnew library limits scope envelope request).1
        (second.putAnew library limits scope envelope request).1 := by
  have content := same.contents request.vault own
  have compared : (first.state request.vault).compared scope envelope.revision =
      (second.state request.vault).compared scope envelope.revision := by
    rw [← compared_content, content, compared_content]
  have historical : (first.state request.vault).isHistorical envelope.revision scope =
      (second.state request.vault).isHistorical envelope.revision scope := by
    rw [← isHistorical_content, content, isHistorical_content]
  have current := same.current own scope
  by_cases fresh : (first.state request.vault).Extends scope envelope request.expectedRevision
  · have otherFresh : (second.state request.vault).Extends scope envelope
        request.expectedRevision :=
      ⟨compared ▸ fresh.new, historical ▸ fresh.notHistorical, current ▸ fresh.follows⟩
    have delta : capacityDelta library scope envelope request.vault first =
        capacityDelta library scope envelope request.vault second := same.delta own
    have accounts : (capacityDelta library scope envelope request.vault first).fitsAccount limits
        first request.vault.1 =
      (capacityDelta library scope envelope request.vault second).fitsAccount limits second
        request.vault.1 := by
      rw [own, delta, same.fitsAccount]
    cases account : (capacityDelta library scope envelope request.vault first).fitsAccount limits
        first request.vault.1 with
    | true =>
      rw [putAnew_fresh fresh, putAnew_fresh otherFresh, if_pos (room.fits fresh account),
        if_pos (otherRoom.fits otherFresh (accounts ▸ account))]
      refine ⟨rfl, ?_⟩
      rw [OpaqueStore.afterWrite, OpaqueStore.afterWrite, delta]
      apply (same.record _ receipts_write receipts_write).retain
      rw [content_write, content, content_write]
    | false =>
      have full : ¬(capacityDelta library scope envelope request.vault first).fits limits first
          request.vault.1 = true := by
        rw [CapacityDelta.fits, account, Bool.and_false]
        exact Bool.false_ne_true
      have otherFull : ¬(capacityDelta library scope envelope request.vault second).fits limits
          second request.vault.1 = true := by
        rw [CapacityDelta.fits, ← accounts, account, Bool.and_false]
        exact Bool.false_ne_true
      rw [putAnew_fresh fresh, putAnew_fresh otherFresh, if_neg full, if_neg otherFull]
      exact ⟨rfl, same⟩
  · rw [OpaqueStore.putAnew, OpaqueStore.putAnew]
    dsimp only
    rw [compared, historical, current]
    cases known : ((second.state request.vault).compared scope envelope.revision).filter
        (·.revision = envelope.revision) with
    | some known =>
      dsimp only
      split
      case isTrue => exact ⟨rfl, same⟩
      case isFalse => exact ⟨rfl, same.record content rfl rfl⟩
    | none =>
      dsimp only
      split
      case isTrue => exact ⟨rfl, same⟩
      case isFalse notHistorical =>
      split
      case isTrue => exact ⟨rfl, same⟩
      case isFalse follows =>
      refine absurd ⟨?_, ?_, ?_⟩ fresh
      · rw [compared]
        exact known
      · rw [historical]
        exact Bool.not_eq_true _ ▸ notHistorical
      · rw [current]
        exact Bool.not_eq_false _ ▸ follows

theorem OpaqueStore.Readies.roomy (readies : before.Readies now after)
    (room : Roomy library limits scope envelope vault before outcome) :
    Roomy library limits scope envelope vault after outcome := by
  intro full
  have fits := room full
  have same : SameVaults vault.1 before after := readies.sameVaults
  have delta : capacityDelta library scope envelope vault before =
      capacityDelta library scope envelope vault after := same.delta rfl
  have size : after.vaults.size = before.vaults.size := congrArg Finset.card readies.vaults.keys
  have bytes : after.retainedBytes = before.retainedBytes := by rw [readies.rest]
  rw [delta, CapacityDelta.fitsGlobally, ← size, ← bytes] at fits
  exact fits

theorem OpaqueStore.Readies.later (readies : before.Readies now after) : after.Later now := by
  intro last observed
  rw [readies.rest] at observed
  cases observed
  exact le_refl now

theorem SameVaults.put [DecidableEq Fingerprint] (same : SameVaults account first second)
    (own : request.vault.1 = account) (later : first.Later request.now)
    (otherLater : second.Later request.now)
    (room : Roomy library limits scope envelope request.vault first
      (first.put library limits scope envelope request).2)
    (otherRoom : Roomy library limits scope envelope request.vault second
      (second.put library limits scope envelope request).2) :
    (first.put library limits scope envelope request).2 =
        (second.put library limits scope envelope request).2 ∧
      SameVaults account (first.put library limits scope envelope request).1
        (second.put library limits scope envelope request).1 := by
  have readies := OpaqueStore.readies_pruneReceipts (OpaqueStore.clockNow_later later)
  have otherReadies := OpaqueStore.readies_pruneReceipts (OpaqueStore.clockNow_later otherLater)
  have ready := same.ready readies otherReadies
  have receipts := ready.receipts request.vault (scope, request.idempotencyKey) request.now own
    readies.later otherReadies.later
  rw [OpaqueStore.receiptAt, OpaqueStore.receiptAt] at receipts
  rw [OpaqueStore.put.eq_def] at room otherRoom ⊢
  rw [OpaqueStore.put.eq_def]
  by_cases invalid : writeTokensValid request.expectedRevision request.idempotencyKey = false
  · rw [if_pos invalid, if_pos invalid]
    exact ⟨rfl, same⟩
  rw [if_neg invalid, OpaqueStore.clockNow_later later] at room
  rw [if_neg invalid, OpaqueStore.clockNow_later otherLater] at otherRoom
  rw [if_neg invalid, if_neg invalid, OpaqueStore.clockNow_later later, OpaqueStore.clockNow_later otherLater]
  dsimp only at room otherRoom ⊢
  rw [receipts] at room ⊢
  cases found : ((((({ second with lastObservedClock := some request.now } :
      OpaqueStore Fingerprint).pruneReceipts request.now).state request.vault).receipts.lookup
        (scope, request.idempotencyKey)).filter fun receipt => decide (request.now < receipt.expiresAt)) with
  | none =>
    rw [found] at room otherRoom receipts
    dsimp only at room otherRoom ⊢
    have popped := readies.popReceipt receipts
    have otherPopped := otherReadies.popReceipt found
    exact (same.ready popped otherPopped).putAnew own (popped.roomy room)
      (otherPopped.roomy otherRoom)
  | some receipt =>
    dsimp only
    split
    case isTrue => exact ⟨rfl, ready⟩
    case isFalse =>
    split
    case isTrue => exact ⟨rfl, ready⟩
    case isFalse => exact ⟨rfl, ready⟩

end Puts

end JobAgg.VaultApi
