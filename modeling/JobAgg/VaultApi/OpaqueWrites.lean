import JobAgg.VaultApi.OpaqueStore

/-! # What a put does

Every put first lets receipts lapse that have expired. Then it answers from a receipt, refuses,
finds the envelope already there or writes it. -/

namespace JobAgg.VaultApi

variable {Fingerprint : Type} {now : ℚ}

/-- Only receipts went, and only such as have expired. -/
structure VaultState.Lapses (now : ℚ) (before after : VaultState Fingerprint) : Prop where
  content : after = { before with receipts := after.receipts }
  kept : ∀ key receipt, before.receipts.lookup key = some receipt → now < receipt.expiresAt →
    after.receipts.lookup key = some receipt
  known : ∀ key receipt, after.receipts.lookup key = some receipt →
    before.receipts.lookup key = some receipt

section States

variable {first second third : VaultState Fingerprint}

theorem VaultState.Lapses.refl : first.Lapses now first :=
  ⟨rfl, fun _ _ found _ => found, fun _ _ found => found⟩

theorem VaultState.Lapses.trans (one : first.Lapses now second) (other : second.Lapses now third) :
    first.Lapses now third := by
  refine ⟨?_, ?_, ?_⟩
  · rw [other.content, one.content]
  · intro key receipt found live
    exact other.kept key receipt (one.kept key receipt found live) live
  · intro key receipt found
    exact one.known key receipt (other.known key receipt found)

theorem VaultState.lapses_erase {key : Scope × String}
    (expired : ∀ receipt, first.receipts.lookup key = some receipt → receipt.expiresAt ≤ now) :
    first.Lapses now { first with receipts := first.receipts.erase key } := by
  refine ⟨rfl, ?_, ?_⟩
  · intro other receipt found live
    have different : other ≠ key := by
      rintro rfl
      exact absurd live (not_lt.mpr (expired receipt found))
    rwa [Finmap.lookup_erase_ne different]
  · intro other receipt found
    by_cases same : other = key
    · rw [same, Finmap.lookup_erase] at found
      cases found
    · rwa [Finmap.lookup_erase_ne same] at found

end States

def stateOf (vault : VaultKey) (vaults : Dict VaultKey (VaultState Fingerprint)) :
    VaultState Fingerprint :=
  (vaults.lookup vault).getD .empty

structure VaultsLapse (now : ℚ) (before after : Dict VaultKey (VaultState Fingerprint)) : Prop where
  keys : after.keys = before.keys
  states : ∀ vault, (stateOf vault before).Lapses now (stateOf vault after)

section Vaults

variable {first second third : Dict VaultKey (VaultState Fingerprint)} {vault : VaultKey}
  {key : Scope × String}

theorem VaultsLapse.refl : VaultsLapse now first first := ⟨rfl, fun _ => .refl⟩

theorem VaultsLapse.trans (one : VaultsLapse now first second)
    (other : VaultsLapse now second third) : VaultsLapse now first third :=
  ⟨other.keys.trans one.keys, fun vault => (one.states vault).trans (other.states vault)⟩

theorem vaultsLapse_popReceipt
    (expired : ∀ receipt, (stateOf vault first).receipts.lookup key = some receipt →
      receipt.expiresAt ≤ now) :
    VaultsLapse now first (OpaqueStore.popReceipt vault key first) := by
  rw [OpaqueStore.popReceipt]
  cases found : first.lookup vault with
  | none => exact .refl
  | some state =>
    have own : stateOf vault first = state := by rw [stateOf, found, Option.getD_some]
    rw [own] at expired
    constructor
    · rw [Dict.keys_insert, Finset.insert_eq_self, Finmap.mem_keys]
      exact Finmap.mem_of_lookup_eq_some found
    · intro other
      rw [stateOf, stateOf, Dict.lookup_insert_eq]
      split
      case isTrue same =>
        rw [same, found, Option.getD_some, Option.getD_some]
        exact VaultState.lapses_erase expired
      case isFalse => exact .refl

theorem vaultsLapse_dropReceipt {slot : VaultKey × Scope × String} :
    VaultsLapse now first (OpaqueStore.dropReceipt now slot first) := by
  rw [OpaqueStore.dropReceipt]
  split
  case isTrue expired =>
    apply vaultsLapse_popReceipt
    intro receipt found
    cases known : first.lookup slot.1 with
    | none =>
      rw [stateOf, known] at found
      cases found
    | some state =>
      rw [stateOf, known, Option.getD_some] at found
      rw [known, Option.bind_some, found, Option.any_some, decide_eq_true_eq] at expired
      exact expired
  case isFalse => exact .refl

end Vaults

namespace OpaqueStore

structure Readies (now : ℚ) (before after : OpaqueStore Fingerprint) : Prop where
  vaults : VaultsLapse now before.vaults after.vaults
  rest : after = { before with
    vaults := after.vaults
    receiptExpiries := after.receiptExpiries
    lastObservedClock := some now }
  inOrder : ∀ last ∈ before.lastObservedClock, last ≤ now

variable {before after timed : OpaqueStore Fingerprint}

theorem clockNow_eq (read : before.clockNow now = some timed) :
    timed = { before with lastObservedClock := some now } ∧
      ∀ last ∈ before.lastObservedClock, last ≤ now := by
  rw [clockNow] at read
  split at read
  case isTrue => cases read
  case isFalse early =>
    refine ⟨(Option.some.inj read).symm, ?_⟩
    intro last observed
    rw [observed, Option.any_some, decide_eq_true_eq] at early
    exact not_lt.mp early

theorem clockNow_later (inOrder : ∀ last ∈ before.lastObservedClock, last ≤ now) :
    before.clockNow now = some { before with lastObservedClock := some now } := by
  rw [clockNow, if_neg]
  intro late
  rw [Option.any_eq_true] at late
  obtain ⟨last, observed, late⟩ := late
  exact absurd (of_decide_eq_true late) (not_lt.mpr (inOrder last observed))

theorem readies_pruneReceipts (read : before.clockNow now = some timed) :
    before.Readies now (timed.pruneReceipts now) := by
  obtain ⟨same, inOrder⟩ := clockNow_eq read
  rw [same]
  refine ⟨?_, rfl, inOrder⟩
  have kept (slot : VaultKey × Scope × String) (vaults : Dict VaultKey (VaultState Fingerprint))
      (lapsed : VaultsLapse now before.vaults vaults) :
      VaultsLapse now before.vaults (dropReceipt now slot vaults) :=
    lapsed.trans vaultsLapse_dropReceipt
  exact Expiry.prune_keeps kept .refl

theorem Readies.state (readies : before.Readies now after) (vault : VaultKey) :
    (before.state vault).Lapses now (after.state vault) :=
  readies.vaults.states vault

theorem Readies.popReceipt {vault : VaultKey} {key : Scope × String}
    (readies : before.Readies now after)
    (expired : ((after.state vault).receipts.lookup key).filter (now < ·.expiresAt) = none) :
    before.Readies now
      { after with vaults := OpaqueStore.popReceipt vault key after.vaults } := by
  have lapsed : VaultsLapse now after.vaults (OpaqueStore.popReceipt vault key after.vaults) := by
    apply vaultsLapse_popReceipt
    intro receipt known
    rw [Option.filter_eq_none_iff] at expired
    have gone := expired receipt known
    rwa [decide_eq_true_eq, not_lt] at gone
  refine ⟨readies.vaults.trans lapsed, ?_, readies.inOrder⟩
  rw [readies.rest]

end OpaqueStore

theorem receipts_write {state : VaultState Fingerprint} {fingerprint : Fingerprint} {scope : Scope}
    {envelope : StorageEnvelope} :
    (state.write fingerprint scope envelope).receipts = state.receipts := by
  cases scope <;> cases envelope <;> rfl

/-- An envelope that may follow what there is. -/
structure VaultState.Extends (state : VaultState Fingerprint) (scope : Scope)
    (envelope : StorageEnvelope) (expectedRevision : String) : Prop where
  new : (state.compared scope envelope.revision).filter (·.revision = envelope.revision) = none
  notHistorical : state.isHistorical envelope.revision scope = false
  follows : requireParentCas (state.current scope) envelope expectedRevision = true

section Puts

variable (library : EnvelopeLibrary Fingerprint) (limits : RetainedLimits) (scope : Scope)
  (envelope : StorageEnvelope) (request : WriteRequest)

def WriteRequest.key (scope : Scope) (request : WriteRequest) : Scope × String :=
  (scope, request.idempotencyKey)

def WriteRequest.attempt (library : EnvelopeLibrary Fingerprint) (envelope : StorageEnvelope)
    (request : WriteRequest) : WriteAttempt Fingerprint :=
  ⟨request.expectedRevision, library.fingerprint envelope⟩

def CapacityDelta.fits (limits : RetainedLimits) (store : OpaqueStore Fingerprint)
    (accountId : String) (delta : CapacityDelta) : Bool :=
  delta.fitsGlobally limits store && delta.fitsAccount limits store accountId

def OpaqueStore.afterWrite (store : OpaqueStore Fingerprint) : OpaqueStore Fingerprint :=
  let written := (store.state request.vault).write (library.fingerprint envelope) scope envelope
  (store.record request.vault written (request.key scope) (request.attempt library envelope) envelope
    request.now).retain request.vault.1 (capacityDelta library scope envelope request.vault store)

/-- What a put may do and answer. -/
inductive Puts (before : OpaqueStore Fingerprint) :
    OpaqueStore Fingerprint → Except String Reply → Prop
  | invalid (refused : writeTokensValid request.expectedRevision request.idempotencyKey = false ∨
        ∃ last ∈ before.lastObservedClock, request.now < last) :
      Puts before before (.error invalidOpaqueStorageRequest)
  | conflict {ready : OpaqueStore Fingerprint} (readies : before.Readies request.now ready) :
      Puts before ready (.error opaqueStorageConflict)
  | mismatched {ready : OpaqueStore Fingerprint} {receipt : Receipt Fingerprint}
      (readies : before.Readies request.now ready)
      (found : (ready.state request.vault).receipts.lookup (request.key scope) = some receipt)
      (foreign : scope.admits receipt.response = false) :
      Puts before ready (.error receiptTypeMismatch)
  | full {ready : OpaqueStore Fingerprint} (readies : before.Readies request.now ready)
      (fresh : (ready.state request.vault).Extends scope envelope request.expectedRevision)
      (unfit : (capacityDelta library scope envelope request.vault ready).fits limits ready
        request.vault.1 = false) :
      Puts before ready (.error opaqueStorageCapacityExceeded)
  | replayed {ready : OpaqueStore Fingerprint} {receipt : Receipt Fingerprint}
      (readies : before.Readies request.now ready)
      (found : (ready.state request.vault).receipts.lookup (request.key scope) = some receipt)
      (same : receipt.attempt = request.attempt library envelope)
      (admitted : scope.admits receipt.response = true) :
      Puts before ready (.ok (.replayed receipt.response))
  | duplicate {ready : OpaqueStore Fingerprint} (readies : before.Readies request.now ready)
      (found : (ready.state request.vault).compared scope envelope.revision = some envelope) :
      Puts before (ready.record request.vault (ready.state request.vault) (request.key scope)
        (request.attempt library envelope) envelope request.now) (.ok (.duplicate envelope))
  | written {ready : OpaqueStore Fingerprint} (readies : before.Readies request.now ready)
      (fresh : (ready.state request.vault).Extends scope envelope request.expectedRevision)
      (fits : (capacityDelta library scope envelope request.vault ready).fits limits ready
        request.vault.1 = true) :
      Puts before (ready.afterWrite library scope envelope request) (.ok (.written envelope))

variable {library limits scope envelope request} {before ready : OpaqueStore Fingerprint}

theorem puts_putAnew (readies : before.Readies request.now ready) :
    Puts library limits scope envelope request before
      (ready.putAnew library limits scope envelope request).1
      (ready.putAnew library limits scope envelope request).2 := by
  rw [OpaqueStore.putAnew]
  dsimp only
  cases found : ((ready.state request.vault).compared scope envelope.revision).filter
      (·.revision = envelope.revision) with
  | some known =>
    dsimp only
    split
    case isTrue => exact .conflict readies
    case isFalse same =>
      obtain rfl : known = envelope := not_not.mp same
      exact .duplicate readies (Option.filter_eq_some_iff.mp found).1
  | none =>
    dsimp only
    split
    case isTrue => exact .conflict readies
    case isFalse notHistorical =>
    split
    case isTrue => exact .conflict readies
    case isFalse follows =>
    have fresh : (ready.state request.vault).Extends scope envelope request.expectedRevision :=
      ⟨found, Bool.not_eq_true _ ▸ notHistorical, Bool.not_eq_false _ ▸ follows⟩
    split
    case isTrue unfit => exact .full readies fresh unfit
    case isFalse fits => exact .written readies fresh (Bool.not_eq_false _ ▸ fits)

theorem puts_put [DecidableEq Fingerprint] : Puts library limits scope envelope request before
    (before.put library limits scope envelope request).1
    (before.put library limits scope envelope request).2 := by
  rw [OpaqueStore.put]
  by_cases valid : writeTokensValid request.expectedRevision request.idempotencyKey = false
  · rw [if_pos valid]
    exact .invalid (.inl valid)
  rw [if_neg valid]
  cases read : before.clockNow request.now with
  | none =>
    apply Puts.invalid
    rw [OpaqueStore.clockNow] at read
    split at read
    case isFalse => cases read
    case isTrue late =>
      rw [Option.any_eq_true] at late
      obtain ⟨last, observed, late⟩ := late
      exact .inr ⟨last, observed, of_decide_eq_true late⟩
  | some timed =>
    have readies := OpaqueStore.readies_pruneReceipts read
    dsimp only
    cases found : (((timed.pruneReceipts request.now).state request.vault).receipts.lookup
        (scope, request.idempotencyKey)).filter (request.now < ·.expiresAt) with
    | none =>
      dsimp only
      exact puts_putAnew (readies.popReceipt found)
    | some receipt =>
      rw [Option.filter_eq_some_iff] at found
      dsimp only
      split
      case isTrue => exact .conflict readies
      case isFalse same =>
      split
      case isTrue admitted => exact .replayed readies found.1 (not_not.mp same) admitted
      case isFalse foreign =>
        exact .mismatched readies found.1 (Bool.not_eq_true _ ▸ foreign)

end Puts

end JobAgg.VaultApi
