import JobAgg.Foundation.Run
import JobAgg.VaultApi.OpaqueRuns

/-! # What the store counts

The counters of an account are what its vaults hold and what it ever had accepted. A put
keeps them within the limits, and one that is refused changes nothing that counts. -/

namespace JobAgg.VaultApi

variable {Fingerprint : Type} {library : EnvelopeLibrary Fingerprint} {limits : RetainedLimits}
  {before after ready store : OpaqueStore Fingerprint} {past : List StoreEvent}
  {event : StoreEvent} {accountId account : String} {now : ℚ}

section Totals

variable {measure : VaultState Fingerprint → Nat} {vault : VaultKey}
  {vaults lapsed : Dict VaultKey (VaultState Fingerprint)} {state written : VaultState Fingerprint}

def total (account : String) (measure : VaultState Fingerprint → Nat)
    (vaults : Dict VaultKey (VaultState Fingerprint)) : Nat :=
  Dict.sum (fun vault state => if vault.1 = account then measure state else 0) vaults

def IgnoresReceipts (measure : VaultState Fingerprint → Nat) : Prop :=
  ∀ state receipts, measure { state with receipts := receipts } = measure state

theorem weigh_eq_stateOf {weight : VaultKey → VaultState Fingerprint → Nat} :
    Dict.weigh weight vaults vault =
      if vault ∈ vaults then weight vault (stateOf vault vaults) else 0 := by
  split
  case isTrue retained =>
    obtain ⟨state, found⟩ := Finmap.mem_iff.mp retained
    rw [Dict.weigh_of_lookup found, stateOf, found, Option.getD_some]
  case isFalse missing => exact Dict.weigh_of_notMem missing

theorem total_lapse (ignores : IgnoresReceipts measure) (lapses : VaultsLapse now vaults lapsed) :
    total account measure lapsed = total account measure vaults := by
  rw [total, total, Dict.sum, Dict.sum, lapses.keys]
  apply Finset.sum_congr rfl
  intro vault _
  have same : vault ∈ lapsed ↔ vault ∈ vaults := by
    rw [← Finmap.mem_keys, ← Finmap.mem_keys, lapses.keys]
  rw [weigh_eq_stateOf, weigh_eq_stateOf, if_congr same rfl rfl, (lapses.states vault).content,
    ignores]

theorem total_insert (amount : Nat)
    (more : measure written = (if vault ∈ vaults then measure (stateOf vault vaults) else 0) +
      amount) :
    total account measure (vaults.insert vault written) =
      total account measure vaults + if account = vault.1 then amount else 0 := by
  have changed : total account measure (vaults.insert vault written) + _ =
      total account measure vaults + _ := Dict.sum_insert
  rw [weigh_eq_stateOf] at changed
  by_cases own : vault.1 = account
  · rw [if_pos own, if_pos own, more] at changed
    rw [if_pos own.symm]
    omega
  · rw [if_neg own, if_neg own, ite_self] at changed
    rw [if_neg fun same => own same.symm]
    omega

end Totals

theorem countOf_addTo {counters : Dict String Nat} {amount : Nat} :
    Dict.countOf (addTo counters accountId amount) account =
      Dict.countOf counters account + if account = accountId then amount else 0 := by
  rw [addTo]
  split
  case isTrue none =>
    rw [none, ite_self]
    rfl
  case isFalse =>
    rw [Dict.countOf_insert]
    split
    case isTrue same => rw [same]
    case isFalse => rfl

/-! ## What was ever accepted -/

def StoreEvent.addition (event : StoreEvent) : Option (VaultKey × StorageEnvelope) :=
  match event.call.put, event.answer with
  | some put, .ok (.reply (.written _)) => some (put.request.vault, put.envelope)
  | _, _ => none

def additions (past : List StoreEvent) : List (VaultKey × StorageEnvelope) :=
  past.filterMap StoreEvent.addition

def additionsOf (account : String) (past : List StoreEvent) : List (VaultKey × StorageEnvelope) :=
  (additions past).filter fun addition => decide (addition.1.1 = account)

def bytesOf (library : EnvelopeLibrary Fingerprint)
    (additions : List (VaultKey × StorageEnvelope)) : Nat :=
  (additions.map fun addition => library.envelopeBytes addition.2).sum

theorem additions_append_of_none (none : event.addition = none) :
    additions (past ++ [event]) = additions past := by
  rw [additions, List.filterMap_append, List.filterMap_cons_none none]
  exact List.append_nil _

theorem additions_append {addition : VaultKey × StorageEnvelope}
    (added : event.addition = some addition) :
    additions (past ++ [event]) = additions past ++ [addition] := by
  rw [additions, List.filterMap_append, List.filterMap_cons_some added]
  rfl

theorem addition_eq_none {call : StoreCall} {answer : Except String StoreAnswer}
    (other : ∀ envelope, answer ≠ .ok (.reply (.written envelope))) :
    StoreEvent.addition ⟨call, answer⟩ = none := by
  rw [StoreEvent.addition]
  split
  case h_1 envelope _ answered => exact absurd answered (other envelope)
  case h_2 => rfl

theorem bytesOf_append {first second : List (VaultKey × StorageEnvelope)} :
    bytesOf library (first ++ second) = bytesOf library first + bytesOf library second := by
  rw [bytesOf, List.map_append, List.sum_append]
  rfl

/-! ## The balance -/

/-- The counters are what there is, and within the limits. -/
structure Balanced (library : EnvelopeLibrary Fingerprint) (limits : RetainedLimits)
    (past : List StoreEvent) (store : OpaqueStore Fingerprint) : Prop where
  vaults : ∀ account, Dict.countOf store.vaultsPerAccount account =
    total account (fun _ => 1) store.vaults
  objects : ∀ account, Dict.countOf store.objectsPerAccount account =
    total account (fun state => state.objects.size) store.vaults
  patches : ∀ account, Dict.countOf store.patchesPerAccount account =
    total account (fun state => state.patchLog.length) store.vaults
  revisions : ∀ account, Dict.countOf store.revisionsPerAccount account =
    (additionsOf account past).length
  accountBytes : ∀ account, Dict.countOf store.retainedBytesPerAccount account =
    bytesOf library (additionsOf account past)
  bytes : store.retainedBytes = bytesOf library (additions past)
  vaultRoom : store.vaults.size ≤ limits.maxVaults
  byteRoom : store.retainedBytes ≤ limits.maxBytes - limits.reservedBytes
  accountRoom : ∀ account,
    Dict.countOf store.vaultsPerAccount account ≤ limits.maxVaultsPerAccount ∧
    Dict.countOf store.objectsPerAccount account ≤ limits.maxObjectsPerAccount ∧
    Dict.countOf store.patchesPerAccount account ≤ limits.maxPatchesPerAccount ∧
    Dict.countOf store.revisionsPerAccount account ≤ limits.maxRevisionsPerAccount ∧
    Dict.countOf store.retainedBytesPerAccount account ≤ limits.maxBytesPerAccount

theorem balanced_empty : Balanced library limits [] (.empty : OpaqueStore Fingerprint) := by
  have none (measure : VaultState Fingerprint → Nat) (account : String) :
      Dict.countOf (∅ : Dict String Nat) account = total account measure ∅ :=
    Dict.sum_empty.symm
  refine ⟨none _, none _, none _, fun _ => rfl, fun _ => rfl, rfl, ?_, Nat.zero_le _, ?_⟩
  · exact Dict.size_empty.trans_le (Nat.zero_le _)
  · exact fun _ => ⟨Nat.zero_le _, Nat.zero_le _, Nat.zero_le _, Nat.zero_le _, Nat.zero_le _⟩

theorem Balanced.same (balanced : Balanced library limits past before)
    (counters : after = { before with
      vaults := after.vaults
      cursors := after.cursors
      cursorExpiries := after.cursorExpiries
      nextCursorExpirySequence := after.nextCursorExpirySequence
      receiptExpiries := after.receiptExpiries
      nextReceiptExpirySequence := after.nextReceiptExpirySequence
      lastObservedClock := after.lastObservedClock })
    (keys : after.vaults.keys = before.vaults.keys)
    (totals : ∀ account measure, IgnoresReceipts measure →
      total account measure after.vaults = total account measure before.vaults) :
    Balanced library limits past after := by
  have size : after.vaults.size = before.vaults.size := congrArg Finset.card keys
  refine ⟨?_, ?_, ?_, ?_, ?_, ?_, ?_, ?_, ?_⟩
  · intro account
    rw [totals account _ fun _ _ => rfl, counters]
    exact balanced.vaults account
  · intro account
    rw [totals account _ fun _ _ => rfl, counters]
    exact balanced.objects account
  · intro account
    rw [totals account _ fun _ _ => rfl, counters]
    exact balanced.patches account
  · rw [counters]
    exact balanced.revisions
  · rw [counters]
    exact balanced.accountBytes
  · rw [counters]
    exact balanced.bytes
  · rw [size]
    exact balanced.vaultRoom
  · rw [counters]
    exact balanced.byteRoom
  · rw [counters]
    exact balanced.accountRoom

theorem Balanced.lapse (balanced : Balanced library limits past before)
    (readies : before.Readies now ready) : Balanced library limits past ready := by
  apply balanced.same _ readies.vaults.keys fun account measure ignores =>
    total_lapse ignores readies.vaults
  rw [readies.rest]

theorem Balanced.unwritten (balanced : Balanced library limits past store)
    (none : event.addition = none) : Balanced library limits (past ++ [event]) store := by
  have same (account : String) : additionsOf account (past ++ [event]) = additionsOf account past := by
    rw [additionsOf, additions_append_of_none none, ← additionsOf]
  refine ⟨balanced.vaults, balanced.objects, balanced.patches, ?_, ?_, ?_, balanced.vaultRoom,
    balanced.byteRoom, balanced.accountRoom⟩
  · intro account
    rw [same]
    exact balanced.revisions account
  · intro account
    rw [same]
    exact balanced.accountBytes account
  · rw [additions_append_of_none none]
    exact balanced.bytes

theorem mem_of_compared {vault : VaultKey} {scope : Scope} {revision : String}
    {known : StorageEnvelope}
    (found : (store.state vault).compared scope revision = some known) : vault ∈ store.vaults := by
  by_contra missing
  rw [OpaqueStore.state, Finmap.lookup_eq_none.mpr missing, Option.getD_none] at found
  cases scope <;> cases found

theorem Balanced.record {vault : VaultKey} {key : Scope × String}
    {attempt : WriteAttempt Fingerprint} {response : StorageEnvelope}
    (balanced : Balanced library limits past store) (retained : vault ∈ store.vaults) :
    Balanced library limits past
      (store.record vault (store.state vault) key attempt response now) := by
  apply balanced.same
  · rfl
  · rw [OpaqueStore.record, Dict.keys_insert, Finset.insert_eq_self, Finmap.mem_keys]
    exact retained
  · intro account measure ignores
    rw [OpaqueStore.record, total_insert 0, ite_self, Nat.add_zero]
    rw [ignores, if_pos retained, Nat.add_zero]
    rfl

/-! ## A write -/

section Write

variable {scope : Scope} {envelope : StorageEnvelope} {request : WriteRequest}
  {expectedRevision : String}

theorem measure_retained (measure : VaultState Fingerprint → Nat) (zero : measure .empty = 0)
    {vault : VaultKey} :
    (if vault ∈ store.vaults then measure (stateOf vault store.vaults) else 0) =
      measure (store.state vault) := by
  split
  case isTrue => rfl
  case isFalse missing =>
    rw [OpaqueStore.state, Finmap.lookup_eq_none.mpr missing, Option.getD_none, zero]

theorem retained_delta : 1 = (if request.vault ∈ store.vaults then 1 else 0) +
    (capacityDelta library scope envelope request.vault store).vaults := by
  have delta : (capacityDelta library scope envelope request.vault store).vaults =
      if request.vault ∈ store.vaults then 0 else 1 := rfl
  rw [delta]
  split
  · rfl
  · rfl

theorem objects_write (admitted : scope.admits envelope = true) (fingerprint : Fingerprint) :
    ((store.state request.vault).write fingerprint scope envelope).objects.size =
      (store.state request.vault).objects.size +
        (capacityDelta library scope envelope request.vault store).objects := by
  cases scope with
  | object objectId =>
    cases envelope with
    | metadata => cases admitted
    | ciphertext envelope =>
      rw [VaultState.write, capacityDelta, VaultState.current]
      dsimp only
      rw [Option.isNone_map]
      cases found : (store.state request.vault).objects.lookup objectId with
      | none =>
        exact Dict.size_insert_of_notMem (Finmap.lookup_eq_none.mp found)
      | some known =>
        rw [Dict.size, Dict.keys_insert, Finset.insert_eq_self.mpr]
        · rfl
        · exact Finmap.mem_keys.mpr (Finmap.mem_of_lookup_eq_some found)
  | metadata => cases envelope <;> rfl
  | patches => cases envelope <;> rfl
  | snapshot => cases envelope <;> rfl

theorem patches_write (admitted : scope.admits envelope = true) (fingerprint : Fingerprint) :
    ((store.state request.vault).write fingerprint scope envelope).patchLog.length =
      (store.state request.vault).patchLog.length +
        (capacityDelta library scope envelope request.vault store).patches := by
  cases scope with
  | patches =>
    cases envelope with
    | metadata => cases admitted
    | ciphertext envelope =>
      rw [VaultState.write, List.length_append]
      rfl
  | metadata => cases envelope <;> rfl
  | object => cases envelope <;> rfl
  | snapshot => cases envelope <;> rfl

theorem size_afterWrite : (store.afterWrite library scope envelope request).vaults.size =
    store.vaults.size + (capacityDelta library scope envelope request.vault store).vaults := by
  have delta : (capacityDelta library scope envelope request.vault store).vaults =
      if request.vault ∈ store.vaults then 0 else 1 := rfl
  rw [OpaqueStore.afterWrite, OpaqueStore.retain, OpaqueStore.record, delta]
  split
  case isTrue retained =>
    rw [Dict.size, Dict.keys_insert, Finset.insert_eq_self.mpr (Finmap.mem_keys.mpr retained)]
    rfl
  case isFalse missing => exact Dict.size_insert_of_notMem missing

theorem Balanced.write (balanced : Balanced library limits past ready)
    (admitted : scope.admits envelope = true)
    (fits : (capacityDelta library scope envelope request.vault ready).fits limits ready
      request.vault.1 = true)
    (added : event.addition = some (request.vault, envelope)) :
    Balanced library limits (past ++ [event])
      (ready.afterWrite library scope envelope request) := by
  have ofAccount (account : String) : additionsOf account (past ++ [event]) =
      additionsOf account past ++ if account = request.vault.1 then [(request.vault, envelope)]
        else [] := by
    rw [additionsOf, additions_append added, List.filter_append, ← additionsOf]
    congr 1
    rw [List.filter_cons, List.filter_nil]
    simp only [decide_eq_true_eq, @eq_comm _ account]
  rw [CapacityDelta.fits, CapacityDelta.fitsGlobally, CapacityDelta.fitsAccount] at fits
  simp only [Bool.and_eq_true, decide_eq_true_eq] at fits
  obtain ⟨⟨vaultRoom, byteRoom⟩, ⟨⟨⟨vaultsFit, objectsFit⟩, patchesFit⟩, revisionsFit⟩, bytesFit⟩ :=
    fits
  have vaults (account : String) : Dict.countOf
      (ready.afterWrite library scope envelope request).vaultsPerAccount account =
        Dict.countOf ready.vaultsPerAccount account + if account = request.vault.1 then
          (capacityDelta library scope envelope request.vault ready).vaults else 0 :=
    countOf_addTo
  have objects (account : String) : Dict.countOf
      (ready.afterWrite library scope envelope request).objectsPerAccount account =
        Dict.countOf ready.objectsPerAccount account + if account = request.vault.1 then
          (capacityDelta library scope envelope request.vault ready).objects else 0 :=
    countOf_addTo
  have patches (account : String) : Dict.countOf
      (ready.afterWrite library scope envelope request).patchesPerAccount account =
        Dict.countOf ready.patchesPerAccount account + if account = request.vault.1 then
          (capacityDelta library scope envelope request.vault ready).patches else 0 :=
    countOf_addTo
  have revisions (account : String) : Dict.countOf
      (ready.afterWrite library scope envelope request).revisionsPerAccount account =
        Dict.countOf ready.revisionsPerAccount account +
          if account = request.vault.1 then 1 else 0 := by
    rw [OpaqueStore.afterWrite, OpaqueStore.retain, Dict.countOf_insert]
    split
    case isTrue same =>
      rw [same]
      rfl
    case isFalse => rfl
  have bytes (account : String) : Dict.countOf
      (ready.afterWrite library scope envelope request).retainedBytesPerAccount account =
        Dict.countOf ready.retainedBytesPerAccount account +
          if account = request.vault.1 then library.envelopeBytes envelope else 0 := by
    rw [OpaqueStore.afterWrite, OpaqueStore.retain, Dict.countOf_insert]
    split
    case isTrue same =>
      rw [same]
      rfl
    case isFalse => rfl
  refine ⟨?_, ?_, ?_, ?_, ?_, ?_, ?_, byteRoom, ?_⟩
  · intro account
    rw [OpaqueStore.afterWrite, OpaqueStore.retain, OpaqueStore.record]
    dsimp only
    rw [total_insert (capacityDelta library scope envelope request.vault ready).vaults]
    · exact (vaults account).trans (congrArg (· + _) (balanced.vaults account))
    · exact retained_delta
  · intro account
    rw [OpaqueStore.afterWrite, OpaqueStore.retain, OpaqueStore.record]
    dsimp only
    rw [total_insert (capacityDelta library scope envelope request.vault ready).objects]
    · exact (objects account).trans (congrArg (· + _) (balanced.objects account))
    · rw [measure_retained (fun state => state.objects.size) Dict.size_empty]
      exact objects_write admitted _
  · intro account
    rw [OpaqueStore.afterWrite, OpaqueStore.retain, OpaqueStore.record]
    dsimp only
    rw [total_insert (capacityDelta library scope envelope request.vault ready).patches]
    · exact (patches account).trans (congrArg (· + _) (balanced.patches account))
    · rw [measure_retained (fun state => state.patchLog.length) rfl]
      exact patches_write admitted _
  · intro account
    rw [revisions, balanced.revisions, ofAccount, List.length_append]
    split
    · rfl
    · rfl
  · intro account
    rw [bytes, balanced.accountBytes, ofAccount, bytesOf_append]
    split
    · rfl
    · rfl
  · rw [additions_append added, bytesOf_append, ← balanced.bytes]
    rfl
  · rw [size_afterWrite]
    exact vaultRoom
  · intro account
    obtain ⟨vaultsRoom, objectsRoom, patchesRoom, revisionsRoom, bytesRoom⟩ :=
      balanced.accountRoom account
    refine ⟨(vaults account).trans_le ?_, (objects account).trans_le ?_,
      (patches account).trans_le ?_, (revisions account).trans_le ?_, (bytes account).trans_le ?_⟩
    · split
      case isTrue same => rwa [same]
      case isFalse => exact vaultsRoom
    · split
      case isTrue same => rwa [same]
      case isFalse => exact objectsRoom
    · split
      case isTrue same => rwa [same]
      case isFalse => exact patchesRoom
    · split
      case isTrue same => rwa [same]
      case isFalse => exact revisionsRoom
    · split
      case isTrue same => rwa [same]
      case isFalse => exact bytesRoom

end Write

theorem Balanced.puts {call : StoreCall} {put : PutCall} {outcome : Except String Reply}
    (balanced : Balanced library limits past before) (called : call.put = some put)
    (puts : Puts library limits put.scope put.envelope put.request before after outcome) :
    Balanced library limits (past ++ [⟨call, outcome.map .reply⟩]) after := by
  cases puts with
  | invalid => exact balanced.unwritten (addition_eq_none nofun)
  | conflict readies => exact (balanced.lapse readies).unwritten (addition_eq_none nofun)
  | mismatched readies => exact (balanced.lapse readies).unwritten (addition_eq_none nofun)
  | full readies => exact (balanced.lapse readies).unwritten (addition_eq_none nofun)
  | replayed readies => exact (balanced.lapse readies).unwritten (addition_eq_none nofun)
  | duplicate readies found =>
    exact ((balanced.lapse readies).record (mem_of_compared found)).unwritten
      (addition_eq_none nofun)
  | written readies fresh fits =>
    apply (balanced.lapse readies).write (admits_put called) fits
    rw [StoreEvent.addition]
    dsimp only
    rw [called]
    rfl

/-- Nothing changed but receipts that have expired. -/
structure Unchanged (now : ℚ) (before after : OpaqueStore Fingerprint) : Prop where
  vaults : ∀ vault, vault ∈ after.vaults ↔ vault ∈ before.vaults
  content : ∀ vault, after.state vault =
    { before.state vault with receipts := (after.state vault).receipts }
  receipts : ∀ vault key receipt, now < receipt.expiresAt →
    ((after.state vault).receipts.lookup key = some receipt ↔
      (before.state vault).receipts.lookup key = some receipt)
  vaultsPerAccount : after.vaultsPerAccount = before.vaultsPerAccount
  objectsPerAccount : after.objectsPerAccount = before.objectsPerAccount
  patchesPerAccount : after.patchesPerAccount = before.patchesPerAccount
  revisionsPerAccount : after.revisionsPerAccount = before.revisionsPerAccount
  retainedBytes : after.retainedBytes = before.retainedBytes
  retainedBytesPerAccount : after.retainedBytesPerAccount = before.retainedBytesPerAccount

theorem Unchanged.refl : Unchanged now store store :=
  ⟨fun _ => Iff.rfl, fun _ => rfl, fun _ _ _ _ => Iff.rfl, rfl, rfl, rfl, rfl, rfl, rfl⟩

theorem OpaqueStore.Readies.unchanged (readies : before.Readies now after) :
    Unchanged now before after := by
  have rest := readies.rest
  refine ⟨?_, fun vault => (readies.state vault).content, ?_, ?_, ?_, ?_, ?_, ?_, ?_⟩
  · intro vault
    rw [← Finmap.mem_keys, ← Finmap.mem_keys, readies.vaults.keys]
  · intro vault key receipt live
    exact ⟨(readies.state vault).known key receipt,
      fun found => (readies.state vault).kept key receipt found live⟩
  · exact congrArg (·.vaultsPerAccount) rest
  · exact congrArg (·.objectsPerAccount) rest
  · exact congrArg (·.patchesPerAccount) rest
  · exact congrArg (·.revisionsPerAccount) rest
  · exact congrArg (·.retainedBytes) rest
  · exact congrArg (·.retainedBytesPerAccount) rest

variable [DecidableEq Fingerprint]

theorem Balanced.step (balanced : Balanced library limits past before)
    (step : before.Step library limits event after) :
    Balanced library limits (past ++ [event]) after := by
  cases step_cases step with
  | puts put outcome called addressed valid puts => exact balanced.puts called puts
  | misaddressed => exact balanced.unwritten (addition_eq_none nofun)
  | reads called noReply pages =>
    have rest := pages.rest
    apply Balanced.unwritten _ (addition_eq_none fun envelope => noReply _)
    apply balanced.same
    · rw [rest]
    · rw [rest]
    · intro account measure _
      rw [rest]

theorem unchanged_of_error {put : PutCall} {reason : String}
    (step : before.Step library limits event after) (called : event.call.put = some put)
    (refused : event.answer = .error reason) : Unchanged put.request.now before after := by
  cases step_cases step with
  | misaddressed => exact .refl
  | reads notPut => exact absurd (called.symm.trans notPut) nofun
  | puts other outcome otherCalled addressed valid puts =>
    obtain rfl := Option.some.inj (otherCalled.symm.trans called)
    cases puts with
    | invalid => exact .refl
    | conflict readies => exact readies.unchanged
    | mismatched readies => exact readies.unchanged
    | full readies => exact readies.unchanged
    | replayed => cases refused
    | duplicate => cases refused
    | written => cases refused

/-- In every run the counters are what the vaults hold and what was ever accepted, all within
the limits; and a put that is refused leaves the vaults, the receipts that have not expired
and the counters as they are. -/
theorem counters_balanced (run : Run (OpaqueStore.Step library limits) .empty past store) :
    Balanced library limits past store ∧
    ∀ call put reason, call.put = some put →
      (store.perform library limits call).2 = .error reason →
      Unchanged put.request.now store (store.perform library limits call).1 := by
  constructor
  · exact run.invariant_history (Balanced library limits)
      (fun _ _ _ _ step balanced => balanced.step step) balanced_empty
  · intro call put reason called refused
    have step : store.Step library limits ⟨call, (store.perform library limits call).2⟩
        (store.perform library limits call).1 := rfl
    exact unchanged_of_error step called refused

/-- A patch that names another revision than the current one is refused. -/
def strayCall : StoreCall := .appendPatch secondPatch ⟨("account", "vault"), "r0", "other", 1⟩

theorem counters_balanced_patched :
    Balanced patchLibrary defaultLimits [⟨patchCall, patched.2⟩] patched.1 ∧
      (patched.1.perform patchLibrary defaultLimits strayCall).2.toOption = none ∧
      Unchanged 1 patched.1 (patched.1.perform patchLibrary defaultLimits strayCall).1 := by
  have refused : (patched.1.perform patchLibrary defaultLimits strayCall).2.toOption = none := by
    decide +kernel
  have run : Run (OpaqueStore.Step patchLibrary defaultLimits) .empty [⟨patchCall, patched.2⟩]
      patched.1 := .single rfl
  obtain ⟨balanced, unchanged⟩ := counters_balanced run
  refine ⟨balanced, refused, ?_⟩
  cases answered : (patched.1.perform patchLibrary defaultLimits strayCall).2 with
  | error reason => exact unchanged strayCall _ reason rfl answered
  | ok answer =>
    rw [answered] at refused
    cases refused

end JobAgg.VaultApi
