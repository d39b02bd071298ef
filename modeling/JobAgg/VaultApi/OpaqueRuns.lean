import JobAgg.VaultApi.OpaqueWrites

/-! # Calls of the store

A call either puts an envelope or changes nothing but the cursors. What was accepted into a
scope is read off the calls and their answers. -/

namespace JobAgg.VaultApi

variable {Fingerprint : Type} {library : EnvelopeLibrary Fingerprint} {limits : RetainedLimits}
  {before after store : OpaqueStore Fingerprint} {call : StoreCall} {event : StoreEvent}
  {vault other : VaultKey} {scope : Scope} {past : List StoreEvent} {now : ℚ}

structure PutCall where
  scope : Scope
  envelope : StorageEnvelope
  request : WriteRequest

def StoreCall.put : StoreCall → Option PutCall
  | .putMetadata envelope request => some ⟨.metadata, .metadata envelope, request⟩
  | .putObject objectId envelope request => some ⟨.object objectId, .ciphertext envelope, request⟩
  | .appendPatch envelope request => some ⟨.patches, .ciphertext envelope, request⟩
  | .putSnapshot envelope request => some ⟨.snapshot, .ciphertext envelope, request⟩
  | _ => none

/-- The envelope is for the vault or the object that it is put to. -/
def StoreCall.isAddressed : StoreCall → Bool
  | .putMetadata envelope request => decide (envelope.vaultId = request.vault.2)
  | .putObject objectId envelope _ => decide (envelope.objectId = objectId)
  | _ => true

theorem admits_put {put : PutCall} (puts : call.put = some put) :
    put.scope.admits put.envelope = true := by
  cases call <;> cases puts <;> rfl

/-- A call that puts, at another reading of the clock. -/
def StoreCall.again (now : ℚ) : StoreCall → StoreCall
  | .putMetadata envelope request => .putMetadata envelope { request with now := now }
  | .putObject objectId envelope request => .putObject objectId envelope { request with now := now }
  | .appendPatch envelope request => .appendPatch envelope { request with now := now }
  | .putSnapshot envelope request => .putSnapshot envelope { request with now := now }
  | call => call

theorem put_again (now : ℚ) {put : PutCall} (puts : call.put = some put) :
    (call.again now).put = some { put with request := { put.request with now := now } } := by
  cases call <;> cases puts <;> rfl

theorem isAddressed_again (now : ℚ) : (call.again now).isAddressed = call.isAddressed := by
  cases call <;> rfl

/-- Nothing changes but the cursors and the clock. -/
structure OpaqueStore.Pages (before after : OpaqueStore Fingerprint) : Prop where
  rest : after = { before with
    cursors := after.cursors
    cursorExpiries := after.cursorExpiries
    nextCursorExpirySequence := after.nextCursorExpirySequence
    lastObservedClock := after.lastObservedClock }

theorem OpaqueStore.pages_page {patches : List CiphertextEnvelope} {start endAt pageSize : Nat}
    {known : Option (String × Cursor)} {draws : List String} :
    store.Pages (store.page vault patches start endAt pageSize known now draws).1 := by
  rw [OpaqueStore.page]
  split
  case isTrue => exact ⟨rfl⟩
  case isFalse =>
  dsimp only
  split
  case isFalse => exact ⟨rfl⟩
  case isTrue =>
  split
  case h_1 => exact ⟨rfl⟩
  case h_2 =>
  rw [OpaqueStore.newCursor]
  split
  case h_1 => exact ⟨rfl⟩
  case h_2 next renewed drawn =>
    split at drawn
    case h_1 => cases drawn
    case h_2 =>
      cases drawn
      split
      · exact ⟨rfl⟩
      · exact ⟨rfl⟩

theorem OpaqueStore.Pages.trans {middle : OpaqueStore Fingerprint} (first : before.Pages middle)
    (second : middle.Pages after) : before.Pages after := by
  constructor
  rw [second.rest, first.rest]

theorem OpaqueStore.pages_listPatches {cursor : Option String} {pageSize : Option Nat}
    {draws : List String} :
    store.Pages (store.listPatches vault cursor pageSize now draws).1 := by
  rw [OpaqueStore.listPatches]
  cases read : store.clockNow now with
  | none => exact ⟨rfl⟩
  | some timed =>
    obtain ⟨rfl, -⟩ := clockNow_eq read
    have pruned : store.Pages
        (({ store with lastObservedClock := some now } : OpaqueStore Fingerprint).pruneCursors
          now) := ⟨rfl⟩
    dsimp only
    generalize ({ store with lastObservedClock := some now } :
      OpaqueStore Fingerprint).pruneCursors now = ready at pruned ⊢
    cases cursor with
    | none => exact pruned.trans pages_page
    | some token =>
      dsimp only
      split
      case h_1 => exact pruned
      case h_2 =>
      split
      case isTrue => exact pruned.trans ⟨rfl⟩
      case isFalse =>
      split
      case isTrue => exact pruned
      case isFalse => exact pruned.trans pages_page

section Perform

variable [DecidableEq Fingerprint]

theorem perform_put {put : PutCall} (puts : call.put = some put) :
    store.perform library limits call =
      if call.isAddressed = true then
        (store.put library limits put.scope put.envelope put.request).map id (·.map .reply)
      else (store, .error invalidOpaqueStorageRequest) := by
  cases call with
  | putMetadata envelope request =>
    cases puts
    rw [OpaqueStore.perform, OpaqueStore.putMetadata, StoreCall.isAddressed]
    by_cases same : envelope.vaultId = request.vault.2
    · rw [if_neg (not_not.mpr same), if_pos (decide_eq_true same)]
    · rw [if_pos same, if_neg (by rw [decide_eq_true_eq]; exact same)]
      rfl
  | putObject objectId envelope request =>
    cases puts
    rw [OpaqueStore.perform, OpaqueStore.putObject, StoreCall.isAddressed]
    by_cases same : envelope.objectId = objectId
    · rw [if_neg (not_not.mpr same), if_pos (decide_eq_true same)]
    · rw [if_pos same, if_neg (by rw [decide_eq_true_eq]; exact same)]
      rfl
  | appendPatch envelope request => cases puts; rfl
  | putSnapshot envelope request => cases puts; rfl
  | getMetadata => cases puts
  | getObject => cases puts
  | getSnapshot => cases puts
  | listPatches => cases puts

inductive Steps (library : EnvelopeLibrary Fingerprint) (limits : RetainedLimits)
    (before : OpaqueStore Fingerprint) : StoreEvent → OpaqueStore Fingerprint → Prop
  | puts {call : StoreCall} {after : OpaqueStore Fingerprint} (put : PutCall)
      (outcome : Except String Reply) (called : call.put = some put)
      (addressed : call.isAddressed = true)
      (valid : ∀ reply, outcome = .ok reply →
        writeTokensValid put.request.expectedRevision put.request.idempotencyKey = true)
      (puts : Puts library limits put.scope put.envelope put.request before after outcome) :
      Steps library limits before ⟨call, outcome.map .reply⟩ after
  | misaddressed {call : StoreCall} (put : PutCall) (called : call.put = some put)
      (astray : call.isAddressed = false) :
      Steps library limits before ⟨call, .error invalidOpaqueStorageRequest⟩ before
  | reads {call : StoreCall} {answer : Except String StoreAnswer}
      {after : OpaqueStore Fingerprint} (called : call.put = none)
      (noReply : ∀ reply, answer ≠ .ok (.reply reply)) (pages : before.Pages after) :
      Steps library limits before ⟨call, answer⟩ after

theorem map_ne_reply {Found : Type} {found : Except String Found} {wrap : Found → StoreAnswer}
    (other : ∀ value reply, wrap value ≠ .reply reply) (reply : Reply) :
    found.map wrap ≠ .ok (.reply reply) := by
  cases found with
  | error reason => exact nofun
  | ok value => exact fun same => other value reply (Except.ok.inj same)

theorem step_cases (step : before.Step library limits event after) :
    Steps library limits before event after := by
  obtain ⟨call, answer⟩ := event
  rw [OpaqueStore.Step] at step
  dsimp only at step
  cases called : call.put with
  | some put =>
    rw [perform_put called] at step
    split at step
    case isTrue addressed =>
      have reached : after = (before.put library limits put.scope put.envelope put.request).1 :=
        (congrArg Prod.fst step).symm
      have answered : answer =
          (before.put library limits put.scope put.envelope put.request).2.map .reply :=
        (congrArg Prod.snd step).symm
      rw [reached, answered]
      refine .puts put _ called addressed ?_ puts_put
      intro reply accepted
      by_contra invalid
      rw [Bool.not_eq_true] at invalid
      have refused : before.put library limits put.scope put.envelope put.request =
          (before, .error invalidOpaqueStorageRequest) := by
        rw [OpaqueStore.put, if_pos invalid]
      rw [refused] at accepted
      cases accepted
    case isFalse astray =>
      obtain ⟨rfl, rfl⟩ := Prod.mk.inj step
      exact .misaddressed put called (Bool.not_eq_true _ ▸ astray)
  | none =>
    cases call with
    | putMetadata => cases called
    | putObject => cases called
    | appendPatch => cases called
    | putSnapshot => cases called
    | getMetadata vault =>
      obtain ⟨rfl, rfl⟩ := Prod.mk.inj step
      exact .reads called (map_ne_reply fun _ _ same => by cases same) ⟨rfl⟩
    | getObject vault objectId =>
      obtain ⟨rfl, rfl⟩ := Prod.mk.inj step
      exact .reads called (map_ne_reply fun _ _ same => by cases same) ⟨rfl⟩
    | getSnapshot vault =>
      obtain ⟨rfl, rfl⟩ := Prod.mk.inj step
      exact .reads called (map_ne_reply fun _ _ same => by cases same) ⟨rfl⟩
    | listPatches vault cursor pageSize now draws =>
      obtain ⟨rfl, rfl⟩ := Prod.mk.inj step
      exact .reads called (map_ne_reply fun _ _ same => by cases same) OpaqueStore.pages_listPatches

end Perform

/-! ## What was accepted -/

def StoreEvent.written (vault : VaultKey) (scope : Scope) (event : StoreEvent) :
    Option StorageEnvelope :=
  match event.call.put, event.answer with
  | some put, .ok (.reply (.written _)) =>
    if put.request.vault = vault ∧ put.scope = scope then some put.envelope else none
  | _, _ => none

def accepted (vault : VaultKey) (scope : Scope) (past : List StoreEvent) : List StorageEnvelope :=
  past.filterMap (·.written vault scope)

theorem accepted_append : accepted vault scope (past ++ [event]) =
    accepted vault scope past ++ (event.written vault scope).toList := by
  rw [accepted, List.filterMap_append, ← accepted]
  cases written : event.written vault scope with
  | none => rw [List.filterMap_cons_none written]; rfl
  | some envelope => rw [List.filterMap_cons_some written]; rfl

theorem accepted_append_of_none (none : event.written vault scope = none) :
    accepted vault scope (past ++ [event]) = accepted vault scope past := by
  rw [accepted_append, none]
  exact List.append_nil _

theorem mem_accepted {envelope : StorageEnvelope} (member : envelope ∈ accepted vault scope past) :
    ∃ event ∈ past, ∃ put, event.call.put = some put ∧ put.envelope = envelope := by
  rw [accepted, List.mem_filterMap] at member
  obtain ⟨event, listed, written⟩ := member
  refine ⟨event, listed, ?_⟩
  rw [StoreEvent.written] at written
  split at written
  case h_2 => cases written
  case h_1 put _ called answered =>
    split at written
    case isTrue => exact ⟨put, called, Option.some.inj written⟩
    case isFalse => cases written

theorem written_eq_none {call : StoreCall} {answer : Except String StoreAnswer}
    (other : ∀ envelope, answer ≠ .ok (.reply (.written envelope))) :
    StoreEvent.written vault scope ⟨call, answer⟩ = none := by
  rw [StoreEvent.written]
  split
  case h_1 envelope _ answered => exact absurd answered (other envelope)
  case h_2 => rfl

theorem written_eq {call : StoreCall} {put : PutCall} (called : call.put = some put)
    {envelope : StorageEnvelope} :
    StoreEvent.written vault scope ⟨call, .ok (.reply (.written envelope))⟩ =
      if put.request.vault = vault ∧ put.scope = scope then some put.envelope else none := by
  rw [StoreEvent.written]
  dsimp only
  rw [called]

/-! ## States after a write -/

theorem state_record {state : VaultState Fingerprint} {key : Scope × String}
    {attempt : WriteAttempt Fingerprint} {response : StorageEnvelope} :
    (store.record vault state key attempt response now).state other =
      if other = vault then
        { state with
          receipts := state.receipts.insert key ⟨attempt, response, now + receiptLifetimeSeconds⟩ }
      else store.state other := by
  rw [OpaqueStore.state, OpaqueStore.record, Dict.lookup_insert_eq]
  split
  · rfl
  · rfl

theorem state_retain {accountId : String} {delta : CapacityDelta} :
    (store.retain accountId delta).state vault = store.state vault := rfl

theorem OpaqueStore.Pages.state (pages : before.Pages after) :
    after.state vault = before.state vault := by
  rw [pages.rest]
  rfl

/-! ## Two patches -/

theorem ok_of_toOption {Found : Type} {outcome : Except String Found} {found : Found}
    (same : outcome.toOption = some found) : outcome = .ok found := by
  cases outcome with
  | error reason => cases same
  | ok value => exact congrArg Except.ok (Option.some.inj same)

def defaultLimits : RetainedLimits :=
  ⟨4096, 128, 16384, 65536, 131072, 1073741824, 268435456, 268435456, by decide⟩

/-- Two patches that follow one another, with their lengths and fingerprints as JSON. -/
def firstPatch : CiphertextEnvelope :=
  ⟨1, "p1", "r1", none, 1, "AA==", "AA==", "AA==", "AA==", false,
    "6e340b9cffb37a989ca544e6bb780a2c78901d3fb33738768511a30617afa01d"⟩

def secondPatch : CiphertextEnvelope :=
  { firstPatch with objectId := "p2", revision := "r2", parentRevision := some "r1" }

def patchLibrary : EnvelopeLibrary String where
  fingerprint envelope :=
    if envelope = .ciphertext firstPatch then
      "bb07bd928bc0ae9cb4aabc9eca63bc9e830766229cb4d864b9cb4954b054a18a"
    else "72b443b363d7c4529a9a1d2586919aa01ce00d16ae280721ff2681b9153c2191"
  envelopeBytes _ := 317

def patchCall : StoreCall := .appendPatch firstPatch ⟨("account", "vault"), "*", "key", 0⟩

def patched : OpaqueStore String × Except String StoreAnswer :=
  OpaqueStore.empty.perform patchLibrary defaultLimits patchCall

def patchedAgain : OpaqueStore String × Except String StoreAnswer :=
  patched.1.perform patchLibrary defaultLimits (patchCall.again 700)

end JobAgg.VaultApi
