import JobAgg.EpochVault.GuardedSyncState
import JobAgg.Foundation.Run

/-! # Runs of the guarded history

The file of a history, under any sequence of calls. What a call can write is said once, by
`Writes`; every invariant of a history is derived from it. -/

namespace JobAgg.EpochVault

variable {Digest : Type}

/-- The public operations of a history that write. -/
inductive Call (Digest : Type) where
  /-- `initialize` -/
  | initializeHistory
  | ingest (view : View Digest) (registry : PresentedRegistry Digest)
      (commitment : Commitment Digest) (opaqueState : Bytes)
  | compareEvidence (peer : List (View Digest))
  | resolve (disposition : Disposition) (localRoot peerRoot : Digest)
  | stageEpoch (bridge : Bridge Digest)

section Files

variable {state next : GuardedState Digest}

theorem written_whenActive {Answer : Type} {effect : Effect (GuardedState Digest) Answer}
    (written : (whenActive state effect).written = some next) :
    state.status = .active ∧
      (next = { state with status := .recoveryPending } ∨
        state.cases.length ≠ maximumCases ∧ effect.written = some next) := by
  rw [whenActive] at written
  split at written
  · cases written
  · rename_i active
    rw [bne_iff_ne, not_not] at active
    split at written
    · cases written
      exact ⟨active, .inl rfl⟩
    · rename_i room
      rw [beq_iff_eq] at room
      exact ⟨active, .inr ⟨room, written⟩⟩

theorem written_onFailure {Answer : Type} {failure : Failure Digest}
    (written : (@onFailure Digest Answer state failure).written = some next) :
    next = alarm state failure.reason failure.peer failure.presented := by
  rw [onFailure] at written
  split at written
  · cases written
  · cases written
    rfl

theorem withEvidence_eq_ok {Value : Type} {peer : List (View Digest)} {presented : Option Digest}
    {computation : Except String Value} {value : Value} :
    withEvidence peer presented computation = .ok value ↔ computation = .ok value :=
  mapError_eq_ok

end Files

variable [DecidableEq Digest]

section Steps

variable (library : HistoryLibrary Digest) (guard : Guard Digest)

/-- What a call writes; a call that needs the file is refused where there is none. -/
def Call.written : Call Digest → Option (GuardedState Digest) → Option (GuardedState Digest)
  | .initializeHistory, none => some (initialState guard)
  | .initializeHistory, some _ => none
  | _, none => none
  | .ingest view registry commitment opaqueState, some state =>
    (EpochVault.ingest library guard view registry commitment opaqueState state).written
  | .compareEvidence peer, some state =>
    (EpochVault.compareEvidence library guard peer state).written
  | .resolve disposition localRoot peerRoot, some state =>
    (EpochVault.resolve library guard disposition localRoot peerRoot state).written
  | .stageEpoch bridge, some state => (EpochVault.stageEpoch library guard bridge state).written

def Call.applied (file : Option (GuardedState Digest)) (call : Call Digest) :
    Option (GuardedState Digest) :=
  (call.written library guard file).or file

def Calls (before : Option (GuardedState Digest)) (call : Call Digest)
    (after : Option (GuardedState Digest)) : Prop :=
  after = call.applied library guard before

inductive Writes : Call Digest → GuardedState Digest → GuardedState Digest → Prop
  | capped {call : Call Digest} {state : GuardedState Digest} (active : state.status = .active) :
      Writes call state { state with status := .recoveryPending }
  | alarmed {call : Call Digest} {state : GuardedState Digest} {reason : String}
      {peer : List (View Digest)} {presented : Option Digest} (active : state.status = .active)
      (room : state.cases.length ≠ maximumCases) :
      Writes call state (alarm state reason peer presented)
  | accepted {view : View Digest} {registry : PresentedRegistry Digest}
      {commitment : Commitment Digest} {opaqueState : Bytes} {state next : GuardedState Digest}
      (active : state.status = .active) (room : state.cases.length ≠ maximumCases)
      (admitted : checkIngest library guard state view registry commitment opaqueState =
        .ok (some next)) :
      Writes (.ingest view registry commitment opaqueState) state next
  | settled {disposition : Disposition} {localRoot peerRoot : Digest}
      {state : GuardedState Digest} {found : Case Digest}
      (pending : state.status = .manualRequired) (last : state.cases.getLast? = some found) :
      Writes (.resolve disposition localRoot peerRoot) state (settled guard state found disposition)
  | staged {bridge : Bridge Digest} {state next : GuardedState Digest}
      (active : state.status = .active) (extended : staged library guard state bridge = .ok next) :
      Writes (.stageEpoch bridge) state next

end Steps

variable {library : HistoryLibrary Digest} {guard : Guard Digest}
  {file state next : GuardedState Digest} {call : Call Digest}

theorem load_eq_ok (context : file.context = guard.context)
    (cases : file.cases.length ≤ maximumCases) (records : file.records.size ≤ limit)
    {proofs : List (BridgeProof Digest)} (bridged : bridgeProofs library guard file = .ok proofs)
    (chained : chain library guard file.views proofs = .ok ()) :
    load library guard file = .ok file := by
  rw [load, context, bridged, require_bind_eq_ok, ok_bind, chained, ok_bind, require_bind_eq_ok,
    require_bind_eq_ok, pure_eq_ok]
  exact ⟨beq_self_eq_true _, decide_eq_true cases, decide_eq_true records, rfl⟩

theorem writes_of_written (written : call.written library guard (some state) = some next) :
    load library guard state = .ok state ∧ Writes library guard call state next := by
  cases call with
  | initializeHistory => cases written
  | ingest view registry commitment opaqueState =>
    obtain ⟨loads, written⟩ := written_of_loads written
    obtain ⟨active, rfl | ⟨room, written⟩⟩ := written_whenActive written
    · exact ⟨loads, .capped active⟩
    · cases admitted : checkIngest library guard state view registry commitment opaqueState with
      | error failure =>
        rw [admitted] at written
        rw [written_onFailure written]
        exact ⟨loads, .alarmed active room⟩
      | ok accepted =>
        rw [admitted] at written
        cases accepted with
        | none => cases written
        | some found =>
          cases written
          exact ⟨loads, .accepted active room admitted⟩
  | compareEvidence peer =>
    obtain ⟨loads, written⟩ := written_of_loads written
    obtain ⟨active, rfl | ⟨room, written⟩⟩ := written_whenActive written
    · exact ⟨loads, .capped active⟩
    · cases compared : compare library guard state peer with
      | error failure =>
        rw [compared] at written
        rw [written_onFailure written]
        exact ⟨loads, .alarmed active room⟩
      | ok count =>
        rw [compared] at written
        cases written
  | resolve disposition localRoot peerRoot =>
    obtain ⟨loads, written⟩ := written_of_loads written
    cases last : state.cases.getLast? with
    | none =>
      rw [last] at written
      cases written
    | some found =>
      rw [last] at written
      dsimp only at written
      split at written
      · rename_i fits
        cases written
        rw [Bool.and_eq_true, Bool.and_eq_true, beq_iff_eq] at fits
        exact ⟨loads, .settled fits.1.1 last⟩
      · cases written
  | stageEpoch bridge =>
    obtain ⟨loads, written⟩ := written_of_loads written
    obtain ⟨active, rfl | ⟨room, written⟩⟩ := written_whenActive written
    · exact ⟨loads, .capped active⟩
    · cases extended : staged library guard state bridge with
      | error reason =>
        rw [extended] at written
        cases written
      | ok found =>
        rw [extended] at written
        cases written
        exact ⟨loads, .staged active extended⟩

theorem stageEpoch_cases (library : HistoryLibrary Digest) (guard : Guard Digest)
    (bridge : Bridge Digest) (file : GuardedState Digest) :
    (∃ next, staged library guard file bridge = .ok next ∧
        stageEpoch library guard bridge file = ⟨some next, .ok next⟩) ∨
      ∃ reason, (stageEpoch library guard bridge file).answer = .error reason ∧
        ∀ next, (stageEpoch library guard bridge file).written = some next →
          next = { file with status := .recoveryPending } ∧
            Writes library guard (.stageEpoch bridge) file next := by
  rw [stageEpoch]
  cases loading : load library guard file with
  | error reason => exact .inr ⟨reason, rfl, fun next impossible => by cases impossible⟩
  | ok state =>
    obtain ⟨rfl, -⟩ := load_spec loading
    dsimp only
    rw [whenActive]
    split
    · exact .inr ⟨recoveryPending, rfl, fun next impossible => by cases impossible⟩
    · rename_i active
      rw [bne_iff_ne, not_not] at active
      split
      · refine .inr ⟨recoveryPending, rfl, ?_⟩
        intro next written
        cases written
        exact ⟨rfl, .capped active⟩
      · cases extended : staged library guard state bridge with
        | error reason => exact .inr ⟨reason, rfl, fun next impossible => by cases impossible⟩
        | ok next => exact .inl ⟨next, rfl, rfl⟩

theorem calls_cases {before after : Option (GuardedState Digest)}
    (called : Calls library guard before call after) :
    after = before ∨ (before = none ∧ call = .initializeHistory ∧ after = some (initialState guard)) ∨
      ∃ state next, before = some state ∧ after = some next ∧
        load library guard state = .ok state ∧ Writes library guard call state next := by
  rw [Calls, Call.applied] at called
  cases writing : call.written library guard before with
  | none =>
    rw [writing, Option.none_or] at called
    exact .inl called
  | some next =>
    rw [writing, Option.some_or] at called
    cases before with
    | none =>
      cases call with
      | initializeHistory =>
        cases writing
        exact .inr (.inl ⟨rfl, rfl, called⟩)
      | _ => cases writing
    | some state =>
      obtain ⟨loads, writes⟩ := writes_of_written writing
      exact .inr (.inr ⟨state, next, rfl, called, loads, writes⟩)

/-- What the checks of `ingest` come to for a view that is added. -/
structure Admitted (library : HistoryLibrary Digest) (guard : Guard Digest)
    (state : GuardedState Digest) (view : View Digest) (registry : PresentedRegistry Digest)
    (commitment : Commitment Digest) (opaqueState : Bytes) (next : GuardedState Digest) :
    Prop where
  policy : ∃ publicB64, currentPolicy library guard state = .ok (view.keyEpoch, publicB64) ∧
    view.isVerified library publicB64 = true
  account : view.accountId = guard.context.accountId
  vault : view.vaultId = guard.context.vaultId
  presented : presentedRoot library (!state.bridges.isEmpty || guard.origin.isSome) registry =
    .ok view.registryRoot
  small : view.sequence - guard.originOffset ≤ limit
  continuing : continues library guard state.views view commitment = true
  added : ∃ records, admitCollection library state view opaqueState = .ok records ∧
    next = { state with records := records, views := state.views ++ [view] }

theorem placeView_eq_true {views : List (View Digest)} {view : View Digest}
    (placed : placeView guard views view = .ok true) :
    view.sequence - guard.originOffset ≤ limit := by
  rw [placeView, require_bind_eq_ok, require_bind_eq_ok] at placed
  obtain ⟨-, -, placed⟩ := placed
  split at placed
  · cases placed
  · rw [require_bind_eq_ok, decide_eq_true_eq] at placed
    exact placed.1

theorem admit_spec {view : View Digest} {registry : PresentedRegistry Digest}
    {commitment : Commitment Digest} {opaqueState : Bytes}
    (admitted : checkIngest library guard state view registry commitment opaqueState =
      .ok (some next)) :
    Admitted library guard state view registry commitment opaqueState next := by
  rw [checkIngest, bind_eq_ok] at admitted
  obtain ⟨⟨epoch, publicB64⟩, policy, admitted⟩ := admitted
  dsimp only at admitted
  rw [withEvidence_eq_ok] at policy
  rw [bind_eq_ok] at admitted
  obtain ⟨done, verified, admitted⟩ := admitted
  rw [withEvidence_eq_ok, require_eq_ok] at verified
  rw [bind_eq_ok] at admitted
  obtain ⟨done, names, admitted⟩ := admitted
  rw [withEvidence_eq_ok, require_eq_ok, Bool.and_eq_true, Bool.and_eq_true, beq_iff_eq,
    beq_iff_eq, beq_iff_eq] at names
  rw [bind_eq_ok] at admitted
  obtain ⟨presented, shown, admitted⟩ := admitted
  rw [withEvidence_eq_ok] at shown
  rw [withEvidence_eq_ok, require_bind_eq_ok, require_bind_eq_ok, require_bind_eq_ok, bind_eq_ok,
    beq_iff_eq] at admitted
  obtain ⟨rfl, -, -, digest, -, admitted⟩ := admitted
  rw [require_bind_eq_ok, require_bind_eq_ok, bind_eq_ok] at admitted
  obtain ⟨-, -, isNew, placed, admitted⟩ := admitted
  cases isNew with
  | false => cases admitted
  | true =>
    rw [if_pos rfl, require_bind_eq_ok, bind_eq_ok] at admitted
    obtain ⟨continuing, records, collected, same⟩ := admitted
    cases same
    obtain ⟨⟨account, vault⟩, rfl⟩ := names
    exact ⟨⟨publicB64, policy, verified⟩, account, vault, shown, placeView_eq_true placed,
      continuing, records, collected, rfl⟩

/-- A history of two devices. -/
def plainGuard : Guard Mark where
  context := ⟨"account", "vault", "collection", 1, plainKey 'A'⟩
  rotationRegistry := some [plainDevice 'A', plainDevice 'B']
  origin := none

end JobAgg.EpochVault
