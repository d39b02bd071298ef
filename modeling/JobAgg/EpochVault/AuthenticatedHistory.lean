import JobAgg.EpochVault.GuardedSyncState
import JobAgg.Foundation.Run

/-! # The authenticated history

The simplest history keeps views of one epoch under one key. Evidence of a fork blocks it
for good: the file keeps the views it had and every later call is refused. -/

namespace JobAgg.EpochVault

variable {Digest : Type}

/-- What the file of an `AuthenticatedHistory` holds. -/
structure HistoryState (Digest : Type) where
  context : HistoryContext
  views : List (View Digest)
  blocked : Bool
deriving DecidableEq

section Operations

variable [DecidableEq Digest] (library : HistoryLibrary Digest) (context : HistoryContext)

def isOfContext (view : View Digest) : Bool :=
  view.accountId == context.accountId && view.vaultId == context.vaultId &&
    view.keyEpoch == context.keyEpoch

/-- The loop of `_chain`: every view is signed and continues the one before it. -/
def checkLinks : List (View Digest) → Nat → Digest → Digest → Except String Unit
  | [], _, _, _ => .ok ()
  | view :: rest, sequence, previous, registry => do
    require (view.isVerified library context.signingPublicB64) viewRejected
    require (isOfContext context view) viewRejected
    require (view.sequence == sequence + 1 && view.previousRoot == previous &&
      view.previousRegistryRoot == registry) viewRejected
    checkLinks rest (sequence + 1) view.root view.registryRoot

/-- `AuthenticatedHistory._chain` -/
def checkHistory (views : List (View Digest)) : Except String Unit := do
  require (decide (views.length ≤ limit)) historyLimit
  checkLinks library context views 0 library.zero library.emptyRegistry

/-- `AuthenticatedHistory._load` -/
def loadHistory (file : HistoryState Digest) : Except String (HistoryState Digest) := do
  require (file.context == context) viewRejected
  checkHistory library context file.views
  return file

def fork {Answer : Type} (state : HistoryState Digest) : Effect (HistoryState Digest) Answer :=
  ⟨some { state with blocked := true }, .error stateEquivocation⟩

def whenOpen {Answer : Type} (file : HistoryState Digest)
    (next : HistoryState Digest → Effect (HistoryState Digest) Answer) :
    Effect (HistoryState Digest) Answer :=
  match loadHistory library context file with
  | .error reason => .refuse reason
  | .ok state => if state.blocked then .refuse stateEquivocation else next state

/-- `AuthenticatedHistory.initialize` -/
def initialHistory : HistoryState Digest := ⟨context, [], false⟩

/-- `AuthenticatedHistory.export_evidence` -/
def exportHistory (file : HistoryState Digest) : Except String (List (View Digest)) := do
  let state ← loadHistory library context file
  return state.views

/-- `AuthenticatedHistory.compare_evidence` -/
def compareHistory (peer : List (View Digest)) (file : HistoryState Digest) :
    Effect (HistoryState Digest) Nat :=
  whenOpen library context file fun state =>
    match checkHistory library context peer with
    | .error reason => .refuse reason
    | .ok () =>
      if state.views.isEmpty || peer.isEmpty then .refuse checkpointRequired
      else if (state.views.zip peer).all fun (left, right) => left.root == right.root then
        ⟨none, .ok (min state.views.length peer.length)⟩
      else fork state

/-- The checks of `observe` that do not look at the history. -/
def authenticate (view : View Digest) (registry : PresentedRegistry Digest)
    (commitment : Commitment Digest) (opaqueState : Bytes) : Except String Unit := do
  require (view.isVerified library context.signingPublicB64) viewRejected
  require (isOfContext context view) viewRejected
  let presented ← presentedRoot library false registry
  require (presented == view.registryRoot) registrySubstitution
  require (commitment.isValid library) viewRejected
  let digest ← stateDigest library opaqueState
  require (commitment.collectionId == context.collectionId &&
    commitment.sequence == view.sequence && commitment.root == view.collectionRoot &&
    commitment.stateSha256 == digest) viewRejected
  require (library.verifies context.signingPublicB64 .commitment commitment.root
    commitment.signatureB64) viewRejected

def isFork (views : List (View Digest)) (view : View Digest) : Bool :=
  decide (view.sequence ≤ views.length) &&
    (views[view.sequence - 1]?).any (·.root != view.root)

/-- Whether the view is the next one; it is the latest again where it is not. -/
def isNext (views : List (View Digest)) (view : View Digest) (commitment : Commitment Digest) :
    Except String Bool := do
  require (!decide (view.sequence < views.length)) rollbackRejected
  if view.sequence == views.length then return false
  else do
    require (views.length != limit) historyLimit
    let previous := views.getLast?
    require (view.sequence == views.length + 1 &&
      view.previousRoot == (previous.map View.root).getD library.zero &&
      view.previousRegistryRoot ==
        (previous.map fun view => view.registryRoot).getD library.emptyRegistry &&
      commitment.previousRoot ==
        (previous.map fun view => view.collectionRoot).getD library.zero) viewRejected
    return true

def observe (view : View Digest) (registry : PresentedRegistry Digest)
    (commitment : Commitment Digest) (opaqueState : Bytes) (file : HistoryState Digest) :
    Effect (HistoryState Digest) Bool :=
  whenOpen library context file fun state =>
    match authenticate library context view registry commitment opaqueState with
    | .error reason => .refuse reason
    | .ok () =>
      if isFork state.views view then fork state
      else
        match isNext library state.views view commitment with
        | .error reason => .refuse reason
        | .ok false => ⟨none, .ok false⟩
        | .ok true => ⟨some { state with views := state.views ++ [view] }, .ok true⟩

/-- The operations of an `AuthenticatedHistory` that write. -/
inductive HistoryCall (Digest : Type) where
  /-- `initialize` -/
  | initializeHistory
  | observe (view : View Digest) (registry : PresentedRegistry Digest)
      (commitment : Commitment Digest) (opaqueState : Bytes)
  | compareEvidence (peer : List (View Digest))

/-- What a call writes; a call that needs the file is refused where there is none. -/
def HistoryCall.written :
    HistoryCall Digest → Option (HistoryState Digest) → Option (HistoryState Digest)
  | .initializeHistory, none => some (initialHistory context)
  | .initializeHistory, some _ => none
  | _, none => none
  | .observe view registry commitment opaqueState, some state =>
    (EpochVault.observe library context view registry commitment opaqueState state).written
  | .compareEvidence peer, some state => (compareHistory library context peer state).written

def HistoryCalls (before : Option (HistoryState Digest)) (call : HistoryCall Digest)
    (after : Option (HistoryState Digest)) : Prop :=
  after = (call.written library context before).or before

end Operations

/-! ## What a call writes -/

variable [DecidableEq Digest] {library : HistoryLibrary Digest} {context : HistoryContext}
  {file state next : HistoryState Digest} {call : HistoryCall Digest}
  {views : List (View Digest)}

theorem loadHistory_eq_ok : loadHistory library context file = .ok state ↔
    file.context = context ∧ checkHistory library context file.views = .ok () ∧ state = file := by
  rw [loadHistory, require_bind_eq_ok, beq_iff_eq, bind_eq_ok]
  constructor
  · rintro ⟨same, done, checked, loaded⟩
    cases loaded
    exact ⟨same, checked, rfl⟩
  · rintro ⟨same, checked, rfl⟩
    exact ⟨same, (), checked, rfl⟩

/-- What a call can write over a file that loads. -/
inductive HistoryWrites (library : HistoryLibrary Digest) (context : HistoryContext) :
    HistoryState Digest → HistoryState Digest → Prop
  | forked {state : HistoryState Digest} :
      HistoryWrites library context state { state with blocked := true }
  | observed {view : View Digest} {registry : PresentedRegistry Digest}
      {commitment : Commitment Digest} {opaqueState : Bytes} {state : HistoryState Digest}
      (authentic : authenticate library context view registry commitment opaqueState = .ok ())
      (continuing : isNext library state.views view commitment = .ok true) :
      HistoryWrites library context state { state with views := state.views ++ [view] }

theorem written_whenOpen {Answer : Type}
    {continuation : HistoryState Digest → Effect (HistoryState Digest) Answer}
    (written : (whenOpen library context file continuation).written = some next) :
    loadHistory library context file = .ok file ∧ file.blocked = false ∧
      (continuation file).written = some next := by
  rw [whenOpen] at written
  cases loading : loadHistory library context file with
  | error reason =>
    rw [loading] at written
    cases written
  | ok state =>
    obtain ⟨-, -, rfl⟩ := loadHistory_eq_ok.mp loading
    rw [loading] at written
    dsimp only at written
    split at written
    · cases written
    · rename_i isOpen
      exact ⟨rfl, Bool.not_eq_true _ ▸ isOpen, written⟩

theorem historyWrites_of_written (written : call.written library context (some state) = some next) :
    loadHistory library context state = .ok state ∧ state.blocked = false ∧
      HistoryWrites library context state next := by
  cases call with
  | initializeHistory => cases written
  | observe view registry commitment opaqueState =>
    obtain ⟨loads, isOpen, written⟩ := written_whenOpen written
    refine ⟨loads, isOpen, ?_⟩
    cases authentic : authenticate library context view registry commitment opaqueState with
    | error reason =>
      rw [authentic] at written
      cases written
    | ok done =>
      rw [authentic] at written
      dsimp only at written
      split at written
      · cases written
        exact .forked
      · cases continuing : isNext library state.views view commitment with
        | error reason =>
          rw [continuing] at written
          cases written
        | ok isNew =>
          rw [continuing] at written
          cases isNew with
          | false => cases written
          | true =>
            cases written
            exact .observed authentic continuing
  | compareEvidence peer =>
    obtain ⟨loads, isOpen, written⟩ := written_whenOpen written
    refine ⟨loads, isOpen, ?_⟩
    cases checked : checkHistory library context peer with
    | error reason =>
      rw [checked] at written
      cases written
    | ok done =>
      rw [checked] at written
      dsimp only at written
      split at written
      · cases written
      · split at written
        · cases written
        · cases written
          exact .forked

theorem historyCalls_cases {before after : Option (HistoryState Digest)}
    (called : HistoryCalls library context before call after) :
    after = before ∨ (before = none ∧ after = some (initialHistory context)) ∨
      ∃ state next, before = some state ∧ after = some next ∧
        loadHistory library context state = .ok state ∧ state.blocked = false ∧
        HistoryWrites library context state next := by
  rw [HistoryCalls] at called
  cases writing : call.written library context before with
  | none =>
    rw [writing, Option.none_or] at called
    exact .inl called
  | some next =>
    rw [writing, Option.some_or] at called
    cases before with
    | none =>
      cases call with
      | initializeHistory =>
        cases writing
        exact .inr (.inl ⟨rfl, called⟩)
      | _ => cases writing
    | some state =>
      obtain ⟨loads, isOpen, writes⟩ := historyWrites_of_written writing
      exact .inr (.inr ⟨state, next, rfl, called, loads, isOpen, writes⟩)

/-! ## Chains of views -/

theorem checkLinks_append {more : List (View Digest)} {sequence : Nat} {previous registry : Digest} :
    checkLinks library context (views ++ more) sequence previous registry = .ok () ↔
      checkLinks library context views sequence previous registry = .ok () ∧
        checkLinks library context more (sequence + views.length)
          ((views.getLast?.map View.root).getD previous)
          ((views.getLast?.map fun view => view.registryRoot).getD registry) = .ok () := by
  induction views generalizing sequence previous registry with
  | nil =>
    rw [List.nil_append]
    exact ⟨fun checked => ⟨rfl, checked⟩, fun checked => checked.2⟩
  | cons head tail induction =>
    rw [List.cons_append, checkLinks, checkLinks]
    simp only [require_bind_eq_ok]
    rw [induction, List.length_cons, Nat.add_assoc, Nat.add_comm 1, List.getLast?_cons]
    cases tail.getLast? with
    | none =>
      constructor
      · exact fun checked => ⟨⟨checked.1, checked.2.1, checked.2.2.1, checked.2.2.2.1⟩,
          checked.2.2.2.2⟩
      · exact fun checked => ⟨checked.1.1, checked.1.2.1, checked.1.2.2.1, checked.1.2.2.2,
          checked.2⟩
    | some last =>
      constructor
      · exact fun checked => ⟨⟨checked.1, checked.2.1, checked.2.2.1, checked.2.2.2.1⟩,
          checked.2.2.2.2⟩
      · exact fun checked => ⟨checked.1.1, checked.1.2.1, checked.1.2.2.1, checked.1.2.2.2,
          checked.2⟩

theorem checkHistory_eq_ok : checkHistory library context views = .ok () ↔
    views.length ≤ limit ∧
      checkLinks library context views 0 library.zero library.emptyRegistry = .ok () := by
  rw [checkHistory, require_bind_eq_ok, decide_eq_true_eq]

theorem checkHistory_observed {view : View Digest} {registry : PresentedRegistry Digest}
    {commitment : Commitment Digest} {opaqueState : Bytes}
    (checked : checkHistory library context views = .ok ())
    (authentic : authenticate library context view registry commitment opaqueState = .ok ())
    (continuing : isNext library views view commitment = .ok true) :
    checkHistory library context (views ++ [view]) = .ok () := by
  rw [authenticate, require_bind_eq_ok, require_bind_eq_ok] at authentic
  obtain ⟨verified, named, -⟩ := authentic
  rw [isNext, require_bind_eq_ok] at continuing
  obtain ⟨-, continuing⟩ := continuing
  split at continuing
  · cases continuing
  · rw [require_bind_eq_ok, bne_iff_ne] at continuing
    obtain ⟨room, continuing⟩ := continuing
    rw [require_bind_eq_ok, Bool.and_eq_true] at continuing
    rw [checkHistory_eq_ok] at checked ⊢
    obtain ⟨short, linked⟩ := checked
    refine ⟨?_, ?_⟩
    · rw [List.length_append, List.length_singleton]
      omega
    · rw [checkLinks_append]
      refine ⟨linked, ?_⟩
      simp only [checkLinks, require_bind_eq_ok]
      refine ⟨verified, named, ?_, trivial⟩
      rw [Nat.zero_add]
      exact continuing.1.1

theorem isVerified_of_checkLinks {sequence : Nat} {previous registry : Digest}
    (checked : checkLinks library context views sequence previous registry = .ok ()) :
    ∀ view ∈ views, view.isVerified library context.signingPublicB64 = true ∧
      isOfContext context view = true := by
  induction views generalizing sequence previous registry with
  | nil =>
    intro view member
    cases member
  | cons head tail induction =>
    rw [checkLinks, require_bind_eq_ok, require_bind_eq_ok, require_bind_eq_ok] at checked
    obtain ⟨verified, named, -, rest⟩ := checked
    intro view member
    rcases List.mem_cons.mp member with rfl | inTail
    · exact ⟨verified, named⟩
    · exact induction rest view inTail

/-- What holds of the file after any calls. -/
structure HistoryState.Sound (library : HistoryLibrary Digest) (context : HistoryContext)
    (state : HistoryState Digest) : Prop where
  named : state.context = context
  checked : checkHistory library context state.views = .ok ()

theorem HistoryState.Sound.loads (sound : state.Sound library context) :
    loadHistory library context state = .ok state :=
  loadHistory_eq_ok.mpr ⟨sound.named, sound.checked, rfl⟩

theorem HistoryWrites.sound (writes : HistoryWrites library context state next)
    (sound : state.Sound library context) : next.Sound library context := by
  cases writes with
  | forked => exact ⟨sound.named, sound.checked⟩
  | observed authentic continuing =>
    exact ⟨sound.named, checkHistory_observed sound.checked authentic continuing⟩

theorem sound_of_historyRun {calls : List (HistoryCall Digest)}
    (run : Run (HistoryCalls library context) none calls (some state)) :
    state.Sound library context := by
  have kept := run.invariant (fun file => ∀ state, file = some state →
    state.Sound library context) ?_ ?_
  · exact kept state rfl
  · intro before call after called sound found same
    rcases historyCalls_cases called with rfl | ⟨-, rfl⟩ | ⟨current, later, rfl, rfl, -, -, writes⟩
    · exact sound found same
    · cases same
      exact ⟨rfl, rfl⟩
    · cases same
      exact writes.sound (sound current rfl)
  · intro state impossible
    cases impossible

end JobAgg.EpochVault
