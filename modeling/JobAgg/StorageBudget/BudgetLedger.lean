import Mathlib.Algebra.Order.Field.Rat
import JobAgg.Foundation.Json
import JobAgg.StorageBudget.BudgetConfig

/-! # Budget ledger

The durable cycle escrow of `storage_budget.py`. Every call gives the file after
it next to its outcome, so that a raised call says what it left behind. Digests,
encoded sizes and tokens come from outside.
-/

namespace JobAgg.StorageBudget

structure Operation where
  category : Category
  maximum : ℕ
  consumed : ℕ
  path : Path
  writerId : String
  deriving DecidableEq

structure Completion extends Operation where
  proofSha256 : String
  deriving DecidableEq

/-- Device and inode of a root. -/
abbrev Identity := ℕ × ℕ

/-- The values that `admission_hash` binds. -/
structure Binding where
  scopeHash : String
  cycleId : String
  rootIdentities : List (Path × Identity)
  envelope : BytesMap
  initialUsage : BytesMap
  metadata : String

/-- One ledger document. Absent completions are an empty list. -/
structure Ledger where
  config : BudgetConfig
  scopeHash : String
  cycleId : String
  phase : Phase
  tokens : List (String × String)
  rootIdentities : List (Path × Identity)
  envelope : BytesMap
  initialUsage : BytesMap
  metadata : String
  settled : BytesMap
  admissionHash : String
  operations : List (String × Operation) := []
  completions : List (String × Completion) := []

def Ledger.binding (value : Ledger) : Binding where
  scopeHash := value.scopeHash
  cycleId := value.cycleId
  rootIdentities := value.rootIdentities
  envelope := value.envelope
  initialUsage := value.initialUsage
  metadata := value.metadata

structure Platform extends FileSystem where
  scopeDigest : BudgetConfig → String
  admissionDigest : Binding → String
  encodedBytes : Ledger → ℕ

/-- What one call meets: the identities of the roots, the clock, and whether the
temporary file fails. -/
structure Surroundings where
  identity : Path → Option Identity
  now : ℚ
  fault : Bool := false

def charge (column : Operation → ℕ) (operations : List (String × Operation)) : BytesMap :=
  fun category =>
    ((operations.filter (·.2.category == category)).map fun entry => column entry.2).sum

def exceedsNowhere (left right : BytesMap) : Bool :=
  categories.all fun category => decide (left category ≤ right category)

def checkOperation (platform : Platform) (config : BudgetConfig) (message : String)
    (operation : Operation) : Except Failure Unit := do
  require (decide (0 < operation.maximum))
    (.storageBudgetError "operation maximum must be a positive integer")
  let root ← config.rootFor platform.toFileSystem operation.path operation.writerId
  require (root.category == operation.category &&
    decide (operation.consumed ≤ operation.maximum)) (.storageBudgetError message)

def checkCompletion (platform : Platform) (config : BudgetConfig) (value : Ledger)
    (entry : String × Completion) : Except Failure Unit := do
  require (entry.1 != "" && !value.operations.any (·.1 == entry.1) &&
      isSha256 entry.2.proofSha256)
    (.storageBudgetError "invalid budget operation completion proof")
  checkOperation platform config "budget operation completion binding differs"
    entry.2.toOperation

def validateLedger (platform : Platform) (value : Ledger) : Except Failure Unit := do
  let config ← parseBudgetConfig platform.toFileSystem value.config
  require (value.scopeHash == platform.scopeDigest config)
    (.storageBudgetError "budget ledger binding differs")
  require (value.cycleId != "") (.storageBudgetError "invalid budget cycle")
  require (value.tokens.all (fun token => config.writerRoles.any (·.1 == token.1)) &&
      config.writerRoles.all fun role => value.tokens.any (·.1 == role.1))
    (.storageBudgetError "budget writer registry differs")
  require (value.tokens.all fun token => token.2.length == 32)
    (.storageBudgetError "invalid budget capability")
  require (exceedsNowhere value.envelope categoryLimits)
    (.storageBudgetError "budget envelope exceeds fixed ceilings")
  require (value.admissionHash == platform.admissionDigest value.binding)
    (.storageBudgetError "budget admission binding differs")
  require (exceedsNowhere (value.initialUsage + value.envelope) categoryLimits)
    (.storageBudgetError "budget admission exceeds category ceilings")
  value.operations.forM fun entry =>
    checkOperation platform config "budget operation binding differs" entry.2
  require (decide (value.completions.length ≤ 64))
    (.storageBudgetError "invalid budget operation completions")
  value.completions.forM (checkCompletion platform config value)
  require (exceedsNowhere
      (charge Operation.consumed
        (value.completions.map fun entry => (entry.1, entry.2.toOperation))) value.settled)
    (.storageBudgetError "budget completion exceeds settled charge")
  require (exceedsNowhere (value.settled + charge Operation.maximum value.operations)
      value.envelope)
    (.storageBudgetError "budget ledger exceeds envelope")
  require (value.phase != .completed || value.operations.isEmpty)
    (.storageBudgetError "completed budget has pending reservations")

def ledgerStore (platform : Platform) : AtomicJsonStore Ledger where
  validator := validateLedger platform
  encodedBytes := platform.encodedBytes
  maximumBytes := ledgerMaxBytes

abbrev Called (Outcome : Type) := Option Ledger × Except Failure Outcome

def checked {Value Outcome : Type} (file : Option Ledger) (checks : Except Failure Value)
    (rest : Value → Called Outcome) : Called Outcome :=
  match checks with
  | .error failure => (file, .error failure)
  | .ok value => rest value

/-- `AtomicJsonStoreError` is raised again as a budget error. -/
def wrapStoreError (message : String) : Failure → Failure
  | .atomicJsonStoreError _ => .storageBudgetError message
  | failure => failure

/-- `mutate` of the ledger store, its failures wrapped. -/
def mutateLedger {Outcome : Type} (platform : Platform) (surroundings : Surroundings)
    (file : Option Ledger)
    (mutation : Option Ledger → Except Failure (Outcome × Option Ledger)) : Called Outcome :=
  let (after, outcome) := (ledgerStore platform).mutate file surroundings.fault mutation
  (after, outcome.mapError (wrapStoreError "budget_control_invalid_or_unwritable"))

/-- The part of `Admission` that `create` reads. -/
structure Admission where
  config : BudgetConfig
  ready : Bool
  reasons : List String
  observedMonotonic : ℚ
  rootIdentities : List (Path × Identity)
  chargedBytes : BytesMap
  projectedGrowth : BytesMap

structure BudgetLedger where
  path : Path
  cycleId : String
  scopeHash : String
  writerId : String
  token : String

structure OperationReservation where
  ledger : BudgetLedger
  operationId : String

/-- `info = root.path.stat()`, which raises when there is no such root. -/
def statIdentity (surroundings : Surroundings) (root : Path) : Except Failure Identity :=
  match surroundings.identity root with
  | some identity => .ok identity
  | none => .error .osError

namespace BudgetLedger

/-- What `create` checks before it opens the store. -/
def checkAdmission (platform : Platform) (surroundings : Surroundings) (admission : Admission)
    (cycleId : String) : Except Failure Unit := do
  require admission.ready (.storageBudgetDeferred (";".intercalate admission.reasons))
  require (cycleId != "") (.storageBudgetError "cycle identity required")
  require (!platform.isSymlink admission.config.ledgerPath)
    (.storageBudgetError "budget ledger cannot be a symlink")
  require (decide (surroundings.now - admission.observedMonotonic ≤
      admission.config.inventoryMaxAgeSeconds)) (.storageBudgetDeferred "inventory_stale")
  admission.rootIdentities.forM fun (root, identity) => do
    let info ← statIdentity surroundings root
    require (info == identity) (.storageBudgetError "root identity changed before cycle")

def newDocument (platform : Platform) (admission : Admission) (cycleId metadata : String)
    (newToken : String → String) : Ledger :=
  let document : Ledger := {
    config := admission.config
    scopeHash := platform.scopeDigest admission.config
    cycleId := cycleId
    phase := .workerAdmitted
    tokens := admission.config.writerRoles.map fun (writer, _) => (writer, newToken writer)
    rootIdentities := admission.rootIdentities
    envelope := admission.projectedGrowth
    initialUsage := admission.chargedBytes
    metadata := metadata
    settled := fun category => if category = .diagnostics then controlEnvelopeBytes else 0
    admissionHash := "" }
  { document with admissionHash := platform.admissionDigest document.binding }

/-- A new cycle starts in a missing file, or replaces a completed cycle. -/
def create (platform : Platform) (surroundings : Surroundings) (file : Option Ledger)
    (admission : Admission) (cycleId metadata : String) (newToken : String → String) :
    Called BudgetLedger :=
  checked file (checkAdmission platform surroundings admission cycleId) fun () =>
    let document := newDocument platform admission cycleId metadata newToken
    let (after, outcome) := mutateLedger platform surroundings file fun value => do
      require (value.all (·.phase == .completed))
        (.storageBudgetDeferred "unfinished_budget_cycle")
      validateLedger platform document
      return ((), some document)
    match outcome with
    | .error failure => (after, .error failure)
    | .ok () =>
      match admission.config.writerRoles.find? (·.2 == .controller) with
      | none => (after, .error .keyError)
      | some (controller, _) => (after, .ok {
          path := admission.config.ledgerPath
          cycleId := cycleId
          scopeHash := platform.scopeDigest admission.config
          writerId := controller
          token := newToken controller })

def check (handle : BudgetLedger) (platform : Platform) (surroundings : Surroundings)
    (document : Ledger) : Except Failure BudgetConfig := do
  let config ← parseBudgetConfig platform.toFileSystem document.config
  require (document.cycleId == handle.cycleId && document.scopeHash == handle.scopeHash &&
      lookup handle.writerId document.tokens == some handle.token &&
      config.ledgerPath == handle.path)
    (.storageBudgetError "budget lease binding differs")
  match lookup handle.writerId config.writerRoles with
  | none => throw .keyError
  | some role =>
    require (document.phase ∈ role.phases) (.storageBudgetDeferred "budget_writer_phase_denied")
  config.roots.forM fun root => do
    let info ← statIdentity surroundings root.path
    require ((document.rootIdentities.find? (·.1 == root.path)).map Prod.snd == some info)
      (.storageBudgetError "budget root identity differs")
  return config

/-- `_store` needs the file to be there. -/
def mutate {Outcome : Type} (platform : Platform) (surroundings : Surroundings)
    (file : Option Ledger) (mutation : Ledger → Except Failure (Outcome × Option Ledger)) :
    Called Outcome :=
  match file with
  | none =>
    (none, .error (.storageBudgetError "budget ledger must be an existing regular file"))
  | some _ => mutateLedger platform surroundings file fun value =>
    match value with
    | none => .error .keyError
    | some value => mutation value

/-- The transitions of `transition`. -/
def allowedTransitions : List (Phase × Phase) :=
  [(.workerAdmitted, .acceptedPending), (.acceptedPending, .publicationAdmitted),
    (.publicationAdmitted, .completed), (.workerAdmitted, .completed)]

def transition (handle : BudgetLedger) (platform : Platform) (surroundings : Surroundings)
    (file : Option Ledger) (expectedPhase newPhase : Phase) : Called Unit :=
  checked file
    (require (decide ((expectedPhase, newPhase) ∈ allowedTransitions))
      (.storageBudgetError "invalid budget phase transition")) fun () =>
    mutate platform surroundings file fun value => do
      let config ← handle.check platform surroundings value
      require (lookup handle.writerId config.writerRoles == some .controller &&
          value.phase == expectedPhase)
        (.storageBudgetError "budget phase authority differs")
      require value.operations.isEmpty (.storageBudgetDeferred "budget_operations_unsettled")
      return ((), some { value with phase := newPhase })

/-- `operationId` is the given one, or a new one. -/
def reserve (handle : BudgetLedger) (platform : Platform) (surroundings : Surroundings)
    (file : Option Ledger) (category : Category) (maxBytes : ℕ) (path : RawPath)
    (operationId : String) : Called OperationReservation :=
  checked file
    (do
      require (decide (0 < maxBytes))
        (.storageBudgetError "operation maximum must be a positive integer")
      let target ← canonical platform.toFileSystem path
      require (operationId != "") (.storageBudgetError "operation identity required")
      return target) fun target =>
    mutate platform surroundings file fun value => do
      let config ← handle.check platform surroundings value
      let root ← config.rootFor platform.toFileSystem target handle.writerId
      require (root.category == category) (.storageBudgetError "operation category differs")
      require (!value.operations.any (·.1 == operationId) &&
          !value.completions.any (·.1 == operationId))
        (.storageBudgetError "operation identity already reserved")
      require (decide (value.settled category +
          charge Operation.maximum value.operations category + maxBytes ≤
            value.envelope category))
        (.storageBudgetDeferred "operation_envelope_exhausted")
      return ({ ledger := handle, operationId }, some { value with
        operations := value.operations ++ [(operationId, {
          category, maximum := maxBytes, consumed := 0, path := target
          writerId := handle.writerId })] })

/-- `_read` changes nothing. -/
def read (handle : BudgetLedger) (platform : Platform) (surroundings : Surroundings)
    (file : Option Ledger) : Except Failure Ledger :=
  match file with
  | none => .error (.storageBudgetError "budget ledger must be an existing regular file")
  | some value => do
    let _ ← ((ledgerStore platform).readUnlocked file).mapError
      (wrapStoreError "invalid durable budget ledger")
    let _ ← handle.check platform surroundings value
    return value

def resume (handle : BudgetLedger) (platform : Platform) (surroundings : Surroundings)
    (file : Option Ledger) (operationId : String) : Called OperationReservation :=
  (file, do
    let value ← handle.read platform surroundings file
    require ((lookup operationId value.operations).any (·.writerId == handle.writerId))
      (.storageBudgetError "operation reservation differs")
    return { ledger := handle, operationId })

end BudgetLedger

namespace OperationReservation

/-- The outstanding operation, if the holder is its writer. -/
def held (reservation : OperationReservation) (value : Ledger) : Except Failure Operation :=
  match lookup reservation.operationId value.operations with
  | none => .error (.storageBudgetError "operation reservation differs")
  | some operation => do
    require (operation.writerId == reservation.ledger.writerId)
      (.storageBudgetError "operation reservation differs")
    return operation

def consume (reservation : OperationReservation) (platform : Platform)
    (surroundings : Surroundings) (file : Option Ledger) (count : ℕ) : Called Unit :=
  BudgetLedger.mutate platform surroundings file fun value => do
    let _ ← reservation.ledger.check platform surroundings value
    let operation ← reservation.held value
    require (decide (operation.consumed + count ≤ operation.maximum))
      (.storageBudgetDeferred "ingress_or_write_limit_exceeded")
    if count = 0 then return ((), none)
    else return ((), some { value with
      operations := updateWhere (·.1 == reservation.operationId)
        (fun entry => (entry.1, { entry.2 with consumed := entry.2.consumed + count }))
        value.operations })

def settle (reservation : OperationReservation) (platform : Platform)
    (surroundings : Surroundings) (file : Option Ledger) (actualBytes : Option ℕ)
    (proofSha256 : Option String) : Called Unit :=
  checked file
    (require (proofSha256.all isSha256)
      (.storageBudgetError "invalid settlement proof digest")) fun () =>
    BudgetLedger.mutate platform surroundings file fun value => do
      let _ ← reservation.ledger.check platform surroundings value
      let operation ← reservation.held value
      require (actualBytes.all (· == operation.consumed))
        (.storageBudgetError "settlement must retain consumed bytes")
      require (proofSha256.isNone || decide (value.completions.length < 64))
        (.storageBudgetDeferred "budget_completion_receipts_exhausted")
      return ((), some { value with
        settled := fun category =>
          value.settled category + if category = operation.category then operation.consumed else 0
        operations := value.operations.filter (·.1 != reservation.operationId)
        completions :=
          match proofSha256 with
          | none => value.completions
          | some proof => value.completions.filter (·.1 != reservation.operationId) ++
              [(reservation.operationId, { operation with proofSha256 := proof })] })

end OperationReservation

end JobAgg.StorageBudget
