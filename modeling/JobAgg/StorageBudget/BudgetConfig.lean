import Mathlib.Data.List.MinMax
import JobAgg.Foundation.Table
import JobAgg.StorageBudget.AtomicJsonStore

/-! # Budget configuration

The registry of `storage_budget.py`: byte ceilings by category, the roots with
their writers, and the classification of a path. Configurations are enabled
ones; `ready` admissions have no other.
-/

namespace JobAgg.StorageBudget

inductive Category
  | essential
  | publication
  | evidence
  | diagnostics
  | work
  deriving DecidableEq, Repr

abbrev BytesMap := Category → ℕ

def categoryLimits : BytesMap
  | .essential => 40000000000
  | .publication => 15000000000
  | .evidence => 10000000000
  | .diagnostics => 5000000000
  | .work => 30000000000

def categories : List Category := [.essential, .publication, .evidence, .diagnostics, .work]

theorem mem_categories (category : Category) : category ∈ categories := by
  cases category <;> decide

def physicalReserveBytes : ℕ := 20 * 1024 ^ 3

def ledgerMaxBytes : ℕ := 256 * 1024

def controlEnvelopeBytes : ℕ := 3 * ledgerMaxBytes

inductive Phase
  | workerAdmitted
  | acceptedPending
  | publicationAdmitted
  | completed
  deriving DecidableEq, Repr

/-- The position in `PHASES`. -/
def Phase.index : Phase → ℕ
  | .workerAdmitted => 0
  | .acceptedPending => 1
  | .publicationAdmitted => 2
  | .completed => 3

inductive Role
  | worker
  | publisher
  | controller
  deriving DecidableEq, Repr

/-- `ROLE_PHASES`. -/
def Role.phases : Role → List Phase
  | .worker => [.workerAdmitted]
  | .publisher => [.publicationAdmitted]
  | .controller => [.workerAdmitted, .acceptedPending, .publicationAdmitted]

abbrev Path := List String

def pathText (path : Path) : String := "/" ++ String.intercalate "/" path

def within (path root : Path) : Bool := root.isPrefixOf path

inductive Mode
  | cooperative
  | hard
  deriving DecidableEq, Repr

structure BudgetRoot where
  name : String
  path : Path
  category : Category
  writers : List String
  deriving DecidableEq

structure CategoryRule where
  root : String
  pattern : String
  category : Category
  deriving DecidableEq

structure BudgetConfig where
  mode : Mode
  roots : List BudgetRoot
  writerRoles : List (String × Role)
  ledgerPath : Path
  offlineBackupPaths : List Path
  physicalReserveBytes : ℕ
  maxEntries : ℕ
  inventoryMaxAgeSeconds : ℕ
  bindingSha256 : String
  categoryRules : List CategoryRule
  deriving DecidableEq

/-- What classification asks of the file system, and `fnmatch.fnmatchcase`. -/
structure FileSystem where
  resolve : Path → Path
  isDirectory : Path → Bool
  isSymlink : Path → Bool
  fnmatchcase : String → String → Bool

structure RawPath where
  absolute : Bool
  path : Path

def canonical (fileSystem : FileSystem) (raw : RawPath) : Except Failure Path := do
  require raw.absolute (.storageBudgetError "budget paths must be absolute")
  return fileSystem.resolve raw.path

namespace BudgetConfig

/-- `classified_root`, with `directory` left to the file system. -/
def classifiedRoot (config : BudgetConfig) (fileSystem : FileSystem) (target : Path)
    (writerId : Option String) : Except Failure BudgetRoot :=
  match (config.roots.filter fun root => within target root.path).argmax
      fun root => root.path.length with
  | none => .error (.storageBudgetError "unregistered active path")
  | some root => do
    require (writerId.all (· ∈ root.writers))
      (.storageBudgetError "writer is not registered for active path")
    if !fileSystem.isDirectory target && target.dropLast == root.path then
      let ruled := ((config.categoryRules.filter fun rule =>
        rule.root == root.name &&
          fileSystem.fnmatchcase (target.getLast?.getD "") rule.pattern).map
        CategoryRule.category).dedup
      require (decide (ruled.length ≤ 1)) (.storageBudgetError "ambiguous file category rules")
      return { root with category := ruled.head?.getD root.category }
    else return root

def rootFor (config : BudgetConfig) (fileSystem : FileSystem) (path : Path)
    (writerId : Option String := none) : Except Failure BudgetRoot :=
  config.classifiedRoot fileSystem (fileSystem.resolve path) writerId

end BudgetConfig

/-- One entry of `roots`. -/
def parseRoot (fileSystem : FileSystem) (roles : List (String × Role)) (root : BudgetRoot) :
    Except Failure BudgetRoot := do
  require (root.name != "") (.storageBudgetError "invalid budget root category/name")
  require (!root.writers.isEmpty && root.writers.all fun writer => roles.any (·.1 == writer))
    (.storageBudgetError "unknown root writer")
  return { root with
    path := fileSystem.resolve root.path
    writers := orderBy id root.writers.dedup }

def CategoryRule.valid (roots : List BudgetRoot) (rule : CategoryRule) : Bool :=
  roots.any (·.name == rule.root) && rule.pattern != "" &&
    rule.pattern.toList.all (fun letter => letter != '/' && letter != '\\') &&
    rule.pattern != "." && rule.pattern != ".."

/-- `parse_budget_config` of a document that `to_dict` has written. -/
def parseBudgetConfig (fileSystem : FileSystem) (value : BudgetConfig) :
    Except Failure BudgetConfig := do
  require (!value.writerRoles.isEmpty && value.writerRoles.all (·.1 != "") &&
      value.writerRoles.any (·.2 == .controller))
    (.storageBudgetError "complete writer role registry required")
  let roots ← value.roots.mapM (parseRoot fileSystem value.writerRoles)
  require (!roots.isEmpty && decide (roots.map BudgetRoot.path).Nodup &&
      decide (roots.map BudgetRoot.name).Nodup)
    (.storageBudgetError "missing or duplicate active roots")
  let offline := value.offlineBackupPaths.map fileSystem.resolve
  require (offline.all fun path => roots.all fun root =>
      !within path root.path && !within root.path path)
    (.storageBudgetError "offline backup must be disjoint from every active root")
  require (decide (StorageBudget.physicalReserveBytes ≤ value.physicalReserveBytes))
    (.storageBudgetError "physical reserve cannot be reduced below 20 GiB")
  require (value.bindingSha256 == "" || isSha256 value.bindingSha256)
    (.storageBudgetError "invalid runtime binding hash")
  require (!fileSystem.isSymlink value.ledgerPath)
    (.storageBudgetError "budget ledger cannot be a symlink")
  require (value.categoryRules.all (·.valid roots))
    (.storageBudgetError "invalid immediate-child category rule")
  require (decide (0 < value.maxEntries))
    (.storageBudgetError "max entries must be a positive integer")
  require (decide (0 < value.inventoryMaxAgeSeconds))
    (.storageBudgetError "inventory age must be a positive integer")
  let config := { value with
    roots := orderBy (fun root => pathText root.path) roots
    ledgerPath := fileSystem.resolve value.ledgerPath
    offlineBackupPaths := offline }
  let ledgerRoot ← config.rootFor fileSystem config.ledgerPath
  require (ledgerRoot.category == .diagnostics)
    (.storageBudgetError "ledger must be charged to diagnostics")
  return config

theorem parseBudgetConfig_eq_ok {fileSystem : FileSystem} {value config : BudgetConfig}
    (parsed : parseBudgetConfig fileSystem value = .ok config) :
    config.writerRoles = value.writerRoles ∧
      value.writerRoles.any (·.2 == .controller) = true := by
  unfold parseBudgetConfig at parsed
  simp only [require_bind_eq_ok] at parsed
  rcases parsed with ⟨roles, parsed⟩
  rcases bind_eq_ok.mp parsed with ⟨roots, _, parsed⟩
  simp only [require_bind_eq_ok] at parsed
  rcases bind_eq_ok.mp parsed.2.2.2.2.2.2.2.2 with ⟨ledgerRoot, _, parsed⟩
  simp only [require_bind_eq_ok, pure_eq_ok] at parsed
  rw [← parsed.2]
  refine ⟨rfl, ?_⟩
  simp only [Bool.and_eq_true] at roles
  exact roles.2

end JobAgg.StorageBudget
