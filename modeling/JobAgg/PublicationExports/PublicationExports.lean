import JobAgg.Foundation.Json
import JobAgg.PublicationArtifacts.PublicationArtifacts

/-! # Recoverable export replacement

`pipelines/publication_exports.py`: the exports of a generation are rendered into its
directory, the live files they replace are backed up, and each live file is replaced. A
journal of checkpoints and a manifest of receipts say how far that got.
-/

namespace JobAgg.PublicationExports

open PublicationArtifacts

/-- An export item. Two paths are two files. -/
structure Item where
  path : String
  database : String
  format : String
  status : Option String
  historyOnly : Bool
  deriving DecidableEq

/-- `Path(path).name`. -/
def fileName (path : String) : String :=
  String.ofList (path.toList.reverse.takeWhile (· != '/')).reverse

/-- The fields of a publication plan that the exports read. `recordChunks` says that
`publication_policy.export_storage` is `record_chunks_v1`. -/
structure Plan where
  generationRoot : String
  generationId : String
  recordChunks : Bool

inductive Phase where
  | preparedVerified
  | backupVerified
  | replaceIntent
  | replacedVerified
  deriving DecidableEq

inductive BackupStatus where
  | notRequired
  | verified
  deriving DecidableEq

/-- What `_legacy_backup` says. -/
inductive LegacyBackup (Digest : Type) where
  | absent
  | unverified (path : Evidence Digest) (evidence : Fingerprint Digest)
  | matchesHistorical (path : Evidence Digest) (evidence : Fingerprint Digest)
  deriving DecidableEq

structure Checkpoint (Digest : Type) where
  item : Item
  prepared : Evidence Digest
  new : Fingerprint Digest
  old : Option (Fingerprint Digest)
  oldStateKnown : Bool
  legacyReceipt : Bool
  legacyBackup : Option (LegacyBackup Digest)
  phase : Phase
  contentAddressed : Bool
  backupPath : Option (Evidence Digest)
  backupStatus : Option BackupStatus
  unverifiedBackupCandidates : List (Evidence Digest × Fingerprint Digest)
  deriving DecidableEq

def Checkpoint.inPhase {Digest : Type} (phase : Phase) (checkpoint : Checkpoint Digest) :
    Checkpoint Digest :=
  { checkpoint with phase := phase }

/-- `export-checkpoints.json`, its entries in the order in which they were added. -/
structure Journal (Digest : Type) where
  generationId : String
  entries : List (String × Checkpoint Digest)

/-- A receipt of `exports.json`. -/
structure ExportReceipt (Digest : Type) where
  item : Item
  sha256 : Digest
  prepared : Evidence Digest
  deriving DecidableEq

/-- The live exports, the evidence of all generations with what retention keeps of it,
and the two control files of this generation. -/
structure Disk (Digest : Type) where
  targets : String → Option Bytes
  artifacts : Artifacts Digest
  retained : Evidence Digest → Option Bytes
  journal : Option (Journal Digest)
  manifest : Option (List (String × ExportReceipt Digest))

/-- SHA-256, the records `_export` writes for an item of the committed databases, the
hashes of older exports, and the names of the other generations, the last one first. -/
structure Library (Digest : Type) where
  hash : Bytes → Digest
  hash_injective : Function.Injective hash
  records : Item → List Bytes
  priorExportHashes : String → List Digest
  generations : List String

/-- A file that is fingerprinted and copied. -/
inductive Place (Digest : Type) where
  | live (path : String)
  | evidence (path : Evidence Digest)

variable {Digest : Type} [DecidableEq Digest]

namespace Disk

def putTarget (path : String) (bytes : Bytes) (disk : Disk Digest) : Disk Digest :=
  { disk with targets := Function.update disk.targets path (some bytes) }

def putArtifacts (artifacts : Artifacts Digest) (disk : Disk Digest) : Disk Digest :=
  { disk with artifacts := artifacts }

def putJournal (journal : Journal Digest) (disk : Disk Digest) : Disk Digest :=
  { disk with journal := some journal }

def putManifest (manifest : List (String × ExportReceipt Digest)) (disk : Disk Digest) :
    Disk Digest :=
  { disk with manifest := some manifest }

def replace (bytes : Bytes) (disk : Disk Digest) : Place Digest → Disk Digest
  | .live path => disk.putTarget path bytes
  | .evidence path => disk.putArtifacts (disk.artifacts.putFile path bytes)

end Disk

def Journal.put (key : String) (checkpoint : Checkpoint Digest) (journal : Journal Digest) :
    Journal Digest :=
  { journal with entries := assign key checkpoint journal.entries }

section Files

variable (library : Library Digest) (disk : Disk Digest)

def fingerprint : Place Digest → Except String (Option (Fingerprint Digest))
  | .live path => .ok ((disk.targets path).map (fingerprintOf library.hash))
  | .evidence path =>
    match disk.artifacts.files path with
    | some bytes => .ok (some (fingerprintOf library.hash bytes))
    | none => do
      let archived ← PublicationArtifacts.fingerprint library.hash disk.artifacts path
      match archived with
      | some found => pure (some found)
      | none => pure ((disk.retained path).map (fingerprintOf library.hash))

/-- The bytes that `open_artifact` yields. -/
def openFile : Place Digest → Except String Bytes
  | .live path => (disk.targets path).elim (.error "retention_path_outside_historical_exports") .ok
  | .evidence path =>
    match disk.artifacts.files path with
    | some bytes => .ok bytes
    | none =>
      if (disk.artifacts.sidecars path).isSome then
        openArtifact library.hash disk.artifacts path
      else
        (disk.retained path).elim (.error "FileNotFoundError") .ok

/-- `_require`. -/
def requireFile (path : Place Digest) (expected : Option (Fingerprint Digest))
    (reason : String) : Except String Unit := do
  let actual ← fingerprint library disk path
  require (actual.isSome && actual == expected) reason

end Files

section Copies

variable (library : Library Digest)

def copySealed (source target : Place Digest) (expected : Fingerprint Digest)
    (targetBefore : Option (Fingerprint Digest)) : Durable (Disk Digest) Unit := do
  .examine fun disk => requireFile library disk source (some expected)
    "export_copy_source_changed"
  let bytes ← .examine fun disk => openFile library disk source
  .check (fingerprintOf library.hash bytes == expected) "export_copy_stream_hash_mismatch"
  let before ← .examine fun disk => fingerprint library disk target
  .check (before == targetBefore) "export_target_changed_during_copy"
  .write fun disk => disk.replace bytes target
  .examine fun disk => requireFile library disk target (some expected)
    "export_sealed_copy_readback_failed"

def onArtifacts {Result : Type} (computation : Durable (Artifacts Digest) Result) :
    Durable (Disk Digest) Result :=
  .within Disk.artifacts Disk.putArtifacts computation

/-- `prepared` of `_render`. -/
def preparedPath (plan : Plan) (item : Item) : Evidence Digest :=
  ⟨plan.generationRoot, .exportsV2, fileName item.path⟩

def render (plan : Plan) (item : Item) : Durable (Disk Digest) (Fingerprint Digest) :=
  if plan.recordChunks then
    onArtifacts (writeRecords library.hash (preparedPath plan item) (library.records item))
  else do
    let bytes := (library.records item).flatten
    .write fun disk => disk.replace bytes (.evidence (preparedPath plan item))
    pure (fingerprintOf library.hash bytes)

/-! ## Checkpoints -/

/-- The path of a backup in `before_exports`. -/
def backupPathOf (plan : Plan) (item : Item) : Evidence Digest :=
  ⟨plan.generationRoot, .beforeExports, fileName item.path⟩

def verifiedBackupPath (plan : Plan) (item : Item) (old : Fingerprint Digest) :
    Evidence Digest :=
  ⟨plan.generationRoot, .beforeExportsVerified old.sha256, fileName item.path⟩

def legacyBackup (disk : Disk Digest) (plan : Plan) (item : Item) :
    Except String (LegacyBackup Digest) := do
  let path := backupPathOf plan item
  let evidence ← fingerprint library disk (.evidence path)
  match evidence with
  | none => pure .absent
  | some found =>
    if found.sha256 ∈ library.priorExportHashes item.path then
      pure (.matchesHistorical path found)
    else
      pure (.unverified path found)

def importReceipt (disk : Disk Digest) (plan : Plan) (item : Item)
    (receipt : ExportReceipt Digest) (old : Option (Fingerprint Digest)) :
    Except String (Checkpoint Digest) := do
  require (receipt.item == item) "legacy_export_receipt_specification_changed"
  let new ← fingerprint library disk (.evidence receipt.prepared)
  match new with
  | none => .error "legacy_prepared_export_hash_changed"
  | some new => do
    require (new.sha256 == receipt.sha256) "legacy_prepared_export_hash_changed"
    require (old.isNone || old == some new) "legacy_receipted_export_target_conflict"
    let legacy ← legacyBackup library disk plan item
    pure
      { item := item, prepared := receipt.prepared, new := new, old := none,
        oldStateKnown := false, legacyReceipt := true, legacyBackup := some legacy,
        phase := if old == some new then .replacedVerified else .replaceIntent,
        contentAddressed := false, backupPath := none, backupStatus := none,
        unverifiedBackupCandidates := [] }

def foundLegacyBackup (disk : Disk Digest) (plan : Plan) (item : Item) :
    Except String (Option (LegacyBackup Digest)) :=
  if (disk.artifacts.files (backupPathOf plan item)).isSome then do
    let legacy ← legacyBackup library disk plan item
    pure (some legacy)
  else
    .ok none

/-- `_initialize_checkpoint` of an item that is rendered. -/
def renderCheckpoint (plan : Plan) (item : Item) (old : Option (Fingerprint Digest)) :
    Durable (Disk Digest) (Checkpoint Digest) := do
  let new ← render library plan item
  let legacy ← .examine fun disk => foundLegacyBackup library disk plan item
  pure
    { item := item, prepared := preparedPath plan item, new := new, old := old,
      oldStateKnown := true, legacyReceipt := false, legacyBackup := legacy,
      phase := .preparedVerified, contentAddressed := plan.recordChunks, backupPath := none,
      backupStatus := none, unverifiedBackupCandidates := [] }

def initializeCheckpoint (plan : Plan) (item : Item) (receipt : Option (ExportReceipt Digest)) :
    Durable (Disk Digest) (Checkpoint Digest) := do
  let old ← .examine fun disk => fingerprint library disk (.live item.path)
  match receipt with
  | some receipt => .examine fun disk => importReceipt library disk plan item receipt old
  | none => renderCheckpoint library plan item old

def validateCheckpoint (disk : Disk Digest) (plan : Plan) (item : Item)
    (checkpoint : Checkpoint Digest) : Except String Unit := do
  require (checkpoint.item == item) "export_checkpoint_specification_changed"
  require (checkpoint.prepared.generation == plan.generationRoot)
    "export_prepared_path_outside_generation"
  requireFile library disk (.evidence checkpoint.prepared) (some checkpoint.new)
    "prepared_export_hash_changed"
  match checkpoint.backupPath with
  | none => pure ()
  | some backup => do
    require (backup.generation == plan.generationRoot) "export_backup_path_outside_generation"
    requireFile library disk (.evidence backup) checkpoint.old
      "verified_export_backup_hash_changed"

/-! ## Backups -/

/-- The sidecars `capture` may reuse. -/
def candidates (item : Item) : List (Evidence Digest) :=
  library.generations.map fun generation => ⟨generation, .exportsV2, fileName item.path⟩

/-- The copy of a live file that `_backup` makes where `found` is nothing. -/
def copyBackup (checkpoint : Checkpoint Digest) (old : Fingerprint Digest)
    (backup : Evidence Digest) (found : Option (Fingerprint Digest)) :
    Durable (Disk Digest) Unit :=
  match found with
  | some _ => pure ()
  | none => do
    let target := Place.live checkpoint.item.path
    .examine fun disk => requireFile library disk target (some old)
      "export_original_unavailable_for_backup"
    if checkpoint.contentAddressed then do
      let source ← .examine fun disk => openFile library disk target
      onArtifacts (capture library.hash source backup old (candidates library checkpoint.item))
    else
      copySealed library target (.evidence backup) old none

/-- Where `_backup` writes, what it finds there, and the checkpoint with the candidate
that it leaves alone. -/
def chooseBackup (disk : Disk Digest) (plan : Plan) (checkpoint : Checkpoint Digest)
    (old : Fingerprint Digest) :
    Except String (Checkpoint Digest × Evidence Digest × Option (Fingerprint Digest)) := do
  let backup := checkpoint.backupPath.getD (backupPathOf plan checkpoint.item)
  let found ← fingerprint library disk (.evidence backup)
  match found with
  | none => pure (checkpoint, backup, none)
  | some other =>
    if other = old then
      pure (checkpoint, backup, some other)
    else do
      let verified := verifiedBackupPath plan checkpoint.item old
      let found ← fingerprint library disk (.evidence verified)
      require (found.isNone || found == some old) "verified_export_backup_hash_changed"
      pure
        ({ checkpoint with
            unverifiedBackupCandidates :=
              checkpoint.unverifiedBackupCandidates ++ [(backup, other)] },
          verified, found)

/-- `_backup` of a live file whose old bytes differ. -/
def makeBackup (plan : Plan) (checkpoint : Checkpoint Digest) (old : Fingerprint Digest) :
    Durable (Disk Digest) (Checkpoint Digest) := do
  let (checkpoint, backup, found) ← .examine fun disk =>
    chooseBackup library disk plan checkpoint old
  copyBackup library checkpoint old backup found
  .examine fun disk => requireFile library disk (.evidence backup) (some old)
    "export_backup_readback_failed"
  pure { checkpoint with backupPath := some backup, backupStatus := some .verified }

def backup (plan : Plan) (checkpoint : Checkpoint Digest) :
    Durable (Disk Digest) (Checkpoint Digest) :=
  if checkpoint.oldStateKnown then
    match checkpoint.old with
    | none => pure { checkpoint with backupStatus := some .notRequired }
    | some old =>
      if old = checkpoint.new then
        pure { checkpoint with backupStatus := some .notRequired }
      else
        makeBackup library plan checkpoint old
  else
    pure checkpoint

/-! ## The pass over the items -/

def loadCheckpoint (plan : Plan) (item : Item) (receipt : Option (ExportReceipt Digest))
    (journal : Journal Digest) : Durable (Disk Digest) (Checkpoint Digest × Journal Digest) :=
  match lookup item.path journal.entries with
  | some checkpoint => pure (checkpoint, journal)
  | none => do
    let checkpoint ← initializeCheckpoint library plan item receipt
    let journal := journal.put item.path checkpoint
    .write (·.putJournal journal)
    pure (checkpoint, journal)

/-- The evidence that a live file which has its new bytes already was backed up. -/
def recognise (disk : Disk Digest) (checkpoint : Checkpoint Digest) : Except String Unit :=
  match checkpoint.old with
  | none => .ok ()
  | some old =>
    if checkpoint.oldStateKnown && decide (old ≠ checkpoint.new) then
      match checkpoint.backupPath with
      | none => .error "already_replaced_export_lacks_verified_backup"
      | some backup =>
        requireFile library disk (.evidence backup) (some old) "export_backup_readback_failed"
    else
      .ok ()

/-- A live file that reads as `current` may be replaced. -/
def replaceable (checkpoint : Checkpoint Digest) (current : Option (Fingerprint Digest)) : Bool :=
  current == checkpoint.old || (current.isNone &&
    (checkpoint.phase == .replaceIntent || checkpoint.phase == .replacedVerified))

/-- The backup, the intent and the replacement of a live file. -/
def replaceTarget (plan : Plan) (item : Item) (checkpoint : Checkpoint Digest)
    (journal : Journal Digest) (current : Option (Fingerprint Digest)) :
    Durable (Disk Digest) (Checkpoint Digest × Journal Digest) := do
  .check (replaceable checkpoint current) "export_target_preimage_conflict"
  let checkpoint ← backup library plan checkpoint
  let journal := journal.put item.path (checkpoint.inPhase .backupVerified)
  .write (·.putJournal journal)
  let journal := journal.put item.path (checkpoint.inPhase .replaceIntent)
  .write (·.putJournal journal)
  let observed ← .examine fun disk => fingerprint library disk (.live item.path)
  .check (observed == current) "export_target_changed_before_replace"
  copySealed library (.evidence checkpoint.prepared) (.live item.path) checkpoint.new current
  pure (checkpoint.inPhase .replaceIntent, journal)

/-- A live file is recognised or replaced. -/
def settleTarget (plan : Plan) (item : Item) (checkpoint : Checkpoint Digest)
    (journal : Journal Digest) : Durable (Disk Digest) (Checkpoint Digest × Journal Digest) := do
  .examine fun disk => validateCheckpoint library disk plan item checkpoint
  let current ← .examine fun disk => fingerprint library disk (.live item.path)
  if current = some checkpoint.new then
    .examine fun disk => recognise library disk checkpoint
    pure (checkpoint, journal)
  else
    replaceTarget library plan item checkpoint journal current

/-- The receipt of an item, which is added to the manifest when it is not there. -/
def addReceipt (item : Item) (checkpoint : Checkpoint Digest)
    (manifest : List (String × ExportReceipt Digest)) :
    Durable (Disk Digest) (List (String × ExportReceipt Digest)) :=
  let receipt : ExportReceipt Digest := ⟨item, checkpoint.new.sha256, checkpoint.prepared⟩
  match lookup item.path manifest with
  | some found => do
    .check (found == receipt) "export_receipt_conflicts_with_checkpoint"
    pure manifest
  | none => do
    let manifest := assign item.path receipt manifest
    .write (·.putManifest manifest)
    pure manifest

/-- One round of `_publish_exports`. -/
def publishItem (plan : Plan) (item : Item) (journal : Journal Digest)
    (manifest : List (String × ExportReceipt Digest)) :
    Durable (Disk Digest) (Journal Digest × List (String × ExportReceipt Digest)) := do
  let (checkpoint, journal) ←
    loadCheckpoint library plan item (lookup item.path manifest) journal
  let (checkpoint, journal) ← settleTarget library plan item checkpoint journal
  let journal := journal.put item.path (checkpoint.inPhase .replacedVerified)
  .write (·.putJournal journal)
  let manifest ← addReceipt item checkpoint manifest
  pure (journal, manifest)

/-- An entry of `legacy_rollback_evidence`. -/
inductive Warning (Digest : Type) where
  | legacy (path : String) (evidence : LegacyBackup Digest)
  | candidates (path : String) (found : List (Evidence Digest × Fingerprint Digest))

def warnings (journal : Journal Digest) : List (Warning Digest) :=
  (journal.entries.filterMap fun entry => entry.2.legacyBackup.map (.legacy entry.1)) ++
    (journal.entries.filter fun entry => !entry.2.unverifiedBackupCandidates.isEmpty).map
      fun entry => .candidates entry.1 entry.2.unverifiedBackupCandidates

/-- What a call returns. -/
inductive Progress (Digest : Type) where
  | deadlineBeforeExport (exports : Nat)
  | complete (exports : Nat) (warnings : List (Warning Digest))

/-- The loop of `_publish_exports`. `expired` is what the deadline says before an item. -/
def publishItems (plan : Plan) (expired : Item → Bool) (journal : Journal Digest)
    (manifest : List (String × ExportReceipt Digest)) :
    List Item → Durable (Disk Digest) (Progress Digest)
  | [] => pure (.complete manifest.length (warnings journal))
  | item :: rest =>
    if expired item then
      pure (.deadlineBeforeExport manifest.length)
    else do
      let (journal, manifest) ← publishItem library plan item journal manifest
      publishItems plan expired journal manifest rest

def publishExports (plan : Plan) (items : List Item) (expired : Item → Bool) :
    Durable (Disk Digest) (Progress Digest) := do
  let manifest ← .read fun disk => disk.manifest.getD []
  let journal ← .read fun disk => disk.journal.getD ⟨plan.generationId, []⟩
  .check (journal.generationId == plan.generationId) "export_checkpoint_generation_mismatch"
  let keys := items.map (·.path)
  .check (decide (keys.Nodup ∧ (∀ entry ∈ manifest, entry.1 ∈ keys) ∧
    ∀ entry ∈ journal.entries, entry.1 ∈ keys)) "unexpected_export_receipt_or_checkpoint"
  publishItems library plan expired journal manifest items

end Copies

end JobAgg.PublicationExports
