import Mathlib.Algebra.Order.Ring.Int
import JobAgg.Foundation.Checked
import JobAgg.Foundation.Durable
import JobAgg.Foundation.Json
import JobAgg.Foundation.Table

/-! # Cold storage of publication plans

`storage_cold_archive.py`: the plan and the row beforeimages of completed generations are
compressed into shared objects, recorded in a manifest, removed and restored. A file
appears by a link of its temporary, which is unlinked after it.
-/

namespace JobAgg.ColdArchive

variable {Bytes Digest : Type}

/-- A regular file. `linked` says that its link count is above one. -/
structure File (Bytes : Type) where
  bytes : Bytes
  linked : Bool

structure Destination (Digest : Type) where
  beforeimagePath : Option String
  beforeimageSha256 : Option Digest

/-- What is read of a decoded `plan.json`. Paths are relative to the generation. -/
structure Plan (Digest : Type) where
  generationId : String
  generationRoot : String
  destinations : List (Destination Digest)

/-- The binding of a file to its compressed object. -/
structure Entry (Digest : Type) where
  sha256 : Digest
  sizeBytes : Nat
  objectSha256 : Digest
  objectSizeBytes : Nat
  objectPath : String
  deriving DecidableEq

/-- `storage-cold-archive.json`. -/
structure Manifest (Digest : Type) where
  generationId : String
  archiveRoot : String
  objects : List (String × Entry Digest)

structure Sealed (Digest : Type) where
  manifest : Manifest Digest
  linked : Bool

/-- `result.json` of a generation that `_completed` accepts. -/
structure Completion (Digest : Type) where
  planSha256 : Digest
  completedAt : Int

/-- A directory of `generations`. `names` are the sorted paths that ever were in its
`beforeimages/*.json`, and `hot` holds the plan and those that are there. -/
structure Generation (Bytes Digest : Type) where
  result : Option (Completion Digest)
  names : List String
  hot : String → Option (File Bytes)
  manifest : Option (Sealed Digest)

/-- The state directory: its sorted generations and the objects of the archive. -/
structure Store (Bytes Digest : Type) where
  listed : List String
  generations : String → Generation Bytes Digest
  objects : Digest → Option (File Bytes)

/-- `gzip`, `sha256`, `json.loads` of a plan, and the paths of the state directory. -/
structure Library (Bytes Digest : Type) where
  compress : Bytes → Bytes
  decompress : Bytes → Option Bytes
  decompress_compress : ∀ bytes, decompress (compress bytes) = some bytes
  hash : Bytes → Digest
  hash_injective : Function.Injective hash
  size : Bytes → Nat
  readPlan : Bytes → Except String (Plan Digest)
  objectPath : Digest → String
  archiveRoot : String
  generationRoot : String → String

namespace Store

def changeGeneration (name : String)
    (change : Generation Bytes Digest → Generation Bytes Digest) (store : Store Bytes Digest) :
    Store Bytes Digest :=
  { store with
    generations := Function.update store.generations name (change (store.generations name)) }

def putHot (name relative : String) (file : Option (File Bytes)) (store : Store Bytes Digest) :
    Store Bytes Digest :=
  store.changeGeneration name fun generation =>
    { generation with hot := Function.update generation.hot relative file }

def putManifest (name : String) (file : Option (Sealed Digest)) (store : Store Bytes Digest) :
    Store Bytes Digest :=
  store.changeGeneration name fun generation => { generation with manifest := file }

def putObject [DecidableEq Digest] (sha256 : Digest) (file : File Bytes) (store : Store Bytes Digest) :
    Store Bytes Digest :=
  { store with objects := Function.update store.objects sha256 (some file) }

def hot (store : Store Bytes Digest) (name relative : String) : Option (File Bytes) :=
  (store.generations name).hot relative

section

variable {store : Store Bytes Digest} {name other relative path : String}

@[simp] theorem objects_putObject [DecidableEq Digest] {sha256 : Digest} {file : File Bytes} :
    (store.putObject sha256 file).objects =
      Function.update store.objects sha256 (some file) := rfl

@[simp] theorem generations_putObject [DecidableEq Digest] {sha256 : Digest} {file : File Bytes} :
    (store.putObject sha256 file).generations = store.generations := rfl

@[simp] theorem result_putHot {file : Option (File Bytes)} :
    ((store.putHot name relative file).generations other).result =
      (store.generations other).result := by
  by_cases same : other = name
  · subst same
    simp [putHot, changeGeneration]
  · simp [putHot, changeGeneration, same]

@[simp] theorem names_putHot {file : Option (File Bytes)} :
    ((store.putHot name relative file).generations other).names =
      (store.generations other).names := by
  by_cases same : other = name
  · subst same
    simp [putHot, changeGeneration]
  · simp [putHot, changeGeneration, same]

@[simp] theorem manifest_putHot {file : Option (File Bytes)} :
    ((store.putHot name relative file).generations other).manifest =
      (store.generations other).manifest := by
  by_cases same : other = name
  · subst same
    simp [putHot, changeGeneration]
  · simp [putHot, changeGeneration, same]

theorem hot_putHot {file : Option (File Bytes)} :
    (store.putHot name relative file).hot other path =
      if other = name ∧ path = relative then file else store.hot other path := by
  by_cases same : other = name
  · subst same
    by_cases here : path = relative
    · subst here
      simp [putHot, changeGeneration, hot]
    · simp [putHot, changeGeneration, hot, here]
  · simp [putHot, changeGeneration, hot, same]

@[simp] theorem result_putManifest {file : Option (Sealed Digest)} :
    ((store.putManifest name file).generations other).result =
      (store.generations other).result := by
  by_cases same : other = name
  · subst same
    simp [putManifest, changeGeneration]
  · simp [putManifest, changeGeneration, same]

@[simp] theorem names_putManifest {file : Option (Sealed Digest)} :
    ((store.putManifest name file).generations other).names =
      (store.generations other).names := by
  by_cases same : other = name
  · subst same
    simp [putManifest, changeGeneration]
  · simp [putManifest, changeGeneration, same]

@[simp] theorem hot_putManifest {file : Option (Sealed Digest)} :
    (store.putManifest name file).hot other path = store.hot other path := by
  by_cases same : other = name
  · subst same
    simp [putManifest, changeGeneration, hot]
  · simp [putManifest, changeGeneration, hot, same]

theorem manifest_putManifest {file : Option (Sealed Digest)} :
    ((store.putManifest name file).generations other).manifest =
      if other = name then file else (store.generations other).manifest := by
  by_cases same : other = name
  · subst same
    simp [putManifest, changeGeneration]
  · simp [putManifest, changeGeneration, same]

end

end Store

def regular : Option (File Bytes) → Bool
  | some file => !file.linked
  | none => false

/-- `_GENERATION.fullmatch`. -/
def isGenerationId (name : String) : Bool :=
  name.length == 32 && name.toList.all fun letter =>
    letter.isDigit || (decide ('a' ≤ letter) && decide (letter ≤ 'f'))

/-- `re.fullmatch(r"beforeimages/[^/]+\.json", relative)`. -/
def isBeforeimage (relative : String) : Bool :=
  let name := relative.toList.drop 13
  "beforeimages/".toList.isPrefixOf relative.toList && ".json".toList.isSuffixOf name &&
    decide (5 < name.length) && !name.contains '/'

section

variable [DecidableEq Digest] (library : Library Bytes Digest)

def digest : Option (File Bytes) → Except String (Digest × Nat)
  | some file => do
    require (!file.linked) "File is missing, linked, or not regular"
    pure (library.hash file.bytes, library.size file.bytes)
  | none => .error "File is missing, linked, or not regular"

def validateEntry (relative : String) (entry : Entry Digest) : Except String Unit := do
  require (relative == "plan.json" || isBeforeimage relative)
    "Cold archive has an unexpected relative path"
  require (entry.objectPath == library.objectPath entry.sha256) "Cold archive object path differs"

def decompressed (store : Store Bytes Digest) (sha256 : Digest) : Except String Bytes :=
  match store.objects sha256 with
  | none => .error "FileNotFoundError"
  | some file =>
    match library.decompress file.bytes with
    | none => .error "BadGzipFile"
    | some bytes => .ok bytes

def verifyObject (store : Store Bytes Digest) (relative : String) (entry : Entry Digest) :
    Except String Unit := do
  validateEntry library relative entry
  let compressed ← digest library (store.objects entry.sha256)
  require (compressed == (entry.objectSha256, entry.objectSizeBytes)) "Compressed object differs"
  let bytes ← decompressed library store entry.sha256
  require ((library.hash bytes, library.size bytes) == (entry.sha256, entry.sizeBytes))
    "Decompressed object differs"

def manifestMetadata (store : Store Bytes Digest) (name : String) :
    Except String (Manifest Digest) :=
  match (store.generations name).manifest with
  | none => .error "Required regular JSON file is missing"
  | some file => do
    require (!file.linked) "Required regular JSON file is missing"
    let manifest := file.manifest
    require (manifest.generationId == name && isGenerationId name &&
      manifest.archiveRoot == library.archiveRoot &&
      (lookup "plan.json" manifest.objects).isSome) "Malformed cold archive manifest"
    each (fun item => validateEntry library item.1 item.2) manifest.objects
    pure manifest

/-- One row of `_plan_beforeimage_bindings`. -/
def bindBeforeimage (refs : List (String × Digest)) (destination : Destination Digest) :
    Except String (List (String × Digest)) :=
  match destination.beforeimagePath, destination.beforeimageSha256 with
  | none, _ => .ok refs
  | some _, none => .error "Publication plan references an unsafe beforeimage"
  | some relative, some sha256 => do
    require (isBeforeimage relative) "Publication plan references an unsafe beforeimage"
    match lookup relative refs with
    | some other => do
      require (other == sha256) "Publication plan has conflicting beforeimage hashes"
      pure refs
    | none => pure (refs ++ [(relative, sha256)])

def planBeforeimageBindings (plan : Plan Digest) : Except String (List (String × Digest)) :=
  plan.destinations.foldlM bindBeforeimage []

/-- A hot file of a manifest has the recorded bytes. -/
def verifySource (store : Store Bytes Digest) (name relative : String) (entry : Entry Digest)
    (message : String) : Except String Unit :=
  match store.hot name relative with
  | none => .ok ()
  | some file => do
    let found ← digest library (some file)
    require (found == (entry.sha256, entry.sizeBytes)) message

/-- The decoded plan of a generation, with the identity of its directory. -/
def checkPlan (name : String) (bytes : Bytes) (message : String) :
    Except String (Plan Digest) := do
  let plan ← library.readPlan bytes
  require (plan.generationId == name && plan.generationRoot == library.generationRoot name)
    message
  pure plan

def verifyArchivedPlan (store : Store Bytes Digest) (name : String)
    (manifest : Manifest Digest) : Except String Unit := do
  match lookup "plan.json" manifest.objects with
  | none => .error "plan.json"
  | some entry => do
    let bytes ← decompressed library store entry.sha256
    let plan ← checkPlan library name bytes "Archived publication plan identity differs"
    let refs ← planBeforeimageBindings plan
    each (fun ref => require ((lookup ref.1 manifest.objects).map Entry.sha256 == some ref.2)
      "Archived beforeimage differs from plan binding") refs

def verifyArchivedGeneration (store : Store Bytes Digest) (name : String) :
    Except String (Manifest Digest) := do
  let manifest ← manifestMetadata library store name
  each (fun item => do
    verifyObject library store item.1 item.2
    verifySource library store name item.1 item.2 "Hot source differs from cold archive")
    manifest.objects
  verifyArchivedPlan library store name manifest
  pure manifest

/-! ## Selection -/

inductive Disposition
  | legacyActive
  | retirementPending
  | retiredTerminal
  deriving DecidableEq

/-- What a call reads outside the archive: the generation of the complete gate, the
generations bound by the dispatcher, the open export retention intents and the state of
terminal retirements. -/
structure Surroundings where
  gate : Except String String
  bound : Except String (List String)
  intent : String → Except String Bool
  history : String → Disposition

inductive Reason
  | retiredTerminal
  | retirementPending
  | currentGate
  | dispatcherRecoveryBinding
  | exportRetentionIntent
  | newestTwoComplete
  | unresolvedOrUnverified
  | eligible
  | archiveResume
  | alreadyArchived
  deriving DecidableEq

structure Listing where
  generationId : String
  reason : Reason
  files : Nat
  hotBytes : Nat

structure Preview where
  currentGenerationId : String
  dispatcherRecoveryGenerationIds : List String
  generations : List Listing
  eligibleGenerations : List String
  remainingEligibleGenerations : Nat

def completedGenerations (surroundings : Surroundings) (store : Store Bytes Digest) :
    List (String × Completion Digest) :=
  store.listed.filterMap fun name =>
    if surroundings.history name = .legacyActive then
      (store.generations name).result.map fun completion => (name, completion)
    else none

def newestTwo (surroundings : Surroundings) (store : Store Bytes Digest) : List String :=
  ((orderByDesc (fun item => item.2.completedAt)
    (completedGenerations surroundings store)).take 2).map Prod.fst

/-- `[plan_path, *beforeimages]`. -/
def hotSources (store : Store Bytes Digest) (name : String) : List String :=
  "plan.json" :: (store.generations name).names.filter fun relative =>
    (store.hot name relative).isSome

def hotBytes (store : Store Bytes Digest) (name : String) (sources : List String) : Nat :=
  (sources.filterMap fun relative =>
    if regular (store.hot name relative) then
      (store.hot name relative).map fun file => library.size file.bytes
    else none).sum

structure Protection where
  gate : String
  bound : List String
  newest : List String

def Protection.covers (protection : Protection) (name : String) (intent : Bool) : Bool :=
  protection.newest.contains name || name == protection.gate ||
    protection.bound.contains name || intent

def reasonOf (protection : Protection) (name : String) (intent completed : Bool) : Reason :=
  if name = protection.gate then .currentGate
  else if protection.bound.contains name then .dispatcherRecoveryBinding
  else if intent then .exportRetentionIntent
  else if protection.newest.contains name then .newestTwoComplete
  else if completed then .eligible
  else .unresolvedOrUnverified

/-- The entry of a generation with a manifest. -/
def previewArchived (store : Store Bytes Digest) (name : String) (covered : Bool) :
    Except String Listing := do
  let manifest ← manifestMetadata library store name
  require ((store.generations name).result.map Completion.planSha256 ==
    (lookup "plan.json" manifest.objects).map Entry.sha256 &&
    (store.generations name).result.isSome) "Cold archive plan differs from completed result"
  let sources := manifest.objects.map Prod.fst
  let hot := sources.any fun relative => (store.hot name relative).isSome
  pure
    { generationId := name
      reason := if hot && !covered then .archiveResume else .alreadyArchived
      files := sources.length, hotBytes := hotBytes library store name sources }

/-- The entry of a generation that may be archived. -/
def previewEligible (store : Store Bytes Digest) (name : String) : Except String Listing := do
  let sources := hotSources store name
  require (sources.all fun relative => regular (store.hot name relative))
    "Eligible publication source is missing or linked"
  pure
    { generationId := name, reason := .eligible, files := sources.length
      hotBytes := hotBytes library store name sources }

/-- The entry of a generation that no retirement holds. -/
def previewActive (protection : Protection) (store : Store Bytes Digest) (name : String)
    (intent : Bool) : Except String Listing :=
  let reason := reasonOf protection name intent (store.generations name).result.isSome
  if (store.generations name).manifest.isSome then
    previewArchived library store name (protection.covers name intent)
  else if reason = .eligible then previewEligible library store name
  else .ok { generationId := name, reason, files := 0, hotBytes := 0 }

def previewGeneration (surroundings : Surroundings) (protection : Protection)
    (store : Store Bytes Digest) (name : String) : Except String Listing :=
  match surroundings.history name with
  | .retiredTerminal =>
    .ok { generationId := name, reason := .retiredTerminal, files := 0, hotBytes := 0 }
  | .retirementPending =>
    .ok { generationId := name, reason := .retirementPending, files := 0, hotBytes := 0 }
  | .legacyActive => do
    let intent ← surroundings.intent name
    previewActive library protection store name intent

def Listing.selected (listing : Listing) : Bool :=
  listing.reason = .eligible || listing.reason = .archiveResume

def selectedGenerations (store : Store Bytes Digest) (generations : List Listing) :
    List String :=
  orderBy (fun name => (store.generations name).result.elim 0 Completion.completedAt)
    ((generations.filter Listing.selected).map Listing.generationId)

def previewArchive (surroundings : Surroundings) (maxGenerations : Nat)
    (store : Store Bytes Digest) : Except String Preview := do
  require (decide (1 ≤ maxGenerations)) "max_generations must be a positive integer"
  let gate ← surroundings.gate
  let bound ← surroundings.bound
  require (store.listed.all isGenerationId)
    "Publication generations directory has an unexpected entry"
  let protection : Protection := { gate, bound, newest := newestTwo surroundings store }
  let generations ← store.listed.mapM (previewGeneration library surroundings protection store)
  let eligible := selectedGenerations store generations
  pure
    { currentGenerationId := gate, dispatcherRecoveryGenerationIds := bound, generations
      eligibleGenerations := eligible.take maxGenerations
      remainingEligibleGenerations := eligible.length - maxGenerations }

/-! ## Archiving -/

open Durable

def sourceFiles (store : Store Bytes Digest) (name : String) (expectedPlanSha256 : Digest) :
    Except String (List String) := do
  let plan ← digest library (store.hot name "plan.json")
  require (plan.1 == expectedPlanSha256) "Completed publication plan hash differs"
  match store.hot name "plan.json" with
  | none => .error "Required regular JSON file is missing"
  | some file => do
    let plan ← checkPlan library name file.bytes "Completed publication plan identity differs"
    let sources := hotSources store name
    each (fun relative => do let _ ← digest library (store.hot name relative)) sources
    let refs ← planBeforeimageBindings plan
    each (fun ref => do
      let found ← digest library (store.hot name ref.1)
      require (found.1 == ref.2) "Publication beforeimage differs from plan binding") refs
    require (refs.all fun ref => sources.contains ref.1)
      "Publication plan beforeimage is missing"
    pure sources

def createObject (sha256 : Digest) (bytes : Bytes) :
    Durable (Store Bytes Digest) Unit := do
  .write (.putObject sha256 ⟨library.compress bytes, true⟩)
  .write (.putObject sha256 ⟨library.compress bytes, false⟩)

def ensureObject (sha256 : Digest) (bytes : Bytes) :
    Option (File Bytes) → Durable (Store Bytes Digest) Unit
  | some file => .check (!file.linked) "Existing cold object is not a regular file"
  | none => createObject library sha256 bytes

def objectEntry (relative : String) (sha256 : Digest) (sizeBytes : Nat)
    (store : Store Bytes Digest) : Except String (Entry Digest) := do
  let object ← digest library (store.objects sha256)
  let entry : Entry Digest :=
    { sha256, sizeBytes, objectSha256 := object.1, objectSizeBytes := object.2
      objectPath := library.objectPath sha256 }
  verifyObject library store relative entry
  pure entry

def hotFile (store : Store Bytes Digest) (name relative : String) : Except String Bytes :=
  match store.hot name relative with
  | none => .error "File is missing, linked, or not regular"
  | some file => do
    require (!file.linked) "File is missing, linked, or not regular"
    pure file.bytes

def compressObject (name relative : String) :
    Durable (Store Bytes Digest) (Entry Digest) := do
  let bytes ← .examine fun store => hotFile store name relative
  let sha256 := library.hash bytes
  let present ← .read fun store => store.objects sha256
  ensureObject library sha256 bytes present
  .examine (objectEntry library relative sha256 (library.size bytes))

def compressSources (name : String) :
    List String → Durable (Store Bytes Digest) (List (String × Entry Digest))
  | [] => pure []
  | relative :: rest => do
    let entry ← compressObject library name relative
    let entries ← compressSources name rest
    pure ((relative, entry) :: entries)

/-- `json.dump(manifest, sort_keys=True)`. -/
def Manifest.sorted (manifest : Manifest Digest) : Manifest Digest :=
  { manifest with objects := orderBy Prod.fst manifest.objects }

def writeManifest (name : String) (manifest : Manifest Digest) :
    Durable (Store Bytes Digest) Unit := do
  .examine fun store => require (store.generations name).manifest.isNone
    "Cold archive manifest already exists"
  .write (.putManifest name (some ⟨manifest.sorted, true⟩))
  .write (.putManifest name (some ⟨manifest.sorted, false⟩))

/-- One round of `_remove_verified_sources`. -/
def removeSource (name relative : String) (entry : Entry Digest) :
    Option (File Bytes) → Durable (Store Bytes Digest) Nat
  | none => pure 0
  | some _ => do
    .examine fun store => verifySource library store name relative entry
      "Source changed before cold removal"
    .write (.putHot name relative none)
    pure 1

def removeVerifiedSources (name : String) :
    List (String × Entry Digest) → Durable (Store Bytes Digest) Nat
  | [] => pure 0
  | (relative, entry) :: rest => do
    let file ← .read fun store => store.hot name relative
    let removed ← removeSource library name relative entry file
    let later ← removeVerifiedSources name rest
    pure (removed + later)

structure Archived where
  generationId : String
  removedHotFiles : Nat
  resumed : Bool

/-- A generation whose manifest is sealed. -/
def resumeArchive (name : String) : Durable (Store Bytes Digest) Archived := do
  let manifest ← .examine fun store => verifyArchivedGeneration library store name
  let removed ← removeVerifiedSources library name manifest.objects
  pure { generationId := name, removedHotFiles := removed, resumed := true }

def archiveGeneration (name : String) (planSha256 : Digest) :
    Durable (Store Bytes Digest) Archived := do
  let sources ← .examine fun store => sourceFiles library store name planSha256
  let objects ← compressSources library name sources
  let manifest : Manifest Digest :=
    { generationId := name, archiveRoot := library.archiveRoot, objects }
  writeManifest name manifest
  let _ ← .examine fun store => verifyArchivedGeneration library store name
  let removed ← removeVerifiedSources library name manifest.objects
  pure { generationId := name, removedHotFiles := removed, resumed := false }

def completion (name : String) (store : Store Bytes Digest) :
    Except String (Completion Digest × Bool) :=
  match (store.generations name).result with
  | none => .error "Completed generation changed during archive"
  | some completion => .ok (completion, (store.generations name).manifest.isSome)

def archiveSelected (name : String) : Durable (Store Bytes Digest) Archived := do
  let (completion, existing) ← .examine (completion name)
  if existing then resumeArchive library name
  else archiveGeneration library name completion.planSha256

def archiveAll : List String → Durable (Store Bytes Digest) (List Archived)
  | [] => pure []
  | name :: rest => do
    let archived ← archiveSelected library name
    let later ← archiveAll rest
    pure (archived :: later)

/-- `archive_completed` with `execute`, under the shared owner. -/
def archiveCompleted (surroundings : Surroundings) (maxGenerations : Nat) :
    Durable (Store Bytes Digest) (Preview × List Archived) := do
  let selection ← .examine (previewArchive library surroundings maxGenerations)
  let archived ← archiveAll library selection.eligibleGenerations
  pure (selection, archived)

/-! ## Restoration -/

def restoredBytes (store : Store Bytes Digest) (entry : Entry Digest) :
    Except String Bytes := do
  let bytes ← decompressed library store entry.sha256
  require ((library.hash bytes, library.size bytes) == (entry.sha256, entry.sizeBytes))
    "Restored bytes differ before seal"
  pure bytes

def restoreFile (name relative : String) (entry : Entry Digest) :
    Option (File Bytes) → Durable (Store Bytes Digest) Unit
  | some _ => .examine fun store => verifySource library store name relative entry
      "Existing restored file differs"
  | none => do
    let bytes ← .examine fun store => restoredBytes library store entry
    .write (.putHot name relative (some ⟨bytes, true⟩))
    .write (.putHot name relative (some ⟨bytes, false⟩))

def restoreFiles (name : String) :
    List (String × Entry Digest) → Durable (Store Bytes Digest) Unit
  | [] => pure ()
  | (relative, entry) :: rest => do
    let file ← .read fun store => store.hot name relative
    restoreFile library name relative entry file
    restoreFiles name rest

def checkRestored (store : Store Bytes Digest) (name : String) (manifest : Manifest Digest) :
    Except String Unit :=
  each (fun item => do
    let found ← digest library (store.hot name item.1)
    require (found == (item.2.sha256, item.2.sizeBytes)) "Restored publication file differs")
    manifest.objects

/-- The checks of `restore_generation` before it takes the owner. -/
def checkRestorable (name : String) (store : Store Bytes Digest) : Except String Unit := do
  require (isGenerationId name) "Invalid publication generation ID"
  let manifest ← verifyArchivedGeneration library store name
  require ((store.generations name).result.map Completion.planSha256 ==
    (lookup "plan.json" manifest.objects).map Entry.sha256 &&
    (store.generations name).result.isSome)
    "Cold archive has no matching completed publication"

/-- `restore_generation` with `execute`: the number of files. -/
def restoreGeneration (surroundings : Surroundings) (name : String) :
    Durable (Store Bytes Digest) Nat := do
  .examine (checkRestorable library name)
  let _ ← .examine fun _ => surroundings.gate
  let manifest ← .examine fun store => verifyArchivedGeneration library store name
  restoreFiles library name manifest.objects
  .examine fun store => checkRestored library store name manifest
  .write (.putManifest name none)
  pure manifest.objects.length

end

end JobAgg.ColdArchive
