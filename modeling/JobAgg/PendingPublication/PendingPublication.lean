import JobAgg.Foundation.Checked
import JobAgg.Foundation.Durable
import JobAgg.Foundation.Json

/-! # The continuation of accepted work

`prepare_resume` of `pending_publication.py`: the deferral controls of an accepted run
are copied to an archive, a receipt covers the copies, the controls are removed, and a
completion record and the head close the round. Every file operation is a step of its
own. The paths are direct and the calls follow one another under the owner lock.
-/

namespace JobAgg.PendingPublication

abbrev Bytes := List UInt8

def maxControlBytes : Nat := 16 * 1024 ^ 2

inductive Control
  | outcome
  | publicationRequest
  deriving DecidableEq

def names : List Control := [.outcome, .publicationRequest]

theorem mem_names (name : Control) : name ∈ names := by
  cases name <;> simp [names]

/-- The result of `former_processes_absent`. -/
structure ProcessEvidence where
  checkedAt : String
  psSha256 : String
  formerPidsGroupsAndCommandsAbsent : Bool
  deriving DecidableEq

structure Accepted where
  runId : String
  requestSha256 : String
  acceptanceSha256 : String
  workerResultSha256 : String
  deriving DecidableEq

/-- `pending_accepted_work.json`. -/
structure Marker where
  schemaVersion : Int
  state : String
  runId : String
  requestSha256 : String
  acceptanceSha256 : String
  workerResultSha256 : String
  /-- The names of the acceptance and the worker result, where they are not the usual ones. -/
  proofFiles : Option (String × String)
  projection : Json
  projectionTarget : Option String

def Marker.accepted (value : Marker) : Accepted :=
  ⟨value.runId, value.requestSha256, value.acceptanceSha256, value.workerResultSha256⟩

structure FileProof where
  sha256 : String
  size : Nat
  deriving DecidableEq

/-- `accepted_work_continuation.json`. -/
structure Head where
  schemaVersion : Int
  state : String
  transactionId : String
  accepted : Accepted
  files : List (Control × FileProof)
  processEvidence : ProcessEvidence
  deriving DecidableEq

structure Receipt where
  schemaVersion : Int
  state : String
  accepted : Accepted
  transactionId : String
  files : List (Control × FileProof)
  processEvidence : ProcessEvidence
  deriving DecidableEq

structure Completion where
  schemaVersion : Int
  state : String
  accepted : Accepted
  transactionId : String
  archiveReceiptSha256 : String
  deriving DecidableEq

/-- A directory `accepted_work_deferrals/<transaction>`. The last two fields record what
has been flushed: the directory since its receipt was put there, and the directory above
it since this one was made. -/
structure Archive where
  made : Bool := false
  copies : Control → Option Bytes := fun _ => none
  receipt : Option Receipt := none
  completion : Option Completion := none
  receiptSynced : Bool := false
  entrySynced : Bool := false

structure Controls where
  marker : Option Marker
  proofs : String → Option Bytes
  intent : Bool
  sources : Control → Option Bytes
  head : Option Head
  archives : String → Archive

/-- The library calls: `json.loads`, `hashlib.sha256`, the text of a receipt, and
`datetime.fromisoformat` where it gives an aware time, in microseconds. -/
structure Library where
  loads : Bytes → Except String Json
  sha256 : Bytes → String
  dumps : Receipt → Bytes
  fromisoformat : String → Option Int

def json (library : Library) (file : Option Bytes) : Except String (List (String × Json)) := do
  match file with
  | none => .error "Pending-work control is absent, aliased or oversized"
  | some text =>
    require (decide (text.length ≤ maxControlBytes))
      "Pending-work control is absent, aliased or oversized"
    match (← library.loads text).asObject with
    | none => .error "Pending-work control must be an object"
    | some fields => pure fields

/-- The same for a record of which only the code's own texts exist. -/
def record {Value : Type} : Option Value → Except String Value
  | none => .error "Pending-work control is absent, aliased or oversized"
  | some value => .ok value

def controlBytes (library : Library) (file : Option Bytes) : Except String Bytes := do
  let _ ← json library file
  pure (file.getD [])

def proves (library : Library) (proof : FileProof) (payload : Bytes) : Bool :=
  payload.length == proof.size && library.sha256 payload == proof.sha256

/-- `re.fullmatch(r"[a-f0-9]{32}", text)`. -/
def isTransactionId (text : String) : Bool :=
  text.length == 32 && text.toList.all fun letter =>
    letter.isDigit || (decide ('a' ≤ letter) && decide (letter ≤ 'f'))

/-- `_process_proof`, at the time `now` in microseconds. -/
def processProof (library : Library) (evidence : ProcessEvidence) (now : Int) :
    Except String Unit := do
  require (evidence.formerPidsGroupsAndCommandsAbsent && isSha256 evidence.psSha256)
    "Exact former-process absence proof required"
  match library.fromisoformat evidence.checkedAt with
  | none => .error "Former-process absence proof is stale or malformed"
  | some observed =>
    require (decide (-5000000 ≤ now - observed) && decide (now - observed ≤ 300000000))
      "Former-process absence proof is stale or malformed"

/-- A run id that names a directory of its own: `_run`. -/
def isRunName (runId : String) : Bool :=
  runId != "" && runId != "." && runId != ".." && !runId.toList.contains '/'

/-- `inspect`, where a marker is there. -/
def inspect (controls : Controls) : Except String Marker := do
  match controls.marker with
  | none => .error "No accepted-work fence to resume"
  | some value =>
    require (value.schemaVersion == 1 && value.state == "accepted_pending")
      "Unknown pending-work state"
    require (isRunName value.runId) "Invalid pending-work run identity"
    pure value

def noIntent (controls : Controls) : Except String Unit :=
  require (!controls.intent) "Pending work crossed publisher intent; use publication recovery"

def proofPaths (value : Marker) : Except String (String × String) := do
  let files := value.proofFiles.getD ("acceptance.json", "worker_result.json")
  require (files == ("acceptance.json", "worker_result.json") ||
    files == ("recovered_acceptance.json", "recovered_worker_result.json"))
    "Unknown accepted proof filenames"
  pure files

def acceptedProof (library : Library) (controls : Controls) (expected path filename : String) :
    Except String Unit := do
  let _ ← json library (controls.proofs path)
  require (expected == library.sha256 ((controls.proofs path).getD []))
    ("Pending accepted-work proof changed: " ++ filename)

def acceptedProofs (library : Library) (value : Marker) (controls : Controls) :
    Except String Unit := do
  let files ← proofPaths value
  acceptedProof library controls value.requestSha256 "request.json" "request.json"
  acceptedProof library controls value.acceptanceSha256 files.1 "acceptance.json"
  acceptedProof library controls value.workerResultSha256 files.2 "worker_result.json"

def continuationReceipt (head : Head) : Receipt :=
  { schemaVersion := 1, state := "archives_sealed", accepted := head.accepted,
    transactionId := head.transactionId, files := head.files,
    processEvidence := head.processEvidence }

/-- `_completion`, over the receipt that lies in the archive. -/
def completion (library : Library) (head : Head) (receipt : Receipt) : Completion :=
  { schemaVersion := 1, state := "cleared_for_continuation", accepted := head.accepted,
    transactionId := head.transactionId,
    archiveReceiptSha256 := library.sha256 (library.dumps receipt) }

def verifyMember (library : Library) (archive : Archive) (member : Control × FileProof) :
    Except String Unit := do
  let payload ← controlBytes library (archive.copies member.1)
  require (proves library member.2 payload) "Previous continuation archive bytes differ"

def verifyMembers (library : Library) (archive : Archive) :
    List (Control × FileProof) → Except String Unit
  | [] => pure ()
  | member :: members => do
    verifyMember library archive member
    verifyMembers library archive members

def verifyPreviousContinuation (library : Library) (head : Head) (controls : Controls) :
    Except String Unit := do
  let archive := controls.archives head.transactionId
  let receipt ← record archive.receipt
  require (receipt == continuationReceipt head) "Previous continuation archive receipt differs"
  verifyMembers library archive head.files
  let completed ← record archive.completion
  require (completed == completion library head receipt)
    "Previous continuation completion differs"

/-- Is the outcome one that publication recovery owns? A list or an object cannot be
looked up in a set. -/
def unpublished : Json → Except String Unit
  | .array _ => .error "unhashable type: 'list'"
  | .object _ => .error "unhashable type: 'dict'"
  | .string text => require (text != "published" && text != "noop")
      "Published outcome requires publication recovery"
  | _ => pure ()

/-- What the head says of a source: the body of the first loop of `prepare_resume`. -/
def bindSource (library : Library) (value : Marker) (name : Control) (source : Bytes) :
    Except String FileProof := do
  let old ← json library (some source)
  require (Json.get "run_id" old == .string value.runId)
    "Continuation source belongs to another run"
  match name with
  | .publicationRequest =>
    require (Json.get "worker_acceptance_sha256" old == .string value.acceptanceSha256)
      "Continuation request acceptance binding differs"
  | .outcome => unpublished (Json.get "publication_status" old)
  let payload ← controlBytes library (some source)
  pure ⟨library.sha256 payload, payload.length⟩

def bindSources (library : Library) (value : Marker) (controls : Controls) :
    List Control → Except String (List (Control × FileProof))
  | [] => pure []
  | name :: rest => do
    match controls.sources name with
    | none => bindSources library value controls rest
    | some source => do
      let proof ← bindSource library value name source
      let files ← bindSources library value controls rest
      pure ((name, proof) :: files)

inductive Directory
  | run
  | deferrals
  | archive (transactionId : String)

namespace Controls

def updateArchive (controls : Controls) (transactionId : String) (change : Archive → Archive) :
    Controls :=
  { controls with
    archives := Function.update controls.archives transactionId
      (change (controls.archives transactionId)) }

def makeDirectory : Directory → Controls → Controls
  | .archive transactionId, controls =>
    controls.updateArchive transactionId fun archive => { archive with made := true }
  | _, controls => controls

/-- `fsync` of a directory, as far as archives depend on it. -/
def syncDirectory : Directory → Controls → Controls
  | .run, controls => controls
  | .deferrals, controls =>
    { controls with archives := fun transactionId =>
        { controls.archives transactionId with
          entrySynced := (controls.archives transactionId).entrySynced ||
            (controls.archives transactionId).made } }
  | .archive transactionId, controls =>
    controls.updateArchive transactionId fun archive =>
      { archive with receiptSynced := archive.receiptSynced || archive.receipt.isSome }

def putHead (head : Head) (controls : Controls) : Controls :=
  { controls with head := some head }

def putCopy (transactionId : String) (name : Control) (payload : Bytes) (controls : Controls) :
    Controls :=
  controls.updateArchive transactionId fun archive =>
    { archive with copies := Function.update archive.copies name (some payload) }

def putReceipt (transactionId : String) (receipt : Receipt) (controls : Controls) : Controls :=
  controls.updateArchive transactionId fun archive => { archive with receipt := some receipt }

def putCompletion (transactionId : String) (completed : Completion) (controls : Controls) :
    Controls :=
  controls.updateArchive transactionId fun archive =>
    { archive with completion := some completed }

def unlink (name : Control) (controls : Controls) : Controls :=
  { controls with sources := Function.update controls.sources name none }

end Controls

/-- `atomic_write_bytes`: the directory is made, a file of another name is written and
flushed, it replaces the target, and the directory is flushed. -/
def atomicWrite (parent : Directory) (replace : Controls → Controls) : Durable Controls Unit := do
  .write (.makeDirectory parent)
  .write replace
  .write (.syncDirectory parent)

def sourceBytes (library : Library) (alreadySealed : Bool) (member : Control × FileProof)
    (controls : Controls) : Except String (Option Bytes) := do
  match controls.sources member.1 with
  | none =>
    require alreadySealed "Continuation source missing before durable archive receipt"
    pure none
  | some source =>
    let payload ← controlBytes library (some source)
    require (proves library member.2 payload) "Continuation source changed before removal"
    pure (some payload)

/-- Is the member's copy there? Then it has the bytes of the head. -/
def archivedCopy (library : Library) (transactionId : String) (member : Control × FileProof)
    (controls : Controls) : Except String Bool := do
  match (controls.archives transactionId).copies member.1 with
  | none => pure false
  | some copy =>
    let archived ← controlBytes library (some copy)
    require (proves library member.2 archived) "Continuation archive bytes differ"
    pure true

def readBack (transactionId : String) (name : Control) (payload : Bytes) (controls : Controls) :
    Except String Unit :=
  require ((controls.archives transactionId).copies name == some payload)
    "Continuation archive read-back differs"

def copyMember (transactionId : String) (name : Control) (alreadySealed : Bool) :
    Option Bytes → Durable Controls Unit
  | none => .fail "Sealed continuation archive is missing"
  | some payload => do
    .check (!alreadySealed) "Sealed continuation archive is missing"
    atomicWrite (.archive transactionId) (.putCopy transactionId name payload)
    .examine (readBack transactionId name payload)

def validProof (proof : FileProof) : Bool :=
  decide (0 < proof.size) && decide (proof.size ≤ maxControlBytes) && isSha256 proof.sha256

def archiveMember (library : Library) (head : Head) (alreadySealed : Bool)
    (member : Control × FileProof) : Durable Controls Unit := do
  .check (validProof member.2) "Invalid continuation archive proof"
  let payload ← .examine (sourceBytes library alreadySealed member)
  let archived ← .examine (archivedCopy library head.transactionId member)
  if archived then pure ()
  else copyMember head.transactionId member.1 alreadySealed payload

def archiveMembers (library : Library) (head : Head) (alreadySealed : Bool) :
    List (Control × FileProof) → Durable Controls Unit
  | [] => pure ()
  | member :: members => do
    archiveMember library head alreadySealed member
    archiveMembers library head alreadySealed members

/-- The receipt is written by the call that finds none, and only that call flushes the
directories around it. -/
def sealArchive (head : Head) : Bool → Durable Controls Unit
  | true => pure ()
  | false => do
    atomicWrite (.archive head.transactionId)
      (.putReceipt head.transactionId (continuationReceipt head))
    .write (.syncDirectory (.archive head.transactionId))
    .write (.syncDirectory .deferrals)

def removable (library : Library) (member : Control × FileProof) (controls : Controls) :
    Except String Bool := do
  noIntent controls
  match controls.sources member.1 with
  | none => pure false
  | some source =>
    let payload ← controlBytes library (some source)
    require (proves library member.2 payload) "Continuation source changed before unlink"
    pure true

def removeMember (library : Library) (member : Control × FileProof) : Durable Controls Unit := do
  let present ← .examine (removable library member)
  if present then do
    .write (.unlink member.1)
    .write (.syncDirectory .run)
  else pure ()

def removeMembers (library : Library) : List (Control × FileProof) → Durable Controls Unit
  | [] => pure ()
  | member :: members => do
    removeMember library member
    removeMembers library members

def completeArchive (library : Library) (head : Head) : Durable Controls Unit := do
  let receipt ← .examine fun controls => record (controls.archives head.transactionId).receipt
  let existing ← .read fun controls => (controls.archives head.transactionId).completion
  match existing with
  | some completed =>
    .check (completed == completion library head receipt)
      "Continuation completion receipt differs"
  | none =>
    atomicWrite (.archive head.transactionId)
      (.putCompletion head.transactionId (completion library head receipt))

def finishHead (head : Head) : Durable Controls Unit :=
  if head.state == "complete" then pure ()
  else atomicWrite .run (.putHead { head with state := "complete" })

def checkHead (library : Library) (value : Marker) (head : Head) (controls : Controls) :
    Except String Unit := do
  require (head.schemaVersion == 1 && head.accepted == value.accepted &&
    (head.state == "archiving" || head.state == "complete") &&
    isTransactionId head.transactionId) "Continuation receipt binding differs"
  if head.state == "complete" then verifyPreviousContinuation library head controls
  else pure ()

def Controls.deferred (controls : Controls) : Bool :=
  names.any fun name => (controls.sources name).isSome

/-- The head of a new round, over the controls in place. -/
def beginRound (library : Library) (value : Marker) (evidence : ProcessEvidence)
    (uuid : String) : Durable Controls Head := do
  let files ← .examine fun controls => bindSources library value controls names
  let head : Head :=
    { schemaVersion := 1, state := "archiving", transactionId := uuid,
      accepted := value.accepted, files, processEvidence := evidence }
  atomicWrite .run (.putHead head)
  pure head

def currentHead (library : Library) (value : Marker) (evidence : ProcessEvidence)
    (uuid : String) : Durable Controls Head := do
  match ← .read Controls.head with
  | none => beginRound library value evidence uuid
  | some head =>
    .examine (checkHead library value head)
    let deferred ← .read Controls.deferred
    if head.state == "complete" && deferred then beginRound library value evidence uuid
    else pure head

def onlyBound (head : Head) (controls : Controls) : Except String Unit :=
  require (names.all fun name =>
    (controls.sources name).isNone || head.files.any fun member => decide (member.1 = name))
    "Unbound continuation source appeared"

def sealedReceipt (head : Head) (controls : Controls) : Except String Bool :=
  match (controls.archives head.transactionId).receipt with
  | none => pure false
  | some receipt => do
    require (receipt == continuationReceipt head) "Continuation archive receipt differs"
    pure true

structure Resumed where
  runId : String
  projection : Json
  projectionTarget : String
  continuation : String
  archiveReceipt : String

def resumed (value : Marker) (head : Head) : Resumed :=
  { runId := value.runId, projection := value.projection,
    projectionTarget := value.projectionTarget.getD "publication_snapshot.sqlite3",
    continuation := "accepted_work_continuation.json",
    archiveReceipt := "accepted_work_deferrals/" ++ head.transactionId ++ "/receipt.json" }

/-- `prepare_resume`. The paths it returns are those below the run directory. -/
def prepareResume (library : Library) (evidence : ProcessEvidence) (now : Int) (uuid : String) :
    Durable Controls Resumed := do
  .examine fun _ => processProof library evidence now
  let value ← .examine inspect
  .examine noIntent
  .examine (acceptedProofs library value)
  let head ← currentHead library value evidence uuid
  .examine (onlyBound head)
  let alreadySealed ← .examine (sealedReceipt head)
  archiveMembers library head alreadySealed head.files
  sealArchive head alreadySealed
  .examine (acceptedProofs library value)
  removeMembers library head.files
  completeArchive library head
  finishHead head
  pure (resumed value head)

end JobAgg.PendingPublication
