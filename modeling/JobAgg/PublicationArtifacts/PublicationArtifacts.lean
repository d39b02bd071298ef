import Mathlib.Algebra.Order.Ring.Int
import JobAgg.Foundation.Checked
import JobAgg.Foundation.Durable

/-! # Export evidence in shared objects

`publication_artifacts.py`: the export files of a generation are kept as a sidecar that
names record chunks, and the chunks are immutable objects that generations share. A
record writer stores the chunks of an export one by one and seals the sidecar last.
-/

namespace JobAgg.PublicationArtifacts

abbrev Bytes : Type := List UInt8

def chunkBytes : Nat := 1024 * 1024

/-- `DIRECTORIES`. The last one has a directory for each hash. -/
inductive Directory (Digest : Type) where
  | exportsV2
  | beforeExports
  | beforeExportsVerified (sha256 : Digest)
  deriving DecidableEq

/-- The path of an export file of a generation. -/
structure Evidence (Digest : Type) where
  generation : String
  directory : Directory Digest
  name : String
  deriving DecidableEq

/-- `{"sha256": …, "size": …}`, of a file or of a chunk. -/
structure Fingerprint (Digest : Type) where
  sha256 : Digest
  size : Nat
  deriving DecidableEq

/-- A file of the object store. `identity` is what `stat` tells apart of two files. -/
structure Object where
  bytes : Bytes
  identity : Nat
  deriving DecidableEq

/-- A sidecar. -/
structure Receipt (Digest : Type) where
  originalPath : Evidence Digest
  fingerprint : Fingerprint Digest
  chunks : List (Fingerprint Digest)
  deriving DecidableEq

/-- The object store, the sidecars and the export files that are materialized. `created`
counts the objects that ever were created. -/
structure Artifacts (Digest : Type) where
  objects : Digest → Option Object
  sidecars : Evidence Digest → Option (Receipt Digest)
  files : Evidence Digest → Option Bytes
  created : Nat

variable {Digest : Type} [DecidableEq Digest]

namespace Artifacts

def putObject (sha256 : Digest) (bytes : Bytes) (artifacts : Artifacts Digest) :
    Artifacts Digest :=
  { artifacts with
    objects := Function.update artifacts.objects sha256 (some ⟨bytes, artifacts.created⟩)
    created := artifacts.created + 1 }

def putSidecar (path : Evidence Digest) (receipt : Receipt Digest)
    (artifacts : Artifacts Digest) : Artifacts Digest :=
  { artifacts with sidecars := Function.update artifacts.sidecars path (some receipt) }

def putFile (path : Evidence Digest) (bytes : Bytes) (artifacts : Artifacts Digest) :
    Artifacts Digest :=
  { artifacts with files := Function.update artifacts.files path (some bytes) }

end Artifacts

section Reading

variable (hash : Bytes → Digest) (artifacts : Artifacts Digest)

def fingerprintOf (bytes : Bytes) : Fingerprint Digest := ⟨hash bytes, bytes.length⟩

def manifest (path : Evidence Digest) : Except String (Receipt Digest) :=
  match artifacts.sidecars path with
  | none => .error "FileNotFoundError"
  | some receipt => do
    require (receipt.originalPath == path) "invalid_publication_artifact_manifest"
    each (fun chunk => require (decide (0 < chunk.size ∧ chunk.size ≤ chunkBytes))
      "invalid_publication_artifact_chunk") receipt.chunks
    require ((receipt.chunks.map (·.size)).sum == receipt.fingerprint.size)
      "publication_artifact_size_mismatch"
    pure receipt

def chunk (named : Fingerprint Digest) : Except String Bytes :=
  match artifacts.objects named.sha256 with
  | none => .error "FileNotFoundError"
  | some object => do
    require (fingerprintOf hash object.bytes == named) "publication_chunk_hash_changed"
    pure object.bytes

/-- What `_Reader` yields of a sidecar, all of it. -/
def readChunks (receipt : Receipt Digest) : Except String Bytes := do
  let blocks ← receipt.chunks.mapM (chunk hash artifacts)
  pure blocks.flatten

def verify (receipt : Receipt Digest) : Except String Unit := do
  let bytes ← readChunks hash artifacts receipt
  require (hash bytes == receipt.fingerprint.sha256) "publication_artifact_hash_changed"

def fingerprint (path : Evidence Digest) : Except String (Option (Fingerprint Digest)) :=
  match artifacts.sidecars path with
  | none => .ok none
  | some _ => do
    let receipt ← manifest artifacts path
    verify hash artifacts receipt
    pure (some receipt.fingerprint)

def openArtifact (path : Evidence Digest) : Except String Bytes := do
  let receipt ← manifest artifacts path
  verify hash artifacts receipt
  readChunks hash artifacts receipt

end Reading

section Writing

variable (hash : Bytes → Digest)

/-- `RecordWriter.record_boundary`, of the bytes that are pending. -/
def recordBoundary (data : Bytes) : Durable (Artifacts Digest) (Fingerprint Digest) := do
  let named := fingerprintOf hash data
  let exists_ ← .read fun artifacts => (artifacts.objects named.sha256).isSome
  if exists_ then
    let _ ← .examine fun artifacts => chunk hash artifacts named
    pure named
  else
    .write (·.putObject named.sha256 data)
    let _ ← .examine fun artifacts => chunk hash artifacts named
    pure named

/-- The blocks that `RecordWriter.write_bytes` cuts a record into, with the one that the
next boundary stores. -/
def blocks (data : Bytes) : List Bytes :=
  if data = [] then [] else data.take chunkBytes :: blocks (data.drop chunkBytes)
termination_by data.length
decreasing_by
  have positive : 0 < data.length := List.length_pos_iff.mpr ‹_›
  have block : 0 < chunkBytes := by decide
  rw [List.length_drop]
  omega

def writeBlocks : List Bytes → Durable (Artifacts Digest) (List (Fingerprint Digest))
  | [] => pure []
  | data :: rest => do
    let first ← recordBoundary hash data
    let later ← writeBlocks rest
    pure (first :: later)

/-- `_seal`. -/
def sealReceipt (path : Evidence Digest) (receipt : Receipt Digest) :
    Durable (Artifacts Digest) Unit := do
  .examine fun artifacts => require (artifacts.files path).isNone
    "publication_artifact_conflicts_with_materialized_file"
  .examine fun artifacts => verify hash artifacts receipt
  .write (·.putSidecar path receipt)
  .examine fun artifacts => do
    let found ← fingerprint hash artifacts path
    require (found == some receipt.fingerprint) "publication_artifact_readback_failed"

/-- A `RecordWriter` from its first record to `seal`. -/
def writeRecords (path : Evidence Digest) (records : List Bytes) :
    Durable (Artifacts Digest) (Fingerprint Digest) := do
  let chunks ← writeBlocks hash (records.flatMap blocks)
  let named := fingerprintOf hash records.flatten
  sealReceipt hash path ⟨path, named, chunks⟩
  pure named

def reusable (artifacts : Artifacts Digest) (expected : Fingerprint Digest) :
    List (Evidence Digest) → Except String (Option (Receipt Digest))
  | [] => .ok none
  | candidate :: rest => do
    let found ← fingerprint hash artifacts candidate
    if found = some expected then
      let receipt ← manifest artifacts candidate
      pure (some receipt)
    else
      reusable artifacts expected rest

/-- `capture`, of a source that reads as `source`. -/
def capture (source : Bytes) (target : Evidence Digest) (expected : Fingerprint Digest)
    (candidates : List (Evidence Digest)) : Durable (Artifacts Digest) Unit := do
  let reused ← .examine fun artifacts => reusable hash artifacts expected candidates
  match reused with
  | some receipt => sealReceipt hash target { receipt with originalPath := target }
  | none => do
    let chunks ← writeBlocks hash (blocks source)
    .check (fingerprintOf hash source == expected) "publication_capture_source_changed"
    sealReceipt hash target ⟨target, fingerprintOf hash source, chunks⟩

end Writing

end JobAgg.PublicationArtifacts
