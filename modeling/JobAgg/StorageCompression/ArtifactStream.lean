import JobAgg.Foundation.Checked
import Mathlib.Data.List.Infix

/-! # Streams of artifacts

An artifact is read block by block from a generator, which checks the length and the hash when
the last block was taken. A stream takes the end of its generator for these checks, and a
generator that failed or was closed ends as well. -/

namespace JobAgg.StorageCompression

variable (sha256 : List UInt8 → String)

/-- What the checks of the physical file, its reads and its decoder answer -/
structure PhysicalFile where
  verify : Except String Unit
  read : Nat → Except String (List UInt8)
  unchanged : Except String Unit

/-- A generator of the blocks of a file: the checks in front of the first block, after each block
with the bytes so far, and behind the last one -/
structure Reader where
  file : PhysicalFile
  admits : Except String Unit
  fits : Nat → Bool
  expectedSha256 : Option String
  expectedBytes : Option Nat

def iterDecompressed (file : PhysicalFile) (expectedSha256 : String)
    (expectedBytes maxOutputBytes : Nat) : Reader where
  file := file
  admits := require (decide (expectedBytes ≤ maxOutputBytes)) "ArtifactTooLargeError"
  fits := fun total => decide (total ≤ expectedBytes ∧ total ≤ maxOutputBytes)
  expectedSha256 := some expectedSha256
  expectedBytes := some expectedBytes

def iterLegacyFile (file : PhysicalFile) (expectedSha256 : Option String)
    (expectedBytes : Option Nat) (maxOutputBytes : Nat) : Reader where
  file := file
  admits := .ok ()
  fits := fun total => decide (total ≤ maxOutputBytes)
  expectedSha256 := expectedSha256
  expectedBytes := expectedBytes

inductive Iterator where
  | fresh
  | suspended (blocks : List (List UInt8))
  | returned (blocks : List (List UInt8))
  | spent
deriving DecidableEq

/-- What `next` on a generator does -/
inductive Resumed where
  | block (bytes : List UInt8)
  | stopped
  | raised (error : String)
deriving DecidableEq

namespace Reader

variable (reader : Reader)

def finish (blocks : List (List UInt8)) : Except String Unit := do
  reader.file.unchanged
  require (reader.expectedBytes.all (· == blocks.flatten.length)) "ArtifactIntegrityError"
  require (reader.expectedSha256.all (· == sha256 blocks.flatten)) "ArtifactIntegrityError"

/-- The loop of a generator, from one block to the next -/
def advance (blocks : List (List UInt8)) : Iterator × Resumed :=
  match reader.file.read blocks.length with
  | .error error => (.spent, .raised error)
  | .ok [] =>
    match reader.finish sha256 blocks with
    | .error error => (.spent, .raised error)
    | .ok () => (.returned blocks, .stopped)
  | .ok (byte :: bytes) =>
    if reader.fits (blocks.flatten.length + (byte :: bytes).length) then
      (.suspended (blocks ++ [byte :: bytes]), .block (byte :: bytes))
    else (.spent, .raised "ArtifactTooLargeError")

/-- `next`, on a generator -/
def resume : Iterator → Iterator × Resumed
  | .fresh =>
    match reader.admits, reader.file.verify with
    | .ok (), .ok () => reader.advance sha256 []
    | .error error, _ => (.spent, .raised error)
    | .ok (), .error error => (.spent, .raised error)
  | .suspended blocks => reader.advance sha256 blocks
  | .returned blocks => (.returned blocks, .stopped)
  | .spent => (.spent, .stopped)

end Reader

/-- `close`, on a generator -/
def Iterator.closed : Iterator → Iterator
  | .returned blocks => .returned blocks
  | _ => .spent

/-- How an artifact is stored -/
inductive Representation where
  | identity
  | compressed
  | legacyHot
  | coldArchive
deriving DecidableEq

structure ObjectDescriptor where
  logicalSha256 : String
  logicalBytes : Nat
deriving DecidableEq

/-- `_open_logical_artifact`: the generator of a representation -/
def openReader (descriptor : ObjectDescriptor) (file : PhysicalFile) (maxOutputBytes : Nat) :
    Representation → Reader
  | .identity | .legacyHot =>
    iterLegacyFile file (some descriptor.logicalSha256) (some descriptor.logicalBytes)
      maxOutputBytes
  | .compressed | .coldArchive =>
    iterDecompressed file descriptor.logicalSha256 descriptor.logicalBytes maxOutputBytes

structure ArtifactStream where
  complete : Bool
  consumed : Nat
  iterator : Iterator
deriving DecidableEq

namespace ArtifactStream

/-- `__init__` -/
def new : ArtifactStream := ⟨false, 0, .fresh⟩

/-- `__next__`, with `none` for `StopIteration` -/
def next (reader : Reader) (stream : ArtifactStream) :
    ArtifactStream × Except String (Option (List UInt8)) :=
  match reader.resume sha256 stream.iterator with
  | (iterator, .block bytes) =>
    ({ stream with iterator := iterator, consumed := stream.consumed + bytes.length },
      .ok (some bytes))
  | (iterator, .stopped) => ({ stream with iterator := iterator, complete := true }, .ok none)
  | (iterator, .raised error) => ({ stream with iterator := iterator }, .error error)

def close (stream : ArtifactStream) : ArtifactStream :=
  if !stream.complete then { stream with iterator := stream.iterator.closed } else stream

def abandon (stream : ArtifactStream) : ArtifactStream × Except String Unit :=
  if stream.consumed ≠ 0 then (stream, .error "ArtifactReadIncompleteError")
  else ({ stream.close with complete := true }, .ok ())

/-- `__exit__`, of a context that is left without an exception -/
def exit (stream : ArtifactStream) : ArtifactStream × Except String Unit :=
  if !stream.complete then (stream.close, .error "ArtifactReadIncompleteError")
  else (stream, .ok ())

inductive Call where
  | next
  | close
  | abandon
deriving DecidableEq

def call (reader : Reader) (stream : ArtifactStream) : Call → ArtifactStream
  | .next => (stream.next sha256 reader).1
  | .close => stream.close
  | .abandon => stream.abandon.1

def after (reader : Reader) (calls : List Call) : ArtifactStream :=
  calls.foldl (call sha256 reader) new

end ArtifactStream

end JobAgg.StorageCompression
