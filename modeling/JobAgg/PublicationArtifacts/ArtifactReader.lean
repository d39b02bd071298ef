import JobAgg.PublicationArtifacts.Reading
import Mathlib.Data.PNat.Defs

/-! # Reading an artifact piece by piece

`open_artifact` hands out a buffered stream over a raw reader that goes from chunk to
chunk. Whatever sizes are asked for, the pieces are consecutive slices of the bytes.
-/

namespace JobAgg.PublicationArtifacts

structure Reader (Digest : Type) where
  chunks : List (Fingerprint Digest)
  pending : Bytes

variable {Digest : Type} [DecidableEq Digest] (hash : Bytes → Digest)
  (artifacts : Artifacts Digest)

namespace Reader

def serve (reader : Reader Digest) (pending : Bytes) (size : Nat) : Bytes × Reader Digest :=
  let length := min size pending.length
  (pending.take length, { reader with pending := pending.drop length })

/-- `_Reader.readinto`, of a buffer of `size` bytes: the bytes put into it. -/
def readinto (reader : Reader Digest) (size : Nat) : Except String (Bytes × Reader Digest) :=
  if reader.pending = [] then
    match reader.chunks with
    | [] => .ok ([], reader)
    | named :: rest => do
      let block ← chunk hash artifacts named
      pure (serve ⟨rest, []⟩ block size)
  else .ok (reader.serve reader.pending size)

end Reader

/-- `io.BufferedReader` over the raw reader. -/
structure ArtifactStream (Digest : Type) where
  reader : Reader Digest
  buffered : Bytes

namespace ArtifactStream

/-- `read(size)`: ask the raw reader until there are enough bytes or it has no more.
`request` is the size of the buffer that the stream passes it where so many are missing. -/
def read (request : Nat → ℕ+) (stream : ArtifactStream Digest) (size : Nat) :
    Except String (Bytes × ArtifactStream Digest) :=
  if size ≤ stream.buffered.length then
    .ok (stream.buffered.take size, { stream with buffered := stream.buffered.drop size })
  else
    match stream.reader.readinto hash artifacts (request (size - stream.buffered.length)) with
    | .error message => .error message
    | .ok (block, reader) =>
      if block = [] then .ok (stream.buffered, ⟨reader, []⟩)
      else read request ⟨reader, stream.buffered ++ block⟩ size
termination_by size - stream.buffered.length
decreasing_by
  have positive : 0 < block.length := List.length_pos_iff.mpr ‹_›
  rw [List.length_append]
  omega

def readEach (request : Nat → ℕ+) (stream : ArtifactStream Digest) :
    List Nat → Except String (List Bytes)
  | [] => .ok []
  | size :: rest => do
    let piece ← stream.read hash artifacts request size
    let later ← readEach request piece.2 rest
    pure (piece.1 :: later)

end ArtifactStream

def readPieces (request : Nat → ℕ+) (path : Evidence Digest) (sizes : List Nat) :
    Except String (List Bytes) := do
  let receipt ← manifest artifacts path
  verify hash artifacts receipt
  ArtifactStream.readEach hash artifacts request ⟨⟨receipt.chunks, []⟩, []⟩ sizes

/-- Consecutive slices, the later ones short or empty where nothing is left. -/
def slices : List Nat → Bytes → List Bytes
  | [], _ => []
  | size :: rest, bytes => bytes.take size :: slices rest (bytes.drop size)

variable {hash artifacts}

/-- The reader will hand out these bytes: what is pending, and then the parts. -/
structure Reader.Yields (hash : Bytes → Digest) (artifacts : Artifacts Digest)
    (reader : Reader Digest) (parts : List Bytes) (bytes : Bytes) : Prop where
  chunks : reader.chunks = parts.map (fingerprintOf hash)
  filled : ∀ part ∈ parts, 0 < part.length
  holds : Holds hash artifacts.objects parts
  bytes : bytes = reader.pending ++ parts.flatten

variable {reader : Reader Digest} {stream : ArtifactStream Digest} {parts : List Bytes}
  {pending bytes : Bytes} {size : Nat}

omit [DecidableEq Digest] in
theorem Reader.Yields.serve {before : Bytes} (yields : reader.Yields hash artifacts parts before)
    (whole : bytes = pending ++ parts.flatten) (size : Nat) :
    ∃ next, reader.serve pending size = (bytes.take (min size pending.length), next) ∧
      next.Yields hash artifacts parts (bytes.drop (min size pending.length)) := by
  refine ⟨⟨reader.chunks, pending.drop (min size pending.length)⟩, ?_, ?_⟩
  · rw [Reader.serve, whole, List.take_append_of_le_length (min_le_right _ _)]
  · refine ⟨yields.chunks, yields.filled, yields.holds, ?_⟩
    rw [whole, List.drop_append_of_le_length (min_le_right _ _)]

omit [DecidableEq Digest] in
theorem take_ne_nil {count : Nat} (positive : 0 < count) (some_ : 0 < bytes.length) :
    bytes.take count ≠ [] := by
  rw [ne_eq, List.take_eq_nil_iff, not_or]
  exact ⟨by omega, List.length_pos_iff.mp some_⟩

theorem Reader.Yields.readinto (yields : reader.Yields hash artifacts parts bytes)
    (wanted : 0 < size) :
    ∃ count next later, reader.readinto hash artifacts size = .ok (bytes.take count, next) ∧
      next.Yields hash artifacts later (bytes.drop count) ∧
      (bytes.take count = [] → bytes = []) := by
  rw [Reader.readinto]
  split
  case isTrue exhausted =>
    cases parts with
    | nil =>
      have done : bytes = [] := by
        rw [yields.bytes, exhausted]
        rfl
      rw [yields.chunks]
      refine ⟨0, reader, [], rfl, ?_, fun _ => done⟩
      rw [List.drop_zero]
      exact yields
    | cons part rest =>
      have ahead : Reader.Yields hash artifacts ⟨rest.map (fingerprintOf hash), []⟩ rest
          rest.flatten :=
        ⟨rfl, fun other member => yields.filled other (List.mem_cons_of_mem _ member),
          fun other member => yields.holds other (List.mem_cons_of_mem _ member), rfl⟩
      have whole : bytes = part ++ rest.flatten := by
        rw [yields.bytes, exhausted, List.flatten_cons]
        rfl
      have filled := yields.filled part List.mem_cons_self
      obtain ⟨next, served, later⟩ := ahead.serve whole size
      rw [yields.chunks, List.map_cons]
      simp only
      rw [chunk_eq_ok yields.holds List.mem_cons_self, ok_bind]
      refine ⟨_, next, rest, congrArg Except.ok served, later, ?_⟩
      intro nothing
      refine absurd nothing (take_ne_nil (by omega) ?_)
      rw [whole, List.length_append]
      omega
  case isFalse waiting =>
    have filled : 0 < reader.pending.length := List.length_pos_iff.mpr waiting
    obtain ⟨next, served, later⟩ := yields.serve yields.bytes size
    refine ⟨_, next, parts, congrArg Except.ok served, later, ?_⟩
    intro nothing
    refine absurd nothing (take_ne_nil (by omega) ?_)
    rw [yields.bytes, List.length_append]
    omega

/-- The stream will hand out these bytes: what is buffered, and then what the reader has. -/
def ArtifactStream.Yields (hash : Bytes → Digest) (artifacts : Artifacts Digest)
    (stream : ArtifactStream Digest) (bytes : Bytes) : Prop :=
  ∃ parts rest, stream.reader.Yields hash artifacts parts rest ∧ bytes = stream.buffered ++ rest

theorem ArtifactStream.Yields.read (request : Nat → ℕ+)
    (yields : stream.Yields hash artifacts bytes) (size : Nat) :
    ∃ next, stream.read hash artifacts request size = .ok (bytes.take size, next) ∧
      next.Yields hash artifacts (bytes.drop size) := by
  induction missing : size - stream.buffered.length using Nat.strong_induction_on
    generalizing stream with
  | _ count induction =>
    obtain ⟨parts, rest, ahead, whole⟩ := yields
    rw [ArtifactStream.read]
    split
    case isTrue enough =>
      refine ⟨⟨stream.reader, stream.buffered.drop size⟩, ?_, parts, rest, ahead, ?_⟩
      · rw [whole, List.take_append_of_le_length enough]
      · rw [whole, List.drop_append_of_le_length enough]
    case isFalse short =>
      obtain ⟨taken, next, later, served, onward, ending⟩ :=
        ahead.readinto (request (size - stream.buffered.length)).pos
      rw [served]
      simp only
      split
      case isTrue nothing =>
        have done : rest = [] := ending nothing
        subst done
        rw [List.append_nil] at whole
        subst whole
        refine ⟨⟨next, []⟩, ?_, later, [], ?_, ?_⟩
        · rw [List.take_of_length_le (by omega)]
        · rw [List.drop_nil] at onward
          exact onward
        · rw [List.drop_of_length_le (by omega)]
          rfl
      case isFalse something =>
        have positive : 0 < (rest.take taken).length := List.length_pos_iff.mpr something
        apply induction _ _ _ rfl
        · rw [List.length_append]
          omega
        · refine ⟨later, rest.drop taken, onward, ?_⟩
          rw [whole, List.append_assoc, List.take_append_drop]

theorem ArtifactStream.Yields.readEach (request : Nat → ℕ+)
    (yields : stream.Yields hash artifacts bytes) (sizes : List Nat) :
    stream.readEach hash artifacts request sizes = .ok (slices sizes bytes) := by
  induction sizes generalizing stream bytes with
  | nil => rfl
  | cons size rest induction =>
    obtain ⟨next, piece, onward⟩ := yields.read request size
    rw [ArtifactStream.readEach, piece, ok_bind, induction onward, ok_bind]
    rfl

theorem readPieces_eq_ok {path : Evidence Digest} {receipt : Receipt Digest}
    (found : artifacts.sidecars path = some receipt) (own : receipt.originalPath = path)
    (covers : receipt.Covers hash parts) (holds : Holds hash artifacts.objects parts)
    (request : Nat → ℕ+) (sizes : List Nat) :
    readPieces hash artifacts request path sizes = .ok (slices sizes parts.flatten) := by
  have yields : ArtifactStream.Yields hash artifacts ⟨⟨receipt.chunks, []⟩, []⟩ parts.flatten :=
    ⟨parts, parts.flatten,
      ⟨covers.chunks, fun part member => (covers.sized part member).1, holds, rfl⟩, rfl⟩
  rw [readPieces, manifest_eq_ok found own covers, ok_bind, verify_eq_ok covers holds, ok_bind]
  exact yields.readEach request sizes

end JobAgg.PublicationArtifacts
