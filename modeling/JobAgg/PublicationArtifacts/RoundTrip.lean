import JobAgg.Foundation.KnownHash
import JobAgg.PublicationArtifacts.ArtifactReader
import JobAgg.PublicationArtifacts.RecordWriter

/-! # What is written is what is read

An artifact reads as the bytes its writer was given, wherever the writer put boundaries
and whatever sizes the reader asks for, and so does a capture of it under another path.
-/

namespace JobAgg.PublicationArtifacts

open Durable RecordWriter

variable {Digest : Type} [DecidableEq Digest] (hash : Bytes → Digest)

/-- `retained_artifacts.open_artifact`, of a file that is there or has a sidecar. -/
def openOriginal (artifacts : Artifacts Digest) (source : Evidence Digest) : Except String Bytes :=
  match artifacts.files source with
  | some bytes => .ok bytes
  | none => openArtifact hash artifacts source

/-- `capture`: the blocks that are read of the source are given to a record writer. -/
def captureFrom (source target : Evidence Digest) (expected : Fingerprint Digest)
    (candidates : List (Evidence Digest)) : Durable (Artifacts Digest) Unit := do
  let reused ← .examine fun artifacts => reusable hash artifacts expected candidates
  match reused with
  | some receipt => sealReceipt hash target { receipt with originalPath := target }
  | none => do
    let bytes ← .examine fun artifacts => openOriginal hash artifacts source
    let written ← (create target false).performAll hash "\n"
      ((blocks bytes).map WriterCall.writeBytes)
    .check ((⟨hash written.digested, written.size⟩ : Fingerprint Digest) == expected)
      "publication_capture_source_changed"
    let _ ← written.sealWriter hash
    pure ()

variable {hash} {start : Artifacts Digest} {path source target : Evidence Digest}
  {bytes : Bytes} {linesep : String}

theorem writtenBytes_blocks (bytes : Bytes) :
    writtenBytes linesep false ((blocks bytes).map WriterCall.writeBytes) = bytes := by
  rw [writtenBytes, List.flatMap_map]
  show (blocks bytes).flatMap id = bytes
  rw [List.flatMap_id, blocks_flatten]

theorem captureFrom_meets (injective : Function.Injective hash) (intact : Intact hash start)
    (bare : start.files target = none) (reads : openOriginal hash start source = .ok bytes)
    (candidates : List (Evidence Digest)) :
    Meets (captureFrom hash source target (fingerprintOf hash bytes) candidates) start
      (Seals hash target bytes)
      (fun _ after => Seals hash target bytes start after ∧ content after target = some bytes)
      fun _ _ => False := by
  obtain ⟨reused, found, taken⟩ := reusable_eq_ok bytes injective intact candidates
  apply Meets.bind
  apply Meets.examined (by exact found)
  cases reused with
  | some receipt =>
    obtain ⟨parts, covers, holds, whole⟩ := taken receipt rfl
    have moved : Receipt.Covers hash { receipt with originalPath := target } parts :=
      ⟨covers.chunks, covers.sized, covers.fingerprint⟩
    have sealing := sealReceipt_meets target intact bare rfl moved holds
    rw [whole] at sealing
    exact sealing
  | none =>
    apply Meets.bind
    apply Meets.examined (by exact reads)
    apply Meets.bind
    apply (performAll_continues injective intact (stores_create target false start) _).mono
    · exact fun _ _ allowed => allowed
    · rintro written between ⟨seals, continues⟩
      obtain ⟨stored, kept⟩ := continues.stored
      have digested : written.digested = bytes := by
        rw [continues.digested]
        exact writtenBytes_blocks bytes
      have own : written.path = target := continues.path
      apply Meets.bind
      apply Meets.checked (by rw [kept.size, digested, beq_iff_eq]; rfl)
      apply Meets.bind
      have sealing := sealWriter_meets injective seals.intact kept own
        (by rw [seals.grown.files, bare])
      rw [digested] at sealing
      apply sealing.mono
      · exact fun _ _ allowed => allowed
      · rintro - after ⟨-, later, content⟩
        exact .pure ⟨seals.trans later, content⟩
      · exact fun _ _ impossible => impossible
    · exact fun _ _ impossible => impossible

/-! ## Reading back -/

/-- The artifact at `path` reads as these bytes in every way. -/
structure ReadsBack (hash : Bytes → Digest) (artifacts : Artifacts Digest)
    (path : Evidence Digest) (bytes : Bytes) : Prop where
  fingerprint : PublicationArtifacts.fingerprint hash artifacts path =
    .ok (some ⟨hash bytes, bytes.length⟩)
  whole : openArtifact hash artifacts path = .ok bytes
  pieces : ∀ (request : Nat → ℕ+) (sizes : List Nat),
    readPieces hash artifacts request path sizes = .ok (slices sizes bytes)
  chunks : ∃ receipt, manifest artifacts path = .ok receipt ∧
    ∀ chunk ∈ receipt.chunks, 0 < chunk.size ∧ chunk.size ≤ chunkBytes

theorem Intact.readsBack (intact : Intact hash start) (bare : start.files path = none)
    (reads : content start path = some bytes) : ReadsBack hash start path bytes := by
  cases found : start.sidecars path with
  | none =>
    rw [content, bare] at reads
    simp only [found, Option.map_none, reduceCtorEq] at reads
  | some receipt =>
    obtain ⟨own, parts, covers, holds⟩ := intact.sidecars path receipt found
    have whole := content_eq_flatten bare found covers holds
    rw [reads, Option.some.injEq] at whole
    subst whole
    refine ⟨?_, ?_, ?_, receipt, manifest_eq_ok found own covers, ?_⟩
    · rw [fingerprint_eq_ok found own covers holds, covers.fingerprint]
      rfl
    · rw [openArtifact, manifest_eq_ok found own covers, ok_bind, verify_eq_ok covers holds,
        ok_bind, readChunks_eq_ok covers holds]
    · exact readPieces_eq_ok found own covers holds
    · intro chunk member
      rw [covers.chunks, List.mem_map] at member
      obtain ⟨part, inside, same⟩ := member
      rw [← same]
      exact covers.sized part inside

def isWrite : WriterCall → Bool
  | .write _ => true
  | .writeBytes _ => true
  | .flush => false
  | .recordBoundary => false

theorem writtenBytes_filter (translateNewlines : Bool) (calls : List WriterCall) :
    writtenBytes linesep translateNewlines (calls.filter isWrite) =
      writtenBytes linesep translateNewlines calls := by
  induction calls with
  | nil => rfl
  | cons call rest induction =>
    rw [writtenBytes, writtenBytes, List.flatMap_cons] at *
    cases call with
    | write value => rw [List.filter_cons_of_pos (by rfl), List.flatMap_cons, induction]
    | writeBytes data => rw [List.filter_cons_of_pos (by rfl), List.flatMap_cons, induction]
    | flush => rw [List.filter_cons_of_neg (by decide), induction]; rfl
    | recordBoundary => rw [List.filter_cons_of_neg (by decide), induction]; rfl

/-- The round trip of an artifact: through the store and back in pieces of any size, through
a capture of it, and without a trace of where the boundaries were. Until `seal` returns,
nothing else is to be seen at its path than what was there. -/
theorem artifact_roundTrip (injective : Function.Injective hash) (intact : Intact hash start)
    (bare : start.files path = none) (linesep : String) (translateNewlines : Bool)
    (calls : List WriterCall) :
    ∃ later, Ran (writeAndSeal hash linesep path translateNewlines calls) start later
        ⟨hash (writtenBytes linesep translateNewlines calls),
          (writtenBytes linesep translateNewlines calls).length⟩ ∧
      ReadsBack hash (later.getLastD start) path (writtenBytes linesep translateNewlines calls) ∧
      (∀ states, Stopped (writeAndSeal hash linesep path translateNewlines calls) start states →
        ∀ state ∈ states, state.sidecars path = start.sidecars path ∨
          ReadsBack hash state path (writtenBytes linesep translateNewlines calls)) ∧
      (∀ others afterwards named, others.filter isWrite = calls.filter isWrite →
        Ran (writeAndSeal hash linesep path translateNewlines others) start afterwards named →
        ReadsBack hash (afterwards.getLastD start) path
          (writtenBytes linesep translateNewlines calls)) ∧
      ∀ target candidates, start.files target = none →
        ∃ captured, Ran (captureFrom hash path target
            ⟨hash (writtenBytes linesep translateNewlines calls),
              (writtenBytes linesep translateNewlines calls).length⟩ candidates)
            (later.getLastD start) captured () ∧
          ReadsBack hash (captured.getLastD (later.getLastD start)) target
            (writtenBytes linesep translateNewlines calls) := by
  have meets := fun others => @writeAndSeal_meets _ _ hash start path linesep injective intact bare
    translateNewlines others
  obtain ⟨named, outcome, same, seals, reads⟩ := (meets calls).returns_of_never_raises
  subst same
  have free : ∀ other, start.files other = none →
      ((writeAndSeal hash linesep path translateNewlines calls).final start).files other = none := by
    intro other absent
    rw [seals.grown.files, absent]
  have back := seals.intact.readsBack (free path bare) reads
  refine ⟨_, .of_outcome outcome, back, ?_, ?_, ?_⟩
  · intro states stopped state member
    have chain := stopped.isChain (meets calls)
    have sealed := @since_of_isChain _ start
      (Seals hash path (writtenBytes linesep translateNewlines calls)) states
      (fun {_ _ _} one two => one.trans two) chain state member
    cases sealed.own with
    | inl kept => exact .inl kept
    | inr content =>
      exact .inr (sealed.intact.readsBack (by rw [sealed.grown.files, bare]) content)
  · intro others afterwards named sameWrites ranOthers
    obtain ⟨-, -, others_, content⟩ := (meets others).ran ranOthers
    rw [← writtenBytes_filter translateNewlines calls, ← sameWrites,
      writtenBytes_filter translateNewlines others]
    exact others_.intact.readsBack (by rw [others_.grown.files, bare]) content
  · intro target candidates absent
    have opened : openOriginal hash
        ((writeAndSeal hash linesep path translateNewlines calls).final start) path =
        .ok (writtenBytes linesep translateNewlines calls) := by
      rw [openOriginal, free path bare]
      exact back.whole
    have capturing := captureFrom_meets injective seals.intact (free target absent) opened
      candidates
    obtain ⟨_, ended, captured, content⟩ := capturing.returns_of_never_raises
    refine ⟨_, .of_outcome ended, ?_⟩
    exact captured.intact.readsBack (by rw [captured.grown.files, free target absent]) content

/-! ## Two records of one export -/

namespace TwoRecords

/-- SHA-256 of the two records and of the export. -/
def sha256 : Bytes → String :=
  knownHash [([97, 10], "87428fc522803d31065e7bce3cf03fe475096631e5e07bbd7a0fde60c4cf25c7"),
    ([98], "3e23e8160039594a33894f6564e1b1348bbd7a0088d42c4acb73eeaed59c009d"),
    ([97, 10, 98], "7e18f737311b2dc3b2f269dd78396b0351f14fb66efa879f768cb23181883c78")]

def calls : List WriterCall := [.writeBytes [97, 10], .recordBoundary, .writeBytes [98]]

def jobsPath : Evidence String := ⟨"generation", .exportsV2, "jobs.csv"⟩

def copyPath : Evidence String := ⟨"next-generation", .beforeExports, "jobs.csv"⟩

def nothing : Artifacts String := ⟨fun _ => none, fun _ => none, fun _ => none, 0⟩

theorem nothing_intact : Intact sha256 nothing :=
  ⟨fun _ _ found => (Option.some_ne_none _ found.symm).elim,
    fun _ _ found => (Option.some_ne_none _ found.symm).elim⟩

theorem sha256_injective : Function.Injective sha256 := knownHash_injective (by decide) (by decide)

/-- The two records are read back, one byte at a time, and captured under another path. -/
theorem artifact_roundTrip_appended :
    ∃ later, Ran (writeAndSeal sha256 "\n" jobsPath false calls) nothing later
        ⟨sha256 [97, 10, 98], 3⟩ ∧
      readPieces sha256 (later.getLastD nothing) (fun _ => 1) jobsPath [1, 1, 5] =
        .ok [[97], [10], [98]] ∧
      ∃ captured, Ran (captureFrom sha256 jobsPath copyPath ⟨sha256 [97, 10, 98], 3⟩ [])
        (later.getLastD nothing) captured () := by
  obtain ⟨later, ran, back, -, -, capturing⟩ :=
    @artifact_roundTrip _ _ _ _ jobsPath sha256_injective nothing_intact rfl "\n" false calls
  obtain ⟨captured, copied, -⟩ := capturing copyPath [] rfl
  exact ⟨later, ran, back.pieces (fun _ => 1) [1, 1, 5], captured, copied⟩

end TwoRecords

end JobAgg.PublicationArtifacts
