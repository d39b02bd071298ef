import JobAgg.PublicationArtifacts.PublicationArtifacts

/-! # What sidecars read as

In an intact store every object has the hash it is named by, and every sidecar names
objects that are there. Such a sidecar reads as the bytes it was sealed over, and goes on
to do so while objects are only added.
-/

namespace JobAgg.PublicationArtifacts

variable {Digest : Type} {hash : Bytes → Digest}

/-- A receipt over `parts`, of `path`. -/
structure Receipt.Covers (hash : Bytes → Digest) (receipt : Receipt Digest)
    (parts : List Bytes) : Prop where
  chunks : receipt.chunks = parts.map (fingerprintOf hash)
  sized : ∀ part ∈ parts, 0 < part.length ∧ part.length ≤ chunkBytes
  fingerprint : receipt.fingerprint = fingerprintOf hash parts.flatten

def Holds (hash : Bytes → Digest) (objects : Digest → Option Object) (parts : List Bytes) : Prop :=
  ∀ part ∈ parts, ∃ identity, objects (hash part) = some ⟨part, identity⟩

structure Intact (hash : Bytes → Digest) (artifacts : Artifacts Digest) : Prop where
  addressed : ∀ sha256 object, artifacts.objects sha256 = some object →
    hash object.bytes = sha256
  sidecars : ∀ path receipt, artifacts.sidecars path = some receipt →
    receipt.originalPath = path ∧
      ∃ parts, receipt.Covers hash parts ∧ Holds hash artifacts.objects parts

def content (artifacts : Artifacts Digest) (path : Evidence Digest) : Option Bytes :=
  match artifacts.files path with
  | some bytes => some bytes
  | none => (artifacts.sidecars path).map fun receipt =>
    (receipt.chunks.filterMap fun named =>
      (artifacts.objects named.sha256).map (·.bytes)).flatten

section

variable {artifacts later : Artifacts Digest} {path : Evidence Digest}
  {receipt : Receipt Digest} {parts : List Bytes} {part bytes : Bytes}

theorem Holds.mono {objects others : Digest → Option Object}
    (holds : Holds hash objects parts)
    (grown : ∀ sha256 object, objects sha256 = some object → others sha256 = some object) :
    Holds hash others parts := by
  intro part member
  obtain ⟨identity, found⟩ := holds part member
  exact ⟨identity, grown _ _ found⟩

theorem content_eq_flatten (bare : artifacts.files path = none)
    (found : artifacts.sidecars path = some receipt) (covers : receipt.Covers hash parts)
    (holds : Holds hash artifacts.objects parts) :
    content artifacts path = some parts.flatten := by
  have read : ∀ rest ⊆ parts, (rest.map (fingerprintOf hash)).filterMap (fun named =>
      (artifacts.objects named.sha256).map (·.bytes)) = rest := by
    intro rest inside
    induction rest with
    | nil => rfl
    | cons part rest induction =>
      obtain ⟨identity, here⟩ := holds part (inside List.mem_cons_self)
      have here : artifacts.objects (fingerprintOf hash part).sha256 =
          some ⟨part, identity⟩ := here
      rw [List.map_cons, List.filterMap_cons_some (b := part) (by rw [here]; rfl),
        induction (List.subset_of_cons_subset inside)]
  rw [content, bare]
  dsimp only
  rw [found, Option.map_some, covers.chunks, read parts (List.Subset.refl _)]

/-- Nothing changes but that objects are added. -/
structure Grown (before after : Artifacts Digest) : Prop where
  objects : ∀ sha256 object, before.objects sha256 = some object →
    after.objects sha256 = some object
  files : after.files = before.files

theorem Grown.refl (artifacts : Artifacts Digest) : Grown artifacts artifacts :=
  ⟨fun _ _ found => found, rfl⟩

theorem Grown.trans {first second third : Artifacts Digest} (one : Grown first second)
    (two : Grown second third) : Grown first third :=
  ⟨fun sha256 object found => two.objects sha256 object (one.objects sha256 object found),
    two.files.trans one.files⟩

theorem Grown.content (grown : Grown artifacts later) (intact : Intact hash artifacts)
    (same : later.sidecars path = artifacts.sidecars path) :
    content later path = content artifacts path := by
  cases there : artifacts.files path with
  | some bytes =>
    have after : later.files path = some bytes := by rw [grown.files, there]
    rw [PublicationArtifacts.content, PublicationArtifacts.content, there, after]
  | none =>
    have after : later.files path = none := by rw [grown.files, there]
    cases found : artifacts.sidecars path with
    | none =>
      rw [PublicationArtifacts.content, PublicationArtifacts.content, there, after, same,
        found]
      rfl
    | some receipt =>
      obtain ⟨-, parts, covers, holds⟩ := intact.sidecars path receipt found
      rw [content_eq_flatten there found covers holds,
        content_eq_flatten after (same.trans found) covers (holds.mono grown.objects)]

variable [DecidableEq Digest]

theorem chunk_eq_ok (holds : Holds hash artifacts.objects parts) (member : part ∈ parts) :
    chunk hash artifacts (fingerprintOf hash part) = .ok part := by
  obtain ⟨identity, found⟩ := holds part member
  have here : artifacts.objects (fingerprintOf hash part).sha256 = some ⟨part, identity⟩ := found
  rw [chunk, here]
  simp [require, bind, Except.bind, pure, Except.pure]

theorem mapM_chunk (holds : Holds hash artifacts.objects parts) :
    (parts.map (fingerprintOf hash)).mapM (chunk hash artifacts) = .ok parts := by
  induction parts with
  | nil => rfl
  | cons part rest induction =>
    have below : Holds hash artifacts.objects rest :=
      fun other member => holds other (List.mem_cons_of_mem _ member)
    rw [List.map_cons, List.mapM_cons, chunk_eq_ok holds List.mem_cons_self, ok_bind,
      induction below, ok_bind]
    rfl

theorem readChunks_eq_ok (covers : receipt.Covers hash parts)
    (holds : Holds hash artifacts.objects parts) :
    readChunks hash artifacts receipt = .ok parts.flatten := by
  rw [readChunks, covers.chunks, mapM_chunk holds, ok_bind]
  rfl

theorem verify_eq_ok (covers : receipt.Covers hash parts)
    (holds : Holds hash artifacts.objects parts) :
    verify hash artifacts receipt = .ok () := by
  rw [verify, readChunks_eq_ok covers holds, ok_bind, covers.fingerprint]
  simp [fingerprintOf]

theorem manifest_eq_ok (found : artifacts.sidecars path = some receipt)
    (own : receipt.originalPath = path) (covers : receipt.Covers hash parts) :
    manifest artifacts path = .ok receipt := by
  have sized : each (fun named : Fingerprint Digest =>
      require (decide (0 < named.size ∧ named.size ≤ chunkBytes))
        "invalid_publication_artifact_chunk") receipt.chunks = .ok () := by
    rw [each_eq_ok, covers.chunks, List.forall_mem_map]
    intro part member
    rw [require_eq_ok]
    exact decide_eq_true (covers.sized part member)
  have total : ((receipt.chunks.map (·.size)).sum == receipt.fingerprint.size) = true := by
    rw [covers.chunks, covers.fingerprint, List.map_map, beq_iff_eq, fingerprintOf,
      List.length_flatten]
    rfl
  rw [manifest, found]
  dsimp only
  rw [require_bind_eq_ok]
  refine ⟨beq_iff_eq.mpr own, ?_⟩
  rw [sized, ok_bind, require_bind_eq_ok]
  exact ⟨total, rfl⟩

theorem fingerprint_eq_ok (found : artifacts.sidecars path = some receipt)
    (own : receipt.originalPath = path) (covers : receipt.Covers hash parts)
    (holds : Holds hash artifacts.objects parts) :
    fingerprint hash artifacts path = .ok (some receipt.fingerprint) := by
  rw [fingerprint, found]
  dsimp only
  rw [manifest_eq_ok found own covers, ok_bind, verify_eq_ok covers holds, ok_bind]
  rfl

theorem Intact.read (intact : Intact hash artifacts) (bare : artifacts.files path = none)
    (found : artifacts.sidecars path = some receipt) :
    ∃ bytes, content artifacts path = some bytes ∧
      receipt.fingerprint = fingerprintOf hash bytes ∧
      manifest artifacts path = .ok receipt ∧
      fingerprint hash artifacts path = .ok (some (fingerprintOf hash bytes)) ∧
      openArtifact hash artifacts path = .ok bytes := by
  obtain ⟨own, parts, covers, holds⟩ := intact.sidecars path receipt found
  refine ⟨parts.flatten, content_eq_flatten bare found covers holds, covers.fingerprint,
    manifest_eq_ok found own covers, ?_, ?_⟩
  · rw [← covers.fingerprint]
    exact fingerprint_eq_ok found own covers holds
  · rw [openArtifact, manifest_eq_ok found own covers, ok_bind, verify_eq_ok covers holds, ok_bind,
      readChunks_eq_ok covers holds]

end

end JobAgg.PublicationArtifacts
