import JobAgg.PublicationArtifacts.Writing
import JobAgg.PublicationExports.PublicationExports

/-! # What every stop of an export pass leaves

A live file reads as before the first pass or as rendered, and the second only when its
old bytes are in a backup. Every checkpoint names rendered bytes that are there.
`foreign` are the live files that somebody else replaced after their checkpoint.
-/

namespace JobAgg.PublicationExports

open PublicationArtifacts Durable

variable {Digest : Type}

/-- What `_export` writes for an item. -/
def rendered (library : Library Digest) (item : Item) : Bytes := (library.records item).flatten

def Agree (library : Library Digest) (items : List Item) : Prop :=
  ∀ one ∈ items, ∀ other ∈ items, fileName one.path = fileName other.path →
    rendered library one = rendered library other

namespace Disk

def content (disk : Disk Digest) (path : Evidence Digest) : Option Bytes :=
  (PublicationArtifacts.content disk.artifacts path).or (disk.retained path)

def entries (disk : Disk Digest) : List (String × Checkpoint Digest) :=
  (disk.journal.map (·.entries)).getD []

def receipts (disk : Disk Digest) : List (String × ExportReceipt Digest) :=
  disk.manifest.getD []

end Disk

/-- What a checkpoint of the journal says of the disk. -/
structure Recorded (library : Library Digest) (plan : Plan) (items : List Item)
    (original foreign : String → Option Bytes) (disk : Disk Digest) (path : String)
    (checkpoint : Checkpoint Digest) : Prop where
  item : checkpoint.item ∈ items
  named : checkpoint.item.path = path
  prepared : checkpoint.prepared = preparedPath plan checkpoint.item
  new : checkpoint.new = fingerprintOf library.hash (rendered library checkpoint.item)
  old : checkpoint.old = (original path).map (fingerprintOf library.hash)
  known : checkpoint.oldStateKnown = true
  addressed : checkpoint.contentAddressed = plan.recordChunks
  reads : disk.content checkpoint.prepared = some (rendered library checkpoint.item)
  backup : ∀ backup, checkpoint.backupPath = some backup →
    backup.generation = plan.generationRoot ∧ backup.directory ≠ .exportsV2 ∧
      ∃ bytes, original path = some bytes ∧ disk.content backup = some bytes
  target : foreign path = none →
    disk.targets path = original path ∨
      disk.targets path = some (rendered library checkpoint.item) ∧
        ∀ bytes, original path = some bytes →
          bytes ≠ rendered library checkpoint.item →
            checkpoint.backupPath.isSome
  disturbed : ∀ bytes, foreign path = some bytes →
    disk.targets path = some bytes ∧ original path ≠ some bytes ∧
      bytes ≠ rendered library checkpoint.item

structure Valid (library : Library Digest) (plan : Plan) (items : List Item)
    (original foreign : String → Option Bytes) (disk : Disk Digest) : Prop where
  intact : Intact library.hash disk.artifacts
  retained : ∀ path : Evidence Digest, path.generation = plan.generationRoot →
    disk.retained path = none
  bare : plan.recordChunks = true → ∀ name,
    disk.artifacts.files ⟨plan.generationRoot, .exportsV2, name⟩ = none
  verified : ∀ sha256 name bytes,
    disk.content ⟨plan.generationRoot, .beforeExportsVerified sha256, name⟩ = some bytes →
      library.hash bytes = sha256
  generation : ∀ journal, disk.journal = some journal →
    journal.generationId = plan.generationId
  untouched : ∀ path, lookup path disk.entries = none →
    foreign path = none ∧ disk.targets path = original path
  recorded : ∀ path checkpoint, lookup path disk.entries = some checkpoint →
    Recorded library plan items original foreign disk path checkpoint
  receipts : ∀ path receipt, lookup path disk.receipts = some receipt →
    ∃ checkpoint, lookup path disk.entries = some checkpoint ∧
      receipt = ⟨checkpoint.item, checkpoint.new.sha256, checkpoint.prepared⟩

/-- An evidence file may come to read as `bytes`, and no other changes. -/
structure Rewrites (hash : Bytes → Digest) (chunked : Bool) (path : Evidence Digest)
    (bytes : Bytes) (before after : Artifacts Digest) : Prop where
  intact : Intact hash after
  others : ∀ other, other ≠ path →
    PublicationArtifacts.content after other = PublicationArtifacts.content before other
  own : PublicationArtifacts.content after path = PublicationArtifacts.content before path ∨
    PublicationArtifacts.content after path = some bytes
  files : chunked = true → after.files = before.files

/-- Where an evidence file may be rewritten: it is a preparation that every checkpoint of
it agrees with, or a backup that is not there. -/
def Writable (library : Library Digest) (plan : Plan) (disk : Disk Digest)
    (path : Evidence Digest) (bytes : Bytes) : Prop :=
  path.generation = plan.generationRoot ∧
    ((path.directory = .exportsV2 ∧ ∀ key checkpoint,
        lookup key disk.entries = some checkpoint → checkpoint.prepared = path →
          rendered library checkpoint.item = bytes) ∨
      (path.directory ≠ .exportsV2 ∧ disk.content path = none ∧
        ∀ sha256, path.directory = .beforeExportsVerified sha256 → library.hash bytes = sha256))

section

variable {library : Library Digest} {plan : Plan} {items : List Item}
  {original foreign : String → Option Bytes} {disk : Disk Digest} {path : String}
  {checkpoint : Checkpoint Digest} {item : Item}

theorem Rewrites.of_seals {hash : Bytes → Digest} {chunked : Bool} {path : Evidence Digest}
    {bytes : Bytes} {before after : Artifacts Digest} (intact : Intact hash before)
    (seals : Seals hash path bytes before after) :
    Rewrites hash chunked path bytes before after where
  intact := seals.intact
  others _ apart := seals.content intact apart
  own := by
    rcases seals.own with same | sealed
    · exact .inl (seals.grown.content intact same)
    · exact .inr sealed
  files _ := seals.grown.files

theorem Valid.rewrites {after : Artifacts Digest} {path : Evidence Digest} {bytes : Bytes}
    (valid : Valid library plan items original foreign disk)
    (writable : Writable library plan disk path bytes)
    (rewrites : Rewrites library.hash plan.recordChunks path bytes disk.artifacts after) :
    Valid library plan items original foreign (disk.putArtifacts after) := by
  obtain ⟨root, place⟩ := writable
  have others : ∀ other, other ≠ path →
      (disk.putArtifacts after).content other = disk.content other := by
    intro other apart
    rw [Disk.content, Disk.content]
    exact congrArg (·.or (disk.retained other)) (rewrites.others other apart)
  have own : (disk.putArtifacts after).content path = disk.content path ∨
      (disk.putArtifacts after).content path = some bytes := by
    rw [Disk.content, Disk.content]
    rcases rewrites.own with same | written
    · exact .inl (congrArg (·.or (disk.retained path)) same)
    · refine .inr ?_
      show (PublicationArtifacts.content after path).or _ = some bytes
      rw [written, Option.some_or]
  have kept : ∀ other found, disk.content other = some found →
      (path.directory = .exportsV2 → other = path → found = bytes) →
        (disk.putArtifacts after).content other = some found := by
    intro other found there agrees
    by_cases here : other = path
    · subst here
      rcases own with same | written
      · rw [same, there]
      · rcases place with ⟨prepared, -⟩ | ⟨-, absent, -⟩
        · rw [written, agrees prepared rfl]
        · rw [absent] at there
          cases there
    · rw [others other here, there]
  refine ⟨rewrites.intact, valid.retained, ?_, ?_, valid.generation, valid.untouched, ?_,
    valid.receipts⟩
  · intro chunked name
    show after.files _ = none
    rw [rewrites.files chunked]
    exact valid.bare chunked name
  · intro sha256 name found there
    by_cases here : (⟨plan.generationRoot, .beforeExportsVerified sha256, name⟩ :
        Evidence Digest) = path
    · subst here
      rcases own with same | written
      · exact valid.verified sha256 name found (same ▸ there)
      · rcases place with ⟨prepared, -⟩ | ⟨-, -, addressed⟩
        · cases prepared
        · rw [written] at there
          cases there
          exact addressed sha256 rfl
    · rw [others _ here] at there
      exact valid.verified sha256 name found there
  · intro key checkpoint found
    have recorded := valid.recorded key checkpoint found
    refine ⟨recorded.item, recorded.named, recorded.prepared, recorded.new, recorded.old,
      recorded.known, recorded.addressed, ?_, ?_, recorded.target, recorded.disturbed⟩
    · apply kept _ _ recorded.reads
      intro prepared here
      rcases place with ⟨-, agrees⟩ | ⟨apart, -⟩
      · exact agrees key checkpoint found here
      · exact absurd prepared apart
    · intro backup chosen
      obtain ⟨own, directory, old, was, reads⟩ := recorded.backup backup chosen
      refine ⟨own, directory, old, was, kept _ _ reads ?_⟩
      intro prepared here
      rw [here] at directory
      exact absurd prepared directory

section Journalled

variable {journal : Journal Digest} {current : Option (Journal Digest)}

theorem entries_putJournal : (disk.putJournal journal).entries = journal.entries := rfl

theorem lookup_put {key other : String} :
    lookup other (journal.put key checkpoint).entries =
      if other = key then some checkpoint else lookup other journal.entries := by
  rw [Journal.put]
  by_cases same : other = key
  · rw [if_pos same, same, lookup_assign_self]
  · rw [if_neg same, lookup_assign_of_ne same]

theorem Valid.putJournal (valid : Valid library plan items original foreign disk)
    (same : journal.entries = disk.entries) (own : journal.generationId = plan.generationId)
    (recorded : Recorded library plan items original foreign disk path checkpoint)
    (kept : ∀ before, lookup path disk.entries = some before →
      checkpoint.item = before.item ∧ checkpoint.new = before.new ∧
        checkpoint.prepared = before.prepared) :
    Valid library plan items original foreign (disk.putJournal (journal.put path checkpoint)) := by
  refine ⟨valid.intact, valid.retained, valid.bare, valid.verified, ?_, ?_, ?_, ?_⟩
  · intro saved found
    cases found
    exact own
  · intro key absent
    rw [entries_putJournal, lookup_put] at absent
    by_cases here : key = path
    · rw [if_pos here] at absent
      cases absent
    · rw [if_neg here, same] at absent
      exact valid.untouched key absent
  · intro key saved found
    rw [entries_putJournal, lookup_put] at found
    by_cases here : key = path
    · rw [if_pos here] at found
      cases found
      subst here
      exact ⟨recorded.item, recorded.named, recorded.prepared, recorded.new, recorded.old,
        recorded.known, recorded.addressed, recorded.reads, recorded.backup, recorded.target,
        recorded.disturbed⟩
    · rw [if_neg here, same] at found
      have before := valid.recorded key saved found
      exact ⟨before.item, before.named, before.prepared, before.new, before.old, before.known,
        before.addressed, before.reads, before.backup, before.target, before.disturbed⟩
  · intro key receipt found
    obtain ⟨saved, there, named⟩ := valid.receipts key receipt found
    rw [entries_putJournal, lookup_put]
    by_cases here : key = path
    · subst here
      obtain ⟨item, new, prepared⟩ := kept saved there
      rw [if_pos rfl]
      exact ⟨checkpoint, rfl, by rw [named, item, new, prepared]⟩
    · rw [if_neg here, same]
      exact ⟨saved, there, named⟩

theorem Valid.putManifest (valid : Valid library plan items original foreign disk)
    (manifest : List (String × ExportReceipt Digest))
    (receipts : ∀ path receipt, lookup path manifest = some receipt →
      ∃ checkpoint, lookup path disk.entries = some checkpoint ∧
        receipt = ⟨checkpoint.item, checkpoint.new.sha256, checkpoint.prepared⟩) :
    Valid library plan items original foreign (disk.putManifest manifest) := by
  refine ⟨valid.intact, valid.retained, valid.bare, valid.verified, valid.generation,
    valid.untouched, ?_, receipts⟩
  intro key saved found
  have before := valid.recorded key saved found
  exact ⟨before.item, before.named, before.prepared, before.new, before.old, before.known,
    before.addressed, before.reads, before.backup, before.target, before.disturbed⟩

theorem Valid.putTarget (valid : Valid library plan items original foreign disk)
    (found : lookup path disk.entries = some checkpoint) (own : foreign path = none)
    (backed : ∀ bytes, original path = some bytes →
      bytes ≠ rendered library checkpoint.item → checkpoint.backupPath.isSome) :
    Valid library plan items original foreign
      (disk.putTarget path (rendered library checkpoint.item)) := by
  have others : ∀ other, other ≠ path →
      (disk.putTarget path (rendered library checkpoint.item)).targets other =
        disk.targets other := fun other apart => Function.update_of_ne apart ..
  refine ⟨valid.intact, valid.retained, valid.bare, valid.verified, valid.generation, ?_, ?_,
    valid.receipts⟩
  · intro key absent
    change lookup key disk.entries = none at absent
    have apart : key ≠ path := by
      rintro rfl
      rw [found] at absent
      cases absent
    obtain ⟨undisturbed, same⟩ := valid.untouched key absent
    exact ⟨undisturbed, (others key apart).trans same⟩
  · intro key saved there
    change lookup key disk.entries = some saved at there
    have before := valid.recorded key saved there
    refine ⟨before.item, before.named, before.prepared, before.new, before.old, before.known,
      before.addressed, before.reads, before.backup, ?_, ?_⟩
    · intro undisturbed
      by_cases here : key = path
      · subst here
        rw [found] at there
        cases there
        exact .inr ⟨Function.update_self .., backed⟩
      · rw [others key here]
        exact before.target undisturbed
    · intro bytes disturbed
      have apart : key ≠ path := by
        rintro rfl
        rw [own] at disturbed
        cases disturbed
      rw [others key apart]
      exact before.disturbed bytes disturbed

end Journalled

variable [DecidableEq Digest]

theorem fingerprint_evidence {path : Evidence Digest}
    (intact : Intact library.hash disk.artifacts) :
    fingerprint library disk (.evidence path) =
      .ok ((disk.content path).map (fingerprintOf library.hash)) := by
  rw [fingerprint, Disk.content]
  cases there : disk.artifacts.files path with
  | some bytes =>
    rw [content, there]
    rfl
  | none =>
    dsimp only
    cases found : disk.artifacts.sidecars path with
    | none =>
      have absent : PublicationArtifacts.fingerprint library.hash disk.artifacts path =
          .ok none := by
        rw [PublicationArtifacts.fingerprint, found]
      have empty : content disk.artifacts path = none := by
        rw [content, there]
        dsimp only
        rw [found, Option.map_none]
      rw [absent, ok_bind, empty, Option.none_or]
      rfl
    | some receipt =>
      obtain ⟨bytes, reads, -, -, named, -⟩ := intact.read there found
      rw [named, ok_bind, reads, Option.some_or, Option.map_some]
      rfl

theorem openFile_evidence {path : Evidence Digest} {bytes : Bytes}
    (intact : Intact library.hash disk.artifacts) (reads : disk.content path = some bytes) :
    openFile library disk (.evidence path) = .ok bytes := by
  rw [Disk.content] at reads
  rw [openFile]
  cases there : disk.artifacts.files path with
  | some found =>
    rw [content, there] at reads
    cases reads
    rfl
  | none =>
    dsimp only
    cases found : disk.artifacts.sidecars path with
    | none =>
      have empty : content disk.artifacts path = none := by
        rw [content, there]
        dsimp only
        rw [found, Option.map_none]
      rw [empty, Option.none_or] at reads
      rw [if_neg (by simp), reads]
      rfl
    | some receipt =>
      obtain ⟨held, read, -, -, -, opened⟩ := intact.read there found
      rw [read, Option.some_or] at reads
      cases reads
      rw [if_pos (by rfl), opened]

theorem requireFile_evidence {path : Evidence Digest} {bytes : Bytes} {reason : String}
    (intact : Intact library.hash disk.artifacts) (reads : disk.content path = some bytes) :
    requireFile library disk (.evidence path) (some (fingerprintOf library.hash bytes)) reason =
      .ok () := by
  rw [requireFile, fingerprint_evidence intact, ok_bind, reads]
  simp

theorem requireFile_live {bytes : Bytes} {reason : String}
    (reads : disk.targets path = some bytes) :
    requireFile library disk (.live path) (some (fingerprintOf library.hash bytes)) reason =
      .ok () := by
  rw [requireFile, fingerprint, ok_bind, reads]
  simp

omit [DecidableEq Digest] in
theorem fingerprintOf_inj {one other : Bytes}
    (same : fingerprintOf library.hash one = fingerprintOf library.hash other) : one = other :=
  library.hash_injective (congrArg Fingerprint.sha256 same)

theorem Rewrites.putFile {artifacts : Artifacts Digest} (intact : Intact library.hash artifacts)
    (path : Evidence Digest) (bytes : Bytes) :
    Rewrites library.hash false path bytes artifacts (artifacts.putFile path bytes) := by
  refine ⟨⟨intact.addressed, intact.sidecars⟩, ?_, .inr ?_, fun impossible => by cases impossible⟩
  · intro other apart
    have same : (artifacts.putFile path bytes).files other = artifacts.files other :=
      Function.update_of_ne apart ..
    rw [content, content, same]
    rfl
  · have here : (artifacts.putFile path bytes).files path = some bytes := Function.update_self ..
    rw [content, here]

end

end JobAgg.PublicationExports
