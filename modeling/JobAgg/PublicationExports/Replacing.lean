import JobAgg.PublicationExports.Steps

/-! # Backing up and replacing a live file

The backup of a live file is never an export of the generation and, once it reads as
something, never changes. Only then is the intent journalled and the live file replaced.
-/

namespace JobAgg.PublicationExports

open PublicationArtifacts Durable

variable {Digest : Type} {library : Library Digest} {plan : Plan}
  {items : List Item} {original foreign : String → Option Bytes} {disk : Disk Digest}
  {path : String} {checkpoint changed : Checkpoint Digest} {item : Item}
  {journal : Journal Digest} {bytes : Bytes} {chosen : Evidence Digest}
  {raises : String → Disk Digest → Prop}

/-- A place for the backup of `bytes`, and whether it is there already. -/
structure Chosen (library : Library Digest) (plan : Plan) (disk : Disk Digest) (bytes : Bytes)
    (chosen : Evidence Digest) (found : Option (Fingerprint Digest)) : Prop where
  generation : chosen.generation = plan.generationRoot
  directory : chosen.directory ≠ .exportsV2
  addressed : ∀ sha256, chosen.directory = .beforeExportsVerified sha256 →
    library.hash bytes = sha256
  absent : found = none → disk.content chosen = none
  present : found.isSome = true → disk.content chosen = some bytes

theorem Chosen.fresh (generation : chosen.generation = plan.generationRoot)
    (directory : chosen.directory ≠ .exportsV2)
    (addressed : ∀ sha256, chosen.directory = .beforeExportsVerified sha256 →
      library.hash bytes = sha256) (reads : disk.content chosen = none) :
    Chosen library plan disk bytes chosen none where
  generation := generation
  directory := directory
  addressed := addressed
  absent _ := reads
  present impossible := by cases impossible

theorem Chosen.kept {found : Fingerprint Digest}
    (generation : chosen.generation = plan.generationRoot)
    (directory : chosen.directory ≠ .exportsV2)
    (addressed : ∀ sha256, chosen.directory = .beforeExportsVerified sha256 →
      library.hash bytes = sha256) (reads : disk.content chosen = some bytes) :
    Chosen library plan disk bytes chosen (some found) where
  generation := generation
  directory := directory
  addressed := addressed
  absent impossible := by cases impossible
  present _ := reads

theorem Disk.files_eq_none (empty : disk.content chosen = none) :
    disk.artifacts.files chosen = none := by
  cases found : disk.artifacts.files chosen with
  | none => rfl
  | some held =>
    rw [Disk.content, PublicationArtifacts.content, found] at empty
    cases empty

variable [DecidableEq Digest]

theorem chooseBackup_eq_ok (valid : Valid library plan items original foreign disk)
    (there : lookup path disk.entries = some checkpoint) (was : original path = some bytes) :
    ∃ candidates chosen found,
      chooseBackup library disk plan checkpoint (fingerprintOf library.hash bytes) =
        .ok ({ checkpoint with unverifiedBackupCandidates := candidates }, chosen, found) ∧
      Chosen library plan disk bytes chosen found := by
  have recorded := valid.recorded _ _ there
  rw [chooseBackup]
  dsimp only
  rcases Option.eq_none_or_eq_some checkpoint.backupPath with given | ⟨backup, given⟩
  · have first : checkpoint.backupPath.getD (backupPathOf plan checkpoint.item) =
        backupPathOf plan checkpoint.item := by rw [given, Option.getD_none]
    have place : (backupPathOf plan checkpoint.item : Evidence Digest).directory ≠ .exportsV2 := by
      intro impossible
      cases impossible
    have unaddressed : ∀ sha256, (backupPathOf plan checkpoint.item : Evidence Digest).directory =
        .beforeExportsVerified sha256 → library.hash bytes = sha256 := by
      intro sha256 impossible
      cases impossible
    rw [first, fingerprint_evidence valid.intact, ok_bind]
    cases reads : disk.content (backupPathOf plan checkpoint.item) with
    | none =>
      exact ⟨checkpoint.unverifiedBackupCandidates, _, none, rfl,
        .fresh rfl place unaddressed reads⟩
    | some other =>
      rw [Option.map_some]
      dsimp only
      by_cases same : fingerprintOf library.hash other = fingerprintOf library.hash bytes
      · rw [if_pos same]
        have equal := fingerprintOf_inj same
        subst equal
        exact ⟨checkpoint.unverifiedBackupCandidates, _, _, rfl,
          .kept rfl place unaddressed reads⟩
      · rw [if_neg same, fingerprint_evidence valid.intact, ok_bind]
        have further : (verifiedBackupPath plan checkpoint.item
            (fingerprintOf library.hash bytes)).directory ≠ .exportsV2 := by
          intro impossible
          cases impossible
        have addressed : ∀ sha256, (verifiedBackupPath plan checkpoint.item
            (fingerprintOf library.hash bytes)).directory = .beforeExportsVerified sha256 →
            library.hash bytes = sha256 := by
          intro sha256 verified
          cases verified
          rfl
        cases kept : disk.content (verifiedBackupPath plan checkpoint.item
            (fingerprintOf library.hash bytes)) with
        | none => exact ⟨_, _, none, rfl, .fresh rfl further addressed kept⟩
        | some held =>
          have equal : held = bytes := library.hash_injective (valid.verified _ _ _ kept)
          subst equal
          refine ⟨checkpoint.unverifiedBackupCandidates ++
              [(backupPathOf plan checkpoint.item, fingerprintOf library.hash other)], _,
            some (fingerprintOf library.hash held), ?_, .kept rfl further addressed kept⟩
          rw [Option.map_some, require_bind_eq_ok]
          exact ⟨by simp, rfl⟩
  · have first : checkpoint.backupPath.getD (backupPathOf plan checkpoint.item) = backup := by
      rw [given, Option.getD_some]
    obtain ⟨generation, directory, held, same, reads⟩ := recorded.backup backup given
    rw [was] at same
    cases same
    rw [first, fingerprint_evidence valid.intact, ok_bind, reads, Option.map_some]
    dsimp only
    rw [if_pos rfl]
    refine ⟨checkpoint.unverifiedBackupCandidates, backup, _, rfl,
      .kept generation directory ?_ reads⟩
    intro sha256 verified
    apply valid.verified sha256 backup.name bytes
    rw [← generation, ← verified]
    exact reads

theorem copyBackup_meets (checkpoint : Checkpoint Digest)
    {found : Option (Fingerprint Digest)} (valid : Valid library plan items original foreign disk)
    (addressed : checkpoint.contentAddressed = plan.recordChunks)
    (live : disk.targets checkpoint.item.path = some bytes)
    (place : Chosen library plan disk bytes chosen found) :
    Meets (copyBackup library checkpoint (fingerprintOf library.hash bytes) chosen found) disk
      (Evidential library plan items original foreign)
      (fun _ after => Evidential library plan items original foreign disk after ∧
        after.content chosen = some bytes)
      raises := by
  cases found with
  | some found => exact .pure ⟨⟨valid, disk.artifacts, rfl⟩, place.present rfl⟩
  | none =>
    have empty := place.absent rfl
    have writable : Writable library plan disk chosen bytes :=
      ⟨place.generation, .inr ⟨place.directory, empty, place.addressed⟩⟩
    apply Meets.bind
    apply Meets.examined (by exact requireFile_live live)
    rw [addressed]
    by_cases chunked : plan.recordChunks = true
    · rw [if_pos chunked]
      have opened : openFile library disk (.live checkpoint.item.path) = .ok bytes := by
        rw [openFile, live]
        rfl
      apply Meets.bind
      apply Meets.examined (by exact opened)
      apply (onArtifacts_meets (fun _ later => content later chosen = some bytes)
        valid writable (capture_meets library.hash_injective valid.intact
          (Disk.files_eq_none empty) _)).mono
      · exact fun _ _ allowed => allowed
      · rintro - after ⟨artifacts, rfl, kept, reads⟩
        exact ⟨⟨kept, artifacts, rfl⟩, content_putArtifacts reads⟩
      · exact fun _ _ raised => raised
    · rw [if_neg chunked]
      obtain ⟨kept, reads⟩ := valid.putFile (Bool.eq_false_iff.mpr chunked) writable
      apply (copySealed_meets rfl (requireFile_live live) ?_ ?_ ?_ ?_).mono
      · exact fun _ _ allowed => allowed
      · rintro - after rfl
        exact ⟨⟨kept, _, rfl⟩, reads⟩
      · exact fun _ _ raised => raised
      · rw [openFile, live]
        rfl
      · rw [fingerprint_evidence valid.intact, empty]
        rfl
      · exact requireFile_evidence kept.intact reads
      · exact ⟨kept, _, rfl⟩

/-- What a backup leaves: a checkpoint whose old bytes are kept. -/
def BackedUp (library : Library Digest) (plan : Plan) (items : List Item)
    (original foreign : String → Option Bytes) (disk : Disk Digest) (path : String)
    (checkpoint changed : Checkpoint Digest) : Prop :=
  Recorded library plan items original foreign disk path changed ∧
    changed.item = checkpoint.item ∧ changed.new = checkpoint.new ∧
    changed.prepared = checkpoint.prepared ∧
    ∀ bytes, original path = some bytes → changed.backupPath.isSome

theorem makeBackup_meets (valid : Valid library plan items original foreign disk)
    (there : lookup path disk.entries = some checkpoint) (was : original path = some bytes)
    (same : disk.targets path = original path) :
    Meets (makeBackup library plan checkpoint (fingerprintOf library.hash bytes)) disk
      (Evidential library plan items original foreign)
      (fun changed after => Evidential library plan items original foreign disk after ∧
        BackedUp library plan items original foreign after path checkpoint changed)
      raises := by
  have recorded := valid.recorded _ _ there
  obtain ⟨candidates, chosen, found, choice, place⟩ := chooseBackup_eq_ok valid there was
  apply Meets.bind
  apply Meets.examined (by exact choice)
  have live : disk.targets checkpoint.item.path = some bytes := by
    rw [recorded.named, same, was]
  apply Meets.bind
  apply (copyBackup_meets { checkpoint with
    unverifiedBackupCandidates := candidates } valid recorded.addressed live place).mono
  · exact fun _ _ allowed => allowed
  · rintro - after ⟨changes, reads⟩
    obtain ⟨kept, artifacts, rfl⟩ := changes
    apply Meets.bind
    apply Meets.examined (by exact requireFile_evidence kept.intact reads)
    apply Meets.pure
    refine ⟨⟨kept, artifacts, rfl⟩, ?_, rfl, rfl, rfl, fun _ _ => rfl⟩
    refine (kept.recorded path checkpoint there).change _ ?_ ?_
    · exact ⟨rfl, rfl, rfl, rfl, rfl, rfl⟩
    · exact .inr ⟨chosen, rfl, place.generation, place.directory, bytes, was, reads⟩
  · exact fun _ _ raised => raised

theorem backup_meets (valid : Valid library plan items original foreign disk)
    (there : lookup path disk.entries = some checkpoint)
    (same : disk.targets path = original path)
    (differs : original path ≠ some (rendered library checkpoint.item)) :
    Meets (backup library plan checkpoint) disk
      (Evidential library plan items original foreign)
      (fun changed after => Evidential library plan items original foreign disk after ∧
        BackedUp library plan items original foreign after path checkpoint changed)
      raises := by
  have recorded := valid.recorded _ _ there
  rw [backup, if_pos recorded.known, recorded.old, recorded.new]
  cases was : original path with
  | none =>
    apply Meets.pure
    refine ⟨⟨valid, disk.artifacts, rfl⟩, ?_, rfl, recorded.new.symm, rfl, ?_⟩
    · refine recorded.change _ ?_ (.inl rfl)
      exact ⟨rfl, rfl, recorded.new.symm, by rw [recorded.old, was], rfl, rfl⟩
    · intro bytes impossible
      rw [was] at impossible
      cases impossible
  | some bytes =>
    have apart : fingerprintOf library.hash bytes ≠
        fingerprintOf library.hash (rendered library checkpoint.item) := by
      intro equal
      rw [was, fingerprintOf_inj equal] at differs
      exact differs rfl
    rw [Option.map_some]
    dsimp only
    rw [if_neg apart]
    exact makeBackup_meets valid there was same

structure Settled (library : Library Digest) (plan : Plan) (items : List Item)
    (original foreign : String → Option Bytes) (item : Item) (before after : Disk Digest)
    (checkpoint : Checkpoint Digest) (journal : Journal Digest) : Prop where
  around : Around library plan items original foreign item.path before after
  found : lookup item.path after.entries = some checkpoint
  held : Held plan journal after
  manifest : after.manifest = before.manifest
  target : after.targets item.path = some (rendered library item)
  undisturbed : foreign item.path = none

theorem replaceTarget_meets (valid : Valid library plan items original foreign disk)
    (held : Held plan journal disk)
    (there : lookup item.path disk.entries = some checkpoint) (own : checkpoint.item = item)
    (undisturbed : foreign item.path = none) (same : disk.targets item.path = original item.path)
    (differs : original item.path ≠ some (rendered library item)) :
    Meets (replaceTarget library plan item checkpoint journal
        ((disk.targets item.path).map (fingerprintOf library.hash))) disk
      (Around library plan items original foreign item.path)
      (fun settled after => Settled library plan items original foreign item disk after
        settled.1 settled.2)
      raises := by
  have recorded := valid.recorded _ _ there
  subst own
  have ready : replaceable checkpoint
      ((disk.targets checkpoint.item.path).map (fingerprintOf library.hash)) = true := by
    rw [replaceable, same, recorded.old, beq_self_eq_true, Bool.true_or]
  apply Meets.bind
  apply Meets.checked ready
  apply Meets.bind
  apply (backup_meets valid there same differs).mono
  · exact fun _ _ changes => changes.around
  · rintro changed middle ⟨changes, recorded', item', new', prepared', backed⟩
    have first : Around library plan items original foreign checkpoint.item.path disk middle :=
      changes.around
    obtain ⟨kept, artifacts, rfl⟩ := changes
    have carried : Held plan journal (disk.putArtifacts artifacts) := held
    have fits : ∀ before, lookup checkpoint.item.path disk.entries = some before →
        changed.item = before.item ∧ changed.new = before.new ∧
          changed.prepared = before.prepared := by
      intro before found
      rw [there] at found
      cases found
      exact ⟨item', new', prepared'⟩
    have verified : Recorded library plan items original foreign (disk.putArtifacts artifacts)
        checkpoint.item.path (changed.inPhase .backupVerified) :=
      recorded'.change _ ⟨rfl, rfl, rfl, rfl, rfl, rfl⟩ (.inl rfl)
    have saved := kept.putJournal carried.1 carried.2 verified fits
    have second := Around.putJournal saved carried
    have carried' := carried.putJournal checkpoint.item.path
      (changed.inPhase .backupVerified)
    apply Meets.bind
    apply Meets.write second
    have located : lookup checkpoint.item.path ((disk.putArtifacts artifacts).putJournal
        (journal.put checkpoint.item.path (changed.inPhase .backupVerified))).entries =
        some (changed.inPhase .backupVerified) := by
      rw [entries_putJournal, lookup_put, if_pos rfl]
    have intended := (saved.recorded _ _ located).change
      (changed.inPhase .replaceIntent) ⟨rfl, rfl, rfl, rfl, rfl, rfl⟩
      (.inl rfl)
    have saved' := saved.putJournal carried'.1 carried'.2 intended (by
      intro before found
      rw [located] at found
      cases found
      exact ⟨rfl, rfl, rfl⟩)
    have third := Around.putJournal saved' carried'
    have carried'' := carried'.putJournal checkpoint.item.path
      (changed.inPhase .replaceIntent)
    apply Meets.bind
    apply Meets.write third
    have located' : lookup checkpoint.item.path (((disk.putArtifacts artifacts).putJournal
        (journal.put checkpoint.item.path (changed.inPhase .backupVerified))).putJournal
        ((journal.put checkpoint.item.path (changed.inPhase .backupVerified)).put
          checkpoint.item.path (changed.inPhase .replaceIntent))).entries =
        some (changed.inPhase .replaceIntent) := by
      rw [entries_putJournal, lookup_put, if_pos rfl]
    apply Meets.bind
    apply Meets.examined (by exact rfl)
    apply Meets.bind
    apply Meets.checked (by exact beq_self_eq_true _)
    have reads := (saved'.recorded _ _ located').reads
    have replaced := saved'.putTarget located' undisturbed fun bytes was _ => backed bytes was
    have step : Around library plan items original foreign checkpoint.item.path _ _ :=
      ⟨replaced, fun other apart => Function.update_of_ne apart .., fun _ _ => rfl⟩
    have content' : (rendered library changed.item) = rendered library checkpoint.item := by
      rw [item']
    apply Meets.bind
    apply (copySealed_meets recorded'.new (requireFile_evidence saved'.intact reads)
      (openFile_evidence saved'.intact reads) rfl ?_ step).mono
    · exact fun _ _ allowed => allowed
    · rintro - after rfl
      apply Meets.pure
      refine ⟨first.trans (second.trans (third.trans step)), located', carried'', rfl, ?_,
        undisturbed⟩
      rw [← content']
      exact Function.update_self ..
    · exact fun _ _ raised => raised
    · apply requireFile_live
      exact Function.update_self ..
  · exact fun _ _ raised => raised

end JobAgg.PublicationExports
