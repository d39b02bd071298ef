import JobAgg.Foundation.Table
import JobAgg.PublicationExports.Validity

/-! # The steps of an export pass keep the disk valid

Each part of a round is judged from a valid disk: what it may change until it is stopped,
and what it has done when it returns. It raises only at a live file that somebody else
replaced.
-/

namespace JobAgg.PublicationExports

open PublicationArtifacts Durable

variable {Digest : Type} {library : Library Digest} {plan : Plan} {items : List Item}
  {original foreign : String → Option Bytes}

/-- A step of the round of `path`: the disk stays valid, and the live files and the
checkpoints of the other items do not change. -/
structure Around (library : Library Digest) (plan : Plan) (items : List Item)
    (original foreign : String → Option Bytes) (path : String)
    (before after : Disk Digest) : Prop where
  valid : Valid library plan items original foreign after
  targets : ∀ other, other ≠ path → after.targets other = before.targets other
  entries : ∀ other, other ≠ path → lookup other after.entries = lookup other before.entries

def Evidential (library : Library Digest) (plan : Plan) (items : List Item)
    (original foreign : String → Option Bytes) (before after : Disk Digest) : Prop :=
  Valid library plan items original foreign after ∧
    ∃ artifacts, after = before.putArtifacts artifacts

def Held (plan : Plan) (journal : Journal Digest) (disk : Disk Digest) : Prop :=
  journal.entries = disk.entries ∧ journal.generationId = plan.generationId

section

variable {disk before middle after : Disk Digest} {path : String}
  {checkpoint changed : Checkpoint Digest} {item : Item} {journal : Journal Digest}

theorem Around.refl (valid : Valid library plan items original foreign disk) :
    Around library plan items original foreign path disk disk :=
  ⟨valid, fun _ _ => rfl, fun _ _ => rfl⟩

theorem Around.trans (one : Around library plan items original foreign path before middle)
    (two : Around library plan items original foreign path middle after) :
    Around library plan items original foreign path before after :=
  ⟨two.valid, fun other apart => (two.targets other apart).trans (one.targets other apart),
    fun other apart => (two.entries other apart).trans (one.entries other apart)⟩

theorem Evidential.around (changes : Evidential library plan items original foreign before after) :
    Around library plan items original foreign path before after := by
  obtain ⟨valid, artifacts, rfl⟩ := changes
  exact ⟨valid, fun _ _ => rfl, fun _ _ => rfl⟩

theorem Around.putJournal
    (valid : Valid library plan items original foreign (disk.putJournal (journal.put path changed)))
    (held : Held plan journal disk) :
    Around library plan items original foreign path disk
      (disk.putJournal (journal.put path changed)) := by
  refine ⟨valid, fun _ _ => rfl, fun other apart => ?_⟩
  rw [entries_putJournal, lookup_put, if_neg apart, held.1]

theorem Held.putJournal (held : Held plan journal disk) (path : String)
    (changed : Checkpoint Digest) :
    Held plan (journal.put path changed) (disk.putJournal (journal.put path changed)) :=
  ⟨rfl, held.2⟩

theorem Recorded.change
    (recorded : Recorded library plan items original foreign disk path checkpoint)
    (changed : Checkpoint Digest) (same : changed.item = checkpoint.item ∧ changed.prepared = checkpoint.prepared ∧
      changed.new = checkpoint.new ∧ changed.old = checkpoint.old ∧
      changed.oldStateKnown = checkpoint.oldStateKnown ∧
      changed.contentAddressed = checkpoint.contentAddressed)
    (backup : changed.backupPath = checkpoint.backupPath ∨
      ∃ backup, changed.backupPath = some backup ∧ backup.generation = plan.generationRoot ∧
        backup.directory ≠ .exportsV2 ∧
        ∃ bytes, original path = some bytes ∧ disk.content backup = some bytes) :
    Recorded library plan items original foreign disk path changed := by
  obtain ⟨item, prepared, new, old, known, addressed⟩ := same
  refine ⟨item ▸ recorded.item, item ▸ recorded.named, ?_, ?_, old.trans recorded.old,
    known.trans recorded.known, addressed.trans recorded.addressed, ?_, ?_, ?_, ?_⟩
  · rw [prepared, item, recorded.prepared]
  · rw [new, item, recorded.new]
  · rw [prepared, item, recorded.reads]
  · intro chosen found
    rcases backup with kept | ⟨given, here, own, directory, reads⟩
    · exact recorded.backup chosen (kept ▸ found)
    · rw [here] at found
      cases found
      exact ⟨own, directory, reads⟩
  · intro undisturbed
    rw [item]
    rcases recorded.target undisturbed with same | ⟨replaced, backed⟩
    · exact .inl same
    · refine .inr ⟨replaced, fun bytes was apart => ?_⟩
      rcases backup with kept | ⟨given, here, -⟩
      · rw [kept]
        exact backed bytes was apart
      · rw [here]
        rfl
  · rw [item]
    exact recorded.disturbed

variable {raises : String → Disk Digest → Prop}

theorem onArtifacts_meets {Result : Type} {computation : Durable (Artifacts Digest) Result}
    {evidence : Evidence Digest} {bytes : Bytes} (returns : Result → Artifacts Digest → Prop)
    (valid : Valid library plan items original foreign disk)
    (writable : Writable library plan disk evidence bytes)
    (meets : Meets computation disk.artifacts (Seals library.hash evidence bytes)
      (fun result after => Seals library.hash evidence bytes disk.artifacts after ∧
        returns result after) fun _ _ => False) :
    Meets (onArtifacts computation) disk (Evidential library plan items original foreign)
      (fun result after => ∃ artifacts, after = disk.putArtifacts artifacts ∧
        Valid library plan items original foreign after ∧ returns result artifacts)
      raises := by
  have kept : ∀ later, Seals library.hash evidence bytes disk.artifacts later →
      Valid library plan items original foreign (disk.putArtifacts later) :=
    fun later seals => valid.rewrites writable (.of_seals valid.intact seals)
  apply Meets.within
  · rfl
  · apply (meets.since fun one two => one.trans two).mono
    · exact fun _ _ allowed => allowed
    · rintro result later ⟨seals, returned⟩
      exact ⟨later, rfl, kept later seals, returned⟩
    · exact fun _ _ impossible => impossible.elim
  · intro before later seals
    exact ⟨kept later seals, later, rfl⟩

theorem writable_prepared (agree : Agree library items) (member : item ∈ items)
    (valid : Valid library plan items original foreign disk) :
    Writable library plan disk (preparedPath plan item) (rendered library item) := by
  refine ⟨rfl, .inl ⟨rfl, ?_⟩⟩
  intro key found there here
  have recorded := valid.recorded key found there
  rw [recorded.prepared] at here
  have names : fileName found.item.path = fileName item.path := congrArg Evidence.name here
  exact agree _ recorded.item _ member names

theorem content_putArtifacts {artifacts : Artifacts Digest} {evidence : Evidence Digest}
    {bytes : Bytes} (reads : content artifacts evidence = some bytes) :
    (disk.putArtifacts artifacts).content evidence = some bytes := by
  show (content artifacts evidence).or _ = some bytes
  rw [reads, Option.some_or]

variable [DecidableEq Digest]

theorem copySealed_meets {source target : Place Digest} {bytes : Bytes}
    {expected : Fingerprint Digest} {targetBefore : Option (Fingerprint Digest)} {allows : Disk Digest → Disk Digest → Prop}
    (binds : expected = fingerprintOf library.hash bytes)
    (named : requireFile library disk source (some (fingerprintOf library.hash bytes))
      "export_copy_source_changed" = .ok ())
    (opened : openFile library disk source = .ok bytes)
    (found : fingerprint library disk target = .ok targetBefore)
    (readBack : requireFile library (disk.replace bytes target) target
      (some (fingerprintOf library.hash bytes)) "export_sealed_copy_readback_failed" = .ok ())
    (allowed : allows disk (disk.replace bytes target)) :
    Meets (copySealed library source target expected targetBefore) disk allows
      (fun _ after => after = disk.replace bytes target) raises := by
  subst binds
  apply Meets.bind
  apply Meets.examined (by exact named)
  apply Meets.bind
  apply Meets.examined (by exact opened)
  apply Meets.bind
  apply Meets.checked (by simp)
  apply Meets.bind
  apply Meets.examined (by exact found)
  apply Meets.bind
  apply Meets.checked (by simp)
  apply Meets.bind
  apply Meets.write allowed
  exact Meets.examined (by exact readBack) rfl

theorem Valid.putFile {evidence : Evidence Digest} {bytes : Bytes}
    (valid : Valid library plan items original foreign disk) (plain : plan.recordChunks = false)
    (writable : Writable library plan disk evidence bytes) :
    Valid library plan items original foreign (disk.replace bytes (.evidence evidence)) ∧
      (disk.replace bytes (.evidence evidence)).content evidence = some bytes := by
  have rewrites := Rewrites.putFile valid.intact evidence bytes
  rw [← plain] at rewrites
  refine ⟨valid.rewrites writable rewrites, ?_⟩
  have here : (disk.artifacts.putFile evidence bytes).files evidence = some bytes :=
    Function.update_self ..
  show (content (disk.artifacts.putFile evidence bytes) evidence).or _ = some bytes
  rw [content, here, Option.some_or]

theorem render_meets (agree : Agree library items) (member : item ∈ items)
    (valid : Valid library plan items original foreign disk) :
    Meets (render library plan item) disk (Evidential library plan items original foreign)
      (fun new after => new = fingerprintOf library.hash (rendered library item) ∧
        Evidential library plan items original foreign disk after ∧
        after.content (preparedPath plan item) = some (rendered library item))
      raises := by
  have writable := writable_prepared agree member valid
  rw [render]
  by_cases chunked : plan.recordChunks = true
  · rw [if_pos chunked]
    have bare : disk.artifacts.files (preparedPath plan item) = none :=
      valid.bare chunked (fileName item.path)
    have writing := writeRecords_meets (library.records item)
      library.hash_injective valid.intact bare
    apply (onArtifacts_meets (fun new later =>
      new = fingerprintOf library.hash (rendered library item) ∧
        content later (preparedPath plan item) = some (rendered library item)) valid writable
      ?_).mono
    · exact fun _ _ allowed => allowed
    · rintro new after ⟨artifacts, rfl, kept, named, reads⟩
      exact ⟨named, ⟨kept, artifacts, rfl⟩, content_putArtifacts reads⟩
    · exact fun _ _ raised => raised
    · apply writing.mono
      · exact fun _ _ allowed => allowed
      · rintro new later ⟨named, seals, reads⟩
        exact ⟨seals, named, reads⟩
      · exact fun _ _ impossible => impossible
  · rw [if_neg chunked]
    obtain ⟨kept, reads⟩ := valid.putFile (Bool.eq_false_iff.mpr chunked) writable
    apply Meets.bind
    apply Meets.write
    · exact ⟨kept, _, rfl⟩
    · exact .pure ⟨rfl, ⟨kept, _, rfl⟩, reads⟩

theorem foundLegacyBackup_eq_ok (item : Item)
    (valid : Valid library plan items original foreign disk) :
    ∃ found, foundLegacyBackup library disk plan item = .ok found := by
  have made : ∃ legacy, legacyBackup library disk plan item = .ok legacy := by
    rw [legacyBackup, fingerprint_evidence valid.intact, ok_bind]
    cases disk.content (backupPathOf plan item) with
    | none => exact ⟨_, rfl⟩
    | some bytes =>
      rw [Option.map_some]
      dsimp only
      split
      · exact ⟨_, rfl⟩
      · exact ⟨_, rfl⟩
  obtain ⟨legacy, same⟩ := made
  rw [foundLegacyBackup]
  split
  · rw [same, ok_bind]
    exact ⟨_, rfl⟩
  · exact ⟨_, rfl⟩

theorem renderCheckpoint_meets (agree : Agree library items) (member : item ∈ items)
    (valid : Valid library plan items original foreign disk)
    (absent : lookup item.path disk.entries = none) :
    Meets (renderCheckpoint library plan item
        ((disk.targets item.path).map (fingerprintOf library.hash))) disk
      (Evidential library plan items original foreign)
      (fun checkpoint after => Evidential library plan items original foreign disk after ∧
        Recorded library plan items original foreign after item.path checkpoint)
      raises := by
  obtain ⟨undisturbed, same⟩ := valid.untouched item.path absent
  apply Meets.bind
  apply (render_meets agree member valid).mono
  · exact fun _ _ allowed => allowed
  · rintro new after ⟨rfl, changes, reads⟩
    obtain ⟨kept, artifacts, rfl⟩ := changes
    obtain ⟨legacy, found⟩ := foundLegacyBackup_eq_ok item kept
    apply Meets.bind
    apply Meets.examined (by exact found)
    apply Meets.pure
    refine ⟨⟨kept, artifacts, rfl⟩, ?_⟩
    refine ⟨member, rfl, rfl, rfl, by rw [same], rfl, rfl, reads, ?_, fun _ => .inl same, ?_⟩
    · intro backup impossible
      cases impossible
    · intro bytes impossible
      rw [undisturbed] at impossible
      cases impossible
  · exact fun _ _ raised => raised

theorem loadCheckpoint_meets (agree : Agree library items) (member : item ∈ items)
    (valid : Valid library plan items original foreign disk) (held : Held plan journal disk) :
    Meets (loadCheckpoint library plan item (lookup item.path disk.receipts) journal) disk
      (Around library plan items original foreign item.path)
      (fun loaded after => Around library plan items original foreign item.path disk after ∧
        lookup item.path after.entries = some loaded.1 ∧ Held plan loaded.2 after ∧
        after.manifest = disk.manifest)
      raises := by
  rw [loadCheckpoint, held.1]
  cases there : lookup item.path disk.entries with
  | some checkpoint => exact .pure ⟨.refl valid, there, held, rfl⟩
  | none =>
    have unreceipted : lookup item.path disk.receipts = none := by
      cases found : lookup item.path disk.receipts with
      | none => rfl
      | some receipt =>
        obtain ⟨checkpoint, impossible, -⟩ := valid.receipts _ _ found
        rw [there] at impossible
        cases impossible
    rw [unreceipted]
    apply Meets.bind
    apply Meets.bind
    apply Meets.examined (by exact (rfl : fingerprint library disk (.live item.path) =
      .ok ((disk.targets item.path).map (fingerprintOf library.hash))))
    apply (renderCheckpoint_meets agree member valid there).mono
    · exact fun _ _ changes => changes.around
    · rintro checkpoint after ⟨changes, recorded⟩
      have around : Around library plan items original foreign item.path disk after :=
        changes.around
      obtain ⟨kept, artifacts, rfl⟩ := changes
      have carried : Held plan journal (disk.putArtifacts artifacts) := held
      have saved := kept.putJournal carried.1 carried.2 recorded (by
        intro found impossible
        rw [show lookup item.path (disk.putArtifacts artifacts).entries = none from there]
          at impossible
        cases impossible)
      have step := Around.putJournal saved carried
      apply Meets.bind
      apply Meets.write step
      apply Meets.pure
      refine ⟨around.trans step, ?_, carried.putJournal _ _, rfl⟩
      rw [entries_putJournal, lookup_put, if_pos rfl]
    · exact fun _ _ raised => raised

theorem validateCheckpoint_eq_ok (valid : Valid library plan items original foreign disk)
    (distinct : (items.map (·.path)).Nodup) (member : item ∈ items)
    (found : lookup item.path disk.entries = some checkpoint) :
    checkpoint.item = item ∧ validateCheckpoint library disk plan item checkpoint = .ok () := by
  have recorded := valid.recorded _ _ found
  have own : checkpoint.item = item :=
    eq_of_key_eq distinct recorded.item member recorded.named
  refine ⟨own, ?_⟩
  rw [validateCheckpoint, require_bind_eq_ok]
  refine ⟨beq_iff_eq.mpr own, ?_⟩
  rw [require_bind_eq_ok]
  refine ⟨by rw [recorded.prepared]; exact beq_self_eq_true _, ?_⟩
  rw [recorded.new, requireFile_evidence valid.intact recorded.reads, ok_bind]
  cases chosen : checkpoint.backupPath with
  | none => rfl
  | some backup =>
    obtain ⟨generation, -, bytes, was, reads⟩ := recorded.backup backup chosen
    dsimp only
    rw [require_bind_eq_ok]
    refine ⟨beq_iff_eq.mpr generation, ?_⟩
    rw [recorded.old, was]
    exact requireFile_evidence valid.intact reads

end

end JobAgg.PublicationExports
