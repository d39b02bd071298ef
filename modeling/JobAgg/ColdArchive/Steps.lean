import JobAgg.ColdArchive.Checks

/-! # Archiving and restoring, step by step

Every step keeps a valid store valid. `calm` says that the call began on a settled store:
then nothing raises, and the store is settled again whenever a temporary is gone.
-/

namespace JobAgg.ColdArchive

open Durable

variable {Bytes Digest : Type} [DecidableEq Digest] {library : Library Bytes Digest}
  {store : Store Bytes Digest} {originals : String → String → Option Bytes}
  {name relative : String} {completion : Completion Digest} {calm : Prop}
  {removable restorable : String → Prop}

/-- One step of a call. -/
def Changes (library : Library Bytes Digest) (originals : String → String → Option Bytes)
    (removable restorable : String → Prop) (before after : Store Bytes Digest) : Prop :=
  Valid library originals after ∧ Frame removable restorable before after

/-- A raise, which only a file with the link of a temporary can cause. -/
abbrev Disturbed (calm : Prop) (_ : String) (_ : Store Bytes Digest) : Prop := ¬ calm

/-- Between two operations. -/
structure Ready (library : Library Bytes Digest) (originals : String → String → Option Bytes)
    (calm : Prop) (store : Store Bytes Digest) : Prop where
  valid : Valid library originals store
  settled : calm → Settled store

/-- Objects were added. -/
structure Grown (library : Library Bytes Digest) (originals : String → String → Option Bytes)
    (calm : Prop) (before after : Store Bytes Digest) : Prop where
  ready : Ready library originals calm after
  generations : after.generations = before.generations
  objects : Extends before after

theorem Grown.refl (ready : Ready library originals calm store) :
    Grown library originals calm store store where
  ready := ready
  generations := rfl
  objects _ file found := ⟨file, found, rfl⟩

theorem Grown.trans {middle after : Store Bytes Digest}
    (first : Grown library originals calm store middle)
    (second : Grown library originals calm middle after) :
    Grown library originals calm store after where
  ready := second.ready
  generations := second.generations.trans first.generations
  objects sha256 file found := by
    obtain ⟨kept, present, same⟩ := first.objects sha256 file found
    obtain ⟨later, stays, equal⟩ := second.objects sha256 kept present
    exact ⟨later, stays, equal.trans same⟩

theorem meets_createObject {bytes : Bytes} (ready : Ready library originals calm store)
    (absent : store.objects (library.hash bytes) = none) :
    Meets (createObject library (library.hash bytes) bytes) store
      (Changes library originals removable restorable)
      (fun _ final => Grown library originals calm store final ∧
        (final.objects (library.hash bytes)).isSome) (Disturbed calm) := by
  have first : Valid library originals
      (store.putObject (library.hash bytes) ⟨library.compress bytes, true⟩) := by
    apply ready.valid.putObject
    · intro old found
      rw [absent] at found
      cases found
    · exact library.decompress_compress bytes
  have second : Valid library originals
      ((store.putObject (library.hash bytes) ⟨library.compress bytes, true⟩).putObject
        (library.hash bytes) ⟨library.compress bytes, false⟩) := by
    apply first.putObject
    · intro old found
      rw [Store.objects_putObject, Function.update_self, Option.some.injEq] at found
      rw [← found]
    · exact library.decompress_compress bytes
  apply Meets.bind
  apply Meets.write
  · exact ⟨first, frame_putObject⟩
  apply Meets.write
  · exact ⟨second, frame_putObject⟩
  refine ⟨⟨⟨second, fun quiet => ?_⟩, rfl, ?_⟩, by simp⟩
  · have same : (store.putObject (library.hash bytes) ⟨library.compress bytes, true⟩).putObject
        (library.hash bytes) ⟨library.compress bytes, false⟩ =
        store.putObject (library.hash bytes) ⟨library.compress bytes, false⟩ := by
      simp only [Store.putObject, Function.update_idem]
    rw [same]
    exact (ready.settled quiet).putObject rfl
  · intro sha256 file found
    have apart : sha256 ≠ library.hash bytes := by
      rintro rfl
      rw [absent] at found
      cases found
    exact ⟨file, by simp [Function.update_of_ne apart, found], rfl⟩

theorem meets_ensureObject {bytes : Bytes} (ready : Ready library originals calm store) :
    Meets (ensureObject library (library.hash bytes) bytes
        (store.objects (library.hash bytes))) store
      (Changes library originals removable restorable)
      (fun _ final => Grown library originals calm store final ∧
        (final.objects (library.hash bytes)).isSome) (Disturbed calm) := by
  cases present : store.objects (library.hash bytes) with
  | none => exact meets_createObject ready present
  | some file =>
    apply Meets.check
    · intro _
      exact ⟨.refl ready, by rw [present]; rfl⟩
    · intro linked quiet
      have unlinked := (ready.settled quiet).objects _ file present
      rw [unlinked] at linked
      cases linked

theorem meets_compressObject (ready : Ready library originals calm store)
    (source : calm → ∃ file, store.hot name relative = some file ∧ file.linked = false)
    (safe : (relative == "plan.json" || isBeforeimage relative) = true) :
    Meets (compressObject library name relative) store
      (Changes library originals removable restorable)
      (fun entry final => Grown library originals calm store final ∧
        ∃ file, store.hot name relative = some file ∧ EntryOf library final file.bytes entry)
      (Disturbed calm) := by
  apply Meets.bind
  apply Meets.examine
  · intro bytes read
    have present := hotFile_eq_ok read
    apply Meets.bind
    apply Meets.read
    apply Meets.bind
    apply (meets_ensureObject ready).mono (fun _ _ => id) _ fun _ _ => id
    rintro _ middle ⟨grown, made⟩
    obtain ⟨object, found⟩ := Option.isSome_iff_exists.mp made
    apply Meets.examine
    · intro entry entered
      exact ⟨grown, _, present, grown.ready.valid.objectEntry_eq_ok entered⟩
    · intro message failed quiet
      obtain ⟨entry, entered⟩ :=
        grown.ready.valid.objectEntry (grown.ready.settled quiet) found safe
      rw [entered] at failed
      cases failed
  · intro message failed quiet
    obtain ⟨file, present, unlinked⟩ := source quiet
    rw [hotFile_of_unlinked present unlinked] at failed
    cases failed

theorem meets_compressSources (sources : List String)
    (ready : Ready library originals calm store)
    (hot : ∀ relative ∈ sources, calm →
      ∃ file, store.hot name relative = some file ∧ file.linked = false)
    (safe : ∀ relative ∈ sources, (relative == "plan.json" || isBeforeimage relative) = true) :
    Meets (compressSources library name sources) store
      (Changes library originals removable restorable)
      (fun entries final => Grown library originals calm store final ∧
        entries.map Prod.fst = sources ∧ ∀ item ∈ entries, ∃ file,
          store.hot name item.1 = some file ∧ EntryOf library final file.bytes item.2)
      (Disturbed calm) := by
  induction sources generalizing store with
  | nil =>
    apply Meets.pure
    exact ⟨.refl ready, rfl, by simp⟩
  | cons relative rest induction =>
    rw [List.forall_mem_cons] at hot safe
    apply Meets.bind
    apply (meets_compressObject ready hot.1 safe.1).mono (fun _ _ => id) _ fun _ _ => id
    rintro entry middle ⟨grown, file, present, entryOf⟩
    have same : middle.hot = store.hot := by
      funext other path
      simp only [Store.hot, grown.generations]
    apply Meets.bind
    apply (induction grown.ready (by rw [same]; exact hot.2) safe.2).mono (fun _ _ => id) _
      fun _ _ => id
    rintro entries final ⟨later, keys, made⟩
    apply Meets.pure
    refine ⟨grown.trans later, by rw [List.map_cons, keys], ?_⟩
    rw [List.forall_mem_cons]
    refine ⟨⟨file, present, entryOf.extend later.objects⟩, ?_⟩
    rw [same] at made
    exact made

/-! ## The manifest and the removal -/

def sealedStore (store : Store Bytes Digest) (name : String) (manifest : Manifest Digest) :
    Store Bytes Digest :=
  store.putManifest name (some ⟨manifest.sorted, false⟩)

theorem meets_writeManifest {manifest : Manifest Digest}
    (ready : Ready library originals calm store)
    (result : (store.generations name).result = some completion)
    (unsealed : (store.generations name).manifest = none)
    (kept : Kept library (originals name) name (store.generations name).names store manifest) :
    Meets (writeManifest name manifest) store
      (Changes library originals removable restorable)
      (fun _ final => final = sealedStore store name manifest ∧
        Ready library originals calm final) (Disturbed calm) := by
  have completed : (store.generations name).result.isSome := by rw [result]; rfl
  have linked : Valid library originals (store.putManifest name (some ⟨manifest.sorted, true⟩)) :=
    ready.valid.sealManifest completed kept.sorted
  have same : (store.putManifest name (some ⟨manifest.sorted, true⟩)).putManifest name
      (some ⟨manifest.sorted, false⟩) = sealedStore store name manifest := by
    simp [sealedStore, Store.putManifest, Store.changeGeneration]
  have unlinked : Valid library originals (sealedStore store name manifest) :=
    ready.valid.sealManifest completed kept.sorted
  have step : Frame removable restorable
      (store.putManifest name (some ⟨manifest.sorted, true⟩))
      (sealedStore store name manifest) := by
    rw [← same]
    exact frame_putManifest
  apply Meets.bind
  apply Meets.examined (by rw [unsealed]; rfl)
  apply Meets.bind
  apply Meets.write
  · exact ⟨linked, frame_putManifest⟩
  apply Meets.write
  · rw [same]
    exact ⟨unlinked, step⟩
  · refine ⟨same, ?_⟩
    rw [same]
    exact ⟨unlinked, fun quiet => (ready.settled quiet).putManifest (by rintro _ ⟨⟩; rfl)⟩

structure Removing (library : Library Bytes Digest)
    (originals : String → String → Option Bytes) (calm : Prop) (name : String)
    (completion : Completion Digest) (store : Store Bytes Digest) : Prop where
  ready : Ready library originals calm store
  result : (store.generations name).result = some completion
  archived : (store.generations name).manifest.isSome

theorem meets_removeSource {entry : Entry Digest} (allowed : removable name)
    (removing : Removing library originals calm name completion store)
    (binds : Binds library (originals name) (relative, entry)) :
    Meets (removeSource library name relative entry (store.hot name relative)) store
      (Changes library originals removable restorable)
      (fun _ final => Removing library originals calm name completion final ∧
        final.hot name relative = none ∧
        ∀ path, store.hot name path = none → final.hot name path = none) (Disturbed calm) := by
  cases present : store.hot name relative with
  | none => exact .pure ⟨removing, present, fun _ => id⟩
  | some file =>
    obtain ⟨ready, result, archived⟩ := removing
    have completed : (store.generations name).result.isSome := by rw [result]; rfl
    have valid : Valid library originals (store.putHot name relative none) :=
      ready.valid.putHot archived (by rintro _ ⟨⟩)
    obtain ⟨bytes, known, sha256, size⟩ := binds
    apply Meets.bind
    apply Meets.examine
    · intro _ _
      apply Meets.bind
      apply Meets.write
      · exact ⟨valid, frame_removeHot allowed⟩
      apply Meets.pure
      refine ⟨⟨⟨valid, fun quiet => (ready.settled quiet).putHot (by rintro _ ⟨⟩)⟩, ?_, ?_⟩,
        ?_, ?_⟩
      · rw [Store.result_putHot, result]
      · rw [Store.manifest_putHot]
        exact archived
      · rw [Store.hot_putHot, if_pos ⟨rfl, rfl⟩]
      · intro path absent
        rw [Store.hot_putHot, absent, ite_self]
    · intro message failed quiet
      have verified : verifySource library store name relative entry
          "Source changed before cold removal" = .ok () :=
        (ready.valid.completed name completion result).verifySource (ready.settled quiet)
          completed known sha256 size
      rw [verified] at failed
      cases failed

theorem meets_removeVerifiedSources (allowed : removable name)
    (items : List (String × Entry Digest))
    (removing : Removing library originals calm name completion store)
    (binds : ∀ item ∈ items, Binds library (originals name) item) :
    Meets (removeVerifiedSources library name items) store
      (Changes library originals removable restorable)
      (fun _ final => Removing library originals calm name completion final ∧
        (∀ item ∈ items, final.hot name item.1 = none) ∧
        ∀ path, store.hot name path = none → final.hot name path = none) (Disturbed calm) := by
  induction items generalizing store with
  | nil => exact .pure ⟨removing, by simp, fun _ => id⟩
  | cons item rest induction =>
    obtain ⟨relative, entry⟩ := item
    rw [List.forall_mem_cons] at binds
    apply Meets.bind
    apply Meets.read
    apply Meets.bind
    apply (meets_removeSource allowed removing binds.1).mono (fun _ _ => id) _ fun _ _ => id
    rintro removed middle ⟨still, gone, stays⟩
    apply Meets.bind
    apply (induction still binds.2).mono (fun _ _ => id) _ fun _ _ => id
    rintro later final ⟨ends, others, keeps⟩
    apply Meets.pure
    refine ⟨ends, ?_, fun path absent => keeps path (stays path absent)⟩
    rw [List.forall_mem_cons]
    exact ⟨keeps relative gone, others⟩

/-! ## Archiving -/

/-- A generation that was archived: nothing of it is hot. -/
def Cold (store : Store Bytes Digest) (name : String) : Prop :=
  ∀ relative, store.hot name relative = none

theorem ValidGeneration.cold {names : List String} {manifest : Manifest Digest}
    {earlier : Store Bytes Digest}
    (valid : ValidGeneration library (originals name) name store completion)
    (kept : Kept library (originals name) name names earlier manifest)
    (same : (store.generations name).names = names)
    (gone : ∀ item ∈ manifest.objects, store.hot name item.1 = none) : Cold store name := by
  intro relative
  cases present : store.hot name relative with
  | none => rfl
  | some file =>
    have inFiles := (valid.hot relative file present).1
    rw [Generation.files, same] at inFiles
    obtain ⟨item, inObjects, rfl⟩ := List.mem_map.mp ((kept.keys relative).mpr inFiles)
    rw [gone item inObjects] at present
    cases present

theorem meets_removeAll {manifest : Manifest Digest} {earlier : Store Bytes Digest}
    {Value : Type} {value : Nat → Value} (allowed : removable name)
    (removing : Removing library originals calm name completion store)
    (kept : Kept library (originals name) name (store.generations name).names earlier
      manifest) :
    Meets (removeVerifiedSources library name manifest.objects >>= fun removed =>
        pure (value removed)) store (Changes library originals removable restorable)
      (fun result final => (∃ removed, result = value removed) ∧
        Ready library originals calm final ∧ Cold final name) (Disturbed calm) := by
  have removed : Meets (removeVerifiedSources library name manifest.objects) store
      (Changes library originals removable restorable) _ (Disturbed calm) :=
    (meets_removeVerifiedSources allowed manifest.objects removing kept.binds).reaches
      Frame.refl Frame.trans fun _ _ => And.right
  apply Meets.bind
  apply removed.mono (fun _ _ => id) _ fun _ _ => id
  rintro count final ⟨⟨ends, gone, -⟩, frame⟩
  apply Meets.pure
  refine ⟨⟨count, rfl⟩, ends.ready, ?_⟩
  exact (ends.ready.valid.completed name completion ends.result).cold kept
    (frame.names name) gone

theorem meets_resumeArchive {file : Sealed Digest} (allowed : removable name)
    (ready : Ready library originals calm store)
    (result : (store.generations name).result = some completion)
    (found : (store.generations name).manifest = some file) :
    Meets (resumeArchive library name) store (Changes library originals removable restorable)
      (fun archived final => archived.generationId = name ∧
        Ready library originals calm final ∧ Cold final name) (Disturbed calm) := by
  apply Meets.bind
  apply Meets.examine
  · intro manifest verified
    have same := verifyArchivedGeneration_eq_ok verified
    rw [found, Option.some.injEq] at same
    have kept := (ready.valid.completed name completion result).archived file found
    rw [same] at kept
    apply (meets_removeAll allowed ⟨ready, result, by rw [found]; rfl⟩ kept).mono
      (fun _ _ => id) _ fun _ _ => id
    rintro _ final ⟨⟨removed, rfl⟩, ends, cold⟩
    exact ⟨rfl, ends, cold⟩
  · intro message failed quiet
    rw [ready.valid.verifyArchivedGeneration (ready.settled quiet) result found] at failed
    cases failed

theorem ValidGeneration.kept {entries : List (String × Entry Digest)}
    {after : Store Bytes Digest}
    (valid : ValidGeneration library (originals name) name store completion)
    (unsealed : (store.generations name).manifest = none)
    (keys : entries.map Prod.fst = hotSources store name)
    (made : ∀ item ∈ entries, ∃ file, store.hot name item.1 = some file ∧
      EntryOf library after file.bytes item.2) :
    Kept library (originals name) name (store.generations name).names after
      { generationId := name, archiveRoot := library.archiveRoot, objects := entries } where
  generationId := rfl
  archiveRoot := rfl
  keys relative := by
    rw [keys]
    exact valid.mem_hotSources unsealed
  entries item inObjects := by
    obtain ⟨file, present, entryOf⟩ := made item inObjects
    exact ⟨file.bytes, (valid.hot item.1 file present).2, entryOf⟩

theorem meets_archiveGeneration (allowed : removable name)
    (ready : Ready library originals calm store)
    (result : (store.generations name).result = some completion)
    (unsealed : (store.generations name).manifest = none) :
    Meets (archiveGeneration library name completion.planSha256) store
      (Changes library originals removable restorable)
      (fun archived final => archived.generationId = name ∧
        Ready library originals calm final ∧ Cold final name) (Disturbed calm) := by
  have generation := ready.valid.completed name completion result
  have completed : (store.generations name).result.isSome := by rw [result]; rfl
  apply Meets.bind
  apply Meets.examine
  · intro sources read
    obtain rfl := sourceFiles_eq_ok read
    have inFiles (relative : String) (inSources : relative ∈ hotSources store name) :=
      (generation.mem_hotSources unsealed).mp inSources
    have hot (relative : String) (inSources : relative ∈ hotSources store name)
        (quiet : calm) : ∃ file, store.hot name relative = some file ∧ file.linked = false := by
      obtain ⟨file, present, -⟩ := generation.file unsealed (inFiles relative inSources)
      exact ⟨file, present, (ready.settled quiet).hot name relative file completed present⟩
    have safe (relative : String) (inSources : relative ∈ hotSources store name) :=
      generation.published.safeFile (inFiles relative inSources)
    apply Meets.bind
    apply (meets_compressSources _ ready hot safe).mono (fun _ _ => id) _ fun _ _ => id
    rintro entries middle ⟨grown, keys, made⟩
    have kept := generation.kept unsealed keys made
    rw [← grown.generations] at kept result unsealed
    apply Meets.bind
    apply (meets_writeManifest grown.ready result unsealed kept).mono (fun _ _ => id) _
      fun _ _ => id
    rintro _ _ ⟨rfl, sealed_⟩
    have resultSealed : ((sealedStore middle name
        { generationId := name, archiveRoot := library.archiveRoot
          objects := entries }).generations name).result = some completion := by
      rw [sealedStore, Store.result_putManifest, result]
    have manifestSealed : ((sealedStore middle name
        { generationId := name, archiveRoot := library.archiveRoot
          objects := entries }).generations name).manifest =
        some ⟨(Manifest.mk name library.archiveRoot entries).sorted, false⟩ := by
      rw [sealedStore, Store.manifest_putManifest, if_pos rfl]
    apply Meets.bind
    apply Meets.examine
    · intro _ _
      have keptSealed : Kept library (originals name) name
          ((sealedStore middle name (Manifest.mk name library.archiveRoot entries)).generations
            name).names middle (Manifest.mk name library.archiveRoot entries) := by
        rw [sealedStore, Store.names_putManifest]
        exact kept
      apply (meets_removeAll allowed ⟨sealed_, resultSealed, by rw [manifestSealed]; rfl⟩
        keptSealed).mono (fun _ _ => id) _ fun _ _ => id
      rintro _ final ⟨⟨removed, rfl⟩, ends, cold⟩
      exact ⟨rfl, ends, cold⟩
    · intro message failed quiet
      rw [sealed_.valid.verifyArchivedGeneration (sealed_.settled quiet) resultSealed
        manifestSealed] at failed
      cases failed
  · intro message failed quiet
    rw [generation.sourceFiles (ready.settled quiet) result unsealed] at failed
    cases failed

theorem meets_archiveSelected (allowed : removable name)
    (ready : Ready library originals calm store)
    (completed : (store.generations name).result.isSome) :
    Meets (archiveSelected library name) store
      (Changes library originals removable restorable)
      (fun archived final => archived.generationId = name ∧
        Ready library originals calm final ∧ Cold final name) (Disturbed calm) := by
  obtain ⟨completion, result⟩ := Option.isSome_iff_exists.mp completed
  apply Meets.bind
  apply Meets.examined (by rw [ColdArchive.completion, result])
  cases found : (store.generations name).manifest with
  | none => exact meets_archiveGeneration allowed ready result found
  | some file => exact meets_resumeArchive allowed ready result found

theorem meets_archiveAll (names : List String)
    (allowed : ∀ name ∈ names, removable name)
    (ready : Ready library originals calm store)
    (completed : ∀ name ∈ names, (store.generations name).result.isSome) :
    Meets (archiveAll library names) store
      (Changes library originals removable fun _ => False)
      (fun archived final => Ready library originals calm final ∧
        archived.map Archived.generationId = names ∧ ∀ name ∈ names, Cold final name)
      (Disturbed calm) := by
  induction names generalizing store with
  | nil => exact .pure ⟨ready, rfl, by simp⟩
  | cons name rest induction =>
    rw [List.forall_mem_cons] at allowed completed
    have first : Meets (archiveSelected library name) store
        (Changes library originals removable fun _ => False) _ (Disturbed calm) :=
      (meets_archiveSelected allowed.1 ready completed.1).reaches Frame.refl Frame.trans
        fun _ _ => And.right
    apply Meets.bind
    apply first.mono (fun _ _ => id) _ fun _ _ => id
    rintro archived middle ⟨⟨named, between, cold⟩, frame⟩
    have still : ∀ name ∈ rest, (middle.generations name).result.isSome := by
      intro other inRest
      rw [frame.results other]
      exact completed.2 other inRest
    have others : Meets (archiveAll library rest) middle
        (Changes library originals removable fun _ => False) _ (Disturbed calm) :=
      (induction allowed.2 between still).reaches Frame.refl Frame.trans
        fun _ _ => And.right
    apply Meets.bind
    apply others.mono (fun _ _ => id) _ fun _ _ => id
    rintro later final ⟨⟨ends, names, colder⟩, after⟩
    apply Meets.pure
    refine ⟨ends, by rw [List.map_cons, named, names], ?_⟩
    rw [List.forall_mem_cons]
    refine ⟨fun relative => ?_, colder⟩
    cases present : final.hot name relative with
    | none => rfl
    | some file =>
      have impossible := after.restored name relative (cold relative) (by rw [present]; rfl)
      exact impossible.elim

theorem meets_archiveCompleted {surroundings : Surroundings} {maxGenerations : Nat}
    (ready : Ready library originals calm store)
    (readable : calm → surroundings.Readable ∧ 1 ≤ maxGenerations) :
    Meets (archiveCompleted library surroundings maxGenerations) store
      (Changes library originals (Unprotected surroundings store) fun _ => False)
      (fun result final => Ready library originals calm final ∧
        ∀ archived ∈ result.2, Cold final archived.generationId) (Disturbed calm) := by
  apply Meets.bind
  apply Meets.examine
  · intro selection previewed
    have unprotected := previewArchive_eq_ok previewed
    apply Meets.bind
    apply (meets_archiveAll selection.eligibleGenerations unprotected ready
      fun name selected => (unprotected name selected).completed).mono (fun _ _ => id) _
      fun _ _ => id
    rintro archived final ⟨ends, names, cold⟩
    apply Meets.pure
    refine ⟨ends, fun item inArchived => cold _ ?_⟩
    rw [← names]
    exact List.mem_map_of_mem inArchived
  · intro message failed quiet
    obtain ⟨selection, previewed⟩ := ready.valid.previewArchive (ready.settled quiet)
      (readable quiet).1 (readable quiet).2
    rw [previewed] at failed
    cases failed

/-! ## Restoration -/

/-- A generation whose manifest is restored. -/
structure Restoring (library : Library Bytes Digest)
    (originals : String → String → Option Bytes) (calm : Prop) (name : String)
    (completion : Completion Digest) (file : Sealed Digest) (store : Store Bytes Digest) :
    Prop where
  ready : Ready library originals calm store
  result : (store.generations name).result = some completion
  archived : (store.generations name).manifest = some file

theorem meets_restoreFile {file : Sealed Digest} {entry : Entry Digest}
    (allowed : restorable name)
    (restoring : Restoring library originals calm name completion file store)
    (inObjects : (relative, entry) ∈ file.manifest.objects) :
    Meets (restoreFile library name relative entry (store.hot name relative)) store
      (Changes library originals removable restorable)
      (fun _ final => Restoring library originals calm name completion file final ∧
        (final.hot name relative).isSome ∧
        ∀ path, (store.hot name path).isSome → (final.hot name path).isSome)
      (Disturbed calm) := by
  obtain ⟨ready, result, archived⟩ := restoring
  have completed : (store.generations name).result.isSome := by rw [result]; rfl
  have generation := ready.valid.completed name completion result
  have kept := generation.archived file archived
  obtain ⟨bytes, known, sha256, size⟩ := kept.binds _ inObjects
  cases present : store.hot name relative with
  | some hot =>
    apply Meets.examine
    · intro _ _
      exact ⟨⟨ready, result, archived⟩, by rw [present]; rfl, fun _ => id⟩
    · intro message failed quiet
      have verified : verifySource library store name relative entry
          "Existing restored file differs" = .ok () :=
        generation.verifySource (ready.settled quiet) completed known sha256 size
      rw [verified] at failed
      cases failed
  | none =>
    have inFiles : relative ∈ (store.generations name).files :=
      (kept.keys relative).mp (List.mem_map_of_mem inObjects)
    have sealed_ : (store.generations name).manifest.isSome := by rw [archived]; rfl
    have linked : Valid library originals
        (store.putHot name relative (some ⟨bytes, true⟩)) := by
      apply ready.valid.putHot sealed_
      rintro _ ⟨⟩
      exact ⟨inFiles, known⟩
    have same : (store.putHot name relative (some ⟨bytes, true⟩)).putHot name relative
        (some ⟨bytes, false⟩) = store.putHot name relative (some ⟨bytes, false⟩) := by
      simp [Store.putHot, Store.changeGeneration]
    have unlinked : Valid library originals
        (store.putHot name relative (some ⟨bytes, false⟩)) := by
      apply ready.valid.putHot sealed_
      rintro _ ⟨⟩
      exact ⟨inFiles, known⟩
    apply Meets.bind
    apply Meets.examined (by exact kept.restoredBytes inObjects known)
    apply Meets.bind
    apply Meets.write
    · exact ⟨linked, frame_putHot allowed⟩
    apply Meets.write
    · refine ⟨?_, frame_putHot allowed⟩
      rw [same]
      exact unlinked
    · rw [same]
      refine ⟨⟨⟨unlinked, fun quiet => (ready.settled quiet).putHot (by rintro _ ⟨⟩; rfl)⟩,
        ?_, ?_⟩, ?_, ?_⟩
      · rw [Store.result_putHot, result]
      · rw [Store.manifest_putHot, archived]
      · rw [Store.hot_putHot, if_pos ⟨rfl, rfl⟩]
        rfl
      · intro path there
        rw [Store.hot_putHot]
        split
        · rfl
        · exact there

theorem meets_restoreFiles {file : Sealed Digest} (allowed : restorable name)
    (items : List (String × Entry Digest))
    (restoring : Restoring library originals calm name completion file store)
    (inObjects : ∀ item ∈ items, item ∈ file.manifest.objects) :
    Meets (restoreFiles library name items) store
      (Changes library originals removable restorable)
      (fun _ final => Restoring library originals calm name completion file final ∧
        (∀ item ∈ items, (final.hot name item.1).isSome) ∧
        ∀ path, (store.hot name path).isSome → (final.hot name path).isSome)
      (Disturbed calm) := by
  induction items generalizing store with
  | nil => exact .pure ⟨restoring, by simp, fun _ => id⟩
  | cons item rest induction =>
    obtain ⟨relative, entry⟩ := item
    rw [List.forall_mem_cons] at inObjects
    apply Meets.bind
    apply Meets.read
    apply Meets.bind
    apply (meets_restoreFile allowed restoring inObjects.1).mono (fun _ _ => id) _
      fun _ _ => id
    rintro _ middle ⟨still, back, stays⟩
    apply (induction still inObjects.2).mono (fun _ _ => id) _ fun _ _ => id
    rintro _ final ⟨ends, others, keeps⟩
    refine ⟨ends, ?_, fun path there => keeps path (stays path there)⟩
    rw [List.forall_mem_cons]
    exact ⟨keeps relative back, others⟩

theorem Restoring.checkRestored {file : Sealed Digest}
    (restoring : Restoring library originals calm name completion file store) (quiet : calm)
    (back : ∀ item ∈ file.manifest.objects, (store.hot name item.1).isSome) :
    ColdArchive.checkRestored library store name file.manifest = .ok () := by
  obtain ⟨ready, result, archived⟩ := restoring
  have completed : (store.generations name).result.isSome := by rw [result]; rfl
  have generation := ready.valid.completed name completion result
  have kept := generation.archived file archived
  rw [ColdArchive.checkRestored, each_eq_ok]
  intro item inObjects
  obtain ⟨bytes, known, sha256, size⟩ := kept.binds item inObjects
  obtain ⟨hot, present⟩ := Option.isSome_iff_exists.mp (back item inObjects)
  have same := (generation.hot item.1 hot present).2
  rw [known, Option.some.injEq] at same
  have unlinked := (ready.settled quiet).hot name item.1 hot completed present
  rw [present, digest_of_unlinked unlinked, ok_bind, require_eq_ok, sha256, size, same,
    beq_self_eq_true]

/-- A restored generation: all its files are hot again and its manifest is gone. -/
structure Restored (originals : String → String → Option Bytes) (store : Store Bytes Digest)
    (name : String) : Prop where
  manifest : (store.generations name).manifest = none
  hot : ∀ relative ∈ (store.generations name).files, ∃ file,
    store.hot name relative = some file ∧ originals name relative = some file.bytes

theorem Valid.checkRestorable {file : Sealed Digest} (valid : Valid library originals store)
    (settled : Settled store) (result : (store.generations name).result = some completion)
    (found : (store.generations name).manifest = some file) :
    ColdArchive.checkRestorable library name store = .ok () := by
  have generation := valid.completed name completion result
  have kept := generation.archived file found
  obtain ⟨entry, lookedUp, inObjects⟩ := kept.planEntry
  obtain ⟨bytes, known, sha256, -⟩ := kept.decompressed inObjects
  obtain ⟨stored, _, _, original, planSha, -⟩ := generation.published.plan
  cases known.symm.trans original
  rw [ColdArchive.checkRestorable, require_bind_eq_ok,
    valid.verifyArchivedGeneration settled result found, ok_bind, require_eq_ok, result,
    lookedUp, Option.map_some, Option.map_some, sha256, planSha]
  exact ⟨generation.published.named, by simp⟩

theorem Restoring.restored {file : Sealed Digest}
    (restoring : Restoring library originals calm name completion file store)
    (back : ∀ item ∈ file.manifest.objects, (store.hot name item.1).isSome) :
    Ready library originals calm (store.putManifest name none) ∧
      Restored originals (store.putManifest name none) name := by
  obtain ⟨ready, result, archived⟩ := restoring
  have kept := (ready.valid.completed name completion result).archived file archived
  have valid : Valid library originals (store.putManifest name none) := by
    apply ready.valid.unsealManifest
    intro relative inFiles
    obtain ⟨item, inObjects, rfl⟩ := List.mem_map.mp ((kept.keys relative).mpr inFiles)
    exact back item inObjects
  have absent : ((store.putManifest name none).generations name).manifest = none := by
    rw [Store.manifest_putManifest, if_pos rfl]
  have still : ((store.putManifest name none).generations name).result = some completion := by
    rw [Store.result_putManifest, result]
  refine ⟨⟨valid, fun quiet => (ready.settled quiet).putManifest (by rintro _ ⟨⟩)⟩, absent, ?_⟩
  intro relative inFiles
  exact (valid.completed name completion still).file absent inFiles

theorem meets_completeRestore {manifest : Manifest Digest}
    (restoring : Restoring library originals calm name completion ⟨manifest, false⟩ store) :
    Meets (do
        restoreFiles library name manifest.objects
        .examine fun store => checkRestored library store name manifest
        .write (.putManifest name none)
        pure manifest.objects.length) store
      (Changes library originals (fun _ => False) (· = name))
      (fun _ final => Ready library originals calm final ∧ Restored originals final name)
      (Disturbed calm) := by
  have files : Meets (restoreFiles library name manifest.objects) store
      (Changes library originals (fun _ => False) (· = name)) _ (Disturbed calm) :=
    meets_restoreFiles (by exact rfl) manifest.objects restoring fun _ => id
  apply Meets.bind
  apply files.mono (fun _ _ => id) _ fun _ _ => id
  rintro _ middle ⟨still, back, -⟩
  obtain ⟨ends, restored⟩ := still.restored back
  apply Meets.bind
  apply Meets.examine
  · intro _ _
    apply Meets.bind
    apply Meets.write
    · exact ⟨ends.valid, frame_putManifest⟩
    exact .pure ⟨ends, restored⟩
  · intro message failed quiet
    rw [still.checkRestored quiet back] at failed
    cases failed

theorem meets_restoreGeneration {surroundings : Surroundings}
    (ready : Ready library originals calm store)
    (readable : calm → (∃ gate, surroundings.gate = .ok gate) ∧
      (store.generations name).manifest.isSome) :
    Meets (restoreGeneration library surroundings name) store
      (Changes library originals (fun _ => False) (· = name))
      (fun _ final => Ready library originals calm final ∧ Restored originals final name)
      (Disturbed calm) := by
  have completed (file : Sealed Digest) (found : (store.generations name).manifest = some file) :
      ∃ completion, (store.generations name).result = some completion := by
    cases result : (store.generations name).result with
    | none =>
      rw [ready.valid.unfinished name result] at found
      cases found
    | some completion => exact ⟨completion, rfl⟩
  have known (quiet : calm) : ∃ file completion,
      (store.generations name).manifest = some file ∧
        (store.generations name).result = some completion := by
    obtain ⟨file, found⟩ := Option.isSome_iff_exists.mp (readable quiet).2
    obtain ⟨completion, result⟩ := completed file found
    exact ⟨file, completion, found, result⟩
  apply Meets.bind
  apply Meets.examine
  · intro _ _
    apply Meets.bind
    apply Meets.examine
    · intro _ _
      apply Meets.bind
      apply Meets.examine
      · intro manifest verified
        have found := verifyArchivedGeneration_eq_ok verified
        obtain ⟨completion, result⟩ := completed _ found
        exact meets_completeRestore ⟨ready, result, found⟩
      · intro message failed quiet
        obtain ⟨file, completion, found, result⟩ := known quiet
        rw [ready.valid.verifyArchivedGeneration (ready.settled quiet) result found] at failed
        cases failed
    · intro message failed quiet
      obtain ⟨gate, gated⟩ := (readable quiet).1
      rw [gated] at failed
      cases failed
  · intro message failed quiet
    obtain ⟨file, completion, found, result⟩ := known quiet
    rw [ready.valid.checkRestorable (ready.settled quiet) result found] at failed
    cases failed

end JobAgg.ColdArchive
