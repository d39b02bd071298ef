import JobAgg.ColdArchive.StorageColdArchive

/-! # What every step of an archive keeps

Every object decompresses to the bytes it is named by, a generation without a manifest has
all its files, and a manifest names an object for each of them.
-/

namespace JobAgg.ColdArchive

variable {Bytes Digest : Type} {library : Library Bytes Digest}
  {store : Store Bytes Digest} {originals : String → String → Option Bytes} {name : String}

/-- The paths that a completed generation was published with. -/
def Generation.files (generation : Generation Bytes Digest) : List String :=
  "plan.json" :: generation.names

structure EntryOf (library : Library Bytes Digest) (store : Store Bytes Digest) (bytes : Bytes)
    (entry : Entry Digest) : Prop where
  sha256 : entry.sha256 = library.hash bytes
  size : entry.sizeBytes = library.size bytes
  path : entry.objectPath = library.objectPath (library.hash bytes)
  object : ∃ file, store.objects (library.hash bytes) = some file ∧
    library.decompress file.bytes = some bytes ∧
    entry.objectSha256 = library.hash file.bytes ∧
    entry.objectSizeBytes = library.size file.bytes

/-- A manifest that names an object for every file of its generation. -/
structure Kept (library : Library Bytes Digest) (original : String → Option Bytes)
    (name : String) (names : List String) (store : Store Bytes Digest)
    (manifest : Manifest Digest) : Prop where
  generationId : manifest.generationId = name
  archiveRoot : manifest.archiveRoot = library.archiveRoot
  keys : ∀ relative, relative ∈ manifest.objects.map Prod.fst ↔ relative ∈ "plan.json" :: names
  entries : ∀ item ∈ manifest.objects, ∃ bytes, original item.1 = some bytes ∧
    EntryOf library store bytes item.2

/-- What a step may not change, and which files it may remove and restore. -/
structure Frame (removable restorable : String → Prop) (before after : Store Bytes Digest) :
    Prop where
  listed : after.listed = before.listed
  results : ∀ name, (after.generations name).result = (before.generations name).result
  names : ∀ name, (after.generations name).names = (before.generations name).names
  removed : ∀ name relative, (before.hot name relative).isSome → after.hot name relative = none →
    removable name
  restored : ∀ name relative, before.hot name relative = none →
    (after.hot name relative).isSome → restorable name

namespace Frame

variable {removable restorable : String → Prop} {before middle after : Store Bytes Digest}

theorem refl (store : Store Bytes Digest) : Frame removable restorable store store where
  listed := rfl
  results _ := rfl
  names _ := rfl
  removed _ _ present absent := by
    rw [absent] at present
    cases present
  restored _ _ absent present := by
    rw [absent] at present
    cases present

theorem trans (first : Frame removable restorable before middle)
    (second : Frame removable restorable middle after) :
    Frame removable restorable before after where
  listed := second.listed.trans first.listed
  results name := (second.results name).trans (first.results name)
  names name := (second.names name).trans (first.names name)
  removed name relative present absent := by
    cases found : middle.hot name relative with
    | none => exact first.removed name relative present found
    | some file => exact second.removed name relative (by rw [found]; rfl) absent
  restored name relative absent present := by
    cases found : middle.hot name relative with
    | none => exact second.restored name relative found present
    | some file => exact first.restored name relative absent (by rw [found]; rfl)

theorem of_hot (listed : after.listed = before.listed)
    (results : ∀ name, (after.generations name).result = (before.generations name).result)
    (names : ∀ name, (after.generations name).names = (before.generations name).names)
    (hot : ∀ name, (after.generations name).hot = (before.generations name).hot) :
    Frame removable restorable before after where
  listed := listed
  results := results
  names := names
  removed name relative present absent := by
    rw [Store.hot, hot name] at absent
    rw [Store.hot, absent] at present
    cases present
  restored name relative absent present := by
    rw [Store.hot, hot name] at present
    rw [Store.hot] at absent
    rw [absent] at present
    cases present

end Frame

def Extends (before after : Store Bytes Digest) : Prop :=
  ∀ sha256 file, before.objects sha256 = some file →
    ∃ later, after.objects sha256 = some later ∧ later.bytes = file.bytes

theorem EntryOf.extend {after : Store Bytes Digest} {bytes : Bytes} {entry : Entry Digest}
    (entryOf : EntryOf library store bytes entry) (extending : Extends store after) :
    EntryOf library after bytes entry := by
  obtain ⟨file, found, restores, sha256, size⟩ := entryOf.object
  obtain ⟨later, kept, same⟩ := extending _ file found
  exact ⟨entryOf.sha256, entryOf.size, entryOf.path, later, kept, by rw [same, restores],
    by rw [same, sha256], by rw [same, size]⟩

theorem Kept.extend {original : String → Option Bytes} {names : List String}
    {after : Store Bytes Digest} {manifest : Manifest Digest}
    (kept : Kept library original name names store manifest) (extending : Extends store after) :
    Kept library original name names after manifest where
  generationId := kept.generationId
  archiveRoot := kept.archiveRoot
  keys := kept.keys
  entries item inObjects := by
    obtain ⟨bytes, known, entryOf⟩ := kept.entries item inObjects
    exact ⟨bytes, known, entryOf.extend extending⟩

/-- No file of the archive or of a completed generation has the link of a temporary left. -/
structure Settled (store : Store Bytes Digest) : Prop where
  objects : ∀ sha256 file, store.objects sha256 = some file → file.linked = false
  hot : ∀ name relative file, (store.generations name).result.isSome →
    store.hot name relative = some file → file.linked = false
  manifests : ∀ name file, (store.generations name).manifest = some file → file.linked = false

section Steps

variable {removable restorable : String → Prop} {relative : String}

theorem Kept.congr {original : String → Option Bytes} {names : List String}
    {after : Store Bytes Digest} {manifest : Manifest Digest}
    (kept : Kept library original name names store manifest)
    (same : after.objects = store.objects) : Kept library original name names after manifest :=
  kept.extend fun _ file found => ⟨file, by rw [same, found], rfl⟩

theorem Settled.putHot {file : Option (File Bytes)} (settled : Settled store)
    (unlinked : ∀ found, file = some found → found.linked = false) :
    Settled (store.putHot name relative file) where
  objects := settled.objects
  hot other path found := by
    rw [Store.result_putHot, Store.hot_putHot]
    intro completed present
    split at present
    · exact unlinked found present
    · exact settled.hot other path found completed present
  manifests other found := by
    rw [Store.manifest_putHot]
    exact settled.manifests other found

theorem Settled.putManifest {file : Option (Sealed Digest)} (settled : Settled store)
    (unlinked : ∀ found, file = some found → found.linked = false) :
    Settled (store.putManifest name file) where
  objects := settled.objects
  hot other path found := by
    rw [Store.result_putManifest, Store.hot_putManifest]
    exact settled.hot other path found
  manifests other found := by
    rw [Store.manifest_putManifest]
    intro present
    split at present
    · exact unlinked found present
    · exact settled.manifests other found present

theorem frame_putManifest {file : Option (Sealed Digest)} :
    Frame removable restorable store (store.putManifest name file) where
  listed := rfl
  results _ := Store.result_putManifest
  names _ := Store.names_putManifest
  removed other path present absent := by
    rw [Store.hot_putManifest] at absent
    rw [absent] at present
    cases present
  restored other path absent present := by
    rw [Store.hot_putManifest, absent] at present
    cases present

theorem frame_removeHot (allowed : removable name) :
    Frame removable restorable store (store.putHot name relative none) where
  listed := rfl
  results _ := Store.result_putHot
  names _ := Store.names_putHot
  removed other path present absent := by
    rw [Store.hot_putHot] at absent
    split at absent
    · rename_i here
      rw [here.1]
      exact allowed
    · rw [absent] at present
      cases present
  restored other path absent present := by
    rw [Store.hot_putHot] at present
    split at present
    · cases present
    · rw [absent] at present
      cases present

theorem frame_putHot {file : File Bytes} (allowed : restorable name) :
    Frame removable restorable store (store.putHot name relative (some file)) where
  listed := rfl
  results _ := Store.result_putHot
  names _ := Store.names_putHot
  removed other path present absent := by
    rw [Store.hot_putHot] at absent
    split at absent
    · cases absent
    · rw [absent] at present
      cases present
  restored other path absent present := by
    rw [Store.hot_putHot] at present
    split at present
    · rename_i here
      rw [here.1]
      exact allowed
    · rw [absent] at present
      cases present

end Steps

variable [DecidableEq Digest]

/-- A published generation: its plan names the generation and beforeimages it has. -/
structure Published (library : Library Bytes Digest) (original : String → Option Bytes)
    (name : String) (names : List String) (planSha256 : Digest) : Prop where
  named : isGenerationId name = true
  safe : ∀ relative ∈ names, isBeforeimage relative = true
  known : ∀ relative ∈ "plan.json" :: names, ∃ bytes, original relative = some bytes
  plan : ∃ bytes plan refs, original "plan.json" = some bytes ∧
    library.hash bytes = planSha256 ∧ library.readPlan bytes = .ok plan ∧
    plan.generationId = name ∧ plan.generationRoot = library.generationRoot name ∧
    planBeforeimageBindings plan = .ok refs ∧
    ∀ ref ∈ refs, ref.1 ∈ names ∧ ∃ image, original ref.1 = some image ∧
      library.hash image = ref.2

/-- A completed generation, hot, archived or between the two. -/
structure ValidGeneration (library : Library Bytes Digest) (original : String → Option Bytes)
    (name : String) (store : Store Bytes Digest) (completion : Completion Digest) : Prop where
  published : Published library original name (store.generations name).names
    completion.planSha256
  hot : ∀ relative file, store.hot name relative = some file →
    relative ∈ (store.generations name).files ∧ original relative = some file.bytes
  whole : (store.generations name).manifest = none →
    ∀ relative ∈ (store.generations name).files, (store.hot name relative).isSome
  archived : ∀ file, (store.generations name).manifest = some file →
    Kept library original name (store.generations name).names store file.manifest

/-- `originals` are the bytes that each completed generation was published with. -/
structure Valid (library : Library Bytes Digest) (originals : String → String → Option Bytes)
    (store : Store Bytes Digest) : Prop where
  objects : ∀ sha256 file, store.objects sha256 = some file →
    ∃ bytes, sha256 = library.hash bytes ∧ library.decompress file.bytes = some bytes
  listed : ∀ name ∈ store.listed, isGenerationId name = true
  unfinished : ∀ name, (store.generations name).result = none →
    (store.generations name).manifest = none
  completed : ∀ name completion, (store.generations name).result = some completion →
    ValidGeneration library (originals name) name store completion

/-! ## Objects -/

section Objects

theorem ValidGeneration.extend {original : String → Option Bytes} {after : Store Bytes Digest}
    {completion : Completion Digest}
    (valid : ValidGeneration library original name store completion)
    (same : after.generations = store.generations) (extending : Extends store after) :
    ValidGeneration library original name after completion where
  published := by
    rw [same]
    exact valid.published
  hot := by
    simp only [Store.hot, same]
    exact valid.hot
  whole := by
    simp only [Store.hot, same]
    exact valid.whole
  archived file found := by
    rw [same] at found ⊢
    exact (valid.archived file found).extend extending

theorem extends_putObject {sha256 : Digest} {file : File Bytes}
    (compatible : ∀ old, store.objects sha256 = some old → file.bytes = old.bytes) :
    Extends store (store.putObject sha256 file) := by
  intro other old found
  by_cases same : other = sha256
  · subst same
    exact ⟨file, by simp [Store.putObject], compatible old found⟩
  · exact ⟨old, by simp [Store.putObject, Function.update_of_ne same, found], rfl⟩

theorem Valid.putObject {file : File Bytes} {bytes : Bytes} (valid : Valid library originals store)
    (compatible : ∀ old, store.objects (library.hash bytes) = some old → file.bytes = old.bytes)
    (restores : library.decompress file.bytes = some bytes) :
    Valid library originals (store.putObject (library.hash bytes) file) where
  objects sha256 found present := by
    by_cases same : sha256 = library.hash bytes
    · subst same
      simp only [Store.putObject, Function.update_self, Option.some.injEq] at present
      subst present
      exact ⟨bytes, rfl, restores⟩
    · rw [Store.objects_putObject, Function.update_of_ne same] at present
      exact valid.objects sha256 found present
  listed := valid.listed
  unfinished := valid.unfinished
  completed name completion result :=
    (valid.completed name completion result).extend rfl (extends_putObject compatible)

theorem Settled.putObject {sha256 : Digest} {bytes : Bytes} {linked : Bool}
    (settled : Settled store) (unlinked : linked = false) :
    Settled (store.putObject sha256 ⟨bytes, linked⟩) where
  objects other found present := by
    by_cases same : other = sha256
    · subst same
      simp only [Store.putObject, Function.update_self, Option.some.injEq] at present
      rw [← present, unlinked]
    · rw [Store.objects_putObject, Function.update_of_ne same] at present
      exact settled.objects other found present
  hot := settled.hot
  manifests := settled.manifests

end Objects

/-! ## Generations -/

section Generations

variable {removable restorable : String → Prop} {relative : String}

theorem Valid.putHot {file : Option (File Bytes)} (valid : Valid library originals store)
    (archived : (store.generations name).manifest.isSome)
    (bytes : ∀ found, file = some found → relative ∈ (store.generations name).files ∧
      originals name relative = some found.bytes) :
    Valid library originals (store.putHot name relative file) where
  objects := valid.objects
  listed := valid.listed
  unfinished other := by
    simp only [Store.result_putHot, Store.manifest_putHot]
    exact valid.unfinished other
  completed other completion := by
    simp only [Store.result_putHot]
    intro result
    have before := valid.completed other completion result
    constructor
    · rw [Store.names_putHot]
      exact before.published
    · intro path found present
      rw [Store.hot_putHot] at present
      simp only [Generation.files, Store.names_putHot]
      split at present
      · rename_i here
        rw [here.1, here.2]
        exact bytes found present
      · exact before.hot path found present
    · rw [Store.manifest_putHot]
      intro absent path inFiles
      simp only [Generation.files, Store.names_putHot] at inFiles
      rw [Store.hot_putHot, if_neg]
      · exact before.whole absent path inFiles
      · rintro ⟨rfl, -⟩
        rw [absent] at archived
        cases archived
    · simp only [Store.manifest_putHot, Store.names_putHot]
      intro manifest found
      exact (before.archived manifest found).congr rfl

theorem Valid.sealManifest {manifest : Manifest Digest} {linked : Bool}
    (valid : Valid library originals store)
    (completed : (store.generations name).result.isSome)
    (kept : Kept library (originals name) name (store.generations name).names store manifest) :
    Valid library originals (store.putManifest name (some ⟨manifest, linked⟩)) where
  objects := valid.objects
  listed := valid.listed
  unfinished other := by
    rw [Store.result_putManifest, Store.manifest_putManifest]
    intro absent
    rw [if_neg]
    · exact valid.unfinished other absent
    · rintro rfl
      rw [absent] at completed
      cases completed
  completed other completion := by
    rw [Store.result_putManifest]
    intro result
    have before := valid.completed other completion result
    constructor
    · rw [Store.names_putManifest]
      exact before.published
    · simp only [Store.hot_putManifest, Generation.files, Store.names_putManifest]
      exact before.hot
    · simp only [Store.hot_putManifest, Generation.files, Store.names_putManifest,
        Store.manifest_putManifest]
      split
      · intro impossible
        cases impossible
      · exact before.whole
    · simp only [Store.names_putManifest, Store.manifest_putManifest]
      intro found same
      split at same
      · rename_i here
        rw [Option.some.injEq] at same
        subst same here
        exact kept.congr rfl
      · exact (before.archived found same).congr rfl

theorem Valid.unsealManifest (valid : Valid library originals store)
    (whole : ∀ relative ∈ (store.generations name).files, (store.hot name relative).isSome) :
    Valid library originals (store.putManifest name none) where
  objects := valid.objects
  listed := valid.listed
  unfinished other := by
    rw [Store.result_putManifest, Store.manifest_putManifest]
    intro absent
    split
    · rfl
    · exact valid.unfinished other absent
  completed other completion := by
    rw [Store.result_putManifest]
    intro result
    have before := valid.completed other completion result
    constructor
    · rw [Store.names_putManifest]
      exact before.published
    · simp only [Store.hot_putManifest, Generation.files, Store.names_putManifest]
      exact before.hot
    · simp only [Store.hot_putManifest, Generation.files, Store.names_putManifest,
        Store.manifest_putManifest]
      split
      · rename_i here
        subst here
        exact fun _ => whole
      · exact before.whole
    · simp only [Store.names_putManifest, Store.manifest_putManifest]
      intro found same
      split at same
      · cases same
      · exact (before.archived found same).congr rfl

theorem frame_putObject {sha256 : Digest} {file : File Bytes} :
    Frame removable restorable store (store.putObject sha256 file) :=
  .of_hot rfl (fun _ => rfl) (fun _ => rfl) fun _ => rfl

end Generations

end JobAgg.ColdArchive
