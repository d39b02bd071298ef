import JobAgg.ColdArchive.Validity

/-! # The checks of the archive

What a check shows when it passes, and that it passes on a valid store in which no file
keeps the link of a temporary.
-/

namespace JobAgg.ColdArchive

variable {Bytes Digest : Type} {library : Library Bytes Digest}
  {store : Store Bytes Digest} {originals : String → String → Option Bytes}
  {name relative : String}

theorem digest_eq_ok {file : Option (File Bytes)} {found : Digest × Nat} :
    digest library file = .ok found ↔ ∃ bytes, file = some ⟨bytes, false⟩ ∧
      found = (library.hash bytes, library.size bytes) := by
  cases file with
  | none => simp [digest]
  | some file =>
    obtain ⟨bytes, linked⟩ := file
    simp only [digest, require_bind_eq_ok, Bool.not_eq_eq_eq_not, Bool.not_true, pure_eq_ok]
    constructor
    · rintro ⟨rfl, rfl⟩
      exact ⟨bytes, rfl, rfl⟩
    · rintro ⟨_, ⟨⟩, rfl⟩
      exact ⟨rfl, rfl⟩

theorem digest_of_unlinked {file : File Bytes} (unlinked : file.linked = false) :
    digest library (some file) = .ok (library.hash file.bytes, library.size file.bytes) :=
  digest_eq_ok.mpr ⟨file.bytes, by rw [← unlinked], rfl⟩

theorem Kept.planEntry {original : String → Option Bytes} {names : List String}
    {manifest : Manifest Digest} (kept : Kept library original name names store manifest) :
    ∃ entry, lookup "plan.json" manifest.objects = some entry ∧
      ("plan.json", entry) ∈ manifest.objects := by
  have inKeys := (kept.keys "plan.json").mpr List.mem_cons_self
  have present : (lookup "plan.json" manifest.objects).isSome := by
    rw [lookup_isSome, List.any_eq_true]
    obtain ⟨item, inObjects, same⟩ := List.mem_map.mp inKeys
    exact ⟨item, inObjects, by simp [same]⟩
  obtain ⟨entry, found⟩ := Option.isSome_iff_exists.mp present
  exact ⟨entry, found, mem_of_lookup_eq_some found⟩

theorem manifestMetadata_eq_ok {manifest : Manifest Digest}
    (read : manifestMetadata library store name = .ok manifest) :
    (store.generations name).manifest = some ⟨manifest, false⟩ := by
  unfold manifestMetadata at read
  split at read
  · cases read
  · rename_i file found
    rw [require_bind_eq_ok, require_bind_eq_ok, bind_eq_ok] at read
    obtain ⟨unlinked, -, _, -, same⟩ := read
    rw [pure_eq_ok] at same
    obtain ⟨sealed_, linked⟩ := file
    simp only [Bool.not_eq_eq_eq_not, Bool.not_true] at unlinked
    rw [found, ← same, unlinked]

theorem checkPlan_eq_ok {bytes : Bytes} {plan : Plan Digest} {message : String}
    (decoded : library.readPlan bytes = .ok plan) (generationId : plan.generationId = name)
    (root : plan.generationRoot = library.generationRoot name) :
    checkPlan library name bytes message = .ok plan := by
  rw [checkPlan, decoded, ok_bind, require_bind_eq_ok, pure_eq_ok]
  exact ⟨by rw [generationId, root]; simp, rfl⟩

theorem Kept.decompressed {original : String → Option Bytes} {names : List String}
    {manifest : Manifest Digest} {item : String × Entry Digest}
    (kept : Kept library original name names store manifest)
    (inObjects : item ∈ manifest.objects) :
    ∃ bytes, original item.1 = some bytes ∧ item.2.sha256 = library.hash bytes ∧
      ColdArchive.decompressed library store item.2.sha256 = .ok bytes := by
  obtain ⟨bytes, known, entryOf⟩ := kept.entries item inObjects
  obtain ⟨file, found, restores, -⟩ := entryOf.object
  refine ⟨bytes, known, entryOf.sha256, ?_⟩
  rw [ColdArchive.decompressed, entryOf.sha256, found]
  simp only [restores]

theorem hotFile_eq_ok {bytes : Bytes} (read : hotFile store name relative = .ok bytes) :
    store.hot name relative = some ⟨bytes, false⟩ := by
  unfold hotFile at read
  split at read
  · cases read
  · rename_i file present
    rw [require_bind_eq_ok, pure_eq_ok] at read
    obtain ⟨unlinked, same⟩ := read
    obtain ⟨stored, linked⟩ := file
    simp only [Bool.not_eq_eq_eq_not, Bool.not_true] at unlinked
    rw [present, ← same, unlinked]

theorem hotFile_of_unlinked {file : File Bytes} (present : store.hot name relative = some file)
    (unlinked : file.linked = false) : hotFile store name relative = .ok file.bytes := by
  unfold hotFile
  rw [present]
  dsimp only
  rw [unlinked, require_bind_eq_ok, pure_eq_ok]
  exact ⟨rfl, rfl⟩

theorem Kept.sorted {original : String → Option Bytes} {names : List String}
    {manifest : Manifest Digest} (kept : Kept library original name names store manifest) :
    Kept library original name names store manifest.sorted where
  generationId := kept.generationId
  archiveRoot := kept.archiveRoot
  keys path := by
    rw [← kept.keys path, Manifest.sorted, (orderBy_perm.map Prod.fst).mem_iff]
  entries item inObjects := by
    rw [Manifest.sorted, orderBy_perm.mem_iff] at inObjects
    exact kept.entries item inObjects

def Binds (library : Library Bytes Digest) (original : String → Option Bytes)
    (item : String × Entry Digest) : Prop :=
  ∃ bytes, original item.1 = some bytes ∧ item.2.sha256 = library.hash bytes ∧
    item.2.sizeBytes = library.size bytes

theorem Kept.binds {original : String → Option Bytes} {names : List String}
    {manifest : Manifest Digest} (kept : Kept library original name names store manifest) :
    ∀ item ∈ manifest.objects, Binds library original item := by
  intro item inObjects
  obtain ⟨bytes, known, entryOf⟩ := kept.entries item inObjects
  exact ⟨bytes, known, entryOf.sha256, entryOf.size⟩

theorem mem_of_mem_selectedGenerations {generations : List Listing}
    (member : name ∈ selectedGenerations store generations) :
    ∃ listing ∈ generations, listing.selected = true ∧ listing.generationId = name := by
  rw [selectedGenerations, orderBy_perm.mem_iff, List.mem_map] at member
  obtain ⟨listing, inSelected, same⟩ := member
  rw [List.mem_filter] at inSelected
  exact ⟨listing, inSelected.1, inSelected.2, same⟩

variable [DecidableEq Digest] {completion : Completion Digest}

theorem Published.safeFile {original : String → Option Bytes} {names : List String}
    {planSha256 : Digest} (published : Published library original name names planSha256)
    (inFiles : relative ∈ "plan.json" :: names) :
    (relative == "plan.json" || isBeforeimage relative) = true := by
  rcases List.mem_cons.mp inFiles with rfl | inNames
  · simp
  · simp [published.safe relative inNames]

theorem verifyObject_eq_ok {bytes : Bytes} {entry : Entry Digest}
    (settled : Settled store) (entryOf : EntryOf library store bytes entry)
    (safe : (relative == "plan.json" || isBeforeimage relative) = true) :
    verifyObject library store relative entry = .ok () := by
  obtain ⟨file, found, restores, sha256, size⟩ := entryOf.object
  have validated : validateEntry library relative entry = .ok () := by
    rw [validateEntry, require_bind_eq_ok, require_eq_ok]
    exact ⟨safe, by rw [entryOf.path, entryOf.sha256, beq_self_eq_true]⟩
  have compressed : digest library (some file) =
      .ok (library.hash file.bytes, library.size file.bytes) :=
    digest_of_unlinked (settled.objects _ file found)
  have bytesOf : decompressed library store entry.sha256 = .ok bytes := by
    rw [decompressed, entryOf.sha256, found]
    simp only [restores]
  rw [verifyObject, validated, ok_bind, entryOf.sha256, found, compressed, ok_bind,
    require_bind_eq_ok]
  refine ⟨by rw [sha256, size, beq_self_eq_true], ?_⟩
  rw [← entryOf.sha256, bytesOf, ok_bind, require_eq_ok, entryOf.sha256, entryOf.size,
    beq_self_eq_true]

theorem ValidGeneration.verifySource {bytes : Bytes} {entry : Entry Digest} {message : String}
    (valid : ValidGeneration library (originals name) name store completion)
    (settled : Settled store) (completed : (store.generations name).result.isSome)
    (known : originals name relative = some bytes) (sha256 : entry.sha256 = library.hash bytes)
    (size : entry.sizeBytes = library.size bytes) :
    ColdArchive.verifySource library store name relative entry message = .ok () := by
  unfold ColdArchive.verifySource
  cases present : store.hot name relative with
  | none => rfl
  | some file =>
    have same := (valid.hot relative file present).2
    rw [known, Option.some.injEq] at same
    have unlinked := settled.hot name relative file completed present
    simp only [digest_of_unlinked unlinked, ok_bind, require_eq_ok]
    rw [sha256, size, same, beq_self_eq_true]

/-! ## The manifest -/

theorem Kept.validateEntries {original : String → Option Bytes} {names : List String}
    {planSha256 : Digest} {manifest : Manifest Digest}
    (kept : Kept library original name names store manifest)
    (published : Published library original name names planSha256) :
    each (fun item => validateEntry library item.1 item.2) manifest.objects = .ok () := by
  rw [each_eq_ok]
  intro item inObjects
  obtain ⟨bytes, -, entryOf⟩ := kept.entries item inObjects
  have inFiles := (kept.keys item.1).mp (List.mem_map_of_mem inObjects)
  rw [validateEntry, require_bind_eq_ok, require_eq_ok]
  exact ⟨published.safeFile inFiles, by rw [entryOf.path, entryOf.sha256, beq_self_eq_true]⟩

theorem Kept.manifestMetadata {original : String → Option Bytes} {names : List String}
    {planSha256 : Digest} {file : Sealed Digest}
    (kept : Kept library original name names store file.manifest)
    (published : Published library original name names planSha256)
    (found : (store.generations name).manifest = some file) (unlinked : file.linked = false) :
    ColdArchive.manifestMetadata library store name = .ok file.manifest := by
  obtain ⟨entry, plan, -⟩ := kept.planEntry
  unfold ColdArchive.manifestMetadata
  rw [found]
  dsimp only
  rw [unlinked, require_bind_eq_ok, require_bind_eq_ok, bind_eq_ok]
  refine ⟨rfl, ?_, (), kept.validateEntries published, rfl⟩
  rw [kept.generationId, kept.archiveRoot, published.named, plan]
  simp

theorem Kept.verifyArchivedPlan {original : String → Option Bytes} {names : List String}
    {planSha256 : Digest} {manifest : Manifest Digest}
    (kept : Kept library original name names store manifest)
    (published : Published library original name names planSha256) :
    ColdArchive.verifyArchivedPlan library store name manifest = .ok () := by
  obtain ⟨entry, found, inObjects⟩ := kept.planEntry
  obtain ⟨bytes, known, -, restores⟩ := kept.decompressed inObjects
  obtain ⟨stored, plan, refs, original', -, decoded, generationId, root, bindings, images⟩ :=
    published.plan
  cases known.symm.trans original'
  unfold ColdArchive.verifyArchivedPlan
  simp only [found, restores, ok_bind, checkPlan_eq_ok decoded generationId root, bindings]
  rw [each_eq_ok]
  intro ref inRefs
  obtain ⟨inNames, image, knownImage, sha256⟩ := images ref inRefs
  have inKeys := (kept.keys ref.1).mpr (List.mem_cons_of_mem _ inNames)
  obtain ⟨item, inItems, same⟩ := List.mem_map.mp inKeys
  have present : (lookup ref.1 manifest.objects).isSome := by
    rw [lookup_isSome, List.any_eq_true]
    exact ⟨item, inItems, by simp [same]⟩
  obtain ⟨imageEntry, lookedUp⟩ := Option.isSome_iff_exists.mp present
  obtain ⟨imageBytes, imageKnown, imageSha, -⟩ :=
    kept.decompressed (mem_of_lookup_eq_some lookedUp)
  cases knownImage.symm.trans imageKnown
  rw [lookedUp, require_eq_ok, Option.map_some, imageSha, sha256, beq_self_eq_true]

theorem verifyArchivedGeneration_eq_ok {manifest : Manifest Digest}
    (verified : verifyArchivedGeneration library store name = .ok manifest) :
    (store.generations name).manifest = some ⟨manifest, false⟩ := by
  rw [verifyArchivedGeneration, bind_eq_ok] at verified
  obtain ⟨read, metadata, verified⟩ := verified
  rw [bind_eq_ok] at verified
  obtain ⟨_, -, verified⟩ := verified
  rw [bind_eq_ok] at verified
  obtain ⟨_, -, same⟩ := verified
  rw [pure_eq_ok] at same
  rw [← same]
  exact manifestMetadata_eq_ok metadata

theorem Valid.verifyArchivedGeneration {file : Sealed Digest}
    (valid : Valid library originals store) (settled : Settled store)
    (result : (store.generations name).result = some completion)
    (found : (store.generations name).manifest = some file) :
    ColdArchive.verifyArchivedGeneration library store name = .ok file.manifest := by
  have generation := valid.completed name completion result
  have kept := generation.archived file found
  have completed : (store.generations name).result.isSome := by rw [result]; rfl
  rw [ColdArchive.verifyArchivedGeneration,
    kept.manifestMetadata generation.published found (settled.manifests name file found), ok_bind]
  have objects : each (fun item => do
      verifyObject library store item.1 item.2
      ColdArchive.verifySource library store name item.1 item.2
        "Hot source differs from cold archive") file.manifest.objects = .ok () := by
    rw [each_eq_ok]
    intro item inObjects
    obtain ⟨bytes, known, entryOf⟩ := kept.entries item inObjects
    have inFiles := (kept.keys item.1).mp (List.mem_map_of_mem inObjects)
    rw [verifyObject_eq_ok settled entryOf (generation.published.safeFile inFiles), ok_bind]
    exact generation.verifySource settled completed known entryOf.sha256 entryOf.size
  rw [objects, ok_bind, kept.verifyArchivedPlan generation.published, ok_bind, pure_eq_ok]

/-! ## Compression -/

theorem Valid.objectEntry_eq_ok {bytes : Bytes} {entry : Entry Digest}
    (valid : Valid library originals store)
    (made : objectEntry library relative (library.hash bytes) (library.size bytes) store =
      .ok entry) : EntryOf library store bytes entry := by
  rw [objectEntry, bind_eq_ok] at made
  obtain ⟨object, digested, made⟩ := made
  rw [bind_eq_ok] at made
  obtain ⟨_, -, same⟩ := made
  rw [pure_eq_ok] at same
  obtain ⟨stored, found, rfl⟩ := digest_eq_ok.mp digested
  obtain ⟨original, named, restores⟩ := valid.objects _ _ found
  have equal := library.hash_injective named
  subst equal
  rw [← same]
  exact ⟨rfl, rfl, rfl, _, found, restores, rfl, rfl⟩

theorem Valid.objectEntry {bytes : Bytes} {file : File Bytes}
    (valid : Valid library originals store) (settled : Settled store)
    (found : store.objects (library.hash bytes) = some file)
    (safe : (relative == "plan.json" || isBeforeimage relative) = true) :
    ∃ entry, ColdArchive.objectEntry library relative (library.hash bytes)
      (library.size bytes) store = .ok entry := by
  obtain ⟨original, named, restores⟩ := valid.objects _ _ found
  have equal := library.hash_injective named
  subst equal
  let entry : Entry Digest :=
    { sha256 := library.hash bytes, sizeBytes := library.size bytes
      objectSha256 := library.hash file.bytes, objectSizeBytes := library.size file.bytes
      objectPath := library.objectPath (library.hash bytes) }
  have entryOf : EntryOf library store bytes entry :=
    ⟨rfl, rfl, rfl, file, found, restores, rfl, rfl⟩
  refine ⟨entry, ?_⟩
  have verified := verifyObject_eq_ok settled entryOf safe
  rw [ColdArchive.objectEntry, found, digest_of_unlinked (settled.objects _ file found), ok_bind]
  show (verifyObject library store relative entry >>= fun _ => pure entry) = .ok entry
  rw [verified, ok_bind, pure_eq_ok]

theorem sourceFiles_eq_ok {planSha256 : Digest} {sources : List String}
    (read : sourceFiles library store name planSha256 = .ok sources) :
    sources = hotSources store name := by
  rw [sourceFiles, bind_eq_ok] at read
  obtain ⟨_, -, read⟩ := read
  rw [require_bind_eq_ok] at read
  obtain ⟨-, read⟩ := read
  split at read
  · cases read
  · rw [bind_eq_ok] at read
    obtain ⟨_, -, read⟩ := read
    rw [bind_eq_ok] at read
    obtain ⟨_, -, read⟩ := read
    rw [bind_eq_ok] at read
    obtain ⟨_, -, read⟩ := read
    rw [bind_eq_ok] at read
    obtain ⟨_, -, read⟩ := read
    rw [require_bind_eq_ok, pure_eq_ok] at read
    exact read.2.symm

theorem ValidGeneration.mem_hotSources
    (valid : ValidGeneration library (originals name) name store completion)
    (unsealed : (store.generations name).manifest = none) :
    relative ∈ hotSources store name ↔ relative ∈ (store.generations name).files := by
  rw [hotSources, Generation.files, List.mem_cons, List.mem_cons, List.mem_filter]
  refine or_congr_right ⟨And.left, fun inNames => ⟨inNames, ?_⟩⟩
  exact valid.whole unsealed relative (List.mem_cons_of_mem _ inNames)

theorem ValidGeneration.file
    (valid : ValidGeneration library (originals name) name store completion)
    (unsealed : (store.generations name).manifest = none)
    (inFiles : relative ∈ (store.generations name).files) :
    ∃ file, store.hot name relative = some file ∧ originals name relative = some file.bytes := by
  obtain ⟨file, present⟩ := Option.isSome_iff_exists.mp (valid.whole unsealed relative inFiles)
  exact ⟨file, present, (valid.hot relative file present).2⟩

theorem ValidGeneration.digest
    (valid : ValidGeneration library (originals name) name store completion)
    (settled : Settled store) (result : (store.generations name).result = some completion)
    (unsealed : (store.generations name).manifest = none)
    (inFiles : relative ∈ (store.generations name).files) :
    ∃ bytes, originals name relative = some bytes ∧
      ColdArchive.digest library (store.hot name relative) =
        .ok (library.hash bytes, library.size bytes) := by
  obtain ⟨file, present, known⟩ := valid.file unsealed inFiles
  have completed : (store.generations name).result.isSome := by rw [result]; rfl
  refine ⟨file.bytes, known, ?_⟩
  rw [present, digest_of_unlinked (settled.hot name relative file completed present)]

theorem ValidGeneration.sourceFiles
    (valid : ValidGeneration library (originals name) name store completion)
    (settled : Settled store) (result : (store.generations name).result = some completion)
    (unsealed : (store.generations name).manifest = none) :
    ColdArchive.sourceFiles library store name completion.planSha256 =
      .ok (hotSources store name) := by
  obtain ⟨bytes, plan, refs, original, sha256, decoded, generationId, root, bindings, images⟩ :=
    valid.published.plan
  have planFile : "plan.json" ∈ (store.generations name).files := List.mem_cons_self
  obtain ⟨stored, known, digested⟩ := valid.digest settled result unsealed planFile
  obtain ⟨file, present, same⟩ := valid.file unsealed planFile
  cases original.symm.trans known
  rw [original, Option.some.injEq] at same
  rw [ColdArchive.sourceFiles, digested, ok_bind, sha256, beq_self_eq_true]
  simp only [present, ← same, checkPlan_eq_ok decoded generationId root, bindings, ok_bind]
  have sources : each (fun relative => do
      let _ ← ColdArchive.digest library (store.hot name relative)) (hotSources store name) =
      .ok () := by
    rw [each_eq_ok]
    intro relative inSources
    have inFiles := (valid.mem_hotSources unsealed).mp inSources
    obtain ⟨_, -, found⟩ := valid.digest settled result unsealed inFiles
    rw [found]
    rfl
  have beforeimages : each (fun ref => do
      let found ← ColdArchive.digest library (store.hot name ref.1)
      require (found.1 == ref.2) "Publication beforeimage differs from plan binding") refs =
      .ok () := by
    rw [each_eq_ok]
    intro ref inRefs
    obtain ⟨inNames, image, knownImage, imageSha⟩ := images ref inRefs
    obtain ⟨_, found, digestedImage⟩ := valid.digest settled result unsealed
      (List.mem_cons_of_mem _ inNames)
    cases knownImage.symm.trans found
    rw [digestedImage, ok_bind, require_eq_ok, imageSha, beq_self_eq_true]
  have all : (refs.all fun ref => (hotSources store name).contains ref.1) = true := by
    rw [List.all_eq_true]
    intro ref inRefs
    rw [List.contains_iff_mem, valid.mem_hotSources unsealed]
    exact List.mem_cons_of_mem _ (images ref inRefs).1
  rw [sources, ok_bind, beforeimages, ok_bind, all]
  rfl

/-! ## Restoration -/

theorem Kept.restoredBytes {original : String → Option Bytes} {names : List String}
    {manifest : Manifest Digest} {item : String × Entry Digest} {bytes : Bytes}
    (kept : Kept library original name names store manifest)
    (inObjects : item ∈ manifest.objects)
    (known : original item.1 = some bytes) :
    ColdArchive.restoredBytes library store item.2 = .ok bytes := by
  obtain ⟨stored, same, sha256, restores⟩ := kept.decompressed inObjects
  obtain ⟨other, alsoKnown, entryOf⟩ := kept.entries item inObjects
  cases known.symm.trans same
  cases known.symm.trans alsoKnown
  rw [ColdArchive.restoredBytes, restores, ok_bind, require_bind_eq_ok, pure_eq_ok, sha256,
    entryOf.size, beq_self_eq_true]
  exact ⟨rfl, rfl⟩

/-! ## Selection -/

/-- What a selected generation is not. -/
structure Unprotected (surroundings : Surroundings) (store : Store Bytes Digest)
    (name : String) : Prop where
  listed : name ∈ store.listed
  active : surroundings.history name = .legacyActive
  completed : (store.generations name).result.isSome
  gate : ∃ gate, surroundings.gate = .ok gate ∧ name ≠ gate
  bound : ∃ bound, surroundings.bound = .ok bound ∧ name ∉ bound
  newest : name ∉ newestTwo surroundings store

theorem reasonOf_eq_eligible {protection : Protection} {intent completed : Bool}
    (eligible : reasonOf protection name intent completed = .eligible) :
    name ≠ protection.gate ∧ name ∉ protection.bound ∧ name ∉ protection.newest ∧
      completed = true := by
  unfold reasonOf at eligible
  split at eligible
  · cases eligible
  · split at eligible
    · cases eligible
    · split at eligible
      · cases eligible
      · split at eligible
        · cases eligible
        · split at eligible
          · rename_i gate bound _ newest completed
            simp only [List.contains_iff_mem] at bound newest
            exact ⟨gate, bound, newest, completed⟩
          · cases eligible

theorem reasonOf_ne_archiveResume {protection : Protection} {intent completed : Bool} :
    reasonOf protection name intent completed ≠ .archiveResume := by
  unfold reasonOf
  split_ifs <;> simp

theorem Protection.covers_eq_false {protection : Protection} {intent : Bool}
    (uncovered : protection.covers name intent = false) :
    name ≠ protection.gate ∧ name ∉ protection.bound ∧ name ∉ protection.newest := by
  simp only [Protection.covers, Bool.or_eq_false_iff, beq_eq_false_iff_ne] at uncovered
  obtain ⟨⟨⟨newest, gate⟩, bound⟩, -⟩ := uncovered
  refine ⟨gate, ?_, ?_⟩
  · rw [← List.contains_iff_mem, bound]
    exact Bool.false_ne_true
  · rw [← List.contains_iff_mem, newest]
    exact Bool.false_ne_true

theorem previewActive_selected {protection : Protection} {intent : Bool} {listing : Listing}
    (previewed : previewActive library protection store name intent = .ok listing)
    (selected : listing.selected = true) :
    listing.generationId = name ∧ name ≠ protection.gate ∧ name ∉ protection.bound ∧
      name ∉ protection.newest ∧ (store.generations name).result.isSome := by
  unfold previewActive at previewed
  dsimp only at previewed
  split at previewed
  · rw [previewArchived, bind_eq_ok] at previewed
    obtain ⟨manifest, -, previewed⟩ := previewed
    rw [require_bind_eq_ok, pure_eq_ok, Bool.and_eq_true] at previewed
    obtain ⟨⟨-, completed⟩, rfl⟩ := previewed
    cases covered : protection.covers name intent with
    | true => simp [Listing.selected, covered] at selected
    | false =>
      obtain ⟨gate, bound, newest⟩ := Protection.covers_eq_false covered
      exact ⟨rfl, gate, bound, newest, completed⟩
  · split at previewed
    · rename_i eligible
      rw [previewEligible, require_bind_eq_ok, pure_eq_ok] at previewed
      obtain ⟨-, rfl⟩ := previewed
      obtain ⟨gate, bound, newest, completed⟩ := reasonOf_eq_eligible eligible
      exact ⟨rfl, gate, bound, newest, completed⟩
    · rename_i ineligible
      simp only [Except.ok.injEq] at previewed
      subst previewed
      simp only [Listing.selected, Bool.or_eq_true, decide_eq_true_eq] at selected
      rcases selected with eligible | resumed
      · exact absurd eligible ineligible
      · exact absurd resumed reasonOf_ne_archiveResume

theorem previewGeneration_selected {surroundings : Surroundings} {protection : Protection}
    {listing : Listing}
    (previewed : previewGeneration library surroundings protection store name = .ok listing)
    (selected : listing.selected = true) :
    listing.generationId = name ∧ surroundings.history name = .legacyActive ∧
      name ≠ protection.gate ∧ name ∉ protection.bound ∧ name ∉ protection.newest ∧
      (store.generations name).result.isSome := by
  unfold previewGeneration at previewed
  split at previewed
  · cases previewed
    cases selected
  · cases previewed
    cases selected
  · rename_i active
    rw [bind_eq_ok] at previewed
    obtain ⟨intent, -, previewed⟩ := previewed
    obtain ⟨same, gate, bound, newest, completed⟩ := previewActive_selected previewed selected
    exact ⟨same, active, gate, bound, newest, completed⟩

theorem previewArchive_eq_ok {surroundings : Surroundings} {maxGenerations : Nat}
    {selection : Preview}
    (previewed : previewArchive library surroundings maxGenerations store = .ok selection) :
    ∀ name ∈ selection.eligibleGenerations, Unprotected surroundings store name := by
  rw [previewArchive, require_bind_eq_ok, bind_eq_ok] at previewed
  obtain ⟨-, gate, gated, previewed⟩ := previewed
  rw [bind_eq_ok] at previewed
  obtain ⟨bound, bounded, previewed⟩ := previewed
  rw [require_bind_eq_ok, bind_eq_ok] at previewed
  obtain ⟨-, generations, mapped, previewed⟩ := previewed
  rw [pure_eq_ok] at previewed
  subst previewed
  intro name member
  obtain ⟨listing, inGenerations, selected, rfl⟩ :=
    mem_of_mem_selectedGenerations (List.mem_of_mem_take member)
  obtain ⟨source, listed, made⟩ := exists_of_mapM_eq_ok mapped listing inGenerations
  obtain ⟨same, active, notGate, notBound, notNewest, completed⟩ :=
    previewGeneration_selected made selected
  rw [same]
  exact ⟨listed, active, completed, ⟨gate, gated, notGate⟩, ⟨bound, bounded, notBound⟩,
    notNewest⟩

structure Surroundings.Readable (surroundings : Surroundings) : Prop where
  gate : ∃ gate, surroundings.gate = .ok gate
  bound : ∃ bound, surroundings.bound = .ok bound
  intent : ∀ name, ∃ intent, surroundings.intent name = .ok intent

theorem Valid.previewArchived {covered : Bool} {file : Sealed Digest}
    (valid : Valid library originals store) (settled : Settled store)
    (found : (store.generations name).manifest = some file) :
    ∃ listing, ColdArchive.previewArchived library store name covered = .ok listing := by
  cases result : (store.generations name).result with
  | none =>
    rw [valid.unfinished name result] at found
    cases found
  | some completion =>
    have generation := valid.completed name completion result
    have kept := generation.archived file found
    have metadata := kept.manifestMetadata generation.published found
      (settled.manifests name file found)
    obtain ⟨entry, lookedUp, inObjects⟩ := kept.planEntry
    obtain ⟨bytes, known, sha256, -⟩ := kept.decompressed inObjects
    obtain ⟨stored, _, _, original, planSha, -⟩ := generation.published.plan
    cases known.symm.trans original
    rw [ColdArchive.previewArchived, metadata, ok_bind, result, lookedUp, Option.map_some,
      Option.map_some, sha256, planSha]
    exact ⟨_, require_bind_eq_ok.mpr ⟨by simp, rfl⟩⟩

theorem ValidGeneration.previewEligible
    (valid : ValidGeneration library (originals name) name store completion)
    (settled : Settled store) (result : (store.generations name).result = some completion)
    (unsealed : (store.generations name).manifest = none) :
    ∃ listing, ColdArchive.previewEligible library store name = .ok listing := by
  refine ⟨_, require_bind_eq_ok.mpr ⟨?_, rfl⟩⟩
  rw [List.all_eq_true]
  intro relative inSources
  have inFiles := (valid.mem_hotSources unsealed).mp inSources
  obtain ⟨file, present, -⟩ := valid.file unsealed inFiles
  have completed : (store.generations name).result.isSome := by rw [result]; rfl
  rw [present, regular, settled.hot name relative file completed present]
  rfl

theorem Valid.previewGeneration {surroundings : Surroundings} {protection : Protection}
    (valid : Valid library originals store) (settled : Settled store)
    (readable : surroundings.Readable) (name : String) :
    ∃ listing, ColdArchive.previewGeneration library surroundings protection store name =
      .ok listing := by
  unfold ColdArchive.previewGeneration
  split
  · exact ⟨_, rfl⟩
  · exact ⟨_, rfl⟩
  · obtain ⟨intent, read⟩ := readable.intent name
    rw [read, ok_bind]
    unfold previewActive
    dsimp only
    split
    · rename_i archived
      obtain ⟨file, found⟩ := Option.isSome_iff_exists.mp archived
      exact valid.previewArchived settled found
    · split
      · rename_i unarchived eligible
        have completed := (reasonOf_eq_eligible eligible).2.2.2
        obtain ⟨completion, result⟩ := Option.isSome_iff_exists.mp completed
        have unsealed := Option.not_isSome_iff_eq_none.mp unarchived
        exact (valid.completed name completion result).previewEligible settled result unsealed
      · exact ⟨_, rfl⟩

theorem Valid.previewArchive {surroundings : Surroundings} {maxGenerations : Nat}
    (valid : Valid library originals store) (settled : Settled store)
    (readable : surroundings.Readable) (positive : 1 ≤ maxGenerations) :
    ∃ selection, ColdArchive.previewArchive library surroundings maxGenerations store =
      .ok selection := by
  obtain ⟨gate, gated⟩ := readable.gate
  obtain ⟨bound, bounded⟩ := readable.bound
  have directories : store.listed.all isGenerationId = true := by
    rw [List.all_eq_true]
    exact valid.listed
  let protection : Protection := ⟨gate, bound, newestTwo surroundings store⟩
  have previewed (name : String) (_ : name ∈ store.listed) : ∃ listing,
      ColdArchive.previewGeneration library surroundings protection store name = .ok listing :=
    valid.previewGeneration settled readable name
  obtain ⟨generations, mapped⟩ := mapM_of_forall_ok previewed
  simp only [ColdArchive.previewArchive, gated, bounded, directories, ok_bind]
  exact ⟨_, require_bind_eq_ok.mpr ⟨decide_eq_true positive,
    require_bind_eq_ok.mpr ⟨rfl, bind_eq_ok.mpr ⟨generations, mapped, rfl⟩⟩⟩⟩

end JobAgg.ColdArchive
