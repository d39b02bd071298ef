import JobAgg.ColdArchive.Steps

/-! # Archives and restorations in any order

Calls of `archive_completed` and `restore_generation`, each stopped between any two file
operations, while publication completes other generations and moves its gate.
-/

namespace JobAgg.ColdArchive

open Durable

variable {Bytes Digest : Type} {library : Library Bytes Digest}
  {store : Store Bytes Digest} {originals : String → String → Option Bytes} {name : String}

def TwoAsNew (surroundings : Surroundings) (store : Store Bytes Digest) (name : String)
    (completion : Completion Digest) : Prop :=
  2 ≤ ((completedGenerations surroundings store).filter fun item =>
    item.1 != name && decide (completion.completedAt ≤ item.2.completedAt)).length

theorem Unprotected.twoAsNew {surroundings : Surroundings} {completion : Completion Digest}
    (unprotected : Unprotected surroundings store name)
    (result : (store.generations name).result = some completion) :
    TwoAsNew surroundings store name completion := by
  let sorted := orderByDesc (fun item => item.2.completedAt)
    (completedGenerations surroundings store)
  have newest : name ∉ (sorted.take 2).map Prod.fst := unprotected.newest
  have inSorted : (name, completion) ∈ sorted := by
    rw [orderByDesc_perm.mem_iff, completedGenerations, List.mem_filterMap]
    exact ⟨name, unprotected.listed, by rw [if_pos unprotected.active, result]; rfl⟩
  have inRest : (name, completion) ∈ sorted.drop 2 := by
    rw [← List.take_append_drop 2 sorted, List.mem_append] at inSorted
    exact inSorted.resolve_left fun inNewest => newest (List.mem_map_of_mem inNewest)
  have long : 2 < sorted.length := by
    have := List.length_pos_of_mem inRest
    rw [List.length_drop] at this
    omega
  have ordered : sorted.Pairwise fun a b => b.2.completedAt ≤ a.2.completedAt :=
    orderByDesc_ordered
  rw [← List.take_append_drop 2 sorted, List.pairwise_append] at ordered
  have picked : ∀ item ∈ sorted.take 2,
      (item.1 != name && decide (completion.completedAt ≤ item.2.completedAt)) = true := by
    intro item inNewest
    have apart : item.1 ≠ name := fun same =>
      newest (same ▸ List.mem_map_of_mem inNewest)
    simp [apart, ordered.2.2 item inNewest _ inRest]
  have kept : ((sorted.take 2).filter fun item =>
      item.1 != name && decide (completion.completedAt ≤ item.2.completedAt)).length = 2 := by
    rw [List.filter_eq_self.mpr picked, List.length_take]
    omega
  have all : sorted.Perm (completedGenerations surroundings store) := orderByDesc_perm
  rw [TwoAsNew, ← (all.filter _).length_eq]
  calc 2 = ((sorted.take 2).filter fun item =>
        item.1 != name && decide (completion.completedAt ≤ item.2.completedAt)).length :=
        kept.symm
    _ ≤ _ := ((List.take_sublist 2 sorted).filter _).length_le

/-- What a removed file may not belong to: the gate, the newest two or a bound generation. -/
def Removable (surroundings : Surroundings) (store : Store Bytes Digest) (name : String) :
    Prop :=
  (∃ gate, surroundings.gate = .ok gate ∧ name ≠ gate) ∧
    (∃ bound, surroundings.bound = .ok bound ∧ name ∉ bound) ∧
    ∃ completion, (store.generations name).result = some completion ∧
      TwoAsNew surroundings store name completion

theorem Unprotected.removable {surroundings : Surroundings}
    (unprotected : Unprotected surroundings store name) : Removable surroundings store name := by
  obtain ⟨completion, result⟩ := Option.isSome_iff_exists.mp unprotected.completed
  exact ⟨unprotected.gate, unprotected.bound, completion, result, unprotected.twoAsNew result⟩

/-! ## Histories -/

theorem returns_of_settled {Result : Type} {computation : Durable (Store Bytes Digest) Result}
    {allows : Store Bytes Digest → Store Bytes Digest → Prop}
    {returns : Result → Store Bytes Digest → Prop}
    (meets : Meets computation store allows returns (Disturbed True)) :
    ∃ result, (computation store).outcome = .ok result ∧
      returns result (computation.final store) := by
  have quiet : Meets computation store allows returns (fun _ _ => False) :=
    meets.mono (fun _ _ => id) (fun _ _ => id) fun _ _ disturbed => disturbed trivial
  exact quiet.returns_of_never_raises

/-- The state directory before the first generation. -/
def emptyStore : Store Bytes Digest :=
  { listed := []
    generations := fun _ => { result := none, names := [], hot := fun _ => none, manifest := none }
    objects := fun _ => none }

variable [DecidableEq Digest] {admitted : Store Bytes Digest → Prop}

/-- A generation that publication has just completed. -/
structure Fresh (library : Library Bytes Digest) (original : String → Option Bytes)
    (name : String) (generation : Generation Bytes Digest) (completion : Completion Digest) :
    Prop where
  published : Published library original name generation.names completion.planSha256
  hot : ∀ relative file, generation.hot relative = some file →
    relative ∈ generation.files ∧ original relative = some file.bytes ∧ file.linked = false
  whole : ∀ relative ∈ generation.files, (generation.hot relative).isSome
  manifest : generation.manifest = none

/-- What publication does between two calls: completed generations and the archive stay. -/
structure Publishes (library : Library Bytes Digest)
    (originals later : String → String → Option Bytes) (before after : Store Bytes Digest) :
    Prop where
  objects : after.objects = before.objects
  listed : ∀ name ∈ after.listed, isGenerationId name = true
  unfinished : ∀ name, (after.generations name).result = none →
    (after.generations name).manifest = none
  completed : ∀ name, (before.generations name).result.isSome →
    after.generations name = before.generations name ∧ later name = originals name
  fresh : ∀ name completion, (before.generations name).result = none →
    (after.generations name).result = some completion →
    Fresh library (later name) name (after.generations name) completion

/-- The stores that calls leave, stopped at any step or not at all where `admitted` holds.
`originals` are the bytes of every generation when it was completed. -/
inductive History (library : Library Bytes Digest) (admitted : Store Bytes Digest → Prop) :
    (String → String → Option Bytes) → Store Bytes Digest → Prop
  | empty : History library admitted (fun _ _ => none) emptyStore
  | publish {originals later : String → String → Option Bytes}
      {before after : Store Bytes Digest} : History library admitted originals before →
      Publishes library originals later before after → History library admitted later after
  | archive {originals : String → String → Option Bytes} {store : Store Bytes Digest}
      (surroundings : Surroundings) (maxGenerations : Nat)
      (states : List (Store Bytes Digest)) : History library admitted originals store →
      Stopped (archiveCompleted library surroundings maxGenerations) store states →
      admitted (states.getLastD store) →
      History library admitted originals (states.getLastD store)
  | restore {originals : String → String → Option Bytes} {store : Store Bytes Digest}
      (surroundings : Surroundings) (name : String) (states : List (Store Bytes Digest)) :
      History library admitted originals store →
      Stopped (restoreGeneration library surroundings name) store states →
      admitted (states.getLastD store) →
      History library admitted originals (states.getLastD store)

/-! ## Every store is valid -/

theorem Publishes.valid {later : String → String → Option Bytes} {after : Store Bytes Digest}
    (publishes : Publishes library originals later store after)
    (valid : Valid library originals store) : Valid library later after where
  objects := by
    rw [publishes.objects]
    exact valid.objects
  listed := publishes.listed
  unfinished := publishes.unfinished
  completed name completion result := by
    cases before : (store.generations name).result with
    | none =>
      have fresh := publishes.fresh name completion before result
      constructor
      · exact fresh.published
      · intro relative file present
        exact ⟨(fresh.hot relative file present).1, (fresh.hot relative file present).2.1⟩
      · exact fun _ => fresh.whole
      · intro file found
        rw [fresh.manifest] at found
        cases found
    | some earlier =>
      obtain ⟨same, bytes⟩ := publishes.completed name (by rw [before]; rfl)
      rw [same] at result
      have generation := valid.completed name completion result
      constructor
      · rw [same, bytes]
        exact generation.published
      · simp only [Store.hot, same, bytes]
        exact generation.hot
      · simp only [Store.hot, same]
        exact generation.whole
      · intro file found
        rw [same] at found ⊢
        rw [bytes]
        exact (generation.archived file found).congr publishes.objects

theorem Publishes.settled {later : String → String → Option Bytes}
    {after : Store Bytes Digest} (publishes : Publishes library originals later store after)
    (settled : Settled store) : Settled after where
  objects := by
    rw [publishes.objects]
    exact settled.objects
  hot name relative file completed present := by
    cases before : (store.generations name).result with
    | none =>
      obtain ⟨completion, result⟩ := Option.isSome_iff_exists.mp completed
      exact ((publishes.fresh name completion before result).hot relative file present).2.2
    | some earlier =>
      obtain ⟨same, -⟩ := publishes.completed name (by rw [before]; rfl)
      rw [Store.hot, same] at present
      exact settled.hot name relative file (by rw [before]; rfl) present
  manifests name file found := by
    cases before : (store.generations name).result with
    | none =>
      cases result : (after.generations name).result with
      | none =>
        rw [publishes.unfinished name result] at found
        cases found
      | some completion =>
        rw [(publishes.fresh name completion before result).manifest] at found
        cases found
    | some earlier =>
      obtain ⟨same, -⟩ := publishes.completed name (by rw [before]; rfl)
      rw [same] at found
      exact settled.manifests name file found

theorem valid_of_chain {removable restorable : String → Prop}
    {states : List (Store Bytes Digest)} (valid : Valid library originals store)
    (chain : List.IsChain (Changes library originals removable restorable) (store :: states)) :
    Valid library originals (states.getLastD store) := by
  induction states generalizing store with
  | nil => exact valid
  | cons next rest induction =>
    rw [List.isChain_cons_cons] at chain
    rw [List.getLastD_cons]
    exact induction chain.1.1 chain.2

theorem Valid.ready (valid : Valid library originals store) :
    Ready library originals False store := ⟨valid, False.elim⟩

theorem History.valid (history : History library admitted originals store) :
    Valid library originals store := by
  induction history with
  | empty =>
    constructor
    · rintro _ _ ⟨⟩
    · simp [emptyStore]
    · exact fun _ _ => rfl
    · rintro _ _ ⟨⟩
  | publish _ publishes valid => exact publishes.valid valid
  | archive surroundings maxGenerations states _ stopped _ valid =>
    exact valid_of_chain valid
      (stopped.isChain (meets_archiveCompleted valid.ready False.elim))
  | restore surroundings name states _ stopped _ valid =>
    exact valid_of_chain valid
      (stopped.isChain (meets_restoreGeneration valid.ready False.elim))

theorem History.settled (history : History library admitted originals store)
    (settles : ∀ store, admitted store → Settled store) : Settled store := by
  induction history with
  | empty =>
    constructor
    · rintro _ _ ⟨⟩
    · rintro _ _ _ ⟨⟩
    · rintro _ _ ⟨⟩
  | publish _ publishes settled => exact publishes.settled settled
  | archive surroundings maxGenerations states _ _ admits _ => exact settles _ admits
  | restore surroundings name states _ _ admits _ => exact settles _ admits

/-! ## The round trip -/

/-- A file of a generation is hot with its bytes, or its object decompresses to them. -/
def Available (library : Library Bytes Digest) (originals : String → String → Option Bytes)
    (store : Store Bytes Digest) (name relative : String) : Prop :=
  ∃ bytes, originals name relative = some bytes ∧
    ((∃ file, store.hot name relative = some file ∧ file.bytes = bytes) ∨
      ∃ file entry, (store.generations name).manifest = some file ∧
        (relative, entry) ∈ file.manifest.objects ∧
        decompressed library store entry.sha256 = .ok bytes)

theorem Valid.available {completion : Completion Digest} {relative : String}
    (valid : Valid library originals store)
    (result : (store.generations name).result = some completion)
    (inFiles : relative ∈ (store.generations name).files) :
    Available library originals store name relative := by
  have generation := valid.completed name completion result
  obtain ⟨bytes, known⟩ := generation.published.known relative inFiles
  refine ⟨bytes, known, ?_⟩
  cases found : (store.generations name).manifest with
  | none =>
    obtain ⟨file, present, same⟩ := generation.file found inFiles
    rw [known, Option.some.injEq] at same
    exact .inl ⟨file, present, same.symm⟩
  | some file =>
    have kept := generation.archived file found
    obtain ⟨item, inObjects, rfl⟩ := List.mem_map.mp ((kept.keys relative).mpr inFiles)
    obtain ⟨stored, original, -, restores⟩ := kept.decompressed inObjects
    cases known.symm.trans original
    exact .inr ⟨file, item.2, rfl, inObjects, restores⟩

theorem frame_of_stopped {Result : Type} {computation : Durable (Store Bytes Digest) Result}
    {removable restorable : String → Prop} {calm : Prop} {states : List (Store Bytes Digest)}
    {returns : Result → Store Bytes Digest → Prop}
    (meets : Meets computation store (Changes library originals removable restorable) returns
      (Disturbed calm)) (stopped : Stopped computation store states) :
    Frame removable restorable store (states.getLastD store) :=
  related_of_isChain Frame.refl Frame.trans (fun _ _ => And.right) (stopped.isChain meets)

/-- In every store of every history, (a) each file of a completed generation is available,
(b) where no stop leaves a file with the link of its temporary, calls return, (c) a restoration
that returns has restored and an archive that lists a generation left nothing of it hot,
and (d) no file of a protected generation is removed. -/
theorem History.roundTrip (history : History library admitted originals store) :
    (∀ name completion, (store.generations name).result = some completion →
      ∀ relative ∈ (store.generations name).files,
        Available library originals store name relative) ∧
    ((∀ store, admitted store → Settled store) →
      ∀ surroundings : Surroundings, surroundings.Readable →
      (∀ maxGenerations, 1 ≤ maxGenerations → ∃ result,
        (archiveCompleted library surroundings maxGenerations store).outcome = .ok result ∧
        Settled (final (archiveCompleted library surroundings maxGenerations) store)) ∧
      ∀ name, (store.generations name).manifest.isSome → ∃ files,
        (restoreGeneration library surroundings name store).outcome = .ok files ∧
        Settled (final (restoreGeneration library surroundings name) store)) ∧
    (∀ surroundings maxGenerations later result,
      Ran (archiveCompleted library surroundings maxGenerations) store later result →
      ∀ archived ∈ result.2, Cold (later.getLastD store) archived.generationId) ∧
    (∀ surroundings name later files,
      Ran (restoreGeneration library surroundings name) store later files →
      Restored originals (later.getLastD store) name) ∧
    (∀ surroundings maxGenerations states,
      Stopped (archiveCompleted library surroundings maxGenerations) store states →
      ∀ name relative, (store.hot name relative).isSome →
        (states.getLastD store).hot name relative = none →
        Removable surroundings store name) ∧
    ∀ surroundings restored states,
      Stopped (restoreGeneration library surroundings restored) store states →
      ∀ name relative, (store.hot name relative).isSome →
        ((states.getLastD store).hot name relative).isSome := by
  have valid := history.valid
  refine ⟨fun name completion result relative => valid.available result,
    fun settles surroundings readable => ⟨fun maxGenerations positive => ?_,
      fun name archived => ?_⟩, ?_, ?_, ?_, ?_⟩
  · have ready : Ready library originals True store := ⟨valid, fun _ => history.settled settles⟩
    obtain ⟨result, returned, ends, -⟩ := returns_of_settled
      (meets_archiveCompleted ready fun _ => ⟨readable, positive⟩)
    exact ⟨result, returned, ends.settled trivial⟩
  · have ready : Ready library originals True store := ⟨valid, fun _ => history.settled settles⟩
    obtain ⟨files, returned, ends, -⟩ := returns_of_settled
      (meets_restoreGeneration ready fun _ => ⟨readable.gate, archived⟩)
    exact ⟨files, returned, ends.settled trivial⟩
  · intro surroundings maxGenerations later result ran
    exact ((meets_archiveCompleted valid.ready False.elim).ran ran).2.2
  · intro surroundings name later files ran
    exact ((meets_restoreGeneration valid.ready False.elim).ran ran).2.2
  · intro surroundings maxGenerations states stopped name relative present absent
    have frame := frame_of_stopped (meets_archiveCompleted valid.ready False.elim) stopped
    exact (frame.removed name relative present absent).removable
  · intro surroundings restored states stopped name relative present
    have frame := frame_of_stopped (meets_restoreGeneration valid.ready False.elim) stopped
    cases absent : (states.getLastD store).hot name relative with
    | none => exact (frame.removed name relative present absent).elim
    | some file => rfl

/-! ## A stop between a link and its unlink -/

def generationName (number : Nat) : String :=
  match number with
  | 1 => "00000000000000000000000000000001"
  | 2 => "00000000000000000000000000000002"
  | _ => "00000000000000000000000000000003"

/-- Bytes name themselves, and compression puts one byte before them. -/
def plainLibrary : Library (List Nat) (List Nat) where
  compress bytes := 31 :: bytes
  decompress
    | 31 :: bytes => some bytes
    | _ => none
  decompress_compress _ := rfl
  hash := id
  hash_injective := Function.injective_id
  size := List.length
  readPlan
    | [number] => .ok ⟨generationName number, "/state/generations/" ++ generationName number, []⟩
    | _ => .error "JSONDecodeError"
  objectPath _ := "/state/cold_archive/objects"
  archiveRoot := "/state/cold_archive"
  generationRoot name := "/state/generations/" ++ name

def plainGeneration (number : Nat) : Generation (List Nat) (List Nat) :=
  { result := some ⟨[number], number⟩, names := []
    hot := fun relative => if relative = "plan.json" then some ⟨[number], false⟩ else none
    manifest := none }

/-- Three generations were completed. -/
def plainStore : Store (List Nat) (List Nat) :=
  { listed := [generationName 1, generationName 2, generationName 3]
    generations := fun name =>
      if name = generationName 1 then plainGeneration 1
      else if name = generationName 2 then plainGeneration 2
      else if name = generationName 3 then plainGeneration 3
      else { result := none, names := [], hot := fun _ => none, manifest := none }
    objects := fun _ => none }

/-- The gate is at the last generation. -/
def plainSurroundings : Surroundings :=
  { gate := .ok (generationName 3), bound := .ok [], intent := fun _ => .ok false
    history := fun _ => .legacyActive }

theorem newestTwo_plain {store : Store (List Nat) (List Nat)}
    (listed : store.listed = plainStore.listed)
    (same : store.generations = plainStore.generations) :
    newestTwo plainSurroundings store = [generationName 3, generationName 2] := by
  have completed : completedGenerations plainSurroundings store =
      [(generationName 1, ⟨[1], 1⟩), (generationName 2, ⟨[2], 2⟩),
        (generationName 3, ⟨[3], 3⟩)] := by
    rw [completedGenerations, listed, same]
    rfl
  have increasing : [(generationName 1, Completion.mk [1] 1), (generationName 2, ⟨[2], 2⟩),
      (generationName 3, ⟨[3], 3⟩)].Pairwise fun a b => a.2.completedAt < b.2.completedAt := by
    simp
  rw [newestTwo, completed, orderByDesc_eq_reverse (eq_of_key_eq_of_increasing increasing),
    orderBy_eq_self (increasing.imp le_of_lt)]
  rfl

def plainListings : List Listing :=
  [⟨generationName 1, .eligible, 1, 1⟩, ⟨generationName 2, .newestTwoComplete, 0, 0⟩,
    ⟨generationName 3, .currentGate, 0, 0⟩]

theorem previewArchive_plain {store : Store (List Nat) (List Nat)}
    (listed : store.listed = plainStore.listed)
    (same : store.generations = plainStore.generations) :
    previewArchive plainLibrary plainSurroundings 1 store =
      .ok ⟨generationName 3, [], plainListings, [generationName 1], 0⟩ := by
  have mapped : store.listed.mapM (previewGeneration plainLibrary plainSurroundings
      ⟨generationName 3, [], [generationName 3, generationName 2]⟩ store) =
      .ok plainListings := by
    obtain ⟨names, generations, objects⟩ := store
    subst listed same
    rfl
  have directories : store.listed.all isGenerationId = true := by
    rw [listed]
    decide
  have selected : selectedGenerations store plainListings = [generationName 1] := by
    rw [selectedGenerations, orderBy_eq_self]
    · rfl
    · exact List.pairwise_singleton _ _
  rw [previewArchive, require_bind_eq_ok, bind_eq_ok]
  refine ⟨rfl, generationName 3, rfl, ?_⟩
  rw [bind_eq_ok]
  refine ⟨[], rfl, ?_⟩
  rw [require_bind_eq_ok, newestTwo_plain listed same, bind_eq_ok]
  refine ⟨directories, plainListings, mapped, ?_⟩
  rw [pure_eq_ok, selected]
  rfl

def linkedStore : Store (List Nat) (List Nat) := plainStore.putObject [1] ⟨[31, 1], true⟩

theorem compressSources_stopped :
    Stopped (compressSources plainLibrary (generationName 1) ["plan.json"]) plainStore
      [linkedStore] := by
  have hot : hotFile plainStore (generationName 1) "plan.json" = .ok [1] := rfl
  apply Stopped.bind
  apply Stopped.examine (by exact hot)
  apply Ran.stopped .read
  apply Stopped.bind
  apply Stopped.bind
  exact List.prefix_rfl

theorem archiveCompleted_stopped :
    Stopped (archiveCompleted plainLibrary plainSurroundings 1) plainStore [linkedStore] := by
  have completed : completion (generationName 1) plainStore = .ok (⟨[1], 1⟩, false) := rfl
  have sources : sourceFiles plainLibrary plainStore (generationName 1) [1] =
      .ok ["plan.json"] := rfl
  apply Stopped.examine (previewArchive_plain rfl rfl)
  apply Stopped.bind
  apply Stopped.bind
  apply Stopped.examine completed
  apply Stopped.examine (by exact sources)
  exact compressSources_stopped.bind

theorem archiveCompleted_linked :
    Raised (archiveCompleted plainLibrary plainSurroundings 1) linkedStore
      "Existing cold object is not a regular file" := by
  have previewed : previewArchive plainLibrary plainSurroundings 1 linkedStore =
      .ok ⟨generationName 3, [], plainListings, [generationName 1], 0⟩ :=
    previewArchive_plain rfl rfl
  have completed : completion (generationName 1) linkedStore = .ok (⟨[1], 1⟩, false) := rfl
  have sources : sourceFiles plainLibrary linkedStore (generationName 1) [1] =
      .ok ["plan.json"] := rfl
  have hot : hotFile linkedStore (generationName 1) "plan.json" = .ok [1] := rfl
  apply Ran.raised (.examine previewed)
  apply Raised.bind
  apply Raised.bind
  apply Ran.raised (.examine completed)
  apply Ran.raised (.examine (by exact sources))
  apply Raised.bind
  apply Raised.bind
  apply Ran.raised (.examine (by exact hot))
  apply Ran.raised .read
  apply Raised.bind
  rfl

/-- The bytes of the three generations. -/
def plainOriginals (name relative : String) : Option (List Nat) :=
  (plainStore.hot name relative).map File.bytes

theorem plainGeneration_fresh (number : Nat) (named : isGenerationId (generationName number))
    (generation : plainStore.generations (generationName number) = plainGeneration number)
    {completion : Completion (List Nat)}
    (result : (plainStore.generations (generationName number)).result = some completion) :
    Fresh plainLibrary (plainOriginals (generationName number)) (generationName number)
      (plainStore.generations (generationName number)) completion := by
  rw [generation] at result ⊢
  cases result
  have original (relative : String) : plainOriginals (generationName number) relative =
      if relative = "plan.json" then some [number] else none := by
    rw [plainOriginals, Store.hot, generation, plainGeneration]
    dsimp only
    split
    · rfl
    · rfl
  constructor
  · constructor
    · exact named
    · simp [plainGeneration]
    · simp [plainGeneration, original]
    · refine ⟨[number], ⟨generationName number, "/state/generations/" ++ generationName number,
        []⟩, [], ?_, rfl, rfl, rfl, rfl, rfl, by simp⟩
      rw [original, if_pos rfl]
  · intro relative file present
    rw [original]
    simp only [plainGeneration] at present
    split at present
    · rename_i here
      cases present
      exact ⟨List.mem_singleton.mpr here, by rw [if_pos here], rfl⟩
    · cases present
  · intro relative inFiles
    obtain rfl := List.mem_singleton.mp inFiles
    rfl
  · rfl

theorem plainStore_history {admitted : Store (List Nat) (List Nat) → Prop} :
    History plainLibrary admitted plainOriginals plainStore := by
  refine .publish .empty ⟨rfl, by decide, fun name _ => ?_, fun _ impossible => ?_,
    fun name completion _ result => ?_⟩
  · simp only [plainStore]
    split_ifs <;> rfl
  · cases impossible
  · by_cases first : name = generationName 1
    · subst first
      exact plainGeneration_fresh 1 (by decide) rfl result
    · by_cases second : name = generationName 2
      · subst second
        exact plainGeneration_fresh 2 (by decide) rfl result
      · by_cases third : name = generationName 3
        · subst third
          exact plainGeneration_fresh 3 (by decide) rfl result
        · simp [plainStore, first, second, third] at result

/-- The first call on three completed generations returns. -/
theorem History.roundTrip_plain : ∃ result,
    (archiveCompleted plainLibrary plainSurroundings 1 plainStore).outcome = .ok result ∧
      ∀ archived ∈ result.2,
        Cold (final (archiveCompleted plainLibrary plainSurroundings 1) plainStore)
          archived.generationId := by
  have history : History plainLibrary Settled plainOriginals plainStore := plainStore_history
  have readable : plainSurroundings.Readable :=
    ⟨⟨_, rfl⟩, ⟨_, rfl⟩, fun _ => ⟨_, rfl⟩⟩
  obtain ⟨-, returns, archives, -⟩ := history.roundTrip
  obtain ⟨result, returned, -⟩ := (returns (fun _ => id) plainSurroundings readable).1 1 le_rfl
  refine ⟨result, returned, archives plainSurroundings 1 _ result ?_⟩
  rw [Ran, ← returned]

/-- A stop after a link makes the next call raise. -/
theorem History.not_always_returns : ¬ ∀ (library : Library (List Nat) (List Nat))
    (originals : String → String → Option (List Nat)) (store : Store (List Nat) (List Nat))
    (surroundings : Surroundings) (maxGenerations : Nat),
    History library (fun _ => True) originals store → surroundings.Readable →
      1 ≤ maxGenerations → ∃ result,
        (archiveCompleted library surroundings maxGenerations store).outcome = .ok result := by
  intro always
  have reached : History plainLibrary (fun _ => True) plainOriginals linkedStore :=
    .archive plainSurroundings 1 [linkedStore] plainStore_history archiveCompleted_stopped trivial
  have readable : plainSurroundings.Readable :=
    ⟨⟨_, rfl⟩, ⟨_, rfl⟩, fun _ => ⟨_, rfl⟩⟩
  obtain ⟨result, returned⟩ := always plainLibrary plainOriginals linkedStore plainSurroundings 1
    reached readable le_rfl
  rw [archiveCompleted_linked] at returned
  cases returned

end JobAgg.ColdArchive
