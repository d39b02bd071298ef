import JobAgg.Foundation.KnownHash
import JobAgg.PublicationExports.Replacing

/-! # Export replacement is crash safe where file names tell items apart

Preparations are kept by file name. While items with one file name render the same bytes,
every stop leaves a disk from which the next call completes, unless somebody else replaced
a live file.
-/

namespace JobAgg.PublicationExports

open PublicationArtifacts Durable

section

variable {Digest : Type} [DecidableEq Digest] {library : Library Digest} {plan : Plan}
  {items : List Item} {original foreign : String → Option Bytes} {disk : Disk Digest}
  {checkpoint : Checkpoint Digest} {item : Item} {journal : Journal Digest}

theorem recognise_eq_ok (valid : Valid library plan items original foreign disk)
    (there : lookup item.path disk.entries = some checkpoint) (undisturbed : foreign item.path = none)
    (replaced : disk.targets item.path = some (rendered library checkpoint.item)) :
    recognise library disk checkpoint = .ok () := by
  have recorded := valid.recorded _ _ there
  rw [recognise, recorded.old, recorded.known, recorded.new]
  cases was : original item.path with
  | none => rfl
  | some bytes =>
    rw [Option.map_some]
    dsimp only
    by_cases same : bytes = rendered library checkpoint.item
    · rw [same, if_neg (by simp)]
    · have apart : fingerprintOf library.hash bytes ≠
          fingerprintOf library.hash (rendered library checkpoint.item) :=
        fun equal => same (fingerprintOf_inj equal)
      rw [if_pos (by simpa using apart)]
      have backed : checkpoint.backupPath.isSome := by
        rcases recorded.target undisturbed with kept | ⟨-, backed⟩
        · rw [replaced, was] at kept
          exact absurd (Option.some.inj kept).symm same
        · exact backed bytes was same
      obtain ⟨backup, chosen⟩ := Option.isSome_iff_exists.mp backed
      obtain ⟨-, -, held, was', reads⟩ := recorded.backup backup chosen
      rw [was] at was'
      cases was'
      rw [chosen]
      exact requireFile_evidence valid.intact reads

theorem settleTarget_meets (valid : Valid library plan items original foreign disk)
    (distinct : (items.map (·.path)).Nodup) (member : item ∈ items)
    (held : Held plan journal disk)
    (there : lookup item.path disk.entries = some checkpoint) :
    Meets (settleTarget library plan item checkpoint journal) disk
      (Around library plan items original foreign item.path)
      (fun settled after => Settled library plan items original foreign item disk after
        settled.1 settled.2)
      fun _ _ => foreign item.path ≠ none := by
  obtain ⟨own, validated⟩ := validateCheckpoint_eq_ok valid distinct member there
  have recorded := valid.recorded _ _ there
  apply Meets.bind
  apply Meets.examined (by exact validated)
  apply Meets.bind
  apply Meets.examined (by exact (rfl : fingerprint library disk (.live item.path) =
    .ok ((disk.targets item.path).map (fingerprintOf library.hash))))
  by_cases done : (disk.targets item.path).map (fingerprintOf library.hash) = some checkpoint.new
  · rw [if_pos done]
    have replaced : disk.targets item.path = some (rendered library item) := by
      obtain ⟨bytes, here, same⟩ := Option.map_eq_some_iff.mp done
      rw [recorded.new, own] at same
      rw [here, fingerprintOf_inj same]
    have undisturbed : foreign item.path = none := by
      cases disturbed : foreign item.path with
      | none => rfl
      | some bytes =>
        obtain ⟨here, -, apart⟩ := recorded.disturbed bytes disturbed
        rw [replaced, Option.some.injEq] at here
        rw [own] at apart
        exact absurd here.symm apart
    apply Meets.bind
    apply Meets.examined
    · exact recognise_eq_ok valid there undisturbed (own ▸ replaced)
    · exact .pure ⟨.refl valid, there, held, rfl, replaced, undisturbed⟩
  · rw [if_neg done]
    cases disturbed : foreign item.path with
    | some bytes =>
      obtain ⟨here, apart, -⟩ := recorded.disturbed bytes disturbed
      apply Meets.bind
      apply Meets.check
      · intro ready
        rw [replaceable, here, Option.map_some, recorded.old, Bool.or_eq_true, beq_iff_eq] at ready
        rcases ready with same | impossible
        · obtain ⟨old, was, equal⟩ := Option.map_eq_some_iff.mp same.symm
          rw [fingerprintOf_inj equal] at was
          exact absurd was apart
        · cases impossible
      · intro _ impossible
        cases impossible
    | none =>
      have apart : disk.targets item.path ≠ some (rendered library item) := by
        intro replaced
        rw [replaced, Option.map_some, recorded.new, own] at done
        exact done rfl
      have same : disk.targets item.path = original item.path := by
        rcases recorded.target disturbed with kept | ⟨replaced, -⟩
        · exact kept
        · rw [own] at replaced
          exact absurd replaced apart
      exact replaceTarget_meets valid held there own disturbed same (same ▸ apart)

theorem addReceipt_meets {raises : String → Disk Digest → Prop}
    (valid : Valid library plan items original foreign disk)
    (there : lookup item.path disk.entries = some checkpoint) (own : checkpoint.item = item) :
    Meets (addReceipt item checkpoint disk.receipts) disk
      (Around library plan items original foreign item.path)
      (fun manifest after => Around library plan items original foreign item.path disk after ∧
        manifest = after.receipts ∧ after.entries = disk.entries ∧
        after.targets = disk.targets ∧ after.journal = disk.journal)
      raises := by
  rw [addReceipt]
  dsimp only
  cases found : lookup item.path disk.receipts with
  | some receipt =>
    obtain ⟨saved, here, named⟩ := valid.receipts _ _ found
    rw [there] at here
    cases here
    apply Meets.bind
    apply Meets.checked
    · rw [named, own]
      exact beq_self_eq_true _
    · exact .pure ⟨.refl valid, rfl, rfl, rfl, rfl⟩
  | none =>
    have kept := valid.putManifest
      (assign item.path ⟨item, checkpoint.new.sha256, checkpoint.prepared⟩ disk.receipts) (by
      intro path receipt here
      by_cases same : path = item.path
      · subst same
        rw [lookup_assign_self] at here
        cases here
        exact ⟨checkpoint, there, by rw [own]⟩
      · rw [lookup_assign_of_ne same] at here
        exact valid.receipts path receipt here)
    have step : Around library plan items original foreign item.path disk _ :=
      ⟨kept, fun _ _ => rfl, fun _ _ => rfl⟩
    apply Meets.bind
    apply Meets.write step
    exact .pure ⟨step, rfl, rfl, rfl, rfl⟩

theorem publishItem_meets (agree : Agree library items)
    (distinct : (items.map (·.path)).Nodup) (member : item ∈ items)
    (valid : Valid library plan items original foreign disk) (held : Held plan journal disk) :
    Meets (publishItem library plan item journal disk.receipts) disk
      (Around library plan items original foreign item.path)
      (fun controls after => Around library plan items original foreign item.path disk after ∧
        Held plan controls.1 after ∧ controls.2 = after.receipts ∧
        (lookup item.path after.entries).isSome ∧
        after.targets item.path = some (rendered library item) ∧ foreign item.path = none)
      fun _ _ => foreign item.path ≠ none := by
  apply Meets.bind
  apply (loadCheckpoint_meets agree member valid held).mono
  · exact fun _ _ allowed => allowed
  · rintro ⟨checkpoint, loaded⟩ second ⟨one, there, held₂, manifest₂⟩
    apply Meets.bind
    apply (settleTarget_meets one.valid distinct member held₂ there).mono
    · exact fun _ _ allowed => allowed
    · rintro ⟨settled, written⟩ third two
      have own := (validateCheckpoint_eq_ok two.around.valid distinct member two.found).1
      have recorded := two.around.valid.recorded _ _ two.found
      have saved := two.around.valid.putJournal two.held.1 two.held.2
        (recorded.change (settled.inPhase .replacedVerified) ⟨rfl, rfl, rfl, rfl, rfl, rfl⟩ (.inl rfl)) (by
          intro before found
          rw [two.found] at found
          cases found
          exact ⟨rfl, rfl, rfl⟩)
      have three := Around.putJournal saved two.held
      have located : lookup item.path (third.putJournal
          (written.put item.path (settled.inPhase .replacedVerified))).entries =
          some (settled.inPhase .replacedVerified) := by
        rw [entries_putJournal, lookup_put, if_pos rfl]
      apply Meets.bind
      apply Meets.write three
      have receipts : disk.receipts = (third.putJournal
          (written.put item.path (settled.inPhase .replacedVerified))).receipts := by
        show disk.manifest.getD [] = third.manifest.getD []
        rw [two.manifest, manifest₂]
      rw [receipts]
      apply Meets.bind
      apply (addReceipt_meets saved located own).mono
      · exact fun _ _ allowed => allowed
      · rintro manifest after ⟨four, same, entries, targets, journals⟩
        apply Meets.pure
        refine ⟨one.trans (two.around.trans (three.trans four)), ⟨?_, two.held.2⟩, same, ?_, ?_,
          two.undisturbed⟩
        · rw [entries]
          rfl
        · rw [entries, located]
          rfl
        · rw [targets]
          exact two.target
      · exact fun _ _ raised => raised
    · exact fun _ _ raised => raised
  · exact fun _ _ raised => raised

/-- An item whose live file has its rendered bytes. -/
def Done (library : Library Digest) (foreign : String → Option Bytes) (disk : Disk Digest)
    (item : Item) : Prop :=
  (lookup item.path disk.entries).isSome ∧
    disk.targets item.path = some (rendered library item) ∧ foreign item.path = none

omit [DecidableEq Digest] in
theorem Done.around {after : Disk Digest} {other : Item}
    (around : Around library plan items original foreign item.path disk after)
    (apart : other.path ≠ item.path) (done : Done library foreign disk other) :
    Done library foreign after other := by
  obtain ⟨found, target, undisturbed⟩ := done
  rw [Done, around.entries _ apart, around.targets _ apart]
  exact ⟨found, target, undisturbed⟩

theorem publishItems_meets (agree : Agree library items)
    (distinct : (items.map (·.path)).Nodup) (expired : Item → Bool) (rest : List Item)
    (within_ : rest ⊆ items) (separate : (rest.map (·.path)).Nodup)
    (valid : Valid library plan items original foreign disk) (held : Held plan journal disk) :
    Meets (publishItems library plan expired journal disk.receipts rest) disk
      (fun _ after => Valid library plan items original foreign after)
      (fun progress after => Valid library plan items original foreign after ∧
        (∀ other, other.path ∉ rest.map (·.path) → Done library foreign disk other →
          Done library foreign after other) ∧
        ((∀ item ∈ rest, expired item = false) →
          (∃ exports warnings, progress = .complete exports warnings) ∧
            ∀ item ∈ rest, Done library foreign after item))
      fun _ _ => ∃ item ∈ rest, foreign item.path ≠ none := by
  induction rest generalizing disk journal with
  | nil =>
    apply Meets.pure
    exact ⟨valid, fun _ _ done => done, fun _ => ⟨⟨_, _, rfl⟩, by simp⟩⟩
  | cons item rest induction =>
    rw [publishItems]
    by_cases late : expired item = true
    · rw [if_pos late]
      apply Meets.pure
      refine ⟨valid, fun _ _ done => done, fun early => ?_⟩
      rw [early item List.mem_cons_self] at late
      cases late
    · rw [if_neg late]
      have member : item ∈ items := within_ List.mem_cons_self
      rw [List.map_cons, List.nodup_cons] at separate
      obtain ⟨fresh, separate⟩ := separate
      apply Meets.bind
      apply (publishItem_meets agree distinct member valid held).mono
      · exact fun _ _ around => around.valid
      · rintro ⟨written, manifest⟩ middle ⟨around, carried, same, done⟩
        have same : manifest = middle.receipts := same
        subst same
        apply (induction (List.subset_of_cons_subset within_) separate around.valid
          carried).mono
        · exact fun _ _ kept => kept
        · rintro progress after ⟨kept, before, reached⟩
          refine ⟨kept, ?_, ?_⟩
          · intro other outside finished
            rw [List.map_cons, List.mem_cons, not_or] at outside
            exact before other outside.2 (finished.around around outside.1)
          · intro early
            rw [List.forall_mem_cons] at early ⊢
            obtain ⟨completed, all⟩ := reached early.2
            exact ⟨completed, before item fresh done, all⟩
        · rintro message after ⟨other, inRest, disturbed⟩
          exact ⟨other, List.mem_cons_of_mem _ inRest, disturbed⟩
      · exact fun _ _ disturbed => ⟨item, List.mem_cons_self, disturbed⟩

theorem publishExports_meets (agree : Agree library items)
    (distinct : (items.map (·.path)).Nodup) (expired : Item → Bool)
    (valid : Valid library plan items original foreign disk) :
    Meets (publishExports library plan items expired) disk
      (fun _ after => Valid library plan items original foreign after)
      (fun progress after => Valid library plan items original foreign after ∧
        ((∀ item ∈ items, expired item = false) →
          (∃ exports warnings, progress = .complete exports warnings) ∧
            ∀ item ∈ items, Done library foreign after item))
      fun _ _ => ∃ item ∈ items, foreign item.path ≠ none := by
  have held : Held plan (disk.journal.getD ⟨plan.generationId, []⟩) disk := by
    cases saved : disk.journal with
    | none => exact ⟨by rw [Disk.entries, saved]; rfl, rfl⟩
    | some journal =>
      exact ⟨by rw [Disk.entries, saved]; rfl, valid.generation journal saved⟩
  have journalled : ∀ entry ∈ disk.entries, entry.1 ∈ items.map (·.path) := by
    intro entry member
    have present : (lookup entry.1 disk.entries).isSome = true := by
      rw [lookup_isSome, List.any_eq_true]
      exact ⟨entry, member, beq_self_eq_true _⟩
    obtain ⟨checkpoint, found⟩ := Option.isSome_iff_exists.mp present
    have recorded := valid.recorded _ _ found
    rw [← recorded.named]
    exact List.mem_map_of_mem recorded.item
  have receipted : ∀ entry ∈ disk.receipts, entry.1 ∈ items.map (·.path) := by
    intro entry member
    have present : (lookup entry.1 disk.receipts).isSome = true := by
      rw [lookup_isSome, List.any_eq_true]
      exact ⟨entry, member, beq_self_eq_true _⟩
    obtain ⟨receipt, found⟩ := Option.isSome_iff_exists.mp present
    obtain ⟨checkpoint, found, -⟩ := valid.receipts _ _ found
    have recorded := valid.recorded _ _ found
    rw [← recorded.named]
    exact List.mem_map_of_mem recorded.item
  apply Meets.bind
  apply Meets.read
  apply Meets.bind
  apply Meets.read
  apply Meets.bind
  apply Meets.checked
  · rw [held.2]
    exact beq_self_eq_true _
  apply Meets.bind
  apply Meets.checked
  · apply decide_eq_true
    refine ⟨distinct, receipted, ?_⟩
    intro entry member
    rw [held.1] at member
    exact journalled entry member
  · apply (publishItems_meets agree distinct expired items (List.Subset.refl _) distinct valid
      held).mono
    · exact fun _ _ kept => kept
    · rintro progress after ⟨kept, -, reached⟩
      exact ⟨kept, reached⟩
    · exact fun _ _ raised => raised

/-- A generation that no pass has touched, but for what an older program left in
`before_exports`. -/
structure Fresh (library : Library Digest) (plan : Plan) (disk : Disk Digest) : Prop where
  journal : disk.journal = none
  manifest : disk.manifest = none
  intact : Intact library.hash disk.artifacts
  sidecars : ∀ path : Evidence Digest, path.generation = plan.generationRoot →
    disk.artifacts.sidecars path = none ∧ disk.retained path = none
  files : ∀ path : Evidence Digest, path.generation = plan.generationRoot →
    path.directory ≠ .beforeExports → disk.artifacts.files path = none

/-- The disks that calls leave, each stopped anywhere or run to its end. -/
inductive Calls (library : Library Digest) (plan : Plan) (items : List Item)
    (initial : Disk Digest) : Disk Digest → Prop where
  | none : Calls library plan items initial initial
  | call {disk : Disk Digest} {states : List (Disk Digest)} (expired : Item → Bool)
      (calls : Calls library plan items initial disk)
      (stopped : Stopped (publishExports library plan items expired) disk states) :
      Calls library plan items initial (states.getLastD disk)

omit [DecidableEq Digest] in
theorem Fresh.valid (fresh : Fresh library plan disk) :
    Valid library plan items disk.targets (fun _ => none) disk := by
  have empty : disk.entries = [] := by
    rw [Disk.entries, fresh.journal]
    rfl
  have unreceipted : disk.receipts = [] := by
    rw [Disk.receipts, fresh.manifest]
    rfl
  refine ⟨fresh.intact, fun path own => (fresh.sidecars path own).2, ?_, ?_, ?_, ?_, ?_, ?_⟩
  · intro _ name
    apply fresh.files _ rfl
    intro impossible
    cases impossible
  · intro sha256 name bytes reads
    have bare : disk.artifacts.files
        ⟨plan.generationRoot, .beforeExportsVerified sha256, name⟩ = none := by
      apply fresh.files _ rfl
      intro impossible
      cases impossible
    obtain ⟨unsealed, unretained⟩ := fresh.sidecars
      ⟨plan.generationRoot, .beforeExportsVerified sha256, name⟩ rfl
    rw [Disk.content, content, bare] at reads
    dsimp only at reads
    rw [unsealed, unretained] at reads
    cases reads
  · intro journal found
    rw [fresh.journal] at found
    cases found
  · exact fun _ _ => ⟨rfl, rfl⟩
  · intro path checkpoint found
    rw [empty] at found
    cases found
  · intro path receipt found
    rw [unreceipted] at found
    cases found

theorem Calls.valid {initial : Disk Digest} (agree : Agree library items)
    (distinct : (items.map (·.path)).Nodup)
    (calls : Calls library plan items initial disk)
    (valid : Valid library plan items original foreign initial) :
    Valid library plan items original foreign disk := by
  induction calls with
  | none => exact valid
  | call expired calls stopped induction =>
    exact kept_of_isChain induction
      (stopped.isChain (publishExports_meets agree distinct expired induction))

end

namespace SameName

def openBytes : Bytes := [97, 10]

def historyBytes : Bytes := [98, 10]

def sha256 : Bytes → String :=
  knownHash [(openBytes, "87428fc522803d31065e7bce3cf03fe475096631e5e07bbd7a0fde60c4cf25c7"),
    (historyBytes, "0263829989b6fd954f72baaf2fc64bc2e2f01d692d4de72986ea808f6e99813f")]

theorem sha256_injective : Function.Injective sha256 :=
  knownHash_injective (by decide) (by decide)

def library : Library String where
  hash := sha256
  hash_injective := sha256_injective
  records item := if item.historyOnly then [historyBytes] else [openBytes]
  priorExportHashes _ := []
  generations := []

def plan : Plan :=
  { generationRoot := "0123456789abcdef0123456789abcdef"
    generationId := "0123456789abcdef0123456789abcdef"
    recordChunks := false }

def current : Item :=
  { path := "/output/current/jobs.csv", database := "/output/all_jobs.sqlite3", format := "csv",
    status := some "open", historyOnly := false }

def history : Item :=
  { path := "/output/history/jobs.csv", database := "/output/all_jobs.sqlite3", format := "csv",
    status := none, historyOnly := true }

def archive : Item := { history with path := "/output/history/all.csv" }

/-- No export was ever written. -/
def empty : Disk String where
  targets _ := none
  artifacts := ⟨fun _ => none, fun _ => none, fun _ => none, 0⟩
  retained _ := none
  journal := none
  manifest := none

theorem fresh : Fresh library plan empty where
  journal := rfl
  manifest := rfl
  intact :=
    { addressed := fun _ _ found => absurd found (Option.some_ne_none _).symm
      sidecars := fun _ _ found => absurd found (Option.some_ne_none _).symm }
  sidecars _ _ := ⟨rfl, rfl⟩
  files _ _ _ := rfl

theorem names : (["/output/current/jobs.csv", "/output/history/all.csv"].map fileName) =
    ["jobs.csv", "all.csv"] := by decide

end SameName

end JobAgg.PublicationExports
