import JobAgg.PublicationArtifacts.Reading

/-! # Sealing evidence

A record writer only adds objects until it replaces one sidecar, so at every stop the
other export files read as before, and the one that is written reads as before or as the
bytes of the writer.
-/

namespace JobAgg.PublicationArtifacts

open Durable

variable {Digest : Type} {hash : Bytes → Digest}

/-- Objects may be added, and the sidecar of `path` may come to read as `bytes`. -/
structure Seals (hash : Bytes → Digest) (path : Evidence Digest) (bytes : Bytes)
    (before after : Artifacts Digest) : Prop where
  intact : Intact hash after
  grown : Grown before after
  others : ∀ other, other ≠ path → after.sidecars other = before.sidecars other
  own : after.sidecars path = before.sidecars path ∨ content after path = some bytes

section

variable {start before middle after : Artifacts Digest} {path other : Evidence Digest}
  {receipt : Receipt Digest} {parts : List Bytes} {data bytes : Bytes}

theorem Seals.refl (intact : Intact hash start) : Seals hash path bytes start start :=
  ⟨intact, .refl start, fun _ _ => rfl, .inl rfl⟩

theorem Seals.trans (one : Seals hash path bytes before middle)
    (two : Seals hash path bytes middle after) : Seals hash path bytes before after where
  intact := two.intact
  grown := one.grown.trans two.grown
  others other apart := (two.others other apart).trans (one.others other apart)
  own := by
    rcases two.own with same | sealed
    · rcases one.own with same' | sealed
      · exact .inl (same.trans same')
      · exact .inr ((two.grown.content one.intact same).trans sealed)
    · exact .inr sealed

theorem Seals.content (seals : Seals hash path bytes before after)
    (intact : Intact hash before) (apart : other ≠ path) :
    content after other = content before other :=
  seals.grown.content intact (seals.others other apart)

theorem blocks_flatten (data : Bytes) : (blocks data).flatten = data := by
  fun_induction blocks data with
  | case1 => rfl
  | case2 data filled induction =>
    rw [List.flatten_cons, induction, List.take_append_drop]

theorem blocks_sized (data : Bytes) :
    ∀ part ∈ blocks data, 0 < part.length ∧ part.length ≤ chunkBytes := by
  fun_induction blocks data with
  | case1 => simp
  | case2 data filled induction =>
    rw [List.forall_mem_cons]
    refine ⟨?_, induction⟩
    have positive : 0 < data.length := List.length_pos_iff.mpr filled
    have block : 0 < chunkBytes := by decide
    rw [List.length_take]
    omega

theorem flatMap_blocks_flatten (records : List Bytes) :
    (records.flatMap blocks).flatten = records.flatten := by
  induction records with
  | nil => rfl
  | cons record rest induction =>
    rw [List.flatMap_cons, List.flatten_append, blocks_flatten, induction, List.flatten_cons]

theorem flatMap_blocks_sized (records : List Bytes) :
    ∀ part ∈ records.flatMap blocks, 0 < part.length ∧ part.length ≤ chunkBytes := by
  intro part member
  obtain ⟨record, -, inside⟩ := List.mem_flatMap.mp member
  exact blocks_sized record part inside

variable [DecidableEq Digest]

theorem Intact.putObject (intact : Intact hash start) (absent : start.objects (hash data) = none) :
    Intact hash (start.putObject (hash data) data) ∧
      Grown start (start.putObject (hash data) data) := by
  have grown : ∀ sha256 object, start.objects sha256 = some object →
      (start.putObject (hash data) data).objects sha256 = some object := by
    intro sha256 object found
    have apart : sha256 ≠ hash data := by
      rintro rfl
      rw [absent] at found
      cases found
    rw [Artifacts.putObject]
    dsimp only
    rw [Function.update_of_ne apart, found]
  refine ⟨⟨?_, ?_⟩, grown, rfl⟩
  · intro sha256 object found
    rw [Artifacts.putObject] at found
    dsimp only at found
    by_cases here : sha256 = hash data
    · subst here
      rw [Function.update_self] at found
      cases found
      rfl
    · rw [Function.update_of_ne here] at found
      exact intact.addressed sha256 object found
  · intro path receipt found
    obtain ⟨own, parts, covers, holds⟩ := intact.sidecars path receipt found
    exact ⟨own, parts, covers, holds.mono grown⟩

theorem recordBoundary_meets (injective : Function.Injective hash)
    (intact : Intact hash start) :
    Meets (recordBoundary hash data) start (Seals hash path bytes)
      (fun named after => named = fingerprintOf hash data ∧ Seals hash path bytes start after ∧
        after.sidecars = start.sidecars ∧ Holds hash after.objects [data])
      fun _ _ => False := by
  apply Meets.bind
  apply Meets.read
  have name : (fingerprintOf hash data).sha256 = hash data := rfl
  cases there : start.objects (hash data) with
  | some object =>
    rw [name, there, if_pos (by rfl)]
    have same : object.bytes = data := injective (intact.addressed _ object there)
    have holds : Holds hash start.objects [data] := by
      intro part member
      rw [List.mem_singleton] at member
      subst member same
      exact ⟨object.identity, there⟩
    apply Meets.bind
    apply Meets.examined (by exact chunk_eq_ok holds List.mem_cons_self)
    exact .pure ⟨rfl, .refl intact, rfl, holds⟩
  | none =>
    rw [name, there, if_neg (by simp)]
    obtain ⟨kept, grown⟩ := intact.putObject there
    have seals : Seals hash path bytes start (start.putObject (hash data) data) :=
      ⟨kept, grown, fun _ _ => rfl, .inl rfl⟩
    have holds : Holds hash (start.putObject (hash data) data).objects [data] := by
      intro part member
      rw [List.mem_singleton] at member
      subst member
      exact ⟨start.created, Function.update_self ..⟩
    apply Meets.bind
    apply Meets.write seals
    apply Meets.bind
    apply Meets.examined (by exact chunk_eq_ok holds List.mem_cons_self)
    exact .pure ⟨rfl, seals, rfl, holds⟩

theorem writeBlocks_meets (injective : Function.Injective hash) (intact : Intact hash start) :
    Meets (writeBlocks hash parts) start (Seals hash path bytes)
      (fun chunks after => chunks = parts.map (fingerprintOf hash) ∧
        Seals hash path bytes start after ∧ after.sidecars = start.sidecars ∧
        Holds hash after.objects parts)
      fun _ _ => False := by
  induction parts generalizing start with
  | nil => exact .pure ⟨rfl, .refl intact, rfl, by simp [Holds]⟩
  | cons data rest induction =>
    rw [writeBlocks]
    apply Meets.bind
    apply (recordBoundary_meets injective intact).mono
    · exact fun _ _ allowed => allowed
    · rintro first middle ⟨rfl, one, kept, held⟩
      apply Meets.bind
      apply (induction one.intact).mono
      · exact fun _ _ allowed => allowed
      · rintro later after ⟨rfl, two, kept', holds⟩
        apply Meets.pure
        refine ⟨rfl, one.trans two, kept'.trans kept, ?_⟩
        intro part member
        rcases List.mem_cons.mp member with rfl | inRest
        · obtain ⟨identity, found⟩ := held part List.mem_cons_self
          exact ⟨identity, two.grown.objects _ _ found⟩
        · exact holds part inRest
      · exact fun _ _ impossible => impossible
    · exact fun _ _ impossible => impossible

theorem sealReceipt_meets (path : Evidence Digest) (intact : Intact hash start) (bare : start.files path = none)
    (own : receipt.originalPath = path) (covers : receipt.Covers hash parts)
    (holds : Holds hash start.objects parts) :
    Meets (sealReceipt hash path receipt) start (Seals hash path parts.flatten)
      (fun _ after => Seals hash path parts.flatten start after ∧
        content after path = some parts.flatten)
      fun _ _ => False := by
  have here : (start.putSidecar path receipt).sidecars path = some receipt :=
    Function.update_self ..
  have reads : content (start.putSidecar path receipt) path = some parts.flatten :=
    content_eq_flatten bare here covers holds
  have seals : Seals hash path parts.flatten start (start.putSidecar path receipt) := by
    refine ⟨⟨intact.addressed, ?_⟩, ⟨fun _ _ found => found, rfl⟩, ?_, .inr reads⟩
    · intro other found there
      by_cases same : other = path
      · subst same
        rw [here] at there
        cases there
        exact ⟨own, parts, covers, holds⟩
      · have kept : (start.putSidecar path receipt).sidecars other = start.sidecars other :=
          Function.update_of_ne same ..
        rw [kept] at there
        exact intact.sidecars other found there
    · intro other apart
      exact Function.update_of_ne apart ..
  have free : require (start.files path).isNone
      "publication_artifact_conflicts_with_materialized_file" = .ok () := by
    rw [bare]
    rfl
  apply Meets.bind
  apply Meets.examined (by exact free)
  apply Meets.bind
  apply Meets.examined (by exact verify_eq_ok covers holds)
  apply Meets.bind
  apply Meets.write seals
  have readBack : (do
      let found ← fingerprint hash (start.putSidecar path receipt) path
      require (found == some receipt.fingerprint) "publication_artifact_readback_failed" :
        Except String Unit) = .ok () := by
    rw [fingerprint_eq_ok here own covers holds, ok_bind]
    simp
  exact Meets.examined (by exact readBack) ⟨seals, reads⟩

theorem writeRecords_meets (records : List Bytes) (injective : Function.Injective hash)
    (intact : Intact hash start) (bare : start.files path = none) :
    Meets (writeRecords hash path records) start (Seals hash path records.flatten)
      (fun named after => named = fingerprintOf hash records.flatten ∧
        Seals hash path records.flatten start after ∧
        content after path = some records.flatten)
      fun _ _ => False := by
  apply Meets.bind
  apply (writeBlocks_meets injective intact).mono
  · exact fun _ _ allowed => allowed
  · rintro chunks middle ⟨rfl, one, -, holds⟩
    have covers : Receipt.Covers hash
        ⟨path, fingerprintOf hash records.flatten,
          (records.flatMap blocks).map (fingerprintOf hash)⟩ (records.flatMap blocks) :=
      ⟨rfl, flatMap_blocks_sized records, by rw [flatMap_blocks_flatten]⟩
    have sealing := sealReceipt_meets path one.intact
      (by rw [one.grown.files, bare]) rfl covers holds
    rw [flatMap_blocks_flatten] at sealing
    apply Meets.bind
    apply sealing.mono
    · exact fun _ _ allowed => allowed
    · rintro - after ⟨two, reads⟩
      exact .pure ⟨rfl, one.trans two, reads⟩
    · exact fun _ _ impossible => impossible
  · exact fun _ _ impossible => impossible

theorem reusable_eq_ok (source : Bytes) (injective : Function.Injective hash)
    (intact : Intact hash start) (candidates : List (Evidence Digest)) :
    ∃ found, reusable hash start (fingerprintOf hash source) candidates = .ok found ∧
      ∀ receipt, found = some receipt →
        ∃ parts, receipt.Covers hash parts ∧ Holds hash start.objects parts ∧
          parts.flatten = source := by
  induction candidates with
  | nil => exact ⟨none, rfl, fun receipt impossible => by cases impossible⟩
  | cons candidate rest induction =>
    rw [reusable]
    cases there : start.sidecars candidate with
    | none =>
      have absent : fingerprint hash start candidate = .ok none := by
        rw [fingerprint, there]
      rw [absent, ok_bind, if_neg (by simp)]
      exact induction
    | some receipt =>
      obtain ⟨own, parts, covers, holds⟩ := intact.sidecars candidate receipt there
      rw [fingerprint_eq_ok there own covers holds, ok_bind]
      by_cases same : some receipt.fingerprint = some (fingerprintOf hash source)
      · rw [if_pos same, manifest_eq_ok there own covers, ok_bind]
        refine ⟨some receipt, rfl, ?_⟩
        intro taken found
        cases found
        refine ⟨parts, covers, holds, injective ?_⟩
        have equal := Option.some.inj same
        rw [covers.fingerprint] at equal
        exact congrArg Fingerprint.sha256 equal
      · rw [if_neg same]
        exact induction

theorem capture_meets {source : Bytes} (injective : Function.Injective hash)
    (intact : Intact hash start) (bare : start.files path = none)
    (candidates : List (Evidence Digest)) :
    Meets (capture hash source path (fingerprintOf hash source) candidates) start
      (Seals hash path source)
      (fun _ after => Seals hash path source start after ∧ content after path = some source)
      fun _ _ => False := by
  obtain ⟨reused, found, taken⟩ := reusable_eq_ok source injective intact candidates
  apply Meets.bind
  apply Meets.examined (by exact found)
  cases reused with
  | some receipt =>
    obtain ⟨parts, covers, holds, whole⟩ := taken receipt rfl
    have moved : Receipt.Covers hash { receipt with originalPath := path } parts :=
      ⟨covers.chunks, covers.sized, covers.fingerprint⟩
    have sealing := sealReceipt_meets path intact bare rfl moved holds
    rw [whole] at sealing
    exact sealing
  | none =>
    apply Meets.bind
    apply (writeBlocks_meets injective intact).mono
    · exact fun _ _ allowed => allowed
    · rintro chunks middle ⟨rfl, one, -, holds⟩
      have covers : Receipt.Covers hash
          ⟨path, fingerprintOf hash source, (blocks source).map (fingerprintOf hash)⟩
          (blocks source) :=
        ⟨rfl, blocks_sized source, by rw [blocks_flatten]⟩
      have sealing := sealReceipt_meets path one.intact
        (by rw [one.grown.files, bare]) rfl covers holds
      rw [blocks_flatten] at sealing
      apply Meets.bind
      apply Meets.checked (by simp)
      apply sealing.mono
      · exact fun _ _ allowed => allowed
      · rintro - after ⟨two, reads⟩
        exact ⟨one.trans two, reads⟩
      · exact fun _ _ impossible => impossible
    · exact fun _ _ impossible => impossible

end

end JobAgg.PublicationArtifacts
