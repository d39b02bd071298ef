import JobAgg.PublicationArtifacts.Writing

/-! # The record writer, call by call

The writer collects bytes until a block is full or the exporter marks a boundary, stores
each block as an object, and seals the manifest of them last.
-/

namespace JobAgg.PublicationArtifacts

open Durable

/-- A `RecordWriter` between two calls: what is pending is never a whole block. -/
structure RecordWriter (Digest : Type) where
  path : Evidence Digest
  translateNewlines : Bool
  pending : Bytes
  /-- What `digest` was updated with. -/
  digested : Bytes
  size : Nat
  chunks : List (Fingerprint Digest)
  room : pending.length < chunkBytes

inductive WriterCall where
  | write (value : String)
  | writeBytes (data : Bytes)
  | flush
  | recordBoundary
  deriving DecidableEq

/-- `value.replace("\n", os.linesep)` -/
def replaceNewlines (linesep value : String) : String :=
  String.ofList (value.toList.flatMap fun letter =>
    if letter = '\n' then linesep.toList else [letter])

/-- `text.encode("utf-8")` -/
def encodeText (text : String) : Bytes := text.toUTF8.data.toList

namespace RecordWriter

variable {Digest : Type}

theorem block_positive : 0 < chunkBytes := by decide

/-- `RecordWriter(path, translate_newlines=…)` -/
def create (path : Evidence Digest) (translateNewlines : Bool) : RecordWriter Digest :=
  ⟨path, translateNewlines, [], [], 0, [], block_positive⟩

/-- The text that `write` encodes. -/
def translated (linesep : String) (translateNewlines : Bool) (value : String) : String :=
  if translateNewlines then replaceNewlines linesep value else value

variable [DecidableEq Digest] (hash : Bytes → Digest)

/-- The part of `record_boundary` that finds something pending. -/
def store (writer : RecordWriter Digest) (data : Bytes) :
    Durable (Artifacts Digest) (RecordWriter Digest) := do
  let chunk ← PublicationArtifacts.recordBoundary hash data
  pure { writer with pending := [], chunks := writer.chunks ++ [chunk], room := block_positive }

def recordBoundary (writer : RecordWriter Digest) :
    Durable (Artifacts Digest) (RecordWriter Digest) :=
  if writer.pending = [] then pure writer else writer.store hash writer.pending

/-- The loop of `write_bytes` over what it has not taken yet. -/
def take (writer : RecordWriter Digest) (view : Bytes) :
    Durable (Artifacts Digest) (RecordWriter Digest) :=
  if view = [] then pure writer
  else
    let length := min (chunkBytes - writer.pending.length) view.length
    let pending := writer.pending ++ view.take length
    if full : pending.length = chunkBytes then do
      let flushed ← writer.store hash pending
      take flushed (view.drop length)
    else
      have room : pending.length < chunkBytes := by
        have before := writer.room
        have taken : pending.length = writer.pending.length + length := by
          rw [List.length_append, List.length_take]
          omega
        omega
      take { writer with pending := pending, room := room } (view.drop length)
termination_by view.length
decreasing_by
  all_goals
    have positive : 0 < view.length := List.length_pos_iff.mpr ‹_›
    have before := writer.room
    rw [List.length_drop]
    omega

def writeBytes (writer : RecordWriter Digest) (data : Bytes) :
    Durable (Artifacts Digest) (RecordWriter Digest) :=
  take hash { writer with digested := writer.digested ++ data, size := writer.size + data.length }
    data

/-- The number that `write` returns, and the writer after it. -/
def write (linesep : String) (writer : RecordWriter Digest) (value : String) :
    Durable (Artifacts Digest) (Nat × RecordWriter Digest) := do
  let after ← writer.writeBytes hash
    (encodeText (translated linesep writer.translateNewlines value))
  pure (value.length, after)

def perform (linesep : String) (writer : RecordWriter Digest) :
    WriterCall → Durable (Artifacts Digest) (RecordWriter Digest)
  | .write value => do
    let written ← writer.write hash linesep value
    pure written.2
  | .writeBytes data => writer.writeBytes hash data
  | .flush => pure writer
  | .recordBoundary => writer.recordBoundary hash

def performAll (linesep : String) (writer : RecordWriter Digest) :
    List WriterCall → Durable (Artifacts Digest) (RecordWriter Digest)
  | [] => pure writer
  | call :: rest => do
    let next ← writer.perform hash linesep call
    performAll linesep next rest

/-- `RecordWriter.seal` -/
def sealWriter (writer : RecordWriter Digest) : Durable (Artifacts Digest) (Fingerprint Digest) := do
  let flushed ← writer.recordBoundary hash
  let named : Fingerprint Digest := ⟨hash flushed.digested, flushed.size⟩
  sealReceipt hash flushed.path ⟨flushed.path, named, flushed.chunks⟩
  pure named

variable {hash}

/-- The manifest so far names the stored parts. They, what is pending and what a call has
not taken yet are all the bytes that were written. -/
structure Stores (hash : Bytes → Digest) (writer : RecordWriter Digest)
    (artifacts : Artifacts Digest) (parts : List Bytes) (view : Bytes) : Prop where
  chunks : writer.chunks = parts.map (fingerprintOf hash)
  sized : ∀ part ∈ parts, 0 < part.length ∧ part.length ≤ chunkBytes
  holds : Holds hash artifacts.objects parts
  digested : writer.digested = parts.flatten ++ writer.pending ++ view
  size : writer.size = writer.digested.length

/-- What a call leaves behind that digests `data`. -/
structure Continues (hash : Bytes → Digest) (writer next : RecordWriter Digest)
    (start after : Artifacts Digest) (data : Bytes) : Prop where
  stored : ∃ parts, Stores hash next after parts []
  digested : next.digested = writer.digested ++ data
  path : next.path = writer.path
  translates : next.translateNewlines = writer.translateNewlines
  sidecars : after.sidecars = start.sidecars

variable {writer middle next : RecordWriter Digest} {start between after : Artifacts Digest}
  {parts : List Bytes} {path : Evidence Digest} {bytes data more view : Bytes}
  {linesep : String}

omit [DecidableEq Digest] in
theorem Continues.trans (one : Continues hash writer middle start between data)
    (two : Continues hash middle next between after more) :
    Continues hash writer next start after (data ++ more) where
  stored := two.stored
  digested := by rw [two.digested, one.digested, List.append_assoc]
  path := two.path.trans one.path
  translates := two.translates.trans one.translates
  sidecars := two.sidecars.trans one.sidecars

omit [DecidableEq Digest] in
theorem Continues.refl (stores : Stores hash writer start parts []) :
    Continues hash writer writer start start [] :=
  ⟨⟨parts, stores⟩, (List.append_nil _).symm, rfl, rfl, rfl⟩

omit [DecidableEq Digest] in
theorem stores_create (path : Evidence Digest) (translateNewlines : Bool)
    (artifacts : Artifacts Digest) : Stores hash (create path translateNewlines) artifacts [] [] :=
  ⟨rfl, by simp, by simp [Holds], rfl, rfl⟩

theorem store_meets (injective : Function.Injective hash) (intact : Intact hash start)
    (stores : Stores hash writer start parts (data ++ view))
    (filled : 0 < (writer.pending ++ data).length)
    (fits : (writer.pending ++ data).length ≤ chunkBytes) :
    Meets (writer.store hash (writer.pending ++ data)) start (Seals hash path bytes)
      (fun next after => Seals hash path bytes start after ∧
        Stores hash next after (parts ++ [writer.pending ++ data]) view ∧
        next.digested = writer.digested ∧ next.path = writer.path ∧
        next.translateNewlines = writer.translateNewlines ∧
        after.sidecars = start.sidecars ∧ next.pending = [])
      fun _ _ => False := by
  apply Meets.bind
  apply (recordBoundary_meets injective intact).mono
  · exact fun _ _ allowed => allowed
  · rintro chunk after ⟨rfl, seals, kept, held⟩
    apply Meets.pure
    refine ⟨seals, ⟨?_, ?_, ?_, ?_, stores.size⟩, rfl, rfl, rfl, kept, rfl⟩
    · rw [List.map_append, ← stores.chunks]
      rfl
    · intro part member
      rcases List.mem_append.mp member with member | member
      · exact stores.sized part member
      · rw [List.mem_singleton.mp member]
        exact ⟨filled, fits⟩
    · intro part member
      rcases List.mem_append.mp member with member | member
      · exact stores.holds.mono seals.grown.objects part member
      · exact held part member
    · rw [stores.digested, List.flatten_append, List.flatten_singleton]
      simp only [List.append_assoc, List.append_nil]
  · exact fun _ _ impossible => impossible

theorem recordBoundary_continues (injective : Function.Injective hash)
    (intact : Intact hash start) (stores : Stores hash writer start parts []) :
    Meets (writer.recordBoundary hash) start (Seals hash path bytes)
      (fun next after => Seals hash path bytes start after ∧
        Continues hash writer next start after [] ∧ next.pending = [])
      fun _ _ => False := by
  rw [RecordWriter.recordBoundary]
  split
  case isTrue empty => exact .pure ⟨.refl intact, .refl stores, empty⟩
  case isFalse filled =>
    have positive : 0 < (writer.pending ++ []).length := by
      rw [List.append_nil]
      exact List.length_pos_iff.mpr filled
    have fits : (writer.pending ++ []).length ≤ chunkBytes := by
      rw [List.append_nil]
      exact writer.room.le
    have storing := @store_meets _ _ hash writer start parts path bytes [] [] injective intact
      stores positive fits
    rw [List.append_nil] at storing
    apply storing.mono
    · exact fun _ _ allowed => allowed
    · rintro next after ⟨seals, stored, digested, own, translates, kept, empty⟩
      exact ⟨seals, ⟨⟨_, stored⟩, by rw [digested, List.append_nil], own, translates, kept⟩, empty⟩
    · exact fun _ _ impossible => impossible

theorem take_continues (injective : Function.Injective hash) (intact : Intact hash start)
    (stores : Stores hash writer start parts view) :
    Meets (writer.take hash view) start (Seals hash path bytes)
      (fun next after => Seals hash path bytes start after ∧
        Continues hash writer next start after [])
      fun _ _ => False := by
  induction left : view.length using Nat.strong_induction_on
    generalizing writer view start parts with
  | _ count induction =>
    rw [RecordWriter.take]
    split
    case isTrue empty =>
      subst empty
      exact .pure ⟨.refl intact, .refl stores⟩
    case isFalse nonempty =>
      have positive : 0 < view.length := List.length_pos_iff.mpr nonempty
      have room := writer.room
      have shorter : (view.drop (min (chunkBytes - writer.pending.length) view.length)).length <
          count := by
        rw [List.length_drop]
        omega
      have parted : Stores hash writer start parts
          (view.take (min (chunkBytes - writer.pending.length) view.length) ++
            view.drop (min (chunkBytes - writer.pending.length) view.length)) := by
        rwa [List.take_append_drop]
      simp only
      split
      case isTrue full =>
        apply Meets.bind
        apply (store_meets injective intact parted (by rw [full]; exact block_positive)
          full.le).mono
        · exact fun _ _ allowed => allowed
        · rintro flushed between ⟨seals, stored, digested, own, translates, kept, -⟩
          apply (induction _ shorter seals.intact stored rfl).mono
          · exact fun _ _ allowed => allowed
          · rintro next after ⟨later, continues⟩
            refine ⟨seals.trans later, continues.stored, ?_, ?_, ?_, ?_⟩
            · rw [continues.digested, digested]
            · rw [continues.path, own]
            · rw [continues.translates, translates]
            · rw [continues.sidecars, kept]
          · exact fun _ _ impossible => impossible
        · exact fun _ _ impossible => impossible
      case isFalse open_ =>
        apply (@induction _ shorter _ _ parts _ intact ?_ rfl).mono
        · exact fun _ _ allowed => allowed
        · rintro next after ⟨later, continues⟩
          exact ⟨later, continues.stored, continues.digested, continues.path,
            continues.translates, continues.sidecars⟩
        · exact fun _ _ impossible => impossible
        · refine ⟨stores.chunks, stores.sized, stores.holds, ?_, stores.size⟩
          rw [parted.digested]
          simp only [List.append_assoc]

theorem writeBytes_continues (injective : Function.Injective hash) (intact : Intact hash start)
    (stores : Stores hash writer start parts []) (data : Bytes) :
    Meets (writer.writeBytes hash data) start (Seals hash path bytes)
      (fun next after => Seals hash path bytes start after ∧
        Continues hash writer next start after data)
      fun _ _ => False := by
  have ahead : Stores hash
      { writer with digested := writer.digested ++ data, size := writer.size + data.length }
      start parts data := by
    refine ⟨stores.chunks, stores.sized, stores.holds, ?_, ?_⟩
    · rw [stores.digested, List.append_nil]
    · rw [stores.size, List.length_append]
  apply (take_continues injective intact ahead).mono
  · exact fun _ _ allowed => allowed
  · rintro next after ⟨seals, continues⟩
    refine ⟨seals, continues.stored, ?_, continues.path, continues.translates,
      continues.sidecars⟩
    rw [continues.digested, List.append_nil]
  · exact fun _ _ impossible => impossible

def callBytes (linesep : String) (translateNewlines : Bool) : WriterCall → Bytes
  | .write value => encodeText (translated linesep translateNewlines value)
  | .writeBytes data => data
  | .flush => []
  | .recordBoundary => []

theorem perform_continues (injective : Function.Injective hash) (intact : Intact hash start)
    (stores : Stores hash writer start parts []) (call : WriterCall) :
    Meets (writer.perform hash linesep call) start (Seals hash path bytes)
      (fun next after => Seals hash path bytes start after ∧
        Continues hash writer next start after
          (callBytes linesep writer.translateNewlines call))
      fun _ _ => False := by
  cases call with
  | write value =>
    apply Meets.bind
    apply Meets.bind
    apply (writeBytes_continues injective intact stores _).mono
    · exact fun _ _ allowed => allowed
    · exact fun next after written => .pure (.pure written)
    · exact fun _ _ impossible => impossible
  | writeBytes data => exact writeBytes_continues injective intact stores data
  | flush => exact .pure ⟨.refl intact, .refl stores⟩
  | recordBoundary =>
    apply (recordBoundary_continues injective intact stores).mono
    · exact fun _ _ allowed => allowed
    · exact fun next after flushed => ⟨flushed.1, flushed.2.1⟩
    · exact fun _ _ impossible => impossible

theorem performAll_continues (injective : Function.Injective hash) (intact : Intact hash start)
    (stores : Stores hash writer start parts []) (calls : List WriterCall) :
    Meets (writer.performAll hash linesep calls) start (Seals hash path bytes)
      (fun next after => Seals hash path bytes start after ∧
        Continues hash writer next start after
          (calls.flatMap (callBytes linesep writer.translateNewlines)))
      fun _ _ => False := by
  induction calls generalizing writer start parts with
  | nil => exact .pure ⟨.refl intact, .refl stores⟩
  | cons call rest induction =>
    apply Meets.bind
    apply (perform_continues injective intact stores call).mono
    · exact fun _ _ allowed => allowed
    · rintro middle between ⟨seals, continues⟩
      obtain ⟨stored, kept⟩ := continues.stored
      apply (induction seals.intact kept).mono
      · exact fun _ _ allowed => allowed
      · rintro next after ⟨later, continued⟩
        rw [continues.translates] at continued
        rw [List.flatMap_cons]
        exact ⟨seals.trans later, continues.trans continued⟩
      · exact fun _ _ impossible => impossible
    · exact fun _ _ impossible => impossible

theorem sealWriter_meets (injective : Function.Injective hash) (intact : Intact hash start)
    (stores : Stores hash writer start parts []) (own : writer.path = path)
    (bare : start.files path = none) :
    Meets (writer.sealWriter hash) start (Seals hash path writer.digested)
      (fun named after => named = fingerprintOf hash writer.digested ∧
        Seals hash path writer.digested start after ∧
        content after path = some writer.digested)
      fun _ _ => False := by
  apply Meets.bind
  apply (recordBoundary_continues injective intact stores).mono
  · exact fun _ _ allowed => allowed
  · rintro flushed between ⟨seals, continues, empty⟩
    obtain ⟨stored, kept⟩ := continues.stored
    have digested : flushed.digested = stored.flatten := by
      rw [kept.digested, empty, List.append_nil, List.append_nil]
    have whole : stored.flatten = writer.digested := by
      rw [← digested, continues.digested, List.append_nil]
    have covers : Receipt.Covers hash
        ⟨flushed.path, ⟨hash flushed.digested, flushed.size⟩, flushed.chunks⟩ stored :=
      ⟨kept.chunks, kept.sized, by rw [kept.size, digested]; rfl⟩
    have sealing := sealReceipt_meets path seals.intact (by rw [seals.grown.files, bare])
      (continues.path.trans own) covers kept.holds
    rw [whole] at sealing
    rw [continues.path, own]
    rw [continues.path, own] at sealing
    apply Meets.bind
    apply sealing.mono
    · exact fun _ _ allowed => allowed
    · rintro - after ⟨sealed, reads⟩
      refine .pure ⟨?_, seals.trans sealed, reads⟩
      rw [kept.size, digested, whole]
      rfl
    · exact fun _ _ impossible => impossible
  · exact fun _ _ impossible => impossible

/-- A writer from its first call to `seal`. -/
def writeAndSeal (hash : Bytes → Digest) (linesep : String) (path : Evidence Digest)
    (translateNewlines : Bool) (calls : List WriterCall) :
    Durable (Artifacts Digest) (Fingerprint Digest) := do
  let written ← (create path translateNewlines).performAll hash linesep calls
  written.sealWriter hash

def writtenBytes (linesep : String) (translateNewlines : Bool) (calls : List WriterCall) : Bytes :=
  calls.flatMap (callBytes linesep translateNewlines)

theorem writeAndSeal_meets (injective : Function.Injective hash) (intact : Intact hash start)
    (bare : start.files path = none) (translateNewlines : Bool) (calls : List WriterCall) :
    Meets (writeAndSeal hash linesep path translateNewlines calls) start
      (Seals hash path (writtenBytes linesep translateNewlines calls))
      (fun named after => named = fingerprintOf hash (writtenBytes linesep translateNewlines calls) ∧
        Seals hash path (writtenBytes linesep translateNewlines calls) start after ∧
        content after path = some (writtenBytes linesep translateNewlines calls))
      fun _ _ => False := by
  apply Meets.bind
  apply (performAll_continues injective intact
    (stores_create path translateNewlines start) calls).mono
  · exact fun _ _ allowed => allowed
  · rintro written between ⟨seals, continues⟩
    obtain ⟨stored, kept⟩ := continues.stored
    have digested : written.digested = writtenBytes linesep translateNewlines calls :=
      continues.digested
    have own : written.path = path := continues.path
    rw [← digested] at seals ⊢
    apply (sealWriter_meets injective seals.intact kept own
      (by rw [seals.grown.files, bare])).mono
    · exact fun _ _ allowed => allowed
    · rintro named after ⟨same, later, reads⟩
      exact ⟨same, seals.trans later, reads⟩
    · exact fun _ _ impossible => impossible
  · exact fun _ _ impossible => impossible

end RecordWriter

end JobAgg.PublicationArtifacts
