import JobAgg.PendingPublication.PendingPublication

/-! # What every file operation of a continuation keeps

A round fills its archive, empties the run directory under the receipt, and closes.
`Controls.Sound` says where in its round the head is, and `Allowed` what one file
operation may do to the controls.
-/

namespace JobAgg.PendingPublication

variable {library : Library} {value : Marker} {controls : Controls} {head : Head}
  {name : Control} {payload : Bytes} {member : Control × FileProof}

/-- A request is bound to the acceptance, an outcome is not published. -/
def Deferred (value : Marker) (fields : List (String × Json)) : Control → Prop
  | .publicationRequest =>
    Json.get "worker_acceptance_sha256" fields = .string value.acceptanceSha256
  | .outcome => unpublished (Json.get "publication_status" fields) = .ok ()

def Bound (library : Library) (value : Marker) (name : Control) (source : Bytes) : Prop :=
  source.length ≤ maxControlBytes ∧
    ∃ fields, library.loads source = .ok (.object fields) ∧
      Json.get "run_id" fields = .string value.runId ∧ Deferred value fields name

/-- What is documented of the library: an empty text is no JSON, and a digest is
written in 64 hexadecimal letters. -/
structure Library.Lawful (library : Library) : Prop where
  loads_nil : ∀ found, library.loads [] ≠ .ok found
  sha256 : ∀ payload, isSha256 (library.sha256 payload) = true

/-- A text that `_control_bytes` accepts. -/
def Readable (library : Library) (payload : Bytes) : Prop :=
  controlBytes library (some payload) = .ok payload

theorem json_of_bound (bound : Bound library value name payload) :
    ∃ fields, json library (some payload) = .ok fields ∧
      Json.get "run_id" fields = .string value.runId ∧ Deferred value fields name := by
  obtain ⟨size, fields, loads, rest⟩ := bound
  refine ⟨fields, ?_, rest⟩
  simp [json, size, loads, Json.asObject, require, bind, Except.bind, pure, Except.pure]

theorem Bound.readable (bound : Bound library value name payload) :
    Readable library payload := by
  obtain ⟨fields, read, -⟩ := json_of_bound bound
  rw [Readable, controlBytes, read]
  rfl

def proofOf (library : Library) (payload : Bytes) : FileProof :=
  ⟨library.sha256 payload, payload.length⟩

theorem proves_proofOf : proves library (proofOf library payload) payload = true := by
  simp [proves, proofOf]

theorem Bound.bindSource (bound : Bound library value name payload) :
    bindSource library value name payload = .ok (proofOf library payload) := by
  have readable := bound.readable
  obtain ⟨fields, read, runId, kind⟩ := json_of_bound bound
  rw [PendingPublication.bindSource, read, ok_bind, runId, readable]
  cases name with
  | outcome =>
    simp only [Deferred] at kind
    simp [kind, require, bind, Except.bind, pure, Except.pure, proofOf]
  | publicationRequest =>
    simp only [Deferred] at kind
    simp [kind, require, bind, Except.bind, pure, Except.pure, proofOf]

theorem Bound.validProof (bound : Bound library value name payload)
    (lawful : library.Lawful) : validProof (proofOf library payload) = true := by
  obtain ⟨size, fields, loads, -⟩ := bound
  have filled : payload ≠ [] := by
    intro empty
    rw [empty] at loads
    exact lawful.loads_nil _ loads
  have positive : 0 < payload.length := List.length_pos_of_ne_nil filled
  simp [PendingPublication.validProof, proofOf, size, positive, lawful.sha256]

/-! ## The stages of a round -/

namespace Controls

abbrev archiveOf (controls : Controls) (head : Head) : Archive :=
  controls.archives head.transactionId

def Copied (library : Library) (head : Head) (controls : Controls) : Prop :=
  ∀ member ∈ head.files, ∃ payload, (controls.archiveOf head).copies member.1 = some payload ∧
    proves library member.2 payload = true ∧ Readable library payload

/-- The archive has no receipt, and every member of the head is in place. -/
structure Filling (library : Library) (head : Head) (controls : Controls) : Prop where
  receipt : (controls.archiveOf head).receipt = none
  completion : (controls.archiveOf head).completion = none
  present : ∀ member ∈ head.files, ∃ payload, controls.sources member.1 = some payload ∧
    proves library member.2 payload = true
  copies : ∀ name copy, (controls.archiveOf head).copies name = some copy →
    controls.sources name = some copy
  listed : ∀ name payload, controls.sources name = some payload →
    ∃ member ∈ head.files, member.1 = name

/-- The receipt covers the copies, and what is in place is a copied member. -/
structure Emptying (library : Library) (head : Head) (controls : Controls) : Prop where
  receipt : (controls.archiveOf head).receipt = some (continuationReceipt head)
  copied : controls.Copied library head
  remaining : ∀ name payload, controls.sources name = some payload →
    (controls.archiveOf head).copies name = some payload ∧
      ∃ member ∈ head.files, member.1 = name
  completion : (controls.archiveOf head).completion = none ∨
    (controls.archiveOf head).completion =
        some (PendingPublication.completion library head (continuationReceipt head)) ∧
      ∀ name, controls.sources name = none

/-- The round is over. New sources may be in place. -/
structure Closed (library : Library) (head : Head) (controls : Controls) : Prop where
  receipt : (controls.archiveOf head).receipt = some (continuationReceipt head)
  copied : controls.Copied library head
  completion : (controls.archiveOf head).completion =
    some (PendingPublication.completion library head (continuationReceipt head))

/-- The head belongs to the marker, and its round is in one of its stages. -/
structure Staged (library : Library) (value : Marker) (head : Head) (controls : Controls) :
    Prop where
  schemaVersion : head.schemaVersion = 1
  accepted : head.accepted = value.accepted
  transactionId : isTransactionId head.transactionId = true
  proofs : ∀ member ∈ head.files, validProof member.2 = true
  stage : head.state = "archiving" ∧
      (controls.Filling library head ∨ controls.Emptying library head) ∨
    head.state = "complete" ∧ controls.Closed library head

/-- What holds whenever a call may be stopped. -/
structure Sound (library : Library) (value : Marker) (controls : Controls) : Prop where
  marker : inspect controls = .ok value
  proofs : acceptedProofs library value controls = .ok ()
  bound : ∀ name payload, controls.sources name = some payload →
    Bound library value name payload
  staged : ∀ head, controls.head = some head → controls.Staged library value head

/-- A file is archived with its bytes, under a receipt that proves them. -/
def Archived (library : Library) (controls : Controls) (name : Control) (payload : Bytes) :
    Prop :=
  ∃ transactionId receipt, (controls.archives transactionId).receipt = some receipt ∧
    (controls.archives transactionId).copies name = some payload ∧
    ∃ proof, (name, proof) ∈ receipt.files ∧ proves library proof payload = true

end Controls

/-- The receipt is in place, and so are, after a loss of power, its directory's entries
and the entry of its directory. -/
def Archive.Durable (archive : Archive) : Prop :=
  archive.receipt.isSome ∧ archive.receiptSynced = true ∧ archive.entrySynced = true

namespace Controls

/-- A file is archived with its bytes, under a durable receipt that proves them. -/
def ArchivedDurably (library : Library) (controls : Controls) (name : Control)
    (payload : Bytes) : Prop :=
  ∃ transactionId receipt, (controls.archives transactionId).receipt = some receipt ∧
    (controls.archives transactionId).copies name = some payload ∧
    (∃ proof, (name, proof) ∈ receipt.files ∧ proves library proof payload = true) ∧
    (controls.archives transactionId).Durable

/-- No call is to resume a round whose receipt is not durable. -/
def Settled (controls : Controls) : Prop :=
  ∀ head, controls.head = some head → (controls.archiveOf head).receipt.isSome →
    (controls.archiveOf head).Durable

end Controls

/-! ## One file operation -/

/-- An archive after a file operation: what a receipt covers stays as it is. -/
structure Archive.Keeps (before after : Archive) : Prop where
  receipt : ∀ receipt, before.receipt = some receipt →
    after.receipt = some receipt ∧ after.copies = before.copies
  receiptSynced : before.receiptSynced = true → after.receiptSynced = true
  entrySynced : before.entrySynced = true → after.entrySynced = true

theorem Archive.Keeps.refl (archive : Archive) : archive.Keeps archive :=
  ⟨fun _ found => ⟨found, rfl⟩, id, id⟩

/-- What one file operation of a call may do. `settled` is what the call relies on for
its receipt. -/
structure Allowed (library : Library) (value : Marker) (settled : Prop)
    (before after : Controls) : Prop where
  sound : after.Sound library value
  intent : after.intent = before.intent
  archives : ∀ transactionId,
    (before.archives transactionId).Keeps (after.archives transactionId)
  sources : ∀ name payload, before.sources name = some payload →
    after.sources name = some payload ∨
      after.sources name = none ∧ before.Archived library name payload ∧
        (settled → before.ArchivedDurably library name payload)

theorem Controls.Archived.after {before after : Controls}
    (archived : before.Archived library name payload)
    (keeps : ∀ transactionId,
      (before.archives transactionId).Keeps (after.archives transactionId)) :
    after.Archived library name payload := by
  obtain ⟨transactionId, receipt, found, copied, proved⟩ := archived
  obtain ⟨kept, copies⟩ := (keeps transactionId).receipt receipt found
  exact ⟨transactionId, receipt, kept, by rw [copies, copied], proved⟩

theorem Archive.Durable.after {before after : Archive} (durable : before.Durable)
    (keeps : before.Keeps after) : after.Durable := by
  obtain ⟨received, synced, entered⟩ := durable
  obtain ⟨receipt, found⟩ := Option.isSome_iff_exists.mp received
  have kept := (keeps.receipt receipt found).1
  exact ⟨by rw [kept]; rfl, keeps.receiptSynced synced, keeps.entrySynced entered⟩

theorem Controls.ArchivedDurably.after {before after : Controls}
    (archived : before.ArchivedDurably library name payload)
    (keeps : ∀ transactionId,
      (before.archives transactionId).Keeps (after.archives transactionId)) :
    after.ArchivedDurably library name payload := by
  obtain ⟨transactionId, receipt, found, copied, proved, durable⟩ := archived
  obtain ⟨kept, copies⟩ := (keeps transactionId).receipt receipt found
  exact ⟨transactionId, receipt, kept, by rw [copies, copied], proved,
    durable.after (keeps transactionId)⟩

/-! ## Operations on directories

They change no file, so every stage stays as it is. -/

/-- The same files, with directories made or flushed in between. -/
structure Controls.SameFiles (before after : Controls) : Prop where
  marker : after.marker = before.marker
  proofs : after.proofs = before.proofs
  intent : after.intent = before.intent
  sources : after.sources = before.sources
  head : after.head = before.head
  copies : ∀ id, (after.archives id).copies = (before.archives id).copies
  receipt : ∀ id, (after.archives id).receipt = (before.archives id).receipt
  completion : ∀ id, (after.archives id).completion = (before.archives id).completion
  receiptSynced : ∀ id, (before.archives id).receiptSynced = true →
    (after.archives id).receiptSynced = true
  entrySynced : ∀ id, (before.archives id).entrySynced = true →
    (after.archives id).entrySynced = true

namespace Controls.SameFiles

variable {before after : Controls}

theorem keeps (same : before.SameFiles after) (id : String) :
    (before.archives id).Keeps (after.archives id) where
  receipt receipt found := ⟨by rw [same.receipt, found], same.copies id⟩
  receiptSynced := same.receiptSynced id
  entrySynced := same.entrySynced id

theorem copied (same : before.SameFiles after) (copied : before.Copied library head) :
    after.Copied library head := by
  intro member inFiles
  rw [Controls.archiveOf, same.copies]
  exact copied member inFiles

theorem filling (same : before.SameFiles after) (filling : before.Filling library head) :
    after.Filling library head where
  receipt := by rw [Controls.archiveOf, same.receipt, filling.receipt]
  completion := by rw [Controls.archiveOf, same.completion, filling.completion]
  present := by rw [same.sources]; exact filling.present
  copies := by rw [Controls.archiveOf, same.copies, same.sources]; exact filling.copies
  listed := by rw [same.sources]; exact filling.listed

theorem emptying (same : before.SameFiles after) (emptying : before.Emptying library head) :
    after.Emptying library head where
  receipt := by rw [Controls.archiveOf, same.receipt, emptying.receipt]
  copied := same.copied emptying.copied
  remaining := by
    rw [Controls.archiveOf, same.copies, same.sources]
    exact emptying.remaining
  completion := by
    rw [Controls.archiveOf, same.completion, same.sources]
    exact emptying.completion

theorem closed (same : before.SameFiles after) (closed : before.Closed library head) :
    after.Closed library head where
  receipt := by rw [Controls.archiveOf, same.receipt, closed.receipt]
  copied := same.copied closed.copied
  completion := by rw [Controls.archiveOf, same.completion, closed.completion]

theorem staged (same : before.SameFiles after) (staged : before.Staged library value head) :
    after.Staged library value head where
  schemaVersion := staged.schemaVersion
  accepted := staged.accepted
  transactionId := staged.transactionId
  proofs := staged.proofs
  stage := by
    rcases staged.stage with ⟨archiving, filling | emptying⟩ | ⟨complete, closed⟩
    · exact .inl ⟨archiving, .inl (same.filling filling)⟩
    · exact .inl ⟨archiving, .inr (same.emptying emptying)⟩
    · exact .inr ⟨complete, same.closed closed⟩

end Controls.SameFiles

theorem inspect_congr {before after : Controls} (same : after.marker = before.marker) :
    inspect after = inspect before := by
  simp only [inspect, same]

theorem acceptedProofs_congr {before after : Controls} (same : after.proofs = before.proofs) :
    acceptedProofs library value after = acceptedProofs library value before := by
  simp only [acceptedProofs, acceptedProof, same]

theorem Controls.Sound.after {before after : Controls} (sound : before.Sound library value)
    (marker : after.marker = before.marker) (proofs : after.proofs = before.proofs)
    (sources : ∀ name payload, after.sources name = some payload →
      before.sources name = some payload)
    (staged : ∀ head, after.head = some head → after.Staged library value head) :
    after.Sound library value where
  marker := (inspect_congr marker).trans sound.marker
  proofs := (acceptedProofs_congr proofs).trans sound.proofs
  bound name payload found := sound.bound name payload (sources name payload found)
  staged := staged

variable {settled : Prop}

theorem Controls.SameFiles.allowed {before after : Controls} (same : before.SameFiles after)
    (sound : before.Sound library value) : Allowed library value settled before after where
  sound := by
    apply sound.after same.marker same.proofs
    · intro name payload found
      rw [← same.sources, found]
    · intro head found
      exact same.staged (sound.staged head (same.head ▸ found))
  intent := same.intent
  archives := same.keeps
  sources name payload found := .inl (by rw [same.sources, found])

theorem sameFiles_makeDirectory (directory : Directory) (controls : Controls) :
    controls.SameFiles (controls.makeDirectory directory) := by
  cases directory with
  | run => exact ⟨rfl, rfl, rfl, rfl, rfl, fun _ => rfl, fun _ => rfl, fun _ => rfl,
      fun _ => id, fun _ => id⟩
  | deferrals => exact ⟨rfl, rfl, rfl, rfl, rfl, fun _ => rfl, fun _ => rfl, fun _ => rfl,
      fun _ => id, fun _ => id⟩
  | archive transactionId =>
    refine ⟨rfl, rfl, rfl, rfl, rfl, ?_, ?_, ?_, ?_, ?_⟩
    all_goals
      intro id
      by_cases same : id = transactionId
      · subst same
        simp [Controls.makeDirectory, Controls.updateArchive]
      · simp [Controls.makeDirectory, Controls.updateArchive, same]

theorem sameFiles_syncDirectory (directory : Directory) (controls : Controls) :
    controls.SameFiles (controls.syncDirectory directory) := by
  cases directory with
  | run => exact ⟨rfl, rfl, rfl, rfl, rfl, fun _ => rfl, fun _ => rfl, fun _ => rfl,
      fun _ => id, fun _ => id⟩
  | deferrals =>
    refine ⟨rfl, rfl, rfl, rfl, rfl, fun _ => rfl, fun _ => rfl, fun _ => rfl,
      fun _ => id, ?_⟩
    intro id entered
    simp [Controls.syncDirectory, entered]
  | archive transactionId =>
    refine ⟨rfl, rfl, rfl, rfl, rfl, ?_, ?_, ?_, ?_, ?_⟩
    all_goals
      intro id
      by_cases same : id = transactionId
      · subst same
        simp +contextual [Controls.syncDirectory, Controls.updateArchive]
      · simp [Controls.syncDirectory, Controls.updateArchive, same]

/-! ## Operations on files -/

section Fields

variable (id : String) (change : Archive → Archive)

@[simp] theorem archives_updateArchive_same :
    (controls.updateArchive id change).archives id = change (controls.archives id) := by
  simp [Controls.updateArchive]

@[simp] theorem archives_updateArchive_other {other : String} (apart : other ≠ id) :
    (controls.updateArchive id change).archives other = controls.archives other := by
  simp [Controls.updateArchive, apart]

end Fields

theorem keeps_updateArchive {id : String} {change : Archive → Archive}
    (keeps : (controls.archives id).Keeps (change (controls.archives id))) (other : String) :
    (controls.archives other).Keeps ((controls.updateArchive id change).archives other) := by
  by_cases same : other = id
  · subst same
    rw [archives_updateArchive_same]
    exact keeps
  · rw [archives_updateArchive_other id change same]
    exact .refl _

theorem allowed_updateArchive {change : Archive → Archive}
    (sound : controls.Sound library value) (current : controls.head = some head)
    (keeps : (controls.archiveOf head).Keeps (change (controls.archiveOf head)))
    (staged : (controls.updateArchive head.transactionId change).Staged library value head) :
    Allowed library value settled controls
      (controls.updateArchive head.transactionId change) where
  sound := by
    apply sound.after
    · rfl
    · rfl
    · exact fun _ _ found => found
    · intro other found
      have same : head = other := Option.some.inj (current.symm.trans found)
      exact same ▸ staged
  intent := rfl
  archives := keeps_updateArchive keeps
  sources _ _ found := .inl found

end JobAgg.PendingPublication
