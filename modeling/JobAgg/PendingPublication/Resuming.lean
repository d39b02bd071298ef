import JobAgg.PendingPublication.Continuation

/-! # A call of `prepare_resume`

Each part of the call is taken from the stage it finds to the stage it leaves; none of
them raises.
-/

namespace JobAgg.PendingPublication

open Durable

variable {library : Library} {value : Marker} {controls : Controls} {head : Head}
  {name : Control} {payload : Bytes} {member : Control × FileProof} {settled : Prop}

/-- No raise is expected. -/
abbrev Never (_ : String) (_ : Controls) : Prop := False

/-- Between two steps of a round. -/
structure Working (library : Library) (value : Marker) (head : Head) (controls : Controls) :
    Prop where
  sound : controls.Sound library value
  current : controls.head = some head
  intent : controls.intent = false

theorem Working.staged (working : Working library value head controls) :
    controls.Staged library value head :=
  working.sound.staged head working.current

theorem Working.after {after : Controls} (working : Working library value head controls)
    (allowed : Allowed library value settled controls after)
    (current : after.head = controls.head) : Working library value head after where
  sound := allowed.sound
  current := current.trans working.current
  intent := allowed.intent.trans working.intent

theorem Working.sameFiles {after : Controls} (working : Working library value head controls)
    (same : controls.SameFiles after) : Working library value head after := by
  have allowed : Allowed library value True controls after := same.allowed working.sound
  exact working.after allowed same.head

theorem meets_atomicWrite {parent : Directory} {replace : Controls → Controls}
    {later : Controls → Prop} (sound : controls.Sound library value)
    (replaced : Allowed library value settled (controls.makeDirectory parent)
      (replace (controls.makeDirectory parent)))
    (leads : later ((replace (controls.makeDirectory parent)).syncDirectory parent)) :
    Meets (atomicWrite parent replace) controls (Allowed library value settled)
      (fun _ => later) Never := by
  apply Meets.bind
  apply Meets.write
  · exact (sameFiles_makeDirectory parent controls).allowed sound
  apply Meets.bind
  apply Meets.write replaced
  apply Meets.write
  · exact (sameFiles_syncDirectory parent _).allowed replaced.sound
  · exact leads

theorem controlBytes_eq (readable : Readable library payload) :
    controlBytes library (some payload) = .ok payload := readable

/-- Before the receipt, with the members outside `rest` copied. -/
structure Copying (library : Library) (value : Marker) (head : Head)
    (rest : List (Control × FileProof)) (controls : Controls) : Prop
    extends Working library value head controls where
  archiving : head.state = "archiving"
  filling : controls.Filling library head
  listed : ∀ member ∈ rest, member ∈ head.files
  copied : ∀ member ∈ head.files, member ∈ rest ∨
    ((controls.archiveOf head).copies member.1).isSome

theorem Copying.sameFiles {rest : List (Control × FileProof)} {after : Controls}
    (copying : Copying library value head rest controls) (same : controls.SameFiles after) :
    Copying library value head rest after where
  toWorking := copying.toWorking.sameFiles same
  archiving := copying.archiving
  filling := same.filling copying.filling
  listed := copying.listed
  copied := by rw [Controls.archiveOf, same.copies]; exact copying.copied

theorem staged_of_filling {after : Controls} (staged : controls.Staged library value head)
    (archiving : head.state = "archiving") (filling : after.Filling library head) :
    after.Staged library value head where
  schemaVersion := staged.schemaVersion
  accepted := staged.accepted
  transactionId := staged.transactionId
  proofs := staged.proofs
  stage := .inl ⟨archiving, .inl filling⟩

theorem staged_of_emptying {after : Controls} (staged : controls.Staged library value head)
    (archiving : head.state = "archiving") (emptying : after.Emptying library head) :
    after.Staged library value head where
  schemaVersion := staged.schemaVersion
  accepted := staged.accepted
  transactionId := staged.transactionId
  proofs := staged.proofs
  stage := .inl ⟨archiving, .inr emptying⟩

theorem filling_putCopy (filling : controls.Filling library head)
    (source : controls.sources name = some payload) :
    (controls.putCopy head.transactionId name payload).Filling library head where
  receipt := by simp [Controls.putCopy, filling.receipt]
  completion := by simp [Controls.putCopy, filling.completion]
  present := filling.present
  copies := by
    intro other copy found
    simp only [Controls.putCopy, Controls.archiveOf, archives_updateArchive_same] at found
    by_cases same : other = name
    · subst same
      rw [Function.update_self] at found
      exact found ▸ source
    · rw [Function.update_of_ne same] at found
      exact filling.copies other copy found
  listed := filling.listed

theorem meets_copyMember {rest : List (Control × FileProof)}
    (copying : Copying library value head (member :: rest) controls)
    (source : controls.sources member.1 = some payload) :
    Meets (copyMember head.transactionId member.1 false (some payload)) controls
      (Allowed library value settled) (fun _ => Copying library value head rest) Never := by
  let middle := controls.makeDirectory (.archive head.transactionId)
  have same : controls.SameFiles middle := sameFiles_makeDirectory _ _
  have ready := copying.sameFiles same
  have sourced : middle.sources member.1 = some payload := by rw [same.sources, source]
  have filled := filling_putCopy ready.filling sourced
  have allowed : Allowed library value settled middle
      (middle.putCopy head.transactionId member.1 payload) := by
    apply allowed_updateArchive ready.sound ready.current
    · refine ⟨?_, id, id⟩
      intro receipt found
      rw [ready.filling.receipt] at found
      cases found
    · exact staged_of_filling ready.staged ready.archiving filled
  have flushed := sameFiles_syncDirectory (.archive head.transactionId)
    (middle.putCopy head.transactionId member.1 payload)
  have done : Copying library value head rest
      (middle.putCopy head.transactionId member.1 payload) := by
    refine ⟨ready.toWorking.after allowed rfl, ready.archiving, filled, ?_, ?_⟩
    · exact fun other inRest => ready.listed other (List.mem_cons_of_mem _ inRest)
    · intro other inFiles
      by_cases same : other.1 = member.1
      · right
        simp [Controls.putCopy, same]
      · rcases ready.copied other inFiles with inRest | copied
        · rcases List.mem_cons.mp inRest with rfl | inRest
          · exact absurd rfl same
          · exact .inl inRest
        · right
          simpa [Controls.putCopy, Function.update_of_ne same] using copied
  have readBack : readBack head.transactionId member.1 payload
      ((middle.putCopy head.transactionId member.1 payload).syncDirectory
        (.archive head.transactionId)) = .ok () := by
    rw [PendingPublication.readBack, require_eq_ok, flushed.copies]
    simp [Controls.putCopy]
  apply Meets.bind
  apply Meets.checked rfl
  apply Meets.bind
  apply meets_atomicWrite copying.sound allowed
  apply Meets.examined readBack
  exact done.sameFiles flushed

theorem Copying.skip {rest : List (Control × FileProof)}
    (copying : Copying library value head (member :: rest) controls)
    (copied : ((controls.archiveOf head).copies member.1).isSome) :
    Copying library value head rest controls where
  toWorking := copying.toWorking
  archiving := copying.archiving
  filling := copying.filling
  listed other inRest := copying.listed other (List.mem_cons_of_mem _ inRest)
  copied := by
    intro other inFiles
    rcases copying.copied other inFiles with inRest | found
    · rcases List.mem_cons.mp inRest with rfl | inRest
      · exact .inr copied
      · exact .inl inRest
    · exact .inr found

theorem meets_archiveMember {rest : List (Control × FileProof)}
    (copying : Copying library value head (member :: rest) controls) :
    Meets (archiveMember library head false member) controls
      (Allowed library value settled) (fun _ => Copying library value head rest) Never := by
  have inFiles := copying.listed member List.mem_cons_self
  obtain ⟨payload, source, proved⟩ := copying.filling.present member inFiles
  have readable := (copying.sound.bound _ _ source).readable
  have seen : sourceBytes library false member controls = .ok (some payload) := by
    simp only [sourceBytes, source, controlBytes_eq readable, ok_bind, proved]
    rfl
  apply Meets.bind
  apply Meets.checked (copying.staged.proofs member inFiles)
  apply Meets.bind
  apply Meets.examined seen
  apply Meets.bind
  cases copy : (controls.archiveOf head).copies member.1 with
  | none =>
    have absent : archivedCopy library head.transactionId member controls = .ok false := by
      simp only [archivedCopy, copy]
      rfl
    apply Meets.examined absent
    exact meets_copyMember copying source
  | some copied =>
    have same : copied = payload :=
      Option.some.inj ((copying.filling.copies _ _ copy).symm.trans source)
    subst same
    have present : archivedCopy library head.transactionId member controls = .ok true := by
      simp only [archivedCopy, copy, controlBytes_eq readable, ok_bind, proved]
      rfl
    apply Meets.examined present
    apply Meets.pure
    exact copying.skip (by rw [copy]; rfl)

theorem meets_archiveMembers
    (copying : Copying library value head head.files controls) :
    Meets (archiveMembers library head false head.files) controls
      (Allowed library value settled) (fun _ => Copying library value head []) Never :=
  Meets.forList (archiveMember library head false) _ (Copying library value head) rfl
    (fun _ _ => rfl) (fun _ _ _ => meets_archiveMember) head.files copying

/-! ## Under a receipt -/

/-- After the receipt. A closed round with nothing in place is of this kind too. -/
structure Covered (library : Library) (value : Marker) (head : Head) (settled : Prop)
    (controls : Controls) : Prop extends Working library value head controls where
  emptying : controls.Emptying library head
  durable : settled → (controls.archiveOf head).Durable

theorem Covered.sameFiles {after : Controls}
    (covered : Covered library value head settled controls) (same : controls.SameFiles after) :
    Covered library value head settled after where
  toWorking := covered.toWorking.sameFiles same
  emptying := same.emptying covered.emptying
  durable settles := (covered.durable settles).after (same.keeps _)

theorem meets_verifyMember (covered : Covered library value head settled controls)
    (inFiles : member ∈ head.files) :
    Meets (archiveMember library head true member) controls
      (Allowed library value settled) (fun _ state => state = controls) Never := by
  obtain ⟨payload, copy, proved, readable⟩ := covered.emptying.copied member inFiles
  have present : archivedCopy library head.transactionId member controls = .ok true := by
    simp only [archivedCopy, copy, controlBytes_eq readable, ok_bind, proved]
    rfl
  have seen : ∃ source, sourceBytes library true member controls = .ok source := by
    cases source : controls.sources member.1 with
    | none =>
      refine ⟨none, ?_⟩
      simp only [sourceBytes, source]
      rfl
    | some found =>
      have same : found = payload :=
        Option.some.inj ((covered.emptying.remaining _ _ source).1.symm.trans copy)
      subst same
      refine ⟨some found, ?_⟩
      simp only [sourceBytes, source, controlBytes_eq readable, ok_bind, proved]
      rfl
  obtain ⟨source, seen⟩ := seen
  apply Meets.bind
  apply Meets.checked (covered.staged.proofs member inFiles)
  apply Meets.bind
  apply Meets.examined seen
  apply Meets.bind
  apply Meets.examined present
  exact Meets.pure rfl

theorem meets_verifyArchive (covered : Covered library value head settled controls) :
    Meets (archiveMembers library head true head.files) controls
      (Allowed library value settled) (fun _ state => state = controls) Never := by
  have kept : Meets (archiveMembers library head true head.files) controls
      (Allowed library value settled)
      (fun _ state => state = controls ∧ ∀ member ∈ [], member ∈ head.files) Never := by
    apply Meets.forList (archiveMember library head true) (archiveMembers library head true)
      (fun rest state => state = controls ∧ ∀ member ∈ rest, member ∈ head.files)
    · rfl
    · exact fun _ _ => rfl
    · rintro item rest state ⟨rfl, listed⟩
      apply (meets_verifyMember covered (listed item List.mem_cons_self)).mono (fun _ _ => id)
      · rintro _ _ rfl
        exact ⟨rfl, fun other inRest => listed other (List.mem_cons_of_mem _ inRest)⟩
      · exact fun _ _ => id
    · exact ⟨rfl, fun _ => id⟩
  exact kept.mono (fun _ _ => id) (fun _ _ holds => holds.1) fun _ _ => id

/-! ## Sealing the archive -/

theorem emptying_putReceipt (copying : Copying library value head [] controls) :
    (controls.putReceipt head.transactionId (continuationReceipt head)).Emptying library head := by
  have covered : ∀ member ∈ head.files, ∀ payload, controls.sources member.1 = some payload →
      (controls.archiveOf head).copies member.1 = some payload := by
    intro member inFiles payload source
    rcases copying.copied member inFiles with impossible | copied
    · cases impossible
    · obtain ⟨copy, found⟩ := Option.isSome_iff_exists.mp copied
      have same := copying.filling.copies _ _ found
      rw [source] at same
      rw [found, same]
  constructor
  · simp [Controls.putReceipt]
  · intro member inFiles
    obtain ⟨payload, source, proved⟩ := copying.filling.present member inFiles
    refine ⟨payload, ?_, proved, (copying.sound.bound _ _ source).readable⟩
    simpa [Controls.putReceipt] using covered member inFiles payload source
  · intro name payload source
    obtain ⟨member, inFiles, rfl⟩ := copying.filling.listed name payload source
    refine ⟨?_, member, inFiles, rfl⟩
    simpa [Controls.putReceipt] using covered member inFiles payload source
  · left
    simpa [Controls.putReceipt] using copying.filling.completion

theorem durable_sealArchive (id : String) (receipt : Receipt) (controls : Controls) :
    ((((((controls.makeDirectory (.archive id)).putReceipt id receipt).syncDirectory
      (.archive id)).syncDirectory (.archive id)).syncDirectory .deferrals).archives
        id).Durable := by
  simp [Archive.Durable, Controls.syncDirectory, Controls.putReceipt, Controls.makeDirectory]

theorem meets_sealArchive (copying : Copying library value head [] controls) :
    Meets (sealArchive head false) controls (Allowed library value settled)
      (fun _ => Covered library value head settled) Never := by
  let middle := controls.makeDirectory (.archive head.transactionId)
  have ready : Copying library value head [] middle :=
    copying.sameFiles (sameFiles_makeDirectory _ _)
  have emptying := emptying_putReceipt ready
  have allowed : Allowed library value settled middle
      (middle.putReceipt head.transactionId (continuationReceipt head)) := by
    apply allowed_updateArchive ready.sound ready.current
    · refine ⟨?_, id, id⟩
      intro receipt found
      rw [ready.filling.receipt] at found
      cases found
    · exact staged_of_emptying ready.staged ready.archiving emptying
  have working : Working library value head
      (middle.putReceipt head.transactionId (continuationReceipt head)) :=
    ready.toWorking.after allowed rfl
  have first := sameFiles_syncDirectory (.archive head.transactionId)
    (middle.putReceipt head.transactionId (continuationReceipt head))
  have second := sameFiles_syncDirectory (.archive head.transactionId)
    ((middle.putReceipt head.transactionId (continuationReceipt head)).syncDirectory
      (.archive head.transactionId))
  have third := sameFiles_syncDirectory .deferrals
    (((middle.putReceipt head.transactionId (continuationReceipt head)).syncDirectory
      (.archive head.transactionId)).syncDirectory (.archive head.transactionId))
  have flushed := (working.sameFiles first).sameFiles second
  apply Meets.bind
  apply meets_atomicWrite copying.sound allowed
  apply Meets.bind
  apply Meets.write (second.allowed (working.sameFiles first).sound)
  apply Meets.write (third.allowed flushed.sound)
  exact ⟨flushed.sameFiles third,
    third.emptying (second.emptying (first.emptying emptying)),
    fun _ => durable_sealArchive _ _ _⟩

/-! ## Emptying the run directory -/

/-- Under a receipt, with the members outside `rest` removed. -/
structure Removing (library : Library) (value : Marker) (head : Head) (settled : Prop)
    (rest : List (Control × FileProof)) (controls : Controls) : Prop
    extends Covered library value head settled controls where
  removed : ∀ name payload, controls.sources name = some payload →
    ∃ member ∈ rest, member.1 = name

theorem Covered.removing (covered : Covered library value head settled controls) :
    Removing library value head settled head.files controls where
  toCovered := covered
  removed name payload source := (covered.emptying.remaining name payload source).2

theorem Removing.sameFiles {rest : List (Control × FileProof)} {after : Controls}
    (removing : Removing library value head settled rest controls)
    (same : controls.SameFiles after) :
    Removing library value head settled rest after where
  toCovered := removing.toCovered.sameFiles same
  removed := by rw [same.sources]; exact removing.removed

@[simp] theorem sources_unlink_same : (controls.unlink name).sources name = none := by
  simp [Controls.unlink]

@[simp] theorem sources_unlink_other {other : Control} (apart : other ≠ name) :
    (controls.unlink name).sources other = controls.sources other := by
  simp [Controls.unlink, apart]

theorem emptying_unlink (emptying : controls.Emptying library head)
    (source : controls.sources name = some payload) :
    (controls.unlink name).Emptying library head where
  receipt := emptying.receipt
  copied := emptying.copied
  remaining := by
    intro other found present
    by_cases same : other = name
    · simp [same] at present
    · rw [sources_unlink_other same] at present
      exact emptying.remaining other found present
  completion := by
    rcases emptying.completion with absent | ⟨-, empty⟩
    · exact .inl absent
    · rw [empty] at source
      cases source

theorem Covered.archiving (covered : Covered library value head settled controls)
    (source : controls.sources name = some payload) : head.state = "archiving" := by
  rcases covered.staged.stage with ⟨archiving, -⟩ | ⟨-, closed⟩
  · exact archiving
  · rcases covered.emptying.completion with absent | ⟨-, empty⟩
    · rw [closed.completion] at absent
      cases absent
    · rw [empty] at source
      cases source

theorem archived_of_covered (covered : Covered library value head settled controls)
    (source : controls.sources name = some payload) :
    controls.Archived library name payload ∧
      (settled → controls.ArchivedDurably library name payload) := by
  obtain ⟨copy, member, inFiles, rfl⟩ := covered.emptying.remaining name payload source
  obtain ⟨other, copied, proved, -⟩ := covered.emptying.copied member inFiles
  have same : other = payload := Option.some.inj (copied.symm.trans copy)
  subst same
  have proof : ∃ proof, (member.1, proof) ∈ (continuationReceipt head).files ∧
      proves library proof other = true := ⟨member.2, inFiles, proved⟩
  exact ⟨⟨_, _, covered.emptying.receipt, copied, proof⟩, fun settles =>
    ⟨_, _, covered.emptying.receipt, copied, proof, covered.durable settles⟩⟩

theorem allowed_unlink (covered : Covered library value head settled controls)
    (source : controls.sources name = some payload) :
    Allowed library value settled controls (controls.unlink name) where
  sound := by
    apply covered.sound.after
    · rfl
    · rfl
    · intro other found present
      by_cases same : other = name
      · simp [same] at present
      · rwa [sources_unlink_other same] at present
    · intro other found
      have same : head = other := Option.some.inj (covered.current.symm.trans found)
      exact same ▸ staged_of_emptying covered.staged (covered.archiving source)
        (emptying_unlink covered.emptying source)
  intent := rfl
  archives _ := .refl _
  sources other found present := by
    by_cases same : other = name
    · subst same
      refine .inr ⟨sources_unlink_same, archived_of_covered covered present⟩
    · exact .inl (by rwa [sources_unlink_other same])

theorem meets_removeMember {rest : List (Control × FileProof)}
    (removing : Removing library value head settled (member :: rest) controls)
    (listed : member ∈ head.files) :
    Meets (removeMember library member) controls (Allowed library value settled)
      (fun _ => Removing library value head settled rest) Never := by
  have unfenced : noIntent controls = .ok () := by simp [noIntent, removing.intent]
  cases source : controls.sources member.1 with
  | none =>
    have absent : removable library member controls = .ok false := by
      simp only [removable, unfenced, ok_bind, source]
      rfl
    apply Meets.bind
    apply Meets.examined absent
    apply Meets.pure
    refine ⟨removing.toCovered, ?_⟩
    intro name payload present
    obtain ⟨other, inRest, rfl⟩ := removing.removed name payload present
    rcases List.mem_cons.mp inRest with rfl | inRest
    · rw [source] at present
      cases present
    · exact ⟨other, inRest, rfl⟩
  | some payload =>
    obtain ⟨copy, -⟩ := removing.emptying.remaining _ _ source
    obtain ⟨other, copied, proved, readable⟩ := removing.emptying.copied member listed
    have same : other = payload := Option.some.inj (copied.symm.trans copy)
    subst same
    have present : removable library member controls = .ok true := by
      simp only [removable, unfenced, ok_bind, source, controlBytes_eq readable, proved]
      rfl
    have allowed := allowed_unlink removing.toCovered source
    have done : Removing library value head settled rest (controls.unlink member.1) := by
      refine ⟨⟨removing.toWorking.after allowed rfl, emptying_unlink removing.emptying source,
        removing.durable⟩, ?_⟩
      intro name payload found
      by_cases same : name = member.1
      · simp [same] at found
      · rw [sources_unlink_other same] at found
        obtain ⟨later, inRest, rfl⟩ := removing.removed name payload found
        rcases List.mem_cons.mp inRest with rfl | inRest
        · exact absurd rfl same
        · exact ⟨later, inRest, rfl⟩
    have flushed := sameFiles_syncDirectory .run (controls.unlink member.1)
    apply Meets.bind
    apply Meets.examined present
    apply Meets.bind
    apply Meets.write allowed
    apply Meets.write (flushed.allowed done.sound)
    exact done.sameFiles flushed

theorem meets_removeMembers (covered : Covered library value head settled controls) :
    Meets (removeMembers library head.files) controls (Allowed library value settled)
      (fun _ => Removing library value head settled []) Never := by
  have kept : Meets (removeMembers library head.files) controls (Allowed library value settled)
      (fun _ state => Removing library value head settled [] state ∧
        ∀ member ∈ [], member ∈ head.files) Never := by
    apply Meets.forList (removeMember library) (removeMembers library)
      (fun rest state => Removing library value head settled rest state ∧
        ∀ member ∈ rest, member ∈ head.files)
    · rfl
    · exact fun _ _ => rfl
    · rintro item rest state ⟨removing, listed⟩
      apply (meets_removeMember removing (listed item List.mem_cons_self)).mono (fun _ _ => id)
      · exact fun _ _ kept =>
          ⟨kept, fun other inRest => listed other (List.mem_cons_of_mem _ inRest)⟩
      · exact fun _ _ => id
    · exact ⟨covered.removing, fun _ => id⟩
  exact kept.mono (fun _ _ => id) (fun _ _ holds => holds.1) fun _ _ => id

/-! ## Closing the round -/

theorem verifyMembers_eq_ok {archive : Archive} {members : List (Control × FileProof)}
    (copied : ∀ member ∈ members, ∃ payload, archive.copies member.1 = some payload ∧
      proves library member.2 payload = true ∧ Readable library payload) :
    verifyMembers library archive members = .ok () := by
  induction members with
  | nil => rfl
  | cons member members induction =>
    obtain ⟨payload, copy, proved, readable⟩ := copied member List.mem_cons_self
    have first : verifyMember library archive member = .ok () := by
      simp only [verifyMember, copy, controlBytes_eq readable, ok_bind, proved, require_eq_ok]
    rw [verifyMembers, first, ok_bind]
    exact induction fun other inRest => copied other (List.mem_cons_of_mem _ inRest)

theorem verify_of_closed (closed : controls.Closed library head) :
    verifyPreviousContinuation library head controls = .ok () := by
  simp only [verifyPreviousContinuation, closed.receipt, closed.completion, record, ok_bind,
    verifyMembers_eq_ok closed.copied]
  simp [require, bind, Except.bind]

structure Returned (library : Library) (value : Marker) (controls : Controls) : Prop where
  sound : controls.Sound library value
  intent : controls.intent = false
  empty : ∀ name, controls.sources name = none
  closed : ∃ head, controls.head = some head ∧ head.state = "complete" ∧
    controls.Closed library head

structure Completed (library : Library) (value : Marker) (head : Head) (controls : Controls) :
    Prop extends Working library value head controls where
  empty : ∀ name, controls.sources name = none
  closed : controls.Closed library head

theorem Completed.sameFiles {after : Controls}
    (completed : Completed library value head controls) (same : controls.SameFiles after) :
    Completed library value head after where
  toWorking := completed.toWorking.sameFiles same
  empty := by rw [same.sources]; exact completed.empty
  closed := same.closed completed.closed

theorem Removing.empty (removing : Removing library value head settled [] controls)
    (name : Control) : controls.sources name = none := by
  cases source : controls.sources name with
  | none => rfl
  | some payload =>
    obtain ⟨member, impossible, -⟩ := removing.removed name payload source
    cases impossible

theorem meets_completeArchive (removing : Removing library value head settled [] controls) :
    Meets (completeArchive library head) controls (Allowed library value settled)
      (fun _ => Completed library value head) Never := by
  have received : record (controls.archives head.transactionId).receipt =
      .ok (continuationReceipt head) := by
    rw [removing.emptying.receipt]
    rfl
  apply Meets.bind
  apply Meets.examined (by exact received)
  apply Meets.bind
  apply Meets.read
  rcases removing.emptying.completion with absent | ⟨present, -⟩
  · rw [absent]
    let middle := controls.makeDirectory (.archive head.transactionId)
    have ready : Removing library value head settled [] middle :=
      removing.sameFiles (sameFiles_makeDirectory _ _)
    let done := middle.putCompletion head.transactionId
      (completion library head (continuationReceipt head))
    have closed : done.Closed library head := by
      constructor
      · simpa [done, Controls.putCompletion] using ready.emptying.receipt
      · intro member inFiles
        obtain ⟨payload, copied⟩ := ready.emptying.copied member inFiles
        exact ⟨payload, by simpa [done, Controls.putCompletion] using copied⟩
      · simp [done, Controls.putCompletion]
    have staged : done.Staged library value head := by
      rcases ready.staged.stage with ⟨archiving, -⟩ | ⟨complete, -⟩
      · apply staged_of_emptying ready.staged archiving
        refine ⟨closed.receipt, closed.copied, ?_, .inr ⟨closed.completion, ready.empty⟩⟩
        intro name payload source
        have nothing : done.sources name = none := ready.empty name
        rw [nothing] at source
        cases source
      · exact ⟨ready.staged.schemaVersion, ready.staged.accepted, ready.staged.transactionId,
          ready.staged.proofs, .inr ⟨complete, closed⟩⟩
    have allowed : Allowed library value settled middle done :=
      allowed_updateArchive ready.sound ready.current
        ⟨fun _ found => ⟨found, rfl⟩, id, id⟩ staged
    apply meets_atomicWrite removing.sound allowed
    apply Completed.sameFiles _ (sameFiles_syncDirectory _ _)
    exact ⟨ready.toWorking.after allowed rfl, ready.empty, closed⟩
  · rw [present]
    apply Meets.checked
    · simp
    · exact ⟨removing.toWorking, removing.empty,
        ⟨removing.emptying.receipt, removing.emptying.copied, present⟩⟩

theorem meets_finishHead (completed : Completed library value head controls) :
    Meets (finishHead head) controls (Allowed library value settled)
      (fun _ => Returned library value) Never := by
  by_cases complete : head.state = "complete"
  · simp only [finishHead, complete, beq_self_eq_true, if_true]
    apply Meets.pure
    exact ⟨completed.sound, completed.intent, completed.empty,
      head, completed.current, complete, completed.closed⟩
  · have unfinished : (head.state == "complete") = false := by simpa using complete
    simp only [finishHead, unfinished, Bool.false_eq_true, if_false]
    let last : Head := { head with state := "complete" }
    have closed : (controls.putHead last).Closed library last :=
      ⟨completed.closed.receipt, completed.closed.copied, completed.closed.completion⟩
    have staged : (controls.putHead last).Staged library value last :=
      ⟨completed.staged.schemaVersion, completed.staged.accepted,
        completed.staged.transactionId, completed.staged.proofs, .inr ⟨rfl, closed⟩⟩
    have allowed : Allowed library value settled controls (controls.putHead last) := by
      refine ⟨?_, rfl, fun _ => .refl _, fun _ _ found => .inl found⟩
      apply completed.sound.after
      · rfl
      · rfl
      · exact fun _ _ found => found
      · intro other found
        have same : last = other := Option.some.inj found
        exact same ▸ staged
    apply meets_atomicWrite completed.sound allowed
    exact ⟨allowed.sound, completed.intent, completed.empty, last, rfl, rfl, closed⟩

/-! ## Finding the round -/

theorem bindSources_eq_ok
    (bound : ∀ name payload, controls.sources name = some payload →
      Bound library value name payload) (wanted : List Control) :
    bindSources library value controls wanted = .ok (wanted.filterMap fun name =>
      (controls.sources name).map fun payload => (name, proofOf library payload)) := by
  induction wanted with
  | nil => rfl
  | cons name rest induction =>
    cases source : controls.sources name with
    | none => simp [bindSources, source, induction]
    | some payload =>
      simp [bindSources, source, induction, (bound name payload source).bindSource,
        pure, Except.pure]

def Resumable (library : Library) (value : Marker) (settled : Prop) (head : Head)
    (controls : Controls) : Prop :=
  Copying library value head head.files controls ∨
    Covered library value head settled controls

theorem meets_beginRound {evidence : ProcessEvidence} {uuid : String}
    (lawful : library.Lawful) (sound : controls.Sound library value)
    (intent : controls.intent = false) (letters : isTransactionId uuid = true)
    (unused : controls.archives uuid = {}) :
    Meets (beginRound library value evidence uuid) controls (Allowed library value settled)
      (Resumable library value settled) Never := by
  apply Meets.bind
  apply Meets.examined (by exact bindSources_eq_ok sound.bound names)
  generalize made : names.filterMap (fun name =>
    (controls.sources name).map fun payload => (name, proofOf library payload)) = files
  have listed : ∀ member, member ∈ files ↔ ∃ payload,
      controls.sources member.1 = some payload ∧ member.2 = proofOf library payload := by
    intro member
    rw [← made, List.mem_filterMap]
    constructor
    · rintro ⟨name, -, found⟩
      rw [Option.map_eq_some_iff] at found
      obtain ⟨payload, source, rfl⟩ := found
      exact ⟨payload, source, rfl⟩
    · rintro ⟨payload, source, proof⟩
      refine ⟨member.1, mem_names _, ?_⟩
      rw [source, Option.map_some, ← proof]
  let head : Head :=
    { schemaVersion := 1, state := "archiving", transactionId := uuid,
      accepted := value.accepted, files, processEvidence := evidence }
  have filling : (controls.putHead head).Filling library head := by
    have empty : (controls.putHead head).archiveOf head = {} := unused
    constructor
    · rw [empty]
    · rw [empty]
    · intro member inFiles
      obtain ⟨payload, source, proof⟩ := (listed member).mp inFiles
      exact ⟨payload, source, by rw [proof, proves_proofOf]⟩
    · intro name copy found
      rw [empty] at found
      cases found
    · intro name payload source
      exact ⟨(name, proofOf library payload), (listed _).mpr ⟨payload, source, rfl⟩, rfl⟩
  have staged : (controls.putHead head).Staged library value head := by
    refine ⟨rfl, rfl, letters, ?_, .inl ⟨rfl, .inl filling⟩⟩
    intro member inFiles
    obtain ⟨payload, source, proof⟩ := (listed member).mp inFiles
    rw [proof]
    exact (sound.bound _ _ source).validProof lawful
  have allowed : Allowed library value settled controls (controls.putHead head) := by
    refine ⟨?_, rfl, fun _ => .refl _, fun _ _ found => .inl found⟩
    apply sound.after
    · rfl
    · rfl
    · exact fun _ _ found => found
    · intro other found
      have same : head = other := Option.some.inj found
      exact same ▸ staged
  apply Meets.bind
  apply meets_atomicWrite sound allowed
  apply Meets.pure
  exact .inl ⟨⟨allowed.sound, rfl, intent⟩, rfl, filling, fun _ => id, fun _ => .inl⟩

theorem checkHead_eq_ok (staged : controls.Staged library value head) :
    checkHead library value head controls = .ok () := by
  have binding : (head.schemaVersion == 1 && head.accepted == value.accepted &&
      (head.state == "archiving" || head.state == "complete") &&
      isTransactionId head.transactionId) = true := by
    rcases staged.stage with ⟨state, -⟩ | ⟨state, -⟩ <;>
      simp [staged.schemaVersion, staged.accepted, staged.transactionId, state]
  rw [checkHead, binding]
  by_cases complete : head.state = "complete"
  · rcases staged.stage with ⟨archiving, -⟩ | ⟨-, closed⟩
    · rw [archiving] at complete
      exact absurd complete (by decide)
    · simp [complete, verify_of_closed closed, require, bind, Except.bind]
  · simp [complete, require, bind, Except.bind, pure, Except.pure]

theorem sources_eq_none (quiet : controls.deferred = false) (name : Control) :
    controls.sources name = none := by
  rw [Controls.deferred, List.any_eq_false] at quiet
  simpa using quiet name (mem_names name)

theorem meets_currentHead {evidence : ProcessEvidence} {uuid : String}
    (lawful : library.Lawful) (sound : controls.Sound library value)
    (intent : controls.intent = false) (letters : isTransactionId uuid = true)
    (unused : controls.archives uuid = {}) (settles : settled → controls.Settled) :
    Meets (currentHead library value evidence uuid) controls (Allowed library value settled)
      (Resumable library value settled) Never := by
  apply Meets.bind
  apply Meets.read
  cases current : controls.head with
  | none => exact meets_beginRound lawful sound intent letters unused
  | some head =>
    have staged := sound.staged head current
    have working : Working library value head controls := ⟨sound, current, intent⟩
    have durable (receipt : (controls.archiveOf head).receipt =
        some (continuationReceipt head)) : settled → (controls.archiveOf head).Durable :=
      fun assumed => settles assumed head current (by rw [receipt]; rfl)
    apply Meets.bind
    apply Meets.examined (by exact checkHead_eq_ok staged)
    apply Meets.bind
    apply Meets.read
    rcases staged.stage with ⟨archiving, filling | emptying⟩ | ⟨complete, closed⟩
    · have unfinished : (head.state == "complete") = false := by rw [archiving]; decide
      rw [unfinished]
      apply Meets.pure
      exact .inl ⟨working, archiving, filling, fun _ => id, fun _ => .inl⟩
    · have unfinished : (head.state == "complete") = false := by rw [archiving]; decide
      rw [unfinished]
      apply Meets.pure
      exact .inr ⟨working, emptying, durable emptying.receipt⟩
    · have finished : (head.state == "complete") = true := by simpa using complete
      rw [finished, Bool.true_and]
      cases deferred : controls.deferred with
      | true => exact meets_beginRound lawful sound intent letters unused
      | false =>
        have empty := sources_eq_none deferred
        apply Meets.pure
        refine .inr ⟨working, ⟨closed.receipt, closed.copied, ?_, .inr ⟨closed.completion,
          empty⟩⟩, durable closed.receipt⟩
        intro name payload source
        rw [empty] at source
        cases source

theorem noIntent_eq_ok (intent : controls.intent = false) : noIntent controls = .ok () := by
  simp [noIntent, intent]

theorem onlyBound_eq_ok (listed : ∀ name payload, controls.sources name = some payload →
    ∃ member ∈ head.files, member.1 = name) : onlyBound head controls = .ok () := by
  rw [onlyBound, require_eq_ok, List.all_eq_true]
  intro name _
  cases source : controls.sources name with
  | none => rfl
  | some payload =>
    obtain ⟨member, inFiles, same⟩ := listed name payload source
    have found : (head.files.any fun member => decide (member.1 = name)) = true :=
      List.any_eq_true.mpr ⟨member, inFiles, by simpa using same⟩
    rw [found]
    rfl

theorem meets_clear (covered : Covered library value head settled controls) :
    Meets (do
        Durable.examine (acceptedProofs library value)
        removeMembers library head.files
        completeArchive library head
        finishHead head
        pure (resumed value head)) controls (Allowed library value settled)
      (fun _ => Returned library value) Never := by
  apply Meets.bind
  apply Meets.examined covered.sound.proofs
  apply Meets.bind
  apply (meets_removeMembers covered).mono (fun _ _ => id) _ fun _ _ => id
  intro _ emptied removing
  apply Meets.bind
  apply (meets_completeArchive removing).mono (fun _ _ => id) _ fun _ _ => id
  intro _ finished completed
  apply Meets.bind
  apply (meets_finishHead completed).mono (fun _ _ => id) _ fun _ _ => id
  intro _ last returned
  exact Meets.pure returned

/-- A call with fresh evidence and an unused transaction id, where no intent is recorded,
runs to its end; `settled` is what it may assume of the receipt it resumes under. -/
theorem meets_prepareResume {evidence : ProcessEvidence} {now : Int} {uuid : String}
    (lawful : library.Lawful) (sound : controls.Sound library value)
    (intent : controls.intent = false)
    (fresh : processProof library evidence now = .ok ())
    (letters : isTransactionId uuid = true) (unused : controls.archives uuid = {})
    (settles : settled → controls.Settled) :
    Meets (prepareResume library evidence now uuid) controls (Allowed library value settled)
      (fun _ => Returned library value) Never := by
  apply Meets.bind
  apply Meets.examined (by exact fresh)
  apply Meets.bind
  apply Meets.examined sound.marker
  apply Meets.bind
  apply Meets.examined (noIntent_eq_ok intent)
  apply Meets.bind
  apply Meets.examined sound.proofs
  apply Meets.bind
  apply (meets_currentHead lawful sound intent letters unused settles).mono
    (fun _ _ => id) _ fun _ _ => id
  intro head middle resumable
  apply Meets.bind
  rcases resumable with copying | covered
  · have received : sealedReceipt head middle = .ok false := by
      rw [sealedReceipt, copying.filling.receipt]
      rfl
    apply Meets.examined (onlyBound_eq_ok copying.filling.listed)
    apply Meets.bind
    apply Meets.examined received
    apply Meets.bind
    apply (meets_archiveMembers copying).mono (fun _ _ => id) _ fun _ _ => id
    intro _ filled copied
    apply Meets.bind
    apply (meets_sealArchive copied).mono (fun _ _ => id) _ fun _ _ => id
    intro _ last covered
    exact meets_clear covered
  · have received : sealedReceipt head middle = .ok true := by
      simp only [sealedReceipt, covered.emptying.receipt]
      simp [require, bind, Except.bind, pure, Except.pure]
    have listed name payload (source : middle.sources name = some payload) :=
      (covered.emptying.remaining name payload source).2
    apply Meets.examined (onlyBound_eq_ok listed)
    apply Meets.bind
    apply Meets.examined received
    apply Meets.bind
    apply (meets_verifyArchive covered).mono (fun _ _ => id) _ fun _ _ => id
    rintro _ last rfl
    apply Meets.bind
    apply Meets.pure
    exact meets_clear covered

end JobAgg.PendingPublication
