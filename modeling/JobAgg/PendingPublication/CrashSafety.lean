import JobAgg.PendingPublication.Resuming

/-! # Continuation archiving over interrupted calls

A history of an accepted run: controls are written again, calls are stopped between any
two file operations or return, and at some point the publication intent is recorded.
-/

namespace JobAgg.PendingPublication

open Durable

section

variable {library : Library} {value : Marker} {controls : Controls}
  {admitted : Controls → Prop} {files : List (Control × Bytes)} {states : List Controls}
  {returned : Bool}

structure Controls.Begins (library : Library) (value : Marker) (controls : Controls) : Prop where
  marker : inspect controls = .ok value
  proofs : acceptedProofs library value controls = .ok ()
  intent : controls.intent = false
  sources : ∀ name, controls.sources name = none
  head : controls.head = none
  archives : ∀ transactionId, controls.archives transactionId = {}

def Controls.putSource (name : Control) (payload : Bytes) (controls : Controls) : Controls :=
  { controls with sources := Function.update controls.sources name (some payload) }

def Controls.putIntent (controls : Controls) : Controls :=
  { controls with intent := true }

/-- A call with fresh evidence and an unused transaction id. -/
structure Call (library : Library) (controls : Controls) where
  evidence : ProcessEvidence
  now : Int
  uuid : String
  fresh : processProof library evidence now = .ok ()
  letters : isTransactionId uuid = true
  unused : controls.archives uuid = {}

def Call.trace (call : Call library controls) : Trace Controls Resumed :=
  prepareResume library call.evidence call.now call.uuid controls

def Call.final (call : Call library controls) : Controls :=
  call.trace.later.getLastD controls

/-- `files` are the controls written so far and `states` the states passed, both newest
first; `returned` says that no call was stopped since the last one that returned. A call
begins only where `admitted` holds. -/
inductive History (library : Library) (value : Marker) (admitted : Controls → Prop) :
    List (Control × Bytes) → List Controls → Bool → Prop
  | sealed {controls : Controls} : controls.Begins library value →
      History library value admitted [] [controls] true
  | written {files controls past} (name : Control) (payload : Bytes) :
      History library value admitted files (controls :: past) true →
      controls.sources name = none → Bound library value name payload →
      History library value admitted ((name, payload) :: files)
        (controls.putSource name payload :: controls :: past) true
  | intent {files controls past returned} :
      History library value admitted files (controls :: past) returned →
      History library value admitted files (controls.putIntent :: controls :: past) returned
  | stopped {files controls past returned} (call : Call library controls)
      (states : List Controls) :
      History library value admitted files (controls :: past) returned → admitted controls →
      states <+: call.trace.later →
      History library value admitted files (states.reverse ++ controls :: past) false
  | returned {files controls past returned} (call : Call library controls)
      (resumed : Resumed) :
      History library value admitted files (controls :: past) returned → admitted controls →
      call.trace.outcome = .ok resumed →
      History library value admitted files (call.trace.later.reverse ++ controls :: past) true

/-- What leaves the run directory between two states was archived under a durable receipt. -/
def RemovedDurably (library : Library) (after before : Controls) : Prop :=
  ∀ name payload, before.sources name = some payload → after.sources name ≠ some payload →
    before.ArchivedDurably library name payload

theorem later_eq_nil {Result : Type} {computation : Durable Controls Result}
    {returns : Result → Controls → Prop} {raises : String → Controls → Prop}
    (meets : Meets computation controls (fun _ _ => False) returns raises) :
    (computation controls).later = [] := by
  have chain := meets.1
  cases later : (computation controls).later with
  | nil => rfl
  | cons next rest =>
    rw [later, List.isChain_cons_cons] at chain
    exact chain.1.elim

theorem Call.fenced (call : Call library controls) (intent : controls.intent = true) :
    Meets (prepareResume library call.evidence call.now call.uuid) controls
      (fun _ _ => False) (fun _ _ => False) (fun _ _ => True) := by
  apply Meets.bind
  apply Meets.examine _ fun _ _ => trivial
  intro _ _
  apply Meets.bind
  apply Meets.examine _ fun _ _ => trivial
  intro _ _
  apply Meets.bind
  apply Meets.examine _ fun _ _ => trivial
  intro _ unfenced
  simp [noIntent, intent, require] at unfenced

/-! ## Histories -/

/-- What a history keeps from event to event. -/
structure Recorded (library : Library) (value : Marker) (settled : Prop)
    (files : List (Control × Bytes)) (controls : Controls) (past : List Controls) : Prop where
  sound : controls.Sound library value
  kept : ∀ file ∈ files, controls.sources file.1 = some file.2 ∨
    controls.Archived library file.1 file.2 ∧
      (settled → controls.ArchivedDurably library file.1 file.2)
  removed : settled → List.IsChain (RemovedDurably library) (controls :: past)

variable {settled : Prop} {past : List Controls}

theorem Controls.Begins.sound (begins : controls.Begins library value) :
    controls.Sound library value where
  marker := begins.marker
  proofs := begins.proofs
  bound name payload found := by
    rw [begins.sources] at found
    cases found
  staged head found := by
    rw [begins.head] at found
    cases found

theorem Recorded.after {after : Controls}
    (recorded : Recorded library value settled files controls past)
    (allowed : Allowed library value settled controls after) :
    Recorded library value settled files after (controls :: past) where
  sound := allowed.sound
  kept file written := by
    have later (archived : controls.Archived library file.1 file.2 ∧
        (settled → controls.ArchivedDurably library file.1 file.2)) :
        after.Archived library file.1 file.2 ∧
          (settled → after.ArchivedDurably library file.1 file.2) :=
      ⟨archived.1.after allowed.archives, fun assumed =>
        (archived.2 assumed).after allowed.archives⟩
    rcases recorded.kept file written with present | archived
    · rcases allowed.sources _ _ present with kept | ⟨-, archived⟩
      · exact .inl kept
      · exact .inr (later archived)
    · exact .inr (later archived)
  removed assumed := by
    refine .cons_cons ?_ (recorded.removed assumed)
    intro name payload present gone
    rcases allowed.sources name payload present with kept | ⟨-, -, durable⟩
    · exact absurd kept gone
    · exact durable assumed

theorem Recorded.allowedChain {states : List Controls}
    (recorded : Recorded library value settled files controls past)
    (chain : List.IsChain (Allowed library value settled) (controls :: states)) :
    ∃ last before, states.reverse ++ controls :: past = last :: before ∧
      Recorded library value settled files last before := by
  induction states generalizing controls past with
  | nil => exact ⟨controls, past, rfl, recorded⟩
  | cons next rest induction =>
    rw [List.isChain_cons_cons] at chain
    obtain ⟨last, before, same, reached⟩ := induction (recorded.after chain.1) chain.2
    exact ⟨last, before, by rw [← same]; simp, reached⟩

theorem staged_putSource {name : Control} {payload : Bytes} {head : Head}
    (staged : controls.Staged library value head)
    (closed : head.state = "complete") :
    (controls.putSource name payload).Staged library value head := by
  refine ⟨staged.schemaVersion, staged.accepted, staged.transactionId, staged.proofs, ?_⟩
  rcases staged.stage with ⟨archiving, -⟩ | ⟨complete, closed⟩
  · rw [archiving] at closed
    exact absurd closed (by decide)
  · exact .inr ⟨complete, closed.receipt, closed.copied, closed.completion⟩

theorem Recorded.putSource {name : Control} {payload : Bytes}
    (recorded : Recorded library value settled files controls past)
    (closed : ∀ head, controls.head = some head → head.state = "complete")
    (absent : controls.sources name = none) (bound : Bound library value name payload) :
    Recorded library value settled ((name, payload) :: files)
      (controls.putSource name payload) (controls :: past) where
  sound := by
    refine ⟨recorded.sound.marker, recorded.sound.proofs, ?_, ?_⟩
    · intro other found present
      by_cases same : other = name
      · subst same
        simp only [Controls.putSource, Function.update_self, Option.some.injEq] at present
        exact present ▸ bound
      · simp only [Controls.putSource, Function.update_of_ne same] at present
        exact recorded.sound.bound other found present
    · exact fun head found => staged_putSource (recorded.sound.staged head found) (closed head found)
  kept file written := by
    rcases List.mem_cons.mp written with rfl | earlier
    · exact .inl (by simp [Controls.putSource])
    · rcases recorded.kept file earlier with present | archived
      · have apart : file.1 ≠ name := by
          intro same
          rw [same, absent] at present
          cases present
        exact .inl (by simpa [Controls.putSource, Function.update_of_ne apart] using present)
      · exact .inr archived
  removed assumed := by
    refine .cons_cons ?_ (recorded.removed assumed)
    intro other found present gone
    have apart : other ≠ name := by
      intro same
      rw [same, absent] at present
      cases present
    simp [Controls.putSource, Function.update_of_ne apart, present] at gone

theorem Recorded.putIntent (recorded : Recorded library value settled files controls past) :
    Recorded library value settled files controls.putIntent (controls :: past) where
  sound := by
    refine ⟨recorded.sound.marker, recorded.sound.proofs, recorded.sound.bound, ?_⟩
    intro head found
    have staged := recorded.sound.staged head found
    refine ⟨staged.schemaVersion, staged.accepted, staged.transactionId, staged.proofs, ?_⟩
    rcases staged.stage with ⟨archiving, filling | emptying⟩ | ⟨complete, closed⟩
    · exact .inl ⟨archiving, .inl ⟨filling.receipt, filling.completion, filling.present,
        filling.copies, filling.listed⟩⟩
    · exact .inl ⟨archiving, .inr ⟨emptying.receipt, emptying.copied, emptying.remaining,
        emptying.completion⟩⟩
    · exact .inr ⟨complete, closed.receipt, closed.copied, closed.completion⟩
  kept := recorded.kept
  removed assumed :=
    .cons_cons (fun _ _ present gone => absurd present gone) (recorded.removed assumed)

theorem Call.meets (call : Call library controls) (lawful : library.Lawful)
    (sound : controls.Sound library value) (intent : controls.intent = false)
    (settles : settled → controls.Settled) :
    Meets (prepareResume library call.evidence call.now call.uuid) controls
      (Allowed library value settled) (fun _ => Returned library value) Never :=
  meets_prepareResume lawful sound intent call.fresh call.letters call.unused settles

theorem Recorded.stopped {states : List Controls} (call : Call library controls)
    (lawful : library.Lawful)
    (recorded : Recorded library value settled files controls past)
    (settles : settled → controls.Settled) (stopped : states <+: call.trace.later) :
    ∃ last before, states.reverse ++ controls :: past = last :: before ∧
      Recorded library value settled files last before := by
  cases intent : controls.intent with
  | true =>
    rw [Call.trace, later_eq_nil (call.fenced intent), List.prefix_nil] at stopped
    rw [stopped]
    exact ⟨controls, past, rfl, recorded⟩
  | false =>
    apply recorded.allowedChain
    exact Stopped.isChain stopped (call.meets lawful recorded.sound intent settles)

end

/-! ## A receipt that is not flushed -/

section

variable {library : Library} {value : Marker} {controls : Controls}

end

namespace Unsynced

def ascii (text : String) : Bytes :=
  text.toList.map fun letter => UInt8.ofNat letter.toNat

/-- The text of the request, of the worker result and of an outcome. -/
def runText : Bytes := ascii "\x7b\"run_id\":\"r\"\x7d"

def emptyText : Bytes := ascii "\x7b\x7d"

def receiptText : Bytes :=
  ascii "\x7b\"accepted\": \x7b\"acceptance_sha256\": \"44136fa355b3678a1146ad16f7e8649e94fb4" ++
    ascii "fc21fe77e8310c060f61caaff8a\", \"request_sha256\": \"56b446d37c2ba21950f4659361e03bf" ++
    ascii "ab6cfa70abca4b18391bffb459f307769\", \"run_id\": \"r\", \"worker_result_sha256\": \"" ++
    ascii "56b446d37c2ba21950f4659361e03bfab6cfa70abca4b18391bffb459f307769\"\x7d, \"files\": " ++
    ascii "\x7b\"outcome.json\": \x7b\"sha256\": \"56b446d37c2ba21950f4659361e03bfab6cfa70abca4" ++
    ascii "b18391bffb459f307769\", \"size\": 14\x7d\x7d, \"process_evidence\": \x7b\"checked_at" ++
    ascii "\": \"1970-01-01T00:00:00+00:00\", \"former_pids_groups_and_commands_absent\": true," ++
    ascii " \"ps_sha256\": \"44136fa355b3678a1146ad16f7e8649e94fb4fc21fe77e8310c060f61caaff8a\"" ++
    ascii "\x7d, \"schema_version\": 1, \"state\": \"archives_sealed\", \"transaction_id\": \"0" ++
    ascii "0000000000000000000000000000000\"\x7d\n"

def runDigest : String := "56b446d37c2ba21950f4659361e03bfab6cfa70abca4b18391bffb459f307769"
def receiptDigest : String := "43b9c72f7886ef154e272f7a81c0347ac764519cfd85247ab16a3c8536faf798"
def emptyDigest : String := "44136fa355b3678a1146ad16f7e8649e94fb4fc21fe77e8310c060f61caaff8a"

def library : Library where
  loads text :=
    if text = runText then .ok (.object [("run_id", .string "r")])
    else if text = emptyText then .ok (.object [])
    else .error "Expecting value"
  sha256 text :=
    if text = runText then runDigest
    else if text = receiptText then receiptDigest
    else emptyDigest
  dumps _ := receiptText
  fromisoformat text := if text = "1970-01-01T00:00:00+00:00" then some 0 else none

def marker : Marker :=
  { schemaVersion := 1, state := "accepted_pending", runId := "r", requestSha256 := runDigest,
    acceptanceSha256 := emptyDigest, workerResultSha256 := runDigest, proofFiles := none,
    projection := .null, projectionTarget := none }

def begun : Controls :=
  { marker := some marker
    proofs := fun path =>
      if path = "acceptance.json" then some emptyText
      else if path = "request.json" ∨ path = "worker_result.json" then some runText else none
    intent := false, sources := fun _ => none, head := none, archives := fun _ => {} }

def evidence : ProcessEvidence :=
  { checkedAt := "1970-01-01T00:00:00+00:00", psSha256 := emptyDigest,
    formerPidsGroupsAndCommandsAbsent := true }

def first : String := "00000000000000000000000000000000"
def second : String := "11111111111111111111111111111111"

theorem distinct : ([] : Bytes) ≠ runText ∧ ([] : Bytes) ≠ emptyText ∧ emptyText ≠ runText ∧
    emptyText ≠ receiptText ∧ runText.length ≤ maxControlBytes ∧
    emptyText.length ≤ maxControlBytes := by decide

theorem evaluated : processProof library evidence 0 = .ok () ∧ isTransactionId first = true ∧
    isTransactionId second = true ∧ isRunName "r" = true ∧ isSha256 runDigest = true ∧
    isSha256 receiptDigest = true ∧ isSha256 emptyDigest = true := by decide

theorem lawful : library.Lawful where
  loads_nil found := by
    obtain ⟨notRun, notEmpty, -⟩ := distinct
    simp [library, notRun, notEmpty]
  sha256 payload := by
    obtain ⟨-, -, -, -, ofRun, ofReceipt, ofEmpty⟩ := evaluated
    simp only [library]
    split
    · exact ofRun
    · split
      · exact ofReceipt
      · exact ofEmpty

theorem inspected : inspect begun = .ok marker := by
  have own : isRunName "r" = true := evaluated.2.2.2.1
  simp [inspect, begun, marker, own, require, bind, Except.bind, pure, Except.pure]

theorem acceptedProof_eq_ok {expected path filename : String} {text : Bytes}
    (there : begun.proofs path = some text) (read : ∃ fields, json library (some text) = .ok fields)
    (same : library.sha256 text = expected) :
    acceptedProof library begun expected path filename = .ok () := by
  obtain ⟨fields, read⟩ := read
  simp [acceptedProof, there, read, same, bind, Except.bind, require]

theorem json_runText : json library (some runText) = .ok [("run_id", .string "r")] := by
  have small : runText.length ≤ maxControlBytes := distinct.2.2.2.2.1
  simp [json, small, library, Json.asObject, require, bind, Except.bind, pure, Except.pure]

theorem emptyText_ne_runText : emptyText ≠ runText := distinct.2.2.1

theorem json_emptyText : json library (some emptyText) = .ok [] := by
  have small : emptyText.length ≤ maxControlBytes := distinct.2.2.2.2.2
  simp [json, small, library, emptyText_ne_runText, Json.asObject, require, bind, Except.bind,
    pure, Except.pure]

theorem sha256_runText : library.sha256 runText = runDigest := by simp [library]

theorem sha256_emptyText : library.sha256 emptyText = emptyDigest := by
  have apart : emptyText ≠ receiptText := distinct.2.2.2.1
  simp [library, emptyText_ne_runText, apart]

theorem accepted : acceptedProofs library marker begun = .ok () := by
  have paths : proofPaths marker = .ok ("acceptance.json", "worker_result.json") := by
    simp [proofPaths, marker, require, bind, Except.bind, pure, Except.pure]
  have request : begun.proofs "request.json" = some runText := by simp [begun]
  have acceptance : begun.proofs "acceptance.json" = some emptyText := by simp [begun]
  have result : begun.proofs "worker_result.json" = some runText := by simp [begun]
  have digests : marker.requestSha256 = runDigest ∧ marker.acceptanceSha256 = emptyDigest ∧
      marker.workerResultSha256 = runDigest := ⟨rfl, rfl, rfl⟩
  simp only [acceptedProofs, paths, ok_bind, digests,
    acceptedProof_eq_ok request ⟨_, json_runText⟩ sha256_runText,
    acceptedProof_eq_ok acceptance ⟨_, json_emptyText⟩ sha256_emptyText,
    acceptedProof_eq_ok result ⟨_, json_runText⟩ sha256_runText]

theorem begins : begun.Begins library marker where
  marker := inspected
  proofs := accepted
  intent := rfl
  sources _ := rfl
  head := rfl
  archives _ := rfl

theorem bound : Bound library marker .outcome runText := by
  have small : runText.length ≤ maxControlBytes := distinct.2.2.2.2.1
  have read : library.loads runText = .ok (.object [("run_id", .string "r")]) := by
    simp [library]
  exact ⟨small, _, read, rfl, rfl⟩

theorem fresh : processProof library evidence 0 = .ok () := evaluated.1

theorem firstLetters : isTransactionId first = true := evaluated.2.1

def opening : Call library (begun.putSource .outcome runText) :=
  ⟨evidence, 0, first, fresh, firstLetters, rfl⟩

end Unsynced

end JobAgg.PendingPublication
