import JobAgg.TerminalPublication.TerminalPublication

/-! # Removing controls

What is left of a run directory when control files are removed: a control that is still
found was found before. A run that is terminal with fewer controls is terminal of the same
kind with all of them, unless its state says that it is running. -/

namespace JobAgg.TerminalPublication

open Logged (Answers Settles)

def Removed (full reduced : FileSystem) : Prop :=
  ∀ path, reduced path = full path ∨
    (∃ file, full path = .file file) ∧ reduced path = .missing

def Raises : Stop → Prop
  | .raised _ => True
  | .missing _ => False

variable {library : Library} {options : Options} {latest : ℤ}
  {fullFiles reducedFiles : FileSystem} {run path : PurePath} {control : Control}
  {message kind : String} {verdict : Verdict}

theorem find_of_removed (removed : Removed fullFiles reducedFiles)
    (found : find reducedFiles path = .ok (some control)) :
    find fullFiles path = .ok (some control) := by
  have kept : ∀ other, reducedFiles other ≠ .missing → fullFiles other = reducedFiles other := by
    intro other there
    rcases removed other with same | ⟨-, gone⟩
    · exact same.symm
    · exact absurd gone there
  rw [find] at found ⊢
  split at found
  · cases found
  · rename_i canonical
    rw [if_neg canonical]
    split at found
    · rename_i parent search
      split at found <;> cases found
    · rename_i directories
      have sameParents :
          (path.ancestors.find? fun parent => !(fullFiles parent).isDirectory) = none := by
        rw [List.find?_eq_none] at directories ⊢
        intro parent member
        have directory := directories parent member
        have there : reducedFiles parent ≠ .missing := by
          intro gone
          rw [gone] at directory
          exact directory rfl
        rw [kept parent there]
        exact directory
      have there : reducedFiles path ≠ .missing := by
        intro gone
        rw [gone] at found
        cases found
      rw [sameParents, kept path there]
      exact found

theorem find_ne_missing {other : PurePath} : find fullFiles path ≠ .error (.missing other) := by
  intro found
  rw [find] at found
  split at found
  · cases found
  · split at found
    · split at found <;> cases found
    · split at found
      · cases found
      · split at found <;> cases found
      · cases found

theorem answer_look {state : Report} :
    (look fullFiles path).answer state = find fullFiles path := by
  rw [look, Logged.answer_ofExcept_bind]
  cases find fullFiles path with
  | error stop => rfl
  | ok found => cases found <;> rfl

theorem answer_need {state : Report} (found : find fullFiles path = .ok (some control)) :
    (need fullFiles path).answer state = .ok control := by
  rw [need, Logged.answer_bind, answer_look, found]
  rfl

theorem find_of_look {found : Option Control} (answers : (look fullFiles path).Answers found) :
    find fullFiles path = .ok found := by
  obtain ⟨state, there⟩ := answers
  rwa [answer_look] at there

theorem find_of_need (answers : (need fullFiles path).Answers control) :
    find fullFiles path = .ok (some control) := by
  rw [need] at answers
  obtain ⟨found, there, rest⟩ := answers.bind
  rw [find_of_look there]
  cases found with
  | none => cases rest.ofExcept
  | some other => rw [rest.pure]

theorem gives_of_removed (removed : Removed fullFiles reducedFiles) :
    Demand.Gives (need reducedFiles) (need fullFiles) := by
  intro path control state later found
  exact answer_need (find_of_removed removed (find_of_need ⟨state, found⟩))

/-! ## The steps of a classification that does not raise -/

theorem settles_look : (look fullFiles path).Settles Raises fun found =>
    find fullFiles path = .ok found := by
  intro state
  rw [answer_look]
  cases found : find fullFiles path with
  | ok value => exact .inr ⟨value, rfl, rfl⟩
  | error stop =>
    cases stop with
    | raised message => exact .inl ⟨.raised message, trivial, rfl⟩
    | missing other => exact absurd found find_ne_missing

theorem settles_need (found : find fullFiles path = .ok (some control)) :
    (need fullFiles path).Settles Raises (· = control) :=
  fun _ => .inr ⟨control, answer_need found, rfl⟩

theorem settles_on {Result : Type} {reading : Reading Result} {result : Result}
    (removed : Removed fullFiles reducedFiles) (answers : (reading.on reducedFiles).Answers result) :
    (reading.on fullFiles).Settles Raises (· = result) := by
  obtain ⟨state, found⟩ := answers
  exact fun _ => .inr ⟨result, Demand.run_of_gives _ (gives_of_removed removed) found, rfl⟩

theorem settles_checked {Result : Type} {outcome : Except String Result} :
    (checked outcome).Settles Raises fun value => outcome = .ok value := by
  refine .ofExcept ?_
  cases outcome with
  | ok value => exact .inr ⟨value, rfl, rfl⟩
  | error message => exact .inl ⟨.raised message, trivial, rfl⟩

theorem settles_refuseUnless {condition : Bool} :
    (refuseUnless condition message).Settles Raises fun _ => condition = true := by
  refine .ofExcept ?_
  cases condition with
  | true => exact .inr ⟨(), rfl, rfl⟩
  | false => exact .inl ⟨.raised message, trivial, rfl⟩

theorem settles_generation {value : Json} :
    (generation value).Settles Raises fun _ => True := by
  rw [generation]
  split
  · exact settles_refuseUnless.bind fun _ _ => .note _
  · exact .pure trivial

theorem settles_noteResult {originalResult : Option Control} :
    (noteResult originalResult).Settles Raises fun _ => True := by
  cases originalResult with
  | none => exact .pure trivial
  | some result =>
    exact (Settles.note _).bind fun _ _ => settles_checked.bind fun _ _ => settles_generation

theorem settles_noteBinding {binding : Option Control} :
    (noteBinding binding).Settles Raises fun _ => True := by
  cases binding with
  | none => exact .pure trivial
  | some control => exact settles_generation

theorem of_answers_refuseUnless {condition : Bool} {done : Unit}
    (answers : (refuseUnless condition message).Answers done) : condition = true :=
  require_eq_ok.mp answers.ofExcept

theorem of_answers_checked {Result : Type} {outcome : Except String Result} {value : Result}
    (answers : (checked outcome).Answers value) : outcome = .ok value :=
  mapError_eq_ok.mp answers.ofExcept

structure Found (fileSystem : FileSystem) (run : PurePath) (evidence : Evidence) : Prop where
  outcome : find fileSystem (run.child "outcome.json") = .ok evidence.outcome
  state : find fileSystem (run.child "state.json") = .ok evidence.state
  originalResult : find fileSystem (run.child "publication_result.json") =
    .ok evidence.originalResult
  binding : find fileSystem (run.child "publication_generation_binding.json") =
    .ok evidence.binding

theorem settles_opening : (opening fullFiles run).Settles Raises (Found fullFiles run) :=
  settles_look.bind fun _ outcome => settles_look.bind fun _ state =>
    settles_refuseUnless.bind fun _ _ => settles_look.bind fun _ result =>
      settles_noteResult.bind fun _ _ => settles_look.bind fun _ binding =>
        settles_noteBinding.bind fun _ _ => .pure ⟨outcome, state, result, binding⟩

theorem found_of_opening {evidence : Evidence} (answers : (opening fullFiles run).Answers evidence) :
    Found fullFiles run evidence := by
  obtain ⟨outcome, foundOutcome, answers⟩ := answers.bind
  obtain ⟨state, foundState, answers⟩ := answers.bind
  obtain ⟨_, _, answers⟩ := answers.bind
  obtain ⟨result, foundResult, answers⟩ := answers.bind
  obtain ⟨_, _, answers⟩ := answers.bind
  obtain ⟨binding, foundBinding, answers⟩ := answers.bind
  obtain ⟨_, _, answers⟩ := answers.bind
  rw [← answers.pure]
  exact ⟨find_of_look foundOutcome, find_of_look foundState, find_of_look foundResult,
    find_of_look foundBinding⟩

theorem eq_of_find {full reduced : Option Control} (removed : Removed fullFiles reducedFiles)
    (inReduced : find reducedFiles path = .ok reduced) (inFull : find fullFiles path = .ok full)
    (there : reduced = some control) : full = some control := by
  rw [there] at inReduced
  rw [find_of_removed removed inReduced, Except.ok.injEq] at inFull
  exact inFull.symm

/-! ## The branches -/

variable {evidence fullEvidence : Evidence} {outcome request resolution noWrite state : Control}
  {resolutions fullResolutions noWrites fullNoWrites : Option Control} {pending : Bool}

theorem of_answers_settleDirect (answers : (settleDirect library options run evidence outcome request
    resolutions noWrites).Answers verdict) : ∃ result kind, evidence.originalResult = some result ∧
      nameOf (Json.get "status" result.value) = .ok kind ∧ verdict = .terminal kind := by
  obtain ⟨_, _, answers⟩ := answers.bind
  cases given : evidence.originalResult with
  | none =>
    rw [given] at answers
    cases answers.ofExcept
  | some result =>
    rw [given] at answers
    obtain ⟨_, _, answers⟩ := answers.bind
    obtain ⟨_, _, answers⟩ := answers.bind
    obtain ⟨_, _, answers⟩ := answers.bind
    obtain ⟨_, _, answers⟩ := answers.bind
    obtain ⟨kind, named, answers⟩ := answers.bind
    exact ⟨result, kind, rfl, of_answers_checked named, answers.pure.symm⟩

theorem settles_settleDirect {result : Control} (given : fullEvidence.originalResult = some result)
    (named : nameOf (Json.get "status" result.value) = .ok kind) :
    (settleDirect library options run fullEvidence outcome request fullResolutions
      fullNoWrites).Settles Raises (· = .terminal kind) := by
  refine settles_refuseUnless.bind fun _ _ => ?_
  rw [given]
  refine settles_refuseUnless.bind fun _ _ => settles_checked.bind fun _ _ =>
    settles_refuseUnless.bind fun _ _ => settles_refuseUnless.bind fun _ _ =>
      settles_checked.bind fun name found => .pure ?_
  rw [named, Except.ok.injEq] at found
  rw [found]

/-- What a proof that a publication never started reads -/
structure Unstarted (library : Library) (fileSystem : FileSystem) (run : PurePath)
    (request noWrite : Control) where
  intent : Control
  proof : Fields
  gate : Fields
  root : PurePath
  name : String
  plan : PurePath × Control
  priorResult : PurePath × Control
  intent_found : find fileSystem (run.child "publication_intent.json") = .ok (some intent)
  proof_read : objectOf (Json.get "proof" noWrite.value) "no-write proof differs" = .ok proof
  gate_read : priorGate library request.value proof = .ok gate
  root_read : run.thirdParent = .ok root
  name_read : nameOf (Json.get "generation_id" gate) = .ok name
  plan_read : ((reference (Json.get "prior_plan" proof) none
    (some (((generationsDir root).child name).child "plan.json"))).on fileSystem).Answers plan
  result_read : ((reference (Json.get "prior_result" proof) none
    (some (((generationsDir root).child name).child "result.json"))).on fileSystem).Answers
      priorResult

theorem of_answers_settleNoWrite (answers : (settleNoWrite library reducedFiles run evidence request
    noWrite pending).Answers verdict) : verdict = .terminal "verified_unstarted" ∧
      Nonempty (Unstarted library reducedFiles run request noWrite) := by
  obtain ⟨intent, intentFound, answers⟩ := answers.bind
  obtain ⟨_, _, answers⟩ := answers.bind
  obtain ⟨_, _, answers⟩ := answers.bind
  obtain ⟨proof, proofRead, answers⟩ := answers.bind
  obtain ⟨_, _, answers⟩ := answers.bind
  obtain ⟨gate, gateRead, answers⟩ := answers.bind
  obtain ⟨_, _, answers⟩ := answers.bind
  obtain ⟨_, _, answers⟩ := answers.bind
  obtain ⟨root, rootRead, answers⟩ := answers.bind
  obtain ⟨name, nameRead, answers⟩ := answers.bind
  obtain ⟨plan, planRead, answers⟩ := answers.bind
  obtain ⟨priorResult, resultRead, answers⟩ := answers.bind
  obtain ⟨_, _, answers⟩ := answers.bind
  obtain ⟨_, _, answers⟩ := answers.bind
  obtain ⟨_, _, answers⟩ := answers.bind
  exact ⟨answers.pure.symm, ⟨{
    intent, proof, gate, root, name, plan, priorResult
    intent_found := find_of_need intentFound
    proof_read := of_answers_checked proofRead
    gate_read := of_answers_checked gateRead
    root_read := of_answers_checked rootRead
    name_read := of_answers_checked nameRead
    plan_read := planRead
    result_read := resultRead }⟩⟩

theorem settles_settleNoWrite (removed : Removed fullFiles reducedFiles)
    (unstarted : Unstarted library reducedFiles run request noWrite) :
    (settleNoWrite library fullFiles run fullEvidence request noWrite pending).Settles Raises
      (· = .terminal "verified_unstarted") := by
  refine (settles_need (find_of_removed removed unstarted.intent_found)).bind fun _ _ =>
    settles_refuseUnless.bind fun _ _ => settles_checked.bind fun _ _ =>
      settles_checked.bind fun proof proofRead => ?_
  rw [unstarted.proof_read, Except.ok.injEq] at proofRead
  subst proofRead
  refine settles_refuseUnless.bind fun _ _ => settles_checked.bind fun gate gateRead => ?_
  rw [unstarted.gate_read, Except.ok.injEq] at gateRead
  subst gateRead
  refine settles_generation.bind fun _ _ => settles_refuseUnless.bind fun _ _ =>
    settles_checked.bind fun root rootRead => ?_
  rw [unstarted.root_read, Except.ok.injEq] at rootRead
  subst rootRead
  refine settles_checked.bind fun name nameRead => ?_
  rw [unstarted.name_read, Except.ok.injEq] at nameRead
  subst nameRead
  exact (settles_on removed unstarted.plan_read).bind fun _ _ =>
    (settles_on removed unstarted.result_read).bind fun _ _ => settles_checked.bind fun _ _ =>
      settles_refuseUnless.bind fun _ _ => (Settles.note _).bind fun _ _ => .pure rfl

theorem settles_settleNoWrite_of_empty {intent : Control} {holds : Verdict → Prop}
    (found : find fullFiles (run.child "publication_intent.json") = .ok (some intent))
    (empty : noWrite.value = []) :
    (settleNoWrite library fullFiles run fullEvidence request noWrite pending).Settles Raises
      holds := by
  refine (settles_need found).bind fun _ _ => settles_refuseUnless.bind fun _ passed => ?_
  rw [empty, Bool.and_eq_true, Bool.and_eq_true] at passed
  cases passed.1.2

structure Recovered (library : Library) (options : Options) (fileSystem : FileSystem)
    (run : PurePath) (evidence : Evidence) (resolution : Control) where
  recovery : PurePath × Control
  result : PurePath × Control
  intent : Control
  binding : Control
  publication : Fields
  root : PurePath
  name : String
  generationResult : Option Control
  recovery_read : ((reference (Json.get "request" resolution.value) (some run) none).on
    fileSystem).Answers recovery
  result_read : ((reference (Json.get "result" resolution.value) (some run) none).on
    fileSystem).Answers result
  intent_found : find fileSystem (run.child "publication_intent.json") = .ok (some intent)
  binding_given : evidence.binding = some binding
  publication_read : objectOf (Json.get "publication" result.2.value) "TypeError" =
    .ok publication
  root_read : run.thirdParent = .ok root
  name_read : nameOf (Json.get "generation_id" binding.value) = .ok name
  generation_found : find fileSystem (((generationsDir root).child name).child "result.json") =
    .ok generationResult
  allowed : generationResult = none → options.allowMissingGenerationResult = true

theorem of_answers_settleRecovered (answers : (settleRecovered library options reducedFiles run
    evidence request resolution state).Answers (.terminal kind)) :
      kind = "recovered_published" ∧
        Nonempty (Recovered library options reducedFiles run evidence resolution) := by
  obtain ⟨_, _, answers⟩ := answers.bind
  obtain ⟨recovery, recoveryRead, answers⟩ := answers.bind
  obtain ⟨result, resultRead, answers⟩ := answers.bind
  obtain ⟨_, _, answers⟩ := answers.bind
  obtain ⟨intent, intentFound, answers⟩ := answers.bind
  obtain ⟨_, _, answers⟩ := answers.bind
  cases given : evidence.binding with
  | none =>
    rw [given] at answers
    cases answers.ofExcept
  | some binding =>
    rw [given] at answers
    obtain ⟨_, _, answers⟩ := answers.bind
    obtain ⟨_, _, answers⟩ := answers.bind
    obtain ⟨_, _, answers⟩ := answers.bind
    obtain ⟨publication, publicationRead, answers⟩ := answers.bind
    obtain ⟨_, _, answers⟩ := answers.bind
    obtain ⟨_, _, answers⟩ := answers.bind
    obtain ⟨root, rootRead, answers⟩ := answers.bind
    obtain ⟨name, nameRead, answers⟩ := answers.bind
    obtain ⟨generationResult, generationFound, answers⟩ := answers.bind
    have finished : kind = "recovered_published" ∧
        (generationResult = none → options.allowMissingGenerationResult = true) := by
      cases generationResult with
      | none =>
        obtain ⟨_, _, answers⟩ := answers.bind
        split at answers
        · rename_i allows
          cases answers.pure
          exact ⟨rfl, fun _ => allows⟩
        · cases answers.pure
      | some control =>
        obtain ⟨_, _, answers⟩ := answers.bind
        cases answers.pure
        exact ⟨rfl, fun none => nomatch none⟩
    exact ⟨finished.1, ⟨{
      recovery, result, intent, binding, publication, root, name, generationResult
      recovery_read := recoveryRead
      result_read := resultRead
      intent_found := find_of_need intentFound
      binding_given := given
      publication_read := of_answers_checked publicationRead
      root_read := of_answers_checked rootRead
      name_read := of_answers_checked nameRead
      generation_found := find_of_look generationFound
      allowed := finished.2 }⟩⟩

theorem settles_settleRecovered (removed : Removed fullFiles reducedFiles)
    (recovered : Recovered library options reducedFiles run evidence resolution)
    (given : fullEvidence.binding = some recovered.binding) :
    (settleRecovered library { options with latest } fullFiles run fullEvidence request resolution
      state).Settles Raises (· = .terminal "recovered_published") := by
  refine settles_refuseUnless.bind fun _ _ =>
    (settles_on removed recovered.recovery_read).bind fun recovery recoveryRead =>
      (settles_on removed recovered.result_read).bind fun result resultRead => ?_
  subst recoveryRead resultRead
  refine (Settles.note _).bind fun _ _ =>
    (settles_need (find_of_removed removed recovered.intent_found)).bind fun _ _ =>
      settles_checked.bind fun _ _ => ?_
  rw [given]
  refine settles_refuseUnless.bind fun _ _ => settles_checked.bind fun _ _ =>
    settles_refuseUnless.bind fun _ _ => settles_checked.bind fun publication publicationRead =>
      settles_generation.bind fun _ _ => settles_checked.bind fun _ _ =>
        settles_checked.bind fun root rootRead => ?_
  rw [recovered.root_read, Except.ok.injEq] at rootRead
  subst rootRead
  refine settles_checked.bind fun name nameRead => ?_
  rw [recovered.name_read, Except.ok.injEq] at nameRead
  subst nameRead
  refine settles_look.bind fun generationResult generationFound => ?_
  cases generationResult with
  | some control => exact settles_refuseUnless.bind fun _ _ => .pure rfl
  | none =>
    refine (Settles.note _).bind fun _ _ => ?_
    have absent : recovered.generationResult = none := by
      cases there : recovered.generationResult with
      | none => rfl
      | some control =>
        cases eq_of_find removed recovered.generation_found generationFound there
    rw [if_pos (recovered.allowed absent)]
    exact .pure rfl

/-! ## The whole classification -/

/-- The optional controls of the reduced directory are controls of the full one. -/
structure Within (evidence fullEvidence : Evidence) : Prop where
  state : ∀ control, evidence.state = some control → fullEvidence.state = some control
  originalResult : ∀ control, evidence.originalResult = some control →
    fullEvidence.originalResult = some control
  binding : ∀ control, evidence.binding = some control → fullEvidence.binding = some control

theorem of_answers_settleResolved_noWrite (answers : (settleResolved library options reducedFiles run
    evidence outcome request resolutions (some noWrite)).Answers verdict) :
      verdict = .terminal "verified_unstarted" ∧
        (evidence.state = none → options.allowUnfinishedNoWriteState = true) ∧
        Nonempty (Unstarted library reducedFiles run request noWrite) := by
  obtain ⟨_, _, answers⟩ := answers.bind
  obtain ⟨_, _, answers⟩ := answers.bind
  obtain ⟨_, checkedState, answers⟩ := answers.bind
  obtain ⟨settled, unstarted⟩ := of_answers_settleNoWrite answers
  refine ⟨settled, fun absent => ?_, unstarted⟩
  rw [absent] at checkedState
  cases allows : options.allowUnfinishedNoWriteState with
  | true => rfl
  | false =>
    rw [allows] at checkedState
    cases checkedState.ofExcept

theorem of_answers_settleResolved_recovered (answers : (settleResolved library options reducedFiles
    run evidence outcome request resolutions none).Answers (.terminal kind)) :
      ∃ resolution state, resolutions = some resolution ∧ evidence.state = some state ∧
        isTruthy resolutions = true ∧ kind = "recovered_published" ∧
        Nonempty (Recovered library options reducedFiles run evidence resolution) := by
  obtain ⟨_, _, answers⟩ := answers.bind
  obtain ⟨_, selected, answers⟩ := answers.bind
  obtain ⟨_, _, answers⟩ := answers.bind
  cases resolutions with
  | none => cases answers.ofExcept
  | some resolution =>
    cases there : evidence.state with
    | none =>
      rw [there] at answers
      cases answers.ofExcept
    | some state =>
      rw [there] at answers
      have named := of_answers_refuseUnless selected
      rw [Option.some_or, Option.any_some, Bool.and_eq_true, beq_iff_eq] at named
      have filled : isTruthy (some resolution) = true := by
        rw [isTruthy, Option.any_some, Bool.not_eq_true']
        cases entries : resolution.value with
        | cons entry rest => rfl
        | nil =>
          rw [entries] at named
          cases named.1
      obtain ⟨settled, recovered⟩ := of_answers_settleRecovered answers
      exact ⟨resolution, state, rfl, rfl, filled, settled, recovered⟩

theorem settles_checkResolvedState
    (present : evidence.state = none → pending = true) :
    (checkResolvedState pending run evidence.state).Settles Raises fun _ => True := by
  cases pending with
  | true => exact .pure trivial
  | false =>
    cases there : evidence.state with
    | none => cases present there
    | some state => exact settles_refuseUnless.mono fun _ _ => trivial

theorem settles_settleResolved (removed : Removed fullFiles reducedFiles)
    (within : Within evidence fullEvidence)
    (sameResolution : ∀ control, resolutions = some control → fullResolutions = some control)
    (sameNoWrite : ∀ control, noWrites = some control → fullNoWrites = some control)
    (oneTruthy : (!(isTruthy fullResolutions && isTruthy fullNoWrites)) = true)
    (answers : (settleResolved library options reducedFiles run evidence outcome request resolutions
      noWrites).Answers (.terminal kind)) :
    (settleResolved library { options with latest } fullFiles run fullEvidence outcome request
      fullResolutions fullNoWrites).Settles Raises (· = .terminal kind) := by
  refine settles_refuseUnless.bind fun _ _ => settles_refuseUnless.bind fun _ _ => ?_
  cases given : noWrites with
  | some noWrite =>
    rw [given] at answers
    obtain ⟨settled, allows, ⟨unstarted⟩⟩ := of_answers_settleResolved_noWrite answers
    rw [settled, sameNoWrite noWrite given]
    refine (settles_checkResolvedState fun absent => ?_).bind fun _ _ =>
      settles_settleNoWrite removed unstarted
    have alsoAbsent : evidence.state = none := by
      cases there : evidence.state with
      | none => rfl
      | some state => cases (within.state state there).symm.trans absent
    rw [allows alsoAbsent, absent]
    rfl
  | none =>
    rw [given] at answers
    obtain ⟨resolution, state, resolved, there, filled, rfl, ⟨recovered⟩⟩ :=
      of_answers_settleResolved_recovered answers
    have sameState := within.state state there
    rw [sameResolution resolution resolved]
    refine (settles_checkResolvedState fun absent => ?_).bind fun _ _ => ?_
    · cases sameState.symm.trans absent
    · cases also : fullNoWrites with
      | none =>
        rw [sameState]
        exact settles_settleRecovered removed recovered (within.binding _ recovered.binding_given)
      | some noWrite =>
        rw [sameResolution resolution resolved, ← resolved, filled, also, Bool.true_and] at oneTruthy
        refine settles_settleNoWrite_of_empty (find_of_removed removed recovered.intent_found) ?_
        rw [isTruthy, Option.any_some, Bool.not_not, List.isEmpty_iff] at oneTruthy
        exact oneTruthy

theorem settles_settle (removed : Removed fullFiles reducedFiles)
    (within : Within evidence fullEvidence)
    (answers : (settle library options reducedFiles run evidence outcome).Answers (.terminal kind)) :
    (settle library { options with latest } fullFiles run fullEvidence outcome).Settles Raises
      (· = .terminal kind) := by
  obtain ⟨request, requestFound, answers⟩ := answers.bind
  obtain ⟨_, original, answers⟩ := answers.bind
  obtain ⟨resolutions, resolutionsFound, answers⟩ := answers.bind
  obtain ⟨noWrites, noWritesFound, answers⟩ := answers.bind
  obtain ⟨_, _, answers⟩ := answers.bind
  obtain ⟨direct, directRead, answers⟩ := answers.bind
  refine (settles_need (find_of_removed removed (find_of_need requestFound))).bind
    fun also sameRequest => ?_
  subst sameRequest
  refine (settles_on removed original).bind fun _ _ => settles_look.bind
    fun fullResolutions fullResolutionsFound => settles_look.bind
      fun fullNoWrites fullNoWritesFound => settles_refuseUnless.bind fun _ oneTruthy =>
        settles_checked.bind fun fullDirect fullDirectRead => ?_
  have sameResolution : ∀ control, resolutions = some control → fullResolutions = some control :=
    fun _ => eq_of_find removed (find_of_look resolutionsFound) fullResolutionsFound
  have sameNoWrite : ∀ control, noWrites = some control → fullNoWrites = some control :=
    fun _ => eq_of_find removed (find_of_look noWritesFound) fullNoWritesFound
  rw [of_answers_checked directRead, Except.ok.injEq] at fullDirectRead
  subst fullDirectRead
  cases direct with
  | true =>
    obtain ⟨result, found, given, named, settled⟩ := of_answers_settleDirect answers
    cases settled
    exact settles_settleDirect (within.originalResult result given) named
  | false =>
    rw [if_neg Bool.false_ne_true] at answers ⊢
    split at answers
    · obtain ⟨_, _, answers⟩ := answers.bind
      cases answers.pure
    · rename_i resolved
      rw [if_neg]
      · exact settles_settleResolved removed within sameResolution sameNoWrite oneTruthy answers
      · intro unresolved
        apply resolved
        rw [Bool.and_eq_true, Option.isNone_iff_eq_none, Option.isNone_iff_eq_none] at unresolved ⊢
        constructor
        · cases there : resolutions with
          | none => rfl
          | some control => cases (sameResolution control there).symm.trans unresolved.1
        · cases there : noWrites with
          | none => rfl
          | some control => cases (sameNoWrite control there).symm.trans unresolved.2

def SaysRunning (fileSystem : FileSystem) (run : PurePath) : Prop :=
  ∃ state, find fileSystem (run.child "state.json") = .ok (some state) ∧
    Json.get "status" state.value = .string "running"

theorem isRunning_iff {document : Option Control} : isRunning document = true ↔
    ∃ control, document = some control ∧ Json.get "status" control.value = .string "running" := by
  rw [isRunning, Option.any_eq_true]
  simp only [beq_iff_eq]

theorem settles_decideRun (removed : Removed fullFiles reducedFiles)
    (idle : ¬ SaysRunning fullFiles run)
    (answers : (decideRun library options reducedFiles run).Answers (.terminal kind)) :
    (decideRun library { options with latest } fullFiles run).Settles Raises
      (· = .terminal kind) := by
  obtain ⟨evidence, opened, answers⟩ := answers.bind
  have found := found_of_opening opened
  refine settles_opening.bind fun fullEvidence fullFound => ?_
  have within : Within evidence fullEvidence :=
    ⟨fun _ => eq_of_find removed found.state fullFound.state,
      fun _ => eq_of_find removed found.originalResult fullFound.originalResult,
      fun _ => eq_of_find removed found.binding fullFound.binding⟩
  split at answers
  · cases answers.pure
  · rename_i quiet
    rw [Bool.or_eq_true, not_or] at quiet
    cases there : evidence.outcome with
    | none =>
      rw [there] at answers
      cases answers.ofExcept
    | some outcome =>
      have sameOutcome := eq_of_find removed found.outcome fullFound.outcome there
      rw [there] at answers
      rw [if_neg, sameOutcome]
      · exact settles_settle removed within answers
      · rw [Bool.or_eq_true, sameOutcome, ← there]
        rintro (running | running)
        · exact quiet.1 running
        · obtain ⟨state, given, marked⟩ := isRunning_iff.mp running
          exact idle ⟨state, given ▸ fullFound.state, marked⟩

theorem answer_of_classifyRun {classification : Classification}
    (classified : classifyRun library options fullFiles run = .ok classification)
    (settled : classification.verdict = .terminal kind) :
    (decideRun library options fullFiles run).answer {} = .ok (.terminal kind) := by
  rw [classifyRun] at classified
  rw [Logged.answer]
  split at classified
  · rename_i verdict report decided
    cases classified
    rw [decided, ← settled]
  · cases classified
    cases settled
  · cases classified

theorem running_of_answer (idle : SaysRunning fullFiles run) :
    (decideRun library options fullFiles run).Settles Raises (· = .active) := by
  obtain ⟨state, found, marked⟩ := idle
  refine settles_opening.bind fun fullEvidence fullFound => ?_
  have given := fullFound.state
  rw [found, Except.ok.injEq] at given
  have running : isRunning fullEvidence.state = true := isRunning_iff.mpr ⟨state, given.symm, marked⟩
  rw [running, Bool.or_true, if_pos rfl]
  exact .pure rfl

theorem eq_ok_of_toOption {Error Value : Type} {outcome : Except Error Value} {value : Value}
    (found : outcome.toOption = some value) : outcome = .ok value := by
  cases outcome with
  | error error => cases found
  | ok other => exact congrArg Except.ok (Option.some_inj.mp found)

theorem verdict_of_settles {classification : Classification}
    (classified : classifyRun library options fullFiles run = .ok classification)
    (settles : (decideRun library options fullFiles run).Settles Raises (· = verdict)) :
    classification.verdict = verdict := by
  rw [classifyRun] at classified
  rcases settles {} with ⟨error, raises, answer⟩ | ⟨value, answer, rfl⟩
  · rw [Logged.answer] at answer
    split at classified
    · rename_i decided
      rw [decided] at answer
      cases answer
    · rename_i decided
      rw [decided] at answer
      cases answer
      cases raises
    · cases classified
  · rw [Logged.answer] at answer
    split at classified
    · rename_i decided
      rw [decided] at answer
      cases answer
      cases classified
      rfl
    · rename_i decided
      rw [decided] at answer
      cases answer
    · cases classified

/-! ## A run that its state calls running -/

def plainHash : String := String.ofList (List.replicate 64 'a')

def plainRun : PurePath := ⟨"/", ["w"]⟩

def plainLibrary : Library where
  fromisoformat text := if text = "2026-10-01T10:00Z" then some (some 1790848800000000) else none
  jsonSha256 _ := ""

def plainRequest : Fields :=
  [("schema_version", .number "1"), ("run_id", .string "w"),
    ("source_manifest_sha256", .string plainHash), ("registry_sha256", .string plainHash),
    ("expected_source_ids", .array [.string "s"]),
    ("worker_acceptance_path", .string "/w/acceptance.json"),
    ("worker_acceptance_sha256", .string plainHash), ("worker_database", .string "/d"),
    ("worker_database_files",
      .array [.object [("path", .string "/d"), ("sha256", .string plainHash)]]),
    ("generated_at", .string "2026-10-01T10:00Z"), ("deadline_at", .string "2026-10-01T10:00Z"),
    ("worker_status", .string "complete")]

def plainOutcome : Fields :=
  [("run_id", .string "w"), ("status", .string "complete"),
    ("publication_status", .string "noop"), ("publication_recovery_allowed", .bool false),
    ("worker_report_sha256", .string plainHash), ("publication_result_sha256", .string plainHash)]

/-- The controls of a run that its outcome settles -/
def plainDocuments : List (String × Fields) :=
  [("outcome.json", plainOutcome),
    ("publication_result.json", plainRequest ++ [("status", .string "noop"),
      ("publication",
        .object [("status", .string "no_changes"), ("generation_not_started", .bool true)]),
      ("publication_request_sha256", .string plainHash),
      ("observation_set_sha256", .string plainHash),
      ("whole_job_completeness_certified", .bool false)]),
    ("publication_request.json", plainRequest),
    ("request.json", [("run_id", .string "w"), ("source_manifest_sha256", .string plainHash),
      ("expected_source_ids", .array [.string "s"]),
      ("source_registry", .object [("sha256", .string plainHash)])]),
    ("publication_intent.json", [("run_id", .string "w"), ("request_sha256", .string plainHash),
      ("config_sha256", .string plainHash), ("command_template", .array [.string "p"]),
      ("cwd", .string "/"), ("created_at", .string "2026-10-01T10:00Z")]),
    ("acceptance.json", [("schema_version", .number "1"), ("run_id", .string "w"),
      ("source_manifest_sha256", .string plainHash), ("database", .string "/d")])]

def directoryOf (run : PurePath) (documents : List (String × Fields)) : FileSystem := fun path =>
  if path = ⟨"/", []⟩ ∨ path = run then .directory
  else if path.parent = run then
    match lookup path.name documents with
    | some fields => .file ⟨some (.object fields), plainHash, 0⟩
    | none => .missing
  else .missing

def plainOptions : Options := { latest := 1790848800000000 }

def plainVerdict (documents : List (String × Fields)) : Option Verdict :=
  (classifyRun plainLibrary plainOptions (directoryOf plainRun documents) plainRun).toOption.map
    (·.verdict)

theorem removed_directoryOf {name : String} {fields : Fields} {documents : List (String × Fields)}
    (absent : lookup name documents = none) :
    Removed (directoryOf run ((name, fields) :: documents)) (directoryOf run documents) := by
  intro path
  rw [directoryOf, directoryOf]
  by_cases directory : path = ⟨"/", []⟩ ∨ path = run
  · rw [if_pos directory, if_pos directory]
    exact .inl rfl
  · rw [if_neg directory, if_neg directory]
    by_cases inside : path.parent = run
    · rw [if_pos inside, if_pos inside, lookup_cons]
      by_cases same : name = path.name
      · rw [if_pos same, ← same, absent]
        exact .inr ⟨⟨_, rfl⟩, rfl⟩
      · rw [if_neg same]
        exact .inl rfl
    · rw [if_neg inside, if_neg inside]
      exact .inl rfl

theorem plainVerdict_evaluated : plainVerdict plainDocuments = some (.terminal "noop") ∧
    plainVerdict (("state.json", [("run_id", .string "w"), ("status", .string "running")]) ::
      plainDocuments) = some .active ∧
    plainVerdict (("state.json", plainOutcome) :: plainDocuments) = some (.terminal "noop") ∧
    ((find (directoryOf plainRun (("state.json", plainOutcome) :: plainDocuments))
      (plainRun.child "state.json")).toOption.map (·.map fun state =>
        Json.get "status" state.value)) = some (some (.string "complete")) ∧
    (lookup "state.json" plainDocuments).isNone = true := by
  decide

/-- Without the state that calls it running, the run is terminal. -/
theorem removal_makes_terminal : ∃ fullFiles reducedFiles, Removed fullFiles reducedFiles ∧
    (∃ full, classifyRun plainLibrary plainOptions fullFiles plainRun = .ok full ∧
      full.verdict = .active) ∧
    ∃ reduced, classifyRun plainLibrary plainOptions reducedFiles plainRun = .ok reduced ∧
      reduced.verdict = .terminal "noop" := by
  obtain ⟨terminal, active, -, -, absent⟩ := plainVerdict_evaluated
  rw [plainVerdict, Option.map_eq_some_iff] at terminal active
  obtain ⟨full, classified, activeVerdict⟩ := active
  obtain ⟨reduced, reducedClassified, terminalVerdict⟩ := terminal
  exact ⟨_, _, removed_directoryOf (Option.isNone_iff_eq_none.mp absent),
    ⟨full, eq_ok_of_toOption classified, activeVerdict⟩,
    ⟨reduced, eq_ok_of_toOption reducedClassified, terminalVerdict⟩⟩

/-- Where the reduced directory is terminal, the full one is terminal of the same kind exactly
if its state does not say that the run is running. -/
theorem removal_protects_iff (library : Library) (options : Options) (latest : ℤ)
    (fullFiles reducedFiles : FileSystem) (run : PurePath) (kind : String)
    (removed : Removed fullFiles reducedFiles) (full reduced : Classification)
    (fullClassified : classifyRun library { options with latest } fullFiles run = .ok full)
    (reducedClassified : classifyRun library options reducedFiles run = .ok reduced)
    (terminal : reduced.verdict = .terminal kind) :
    full.verdict = .terminal kind ↔ ¬ SaysRunning fullFiles run := by
  constructor
  · intro same running
    rw [verdict_of_settles fullClassified (running_of_answer running)] at same
    cases same
  · intro idle
    exact verdict_of_settles fullClassified
      (settles_decideRun removed idle ⟨{}, answer_of_classifyRun reducedClassified terminal⟩)

/-- A finished run is terminal with its state as without it. -/
theorem removal_protects_finished : ∃ full, classifyRun plainLibrary plainOptions
    (directoryOf plainRun (("state.json", plainOutcome) :: plainDocuments)) plainRun = .ok full ∧
      full.verdict = .terminal "noop" := by
  obtain ⟨terminal, -, finished, given, absent⟩ := plainVerdict_evaluated
  rw [plainVerdict, Option.map_eq_some_iff] at terminal finished
  obtain ⟨full, classified, -⟩ := finished
  obtain ⟨reduced, reducedClassified, terminalVerdict⟩ := terminal
  refine ⟨full, eq_ok_of_toOption classified, ?_⟩
  refine (removal_protects_iff plainLibrary plainOptions _ _ _ _ _
    (removed_directoryOf (Option.isNone_iff_eq_none.mp absent)) _ _ (eq_ok_of_toOption classified)
    (eq_ok_of_toOption reducedClassified) terminalVerdict).mpr ?_
  rintro ⟨state, found, marked⟩
  rw [found, Except.toOption, Option.map_some, Option.map_some, marked, Option.some_inj,
    Option.some_inj, Json.string.injEq] at given
  exact absurd given (by decide)

end JobAgg.TerminalPublication
