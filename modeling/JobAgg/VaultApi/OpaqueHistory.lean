import JobAgg.Foundation.Run
import JobAgg.VaultApi.OpaqueRuns

/-! # The histories of a vault

What is written to a scope of a vault is a linear history: a revision occurs once, and an
envelope names the one before it as its parent. A vault keeps of each history what it needs
to continue it. -/

namespace JobAgg.VaultApi

variable {Fingerprint : Type} {library : EnvelopeLibrary Fingerprint} {limits : RetainedLimits}
  {scope other : Scope} {envelope known : StorageEnvelope} {revision : String} {now : ℚ}

structure Linear (scope : Scope) (history : List StorageEnvelope) : Prop where
  distinct : (history.map (·.revision)).Nodup
  parents : ∀ past envelope later, history = past ++ .ciphertext envelope :: later →
    envelope.parentRevision = past.getLast?.map (·.revision)
  admitted : ∀ envelope ∈ history, scope.admits envelope = true

theorem linear_nil : Linear scope [] := by
  refine ⟨List.nodup_nil, ?_, nofun⟩
  intro past envelope later split
  exact absurd split.symm (List.append_ne_nil_of_right_ne_nil _ (List.cons_ne_nil _ _))

theorem Linear.snoc {history : List StorageEnvelope} (linear : Linear scope history)
    (new : envelope.revision ∉ history.map (·.revision))
    (follows : ∀ same, envelope = .ciphertext same →
      same.parentRevision = history.getLast?.map (·.revision))
    (admitted : scope.admits envelope = true) : Linear scope (history ++ [envelope]) := by
  refine ⟨?_, ?_, ?_⟩
  · rw [List.map_append, List.map_singleton, ← List.concat_eq_append, List.nodup_concat]
    exact ⟨new, linear.distinct⟩
  · intro past middle later split
    rcases later.eq_nil_or_concat with rfl | ⟨before, last, rfl⟩
    · obtain ⟨same, last⟩ := List.append_inj' split rfl
      rw [← same]
      exact follows middle (List.singleton_inj.mp last)
    · rw [List.concat_eq_append, ← List.cons_append, ← List.append_assoc] at split
      exact linear.parents past middle before (List.append_inj' split rfl).1
  · intro member listed
    rw [List.mem_append, List.mem_singleton] at listed
    rcases listed with listed | rfl
    · exact linear.admitted member listed
    · exact admitted

/-! ## What a vault keeps of its histories -/

def VaultState.knows (state : VaultState Fingerprint) (revision : String) : Scope → Bool
  | .patches => decide (revision ∈ state.patchesByRevision)
  | scope => state.isHistorical revision scope

section Write

variable {state after : VaultState Fingerprint} {fingerprint : Fingerprint}

theorem current_write (admitted : scope.admits envelope = true) :
    (state.write fingerprint scope envelope).current other =
      if other = scope then some envelope else state.current other := by
  cases scope with
  | metadata =>
    cases envelope with
    | ciphertext => cases admitted
    | metadata envelope => cases other <;> rfl
  | object objectId =>
    cases envelope with
    | metadata => cases admitted
    | ciphertext envelope =>
      cases other with
      | object otherId =>
        rw [VaultState.write, VaultState.current, Dict.lookup_insert_eq]
        simp only [Scope.object.injEq]
        split
        · rfl
        · rfl
      | metadata => rfl
      | patches => rfl
      | snapshot => rfl
  | patches =>
    cases envelope with
    | metadata => cases admitted
    | ciphertext envelope =>
      cases other with
      | patches =>
        rw [VaultState.write, VaultState.current, List.getLast?_concat]
        rfl
      | metadata => rfl
      | object => rfl
      | snapshot => rfl
  | snapshot =>
    cases envelope with
    | metadata => cases admitted
    | ciphertext envelope => cases other <;> rfl

theorem knows_write_of_ne (different : other ≠ scope) :
    (state.write fingerprint scope envelope).knows revision other = state.knows revision other := by
  cases scope with
  | object objectId =>
    cases envelope with
    | metadata => rfl
    | ciphertext envelope =>
      cases other with
      | object otherId =>
        have apart : otherId ≠ objectId := fun same => different (congrArg _ same)
        rw [VaultState.knows, VaultState.knows, VaultState.isHistorical,
          VaultState.isHistorical, VaultState.write, Finmap.lookup_insert_of_ne _ apart]
        · nofun
        · nofun
      | metadata => rfl
      | patches => rfl
      | snapshot => rfl
  | metadata => cases envelope <;> cases other <;> first | rfl | exact absurd rfl different
  | patches => cases envelope <;> cases other <;> first | rfl | exact absurd rfl different
  | snapshot => cases envelope <;> cases other <;> first | rfl | exact absurd rfl different

theorem knows_write (admitted : scope.admits envelope = true)
    (known : revision = envelope.revision ∨ state.knows revision scope = true) :
    (state.write fingerprint scope envelope).knows revision scope = true := by
  cases envelope with
  | metadata envelope =>
    cases scope with
    | metadata =>
      rw [VaultState.knows, VaultState.isHistorical, decide_eq_true_eq] at known ⊢
      · exact Finmap.mem_insert.mpr known
      all_goals nofun
    | object => cases admitted
    | patches => cases admitted
    | snapshot => cases admitted
  | ciphertext envelope =>
    cases scope with
    | metadata => cases admitted
    | object objectId =>
      rw [VaultState.knows, VaultState.isHistorical, decide_eq_true_eq] at known ⊢
      · rw [VaultState.write, Finmap.lookup_insert, Option.getD_some]
        exact Finmap.mem_insert.mpr known
      all_goals nofun
    | patches =>
      rw [VaultState.knows, decide_eq_true_eq] at known ⊢
      exact Finmap.mem_insert.mpr known
    | snapshot =>
      rw [VaultState.knows, VaultState.isHistorical, decide_eq_true_eq] at known ⊢
      · exact Finmap.mem_insert.mpr known
      all_goals nofun

theorem patchesByRevision_write (admitted : scope.admits envelope = true) :
    (state.write fingerprint scope envelope).patchesByRevision.lookup revision =
      if scope = .patches ∧ revision = envelope.revision then
        match envelope with
        | .metadata _ => none
        | .ciphertext envelope => some envelope
      else state.patchesByRevision.lookup revision := by
  cases scope with
  | patches =>
    cases envelope with
    | metadata => cases admitted
    | ciphertext envelope =>
      rw [VaultState.write, Dict.lookup_insert_eq]
      simp only [true_and, StorageEnvelope.revision]
  | metadata => cases envelope <;> rfl
  | object => cases envelope <;> rfl
  | snapshot => cases envelope <;> rfl

end Write

structure VaultState.Keeps (library : EnvelopeLibrary Fingerprint) (state : VaultState Fingerprint)
    (history : Scope → List StorageEnvelope) : Prop where
  linear : ∀ scope, Linear scope (history scope)
  current : ∀ scope, state.current scope = (history scope).getLast?
  known : ∀ scope, ∀ envelope ∈ history scope, state.knows envelope.revision scope = true
  patches : ∀ revision envelope, state.patchesByRevision.lookup revision = some envelope →
    envelope.revision = revision ∧ .ciphertext envelope ∈ history .patches
  receipts : ∀ scope key receipt, state.receipts.lookup (scope, key) = some receipt →
    receipt.response ∈ history scope ∧
      receipt.attempt.envelopeFingerprint = library.fingerprint receipt.response

section Keeps

variable {state after : VaultState Fingerprint} {history : Scope → List StorageEnvelope}
  {expectedRevision key : String}

theorem keeps_empty : (VaultState.empty : VaultState Fingerprint).Keeps library fun _ => [] := by
  refine ⟨fun _ => linear_nil, ?_, nofun, nofun, nofun⟩
  intro scope
  cases scope <;> rfl

theorem VaultState.Keeps.lapse (keeps : state.Keeps library history)
    (lapses : state.Lapses now after) : after.Keeps library history := by
  have content := lapses.content
  refine ⟨keeps.linear, ?_, ?_, ?_, ?_⟩
  · intro scope
    rw [content, ← keeps.current]
    cases scope <;> rfl
  · intro scope envelope member
    have known := keeps.known scope envelope member
    rw [content]
    cases scope <;> exact known
  · rw [content]
    exact keeps.patches
  · intro scope key receipt found
    exact keeps.receipts scope key receipt (lapses.known _ _ found)

theorem VaultState.Keeps.mem_of_compared (keeps : state.Keeps library history)
    (found : state.compared scope revision = some known) : known ∈ history scope := by
  have current (found : state.current scope = some known) : known ∈ history scope := by
    rw [keeps.current] at found
    exact List.mem_of_getLast? found
  cases scope with
  | patches =>
    rw [VaultState.compared, Option.map_eq_some_iff] at found
    obtain ⟨patch, found, rfl⟩ := found
    exact (keeps.patches revision patch found).2
  | metadata => exact current found
  | object => exact current found
  | snapshot => exact current found

theorem VaultState.Extends.namesCurrent (fresh : state.Extends scope envelope expectedRevision) :
    requireCas (state.current scope) expectedRevision = true := by
  have follows := fresh.follows
  rw [requireParentCas.eq_def, Bool.and_eq_true] at follows
  exact follows.1

theorem VaultState.Keeps.new (keeps : state.Keeps library history)
    (fresh : state.Extends scope envelope expectedRevision) :
    envelope.revision ∉ (history scope).map (·.revision) := by
  intro listed
  obtain ⟨accepted, member, same⟩ := List.mem_map.mp listed
  have known := keeps.known scope accepted member
  rw [same] at known
  have historical := fresh.notHistorical
  cases scope with
  | patches =>
    rw [VaultState.knows, decide_eq_true_eq, Finmap.mem_iff] at known
    obtain ⟨patch, found⟩ := known
    have new := fresh.new
    rw [VaultState.compared, found, Option.map_some, Option.filter_eq_none_iff] at new
    exact new _ rfl (decide_eq_true (keeps.patches _ _ found).1)
  | metadata => exact Bool.false_ne_true (historical.symm.trans known)
  | object => exact Bool.false_ne_true (historical.symm.trans known)
  | snapshot => exact Bool.false_ne_true (historical.symm.trans known)

theorem VaultState.Keeps.write (keeps : state.Keeps library history)
    (fresh : state.Extends scope envelope expectedRevision)
    (admitted : scope.admits envelope = true) (fingerprint : Fingerprint) :
    (state.write fingerprint scope envelope).Keeps library
      (Function.update history scope (history scope ++ [envelope])) := by
  refine ⟨?_, ?_, ?_, ?_, ?_⟩
  · intro other
    by_cases same : other = scope
    · subst same
      rw [Function.update_self]
      apply (keeps.linear other).snoc (keeps.new fresh) _ admitted
      rintro child rfl
      have follows := fresh.follows
      rw [requireParentCas, Bool.and_eq_true, decide_eq_true_eq, keeps.current] at follows
      exact follows.2
    · rw [Function.update_of_ne same]
      exact keeps.linear other
  · intro other
    rw [current_write admitted]
    split
    case isTrue same =>
      rw [same, Function.update_self, List.getLast?_concat]
    case isFalse different =>
      rw [Function.update_of_ne different]
      exact keeps.current other
  · intro other member listed
    by_cases same : other = scope
    · subst same
      apply knows_write admitted
      rw [Function.update_self, List.mem_append, List.mem_singleton] at listed
      rcases listed with listed | rfl
      · exact .inr (keeps.known other member listed)
      · exact .inl rfl
    · rw [Function.update_of_ne same] at listed
      rw [knows_write_of_ne same]
      exact keeps.known other member listed
  · intro revision patch found
    rw [patchesByRevision_write admitted] at found
    split at found
    case isTrue new =>
      cases envelope with
      | metadata => cases found
      | ciphertext written =>
        obtain rfl : written = patch := Option.some.inj found
        rw [new.1, Function.update_self]
        exact ⟨new.2.symm, List.mem_append_right _ List.mem_cons_self⟩
    case isFalse =>
      obtain ⟨same, member⟩ := keeps.patches revision patch found
      refine ⟨same, ?_⟩
      by_cases here : Scope.patches = scope
      · subst here
        rw [Function.update_self]
        exact List.mem_append_left _ member
      · rwa [Function.update_of_ne here]
  · intro other key receipt found
    rw [receipts_write] at found
    obtain ⟨member, same⟩ := keeps.receipts other key receipt found
    refine ⟨?_, same⟩
    by_cases here : other = scope
    · subst here
      rw [Function.update_self]
      exact List.mem_append_left _ member
    · rwa [Function.update_of_ne here]

theorem VaultState.Keeps.receipt (keeps : state.Keeps library history)
    (member : envelope ∈ history scope) {attempt : WriteAttempt Fingerprint}
    (same : attempt.envelopeFingerprint = library.fingerprint envelope) {expiresAt : ℚ} :
    ({ state with receipts := state.receipts.insert (scope, key) ⟨attempt, envelope, expiresAt⟩ } :
      VaultState Fingerprint).Keeps library history := by
  refine ⟨keeps.linear, ?_, ?_, keeps.patches, ?_⟩
  · intro other
    rw [← keeps.current]
    cases other <;> rfl
  · intro other accepted listed
    have known := keeps.known other accepted listed
    cases other <;> exact known
  · intro other otherKey receipt found
    rw [Dict.lookup_insert_eq] at found
    split at found
    case isTrue here =>
      cases found
      rw [Prod.mk.injEq] at here
      rw [here.1]
      exact ⟨member, same⟩
    case isFalse => exact keeps.receipts other otherKey receipt found

end Keeps

/-! ## Histories of a run -/

section Runs

variable {before after store : OpaqueStore Fingerprint} {past : List StoreEvent}
  {event : StoreEvent} {outcome : Except String Reply} {put : PutCall}

def NoCollision (library : EnvelopeLibrary Fingerprint) (events : List StoreEvent) : Prop :=
  ∀ event ∈ events, ∀ other ∈ events, ∀ put otherPut, event.call.put = some put →
    other.call.put = some otherPut →
    library.fingerprint put.envelope = library.fingerprint otherPut.envelope →
    put.envelope = otherPut.envelope

def Keeps (library : EnvelopeLibrary Fingerprint) (past : List StoreEvent)
    (store : OpaqueStore Fingerprint) : Prop :=
  ∀ vault, (store.state vault).Keeps library fun scope => accepted vault scope past

theorem keeps_nil : Keeps library [] (.empty : OpaqueStore Fingerprint) := fun _ => keeps_empty

theorem Keeps.ready (keeps : Keeps library past before) (readies : before.Readies now after) :
    Keeps library past after :=
  fun vault => (keeps vault).lapse (readies.state vault)

theorem Keeps.unwritten (keeps : Keeps library past store)
    (unwritten : ∀ vault scope, event.written vault scope = none) :
    Keeps library (past ++ [event]) store := by
  intro vault
  have same : (fun scope => accepted vault scope (past ++ [event])) =
      fun scope => accepted vault scope past := by
    funext scope
    exact accepted_append_of_none (unwritten vault scope)
  rw [same]
  exact keeps vault

theorem Keeps.puts (keeps : Keeps library past before) {call : StoreCall}
    (called : call.put = some put)
    (puts : Puts library limits put.scope put.envelope put.request before after outcome) :
    Keeps library (past ++ [⟨call, outcome.map .reply⟩]) after := by
  have admitted := admits_put called
  cases puts with
  | invalid => exact keeps.unwritten fun _ _ => written_eq_none nofun
  | conflict readies => exact (keeps.ready readies).unwritten fun _ _ => written_eq_none nofun
  | mismatched readies => exact (keeps.ready readies).unwritten fun _ _ => written_eq_none nofun
  | full readies => exact (keeps.ready readies).unwritten fun _ _ => written_eq_none nofun
  | replayed readies => exact (keeps.ready readies).unwritten fun _ _ => written_eq_none nofun
  | duplicate readies found =>
    rename_i ready
    have keeps := keeps.ready readies
    have recorded : Keeps library past (ready.record put.request.vault
        (ready.state put.request.vault) (put.request.key put.scope)
        (put.request.attempt library put.envelope) put.envelope put.request.now) := by
      intro vault
      rw [state_record]
      split
      case isTrue same =>
        rw [same]
        exact (keeps put.request.vault).receipt
          ((keeps put.request.vault).mem_of_compared found) rfl
      case isFalse => exact keeps vault
    exact recorded.unwritten fun _ _ => written_eq_none nofun
  | written readies fresh =>
    rename_i ready
    have keeps := keeps.ready readies
    intro vault
    rw [OpaqueStore.afterWrite, state_retain, state_record]
    split
    case isTrue same =>
      have history : (fun scope => accepted vault scope
          (past ++ [⟨call, .ok (.reply (.written put.envelope))⟩])) =
          Function.update (fun scope => accepted put.request.vault scope past) put.scope
            (accepted put.request.vault put.scope past ++ [put.envelope]) := by
        funext scope
        rw [accepted_append, written_eq called, same, Function.update_apply]
        by_cases here : scope = put.scope
        · rw [if_pos here, if_pos ⟨rfl, here.symm⟩, here]
          rfl
        · rw [if_neg here, if_neg fun both => here both.2.symm]
          exact List.append_nil _
      have written := (keeps put.request.vault).write fresh admitted
        (library.fingerprint put.envelope)
      rw [← history] at written
      apply written.receipt _ rfl
      rw [accepted_append, written_eq called, if_pos ⟨same.symm, rfl⟩]
      exact List.mem_append_right _ List.mem_cons_self
    case isFalse different =>
      have history : (fun scope => accepted vault scope
          (past ++ [⟨call, .ok (.reply (.written put.envelope))⟩])) =
          fun scope => accepted vault scope past := by
        funext scope
        apply accepted_append_of_none
        rw [written_eq called, if_neg fun both => different both.1.symm]
      exact history ▸ keeps vault

structure Answered (past : List StoreEvent) (call : StoreCall) (put : PutCall) : Prop where
  addressed : call.isAddressed = true
  valid : writeTokensValid put.request.expectedRevision put.request.idempotencyKey = true
  accepted : put.envelope ∈ accepted put.request.vault put.scope past

theorem Answered.mono {call : StoreCall} (answered : Answered past call put) :
    Answered (past ++ [event]) call put := by
  refine ⟨answered.addressed, answered.valid, ?_⟩
  rw [accepted_append]
  exact List.mem_append_left _ answered.accepted

theorem NoCollision.response (apart : NoCollision library (past ++ [event]))
    (called : event.call.put = some put)
    {response : StorageEnvelope} (member : response ∈ accepted put.request.vault put.scope past)
    (same : library.fingerprint response = library.fingerprint put.envelope) :
    response = put.envelope := by
  obtain ⟨earlier, listed, earlierPut, earlierCalled, rfl⟩ := mem_accepted member
  exact apart earlier (List.mem_append_left _ listed) event
    (List.mem_append_right _ List.mem_cons_self) earlierPut put earlierCalled called same

theorem Keeps.reply (keeps : Keeps library past before) {reply : Reply} {call : StoreCall}
    (called : call.put = some put)
    (apart : NoCollision library (past ++ [⟨call, .ok (.reply reply)⟩]))
    (puts : Puts library limits put.scope put.envelope put.request before after (.ok reply)) :
    (reply = .written put.envelope ∧ put.request.expectedRevision =
        ((accepted put.request.vault put.scope past).getLast?.map (·.revision)).getD "*") ∨
      (reply = .replayed put.envelope ∨ reply = .duplicate put.envelope) ∧
        put.envelope ∈ accepted put.request.vault put.scope past := by
  cases puts with
  | replayed readies found same =>
    obtain ⟨member, fingerprint⟩ := (keeps.ready readies put.request.vault).receipts _ _ _ found
    rw [same] at fingerprint
    have response := apart.response called member fingerprint.symm
    rw [response] at member ⊢
    exact .inr ⟨.inl rfl, member⟩
  | duplicate readies found =>
    exact .inr ⟨.inr rfl, (keeps.ready readies put.request.vault).mem_of_compared found⟩
  | written readies fresh =>
    refine .inl ⟨rfl, ?_⟩
    have current := (keeps.ready readies put.request.vault).current put.scope
    have names := fresh.namesCurrent
    rw [current] at names
    cases last : (accepted put.request.vault put.scope past).getLast? with
    | none =>
      rw [last] at names
      exact of_decide_eq_true names
    | some envelope =>
      rw [last] at names
      exact of_decide_eq_true names

theorem Keeps.retry (keeps : Keeps library past before) {call : StoreCall}
    {answer : Except String StoreAnswer} (called : call.put = some put)
    (valid : writeTokensValid put.request.expectedRevision put.request.idempotencyKey = true)
    (member : put.envelope ∈ accepted put.request.vault put.scope past)
    (inOrder : ∀ last ∈ before.lastObservedClock, last ≤ put.request.now)
    (apart : NoCollision library (past ++ [⟨call, answer⟩]))
    (puts : Puts library limits put.scope put.envelope put.request before after outcome) :
    outcome = .ok (.replayed put.envelope) ∨ outcome = .ok (.duplicate put.envelope) ∨
      outcome = .error opaqueStorageConflict := by
  cases puts with
  | invalid refused =>
    rcases refused with invalid | ⟨last, observed, late⟩
    · exact absurd (invalid.symm.trans valid) Bool.false_ne_true
    · exact absurd late (not_lt.mpr (inOrder last observed))
  | conflict => exact .inr (.inr rfl)
  | mismatched readies found foreign =>
    have keeps := keeps.ready readies put.request.vault
    have admitted := (keeps.linear put.scope).admitted _ (keeps.receipts _ _ _ found).1
    exact absurd (foreign.symm.trans admitted) Bool.false_ne_true
  | full readies fresh =>
    exact absurd (List.mem_map_of_mem member)
      ((keeps.ready readies put.request.vault).new fresh)
  | replayed readies found same =>
    obtain ⟨member, fingerprint⟩ := (keeps.ready readies put.request.vault).receipts _ _ _ found
    rw [same] at fingerprint
    rw [apart.response called member fingerprint.symm]
    exact .inl rfl
  | duplicate => exact .inr (.inl rfl)
  | written readies fresh =>
    exact absurd (List.mem_map_of_mem member)
      ((keeps.ready readies put.request.vault).new fresh)

variable [DecidableEq Fingerprint]

theorem Keeps.step (keeps : Keeps library past before)
    (step : before.Step library limits event after) : Keeps library (past ++ [event]) after := by
  cases step_cases step with
  | puts put outcome called addressed valid puts => exact keeps.puts called puts
  | misaddressed => exact keeps.unwritten fun _ _ => written_eq_none nofun
  | reads called noReply pages =>
    apply Keeps.unwritten _ fun _ _ => written_eq_none fun envelope => noReply _
    intro vault
    rw [pages.state]
    exact keeps vault

theorem Keeps.answered (keeps : Keeps library past before)
    (step : before.Step library limits event after)
    (apart : NoCollision library (past ++ [event])) {reply : Reply}
    (called : event.call.put = some put) (answered : event.answer = .ok (.reply reply)) :
    Answered (past ++ [event]) event.call put := by
  cases step_cases step with
  | puts other outcome otherCalled addressed valid puts =>
    cases outcome with
    | error reason => cases answered
    | ok otherReply =>
      obtain rfl := Option.some.inj (otherCalled.symm.trans called)
      refine ⟨addressed, valid otherReply rfl, ?_⟩
      rw [accepted_append]
      rcases keeps.reply otherCalled apart puts with ⟨rfl, -⟩ | ⟨-, member⟩
      · apply List.mem_append_right
        have written : StoreEvent.written other.request.vault other.scope
            ⟨_, .ok (.reply (.written other.envelope))⟩ = _ := written_eq otherCalled
        rw [if_pos ⟨rfl, rfl⟩] at written
        have listed : (StoreEvent.written other.request.vault other.scope
            ⟨_, (Except.ok (.written other.envelope) : Except String Reply).map .reply⟩).toList =
              [other.envelope] := congrArg Option.toList written
        rw [listed]
        exact List.mem_cons_self
      · exact List.mem_append_left _ member
  | misaddressed => cases answered
  | reads notPut => exact absurd (called.symm.trans notPut) nofun

/-- The past of a run, and every put in it that was answered with an envelope. -/
structure Historic (library : EnvelopeLibrary Fingerprint) (past : List StoreEvent)
    (store : OpaqueStore Fingerprint) : Prop where
  keeps : Keeps library past store
  answered : NoCollision library past → ∀ event ∈ past, ∀ put reply, event.call.put = some put →
    event.answer = .ok (.reply reply) → Answered past event.call put

theorem Historic.step (historic : Historic library past before)
    (step : before.Step library limits event after) :
    Historic library (past ++ [event]) after := by
  refine ⟨historic.keeps.step step, ?_⟩
  intro apart listed member put reply called answered
  rw [List.mem_append, List.mem_singleton] at member
  rcases member with member | rfl
  · have earlier : NoCollision library past := fun first here second there =>
      apart first (List.mem_append_left _ here) second (List.mem_append_left _ there)
    exact (historic.answered earlier listed member put reply called answered).mono
  · exact historic.keeps.answered step apart called answered

theorem historic_of_run (run : Run (OpaqueStore.Step library limits) .empty past store) :
    Historic library past store :=
  run.invariant_history (Historic library)
    (fun _ _ _ _ step historic => historic.step step) ⟨keeps_nil, fun _ _ member => nomatch member⟩

/-- Whatever clients call in whatever order: the envelopes accepted into a scope of a vault
have distinct revisions, and each but metadata names the one before it as its parent. A put
that is answered with an envelope named the revision that was current, or its envelope was
accepted before and is not written again. One that is sent again, at any later time, is
answered with the same envelope or a conflict. -/
theorem linear_history (run : Run (OpaqueStore.Step library limits) .empty past before)
    (step : before.Step library limits event after)
    (apart : NoCollision library (past ++ [event])) :
    (∀ vault scope, ((accepted vault scope (past ++ [event])).map (·.revision)).Nodup ∧
      ∀ earlier envelope later,
        accepted vault scope (past ++ [event]) = earlier ++ .ciphertext envelope :: later →
        envelope.parentRevision = earlier.getLast?.map (·.revision)) ∧
    (∀ put reply, event.call.put = some put → event.answer = .ok (.reply reply) →
      (reply = .written put.envelope ∧ put.request.expectedRevision =
        ((accepted put.request.vault put.scope past).getLast?.map (·.revision)).getD "*") ∨
      (reply = .replayed put.envelope ∨ reply = .duplicate put.envelope) ∧
        put.envelope ∈ accepted put.request.vault put.scope past) ∧
    ∀ earlier ∈ past, ∀ put reply now, earlier.call.put = some put →
      earlier.answer = .ok (.reply reply) → event.call = earlier.call.again now →
      (∀ last ∈ before.lastObservedClock, last ≤ now) →
      event.answer = .ok (.reply (.replayed put.envelope)) ∨
        event.answer = .ok (.reply (.duplicate put.envelope)) ∨
        event.answer = .error opaqueStorageConflict := by
  have historic := historic_of_run run
  have keeps := historic.keeps.step step
  refine ⟨?_, ?_, ?_⟩
  · intro vault scope
    have linear := (keeps vault).linear scope
    exact ⟨linear.distinct, linear.parents⟩
  · intro put reply called answered
    cases step_cases step with
    | puts other outcome otherCalled addressed valid puts =>
      cases outcome with
      | error reason => cases answered
      | ok otherReply =>
        obtain rfl := Option.some.inj (otherCalled.symm.trans called)
        cases answered
        exact historic.keeps.reply called apart puts
    | misaddressed => cases answered
    | reads notPut => exact absurd (called.symm.trans notPut) nofun
  · intro earlier member put reply now called answered again inOrder
    have before : NoCollision library past := fun first here second there =>
      apart first (List.mem_append_left _ here) second (List.mem_append_left _ there)
    have same := historic.answered before earlier member put reply called answered
    have recalled := put_again now called
    rw [← again] at recalled
    cases step_cases step with
    | puts other outcome otherCalled addressed valid puts =>
      obtain rfl := Option.some.inj (otherCalled.symm.trans recalled)
      have retried := historic.keeps.retry otherCalled same.valid same.accepted inOrder apart puts
      rcases retried with rfl | rfl | rfl
      · exact .inl rfl
      · exact .inr (.inl rfl)
      · exact .inr (.inr rfl)
    | misaddressed other otherCalled astray =>
      have addressed := same.addressed
      rw [← isAddressed_again now, ← again] at addressed
      exact absurd (astray.symm.trans addressed) Bool.false_ne_true
    | reads notPut => exact absurd (recalled.symm.trans notPut) nofun

theorem linear_history_patchedAgain :
    patched.2.toOption = some (.reply (.written (.ciphertext firstPatch))) ∧
    (patchedAgain.2 = .ok (.reply (.replayed (.ciphertext firstPatch))) ∨
      patchedAgain.2 = .ok (.reply (.duplicate (.ciphertext firstPatch))) ∨
      patchedAgain.2 = .error opaqueStorageConflict) := by
  have evaluated : patched.2.toOption = some (.reply (.written (.ciphertext firstPatch))) ∧
      ∀ last ∈ patched.1.lastObservedClock, last ≤ (700 : ℚ) := by
    decide
  refine ⟨evaluated.1, ?_⟩
  have written : patched.2 = .ok (.reply (.written (.ciphertext firstPatch))) :=
    ok_of_toOption evaluated.1
  have called : patchCall.put = some ⟨.patches, .ciphertext firstPatch,
      ⟨("account", "vault"), "*", "key", 0⟩⟩ := rfl
  have run : Run (OpaqueStore.Step patchLibrary defaultLimits) .empty [⟨patchCall, patched.2⟩]
      patched.1 := .single rfl
  have step : patched.1.Step patchLibrary defaultLimits ⟨patchCall.again 700, patchedAgain.2⟩
      patchedAgain.1 := rfl
  have apart : NoCollision patchLibrary
      ([⟨patchCall, patched.2⟩] ++ [⟨patchCall.again 700, patchedAgain.2⟩]) := by
    have same (event : StoreEvent) (member : event ∈
        [⟨patchCall, patched.2⟩] ++ [⟨patchCall.again 700, patchedAgain.2⟩])
        (put : PutCall) (puts : event.call.put = some put) :
        put.envelope = .ciphertext firstPatch := by
      rw [List.mem_append, List.mem_singleton, List.mem_singleton] at member
      rcases member with rfl | rfl
      · cases puts
        rfl
      · cases puts
        rfl
    intro event member other otherMember put otherPut puts otherPuts _
    rw [same event member put puts, same other otherMember otherPut otherPuts]
  exact (linear_history run step apart).2.2 _ List.mem_cons_self _ _ 700 called written rfl
    evaluated.2

end Runs

end JobAgg.VaultApi
