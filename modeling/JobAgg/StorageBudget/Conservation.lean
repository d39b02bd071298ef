import Mathlib.Tactic.NormNum
import JobAgg.Foundation.Run
import JobAgg.StorageBudget.BudgetLedger

/-! # Conservation of the escrow

The calls on one ledger file, in any order and by any holders. A call that
returns has run its mutation on the stored ledger and has written a valid one; a
call that raises has written nothing.
-/

namespace JobAgg.StorageBudget

variable {platform : Platform} {surroundings : Surroundings} {file : Option Ledger}

section Calls

variable {Outcome : Type} {outcome : Outcome}

theorem mutateLedger_of_error
    {mutation : Option Ledger → Except Failure (Outcome × Option Ledger)} {failure : Failure}
    (raised : (mutateLedger platform surroundings file mutation).2 = .error failure) :
    (mutateLedger platform surroundings file mutation).1 = file := by
  unfold mutateLedger at raised ⊢
  cases result : ((ledgerStore platform).mutate file surroundings.fault mutation).2 with
  | error original => exact AtomicJsonStore.mutate_of_error result
  | ok outcome => simp [result, Except.mapError] at raised

theorem mutateLedger_of_ok
    {mutation : Option Ledger → Except Failure (Outcome × Option Ledger)}
    (done : (mutateLedger platform surroundings file mutation).2 = .ok outcome) :
    ∃ changed, mutation file = .ok (outcome, changed) ∧
      (mutateLedger platform surroundings file mutation).1 = changed.or file ∧
      ∀ document ∈ changed, validateLedger platform document = .ok () :=
  AtomicJsonStore.mutate_of_ok (mapError_eq_ok.mp done)

variable {mutation : Ledger → Except Failure (Outcome × Option Ledger)}

theorem mutate_of_error {failure : Failure}
    (raised : (BudgetLedger.mutate platform surroundings file mutation).2 = .error failure) :
    (BudgetLedger.mutate platform surroundings file mutation).1 = file := by
  cases file with
  | none => rfl
  | some value => exact mutateLedger_of_error raised

theorem mutate_of_ok
    (done : (BudgetLedger.mutate platform surroundings file mutation).2 = .ok outcome) :
    ∃ value changed, file = some value ∧ mutation value = .ok (outcome, changed) ∧
      (BudgetLedger.mutate platform surroundings file mutation).1 = changed.or file ∧
      ∀ document ∈ changed, validateLedger platform document = .ok () := by
  cases file with
  | none => simp [BudgetLedger.mutate] at done
  | some value =>
    rcases mutateLedger_of_ok done with ⟨changed, mutated, after, valid⟩
    exact ⟨value, changed, rfl, mutated, after, valid⟩

end Calls

theorem check_eq_ok {handle : BudgetLedger} {document : Ledger} {config : BudgetConfig}
    (checked : handle.check platform surroundings document = .ok config) :
    config.writerRoles = document.config.writerRoles ∧
      ∃ role, lookup handle.writerId document.config.writerRoles = some role ∧
        document.phase ∈ role.phases := by
  unfold BudgetLedger.check at checked
  rcases bind_eq_ok.mp checked with ⟨parsed, parsedOk, checked⟩
  have sameRoles := (parseBudgetConfig_eq_ok parsedOk).1
  simp only [require_bind_eq_ok] at checked
  cases found : lookup handle.writerId parsed.writerRoles with
  | none => simp [found, throw, throwThe, MonadExceptOf.throw, bind, Except.bind] at checked
  | some role =>
    simp only [found, require_bind_eq_ok, decide_eq_true_eq] at checked
    rcases checked with ⟨_, admitted, checked⟩
    rcases bind_eq_ok.mp checked with ⟨_, _, returned⟩
    rw [← pure_eq_ok.mp returned]
    exact ⟨sameRoles, role, sameRoles ▸ found, admitted⟩

structure Bounded (value : Ledger) : Prop where
  withinEnvelope : ∀ category, value.settled category +
    charge Operation.maximum value.operations category ≤ value.envelope category
  withinLimits : ∀ category,
    value.initialUsage category + value.envelope category ≤ categoryLimits category
  closed : value.phase = .completed → value.operations = []

theorem le_of_exceedsNowhere {left right : BytesMap} (bounded : exceedsNowhere left right = true)
    (category : Category) : left category ≤ right category := by
  simpa using List.all_eq_true.mp bounded category (mem_categories category)

theorem bounded_of_validateLedger {value : Ledger}
    (valid : validateLedger platform value = .ok ()) :
    Bounded value ∧ value.config.writerRoles.any (·.2 == .controller) = true := by
  unfold validateLedger at valid
  rcases bind_eq_ok.mp valid with ⟨config, parsed, valid⟩
  simp only [require_bind_eq_ok] at valid
  rcases valid with ⟨_, _, _, _, _, _, limits, valid⟩
  rcases bind_eq_ok.mp valid with ⟨_, _, valid⟩
  simp only [require_bind_eq_ok] at valid
  rcases bind_eq_ok.mp valid.2 with ⟨_, _, valid⟩
  simp only [require_bind_eq_ok, require_eq_ok] at valid
  rcases valid with ⟨_, envelope, closed⟩
  refine ⟨⟨le_of_exceedsNowhere envelope, le_of_exceedsNowhere limits, ?_⟩,
    (parseBudgetConfig_eq_ok parsed).2⟩
  intro completed
  simpa [completed] using closed

section Charges

variable {column : Operation → ℕ} {operations before after : List (String × Operation)}

theorem charge_append {later : List (String × Operation)} {category : Category} :
    charge column (operations ++ later) category =
      charge column operations category + charge column later category := by
  simp [charge, List.filter_append]

theorem charge_singleton {entry : String × Operation} {category : Category} :
    charge column [entry] category =
      if entry.2.category = category then column entry.2 else 0 := by
  by_cases same : entry.2.category = category <;> simp [charge, same]

theorem charge_around {entry : String × Operation} {category : Category} :
    charge column (before ++ entry :: after) category =
      charge column before category + charge column after category +
        if entry.2.category = category then column entry.2 else 0 := by
  rw [List.append_cons, charge_append, charge_append, charge_singleton]
  omega

theorem split_of_lookup {key : String} {operation : Operation}
    (found : lookup key operations = some operation) :
    ∃ before after, operations = before ++ (key, operation) :: after := by
  unfold lookup at found
  rcases Option.map_eq_some_iff.mp found with ⟨entry, foundEntry, rfl⟩
  have sameKey : entry.1 = key := by simpa using List.find?_some foundEntry
  rw [← sameKey]
  exact List.append_of_mem (List.mem_of_find?_eq_some foundEntry)

end Charges

theorem held_eq_ok {reservation : OperationReservation} {value : Ledger} {operation : Operation}
    (held : reservation.held value = .ok operation) :
    lookup reservation.operationId value.operations = some operation ∧
      operation.writerId = reservation.ledger.writerId := by
  unfold OperationReservation.held at held
  cases found : lookup reservation.operationId value.operations with
  | none => simp [found] at held
  | some stored =>
    simp only [found, require_bind_eq_ok, pure_eq_ok, beq_iff_eq] at held
    exact ⟨by rw [held.2], held.2 ▸ held.1⟩

theorem checked_of_ok {Value Outcome : Type} {checks : Except Failure Value}
    {rest : Value → Called Outcome} {outcome : Outcome}
    (done : (checked file checks rest).2 = .ok outcome) :
    ∃ value, checks = .ok value ∧ checked file checks rest = rest value := by
  cases checks with
  | error failure => simp [checked] at done
  | ok value => exact ⟨value, rfl, rfl⟩

theorem checked_of_error {Value Outcome : Type} {checks : Except Failure Value}
    {rest : Value → Called Outcome} {failure : Failure}
    (restUnchanged : ∀ value failure, (rest value).2 = .error failure → (rest value).1 = file)
    (raised : (checked file checks rest).2 = .error failure) :
    (checked file checks rest).1 = file := by
  cases checks with
  | error failure => rfl
  | ok value => exact restUnchanged value failure raised

section Create

variable {admission : Admission} {cycleId metadata : String} {newToken : String → String}

theorem create_of_ok {handle : BudgetLedger}
    (done : (BudgetLedger.create platform surroundings file admission cycleId metadata
      newToken).2 = .ok handle) :
    (∀ value ∈ file, value.phase = .completed) ∧
      (BudgetLedger.create platform surroundings file admission cycleId metadata newToken).1 =
        some (BudgetLedger.newDocument platform admission cycleId metadata newToken) ∧
      validateLedger platform
        (BudgetLedger.newDocument platform admission cycleId metadata newToken) = .ok () := by
  rcases checked_of_ok done with ⟨_, _, opened⟩
  unfold BudgetLedger.create at done ⊢
  rw [opened] at done ⊢
  dsimp only at done ⊢
  split at done
  · simp at done
  · rename_i written
    rcases mutateLedger_of_ok written with ⟨changed, mutated, after, valid⟩
    simp only [require_bind_eq_ok] at mutated
    rcases bind_eq_ok.mp mutated.2 with ⟨_, validated, returned⟩
    have changedTo : some (BudgetLedger.newDocument platform admission cycleId metadata newToken) =
        changed := (Prod.mk.inj (pure_eq_ok.mp returned)).2
    have unfinished : ∀ value ∈ file, value.phase = .completed := by
      simpa [Option.all_eq_true] using mutated.1
    split at done
    · simp at done
    · refine ⟨unfinished, ?_, validated⟩
      rw [after, ← changedTo, Option.some_or]

theorem create_of_error {failure : Failure}
    (raised : (BudgetLedger.create platform surroundings file admission cycleId metadata
      newToken).2 = .error failure) :
    (BudgetLedger.create platform surroundings file admission cycleId metadata newToken).1 =
      file := by
  apply checked_of_error _ raised
  clear raised
  intro _ failure raised
  dsimp only at raised ⊢
  split at raised
  · rename_i failed
    exact mutateLedger_of_error failed
  · rename_i written
    rcases mutateLedger_of_ok written with ⟨changed, mutated, after, valid⟩
    simp only [require_bind_eq_ok] at mutated
    rcases bind_eq_ok.mp mutated.2 with ⟨_, validated, _⟩
    have controlled : admission.config.writerRoles.any (·.2 == .controller) = true :=
      (bounded_of_validateLedger validated).2
    split at raised
    · rename_i absent
      rw [List.find?_eq_none] at absent
      rcases List.any_eq_true.mp controlled with ⟨role, member, isController⟩
      exact absurd isController (absent role member)
    · simp at raised

end Create

section Reserved

variable {handle : BudgetLedger} {category : Category} {maxBytes : ℕ} {path : RawPath}
  {operationId : String}

/-- The operation that `reserve` records. -/
def reservedOperation (platform : Platform) (handle : BudgetLedger) (category : Category)
    (maxBytes : ℕ) (path : RawPath) : Operation where
  category := category
  maximum := maxBytes
  consumed := 0
  path := platform.resolve path.path
  writerId := handle.writerId

theorem reserve_of_ok {reservation : OperationReservation}
    (done : (handle.reserve platform surroundings file category maxBytes path operationId).2 =
      .ok reservation) :
    ∃ value role, file = some value ∧
      (handle.reserve platform surroundings file category maxBytes path operationId).1 =
        some { value with
          operations := value.operations ++
            [(operationId, reservedOperation platform handle category maxBytes path)] } ∧
      validateLedger platform { value with
        operations := value.operations ++
          [(operationId, reservedOperation platform handle category maxBytes path)] } = .ok () ∧
      (∀ entry ∈ value.operations, entry.1 ≠ operationId) ∧
      lookup handle.writerId value.config.writerRoles = some role ∧
      value.phase ∈ role.phases := by
  rcases checked_of_ok done with ⟨target, targetOk, opened⟩
  have resolved : target = platform.resolve path.path := by
    simp only [require_bind_eq_ok] at targetOk
    rcases bind_eq_ok.mp targetOk.2 with ⟨canonicalPath, found, returned⟩
    simp only [require_bind_eq_ok, pure_eq_ok] at returned
    unfold canonical at found
    simp only [require_bind_eq_ok, pure_eq_ok] at found
    rw [← returned.2, ← found.2]
  unfold BudgetLedger.reserve at done ⊢
  rw [opened] at done ⊢
  rcases mutate_of_ok done with ⟨value, changed, stored, mutated, after, valid⟩
  rcases bind_eq_ok.mp mutated with ⟨config, checkedOk, mutated⟩
  rcases check_eq_ok checkedOk with ⟨_, role, found, admitted⟩
  rcases bind_eq_ok.mp mutated with ⟨root, _, mutated⟩
  simp only [require_bind_eq_ok, pure_eq_ok, Prod.mk.injEq] at mutated
  rcases mutated with ⟨_, fresh, _, _, changedTo⟩
  rw [resolved] at changedTo
  refine ⟨value, role, stored, ?_, valid _ changedTo.symm, ?_, found, admitted⟩
  · rw [after, ← changedTo, Option.some_or]
    rfl
  · simp only [Bool.and_eq_true, Bool.not_eq_true', List.any_eq_false, beq_iff_eq] at fresh
    exact fresh.1

theorem reserve_of_error {failure : Failure}
    (raised : (handle.reserve platform surroundings file category maxBytes path operationId).2 =
      .error failure) :
    (handle.reserve platform surroundings file category maxBytes path operationId).1 = file :=
  checked_of_error (fun _ _ failed => mutate_of_error failed) raised

end Reserved

section Charged

variable {reservation : OperationReservation}

theorem consume_of_ok {count : ℕ}
    (done : (reservation.consume platform surroundings file count).2 = .ok ()) :
    ∃ value operation, file = some value ∧
      lookup reservation.operationId value.operations = some operation ∧
      ((count = 0 ∧ (reservation.consume platform surroundings file count).1 = file) ∨
        ∃ next, (reservation.consume platform surroundings file count).1 = some next ∧
          validateLedger platform next = .ok () ∧
          next = { value with
            operations := updateWhere (·.1 == reservation.operationId)
              (fun entry => (entry.1, { entry.2 with consumed := entry.2.consumed + count }))
              value.operations }) := by
  rcases mutate_of_ok done with ⟨value, changed, stored, mutated, after, valid⟩
  rcases bind_eq_ok.mp mutated with ⟨config, _, mutated⟩
  rcases bind_eq_ok.mp mutated with ⟨operation, held, mutated⟩
  simp only [require_bind_eq_ok] at mutated
  refine ⟨value, operation, stored, (held_eq_ok held).1, ?_⟩
  by_cases nothing : count = 0
  · simp only [nothing, if_true, pure_eq_ok, Prod.mk.injEq, true_and] at mutated
    refine .inl ⟨nothing, ?_⟩
    rw [OperationReservation.consume, after, ← mutated.2, Option.none_or]
  · simp only [nothing, if_false, pure_eq_ok, Prod.mk.injEq, true_and] at mutated
    refine .inr ⟨_, ?_, valid _ mutated.2.symm, rfl⟩
    rw [OperationReservation.consume, after, ← mutated.2, Option.some_or]

theorem settle_of_ok {actualBytes : Option ℕ} {proofSha256 : Option String}
    (done : (reservation.settle platform surroundings file actualBytes proofSha256).2 =
      .ok ()) :
    ∃ value operation next, file = some value ∧
      lookup reservation.operationId value.operations = some operation ∧
      (reservation.settle platform surroundings file actualBytes proofSha256).1 = some next ∧
      validateLedger platform next = .ok () ∧ next.config = value.config ∧
      next.phase = value.phase ∧
      next.operations = value.operations.filter (·.1 != reservation.operationId) ∧
      ∀ category, next.settled category = value.settled category +
        if category = operation.category then operation.consumed else 0 := by
  rcases checked_of_ok done with ⟨_, _, opened⟩
  unfold OperationReservation.settle at done ⊢
  rw [opened] at done ⊢
  rcases mutate_of_ok done with ⟨value, changed, stored, mutated, after, valid⟩
  rcases bind_eq_ok.mp mutated with ⟨config, _, mutated⟩
  rcases bind_eq_ok.mp mutated with ⟨operation, held, mutated⟩
  simp only [require_bind_eq_ok, pure_eq_ok, Prod.mk.injEq, true_and] at mutated
  refine ⟨value, operation, _, stored, (held_eq_ok held).1, ?_,
    valid _ mutated.2.2.symm, rfl, rfl, rfl, fun _ => rfl⟩
  rw [after, ← mutated.2.2, Option.some_or]

theorem settle_of_error {actualBytes : Option ℕ} {proofSha256 : Option String}
    {failure : Failure}
    (raised : (reservation.settle platform surroundings file actualBytes proofSha256).2 =
      .error failure) :
    (reservation.settle platform surroundings file actualBytes proofSha256).1 = file :=
  checked_of_error (fun _ _ failed => mutate_of_error failed) raised

end Charged

section Phases

variable {handle : BudgetLedger} {expectedPhase newPhase : Phase}

theorem index_lt_of_allowed (allowed : (expectedPhase, newPhase) ∈
    BudgetLedger.allowedTransitions) : expectedPhase.index < newPhase.index := by
  revert allowed
  cases expectedPhase <;> cases newPhase <;> decide

theorem transition_of_ok
    (done : (handle.transition platform surroundings file expectedPhase newPhase).2 =
      .ok ()) :
    ∃ value, file = some value ∧ value.operations = [] ∧
      value.phase.index < newPhase.index ∧
      (handle.transition platform surroundings file expectedPhase newPhase).1 =
        some { value with phase := newPhase } ∧
      validateLedger platform { value with phase := newPhase } = .ok () := by
  rcases checked_of_ok done with ⟨_, allowed, opened⟩
  unfold BudgetLedger.transition at done ⊢
  rw [opened] at done ⊢
  rcases mutate_of_ok done with ⟨value, changed, stored, mutated, after, valid⟩
  rcases bind_eq_ok.mp mutated with ⟨config, _, mutated⟩
  simp only [require_bind_eq_ok, pure_eq_ok, Prod.mk.injEq, true_and, Bool.and_eq_true,
    beq_iff_eq, List.isEmpty_iff] at mutated
  rcases mutated with ⟨⟨_, samePhase⟩, settled, changedTo⟩
  have forward := index_lt_of_allowed (by simpa using allowed)
  refine ⟨value, stored, settled, samePhase ▸ forward, ?_, valid _ changedTo.symm⟩
  rw [after, ← changedTo, Option.some_or]

theorem transition_of_error {failure : Failure}
    (raised : (handle.transition platform surroundings file expectedPhase newPhase).2 =
      .error failure) :
    (handle.transition platform surroundings file expectedPhase newPhase).1 = file :=
  checked_of_error (fun _ _ failed => mutate_of_error failed) raised

end Phases

inductive Event
  | create (admission : Admission) (cycleId metadata : String) (newToken : String → String)
  | reserve (handle : BudgetLedger) (category : Category) (maxBytes : ℕ) (path : RawPath)
      (operationId : String)
  | consume (reservation : OperationReservation) (count : ℕ)
  | settle (reservation : OperationReservation) (actualBytes : Option ℕ)
      (proofSha256 : Option String)
  | transition (handle : BudgetLedger) (expectedPhase newPhase : Phase)
  | resume (handle : BudgetLedger) (operationId : String)

/-- The file after a call, and whether it returned. -/
def Event.perform (platform : Platform) (surroundings : Surroundings) (file : Option Ledger) :
    Event → Called Unit
  | .create admission cycleId metadata newToken =>
    (BudgetLedger.create platform surroundings file admission cycleId metadata newToken).map id
      fun outcome => outcome.map fun _ => ()
  | .reserve handle category maxBytes path operationId =>
    (handle.reserve platform surroundings file category maxBytes path operationId).map id
      fun outcome => outcome.map fun _ => ()
  | .consume reservation count => reservation.consume platform surroundings file count
  | .settle reservation actualBytes proofSha256 =>
    reservation.settle platform surroundings file actualBytes proofSha256
  | .transition handle expectedPhase newPhase =>
    handle.transition platform surroundings file expectedPhase newPhase
  | .resume handle operationId =>
    (handle.resume platform surroundings file operationId).map id
      fun outcome => outcome.map fun _ => ()

/-- The ledger file, and the successful `consume` calls of its cycle with the
categories they were charged to. -/
structure Session where
  file : Option Ledger := none
  charges : List (Category × ℕ) := []

def charged (charges : List (Category × ℕ)) : BytesMap := fun category =>
  ((charges.filter (·.1 == category)).map Prod.snd).sum

def Session.chargesAfter (session : Session) : Event → List (Category × ℕ)
  | .create .. => []
  | .consume reservation count =>
    match session.file.bind fun value => lookup reservation.operationId value.operations with
    | some operation => session.charges ++ [(operation.category, count)]
    | none => session.charges
  | _ => session.charges

/-- One call, with what it meets; any call may raise. -/
inductive Step (platform : Platform) : Session → Surroundings × Event → Session → Prop
  | returned {session : Session} {surroundings : Surroundings} {event : Event}
      {file : Option Ledger}
      (performed : event.perform platform surroundings session.file = (file, .ok ())) :
      Step platform session (surroundings, event)
        { file, charges := session.chargesAfter event }
  | raised {session : Session} {surroundings : Surroundings} {event : Event}
      {file : Option Ledger} {failure : Failure}
      (performed : event.perform platform surroundings session.file = (file, .error failure)) :
      Step platform session (surroundings, event) { session with file }

def initialCharge : BytesMap := fun category =>
  if category = .diagnostics then controlEnvelopeBytes else 0

structure Conserved (platform : Platform) (session : Session) (value : Ledger) : Prop where
  valid : validateLedger platform value = .ok ()
  distinct : (value.operations.map Prod.fst).Nodup
  balanced : ∀ category, value.settled category +
    charge Operation.consumed value.operations category =
      initialCharge category + charged session.charges category
  admitted : ∀ entry ∈ value.operations, ∃ role,
    lookup entry.2.writerId value.config.writerRoles = some role ∧ value.phase ∈ role.phases

def Sound (platform : Platform) (session : Session) : Prop :=
  ∀ value, session.file = some value → Conserved platform session value

section Steps

variable {session next : Session} {event : Event}

theorem perform_of_error {failure : Failure}
    (raised : (event.perform platform surroundings file).2 = .error failure) :
    (event.perform platform surroundings file).1 = file := by
  have mapped : ∀ {Outcome : Type} {outcome : Except Failure Outcome},
      (outcome.map fun _ => ()) = .error failure → outcome = .error failure := by
    intro _ outcome raised
    cases outcome with
    | error _ => simpa [Except.map] using raised
    | ok _ => simp [Except.map] at raised
  cases event with
  | create admission cycleId metadata newToken => exact create_of_error (mapped raised)
  | reserve handle category maxBytes path operationId => exact reserve_of_error (mapped raised)
  | consume reservation count => exact mutate_of_error raised
  | settle reservation actualBytes proofSha256 => exact settle_of_error raised
  | transition handle expectedPhase newPhase => exact transition_of_error raised
  | resume handle operationId => rfl

theorem map_eq_ok_unit {Outcome : Type} {outcome : Except Failure Outcome}
    (done : (outcome.map fun _ => ()) = .ok ()) : ∃ value, outcome = .ok value := by
  cases outcome with
  | error _ => simp [Except.map] at done
  | ok value => exact ⟨value, rfl⟩

theorem Sound.create {admission : Admission} {cycleId metadata : String}
    {newToken : String → String}
    (performed : (Event.perform platform surroundings session.file
      (.create admission cycleId metadata newToken)).2 = .ok ()) :
    Sound platform {
      file := (Event.perform platform surroundings session.file
        (.create admission cycleId metadata newToken)).1
      charges := [] } := by
  rcases map_eq_ok_unit performed with ⟨handle, done⟩
  rcases create_of_ok done with ⟨_, after, valid⟩
  intro value stored
  have sameDocument := after.symm.trans stored
  rw [Option.some.injEq] at sameDocument
  rw [← sameDocument]
  refine ⟨valid, by simp [BudgetLedger.newDocument], ?_, by simp [BudgetLedger.newDocument]⟩
  intro category
  simp [BudgetLedger.newDocument, charge, initialCharge, charged]

theorem Sound.reserve {handle : BudgetLedger} {category : Category} {maxBytes : ℕ}
    {path : RawPath} {operationId : String} (sound : Sound platform session)
    (performed : (Event.perform platform surroundings session.file
      (.reserve handle category maxBytes path operationId)).2 = .ok ()) :
    Sound platform { session with
      file := (Event.perform platform surroundings session.file
        (.reserve handle category maxBytes path operationId)).1 } := by
  rcases map_eq_ok_unit performed with ⟨reservation, done⟩
  rcases reserve_of_ok done with ⟨value, role, present, after, valid, fresh, found, admitted⟩
  have conserved := sound value present
  intro next stored
  have sameDocument := after.symm.trans stored
  rw [Option.some.injEq] at sameDocument
  rw [← sameDocument]
  refine ⟨valid, ?_, ?_, ?_⟩
  · have absent : operationId ∉ value.operations.map Prod.fst := by
      intro member
      rcases List.mem_map.mp member with ⟨entry, entryMember, same⟩
      exact fresh entry entryMember same
    rw [List.map_append, List.map_singleton, ← List.concat_eq_append]
    exact conserved.distinct.concat absent
  · intro other
    have balanced := conserved.balanced other
    have nothing : charge Operation.consumed [(operationId,
        reservedOperation platform handle category maxBytes path)] other = 0 := by
      rw [charge_singleton]
      exact ite_self 0
    rw [charge_append, nothing, Nat.add_zero]
    exact balanced
  · intro entry member
    rcases List.mem_append.mp member with old | new
    · exact conserved.admitted entry old
    · rw [List.mem_singleton.mp new]
      exact ⟨role, found, admitted⟩

theorem charged_append {charges : List (Category × ℕ)} {entry : Category × ℕ}
    {category : Category} :
    charged (charges ++ [entry]) category =
      charged charges category + if entry.1 = category then entry.2 else 0 := by
  by_cases same : entry.1 = category <;> simp [charged, List.filter_append, same]

theorem Sound.consume {reservation : OperationReservation} {count : ℕ}
    (sound : Sound platform session)
    (performed : (Event.perform platform surroundings session.file
      (.consume reservation count)).2 = .ok ()) :
    Sound platform {
      file := (Event.perform platform surroundings session.file (.consume reservation count)).1
      charges := session.chargesAfter (.consume reservation count) } := by
  rcases consume_of_ok performed with ⟨value, operation, present, found, outcome⟩
  have conserved := sound value present
  have charges : session.chargesAfter (.consume reservation count) =
      session.charges ++ [(operation.category, count)] := by
    simp [Session.chargesAfter, present, found]
  rcases split_of_lookup found with ⟨before, after, split⟩
  have distinct := conserved.distinct
  intro next stored
  rw [charges]
  rcases outcome with ⟨nothing, unchanged⟩ | ⟨updated, written, valid, shape⟩
  · have sameValue : value = next := by
      have same := unchanged.symm.trans stored
      rw [present, Option.some.injEq] at same
      exact same
    rw [← sameValue]
    refine ⟨conserved.valid, distinct, ?_, conserved.admitted⟩
    intro category
    rw [charged_append, conserved.balanced category, nothing]
    simp
  · have sameValue := written.symm.trans stored
    rw [Option.some.injEq] at sameValue
    rw [← sameValue]
    rw [split] at distinct
    have updatedOperations : updated.operations = before ++
        (reservation.operationId, { operation with consumed := operation.consumed + count }) ::
          after := by
      rw [shape, split]
      exact updateWhere_key distinct
    refine ⟨valid, ?_, ?_, ?_⟩
    · rw [updatedOperations]
      simpa using distinct
    · intro category
      have balanced := conserved.balanced category
      have sameSettled : updated.settled = value.settled := by rw [shape]
      rw [split, charge_around] at balanced
      rw [updatedOperations, charge_around, charged_append, sameSettled]
      by_cases same : operation.category = category
      · simp only [same, if_true] at balanced ⊢
        omega
      · simp only [same, if_false] at balanced ⊢
        omega
    · intro entry member
      have sameConfig : updated.config = value.config := by rw [shape]
      have samePhase : updated.phase = value.phase := by rw [shape]
      rw [sameConfig, samePhase]
      rw [updatedOperations] at member
      have admitted := conserved.admitted
      rw [split] at admitted
      simp only [List.mem_append, List.mem_cons] at member admitted
      rcases member with earlier | rfl | later
      · exact admitted entry (.inl earlier)
      · exact admitted (reservation.operationId, operation) (.inr (.inl rfl))
      · exact admitted entry (.inr (.inr later))

theorem Sound.settle {reservation : OperationReservation} {actualBytes : Option ℕ}
    {proofSha256 : Option String} (sound : Sound platform session)
    (performed : (Event.perform platform surroundings session.file
      (.settle reservation actualBytes proofSha256)).2 = .ok ()) :
    Sound platform { session with
      file := (Event.perform platform surroundings session.file
        (.settle reservation actualBytes proofSha256)).1 } := by
  rcases settle_of_ok performed with
    ⟨value, operation, settled, present, found, written, valid, sameConfig, samePhase, remaining,
      grown⟩
  have conserved := sound value present
  rcases split_of_lookup found with ⟨before, after, split⟩
  have distinct := conserved.distinct
  intro next stored
  have sameValue := written.symm.trans stored
  rw [Option.some.injEq] at sameValue
  rw [← sameValue]
  rw [split] at distinct
  have left : settled.operations = before ++ after := by
    rw [remaining, split]
    exact filter_key_ne distinct
  refine ⟨valid, ?_, ?_, ?_⟩
  · rw [remaining]
    exact (List.filter_sublist.map Prod.fst).nodup conserved.distinct
  · intro category
    have balanced := conserved.balanced category
    rw [split, charge_around] at balanced
    rw [left, charge_append, grown]
    simp only [@eq_comm _ category operation.category] at balanced ⊢
    omega
  · intro entry member
    rw [sameConfig, samePhase]
    rw [remaining] at member
    exact conserved.admitted entry (List.mem_filter.mp member).1

theorem Sound.transition {handle : BudgetLedger} {expectedPhase newPhase : Phase}
    (sound : Sound platform session)
    (performed : (Event.perform platform surroundings session.file
      (.transition handle expectedPhase newPhase)).2 = .ok ()) :
    Sound platform { session with
      file := (Event.perform platform surroundings session.file
        (.transition handle expectedPhase newPhase)).1 } := by
  rcases transition_of_ok performed with ⟨value, present, settled, _, written, valid⟩
  have conserved := sound value present
  intro next stored
  have sameValue := written.symm.trans stored
  rw [Option.some.injEq] at sameValue
  rw [← sameValue]
  refine ⟨valid, conserved.distinct, conserved.balanced, ?_⟩
  intro entry member
  simp [settled] at member

theorem Sound.step {call : Surroundings × Event} (sound : Sound platform session)
    (step : Step platform session call next) : Sound platform next := by
  cases step with
  | raised performed =>
    rename_i surroundings event file failure
    have unchanged : file = session.file := by
      have same : (event.perform platform surroundings session.file).1 = session.file :=
        perform_of_error (by rw [performed])
      rw [performed] at same
      exact same
    rw [unchanged]
    exact sound
  | returned performed =>
    rename_i surroundings event file
    have written : file = (event.perform platform surroundings session.file).1 := by
      rw [performed]
    have done : (event.perform platform surroundings session.file).2 = .ok () := by
      rw [performed]
    rw [written]
    cases event with
    | create => exact Sound.create done
    | reserve => exact sound.reserve done
    | consume => exact sound.consume done
    | settle => exact sound.settle done
    | transition => exact sound.transition done
    | resume => exact sound

theorem Step.phase {call : Surroundings × Event} {value after : Ledger}
    (step : Step platform session call next) (present : session.file = some value)
    (stored : next.file = some after) :
    (value.phase = .completed ∧ ∃ admission cycleId metadata newToken,
      call.2 = .create admission cycleId metadata newToken) ∨
    after.phase = value.phase ∨
    (value.operations = [] ∧ value.phase.index < after.phase.index) := by
  cases step with
  | raised performed =>
    rename_i surroundings event file failure
    have same : (event.perform platform surroundings session.file).1 = session.file :=
      perform_of_error (by rw [performed])
    rw [performed] at same
    have sameValue : value = after :=
      Option.some_inj.mp (present.symm.trans (same.symm.trans stored))
    exact .inr (.inl (sameValue ▸ rfl))
  | returned performed =>
    rename_i surroundings event file
    have written : (event.perform platform surroundings session.file).1 = some after := by
      rw [performed]
      exact stored
    have done : (event.perform platform surroundings session.file).2 = .ok () := by
      rw [performed]
    cases event with
    | create admission cycleId metadata newToken =>
      rcases map_eq_ok_unit done with ⟨handle, created⟩
      exact .inl ⟨(create_of_ok created).1 value present, _, _, _, _, rfl⟩
    | reserve handle category maxBytes path operationId =>
      rcases map_eq_ok_unit done with ⟨reservation, reserved⟩
      rcases reserve_of_ok reserved with ⟨found, _, foundPresent, changed, _⟩
      have sameValue := Option.some_inj.mp (foundPresent.symm.trans present)
      have sameAfter := Option.some_inj.mp (changed.symm.trans written)
      exact .inr (.inl (by rw [← sameAfter, sameValue]))
    | consume reservation count =>
      rcases consume_of_ok done with ⟨found, _, foundPresent, _, outcome⟩
      have sameValue := Option.some_inj.mp (foundPresent.symm.trans present)
      rcases outcome with ⟨_, unchanged⟩ | ⟨updated, changed, _, shape⟩
      · have sameAfter := Option.some_inj.mp
          (present.symm.trans (unchanged.symm.trans written))
        exact .inr (.inl (sameAfter ▸ rfl))
      · have sameAfter := Option.some_inj.mp (changed.symm.trans written)
        exact .inr (.inl (by rw [← sameAfter, shape, sameValue]))
    | settle reservation actualBytes proofSha256 =>
      rcases settle_of_ok done with
        ⟨found, _, settled, foundPresent, _, changed, _, _, samePhase, _, _⟩
      have sameValue := Option.some_inj.mp (foundPresent.symm.trans present)
      have sameAfter := Option.some_inj.mp (changed.symm.trans written)
      exact .inr (.inl (by rw [← sameAfter, samePhase, sameValue]))
    | transition handle expectedPhase newPhase =>
      rcases transition_of_ok done with ⟨found, foundPresent, settled, forward, changed, _⟩
      have sameValue := Option.some_inj.mp (foundPresent.symm.trans present)
      have sameAfter := Option.some_inj.mp (changed.symm.trans written)
      exact .inr (.inr ⟨sameValue ▸ settled, by rw [← sameAfter, ← sameValue]; exact forward⟩)
    | resume handle operationId =>
      have sameAfter := Option.some_inj.mp (present.symm.trans written)
      exact .inr (.inl (sameAfter ▸ rfl))

end Steps

section Example

private def controllerConfig : BudgetConfig where
  mode := .cooperative
  roots := [{ name := "r", path := ["r"], category := .diagnostics, writers := ["c"] }]
  writerRoles := [("c", .controller)]
  ledgerPath := ["r", "ledger.json"]
  offlineBackupPaths := []
  physicalReserveBytes := physicalReserveBytes
  maxEntries := 10
  inventoryMaxAgeSeconds := 30
  bindingSha256 := ""
  categoryRules := []

private def flatPlatform : Platform where
  resolve := id
  isDirectory := fun _ => false
  isSymlink := fun _ => false
  fnmatchcase := fun _ _ => false
  scopeDigest := fun _ => "scope"
  admissionDigest := fun _ => "admission"
  encodedBytes := fun _ => 1

private def quiet : Surroundings where
  identity := fun _ => some (0, 1)
  now := 1

private def capability : String := String.ofList (List.replicate 32 'a')

private def smallAdmission : Admission where
  config := controllerConfig
  ready := true
  reasons := []
  observedMonotonic := 0
  rootIdentities := [(["r"], (0, 1))]
  chargedBytes := fun _ => 0
  projectedGrowth := fun category =>
    if category = .diagnostics then controlEnvelopeBytes + 100 else 0

private def admitted : Ledger :=
  BudgetLedger.newDocument flatPlatform smallAdmission "cycle" "{}" fun _ => capability

private def writing (consumed : ℕ) : Ledger :=
  { admitted with
    operations := [("op", {
      category := .diagnostics, maximum := 100, consumed := consumed, path := ["r", "log"]
      writerId := "c" })] }

end Example

end JobAgg.StorageBudget
