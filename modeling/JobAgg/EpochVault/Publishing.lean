import JobAgg.EpochVault.HistoryFence
import JobAgg.EpochVault.VaultFiles

/-! # What a vault publishes

Every state that an operation of a vault publishes is listed by `Publishes`, with the
checks that it has passed; the invariants of a vault are read off this list. -/

namespace JobAgg.EpochVault

open SyncQueue (Operation)

variable {Digest : Type}

/-- `REVOKED` or `RECOVERY_PENDING` -/
def VaultState.isFenced (state : VaultState Digest) : Bool :=
  state.status == .revoked || state.status == .recoveryPending

variable [DecidableEq Digest] {library : VaultLibrary Digest}

/-- An operation writes the history over this state: the one that was loaded, or that of
an accepted rotation. -/
inductive Underlies (owner : Owner library) (state : VaultState Digest) :
    VaultCall Digest → VaultState Digest → Prop
  | compared {peer : List (View Digest)} : Underlies owner state (.compareEvidence peer) state
  | committed {opaqueState : Bytes} {signingKey : String} (active : state.status = .active)
      (journal : state.journal.any Journal.isActive = true) :
      Underlies owner state (.createCommitment opaqueState signingKey) state
  | enrolling {proof : Enrollment Digest} {transcript : Digest} (active : state.status = .active) :
      Underlies owner state (.acceptEnrollment proof transcript) state
  | rotating {proof : Rotation Digest} {record : ActivationRecord Digest} {privateKey : String}
      {result : Verified} (same : record.proof = proof)
      (admitted : admitRotation owner state proof record = .ok result) :
      Underlies owner state (.acceptRotation proof record privateKey)
        (state.accepting .backendAccepted proof record)

/-- `Publishes owner call state next`: from `state`, the call may publish `next`. -/
inductive Publishes (owner : Owner library) :
    VaultCall Digest → VaultState Digest → VaultState Digest → Prop
  | prepared {call : VaultCall Digest} {state : VaultState Digest} {proof : Rotation Digest}
      {result : Verified} (active : state.status = .active)
      (verified : verifyProof owner proof state = .ok result) :
      Publishes owner call state
        { state with journal := some ⟨.rotation .prepared proof none, none⟩ }
  | begun {call : VaultCall Digest} {state : VaultState Digest} {proof : Rotation Digest}
      {result : Verified} (active : state.status = .active)
      (verified : verifyProof owner proof state = .ok result) :
      Publishes owner call state { state with
        status := .activationPending
        journal := some ⟨.rotation .backendSubmitted proof none, none⟩ }
  | accepting {call : VaultCall Digest} {state : VaultState Digest} {proof : Rotation Digest}
      {record : ActivationRecord Digest} {result : Verified} {phase : Phase}
      (pending : phase ≠ .active) (same : record.proof = proof)
      (admitted : admitRotation owner state proof record = .ok result) :
      Publishes owner call state (state.accepting phase proof record)
  | revoked {call : VaultCall Digest} {state : VaultState Digest} {proof : Rotation Digest}
      {record : ActivationRecord Digest} {result : Verified} (same : record.proof = proof)
      (admitted : admitRotation owner state proof record = .ok result) :
      Publishes owner call state
        { state.accepting .backendAccepted proof record with status := .revoked }
  | rotated {call : VaultCall Digest} {state : VaultState Digest} {proof : Rotation Digest}
      {record : ActivationRecord Digest} {result : Verified} {guard : Guard Digest}
      {history : GuardedState Digest} {opened : Nat × String} (same : record.proof = proof)
      (admitted : admitRotation owner state proof record = .ok result)
      (guarded : owner.guard state.history = .ok guard)
      (extended : staged library.toHistoryLibrary guard state.history (.rotation proof) =
        .ok history)
      (ringed : ring result.newEpoch (state.keys.insert opened.1 opened.2) = .ok ()) :
      Publishes owner call state
        ((state.accepting .backendAccepted proof record).rotated proof record result history
          opened)
  | enrolled {state : VaultState Digest} {proof : Enrollment Digest} {transcript : Digest}
      {context : EnrollmentContext Digest} {registry : Registry} {guard : Guard Digest}
      {history : GuardedState Digest} (active : state.status = .active)
      (known : currentContext owner state = .ok context)
      (verified : verifyEnrollment library.toRotationLibrary proof state.registry context
        transcript = .ok registry)
      (guarded : owner.guard state.history = .ok guard)
      (extended : staged library.toHistoryLibrary guard state.history (.enrollment proof) =
        .ok history) :
      Publishes owner (.acceptEnrollment proof transcript) state { state with
        history := history
        registry := registry
        recipients := activeDevices registry
        generation := state.generation + 1 }
  | catchingUp {call : VaultCall Digest} {state : VaultState Digest} {activationId : Digest}
      (fenced : state.isFenced = false) :
      Publishes owner call state (state.catchingUp activationId)
  | resumed {call : VaultCall Digest} {state : VaultState Digest} {activationId : Digest}
      {packets : List (Packet Digest)} {updates : List (HistoryUpdate Digest)}
      (pending : state.status = .catchUpPending)
      (journal : caughtUpWith state.journal activationId = some (packets, updates)) :
      Publishes owner call state { state with status := .active }
  | alarmed {call : VaultCall Digest} {state : VaultState Digest} {activationId : Digest}
      {cases : List (Case Digest)} (fenced : state.isFenced = false) :
      Publishes owner call state ((state.catchingUp activationId).alarmed cases)
  | caughtUp {call : CatchUpCall Digest} {state : VaultState Digest} {work : CatchUp Digest}
      (fenced : state.isFenced = false)
      (worked : catchUpWork owner call (state.catchingUp call.activationId) = .ok work) :
      Publishes owner (.catchUp call) state
        ((state.catchingUp call.activationId).caughtUp call work)
  | cleaning {call : VaultCall Digest} {state : VaultState Digest} {journal : Journal Digest}
      {retain : Finset Nat} (status : state.status = .active ∨ state.status = .cleanupPending)
      (known : state.journal = some journal) :
      Publishes owner call state (state.cleaning journal retain)
  | cleaned {call : VaultCall Digest} {state : VaultState Digest} {journal : Journal Digest}
      {retain : Finset Nat} {deletes : Nat → Bool} {keys : Dict Nat String}
      (status : state.status = .active ∨ state.status = .cleanupPending)
      (known : state.journal = some journal) (current : state.epoch ∈ retain)
      (inside : retain ⊆ state.keys.keys)
      (needed : ∀ operation ∈ state.outbox, operation.envelope.keyEpoch ∈ retain)
      (deleted : deleteEpochs deletes ((state.keys.keys \ retain).sort (· ≤ ·)) state.keys =
        .ok keys) :
      Publishes owner call state
        { state.cleaning journal retain with keys := keys, status := .active }
  | queued {call : VaultCall Digest} {state : VaultState Digest} {operation : Operation}
      (active : state.status = .active) (current : operation.envelope.keyEpoch = state.epoch) :
      Publishes owner call state
        { state with outbox := orderBy Operation.orderKey (state.outbox ++ [operation]) }
  | confirmed {call : VaultCall Digest} {state : VaultState Digest} {operationId : String}
      (active : state.status = .active) :
      Publishes owner call state
        { state with outbox := state.outbox.filter (·.operationId != operationId) }
  | history {call : VaultCall Digest} {state base : VaultState Digest} {guard : Guard Digest}
      {write : Call Digest} {next : GuardedState Digest} (underlies : Underlies owner state call base)
      (guarded : owner.guard base.history = .ok guard)
      (writes : Writes library.toHistoryLibrary guard write base.history next)
      (bridges : next.bridges = base.history.bridges)
      (views : next.views = base.history.views ∨ base.journal.any Journal.isActive = true) :
      Publishes owner call state (base.withHistory next)

/-- Two publications of one operation that follow each other: nothing but the recovery
record is added, or a state is published, over the loaded one or over one outside the
fence. -/
def PublishesNext (owner : Owner library) (call : VaultCall Digest) (state : VaultState Digest)
    (before after : Publication Digest) : Prop :=
  after.state = before.state ∨
    Publishes owner call state after.state ∧
      (before.state = state ∨ before.state.isFenced = false)

def Lawful {Result : Type} (owner : Owner library) (call : VaultCall Digest)
    (state : VaultState Digest) (program : VaultProgram Digest Result)
    (start : Publication Digest) : Prop :=
  Durable.Meets program start (PublishesNext owner call state) (fun _ _ => True) (fun _ _ => True)

variable {owner : Owner library} {call : VaultCall Digest} {state : VaultState Digest}
  {start : Publication Digest}

section Rules

variable {Value Result : Type}

omit [DecidableEq Digest] in
theorem loadOutbox_eq_ok {queues : SyncQueue.Library Digest} {operations found : List Operation}
    (read : loadOutbox queues operations = .ok found) : found = operations := by
  rw [loadOutbox, require_bind_eq_ok, require_bind_eq_ok, require_bind_eq_ok, pure_eq_ok] at read
  exact read.2.2.2.symm

theorem meets_loaded {allows : Publication Digest → Publication Digest → Prop}
    {returns : VaultState Digest → Publication Digest → Prop}
    (returned : checkState owner start.state = .ok () → returns start.state start) :
    Durable.Meets (loaded owner) start allows returns fun _ _ => True := by
  rw [loaded]
  apply Durable.Meets.bind
  apply Durable.Meets.read
  apply Durable.Meets.bind
  apply Durable.Meets.examine
  · intro done checks
    exact .pure (returned checks)
  · exact fun _ _ => trivial

theorem meets_pending {allows : Publication Digest → Publication Digest → Prop}
    {returns : List Operation → Publication Digest → Prop}
    (returned : returns start.state.outbox start) :
    Durable.Meets (pendingOperations owner) start allows returns fun _ _ => True := by
  rw [pendingOperations]
  apply Durable.Meets.bind
  apply meets_loaded
  intro checks
  apply Durable.Meets.examine
  · intro operations read
    rw [checked_eq_ok] at read
    rw [loadOutbox_eq_ok read]
    exact returned
  · exact fun _ _ => trivial

theorem lawful_pure {result : Result} :
    Lawful owner call state (pure result : VaultProgram Digest Result) start :=
  .pure trivial

theorem lawful_demand {computation : Except String Result} :
    Lawful owner call state (demand computation : VaultProgram Digest Result) start :=
  .examine (fun _ _ => trivial) fun _ _ => trivial

theorem lawful_demand_bind {computation : Except String Value}
    {next : Value → VaultProgram Digest Result}
    (rest : ∀ value, computation = .ok value → Lawful owner call state (next value) start) :
    Lawful owner call state (demand computation >>= next) start :=
  .bind (.examine rest fun _ _ => trivial)

theorem lawful_loaded_bind {next : VaultState Digest → VaultProgram Digest Result}
    (rest : checkState owner start.state = .ok () →
      Lawful owner call state (next start.state) start) :
    Lawful owner call state (loaded owner >>= next) start :=
  .bind (meets_loaded rest)

theorem lawful_pending_bind {next : List Operation → VaultProgram Digest Result}
    (rest : Lawful owner call state (next start.state.outbox) start) :
    Lawful owner call state (pendingOperations owner >>= next) start :=
  .bind (meets_pending rest)

theorem lawful_publish {next : VaultState Digest}
    (allowed : Publishes owner call state next ∧
      (start.state = state ∨ start.state.isFenced = false)) :
    Lawful owner call state (publish next) start :=
  .write (.inr allowed) trivial

theorem lawful_publish_bind {next : VaultState Digest} {rest : Unit → VaultProgram Digest Result}
    (allowed : Publishes owner call state next ∧
      (start.state = state ∨ start.state.isFenced = false))
    (later : Lawful owner call state (rest ()) { start with state := next }) :
    Lawful owner call state (publish next >>= rest) start := by
  apply Durable.Meets.bind
  exact .write (.inr allowed) later

theorem lawful_enable_bind {rest : Unit → VaultProgram Digest Result}
    (later : Lawful owner call state (rest ()) { start with recorded := true }) :
    Lawful owner call state (enable >>= rest) start := by
  apply Durable.Meets.bind
  rw [enable]
  apply Durable.Meets.bind
  apply Durable.Meets.read
  cases recorded : start.recorded with
  | true =>
    have same : start = { start with recorded := true } := by
      rw [← recorded]
    rw [if_pos rfl]
    apply Durable.Meets.pure
    rwa [same]
  | false =>
    rw [if_neg Bool.false_ne_true]
    exact .write (.inl rfl) later

theorem lawful_silently {program : VaultProgram Digest Result}
    (lawful : Lawful owner call state program start) :
    Lawful owner call state (silently program) start := by
  apply Durable.Meets.bind
  apply lawful.mono
  · exact fun _ _ allowed => allowed
  · exact fun _ _ _ => .pure trivial
  · exact fun _ _ _ => trivial

end Rules

theorem whileActive_eq_ok {done : Unit} (active : whileActive owner state = .ok done) :
    state.status = .active := by
  rw [whileActive, require_bind_eq_ok, require_bind_eq_ok, require_bind_eq_ok,
    require_bind_eq_ok, require_bind_eq_ok] at active
  exact beq_iff_eq.mp active.2.2.2.2.1

theorem lawful_queueOperation {operation : Operation} :
    Lawful owner call start.state (queueOperation owner operation) start := by
  rw [queueOperation]
  apply lawful_loaded_bind
  intro checks
  apply lawful_demand_bind
  intro done active
  apply lawful_demand_bind
  intro done valid
  apply lawful_demand_bind
  intro done current
  rw [require_eq_ok, Bool.and_eq_true, beq_iff_eq] at current
  apply lawful_pending_bind
  split
  · exact lawful_demand
  · apply lawful_demand_bind
    intro done room
    rw [writeOutbox]
    apply lawful_loaded_bind
    intro checks
    exact lawful_publish ⟨.queued (whileActive_eq_ok active) current.1, .inl rfl⟩

theorem lawful_confirmRemoteAcceptance {operationId : String} :
    Lawful owner call start.state (confirmRemoteAcceptance owner operationId) start := by
  rw [confirmRemoteAcceptance]
  apply lawful_loaded_bind
  intro checks
  apply lawful_demand_bind
  intro done active
  apply lawful_demand_bind
  intro done valid
  apply lawful_pending_bind
  apply lawful_demand_bind
  intro done known
  rw [writeOutbox]
  apply lawful_loaded_bind
  intro checks
  exact lawful_publish ⟨.confirmed (whileActive_eq_ok active), .inl rfl⟩

theorem lawful_writeHistory_bind {Result : Type} {next : GuardedState Digest}
    {guard : Guard Digest} {write : Call Digest} {rest : Unit → VaultProgram Digest Result}
    (underlies : Underlies owner state call start.state)
    (open_ : start.state = state ∨ start.state.isFenced = false)
    (guarded : owner.guard start.state.history = .ok guard)
    (writes : Writes library.toHistoryLibrary guard write start.state.history next)
    (bridges : next.bridges = start.state.history.bridges)
    (views : next.views = start.state.history.views ∨
      start.state.journal.any Journal.isActive = true)
    (later : Lawful owner call state (rest ()) { start with state := start.state.withHistory next }) :
    Lawful owner call state (writeHistory owner next >>= rest) start := by
  apply Durable.Meets.bind
  rw [writeHistory]
  apply Durable.Meets.bind
  apply meets_loaded
  intro checks
  exact .write (.inr ⟨.history underlies guarded writes bridges views, open_⟩) later

theorem lawful_stageHistory_bind {Result : Type} {bridge : Bridge Digest}
    {next : GuardedState Digest → VaultProgram Digest Result}
    (underlies : Underlies owner state call start.state)
    (open_ : start.state = state ∨ start.state.isFenced = false)
    (rest : ∀ guard history, owner.guard start.state.history = .ok guard →
      staged library.toHistoryLibrary guard start.state.history bridge = .ok history →
      Lawful owner call state (next history) start) :
    Lawful owner call state (stageHistory owner bridge >>= next) start := by
  apply Durable.Meets.bind
  rw [stageHistory]
  apply Durable.Meets.bind
  apply meets_loaded
  intro checks
  apply Durable.Meets.bind
  apply Durable.Meets.examine
  · intro guard guarded
    dsimp only
    rcases stageEpoch_cases library.toHistoryLibrary guard bridge start.state.history with
      ⟨history, extended, same⟩ | ⟨reason, answer, written⟩
    · rw [same]
      exact .pure (rest guard history guarded extended)
    · rw [answer]
      cases capped : (stageEpoch library.toHistoryLibrary guard bridge
          start.state.history).written with
      | none => exact .examine (fun _ impossible => by cases impossible) fun _ _ => trivial
      | some history =>
        obtain ⟨rfl, writes⟩ := written history capped
        apply Durable.Meets.bind
        rw [writeHistory]
        apply Durable.Meets.bind
        apply meets_loaded
        intro checks
        apply Durable.Meets.write
        · exact .inr ⟨.history underlies guarded writes rfl (.inl rfl), open_⟩
        · exact .examine (fun _ impossible => by cases impossible) fun _ _ => trivial
  · exact fun _ _ => trivial

theorem lawful_onHistory {Answer : Type} {write : Call Digest}
    {operation : Guard Digest → GuardedState Digest → Effect (GuardedState Digest) Answer}
    (underlies : Underlies owner start.state call start.state)
    (written : ∀ guard next,
      (operation guard start.state.history).written = some next →
        Writes library.toHistoryLibrary guard write start.state.history next ∧
          next.bridges = start.state.history.bridges ∧
          (next.views = start.state.history.views ∨
            start.state.journal.any Journal.isActive = true)) :
    Lawful owner call start.state (onHistory owner operation) start := by
  rw [onHistory]
  apply lawful_loaded_bind
  intro checks
  apply lawful_demand_bind
  intro guard guarded
  dsimp only
  cases writing : (operation guard start.state.history).written with
  | none => exact lawful_demand
  | some next =>
    obtain ⟨writes, bridges, views⟩ := written guard next writing
    exact lawful_writeHistory_bind underlies (.inl rfl) guarded writes bridges views lawful_demand

theorem Writes.bridges {history : HistoryLibrary Digest} {guard : Guard Digest}
    {write : Call Digest} {before next : GuardedState Digest}
    (writes : Writes history guard write before next)
    (unstaged : ∀ bridge, write ≠ .stageEpoch bridge) : next.bridges = before.bridges := by
  cases writes with
  | accepted active room admitted =>
    obtain ⟨records, -, rfl⟩ := (admit_spec admitted).added
    rfl
  | staged active extended => exact absurd rfl (unstaged _)
  | _ => rfl

theorem lawful_compareVaultEvidence {peer : List (View Digest)} :
    Lawful owner (.compareEvidence peer) start.state (compareVaultEvidence owner peer) start := by
  rw [compareVaultEvidence]
  apply @lawful_onHistory _ _ _ _ _ _ _ (.compareEvidence peer) _ .compared
  intro guard next written
  have writes : Writes library.toHistoryLibrary guard (.compareEvidence peer) start.state.history
      next := (@writes_of_written _ _ _ _ _ _ (.compareEvidence peer) written).2
  refine ⟨writes, writes.bridges (fun bridge => nofun), .inl ?_⟩
  cases writes with
  | capped active => rfl
  | alarmed active room => rfl

theorem meets_prepareRotation {proof : Rotation Digest}
    {returns : Unit → Publication Digest → Prop}
    (returned : ∀ result, start.state.status = .active →
      verifyProof owner proof start.state = .ok result → returns () { start with
        state := { start.state with journal := some ⟨.rotation .prepared proof none, none⟩ } }) :
    Durable.Meets (prepareRotation owner proof) start (PublishesNext owner call start.state) returns
      fun _ _ => True := by
  rw [prepareRotation]
  apply Durable.Meets.bind
  apply meets_loaded
  intro checks
  apply Durable.Meets.bind
  apply Durable.Meets.examine _ fun _ _ => trivial
  intro done active
  apply Durable.Meets.bind
  apply meets_pending
  apply Durable.Meets.bind
  apply Durable.Meets.examine _ fun _ _ => trivial
  intro done empty
  apply Durable.Meets.bind
  apply Durable.Meets.examine _ fun _ _ => trivial
  intro result verified
  apply Durable.Meets.bind
  apply Durable.Meets.examine _ fun _ _ => trivial
  intro cursor found
  apply Durable.Meets.bind
  apply Durable.Meets.examine _ fun _ _ => trivial
  intro done here
  apply Durable.Meets.bind
  apply Durable.Meets.examine _ fun _ _ => trivial
  intro done free
  have isActive := whileActive_eq_ok active
  exact .write (.inr ⟨.prepared isActive verified, .inl rfl⟩) (returned result isActive verified)

theorem lawful_prepareRotation {proof : Rotation Digest} :
    Lawful owner call start.state (prepareRotation owner proof) start :=
  meets_prepareRotation fun _ _ _ => trivial

theorem lawful_beginActivation {proof : Rotation Digest} :
    Lawful owner call start.state (beginActivation owner proof) start := by
  rw [beginActivation]
  apply Durable.Meets.bind
  apply meets_prepareRotation
  intro result active verified
  apply lawful_loaded_bind
  intro checks
  dsimp only
  refine lawful_publish ⟨.begun active verified, .inr ?_⟩
  rw [VaultState.isFenced]
  dsimp only
  rw [active]
  rfl

theorem lawful_acceptRotation {proof : Rotation Digest} {record : ActivationRecord Digest}
    {privateKey : String} :
    Lawful owner (.acceptRotation proof record privateKey) start.state
      (acceptRotation owner proof record privateKey) start := by
  rw [acceptRotation]
  apply lawful_loaded_bind
  intro checks
  apply lawful_demand_bind
  intro done same
  rw [require_eq_ok, beq_iff_eq] at same
  cases known : recordOf start.state.journal proof with
  | some accepted =>
    apply lawful_demand_bind
    intro done agreed
    exact lawful_pure
  | none =>
    apply lawful_demand_bind
    intro result admitted
    apply lawful_publish_bind ⟨.accepting (by decide) same admitted, .inl rfl⟩
    split
    · apply lawful_demand_bind
      intro wrapper delivered
      apply lawful_demand_bind
      intro opened sealed_
      apply lawful_stageHistory_bind (.rotating same admitted) (.inr rfl)
      intro guard history guarded extended
      apply lawful_demand_bind
      intro done ringed
      apply lawful_publish_bind ⟨.accepting (by decide) same admitted, .inr rfl⟩
      apply lawful_publish_bind _ lawful_pure
      exact ⟨.rotated same admitted guarded extended ringed, .inr rfl⟩
    · apply lawful_publish_bind ⟨.revoked same admitted, .inr rfl⟩ lawful_demand

theorem lawful_acceptEnrollment {proof : Enrollment Digest} {transcript : Digest} :
    Lawful owner (.acceptEnrollment proof transcript) start.state
      (acceptEnrollment owner proof transcript) start := by
  rw [acceptEnrollment]
  apply lawful_loaded_bind
  intro checks
  apply lawful_demand_bind
  intro done active
  apply lawful_demand_bind
  intro records bounded
  cases known : priorEnrollment records proof.root with
  | some prior =>
    apply lawful_demand_bind
    intro done agreed
    exact lawful_pure
  | none =>
    apply lawful_demand_bind
    intro context found
    apply lawful_demand_bind
    intro registry verified
    rw [checked_eq_ok] at verified
    have isActive := whileActive_eq_ok active
    apply lawful_stageHistory_bind (.enrolling isActive) (.inl rfl)
    intro guard history guarded extended
    apply lawful_publish_bind _ lawful_pure
    exact ⟨.enrolled isActive found verified guarded extended, .inl rfl⟩

theorem lawful_catchUp {arguments : CatchUpCall Digest} :
    Lawful owner (.catchUp arguments) start.state (catchUp owner arguments) start := by
  rw [catchUp]
  apply lawful_loaded_bind
  intro checks
  apply lawful_demand_bind
  intro done status
  rw [require_eq_ok, Bool.and_eq_true, Bool.and_eq_true, bne_iff_ne, bne_iff_ne] at status
  have unfenced : start.state.isFenced = false := by
    rw [VaultState.isFenced, Bool.or_eq_false_iff, beq_eq_false_iff_ne, beq_eq_false_iff_ne]
    exact status.1
  apply lawful_demand_bind
  intro found history
  apply lawful_demand_bind
  intro done active
  cases known : caughtUpWith start.state.journal arguments.activationId with
  | some accepted =>
    apply lawful_demand_bind
    intro done agreed
    split
    · rename_i pending
      rw [beq_iff_eq] at pending
      exact lawful_publish_bind ⟨.resumed pending known, .inl rfl⟩ lawful_pure
    · exact lawful_pure
  | none =>
    apply lawful_enable_bind
    apply lawful_publish_bind
    · exact ⟨.catchingUp unfenced, .inl rfl⟩
    cases worked : catchUpWork owner arguments
        (start.state.catchingUp arguments.activationId) with
    | ok work => exact lawful_publish_bind ⟨.caughtUp unfenced worked, .inr rfl⟩ lawful_pure
    | error failure =>
      obtain ⟨reason, raised⟩ := failure
      cases raised with
      | none => exact lawful_demand
      | some history =>
        apply lawful_publish_bind _ lawful_demand
        exact ⟨.alarmed unfenced, .inr rfl⟩

theorem lawful_cleanupEpochs {retain : Finset Nat} {deletes : Nat → Bool} :
    Lawful owner call start.state (cleanupEpochs owner retain deletes) start := by
  rw [cleanupEpochs]
  apply lawful_loaded_bind
  intro checks
  apply lawful_demand_bind
  intro done status
  rw [require_eq_ok, Bool.or_eq_true, beq_iff_eq, beq_iff_eq] at status
  apply lawful_demand_bind
  intro found history
  apply lawful_demand_bind
  intro done active
  apply lawful_demand_bind
  intro done current
  rw [require_eq_ok, decide_eq_true_eq] at current
  apply lawful_demand_bind
  intro done inside
  rw [require_eq_ok, decide_eq_true_eq] at inside
  apply lawful_pending_bind
  apply lawful_demand_bind
  intro inbox read
  apply lawful_demand_bind
  intro done needed
  rw [require_eq_ok, List.all_append, Bool.and_eq_true, List.all_eq_true] at needed
  cases known : start.state.journal with
  | none => exact lawful_demand
  | some journal =>
    apply lawful_demand_bind
    intro done agreed
    apply lawful_enable_bind
    apply lawful_publish_bind
    · exact ⟨.cleaning status known, .inl rfl⟩
    apply lawful_demand_bind
    intro keys deleted
    apply lawful_publish
    refine ⟨.cleaned status known current inside ?_ deleted, .inr rfl⟩
    intro operation member
    exact of_decide_eq_true (needed.1 operation member)

theorem lawful_createCommitment {opaqueState : Bytes} {signingKey : String} :
    Lawful owner (.createCommitment opaqueState signingKey) start.state
      (createCommitment owner opaqueState signingKey) start := by
  rw [createCommitment]
  apply lawful_loaded_bind
  intro checks
  apply lawful_demand_bind
  intro done active
  apply lawful_demand_bind
  intro done journal
  rw [require_eq_ok] at journal
  cases last : start.state.history.views.getLast? with
  | none => exact lawful_demand
  | some prior =>
    apply lawful_demand_bind
    intro commitment signed
    apply lawful_demand_bind
    intro view continued
    have lawful : Lawful owner (.createCommitment opaqueState signingKey) start.state
        (onHistory owner fun guard => ingest library.toHistoryLibrary guard view
          (.devices start.state.registry) commitment opaqueState) start := by
      apply @lawful_onHistory _ _ _ _ _ _ _
        (.ingest view (.devices start.state.registry) commitment opaqueState) _
        (.committed (whileActive_eq_ok active) journal)
      intro guard next written
      have writes := (@writes_of_written _ _ _ _ _ _
        (.ingest view (.devices start.state.registry) commitment opaqueState) written).2
      exact ⟨writes, writes.bridges (fun bridge => nofun), .inr journal⟩
    apply Durable.Meets.bind
    apply lawful.mono
    · exact fun _ _ allowed => allowed
    · exact fun _ _ _ => .pure trivial
    · exact fun _ _ _ => trivial

theorem lawful_program : Lawful owner call start.state (call.program owner) start := by
  cases call with
  | prepareRotation proof => exact lawful_prepareRotation
  | beginActivation proof => exact lawful_beginActivation
  | acceptRotation proof record privateKey => exact lawful_silently lawful_acceptRotation
  | acceptEnrollment proof transcript => exact lawful_silently lawful_acceptEnrollment
  | catchUp arguments => exact lawful_silently lawful_catchUp
  | cleanupEpochs retain deletes => exact lawful_cleanupEpochs
  | queueOperation operation => exact lawful_queueOperation
  | confirmRemoteAcceptance operationId => exact lawful_confirmRemoteAcceptance
  | compareEvidence peer => exact lawful_silently lawful_compareVaultEvidence
  | createCommitment opaqueState signingKey => exact lawful_silently lawful_createCommitment
  | initializeVault founding => exact lawful_pure
  | recoverPublication => exact lawful_pure

end JobAgg.EpochVault
