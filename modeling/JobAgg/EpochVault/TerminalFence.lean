import JobAgg.EpochVault.VaultRuns

/-! # The terminal fence

A vault that is revoked or awaits a recovery stays so in every run that goes on from there:
nothing but the evidence in its history changes, and it gives nothing out. -/

namespace JobAgg.EpochVault

open SyncQueue (Envelope)

variable {Digest : Type}

section States

variable {state next : VaultState Digest} {disk : Disk Digest}

/-- The state is fenced still, and differs in the history and the status alone. -/
structure Sealed (before after : VaultState Digest) : Prop where
  fenced : after.isFenced = true
  same : ∃ history status, after = { before with history := history, status := status }

theorem Sealed.refl (fenced : state.isFenced = true) : Sealed state state :=
  ⟨fenced, state.history, state.status, rfl⟩

theorem Sealed.trans {middle : VaultState Digest} (first : Sealed state middle)
    (second : Sealed middle next) : Sealed state next := by
  obtain ⟨firstHistory, firstStatus, rfl⟩ := first.same
  obtain ⟨history, status, rfl⟩ := second.same
  exact ⟨second.fenced, history, status, rfl⟩

theorem Sealed.withHistory (fenced : state.isFenced = true) (history : GuardedState Digest) :
    Sealed state (state.withHistory history) := by
  refine ⟨?_, history, _, rfl⟩
  rw [VaultState.isFenced, VaultState.withHistory]
  dsimp only
  split
  · rfl
  · exact fenced

theorem recovered_of_fenced (fenced : state.isFenced = true) : state.recovered = state := by
  have inactive : (state.status == .active) = false := by
    rw [beq_eq_false_iff_ne]
    intro active
    rw [VaultState.isFenced, active] at fenced
    cases fenced
  rw [VaultState.recovered, inactive, if_neg Bool.false_ne_true]

/-- The record is ahead of the activation file, and fenced if that is. -/
structure Disk.Trails (disk : Disk Digest) : Prop where
  together : disk.main = none → disk.record = none
  ahead : ∀ main record, disk.main = some main → disk.record = some record →
    main.isFenced = true → Sealed main record

/-- What counts, the record or the activation file alone, is sealed off from a state. -/
def Disk.Fenced (disk : Disk Digest) (state : VaultState Digest) : Prop :=
  disk.main.isSome = true ∧ ∃ kept, disk.record.or disk.main = some kept ∧ Sealed state kept

theorem Disk.Trails.fenced (trails : disk.Trails) (held : disk.Holds state)
    (fenced : state.isFenced = true) : disk.Fenced state := by
  cases recorded : disk.record with
  | none =>
    rcases held with main | impossible
    · exact ⟨by rw [main]; rfl, state, by rw [recorded, main]; rfl, .refl fenced⟩
    · rw [recorded] at impossible
      cases impossible
  | some record =>
    cases known : disk.main with
    | none =>
      rw [trails.together known] at recorded
      cases recorded
    | some main =>
      refine ⟨by rw [known]; rfl, record, by rw [recorded]; rfl, ?_⟩
      rcases held with here | here
      · exact trails.ahead _ _ here recorded fenced
      · rw [recorded] at here
        cases here
        exact .refl fenced

end States

/-! ## What a vault gives out -/

/-- The wrapper that a journal holds for a recipient. -/
def Journal.wrapperFor (journal : Journal Digest) (device recipient : String) :
    Except String Wrapper :=
  match journal.entry with
  | .catchUp _ _ packets _ => do
    require (recipient == device) deliveryRejected
    match packets.getLast? with
    | none => .error rotationRejected
    | some packet => return packet.wrapper
  | .rotation _ proof _ =>
    match proof.deliveries.find? (·.deviceId == recipient) with
    | none => .error rotationRejected
    | some wrapper => .ok wrapper

/-- The rotation of a journal that is not active yet. -/
def pendingProof (journal : Option (Journal Digest)) :
    Except String (Option (Rotation Digest)) :=
  match journal with
  | none => .ok none
  | some journal =>
    if journal.isActive then .ok none
    else
      match journal.entry with
      | .rotation _ proof _ => .ok (some proof)
      | .catchUp .. => .error rotationRejected

variable [DecidableEq Digest] {library : VaultLibrary Digest}

section Operations

variable (owner : Owner library)

def delivery (recipient : String) : VaultProgram Digest Wrapper := do
  let state ← loaded owner
  demand (whileActive owner state)
  match state.journal with
  | none => demand (.error deviceRevoked)
  | some journal => do
    demand (require (journal.isActive && decide (recipient ∈ state.recipients)) deviceRevoked)
    demand (journal.wrapperFor owner.context.deviceId recipient)

/-- `seal`; `encrypts` stands for the encryption with the key of the epoch, the signature,
and the check of both. -/
def sealRecord (encrypts : SealRequest → VaultState Digest → Except String Envelope)
    (request : SealRequest) : VaultProgram Digest Envelope := do
  let state ← loaded owner
  demand (whileActive owner state)
  demand (ring state.epoch state.keys)
  demand (require ((request.kind == "patch" || request.kind == "snapshot") &&
    decide (request.plaintext.length ≤ 1024 * 1024)) rotationRejected)
  demand (checked (encrypts request state))

def pendingActivation : VaultProgram Digest (Option (Rotation Digest)) := do
  let state ← loaded owner
  demand (require (!state.isFenced) recoveryPending)
  let status ← demand (historyStatus owner state)
  demand (require (status == .active) recoveryPending)
  demand (pendingProof state.journal)

def enrollmentContext : VaultProgram Digest (EnrollmentContext Digest) := do
  let state ← loaded owner
  demand (whileActive owner state)
  demand (currentContext owner state)

end Operations

variable {owner : Owner library} {call : VaultCall Digest} {state next : VaultState Digest}
  {start : Publication Digest}

/-! ## Nothing is given out -/

/-- A program that writes nothing and raises. -/
def Refuses {Result : Type} (program : VaultProgram Digest Result)
    (start : Publication Digest) : Prop :=
  (program start).later = [] ∧ ∃ reason, (program start).outcome = .error reason

/-- The operations that give something out, or prepare to, are refused. -/
structure GivesNothing (owner : Owner library) (start : Publication Digest) : Prop where
  commitment : ∀ opaqueState signingKey,
    Refuses (createCommitment owner opaqueState signingKey) start
  wrapper : ∀ recipient, Refuses (delivery owner recipient) start
  envelope : ∀ encrypts request, Refuses (sealRecord owner encrypts request) start
  activation : Refuses (pendingActivation owner) start
  enrollment : Refuses (enrollmentContext owner) start

section Refusals

variable {Value Result : Type}

omit [DecidableEq Digest] in
theorem refuses_bind {program : VaultProgram Digest Value}
    {rest : Value → VaultProgram Digest Result} (refuses : Refuses program start) :
    Refuses (program >>= rest) start := by
  obtain ⟨later, reason, outcome⟩ := refuses
  simp only [Refuses, bind, outcome, later]
  exact ⟨trivial, reason, rfl⟩

omit [DecidableEq Digest] in
theorem refuses_demand_bind {computation : Except String Value}
    {rest : Value → VaultProgram Digest Result}
    (refuses : ∀ value, computation = .ok value → Refuses (rest value) start) :
    Refuses (demand computation >>= rest) start := by
  cases looked : computation with
  | error reason => exact refuses_bind ⟨rfl, reason, rfl⟩
  | ok value => exact refuses value looked

theorem refuses_loaded_bind {rest : VaultState Digest → VaultProgram Digest Result}
    (refuses : Refuses (rest start.state) start) : Refuses (loaded owner >>= rest) start := by
  cases checks : checkState owner start.state with
  | error reason =>
    apply refuses_bind
    apply gated_loaded
    rw [checks]
    simp
  | ok done =>
    have same : (loaded owner >>= rest) start = rest start.state start := by
      simp only [loaded, demand, Durable.read, Durable.examine, bind, checks]
      rfl
    rw [Refuses, same]
    exact refuses

theorem refuses_whileActive_bind {rest : Unit → VaultProgram Digest Result}
    (fenced : start.state.isFenced = true) :
    Refuses (demand (whileActive owner start.state) >>= rest) start := by
  apply refuses_demand_bind
  intro done active
  rw [VaultState.isFenced, whileActive_eq_ok active] at fenced
  cases fenced

end Refusals

theorem givesNothing (fenced : start.state.isFenced = true) : GivesNothing owner start where
  commitment opaqueState signingKey := by
    rw [createCommitment]
    exact refuses_loaded_bind (refuses_whileActive_bind fenced)
  wrapper recipient := by
    rw [delivery]
    exact refuses_loaded_bind (refuses_whileActive_bind fenced)
  envelope encrypts request := by
    rw [sealRecord]
    exact refuses_loaded_bind (refuses_whileActive_bind fenced)
  activation := by
    rw [pendingActivation]
    apply refuses_loaded_bind
    apply refuses_demand_bind
    intro done unfenced
    rw [require_eq_ok, fenced] at unfenced
    cases unfenced
  enrollment := by
    rw [enrollmentContext]
    exact refuses_loaded_bind (refuses_whileActive_bind fenced)

/-! ## Nothing but the history changes -/

theorem unfenced_of_admitRotation {proof : Rotation Digest} {record : ActivationRecord Digest}
    {result : Verified} (admitted : admitRotation owner state proof record = .ok result) :
    state.isFenced = false := by
  rw [admitRotation, bind_eq_ok] at admitted
  obtain ⟨verified, -, admitted⟩ := admitted
  rw [require_bind_eq_ok, require_bind_eq_ok, bne_iff_ne, bne_iff_ne] at admitted
  rw [VaultState.isFenced, Bool.or_eq_false_iff, beq_eq_false_iff_ne, beq_eq_false_iff_ne]
  exact ⟨admitted.1, admitted.2.1⟩

/-- An operation on a state that is not fenced. -/
theorem Publishes.sealed (publishes : Publishes owner call state next)
    (fenced : state.isFenced = true) : Sealed state next := by
  have contrary (unfenced : state.isFenced = false) : Sealed state next := by
    rw [fenced] at unfenced
    cases unfenced
  have other (status : VaultStatus) (same : state.status = status)
      (apart : (status == .revoked || status == .recoveryPending) = false) :
      Sealed state next := by
    apply contrary
    rw [VaultState.isFenced, same, apart]
  cases publishes with
  | prepared active => exact other _ active rfl
  | begun active => exact other _ active rfl
  | accepting pending same admitted => exact contrary (unfenced_of_admitRotation admitted)
  | revoked same admitted => exact contrary (unfenced_of_admitRotation admitted)
  | rotated same admitted => exact contrary (unfenced_of_admitRotation admitted)
  | enrolled active => exact other _ active rfl
  | catchingUp unfenced => exact contrary unfenced
  | resumed pending => exact other _ pending rfl
  | alarmed unfenced => exact contrary unfenced
  | caughtUp unfenced => exact contrary unfenced
  | cleaning status =>
    rcases status with status | status
    · exact other _ status rfl
    · exact other _ status rfl
  | cleaned status =>
    rcases status with status | status
    · exact other _ status rfl
    · exact other _ status rfl
  | queued active => exact other _ active rfl
  | confirmed active => exact other _ active rfl
  | history underlies =>
    cases underlies with
    | compared => exact .withHistory fenced _
    | committed active => exact other _ active rfl
    | enrolling active => exact other _ active rfl
    | rotating same admitted => exact contrary (unfenced_of_admitRotation admitted)

/-! ## Files -/

variable {disk before after : Disk Digest}

omit [DecidableEq Digest] in
theorem Disk.trails_of_publication (publication : Publication Digest) :
    publication.disk.Trails := by
  refine ⟨by simp [Publication.disk], ?_⟩
  intro main record known recorded fenced
  have sameMain := holds_disk (.inl known)
  have sameRecord := holds_disk (.inr recorded)
  rw [sameMain] at fenced ⊢
  rw [sameRecord]
  exact .refl fenced

theorem Disk.Trails.step (trails : before.Trails) (step : VaultStep owner before call after) :
    after.Trails := by
  rcases vaultStep_cases step with rfl | writes
  · exact trails
  · cases writes with
    | created missing founded main record kept =>
      have none : after.record = none := by
        rw [← Option.not_isSome_iff_eq_none, kept, trails.together missing]
        simp
      refine ⟨fun _ => none, ?_⟩
      intro main record known recorded
      rw [none] at recorded
      cases recorded
    | recovered known renewed main =>
      constructor
      · intro missing
        rcases main with same | present
        · rw [same] at missing
          rw [trails.together missing] at known
          cases known
        · rw [present] at missing
          cases missing
      · intro held record here recorded fenced
        rw [renewed] at recorded
        cases recorded
        rcases main with same | present
        · rw [same] at here
          have isSealed := trails.ahead _ _ here known fenced
          rwa [recovered_of_fenced isSealed.fenced]
        · rw [present] at here
          cases here
          exact .refl fenced
    | published read checks listed => exact Disk.trails_of_publication _
    | torn read checks listed outside follows =>
      refine ⟨by simp, ?_⟩
      intro main record known recorded fenced
      cases known
      cases recorded
      rcases outside with same | unfenced
      · rw [same] at fenced ⊢
        exact follows.sealed fenced
      · rw [unfenced] at fenced
        cases fenced

theorem Disk.fenced_of_read {publication : Publication Digest}
    (read : disk.read = .ok publication) :
    disk.Fenced state ↔ Sealed state publication.state := by
  rw [← disk_of_read read, Disk.Fenced, Publication.disk]
  cases publication.recorded with
  | false => simp
  | true => simp

omit [DecidableEq Digest] in
theorem Disk.fenced_of_publication {publication : Publication Digest}
    (isSealed : Sealed state publication.state) : publication.disk.Fenced state := by
  rw [Disk.Fenced, Publication.disk]
  cases publication.recorded with
  | false => simpa using isSealed
  | true => simpa using isSealed

theorem Disk.Fenced.step (fenced : before.Fenced state)
    (step : VaultStep owner before call after) : after.Fenced state := by
  rcases vaultStep_cases step with rfl | writes
  · exact fenced
  · cases writes with
    | created missing =>
      obtain ⟨present, -⟩ := fenced
      rw [missing] at present
      cases present
    | recovered known renewed main =>
      obtain ⟨present, kept, counts, isSealed⟩ := fenced
      rw [known, Option.some_or] at counts
      cases counts
      refine ⟨?_, _, by rw [renewed, Option.some_or], ?_⟩
      · rcases main with same | same
        · rwa [same]
        · rw [same]
          rfl
      · rwa [recovered_of_fenced isSealed.fenced]
    | published read checks listed =>
      rw [Disk.fenced_of_read read] at fenced
      apply Disk.fenced_of_publication
      rcases listed with same | publishes
      · rwa [same]
      · exact fenced.trans (publishes.sealed fenced.fenced)
    | torn read checks listed outside follows =>
      rw [Disk.fenced_of_read read] at fenced
      exact ⟨rfl, _, rfl, fenced.trans (follows.sealed fenced.fenced)⟩

/-- Once a persisted state is revoked or awaits a recovery, whatever can be read later in
any run of calls, stops and recoveries is so too, differs from it in the history and the
status alone, and gives nothing out. -/
theorem terminal_fence {earlier later : List (VaultCall Digest)} {reached last : Disk Digest}
    (reaches : Run (VaultStep owner) ⟨none, none⟩ earlier reached) (held : reached.Holds state)
    (fenced : state.isFenced = true) (continues : Run (VaultStep owner) reached later last)
    {publication : Publication Digest} (read : last.read = .ok publication) :
    Sealed state publication.state ∧ GivesNothing owner publication := by
  have trails : reached.Trails := by
    apply reaches.invariant Disk.Trails
    · exact fun before call after step trails => trails.step step
    · exact ⟨fun _ => rfl, by simp⟩
  have isFenced : last.Fenced state := by
    apply continues.invariant (Disk.Fenced · state)
    · exact fun before call after step fenced => fenced.step step
    · exact trails.fenced held fenced
  have isSealed := (Disk.fenced_of_read read).mp isFenced
  exact ⟨isSealed, givesNothing isSealed.fenced⟩

/-- The files after calls that nothing stops. -/
def Disk.performs (owner : Owner library) (calls : List (VaultCall Digest))
    (disk : Disk Digest) : Disk Digest :=
  calls.foldl (fun disk call => (call.perform owner).final disk) disk

theorem run_performs (calls : List (VaultCall Digest)) :
    Run (VaultStep owner) disk calls (disk.performs owner calls) := by
  induction calls generalizing disk with
  | nil => exact .nil disk
  | cons call rest induction =>
    have step : VaultStep owner disk call ((call.perform owner).final disk) :=
      ⟨_, List.prefix_rfl, rfl⟩
    exact .cons step induction

def plainCompared : List (VaultCall Mark) := [.initializeVault plainFounding, .compareEvidence []]

theorem plainCompared_evaluated :
    (((⟨none, none⟩ : Disk Mark).performs plainOwner plainCompared).main.any
      VaultState.isFenced &&
    (((⟨none, none⟩ : Disk Mark).performs plainOwner plainCompared).performs plainOwner
      [.recoverPublication]).read.toOption.isSome) = true := by
  decide +kernel

/-- A vault that a peer shows no view to awaits a recovery, and does so still when its
publication was to be recovered. -/
theorem terminal_fence_compared : ∃ (state : VaultState Mark) (publication : Publication Mark),
    state.isFenced = true ∧ Sealed state publication.state ∧
      GivesNothing plainOwner publication := by
  have evaluated := plainCompared_evaluated
  rw [Bool.and_eq_true, Option.any_eq_true] at evaluated
  obtain ⟨⟨state, main, fenced⟩, readable⟩ := evaluated
  cases read : (((⟨none, none⟩ : Disk Mark).performs plainOwner plainCompared).performs
      plainOwner [.recoverPublication]).read with
  | error reason =>
    rw [read] at readable
    cases readable
  | ok publication =>
    refine ⟨state, publication, fenced, ?_⟩
    exact terminal_fence (run_performs plainCompared) (.inl main) fenced
      (run_performs [.recoverPublication]) read

end JobAgg.EpochVault
