import JobAgg.EpochVault.Publishing

/-! # Runs of a vault

A step is a call, carried out or stopped between two replacements of a file. What it leaves
on the files is listed by `VaultWrites`, and an invariant of the publications is one of
every state on the files. -/

namespace JobAgg.EpochVault

variable {Digest : Type} [DecidableEq Digest] {library : VaultLibrary Digest}
  {owner : Owner library} {call : VaultCall Digest} {state : VaultState Digest}
  {start : Publication Digest}

/-- A program that reads a state which does not load leaves nothing and raises. -/
def Gated {Result : Type} (owner : Owner library) (program : VaultProgram Digest Result)
    (start : Publication Digest) : Prop :=
  ¬ checkState owner start.state = .ok () →
    (program start).later = [] ∧ ∃ reason, (program start).outcome = .error reason

theorem gated_bind {Value Result : Type} {program : VaultProgram Digest Value}
    {next : Value → VaultProgram Digest Result} (gated : Gated owner program start) :
    Gated owner (program >>= next) start := by
  intro refused
  obtain ⟨later, reason, outcome⟩ := gated refused
  simp only [bind, outcome, later]
  exact ⟨trivial, reason, rfl⟩

theorem gated_loaded : Gated owner (loaded owner) start := by
  intro refused
  cases checks : checkState owner start.state with
  | ok done => exact absurd checks refused
  | error reason =>
    have outcome : loaded owner start = ⟨[], .error reason⟩ := by
      simp only [loaded, demand, Durable.read, Durable.examine, bind, checks]
      rfl
    rw [outcome]
    exact ⟨rfl, reason, rfl⟩

theorem gated_program : Gated owner (call.program owner) start ∨
    (call.program owner start).later = [] := by
  cases call with
  | initializeVault founding => exact .inr rfl
  | recoverPublication => exact .inr rfl
  | prepareRotation proof => exact .inl (gated_bind gated_loaded)
  | beginActivation proof => exact .inl (gated_bind (gated_bind gated_loaded))
  | acceptRotation proof record privateKey => exact .inl (gated_bind (gated_bind gated_loaded))
  | acceptEnrollment proof transcript => exact .inl (gated_bind (gated_bind gated_loaded))
  | catchUp arguments => exact .inl (gated_bind (gated_bind gated_loaded))
  | cleanupEpochs retain deletes => exact .inl (gated_bind gated_loaded)
  | queueOperation operation => exact .inl (gated_bind gated_loaded)
  | confirmRemoteAcceptance operationId => exact .inl (gated_bind gated_loaded)
  | compareEvidence peer => exact .inl (gated_bind (gated_bind gated_loaded))
  | createCommitment opaqueState signingKey => exact .inl (gated_bind (gated_bind gated_loaded))

/-! ## Files -/

/-- What a step leaves on the files. -/
inductive VaultWrites (owner : Owner library) :
    Disk Digest → VaultCall Digest → Disk Digest → Prop
  | created {before : Disk Digest} {founding : Founding Digest} {state : VaultState Digest}
      {after : Disk Digest} (missing : before.main = none)
      (founded : foundingState owner founding = .ok state)
      (main : after.main = none ∨ after.main = some state)
      (record : after.record = none ∨ after.record = some state)
      (kept : after.record.isSome = before.record.isSome) :
      VaultWrites owner before (.initializeVault founding) after
  | recovered {before after : Disk Digest} {record : VaultState Digest}
      (known : before.record = some record) (renewed : after.record = some record.recovered)
      (main : after.main = before.main ∨ after.main = some record.recovered) :
      VaultWrites owner before .recoverPublication after
  | published {before : Disk Digest} {call : VaultCall Digest} {publication left : Publication Digest}
      (read : before.read = .ok publication) (checks : checkState owner publication.state = .ok ())
      (listed : left.state = publication.state ∨ Publishes owner call publication.state left.state) :
      VaultWrites owner before call left.disk
  | torn {before : Disk Digest} {call : VaultCall Digest} {publication left : Publication Digest}
      {next : VaultState Digest} (read : before.read = .ok publication)
      (checks : checkState owner publication.state = .ok ())
      (listed : left.state = publication.state ∨ Publishes owner call publication.state left.state)
      (open_ : left.state = publication.state ∨ left.state.isFenced = false)
      (follows : Publishes owner call publication.state next) :
      VaultWrites owner before call ⟨some left.state, some next⟩

section Stops

variable {before after : Disk Digest} {publication left : Publication Digest}

theorem writes_of_replacements {rest : List (Publication Digest)}
    (read : before.read = .ok publication) (checks : checkState owner publication.state = .ok ())
    (listed : left.state = publication.state ∨ Publishes owner call publication.state left.state)
    (chain : List.IsChain (PublishesNext owner call publication.state) (left :: rest))
    {states : List (Disk Digest)} (stopped : states <+: replacements left rest) :
    states = [] ∨ VaultWrites owner before call (states.getLastD left.disk) := by
  induction rest generalizing left states with
  | nil => exact .inl (List.prefix_nil.mp stopped)
  | cons next rest induction =>
    rw [List.isChain_cons_cons] at chain
    obtain ⟨follows, chain⟩ := chain
    have nextListed : next.state = publication.state ∨
        Publishes owner call publication.state next.state := by
      rcases follows with same | ⟨published, -⟩
      · rwa [same]
      · exact .inr published
    have afterNext {states : List (Disk Digest)} (first : Disk Digest)
        (stopped : states <+: next.disk :: replacements next rest) (some_ : states ≠ []) :
        VaultWrites owner before call (states.getLastD first) := by
      rcases List.prefix_cons_iff.mp stopped with rfl | ⟨more, rfl, inside⟩
      · exact absurd rfl some_
      · rw [List.getLastD_cons]
        rcases induction nextListed chain inside with rfl | writes
        · exact .published read checks nextListed
        · exact writes
    rw [replacements, Publication.replaced] at stopped
    cases recorded : left.recorded with
    | false =>
      rw [recorded, if_neg Bool.false_ne_true, List.singleton_append] at stopped
      by_cases none : states = []
      · exact .inl none
      · exact .inr (afterNext left.disk stopped none)
    | true =>
      rw [recorded, if_pos rfl, List.cons_append] at stopped
      rcases List.prefix_cons_iff.mp stopped with rfl | ⟨more, rfl, inside⟩
      · exact .inl rfl
      · right
        rw [List.getLastD_cons]
        by_cases none : more = []
        · rw [none, List.getLastD_nil]
          rcases follows with same | ⟨published, open_⟩
          · have whole : left.disk = ⟨some left.state, some next.state⟩ := by
              rw [Publication.disk, recorded, if_pos rfl, same]
            rw [← whole]
            exact .published read checks listed
          · exact .torn read checks listed open_ published
        · exact afterNext _ inside none

omit [DecidableEq Digest] in
theorem later_then_examine {State Value Result : Type} {first : Durable State Value}
    {look : State → Except String Result} {start : State} :
    ((first >>= fun _ => Durable.examine look >>= fun _ => pure ()) start).later =
      (first start).later := by
  cases outcome : (first start).outcome with
  | error reason => simp only [bind, outcome]
  | ok value =>
    cases looked : look ((first start).later.getLastD start) with
    | error reason => simp only [bind, outcome, Durable.examine, looked, List.append_nil]
    | ok result =>
      simp only [bind, outcome, Durable.examine, looked, pure, List.append_nil]

theorem disk_of_read (read : before.read = .ok publication) : publication.disk = before := by
  obtain ⟨main, record⟩ := before
  cases main with
  | none =>
    cases record with
    | none => cases read
    | some record => cases read
  | some main =>
    cases record with
    | none =>
      cases read
      rfl
    | some record =>
      rw [Disk.read] at read
      dsimp only at read
      split at read
      · rename_i same
        cases read
        rw [← same]
        rfl
      · cases read

omit [DecidableEq Digest] in
theorem later_writeFiles {state : VaultState Digest} (disk : Disk Digest) :
    (writeFiles state disk).later =
        (if disk.record.isSome then [{ disk with record := some state }] else []) ++
          [⟨some state, if disk.record.isSome then some state else none⟩] ∧
      (writeFiles state disk).outcome = .ok () := by
  obtain ⟨main, record⟩ := disk
  cases record with
  | none => exact ⟨rfl, rfl⟩
  | some record => exact ⟨rfl, rfl⟩

theorem later_initializeFiles {founding : Founding Digest} {record : Option (VaultState Digest)}
    (founded : foundingState owner founding = .ok state) :
    (initializeFiles owner founding ⟨none, record⟩).later =
      (writeFiles state (⟨none, record⟩ : Disk Digest)).later := by
  simp only [initializeFiles, bind, Durable.read, Durable.check, Durable.examine, founded]
  rfl

theorem writes_of_initializeFiles {founding : Founding Digest} {states : List (Disk Digest)}
    (stopped : states <+: (initializeFiles owner founding before).later) :
    states = [] ∨ VaultWrites owner before (.initializeVault founding) (states.getLastD before) := by
  obtain ⟨main, record⟩ := before
  cases main with
  | some main => exact .inl (List.prefix_nil.mp stopped)
  | none =>
    cases founded : foundingState owner founding with
    | error reason =>
      have none : (initializeFiles owner founding ⟨none, record⟩).later = [] := by
        simp only [initializeFiles, bind, Durable.read, Durable.check, Durable.examine, founded]
        rfl
      rw [none] at stopped
      exact .inl (List.prefix_nil.mp stopped)
    | ok state =>
      rw [later_initializeFiles founded, (later_writeFiles _).1] at stopped
      cases record with
      | none =>
        rcases List.prefix_cons_iff.mp stopped with rfl | ⟨more, rfl, inside⟩
        · exact .inl rfl
        · rw [List.prefix_nil.mp inside]
          exact .inr (.created rfl founded (.inr rfl) (.inl rfl) rfl)
      | some record =>
        rcases List.prefix_cons_iff.mp stopped with rfl | ⟨more, rfl, inside⟩
        · exact .inl rfl
        · rcases List.prefix_cons_iff.mp inside with rfl | ⟨rest, rfl, last⟩
          · exact .inr (.created rfl founded (.inl rfl) (.inr rfl) rfl)
          · rw [List.prefix_nil.mp last]
            exact .inr (.created rfl founded (.inr rfl) (.inr rfl) rfl)

theorem writes_of_recoverPublication {states : List (Disk Digest)}
    (stopped : states <+: (recoverPublication owner before).later) :
    states = [] ∨ VaultWrites owner before .recoverPublication (states.getLastD before) := by
  obtain ⟨main, record⟩ := before
  cases record with
  | none => exact .inl (List.prefix_nil.mp stopped)
  | some record =>
    have later : (recoverPublication owner ⟨main, some record⟩).later =
        [⟨main, some record.recovered⟩, ⟨some record.recovered, some record.recovered⟩] := by
      have tail : recoverPublication owner ⟨main, some record⟩ =
          (writeFiles record.recovered >>= fun _ =>
            Durable.examine (fun disk : Disk Digest => do
              let state ← disk.load owner
              historyStatus owner state) >>= fun _ => pure ()) ⟨main, some record⟩ := rfl
      rw [tail, later_then_examine, (later_writeFiles _).1]
      rfl
    rw [later] at stopped
    rcases List.prefix_cons_iff.mp stopped with rfl | ⟨more, rfl, inside⟩
    · exact .inl rfl
    · rcases List.prefix_cons_iff.mp inside with rfl | ⟨rest, rfl, last⟩
      · exact .inr (.recovered rfl rfl (.inl rfl))
      · rw [List.prefix_nil.mp last]
        exact .inr (.recovered rfl rfl (.inr rfl))

theorem vaultStep_cases (step : VaultStep owner before call after) :
    after = before ∨ VaultWrites owner before call after := by
  obtain ⟨states, stopped, rfl⟩ := step
  have onProgram (same : call.perform owner = onFiles (call.program owner)) :
      states = [] ∨ VaultWrites owner before call (states.getLastD before) := by
    rw [Durable.Stopped, same, onFiles] at stopped
    cases read : before.read with
    | error reason =>
      rw [read] at stopped
      exact .inl (List.prefix_nil.mp stopped)
    | ok publication =>
      rw [read] at stopped
      have replaced : states <+: replacements publication (call.program owner publication).later :=
        stopped
      by_cases checks : checkState owner publication.state = .ok ()
      · have found := writes_of_replacements read checks (.inl rfl) lawful_program.1 replaced
        rwa [disk_of_read read] at found
      · have nothing : (call.program owner publication).later = [] := by
          rcases (gated_program : Gated owner (call.program owner) publication ∨ _) with
            gated | empty
          · exact (gated checks).1
          · exact empty
        rw [nothing] at replaced
        exact .inl (List.prefix_nil.mp replaced)
  have listed : states = [] ∨ VaultWrites owner before call (states.getLastD before) := by
    cases call with
    | initializeVault founding => exact writes_of_initializeFiles stopped
    | recoverPublication => exact writes_of_recoverPublication stopped
    | _ => exact onProgram rfl
  rcases listed with rfl | writes
  · exact .inl rfl
  · exact .inr writes

end Stops

/-! ## Invariants -/

def Disk.Holds (disk : Disk Digest) (state : VaultState Digest) : Prop :=
  disk.main = some state ∨ disk.record = some state

omit [DecidableEq Digest] in
theorem holds_disk {publication : Publication Digest} (held : publication.disk.Holds state) :
    state = publication.state := by
  obtain ⟨known, recorded⟩ := publication
  cases recorded with
  | false =>
    rcases held with main | record
    · exact (Option.some.inj main).symm
    · cases record
  | true =>
    rcases held with main | record
    · exact (Option.some.inj main).symm
    · exact (Option.some.inj record).symm

end JobAgg.EpochVault
