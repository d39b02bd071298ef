import JobAgg.CommitmentLog.PlainLog

/-! # The chain that a log stores

Whatever devices send in whatever order, the views of a vault are one chain from the first on,
its activations raise the epoch one by one, each between two views, and every activation has a
proven wrapper for each of its recipients. -/

namespace JobAgg.CommitmentLog

open EpochVault

variable {Digest : Type} [DecidableEq Digest] {library : LogLibrary Digest} {vault : VaultKey}
  {log after : VaultLog Digest} {call : LogCall Digest} {view : View Digest}

/-- The views are numbered from one on, and each names the roots of the one before it. -/
structure Linked (library : LogLibrary Digest) (views : List (View Digest)) : Prop where
  sequences : views.map (fun view => view.sequence) = List.range' 1 views.length
  begins : ∀ first, views.head? = some first →
    first.previousRoot = library.zero ∧ first.previousRegistryRoot = library.emptyRegistry
  links : views.IsChain fun one next =>
    next.previousRoot = one.root ∧ next.previousRegistryRoot = one.registryRoot
  bounded : views.length ≤ limit

/-- The last view before an activation is the one it is anchored at: all up to it are of
earlier epochs, and all behind it are not. -/
def Anchored (row : ActivationRow Digest) (views : List (View Digest)) : Prop :=
  ∃ before after, views = before ++ after ∧
    before.getLast?.map View.root = some row.body.proof.plan.stateRoot ∧
    (∀ view ∈ before, view.keyEpoch < row.epoch) ∧ ∀ view ∈ after, row.epoch ≤ view.keyEpoch

structure StoredChain (library : LogLibrary Digest) (vault : VaultKey) (log : VaultLog Digest) :
    Prop where
  linked : Linked library log.views
  succeeds : log.activations.IsChain fun one next => next.epoch = one.epoch + 1
  placed : ∀ row ∈ log.activations, Anchored row log.views
  served : ∀ row ∈ log.activations, ∀ recipient ∈ row.body.proof.plan.recipients,
    ∃ delivery ∈ log.deliveries, delivery.epoch = row.epoch ∧ delivery.recipient = recipient ∧
      Delivers library vault row.body delivery.body recipient

theorem Linked.concat {registryRoot : Digest} {initialEpoch : Nat}
    {activation : Option (ActivationRecord Digest)} {history : List (View Digest)}
    (linked : Linked library history)
    (continues : continuesLog library registryRoot initialEpoch activation history view = true) :
    Linked library (history ++ [view]) := by
  simp only [continuesLog, Bool.and_eq_true, beq_iff_eq, decide_eq_true_eq] at continues
  obtain ⟨⟨⟨⟨⟨sequence, previous⟩, registry⟩, -⟩, -⟩, room⟩ := continues
  constructor
  · rw [List.map_append, linked.sequences, List.length_append, List.length_singleton,
      List.range'_1_concat, List.map_singleton, sequence, Nat.add_comm]
  · intro first found
    cases history with
    | nil =>
      cases found
      exact ⟨previous, registry⟩
    | cons head tail => exact linked.begins first found
  · rw [List.isChain_append]
    refine ⟨linked.links, .singleton _, ?_⟩
    intro last found other new
    cases new
    rw [previous, registry, found]
    exact ⟨rfl, rfl⟩
  · rw [List.length_append, List.length_singleton]
    exact room

/-! ## What is kept with it -/

/-- The stored chain, under epochs that never fall and are not ahead of the last activation. -/
structure Recorded (library : LogLibrary Digest) (vault : VaultKey) (log : VaultLog Digest) : Prop
    extends Kept library vault log, StoredChain library vault log where
  ascending : log.views.Pairwise fun one next => one.keyEpoch ≤ next.keyEpoch
  topped : ∀ last, log.activations.getLast? = some last →
    ∀ view ∈ log.views, view.keyEpoch ≤ last.epoch

theorem recorded_empty : Recorded library vault VaultLog.empty where
  toKept := kept_empty
  linked := ⟨rfl, by simp [VaultLog.empty, VaultLog.views], .nil, Nat.zero_le _⟩
  succeeds := .nil
  placed := by simp [VaultLog.empty]
  served := by simp [VaultLog.empty]
  ascending := .nil
  topped := by simp [VaultLog.empty]

theorem le_of_getLast? {Row : Type} {key : Row → Nat} {rows : List Row} {last : Row}
    (ascending : rows.Pairwise fun one next => key one ≤ key next)
    (found : rows.getLast? = some last) : ∀ row ∈ rows, key row ≤ key last := by
  rw [← List.dropLast_append_getLast? last found, List.pairwise_append] at ascending
  intro row listed
  rw [← List.dropLast_append_getLast? last found] at listed
  rcases List.mem_append.mp listed with before | here
  · exact ascending.2.2 row before last (List.mem_singleton_self _)
  · rw [List.mem_singleton.mp here]

theorem Recorded.epoch_of_continuesLog (recorded : Recorded library vault log)
    {registryRoot : Digest} {initialEpoch : Nat}
    (continues : continuesLog library registryRoot initialEpoch log.current log.views view = true) :
    (∀ last, log.activations.getLast? = some last → view.keyEpoch = last.epoch) ∧
      ∀ other ∈ log.views, other.keyEpoch ≤ view.keyEpoch := by
  simp only [continuesLog, Bool.and_eq_true, beq_iff_eq, decide_eq_true_eq] at continues
  have epoch := continues.1.2
  rw [VaultLog.current] at epoch
  cases found : log.activations.getLast? with
  | some last =>
    rw [found] at epoch
    have held : view.keyEpoch = last.epoch :=
      epoch.trans (recorded.recorded last (List.mem_of_getLast? found)).1.symm
    refine ⟨by simp [held], ?_⟩
    rw [held]
    exact recorded.topped last found
  | none =>
    rw [found] at epoch
    refine ⟨by simp, ?_⟩
    intro other listed
    cases latest : log.views.getLast? with
    | none =>
      rw [List.getLast?_eq_none_iff] at latest
      rw [latest] at listed
      cases listed
    | some last =>
      rw [latest] at epoch
      exact (le_of_getLast? recorded.ascending latest other listed).trans_eq epoch.symm

theorem Recorded.append (recorded : Recorded library vault log) {registryRoot : Digest}
    {publicB64 authority : String} {initialEpoch : Nat}
    (continues : Continues library vault log.founder log.current log.views view registryRoot
      publicB64 initialEpoch authority) :
    Recorded library vault (log.addView vault view authority) := by
  obtain ⟨top, above⟩ := recorded.epoch_of_continuesLog continues.continues
  refine {
    toKept := recorded.toKept.view continues
    linked := ?_
    succeeds := recorded.succeeds
    placed := ?_
    served := recorded.served
    ascending := ?_
    topped := ?_ }
  · rw [VaultLog.views_addView]
    exact recorded.linked.concat continues.continues
  · intro row listed
    obtain ⟨before, after, same, root, earlier, later⟩ := recorded.placed row listed
    rw [VaultLog.views_addView, same]
    refine ⟨before, after ++ [view], List.append_assoc _ _ _, root, earlier, ?_⟩
    intro other member
    rcases List.mem_append.mp member with old | new
    · exact later other old
    · cases found : log.activations.getLast? with
      | none =>
        rw [List.getLast?_eq_none_iff] at found
        have none : row ∈ log.activations := listed
        rw [found] at none
        cases none
      | some last =>
        rw [List.mem_singleton.mp new, top last found]
        exact recorded.le_current found listed
  · rw [VaultLog.views_addView, List.pairwise_append]
    refine ⟨recorded.ascending, List.pairwise_singleton _ _, ?_⟩
    intro one listed next new
    rw [List.mem_singleton.mp new]
    exact above one listed
  · intro last found other listed
    rw [VaultLog.views_addView] at listed
    rcases List.mem_append.mp listed with old | new
    · exact recorded.topped last found other old
    · rw [List.mem_singleton.mp new, top last found]

theorem Recorded.deliver (recorded : Recorded library vault log)
    (deliveries : List (DeliveryRow Digest)) :
    Recorded library vault (log.addDeliveries deliveries) where
  toKept := recorded.toKept.deliver deliveries
  linked := recorded.linked
  succeeds := recorded.succeeds
  placed := recorded.placed
  served row listed recipient named := by
    obtain ⟨delivery, known, found⟩ := recorded.served row listed recipient named
    exact ⟨delivery, List.mem_append_left _ known, found⟩
  ascending := recorded.ascending
  topped := recorded.topped

/-- The epoch that a rotation follows is that of the last activation, and no view is later. -/
theorem Recorded.epoch_of_priorAuthority (recorded : Recorded library vault log)
    {registry : Registry} {prior : Registry × Nat} {last : View Digest}
    (found : log.views.getLast? = some last)
    (known : priorAuthority registry last (log.membership library vault) log.current = .ok prior) :
    (∀ row, log.activations.getLast? = some row → row.epoch = prior.2) ∧
      ∀ view ∈ log.views, view.keyEpoch ≤ prior.2 := by
  cases active : log.activations.getLast? with
  | none =>
    rw [VaultLog.current, active] at known
    cases known
    exact ⟨by simp, le_of_getLast? recorded.ascending found⟩
  | some row =>
    have held := VaultLog.current_eq_some.mpr ⟨row, active, rfl⟩
    rw [held, priorAuthority, bind_eq_ok] at known
    obtain ⟨members, -, same⟩ := known
    cases same
    have epoch := (recorded.recorded row (List.mem_of_getLast? active)).1
    refine ⟨by simp [epoch], ?_⟩
    rw [← epoch]
    exact recorded.topped row active

theorem Recorded.activate (injective : Function.Injective library.registryDigest)
    (recorded : Recorded library vault log) {proof : Rotation Digest} {registry : Registry}
    {prior : Registry × Nat} {last : View Digest} {deliveries : List (DeliveryRow Digest)}
    (found : log.views.getLast? = some last)
    (known : priorAuthority registry last (log.membership library vault) log.current = .ok prior)
    (activates : Activates library vault log.activations proof prior last deliveries) :
    Recorded library vault (log.addActivation vault proof deliveries) := by
  obtain ⟨outcome, verified⟩ := activates.verified
  have removes := (verifyEpochRotation_spec verified).2.2
  obtain ⟨top, below⟩ := recorded.epoch_of_priorAuthority found known
  refine {
    toKept := recorded.toKept.activate injective found known activates
    linked := recorded.linked
    succeeds := ?_
    placed := ?_
    served := ?_
    ascending := recorded.ascending
    topped := ?_ }
  · rw [VaultLog.addActivation, List.isChain_append]
    refine ⟨recorded.succeeds, .singleton _, ?_⟩
    intro row old next new
    cases new
    rw [top row old]
    exact removes.next
  · intro row listed
    rcases List.mem_append.mp listed with old | new
    · exact recorded.placed row old
    · rw [List.mem_singleton.mp new]
      refine ⟨log.views, [], (List.append_nil _).symm, ?_, ?_, by simp⟩
      · rw [found, Option.map_some]
        exact congrArg some removes.state.symm
      · intro view member
        exact (below view member).trans_lt (Nat.lt_of_lt_of_eq (Nat.lt_succ_self _)
          removes.next.symm)
  · intro row listed recipient named
    rcases List.mem_append.mp listed with old | new
    · obtain ⟨delivery, known, found⟩ := recorded.served row old recipient named
      exact ⟨delivery, List.mem_append_left _ known, found⟩
    · rw [List.mem_singleton.mp new] at named ⊢
      obtain ⟨delivery, known, found⟩ := activates.recipients recipient named
      obtain ⟨-, epoch, delivers⟩ := activates.delivered delivery known
      rw [found] at delivers
      exact ⟨delivery, List.mem_append_right _ known, epoch, found, delivers⟩
  · intro row latest view member
    rw [VaultLog.addActivation, List.getLast?_concat] at latest
    cases latest
    have least := below view member
    have next := removes.next
    dsimp only
    omega

theorem Grows.recorded (injective : Function.Injective library.registryDigest)
    (recorded : Recorded library vault log) (grows : Grows library vault log call after) :
    Recorded library vault after := by
  cases grows with
  | same => exact recorded
  | view continues => exact recorded.append continues
  | late listed held delivers => exact recorded.deliver _
  | activated found known activates => exact recorded.activate injective found known activates
  | enrolled known verified =>
    exact {
      toKept := recorded.toKept.enroll known verified
      linked := recorded.linked
      succeeds := recorded.succeeds
      placed := recorded.placed
      served := recorded.served
      ascending := recorded.ascending
      topped := recorded.topped }

/-- After any calls on the log, the views of every vault are one chain, the activations raise
the epoch by one each, lie between the views of the epochs that they part, and have a proven
wrapper stored for each recipient. -/
theorem stored_chain (injective : Function.Injective library.registryDigest)
    {events : List (LogEvent Digest)} {db : Database Digest}
    (run : Run (LogStep library) .empty events db) (vault : VaultKey) :
    StoredChain library vault (db.vaultLog vault) := by
  have recorded : Recorded library vault (db.vaultLog vault) := by
    apply run.invariant fun db => Recorded library vault (db.vaultLog vault)
    · intro before event after step recorded
      exact (step.grows recorded.toOrdered).recorded injective recorded
    · exact recorded_empty
  exact recorded.toStoredChain

/-- A vault with a removal. -/
theorem stored_chain_plain : ∃ db : Database Mark, (db.activation plainVault).isSome = true ∧
    StoredChain plainLog plainVault (db.vaultLog plainVault) := by
  obtain ⟨db, events, requests, active⟩ := plainRun
  obtain ⟨calls, run⟩ := calls_of_requests requests
  exact ⟨db, active, stored_chain plainLibrary_collisionFree.registries run plainVault⟩

end JobAgg.CommitmentLog
