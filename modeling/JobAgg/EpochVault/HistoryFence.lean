import JobAgg.EpochVault.GuardedRuns

/-! # The fence around a history

A history only grows: later states extend the accepted views, keep every record and never
change a tombstone. A state that is not active is frozen, and only the rejection of a
replay of accepted views makes it active again. -/

namespace JobAgg.EpochVault

variable {Digest : Type}

structure Keeps (earlier later : GuardedState Digest) : Prop where
  views : earlier.views <+: later.views
  records : ∀ key ∈ earlier.records, key ∈ later.records
  tombstones : ∀ key record, earlier.records.lookup key = some record → record.tombstone = true →
    later.records.lookup key = some record

theorem Keeps.refl (state : GuardedState Digest) : Keeps state state :=
  ⟨List.prefix_refl _, fun _ member => member, fun _ _ found _ => found⟩

theorem Keeps.trans {earlier middle later : GuardedState Digest} (first : Keeps earlier middle)
    (second : Keeps middle later) : Keeps earlier later where
  views := first.views.trans second.views
  records key member := second.records key (first.records key member)
  tombstones key record found dead :=
    second.tombstones key record (first.tombstones key record found dead) dead

theorem Keeps.of_eq {earlier later : GuardedState Digest} (views : later.views = earlier.views)
    (records : later.records = earlier.records) : Keeps earlier later where
  views := by rw [views]
  records key member := by rwa [records]
  tombstones key record found _ := by rwa [records]

/-- Every alarm holds the views that were accepted when it was raised. -/
def Recorded (state : GuardedState Digest) : Prop :=
  ∀ found ∈ state.cases, found.localViews <+: state.views

variable [DecidableEq Digest] {library : HistoryLibrary Digest} {guard : Guard Digest}
  {state next earlier later : GuardedState Digest} {call : Call Digest} {calls : List (Call Digest)}

theorem keepsRecords_spec {known records : Dict String (Record Digest)} {key : String}
    {record : Record Digest} (kept : keepsRecords known records = .ok ())
    (found : known.lookup key = some record) :
    key ∈ records ∧ (record.tombstone = true → records.lookup key = some record) := by
  rw [keepsRecords, each_eq_ok] at kept
  have checked := kept (key, record) (Dict.mem_items.mpr found)
  rw [require_bind_eq_ok, require_eq_ok, decide_eq_true_eq] at checked
  refine ⟨checked.2, ?_⟩
  intro dead
  simpa [dead] using checked.1

theorem admitCollection_keeps {view : View Digest} {opaqueState : Bytes}
    {records : Dict String (Record Digest)}
    (admitted : admitCollection library state view opaqueState = .ok records) :
    keepsRecords state.records records = .ok () := by
  rw [admitCollection] at admitted
  cases body : library.readCollection opaqueState with
  | none =>
    rw [body] at admitted
    cases admitted
  | some collection =>
    rw [body] at admitted
    dsimp only at admitted
    rw [require_bind_eq_ok, require_bind_eq_ok, bind_eq_ok] at admitted
    obtain ⟨-, -, found, -, admitted⟩ := admitted
    rw [bind_eq_ok] at admitted
    obtain ⟨done, kept, same⟩ := admitted
    cases same
    exact kept

theorem Admitted.keeps {view : View Digest} {registry : PresentedRegistry Digest}
    {commitment : Commitment Digest} {opaqueState : Bytes}
    (admitted : Admitted library guard state view registry commitment opaqueState next) :
    Keeps state next := by
  obtain ⟨records, collected, rfl⟩ := admitted.added
  have kept {key : String} {record : Record Digest} :=
    @keepsRecords_spec _ _ _ _ key record (admitCollection_keeps collected)
  refine ⟨List.prefix_append _ _, ?_, ?_⟩
  · intro key member
    obtain ⟨record, found⟩ := Finmap.mem_iff.mp member
    exact (kept found).1
  · intro key record found dead
    exact (kept found).2 dead

theorem staged_spec {bridge : Bridge Digest}
    (extended : staged library guard state bridge = .ok next) :
    next = { state with bridges := state.bridges ++ [bridge] } ∧
      (∃ last, state.views.getLast? = some last ∧ last.root = bridge.stateRoot) ∧
      ∃ proofs, bridgeProofs library guard next = .ok proofs ∧
        chain library guard next.views proofs = .ok () := by
  rw [staged, require_bind_eq_ok, require_bind_eq_ok, Bool.and_eq_true] at extended
  dsimp only at extended
  rw [bind_eq_ok] at extended
  obtain ⟨-, ⟨-, here⟩, proofs, bridged, extended⟩ := extended
  rw [bind_eq_ok] at extended
  obtain ⟨done, chained, same⟩ := extended
  cases same
  refine ⟨rfl, ?_, proofs, bridged, chained⟩
  rw [Option.any_eq_true] at here
  obtain ⟨last, found, root⟩ := here
  exact ⟨last, found, beq_iff_eq.mp root⟩

theorem Writes.keeps (writes : Writes library guard call state next) : Keeps state next := by
  cases writes with
  | accepted _ _ admitted => exact (admit_spec admitted).keeps
  | staged _ extended =>
    rw [(staged_spec extended).1]
    exact .of_eq rfl rfl
  | _ => exact .of_eq rfl rfl

theorem Writes.fenced (writes : Writes library guard call state next)
    (fenced : state.status ≠ .active) :
    ∃ disposition localRoot peerRoot found, call = .resolve disposition localRoot peerRoot ∧
      state.cases.getLast? = some found ∧ next = EpochVault.settled guard state found disposition := by
  cases writes with
  | settled pending last => exact ⟨_, _, _, _, rfl, last, rfl⟩
  | capped active => exact absurd active fenced
  | alarmed active room => exact absurd active fenced
  | accepted active room admitted => exact absurd active fenced
  | staged active extended => exact absurd active fenced

theorem Writes.recorded (writes : Writes library guard call state next)
    (recorded : Recorded state) : Recorded next := by
  cases writes with
  | capped active => exact recorded
  | alarmed active room =>
    intro found member
    rcases List.mem_append.mp member with old | new
    · exact recorded found old
    · rw [List.mem_singleton.mp new]
      exact List.prefix_refl _
  | accepted active room admitted =>
    obtain ⟨records, -, rfl⟩ := (admit_spec admitted).added
    intro found member
    exact (recorded found member).trans (List.prefix_append _ _)
  | @settled disposition localRoot peerRoot state found pending last =>
    intro other member
    rcases List.mem_append.mp member with old | new
    · exact recorded other (List.dropLast_subset _ old)
    · rw [List.mem_singleton.mp new]
      exact recorded found (List.mem_of_getLast? last)
  | staged active extended =>
    rw [(staged_spec extended).1]
    exact recorded

theorem Calls.keeps {before after : Option (GuardedState Digest)}
    (called : Calls library guard before call after) (earlier : GuardedState Digest)
    (kept : ∃ state, before = some state ∧ Keeps earlier state) :
    ∃ state, after = some state ∧ Keeps earlier state := by
  rcases calls_cases called with rfl | ⟨rfl, -, -⟩ | ⟨state, next, rfl, rfl, -, writes⟩
  · exact kept
  · obtain ⟨state, impossible, -⟩ := kept
    cases impossible
  · obtain ⟨found, same, keeps⟩ := kept
    cases same
    exact ⟨next, rfl, keeps.trans writes.keeps⟩

end JobAgg.EpochVault
