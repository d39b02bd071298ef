import JobAgg.EpochVault.VaultRuns

/-! # Keys for everything that is queued

Keys are added by rotations and catch-ups and deleted by a cleanup, and operations may be
queued over several of them. The ring always keeps a key for the current epoch and for the
epoch of every operation that is still pending. -/

namespace JobAgg.EpochVault

variable {Digest : Type} [DecidableEq Digest] {library : VaultLibrary Digest}
  {owner : Owner library} {call : VaultCall Digest} {state next : VaultState Digest}

structure Covered (state : VaultState Digest) : Prop where
  current : state.epoch ∈ state.keys
  past : ∀ epoch ∈ state.keys, epoch ≤ state.epoch
  pending : ∀ operation ∈ state.outbox, operation.envelope.keyEpoch ∈ state.keys

theorem ring_spec {epoch : Nat} {keys : Dict Nat String} (ringed : ring epoch keys = .ok ()) :
    epoch ∈ keys ∧ ∀ key ∈ keys, key ≤ epoch := by
  simp only [ring, require_bind_eq_ok, require_eq_ok, Bool.and_eq_true, decide_eq_true_eq]
    at ringed
  obtain ⟨-, -, ⟨-, current⟩, past, -⟩ := ringed
  exact ⟨current, fun key member => (past key (Finmap.mem_keys.mpr member)).2⟩

theorem mem_deleteEpochs {deletes : Nat → Bool} {epochs : List Nat} {keys kept : Dict Nat String}
    (deleted : deleteEpochs deletes epochs keys = .ok kept) {epoch : Nat} :
    epoch ∈ kept ↔ epoch ∈ keys ∧ epoch ∉ epochs := by
  induction epochs generalizing keys with
  | nil =>
    cases deleted
    exact ⟨fun member => ⟨member, List.not_mem_nil⟩, fun both => both.1⟩
  | cons head tail induction =>
    rw [deleteEpochs, require_bind_eq_ok] at deleted
    rw [induction deleted.2, Finmap.mem_erase, List.mem_cons]
    tauto

theorem mem_cleaned {deletes : Nat → Bool} {retain : Finset Nat} {keys kept : Dict Nat String}
    (inside : retain ⊆ keys.keys)
    (deleted : deleteEpochs deletes ((keys.keys \ retain).sort (· ≤ ·)) keys = .ok kept)
    {epoch : Nat} : epoch ∈ kept ↔ epoch ∈ retain := by
  rw [mem_deleteEpochs deleted, Finset.mem_sort, Finset.mem_sdiff, Finmap.mem_keys]
  constructor
  · rintro ⟨known, notDeleted⟩
    by_contra dropped
    exact notDeleted ⟨known, dropped⟩
  · intro retained
    exact ⟨Finmap.mem_keys.mp (inside retained), fun deleted => deleted.2 retained⟩

/-! ## A catch-up only adds keys -/

theorem keys_of_catchUpPacket {guard : Guard Digest} {privateKey : String}
    {packet : Packet Digest} {work done : CatchUp Digest}
    (round : catchUpPacket owner guard privateKey packet work = .ok done) :
    ∀ epoch ∈ work.keys, epoch ∈ done.keys := by
  intro epoch member
  rw [catchUpPacket] at round
  dsimp only at round
  split at round
  · rw [plainly, mapError_eq_ok] at round
    cases same : sameEpoch owner.context.deviceId work.bridges with
    | none =>
      rw [same] at round
      cases round
    | some old =>
      rw [same] at round
      dsimp only at round
      rw [bind_eq_ok] at round
      obtain ⟨agreed, -, round⟩ := round
      rw [bind_eq_ok] at round
      obtain ⟨⟨verified, opened⟩, -, round⟩ := round
      rw [require_bind_eq_ok, pure_eq_ok] at round
      obtain ⟨-, rfl⟩ := round
      exact Finmap.mem_insert.mpr (.inr member)
  · rw [bind_eq_ok] at round
    obtain ⟨⟨history, updates⟩, -, round⟩ := round
    rw [plainly, mapError_eq_ok, bind_eq_ok] at round
    obtain ⟨⟨verified, opened⟩, -, round⟩ := round
    cases round
    exact Finmap.mem_insert.mpr (.inr member)

theorem keys_of_catchUpPackets {guard : Guard Digest} {privateKey : String}
    {packets : List (Packet Digest)} {work done : CatchUp Digest}
    (rounds : catchUpPackets owner guard privateKey packets work = .ok done) :
    ∀ epoch ∈ work.keys, epoch ∈ done.keys := by
  induction packets generalizing work with
  | nil =>
    cases rounds
    exact fun _ member => member
  | cons packet rest induction =>
    rw [catchUpPackets, bind_eq_ok] at rounds
    obtain ⟨next, round, rounds⟩ := rounds
    exact fun epoch member => induction rounds epoch (keys_of_catchUpPacket round epoch member)

structure Worked (owner : Owner library) (arguments : CatchUpCall Digest)
    (state : VaultState Digest) (work : CatchUp Digest) : Prop where
  nonempty : arguments.packets ≠ []
  bounded : state.history.bridges.length ≤ maximumBridges
  rounds : ∃ guard, owner.guard state.history = .ok guard ∧
    catchUpPackets owner guard arguments.privateKey arguments.packets {
      history := state.history
      keys := state.keys
      registry := state.registry
      epoch := state.epoch
      bridges := state.history.bridges
      updates := arguments.updates } = .ok work
  verified : ∃ proofs final, verifyBridges library.toRotationLibrary owner.bridgeContext
    work.bridges owner.authority = .ok (proofs, final)
  ringed : ring work.epoch work.keys = .ok ()

theorem catchUpWork_spec {arguments : CatchUpCall Digest} {work : CatchUp Digest}
    (worked : catchUpWork owner arguments state = .ok work) :
    Worked owner arguments state work := by
  simp only [catchUpWork, plainly] at worked
  rw [bind_eq_ok] at worked
  obtain ⟨done, sized, worked⟩ := worked
  rw [mapError_eq_ok, require_eq_ok, Bool.and_eq_true, decide_eq_true_eq] at sized
  rw [bind_eq_ok] at worked
  obtain ⟨done, -, worked⟩ := worked
  rw [bind_eq_ok] at worked
  obtain ⟨done, -, worked⟩ := worked
  rw [bind_eq_ok] at worked
  obtain ⟨bridges, bounded, worked⟩ := worked
  rw [mapError_eq_ok, bridgeRecords, require_bind_eq_ok, pure_eq_ok, decide_eq_true_eq] at bounded
  obtain ⟨bounded, rfl⟩ := bounded
  rw [bind_eq_ok] at worked
  obtain ⟨guard, guarded, worked⟩ := worked
  rw [mapError_eq_ok] at guarded
  rw [bind_eq_ok] at worked
  obtain ⟨found, rounds, worked⟩ := worked
  rw [bind_eq_ok] at worked
  obtain ⟨done, -, worked⟩ := worked
  rw [bind_eq_ok] at worked
  obtain ⟨done, -, worked⟩ := worked
  rw [bind_eq_ok] at worked
  obtain ⟨⟨proofs, final⟩, verified, worked⟩ := worked
  rw [mapError_eq_ok, checked_eq_ok] at verified
  rw [bind_eq_ok] at worked
  obtain ⟨done, ringed, same⟩ := worked
  rw [mapError_eq_ok] at ringed
  cases same
  refine ⟨?_, bounded, ⟨guard, guarded, rounds⟩, ⟨proofs, final, verified⟩, ringed⟩
  intro none
  rw [none] at sized
  exact Nat.not_succ_le_zero 0 sized.1

/-! ## Every publication -/

theorem Publishes.covered (publishes : Publishes owner call state next) (covered : Covered state) :
    Covered next := by
  cases publishes with
  | rotated same admitted guarded extended ringed =>
    obtain ⟨current, past⟩ := ring_spec ringed
    refine ⟨current, past, ?_⟩
    intro operation member
    exact Finmap.mem_insert.mpr (.inr (covered.pending operation member))
  | caughtUp fenced worked =>
    have spec := catchUpWork_spec worked
    obtain ⟨current, past⟩ := ring_spec spec.ringed
    obtain ⟨guard, -, rounds⟩ := spec.rounds
    refine ⟨current, past, ?_⟩
    intro operation member
    exact keys_of_catchUpPackets rounds _ (covered.pending operation member)
  | cleaned status known current inside needed deleted =>
    refine ⟨(mem_cleaned inside deleted).mpr current, ?_, ?_⟩
    · intro epoch member
      exact covered.past epoch
        (Finmap.mem_keys.mp (inside ((mem_cleaned inside deleted).mp member)))
    · intro operation member
      exact (mem_cleaned inside deleted).mpr (needed operation member)
  | queued active current =>
    refine ⟨covered.current, covered.past, ?_⟩
    intro operation member
    rw [mem_orderBy, List.mem_append, List.mem_singleton] at member
    rcases member with old | rfl
    · exact covered.pending operation old
    · rw [current]
      exact covered.current
  | confirmed active =>
    refine ⟨covered.current, covered.past, ?_⟩
    intro operation member
    exact covered.pending operation (List.mem_of_mem_filter member)
  | history underlies guarded writes bridges views =>
    cases underlies with
    | _ => exact ⟨covered.current, covered.past, covered.pending⟩
  | _ => exact ⟨covered.current, covered.past, covered.pending⟩

end JobAgg.EpochVault
