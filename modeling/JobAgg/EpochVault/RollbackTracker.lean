import JobAgg.EpochVault.Transcripts
import JobAgg.Foundation.Json
import JobAgg.Foundation.Run

/-! # Accepted states

A tracker keeps the number and the root of the last state that it accepted. A served state is
accepted when its signed commitment follows that root, so that the accepted commitments are a
chain from the zero root and a root says all states that led to it. -/

namespace JobAgg.EpochVault

open SyncQueue (invalid isIdentifier isCanonicalBase64)

/-- The hash of the client, as hexadecimal text, and the check of a signature by a public key
of a root -/
structure TrackerLibrary where
  hexdigest : List Nat → String
  verifies : Bytes → String → String → Bool

def zeroRoot : String := String.ofList (List.replicate 64 '0')

inductive ServedValue where
  | text (value : String)
  | integer (value : Int)
  | other
deriving DecidableEq

abbrev Served := List (String × ServedValue)

def servedKeys : List String :=
  ["format", "version", "collection_id", "sequence", "previous_root", "state_sha256", "root",
    "signature_b64"]

def Served.text (served : Served) (key : String) (check : String → Bool) :
    Except String String :=
  match lookup key served with
  | some (.text value) => do
    require (check value) invalid
    return value
  | _ => .error invalid

/-- `_commitment_sequence` -/
def Served.sequence (served : Served) : Except String Nat :=
  match lookup "sequence" served with
  | some (.integer value) => do
    require (decide (1 ≤ value) && decide (value ≤ 9007199254740991)) invalid
    return value.toNat
  | _ => .error invalid

variable (library : TrackerLibrary)

def commitmentRoot (body : CommitmentBody String) : String :=
  library.hexdigest (body.transcript.map Char.toNat)

/-- `SignedStateCommitment.from_dict` -/
def readCommitment (served : Served) : Except String (Commitment String) := do
  require (decide ((served.map Prod.fst).toFinset = servedKeys.toFinset)) invalid
  require (lookup "format" served == some (.text "atlasvault-state-commitment") &&
    lookup "version" served == some (.integer 1)) invalid
  let collectionId ← served.text "collection_id" isIdentifier
  let sequence ← served.sequence
  let previousRoot ← served.text "previous_root" isSha256
  let stateSha256 ← served.text "state_sha256" isSha256
  let root ← served.text "root" isSha256
  let signatureB64 ← served.text "signature_b64" fun text =>
    text.length == 88 && isCanonicalBase64 text (some 64) 1
  let body : CommitmentBody String := { collectionId, sequence, previousRoot, stateSha256 }
  require ((sequence == 1) == (previousRoot == zeroRoot) && root == commitmentRoot library body)
    invalid
  return { body with root, signatureB64 }

/-- `_state_digest` -/
def servedDigest (state : Bytes) : Except String String := do
  require (decide (16 ≤ state.length) && decide (state.length ≤ 128 * 1024 * 1024)) invalid
  return library.hexdigest (state.map UInt8.toNat)

/-! ## The tracker -/

structure RollbackTracker where
  collection : String
  publicKey : Bytes

/-- The file of a tracker -/
structure Anchor where
  collectionId : String
  signingPublic : Bytes
  sequence : Nat
  root : String
deriving DecidableEq

def RollbackTracker.anchor (tracker : RollbackTracker) (sequence : Nat) (root : String) : Anchor :=
  ⟨tracker.collection, tracker.publicKey, sequence, root⟩

def RollbackTracker.load (tracker : RollbackTracker) (file : Anchor) : Except String Anchor := do
  require (decide (file.sequence ≤ 9007199254740991) && isSha256 file.root) invalid
  require (file == tracker.anchor file.sequence file.root &&
    (file.sequence == 0) == (file.root == zeroRoot)) invalid
  return file

/-- The checks of `accept` that do not concern the file -/
def RollbackTracker.authenticate (tracker : RollbackTracker) (served : Served) (state : Bytes) :
    Except String (Commitment String) := do
  let commitment ← readCommitment library served
  let digest ← servedDigest library state
  require (commitment.collectionId == tracker.collection && commitment.stateSha256 == digest)
    invalid
  require (library.verifies tracker.publicKey commitment.signatureB64 commitment.root) invalid
  return commitment

/-- `accept`: what it returns, and the file -/
def RollbackTracker.accept (tracker : RollbackTracker) (file : Anchor) (served : Served)
    (state : Bytes) : Except String (Bool × Anchor) := do
  let anchor ← tracker.load file
  let commitment ← tracker.authenticate library served state
  if commitment.sequence = anchor.sequence ∧ commitment.root = anchor.root then
    return (false, file)
  else do
    require (commitment.sequence == anchor.sequence + 1 && commitment.previousRoot == anchor.root)
      invalid
    return (true, tracker.anchor commitment.sequence commitment.root)

/-! ## Calls one after the other -/

/-- A served state with what `accept` returned or raised -/
structure TrackerEvent where
  served : Served
  state : Bytes
  answer : Except String Bool

def Accepting (tracker : RollbackTracker) (file : Anchor) (event : TrackerEvent) (next : Anchor) :
    Prop :=
  match tracker.accept library file event.served event.state with
  | .ok (answer, written) => event.answer = .ok answer ∧ next = written
  | .error reason => event.answer = .error reason ∧ next = file

def TrackerEvent.accepted? (event : TrackerEvent) : Option (Commitment String) :=
  match event.answer with
  | .ok true => (readCommitment library event.served).toOption
  | _ => none

/-- Commitments of one collection, each on the one before it: the number and the root of the
last one -/
inductive HashChain (collection : String) : List (Commitment String) → Nat → String → Prop
  | nil : HashChain collection [] 0 zeroRoot
  | concat {chain : List (Commitment String)} {sequence : Nat} {root : String}
      {commitment : Commitment String} (before : HashChain collection chain sequence root)
      (checked : commitment.isChecked = true) (digest : isSha256 commitment.root = true)
      (named : commitment.collectionId = collection)
      (next : commitment.sequence = sequence + 1) (previous : commitment.previousRoot = root)
      (rooted : commitment.root = commitmentRoot library commitment.toCommitmentBody) :
      HashChain collection (chain ++ [commitment]) (sequence + 1) commitment.root

/-- The hash tells the transcripts of checked commitments apart. -/
def RootsApart : Prop :=
  ∀ one two : CommitmentBody String, one.isChecked = true → two.isChecked = true →
    commitmentRoot library one = commitmentRoot library two → one.transcript = two.transcript

/-! ## What a call does -/

variable {library} {tracker : RollbackTracker}

theorem Served.text_eq_ok {served : Served} {key result : String} {check : String → Bool} :
    served.text key check = .ok result ↔
      lookup key served = some (.text result) ∧ check result = true := by
  rw [Served.text]
  split
  case h_1 value found =>
    rw [require_bind_eq_ok, pure_eq_ok, found]
    constructor
    · rintro ⟨passes, rfl⟩
      exact ⟨rfl, passes⟩
    · rintro ⟨same, passes⟩
      cases same
      exact ⟨passes, rfl⟩
  case h_2 other =>
    constructor
    · intro impossible
      cases impossible
    · rintro ⟨found, -⟩
      exact absurd found (other result)

theorem Served.isCommitmentSequence_of_sequence {served : Served} {sequence : Nat}
    (read : served.sequence = .ok sequence) : isCommitmentSequence sequence = true := by
  rw [Served.sequence] at read
  split at read
  case h_1 value found =>
    rw [require_bind_eq_ok, pure_eq_ok, Bool.and_eq_true, decide_eq_true_iff,
      decide_eq_true_iff] at read
    obtain ⟨⟨least, most⟩, rfl⟩ := read
    rw [isCommitmentSequence, Bool.and_eq_true, decide_eq_true_iff, decide_eq_true_iff]
    omega
  case h_2 => cases read

theorem checked_of_readCommitment {served : Served} {commitment : Commitment String}
    (read : readCommitment library served = .ok commitment) :
    commitment.isChecked = true ∧ isSha256 commitment.root = true ∧
      (commitment.sequence = 1 ↔ commitment.previousRoot = zeroRoot) ∧
      commitment.root = commitmentRoot library commitment.toCommitmentBody := by
  rw [readCommitment, require_bind_eq_ok, require_bind_eq_ok, bind_eq_ok] at read
  obtain ⟨-, -, collection, collectionRead, read⟩ := read
  rw [bind_eq_ok] at read
  obtain ⟨sequence, sequenceRead, read⟩ := read
  rw [bind_eq_ok] at read
  obtain ⟨previous, previousRead, read⟩ := read
  rw [bind_eq_ok] at read
  obtain ⟨digest, digestRead, read⟩ := read
  rw [bind_eq_ok] at read
  obtain ⟨root, rootRead, read⟩ := read
  rw [bind_eq_ok] at read
  obtain ⟨signature, -, read⟩ := read
  rw [require_bind_eq_ok, pure_eq_ok, Bool.and_eq_true, beq_iff_eq, beq_iff_eq] at read
  obtain ⟨⟨founding, rooted⟩, rfl⟩ := read
  have collectionValid := (Served.text_eq_ok.mp collectionRead).2
  have previousValid := (Served.text_eq_ok.mp previousRead).2
  have digestValid := (Served.text_eq_ok.mp digestRead).2
  have sequenceValid := Served.isCommitmentSequence_of_sequence sequenceRead
  refine ⟨?_, (Served.text_eq_ok.mp rootRead).2, ?_, rooted⟩
  · rw [CommitmentBody.isChecked, collectionValid, previousValid, digestValid, sequenceValid]
    rfl
  · rw [Bool.eq_iff_iff, beq_iff_eq, beq_iff_eq] at founding
    exact founding

theorem RollbackTracker.load_eq_ok {file anchor : Anchor} :
    tracker.load file = .ok anchor ↔
      file = anchor ∧ file = tracker.anchor file.sequence file.root ∧
        file.sequence ≤ 9007199254740991 ∧ isSha256 file.root = true ∧
        (file.sequence = 0 ↔ file.root = zeroRoot) := by
  have founding : ((file.sequence == 0) == (file.root == zeroRoot)) = true ↔
      (file.sequence = 0 ↔ file.root = zeroRoot) := by
    rw [beq_iff_eq, Bool.eq_iff_iff, beq_iff_eq, beq_iff_eq]
  rw [load, require_bind_eq_ok, require_bind_eq_ok, pure_eq_ok, Bool.and_eq_true,
    Bool.and_eq_true, decide_eq_true_iff, beq_iff_eq, founding]
  constructor
  · rintro ⟨⟨most, root⟩, ⟨own, founding⟩, same⟩
    exact ⟨same, own, most, root, founding⟩
  · rintro ⟨same, own, most, root, founding⟩
    exact ⟨⟨most, root⟩, ⟨own, founding⟩, same⟩

theorem RollbackTracker.of_authenticate {served : Served} {state : Bytes}
    {commitment : Commitment String}
    (authentic : tracker.authenticate library served state = .ok commitment) :
    readCommitment library served = .ok commitment ∧
      servedDigest library state = .ok commitment.stateSha256 ∧
      commitment.collectionId = tracker.collection ∧
      library.verifies tracker.publicKey commitment.signatureB64 commitment.root = true := by
  rw [authenticate, bind_eq_ok] at authentic
  obtain ⟨read, readOk, authentic⟩ := authentic
  rw [bind_eq_ok] at authentic
  obtain ⟨digest, digestOk, authentic⟩ := authentic
  rw [require_bind_eq_ok, require_bind_eq_ok, pure_eq_ok, Bool.and_eq_true, beq_iff_eq,
    beq_iff_eq] at authentic
  obtain ⟨⟨named, same⟩, verified, rfl⟩ := authentic
  exact ⟨readOk, same ▸ digestOk, named, verified⟩

theorem run_of_accept {file written : Anchor} {served : Served} {state : Bytes} {answer : Bool}
    (accepted : tracker.accept library file served state = .ok (answer, written)) :
    Run (Accepting library tracker) file [⟨served, state, .ok answer⟩] written := by
  apply Run.single
  rw [Accepting, accepted]
  exact ⟨rfl, rfl⟩

theorem Accepting.cases {file next : Anchor} {event : TrackerEvent}
    (called : Accepting library tracker file event next) :
    (event.answer ≠ .ok true ∧ next = file) ∨
      ∃ commitment : Commitment String, event.answer = .ok true ∧
        tracker.authenticate library event.served event.state = .ok commitment ∧
        commitment.sequence = file.sequence + 1 ∧ commitment.previousRoot = file.root ∧
        next = tracker.anchor commitment.sequence commitment.root := by
  rw [Accepting] at called
  split at called
  case h_2 reason raised =>
    left
    rw [called.1]
    exact ⟨nofun, called.2⟩
  case h_1 answer written returned =>
    obtain ⟨answered, rfl⟩ := called
    rw [RollbackTracker.accept, bind_eq_ok] at returned
    obtain ⟨anchor, loaded, returned⟩ := returned
    rw [bind_eq_ok] at returned
    obtain ⟨commitment, authentic, returned⟩ := returned
    obtain ⟨rfl, -⟩ := RollbackTracker.load_eq_ok.mp loaded
    split at returned
    case isTrue current =>
      rw [pure_eq_ok, Prod.mk.injEq] at returned
      obtain ⟨rfl, rfl⟩ := returned
      left
      rw [answered]
      exact ⟨nofun, rfl⟩
    case isFalse =>
      rw [require_bind_eq_ok, pure_eq_ok, Prod.mk.injEq, Bool.and_eq_true, beq_iff_eq,
        beq_iff_eq] at returned
      obtain ⟨⟨next, previous⟩, rfl, rfl⟩ := returned
      exact .inr ⟨commitment, answered, authentic, next, previous, rfl⟩

theorem TrackerEvent.accepted?_of_ne {event : TrackerEvent} (kept : event.answer ≠ .ok true) :
    event.accepted? library = none := by
  rw [accepted?]
  split
  case h_1 taken => exact absurd taken kept
  case h_2 => rfl

theorem TrackerEvent.accepted?_of_read {event : TrackerEvent} {commitment : Commitment String}
    (taken : event.answer = .ok true)
    (read : readCommitment library event.served = .ok commitment) :
    event.accepted? library = some commitment := by
  rw [accepted?, taken, read]
  rfl

/-! ## Chains -/

theorem HashChain.bodies_eq (apart : RootsApart library) {collection : String}
    {one two : List (Commitment String)} {sequence other : Nat} {root last : String}
    (first : HashChain library collection one sequence root)
    (second : HashChain library collection two other last) (sameLength : sequence = other)
    (sameRoot : root = last) :
    one.map Commitment.toCommitmentBody = two.map Commitment.toCommitmentBody := by
  induction first generalizing two other last with
  | nil =>
    cases second with
    | nil => rfl
    | concat => omega
  | concat before checked digest named next previous rooted induction =>
    cases second with
    | nil => omega
    | concat twoBefore twoChecked twoDigest twoNamed twoNext twoPrevious twoRooted =>
      have same := CommitmentBody.transcript_inj checked twoChecked
        (apart _ _ checked twoChecked (rooted.symm.trans (sameRoot.trans twoRooted)))
      have earlier := induction twoBefore (by omega)
        (previous.symm.trans ((congrArg CommitmentBody.previousRoot same).trans twoPrevious))
      rw [List.map_append, List.map_append, earlier, List.map_singleton, List.map_singleton,
        same]

theorem HashChain.sequence_eq (apart : RootsApart library) {collection : String}
    {one two : List (Commitment String)} {sequence other : Nat} {root : String}
    (first : HashChain library collection one sequence root)
    (second : HashChain library collection two other root)
    (founding : sequence = 0 ↔ root = zeroRoot) (twoFounding : other = 0 ↔ root = zeroRoot) :
    sequence = other := by
  generalize lastOne : root = last at first founding
  cases first with
  | nil => exact (twoFounding.mpr (lastOne.trans rfl)).symm
  | concat before checked digest named next previous rooted =>
    generalize lastTwo : root = final at second twoFounding
    cases second with
    | nil => exact absurd (founding.mpr (lastOne.symm.trans lastTwo)) (by omega)
    | concat twoBefore twoChecked twoDigest twoNamed twoNext twoPrevious twoRooted =>
      have same := CommitmentBody.transcript_inj checked twoChecked
        (apart _ _ checked twoChecked
          (rooted.symm.trans (lastOne.symm.trans (lastTwo.trans twoRooted))))
      rw [← next, ← twoNext, same]

theorem HashChain.bounds {collection : String} {chain : List (Commitment String)}
    {sequence : Nat} {root : String}
    (chained : HashChain library collection chain sequence root) :
    isSha256 root = true ∧ sequence ≤ 9007199254740991 ∧ (sequence = 0 → root = zeroRoot) := by
  cases chained with
  | nil => exact ⟨isSha256_replicate (by decide), Nat.zero_le _, fun _ => rfl⟩
  | concat before checked digest named next previous rooted =>
    rw [CommitmentBody.isChecked, isCommitmentSequence, Bool.and_eq_true, Bool.and_eq_true,
      Bool.and_eq_true, Bool.and_eq_true, decide_eq_true_iff, decide_eq_true_iff] at checked
    refine ⟨digest, ?_, ?_⟩
    · omega
    · omega

/-- What is known of the file after the listed events -/
structure Accepted (library : TrackerLibrary) (tracker : RollbackTracker)
    (events : List TrackerEvent) (file : Anchor) : Prop where
  own : file = tracker.anchor file.sequence file.root
  chained : HashChain library tracker.collection
    (events.filterMap (TrackerEvent.accepted? library)) file.sequence file.root
  authentic : ∀ event ∈ events, event.answer = .ok true → ∃ commitment,
    tracker.authenticate library event.served event.state = .ok commitment ∧
      event.accepted? library = some commitment

theorem Accepted.step {events : List TrackerEvent} {file next : Anchor} {event : TrackerEvent}
    (accepted : Accepted library tracker events file)
    (called : Accepting library tracker file event next) :
    Accepted library tracker (events ++ [event]) next := by
  obtain ⟨kept, rfl⟩ | ⟨commitment, taken, authentic, sequence, previous, rfl⟩ := called.cases
  · refine ⟨accepted.own, ?_, ?_⟩
    · rw [List.filterMap_append, List.filterMap_cons_none (event.accepted?_of_ne kept),
        List.filterMap_nil, List.append_nil]
      exact accepted.chained
    · intro other listed answered
      rcases List.mem_append.mp listed with earlier | last
      · exact accepted.authentic other earlier answered
      · cases List.mem_singleton.mp last
        exact absurd answered kept
  · obtain ⟨read, -, named, -⟩ := RollbackTracker.of_authenticate authentic
    obtain ⟨checked, digest, -, rooted⟩ := checked_of_readCommitment read
    have taken? := event.accepted?_of_read taken read
    refine ⟨rfl, ?_, ?_⟩
    · rw [List.filterMap_append, List.filterMap_cons_some taken?, List.filterMap_nil]
      have extended := HashChain.concat accepted.chained checked digest named sequence previous
        rooted
      rw [← sequence] at extended
      exact extended
    · intro other listed answered
      rcases List.mem_append.mp listed with earlier | last
      · exact accepted.authentic other earlier answered
      · cases List.mem_singleton.mp last
        exact ⟨commitment, authentic, taken?⟩

theorem Accepted.of_run {events : List TrackerEvent} {final : Anchor}
    (run : Run (Accepting library tracker) (tracker.anchor 0 zeroRoot) events final) :
    Accepted library tracker events final := by
  apply run.invariant_history (Accepted library tracker)
  · intro past file event next called accepted
    exact accepted.step called
  · refine ⟨rfl, .nil, ?_⟩
    intro event listed
    cases listed

theorem Accepted.load {events : List TrackerEvent} {file : Anchor}
    (accepted : Accepted library tracker events file) :
    tracker.load file = .ok file ↔ (file.sequence = 0 ↔ file.root = zeroRoot) := by
  rw [RollbackTracker.load_eq_ok]
  constructor
  · rintro ⟨-, -, -, -, founding⟩
    exact founding
  · intro founding
    obtain ⟨root, most, -⟩ := accepted.chained.bounds
    exact ⟨rfl, accepted.own, most, root, founding⟩

theorem RollbackTracker.accept_again {file : Anchor} {served : Served} {state : Bytes}
    {commitment : Commitment String} (loaded : tracker.load file = .ok file)
    (authentic : tracker.authenticate library served state = .ok commitment)
    (sequence : commitment.sequence = file.sequence) (root : commitment.root = file.root) :
    tracker.accept library file served state = .ok (false, file) := by
  rw [accept, loaded, ok_bind, authentic, ok_bind, if_pos ⟨sequence, root⟩]
  rfl

/-- Whatever a server sends, the number of the checkpoint grows one by one, the accepted
commitments are a chain from the zero root, a call that raised leaves the checkpoint, the
commitment of the checkpoint is answered with `False`, and trackers whose checkpoints have the
same root accepted the same states. -/
theorem accepted_chain (library : TrackerLibrary) (apart : RootsApart library)
    (tracker : RollbackTracker) (events : List TrackerEvent) (final : Anchor)
    (run : Run (Accepting library tracker) (tracker.anchor 0 zeroRoot) events final) :
    HashChain library tracker.collection
        (events.filterMap (TrackerEvent.accepted? library)) final.sequence final.root ∧
      (∀ event ∈ events, event.answer = .ok true → ∃ commitment,
        event.accepted? library = some commitment ∧
          servedDigest library event.state = .ok commitment.stateSha256 ∧
          library.verifies tracker.publicKey commitment.signatureB64 commitment.root = true) ∧
      (∀ event next, Accepting library tracker final event next →
        (event.answer = .ok true ∧ next.sequence = final.sequence + 1) ∨
          event.answer ≠ .ok true ∧ next = final) ∧
      (tracker.load final = .ok final ↔ (final.sequence = 0 ↔ final.root = zeroRoot)) ∧
      (tracker.load final = .ok final → ∀ served state commitment,
        tracker.authenticate library served state = .ok commitment →
        commitment.sequence = final.sequence → commitment.root = final.root →
        tracker.accept library final served state = .ok (false, final)) ∧
      ∀ (other : RollbackTracker) (others : List TrackerEvent) (last : Anchor),
        other.collection = tracker.collection →
        Run (Accepting library other) (other.anchor 0 zeroRoot) others last →
        tracker.load final = .ok final → other.load last = .ok last → final.root = last.root →
        (events.filterMap (TrackerEvent.accepted? library)).map (·.stateSha256) =
          (others.filterMap (TrackerEvent.accepted? library)).map (·.stateSha256) := by
  have accepted := Accepted.of_run run
  refine ⟨accepted.chained, ?_, ?_, accepted.load, ?_, ?_⟩
  · intro event listed taken
    obtain ⟨commitment, authentic, same⟩ := accepted.authentic event listed taken
    obtain ⟨-, digest, -, verified⟩ := RollbackTracker.of_authenticate authentic
    exact ⟨commitment, same, digest, verified⟩
  · intro event next called
    obtain ⟨kept, same⟩ | ⟨commitment, taken, -, sequence, -, written⟩ := called.cases
    · exact .inr ⟨kept, same⟩
    · exact .inl ⟨taken, written ▸ sequence⟩
  · intro loaded served state commitment authentic sequence root
    exact RollbackTracker.accept_again loaded authentic sequence root
  · intro other others last collection otherRun loaded otherLoaded sameRoot
    have otherAccepted := Accepted.of_run otherRun
    have first := accepted.chained
    have second := otherAccepted.chained
    have founding := accepted.load.mp loaded
    have otherFounding := otherAccepted.load.mp otherLoaded
    rw [collection, ← sameRoot] at second
    rw [← sameRoot] at otherFounding
    have bodies := first.bodies_eq apart second
      (first.sequence_eq apart second founding otherFounding) rfl
    have digests := congrArg (List.map CommitmentBody.stateSha256) bodies
    rw [List.map_map, List.map_map] at digests
    exact digests

/-! ## A tracker that accepted one state -/

def plainState : Bytes := List.replicate 16 0

def plainStateDigest : String :=
  "374708fff7719dd5979ec875d56cd2286f6d3cf7ec317a3b25632aab28ec37bb"

def plainTracked : CommitmentBody String :=
  ⟨"vault", 1, "0000000000000000000000000000000000000000000000000000000000000000",
    plainStateDigest⟩

def plainRoot : String :=
  "f2c532c551e2ee657b96089578f4188f894c313a74aaf20d49e5b4b1ee171cb6"

def plainTrackedSignature : String :=
  "S/Ed1s4MCGc1psjx2k0X+MnzJxIhZiAzRI7LaMqDBup2FJdl0oAEeuf505yhPc174KzRO7ylQqvdgWJTB7VDCg=="

def plainSigner : Bytes :=
  [59, 106, 39, 188, 206, 182, 164, 45, 98, 163, 168, 208, 42, 111, 13, 115, 101, 50, 21, 119, 29,
    226, 67, 166, 58, 192, 72, 161, 139, 89, 218, 41]

/-- The digests of one state and one transcript. Other texts are taken for their own. -/
def plainTrackerLibrary : TrackerLibrary where
  hexdigest codes :=
    if codes = plainState.map UInt8.toNat then plainStateDigest
    else if codes = plainTracked.transcript.map Char.toNat then plainRoot
    else String.ofList ('z' :: codes.map Char.ofNat)
  verifies key signature root :=
    decide (key = plainSigner ∧ signature = plainTrackedSignature ∧ root = plainRoot)

theorem rootsApart_plain : RootsApart plainTrackerLibrary := by
  intro one two _ _ same
  have codes : ∀ text : List Char, (text.map Char.toNat).map Char.ofNat = text := by
    intro text
    rw [List.map_map]
    exact (List.map_congr_left fun letter _ => Char.ofNat_toNat letter).trans text.map_id
  have other : ∀ text : List Char, ∀ digest : String, digest.toList.head? ≠ some 'z' →
      String.ofList ('z' :: text) ≠ digest := by
    intro text digest head equal
    rw [← equal, String.toList_ofList] at head
    exact head rfl
  have heads : plainStateDigest.toList.head? ≠ some 'z' ∧ plainRoot.toList.head? ≠ some 'z' ∧
      plainStateDigest ≠ plainRoot := by
    decide
  rw [← codes one.transcript, ← codes two.transcript]
  simp only [commitmentRoot, plainTrackerLibrary] at same
  generalize one.transcript.map Char.toNat = first at same
  generalize two.transcript.map Char.toNat = second at same
  split at same
  case isTrue stateFirst =>
    split at same
    case isTrue stateSecond => rw [stateFirst, stateSecond]
    case isFalse =>
      split at same
      · exact absurd same heads.2.2
      · exact absurd same.symm (other _ _ heads.1)
  case isFalse =>
    split at same
    case isTrue trackedFirst =>
      split at same
      · exact absurd same.symm heads.2.2
      · split at same
        case isTrue trackedSecond => rw [trackedFirst, trackedSecond]
        case isFalse => exact absurd same.symm (other _ _ heads.2.1)
    case isFalse =>
      split at same
      · exact absurd same (other _ _ heads.1)
      · split at same
        · exact absurd same (other _ _ heads.2.1)
        · rw [String.ofList_inj, List.cons_eq_cons] at same
          exact same.2

def plainServed : Served :=
  [("format", .text "atlasvault-state-commitment"), ("version", .integer 1),
    ("collection_id", .text "vault"), ("sequence", .integer 1),
    ("previous_root", .text plainTracked.previousRoot), ("state_sha256", .text plainStateDigest),
    ("root", .text plainRoot), ("signature_b64", .text plainTrackedSignature)]

def plainTracker : RollbackTracker := ⟨"vault", plainSigner⟩

theorem plain_accepted : (plainTracker.accept plainTrackerLibrary (plainTracker.anchor 0 zeroRoot)
    plainServed plainState).toOption = some (true, plainTracker.anchor 1 plainRoot) := by
  decide +kernel

/-- A state accepted from a new tracker is the checkpoint. -/
theorem accepted_chain_plain :
    ∃ events final, Run (Accepting plainTrackerLibrary plainTracker)
      (plainTracker.anchor 0 zeroRoot) events final ∧ final = plainTracker.anchor 1 plainRoot ∧
      HashChain plainTrackerLibrary plainTracker.collection
        (events.filterMap (TrackerEvent.accepted? plainTrackerLibrary)) final.sequence
        final.root := by
  have accepted := eq_ok_of_isSome (Option.isSome_iff_exists.mpr ⟨_, plain_accepted⟩)
    (true, plainTracker.anchor 1 plainRoot)
  rw [plain_accepted, Option.getD_some] at accepted
  have run := run_of_accept accepted
  exact ⟨_, _, run, rfl,
    (accepted_chain plainTrackerLibrary rootsApart_plain plainTracker _ _ run).1⟩

end JobAgg.EpochVault
