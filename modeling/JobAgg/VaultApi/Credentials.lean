import JobAgg.Foundation.Run
import JobAgg.Foundation.Tally
import JobAgg.VaultApi.RateLimiter

/-! # Challenges and sessions

A device proves that it holds its key by answering a challenge, and is granted a session for
it. The proof is checked outside the lock, so the challenge is taken in one locked section
and the session added in another. -/

namespace JobAgg.VaultApi

variable {Digest : Type} [DecidableEq Digest]

/-- The fields of an `AbuseControlPolicy` that limit credentials. -/
structure CredentialPolicy where
  maxChallenges : Nat
  maxChallengesPerDevice : Nat
  maxSessions : Nat
  maxSessionsPerDevice : Nat

def authorizationFailed : String := "AuthorizationFailed"

def challengeLifetimeSeconds : ℚ := 120

def sessionLifetimeSeconds : ℚ := 900

abbrev DeviceKey : Type := String × String

/-- `_Challenge`. The serial is that of its slot among the expiries: a challenge id may be
drawn again, a serial is not. -/
structure Challenge where
  deviceId : String
  expiresAt : ℚ
  serial : Nat
deriving DecidableEq

/-- What a slot among the challenge expiries names: the challenge and the device. -/
abbrev ChallengeSlot : Type := (String × String) × DeviceKey

structure Challenges where
  table : Dict (String × String) Challenge
  expiries : List (Expiry ChallengeSlot)
  perDevice : Dict DeviceKey Nat
  nextExpirySequence : Nat

def Challenges.empty : Challenges := ⟨∅, [], ∅, 0⟩

/-- What `_prune_expired_challenges` does with a slot that it pops: the challenge goes if it
is expired itself, the slot is released. -/
def dropChallengeSlot (now : ℚ) (slot : ChallengeSlot)
    (kept : Dict (String × String) Challenge × Dict DeviceKey Nat) :
    Dict (String × String) Challenge × Dict DeviceKey Nat :=
  (if (kept.1.lookup slot.1).any (·.expiresAt ≤ now) then kept.1.erase slot.1 else kept.1,
    Dict.release slot.2 kept.2)

/-- `_prune_expired_challenges` -/
def Challenges.prune (now : ℚ) (challenges : Challenges) : Challenges :=
  let (expiries, table, perDevice) := Expiry.pruneAll now (dropChallengeSlot now)
    challenges.expiries (challenges.table, challenges.perDevice)
  { challenges with table := table, expiries := expiries, perDevice := perDevice }

/-- The end of `issue_challenge` -/
def Challenges.add (accountId deviceId challengeId : String) (now : ℚ) (challenges : Challenges) :
    Challenges :=
  let serial := challenges.nextExpirySequence + 1
  let expiresAt := now + challengeLifetimeSeconds
  { table := challenges.table.insert (accountId, challengeId) ⟨deviceId, expiresAt, serial⟩
    expiries := Expiry.push ⟨expiresAt, serial, (accountId, challengeId), accountId, deviceId⟩
      challenges.expiries
    perDevice := challenges.perDevice.insert (accountId, deviceId)
      (Dict.countOf challenges.perDevice (accountId, deviceId) + 1)
    nextExpirySequence := serial }

/-! ## Sessions -/

structure Session where
  accountId : String
  deviceId : String
  expiresAt : ℚ
deriving DecidableEq

def Session.deviceKey (session : Session) : DeviceKey := (session.accountId, session.deviceId)

structure Sessions (Digest : Type) [DecidableEq Digest] where
  table : Dict Digest Session
  expiries : List (Expiry Digest)
  perDevice : Dict DeviceKey Nat
  nextExpirySequence : Nat

def Sessions.empty : Sessions Digest := ⟨∅, [], ∅, 0⟩

def dropSession (digest : Digest) (kept : Dict Digest Session × Dict DeviceKey Nat) :
    Dict Digest Session × Dict DeviceKey Nat :=
  match kept.1.lookup digest with
  | none => kept
  | some session => (kept.1.erase digest, Dict.release session.deviceKey kept.2)

/-- What `_prune_expired_sessions` does with a digest that it pops -/
def dropExpiredSession (now : ℚ) (digest : Digest)
    (kept : Dict Digest Session × Dict DeviceKey Nat) :
    Dict Digest Session × Dict DeviceKey Nat :=
  if (kept.1.lookup digest).any (·.expiresAt ≤ now) then dropSession digest kept else kept

/-- `_prune_expired_sessions` -/
def Sessions.prune (now : ℚ) (sessions : Sessions Digest) : Sessions Digest :=
  let (expiries, table, perDevice) := Expiry.pruneAll now (dropExpiredSession now)
    sessions.expiries (sessions.table, sessions.perDevice)
  { sessions with table := table, expiries := expiries, perDevice := perDevice }

def Sessions.drop (digest : Digest) (sessions : Sessions Digest) : Sessions Digest :=
  let (table, perDevice) := dropSession digest (sessions.table, sessions.perDevice)
  { sessions with table := table, perDevice := perDevice }

/-- The end of `create_session` -/
def Sessions.add (accountId deviceId : String) (digest : Digest) (now : ℚ)
    (sessions : Sessions Digest) : Sessions Digest :=
  let serial := sessions.nextExpirySequence + 1
  let expiresAt := now + sessionLifetimeSeconds
  { table := sessions.table.insert digest ⟨accountId, deviceId, expiresAt⟩
    expiries := Expiry.push ⟨expiresAt, serial, digest⟩ sessions.expiries
    perDevice := sessions.perDevice.insert (accountId, deviceId)
      (Dict.countOf sessions.perDevice (accountId, deviceId) + 1)
    nextExpirySequence := serial }

/-! ## The backend -/

/-- The part of an `AtlasVaultBackend` that keeps credentials. -/
structure Backend (Digest : Type) [DecidableEq Digest] where
  accounts : Dict String (Finset String)
  challenges : Challenges
  sessions : Sessions Digest
  lastAccountClock : Option ℚ

def Backend.empty : Backend Digest := ⟨∅, .empty, .empty, none⟩

def Backend.hasDevice (backend : Backend Digest) (accountId deviceId : String) : Bool :=
  (backend.accounts.lookup accountId).any (deviceId ∈ ·)

/-- The end of `bootstrap_account` and of `add_device` -/
def Backend.registerDevice (accountId deviceId : String) (backend : Backend Digest) :
    Backend Digest :=
  let devices := (backend.accounts.lookup accountId).getD ∅
  { backend with accounts := Finmap.insert accountId (insert deviceId devices) backend.accounts }

/-- `_credential_now` with this reading of the clock; none where it raises -/
def Backend.credentialNow (now : ℚ) (backend : Backend Digest) : Option (Backend Digest) :=
  if backend.lastAccountClock.any (now < ·) then none
  else some { backend with lastAccountClock := some now }

section Calls

variable (policy : CredentialPolicy) (accountId deviceId challengeId : String) (now : ℚ)

def Backend.issueChallenge (backend : Backend Digest) : Backend Digest × Except String Challenge :=
  match backend.credentialNow now with
  | none => (backend, .error authorizationFailed)
  | some backend =>
    if backend.hasDevice accountId deviceId = false then (backend, .error authorizationFailed)
    else
      let challenges := backend.challenges.prune now
      let pruned := { backend with challenges := challenges }
      if policy.maxChallenges ≤ challenges.expiries.length then
        (pruned, .error requestRateExceeded)
      else if policy.maxChallengesPerDevice ≤
          Dict.countOf challenges.perDevice (accountId, deviceId) then
        (pruned, .error requestRateExceeded)
      else if (accountId, challengeId) ∈ challenges.table then
        (pruned, .error authorizationFailed)
      else
        ({ backend with challenges := challenges.add accountId deviceId challengeId now },
          .ok ⟨deviceId, now + challengeLifetimeSeconds, challenges.nextExpirySequence + 1⟩)

/-- The first locked section of `create_session`: the challenge that is taken -/
def Backend.takeChallenge (backend : Backend Digest) : Backend Digest × Except String Challenge :=
  match backend.credentialNow now with
  | none => (backend, .error authorizationFailed)
  | some backend =>
    let taken := { backend with challenges :=
      { backend.challenges with table := backend.challenges.table.erase (accountId, challengeId) } }
    match backend.challenges.table.lookup (accountId, challengeId) with
    | none => (taken, .error authorizationFailed)
    | some challenge =>
      if challenge.deviceId = deviceId ∧ now < challenge.expiresAt ∧
          backend.hasDevice accountId deviceId = true then (taken, .ok challenge)
      else (taken, .error authorizationFailed)

/-- The second locked section of `create_session`, for a challenge that was taken -/
def Backend.grantSession (challenge : Challenge) (digest : Digest) (backend : Backend Digest) :
    Backend Digest × Except String Unit :=
  match backend.credentialNow now with
  | none => (backend, .error authorizationFailed)
  | some backend =>
    let sessions := backend.sessions.prune now
    let pruned := { backend with sessions := sessions }
    if policy.maxSessions ≤ sessions.table.size ∨
        policy.maxSessionsPerDevice ≤ Dict.countOf sessions.perDevice (accountId, deviceId) then
      (pruned, .error requestRateExceeded)
    else if backend.hasDevice accountId deviceId = false ∨ challenge.expiresAt ≤ now ∨
        digest ∈ sessions.table then (pruned, .error authorizationFailed)
    else ({ backend with sessions := sessions.add accountId deviceId digest now }, .ok ())

/-- `_authorize_token`, for the token with this digest -/
def Backend.authorizeToken (digest : Digest) (backend : Backend Digest) :
    Backend Digest × Except String Session :=
  match backend.credentialNow now with
  | none => (backend, .error authorizationFailed)
  | some timed =>
    match backend.sessions.table.lookup digest with
    | none => ({ timed with sessions := timed.sessions.drop digest }, .error authorizationFailed)
    | some session =>
      if session.expiresAt ≤ now then
        ({ timed with sessions := timed.sessions.drop digest }, .error authorizationFailed)
      else if timed.hasDevice session.accountId session.deviceId then (timed, .ok session)
      else (timed, .error authorizationFailed)

end Calls

/-! ## What the tables and their counters keep -/

section Sound

variable {policy : CredentialPolicy} {challenges : Challenges} {sessions : Sessions Digest}
  {accountId deviceId challengeId : String} {now : ℚ} {device : DeviceKey}

def slotsOf (device : DeviceKey) (expiries : List (Expiry ChallengeSlot)) : Nat :=
  expiries.countP fun entry => decide (entry.item.2 = device)

def Slotted (expiries : List (Expiry ChallengeSlot)) (table : Dict (String × String) Challenge) :
    Prop :=
  ∀ key challenge, table.lookup key = some challenge →
    ⟨challenge.expiresAt, challenge.serial, key, key.1, challenge.deviceId⟩ ∈ expiries

structure ChallengesSound (policy : CredentialPolicy) (challenges : Challenges) : Prop where
  counted : ∀ device, Dict.countOf challenges.perDevice device = slotsOf device challenges.expiries
  slotted : Slotted challenges.expiries challenges.table
  serials : (challenges.expiries.map (·.sequence)).Nodup
  numbered : ∀ entry ∈ challenges.expiries, entry.sequence ≤ challenges.nextExpirySequence
  room : challenges.expiries.length ≤ policy.maxChallenges
  deviceRoom : ∀ device, Dict.countOf challenges.perDevice device ≤ policy.maxChallengesPerDevice

theorem challengesSound_empty : ChallengesSound policy .empty :=
  ⟨fun _ => rfl, nofun, List.nodup_nil, nofun, Nat.zero_le _, fun _ => Nat.zero_le _⟩

theorem slotsOf_cons {entry : Expiry ChallengeSlot} {rest : List (Expiry ChallengeSlot)} :
    slotsOf device (entry :: rest) = slotsOf device rest + if device = entry.item.2 then 1 else 0 := by
  rw [slotsOf, List.countP_cons, ← slotsOf]
  simp only [decide_eq_true_eq, @eq_comm _ device]

theorem dropChallengeSlot_keeps {entry : Expiry ChallengeSlot} {rest : List (Expiry ChallengeSlot)}
    {kept : Dict (String × String) Challenge × Dict DeviceKey Nat} (due : entry.due ≤ now)
    (slotted : Slotted (entry :: rest) kept.1)
    (counted : ∀ device, Dict.countOf kept.2 device = slotsOf device (entry :: rest)) :
    Slotted rest (dropChallengeSlot now entry.item kept).1 ∧
      ∀ device, Dict.countOf (dropChallengeSlot now entry.item kept).2 device =
        slotsOf device rest := by
  constructor
  · intro key challenge found
    rw [dropChallengeSlot] at found
    by_cases expired : (kept.1.lookup entry.item.1).any (·.expiresAt ≤ now) = true
    · rw [if_pos expired] at found
      have different : key ≠ entry.item.1 := by
        rintro rfl
        rw [Finmap.lookup_erase] at found
        cases found
      rw [Finmap.lookup_erase_ne different] at found
      rcases List.mem_cons.mp (slotted key challenge found) with same | member
      · rw [← same] at different
        exact absurd rfl different
      · exact member
    · rw [if_neg expired] at found
      rcases List.mem_cons.mp (slotted key challenge found) with same | member
      · -- the slot would be due, and with it the challenge
        rw [← same, found, Option.any_some, decide_eq_true_eq] at expired
        rw [← same] at due
        exact absurd due expired
      · exact member
  · intro device
    have count := counted device
    have own := counted entry.item.2
    rw [slotsOf_cons] at count own
    rw [dropChallengeSlot, Dict.countOf_release]
    split
    case isTrue same =>
      rw [if_pos rfl] at own
      rw [own, same]
      omega
    case isFalse different =>
      rw [if_neg different] at count
      omega

theorem prune_challenges (now : ℚ) (sound : ChallengesSound policy challenges) :
    ChallengesSound policy (challenges.prune now) ∧
      (challenges.prune now).nextExpirySequence = challenges.nextExpirySequence ∧
      ∀ key challenge, (challenges.prune now).table.lookup key = some challenge →
        challenges.table.lookup key = some challenge := by
  have kept := @Expiry.pruneAll_keeps ChallengeSlot
    (Dict (String × String) Challenge × Dict DeviceKey Nat) challenges.expiries now
    (dropChallengeSlot now) (challenges.table, challenges.perDevice)
    (fun heap kept => Slotted heap kept.1 ∧
      (∀ device, Dict.countOf kept.2 device = slotsOf device heap) ∧
      heap <:+ challenges.expiries ∧
      ∀ key challenge, kept.1.lookup key = some challenge →
        challenges.table.lookup key = some challenge)
    (by
      rintro entry rest kept due ⟨slotted, counted, suffix, before⟩
      obtain ⟨slotted, counted⟩ := dropChallengeSlot_keeps due slotted counted
      refine ⟨slotted, counted, (List.suffix_cons entry rest).trans suffix, ?_⟩
      intro key challenge found
      rw [dropChallengeSlot] at found
      apply before
      dsimp only at found
      split at found
      case isTrue =>
        by_cases same : key = entry.item.1
        · rw [same, Finmap.lookup_erase] at found
          cases found
        · rwa [Finmap.lookup_erase_ne same] at found
      case isFalse => exact found)
    ⟨sound.slotted, sound.counted, List.suffix_refl _, fun _ _ found => found⟩
  obtain ⟨slotted, counted, suffix, before⟩ := kept
  refine ⟨⟨counted, slotted, ?_, ?_, ?_, ?_⟩, rfl, before⟩
  · exact sound.serials.sublist (suffix.sublist.map _)
  · intro entry member
    exact sound.numbered entry (suffix.subset member)
  · exact suffix.length_le.trans sound.room
  · intro device
    have count : Dict.countOf (challenges.prune now).perDevice device =
        slotsOf device (challenges.prune now).expiries := counted device
    rw [count]
    have fewer : slotsOf device (challenges.prune now).expiries ≤
        slotsOf device challenges.expiries := suffix.sublist.countP_le
    have room := sound.deviceRoom device
    rw [sound.counted device] at room
    exact fewer.trans room

theorem ChallengesSound.size_le (sound : ChallengesSound policy challenges) :
    challenges.table.size ≤ challenges.expiries.length := by
  have inside : challenges.table.size ≤ (challenges.expiries.map (·.item.1)).toFinset.card := by
    apply Dict.size_le_of_keys
    intro key known
    obtain ⟨challenge, found⟩ := Finmap.mem_iff.mp known
    rw [List.mem_toFinset, List.mem_map]
    exact ⟨_, sound.slotted key challenge found, rfl⟩
  have listed := (challenges.expiries.map (·.item.1)).toFinset_card_le
  rw [List.length_map] at listed
  exact inside.trans listed

theorem ChallengesSound.serial_injective (sound : ChallengesSound policy challenges)
    {key other : String × String} {challenge rival : Challenge}
    (found : challenges.table.lookup key = some challenge)
    (otherFound : challenges.table.lookup other = some rival)
    (same : challenge.serial = rival.serial) : key = other := by
  have entries := List.inj_on_of_nodup_map sound.serials (sound.slotted key challenge found)
    (sound.slotted other rival otherFound) same
  rw [Expiry.mk.injEq, Prod.mk.injEq] at entries
  exact entries.2.2.1

theorem challengesSound_add (sound : ChallengesSound policy challenges)
    (room : challenges.expiries.length < policy.maxChallenges)
    (deviceRoom : Dict.countOf challenges.perDevice (accountId, deviceId) <
      policy.maxChallengesPerDevice) :
    ChallengesSound policy (challenges.add accountId deviceId challengeId now) := by
  refine ⟨?_, ?_, ?_, ?_, ?_, ?_⟩
  · intro device
    have pushed : slotsOf device (challenges.add accountId deviceId challengeId now).expiries =
        _ := Expiry.push_perm.countP_eq _
    rw [pushed, ← slotsOf, slotsOf_cons, ← sound.counted, Challenges.add, Dict.countOf_insert]
    split
    case isTrue same => rw [same]
    case isFalse => rfl
  · intro key challenge found
    rw [Challenges.add, Dict.lookup_insert_eq] at found
    rw [Challenges.add, Expiry.mem_push]
    split at found
    case isTrue same =>
      cases found
      rw [same]
      exact .inl rfl
    case isFalse => exact .inr (sound.slotted key challenge found)
  · rw [Challenges.add, (Expiry.push_perm.map (·.sequence)).nodup_iff, List.map_cons,
      List.nodup_cons]
    refine ⟨?_, sound.serials⟩
    intro listed
    obtain ⟨entry, member, same⟩ := List.mem_map.mp listed
    have numbered := sound.numbered entry member
    dsimp only at same
    omega
  · intro entry member
    rw [Challenges.add, Expiry.mem_push] at member
    rcases member with rfl | member
    · exact le_refl _
    · exact (sound.numbered entry member).trans (Nat.le_succ _)
  · rw [Challenges.add, Expiry.push_perm.length_eq]
    exact room
  · intro device
    rw [Challenges.add, Dict.countOf_insert]
    split
    case isTrue => exact deviceRoom
    case isFalse => exact sound.deviceRoom device

theorem ChallengesSound.erase (sound : ChallengesSound policy challenges)
    (key : String × String) :
    ChallengesSound policy { challenges with table := challenges.table.erase key } := by
  refine ⟨sound.counted, ?_, sound.serials, sound.numbered, sound.room, sound.deviceRoom⟩
  intro other challenge found
  by_cases same : other = key
  · rw [same, Finmap.lookup_erase] at found
    cases found
  · rw [Finmap.lookup_erase_ne same] at found
    exact sound.slotted other challenge found

def sessionsOf (device : DeviceKey) (table : Dict Digest Session) : Nat :=
  Dict.sum (fun _ session => if session.deviceKey = device then 1 else 0) table

structure SessionsSound (policy : CredentialPolicy) (sessions : Sessions Digest) : Prop where
  counted : ∀ device, Dict.countOf sessions.perDevice device = sessionsOf device sessions.table
  room : sessions.table.size ≤ policy.maxSessions
  deviceRoom : ∀ device, Dict.countOf sessions.perDevice device ≤ policy.maxSessionsPerDevice

theorem sessionsSound_empty : SessionsSound policy (.empty : Sessions Digest) := by
  refine ⟨?_, ?_, fun _ => Nat.zero_le _⟩
  · intro device
    exact Dict.sum_empty.symm
  · exact Dict.size_empty.trans_le (Nat.zero_le _)

theorem sessionsOf_insert {table : Dict Digest Session} {digest : Digest} {session : Session}
    (fresh : digest ∉ table) : sessionsOf device (table.insert digest session) =
      sessionsOf device table + if device = session.deviceKey then 1 else 0 := by
  rw [sessionsOf, Dict.sum_insert_of_notMem fresh, ← sessionsOf]
  simp only [eq_comm]

theorem dropSession_keeps {digest : Digest} {kept : Dict Digest Session × Dict DeviceKey Nat}
    (counted : ∀ device, Dict.countOf kept.2 device = sessionsOf device kept.1) (device : DeviceKey) :
    Dict.countOf (dropSession digest kept).2 device =
      sessionsOf device (dropSession digest kept).1 := by
  rw [dropSession]
  split
  case h_1 => exact counted device
  case h_2 session found =>
    have count := counted device
    have changed : sessionsOf device (kept.1.erase digest) + _ = sessionsOf device kept.1 :=
      Dict.sum_erase
    rw [Dict.weigh_of_lookup found] at changed
    dsimp only
    rw [Dict.countOf_release]
    split
    case isTrue same =>
      rw [if_pos same.symm] at changed
      rw [← same, count]
      omega
    case isFalse different =>
      rw [if_neg fun same => different same.symm] at changed
      rw [count]
      omega

theorem lookup_of_dropSession {digest other : Digest} {session : Session}
    {kept : Dict Digest Session × Dict DeviceKey Nat}
    (found : (dropSession digest kept).1.lookup other = some session) :
    kept.1.lookup other = some session := by
  rw [dropSession] at found
  split at found
  case h_1 => exact found
  case h_2 dropped known =>
    by_cases same : other = digest
    · rw [same, Finmap.lookup_erase] at found
      cases found
    · rwa [Finmap.lookup_erase_ne same] at found

theorem SessionsSound.fewer {after : Sessions Digest} (sound : SessionsSound policy sessions)
    (counted : ∀ device, Dict.countOf after.perDevice device = sessionsOf device after.table)
    (before : ∀ digest session, after.table.lookup digest = some session →
      sessions.table.lookup digest = some session) :
    SessionsSound policy after := by
  have inside : after.table.keys ⊆ sessions.table.keys := by
    intro digest known
    rw [Finmap.mem_keys, Finmap.mem_iff] at known
    obtain ⟨session, found⟩ := known
    rw [Finmap.mem_keys]
    exact Finmap.mem_of_lookup_eq_some (before digest session found)
  refine ⟨counted, (Finset.card_le_card inside).trans sound.room, ?_⟩
  intro device
  have room := sound.deviceRoom device
  rw [sound.counted] at room
  rw [counted]
  exact (Dict.sum_le_sum before).trans room

theorem drop_sessions (sound : SessionsSound policy sessions) (digest : Digest) :
    SessionsSound policy (sessions.drop digest) ∧
      ∀ other session, (sessions.drop digest).table.lookup other = some session →
        sessions.table.lookup other = some session := by
  have before (other : Digest) (session : Session)
      (found : (sessions.drop digest).table.lookup other = some session) :
      sessions.table.lookup other = some session := lookup_of_dropSession found
  exact ⟨sound.fewer (dropSession_keeps sound.counted) before, before⟩

theorem prune_sessions (now : ℚ) (sound : SessionsSound policy sessions) :
    SessionsSound policy (sessions.prune now) ∧
      ∀ digest session, (sessions.prune now).table.lookup digest = some session →
        sessions.table.lookup digest = some session := by
  have kept := @Expiry.pruneAll_keeps Digest (Dict Digest Session × Dict DeviceKey Nat)
    sessions.expiries now (dropExpiredSession now) (sessions.table, sessions.perDevice)
    (fun _ kept => (∀ device, Dict.countOf kept.2 device = sessionsOf device kept.1) ∧
      ∀ digest session, kept.1.lookup digest = some session →
        sessions.table.lookup digest = some session)
    (by
      rintro entry rest kept - ⟨counted, before⟩
      rw [dropExpiredSession]
      split
      case isTrue =>
        refine ⟨dropSession_keeps counted, ?_⟩
        intro digest session found
        exact before digest session (lookup_of_dropSession found)
      case isFalse => exact ⟨counted, before⟩)
    ⟨sound.counted, fun _ _ found => found⟩
  exact ⟨sound.fewer kept.1 kept.2, kept.2⟩

theorem sessionsSound_add {digest : Digest} (sound : SessionsSound policy sessions)
    (fresh : digest ∉ sessions.table) (room : sessions.table.size < policy.maxSessions)
    (deviceRoom : Dict.countOf sessions.perDevice (accountId, deviceId) <
      policy.maxSessionsPerDevice) :
    SessionsSound policy (sessions.add accountId deviceId digest now) := by
  refine ⟨?_, ?_, ?_⟩
  · intro device
    have own : (⟨accountId, deviceId, now + sessionLifetimeSeconds⟩ : Session).deviceKey =
        (accountId, deviceId) := rfl
    rw [Sessions.add, sessionsOf_insert fresh, own, Dict.countOf_insert, ← sound.counted]
    by_cases same : device = (accountId, deviceId)
    · rw [if_pos same, if_pos same, same]
    · rw [if_neg same, if_neg same, Nat.add_zero]
  · rw [Sessions.add, Dict.size_insert_of_notMem fresh]
    exact room
  · intro device
    rw [Sessions.add, Dict.countOf_insert]
    split
    case isTrue => exact deviceRoom
    case isFalse => exact sound.deviceRoom device

end Sound

/-! ## Calls that overlap -/

/-- A `create_session` between its two locked sections. -/
structure Ticket where
  accountId : String
  deviceId : String
  challenge : Challenge
deriving DecidableEq

/-- A backend and the calls of `create_session` that are checking a proof. -/
structure Serving (Digest : Type) [DecidableEq Digest] where
  backend : Backend Digest
  inFlight : List Ticket

def Serving.empty : Serving Digest := ⟨.empty, []⟩

/-- A locked section, with the reading of its clock and what it draws. -/
inductive Call (Digest : Type)
  | registerDevice (accountId deviceId : String)
  | issueChallenge (accountId deviceId challengeId : String) (now : ℚ)
  | takeChallenge (accountId deviceId challengeId : String) (now : ℚ)
  | grantSession (ticket : Ticket) (digest : Digest) (now : ℚ)
  | authorizeToken (digest : Digest) (now : ℚ)

/-- What a locked section brought about. -/
inductive Observation (Digest : Type)
  | issued (serial : Nat) (device : DeviceKey) (expiresAt : ℚ)
  | granted (serial : Nat) (device : DeviceKey) (digest : Digest) (now : ℚ)
  | nothing
deriving DecidableEq

section Perform

variable (policy : CredentialPolicy)

/-- One locked section. A proof may be checked at any length, or not be accepted: the second
section of a `create_session` is for any ticket in flight. -/
def Serving.perform (serving : Serving Digest) : Call Digest → Serving Digest × Observation Digest
  | .registerDevice accountId deviceId =>
    ({ serving with backend := serving.backend.registerDevice accountId deviceId }, .nothing)
  | .issueChallenge accountId deviceId challengeId now =>
    match serving.backend.issueChallenge policy accountId deviceId challengeId now with
    | (backend, .error _) => ({ serving with backend := backend }, .nothing)
    | (backend, .ok challenge) => ({ serving with backend := backend },
        .issued challenge.serial (accountId, deviceId) challenge.expiresAt)
  | .takeChallenge accountId deviceId challengeId now =>
    match serving.backend.takeChallenge accountId deviceId challengeId now with
    | (backend, .error _) => ({ serving with backend := backend }, .nothing)
    | (backend, .ok challenge) =>
      (⟨backend, ⟨accountId, deviceId, challenge⟩ :: serving.inFlight⟩, .nothing)
  | .grantSession ticket digest now =>
    if ticket ∈ serving.inFlight then
      let inFlight := serving.inFlight.erase ticket
      match serving.backend.grantSession policy ticket.accountId ticket.deviceId now
          ticket.challenge digest with
      | (backend, .error _) => (⟨backend, inFlight⟩, .nothing)
      | (backend, .ok _) => (⟨backend, inFlight⟩,
          .granted ticket.challenge.serial (ticket.accountId, ticket.deviceId) digest now)
    else (serving, .nothing)
  | .authorizeToken digest now =>
    ({ serving with backend := (serving.backend.authorizeToken now digest).1 }, .nothing)

def Serving.Step (before : Serving Digest) (observation : Observation Digest)
    (after : Serving Digest) : Prop :=
  ∃ call, before.perform policy call = (after, observation)

def Serving.performAll (serving : Serving Digest) :
    List (Call Digest) → Serving Digest × List (Observation Digest)
  | [] => (serving, [])
  | call :: rest =>
    let (next, observation) := serving.perform policy call
    let (after, observations) := next.performAll rest
    (after, observation :: observations)

end Perform

def issuedSerials (observations : List (Observation Digest)) : List Nat :=
  observations.filterMap fun
    | .issued serial _ _ => some serial
    | _ => none

def grantedSerials (observations : List (Observation Digest)) : List Nat :=
  observations.filterMap fun
    | .granted serial _ _ _ => some serial
    | _ => none

section History

variable {policy : CredentialPolicy} {past : List (Observation Digest)}
  {serving after : Serving Digest} {backend next : Backend Digest}
  {accountId deviceId challengeId reason : String} {now : ℚ} {challenge : Challenge}
  {digest : Digest}

/-- What the observations so far say about the challenges and the sessions that there are. -/
structure Accounted (policy : CredentialPolicy) (past : List (Observation Digest))
    (serving : Serving Digest) : Prop where
  challengesSound : ChallengesSound policy serving.backend.challenges
  sessionsSound : SessionsSound policy serving.backend.sessions
  numbered : ∀ serial ∈ issuedSerials past,
    serial ≤ serving.backend.challenges.nextExpirySequence
  issuedOnce : (issuedSerials past).Nodup
  /-- A challenge that waits was issued under its serial. -/
  waiting : ∀ key challenge, serving.backend.challenges.table.lookup key = some challenge →
    .issued challenge.serial (key.1, challenge.deviceId) challenge.expiresAt ∈ past
  taken : ∀ ticket ∈ serving.inFlight,
    .issued ticket.challenge.serial (ticket.accountId, ticket.deviceId)
      ticket.challenge.expiresAt ∈ past
  granted : ∀ serial device digest now, .granted serial device digest now ∈ past →
    ∃ expiresAt, .issued serial device expiresAt ∈ past ∧ now < expiresAt
  /-- No challenge is in two places. -/
  apart : ∀ key challenge, serving.backend.challenges.table.lookup key = some challenge →
    challenge.serial ∉ serving.inFlight.map (·.challenge.serial) ++ grantedSerials past
  once : (serving.inFlight.map (·.challenge.serial) ++ grantedSerials past).Nodup
  owned : ∀ digest session, serving.backend.sessions.table.lookup digest = some session →
    ∃ serial now, .granted serial session.deviceKey digest now ∈ past ∧
      session.expiresAt = now + sessionLifetimeSeconds

theorem accounted_empty : Accounted policy [] (.empty : Serving Digest) :=
  ⟨challengesSound_empty, sessionsSound_empty, nofun, List.nodup_nil, nofun, nofun, nofun, nofun,
    List.nodup_nil, nofun⟩

/-- No challenge and no session came, and the same serials are to come. -/
structure Fewer (before after : Backend Digest) : Prop where
  sequence : after.challenges.nextExpirySequence = before.challenges.nextExpirySequence
  challenges : ∀ key challenge, after.challenges.table.lookup key = some challenge →
    before.challenges.table.lookup key = some challenge
  sessions : ∀ digest session, after.sessions.table.lookup digest = some session →
    before.sessions.table.lookup digest = some session

theorem Fewer.refl : Fewer backend backend := ⟨rfl, fun _ _ found => found, fun _ _ found => found⟩

theorem Accounted.fewer (accounted : Accounted policy past serving)
    (fewer : Fewer serving.backend after.backend)
    (challengesSound : ChallengesSound policy after.backend.challenges)
    (sessionsSound : SessionsSound policy after.backend.sessions)
    (inFlight : after.inFlight.Sublist serving.inFlight) :
    Accounted policy (past ++ [.nothing]) after := by
  have issuedSame : issuedSerials (past ++ [.nothing]) = issuedSerials past := by
    rw [issuedSerials, List.filterMap_append]
    exact List.append_nil _
  have grantedSame : grantedSerials (past ++ [.nothing]) = grantedSerials past := by
    rw [grantedSerials, List.filterMap_append]
    exact List.append_nil _
  have serials : (after.inFlight.map (·.challenge.serial) ++ grantedSerials past).Sublist
      (serving.inFlight.map (·.challenge.serial) ++ grantedSerials past) :=
    (inFlight.map _).append_right _
  refine ⟨challengesSound, sessionsSound, ?_, ?_, ?_, ?_, ?_, ?_, ?_, ?_⟩
  · rw [issuedSame, fewer.sequence]
    exact accounted.numbered
  · rw [issuedSame]
    exact accounted.issuedOnce
  · intro key challenge found
    exact List.mem_append_left _ (accounted.waiting key challenge (fewer.challenges _ _ found))
  · intro ticket member
    exact List.mem_append_left _ (accounted.taken ticket (inFlight.subset member))
  · intro serial device digest now member
    rw [List.mem_append, List.mem_singleton] at member
    obtain ⟨expiresAt, issued, before⟩ :=
      accounted.granted serial device digest now (member.resolve_right nofun)
    exact ⟨expiresAt, List.mem_append_left _ issued, before⟩
  · intro key challenge found listed
    rw [grantedSame] at listed
    exact accounted.apart key challenge (fewer.challenges _ _ found) (serials.subset listed)
  · rw [grantedSame]
    exact accounted.once.sublist serials
  · intro digest session found
    obtain ⟨serial, now, granted, expires⟩ := accounted.owned _ _ (fewer.sessions _ _ found)
    exact ⟨serial, now, List.mem_append_left _ granted, expires⟩

theorem Accounted.issue (accounted : Accounted policy past serving)
    (challengesSound : ChallengesSound policy next.challenges)
    (sequence : next.challenges.nextExpirySequence =
      serving.backend.challenges.nextExpirySequence + 1)
    (sessions : next.sessions = serving.backend.sessions)
    (serial : challenge.serial = serving.backend.challenges.nextExpirySequence + 1)
    (added : ∀ key other, next.challenges.table.lookup key = some other →
      key = (accountId, challengeId) ∧ other = challenge ∨
        serving.backend.challenges.table.lookup key = some other) :
    Accounted policy
      (past ++ [.issued challenge.serial (accountId, challenge.deviceId) challenge.expiresAt])
      { serving with backend := next } := by
  have issuedMore : issuedSerials
      (past ++ [.issued challenge.serial (accountId, challenge.deviceId) challenge.expiresAt]) =
        issuedSerials past ++ [challenge.serial] := by
    rw [issuedSerials, List.filterMap_append]
    rfl
  have grantedSame : grantedSerials
      (past ++ [.issued challenge.serial (accountId, challenge.deviceId) challenge.expiresAt]) =
        grantedSerials past := by
    rw [grantedSerials, List.filterMap_append]
    exact List.append_nil _
  have issuedBefore {serial : Nat} {device : DeviceKey} {expiresAt : ℚ}
      (member : .issued serial device expiresAt ∈ past) :
      serial ≤ serving.backend.challenges.nextExpirySequence := by
    apply accounted.numbered
    rw [issuedSerials, List.mem_filterMap]
    exact ⟨_, member, rfl⟩
  refine ⟨challengesSound, sessions ▸ accounted.sessionsSound, ?_, ?_, ?_, ?_, ?_, ?_, ?_, ?_⟩
  · intro listed member
    rw [issuedMore, List.mem_append, List.mem_singleton] at member
    rw [sequence]
    rcases member with member | rfl
    · exact (accounted.numbered listed member).trans (Nat.le_succ _)
    · exact serial.le
  · rw [issuedMore, ← List.concat_eq_append, List.nodup_concat]
    refine ⟨?_, accounted.issuedOnce⟩
    intro listed
    have bound := accounted.numbered _ listed
    omega
  · intro key other found
    rcases added key other found with ⟨rfl, rfl⟩ | found
    · exact List.mem_append_right _ List.mem_cons_self
    · exact List.mem_append_left _ (accounted.waiting key other found)
  · intro ticket member
    exact List.mem_append_left _ (accounted.taken ticket member)
  · intro serial device digest now member
    rw [List.mem_append, List.mem_singleton] at member
    obtain ⟨expiresAt, issued, before⟩ :=
      accounted.granted serial device digest now (member.resolve_right nofun)
    exact ⟨expiresAt, List.mem_append_left _ issued, before⟩
  · intro key other found
    rw [grantedSame]
    rcases added key other found with ⟨rfl, rfl⟩ | found
    · -- every serial in flight or granted was issued before
      intro listed
      have bound : other.serial ≤ serving.backend.challenges.nextExpirySequence := by
        rcases List.mem_append.mp listed with listed | listed
        · obtain ⟨ticket, member, same⟩ := List.mem_map.mp listed
          rw [← same]
          exact issuedBefore (accounted.taken ticket member)
        · rw [grantedSerials, List.mem_filterMap] at listed
          obtain ⟨observation, member, same⟩ := listed
          cases observation with
          | issued => cases same
          | nothing => cases same
          | granted serial device digest now =>
            cases same
            obtain ⟨expiresAt, issued, -⟩ := accounted.granted _ _ _ _ member
            exact issuedBefore issued
      omega
    · exact accounted.apart key other found
  · rw [grantedSame]
    exact accounted.once
  · intro digest session found
    rw [sessions] at found
    obtain ⟨serial, now, granted, expires⟩ := accounted.owned _ _ found
    exact ⟨serial, now, List.mem_append_left _ granted, expires⟩

theorem Accounted.take (accounted : Accounted policy past serving)
    (found : serving.backend.challenges.table.lookup (accountId, challengeId) = some challenge)
    (own : challenge.deviceId = deviceId)
    (table : next.challenges = { serving.backend.challenges with
      table := serving.backend.challenges.table.erase (accountId, challengeId) })
    (sessions : next.sessions = serving.backend.sessions) :
    Accounted policy (past ++ [.nothing])
      ⟨next, ⟨accountId, deviceId, challenge⟩ :: serving.inFlight⟩ := by
  have fewer : Fewer serving.backend next := by
    refine ⟨?_, ?_, ?_⟩
    · rw [table]
    · intro key other left
      rw [table] at left
      by_cases same : key = (accountId, challengeId)
      · rw [same, Finmap.lookup_erase] at left
        cases left
      · rwa [Finmap.lookup_erase_ne same] at left
    · rw [sessions]
      exact fun _ _ found => found
  have challengesSound : ChallengesSound policy next.challenges := by
    rw [table]
    exact accounted.challengesSound.erase (accountId, challengeId)
  have sessionsSound : SessionsSound policy next.sessions := sessions ▸ accounted.sessionsSound
  have kept : Accounted policy (past ++ [.nothing]) ⟨next, serving.inFlight⟩ :=
    accounted.fewer fewer challengesSound sessionsSound (List.Sublist.refl _)
  have grantedSame : grantedSerials (past ++ [.nothing]) = grantedSerials past := by
    rw [grantedSerials, List.filterMap_append]
    exact List.append_nil _
  refine ⟨kept.challengesSound, kept.sessionsSound, kept.numbered, kept.issuedOnce, kept.waiting,
    ?_, kept.granted, ?_, ?_, kept.owned⟩
  · intro ticket member
    rcases List.mem_cons.mp member with rfl | member
    · have issued := accounted.waiting _ _ found
      rw [own] at issued
      exact List.mem_append_left _ issued
    · exact kept.taken ticket member
  · intro key other left listed
    rcases List.mem_cons.mp listed with same | listed
    · have keys := accounted.challengesSound.serial_injective (fewer.challenges _ _ left) found same
      rw [table, keys, Finmap.lookup_erase] at left
      cases left
    · exact kept.apart key other left listed
  · rw [List.map_cons, List.cons_append, List.nodup_cons, grantedSame]
    exact ⟨accounted.apart _ _ found, accounted.once⟩

theorem Accounted.grant {ticket : Ticket} (accounted : Accounted policy past serving)
    (flying : ticket ∈ serving.inFlight) (before : now < ticket.challenge.expiresAt)
    (challenges : next.challenges = serving.backend.challenges)
    (sessionsSound : SessionsSound policy next.sessions)
    (added : ∀ other session, next.sessions.table.lookup other = some session →
      other = digest ∧
          session = ⟨ticket.accountId, ticket.deviceId, now + sessionLifetimeSeconds⟩ ∨
        serving.backend.sessions.table.lookup other = some session) :
    Accounted policy (past ++ [.granted ticket.challenge.serial (ticket.accountId, ticket.deviceId)
      digest now]) ⟨next, serving.inFlight.erase ticket⟩ := by
  have issuedSame : issuedSerials (past ++ [.granted ticket.challenge.serial
      (ticket.accountId, ticket.deviceId) digest now]) = issuedSerials past := by
    rw [issuedSerials, List.filterMap_append]
    exact List.append_nil _
  have grantedMore : grantedSerials (past ++ [.granted ticket.challenge.serial
      (ticket.accountId, ticket.deviceId) digest now]) =
        grantedSerials past ++ [ticket.challenge.serial] := by
    rw [grantedSerials, List.filterMap_append]
    rfl
  -- the serial moves from the calls in flight to those that were granted
  have moved : ((serving.inFlight.erase ticket).map (·.challenge.serial) ++
      (grantedSerials past ++ [ticket.challenge.serial])).Perm
        (serving.inFlight.map (·.challenge.serial) ++ grantedSerials past) := by
    have inFlight := (List.perm_cons_erase flying).map (·.challenge.serial)
    rw [← List.append_assoc]
    exact (List.perm_append_singleton _ _).trans (inFlight.symm.append_right _)
  refine ⟨challenges ▸ accounted.challengesSound, sessionsSound, ?_, ?_, ?_, ?_, ?_, ?_, ?_, ?_⟩
  · rw [issuedSame, challenges]
    exact accounted.numbered
  · rw [issuedSame]
    exact accounted.issuedOnce
  · intro key challenge found
    rw [challenges] at found
    exact List.mem_append_left _ (accounted.waiting key challenge found)
  · intro other member
    exact List.mem_append_left _ (accounted.taken other (List.mem_of_mem_erase member))
  · intro serial device granted time member
    rw [List.mem_append, List.mem_singleton] at member
    rcases member with member | same
    · obtain ⟨expiresAt, issued, early⟩ := accounted.granted serial device granted time member
      exact ⟨expiresAt, List.mem_append_left _ issued, early⟩
    · cases same
      exact ⟨_, List.mem_append_left _ (accounted.taken ticket flying), before⟩
  · intro key challenge found
    rw [challenges] at found
    rw [grantedMore, moved.mem_iff]
    exact accounted.apart key challenge found
  · rw [grantedMore, moved.nodup_iff]
    exact accounted.once
  · intro other session found
    rcases added other session found with ⟨rfl, rfl⟩ | found
    · exact ⟨_, now, List.mem_append_right _ List.mem_cons_self, rfl⟩
    · obtain ⟨serial, time, granted, expires⟩ := accounted.owned _ _ found
      exact ⟨serial, time, List.mem_append_left _ granted, expires⟩

/-! ### The sections -/

theorem credentialNow_eq {timed : Backend Digest} (read : backend.credentialNow now = some timed) :
    timed = { backend with lastAccountClock := some now } := by
  rw [Backend.credentialNow] at read
  split at read
  · cases read
  · exact (Option.some.inj read).symm

theorem accounted_issueChallenge (accounted : Accounted policy past serving) {call : Call Digest}
    (called : call = .issueChallenge accountId deviceId challengeId now) :
    Accounted policy (past ++ [(serving.perform policy call).2])
      (serving.perform policy call).1 := by
  have unchanged : Accounted policy (past ++ [.nothing]) serving := accounted.fewer .refl
    accounted.challengesSound accounted.sessionsSound (List.Sublist.refl _)
  obtain ⟨prunedSound, sequence, before⟩ := prune_challenges now accounted.challengesSound
  have pruned : Accounted policy (past ++ [.nothing]) { serving with backend :=
      { serving.backend with lastAccountClock := some now
                             challenges := serving.backend.challenges.prune now } } :=
    accounted.fewer ⟨sequence, before, fun _ _ found => found⟩ prunedSound accounted.sessionsSound
      (List.Sublist.refl _)
  subst called
  rw [Serving.perform, Backend.issueChallenge]
  cases read : serving.backend.credentialNow now with
  | none => exact unchanged
  | some timed =>
    rw [credentialNow_eq read]
    dsimp only
    by_cases registered :
        ({ serving.backend with lastAccountClock := some now } : Backend Digest).hasDevice
          accountId deviceId = false
    · rw [if_pos registered]
      exact accounted.fewer ⟨rfl, fun _ _ found => found, fun _ _ found => found⟩
        accounted.challengesSound accounted.sessionsSound (List.Sublist.refl _)
    rw [if_neg registered]
    by_cases full : policy.maxChallenges ≤ (serving.backend.challenges.prune now).expiries.length
    · rw [if_pos full]
      exact pruned
    rw [if_neg full]
    by_cases deviceFull : policy.maxChallengesPerDevice ≤
        Dict.countOf (serving.backend.challenges.prune now).perDevice (accountId, deviceId)
    · rw [if_pos deviceFull]
      exact pruned
    rw [if_neg deviceFull]
    by_cases drawn : (accountId, challengeId) ∈ (serving.backend.challenges.prune now).table
    · rw [if_pos drawn]
      exact pruned
    rw [if_neg drawn]
    apply accounted.issue (challengesSound_add prunedSound (not_le.mp full) (not_le.mp deviceFull))
    · exact congrArg Nat.succ sequence
    · rfl
    · exact congrArg Nat.succ sequence
    · intro key other found
      rw [Challenges.add, Dict.lookup_insert_eq] at found
      split at found
      case isTrue same => exact .inl ⟨same, (Option.some.inj found).symm⟩
      case isFalse => exact .inr (before key other found)

theorem accounted_takeChallenge (accounted : Accounted policy past serving) {call : Call Digest}
    (called : call = .takeChallenge accountId deviceId challengeId now) :
    Accounted policy (past ++ [(serving.perform policy call).2])
      (serving.perform policy call).1 := by
  have unchanged : Accounted policy (past ++ [.nothing]) serving := accounted.fewer .refl
    accounted.challengesSound accounted.sessionsSound (List.Sublist.refl _)
  have taken : Accounted policy (past ++ [.nothing]) { serving with backend :=
      { serving.backend with
        lastAccountClock := some now
        challenges := { serving.backend.challenges with
          table := serving.backend.challenges.table.erase (accountId, challengeId) } } } := by
    refine accounted.fewer ⟨rfl, ?_, fun _ _ found => found⟩
      (accounted.challengesSound.erase (accountId, challengeId)) accounted.sessionsSound
      (List.Sublist.refl _)
    intro key challenge found
    by_cases same : key = (accountId, challengeId)
    · rw [same, Finmap.lookup_erase] at found
      cases found
    · rwa [Finmap.lookup_erase_ne same] at found
  subst called
  rw [Serving.perform, Backend.takeChallenge]
  cases read : serving.backend.credentialNow now with
  | none => exact unchanged
  | some timed =>
    rw [credentialNow_eq read]
    dsimp only
    cases found : serving.backend.challenges.table.lookup (accountId, challengeId) with
    | none => exact taken
    | some challenge =>
      dsimp only
      by_cases accepted : challenge.deviceId = deviceId ∧ now < challenge.expiresAt ∧
          ({ serving.backend with lastAccountClock := some now } : Backend Digest).hasDevice
            accountId deviceId = true
      · rw [if_pos accepted]
        exact accounted.take found accepted.1 rfl rfl
      · rw [if_neg accepted]
        exact taken

theorem accounted_grantSession {ticket : Ticket} (accounted : Accounted policy past serving)
    {call : Call Digest} (called : call = .grantSession ticket digest now) :
    Accounted policy (past ++ [(serving.perform policy call).2])
      (serving.perform policy call).1 := by
  obtain ⟨prunedSound, before⟩ := prune_sessions now accounted.sessionsSound
  have erased : (serving.inFlight.erase ticket).Sublist serving.inFlight := List.erase_sublist
  have pruned : Accounted policy (past ++ [.nothing])
      ⟨{ serving.backend with lastAccountClock := some now
                              sessions := serving.backend.sessions.prune now },
        serving.inFlight.erase ticket⟩ :=
    accounted.fewer ⟨rfl, fun _ _ found => found, before⟩ accounted.challengesSound prunedSound erased
  subst called
  rw [Serving.perform]
  by_cases flying : ticket ∈ serving.inFlight
  case neg =>
    rw [if_neg flying]
    exact accounted.fewer .refl accounted.challengesSound accounted.sessionsSound
      (List.Sublist.refl _)
  rw [if_pos flying, Backend.grantSession]
  cases read : serving.backend.credentialNow now with
  | none => exact accounted.fewer .refl accounted.challengesSound accounted.sessionsSound erased
  | some timed =>
    rw [credentialNow_eq read]
    dsimp only
    by_cases full : policy.maxSessions ≤ (serving.backend.sessions.prune now).table.size ∨
        policy.maxSessionsPerDevice ≤ Dict.countOf (serving.backend.sessions.prune now).perDevice
          (ticket.accountId, ticket.deviceId)
    · rw [if_pos full]
      exact pruned
    rw [if_neg full]
    by_cases refused :
        ({ serving.backend with lastAccountClock := some now } : Backend Digest).hasDevice
            ticket.accountId ticket.deviceId = false ∨
          ticket.challenge.expiresAt ≤ now ∨ digest ∈ (serving.backend.sessions.prune now).table
    · rw [if_pos refused]
      exact pruned
    rw [if_neg refused]
    rw [not_or, not_le, not_le] at full
    rw [not_or, not_or, not_le] at refused
    apply accounted.grant flying refused.2.1
    · rfl
    · exact sessionsSound_add prunedSound refused.2.2 full.1 full.2
    · intro other session found
      rw [Sessions.add, Dict.lookup_insert_eq] at found
      split at found
      case isTrue same => exact .inl ⟨same, (Option.some.inj found).symm⟩
      case isFalse => exact .inr (before other session found)

theorem accounted_authorizeToken (accounted : Accounted policy past serving) {call : Call Digest}
    (called : call = .authorizeToken digest now) :
    Accounted policy (past ++ [(serving.perform policy call).2])
      (serving.perform policy call).1 := by
  have timed : Accounted policy (past ++ [.nothing]) { serving with backend :=
      { serving.backend with lastAccountClock := some now } } :=
    accounted.fewer ⟨rfl, fun _ _ found => found, fun _ _ found => found⟩
      accounted.challengesSound accounted.sessionsSound (List.Sublist.refl _)
  obtain ⟨droppedSound, before⟩ := drop_sessions accounted.sessionsSound digest
  have dropped : Accounted policy (past ++ [.nothing]) { serving with backend :=
      { serving.backend with lastAccountClock := some now
                             sessions := serving.backend.sessions.drop digest } } :=
    accounted.fewer ⟨rfl, fun _ _ found => found, before⟩ accounted.challengesSound droppedSound
      (List.Sublist.refl _)
  subst called
  rw [Serving.perform, Backend.authorizeToken]
  cases read : serving.backend.credentialNow now with
  | none =>
    exact accounted.fewer .refl accounted.challengesSound accounted.sessionsSound
      (List.Sublist.refl _)
  | some backend =>
    rw [credentialNow_eq read]
    dsimp only
    cases serving.backend.sessions.table.lookup digest with
    | none => exact dropped
    | some session =>
      dsimp only
      by_cases expired : session.expiresAt ≤ now
      · rw [if_pos expired]
        exact dropped
      rw [if_neg expired]
      split
      · exact timed
      · exact timed

theorem Accounted.step {observation : Observation Digest} (accounted : Accounted policy past serving)
    (step : serving.Step policy observation after) :
    Accounted policy (past ++ [observation]) after := by
  obtain ⟨call, performed⟩ := step
  have observed := congrArg Prod.snd performed
  have reached := congrArg Prod.fst performed
  dsimp only at observed reached
  rw [← observed, ← reached]
  cases called : call with
  | registerDevice accountId deviceId =>
    exact accounted.fewer ⟨rfl, fun _ _ found => found, fun _ _ found => found⟩
      accounted.challengesSound accounted.sessionsSound (List.Sublist.refl _)
  | issueChallenge accountId deviceId challengeId now => exact accounted_issueChallenge accounted rfl
  | takeChallenge accountId deviceId challengeId now => exact accounted_takeChallenge accounted rfl
  | grantSession ticket digest now => exact accounted_grantSession accounted rfl
  | authorizeToken digest now => exact accounted_authorizeToken accounted rfl

/-- In whatever order the locked sections of calls come: a challenge is issued once and has at
most one session granted for it, to the device it was issued to and before it expires; a
session is there only if it was granted; the counters of a device are the number of its
sessions and of its slots among the challenge expiries; and no maximum is exceeded. -/
theorem credentials_accounted {observations : List (Observation Digest)}
    (run : Run (Serving.Step policy) .empty observations after) :
    (issuedSerials observations).Nodup ∧
    (grantedSerials observations).Nodup ∧
    (∀ serial device digest now, .granted serial device digest now ∈ observations →
      ∃ expiresAt, .issued serial device expiresAt ∈ observations ∧ now < expiresAt) ∧
    (∀ digest session, after.backend.sessions.table.lookup digest = some session →
      ∃ serial now, .granted serial session.deviceKey digest now ∈ observations ∧
        session.expiresAt = now + sessionLifetimeSeconds) ∧
    (∀ device, Dict.countOf after.backend.sessions.perDevice device =
      sessionsOf device after.backend.sessions.table) ∧
    (∀ device, Dict.countOf after.backend.challenges.perDevice device =
      slotsOf device after.backend.challenges.expiries) ∧
    after.backend.challenges.table.size ≤ after.backend.challenges.expiries.length ∧
    after.backend.challenges.expiries.length ≤ policy.maxChallenges ∧
    (∀ device, Dict.countOf after.backend.challenges.perDevice device ≤
      policy.maxChallengesPerDevice) ∧
    after.backend.sessions.table.size ≤ policy.maxSessions ∧
    ∀ device, Dict.countOf after.backend.sessions.perDevice device ≤
      policy.maxSessionsPerDevice := by
  have accounted : Accounted policy observations after :=
    run.invariant_history (Accounted policy)
      (fun _ _ _ _ step accounted => accounted.step step) accounted_empty
  have challenges := accounted.challengesSound
  have sessions := accounted.sessionsSound
  exact ⟨accounted.issuedOnce, (List.nodup_append.mp accounted.once).2.1, accounted.granted,
    accounted.owned, sessions.counted, challenges.counted, challenges.size_le, challenges.room,
    challenges.deviceRoom, sessions.room, sessions.deviceRoom⟩

theorem run_performAll {calls : List (Call Digest)} :
    Run (Serving.Step policy) serving (serving.performAll policy calls).2
      (serving.performAll policy calls).1 := by
  induction calls generalizing serving with
  | nil => exact .nil serving
  | cons call rest induction => exact .cons ⟨call, rfl⟩ induction

/-- A device has a challenge, answers it and is granted a session. -/
def oneSession : Serving Nat × List (Observation Nat) :=
  Serving.empty.performAll ⟨1, 1, 1, 1⟩
    [.registerDevice "account" "device",
      .issueChallenge "account" "device" "challenge" 0,
      .takeChallenge "account" "device" "challenge" 1,
      .grantSession ⟨"account", "device", ⟨"device", 120, 1⟩⟩ 7 2]

theorem credentials_accounted_oneSession :
    oneSession.2 = [.nothing, .issued 1 ("account", "device") 120, .nothing,
      .granted 1 ("account", "device") 7 2] ∧
    (grantedSerials oneSession.2).Nodup ∧ oneSession.1.backend.sessions.table.size ≤ 1 := by
  have accounted := credentials_accounted
    (run_performAll : Run (Serving.Step ⟨1, 1, 1, 1⟩) .empty oneSession.2 oneSession.1)
  obtain ⟨-, once, -, -, -, -, -, -, -, room, -⟩ := accounted
  exact ⟨by decide +kernel, once, room⟩

end History

end JobAgg.VaultApi
