import JobAgg.Foundation.Calendar
import JobAgg.Foundation.Run
import JobAgg.SyncQueue.Operation

/-! # Consumed pairing objects

Offers and acknowledgements of a pairing are consumed once. A store remembers the consumed
ones until they expire; whatever expired is dropped when the next one is consumed. -/

namespace JobAgg.TrustedDevices

open SyncQueue (isCanonicalUuid isLowerHex)

/-- `_invalid_state()` -/
def invalidState : String := "trusted-device state is invalid"

def maximumReplayEntries : Nat := 2048

/-- `datetime.strptime(value, "%Y-%m-%dT%H:%M:%SZ")`, of twenty letters with their separators
in place -/
def strptime (value : String) : Option Moment :=
  let letters := value.toList
  if letters.length = 20 ∧ letters[10]? = some 'T' ∧ letters[13]? = some ':' ∧
      letters[16]? = some ':' ∧ letters[19]? = some 'Z' then do
    let date ← Date.read (letters.take 10)
    let hour ← readDigits ((letters.drop 11).take 2)
    let minute ← readDigits ((letters.drop 14).take 2)
    let second ← readDigits ((letters.drop 17).take 2)
    let time ← TimeOfDay.of? hour minute second 0
    return ⟨date, time⟩
  else none

/-- `strftime`, which writes a year without zeros in front -/
def strftime (moment : Moment) : String :=
  let { date, time } := moment
  String.ofList (Nat.toDigits 10 date.year ++ '-' :: padded 2 date.month ++
    '-' :: padded 2 date.day ++ 'T' :: padded 2 time.hour ++ ':' :: padded 2 time.minute ++
    ':' :: padded 2 time.second ++ ['Z'])

def time (value : String) : Except String Moment :=
  match strptime value with
  | none => .error invalidState
  | some moment => do
    require (strftime moment == value) invalidState
    return moment

structure Timestamp where
  text : String
  moment : Moment
  reads : time text = .ok moment

def timestamp (value : String) : Except String Timestamp :=
  match reads : time value with
  | .ok moment => .ok ⟨value, moment, reads⟩
  | .error reason => .error reason

/-! ## Entries -/

inductive PairingKind where
  | offer
  | acknowledgement
deriving DecidableEq

def PairingKind.text : PairingKind → String
  | .offer => "offer"
  | .acknowledgement => "acknowledgement"

structure PairingReplayEntry where
  kind : PairingKind
  objectId : String
  transcriptSha256 : String
  consumedAt : Timestamp
  expiresAt : Timestamp
  object : isCanonicalUuid objectId = true
  transcript : isSha256 transcriptSha256 = true
  lives : consumedAt.moment < expiresAt.moment

namespace PairingReplayEntry

def key (entry : PairingReplayEntry) : PairingKind × String :=
  (entry.kind, entry.objectId)

def replayOrder (entry : PairingReplayEntry) : String ×ₗ String ×ₗ String :=
  toLex (entry.expiresAt.text, toLex (entry.kind.text, entry.objectId))

/-- What is consumed once. -/
def claim (entry : PairingReplayEntry) : PairingKind × String × String :=
  (entry.kind, entry.objectId, entry.expiresAt.text)

end PairingReplayEntry

/-- `sorted(entries, key=_replay_order)` -/
def inReplayOrder (entries : List PairingReplayEntry) : List PairingReplayEntry :=
  entries.insertionSort fun first second => first.replayOrder ≤ second.replayOrder

/-! ## Stores -/

structure PairingReplayStore where
  localDeviceId : String
  revision : String
  parentRevision : Option String
  createdAt : Timestamp
  updatedAt : Timestamp
  entries : List PairingReplayEntry

/-- `_device_id` -/
def isDeviceId (text : String) : Bool :=
  let letters := text.toList
  letters.length == 69 && letters.take 5 == ['a', 'v', 'd', '1', '-'] &&
    (letters.drop 5).all isLowerHex

structure Canonical (entries : List PairingReplayEntry) : Prop where
  bounded : entries.length ≤ maximumReplayEntries
  distinct : (entries.map PairingReplayEntry.key).Nodup
  sorted : entries.Pairwise fun first second => first.replayOrder ≤ second.replayOrder

instance (entries : List PairingReplayEntry) : Decidable (Canonical entries) :=
  decidable_of_iff (entries.length ≤ maximumReplayEntries ∧
      (entries.map PairingReplayEntry.key).Nodup ∧
      entries.Pairwise fun first second => first.replayOrder ≤ second.replayOrder)
    ⟨fun ⟨bounded, distinct, sorted⟩ => ⟨bounded, distinct, sorted⟩,
      fun ⟨bounded, distinct, sorted⟩ => ⟨bounded, distinct, sorted⟩⟩

/-- `PairingReplayStore.__post_init__` -/
def PairingReplayStore.make (store : PairingReplayStore) : Except String PairingReplayStore := do
  require (isDeviceId store.localDeviceId && isCanonicalUuid store.revision &&
    store.parentRevision.all isCanonicalUuid) invalidState
  require (decide (store.createdAt.moment ≤ store.updatedAt.moment)) invalidState
  require (decide (Canonical store.entries)) invalidState
  return store

inductive ReplayConsumeOutcome where
  | consumed
  | alreadyConsumed
deriving DecidableEq

/-- The arguments of `consume_pairing_replay` beside the store. -/
structure ReplayCall where
  entry : PairingReplayEntry
  revision : String
  updatedAt : String
  currentTime : String

/-- `consume_pairing_replay` of an object that the store does not know -/
def consumeAnew (store : PairingReplayStore) (call : ReplayCall) :
    Except String PairingReplayStore := do
  let now ← time call.currentTime
  require (decide (now < call.entry.expiresAt.moment)) invalidState
  let retained := store.entries.filter fun value => decide (now < value.expiresAt.moment)
  require (decide (retained.length < maximumReplayEntries)) invalidState
  let values := inReplayOrder (retained ++ [call.entry])
  require (isCanonicalUuid call.revision) invalidState
  require (call.revision != store.revision && store.parentRevision != some call.revision)
    invalidState
  let updated ← timestamp call.updatedAt
  require (decide (store.updatedAt.moment ≤ updated.moment)) invalidState
  PairingReplayStore.make { store with
    revision := call.revision, parentRevision := some store.revision, updatedAt := updated,
    entries := values }

def consumePairingReplay (store : PairingReplayStore) (call : ReplayCall) :
    Except String (PairingReplayStore × ReplayConsumeOutcome) :=
  match store.entries.find? fun value => value.key == call.entry.key with
  | some existing => do
    require (existing.transcriptSha256 == call.entry.transcriptSha256) invalidState
    return (store, .alreadyConsumed)
  | none => do
    let updated ← consumeAnew store call
    return (updated, .consumed)

/-! ## Calls one after the other -/

abbrev ReplayEvent := ReplayCall × Except String ReplayConsumeOutcome

/-- Whoever holds the store keeps what the call returns, and the old store when it raises. -/
def Consumes (store : PairingReplayStore) (event : ReplayEvent) (next : PairingReplayStore) :
    Prop :=
  match consumePairingReplay store event.1 with
  | .ok (updated, outcome) => event.2 = .ok outcome ∧ next = updated
  | .error reason => event.2 = .error reason ∧ next = store

def ReplayEvent.consumed? (event : ReplayEvent) : Option PairingReplayEntry :=
  match event.2 with
  | .ok .consumed => some event.1.entry
  | _ => none

/-- The clock of the calls never goes back. -/
def InOrder (events : List ReplayEvent) : Prop :=
  events.Pairwise fun earlier later => ∀ before after,
    time earlier.1.currentTime = .ok before → time later.1.currentTime = .ok after →
      before ≤ after

/-! ## What one call does -/

variable {store updated next empty final : PairingReplayStore} {call : ReplayCall}
  {event : ReplayEvent} {past events : List ReplayEvent} {entry : PairingReplayEntry}

theorem PairingReplayStore.make_eq_ok (made : store.make = .ok updated) :
    updated = store ∧ Canonical store.entries := by
  rw [PairingReplayStore.make, require_bind_eq_ok, require_bind_eq_ok, require_bind_eq_ok,
    decide_eq_true_eq, decide_eq_true_eq, pure_eq_ok] at made
  obtain ⟨-, -, canonical, same⟩ := made
  exact ⟨same.symm, canonical⟩

structure Admits (store : PairingReplayStore) (call : ReplayCall)
    (updated : PairingReplayStore) (now : Moment) : Prop where
  clock : time call.currentTime = .ok now
  unknown : ∀ value ∈ store.entries, value.key ≠ call.entry.key
  lives : now < call.entry.expiresAt.moment
  canonical : Canonical updated.entries
  members : ∀ value, value ∈ updated.entries ↔
    value = call.entry ∨ value ∈ store.entries ∧ now < value.expiresAt.moment

theorem mem_inReplayOrder {value : PairingReplayEntry} {entries : List PairingReplayEntry} :
    value ∈ inReplayOrder entries ↔ value ∈ entries :=
  (List.perm_insertionSort _ _).mem_iff

theorem consumeAnew_spec (found : (store.entries.find? fun value =>
      value.key == call.entry.key) = none)
    (consumed : consumeAnew store call = .ok updated) : ∃ now, Admits store call updated now := by
  rw [consumeAnew, bind_eq_ok] at consumed
  obtain ⟨now, clock, consumed⟩ := consumed
  rw [require_bind_eq_ok, decide_eq_true_eq] at consumed
  obtain ⟨lives, consumed⟩ := consumed
  dsimp only at consumed
  rw [require_bind_eq_ok, require_bind_eq_ok, require_bind_eq_ok, bind_eq_ok] at consumed
  obtain ⟨-, -, -, later, -, consumed⟩ := consumed
  rw [require_bind_eq_ok] at consumed
  obtain ⟨rfl, canonical⟩ := PairingReplayStore.make_eq_ok consumed.2
  refine ⟨now, clock, ?_, lives, canonical, ?_⟩
  · intro value listed same
    rw [List.find?_eq_none] at found
    exact found value listed (beq_iff_eq.mpr same)
  · intro value
    rw [mem_inReplayOrder, List.mem_append, List.mem_filter, List.mem_singleton,
      decide_eq_true_eq, or_comm]

theorem Consumes.cases (consumes : Consumes store event next) :
    (next = store ∧ event.consumed? = none) ∨
      (event.consumed? = some event.1.entry ∧ ∃ now, Admits store event.1 next now) := by
  rw [Consumes, consumePairingReplay] at consumes
  split at consumes
  case h_1 updated outcome answered =>
    obtain ⟨answer, rfl⟩ := consumes
    split at answered
    case h_1 existing found =>
      rw [require_bind_eq_ok, pure_eq_ok, Prod.mk.injEq] at answered
      obtain ⟨-, rfl, rfl⟩ := answered
      left
      rw [ReplayEvent.consumed?, answer]
      exact ⟨rfl, rfl⟩
    case h_2 found =>
      rw [bind_eq_ok] at answered
      obtain ⟨later, anew, same⟩ := answered
      rw [pure_eq_ok, Prod.mk.injEq] at same
      obtain ⟨rfl, rfl⟩ := same
      right
      rw [ReplayEvent.consumed?, answer]
      exact ⟨rfl, consumeAnew_spec found anew⟩
  case h_2 reason raised =>
    left
    rw [ReplayEvent.consumed?, consumes.1]
    exact ⟨consumes.2, rfl⟩

/-! ## What the calls keep -/

/-- What has been consumed so far is remembered until it expires, and it was consumed once. -/
structure Remembers (past : List ReplayEvent) (store : PairingReplayStore) : Prop where
  canonical : Canonical store.entries
  remembered : ∀ event ∈ past, ∀ entry, event.consumed? = some entry → entry ∈ store.entries ∨
    ∃ later ∈ past, ∃ now, time later.1.currentTime = .ok now ∧ entry.expiresAt.moment ≤ now
  once : ((past.filterMap ReplayEvent.consumed?).map PairingReplayEntry.claim).Nodup

theorem Remembers.fresh (remembers : Remembers past store) {now : Moment}
    (admits : Admits store call updated now)
    (ordered : ∀ earlier ∈ past, ∀ before, time earlier.1.currentTime = .ok before →
      before ≤ now) :
    call.entry.claim ∉ (past.filterMap ReplayEvent.consumed?).map PairingReplayEntry.claim := by
  intro claimed
  obtain ⟨entry, consumed, same⟩ := List.mem_map.mp claimed
  obtain ⟨event, listed, consumed⟩ := List.mem_filterMap.mp consumed
  rw [PairingReplayEntry.claim, PairingReplayEntry.claim, Prod.mk.injEq, Prod.mk.injEq] at same
  obtain ⟨kind, object, expiry⟩ := same
  rcases remembers.remembered event listed entry consumed with known | ⟨later, listed, at_, clock,
    expired⟩
  · apply admits.unknown entry known
    rw [PairingReplayEntry.key, PairingReplayEntry.key, kind, object]
  · have moment : entry.expiresAt.moment = call.entry.expiresAt.moment := by
      have one := entry.expiresAt.reads
      have two := call.entry.expiresAt.reads
      rw [expiry, two, Except.ok.injEq] at one
      exact one.symm
    rw [moment] at expired
    exact absurd (expired.trans (ordered later listed at_ clock)) (not_le_of_gt admits.lives)

theorem Remembers.step (remembers : Remembers past store)
    (ordered : InOrder (past ++ [event])) (consumes : Consumes store event next) :
    Remembers (past ++ [event]) next := by
  rcases consumes.cases with ⟨rfl, none⟩ | ⟨consumed, now, admits⟩
  · refine ⟨remembers.canonical, ?_, ?_⟩
    · intro event listed entry consumed
      rcases List.mem_append.mp listed with old | new
      · rcases remembers.remembered event old entry consumed with known | ⟨later, seen, expired⟩
        · exact .inl known
        · exact .inr ⟨later, List.mem_append_left _ seen, expired⟩
      · rw [List.mem_singleton.mp new, none] at consumed
        cases consumed
    · rw [List.filterMap_append, List.filterMap_cons, none, List.filterMap_nil, List.append_nil]
      exact remembers.once
  · have before : ∀ earlier ∈ past, ∀ before, time earlier.1.currentTime = .ok before →
        before ≤ now := by
      intro earlier listed before clock
      exact (List.pairwise_append.mp ordered).2.2 earlier listed event (List.mem_singleton_self _)
        before now clock admits.clock
    refine ⟨admits.canonical, ?_, ?_⟩
    · intro other listed entry found
      rcases List.mem_append.mp listed with old | new
      · rcases remembers.remembered other old entry found with known | ⟨later, seen, expired⟩
        · rcases lt_or_ge now entry.expiresAt.moment with lives | expired
          · exact .inl ((admits.members entry).mpr (.inr ⟨known, lives⟩))
          · exact .inr ⟨event, List.mem_append_right _ (List.mem_singleton_self _), now,
              admits.clock, expired⟩
        · exact .inr ⟨later, List.mem_append_left _ seen, expired⟩
      · rw [List.mem_singleton.mp new, consumed, Option.some.injEq] at found
        exact .inl ((admits.members entry).mpr (.inl found.symm))
    · rw [List.filterMap_append, List.filterMap_cons, consumed, List.filterMap_nil,
        List.map_append, List.map_singleton, List.nodup_append]
      refine ⟨remembers.once, List.nodup_singleton _, ?_⟩
      intro claim old other new same
      rw [List.mem_singleton] at new
      rw [same, new] at old
      exact remembers.fresh admits before old

theorem remembers_of_run (canonical : Canonical empty.entries) (ordered : InOrder events)
    (run : Run Consumes empty events final) : Remembers events final := by
  have kept := run.invariant_history (fun past store => InOrder past → Remembers past store) ?_ ?_
  · exact kept ordered
  · intro past store event next consumes remembers ordered
    exact (remembers (List.pairwise_append.mp ordered).1).step ordered consumes
  · intro _
    refine ⟨canonical, ?_, .nil⟩
    intro event impossible
    cases impossible

theorem Canonical.find?_eq (canonical : Canonical store.entries) (known : entry ∈ store.entries)
    {key : PairingKind × String} (same : entry.key = key) :
    (store.entries.find? fun value => value.key == key) = some entry := by
  cases found : store.entries.find? fun value => value.key == key with
  | none =>
    rw [List.find?_eq_none] at found
    exact absurd (beq_iff_eq.mpr same) (found entry known)
  | some other =>
    have listed := List.mem_of_find?_eq_some found
    have equal := List.find?_some found
    rw [beq_iff_eq] at equal
    rw [List.inj_on_of_nodup_map canonical.distinct listed known (equal.trans same.symm)]

/-- However the calls go, an object is consumed once with an expiry; the store stays canonical,
knows every consumed object that has not expired, refuses another transcript of an object
that it knows, and is left as it was by a call that raises. -/
theorem consumed_once (nothing : empty.entries = []) (ordered : InOrder events)
    (run : Run Consumes empty events final) :
    ((events.filterMap ReplayEvent.consumed?).map PairingReplayEntry.claim).Nodup ∧
    Canonical final.entries ∧
    (∀ event ∈ events, ∀ entry, event.consumed? = some entry → ∀ now,
      (∀ later ∈ events, ∀ clock, time later.1.currentTime = .ok clock → clock ≤ now) →
        now < entry.expiresAt.moment → entry ∈ final.entries) ∧
    (∀ call, ∀ known ∈ final.entries, known.key = call.entry.key →
      known.transcriptSha256 ≠ call.entry.transcriptSha256 →
        consumePairingReplay final call = .error invalidState) ∧
    (∀ call reason, consumePairingReplay final call = .error reason → ∀ answer next,
      Consumes final (call, answer) next → answer = .error reason ∧ next = final) := by
  have canonical : Canonical empty.entries := by
    rw [nothing]
    exact ⟨Nat.zero_le _, .nil, .nil⟩
  have remembers := remembers_of_run canonical ordered run
  refine ⟨remembers.once, remembers.canonical, ?_, ?_, ?_⟩
  · intro event listed entry consumed now latest lives
    rcases remembers.remembered event listed entry consumed with known | ⟨later, seen, clock, read,
      expired⟩
    · exact known
    · exact absurd (expired.trans (latest later seen clock read)) (not_le_of_gt lives)
  · intro call known listed same different
    rw [consumePairingReplay, remembers.canonical.find?_eq listed same]
    dsimp only
    rw [require, if_neg fun equal => different (beq_iff_eq.mp equal)]
    rfl
  · intro call reason raised answer next consumes
    rw [Consumes, raised] at consumes
    exact consumes

def plainTime (hour : Nat) (bound : hour < 24) : Moment where
  date := ⟨2026, 3, 1, by decide, by decide, by decide⟩
  time := { TimeOfDay.midnight with hour := hour, inDay := bound }

def plainTen : Timestamp := ⟨"2026-03-01T10:00:00Z", plainTime 10 (by decide), rfl⟩

def plainEleven : Timestamp := ⟨"2026-03-01T11:00:00Z", plainTime 11 (by decide), rfl⟩

def plainId : String := "00000000-0000-0000-0000-000000000001"

def plainDigest (letter : Char) : String := String.ofList (List.replicate 64 letter)

theorem isSha256_plainDigest : isSha256 (plainDigest 'a') = true ∧
    isSha256 (plainDigest 'b') = true :=
  ⟨isSha256_replicate (by decide), isSha256_replicate (by decide)⟩

def plainEntry (letter : Char) (hexadecimal : isSha256 (plainDigest letter) = true) :
    PairingReplayEntry where
  kind := .offer
  objectId := plainId
  transcriptSha256 := plainDigest letter
  consumedAt := plainTen
  expiresAt := plainEleven
  object := by decide
  transcript := hexadecimal
  lives := by decide

def plainStore : PairingReplayStore where
  localDeviceId := "avd1-" ++ plainDigest '0'
  revision := plainId
  parentRevision := none
  createdAt := plainTen
  updatedAt := plainTen
  entries := []

def plainCall (entry : PairingReplayEntry) : ReplayCall where
  entry := entry
  revision := "00000000-0000-0000-0000-000000000002"
  updatedAt := "2026-03-01T10:00:00Z"
  currentTime := "2026-03-01T10:00:00Z"

def plainOffer : ReplayCall := plainCall (plainEntry 'a' isSha256_plainDigest.1)

def plainForgery : ReplayCall := plainCall (plainEntry 'b' isSha256_plainDigest.2)

/-- An offer that is consumed, and another transcript of it that is refused -/
theorem consumed_once_plain : ∃ final, plainOffer.entry ∈ final.entries ∧
    consumePairingReplay final plainForgery = .error invalidState := by
  have answered : (consumePairingReplay plainStore plainOffer).toOption.map Prod.snd =
      some .consumed := by
    decide
  cases consumed : consumePairingReplay plainStore plainOffer with
  | error reason =>
    rw [consumed] at answered
    cases answered
  | ok result =>
    obtain ⟨final, outcome⟩ := result
    rw [consumed] at answered
    cases answered
    have step : Consumes plainStore (plainOffer, .ok .consumed) final := by
      rw [Consumes, consumed]
      exact ⟨rfl, rfl⟩
    obtain ⟨-, -, remembered, refused, -⟩ :=
      consumed_once rfl (List.pairwise_singleton _ _) (.single step)
    have known : plainOffer.entry ∈ final.entries := by
      apply remembered _ (List.mem_singleton_self _) _ rfl plainTen.moment
      · intro later listed clock read
        rw [List.mem_singleton.mp listed] at read
        rw [plainTen.reads.symm.trans read |> Except.ok.inj]
      · exact plainOffer.entry.lives
    have one : plainOffer.entry.key = (.offer, plainId) := rfl
    have two : plainForgery.entry.key = (.offer, plainId) := rfl
    refine ⟨final, known, refused plainForgery _ known (one.trans two.symm) ?_⟩
    intro same
    have heads := congrArg (fun text : String => text.toList.head?) same
    change (plainDigest 'a').toList.head? = (plainDigest 'b').toList.head? at heads
    rw [plainDigest, plainDigest, String.toList_ofList, String.toList_ofList] at heads
    cases heads

end JobAgg.TrustedDevices
