import JobAgg.Foundation.Dict
import JobAgg.Foundation.Expiries
import Mathlib.Tactic.Linarith

/-! # Rate limits of accounts and devices

An account and a device may each make so many requests in a window that begins with their
first request. Counters whose window is over are pruned a few at a time; a counter that is
not yet pruned counts for nothing. -/

namespace JobAgg.VaultApi

/-- The fields of an `AbuseControlPolicy` that the limiter reads. -/
structure RatePolicy where
  accountRequestLimit : Nat
  deviceRequestLimit : Nat
  windowSeconds : ℚ
  accountPositive : 1 ≤ accountRequestLimit
  devicePositive : 1 ≤ deviceRequestLimit
  windowPositive : 0 < windowSeconds

structure StoragePrincipal where
  accountId : String
  deviceId : String
deriving DecidableEq

def requestRateExceeded : String := "RequestRateExceeded"

def maxCounterPrunePerRequest : Nat := 64

structure WindowCounter where
  startedAt : ℚ
  count : Nat
deriving DecidableEq

section Counters

variable {Key : Type} [DecidableEq Key]

/-- The counters of the accounts, or those of the devices, with their heap. -/
structure Counters (Key : Type) where
  table : Dict Key WindowCounter
  expiries : List (Expiry Key)

def WindowCounter.isOver (window now : ℚ) (counter : WindowCounter) : Bool :=
  decide (window ≤ now - counter.startedAt)

/-- What `_prune` does with a key that it pops. -/
def dropCounter (window now : ℚ) (key : Key) (table : Dict Key WindowCounter) :
    Dict Key WindowCounter :=
  if (table.lookup key).any (·.isOver window now) then table.erase key else table

/-- `_counter`, with the counters and the expiry sequence after it; none where it raises -/
def counterOf (window now : ℚ) (key : Key) (counters : Counters Key) (sequence : Nat) :
    Option (WindowCounter × Counters Key × Nat) :=
  match counters.table.lookup key with
  | none => some (fresh (sequence + 1))
  | some counter =>
    if counter.isOver window now then some (fresh (sequence + 1))
    else if now < counter.startedAt then none
    else some (counter, counters, sequence)
where
  /-- A new counter in the place of an old one. -/
  fresh (sequence : Nat) : WindowCounter × Counters Key × Nat :=
    (⟨now, 0⟩, ⟨counters.table.insert key ⟨now, 0⟩,
      Expiry.push ⟨now + window, sequence, key⟩ counters.expiries⟩, sequence)

/-- `counter.count += 1` -/
def Counters.increment (key : Key) (counter : WindowCounter) (counters : Counters Key) :
    Counters Key :=
  { counters with table := counters.table.insert key { counter with count := counter.count + 1 } }

end Counters

/-! ## The limiter -/

/-- `AccountDeviceRateLimiter` -/
structure RateLimiter where
  accounts : Counters String
  devices : Counters (String × String)
  nextExpirySequence : Nat
  lastObserved : Option ℚ

def RateLimiter.empty : RateLimiter := ⟨⟨∅, []⟩, ⟨∅, []⟩, 0, none⟩

def StoragePrincipal.deviceKey (principal : StoragePrincipal) : String × String :=
  (principal.accountId, principal.deviceId)

section Consume

variable (budget : Nat) (policy : RatePolicy)

/-- `_prune` with any budget: the accounts first, the devices with what is left of it -/
def RateLimiter.prune (now : ℚ) (limiter : RateLimiter) : RateLimiter :=
  let (remaining, accountExpiries, accounts) := Expiry.prune now
    (dropCounter policy.windowSeconds now) budget limiter.accounts.expiries limiter.accounts.table
  let (_, deviceExpiries, devices) := Expiry.prune now
    (dropCounter policy.windowSeconds now) remaining limiter.devices.expiries limiter.devices.table
  { limiter with accounts := ⟨accounts, accountExpiries⟩, devices := ⟨devices, deviceExpiries⟩ }

/-- `consume`, after the clock is read and the counters are pruned -/
def RateLimiter.spend (principal : StoragePrincipal) (now : ℚ) (limiter : RateLimiter) :
    RateLimiter × Except String Unit :=
  match counterOf policy.windowSeconds now principal.accountId limiter.accounts
      limiter.nextExpirySequence with
  | none => (limiter, .error requestRateExceeded)
  | some (account, accounts, sequence) =>
    match counterOf policy.windowSeconds now principal.deviceKey limiter.devices sequence with
    | none => ({ limiter with accounts := accounts, nextExpirySequence := sequence },
        .error requestRateExceeded)
    | some (device, devices, sequence) =>
      if policy.accountRequestLimit ≤ account.count ∨
          policy.deviceRequestLimit ≤ device.count then
        ({ limiter with
          accounts := accounts, devices := devices, nextExpirySequence := sequence },
          .error requestRateExceeded)
      else
        ({ limiter with
          accounts := accounts.increment principal.accountId account
          devices := devices.increment principal.deviceKey device
          nextExpirySequence := sequence }, .ok ())

/-- `consume`, pruning at most `budget` entries -/
def RateLimiter.consume (principal : StoragePrincipal) (now : ℚ) (limiter : RateLimiter) :
    RateLimiter × Except String Unit :=
  if limiter.lastObserved.any (now < ·) then (limiter, .error requestRateExceeded)
  else ({ limiter with lastObserved := some now }.prune budget policy now).spend policy
    principal now

/-- A call of `consume` and the reading of its clock. -/
structure Request where
  principal : StoragePrincipal
  now : ℚ

def RateLimiter.after (limiter : RateLimiter) (requests : List Request) : RateLimiter :=
  requests.foldl (fun limiter request =>
    (limiter.consume budget policy request.principal request.now).1) limiter

/-- What these calls answer, one after the other. -/
def RateLimiter.answers (limiter : RateLimiter) : List Request → List (Except String Unit)
  | [] => []
  | request :: rest =>
    (limiter.consume budget policy request.principal request.now).2 ::
      (limiter.consume budget policy request.principal request.now).1.answers rest

end Consume

/-! ## Counters that still count -/

section Live

variable {Key : Type} [DecidableEq Key] {window now later : ℚ} {key other : Key}
  {table : Dict Key WindowCounter} {counter : WindowCounter}

def live (window now : ℚ) (table : Dict Key WindowCounter) (key : Key) : Option WindowCounter :=
  (table.lookup key).filter fun counter => !counter.isOver window now

def liveCount (window now : ℚ) (table : Dict Key WindowCounter) (key : Key) : Nat :=
  ((live window now table key).map WindowCounter.count).getD 0

theorem isOver_mono (elapsed : counter.isOver window now = true) (ordered : now ≤ later) :
    counter.isOver window later = true := by
  rw [WindowCounter.isOver, decide_eq_true_eq] at elapsed ⊢
  linarith

theorem live_later (ordered : now ≤ later) : live window later table key =
    (live window now table key).filter fun counter => !counter.isOver window later := by
  rw [live, live, Option.filter_filter]
  congr 1
  funext counter
  cases elapsed : counter.isOver window now with
  | true => rw [isOver_mono elapsed ordered]; rfl
  | false => rw [Bool.not_false, Bool.true_and]

theorem live_insert : live window later (table.insert key counter) other =
    if other = key then (some counter).filter fun counter => !counter.isOver window later
    else live window later table other := by
  rw [live, Dict.lookup_insert_eq]
  split
  · rfl
  · rfl

theorem live_dropCounter (ordered : now ≤ later) :
    live window later (dropCounter window now key table) other = live window later table other := by
  rw [dropCounter]
  split
  case isTrue elapsed =>
    rw [live, live]
    by_cases same : other = key
    · subst same
      rw [Option.any_eq_true] at elapsed
      obtain ⟨counter, known, elapsed⟩ := elapsed
      rw [Finmap.lookup_erase, known, Option.filter_none, Option.filter_some,
        isOver_mono elapsed ordered]
      rfl
    · rw [Finmap.lookup_erase_ne same]
  case isFalse => rfl

/-- No counter began after `now`. -/
def Started (now : ℚ) (table : Dict Key WindowCounter) : Prop :=
  ∀ key counter, table.lookup key = some counter → counter.startedAt ≤ now

theorem Started.mono (started : Started now table) (ordered : now ≤ later) :
    Started later table :=
  fun key counter known => (started key counter known).trans ordered

theorem Started.insert (started : Started now table) (begun : counter.startedAt ≤ now) :
    Started now (table.insert key counter) := by
  intro other found known
  rw [Dict.lookup_insert_eq] at known
  split at known
  · cases known
    exact begun
  · exact started other found known

theorem Started.dropCounter (started : Started now table) :
    Started now (dropCounter window now key table) := by
  rw [VaultApi.dropCounter]
  split
  case isTrue =>
    intro other found known
    by_cases same : other = key
    · rw [same, Finmap.lookup_erase] at known
      cases known
    · rw [Finmap.lookup_erase_ne same] at known
      exact started other found known
  case isFalse => exact started

/-- The counter that a call at `now` works with. -/
def current (window now : ℚ) (table : Dict Key WindowCounter) (key : Key) : WindowCounter :=
  (live window now table key).getD ⟨now, 0⟩

theorem current_startedAt (started : Started now table) :
    (current window now table key).startedAt ≤ now := by
  rw [current]
  cases found : live window now table key with
  | none => exact le_refl now
  | some counter =>
    rw [live, Option.filter_eq_some_iff] at found
    exact started key counter found.1

theorem not_isOver_current (positive : 0 < window) :
    (current window now table key).isOver window now = false := by
  rw [current]
  cases found : live window now table key with
  | none =>
    rw [Option.getD_none, WindowCounter.isOver, decide_eq_false_iff_not, sub_self, not_le]
    exact positive
  | some counter =>
    rw [live, Option.filter_eq_some_iff] at found
    rw [Option.getD_some, ← Bool.not_eq_true']
    exact found.2

theorem counterOf_spec {counters : Counters Key} {sequence : Nat} (positive : 0 < window)
    (started : Started now counters.table) :
    ∃ found next, counterOf window now key counters sequence =
        some (current window now counters.table key, found, next) ∧
      Started now found.table ∧
      ∀ other, live window now found.table other =
        if other = key then some (current window now counters.table key)
        else live window now counters.table other := by
  have alive : (current window now counters.table key).isOver window now = false :=
    not_isOver_current positive
  have renewed (missing : live window now counters.table key = none) :
      (⟨now, 0⟩ : WindowCounter) = current window now counters.table key := by
    rw [current, missing, Option.getD_none]
  have replaced (missing : live window now counters.table key = none) (other : Key) :
      live window now (counters.table.insert key ⟨now, 0⟩) other =
        if other = key then some (current window now counters.table key)
        else live window now counters.table other := by
    rw [renewed missing, live_insert, Option.filter_some, alive]
    rfl
  rw [counterOf]
  cases known : counters.table.lookup key with
  | none =>
    have missing : live window now counters.table key = none := by
      rw [live, known, Option.filter_none]
    refine ⟨_, _, by rw [← renewed missing]; rfl, started.insert (le_refl now),
      replaced missing⟩
  | some counter =>
    dsimp only
    cases elapsed : counter.isOver window now with
    | true =>
      have missing : live window now counters.table key = none := by
        rw [live, known, Option.filter_some, elapsed]
        rfl
      refine ⟨_, _, by rw [if_pos rfl, ← renewed missing]; rfl, started.insert (le_refl now),
        replaced missing⟩
    | false =>
      have found : live window now counters.table key = some counter := by
        rw [live, known, Option.filter_some, elapsed]
        rfl
      have begun : ¬ now < counter.startedAt := not_lt.mpr (started key counter known)
      refine ⟨counters, sequence, ?_, started, ?_⟩
      · rw [if_neg Bool.false_ne_true, if_neg begun, current, found, Option.getD_some]
      · intro other
        split
        case isTrue same => rw [same, current, found, Option.getD_some]
        case isFalse => rfl

end Live

variable {budget : Nat} {policy : RatePolicy} {principal : StoragePrincipal} {now : ℚ}
  {limiter : RateLimiter}

/-- The limits leave room for a call. -/
def allowed (policy : RatePolicy) (principal : StoragePrincipal) (now : ℚ)
    (limiter : RateLimiter) : Prop :=
  (current policy.windowSeconds now limiter.accounts.table principal.accountId).count <
      policy.accountRequestLimit ∧
    (current policy.windowSeconds now limiter.devices.table principal.deviceKey).count <
      policy.deviceRequestLimit

instance : Decidable (allowed policy principal now limiter) :=
  inferInstanceAs (Decidable (_ ∧ _))

/-- The current counters of the caller, with one more request where it is accepted. -/
def WindowCounter.add (counter : WindowCounter) (accepted : Bool) : WindowCounter :=
  { counter with count := counter.count + if accepted then 1 else 0 }

/-- What a call that reads `now` leaves. -/
structure Spends (policy : RatePolicy) (principal : StoragePrincipal) (now : ℚ)
    (before after : RateLimiter) (answer : Except String Unit) : Prop where
  answers : answer =
    if allowed policy principal now before then .ok () else .error requestRateExceeded
  accounts : ∀ key, live policy.windowSeconds now after.accounts.table key =
    if key = principal.accountId then
      some ((current policy.windowSeconds now before.accounts.table principal.accountId).add
        (decide (allowed policy principal now before)))
    else live policy.windowSeconds now before.accounts.table key
  devices : ∀ key, live policy.windowSeconds now after.devices.table key =
    if key = principal.deviceKey then
      some ((current policy.windowSeconds now before.devices.table principal.deviceKey).add
        (decide (allowed policy principal now before)))
    else live policy.windowSeconds now before.devices.table key
  observed : after.lastObserved = before.lastObserved
  startedAccounts : Started now after.accounts.table
  startedDevices : Started now after.devices.table

theorem live_increment {Key : Type} [DecidableEq Key] {window : ℚ} {key : Key}
    {counters : Counters Key} {counter : WindowCounter} (alive : counter.isOver window now = false)
    (other : Key) : live window now (counters.increment key counter).table other =
      if other = key then some (counter.add true) else live window now counters.table other := by
  have added : (counters.increment key counter).table =
    counters.table.insert key (counter.add true) := rfl
  have stillAlive : (counter.add true).isOver window now = false := alive
  rw [added, live_insert, Option.filter_some, stillAlive]
  rfl

theorem live_add {Key : Type} [DecidableEq Key] {window : ℚ} {key : Key}
    {counters : Counters Key} {table : Dict Key WindowCounter} {counter : WindowCounter}
    (alive : counter.isOver window now = false)
    (found : ∀ other, live window now counters.table other =
      if other = key then some counter else live window now table other) (other : Key) :
    live window now (counters.increment key counter).table other =
      if other = key then some (counter.add true) else live window now table other := by
  rw [live_increment alive, found]
  split
  · rfl
  · rfl

theorem spend_spec (accounts : Started now limiter.accounts.table)
    (devices : Started now limiter.devices.table) :
    Spends policy principal now limiter (limiter.spend policy principal now).1
      (limiter.spend policy principal now).2 := by
  obtain ⟨accountCounters, second, counted, startedAccounts, account⟩ :=
    @counterOf_spec _ _ _ _ principal.accountId _ limiter.nextExpirySequence
      policy.windowPositive accounts
  obtain ⟨deviceCounters, third, alsoCounted, startedDevices, device⟩ :=
    @counterOf_spec _ _ _ _ principal.deviceKey _ second policy.windowPositive devices
  rw [RateLimiter.spend, counted]
  dsimp only
  rw [alsoCounted]
  dsimp only
  by_cases room : allowed policy principal now limiter
  · have notFull : ¬ (policy.accountRequestLimit ≤
        (current policy.windowSeconds now limiter.accounts.table principal.accountId).count ∨
        policy.deviceRequestLimit ≤
        (current policy.windowSeconds now limiter.devices.table principal.deviceKey).count) := by
      rw [not_or, not_le, not_le]
      exact room
    rw [if_neg notFull]
    refine ⟨by rw [if_pos room], ?_, ?_, rfl, ?_, ?_⟩
    · rw [decide_eq_true room]
      exact live_add (not_isOver_current policy.windowPositive) account
    · rw [decide_eq_true room]
      exact live_add (not_isOver_current policy.windowPositive) device
    · exact startedAccounts.insert (current_startedAt accounts)
    · exact startedDevices.insert (current_startedAt devices)
  · have full : policy.accountRequestLimit ≤
        (current policy.windowSeconds now limiter.accounts.table principal.accountId).count ∨
        policy.deviceRequestLimit ≤
        (current policy.windowSeconds now limiter.devices.table principal.deviceKey).count := by
      rw [allowed, not_and_or, not_lt, not_lt] at room
      exact room
    rw [if_pos full]
    refine ⟨by rw [if_neg room], ?_, ?_, rfl, startedAccounts, startedDevices⟩
    · rw [decide_eq_false room]
      exact account
    · rw [decide_eq_false room]
      exact device

theorem prune_spec (accounts : Started now limiter.accounts.table)
    (devices : Started now limiter.devices.table) :
    Started now (limiter.prune budget policy now).accounts.table ∧
      Started now (limiter.prune budget policy now).devices.table ∧
      (∀ key, live policy.windowSeconds now (limiter.prune budget policy now).accounts.table key =
        live policy.windowSeconds now limiter.accounts.table key) ∧
      ∀ key, live policy.windowSeconds now (limiter.prune budget policy now).devices.table key =
        live policy.windowSeconds now limiter.devices.table key := by
  have keeps {Key : Type} [DecidableEq Key] {heap : List (Expiry Key)} {budget : Nat}
      {table : Dict Key WindowCounter} (started : Started now table) :
      Started now (Expiry.prune now (dropCounter policy.windowSeconds now) budget heap table).2.2 ∧
        ∀ key, live policy.windowSeconds now
          (Expiry.prune now (dropCounter policy.windowSeconds now) budget heap table).2.2 key =
            live policy.windowSeconds now table key := by
    apply @Expiry.prune_keeps _ _ _ _ _ _ (fun pruned => Started now pruned ∧
      ∀ key, live policy.windowSeconds now pruned key = live policy.windowSeconds now table key)
    · intro key pruned kept
      refine ⟨kept.1.dropCounter, ?_⟩
      intro other
      rw [live_dropCounter (le_refl now)]
      exact kept.2 other
    · exact ⟨started, fun key => rfl⟩
  exact ⟨(keeps accounts).1, (keeps devices).1, (keeps accounts).2, (keeps devices).2⟩

/-- A limiter whose counters began before its last call. -/
structure Sound (limiter : RateLimiter) : Prop where
  accounts : ∀ last ∈ limiter.lastObserved, Started last limiter.accounts.table
  devices : ∀ last ∈ limiter.lastObserved, Started last limiter.devices.table
  unused : limiter.lastObserved = none →
    limiter.accounts.table = ∅ ∧ limiter.devices.table = ∅

theorem Sound.started (sound : Sound limiter) (inOrder : ∀ last ∈ limiter.lastObserved, last ≤ now) :
    Started now limiter.accounts.table ∧ Started now limiter.devices.table := by
  cases observed : limiter.lastObserved with
  | none =>
    obtain ⟨accounts, devices⟩ := sound.unused observed
    rw [accounts, devices]
    have nothing {Key : Type} [DecidableEq Key] : Started now (∅ : Dict Key WindowCounter) := by
      intro key counter known
      rw [Finmap.lookup_empty] at known
      cases known
    exact ⟨nothing, nothing⟩
  | some last =>
    have ordered := inOrder last observed
    exact ⟨(sound.accounts last observed).mono ordered, (sound.devices last observed).mono ordered⟩

theorem Spends.of_live {before other after : RateLimiter} {answer : Except String Unit}
    (spends : Spends policy principal now before after answer)
    (accounts : ∀ key, live policy.windowSeconds now before.accounts.table key =
      live policy.windowSeconds now other.accounts.table key)
    (devices : ∀ key, live policy.windowSeconds now before.devices.table key =
      live policy.windowSeconds now other.devices.table key)
    (observed : before.lastObserved = other.lastObserved) :
    Spends policy principal now other after answer := by
  have account (key : String) : current policy.windowSeconds now before.accounts.table key =
      current policy.windowSeconds now other.accounts.table key := by
    rw [current, accounts, current]
  have device (key : String × String) : current policy.windowSeconds now before.devices.table key =
      current policy.windowSeconds now other.devices.table key := by
    rw [current, devices, current]
  have same : allowed policy principal now before ↔ allowed policy principal now other := by
    rw [allowed, allowed, account, device]
  refine ⟨?_, ?_, ?_, spends.observed.trans observed, spends.startedAccounts,
    spends.startedDevices⟩
  · rw [spends.answers]
    exact if_congr same rfl rfl
  · intro key
    rw [spends.accounts, accounts, account, decide_eq_decide.mpr same]
  · intro key
    rw [spends.devices, devices, device, decide_eq_decide.mpr same]

theorem consume_spec (sound : Sound limiter) :
    ((∃ last ∈ limiter.lastObserved, now < last) ∧ limiter.consume budget policy principal now =
        (limiter, .error requestRateExceeded)) ∨
      (∀ last ∈ limiter.lastObserved, last ≤ now) ∧
        Spends policy principal now { limiter with lastObserved := some now }
          (limiter.consume budget policy principal now).1
          (limiter.consume budget policy principal now).2 := by
  rw [RateLimiter.consume]
  split
  case isTrue backwards =>
    rw [Option.any_eq_true] at backwards
    obtain ⟨last, observed, before⟩ := backwards
    exact .inl ⟨⟨last, observed, of_decide_eq_true before⟩, rfl⟩
  case isFalse forwards =>
    have inOrder : ∀ last ∈ limiter.lastObserved, last ≤ now := by
      intro last observed
      by_contra later
      apply forwards
      rw [Option.any_eq_true]
      exact ⟨last, observed, decide_eq_true (not_le.mp later)⟩
    obtain ⟨accounts, devices⟩ := sound.started inOrder
    have pruned := @prune_spec budget policy now { limiter with lastObserved := some now }
      accounts devices
    exact .inr ⟨inOrder,
      (spend_spec pruned.1 pruned.2.1).of_live pruned.2.2.1 pruned.2.2.2 rfl⟩

theorem Spends.sound {after : RateLimiter} {answer : Except String Unit}
    (spends : Spends policy principal now { limiter with lastObserved := some now } after answer) :
    Sound after := by
  have observed : after.lastObserved = some now := spends.observed
  refine ⟨?_, ?_, ?_⟩
  · intro last seen
    rw [observed] at seen
    cases seen
    exact spends.startedAccounts
  · intro last seen
    rw [observed] at seen
    cases seen
    exact spends.startedDevices
  · intro unseen
    rw [observed] at unseen
    cases unseen

theorem sound_consume (sound : Sound limiter) :
    Sound (limiter.consume budget policy principal now).1 := by
  rcases consume_spec sound with ⟨-, refused⟩ | ⟨-, spends⟩
  · rw [refused]
    exact sound
  · exact spends.sound

theorem sound_empty : Sound .empty := ⟨nofun, nofun, fun _ => ⟨rfl, rfl⟩⟩

theorem sound_after (sound : Sound limiter) (requests : List Request) :
    Sound (limiter.after budget policy requests) := by
  rw [RateLimiter.after]
  induction requests generalizing limiter with
  | nil => exact sound
  | cons request rest induction => exact induction (sound_consume sound)

/-! ## Pruning is not observed -/

/-- Two limiters that differ in counters whose windows are over. -/
structure Alike (policy : RatePolicy) (one other : RateLimiter) : Prop where
  observed : one.lastObserved = other.lastObserved
  accounts : ∀ last ∈ one.lastObserved, ∀ key,
    live policy.windowSeconds last one.accounts.table key =
      live policy.windowSeconds last other.accounts.table key
  devices : ∀ last ∈ one.lastObserved, ∀ key,
    live policy.windowSeconds last one.devices.table key =
      live policy.windowSeconds last other.devices.table key

theorem Alike.live_eq {one other : RateLimiter} (alike : Alike policy one other)
    (oneSound : Sound one) (otherSound : Sound other)
    (inOrder : ∀ last ∈ one.lastObserved, last ≤ now) :
    (∀ key, live policy.windowSeconds now one.accounts.table key =
        live policy.windowSeconds now other.accounts.table key) ∧
      ∀ key, live policy.windowSeconds now one.devices.table key =
        live policy.windowSeconds now other.devices.table key := by
  cases observed : one.lastObserved with
  | none =>
    have oneUnused := oneSound.unused observed
    have otherUnused := otherSound.unused (alike.observed.symm.trans observed)
    rw [oneUnused.1, oneUnused.2, otherUnused.1, otherUnused.2]
    exact ⟨fun key => rfl, fun key => rfl⟩
  | some last =>
    have ordered := inOrder last observed
    constructor
    · intro key
      rw [live_later ordered, alike.accounts last observed, ← live_later ordered]
    · intro key
      rw [live_later ordered, alike.devices last observed, ← live_later ordered]

theorem Alike.consume {other : RateLimiter} {otherBudget : Nat} (alike : Alike policy limiter other)
    (sound : Sound limiter) (otherSound : Sound other) :
    (limiter.consume budget policy principal now).2 =
        (other.consume otherBudget policy principal now).2 ∧
      Alike policy (limiter.consume budget policy principal now).1
        (other.consume otherBudget policy principal now).1 := by
  rcases @consume_spec budget policy principal now _ sound with ⟨⟨last, seen, before⟩, refused⟩ |
    ⟨inOrder, spends⟩
  · rcases @consume_spec otherBudget policy principal now _ otherSound with ⟨-, alsoRefused⟩ |
      ⟨forwards, -⟩
    · rw [refused, alsoRefused]
      exact ⟨rfl, alike⟩
    · rw [alike.observed] at seen
      exact absurd before (not_lt.mpr (forwards last seen))
  · rcases @consume_spec otherBudget policy principal now _ otherSound with
      ⟨⟨last, seen, before⟩, -⟩ | ⟨-, otherSpends⟩
    · rw [← alike.observed] at seen
      exact absurd before (not_lt.mpr (inOrder last seen))
    · obtain ⟨accounts, devices⟩ := alike.live_eq sound otherSound inOrder
      have same : Spends policy principal now { other with lastObserved := some now }
          (limiter.consume budget policy principal now).1
          (limiter.consume budget policy principal now).2 :=
        spends.of_live accounts devices rfl
      refine ⟨same.answers.trans otherSpends.answers.symm,
        spends.observed.trans otherSpends.observed.symm, ?_, ?_⟩
      · intro last seen key
        rw [spends.observed] at seen
        cases seen
        rw [same.accounts, otherSpends.accounts]
      · intro last seen key
        rw [spends.observed] at seen
        cases seen
        rw [same.devices, otherSpends.devices]

theorem Alike.answers {other : RateLimiter} {otherBudget : Nat} (alike : Alike policy limiter other)
    (sound : Sound limiter) (otherSound : Sound other) (requests : List Request) :
    limiter.answers budget policy requests = other.answers otherBudget policy requests := by
  induction requests generalizing limiter other with
  | nil => rfl
  | cons request rest induction =>
    have step := @Alike.consume budget policy request.principal request.now _ other otherBudget
      alike sound otherSound
    rw [RateLimiter.answers, RateLimiter.answers, step.1,
      induction step.2 (sound_consume sound) (sound_consume otherSound)]

/-! ## What an interval accepts -/

/-- How many requests of an interval that begins at `start` a key has spent, and the
counter it has at the time of the last call. -/
structure Metered (window : ℚ) (limit : Nat) (start : ℚ) (spent : Nat) (last : Option ℚ)
    (found : Option WindowCounter) : Prop where
  bounded : spent ≤ 2 * limit
  early : (∀ time ∈ last, time < start) → spent = 0
  missing : found = none → (∀ time ∈ last, time < start + window) → spent ≤ limit
  counted : ∀ counter, found = some counter → counter.count ≤ limit ∧
    (∀ time ∈ last, counter.startedAt ≤ time) ∧
    (counter.startedAt < start → spent ≤ counter.count) ∧
    (counter.startedAt < start + window → spent ≤ limit + counter.count)

section Meter

variable {window start : ℚ} {limit spent : Nat} {last : Option ℚ} {found : Option WindowCounter}
  {counter : WindowCounter}

theorem Metered.mono (metered : Metered window limit start spent last found)
    (known : last = none → found = none) (inOrder : ∀ time ∈ last, time ≤ now) :
    Metered window limit start spent (some now)
      (found.filter fun counter => !counter.isOver window now) := by
  refine ⟨metered.bounded, ?_, ?_, ?_⟩
  · intro before
    have early := before now rfl
    exact metered.early fun time seen => (inOrder time seen).trans_lt early
  · intro gone inside
    have inside := inside now rfl
    cases unfiltered : found with
    | none => exact metered.missing unfiltered fun time seen => (inOrder time seen).trans_lt inside
    | some counter =>
      obtain ⟨counts, -, spends, -⟩ := metered.counted counter unfiltered
      rw [unfiltered, Option.filter_eq_none_iff] at gone
      have elapsed := gone counter rfl
      rw [Bool.not_eq_true', Bool.not_eq_false, WindowCounter.isOver, decide_eq_true_eq] at elapsed
      have before : counter.startedAt < start := by linarith
      exact (spends before).trans counts
  · intro counter kept
    rw [Option.filter_eq_some_iff] at kept
    obtain ⟨counts, begun, spends⟩ := metered.counted counter kept.1
    refine ⟨counts, ?_, spends⟩
    intro time seen
    cases seen
    cases observed : last with
    | none =>
      rw [known observed] at kept
      cases kept.1
    | some time => exact (begun time observed).trans (inOrder time observed)

theorem Metered.begin (metered : Metered window limit start spent (some now) found) :
    Metered window limit start spent (some now) (some (found.getD ⟨now, 0⟩)) := by
  refine ⟨metered.bounded, metered.early, nofun, ?_⟩
  intro counter same
  cases same
  cases known : found with
  | some counter => exact metered.counted counter known
  | none =>
    rw [Option.getD_none]
    refine ⟨Nat.zero_le _, ?_, ?_, ?_⟩
    · intro time seen
      cases seen
      exact le_refl now
    · intro before
      have none : spent = 0 := metered.early fun time seen => by cases seen; exact before
      exact none.le
    · intro inside
      exact metered.missing known fun time seen => by cases seen; exact inside

theorem Metered.spend (metered : Metered window limit start spent (some now) (some counter))
    (room : counter.count < limit) :
    Metered window limit start (spent + if start ≤ now ∧ now < start + window then 1 else 0)
      (some now) (some (counter.add true)) := by
  obtain ⟨counts, begun, spends, alsoSpends⟩ := metered.counted counter rfl
  have begun := begun now rfl
  have added : (counter.add true).count = counter.count + 1 := rfl
  refine ⟨?_, ?_, nofun, ?_⟩
  · split
    case isTrue inside =>
      have bound := alsoSpends (begun.trans_lt inside.2)
      omega
    case isFalse => exact metered.bounded
  · intro before
    have early := before now rfl
    rw [if_neg fun inside => absurd early (not_lt.mpr inside.1)]
    exact metered.early before
  · intro other same
    cases same
    rw [added]
    refine ⟨room, ?_, ?_, ?_⟩
    · intro time seen
      cases seen
      exact begun
    · intro before
      have bound := spends before
      split <;> omega
    · intro before
      have bound := alsoSpends before
      split <;> omega

end Meter

structure Side (policy : RatePolicy) (Key : Type) [DecidableEq Key] where
  keyOf : StoragePrincipal → Key
  table : RateLimiter → Dict Key WindowCounter
  limit : Nat
  unused : ∀ limiter, Sound limiter → limiter.lastObserved = none → table limiter = ∅
  spends : ∀ principal now limiter after answer,
    Spends policy principal now { limiter with lastObserved := some now } after answer → ∀ key,
      live policy.windowSeconds now (table after) key =
        if key = keyOf principal then
          some ((current policy.windowSeconds now (table limiter) (keyOf principal)).add
            answer.toOption.isSome)
        else live policy.windowSeconds now (table limiter) key
  room : ∀ principal now limiter after answer,
    Spends policy principal now { limiter with lastObserved := some now } after answer →
      answer.toOption.isSome = true →
      (current policy.windowSeconds now (table limiter) (keyOf principal)).count < limit

theorem Spends.isSome {before after : RateLimiter} {answer : Except String Unit}
    (spends : Spends policy principal now before after answer) :
    answer.toOption.isSome = decide (allowed policy principal now before) := by
  rw [spends.answers]
  by_cases room : allowed policy principal now before
  · rw [if_pos room, decide_eq_true room]
    rfl
  · rw [if_neg room, decide_eq_false room]
    rfl

def accountSide (policy : RatePolicy) : Side policy String where
  keyOf principal := principal.accountId
  table limiter := limiter.accounts.table
  limit := policy.accountRequestLimit
  unused limiter sound unseen := (sound.unused unseen).1
  spends principal now limiter after answer spends key := by
    rw [spends.isSome]
    exact spends.accounts key
  room principal now limiter after answer spends accepted := by
    rw [spends.isSome, decide_eq_true_eq] at accepted
    exact accepted.1

def deviceSide (policy : RatePolicy) : Side policy (String × String) where
  keyOf := StoragePrincipal.deviceKey
  table limiter := limiter.devices.table
  limit := policy.deviceRequestLimit
  unused limiter sound unseen := (sound.unused unseen).2
  spends principal now limiter after answer spends key := by
    rw [spends.isSome]
    exact spends.devices key
  room principal now limiter after answer spends accepted := by
    rw [spends.isSome, decide_eq_true_eq] at accepted
    exact accepted.2

section Sides

variable {Key : Type} [DecidableEq Key] {side : Side policy Key} {key : Key} {start : ℚ}
  {spent : Nat} {requests : List Request}

/-- How many of these requests a key has had accepted in an interval of one window. -/
def acceptedIn (side : Side policy Key) (key : Key) (start : ℚ) (requests : List Request)
    (answers : List (Except String Unit)) : Nat :=
  (requests.zip answers).countP fun (request, answer) =>
    decide (side.keyOf request.principal = key) && answer.toOption.isSome &&
      decide (start ≤ request.now ∧ request.now < start + policy.windowSeconds)

def Side.Metered (side : Side policy Key) (key : Key) (start : ℚ) (spent : Nat)
    (limiter : RateLimiter) : Prop :=
  VaultApi.Metered policy.windowSeconds side.limit start spent limiter.lastObserved
    (limiter.lastObserved.bind fun last =>
      live policy.windowSeconds last (side.table limiter) key)

theorem Side.metered_spends {after : RateLimiter} {answer : Except String Unit}
    (metered : side.Metered key start spent limiter) (sound : Sound limiter)
    (inOrder : ∀ last ∈ limiter.lastObserved, last ≤ now)
    (spends : Spends policy principal now { limiter with lastObserved := some now } after answer) :
    side.Metered key start (spent + if side.keyOf principal = key ∧ answer.toOption.isSome = true ∧
      start ≤ now ∧ now < start + policy.windowSeconds then 1 else 0) after := by
  have observed : after.lastObserved = some now := spends.observed
  have found : (limiter.lastObserved.bind fun last =>
      live policy.windowSeconds last (side.table limiter) key).filter
        (fun counter => !counter.isOver policy.windowSeconds now) =
      live policy.windowSeconds now (side.table limiter) key := by
    cases seen : limiter.lastObserved with
    | none =>
      rw [side.unused limiter sound seen]
      rfl
    | some last => exact (live_later (inOrder last seen)).symm
  have unseen : limiter.lastObserved = none → (limiter.lastObserved.bind fun last =>
      live policy.windowSeconds last (side.table limiter) key) = none := by
    intro none
    rw [none]
    rfl
  have meter := metered.mono unseen inOrder
  rw [found] at meter
  rw [Side.Metered, observed, Option.bind_some, side.spends _ _ _ _ _ spends]
  by_cases mine : key = side.keyOf principal
  · subst mine
    have begun := meter.begin
    rw [if_pos rfl]
    cases accepted : answer.toOption.isSome with
    | false =>
      rw [if_neg (by simp)]
      exact begun
    | true =>
      have spent := begun.spend (side.room _ _ _ _ _ spends accepted)
      simp only [true_and]
      exact spent
  · rw [if_neg mine, if_neg fun both => mine both.1.symm]
    exact meter

theorem Side.acceptedIn_le (metered : side.Metered key start spent limiter)
    (sound : Sound limiter) :
    spent + acceptedIn side key start requests (limiter.answers budget policy requests) ≤
      2 * side.limit := by
  induction requests generalizing limiter spent with
  | nil => exact metered.bounded
  | cons request rest induction =>
    rw [RateLimiter.answers, acceptedIn, List.zip_cons_cons, List.countP_cons, ← acceptedIn]
    have counted (answer : Except String Unit) :
        (decide (side.keyOf request.principal = key) && answer.toOption.isSome &&
          decide (start ≤ request.now ∧ request.now < start + policy.windowSeconds)) = true ↔
        side.keyOf request.principal = key ∧ answer.toOption.isSome = true ∧
          start ≤ request.now ∧ request.now < start + policy.windowSeconds := by
      rw [Bool.and_eq_true, Bool.and_eq_true, decide_eq_true_eq, decide_eq_true_eq, and_assoc]
    rw [if_congr (counted _) rfl rfl]
    rcases @consume_spec budget policy request.principal request.now _ sound with
      ⟨-, refused⟩ | ⟨inOrder, spends⟩
    · rw [refused]
      dsimp only
      rw [if_neg fun accepted => by cases accepted.2.1]
      exact induction metered sound
    · have bound := induction (side.metered_spends metered sound inOrder spends) spends.sound
      omega

theorem Side.metered_empty : side.Metered key start 0 .empty :=
  ⟨Nat.zero_le _, fun _ => rfl, fun _ _ => Nat.zero_le _, nofun⟩

theorem Side.liveCount_rejected (sound : Sound limiter) {reason : String}
    (rejected : (limiter.consume budget policy principal now).2 = .error reason) :
    liveCount policy.windowSeconds now
        (side.table (limiter.consume budget policy principal now).1) key =
      liveCount policy.windowSeconds now (side.table limiter) key := by
  rcases @consume_spec budget policy principal now _ sound with ⟨-, refused⟩ | ⟨-, spends⟩
  · rw [refused]
  · rw [liveCount, side.spends _ _ _ _ _ spends, rejected, liveCount]
    split
    case isTrue mine =>
      rw [mine, Option.map_some, Option.getD_some, current]
      cases live policy.windowSeconds now (side.table limiter) (side.keyOf principal) with
      | none => rfl
      | some counter => rfl
    case isFalse => rfl

end Sides

/-- A limiter that prunes at most sixty-four counters with a call answers as one that never
prunes does; an interval of one window has at most twice the limit of an account or device
accepted; and a call that is rejected adds nothing to what counts. The clock may read
anything: a reading before the last one is rejected. -/
theorem rateLimiter_windows (policy : RatePolicy) (requests : List Request) :
    RateLimiter.empty.answers maxCounterPrunePerRequest policy requests =
        RateLimiter.empty.answers 0 policy requests ∧
    (∀ account start, acceptedIn (accountSide policy) account start requests
        (RateLimiter.empty.answers maxCounterPrunePerRequest policy requests) ≤
          2 * policy.accountRequestLimit) ∧
    (∀ device start, acceptedIn (deviceSide policy) device start requests
        (RateLimiter.empty.answers maxCounterPrunePerRequest policy requests) ≤
          2 * policy.deviceRequestLimit) ∧
    ∀ principal now reason,
      ((RateLimiter.empty.after maxCounterPrunePerRequest policy requests).consume
        maxCounterPrunePerRequest policy principal now).2 = .error reason →
      (∀ account, liveCount policy.windowSeconds now
          ((RateLimiter.empty.after maxCounterPrunePerRequest policy requests).consume
            maxCounterPrunePerRequest policy principal now).1.accounts.table account =
        liveCount policy.windowSeconds now
          (RateLimiter.empty.after maxCounterPrunePerRequest policy requests).accounts.table
          account) ∧
      ∀ device, liveCount policy.windowSeconds now
          ((RateLimiter.empty.after maxCounterPrunePerRequest policy requests).consume
            maxCounterPrunePerRequest policy principal now).1.devices.table device =
        liveCount policy.windowSeconds now
          (RateLimiter.empty.after maxCounterPrunePerRequest policy requests).devices.table
          device := by
  have bounded {Key : Type} [DecidableEq Key] (side : Side policy Key) (key : Key) (start : ℚ) :
      acceptedIn side key start requests
        (RateLimiter.empty.answers maxCounterPrunePerRequest policy requests) ≤
          2 * side.limit := by
    have bound := @Side.acceptedIn_le maxCounterPrunePerRequest policy _ _ _ side key start 0
      requests side.metered_empty sound_empty
    omega
  refine ⟨?_, bounded (accountSide policy), bounded (deviceSide policy), ?_⟩
  · have alike : Alike policy .empty .empty := ⟨rfl, fun _ _ _ => rfl, fun _ _ _ => rfl⟩
    exact alike.answers sound_empty sound_empty requests
  · intro principal now reason rejected
    have sound : Sound (RateLimiter.empty.after maxCounterPrunePerRequest policy requests) :=
      sound_after sound_empty requests
    exact ⟨fun account => (accountSide policy).liveCount_rejected sound rejected,
      fun device => (deviceSide policy).liveCount_rejected sound rejected⟩

end JobAgg.VaultApi
