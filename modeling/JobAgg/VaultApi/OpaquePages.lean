import JobAgg.Foundation.Run
import JobAgg.VaultApi.OpaqueRuns
import Mathlib.Tactic.Linarith

/-! # Pages of a log that grows

A cursor freezes where a walk over the patches ends. Its successor is made when its page is
first read and is kept with it, so that a page that is read again is the same. -/

namespace JobAgg.VaultApi

variable {Fingerprint : Type} {library : EnvelopeLibrary Fingerprint} {limits : RetainedLimits}
  {before after ready store middle : OpaqueStore Fingerprint} {past : List StoreEvent}
  {vault : VaultKey} {token : String} {cursor : Cursor} {now : ℚ} {draws : List String}
  {patches : List CiphertextEnvelope} {pageSize : Option Nat} {asked : Option String}

def Cursor.stop (cursor : Cursor) : Nat := min (cursor.start + cursor.pageSize) cursor.endAt

def Cursor.objects (cursor : Cursor) (patches : List CiphertextEnvelope) :
    List CiphertextEnvelope :=
  (patches.take cursor.stop).drop cursor.start

def Cursor.successor (now : ℚ) (cursor : Cursor) : Cursor :=
  ⟨cursor.vault, cursor.stop, cursor.endAt, cursor.pageSize, now + cursorLifetimeSeconds, none⟩

structure Cursor.Fits (cursor : Cursor) (patches : List CiphertextEnvelope) : Prop where
  sized : 1 ≤ cursor.pageSize ∧ cursor.pageSize ≤ maxPageSize
  ordered : cursor.start ≤ cursor.endAt
  inside : cursor.endAt ≤ patches.length

/-- The cursor goes on where the other's page ends, and lives as long. -/
structure Cursor.Leads (cursor next : Cursor) : Prop where
  vault : next.vault = cursor.vault
  start : next.start = cursor.stop
  endAt : next.endAt = cursor.endAt
  pageSize : next.pageSize = cursor.pageSize
  expiresAt : cursor.expiresAt ≤ next.expiresAt

theorem Cursor.stop_le : cursor.stop ≤ cursor.endAt := Nat.min_le_right _ _

theorem Cursor.start_le_stop (ordered : cursor.start ≤ cursor.endAt) :
    cursor.start ≤ cursor.stop :=
  le_min (Nat.le_add_right _ _) ordered

theorem Cursor.objects_append (ordered : cursor.start ≤ cursor.endAt) :
    cursor.objects patches ++ (patches.take cursor.endAt).drop cursor.stop =
      (patches.take cursor.endAt).drop cursor.start := by
  have page : cursor.objects patches =
      ((patches.take cursor.endAt).take cursor.stop).drop cursor.start := by
    rw [List.take_take, Nat.min_eq_left cursor.stop_le, Cursor.objects]
  have rest : (patches.take cursor.endAt).drop cursor.stop =
      (((patches.take cursor.endAt).drop cursor.start)).drop (cursor.stop - cursor.start) := by
    rw [List.drop_drop, Nat.add_sub_cancel' (Cursor.start_le_stop ordered)]
  rw [page, rest, List.drop_take]
  exact List.take_append_drop _ _

/-! ## What a list does -/

namespace OpaqueStore

/-- A clock was read and cursors went that have expired. -/
structure Prunes (now : ℚ) (before after : OpaqueStore Fingerprint) : Prop where
  rest : after = { before with
    cursors := after.cursors
    cursorExpiries := after.cursorExpiries
    lastObservedClock := some now }
  inOrder : ∀ last ∈ before.lastObservedClock, last ≤ now
  kept : ∀ token cursor, before.cursors.lookup token = some cursor → now < cursor.expiresAt →
    after.cursors.lookup token = some cursor
  known : ∀ token cursor, after.cursors.lookup token = some cursor →
    before.cursors.lookup token = some cursor

theorem known_of_erase {table : Dict String Cursor} {other : String}
    (found : (table.erase other).lookup token = some cursor) : table.lookup token = some cursor := by
  by_cases same : token = other
  · rw [same, Finmap.lookup_erase] at found
    cases found
  · rwa [Finmap.lookup_erase_ne same] at found

theorem kept_of_erase {table : Dict String Cursor} {other : String}
    (expired : ∀ cursor, table.lookup other = some cursor → cursor.expiresAt ≤ now)
    (found : table.lookup token = some cursor) (live : now < cursor.expiresAt) :
    (table.erase other).lookup token = some cursor := by
  have different : token ≠ other := by
    rintro rfl
    exact absurd live (not_lt.mpr (expired cursor found))
  rwa [Finmap.lookup_erase_ne different]

theorem Prunes.erase (prunes : before.Prunes now after)
    (expired : ∀ cursor, after.cursors.lookup token = some cursor → cursor.expiresAt ≤ now) :
    before.Prunes now { after with cursors := after.cursors.erase token } := by
  refine ⟨?_, prunes.inOrder, ?_, ?_⟩
  · rw [prunes.rest]
  · intro other cursor found live
    exact kept_of_erase expired (prunes.kept other cursor found live) live
  · intro other cursor found
    exact prunes.known other cursor (known_of_erase found)

theorem prunes_pruneCursors (inOrder : ∀ last ∈ store.lastObservedClock, last ≤ now) :
    store.Prunes now
      (({ store with lastObservedClock := some now } : OpaqueStore Fingerprint).pruneCursors now) := by
  have kept (other : String) (table : Dict String Cursor)
      (holds : (∀ token cursor, store.cursors.lookup token = some cursor → now < cursor.expiresAt →
          table.lookup token = some cursor) ∧
        ∀ token cursor, table.lookup token = some cursor →
          store.cursors.lookup token = some cursor) :
      (∀ token cursor, store.cursors.lookup token = some cursor → now < cursor.expiresAt →
          (dropCursor now other table).lookup token = some cursor) ∧
        ∀ token cursor, (dropCursor now other table).lookup token = some cursor →
          store.cursors.lookup token = some cursor := by
    rw [dropCursor]
    split
    case isFalse => exact holds
    case isTrue expired =>
      constructor
      · intro token cursor found live
        apply kept_of_erase _ (holds.1 token cursor found live) live
        intro dropped known
        rw [known, Option.any_some, decide_eq_true_eq] at expired
        exact expired
      · intro token cursor found
        exact holds.2 token cursor (known_of_erase found)
  obtain ⟨live, known⟩ := Expiry.prune_keeps kept
    ⟨fun _ _ found _ => found, fun _ _ found => found⟩
  exact ⟨rfl, inOrder, live, known⟩

/-- Where a list begins: at the beginning of the patches, or where its cursor is. -/
def Begins (ready : OpaqueStore Fingerprint) (now : ℚ) (vault : VaultKey) (asked : Option String)
    (cursor : Cursor) : Prop :=
  cursor.vault = vault ∧
    match asked with
    | none => cursor.start = 0 ∧ cursor.endAt = (ready.state vault).patchLog.length ∧
        cursor.nextCursor = none ∧ cursor.expiresAt = now
    | some token => ready.cursors.lookup token = some cursor ∧ now < cursor.expiresAt

def chain (asked : Option String) (cursor : Cursor) (next : String) (now : ℚ)
    (cursors : Dict String Cursor) : Dict String Cursor :=
  match asked with
  | none => cursors.insert next (cursor.successor now)
  | some token => (cursors.insert next (cursor.successor now)).insert token
      { cursor with nextCursor := some next }

end OpaqueStore

/-- What `list_patches` may do and answer. -/
inductive Lists (vault : VaultKey) (asked : Option String) (now : ℚ) (draws : List String)
    (before : OpaqueStore Fingerprint) :
    OpaqueStore Fingerprint → Except String CiphertextPage → Prop
  | refused (late : ∃ last ∈ before.lastObservedClock, now < last) :
      Lists vault asked now draws before before (.error invalidOpaqueStorageRequest)
  | rejected {after : OpaqueStore Fingerprint} {reason : String}
      (prunes : before.Prunes now after) : Lists vault asked now draws before after (.error reason)
  | finished {ready : OpaqueStore Fingerprint} {cursor : Cursor}
      (prunes : before.Prunes now ready) (begins : ready.Begins now vault asked cursor)
      (fits : cursor.Fits (ready.state vault).patchLog) (whole : cursor.stop = cursor.endAt) :
      Lists vault asked now draws before ready
        (.ok ⟨cursor.objects (ready.state vault).patchLog, none⟩)
  | followed {ready : OpaqueStore Fingerprint} {cursor : Cursor} {next : String}
      (prunes : before.Prunes now ready) (begins : ready.Begins now vault asked cursor)
      (fits : cursor.Fits (ready.state vault).patchLog) (part : cursor.stop < cursor.endAt)
      (chained : cursor.nextCursor = some next) :
      Lists vault asked now draws before ready
        (.ok ⟨cursor.objects (ready.state vault).patchLog, some next⟩)
  | extended {ready after : OpaqueStore Fingerprint} {cursor : Cursor} {next : String}
      (prunes : before.Prunes now ready) (begins : ready.Begins now vault asked cursor)
      (fits : cursor.Fits (ready.state vault).patchLog) (part : cursor.stop < cursor.endAt)
      (unchained : cursor.nextCursor = none) (drawn : next ∉ ready.cursors)
      (rest : after = { ready with
        cursors := OpaqueStore.chain asked cursor next now ready.cursors
        cursorExpiries := after.cursorExpiries
        nextCursorExpirySequence := after.nextCursorExpirySequence })
      (listed : next ∈ draws) :
      Lists vault asked now draws before after
        (.ok ⟨cursor.objects (ready.state vault).patchLog, some next⟩)

theorem lists_page (cursor : Cursor) (prunes : before.Prunes now ready)
    (begins : ready.Begins now vault asked cursor) :
    Lists vault asked now draws before
      (ready.page vault (ready.state vault).patchLog cursor.start cursor.endAt cursor.pageSize
        (asked.map (·, cursor)) now draws).1
      (ready.page vault (ready.state vault).patchLog cursor.start cursor.endAt cursor.pageSize
        (asked.map (·, cursor)) now draws).2 := by
  rw [OpaqueStore.page]
  split
  case isTrue => exact .rejected prunes
  case isFalse fits =>
  rw [not_not] at fits
  have fits : cursor.Fits (ready.state vault).patchLog :=
    ⟨⟨fits.1, fits.2.1⟩, fits.2.2.1, fits.2.2.2⟩
  dsimp only
  rw [← Cursor.stop, ← Cursor.objects]
  split
  case isFalse whole =>
    exact .finished prunes begins fits (le_antisymm cursor.stop_le (not_lt.mp whole))
  case isTrue part =>
  have chained : (asked.map (·, cursor)).bind (·.2.nextCursor) = cursor.nextCursor := by
    cases asked with
    | none => exact begins.2.2.2.1.symm
    | some token => rfl
  rw [chained]
  cases next : cursor.nextCursor with
  | some next => exact .followed prunes begins fits part next
  | none =>
    dsimp only
    rw [OpaqueStore.newCursor]
    cases drawn : (draws.take 8).find? fun token => decide (token ∉ ready.cursors) with
    | none => exact .rejected prunes
    | some token =>
      have fresh : token ∉ ready.cursors := by
        have holds := @List.find?_some _ (fun token => decide (token ∉ ready.cursors)) _ _ drawn
        exact of_decide_eq_true holds
      have listed : token ∈ draws := List.mem_of_mem_take (List.mem_of_find?_eq_some drawn)
      have successor : (⟨vault, cursor.stop, cursor.endAt, cursor.pageSize,
          now + cursorLifetimeSeconds, none⟩ : Cursor) = cursor.successor now := by
        rw [← begins.1]
        rfl
      rw [successor]
      cases asked with
      | none => exact .extended prunes begins fits part next fresh rfl listed
      | some asked => exact .extended prunes begins fits part next fresh rfl listed

theorem lists_listPatches : Lists vault asked now draws before
    (before.listPatches vault asked pageSize now draws).1
    (before.listPatches vault asked pageSize now draws).2 := by
  rw [OpaqueStore.listPatches]
  cases read : before.clockNow now with
  | none =>
    rw [OpaqueStore.clockNow] at read
    split at read
    case isFalse => cases read
    case isTrue late =>
      rw [Option.any_eq_true] at late
      obtain ⟨last, observed, late⟩ := late
      exact .refused ⟨last, observed, of_decide_eq_true late⟩
  | some timed =>
    obtain ⟨rfl, inOrder⟩ := OpaqueStore.clockNow_eq read
    have prunes := OpaqueStore.prunes_pruneCursors inOrder
    dsimp only
    cases asked with
    | none =>
      exact lists_page ⟨vault, 0, _, _, now, none⟩ prunes ⟨rfl, rfl, rfl, rfl, rfl⟩
    | some token =>
      dsimp only
      split
      case h_1 => exact .rejected prunes
      case h_2 record found =>
        split
        case isTrue expired =>
          apply Lists.rejected (prunes.erase _)
          intro cursor known
          rw [found] at known
          cases known
          exact expired
        case isFalse live =>
        split
        case isTrue => exact .rejected prunes
        case isFalse own =>
          rw [not_or, not_not] at own
          have begins : (({ before with lastObservedClock := some now } :
              OpaqueStore Fingerprint).pruneCursors now).Begins now vault (some token)
                record := ⟨own.1, found, not_le.mp live⟩
          exact lists_page record prunes begins

/-! ## What every call keeps -/

/-- Logs grow at their end and the clock does not go back. -/
structure OpaqueStore.Grows (before after : OpaqueStore Fingerprint) : Prop where
  logs : ∀ vault, (before.state vault).patchLog <+: (after.state vault).patchLog
  clock : ∀ last ∈ before.lastObservedClock, ∃ later ∈ after.lastObservedClock, last ≤ later

theorem OpaqueStore.Grows.refl : store.Grows store :=
  ⟨fun _ => List.prefix_refl _, fun last observed => ⟨last, observed, le_refl last⟩⟩

theorem OpaqueStore.Grows.trans (first : before.Grows middle) (second : middle.Grows after) :
    before.Grows after := by
  refine ⟨fun vault => (first.logs vault).trans (second.logs vault), ?_⟩
  intro last observed
  obtain ⟨later, laterObserved, ordered⟩ := first.clock last observed
  obtain ⟨latest, latestObserved, laterOrdered⟩ := second.clock later laterObserved
  exact ⟨latest, latestObserved, ordered.trans laterOrdered⟩

theorem OpaqueStore.Readies.grows (readies : before.Readies now after) : before.Grows after := by
  constructor
  · intro vault
    rw [(readies.state vault).content]
  · intro last observed
    rw [readies.rest]
    exact ⟨now, rfl, readies.inOrder last observed⟩

theorem OpaqueStore.Prunes.state (prunes : before.Prunes now after) :
    after.state vault = before.state vault := by
  rw [prunes.rest]
  rfl

theorem OpaqueStore.Prunes.clock (prunes : before.Prunes now after) :
    after.lastObservedClock = some now := by
  rw [prunes.rest]

theorem OpaqueStore.Prunes.grows (prunes : before.Prunes now after) : before.Grows after := by
  constructor
  · intro vault
    rw [prunes.state]
  · intro last observed
    rw [prunes.clock]
    exact ⟨now, rfl, prunes.inOrder last observed⟩

theorem patchLog_write {state : VaultState Fingerprint} {fingerprint : Fingerprint} {scope : Scope}
    {envelope : StorageEnvelope} :
    state.patchLog <+: (state.write fingerprint scope envelope).patchLog := by
  cases scope with
  | patches =>
    cases envelope with
    | metadata => exact List.prefix_refl _
    | ciphertext => exact List.prefix_append _ _
  | metadata => cases envelope <;> exact List.prefix_refl _
  | object => cases envelope <;> exact List.prefix_refl _
  | snapshot => cases envelope <;> exact List.prefix_refl _

theorem grows_record {state : VaultState Fingerprint} {key : Scope × String}
    {attempt : WriteAttempt Fingerprint} {response : StorageEnvelope}
    (grown : (store.state vault).patchLog <+: state.patchLog) :
    store.Grows (store.record vault state key attempt response now) := by
  constructor
  · intro other
    rw [state_record]
    split
    case isTrue same => rwa [same]
    case isFalse => exact List.prefix_refl _
  · exact fun last observed => ⟨last, observed, le_refl last⟩

section Puts

variable {scope : Scope} {envelope : StorageEnvelope} {request : WriteRequest}
  {outcome : Except String Reply}

theorem grows_afterWrite : store.Grows (store.afterWrite library scope envelope request) := by
  constructor
  · intro other
    rw [OpaqueStore.afterWrite, state_retain, state_record]
    split
    case isTrue same =>
      rw [same]
      exact patchLog_write
    case isFalse => exact List.prefix_refl _
  · exact fun last observed => ⟨last, observed, le_refl last⟩

theorem Puts.grows (puts : Puts library limits scope envelope request before after outcome) :
    before.Grows after := by
  cases puts with
  | invalid => exact .refl
  | conflict readies => exact readies.grows
  | mismatched readies => exact readies.grows
  | full readies => exact readies.grows
  | replayed readies => exact readies.grows
  | duplicate readies => exact readies.grows.trans (grows_record (List.prefix_refl _))
  | written readies => exact readies.grows.trans grows_afterWrite

theorem Puts.cursors (puts : Puts library limits scope envelope request before after outcome) :
    after.cursors = before.cursors := by
  cases puts with
  | invalid => rfl
  | conflict readies => rw [readies.rest]
  | mismatched readies => rw [readies.rest]
  | full readies => rw [readies.rest]
  | replayed readies => rw [readies.rest]
  | duplicate readies => exact congrArg (·.cursors) readies.rest
  | written readies => exact congrArg (·.cursors) readies.rest

end Puts

theorem Lists.state {outcome : Except String CiphertextPage}
    (lists : Lists vault asked now draws before after outcome) (other : VaultKey) :
    after.state other = before.state other := by
  cases lists with
  | refused => rfl
  | rejected prunes => exact prunes.state
  | finished prunes => exact prunes.state
  | followed prunes => exact prunes.state
  | extended prunes begins fits part unchained drawn rest =>
    rw [rest]
    exact prunes.state

theorem Lists.grows {outcome : Except String CiphertextPage}
    (lists : Lists vault asked now draws before after outcome) : before.Grows after := by
  cases lists with
  | refused => exact .refl
  | rejected prunes => exact prunes.grows
  | finished prunes => exact prunes.grows
  | followed prunes => exact prunes.grows
  | extended prunes begins fits part unchained drawn rest =>
    rw [rest]
    exact ⟨prunes.grows.logs, prunes.grows.clock⟩

theorem pages_cases [DecidableEq Fingerprint] {event : StoreEvent}
    (step : before.Step library limits event after) : before.Grows after ∧
      ((∃ vault asked pageSize now draws outcome,
          event = ⟨.listPatches vault asked pageSize now draws, outcome.map .page⟩ ∧
          Lists vault asked now draws before after outcome) ∨
        after.cursors = before.cursors ∧
          ∀ vault asked pageSize now draws, event.call ≠ .listPatches vault asked pageSize now draws) := by
  obtain ⟨call, answer⟩ := event
  cases called : call.put with
  | some put =>
    have notList : ∀ vault asked pageSize now draws,
        call ≠ .listPatches vault asked pageSize now draws := by
      rintro _ _ _ _ _ rfl
      cases called
    cases step_cases step with
    | puts other outcome otherCalled addressed valid puts =>
      exact ⟨puts.grows, .inr ⟨puts.cursors, notList⟩⟩
    | misaddressed => exact ⟨.refl, .inr ⟨rfl, notList⟩⟩
    | reads notPut => exact absurd (called.symm.trans notPut) nofun
  | none =>
    cases call with
    | putMetadata => cases called
    | putObject => cases called
    | appendPatch => cases called
    | putSnapshot => cases called
    | getMetadata vault =>
      obtain ⟨rfl, rfl⟩ := Prod.mk.inj step
      exact ⟨.refl, .inr ⟨rfl, nofun⟩⟩
    | getObject vault objectId =>
      obtain ⟨rfl, rfl⟩ := Prod.mk.inj step
      exact ⟨.refl, .inr ⟨rfl, nofun⟩⟩
    | getSnapshot vault =>
      obtain ⟨rfl, rfl⟩ := Prod.mk.inj step
      exact ⟨.refl, .inr ⟨rfl, nofun⟩⟩
    | listPatches vault asked pageSize now draws =>
      have lists := @lists_listPatches _ before vault now draws pageSize asked
      obtain ⟨rfl, rfl⟩ := Prod.mk.inj step
      exact ⟨lists.grows, .inl ⟨vault, asked, pageSize, now, draws, _, rfl, lists⟩⟩

/-! ## Cursors of a run -/

def StoreEvent.issue (token : String) (event : StoreEvent) : Option VaultKey :=
  match event.call, event.answer with
  | .listPatches vault _ _ _ _, .ok (.page page) =>
    if page.nextCursor = some token then some vault else none
  | _, _ => none

def issuer (token : String) (past : List StoreEvent) : Option VaultKey :=
  past.foldl (fun known event => (event.issue token).or known) none

theorem issuer_append {event : StoreEvent} :
    issuer token (past ++ [event]) = (event.issue token).or (issuer token past) := by
  rw [issuer, List.foldl_append, ← issuer]
  rfl

theorem issue_list {number : Option Nat} {page : CiphertextPage} :
    StoreEvent.issue token ⟨.listPatches vault asked number now draws, .ok (.page page)⟩ =
      if page.nextCursor = some token then some vault else none := rfl

structure CursorsSound (past : List StoreEvent) (store : OpaqueStore Fingerprint) : Prop where
  fits : ∀ token cursor, store.cursors.lookup token = some cursor →
    cursor.Fits (store.state cursor.vault).patchLog ∧ cursor.start < cursor.endAt
  timely : ∀ token cursor, store.cursors.lookup token = some cursor →
    ∃ last ∈ store.lastObservedClock, cursor.expiresAt ≤ last + cursorLifetimeSeconds
  /-- A successor is there as long as the cursor has not expired. -/
  chained : ∀ token cursor next, store.cursors.lookup token = some cursor →
    cursor.nextCursor = some next →
      (∃ last ∈ store.lastObservedClock, cursor.expiresAt ≤ last) ∨
        ∃ successor, store.cursors.lookup next = some successor ∧ cursor.Leads successor
  issued : ∀ token cursor, store.cursors.lookup token = some cursor →
    issuer token past = some cursor.vault

theorem cursorsSound_empty : CursorsSound [] (.empty : OpaqueStore Fingerprint) :=
  ⟨nofun, nofun, nofun, nofun⟩

section Sound

variable {event : StoreEvent}

theorem CursorsSound.silent (sound : CursorsSound past store)
    (silent : ∀ token, event.issue token = none) : CursorsSound (past ++ [event]) store := by
  refine ⟨sound.fits, sound.timely, sound.chained, ?_⟩
  intro token cursor found
  rw [issuer_append, silent, Option.none_or]
  exact sound.issued token cursor found

theorem CursorsSound.grow (sound : CursorsSound past before) (grows : before.Grows after)
    (same : after.cursors = before.cursors) : CursorsSound past after := by
  refine ⟨?_, ?_, ?_, ?_⟩
  · intro token cursor found
    rw [same] at found
    obtain ⟨fits, part⟩ := sound.fits token cursor found
    exact ⟨⟨fits.sized, fits.ordered, fits.inside.trans (grows.logs cursor.vault).length_le⟩, part⟩
  · intro token cursor found
    rw [same] at found
    obtain ⟨last, observed, bound⟩ := sound.timely token cursor found
    obtain ⟨later, laterObserved, ordered⟩ := grows.clock last observed
    exact ⟨later, laterObserved, bound.trans (add_le_add_left ordered _)⟩
  · intro token cursor next found chained
    rw [same] at found ⊢
    rcases sound.chained token cursor next found chained with ⟨last, observed, expired⟩ | there
    · obtain ⟨later, laterObserved, ordered⟩ := grows.clock last observed
      exact .inl ⟨later, laterObserved, expired.trans ordered⟩
    · exact .inr there
  · rw [same]
    exact sound.issued

theorem CursorsSound.prune (sound : CursorsSound past before) (prunes : before.Prunes now after) :
    CursorsSound past after := by
  refine ⟨?_, ?_, ?_, ?_⟩
  · intro token cursor found
    rw [prunes.state]
    exact sound.fits token cursor (prunes.known token cursor found)
  · intro token cursor found
    obtain ⟨last, observed, bound⟩ := sound.timely token cursor (prunes.known token cursor found)
    rw [prunes.clock]
    exact ⟨now, rfl, bound.trans (add_le_add_left (prunes.inOrder last observed) _)⟩
  · intro token cursor next found chained
    rw [prunes.clock]
    rcases sound.chained token cursor next (prunes.known token cursor found) chained with
      ⟨last, observed, expired⟩ | ⟨successor, there, leads⟩
    · exact .inl ⟨now, rfl, expired.trans (prunes.inOrder last observed)⟩
    · by_cases live : now < successor.expiresAt
      · exact .inr ⟨successor, prunes.kept next successor there live, leads⟩
      · exact .inl ⟨now, rfl, leads.expiresAt.trans (not_lt.mp live)⟩
  · intro token cursor found
    exact sound.issued token cursor (prunes.known token cursor found)

theorem CursorsSound.successor (sound : CursorsSound past ready)
    (observed : ready.lastObservedClock = some now)
    (begins : ready.Begins now vault asked cursor) {next : String}
    (chained : cursor.nextCursor = some next) :
    ∃ successor, ready.cursors.lookup next = some successor ∧ cursor.Leads successor := by
  cases asked with
  | none =>
    rw [begins.2.2.2.1] at chained
    cases chained
  | some token =>
    rcases sound.chained token cursor next begins.2.1 chained with ⟨last, seen, expired⟩ | there
    · rw [observed] at seen
      cases seen
      exact absurd begins.2.2 (not_lt.mpr expired)
    · exact there

theorem CursorsSound.follow (sound : CursorsSound past ready)
    (observed : ready.lastObservedClock = some now) (begins : ready.Begins now vault asked cursor)
    {next : String} (chained : cursor.nextCursor = some next)
    (issues : ∀ token, event.issue token = if some next = some token then some vault else none) :
    CursorsSound (past ++ [event]) ready := by
  refine ⟨sound.fits, sound.timely, sound.chained, ?_⟩
  intro token other found
  rw [issuer_append, issues]
  split
  case isTrue same =>
    cases same
    obtain ⟨successor, there, leads⟩ := sound.successor observed begins chained
    rw [there] at found
    cases found
    rw [leads.vault, begins.1]
    rfl
  case isFalse =>
    rw [Option.none_or]
    exact sound.issued token other found

theorem lookup_chain {cursors : Dict String Cursor} {next other : String} {found : Cursor}
    (looked : (OpaqueStore.chain asked cursor next now cursors).lookup other = some found) :
    (asked = some other ∧ found = { cursor with nextCursor := some next }) ∨
      (other = next ∧ found = cursor.successor now) ∨
      other ≠ next ∧ cursors.lookup other = some found := by
  have inserted (looked : (cursors.insert next (cursor.successor now)).lookup other = some found) :
      (other = next ∧ found = cursor.successor now) ∨
        other ≠ next ∧ cursors.lookup other = some found := by
    rw [Dict.lookup_insert_eq] at looked
    split at looked
    case isTrue same => exact .inl ⟨same, (Option.some.inj looked).symm⟩
    case isFalse different => exact .inr ⟨different, looked⟩
  cases asked with
  | none => exact .inr (inserted looked)
  | some token =>
    rw [OpaqueStore.chain, Dict.lookup_insert_eq] at looked
    split at looked
    case isTrue same =>
      rw [same]
      exact .inl ⟨rfl, (Option.some.inj looked).symm⟩
    case isFalse => exact .inr (inserted looked)

theorem chain_lookup {cursors : Dict String Cursor} {next other : String} {found : Cursor}
    (known : cursors.lookup other = some found) (drawn : next ∉ cursors)
    (begun : ∀ token, asked = some token → cursors.lookup token = some cursor) :
    (OpaqueStore.chain asked cursor next now cursors).lookup other =
      some { found with
        nextCursor := if asked = some other then some next else found.nextCursor } := by
  have different : other ≠ next := by
    rintro rfl
    exact drawn (Finmap.mem_of_lookup_eq_some known)
  cases asked with
  | none =>
    rw [OpaqueStore.chain, Finmap.lookup_insert_of_ne _ different, known, if_neg nofun]
  | some token =>
    rw [OpaqueStore.chain, Dict.lookup_insert_eq]
    by_cases same : other = token
    · have own := begun token rfl
      rw [same, own] at known
      rw [if_pos same, if_pos (congrArg some same.symm), Option.some.inj known]
    · rw [if_neg same, if_neg fun equal => same (Option.some.inj equal).symm,
        Finmap.lookup_insert_of_ne _ different, known]

theorem chain_lookup_next {cursors : Dict String Cursor} {next : String} (drawn : next ∉ cursors)
    (begun : ∀ token, asked = some token → cursors.lookup token = some cursor) :
    (OpaqueStore.chain asked cursor next now cursors).lookup next = some (cursor.successor now) := by
  cases asked with
  | none => exact Finmap.lookup_insert _
  | some token =>
    have different : next ≠ token := by
      rintro rfl
      exact drawn (Finmap.mem_of_lookup_eq_some (begun next rfl))
    rw [OpaqueStore.chain, Finmap.lookup_insert_of_ne _ different, Finmap.lookup_insert]

theorem OpaqueStore.Begins.lookup (begins : ready.Begins now vault asked cursor) (token : String)
    (same : asked = some token) : ready.cursors.lookup token = some cursor := by
  subst same
  exact begins.2.1

theorem CursorsSound.extend (sound : CursorsSound past ready)
    (observed : ready.lastObservedClock = some now) (begins : ready.Begins now vault asked cursor)
    (fits : cursor.Fits (ready.state vault).patchLog) (part : cursor.stop < cursor.endAt)
    {next : String} (drawn : next ∉ ready.cursors)
    (rest : after = { ready with
      cursors := OpaqueStore.chain asked cursor next now ready.cursors
      cursorExpiries := after.cursorExpiries
      nextCursorExpirySequence := after.nextCursorExpirySequence })
    (issues : ∀ token, event.issue token = if some next = some token then some vault else none) :
    CursorsSound (past ++ [event]) after := by
  have cursors : after.cursors = OpaqueStore.chain asked cursor next now ready.cursors := by
    rw [rest]
  have clock : after.lastObservedClock = some now := by
    rw [rest]
    exact observed
  have state (vault : VaultKey) : after.state vault = ready.state vault := by
    rw [rest]
    rfl
  have begun := begins.lookup
  refine ⟨?_, ?_, ?_, ?_⟩
  · intro token found looked
    rw [state]
    rw [cursors] at looked
    rcases lookup_chain looked with ⟨own, rfl⟩ | ⟨-, rfl⟩ | ⟨-, known⟩
    · obtain ⟨fits, part⟩ := sound.fits token cursor (begun token own)
      exact ⟨⟨fits.sized, fits.ordered, fits.inside⟩, part⟩
    · rw [← begins.1] at fits
      exact ⟨⟨fits.sized, part.le, fits.inside⟩, part⟩
    · exact sound.fits token found known
  · intro token found looked
    rw [clock]
    rw [cursors] at looked
    rw [observed.symm]
    rcases lookup_chain looked with ⟨own, rfl⟩ | ⟨-, rfl⟩ | ⟨-, known⟩
    · exact sound.timely token cursor (begun token own)
    · exact ⟨now, observed, le_refl _⟩
    · exact sound.timely token found known
  · intro token found follower looked chained
    rw [clock, cursors]
    rw [cursors] at looked
    rcases lookup_chain looked with ⟨own, rfl⟩ | ⟨-, rfl⟩ | ⟨-, known⟩
    · cases chained
      refine .inr ⟨_, chain_lookup_next drawn begun, rfl, rfl, rfl, rfl, ?_⟩
      obtain ⟨last, seen, bound⟩ := sound.timely token cursor (begun token own)
      rw [observed] at seen
      cases seen
      exact bound
    · cases chained
    · rcases sound.chained token found follower known chained with expired | ⟨successor, there, leads⟩
      · rw [observed] at expired
        exact .inl expired
      · exact .inr ⟨_, chain_lookup there drawn begun,
          leads.vault, leads.start, leads.endAt, leads.pageSize, leads.expiresAt⟩
  · intro token found looked
    rw [cursors] at looked
    rw [issuer_append, issues]
    split
    case isTrue same =>
      cases same
      rcases lookup_chain looked with ⟨own, rfl⟩ | ⟨-, rfl⟩ | ⟨different, -⟩
      · exact congrArg some begins.1.symm
      · exact congrArg some begins.1.symm
      · exact absurd rfl different
    case isFalse different =>
      rw [Option.none_or]
      rcases lookup_chain looked with ⟨own, rfl⟩ | ⟨rfl, -⟩ | ⟨-, known⟩
      · exact sound.issued token cursor (begun token own)
      · exact absurd rfl different
      · exact sound.issued token found known

theorem CursorsSound.list {number : Option Nat} {outcome : Except String CiphertextPage}
    (sound : CursorsSound past before) (lists : Lists vault asked now draws before after outcome) :
    CursorsSound (past ++ [⟨.listPatches vault asked number now draws, outcome.map .page⟩]) after := by
  cases lists with
  | refused => exact sound.silent fun _ => rfl
  | rejected prunes => exact (sound.prune prunes).silent fun _ => rfl
  | finished prunes =>
    apply (sound.prune prunes).silent
    intro token
    exact issue_list.trans (if_neg nofun)
  | followed prunes begins fits part chained =>
    exact (sound.prune prunes).follow prunes.clock begins chained fun _ => rfl
  | extended prunes begins fits part unchained drawn rest =>
    exact (sound.prune prunes).extend prunes.clock begins fits part drawn rest fun _ => rfl

theorem CursorsSound.step [DecidableEq Fingerprint] (sound : CursorsSound past before)
    (step : before.Step library limits event after) : CursorsSound (past ++ [event]) after := by
  obtain ⟨grows, ⟨vault, asked, number, now, draws, outcome, rfl, lists⟩ | ⟨same, notList⟩⟩ :=
    pages_cases step
  · exact sound.list lists
  · apply (sound.grow grows same).silent
    intro token
    rw [StoreEvent.issue]
    split
    case h_1 vault asked number now draws page called answered =>
      exact absurd called (notList vault asked number now draws)
    case h_2 => rfl

end Sound

/-! ## A cursor along a run -/

section Runs

variable [DecidableEq Fingerprint] {events : List StoreEvent} {event : StoreEvent}

theorem grows_of_run (run : Run (OpaqueStore.Step library limits) before events after) :
    before.Grows after := by
  induction run with
  | nil => exact .refl
  | cons step _ induction => exact (pages_cases step).1.trans induction

/-- The same cursor, perhaps with a successor that it did not have. -/
structure Cursor.Kept (cursor kept : Cursor) : Prop where
  same : kept = { cursor with nextCursor := kept.nextCursor }
  next : ∀ next, cursor.nextCursor = some next → kept.nextCursor = some next

theorem Cursor.Kept.refl : cursor.Kept cursor := ⟨rfl, fun _ same => same⟩

theorem Cursor.Kept.trans {second third : Cursor} (one : cursor.Kept second)
    (other : second.Kept third) : cursor.Kept third := by
  refine ⟨?_, fun next same => other.next next (one.next next same)⟩
  rw [other.same, one.same]

theorem kept_of_step (step : before.Step library limits event after)
    (found : before.cursors.lookup token = some cursor)
    (live : ∀ last ∈ after.lastObservedClock, last < cursor.expiresAt) :
    ∃ kept, after.cursors.lookup token = some kept ∧ cursor.Kept kept := by
  obtain ⟨grows, ⟨vault, asked, number, now, draws, outcome, rfl, lists⟩ | ⟨same, -⟩⟩ :=
    pages_cases step
  · cases lists with
    | refused => exact ⟨cursor, found, .refl⟩
    | rejected prunes =>
      exact ⟨cursor, prunes.kept token cursor found (live now prunes.clock), .refl⟩
    | finished prunes =>
      exact ⟨cursor, prunes.kept token cursor found (live now prunes.clock), .refl⟩
    | followed prunes =>
      exact ⟨cursor, prunes.kept token cursor found (live now prunes.clock), .refl⟩
    | extended prunes begins fits part unchained drawn rest =>
      have observed : now ∈ after.lastObservedClock := by
        rw [rest]
        exact prunes.clock
      have known := prunes.kept token cursor found (live now observed)
      rw [rest]
      refine ⟨_, chain_lookup known drawn begins.lookup, rfl, ?_⟩
      intro next chained
      dsimp only
      split
      case isFalse => exact chained
      case isTrue own =>
        rw [begins.lookup token own] at known
        cases known
        rw [unchained] at chained
        cases chained
  · rw [same]
    exact ⟨cursor, found, .refl⟩

theorem kept_of_run (run : Run (OpaqueStore.Step library limits) before events after)
    (found : before.cursors.lookup token = some cursor)
    (live : ∀ last ∈ after.lastObservedClock, last < cursor.expiresAt) :
    ∃ kept, after.cursors.lookup token = some kept ∧ cursor.Kept kept := by
  induction run generalizing cursor with
  | nil => exact ⟨cursor, found, .refl⟩
  | @cons _ next _ _ _ step rest induction =>
    have early : ∀ last ∈ next.lastObservedClock, last < cursor.expiresAt := by
      intro last observed
      obtain ⟨later, laterObserved, ordered⟩ := (grows_of_run rest).clock last observed
      exact ordered.trans_lt (live later laterObserved)
    obtain ⟨middle, there, kept⟩ := kept_of_step step found early
    have expires : middle.expiresAt = cursor.expiresAt := by rw [kept.same]
    obtain ⟨last, known, laterKept⟩ := induction there (by rwa [expires])
    exact ⟨last, known, kept.trans laterKept⟩

theorem CursorsSound.run (run : Run (OpaqueStore.Step library limits) before events after)
    (sound : CursorsSound past before) : CursorsSound (past ++ events) after := by
  induction run generalizing past with
  | nil => rwa [List.append_nil]
  | cons step _ induction =>
    have next := induction (sound.step step)
    rwa [List.append_assoc] at next

end Runs

/-! ## Pages that are answered -/

section Answered

variable {page : CiphertextPage} {number : Option Nat} {later : List CiphertextEnvelope}

/-- What a page that is answered tells. -/
theorem Lists.answered (sound : CursorsSound past before)
    (lists : Lists vault asked now draws before after (.ok page)) :
    ∃ ready cursor, before.Prunes now ready ∧ ready.Begins now vault asked cursor ∧
      cursor.Fits (ready.state vault).patchLog ∧
      page.objects = cursor.objects (ready.state vault).patchLog ∧
      (page.nextCursor = none ∧ cursor.stop = cursor.endAt ∧ after = ready ∨
        ∃ next successor, page.nextCursor = some next ∧ cursor.stop < cursor.endAt ∧
          after.cursors.lookup next = some successor ∧ cursor.Leads successor ∧
          now < successor.expiresAt ∧
          (∀ vault, after.state vault = ready.state vault) ∧
          (∀ known, cursor.nextCursor = some known → known = next) ∧
          ∀ token, asked = some token →
            after.cursors.lookup token = some { cursor with nextCursor := some next }) := by
  cases lists with
  | finished prunes begins fits whole =>
    exact ⟨_, _, prunes, begins, fits, rfl, .inl ⟨rfl, whole, rfl⟩⟩
  | followed prunes begins fits part chained =>
    obtain ⟨successor, there, leads⟩ :=
      (sound.prune prunes).successor prunes.clock begins chained
    refine ⟨_, _, prunes, begins, fits, rfl, .inr ⟨_, successor, rfl, part, there, leads, ?_,
      fun _ => rfl, ?_, ?_⟩⟩
    · cases asked with
      | none =>
        rw [begins.2.2.2.1] at chained
        cases chained
      | some token => exact begins.2.2.trans_le leads.expiresAt
    · intro known same
      exact Option.some.inj (same.symm.trans chained)
    · intro token own
      rw [← chained]
      exact begins.lookup token own
  | extended prunes begins fits part unchained drawn rest listed =>
    rename_i cursor next
    have cursors : after.cursors = _ := congrArg (·.cursors) rest
    have short : now < now + cursorLifetimeSeconds := by
      rw [cursorLifetimeSeconds]
      linarith
    have expires : cursor.expiresAt ≤ now + cursorLifetimeSeconds := by
      cases asked with
      | none =>
        rw [begins.2.2.2.2]
        exact short.le
      | some token =>
        obtain ⟨last, seen, bound⟩ := (sound.prune prunes).timely token cursor begins.2.1
        rw [prunes.clock] at seen
        cases seen
        exact bound
    have there := @chain_lookup_next cursor now asked _ next drawn begins.lookup
    refine ⟨_, cursor, prunes, begins, fits, rfl, .inr ⟨next, cursor.successor now, rfl, part, ?_,
      ⟨rfl, rfl, rfl, rfl, expires⟩, short, ?_, ?_, ?_⟩⟩
    · rw [cursors]
      exact there
    · intro other
      rw [rest]
      rfl
    · intro known same
      exact absurd (unchained.symm.trans same) nofun
    · intro token own
      have looked := @chain_lookup cursor now asked _ next token cursor
        (begins.lookup token own) drawn begins.lookup
      rw [if_pos own] at looked
      rw [cursors]
      exact looked

theorem listPatches_live (inOrder : ∀ last ∈ store.lastObservedClock, last ≤ now)
    (found : store.cursors.lookup token = some cursor) (live : now < cursor.expiresAt)
    (sized : ∀ size ∈ number, size = cursor.pageSize) :
    store.listPatches cursor.vault (some token) number now draws =
      (({ store with lastObservedClock := some now } : OpaqueStore Fingerprint).pruneCursors now).page
        cursor.vault (store.state cursor.vault).patchLog cursor.start cursor.endAt cursor.pageSize
        (some (token, cursor)) now draws := by
  have matched : ¬(cursor.vault ≠ cursor.vault ∨ number.any (· ≠ cursor.pageSize) = true) := by
    rintro (different | wrong)
    · exact different rfl
    · rw [Option.any_eq_true] at wrong
      obtain ⟨size, asked, wrong⟩ := wrong
      exact of_decide_eq_true wrong (sized size asked)
  have prunes := OpaqueStore.prunes_pruneCursors inOrder
  rw [OpaqueStore.listPatches, OpaqueStore.clockNow_later inOrder]
  dsimp only
  rw [prunes.kept token cursor found live]
  dsimp only
  rw [if_neg (not_le.mpr live), if_neg matched, prunes.state]

end Answered

/-! ## Walks -/

section Walks

variable [DecidableEq Fingerprint] {page : CiphertextPage} {number : Option Nat}
  {events : List StoreEvent}

/-- From a store that gave the token out, its page and those after it are fetched, each
before its cursor expires; meanwhile anything may be called. -/
inductive Walk (library : EnvelopeLibrary Fingerprint) (limits : RetainedLimits)
    (vault : VaultKey) :
    OpaqueStore Fingerprint → Option String → List CiphertextEnvelope → Prop
  | finished (store : OpaqueStore Fingerprint) : Walk library limits vault store none []
  | fetched {store middle after : OpaqueStore Fingerprint} {token : String} {cursor : Cursor}
      {events : List StoreEvent} {number : Option Nat} {now : ℚ} {draws : List String}
      {page : CiphertextPage} {rest : List CiphertextEnvelope}
      (found : store.cursors.lookup token = some cursor) (live : now < cursor.expiresAt)
      (run : Run (OpaqueStore.Step library limits) store events middle)
      (listed : middle.listPatches vault (some token) number now draws = (after, .ok page))
      (later : Walk library limits vault after page.nextCursor rest) :
      Walk library limits vault store (some token) (page.objects ++ rest)

omit [DecidableEq Fingerprint] in
theorem lists_of_eq {outcome : Except String CiphertextPage}
    (listed : store.listPatches vault asked number now draws = (after, outcome)) :
    Lists vault asked now draws store after outcome := by
  have lists := @lists_listPatches _ store vault now draws number asked
  rw [listed] at lists
  exact lists

theorem listed_kept (found : store.cursors.lookup token = some cursor) (live : now < cursor.expiresAt)
    (run : Run (OpaqueStore.Step library limits) store events middle)
    (prunes : middle.Prunes now ready) :
    ∃ kept, ready.cursors.lookup token = some kept ∧ cursor.Kept kept ∧
      (store.state cursor.vault).patchLog <+: (ready.state cursor.vault).patchLog := by
  obtain ⟨kept, there, keeps⟩ := kept_of_run run found
    fun last observed => (prunes.inOrder last observed).trans_lt live
  have expires : now < kept.expiresAt := by
    rw [keeps.same]
    exact live
  refine ⟨kept, prunes.kept token kept there expires, keeps, ?_⟩
  rw [prunes.state]
  exact (grows_of_run run).logs cursor.vault

theorem Walk.items {asked : Option String} {items : List CiphertextEnvelope}
    (walk : Walk library limits vault store asked items) (sound : CursorsSound past store) :
    (asked = none → items = []) ∧
      ∀ token cursor, asked = some token → store.cursors.lookup token = some cursor →
        cursor.vault = vault →
        items = ((store.state vault).patchLog.take cursor.endAt).drop cursor.start := by
  induction walk generalizing past with
  | finished => exact ⟨fun _ => rfl, nofun⟩
  | @fetched store middle after token cursor events number now draws page rest found live run listed
      later induction =>
      refine ⟨nofun, ?_⟩
      intro asked same own there mine
      cases own
      rw [found] at there
      cases there
      subst mine
      have lists := lists_of_eq listed
      obtain ⟨ready, begun, prunes, begins, fits, objects, follows⟩ :=
        lists.answered (sound.run run)
      obtain ⟨kept, there, keeps, grown⟩ := listed_kept found live run prunes
      rw [begins.2.1] at there
      cases there
      have inside := (sound.fits token cursor found).1
      have start : begun.start = cursor.start := by rw [keeps.same]
      have endAt : begun.endAt = cursor.endAt := by rw [keeps.same]
      have log : (ready.state cursor.vault).patchLog.take begun.endAt =
          (store.state cursor.vault).patchLog.take cursor.endAt := by
        obtain ⟨more, longer⟩ := grown
        rw [← longer, endAt, List.take_append_of_le_length inside.inside]
      have whole : begun.objects (ready.state cursor.vault).patchLog ++ _ = _ :=
        Cursor.objects_append fits.ordered
      rw [← objects, log, start] at whole
      have soundAfter : CursorsSound (past ++ events ++
          [⟨.listPatches cursor.vault (some token) number now draws, .ok (.page page)⟩]) after :=
        (sound.run run).list lists
      obtain ⟨none, some⟩ := induction soundAfter
      rcases follows with ⟨last, stop, -⟩ |
        ⟨next, successor, more, part, follower, leads, -, state, -, -⟩
      · rw [none last, List.append_nil, ← whole, stop, ← log, List.drop_take_self, List.append_nil]
      · rw [some next successor more follower (leads.vault.trans begins.1), state, leads.endAt,
          leads.start, log]
        exact whole

end Walks

end JobAgg.VaultApi
