import JobAgg.VaultApi.OpaqueViews

/-! # Isolation of accounts

Two runs that are asked the same for an account answer it alike, whatever is asked for other
accounts meanwhile. Each run draws its own tokens: names say which of one run stands for which
of the other. -/

namespace JobAgg.VaultApi

variable {Fingerprint : Type} {library : EnvelopeLibrary Fingerprint} {limits : RetainedLimits}
  {before after ready first second third : OpaqueStore Fingerprint} {account token next : String}
  {vault : VaultKey} {now : ℚ} {tokens draws : List String} {asked : Option String}
  {cursor other : Cursor} {store : OpaqueStore Fingerprint} {number : Option Nat}

/-- Tokens of one run, with the tokens of another that stand for the same cursors. -/
abbrev Names : Type := List (String × String)

def Names.OneToOne (names : Names) : Prop :=
  ∀ one ∈ names, ∀ two ∈ names, one.1 = two.1 ↔ one.2 = two.2

/-- Two tokens of which one stands for the other, or none at all -/
def Names.Relate (names : Names) : Option String → Option String → Prop :=
  Option.Rel fun token other => (token, other) ∈ names

variable {names more : Names} {pair : String × String}

theorem rel_imp {Value : Type} {one two : Option Value} {strong weak : Value → Value → Prop}
    (relates : Option.Rel strong one two) (implied : ∀ one two, strong one two → weak one two) :
    Option.Rel weak one two := by
  cases relates with
  | none => exact .none
  | some holds => exact .some (implied _ _ holds)

theorem Names.Relate.mono {one two : Option String} (relate : names.Relate one two)
    (included : names ⊆ more) : more.Relate one two :=
  rel_imp relate fun _ _ named => included named

theorem Names.OneToOne.cons (oneToOne : names.OneToOne)
    (fresh : ∀ known ∈ names, known.1 ≠ pair.1 ∧ known.2 ≠ pair.2) :
    Names.OneToOne (pair :: names) := by
  intro one listed two otherListed
  rw [List.mem_cons] at listed otherListed
  rcases listed with rfl | known
  · rcases otherListed with rfl | known
    · exact ⟨fun _ => rfl, fun _ => rfl⟩
    · have apart := fresh two known
      exact ⟨fun same => absurd same.symm apart.1, fun same => absurd same.symm apart.2⟩
  · rcases otherListed with rfl | otherKnown
    · have apart := fresh one known
      exact ⟨fun same => absurd same apart.1, fun same => absurd same apart.2⟩
    · exact oneToOne one known two otherKnown

/-! ## Cursors -/

def OpaqueStore.cursorAt (now : ℚ) (token : String) (store : OpaqueStore Fingerprint) :
    Option Cursor :=
  (store.cursors.lookup token).filter (now < ·.expiresAt)

theorem cursorAt_eq_some : first.cursorAt now token = some cursor ↔
    first.cursors.lookup token = some cursor ∧ now < cursor.expiresAt := by
  rw [OpaqueStore.cursorAt, Option.filter_eq_some_iff, decide_eq_true_eq]

structure SameCursor (names : Names) (cursor other : Cursor) : Prop where
  same : other = { cursor with nextCursor := other.nextCursor }
  next : names.Relate cursor.nextCursor other.nextCursor

def SameCursors (names : Names) (first second : OpaqueStore Fingerprint) : Prop :=
  ∀ pair ∈ names, ∀ now, first.Later now → second.Later now →
    Option.Rel (SameCursor names) (first.cursorAt now pair.1) (second.cursorAt now pair.2)

def Owns (account : String) (tokens : List String) (store : OpaqueStore Fingerprint) : Prop :=
  ∀ token cursor, store.cursors.lookup token = some cursor →
    (token ∈ tokens ↔ cursor.vault.1 = account)

def KeepsCursors (tokens : List String) (before after : OpaqueStore Fingerprint) : Prop :=
  ∀ token ∈ tokens, ∀ now, after.Later now →
    before.cursorAt now token = after.cursorAt now token

theorem SameCursors.become (same : SameCursors names first second)
    (keeps : KeepsCursors (names.map Prod.fst) first third) (grows : first.Grows third) :
    SameCursors names third second := by
  intro pair named now later otherLater
  rw [← keeps pair.1 (List.mem_map_of_mem named) now later]
  exact same pair named now (grows.later later) otherLater

theorem SameCursors.trans (same : SameCursors names first second)
    (keeps : KeepsCursors (names.map Prod.snd) second third) (grows : second.Grows third) :
    SameCursors names first third := by
  intro pair named now later otherLater
  rw [← keeps pair.2 (List.mem_map_of_mem named) now otherLater]
  exact same pair named now later (grows.later otherLater)

theorem keepsCursors_of_eq (same : after.cursors = before.cursors) :
    KeepsCursors tokens before after := by
  intro token _ now _
  rw [OpaqueStore.cursorAt, OpaqueStore.cursorAt, same]

theorem Owns.of_eq (owns : Owns account tokens before) (same : after.cursors = before.cursors) :
    Owns account tokens after := by
  intro token cursor found
  rw [same] at found
  exact owns token cursor found

theorem OpaqueStore.Prunes.keepsCursors (prunes : before.Prunes now after) :
    KeepsCursors tokens before after := by
  intro token _ time later
  have reached : now ≤ time := later now prunes.clock
  apply Option.ext
  intro cursor
  rw [cursorAt_eq_some, cursorAt_eq_some]
  constructor
  · rintro ⟨found, live⟩
    exact ⟨prunes.kept token cursor found (reached.trans_lt live), live⟩
  · rintro ⟨found, live⟩
    exact ⟨prunes.known token cursor found, live⟩

theorem Owns.prune (owns : Owns account tokens before) (prunes : before.Prunes now after) :
    Owns account tokens after :=
  fun token cursor found => owns token cursor (prunes.known token cursor found)

theorem OpaqueStore.Prunes.sameVaults (prunes : before.Prunes now after) :
    SameVaults account before after := by
  rw [prunes.rest]
  exact ⟨fun _ _ => Iff.rfl, fun _ _ => rfl, fun _ _ _ _ _ _ => rfl, rfl⟩

/-! ### Pages -/

theorem chain_lookup_other {cursors : Dict String Cursor} (different : token ≠ next)
    (notAsked : asked ≠ some token) :
    (OpaqueStore.chain asked cursor next now cursors).lookup token = cursors.lookup token := by
  cases asked with
  | none => exact Finmap.lookup_insert_of_ne _ different
  | some asked =>
    have apart : token ≠ asked := fun same => notAsked (congrArg some same.symm)
    rw [OpaqueStore.chain, Finmap.lookup_insert_of_ne _ apart,
      Finmap.lookup_insert_of_ne _ different]

def OpaqueStore.chained (asked : Option String) (cursor : Cursor) (next : String) (now : ℚ)
    (store : OpaqueStore Fingerprint) : OpaqueStore Fingerprint :=
  { store with
    cursors := chain asked cursor next now store.cursors
    cursorExpiries := Expiry.push ⟨now + cursorLifetimeSeconds, store.nextCursorExpirySequence + 1,
      next⟩ store.cursorExpiries
    nextCursorExpirySequence := store.nextCursorExpirySequence + 1 }

theorem Owns.chain_own (owns : Owns account tokens ready)
    (begins : ready.Begins now vault asked cursor) (own : vault.1 = account) :
    Owns account (next :: tokens) (ready.chained asked cursor next now) := by
  have mine : cursor.vault.1 = account := by rw [begins.1, own]
  intro token found looked
  rw [List.mem_cons]
  rcases lookup_chain looked with ⟨same, rfl⟩ | ⟨rfl, rfl⟩ | ⟨different, known⟩
  · have listed := (owns token cursor (begins.lookup token same)).mpr mine
    exact ⟨fun _ => mine, fun _ => .inr listed⟩
  · exact ⟨fun _ => mine, fun _ => .inl rfl⟩
  · rw [or_iff_right different]
    exact owns token found known

theorem Owns.chain_foreign (owns : Owns account tokens ready)
    (begins : ready.Begins now vault asked cursor) (foreign : vault.1 ≠ account)
    (fresh : next ∉ tokens)
    (same : after.cursors = OpaqueStore.chain asked cursor next now ready.cursors) :
    Owns account tokens after := by
  have theirs : cursor.vault.1 ≠ account := by rwa [begins.1]
  intro token found looked
  rw [same] at looked
  rcases lookup_chain looked with ⟨same, rfl⟩ | ⟨rfl, rfl⟩ | ⟨-, known⟩
  · exact owns token cursor (begins.lookup token same)
  · exact ⟨fun listed => absurd listed fresh, fun mine => absurd mine theirs⟩
  · exact owns token found known

theorem Lists.foreign {outcome : Except String CiphertextPage}
    (lists : Lists vault asked now draws before after outcome) (foreign : vault.1 ≠ account)
    (owns : Owns account tokens before) (fresh : ∀ draw ∈ draws, draw ∉ tokens) :
    SameVaults account before after ∧ KeepsCursors tokens before after ∧
      Owns account tokens after := by
  cases lists with
  | refused => exact ⟨.refl, keepsCursors_of_eq rfl, owns⟩
  | rejected prunes => exact ⟨prunes.sameVaults, prunes.keepsCursors, owns.prune prunes⟩
  | finished prunes => exact ⟨prunes.sameVaults, prunes.keepsCursors, owns.prune prunes⟩
  | followed prunes => exact ⟨prunes.sameVaults, prunes.keepsCursors, owns.prune prunes⟩
  | extended prunes begins fits part unchained drawn rest listed =>
    rename_i ready cursor next
    have owns := owns.prune prunes
    have cursors : after.cursors = OpaqueStore.chain asked cursor next now ready.cursors :=
      congrArg (·.cursors) rest
    have vaults : SameVaults account ready after := by
      rw [rest]
      exact ⟨fun _ _ => Iff.rfl, fun _ _ => rfl, fun _ _ _ _ _ _ => rfl, rfl⟩
    have grows : ready.Grows after := by
      rw [rest]
      exact ⟨fun _ => List.prefix_refl _, fun last observed => ⟨last, observed, le_refl last⟩⟩
    refine ⟨prunes.sameVaults.trans vaults grows, ?_,
      owns.chain_foreign begins foreign (fresh next listed) cursors⟩
    intro token own time later
    have different : token ≠ next := by
      rintro rfl
      exact fresh token listed own
    have notAsked : asked ≠ some token := by
      intro same
      have mine := (owns token cursor (begins.lookup token same)).mp own
      rw [begins.1] at mine
      exact foreign mine
    rw [prunes.keepsCursors token own time (grows.later later), OpaqueStore.cursorAt,
      OpaqueStore.cursorAt, cursors, chain_lookup_other different notAsked]

section Page

variable {patches : List CiphertextEnvelope}

theorem page_unfit (unfit : ¬cursor.Fits patches) :
    ready.page vault patches cursor.start cursor.endAt cursor.pageSize (asked.map (·, cursor)) now
      draws = (ready, .error invalidOpaqueStorageRequest) := by
  rw [OpaqueStore.page, if_pos]
  rintro ⟨positive, bounded, ordered, inside⟩
  exact unfit ⟨⟨positive, bounded⟩, ordered, inside⟩

theorem page_eq (fits : cursor.Fits patches) (begins : ready.Begins now vault asked cursor)
    (drawn : (draws.take 8).find? (fun token => decide (token ∉ ready.cursors)) = some next) :
    ready.page vault patches cursor.start cursor.endAt cursor.pageSize (asked.map (·, cursor)) now
        draws =
      if cursor.stop < cursor.endAt then
        match cursor.nextCursor with
        | some known => (ready, .ok ⟨cursor.objects patches, some known⟩)
        | none => (ready.chained asked cursor next now, .ok ⟨cursor.objects patches, some next⟩)
      else (ready, .ok ⟨cursor.objects patches, none⟩) := by
  have chained : (asked.map (·, cursor)).bind (·.2.nextCursor) = cursor.nextCursor := by
    cases asked with
    | none => exact begins.2.2.2.1.symm
    | some token => rfl
  have successor : (⟨vault, cursor.stop, cursor.endAt, cursor.pageSize,
      now + cursorLifetimeSeconds, none⟩ : Cursor) = cursor.successor now := by
    rw [← begins.1]
    rfl
  rw [OpaqueStore.page,
    if_neg (not_not.mpr ⟨fits.sized.1, fits.sized.2, fits.ordered, fits.inside⟩)]
  dsimp only
  rw [← Cursor.stop, ← Cursor.objects, chained]
  split
  case isFalse => rfl
  case isTrue =>
    cases cursor.nextCursor with
    | some known => rfl
    | none =>
      dsimp only
      rw [OpaqueStore.newCursor, drawn, successor]
      cases asked with
      | none => rfl
      | some asked => rfl

theorem exists_drawn (drawing : draws ≠ []) (fresh : ∀ draw ∈ draws, draw ∉ ready.cursors) :
    ∃ next ∈ draws,
      (draws.take 8).find? (fun token => decide (token ∉ ready.cursors)) = some next := by
  cases draws with
  | nil => exact absurd rfl drawing
  | cons next rest =>
    have free := fresh next List.mem_cons_self
    refine ⟨next, List.mem_cons_self, ?_⟩
    exact List.find?_cons_of_pos (decide_eq_true free)

end Page

/-! ## What an account sees -/

structure SameStores (account : String) (names : Names)
    (first second : OpaqueStore Fingerprint) : Prop where
  vaults : SameVaults account first second
  cursors : SameCursors names first second
  owns : Owns account (names.map Prod.fst) first
  otherOwns : Owns account (names.map Prod.snd) second
  oneToOne : names.OneToOne

theorem sameStores_empty :
    SameStores account [] (.empty : OpaqueStore Fingerprint) (.empty : OpaqueStore Fingerprint) :=
  ⟨.refl, nofun, nofun, nofun, nofun⟩

theorem SameStores.become (same : SameStores account names first second)
    (seen : SameVaults account first third)
    (keeps : KeepsCursors (names.map Prod.fst) first third)
    (owns : Owns account (names.map Prod.fst) third) (grows : first.Grows third) :
    SameStores account names third second :=
  ⟨same.vaults.become seen grows, same.cursors.become keeps grows, owns, same.otherOwns,
    same.oneToOne⟩

theorem SameStores.trans (same : SameStores account names first second)
    (seen : SameVaults account second third)
    (keeps : KeepsCursors (names.map Prod.snd) second third)
    (owns : Owns account (names.map Prod.snd) third) (grows : second.Grows third) :
    SameStores account names first third :=
  ⟨same.vaults.trans seen grows, same.cursors.trans keeps grows, same.owns, owns, same.oneToOne⟩

theorem SameStores.prune {firstReady secondReady : OpaqueStore Fingerprint}
    (same : SameStores account names first second) (one : first.Prunes now firstReady)
    (two : second.Prunes now secondReady) : SameStores account names firstReady secondReady :=
  (same.become one.sameVaults one.keepsCursors (same.owns.prune one) one.grows).trans
    two.sameVaults two.keepsCursors (same.otherOwns.prune two) two.grows

/-- Answers that are the same but for the tokens in them -/
inductive SamePage (names : Names) :
    Except String CiphertextPage → Except String CiphertextPage → Prop
  | refused {reason : String} : SamePage names (.error reason) (.error reason)
  | answered {objects : List CiphertextEnvelope} {one two : Option String}
      (relate : names.Relate one two) : SamePage names (.ok ⟨objects, one⟩) (.ok ⟨objects, two⟩)

def Names.extend (names : Names) : Except String CiphertextPage → Except String CiphertextPage → Names
  | .ok ⟨_, some one⟩, .ok ⟨_, some two⟩ => (one, two) :: names
  | _, _ => names

section Lists

variable {otherAsked : Option String} {otherNext : String} {otherReady : OpaqueStore Fingerprint}
  {otherDraws : List String} {number : Option Nat}

theorem SameCursor.filter (same : SameCursor names cursor other) :
    Option.Rel (SameCursor names) ((some cursor).filter (now < ·.expiresAt))
      ((some other).filter (now < ·.expiresAt)) := by
  have expires : other.expiresAt = cursor.expiresAt := by rw [same.same]
  rw [Option.filter_some, Option.filter_some, expires]
  split
  · exact .some same
  · exact .none

theorem SameCursor.mono (same : SameCursor names cursor other) (included : names ⊆ more) :
    SameCursor more cursor other :=
  ⟨same.same, same.next.mono included⟩

theorem SameStores.chained (same : SameStores account names ready otherReady)
    (own : vault.1 = account) (begins : ready.Begins now vault asked cursor)
    (otherBegins : otherReady.Begins now vault otherAsked other)
    (relate : names.Relate asked otherAsked) (sameCursor : SameCursor names cursor other)
    (drawn : next ∉ ready.cursors) (otherDrawn : otherNext ∉ otherReady.cursors)
    (fresh : ∀ known ∈ names, known.1 ≠ next ∧ known.2 ≠ otherNext) :
    SameStores account ((next, otherNext) :: names) (ready.chained asked cursor next now)
      (otherReady.chained otherAsked other otherNext now) := by
  have included : names ⊆ (next, otherNext) :: names := List.subset_cons_self _ _
  refine ⟨⟨same.vaults.retained, same.vaults.contents, same.vaults.receipts, same.vaults.counts⟩, ?_,
    same.owns.chain_own begins own, same.otherOwns.chain_own otherBegins own,
    same.oneToOne.cons fresh⟩
  intro pair named time later otherLater
  rw [OpaqueStore.cursorAt, OpaqueStore.cursorAt, OpaqueStore.chained, OpaqueStore.chained]
  rcases List.mem_cons.mp named with rfl | known
  · rw [chain_lookup_next drawn begins.lookup, chain_lookup_next otherDrawn otherBegins.lookup]
    apply SameCursor.filter
    refine ⟨?_, .none⟩
    rw [Cursor.successor, Cursor.successor, Cursor.stop, Cursor.stop, sameCursor.same]
  · have apart := fresh pair known
    have both : asked = some pair.1 ↔ otherAsked = some pair.2 := by
      cases relate with
      | none => simp
      | some listed =>
        rw [Option.some.injEq, Option.some.injEq]
        exact same.oneToOne _ listed pair known
    by_cases this : asked = some pair.1
    · have that := both.mp this
      have found := @chain_lookup cursor now asked _ next _ cursor (begins.lookup _ this) drawn
        begins.lookup
      have otherFound := @chain_lookup other now otherAsked _ otherNext _ other
        (otherBegins.lookup _ that) otherDrawn otherBegins.lookup
      rw [found, otherFound, if_pos this, if_pos that]
      apply SameCursor.filter
      refine ⟨?_, .some List.mem_cons_self⟩
      rw [sameCursor.same]
    · have that : ¬otherAsked = some pair.2 := fun same => this (both.mpr same)
      rw [chain_lookup_other apart.1 this, chain_lookup_other apart.2 that]
      have live := same.cursors pair known time later otherLater
      rw [OpaqueStore.cursorAt, OpaqueStore.cursorAt] at live
      exact rel_imp live fun _ _ same => same.mono included

theorem SameStores.renamed (same : SameStores account names first second)
    (listed : ∀ pair, pair ∈ more ↔ pair ∈ names) : SameStores account more first second := by
  have included : names ⊆ more := fun pair known => (listed pair).mpr known
  have tokens (take : String × String → String) (token : String) :
      token ∈ more.map take ↔ token ∈ names.map take := by
    rw [List.mem_map, List.mem_map]
    exact exists_congr fun pair => and_congr_left fun _ => listed pair
  refine ⟨same.vaults, ?_, ?_, ?_, ?_⟩
  · intro pair named time later otherLater
    have live := same.cursors pair ((listed pair).mp named) time later otherLater
    exact rel_imp live fun _ _ same => same.mono included
  · intro token cursor found
    rw [tokens]
    exact same.owns token cursor found
  · intro token cursor found
    rw [tokens]
    exact same.otherOwns token cursor found
  · intro one named two otherNamed
    exact same.oneToOne one ((listed one).mp named) two ((listed two).mp otherNamed)

def SameList (account : String) (names : Names)
    (one two : OpaqueStore Fingerprint × Except String CiphertextPage) : Prop :=
  SamePage (names.extend one.2 two.2) one.2 two.2 ∧
    SameStores account (names.extend one.2 two.2) one.1 two.1

structure Fresh (draws tokens : List String) (store : OpaqueStore Fingerprint) : Prop where
  drawing : draws ≠ []
  free : ∀ draw ∈ draws, draw ∉ store.cursors
  unnamed : ∀ draw ∈ draws, draw ∉ tokens

theorem SameStores.page (same : SameStores account names ready otherReady)
    (own : vault.1 = account) (begins : ready.Begins now vault asked cursor)
    (otherBegins : otherReady.Begins now vault otherAsked other)
    (relate : names.Relate asked otherAsked) (sameCursor : SameCursor names cursor other)
    (fresh : Fresh draws (names.map Prod.fst) ready)
    (otherFresh : Fresh otherDraws (names.map Prod.snd) otherReady) :
    SameList account names
      (ready.page vault (ready.state vault).patchLog cursor.start cursor.endAt cursor.pageSize
        (asked.map (·, cursor)) now draws)
      (otherReady.page vault (otherReady.state vault).patchLog other.start other.endAt
        other.pageSize (otherAsked.map (·, other)) now otherDraws) := by
  have log : (otherReady.state vault).patchLog = (ready.state vault).patchLog :=
    (congrArg (·.patchLog) (same.vaults.contents vault own)).symm
  rw [log]
  generalize (ready.state vault).patchLog = patches
  have fits : other.Fits patches ↔ cursor.Fits patches := by
    rw [sameCursor.same]
    exact ⟨fun fits => ⟨fits.1, fits.2, fits.3⟩, fun fits => ⟨fits.1, fits.2, fits.3⟩⟩
  have stop : other.stop = cursor.stop := by
    rw [sameCursor.same]
    rfl
  have endAt : other.endAt = cursor.endAt := by rw [sameCursor.same]
  have objects : other.objects patches = cursor.objects patches := by
    rw [sameCursor.same]
    rfl
  by_cases inside : cursor.Fits patches
  · obtain ⟨next, listed, drawn⟩ := exists_drawn fresh.drawing fresh.free
    obtain ⟨otherNext, otherListed, otherDrawn⟩ := exists_drawn otherFresh.drawing otherFresh.free
    rw [page_eq inside begins drawn, page_eq (fits.mpr inside) otherBegins otherDrawn, stop, endAt,
      objects]
    split
    case isFalse => exact ⟨.answered .none, same⟩
    case isTrue =>
      have following := sameCursor.next
      cases known : cursor.nextCursor with
      | some one =>
        cases otherKnown : other.nextCursor with
        | none =>
          rw [known, otherKnown] at following
          cases following
        | some two =>
          rw [known, otherKnown] at following
          cases following with
          | some named =>
            refine ⟨.answered (.some List.mem_cons_self), same.renamed ?_⟩
            intro pair
            constructor
            · intro member
              rcases List.mem_cons.mp member with rfl | member
              · exact named
              · exact member
            · exact List.mem_cons_of_mem _
      | none =>
        cases otherKnown : other.nextCursor with
        | some two =>
          rw [known, otherKnown] at following
          cases following
        | none =>
          refine ⟨.answered (.some List.mem_cons_self), ?_⟩
          apply same.chained own begins otherBegins relate sameCursor (fresh.free next listed)
            (otherFresh.free otherNext otherListed)
          intro pair named
          constructor
          · rintro rfl
            exact fresh.unnamed _ listed (List.mem_map_of_mem named)
          · rintro rfl
            exact otherFresh.unnamed _ otherListed (List.mem_map_of_mem named)
  · rw [page_unfit inside, page_unfit fun otherInside => inside (fits.mp otherInside)]
    exact ⟨.refused, same⟩

theorem Fresh.prune (fresh : Fresh draws tokens before) (prunes : before.Prunes now after) :
    Fresh draws tokens after := by
  refine ⟨fresh.drawing, ?_, fresh.unnamed⟩
  intro draw listed member
  obtain ⟨cursor, found⟩ := Finmap.mem_iff.mp member
  exact fresh.free draw listed (Finmap.mem_of_lookup_eq_some (prunes.known draw cursor found))

theorem listPatches_refused (later : first.Later now)
    (unfit : ∀ cursor, first.cursors.lookup token = some cursor →
      now < cursor.expiresAt → cursor.vault = vault → number.any (· ≠ cursor.pageSize) = true) :
    ∃ ready, first.Prunes now ready ∧ first.listPatches vault (some token) number now draws =
      (ready, .error invalidOpaqueStorageRequest) := by
  have prunes := OpaqueStore.prunes_pruneCursors later
  rw [OpaqueStore.listPatches, OpaqueStore.clockNow_later later]
  dsimp only
  split
  case h_1 => exact ⟨_, prunes, rfl⟩
  case h_2 record found =>
  have known := prunes.known token record found
  split
  case isTrue expired =>
    refine ⟨_, prunes.erase ?_, rfl⟩
    intro cursor looked
    rw [found] at looked
    cases looked
    exact expired
  case isFalse live =>
  split
  case isTrue => exact ⟨_, prunes, rfl⟩
  case isFalse own =>
    rw [not_or, not_not] at own
    exact absurd (unfit record known (not_le.mp live) own.1) own.2

/-- The tokens that two lists ask for are named, or neither is. -/
inductive SameToken (names : Names) : Option String → Option String → Prop
  | named {one two : Option String} (relate : names.Relate one two) : SameToken names one two
  | unknown {one two : String} (unnamed : ∀ pair ∈ names, pair.1 ≠ one ∧ pair.2 ≠ two) :
      SameToken names (some one) (some two)

theorem Owns.foreign (owns : Owns account tokens first) (unnamed : token ∉ tokens)
    (own : vault.1 = account) (found : first.cursors.lookup token = some cursor) :
    cursor.vault ≠ vault := by
  rintro rfl
  exact unnamed ((owns token cursor found).mpr own)

theorem SameStores.refused {firstReady secondReady : OpaqueStore Fingerprint} {reason : String}
    (same : SameStores account names first second) (one : first.Prunes now firstReady)
    (two : second.Prunes now secondReady) :
    SameList account names (firstReady, .error reason) (secondReady, .error reason) :=
  ⟨.refused, same.prune one two⟩

def OpaqueStore.listed (now : ℚ) (store : OpaqueStore Fingerprint) : OpaqueStore Fingerprint :=
  ({ store with lastObservedClock := some now } : OpaqueStore Fingerprint).pruneCursors now

def Cursor.beginning (vault : VaultKey) (patches : List CiphertextEnvelope) (number : Option Nat)
    (now : ℚ) : Cursor :=
  ⟨vault, 0, patches.length, (number.filter (· ≠ 0)).getD defaultPageSize, now, none⟩

theorem SameStores.begin (same : SameStores account names first second) (own : vault.1 = account)
    (later : first.Later now) (otherLater : second.Later now)
    (fresh : Fresh draws (names.map Prod.fst) first)
    (otherFresh : Fresh otherDraws (names.map Prod.snd) second) :
    SameList account names (first.listPatches vault none number now draws)
      (second.listPatches vault none number now otherDraws) := by
  have prunes : first.Prunes now (first.listed now) := OpaqueStore.prunes_pruneCursors later
  have otherPrunes : second.Prunes now (second.listed now) :=
    OpaqueStore.prunes_pruneCursors otherLater
  have ready := same.prune prunes otherPrunes
  have log : ((first.listed now).state vault).patchLog =
      ((second.listed now).state vault).patchLog :=
    congrArg (·.patchLog) (ready.vaults.contents vault own)
  have begins : (first.listed now).Begins now vault none
      (.beginning vault ((first.listed now).state vault).patchLog number now) :=
    ⟨rfl, rfl, rfl, rfl, rfl⟩
  have otherBegins : (second.listed now).Begins now vault none
      (.beginning vault ((second.listed now).state vault).patchLog number now) :=
    ⟨rfl, rfl, rfl, rfl, rfl⟩
  rw [OpaqueStore.listPatches, OpaqueStore.listPatches, OpaqueStore.clockNow_later later,
    OpaqueStore.clockNow_later otherLater]
  apply ready.page own begins otherBegins .none _ (fresh.prune prunes)
    (otherFresh.prune otherPrunes)
  rw [log]
  exact ⟨rfl, .none⟩

theorem SameStores.follow {one two : String} (same : SameStores account names first second)
    (own : vault.1 = account) (later : first.Later now) (otherLater : second.Later now)
    (named : (one, two) ∈ names) (fresh : Fresh draws (names.map Prod.fst) first)
    (otherFresh : Fresh otherDraws (names.map Prod.snd) second) :
    SameList account names (first.listPatches vault (some one) number now draws)
      (second.listPatches vault (some two) number now otherDraws) := by
  have prunes : first.Prunes now (first.listed now) := OpaqueStore.prunes_pruneCursors later
  have otherPrunes : second.Prunes now (second.listed now) :=
    OpaqueStore.prunes_pruneCursors otherLater
  have ready := same.prune prunes otherPrunes
  by_cases fits : ∃ cursor, first.cursorAt now one = some cursor ∧ cursor.vault = vault ∧
      number.any (· ≠ cursor.pageSize) = false
  · obtain ⟨cursor, found, rfl, sized⟩ := fits
    have live := same.cursors (one, two) named now later otherLater
    dsimp only at live
    rw [found] at live
    cases otherFound : second.cursorAt now two with
    | none =>
      rw [otherFound] at live
      cases live
    | some other =>
      rw [otherFound] at live
      cases live with
      | some sameCursor =>
        have size : other.pageSize = cursor.pageSize := by rw [sameCursor.same]
        have vault : other.vault = cursor.vault := by rw [sameCursor.same]
        have sized : ∀ size ∈ number, size = cursor.pageSize := by
          intro size asked
          rw [asked, Option.any_some, decide_eq_false_iff_not, not_not] at sized
          exact sized
        obtain ⟨known, lives⟩ := cursorAt_eq_some.mp found
        obtain ⟨otherKnown, otherLives⟩ := cursorAt_eq_some.mp otherFound
        have begins : (first.listed now).Begins now cursor.vault (some one) cursor :=
          ⟨rfl, prunes.kept one cursor known lives, lives⟩
        have otherBegins : (second.listed now).Begins now cursor.vault (some two) other :=
          ⟨vault, otherPrunes.kept two other otherKnown otherLives, otherLives⟩
        have listed := ready.page own begins otherBegins (.some named) sameCursor
          (fresh.prune prunes) (otherFresh.prune otherPrunes)
        rw [listPatches_live later known lives sized, ← vault,
          listPatches_live otherLater otherKnown otherLives (size ▸ sized)]
        rw [← vault, prunes.state, otherPrunes.state] at listed
        exact listed
  · obtain ⟨firstReady, firstPrunes, refused⟩ :=
      @listPatches_refused _ first one vault now draws number later
        fun cursor found lives mine => by
          by_contra sized
          rw [Bool.not_eq_true] at sized
          exact fits ⟨cursor, cursorAt_eq_some.mpr ⟨found, lives⟩, mine, sized⟩
    obtain ⟨secondReady, secondPrunes, otherRefused⟩ :=
      @listPatches_refused _ second two vault now otherDraws number otherLater
        fun other found lives mine => by
          by_contra sized
          rw [Bool.not_eq_true] at sized
          have live := same.cursors (one, two) named now later otherLater
          dsimp only at live
          rw [cursorAt_eq_some.mpr ⟨found, lives⟩] at live
          cases otherFound : first.cursorAt now one with
          | none =>
            rw [otherFound] at live
            cases live
          | some cursor =>
            rw [otherFound] at live
            cases live with
            | some sameCursor =>
              rw [sameCursor.same] at mine sized
              exact fits ⟨cursor, otherFound, mine, sized⟩
    rw [refused, otherRefused]
    exact same.refused firstPrunes secondPrunes

theorem SameStores.list (same : SameStores account names first second) (own : vault.1 = account)
    (later : first.Later now) (otherLater : second.Later now)
    (sameToken : SameToken names asked otherAsked) (fresh : Fresh draws (names.map Prod.fst) first)
    (otherFresh : Fresh otherDraws (names.map Prod.snd) second) :
    SameList account names (first.listPatches vault asked number now draws)
      (second.listPatches vault otherAsked number now otherDraws) := by
  cases sameToken with
  | named relate =>
    cases relate with
    | none => exact same.begin own later otherLater fresh otherFresh
    | some named => exact same.follow own later otherLater named fresh otherFresh
  | unknown unnamed =>
    rename_i one two
    have unnamedOne : one ∉ names.map Prod.fst := by
      rw [List.mem_map]
      rintro ⟨pair, named, rfl⟩
      exact (unnamed pair named).1 rfl
    have unnamedTwo : two ∉ names.map Prod.snd := by
      rw [List.mem_map]
      rintro ⟨pair, named, rfl⟩
      exact (unnamed pair named).2 rfl
    obtain ⟨firstReady, firstPrunes, refused⟩ :=
      @listPatches_refused _ first one vault now draws number later fun cursor found _ mine =>
        absurd mine (same.owns.foreign unnamedOne own found)
    obtain ⟨secondReady, secondPrunes, otherRefused⟩ :=
      @listPatches_refused _ second two vault now otherDraws number otherLater
        fun cursor found _ mine => absurd mine (same.otherOwns.foreign unnamedTwo own found)
    rw [refused, otherRefused]
    exact same.refused firstPrunes secondPrunes

end Lists

def StoreCall.target : StoreCall → VaultKey
  | .putMetadata _ request => request.vault
  | .putObject _ _ request => request.vault
  | .appendPatch _ request => request.vault
  | .putSnapshot _ request => request.vault
  | .getMetadata vault => vault
  | .getObject vault _ => vault
  | .getSnapshot vault => vault
  | .listPatches vault _ _ _ _ => vault

def StoreCall.reading : StoreCall → Option ℚ
  | .listPatches _ _ _ now _ => some now
  | call => call.put.map (·.request.now)

def StoreCall.drawings : StoreCall → List String
  | .listPatches _ _ _ _ draws => draws
  | _ => []

/-- A step whose put, if any, is not refused for what all accounts have together -/
def OpaqueStore.RoomyStep [DecidableEq Fingerprint] (library : EnvelopeLibrary Fingerprint)
    (limits : RetainedLimits) (before : OpaqueStore Fingerprint) (event : StoreEvent)
    (after : OpaqueStore Fingerprint) : Prop :=
  before.Step library limits event after ∧ ∀ put, event.call.put = some put →
    event.answer = .error opaqueStorageCapacityExceeded →
    (capacityDelta library put.scope put.envelope put.request.vault before).fitsGlobally limits
      before = true

theorem target_of_put {call : StoreCall} {put : PutCall} (puts : call.put = some put) :
    call.target = put.request.vault := by
  cases call <;> cases puts <;> rfl

theorem reading_of_put {call : StoreCall} {put : PutCall} (puts : call.put = some put) :
    call.reading = some put.request.now := by
  cases call <;> cases puts <;> rfl

theorem Puts.clock {scope : Scope} {envelope : StorageEnvelope} {request : WriteRequest}
    {outcome : Except String Reply}
    (puts : Puts library limits scope envelope request before after outcome) :
    after.lastObservedClock = before.lastObservedClock ∨
      after.lastObservedClock = some request.now := by
  cases puts with
  | invalid => exact .inl rfl
  | conflict readies => exact .inr (congrArg (·.lastObservedClock) readies.rest)
  | mismatched readies => exact .inr (congrArg (·.lastObservedClock) readies.rest)
  | full readies => exact .inr (congrArg (·.lastObservedClock) readies.rest)
  | replayed readies => exact .inr (congrArg (·.lastObservedClock) readies.rest)
  | duplicate readies => exact .inr (congrArg (·.lastObservedClock) readies.rest)
  | written readies => exact .inr (congrArg (·.lastObservedClock) readies.rest)

theorem Lists.clock {outcome : Except String CiphertextPage}
    (lists : Lists vault asked now draws before after outcome) :
    after.lastObservedClock = before.lastObservedClock ∨ after.lastObservedClock = some now := by
  cases lists with
  | refused => exact .inl rfl
  | rejected prunes => exact .inr prunes.clock
  | finished prunes => exact .inr prunes.clock
  | followed prunes => exact .inr prunes.clock
  | extended prunes begins fits part unchained drawn rest =>
    rw [rest]
    exact .inr prunes.clock

theorem Lists.drew {outcome : Except String CiphertextPage}
    (lists : Lists vault asked now draws before after outcome) (member : token ∈ after.cursors) :
    token ∈ before.cursors ∨ token ∈ draws := by
  obtain ⟨cursor, found⟩ := Finmap.mem_iff.mp member
  have earlier {ready : OpaqueStore Fingerprint} (prunes : before.Prunes now ready)
      {cursor : Cursor} (found : ready.cursors.lookup token = some cursor) :
      token ∈ before.cursors :=
    Finmap.mem_of_lookup_eq_some (prunes.known token cursor found)
  cases lists with
  | refused => exact .inl member
  | rejected prunes => exact .inl (earlier prunes found)
  | finished prunes => exact .inl (earlier prunes found)
  | followed prunes => exact .inl (earlier prunes found)
  | extended prunes begins fits part unchained drawn rest listed =>
    rw [rest] at found
    rcases lookup_chain found with ⟨same, -⟩ | ⟨rfl, -⟩ | ⟨-, known⟩
    · exact .inl (earlier prunes (begins.lookup token same))
    · exact .inr listed
    · exact .inl (earlier prunes known)

theorem map_ne_page {Found : Type} {found : Except String Found} {wrap : Found → StoreAnswer}
    (other : ∀ value page, wrap value ≠ .page page) (page : CiphertextPage) :
    found.map wrap ≠ .ok (.page page) := by
  cases found with
  | error reason => exact nofun
  | ok value => exact fun same => other value page (Except.ok.inj same)

section Steps

variable [DecidableEq Fingerprint] {event : StoreEvent}

theorem calls_cases (step : before.Step library limits event after) :
    (∃ put outcome, event.call.put = some put ∧ event.call.isAddressed = true ∧
        event.answer = outcome.map .reply ∧
        Puts library limits put.scope put.envelope put.request before after outcome) ∨
      (∃ vault asked number now draws outcome,
        event = ⟨.listPatches vault asked number now draws, outcome.map .page⟩ ∧
        Lists vault asked now draws before after outcome) ∨
      after = before ∧ ∀ page, event.answer ≠ .ok (.page page) := by
  obtain ⟨call, answer⟩ := event
  cases called : call.put with
  | some put =>
    cases step_cases step with
    | puts other outcome otherCalled addressed valid puts =>
      exact .inl ⟨other, outcome, called.symm.trans otherCalled, addressed, rfl, puts⟩
    | misaddressed => exact .inr (.inr ⟨rfl, nofun⟩)
    | reads notPut => exact absurd (called.symm.trans notPut) nofun
  | none =>
    cases call with
    | putMetadata => cases called
    | putObject => cases called
    | appendPatch => cases called
    | putSnapshot => cases called
    | getMetadata vault =>
      obtain ⟨rfl, rfl⟩ := Prod.mk.inj step
      exact .inr (.inr ⟨rfl, map_ne_page fun _ _ wrong => by cases wrong⟩)
    | getObject vault objectId =>
      obtain ⟨rfl, rfl⟩ := Prod.mk.inj step
      exact .inr (.inr ⟨rfl, map_ne_page fun _ _ wrong => by cases wrong⟩)
    | getSnapshot vault =>
      obtain ⟨rfl, rfl⟩ := Prod.mk.inj step
      exact .inr (.inr ⟨rfl, map_ne_page fun _ _ wrong => by cases wrong⟩)
    | listPatches vault asked number now draws =>
      have lists := @lists_listPatches _ before vault now draws number asked
      obtain ⟨rfl, rfl⟩ := Prod.mk.inj step
      exact .inr (.inl ⟨vault, asked, number, now, draws, _, rfl, lists⟩)

theorem foreign_step (step : before.Step library limits event after)
    (foreign : event.call.target.1 ≠ account) (owns : Owns account tokens before)
    (fresh : ∀ draw ∈ event.call.drawings, draw ∉ tokens) :
    SameVaults account before after ∧ KeepsCursors tokens before after ∧
      Owns account tokens after := by
  rcases calls_cases step with ⟨put, outcome, called, -, -, puts⟩ |
    ⟨vault, asked, number, now, draws, outcome, rfl, lists⟩ | ⟨rfl, -⟩
  · rw [target_of_put called] at foreign
    exact ⟨puts.sameVaults foreign, keepsCursors_of_eq puts.cursors, owns.of_eq puts.cursors⟩
  · exact lists.foreign foreign owns fresh
  · exact ⟨.refl, keepsCursors_of_eq rfl, owns⟩

/-- Two calls that ask the same, but for tokens and for what is drawn -/
inductive SameCall (names : Names) : StoreCall → StoreCall → Prop
  | lists {vault : VaultKey} {asked otherAsked : Option String} {number : Option Nat} {now : ℚ}
      {draws otherDraws : List String} (sameToken : SameToken names asked otherAsked) :
      SameCall names (.listPatches vault asked number now draws)
        (.listPatches vault otherAsked number now otherDraws)
  | same {call : StoreCall}
      (notList : ∀ vault asked number now draws, call ≠ .listPatches vault asked number now draws) :
      SameCall names call call

inductive SameAnswer (names : Names) :
    Except String StoreAnswer → Except String StoreAnswer → Prop
  | page {one two : Except String CiphertextPage} (same : SamePage names one two) :
      SameAnswer names (one.map .page) (two.map .page)
  | same {answer : Except String StoreAnswer} (notPage : ∀ page, answer ≠ .ok (.page page)) :
      SameAnswer names answer answer

def Names.told (names : Names) : Except String StoreAnswer → Except String StoreAnswer → Names
  | .ok (.page one), .ok (.page two) => names.extend (.ok one) (.ok two)
  | _, _ => names

theorem told_page {one two : Except String CiphertextPage} :
    names.told (one.map .page) (two.map .page) = names.extend one two := by
  cases one with
  | error => rfl
  | ok page =>
    cases two with
    | error => obtain ⟨objects, _ | token⟩ := page <;> rfl
    | ok => rfl

theorem told_of_not_page {answer otherAnswer : Except String StoreAnswer}
    (notPage : ∀ page, answer ≠ .ok (.page page)) : names.told answer otherAnswer = names := by
  rw [Names.told]
  intro one two answered _
  exact notPage one answered

omit [DecidableEq Fingerprint] in
theorem SameVaults.getMetadata (same : SameVaults account first second)
    (own : vault.1 = account) : first.getMetadata vault = second.getMetadata vault := by
  have read (store : OpaqueStore Fingerprint) : (store.vaults.lookup vault).bind (·.metadata) =
      (store.state vault).content.metadata := by
    rw [OpaqueStore.state]
    cases store.vaults.lookup vault <;> rfl
  rw [OpaqueStore.getMetadata, OpaqueStore.getMetadata, read, read, same.contents vault own]

omit [DecidableEq Fingerprint] in
theorem SameVaults.getObject (same : SameVaults account first second) (own : vault.1 = account)
    (objectId : String) : first.getObject vault objectId = second.getObject vault objectId := by
  have read (store : OpaqueStore Fingerprint) :
      (store.vaults.lookup vault).bind (·.objects.lookup objectId) =
        (store.state vault).content.objects.lookup objectId := by
    rw [OpaqueStore.state]
    cases store.vaults.lookup vault <;> rfl
  rw [OpaqueStore.getObject, OpaqueStore.getObject, read, read, same.contents vault own]

omit [DecidableEq Fingerprint] in
theorem SameVaults.getSnapshot (same : SameVaults account first second)
    (own : vault.1 = account) : first.getSnapshot vault = second.getSnapshot vault := by
  have read (store : OpaqueStore Fingerprint) : (store.vaults.lookup vault).bind (·.snapshot) =
      (store.state vault).content.snapshot := by
    rw [OpaqueStore.state]
    cases store.vaults.lookup vault <;> rfl
  rw [OpaqueStore.getSnapshot, OpaqueStore.getSnapshot, read, read, same.contents vault own]

def SameSteps (account : String) (names : Names) (answer otherAnswer : Except String StoreAnswer)
    (after otherAfter : OpaqueStore Fingerprint) : Prop :=
  SameAnswer (names.told answer otherAnswer) answer otherAnswer ∧
    SameStores account (names.told answer otherAnswer) after otherAfter

variable {otherBefore otherAfter : OpaqueStore Fingerprint} {otherEvent : StoreEvent}

omit [DecidableEq Fingerprint] in
theorem SameStores.read {answer : Except String StoreAnswer}
    (same : SameStores account names before otherBefore)
    (notPage : ∀ page, answer ≠ .ok (.page page)) :
    SameSteps account names answer answer before otherBefore := by
  rw [SameSteps, told_of_not_page notPage]
  exact ⟨.same notPage, same⟩

theorem SameStores.put {call : StoreCall} {put : PutCall}
    (same : SameStores account names before otherBefore) (called : call.put = some put)
    (own : put.request.vault.1 = account) (later : before.Later put.request.now)
    (otherLater : otherBefore.Later put.request.now)
    (room : (before.perform library limits call).2 = .error opaqueStorageCapacityExceeded →
      (capacityDelta library put.scope put.envelope put.request.vault before).fitsGlobally limits
        before = true)
    (otherRoom : (otherBefore.perform library limits call).2 =
        .error opaqueStorageCapacityExceeded →
      (capacityDelta library put.scope put.envelope put.request.vault otherBefore).fitsGlobally
        limits otherBefore = true) :
    SameSteps account names (before.perform library limits call).2
      (otherBefore.perform library limits call).2 (before.perform library limits call).1
      (otherBefore.perform library limits call).1 := by
  rw [perform_put called] at room ⊢
  rw [perform_put called] at otherRoom ⊢
  by_cases addressed : call.isAddressed = true
  · rw [if_pos addressed] at room ⊢
    rw [if_pos addressed] at otherRoom ⊢
    have first : Roomy library limits put.scope put.envelope put.request.vault before
        (before.put library limits put.scope put.envelope put.request).2 := by
      intro full
      apply room
      rw [Prod.map_snd, full]
      rfl
    have second : Roomy library limits put.scope put.envelope put.request.vault otherBefore
        (otherBefore.put library limits put.scope put.envelope put.request).2 := by
      intro full
      apply otherRoom
      rw [Prod.map_snd, full]
      rfl
    obtain ⟨answered, seen⟩ := same.vaults.put own later otherLater first second
    have puts : Puts library limits put.scope put.envelope put.request before
        (before.put library limits put.scope put.envelope put.request).1 _ := puts_put
    have otherPuts : Puts library limits put.scope put.envelope put.request otherBefore
        (otherBefore.put library limits put.scope put.envelope put.request).1 _ := puts_put
    have notPage := @map_ne_page _ (otherBefore.put library limits put.scope put.envelope
      put.request).2 StoreAnswer.reply fun _ _ wrong => by cases wrong
    rw [SameSteps, Prod.map_snd, Prod.map_snd, answered, told_of_not_page notPage]
    refine ⟨.same notPage, seen, ?_, same.owns.of_eq puts.cursors,
      same.otherOwns.of_eq otherPuts.cursors, same.oneToOne⟩
    exact (same.cursors.become (keepsCursors_of_eq puts.cursors) puts.grows).trans
      (keepsCursors_of_eq otherPuts.cursors) otherPuts.grows
  · rw [if_neg addressed, if_neg addressed]
    exact same.read nofun

theorem SameStores.step (same : SameStores account names before otherBefore)
    (step : before.RoomyStep library limits event after)
    (otherStep : otherBefore.RoomyStep library limits otherEvent otherAfter)
    (own : event.call.target.1 = account) (sameCall : SameCall names event.call otherEvent.call)
    (later : ∀ now ∈ event.call.reading, before.Later now)
    (otherLater : ∀ now ∈ otherEvent.call.reading, otherBefore.Later now)
    (fresh : ∀ vault asked number now draws, event.call = .listPatches vault asked number now draws →
      Fresh draws (names.map Prod.fst) before)
    (otherFresh : ∀ vault asked number now draws,
      otherEvent.call = .listPatches vault asked number now draws →
      Fresh draws (names.map Prod.snd) otherBefore) :
    SameSteps account names event.answer otherEvent.answer after otherAfter := by
  obtain ⟨call, answer⟩ := event
  obtain ⟨otherCall, otherAnswer⟩ := otherEvent
  obtain ⟨performed, room⟩ := step
  obtain ⟨otherPerformed, otherRoom⟩ := otherStep
  rw [OpaqueStore.Step] at performed otherPerformed
  dsimp only at *
  obtain rfl : (before.perform library limits call).1 = after := congrArg Prod.fst performed
  obtain rfl : (before.perform library limits call).2 = answer := congrArg Prod.snd performed
  obtain rfl : (otherBefore.perform library limits otherCall).1 = otherAfter :=
    congrArg Prod.fst otherPerformed
  obtain rfl : (otherBefore.perform library limits otherCall).2 = otherAnswer :=
    congrArg Prod.snd otherPerformed
  cases sameCall with
  | lists sameToken =>
    obtain ⟨answered, seen⟩ := same.list own (later _ rfl) (otherLater _ rfl) sameToken
      (fresh _ _ _ _ _ rfl) (otherFresh _ _ _ _ _ rfl)
    rw [SameSteps, OpaqueStore.perform, OpaqueStore.perform, Prod.map_snd, Prod.map_snd, told_page]
    exact ⟨.page answered, seen⟩
  | same notList =>
    cases called : call.put with
    | some put =>
      rw [target_of_put called] at own
      rw [reading_of_put called] at later otherLater
      exact same.put called own (later _ rfl) (otherLater _ rfl) (room put called)
        (otherRoom put called)
    | none =>
      cases call with
      | putMetadata => cases called
      | putObject => cases called
      | appendPatch => cases called
      | putSnapshot => cases called
      | getMetadata vault =>
        have found : before.getMetadata vault = otherBefore.getMetadata vault :=
          same.vaults.getMetadata own
        rw [OpaqueStore.perform, OpaqueStore.perform, found]
        exact same.read (map_ne_page fun _ _ wrong => by cases wrong)
      | getObject vault objectId =>
        have found : before.getObject vault objectId = otherBefore.getObject vault objectId :=
          same.vaults.getObject own objectId
        rw [OpaqueStore.perform, OpaqueStore.perform, found]
        exact same.read (map_ne_page fun _ _ wrong => by cases wrong)
      | getSnapshot vault =>
        have found : before.getSnapshot vault = otherBefore.getSnapshot vault :=
          same.vaults.getSnapshot own
        rw [OpaqueStore.perform, OpaqueStore.perform, found]
        exact same.read (map_ne_page fun _ _ wrong => by cases wrong)
      | listPatches vault asked number now draws => exact absurd rfl (notList _ _ _ _ _)

end Steps

def clockReadings (events : List StoreEvent) : List ℚ := events.filterMap (·.call.reading)

def tokensDrawn (events : List StoreEvent) : List String := events.flatMap (·.call.drawings)

/-- What a run has from elsewhere: a clock that does not go back, and bytes that are drawn
without end and never twice. -/
structure Ordinary (events : List StoreEvent) : Prop where
  clock : (clockReadings events).Pairwise (· ≤ ·)
  drawing : ∀ event ∈ events, ∀ vault asked number now draws,
    event.call = .listPatches vault asked number now draws → draws ≠ []
  fresh : (tokensDrawn events).Nodup

/-- Two runs that are asked the same for the account, with the names that their answers give.
A token that is asked for is one that such an answer gave, or one that none gave. -/
inductive SameRequests (account : String) : List StoreEvent → List StoreEvent → Names → Prop
  | nil : SameRequests account [] [] []
  | foreign {events others : List StoreEvent} {names : Names} {event : StoreEvent}
      (requests : SameRequests account events others names)
      (foreign : event.call.target.1 ≠ account) :
      SameRequests account (events ++ [event]) others names
  | otherForeign {events others : List StoreEvent} {names : Names} {event : StoreEvent}
      (requests : SameRequests account events others names)
      (foreign : event.call.target.1 ≠ account) :
      SameRequests account events (others ++ [event]) names
  | both {events others : List StoreEvent} {names : Names} {event other : StoreEvent}
      (requests : SameRequests account events others names)
      (own : event.call.target.1 = account) (same : SameCall names event.call other.call) :
      SameRequests account (events ++ [event]) (others ++ [other])
        (names.told event.answer other.answer)

def answersTo (account : String) (events : List StoreEvent) : List (Except String StoreAnswer) :=
  (events.filter fun event => decide (event.call.target.1 = account)).map (·.answer)

section Runs

variable [DecidableEq Fingerprint] {event other : StoreEvent} {past events others : List StoreEvent}

theorem clockReadings_concat : clockReadings (past ++ [event]) =
    clockReadings past ++ event.call.reading.toList := by
  rw [clockReadings, List.filterMap_append, ← clockReadings, List.filterMap_cons]
  cases event.call.reading with
  | none => rfl
  | some now => rfl

theorem tokensDrawn_concat : tokensDrawn (past ++ [event]) =
    tokensDrawn past ++ event.call.drawings := by
  rw [tokensDrawn, List.flatMap_append, List.flatMap_singleton]
  rfl

theorem answersTo_concat : answersTo account (past ++ [event]) = answersTo account past ++
    if event.call.target.1 = account then [event.answer] else [] := by
  rw [answersTo, List.filter_append, List.map_append, ← answersTo, List.filter_singleton]
  by_cases own : event.call.target.1 = account
  · rw [if_pos own, decide_eq_true own]
    rfl
  · rw [if_neg own, decide_eq_false own]
    rfl

theorem Ordinary.of_concat (ordinary : Ordinary (past ++ [event])) : Ordinary past := by
  refine ⟨?_, fun event listed => ordinary.drawing event (List.mem_append_left _ listed), ?_⟩
  · have clock := ordinary.clock
    rw [clockReadings_concat] at clock
    exact (List.pairwise_append.mp clock).1
  · have fresh := ordinary.fresh
    rw [tokensDrawn_concat] at fresh
    exact fresh.of_append_left

structure Known (past : List StoreEvent) (store : OpaqueStore Fingerprint) : Prop where
  tokens : ∀ token ∈ store.cursors, token ∈ tokensDrawn past
  clock : ∀ last ∈ store.lastObservedClock, last ∈ clockReadings past

omit [DecidableEq Fingerprint] in
theorem Known.become (known : Known past before)
    (tokens : ∀ token ∈ after.cursors, token ∈ before.cursors ∨ token ∈ event.call.drawings)
    (clock : after.lastObservedClock = before.lastObservedClock ∨
      after.lastObservedClock = event.call.reading) : Known (past ++ [event]) after := by
  constructor
  · intro token member
    rw [tokensDrawn_concat, List.mem_append]
    exact (tokens token member).imp_left (known.tokens token)
  · intro last observed
    rw [clockReadings_concat, List.mem_append, Option.mem_toList]
    rcases clock with same | read
    · rw [same] at observed
      exact .inl (known.clock last observed)
    · rw [read] at observed
      exact .inr observed

theorem Known.step (known : Known past before) (step : before.Step library limits event after) :
    Known (past ++ [event]) after := by
  rcases calls_cases step with ⟨put, outcome, called, -, -, puts⟩ |
    ⟨vault, asked, number, now, draws, outcome, rfl, lists⟩ | ⟨rfl, -⟩
  · apply known.become
    · rw [puts.cursors]
      exact fun _ member => .inl member
    · rw [reading_of_put called]
      exact puts.clock
  · exact known.become (fun _ member => lists.drew member) lists.clock
  · exact known.become (fun _ member => .inl member) (.inl rfl)

theorem known_of_run (run : Run (OpaqueStore.RoomyStep library limits) .empty past store) :
    Known past store := by
  apply run.invariant_history Known
  · intro past state event next step known
    exact known.step step.1
  · exact ⟨nofun, nofun⟩

omit [DecidableEq Fingerprint] in
theorem Known.later (known : Known past before) (ordinary : Ordinary (past ++ [event]))
    (now : ℚ) (read : now ∈ event.call.reading) : before.Later now := by
  intro last observed
  have clock := ordinary.clock
  rw [clockReadings_concat] at clock
  exact (List.pairwise_append.mp clock).2.2 last (known.clock last observed) now
    (Option.mem_toList.mpr read)

omit [DecidableEq Fingerprint] in
theorem Ordinary.apart (ordinary : Ordinary (past ++ [event])) (draw : String)
    (drawn : draw ∈ event.call.drawings) : draw ∉ tokensDrawn past := by
  have fresh := ordinary.fresh
  rw [tokensDrawn_concat] at fresh
  exact fun earlier => List.disjoint_of_nodup_append fresh earlier drawn

omit [DecidableEq Fingerprint] in
theorem Known.fresh (known : Known past before) (ordinary : Ordinary (past ++ [event]))
    (named : ∀ token ∈ tokens, token ∈ tokensDrawn past)
    (listed : event.call = .listPatches vault asked number now draws) :
    Fresh draws tokens before := by
  have drawings : event.call.drawings = draws := by rw [listed]; rfl
  refine ⟨?_, ?_, ?_⟩
  · exact ordinary.drawing event (List.mem_append_right _ List.mem_cons_self) _ _ _ _ _ listed
  · intro draw drawn member
    exact ordinary.apart draw (drawings ▸ drawn) (known.tokens draw member)
  · intro draw drawn member
    exact ordinary.apart draw (drawings ▸ drawn) (named draw member)

theorem drawn_of_given {page : CiphertextPage}
    (run : Run (OpaqueStore.RoomyStep library limits) .empty past before)
    (step : before.RoomyStep library limits event after) (answered : event.answer = .ok (.page page))
    (given : page.nextCursor = some next) : next ∈ tokensDrawn (past ++ [event]) := by
  have sound : CursorsSound past before :=
    run.invariant_history CursorsSound (fun _ _ _ _ step sound => sound.step step.1)
      cursorsSound_empty
  have known := (known_of_run run).step step.1
  rcases calls_cases step.1 with ⟨put, outcome, -, -, replied, -⟩ |
    ⟨vault, asked, number, now, draws, outcome, rfl, lists⟩ | ⟨-, notPage⟩
  · rw [replied] at answered
    exact absurd answered (map_ne_page (fun _ _ wrong => by cases wrong) page)
  · cases outcome with
    | error => cases answered
    | ok listed =>
      cases answered
      obtain ⟨_, _, _, _, _, _, ⟨last, -⟩ | ⟨follower, successor, more, _, found, -⟩⟩ :=
        lists.answered sound
      · rw [last] at given
        cases given
      · rw [more] at given
        cases given
        exact known.tokens next (Finmap.mem_of_lookup_eq_some found)
  · exact absurd answered (notPage page)

omit [DecidableEq Fingerprint] in
theorem mem_told {answer otherAnswer : Except String StoreAnswer}
    (named : pair ∈ names.told answer otherAnswer) : pair ∈ names ∨
      ∃ page otherPage, answer = .ok (.page page) ∧ page.nextCursor = some pair.1 ∧
        otherAnswer = .ok (.page otherPage) ∧ otherPage.nextCursor = some pair.2 := by
  rw [Names.told.eq_def] at named
  split at named
  case h_2 => exact .inl named
  case h_1 page otherPage =>
    obtain ⟨objects, _ | token⟩ := page
    · exact .inl named
    · obtain ⟨otherObjects, _ | otherToken⟩ := otherPage
      · exact .inl named
      · rcases List.mem_cons.mp named with rfl | known
        · exact .inr ⟨_, _, rfl, rfl, rfl, rfl⟩
        · exact .inl known

omit [DecidableEq Fingerprint] in
theorem subset_told {answer otherAnswer : Except String StoreAnswer} :
    names ⊆ names.told answer otherAnswer := by
  rw [Names.told.eq_def]
  split
  case h_2 => exact List.Subset.refl _
  case h_1 page otherPage =>
    obtain ⟨objects, _ | token⟩ := page
    · exact List.Subset.refl _
    · obtain ⟨otherObjects, _ | otherToken⟩ := otherPage
      · exact List.Subset.refl _
      · exact List.subset_cons_self _ _

omit [DecidableEq Fingerprint] in
theorem SameAnswer.mono {answer otherAnswer : Except String StoreAnswer}
    (same : SameAnswer names answer otherAnswer) (included : names ⊆ more) :
    SameAnswer more answer otherAnswer := by
  cases same with
  | page same =>
    cases same with
    | refused => exact .page .refused
    | answered relate => exact .page (.answered (relate.mono included))
  | same notPage => exact .same notPage

structure Isolated (account : String) (names : Names) (events others : List StoreEvent)
    (first second : OpaqueStore Fingerprint) : Prop where
  stores : SameStores account names first second
  drawn : ∀ pair ∈ names, pair.1 ∈ tokensDrawn events ∧ pair.2 ∈ tokensDrawn others
  answers : List.Forall₂ (SameAnswer names) (answersTo account events) (answersTo account others)

theorem Isolated.foreign (isolated : Isolated account names past others before second)
    (step : before.RoomyStep library limits event after) (ordinary : Ordinary (past ++ [event]))
    (foreign : event.call.target.1 ≠ account) :
    Isolated account names (past ++ [event]) others after second := by
  have apart : ∀ draw ∈ event.call.drawings, draw ∉ names.map Prod.fst := by
    intro draw drawn named
    obtain ⟨pair, listed, rfl⟩ := List.mem_map.mp named
    exact ordinary.apart pair.1 drawn (isolated.drawn pair listed).1
  obtain ⟨seen, keeps, owns⟩ := foreign_step step.1 foreign isolated.stores.owns apart
  refine ⟨isolated.stores.become seen keeps owns (pages_cases step.1).1, ?_, ?_⟩
  · intro pair named
    rw [tokensDrawn_concat]
    exact ⟨List.mem_append_left _ (isolated.drawn pair named).1, (isolated.drawn pair named).2⟩
  · rw [answersTo_concat, if_neg foreign, List.append_nil]
    exact isolated.answers

theorem Isolated.otherForeign (isolated : Isolated account names events past first before)
    (step : before.RoomyStep library limits event after) (ordinary : Ordinary (past ++ [event]))
    (foreign : event.call.target.1 ≠ account) :
    Isolated account names events (past ++ [event]) first after := by
  have apart : ∀ draw ∈ event.call.drawings, draw ∉ names.map Prod.snd := by
    intro draw drawn named
    obtain ⟨pair, listed, rfl⟩ := List.mem_map.mp named
    exact ordinary.apart pair.2 drawn (isolated.drawn pair listed).2
  obtain ⟨seen, keeps, owns⟩ := foreign_step step.1 foreign isolated.stores.otherOwns apart
  refine ⟨isolated.stores.trans seen keeps owns (pages_cases step.1).1, ?_, ?_⟩
  · intro pair named
    rw [tokensDrawn_concat]
    exact ⟨(isolated.drawn pair named).1, List.mem_append_left _ (isolated.drawn pair named).2⟩
  · rw [answersTo_concat, if_neg foreign, List.append_nil]
    exact isolated.answers

theorem target_of_same {call otherCall : StoreCall} (same : SameCall names call otherCall) :
    otherCall.target = call.target := by
  cases same <;> rfl

theorem Isolated.both {otherBefore otherAfter : OpaqueStore Fingerprint}
    (isolated : Isolated account names events others before otherBefore)
    (run : Run (OpaqueStore.RoomyStep library limits) .empty events before)
    (otherRun : Run (OpaqueStore.RoomyStep library limits) .empty others otherBefore)
    (step : before.RoomyStep library limits event after)
    (otherStep : otherBefore.RoomyStep library limits other otherAfter)
    (ordinary : Ordinary (events ++ [event])) (otherOrdinary : Ordinary (others ++ [other]))
    (own : event.call.target.1 = account) (same : SameCall names event.call other.call) :
    Isolated account (names.told event.answer other.answer) (events ++ [event]) (others ++ [other])
      after otherAfter := by
  have known := known_of_run run
  have otherKnown := known_of_run otherRun
  have named : ∀ token ∈ names.map Prod.fst, token ∈ tokensDrawn events := by
    intro token listed
    obtain ⟨pair, known, rfl⟩ := List.mem_map.mp listed
    exact (isolated.drawn pair known).1
  have otherNamed : ∀ token ∈ names.map Prod.snd, token ∈ tokensDrawn others := by
    intro token listed
    obtain ⟨pair, known, rfl⟩ := List.mem_map.mp listed
    exact (isolated.drawn pair known).2
  have otherOwn : other.call.target.1 = account := by rw [target_of_same same, own]
  obtain ⟨answered, stores⟩ := isolated.stores.step step otherStep own same (known.later ordinary)
    (otherKnown.later otherOrdinary) (fun _ _ _ _ _ => known.fresh ordinary named)
    fun _ _ _ _ _ => otherKnown.fresh otherOrdinary otherNamed
  refine ⟨stores, ?_, ?_⟩
  · intro pair listed
    rcases mem_told listed with earlier | ⟨page, otherPage, one, given, two, otherGiven⟩
    · rw [tokensDrawn_concat, tokensDrawn_concat]
      have drawn := isolated.drawn pair earlier
      exact ⟨List.mem_append_left _ drawn.1, List.mem_append_left _ drawn.2⟩
    · exact ⟨drawn_of_given run step one given, drawn_of_given otherRun otherStep two otherGiven⟩
  · rw [answersTo_concat, answersTo_concat, if_pos own, if_pos otherOwn]
    have earlier := isolated.answers.imp fun _ _ same => same.mono
      (@subset_told names event.answer other.answer)
    exact List.rel_append earlier (.cons answered .nil)

theorem isolated_of_requests (requests : SameRequests account events others names) :
    ∀ {store otherStore : OpaqueStore Fingerprint},
      Run (OpaqueStore.RoomyStep library limits) .empty events store →
      Run (OpaqueStore.RoomyStep library limits) .empty others otherStore →
      Ordinary events → Ordinary others → Isolated account names events others store otherStore := by
  induction requests with
  | nil =>
    intro store otherStore run otherRun _ _
    cases run
    cases otherRun
    exact ⟨sameStores_empty, nofun, .nil⟩
  | foreign _ foreign induction =>
    intro store otherStore run otherRun ordinary otherOrdinary
    obtain ⟨before, first, step⟩ := run.of_concat
    exact (induction first otherRun ordinary.of_concat otherOrdinary).foreign step ordinary foreign
  | otherForeign _ foreign induction =>
    intro store otherStore run otherRun ordinary otherOrdinary
    obtain ⟨before, first, step⟩ := otherRun.of_concat
    exact (induction run first ordinary otherOrdinary.of_concat).otherForeign step otherOrdinary
      foreign
  | both _ own same induction =>
    intro store otherStore run otherRun ordinary otherOrdinary
    obtain ⟨before, first, step⟩ := run.of_concat
    obtain ⟨otherBefore, otherFirst, otherStep⟩ := otherRun.of_concat
    exact (induction first otherFirst ordinary.of_concat otherOrdinary.of_concat).both first
      otherFirst step otherStep ordinary otherOrdinary own same

/-- Two runs that are asked the same for an account, and neither of which refuses a put for
what all accounts have together, answer it the same but for tokens of cursors: the names relate
each token of the one run to one of the other. -/
theorem account_isolated {otherStore : OpaqueStore Fingerprint}
    (requests : SameRequests account events others names)
    (run : Run (OpaqueStore.RoomyStep library limits) .empty events store)
    (otherRun : Run (OpaqueStore.RoomyStep library limits) .empty others otherStore)
    (ordinary : Ordinary events) (otherOrdinary : Ordinary others) :
    List.Forall₂ (SameAnswer names) (answersTo account events) (answersTo account others) ∧
      names.OneToOne := by
  have isolated := isolated_of_requests requests run otherRun ordinary otherOrdinary
  exact ⟨isolated.answers, isolated.stores.oneToOne⟩

def foreignCall : StoreCall := .appendPatch firstPatch ⟨("other", "vault"), "*", "key", 0⟩

def foreignPatched : OpaqueStore String × Except String StoreAnswer :=
  OpaqueStore.empty.perform patchLibrary defaultLimits foreignCall

def patchedAfter : OpaqueStore String × Except String StoreAnswer :=
  foreignPatched.1.perform patchLibrary defaultLimits patchCall

def listCall (draw : String) : StoreCall :=
  .listPatches ("account", "vault") none none 1 [draw]

def listedAlone : OpaqueStore String × Except String StoreAnswer :=
  patched.1.perform patchLibrary defaultLimits (listCall "avcur1-00000000000000000000000000000001")

def listedAfter : OpaqueStore String × Except String StoreAnswer :=
  patchedAfter.1.perform patchLibrary defaultLimits
    (listCall "avcur1-00000000000000000000000000000002")

theorem account_isolated_listed :
    listedAlone.2.toOption = some (.page ⟨[firstPatch], none⟩) ∧
      ∃ names : Names, List.Forall₂ (SameAnswer names) [patched.2, listedAlone.2]
        [patchedAfter.2, listedAfter.2] ∧ names.OneToOne := by
  have evaluated : listedAlone.2.toOption = some (.page ⟨[firstPatch], none⟩) ∧
      patched.2.toOption.isSome = true ∧ foreignPatched.2.toOption.isSome = true ∧
      patchedAfter.2.toOption.isSome = true := by
    decide +kernel
  obtain ⟨listed, first, foreign, second⟩ := evaluated
  refine ⟨listed, ?_⟩
  have roomy {before after : OpaqueStore String} {event : StoreEvent}
      (step : before.Step patchLibrary defaultLimits event after)
      (answered : event.answer.toOption.isSome = true) :
      before.RoomyStep patchLibrary defaultLimits event after := by
    refine ⟨step, fun put _ full => ?_⟩
    rw [full] at answered
    cases answered
  have lists {before after : OpaqueStore String} {draw : String}
      {answer : Except String StoreAnswer}
      (step : before.Step patchLibrary defaultLimits ⟨listCall draw, answer⟩ after) :
      before.RoomyStep patchLibrary defaultLimits ⟨listCall draw, answer⟩ after :=
    ⟨step, nofun⟩
  have patches : OpaqueStore.empty.RoomyStep patchLibrary defaultLimits ⟨patchCall, patched.2⟩
      patched.1 := roomy rfl first
  have listing : patched.1.RoomyStep patchLibrary defaultLimits
      ⟨listCall "avcur1-00000000000000000000000000000001", listedAlone.2⟩ listedAlone.1 := lists rfl
  have others : OpaqueStore.empty.RoomyStep patchLibrary defaultLimits
      ⟨foreignCall, foreignPatched.2⟩ foreignPatched.1 := roomy rfl foreign
  have patchesAfter : foreignPatched.1.RoomyStep patchLibrary defaultLimits
      ⟨patchCall, patchedAfter.2⟩ patchedAfter.1 := roomy rfl second
  have listingAfter : patchedAfter.1.RoomyStep patchLibrary defaultLimits
      ⟨listCall "avcur1-00000000000000000000000000000002", listedAfter.2⟩ listedAfter.1 := lists rfl
  have puts {call : StoreCall} (put : call.put.isSome = true) (vault asked number now draws)
      (same : call = .listPatches vault asked number now draws) : draws ≠ [] := by
    rw [same] at put
    cases put
  have drawing {draw : String} (vault asked number now draws)
      (same : listCall draw = .listPatches vault asked number now draws) : draws ≠ [] := by
    cases same
    exact nofun
  have ordinary : Ordinary [⟨patchCall, patched.2⟩,
      ⟨listCall "avcur1-00000000000000000000000000000001", listedAlone.2⟩] := by
    refine ⟨?_, ?_, List.nodup_singleton _⟩
    · exact List.pairwise_pair.mpr (zero_le_one' ℚ)
    · exact List.forall_mem_cons.mpr ⟨puts rfl, List.forall_mem_singleton.mpr drawing⟩
  have ordinaryAfter : Ordinary [⟨foreignCall, foreignPatched.2⟩, ⟨patchCall, patchedAfter.2⟩,
      ⟨listCall "avcur1-00000000000000000000000000000002", listedAfter.2⟩] := by
    refine ⟨?_, ?_, List.nodup_singleton _⟩
    · refine List.pairwise_cons.mpr ⟨?_, List.pairwise_pair.mpr (zero_le_one' ℚ)⟩
      exact List.forall_mem_cons.mpr
        ⟨le_refl (0 : ℚ), List.forall_mem_singleton.mpr (zero_le_one' ℚ)⟩
    · exact List.forall_mem_cons.mpr ⟨puts rfl,
        List.forall_mem_cons.mpr ⟨puts rfl, List.forall_mem_singleton.mpr drawing⟩⟩
  have asked : SameRequests "account"
      ([] ++ [⟨patchCall, patched.2⟩] ++
        [⟨listCall "avcur1-00000000000000000000000000000001", listedAlone.2⟩])
      ([] ++ [⟨foreignCall, foreignPatched.2⟩] ++ [⟨patchCall, patchedAfter.2⟩] ++
        [⟨listCall "avcur1-00000000000000000000000000000002", listedAfter.2⟩]) _ :=
    .both (.both (.otherForeign .nil (by decide)) rfl (.same fun _ _ _ _ _ same => by cases same))
      rfl (.lists (.named .none))
  exact ⟨_, account_isolated asked (.cons patches (.single listing))
    (.cons others (.cons patchesAfter (.single listingAfter))) ordinary ordinaryAfter⟩

end Runs

end JobAgg.VaultApi
