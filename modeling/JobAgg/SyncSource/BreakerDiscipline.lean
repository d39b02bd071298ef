import JobAgg.Foundation.Run
import JobAgg.SyncSource.DetailBreaker

/-! # The discipline of the detail breakers

What a run finds in the two rows decides what it may send; what it sends decides
what it leaves in them. A run is clear when the row it probes is the only one that
holds requests back, and when a blocked run completes nothing from its listing.
-/

namespace JobAgg.SyncSource.DetailBreaker

/-- The three ways a run starts. -/
inductive Prepares (rows : Rows) (now : ℚ) : Rows → Prepared → Prop
  | closed (isClosed : ∀ breakerType, (rows breakerType).state = .closed) :
      Prepares rows now rows ⟨.closed, none, .detail⟩
  | blocked (breakerType : BreakerType) (blocks : (rows breakerType).blocks now = true)
      (first : breakerType = .transientDetail → (rows .detail).state = .closed) :
      Prepares rows now rows ⟨.opened, some 0, breakerType⟩
  | probing (breakerType : BreakerType) (limit : ℕ) (next : Rows)
      (unblocked : (rows breakerType).blocks now = false)
      (found : (rows breakerType).state ≠ .closed)
      (limited : limit ≤ 3 ∧ ((rows breakerType).state = .opened → limit = 1))
      (first : breakerType = .transientDetail → (rows .detail).state = .closed)
      (isHalfOpen : (next breakerType).state = .halfOpen)
      (count : (next breakerType).successCount = (rows breakerType).successCount)
      (others : ∀ other, other ≠ breakerType → next other = rows other) :
      Prepares rows now next ⟨.halfOpen, some limit, breakerType⟩

theorem prepares_state {rows : Rows} {now : ℚ} {breakerType : BreakerType}
    (found : (rows breakerType).state ≠ .closed)
    (first : breakerType = .transientDetail → (rows .detail).state = .closed) :
    Prepares rows now (prepareDetailBreakerState rows breakerType now).1
      (prepareDetailBreakerState rows breakerType now).2 := by
  simp only [prepareDetailBreakerState]
  cases state : (rows breakerType).state with
  | closed => exact absurd state found
  | opened =>
    cases blocks : (rows breakerType).blocks now with
    | true =>
      rw [if_pos rfl]
      exact .blocked breakerType blocks first
    | false =>
      rw [if_neg (by simp)]
      dsimp only
      refine .probing breakerType 1 _ blocks found ⟨by omega, fun _ => rfl⟩ first ?_ ?_ ?_
      · rw [Function.update_self]
        rfl
      · rw [Function.update_self]
        rfl
      · intro other different
        exact Function.update_of_ne different _ _
  | halfOpen =>
    have unblocked : (rows breakerType).blocks now = false := by simp [Row.blocks, state]
    have notOpened : (rows breakerType).state = .opened → 3 = 1 := by
      intro isOpened
      rw [state] at isOpened
      cases isOpened
    exact .probing breakerType 3 rows unblocked found ⟨le_refl 3, notOpened⟩ first state rfl
      fun _ _ => rfl

theorem prepares (rows : Rows) (now : ℚ) :
    Prepares rows now (prepareDetailBreakerForRun rows now).1
      (prepareDetailBreakerForRun rows now).2 := by
  unfold prepareDetailBreakerForRun
  by_cases detail : (rows .detail).state = .closed
  · by_cases transient : (rows .transientDetail).state = .closed
    · simp only [detail, transient, ne_eq, not_true_eq_false, if_false]
      refine .closed ?_
      intro breakerType
      cases breakerType with
      | detail => exact detail
      | transientDetail => exact transient
    · simp only [detail, transient, ne_eq, not_true_eq_false, not_false_eq_true, if_false, if_true]
      exact prepares_state transient fun _ => detail
  · simp only [detail, ne_eq, not_false_eq_true, if_true]
    exact prepares_state detail fun isOther => by cases isOther

/-! ## What the loop does -/

/-- An item that a request would be sent for by a run that has sent none. -/
def Visit.wants (visit : Visit) (prepared : Prepared) (item : Item) : Bool :=
  match item.demand with
  | .queued cooldownUntil _ =>
    visit.hasFetchDetail &&
      !(cooldownUntil.any fun cooldownUntil => decide (item.consideredAt < cooldownUntil)) &&
      (maxDetailPages visit.settings prepared).all fun pages => decide (0 < pages)
  | _ => false

/-- The loop so far, with requests that are not yet answered. -/
structure Within (visit : Visit) (prepared : Prepared) (start : Rows) (pending : ℕ)
    (progress : Progress) : Prop where
  sent : progress.dispatched.length = progress.attempts
  answered : progress.failures + progress.unavailable + pending ≤ progress.attempts
  budget : ∀ pages, maxDetailPages visit.settings prepared = some pages →
    (progress.attempts : ℤ) ≤ max pages 0
  running : progress.aborted = false → progress.rows = start
  changed : ∀ breakerType, progress.rows breakerType = start breakerType ∨
    (progress.rows breakerType).state = .opened ∧ 0 < progress.failures
  dispatched : ∀ dispatch ∈ progress.dispatched, dispatch.rows = start ∧
    ∃ item ∈ visit.items, visit.wants prepared item = true ∧
      item.consideredAt = dispatch.sentAt
  paid : 0 < progress.completions → ∃ item ∈ visit.items, item.demand = .satisfied

section Loop

variable {visit : Visit} {prepared : Prepared} {start : Rows} {pending : ℕ}
  {progress : Progress}

theorem Within.initially : Within visit prepared start 0 { rows := start } where
  sent := rfl
  answered := le_refl 0
  budget pages _ := le_max_right pages 0
  running _ := rfl
  changed _ := .inl rfl
  dispatched _ member := by cases member
  paid isPositive := by cases isPositive

theorem Within.fail (within : Within visit prepared start 1 progress) :
    Within visit prepared start 0 progress.fail where
  sent := within.sent
  answered := by
    have answered := within.answered
    simp only [Progress.fail]
    omega
  budget := within.budget
  running := within.running
  changed breakerType := by
    rcases within.changed breakerType with same | ⟨opened, _⟩
    · exact .inl same
    · exact .inr ⟨opened, Nat.succ_pos _⟩
  dispatched := within.dispatched
  paid := within.paid

theorem Within.opens {breakerType : BreakerType} {failureCount : ℕ} {cooldownUntil : Option ℚ}
    {reason : String} {breakerOpened : Bool} (failed : 0 < progress.failures)
    (within : Within visit prepared start pending progress) :
    Within visit prepared start pending
      { progress with
        aborted := true
        breakerOpened := breakerOpened
        rows := Function.update progress.rows breakerType
          (.open failureCount cooldownUntil reason) } where
  sent := within.sent
  answered := within.answered
  budget := within.budget
  running isRunning := by cases isRunning
  changed other := by
    by_cases same : other = breakerType
    · subst same
      refine .inr ⟨?_, failed⟩
      simp only [Function.update_self]
      rfl
    · simpa only [Function.update_of_ne same] using within.changed other
  dispatched := within.dispatched
  paid := within.paid

theorem Within.stopAtLimit {settings : Settings} {now : ℚ} {reason : String}
    (failed : 0 < progress.failures) (within : Within visit prepared start pending progress) :
    Within visit prepared start pending (progress.stopAtLimit settings now reason) := by
  unfold Progress.stopAtLimit
  cases settings.transientFailureLimit with
  | none => exact within
  | some limit =>
    dsimp only
    split
    · exact within.opens failed
    · exact within

theorem Within.openDetailAdapterBreaker {settings : Settings} {now : ℚ}
    (failed : 0 < progress.failures) (within : Within visit prepared start pending progress) :
    Within visit prepared start pending (progress.openDetailAdapterBreaker settings now) := by
  unfold Progress.openDetailAdapterBreaker
  split
  · exact within.opens failed
  · exact within

theorem failures_stopAtLimit {settings : Settings} {now : ℚ} {reason : String} :
    (progress.stopAtLimit settings now reason).failures = progress.failures := by
  unfold Progress.stopAtLimit
  cases settings.transientFailureLimit with
  | none => rfl
  | some limit =>
    dsimp only
    split <;> rfl

theorem Within.countTransient {transientFailures : ℕ}
    (within : Within visit prepared start pending progress) :
    Within visit prepared start pending { progress with transientFailures } where
  sent := within.sent
  answered := within.answered
  budget := within.budget
  running := within.running
  changed := within.changed
  dispatched := within.dispatched
  paid := within.paid

theorem Within.record {settings : Settings} {now : ℚ} {answer : Answer}
    (within : Within visit prepared start 1 progress) :
    Within visit prepared start 0 (progress.record settings now answer) := by
  have failed : 0 < progress.fail.failures := Nat.succ_pos _
  cases answer with
  | complete =>
    exact { within with answered := (Nat.le_succ _).trans within.answered }
  | unavailable =>
    have answered := within.answered
    exact { within with answered := by simp only [Progress.record]; omega }
  | incomplete => exact within.fail.openDetailAdapterBreaker failed
  | noDetail =>
    simp only [Progress.record]
    split
    · exact within.fail.countTransient.stopAtLimit failed
    · exact within.fail.openDetailAdapterBreaker failed
  | raised isTransient reason =>
    simp only [Progress.record]
    split
    · exact within.fail.countTransient.stopAtLimit failed
    · apply Within.openDetailAdapterBreaker
      · rw [failures_stopAtLimit]
        exact failed
      · exact within.fail.stopAtLimit failed

theorem sends_iff {cooldownUntil : Option ℚ} {consideredAt : ℚ} :
    progress.sends visit prepared cooldownUntil consideredAt = true ↔
      visit.hasFetchDetail = true ∧ prepared.state ≠ .opened ∧ progress.aborted = false ∧
        (cooldownUntil.any fun cooldownUntil => decide (consideredAt < cooldownUntil)) = false ∧
        ∀ pages, maxDetailPages visit.settings prepared = some pages →
          (progress.attempts : ℤ) < pages := by
  simp [Progress.sends, Option.all_eq_true, and_assoc]

theorem Within.turn {item : Item} (member : item ∈ visit.items)
    (within : Within visit prepared start 0 progress) :
    Within visit prepared start 0 (turn visit prepared progress item) := by
  unfold DetailBreaker.turn
  cases demand : item.demand with
  | notQueued => exact within
  | satisfied => exact { within with paid := fun _ => ⟨item, member, demand⟩ }
  | queued cooldownUntil answer =>
    dsimp only
    split
    · rename_i sends
      rcases sends_iff.mp sends with ⟨fetches, _, running, warm, budget⟩
      apply Within.record
      have wanted : visit.wants prepared item = true := by
        simp only [Visit.wants, demand, fetches, warm, Bool.not_false, Bool.and_true,
          Bool.true_and, Option.all_eq_true, decide_eq_true_eq]
        intro pages isLimit
        have room := budget pages isLimit
        omega
      have answered := within.answered
      refine { sent := ?_, answered := ?_, budget := ?_, running := within.running,
               changed := within.changed, dispatched := ?_, paid := within.paid }
      · simp only [Progress.send, List.length_append, within.sent, List.length_singleton]
      · simp only [Progress.send]
        omega
      · intro pages isLimit
        have room := budget pages isLimit
        simp only [Progress.send]
        omega
      · intro dispatch sent
        rcases List.mem_append.mp sent with earlier | now
        · exact within.dispatched dispatch earlier
        · rw [List.mem_singleton] at now
          subst now
          exact ⟨within.running running, item, member, wanted, rfl⟩
    · exact within

theorem within_details (visit : Visit) (rows : Rows) :
    Within visit (DetailBreaker.prepared visit rows)
      (prepareDetailBreakerForRun rows visit.startedAt).1 0 (details visit rows) := by
  exact List.foldlRecOn visit.items _ .initially fun _ within _ member => within.turn member

end Loop

/-! ## What a run sends -/

/-- Nothing is sent while a row is open under a cooldown. -/
def Guarded (visit : Visit) (rows : Rows) : Prop :=
  ∀ dispatch ∈ (details visit rows).dispatched, ∀ breakerType,
    (dispatch.rows breakerType).blocks dispatch.sentAt = false

/-- A probe is one request right after the cooldown, and three at most later. -/
def Limited (visit : Visit) (rows : Rows) : Prop :=
  (prepared visit rows).state = .halfOpen →
    (details visit rows).dispatched.length ≤ 3 ∧
      ((rows (prepared visit rows).breakerType).state = .opened →
        (details visit rows).dispatched.length ≤ 1)

/-- The run does not probe the detail row while the other one holds its requests back,
and takes no detail from its listing while the detail row is blocked. -/
structure Clear (visit : Visit) (rows : Rows) : Prop where
  alone : (rows .detail).state ≠ .closed → (rows .detail).blocks visit.startedAt = false →
    ∀ item ∈ visit.items, visit.wants (prepared visit rows) item = true →
      (rows .transientDetail).blocks item.consideredAt = false
  unpaid : (rows .detail).blocks visit.startedAt = true → visit.finishedAt.isSome = true →
    ∀ item ∈ visit.items, item.demand ≠ .satisfied

section Visits

variable {visit : Visit} {rows : Rows}

theorem blocks_of_ne_opened {row : Row} {now : ℚ} (other : row.state ≠ .opened) :
    row.blocks now = false := by
  simp [Row.blocks, other]

theorem attempts_le_limit {limit : ℕ} {breakerType : BreakerType}
    (isProbe : prepared visit rows = ⟨.halfOpen, some limit, breakerType⟩) :
    (details visit rows).attempts ≤ limit := by
  have within := within_details visit rows
  cases configured : visit.settings.maxDetailPages with
  | none =>
    have budget := within.budget limit (by simp [maxDetailPages, isProbe, configured])
    omega
  | some pages =>
    have budget := within.budget (min pages limit) (by simp [maxDetailPages, isProbe, configured])
    omega

theorem attempts_eq_zero_of_opened (isOpened : (prepared visit rows).state = .opened) :
    (details visit rows).attempts = 0 := by
  have within := within_details visit rows
  have budget := within.budget 0 (by simp [maxDetailPages, isOpened])
  omega

theorem guarded_of_clear (clear : Clear visit rows) : Guarded visit rows := by
  intro dispatch sent breakerType
  have within := within_details visit rows
  rcases within.dispatched dispatch sent with ⟨same, item, member, wanted, sentAt⟩
  rw [same, ← sentAt]
  have starts := prepares rows visit.startedAt
  generalize start : prepareDetailBreakerForRun rows visit.startedAt = begun at starts
  have alone := clear.alone
  rcases begun with ⟨next, begun⟩
  dsimp only at starts ⊢
  cases starts with
  | closed isClosed => exact blocks_of_ne_opened (by rw [isClosed breakerType]; simp)
  | blocked probed blocks first =>
    have none : (details visit rows).attempts = 0 :=
      attempts_eq_zero_of_opened (by rw [DetailBreaker.prepared, start])
    rw [List.length_eq_zero_iff.mp (within.sent.trans none)] at sent
    cases sent
  | probing probed limit _ unblocked found limited first isHalfOpen count others =>
    by_cases isProbed : breakerType = probed
    · subst isProbed
      exact blocks_of_ne_opened (by rw [isHalfOpen]; simp)
    · rw [others breakerType isProbed]
      cases probed with
      | detail =>
        cases breakerType with
        | detail => exact absurd rfl isProbed
        | transientDetail => exact alone found unblocked item member wanted
      | transientDetail =>
        cases breakerType with
        | detail => exact blocks_of_ne_opened (by rw [first rfl]; simp)
        | transientDetail => exact absurd rfl isProbed

theorem limited (visit : Visit) (rows : Rows) : Limited visit rows := by
  intro isHalfOpen
  have within := within_details visit rows
  rw [within.sent]
  have starts := prepares rows visit.startedAt
  generalize start : prepareDetailBreakerForRun rows visit.startedAt = begun at starts
  rcases begun with ⟨next, begun⟩
  have isBegun : prepared visit rows = begun := by rw [DetailBreaker.prepared, start]
  rw [isBegun] at isHalfOpen ⊢
  dsimp only at starts
  cases starts with
  | closed isClosed => cases isHalfOpen
  | blocked probed blocks first => cases isHalfOpen
  | probing probed limit _ unblocked found limited first isHalfOpen count others =>
    have attempts := attempts_le_limit isBegun
    refine ⟨attempts.trans limited.1, ?_⟩
    intro isOpened
    exact attempts.trans (limited.2 isOpened).le

/-! ## What a run leaves -/

/-- A run that probed a breaker with an evaluated request and no failure. -/
def cleanProbe (breakerType : BreakerType) (visit : Visit) (rows : Rows) : Bool :=
  let progress := details visit rows
  (prepared visit rows).state = .halfOpen && (prepared visit rows).breakerType = breakerType &&
    visit.finishedAt.isSome && decide (0 < progress.attempts - progress.unavailable) &&
    decide (progress.failures = 0)

def SatisfiedByListing (breakerType : BreakerType) (visit : Visit) (rows : Rows) : Prop :=
  breakerType = .detail ∧ (rows .detail).blocks visit.startedAt = false ∧
    ∃ item ∈ visit.items, item.demand = .satisfied

inductive Advance (breakerType : BreakerType) (visit : Visit) (rows : Rows) (next : Row) : Prop
  | kept (notClosed : next.state ≠ .closed)
      (count : next.successCount ≤ (rows breakerType).successCount)
  | probed (clean : cleanProbe breakerType visit rows = true)
      (count : next.successCount = (rows breakerType).successCount + 1)
      (twice : next.state = .closed → 2 ≤ next.successCount)
  | satisfied (closes : next.state = .closed)
      (byListing : SatisfiedByListing breakerType visit rows)

theorem recordDetailBreakerAfterRun_cases {settings : Settings} {breaker : Prepared}
    {detailAttempts detailFailures : ℕ} {opened : Bool} {now : ℚ} {row : Row}
    (breakerType : BreakerType) (notClosed : breaker.state ≠ .closed)
    (recorded : recordDetailBreakerAfterRun settings rows breaker detailAttempts detailFailures
      opened now breakerType = row) :
    row = rows breakerType ∨ row.state = .opened ∨
      (breaker.breakerType = breakerType ∧ 0 < detailAttempts ∧ detailFailures = 0 ∧
        row.successCount = (rows breakerType).successCount + 1 ∧
        (row.state = .closed → 2 ≤ row.successCount)) ∨
      (0 < detailFailures ∧ 10 * detailFailures < 2 * detailAttempts) := by
  unfold recordDetailBreakerAfterRun at recorded
  split at recorded
  case isTrue => exact .inl recorded.symm
  case isFalse ran =>
    simp only [Bool.or_eq_true, decide_eq_true_eq, not_or] at ran
    by_cases same : breakerType = breaker.breakerType
    · subst same
      split at recorded
      case isTrue clean =>
        right; right; left
        rw [Function.update_self] at recorded
        refine ⟨rfl, by omega, clean, ?_⟩
        subst recorded
        split
        · rename_i twice
          exact ⟨rfl, fun _ => twice.2⟩
        · refine ⟨rfl, ?_⟩
          intro isClosed
          cases isClosed
      case isFalse failed =>
        split at recorded
        case isTrue below => exact .inr (.inr (.inr ⟨by omega, below⟩))
        case isFalse =>
          rw [Function.update_self] at recorded
          subst recorded
          exact .inr (.inl rfl)
    · left
      rw [← recorded]
      split
      · exact Function.update_of_ne same _ _
      · split
        · exact Function.update_of_ne same _ _
        · exact Function.update_of_ne same _ _

theorem closeSatisfied_eq_or (progress : Progress) (breakerType : BreakerType) :
    closeSatisfied progress rows breakerType = rows breakerType ∨
      breakerType = .detail ∧ 0 < progress.completions ∧
        (closeSatisfied progress rows breakerType).state = .closed := by
  unfold closeSatisfied
  split
  · rename_i closes
    by_cases same : breakerType = .detail
    · subst same
      refine .inr ⟨rfl, closes.1, ?_⟩
      rw [Function.update_self]
      rfl
    · exact .inl (Function.update_of_ne same _ _)
  · exact .inl rfl

theorem started_row (breakerType : BreakerType) (notClosed : (rows breakerType).state ≠ .closed) :
    let start := (prepareDetailBreakerForRun rows visit.startedAt).1 breakerType
    start.state ≠ .closed ∧ start.successCount = (rows breakerType).successCount ∧
      (prepared visit rows).state ≠ .closed := by
  have starts := prepares rows visit.startedAt
  unfold DetailBreaker.prepared
  generalize start : prepareDetailBreakerForRun rows visit.startedAt = begun at starts
  rcases begun with ⟨next, begun⟩
  dsimp only at starts ⊢
  cases starts with
  | closed isClosed => exact absurd (isClosed breakerType) notClosed
  | blocked probed blocks first => exact ⟨notClosed, rfl, by simp⟩
  | probing probed limit _ unblocked found limited first isHalfOpen count others =>
    by_cases isProbed : breakerType = probed
    · subst isProbed
      refine ⟨?_, count, by simp⟩
      rw [isHalfOpen]
      simp
    · rw [others breakerType isProbed]
      exact ⟨notClosed, rfl, by simp⟩

theorem not_below_threshold (notClosed : (prepared visit rows).state ≠ .closed)
    (failed : 0 < (details visit rows).failures) :
    2 * ((details visit rows).attempts - (details visit rows).unavailable) ≤
      10 * (details visit rows).failures := by
  have within := within_details visit rows
  have attempts : (details visit rows).attempts ≤ 3 := by
    cases state : (prepared visit rows).state with
    | closed => exact absurd state notClosed
    | opened =>
      have none := attempts_eq_zero_of_opened state
      omega
    | halfOpen =>
      rw [← within.sent]
      exact (limited visit rows state).1
  omega

theorem advance (breakerType : BreakerType) (clear : Clear visit rows)
    (notClosed : (rows breakerType).state ≠ .closed) :
    Advance breakerType visit rows (sync visit rows breakerType) := by
  rcases started_row breakerType notClosed with ⟨startOpen, startCount, engaged⟩
  have within := within_details visit rows
  have keptOf : ∀ row : Row, row.state = .opened → Advance breakerType visit rows row := by
    intro row isOpened
    refine .kept (by rw [isOpened]; simp) ?_
    rw [row.fresh isOpened]
    exact Nat.zero_le _
  -- The loop leaves the row or opens it.
  have loop : Advance breakerType visit rows ((details visit rows).rows breakerType) := by
    rcases within.changed breakerType with same | ⟨isOpened, _⟩
    · rw [same]
      exact .kept startOpen startCount.le
    · exact keptOf _ isOpened
  unfold sync
  cases finished : visit.finishedAt with
  | none => exact loop
  | some now =>
    dsimp only
    rcases closeSatisfied_eq_or (details visit rows) breakerType with
      same | ⟨isDetail, paid, closes⟩
    · rw [same]
      rcases recordDetailBreakerAfterRun_cases breakerType engaged rfl with
        kept | isOpened | ⟨probed, evaluated, clean, count, twice⟩ | ⟨failed, below⟩
      · rw [kept]
        exact loop
      · exact keptOf _ isOpened
      · have unchanged : (details visit rows).rows breakerType =
            (prepareDetailBreakerForRun rows visit.startedAt).1 breakerType := by
          rcases within.changed breakerType with same | ⟨_, failed⟩
          · exact same
          · omega
        rw [unchanged, startCount] at count
        refine .probed ?_ count twice
        have isProbe : (prepared visit rows).state = .halfOpen := by
          cases state : (prepared visit rows).state with
          | closed => exact absurd state engaged
          | opened =>
            have none := attempts_eq_zero_of_opened state
            omega
          | halfOpen => rfl
        simp [cleanProbe, isProbe, probed, finished, evaluated, clean]
      · have above := not_below_threshold engaged failed
        omega
    · rcases within.paid paid with ⟨item, member, isSatisfied⟩
      refine .satisfied closes ⟨isDetail, ?_, item, member, isSatisfied⟩
      cases blocks : (rows .detail).blocks visit.startedAt with
      | false => rfl
      | true =>
        have unpaid := clear.unpaid blocks (by rw [finished]; rfl) item member
        exact absurd isSatisfied unpaid

end Visits

/-! ## Sequences of runs -/

def cleanProbes (breakerType : BreakerType) : Rows → List Visit → ℕ
  | _, [] => 0
  | rows, visit :: visits =>
    (if cleanProbe breakerType visit rows then 1 else 0) +
      cleanProbes breakerType (sync visit rows) visits

structure ClearStep (rows : Rows) (visit : Visit) (next : Rows) : Prop where
  clear : Clear visit rows
  synced : next = sync visit rows

/-- What a sequence of runs keeps to: no request under a cooldown, short probes, and no
breaker closed after it opened but by two clean probes or by a listing's own details. -/
structure Disciplined (initial : Rows) (visits : List Visit) : Prop where
  guarded : ∀ before visit after, visits = before ++ visit :: after →
    Guarded visit (syncAll initial before)
  limited : ∀ before visit after, visits = before ++ visit :: after →
    Limited visit (syncAll initial before)
  closes : ∀ breakerType before opening between closing after,
    visits = before ++ opening :: (between ++ closing :: after) →
    (sync opening (syncAll initial before) breakerType).state = .opened →
    (∀ part, part <+: between →
      (syncAll (sync opening (syncAll initial before)) part breakerType).state ≠ .closed) →
    (sync closing (syncAll (sync opening (syncAll initial before)) between)
      breakerType).state = .closed →
    2 ≤ cleanProbes breakerType (sync opening (syncAll initial before)) (between ++ [closing]) ∨
      SatisfiedByListing breakerType closing
        (syncAll (sync opening (syncAll initial before)) between)

section Runs

variable {initial rows final : Rows} {visits : List Visit} {breakerType : BreakerType}

theorem syncAll_of_run (run : Run ClearStep initial visits final) :
    final = syncAll initial visits := by
  induction run with
  | nil => rfl
  | cons step _ induction =>
    rw [induction, step.synced]
    rfl

theorem cleanProbes_append {later : List Visit} :
    cleanProbes breakerType rows (visits ++ later) =
      cleanProbes breakerType rows visits +
        cleanProbes breakerType (syncAll rows visits) later := by
  induction visits generalizing rows with
  | nil => simp [cleanProbes, syncAll]
  | cons visit visits induction =>
    rw [List.cons_append, cleanProbes, cleanProbes, induction, Nat.add_assoc]
    rfl

theorem successCount_le (run : Run ClearStep rows visits final)
    (engaged : ∀ part, part <+: visits → (syncAll rows part breakerType).state ≠ .closed) :
    (final breakerType).successCount ≤
      (rows breakerType).successCount + cleanProbes breakerType rows visits := by
  induction run with
  | nil => exact Nat.le_add_right _ _
  | @cons current middle _ visit _ step rest induction =>
    have later := induction fun part isPart => by
      rw [step.synced]
      exact engaged (visit :: part) (List.cons_prefix_cons.mpr ⟨rfl, isPart⟩)
    have now := engaged [] List.nil_prefix
    have next := engaged [visit] (List.cons_prefix_cons.mpr ⟨rfl, List.nil_prefix⟩)
    rw [step.synced] at later
    rw [cleanProbes]
    cases advance breakerType step.clear now with
    | kept _ count => omega
    | probed clean count _ =>
      rw [if_pos clean]
      omega
    | satisfied closes _ => exact absurd closes next

theorem closes_of_run {opened middle next : Rows} {between : List Visit} {closing : Visit}
    (isOpened : (opened breakerType).state = .opened)
    (run : Run ClearStep opened between middle) (step : ClearStep middle closing next)
    (engaged : ∀ part, part <+: between → (syncAll opened part breakerType).state ≠ .closed)
    (closed : (next breakerType).state = .closed) :
    2 ≤ cleanProbes breakerType opened (between ++ [closing]) ∨
      SatisfiedByListing breakerType closing middle := by
  have count := successCount_le run engaged
  have isMiddle := syncAll_of_run run
  have now := engaged between List.prefix_rfl
  rw [← isMiddle] at now
  rw [(opened breakerType).fresh isOpened] at count
  rw [step.synced] at closed
  cases advance breakerType step.clear now with
  | kept notClosed _ => exact absurd closed notClosed
  | probed clean count' twice =>
    left
    have two := twice closed
    rw [cleanProbes_append, ← isMiddle, cleanProbes, if_pos clean]
    omega
  | satisfied _ byListing => exact .inr byListing

/-- Sequences of clear runs are disciplined. -/
theorem detail_breaker_discipline (run : Run ClearStep initial visits final) :
    Disciplined initial visits where
  guarded before visit after same := by
    rw [same] at run
    rcases run.of_append with ⟨middle, first, rest⟩
    rw [← syncAll_of_run first]
    cases rest with
    | cons step _ => exact guarded_of_clear step.clear
  limited before visit after _ := limited visit _
  closes breakerType before opening between closing after same isOpened engaged closed := by
    rw [same] at run
    rcases run.of_append with ⟨middle, first, rest⟩
    cases rest with
    | cons step rest =>
      rcases rest.of_append with ⟨last, second, ending⟩
      cases ending with
      | cons closingStep _ =>
        rw [← syncAll_of_run first, ← step.synced] at isOpened engaged closed ⊢
        rw [← syncAll_of_run second] at closed ⊢
        rw [← closingStep.synced] at closed
        exact closes_of_run isOpened second closingStep engaged closed

end Runs

/-! A source whose transient cooldown is longer than its probe cooldown. -/

def sampleRows : Rows := fun _ => .missing

def sampleSettings : Settings where
  transientFailureLimit := some 1
  failureCooldown := some 36000
  probeCooldown := some 3600

def sampleVisit (startedAt : ℚ) (demands : List Demand) : Visit where
  settings := sampleSettings
  hasFetchDetail := true
  startedAt := startedAt
  items := demands.map fun demand => ⟨startedAt + 1, startedAt + 2, demand⟩
  finishedAt := some (startedAt + 3)

/-- Three details fail, and the detail breaker opens for an hour. -/
def failingVisit : Visit :=
  sampleVisit 0 (List.replicate 3 (.queued none (.raised false "HTTP 404")))

def timedOutProbe : Visit := sampleVisit 4000 [.queued none (.raised true "timed out")]

def completeProbe (startedAt : ℚ) : Visit := sampleVisit startedAt [.queued none .complete]

def listingVisit : Visit := sampleVisit 100 [.satisfied]

theorem completeProbe_sent :
    ((details (completeProbe 8000)
      (syncAll sampleRows [failingVisit, timedOutProbe])).dispatched.any fun dispatch =>
        (dispatch.rows .transientDetail).blocks dispatch.sentAt) = true := by
  decide +kernel

theorem listingVisit_closes :
    (sync failingVisit sampleRows .detail).state = .opened ∧
      (sync failingVisit sampleRows .detail).blocks listingVisit.startedAt = true ∧
      (sync listingVisit (sync failingVisit sampleRows) .detail).state = .closed ∧
      cleanProbes .detail (sync failingVisit sampleRows) [listingVisit] = 0 := by
  decide +kernel

/-- A probe of the detail row is sent under the other row's cooldown, and a listing closes
the detail row under its own. -/
theorem not_disciplined :
    ¬ Disciplined sampleRows [failingVisit, timedOutProbe, completeProbe 8000] ∧
      ¬ Disciplined sampleRows [failingVisit, listingVisit] := by
  constructor
  · intro disciplined
    rcases List.any_eq_true.mp completeProbe_sent with ⟨dispatch, sent, blocks⟩
    have guarded := disciplined.guarded [failingVisit, timedOutProbe] (completeProbe 8000) [] rfl
    rw [guarded dispatch sent .transientDetail] at blocks
    cases blocks
  · intro disciplined
    rcases listingVisit_closes with ⟨isOpened, blocks, closed, count⟩
    have engaged : ∀ part, part <+: [] →
        (syncAll (sync failingVisit sampleRows) part .detail).state ≠ .closed := by
      intro part isPart
      rw [List.prefix_nil.mp isPart]
      change (sync failingVisit sampleRows .detail).state ≠ .closed
      rw [isOpened]
      simp
    rcases disciplined.closes .detail [] failingVisit [] listingVisit [] rfl isOpened engaged closed
      with two | ⟨_, unblocked, _⟩
    · change 2 ≤ cleanProbes .detail (sync failingVisit sampleRows) [listingVisit] at two
      omega
    · change (sync failingVisit sampleRows .detail).blocks listingVisit.startedAt = false
        at unblocked
      rw [blocks] at unblocked
      cases unblocked

/-- The breaker opens, and closes after two clean probes. -/
theorem disciplined_probes :
    Disciplined sampleRows [failingVisit, completeProbe 4000, completeProbe 8000] := by
  have first : Clear failingVisit sampleRows := ⟨by decide +kernel, by decide +kernel⟩
  have second : Clear (completeProbe 4000) (sync failingVisit sampleRows) :=
    ⟨by decide +kernel, by decide +kernel⟩
  have third : Clear (completeProbe 8000)
      (sync (completeProbe 4000) (sync failingVisit sampleRows)) :=
    ⟨by decide +kernel, by decide +kernel⟩
  exact detail_breaker_discipline (.cons ⟨first, rfl⟩ (.cons ⟨second, rfl⟩ (.cons ⟨third, rfl⟩
    (.nil _))))

end JobAgg.SyncSource.DetailBreaker
