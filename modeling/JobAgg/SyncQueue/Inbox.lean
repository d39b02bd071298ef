import JobAgg.Foundation.Run
import JobAgg.SyncQueue.Metadata

/-! # The inbox

A page of remote operations is staged as a whole and applied one by one. Staging checks
the page against the metadata the page itself will lead to, applying checks each
operation against the metadata that is stored. -/

namespace JobAgg.SyncQueue

variable {Digest : Type}

def maximumCursorLength : Nat := 2048

/-- `_cursor` -/
def isCursor (cursor : Option String) : Bool :=
  cursor.all (isText · maximumCursorLength)

structure InboxState (Digest : Type) extends Metadata where
  cursor : Option String
  pendingPage : Bool
  pendingNextCursor : Option String
  pending : List Operation
  appliedFingerprints : Dict String Digest

def inboxDefault : InboxState Digest :=
  { toMetadata := .empty, cursor := none, pendingPage := false, pendingNextCursor := none,
    pending := [], appliedFingerprints := ∅ }

/-- `_load_inbox` on what the file holds -/
def loadInbox (library : Library Digest) (state : InboxState Digest) :
    Except String (InboxState Digest) := do
  require (decide (state.pending.length ≤ maximumQueueOperations)) invalid
  require (state.pending.all (·.isValid library)) invalid
  require (inOrder state.pending && distinctIds state.pending) invalid
  require (decide (state.appliedFingerprints.size ≤ maximumQueueOperations)) invalid
  require (state.appliedFingerprints.items.all (isCanonicalUuid ·.1)) invalid
  require (decide (state.authorSequences.size ≤ maximumQueueOperations) &&
    decide (state.objectRevisions.size ≤ maximumQueueOperations)) invalid
  require (state.authorSequences.items.all fun (device, sequence) =>
    isIdentifier device && isInteger sequence) invalid
  require (state.objectRevisions.items.all fun (object, revision) =>
    isIdentifier object && isIdentifier revision) invalid
  require (state.lastOrder.all isOrderKey) invalid
  require (isCursor state.pendingNextCursor) invalid
  require ((!state.pending.isEmpty) == state.pendingPage) invalid
  require (isCursor state.cursor) invalid
  return state

/-- The operations of a page that are not applied yet, each checked against what the ones
before it lead to. -/
def newOperations [DecidableEq Digest] (library : Library Digest) (applied : Dict String Digest) :
    List Operation → Metadata → Except String (List Operation)
  | [], _ => .ok []
  | operation :: rest, metadata =>
    match applied.lookup operation.operationId with
    | some known => do
      require (known == library.fingerprint operation) invalid
      newOperations library applied rest metadata
    | none => do
      let next ← advanceMetadata operation metadata
      let later ← newOperations library applied rest next
      return operation :: later

structure Page where
  expectedCursor : Option String
  nextCursor : Option String
  operations : List Operation

/-- `DurableEncryptedInbox.stage_page`: the state it writes -/
def stagePage [DecidableEq Digest] (library : Library Digest) (page : Page)
    (stored : InboxState Digest) : Except String (InboxState Digest) := do
  require (isCursor page.expectedCursor) invalid
  require (isCursor page.nextCursor) invalid
  let state ← loadInbox library stored
  require (state.pending.isEmpty && state.cursor == page.expectedCursor) invalid
  require (decide (page.operations.length ≤ maximumQueueOperations)) invalid
  require (page.operations.all (·.isValid library)) invalid
  require (inOrder page.operations && distinctIds page.operations) invalid
  let new ← newOperations library state.appliedFingerprints page.operations state.toMetadata
  require (decide (state.appliedFingerprints.size + new.length ≤ maximumQueueOperations)) invalid
  return { state with
    cursor := if new.isEmpty then page.nextCursor else state.cursor
    pendingPage := !new.isEmpty
    pendingNextCursor := page.nextCursor
    pending := new }

/-- `DurableEncryptedInbox.apply_next`: the operation it returns and the state it writes,
when an operation is pending -/
def applyNext (library : Library Digest) (apply : Operation → Except String Unit)
    (stored : InboxState Digest) : Except String (Option (Operation × InboxState Digest)) := do
  let state ← loadInbox library stored
  match state.pending with
  | [] => return none
  | operation :: remaining => do
    apply operation
    let metadata ← advanceMetadata operation state.toMetadata
    return some (operation, { state with
      toMetadata := metadata
      cursor := if remaining.isEmpty then state.pendingNextCursor else state.cursor
      pendingPage := !remaining.isEmpty
      pendingNextCursor := if remaining.isEmpty then none else state.pendingNextCursor
      pending := remaining
      appliedFingerprints :=
        state.appliedFingerprints.insert operation.operationId (library.fingerprint operation) })

inductive Event where
  /-- A call raised, or the process stopped before the call wrote. -/
  | stopped
  | staged (page : Page)
  | committed (operation : Operation)
  /-- Nothing was pending. -/
  | idle

inductive Step [DecidableEq Digest] (library : Library Digest) :
    InboxState Digest → Event → InboxState Digest → Prop
  | stop (state : InboxState Digest) : Step library state .stopped state
  | stage {page : Page} {state after : InboxState Digest} :
      stagePage library page state = .ok after → Step library state (.staged page) after
  | apply {apply : Operation → Except String Unit} {operation : Operation}
      {state after : InboxState Digest} :
      applyNext library apply state = .ok (some (operation, after)) →
      Step library state (.committed operation) after
  | idle {apply : Operation → Except String Unit} {state : InboxState Digest} :
      applyNext library apply state = .ok none → Step library state .idle state

def Event.operation? : Event → Option Operation
  | .committed operation => some operation
  | _ => none

def Event.page? : Event → Option Page
  | .staged page => some page
  | _ => none

def committed (events : List Event) : List Operation := events.filterMap Event.operation?

def staged (events : List Event) : List Page := events.filterMap Event.page?

@[simp] theorem committed_concat {events : List Event} {event : Event} :
    committed (events ++ [event]) = committed events ++ event.operation?.toList := by
  rw [committed, List.filterMap_append]
  cases event <;> rfl

@[simp] theorem staged_concat {events : List Event} {event : Event} :
    staged (events ++ [event]) = staged events ++ event.page?.toList := by
  rw [staged, List.filterMap_append]
  cases event <;> rfl

def Page.isFinished (done : List Operation) (page : Page) : Bool :=
  page.operations.all fun operation => decide (operation.operationId ∈ done.map (·.operationId))

/-- How the staged pages stand: all but perhaps the last are finished, and the cursor is
that of the last finished one. -/
structure Paged (done : List Operation) (pages : List Page) (state : InboxState Digest)
    (finished waiting : List Page) : Prop where
  split : pages = finished ++ waiting
  cursor : state.cursor = finished.getLast?.bind (·.nextCursor)
  finishes : ∀ page ∈ finished, page.isFinished done = true
  waits : waiting = [] ∧ state.pending = [] ∨ ∃ page, waiting = [page] ∧ state.pending ≠ [] ∧
    page.nextCursor = state.pendingNextCursor ∧ ∀ operation ∈ state.pending,
      operation ∈ page.operations

structure Valid (library : Library Digest) (done : List Operation) (pages : List Page)
    (state : InboxState Digest) : Prop where
  describes : Describes state.toMetadata done
  linear : Linear (done ++ state.pending)
  distinct : ((done ++ state.pending).map (·.operationId)).Nodup
  admitted : ∀ operation ∈ done ++ state.pending, operation.isValid library = true
  receipts : ∀ identity, state.appliedFingerprints.lookup identity =
    (done.find? (·.operationId == identity)).map library.fingerprint
  counted : state.appliedFingerprints.size = done.length
  room : (done ++ state.pending).length ≤ maximumQueueOperations
  marked : state.pendingPage = !state.pending.isEmpty
  cursors : isCursor state.cursor = true ∧ isCursor state.pendingNextCursor = true
  complete : ∀ page ∈ pages, ∀ operation ∈ page.operations,
    ∃ kept ∈ done ++ state.pending, kept.operationId = operation.operationId ∧
      library.fingerprint kept = library.fingerprint operation
  paged : ∃ finished waiting, Paged done pages state finished waiting

variable {library : Library Digest} {done : List Operation} {pages : List Page}
  {state after : InboxState Digest}

theorem Valid.increasing (valid : Valid library done pages state) :
    state.pending.Pairwise fun first second => first.orderKey < second.orderKey :=
  (List.pairwise_append.mp valid.linear.increasing).2.1

theorem Valid.loads (valid : Valid library done pages state) :
    loadInbox library state = .ok state := by
  have room := valid.room
  rw [List.length_append] at room
  obtain ⟨authors, objects⟩ := valid.describes.sizes
  have admitted := valid.admitted
  have pendingIds : distinctIds state.pending = true := by
    have distinct := valid.distinct
    rw [List.map_append] at distinct
    rw [distinctIds, decide_eq_true_eq]
    exact (List.nodup_append.mp distinct).2.1
  simp only [loadInbox, require_bind_eq_ok, pure_eq_ok, Bool.and_eq_true, decide_eq_true_eq,
    List.all_eq_true, Prod.forall, Dict.mem_items]
  refine ⟨by omega, ?_, ⟨inOrder_of_increasing valid.increasing, pendingIds⟩, ?_, ?_,
    ⟨by omega, by omega⟩, ?_, ?_, ?_, valid.cursors.2, ?_, valid.cursors.1, trivial⟩
  · exact fun operation member => admitted operation (List.mem_append_right _ member)
  · rw [valid.counted]
    omega
  · intro identity digest found
    rw [valid.receipts, Option.map_eq_some_iff] at found
    obtain ⟨operation, found, -⟩ := found
    have same : operation.operationId = identity := by simpa using List.find?_some found
    rw [← same]
    exact (Operation.fields_of_isValid
      (admitted operation (List.mem_append_left _ (List.mem_of_find?_eq_some found)))).1
  · intro device sequence found
    obtain ⟨operation, member, rfl, rfl⟩ := valid.describes.exists_author found
    have fields := Operation.fields_of_isValid
      (admitted operation (List.mem_append_left _ member))
    exact ⟨fields.2.1, fields.2.2.1⟩
  · intro object revision found
    obtain ⟨operation, member, rfl, rfl⟩ := valid.describes.exists_object found
    have fields := Operation.fields_of_isValid
      (admitted operation (List.mem_append_left _ member))
    exact ⟨fields.2.2.2.1, fields.2.2.2.2⟩
  · rw [valid.describes.lastOrder]
    cases last : done.getLast? with
    | none => rfl
    | some operation =>
      have member := List.mem_append_left state.pending (List.mem_of_getLast? last)
      exact Operation.orderKey_of_isValid (admitted operation member)
  · rw [valid.marked, beq_self_eq_true]

theorem Valid.initial : Valid library [] [] inboxDefault where
  describes := .empty
  linear := .nil
  distinct := List.nodup_nil
  admitted := fun _ member => absurd member List.not_mem_nil
  receipts := fun _ => rfl
  counted := Dict.size_empty
  room := Nat.zero_le _
  marked := rfl
  cursors := ⟨rfl, rfl⟩
  complete := fun _ member => absurd member List.not_mem_nil
  paged := ⟨[], [], rfl, rfl, fun _ member => absurd member List.not_mem_nil, .inl ⟨rfl, rfl⟩⟩

/-! ## Staging -/

theorem newOperations_eq_ok [DecidableEq Digest] {applied : Dict String Digest} {operations new : List Operation} {metadata : Metadata} (describes : Describes metadata done) (linear : Linear done)
    (listed : newOperations library applied operations metadata = .ok new) :
    Linear (done ++ new) ∧
      new = operations.filter (fun operation => (applied.lookup operation.operationId).isNone) ∧
      ∀ operation ∈ operations, operation ∉ new →
        applied.lookup operation.operationId = some (library.fingerprint operation) := by
  induction operations generalizing done metadata new with
  | nil =>
    cases listed
    exact ⟨by rwa [List.append_nil], rfl, fun _ member => absurd member List.not_mem_nil⟩
  | cons operation rest induction =>
    rw [newOperations] at listed
    cases found : applied.lookup operation.operationId with
    | some known =>
      rw [found] at listed
      dsimp only at listed
      rw [require_bind_eq_ok, beq_iff_eq] at listed
      obtain ⟨same, listed⟩ := listed
      obtain ⟨continued, filtered, known⟩ := induction describes linear listed
      refine ⟨continued, ?_, ?_⟩
      · rw [List.filter_cons_of_neg (by simp [found])]
        exact filtered
      · intro other member fresh
        rcases List.mem_cons.mp member with rfl | member
        · rw [found, same]
        · exact known other member fresh
    | none =>
      rw [found] at listed
      dsimp only at listed
      rw [bind_eq_ok] at listed
      obtain ⟨next, advanced, listed⟩ := listed
      rw [bind_eq_ok] at listed
      obtain ⟨later, listed, same⟩ := listed
      rw [pure_eq_ok] at same
      obtain ⟨further, described⟩ := describes.advance linear advanced
      obtain ⟨continued, filtered, known⟩ := induction described further listed
      subst same
      refine ⟨?_, ?_, ?_⟩
      · rwa [List.append_assoc] at continued
      · rw [List.filter_cons_of_pos (by simp [found]), ← filtered]
      · intro other member fresh
        rw [List.mem_cons, not_or] at fresh
        rcases List.mem_cons.mp member with rfl | member
        · exact absurd rfl fresh.1
        · exact known other member fresh.2

theorem Valid.lookup_eq_none (valid : Valid library done pages state) {identity : String} :
    state.appliedFingerprints.lookup identity = none ↔
      identity ∉ done.map (·.operationId) := by
  rw [valid.receipts, Option.map_eq_none_iff, List.find?_eq_none, List.mem_map]
  simp

theorem Valid.exists_of_lookup (valid : Valid library done pages state) {identity : String}
    {digest : Digest} (found : state.appliedFingerprints.lookup identity = some digest) :
    ∃ kept ∈ done, kept.operationId = identity ∧
      library.fingerprint kept = digest := by
  rw [valid.receipts, Option.map_eq_some_iff] at found
  obtain ⟨kept, found, same⟩ := found
  exact ⟨kept, List.mem_of_find?_eq_some found, by simpa using List.find?_some found, same⟩

theorem Valid.paged_of_idle (valid : Valid library done pages state) (idle : state.pending = []) :
    state.cursor = pages.getLast?.bind (·.nextCursor) ∧
      ∀ page ∈ pages, page.isFinished done = true := by
  obtain ⟨finished, waiting, paged⟩ := valid.paged
  rcases paged.waits with ⟨rfl, -⟩ | ⟨page, -, busy, -⟩
  · rw [paged.split, List.append_nil]
    exact ⟨paged.cursor, paged.finishes⟩
  · exact absurd idle busy

theorem isFinished_iff {page : Page} :
    page.isFinished done = true ↔
      ∀ operation ∈ page.operations, operation.operationId ∈ done.map (·.operationId) := by
  simp [Page.isFinished]

theorem Valid.stage [DecidableEq Digest] {page : Page} (valid : Valid library done pages state)
    (written : stagePage library page state = .ok after) :
    Valid library done (pages ++ [page]) after := by
  rw [stagePage, require_bind_eq_ok, require_bind_eq_ok, valid.loads, ok_bind] at written
  rw [require_bind_eq_ok, require_bind_eq_ok, require_bind_eq_ok, require_bind_eq_ok] at written
  obtain ⟨-, nextText, ready, -, admitted, ordered, written⟩ := written
  rw [bind_eq_ok] at written
  obtain ⟨new, listed, written⟩ := written
  rw [require_bind_eq_ok, pure_eq_ok, decide_eq_true_eq, valid.counted] at written
  obtain ⟨room, rfl⟩ := written
  rw [Bool.and_eq_true, List.isEmpty_iff, beq_iff_eq] at ready
  rw [Bool.and_eq_true, distinctIds, decide_eq_true_eq] at ordered
  rw [List.all_eq_true] at admitted
  have idle := ready.1
  obtain ⟨cursor, finished⟩ := valid.paged_of_idle idle
  have before : Linear done := valid.linear.of_append
  obtain ⟨continued, filtered, known⟩ := newOperations_eq_ok valid.describes before listed
  have within : ∀ operation ∈ new, operation ∈ page.operations := by
    intro operation member
    rw [filtered] at member
    exact (List.mem_filter.mp member).1
  have fresh : ∀ operation ∈ new,
      operation.operationId ∉ done.map (·.operationId) := by
    intro operation member
    rw [filtered, List.mem_filter, Option.isNone_iff_eq_none, valid.lookup_eq_none] at member
    exact member.2
  have distinct : (new.map (·.operationId)).Nodup := by
    rw [filtered]
    exact ordered.2.sublist (List.filter_sublist.map _)
  have keptBefore := valid.distinct
  rw [idle, List.append_nil] at keptBefore
  refine
    { describes := ?_, linear := ?_, distinct := ?_, admitted := ?_, receipts := ?_,
      counted := ?_, room := ?_, marked := rfl, cursors := ?_, complete := ?_, paged := ?_ }
  · exact valid.describes
  · exact continued
  · rw [List.map_append, List.nodup_append]
    refine ⟨keptBefore, distinct, ?_⟩
    rintro identity earlier other member rfl
    obtain ⟨operation, listed, same⟩ := List.mem_map.mp member
    exact fresh operation listed (same ▸ earlier)
  · intro operation member
    rcases List.mem_append.mp member with member | member
    · exact valid.admitted operation (List.mem_append_left _ member)
    · exact admitted operation (within operation member)
  · exact valid.receipts
  · exact valid.counted
  · rwa [List.length_append]
  · refine ⟨?_, nextText⟩
    split
    · exact nextText
    · exact valid.cursors.1
  · intro other member operation listed
    rcases List.mem_append.mp member with member | member
    · obtain ⟨kept, held, same⟩ := valid.complete other member operation listed
      rw [idle, List.append_nil] at held
      exact ⟨kept, List.mem_append_left _ held, same⟩
    · rw [List.mem_singleton.mp member] at listed
      by_cases now : operation ∈ new
      · exact ⟨operation, List.mem_append_right _ now, rfl, rfl⟩
      · obtain ⟨kept, held, same⟩ := valid.exists_of_lookup (known operation listed now)
        exact ⟨kept, List.mem_append_left _ held, same⟩
  · cases new with
    | nil =>
      refine ⟨pages ++ [page], [], (List.append_nil _).symm, ?_, ?_, .inl ⟨rfl, rfl⟩⟩
      · rw [List.getLast?_concat]
        rfl
      · intro other member
        rcases List.mem_append.mp member with member | member
        · exact finished other member
        · rw [List.mem_singleton.mp member, isFinished_iff]
          intro operation listed
          obtain ⟨kept, held, same, -⟩ :=
            valid.exists_of_lookup (known operation listed List.not_mem_nil)
          exact List.mem_map.mpr ⟨kept, held, same⟩
    | cons head tail =>
      refine ⟨pages, [page], rfl, cursor, finished, .inr ⟨page, rfl, ?_, rfl, within⟩⟩
      exact List.cons_ne_nil _ _

/-! ## Applying -/

theorem Valid.apply {apply : Operation → Except String Unit} {operation : Operation}
    (valid : Valid library done pages state)
    (written : applyNext library apply state = .ok (some (operation, after))) :
    Valid library (done ++ [operation]) pages after ∧
      state.pending = operation :: after.pending := by
  rw [applyNext, valid.loads, ok_bind] at written
  cases waiting : state.pending with
  | nil =>
    rw [waiting, pure_eq_ok] at written
    cases written
  | cons head remaining =>
    rw [waiting] at written
    dsimp only at written
    rw [bind_eq_ok] at written
    obtain ⟨_, -, written⟩ := written
    rw [bind_eq_ok] at written
    obtain ⟨metadata, advanced, written⟩ := written
    rw [pure_eq_ok, Option.some.injEq, Prod.mk.injEq] at written
    obtain ⟨rfl, rfl⟩ := written
    obtain ⟨-, described⟩ := valid.describes.advance valid.linear.of_append advanced
    have shift : done ++ state.pending =
        done ++ [head] ++ remaining := by
      rw [waiting, List.append_assoc, List.singleton_append]
    have distinct := valid.distinct
    rw [shift] at distinct
    have fresh : head.operationId ∉ done.map (·.operationId) := by
      rw [List.map_append, List.map_append, List.append_assoc, List.nodup_append] at distinct
      exact fun member => distinct.2.2 _ member _ List.mem_cons_self rfl
    refine ⟨?_, rfl⟩
    refine
      { describes := ?_, linear := ?_, distinct := ?_, admitted := ?_, receipts := ?_,
        counted := ?_, room := ?_, marked := rfl, cursors := ?_, complete := ?_, paged := ?_ }
    · exact described
    · exact shift ▸ valid.linear
    · exact distinct
    · exact shift ▸ valid.admitted
    · intro identity
      rw [Dict.lookup_insert_eq, List.find?_append, valid.receipts]
      by_cases same : identity = head.operationId
      · have absent : done.find? (·.operationId == identity) = none := by
          rw [List.find?_eq_none]
          intro other member equal
          apply fresh
          rw [← same, ← beq_iff_eq.mp equal]
          exact List.mem_map_of_mem member
        rw [if_pos same, absent, same]
        simp
      · rw [if_neg same]
        have other : [head].find? (·.operationId == identity) = none := by
          simpa using Ne.symm same
        rw [other, Option.or_none]
    · rw [Dict.size_insert_of_notMem, valid.counted, List.length_append, List.length_singleton]
      rwa [← Finmap.lookup_eq_none, valid.lookup_eq_none]
    · exact shift ▸ valid.room
    · constructor
      · split
        · exact valid.cursors.2
        · exact valid.cursors.1
      · split
        · rfl
        · exact valid.cursors.2
    · exact shift ▸ valid.complete
    · obtain ⟨finished, open_, paged⟩ := valid.paged
      have grown : ∀ page ∈ finished, page.isFinished (done ++ [head]) = true := by
        intro page member
        have before := paged.finishes page member
        rw [isFinished_iff] at before ⊢
        intro operation listed
        rw [List.map_append]
        exact List.mem_append_left _ (before operation listed)
      rcases paged.waits with ⟨-, idle⟩ | ⟨page, rfl, -, next, within⟩
      · rw [idle] at waiting
        cases waiting
      · cases remaining with
        | nil =>
          refine ⟨finished ++ [page], [], ?_, ?_, ?_, .inl ⟨rfl, rfl⟩⟩
          · rw [List.append_nil]
            exact paged.split
          · rw [List.getLast?_concat]
            exact next.symm
          · intro other member
            rcases List.mem_append.mp member with member | member
            · exact grown other member
            · rw [List.mem_singleton.mp member, isFinished_iff]
              intro operation listed
              have last : page ∈ pages := by
                rw [paged.split]
                exact List.mem_append_right _ (List.mem_singleton_self page)
              obtain ⟨kept, held, same, -⟩ := valid.complete page last operation listed
              rw [shift, List.append_nil] at held
              exact List.mem_map.mpr ⟨kept, held, same⟩
        | cons second rest =>
          refine ⟨finished, [page], paged.split, paged.cursor, grown,
            .inr ⟨page, rfl, List.cons_ne_nil _ _, next, ?_⟩⟩
          intro operation member
          apply within
          rw [waiting]
          exact List.mem_cons_of_mem _ member

/-! ## Runs keep their promises -/

theorem Valid.applies (valid : Valid library done pages state)
    {apply : Operation → Except String Unit}
    (returns : ∀ operation, state.pending.head? = some operation → apply operation = .ok ()) :
    ∃ result, applyNext library apply state = .ok result := by
  rw [applyNext, valid.loads, ok_bind]
  cases waiting : state.pending with
  | nil => exact ⟨none, rfl⟩
  | cons operation remaining =>
    have linear := valid.linear
    rw [waiting, ← List.singleton_append, ← List.append_assoc] at linear
    obtain ⟨metadata, advanced⟩ := valid.describes.advances linear.of_append
    have returned := returns operation (by rw [waiting, List.head?_cons])
    dsimp only
    rw [returned, ok_bind, advanced, ok_bind]
    exact ⟨_, rfl⟩

variable [DecidableEq Digest] {events : List Event}

theorem Valid.step {event : Event} (step : Step library state event after)
    (valid : Valid library (committed events) (staged events) state) :
    Valid library (committed (events ++ [event])) (staged (events ++ [event])) after := by
  rw [committed_concat, staged_concat]
  cases step with
  | stop => simpa [Event.operation?, Event.page?] using valid
  | stage written => simpa [Event.operation?, Event.page?] using valid.stage written
  | apply written => simpa [Event.operation?, Event.page?] using (valid.apply written).1
  | idle => simpa [Event.operation?, Event.page?] using valid

def plainPage : Page := ⟨none, some "page-2", [plainOperation 1 false]⟩

def plainStaged : InboxState Operation :=
  (stagePage plainLibrary plainPage inboxDefault).toOption.getD inboxDefault

def plainApplied : Option (Operation × InboxState Operation) :=
  (applyNext plainLibrary (fun _ => .ok ()) plainStaged).toOption.getD none

theorem plainRun : ∃ state, Run (Step plainLibrary) inboxDefault
    [.staged plainPage, .committed (plainOperation 1 false)] state := by
  have staged : (stagePage plainLibrary plainPage inboxDefault).toOption.isSome = true := by
    decide +kernel
  have returned : (applyNext plainLibrary (fun _ => .ok ()) plainStaged).toOption.isSome = true := by
    decide +kernel
  have head : plainApplied.map (·.1) = some (plainOperation 1 false) := by
    decide +kernel
  rw [Option.map_eq_some_iff] at head
  obtain ⟨⟨operation, state⟩, found, rfl⟩ := head
  have applied := eq_ok_of_isSome returned none
  rw [← plainApplied, found] at applied
  exact ⟨state, .cons (.stage (eq_ok_of_isSome staged inboxDefault)) (.single (.apply applied))⟩

end JobAgg.SyncQueue
