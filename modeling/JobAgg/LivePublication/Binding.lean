import JobAgg.Foundation.Run
import JobAgg.LivePublication.Outcomes

/-! # Which generation a request binds

Requests are generated one after the other, each runs once, and unfinished generations are
finished by recovery calls, under one clock. Every call may stop between any two steps.
-/

namespace JobAgg.LivePublication

open Durable

variable {library : Library} {journal : Journal} {plan : Plan} {gate : Gate} {call : Call}

/-- The gate stays, or moves on within its generation. -/
def Continues (work : Work) (before after : Journal) : Prop :=
  ∀ new, after.gate = some new → ∃ old, before.gate = some old ∧ new.planPath = old.planPath ∧
    new.requestIdentitySha256 = old.requestIdentitySha256 ∧
    ∀ receipt, new.receipt = some receipt →
      old.receipt = some receipt ∨ receipt.completedAt = work.completedAt

/-- The gate of a new generation. -/
def Installs (call : Call) (after : Journal) : Prop :=
  ∃ new, after.gate = some new ∧ new.planPath = planPath call.root ∧
    new.requestIdentitySha256 = call.requestIdentity ∧ new.receipt = none

def Advances (call : Call) (before after : Journal) : Prop :=
  Continues call.work before after ∨ Installs call after

theorem Continues.refl {work : Work} {after : Journal} (same : after.gate = journal.gate) :
    Continues work journal after := by
  intro new found
  exact ⟨new, by rw [← same, found], rfl, rfl, fun _ => .inl⟩

theorem continues_finishGeneration {work : Work} (current : journal.gate = some gate) :
    Meets (finishGeneration plan gate work) journal (Continues work) Whatever Anything := by
  apply Meets.bind
  apply Meets.examine _ fun _ _ => trivial
  intro finished _
  cases finished with
  | false => exact .pure trivial
  | true =>
    apply Meets.bind
    apply Meets.write
    · rintro _ ⟨⟩
      exact ⟨gate, current, rfl, rfl, fun _ => .inl⟩
    apply Meets.bind
    apply Meets.examine _ fun _ _ => trivial
    intro exported _
    cases exported with
    | some reason => exact .pure trivial
    | none =>
      apply Meets.bind
      apply Meets.examine _ fun _ _ => trivial
      intro boundary _
      apply Meets.bind
      apply Meets.examine _ fun _ _ => trivial
      intro root _
      apply Meets.bind
      apply Meets.write
      · exact .refl rfl
      apply Meets.bind
      apply Meets.write
      · rintro _ ⟨⟩
        refine ⟨_, rfl, rfl, rfl, ?_⟩
        rintro _ ⟨⟩
        exact .inr rfl
      exact .pure trivial

theorem advances_startGeneration :
    Meets (startGeneration library call plan) journal (Advances call) Whatever Anything := by
  unfold startGeneration
  split
  · exact .pure trivial
  · split
    · exact .pure trivial
    · split
      · exact .pure trivial
      · apply Meets.bind
        apply Meets.bind
        apply Meets.examine _ fun _ _ => trivial
        intro _ _
        apply Meets.bind
        apply Meets.write
        · exact .inl (.refl rfl)
        apply Meets.pure
        split
        · exact .pure trivial
        · apply Meets.bind
          apply Meets.write
          · exact .inr ⟨_, rfl, rfl, rfl, rfl⟩
          apply (continues_finishGeneration rfl).mono _ (fun _ _ => id) fun _ _ => id
          exact fun _ _ => .inl

theorem advances_planGeneration :
    Meets (planGeneration library call) journal (Advances call) Whatever Anything := by
  apply Meets.bind
  apply Meets.examine _ fun _ _ => trivial
  intro plan _
  exact advances_startGeneration

theorem continues_recoverGeneration (current : journal.gate = some gate) :
    Meets (recoverGeneration library call gate) journal (Continues call.work) Whatever
      Anything := by
  unfold recoverGeneration
  split
  · apply Meets.bind
    apply Meets.examine _ fun _ _ => trivial
    intro plan _
    exact continues_finishGeneration current
  · exact .pure trivial

theorem advances_publishIncremental :
    Meets (publishIncremental library call) journal (Advances call) Whatever Anything := by
  apply meets_publishing
  cases current : journal.gate with
  | none => exact advances_planGeneration
  | some gate =>
    by_cases complete : gate.state == "complete"
    · rw [publishGeneration, if_pos complete]
      exact advances_planGeneration
    · rw [publishGeneration, if_neg complete]
      apply (continues_recoverGeneration current).mono _ (fun _ _ => id) fun _ _ => id
      exact fun _ _ => .inl

theorem continues_publishIncremental (met : journal.Met gate) :
    Meets (publishIncremental library call) journal (Continues call.work) Whatever
      Anything := by
  apply meets_publishing
  rw [met.1, publishGeneration, if_neg (by simpa using met.2)]
  exact continues_recoverGeneration met.1

/-! ## Requests and their calls -/

/-- What has happened on an output directory: the journal, the clock, the requests
generated and run so far, the request each plan was prepared for, and every journal
there was. -/
structure Moment where
  journal : Journal
  clock : Int
  requests : List Fields
  ran : List Fields
  owner : String → Option Fields
  visited : List Journal

namespace Moment

def Installed (moment : Moment) (request : Fields) : Prop :=
  ∃ state ∈ moment.visited, ∃ gate, state.gate = some gate ∧
    moment.owner gate.planPath = some request

structure Unused (moment : Moment) (path : String) : Prop where
  plan : moment.journal.plans path = none
  owner : moment.owner path = none
  gate : ∀ state ∈ moment.visited, ∀ gate, state.gate = some gate → gate.planPath ≠ path

/-- A call of `publish_incremental` for a request, stopped after `states`. Its readings of
the clock follow each other, and its generation has a name of its own. -/
structure Calls (library : Library) (moment : Moment) (request : Fields) (call : Call)
    (states : List Journal) : Prop where
  generated : request ∈ moment.requests
  identity : call.requestIdentity = some (recoveryIdentity library request)
  executes : call.execute = true
  unused : moment.Unused (planPath call.root)
  created : moment.clock < call.createdAt
  started : call.createdAt < call.startedAt
  completed : call.startedAt < call.work.completedAt
  stopped : Stopped (publishIncremental library call) moment.journal states

def visit (moment : Moment) (states : List Journal) : Moment :=
  { moment with
    journal := states.getLastD moment.journal, visited := moment.visited ++ states }

end Moment

/-- What may happen next. -/
inductive Event
  | generate (request : Fields)
  | run (request : Fields)
  | recover (request : Fields)

/-- A request is generated with an identity of its own and stamped by the clock; it runs
once; an unfinished generation may be finished by a call for any request there is. -/
inductive Step (library : Library) : Moment → Event → Moment → Prop
  | generate {moment : Moment} (request : Fields) (now : Int) :
      moment.clock < now →
      (∀ start, parseTime library request "generated_at" = .ok start → start = now) →
      (∀ other ∈ moment.requests,
        recoveryIdentity library other ≠ recoveryIdentity library request) →
      Step library moment (.generate request)
        { moment with clock := now, requests := request :: moment.requests }
  | run {moment : Moment} (request : Fields) (call : Call) (states : List Journal) (now : Int) :
      moment.Calls library request call states → request ∉ moment.ran → moment.clock ≤ now →
      Step library moment (.run request)
        { moment.visit states with
          clock := now, ran := request :: moment.ran
          owner := Function.update moment.owner (planPath call.root) (some request) }
  | recover {moment : Moment} {gate : Gate} (request : Fields) (call : Call)
      (states : List Journal) (now : Int) :
      moment.Calls library request call states → moment.journal.Met gate → moment.clock ≤ now →
      Step library moment (.recover request) { moment.visit states with clock := now }

/-- An output directory before the first request. Its gate, if any, may lack an identity. -/
structure Opening (library : Library) (moment : Moment) : Prop where
  sound : moment.journal.Sound library
  legacy : ∀ gate, moment.journal.gate = some gate → gate.requestIdentitySha256 = none ∧
    ∀ plan, moment.journal.plans gate.planPath = some plan → plan.createdAt ≤ moment.clock
  requests : moment.requests = []
  ran : moment.ran = []
  owner : moment.owner = fun _ => none
  visited : moment.visited = [moment.journal]

/-! ## The invariant -/

section Invariant

variable {moment : Moment} {request : Fields} {states : List Journal}

/-- A gate from before the first request: its plan is older than every request. -/
structure Legacy (library : Library) (moment : Moment) (gate : Gate) : Prop where
  identity : gate.requestIdentitySha256 = none
  owner : moment.owner gate.planPath = none
  older : ∀ plan, moment.journal.plans gate.planPath = some plan →
    plan.createdAt ≤ moment.clock ∧ ∀ request ∈ moment.requests, ∀ start,
      parseTime library request "generated_at" = .ok start → plan.createdAt < start

def Owned (library : Library) (moment : Moment) (gate : Gate) : Prop :=
  ∃ request ∈ moment.requests, moment.owner gate.planPath = some request ∧
    gate.requestIdentitySha256 = some (recoveryIdentity library request)

structure Valid (library : Library) (moment : Moment) : Prop where
  sound : moment.journal.Sound library
  here : moment.journal ∈ moment.visited
  distinct : ∀ first ∈ moment.requests, ∀ second ∈ moment.requests,
    recoveryIdentity library first = recoveryIdentity library second → first = second
  generated : ∀ request ∈ moment.requests, ∀ start,
    parseTime library request "generated_at" = .ok start → start ≤ moment.clock
  ran : ∀ request ∈ moment.ran, request ∈ moment.requests
  owners : ∀ path request, moment.owner path = some request → request ∈ moment.ran
  gates : ∀ gate, moment.journal.gate = some gate →
    Legacy library moment gate ∨ Owned library moment gate
  late : ∀ request, moment.Installed request → ∀ start,
    parseTime library request "generated_at" = .ok start → ∀ gate receipt,
    moment.journal.gate = some gate → gate.receipt = some receipt → start < receipt.completedAt

theorem Opening.valid (opening : Opening library moment) : Valid library moment where
  sound := opening.sound
  here := by simp [opening.visited]
  distinct first impossible := by simp [opening.requests] at impossible
  generated request impossible := by simp [opening.requests] at impossible
  ran request impossible := by simp [opening.ran] at impossible
  owners path request impossible := by simp [opening.owner] at impossible
  gates gate current := by
    obtain ⟨absent, older⟩ := opening.legacy gate current
    refine .inl ⟨absent, by rw [opening.owner], fun plan found => ⟨older plan found, ?_⟩⟩
    simp [opening.requests]
  late request installed := by
    obtain ⟨_, _, _, _, owned⟩ := installed
    rw [opening.owner] at owned
    cases owned

theorem Valid.later {now : Int} (valid : Valid library moment) (after : moment.clock ≤ now) :
    Valid library { moment with clock := now } where
  sound := valid.sound
  here := valid.here
  distinct := valid.distinct
  generated request generated start parsed :=
    (valid.generated request generated start parsed).trans after
  ran := valid.ran
  owners := valid.owners
  gates gate current := by
    refine (valid.gates gate current).imp_left fun legacy => ⟨legacy.identity, legacy.owner, ?_⟩
    intro plan found
    exact ⟨(legacy.older plan found).1.trans after, (legacy.older plan found).2⟩
  late := valid.late

theorem Valid.generate {now : Int} (valid : Valid library moment) (after : moment.clock < now)
    (stamped : ∀ start, parseTime library request "generated_at" = .ok start → start = now)
    (different : ∀ other ∈ moment.requests,
      recoveryIdentity library other ≠ recoveryIdentity library request) :
    Valid library { moment with clock := now, requests := request :: moment.requests } where
  sound := valid.sound
  here := valid.here
  distinct first inFirst second inSecond same := by
    rcases List.mem_cons.mp inFirst with rfl | earlier
    · rcases List.mem_cons.mp inSecond with rfl | before
      · rfl
      · exact absurd same.symm (different second before)
    · rcases List.mem_cons.mp inSecond with rfl | before
      · exact absurd same (different first earlier)
      · exact valid.distinct first earlier second before same
  generated other inRequests start parsed := by
    rcases List.mem_cons.mp inRequests with rfl | inRequests
    · exact (stamped start parsed).le
    · exact (valid.generated other inRequests start parsed).trans after.le
  ran other inRan := List.mem_cons_of_mem _ (valid.ran other inRan)
  owners := valid.owners
  gates gate current := by
    rcases valid.gates gate current with legacy | ⟨owner, inRequests, owned, identity⟩
    · refine .inl ⟨legacy.identity, legacy.owner, fun plan found => ?_⟩
      obtain ⟨before, older⟩ := legacy.older plan found
      refine ⟨before.trans after.le, fun other inRequests start parsed => ?_⟩
      rcases List.mem_cons.mp inRequests with rfl | inRequests
      · rw [stamped start parsed]
        exact before.trans_lt after
      · exact older other inRequests start parsed
    · exact .inr ⟨owner, List.mem_cons_of_mem _ inRequests, owned, identity⟩
  late := valid.late

def Moment.prepare (moment : Moment) (request : Fields) (path : String) : Moment :=
  { moment with
    ran := request :: moment.ran, owner := Function.update moment.owner path (some request) }

theorem Moment.prepare_owner (moment : Moment) (request : Fields) (path : String) :
    (moment.prepare request path).owner = Function.update moment.owner path (some request) := rfl

theorem Moment.Unused.owner_eq {path : String} {state : Journal} (unused : moment.Unused path)
    (visited : state ∈ moment.visited) (current : state.gate = some gate) :
    (moment.prepare request path).owner gate.planPath = moment.owner gate.planPath :=
  Function.update_of_ne (unused.gate state visited gate current) _ _

theorem Valid.prepare {path : String} (valid : Valid library moment)
    (unused : moment.Unused path) (generated : request ∈ moment.requests) :
    Valid library (moment.prepare request path) where
  sound := valid.sound
  here := valid.here
  distinct := valid.distinct
  generated := valid.generated
  ran other inRan := by
    rcases List.mem_cons.mp inRan with rfl | inRan
    · exact generated
    · exact valid.ran other inRan
  owners other owner owned := by
    by_cases same : other = path
    · rw [same, Moment.prepare_owner, Function.update_self, Option.some.injEq] at owned
      exact List.mem_cons.mpr (.inl owned.symm)
    · rw [Moment.prepare_owner, Function.update_of_ne same] at owned
      exact List.mem_cons_of_mem _ (valid.owners other owner owned)
  gates gate current := by
    have owner : (moment.prepare request path).owner gate.planPath =
        moment.owner gate.planPath := unused.owner_eq valid.here current
    rcases valid.gates gate current with legacy | ⟨holder, inRequests, owned, identity⟩
    · exact .inl ⟨legacy.identity, owner.trans legacy.owner, legacy.older⟩
    · exact .inr ⟨holder, inRequests, owner.trans owned, identity⟩
  late other installed := by
    obtain ⟨state, visited, gate, current, owned⟩ := installed
    rw [unused.owner_eq visited current] at owned
    exact valid.late other ⟨state, visited, gate, current, owned⟩

/-- What a step of a call makes of the gate, with the ghost record of its request. -/
def Follows (library : Library) (moment : Moment) (work : Work) (before after : Journal) :
    Prop :=
  Continues work before after ∨
    ∃ new, after.gate = some new ∧ new.receipt = none ∧ Owned library moment new

theorem Valid.visit {work : Work} {next : Journal} (valid : Valid library moment)
    (moves : Moves library moment.journal next)
    (follows : Follows library moment work moment.journal next)
    (completed : moment.clock < work.completedAt) : Valid library (moment.visit [next]) where
  sound := moves.1
  here := List.mem_append_right _ (List.mem_singleton.mpr rfl)
  distinct := valid.distinct
  generated := valid.generated
  ran := valid.ran
  owners := valid.owners
  gates new current := by
    rcases follows with continues | ⟨installed, found, -, owned⟩
    · obtain ⟨old, before, path, identity, -⟩ := continues new current
      rcases valid.gates old before with legacy | ⟨holder, inRequests, owned, same⟩
      · refine .inl ⟨identity.trans legacy.identity, ?_, fun plan saved => ?_⟩
        · rw [path]
          exact legacy.owner
        · obtain ⟨named, stored, -⟩ := valid.sound old before
          have kept := moves.2 old.planPath named stored.saved
          rw [path] at saved
          cases kept.symm.trans saved
          exact legacy.older _ stored.saved
      · refine .inr ⟨holder, inRequests, ?_, identity.trans same⟩
        rw [path]
        exact owned
    · cases found.symm.trans current
      exact .inr owned
  late request installed start parsed gate receipt current received := by
    have generated : request ∈ moment.requests := by
      obtain ⟨_, _, _, _, owned⟩ := installed
      exact valid.ran _ (valid.owners _ _ owned)
    rcases follows with continues | ⟨new, found, absent, -⟩
    · obtain ⟨old, before, path, -, receipts⟩ := continues gate current
      rcases receipts receipt received with same | now
      · apply valid.late request _ start parsed old receipt before same
        obtain ⟨state, visited, other, at_, owned⟩ := installed
        rcases List.mem_append.mp visited with earlier | last
        · exact ⟨state, earlier, other, at_, owned⟩
        · rw [List.mem_singleton.mp last] at at_
          cases current.symm.trans at_
          refine ⟨moment.journal, valid.here, old, before, ?_⟩
          rw [← path]
          exact owned
      · rw [now]
        exact (valid.generated request generated start parsed).trans_lt completed
    · cases found.symm.trans current
      rw [absent] at received
      cases received

theorem Moment.visit_cons (moment : Moment) (next : Journal) (rest : List Journal) :
    moment.visit (next :: rest) = (moment.visit [next]).visit rest := by
  simp only [Moment.visit, List.getLastD_cons, List.append_assoc, List.singleton_append,
    List.getLastD_nil]

theorem Valid.visits {work : Work} (valid : Valid library moment)
    (chain : List.IsChain (Moves library) (moment.journal :: states))
    (follows : List.IsChain (Follows library moment work) (moment.journal :: states))
    (completed : moment.clock < work.completedAt) : Valid library (moment.visit states) := by
  induction states generalizing moment with
  | nil => simpa only [Moment.visit, List.getLastD_nil, List.append_nil] using valid
  | cons next rest induction =>
    rw [List.isChain_cons_cons] at chain follows
    rw [Moment.visit_cons]
    exact induction (valid.visit chain.1 follows.1 completed) chain.2 follows.2 completed

theorem keepsPlans_of_moves {journal : Journal}
    (chain : List.IsChain (Moves library) (journal :: states)) :
    KeepsPlans journal (states.getLastD journal) := by
  induction states generalizing journal with
  | nil => exact fun _ _ => id
  | cons next rest induction =>
    rw [List.isChain_cons_cons] at chain
    rw [List.getLastD_cons]
    exact fun path plan found => induction chain.2 path plan (chain.1.2 path plan found)

theorem follows_of_advances {call : Call} {before after : Journal}
    (owner : moment.owner (planPath call.root) = some request)
    (generated : request ∈ moment.requests)
    (identity : call.requestIdentity = some (recoveryIdentity library request))
    (advances : Advances call before after) :
    Follows library moment call.work before after := by
  refine advances.imp_right ?_
  rintro ⟨new, found, path, same, absent⟩
  exact ⟨new, found, absent, request, generated, by rw [path, owner], by rw [same, identity]⟩

theorem Moment.Calls.moves {call : Call} (calls : moment.Calls library request call states)
    (sound : moment.journal.Sound library) :
    List.IsChain (Moves library) (moment.journal :: states) := by
  exact calls.stopped.isChain
    (moves_publishIncremental sound calls.executes calls.unused.plan)

theorem Step.valid {event : Event} {next : Moment} (step : Step library moment event next)
    (valid : Valid library moment) : Valid library next := by
  cases step with
  | generate request now after stamped different => exact valid.generate after stamped different
  | run owner call states now calls first after =>
    have generated := calls.generated
    have prepared := valid.prepare calls.unused generated
    have completed := calls.created.trans (calls.started.trans calls.completed)
    have advances := calls.stopped.isChain advances_publishIncremental
    have visited : Valid library
        ((moment.prepare owner (planPath call.root)).visit states) := by
      apply prepared.visits (calls.moves valid.sound) _ completed
      apply advances.imp
      intro before after
      apply follows_of_advances _ (by exact generated) calls.identity
      rw [Moment.prepare_owner, Function.update_self]
    exact visited.later after
  | recover owner call states now calls met after =>
    have completed := calls.created.trans (calls.started.trans calls.completed)
    have continues := calls.stopped.isChain (continues_publishIncremental met)
    have visited : Valid library (moment.visit states) :=
      valid.visits (calls.moves valid.sound) (continues.imp fun _ _ => .inl) completed
    exact visited.later after

theorem planPath_of_advances {call : Call} {journal : Journal}
    (chain : List.IsChain (Advances call) (journal :: states)) :
    ∀ state ∈ states, ∀ gate, state.gate = some gate →
      (∃ old, journal.gate = some old ∧ gate.planPath = old.planPath) ∨
        gate.planPath = planPath call.root := by
  induction states generalizing journal with
  | nil =>
    intro state absent
    cases absent
  | cons next rest induction =>
    rw [List.isChain_cons_cons] at chain
    have first : ∀ gate, next.gate = some gate →
        (∃ old, journal.gate = some old ∧ gate.planPath = old.planPath) ∨
          gate.planPath = planPath call.root := by
      intro gate current
      rcases chain.1 with continues | ⟨new, found, path, -⟩
      · obtain ⟨old, before, path, -⟩ := continues gate current
        exact .inl ⟨old, before, path⟩
      · cases found.symm.trans current
        exact .inr path
    intro state inStates gate current
    cases inStates with
    | head => exact first gate current
    | tail _ inRest =>
      rcases induction chain.2 state inRest gate current with ⟨old, found, path⟩ | own
      · rw [path]
        exact first old found
      · exact .inr own

theorem Moment.Unused.installed {path : String} (unused : moment.Unused path)
    {owner : Fields} (installed : moment.Installed owner) :
    (moment.prepare request path).Installed owner := by
  obtain ⟨state, visited, gate, current, owned⟩ := installed
  exact ⟨state, visited, gate, current, (unused.owner_eq visited current).trans owned⟩

theorem Step.installed {event : Event} {next : Moment} (step : Step library moment event next)
    (installed : moment.Installed request) : next.Installed request := by
  cases step with
  | generate other now after stamped different => exact installed
  | run owner call states now calls first after =>
    obtain ⟨state, visited, gate, current, owned⟩ := calls.unused.installed installed
    exact ⟨state, List.mem_append_left _ visited, gate, current, owned⟩
  | recover owner call states now calls met after =>
    obtain ⟨state, visited, gate, current, owned⟩ := installed
    exact ⟨state, List.mem_append_left _ visited, gate, current, owned⟩

theorem Moment.Calls.planPath {call : Call} {owner : Fields} {state : Journal}
    (calls : moment.Calls library owner call states) (here : moment.journal ∈ moment.visited)
    (visited : state ∈ moment.visited ++ states) (current : state.gate = some gate) :
    (∃ earlier ∈ moment.visited, ∃ old, earlier.gate = some old ∧ gate.planPath = old.planPath) ∨
      gate.planPath = planPath call.root := by
  rcases List.mem_append.mp visited with earlier | last
  · exact .inl ⟨state, earlier, gate, current, rfl⟩
  · have advances := calls.stopped.isChain advances_publishIncremental
    refine (planPath_of_advances advances state last gate current).imp_left ?_
    rintro ⟨old, before, same⟩
    exact ⟨moment.journal, here, old, before, same⟩

theorem Step.installed_of_ran {event : Event} {next : Moment}
    (step : Step library moment event next) (valid : Valid library moment)
    (ran : request ∈ moment.ran) (installed : next.Installed request) :
    moment.Installed request := by
  cases step with
  | generate other now after stamped different => exact installed
  | run owner call states now calls first after =>
    obtain ⟨state, visited, gate, current, owned⟩ := installed
    rcases calls.planPath valid.here visited current with
      ⟨earlier, inVisited, old, before, same⟩ | own
    · refine ⟨earlier, inVisited, old, before, ?_⟩
      rw [← calls.unused.owner_eq inVisited before, ← same]
      exact owned
    · have mine : (moment.prepare owner (planPath call.root)).owner gate.planPath =
          some owner := by
        rw [own, Moment.prepare_owner, Function.update_self]
      cases mine.symm.trans owned
      exact absurd ran first
  | recover owner call states now calls met after =>
    obtain ⟨state, visited, gate, current, owned⟩ := installed
    rcases calls.planPath valid.here visited current with
      ⟨earlier, inVisited, old, before, same⟩ | own
    · refine ⟨earlier, inVisited, old, before, ?_⟩
      rw [← same]
      exact owned
    · rw [own] at owned
      cases calls.unused.owner.symm.trans owned

theorem Step.ran {event : Event} {next : Moment} (step : Step library moment event next)
    (ran : request ∈ moment.ran) : request ∈ next.ran := by
  cases step with
  | generate other now after stamped different => exact ran
  | run owner call states now calls first after => exact List.mem_cons_of_mem _ ran
  | recover owner call states now calls met after => exact ran

theorem Step.requests {event : Event} {next : Moment} (step : Step library moment event next)
    (generated : request ∈ moment.requests) : request ∈ next.requests := by
  cases step with
  | generate other now after stamped different => exact List.mem_cons_of_mem _ generated
  | run owner call states now calls first after => exact generated
  | recover owner call states now calls met after => exact generated

theorem Step.keepsPlans {event : Event} {next : Moment}
    (step : Step library moment event next) (valid : Valid library moment) :
    KeepsPlans moment.journal next.journal := by
  cases step with
  | generate other now after stamped different => exact fun _ _ => id
  | run owner call states now calls first after =>
    exact keepsPlans_of_moves (calls.moves valid.sound)
  | recover owner call states now calls met after =>
    exact keepsPlans_of_moves (calls.moves valid.sound)

end Invariant

section Runs

variable {opening earlier later : Moment} {request : Fields} {past events : List Event}
  {database outputDir stateDir : String} {held : Bool}
  {authorized : Option ExpiredAuthorization} {binding : Binding}

theorem Opening.valid_of_run (opens : Opening library opening)
    (run : Run (Step library) opening past later) : Valid library later :=
  run.invariant (Valid library) (fun _ _ _ step valid => step.valid valid) opens.valid

theorem installed_of_run (run : Run (Step library) earlier events later)
    (installed : earlier.Installed request) : later.Installed request :=
  run.invariant (fun moment => moment.Installed request)
    (fun _ _ _ step before => step.installed before) installed

theorem installed_before (run : Run (Step library) earlier events later)
    (valid : Valid library earlier) (ran : request ∈ earlier.ran)
    (installed : later.Installed request) : earlier.Installed request := by
  have holds := run.invariant
    (fun moment => Valid library moment ∧ request ∈ moment.ran ∧
      (moment.Installed request → earlier.Installed request))
    (fun _ _ _ step before => ⟨step.valid before.1, step.ran before.2.1, fun after =>
      before.2.2 (step.installed_of_ran before.1 before.2.1 after)⟩)
    ⟨valid, ran, id⟩
  exact holds.2.2 installed

theorem keepsPlans_of_run (run : Run (Step library) earlier events later)
    (valid : Valid library earlier) : KeepsPlans earlier.journal later.journal := by
  have holds := run.invariant
    (fun moment => Valid library moment ∧ KeepsPlans earlier.journal moment.journal)
    (fun _ _ _ step before => ⟨step.valid before.1, fun path plan found =>
      step.keepsPlans before.1 path plan (before.2 path plan found)⟩)
    ⟨valid, fun _ _ => id⟩
  exact holds.2

/-- The gate is a generation whose plan was prepared for a request. -/
def Moment.Binds (moment : Moment) (request : Fields) (binding : Binding) : Prop :=
  ∃ gate, moment.journal.gate = some gate ∧ gate.generationId = binding.generationId ∧
    moment.owner gate.planPath = some request

theorem Valid.binds (valid : Valid library earlier) (generated : request ∈ earlier.requests)
    (captured : captureRecoveryGeneration library request database outputDir stateDir held
      authorized earlier.journal = .ok binding) : earlier.Binds request binding := by
  obtain ⟨gate, plan, evidence⟩ := captureRecoveryGeneration_eq_ok captured
  refine ⟨gate, evidence.documents.current, evidence.generationId.symm, ?_⟩
  rcases valid.gates gate evidence.documents.current with
    legacy | ⟨owner, inRequests, owned, identity⟩
  · obtain ⟨start, parsed, after⟩ := evidence.generated
    have older := (legacy.older plan evidence.documents.saved).2 request generated start parsed
    exact absurd after (not_le.mpr older)
  · rcases evidence.ownership with same | absent
    · have equal := valid.distinct owner inRequests request generated
        (Option.some.inj (identity.symm.trans same))
      rw [← equal]
      exact owned
    · cases identity.symm.trans absent

theorem Moment.Binds.installed (valid : Valid library earlier)
    (binds : earlier.Binds request binding) : earlier.Installed request := by
  obtain ⟨gate, current, -, owned⟩ := binds
  exact ⟨earlier.journal, valid.here, gate, current, owned⟩

theorem Valid.unstarted {gate : Gate} (valid : Valid library earlier)
    (captured : captureUnstartedPublication library request stateDir held earlier.journal =
      .ok gate) : ¬ earlier.Installed request := by
  intro installed
  obtain ⟨current, start, receipt, parsed, received, before⟩ :=
    captureUnstartedPublication_eq_ok captured
  have late := valid.late request installed start parsed gate receipt current received
  exact lt_asymm before late

def ResultOf (earlier later : Moment) (request : Fields) (binding : Binding) (result : Gate) :
    Prop :=
  ∃ gate plan, earlier.journal.gate = some gate ∧ earlier.owner gate.planPath = some request ∧
    earlier.journal.plans gate.planPath = some plan ∧
    gate.generationId = binding.generationId ∧ later.journal.gate = some result ∧
    result.generationId = gate.generationId ∧ result.planPath = gate.planPath ∧
    result.planSha256 = gate.planSha256 ∧ later.journal.plans result.planPath = some plan ∧
    ∃ receipt, result.receipt = some receipt ∧ receipt.status = "published" ∧
      receipt.processedUnits = plan.processedUnits

theorem resultOf_of_validated {recovering : Fields} {given : Binding} {result : Gate}
    {elsewhere output state : String} (run : Run (Step library) earlier events later)
    (valid : Valid library earlier) (after : Valid library later)
    (generated : request ∈ earlier.requests)
    (captured : captureRecoveryGeneration library request database outputDir stateDir held
      authorized earlier.journal = .ok binding)
    (validated : validateRecoveryGeneration library recovering (some binding) elsewhere output
      state later.journal = .ok (given, some result)) :
    ResultOf earlier later request binding result := by
  obtain ⟨gate, current, same, owned⟩ := valid.binds generated captured
  obtain ⟨bound, plan, evidence⟩ := captureRecoveryGeneration_eq_ok captured
  cases current.symm.trans evidence.documents.current
  obtain ⟨⟨⟩, other, named, shown⟩ := validateRecoveryGeneration_eq_ok validated
  have complete : other.state = "complete" ∧ result = other := by
    have completed := shown.completed
    split at completed
    · exact ⟨by assumption, Option.some.inj completed⟩
    · cases completed
  obtain ⟨complete, rfl⟩ := complete
  have path : result.planPath = gate.planPath := shown.planPath.trans evidence.planPath
  have kept := keepsPlans_of_run run valid gate.planPath plan evidence.documents.saved
  rw [← path] at kept
  obtain ⟨found, saved, receipted⟩ := after.sound result shown.documents.current
  cases kept.symm.trans saved.saved
  refine ⟨gate, plan, current, owned, evidence.documents.saved, same, shown.documents.current,
    shown.generationId.trans same.symm, path, shown.planSha256.trans evidence.planSha256, kept,
    receipted complete⟩

/-- At every moment, (a) a first binding names a generation prepared for its request, (b) a
request found unstarted never had a generation in the gate, (c) no request that ran is both
bound and found unstarted, and (d) a bound request gets the result of its generation only. -/
theorem recovery_binds_own_generation (opens : Opening library opening)
    (reaches : Run (Step library) opening past earlier)
    (onward : Run (Step library) earlier events later) (generated : request ∈ earlier.requests) :
    (∀ database outputDir stateDir held authorized binding,
      captureRecoveryGeneration library request database outputDir stateDir held authorized
        earlier.journal = .ok binding → earlier.Binds request binding) ∧
    (∀ stateDir held gate,
      captureUnstartedPublication library request stateDir held earlier.journal = .ok gate →
      ¬ earlier.Installed request) ∧
    (∀ database outputDir stateDir held authorized binding unstartedDir unstartedHeld gate,
      (captureRecoveryGeneration library request database outputDir stateDir held authorized
          earlier.journal = .ok binding →
        captureUnstartedPublication library request unstartedDir unstartedHeld later.journal ≠
          .ok gate) ∧
      (request ∈ earlier.ran →
        captureUnstartedPublication library request unstartedDir unstartedHeld
            earlier.journal = .ok gate →
          captureRecoveryGeneration library request database outputDir stateDir held authorized
            later.journal ≠ .ok binding)) ∧
    ∀ database outputDir stateDir held authorized binding recovering elsewhere output state
        given result,
      captureRecoveryGeneration library request database outputDir stateDir held authorized
        earlier.journal = .ok binding →
      validateRecoveryGeneration library recovering (some binding) elsewhere output state
        later.journal = .ok (given, some result) →
      ResultOf earlier later request binding result := by
  have valid := opens.valid_of_run reaches
  have after := opens.valid_of_run (reaches.append onward)
  have still : request ∈ later.requests :=
    onward.invariant (fun moment => request ∈ moment.requests)
      (fun _ _ _ step before => step.requests before) generated
  refine ⟨fun _ _ _ _ _ _ => valid.binds generated, fun _ _ _ => valid.unstarted, ?_, ?_⟩
  · intro database outputDir stateDir held authorized binding unstartedDir unstartedHeld gate
    constructor
    · intro captured unstarted
      have installed := (valid.binds generated captured).installed valid
      exact after.unstarted unstarted (installed_of_run onward installed)
    · intro ran unstarted captured
      have installed := (after.binds still captured).installed after
      exact valid.unstarted unstarted (installed_before onward valid ran installed)
  · intro database outputDir stateDir held authorized binding recovering elsewhere output state
      given result captured validated
    exact resultOf_of_validated onward valid after generated captured validated

/-! ## A request that is stopped and recovered -/

def plainOpening : Moment := ⟨emptyJournal, -1, [], [], fun _ => none, [emptyJournal]⟩

theorem plainOpening_opening : Opening plainLibrary plainOpening where
  sound _ impossible := by cases impossible
  legacy _ impossible := by cases impossible
  requests := rfl
  ran := rfl
  owner := rfl
  visited := rfl

def plainCall (uuid : String) (start : Int) : Call :=
  { (plainRun "/worker.sqlite3" uuid).call plainLibrary "/worker.sqlite3" with
    createdAt := start + 1, startedAt := start + 2
    work := { (plainRun "/worker.sqlite3" uuid).work with completedAt := start + 3 } }

/-- What a call leaves before it is stopped. -/
def plainStates (uuid : String) (start : Int) (steps : Nat) (journal : Journal) : List Journal :=
  (publishIncremental plainLibrary (plainCall uuid start) journal).later.take steps

def plainGenerated : Moment :=
  { plainOpening with clock := 0, requests := [plainRequest "/worker.sqlite3"] }

def plainStopped : Moment :=
  let states := plainStates "00000000000000000000000000000001" 0 2 emptyJournal
  { plainGenerated.visit states with
    clock := 10, ran := [plainRequest "/worker.sqlite3"]
    owner := Function.update plainGenerated.owner
      (planPath (plainCall "00000000000000000000000000000001" 0).root)
      (some (plainRequest "/worker.sqlite3")) }

def plainRecovered : Moment :=
  { plainStopped.visit
      (plainStates "00000000000000000000000000000002" 10 9 plainStopped.journal) with
    clock := 20 }

theorem plainMoment_unused {moment : Moment} {path : String}
    (plan : (moment.journal.plans path).isNone) (owner : (moment.owner path).isNone)
    (gates : ∀ state ∈ moment.visited, state.gate.map Gate.planPath ≠ some path) :
    moment.Unused path where
  plan := Option.isNone_iff_eq_none.mp plan
  owner := Option.isNone_iff_eq_none.mp owner
  gate state visited gate current same := by
    apply gates state visited
    rw [current, Option.map_some, same]

theorem plainGenerated_step :
    Step plainLibrary plainOpening (.generate (plainRequest "/worker.sqlite3")) plainGenerated := by
  have read : parseTime plainLibrary (plainRequest "/worker.sqlite3") "generated_at" = .ok 0 := by
    decide
  refine .generate _ 0 (by decide) (fun start parsed => ?_) fun other impossible => ?_
  · exact Except.ok.inj (parsed.symm.trans read)
  · cases impossible

theorem plainStopped_step :
    Step plainLibrary plainGenerated (.run (plainRequest "/worker.sqlite3")) plainStopped := by
  refine .run _ (plainCall "00000000000000000000000000000001" 0)
    (plainStates "00000000000000000000000000000001" 0 2 emptyJournal) 10
    ⟨List.mem_singleton.mpr rfl, rfl, rfl, ?_, by decide, by decide, by decide,
      List.take_prefix 2 _⟩ (List.not_mem_nil) (by decide)
  exact plainMoment_unused rfl rfl (by decide)

theorem plainRecovered_step :
    Step plainLibrary plainStopped (.recover (plainRequest "/worker.sqlite3")) plainRecovered := by
  have unfinished : plainStopped.journal.gate.map Gate.state = some "publishing" := by
    decide
  cases current : plainStopped.journal.gate with
  | none =>
    rw [current] at unfinished
    cases unfinished
  | some gate =>
    rw [current, Option.map_some, Option.some.injEq] at unfinished
    have met : plainStopped.journal.Met gate := ⟨current, by rw [unfinished]; decide⟩
    refine .recover _ (plainCall "00000000000000000000000000000002" 10)
      (plainStates "00000000000000000000000000000002" 10 9 plainStopped.journal) 20
      ⟨List.mem_singleton.mpr rfl, rfl, rfl, ?_, by decide, by decide, by decide,
        List.take_prefix 9 _⟩ met (by decide)
    exact plainMoment_unused (by decide) (by decide) (by decide)

/-- The request binds its generation when it is stopped and gets the result of it. -/
theorem recovery_binds_plain : ∃ binding result,
    captureRecoveryGeneration plainLibrary (plainRequest "/worker.sqlite3") "/worker.sqlite3"
      "/live" "/state" true none plainStopped.journal = .ok binding ∧
    validateRecoveryGeneration plainLibrary (plainRequest "/worker.sqlite3") (some binding)
      "/worker.sqlite3" "/live" "/state" plainRecovered.journal = .ok (binding, some result) ∧
    plainStopped.Binds (plainRequest "/worker.sqlite3") binding ∧
    ResultOf plainStopped plainRecovered (plainRequest "/worker.sqlite3") binding result := by
  have ends : ((captureRecoveryGeneration plainLibrary (plainRequest "/worker.sqlite3")
      "/worker.sqlite3" "/live" "/state" true none plainStopped.journal).toOption.bind
        fun binding => (validateRecoveryGeneration plainLibrary (plainRequest "/worker.sqlite3")
          (some binding) "/worker.sqlite3" "/live" "/state"
            plainRecovered.journal).toOption.bind Prod.snd).isSome := by
    decide
  have captures := recovery_binds_own_generation plainOpening_opening
    (.cons plainGenerated_step (.single plainStopped_step)) (.single plainRecovered_step)
    (show plainRequest "/worker.sqlite3" ∈ plainStopped.requests from
      List.mem_singleton.mpr rfl)
  cases captured : captureRecoveryGeneration plainLibrary (plainRequest "/worker.sqlite3")
      "/worker.sqlite3" "/live" "/state" true none plainStopped.journal with
  | error message =>
    rw [captured] at ends
    cases ends
  | ok binding =>
    cases validated : validateRecoveryGeneration plainLibrary
        (plainRequest "/worker.sqlite3") (some binding) "/worker.sqlite3" "/live" "/state"
        plainRecovered.journal with
    | error message =>
      simp only [captured, validated, Except.toOption, Option.bind_some,
        Option.bind_none] at ends
      cases ends
    | ok validation =>
      obtain ⟨given, completed⟩ := validation
      cases completed with
      | none =>
        simp only [captured, validated, Except.toOption, Option.bind_some] at ends
        cases ends
      | some result =>
        obtain ⟨same, -⟩ := validateRecoveryGeneration_eq_ok validated
        cases same
        exact ⟨binding, result, rfl, validated, captures.1 _ _ _ _ _ _ captured,
          captures.2.2.2 _ _ _ _ _ _ _ _ _ _ _ _ captured validated⟩

end Runs

end JobAgg.LivePublication
