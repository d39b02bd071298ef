import Mathlib.Data.List.Chain

/-! # Computations on durable state that may be stopped

A computation reads a state, replaces it step by step, and returns or raises. A stop
between two steps leaves the state of the last step, so a computation is judged by
every pair of states that follow each other, and by how it ends when nothing stops it.
-/

namespace JobAgg

universe u w

/-- The states a computation leaves one after the other, and how it ends. -/
structure Trace (State : Type u) (Result : Type) where
  later : List State
  outcome : Except String Result

def Durable (State : Type u) (Result : Type) : Type u :=
  State → Trace State Result

namespace Durable

variable {State : Type u} {Value Result : Type}

/-- The state a computation from `start` ends in. -/
def final (computation : Durable State Result) (start : State) : State :=
  (computation start).later.getLastD start

instance : Monad (Durable State) where
  pure value := fun _ => ⟨[], .ok value⟩
  bind first next := fun start =>
    match (first start).outcome with
    | .error message => ⟨(first start).later, .error message⟩
    | .ok value =>
      let second := next value ((first start).later.getLastD start)
      ⟨(first start).later ++ second.later, second.outcome⟩

theorem getLastD_append (first second : List State) (start : State) :
    (first ++ second).getLastD start = second.getLastD (first.getLastD start) := by
  cases second with
  | nil => simp
  | cons head tail => simp [List.getLastD_eq_getLast?, List.getLast?_append]

def read (look : State → Value) : Durable State Value :=
  fun start => ⟨[], .ok (look start)⟩

/-- One step that cannot be seen half done. -/
def write (change : State → State) : Durable State Unit :=
  fun start => ⟨[change start], .ok ()⟩

def fail (message : String) : Durable State Value :=
  fun _ => ⟨[], .error message⟩

/-- Raise `message` unless the condition holds. -/
def check (condition : Bool) (message : String) : Durable State Unit :=
  if condition then pure () else fail message

def examine (look : State → Except String Value) : Durable State Value :=
  fun start => ⟨[], look start⟩

def within {Part : Type w} (part : State → Part) (place : Part → State → State)
    (computation : Durable Part Result) : Durable State Result :=
  fun start =>
    ⟨(computation (part start)).later.map (place · start), (computation (part start)).outcome⟩

/-- From `start`, every two states that follow each other are related by `allows`, a
return gives `returns` and a raise gives `raises`, each of the state at the end. -/
def Meets (computation : Durable State Result) (start : State)
    (allows : State → State → Prop) (returns : Result → State → Prop)
    (raises : String → State → Prop) : Prop :=
  List.IsChain allows (start :: (computation start).later) ∧
    match (computation start).outcome with
    | .ok result => returns result (computation.final start)
    | .error message => raises message (computation.final start)

variable {start : State} {allows : State → State → Prop}
  {raises : String → State → Prop}

theorem isChain_append {first second : List State}
    (before : List.IsChain allows (start :: first))
    (after : List.IsChain allows (first.getLastD start :: second)) :
    List.IsChain allows (start :: (first ++ second)) := by
  induction first generalizing start with
  | nil => exact after
  | cons head tail induction =>
    rw [List.isChain_cons_cons] at before
    rw [List.cons_append, List.isChain_cons_cons]
    refine ⟨before.1, induction before.2 ?_⟩
    rwa [List.getLastD_cons] at after

theorem Meets.bind {first : Durable State Value} {next : Value → Durable State Result}
    {returns : Result → State → Prop}
    (meets : Meets first start allows
      (fun value middle => Meets (next value) middle allows returns raises) raises) :
    Meets (first >>= next) start allows returns raises := by
  obtain ⟨chain, ending⟩ := meets
  cases result : (first start).outcome with
  | error message =>
    rw [result] at ending
    have same : (first >>= next) start = ⟨(first start).later, .error message⟩ := by
      simp only [Bind.bind, result]
    rw [Meets, final, same]
    exact ⟨chain, ending⟩
  | ok value =>
    rw [result] at ending
    obtain ⟨rest, rested⟩ := ending
    have same : (first >>= next) start =
        ⟨(first start).later ++ (next value (first.final start)).later,
          (next value (first.final start)).outcome⟩ := by
      simp only [Bind.bind, result, final]
    rw [Meets, final, same]
    refine ⟨isChain_append chain rest, ?_⟩
    rw [getLastD_append]
    exact rested

theorem Meets.pure {value : Result} {returns : Result → State → Prop}
    (returned : returns value start) :
    Meets (Pure.pure value : Durable State Result) start allows returns raises :=
  ⟨.singleton start, returned⟩

theorem Meets.read {look : State → Value} {returns : Value → State → Prop}
    (returned : returns (look start) start) :
    Meets (read look) start allows returns raises :=
  ⟨.singleton start, returned⟩

theorem Meets.write {change : State → State} {returns : Unit → State → Prop}
    (allowed : allows start (change start)) (returned : returns () (change start)) :
    Meets (write change) start allows returns raises :=
  ⟨.cons_cons allowed (.singleton _), returned⟩

theorem Meets.fail {message : String} {returns : Value → State → Prop}
    (raised : raises message start) :
    Meets (fail message) start allows returns raises :=
  ⟨.singleton start, raised⟩

theorem Meets.check {condition : Bool} {message : String} {returns : Unit → State → Prop}
    (holds : condition = true → returns () start)
    (breaks : condition = false → raises message start) :
    Meets (check condition message) start allows returns raises := by
  cases condition with
  | false => exact .fail (breaks rfl)
  | true => exact .pure (holds rfl)

theorem Meets.examine {look : State → Except String Value} {returns : Value → State → Prop}
    (returned : ∀ value, look start = .ok value → returns value start)
    (raised : ∀ message, look start = .error message → raises message start) :
    Meets (examine look) start allows returns raises := by
  refine ⟨.singleton start, ?_⟩
  show match look start with
    | .ok result => returns result start
    | .error message => raises message start
  cases seen : look start with
  | error message => exact raised message seen
  | ok value => exact returned value seen

theorem Meets.examined {look : State → Except String Value} {value : Value}
    {returns : Value → State → Prop} (seen : look start = .ok value)
    (returned : returns value start) :
    Meets (Durable.examine look) start allows returns raises := by
  apply Meets.examine
  · intro other found
    rw [seen] at found
    exact Except.ok.inj found ▸ returned
  · intro message found
    rw [seen] at found
    cases found

theorem Meets.checked {condition : Bool} {message : String} {returns : Unit → State → Prop}
    (holds : condition = true) (returned : returns () start) :
    Meets (Durable.check condition message) start allows returns raises :=
  .check (fun _ => returned) fun breaks => absurd holds (by simp [breaks])

theorem Meets.mono {computation : Durable State Result}
    {returns later : Result → State → Prop} {widened : State → State → Prop}
    {elsewhere : String → State → Prop}
    (meets : Meets computation start allows returns raises)
    (widen : ∀ before after, allows before after → widened before after)
    (returned : ∀ result state, returns result state → later result state)
    (raised : ∀ message state, raises message state → elsewhere message state) :
    Meets computation start widened later elsewhere := by
  obtain ⟨chain, ending⟩ := meets
  refine ⟨chain.imp fun _ _ => widen _ _, ?_⟩
  revert ending
  cases (computation start).outcome with
  | error message => exact raised message _
  | ok result => exact returned result _

theorem Meets.within {Part : Type w} {part : State → Part} {place : Part → State → State}
    {computation : Durable Part Result} {inside : Part → Part → Prop}
    {returns : Result → State → Prop} (same : place (part start) start = start)
    (meets : Meets computation (part start) inside
      (fun result after => returns result (place after start))
      (fun message after => raises message (place after start)))
    (step : ∀ before after, inside before after →
      allows (place before start) (place after start)) :
    Meets (within part place computation) start allows returns raises := by
  obtain ⟨chain, ending⟩ := meets
  have placed : start :: (computation (part start)).later.map (place · start) =
      (part start :: (computation (part start)).later).map (place · start) := by
    rw [List.map_cons, same]
  have last : (Durable.within part place computation).final start =
      place (computation.final (part start)) start := by
    rw [final, final, Durable.within]
    dsimp only
    generalize (computation (part start)).later = later
    cases later using List.reverseRecOn with
    | nil => rw [List.map_nil, List.getLastD_nil, List.getLastD_nil, same]
    | append_singleton front last _ =>
      rw [List.map_append, List.map_singleton, List.getLastD_concat, List.getLastD_concat]
  refine ⟨?_, ?_⟩
  · show List.IsChain allows (start :: (computation (part start)).later.map (place · start))
    rw [placed, List.isChain_map]
    exact chain.imp fun before after => step before after
  · rw [last]
    show match (computation (part start)).outcome with
      | .ok result => returns result _
      | .error message => raises message _
    exact ending

theorem related_of_isChain {related : State → State → Prop} {states : List State}
    (refl : ∀ state, related state state)
    (trans : ∀ {before middle after}, related before middle → related middle after →
      related before after)
    (weaken : ∀ before after, allows before after → related before after)
    (chain : List.IsChain allows (start :: states)) : related start (states.getLastD start) := by
  induction states generalizing start with
  | nil => exact refl start
  | cons next rest induction =>
    rw [List.isChain_cons_cons] at chain
    rw [List.getLastD_cons]
    exact trans (weaken _ _ chain.1) (induction chain.2)

theorem kept_of_isChain {keeps : State → Prop} {states : List State} (begins : keeps start)
    (chain : List.IsChain (fun _ after => keeps after) (start :: states)) :
    keeps (states.getLastD start) := by
  induction states generalizing start with
  | nil => exact begins
  | cons next rest induction =>
    rw [List.isChain_cons_cons] at chain
    rw [List.getLastD_cons]
    exact induction chain.1 chain.2

theorem since_of_isChain {states : List State}
    (trans : ∀ {before middle after}, allows before middle → allows middle after →
      allows before after)
    (chain : List.IsChain allows (start :: states)) : ∀ state ∈ states, allows start state := by
  induction states generalizing start with
  | nil => simp
  | cons next rest induction =>
    rw [List.isChain_cons_cons] at chain
    intro state member
    rcases List.mem_cons.mp member with same | member
    · rw [same]
      exact chain.1
    · exact trans chain.1 (induction chain.2 state member)

theorem Meets.reaches {computation : Durable State Result}
    {returns : Result → State → Prop} {related : State → State → Prop}
    (meets : Meets computation start allows returns raises)
    (refl : ∀ state, related state state)
    (trans : ∀ {before middle after}, related before middle → related middle after →
      related before after)
    (weaken : ∀ before after, allows before after → related before after) :
    Meets computation start allows
      (fun result state => returns result state ∧ related start state) raises := by
  obtain ⟨chain, ending⟩ := meets
  refine ⟨chain, ?_⟩
  revert ending
  cases (computation start).outcome with
  | error message => exact id
  | ok result => exact fun returned => ⟨returned, related_of_isChain refl trans weaken chain⟩

theorem Meets.since {computation : Durable State Result} {returns : Result → State → Prop}
    (meets : Meets computation start allows returns raises)
    (trans : ∀ {before middle after}, allows before middle → allows middle after →
      allows before after) :
    Meets computation start (fun _ after => allows start after) returns raises := by
  refine ⟨?_, meets.2⟩
  have chained := meets.1
  generalize (computation start).later = later at chained
  have each : ∀ (states : List State) (first : State),
      (first = start ∨ allows start first) → List.IsChain allows (first :: states) →
        List.IsChain (fun _ after => allows start after) (first :: states) := by
    intro states
    induction states with
    | nil => exact fun first _ _ => .singleton first
    | cons next rest induction =>
      intro first since chain
      rw [List.isChain_cons_cons] at chain ⊢
      have related : allows start next := by
        rcases since with rfl | since
        · exact chain.1
        · exact trans since chain.1
      exact ⟨related, induction next (.inr related) chain.2⟩
  exact each later start (.inl rfl) chained

theorem Meets.forList {Item : Type w} (body : Item → Durable State Unit)
    (loop : List Item → Durable State Unit) (keeps : List Item → State → Prop)
    (atEnd : loop [] = Pure.pure ())
    (around : ∀ item rest, loop (item :: rest) = (body item >>= fun _ => loop rest))
    (round : ∀ item rest state, keeps (item :: rest) state →
      Meets (body item) state allows (fun _ => keeps rest) raises)
    (items : List Item) (begins : keeps items start) :
    Meets (loop items) start allows (fun _ => keeps []) raises := by
  induction items generalizing start with
  | nil =>
    rw [atEnd]
    exact .pure begins
  | cons item rest induction =>
    rw [around]
    apply Meets.bind
    apply (round item rest start begins).mono
    · exact fun _ _ allowed => allowed
    · exact fun _ state kept => induction kept
    · exact fun _ _ raised => raised

/-- `states` are what a computation has left, oldest first, when it is stopped. -/
def Stopped (computation : Durable State Result) (start : State) (states : List State) : Prop :=
  states <+: (computation start).later

/-- A run from `start` to its end. -/
def Ran (computation : Durable State Result) (start : State) (later : List State)
    (result : Result) : Prop :=
  computation start = ⟨later, .ok result⟩

section Run

variable {first : Durable State Value} {next : Value → Durable State Result}
  {before after : List State} {value : Value} {result : Result}

theorem Ran.bind (ran : Ran first start before value)
    (rest : Ran (next value) (before.getLastD start) after result) :
    Ran (first >>= next) start (before ++ after) result := by
  rw [Ran] at ran rest ⊢
  simp only [Bind.bind, ran, rest]

theorem Ran.of_outcome (outcome : (first start).outcome = .ok value) :
    Ran first start (first start).later value := by
  rw [Ran, ← outcome]

theorem Ran.pure : Ran (Pure.pure result : Durable State Result) start [] result := rfl

theorem Ran.read {look : State → Value} : Ran (Durable.read look) start [] (look start) := rfl

theorem Ran.examine {look : State → Except String Value} (seen : look start = .ok value) :
    Ran (Durable.examine look) start [] value := by
  rw [Ran, Durable.examine, seen]

theorem Ran.check {condition : Bool} {message : String} (holds : condition = true) :
    Ran (Durable.check condition message) start [] () := by
  rw [Ran, Durable.check, if_pos holds]
  rfl

theorem Ran.write {change : State → State} :
    Ran (Durable.write change) start [change start] () := rfl

theorem ran_bind : Ran (first >>= next) start after result ↔
    ∃ before rest value, Ran first start before value ∧
      Ran (next value) (before.getLastD start) rest result ∧ after = before ++ rest := by
  constructor
  · intro ran
    cases ended : (first start).outcome with
    | error message =>
      have same : (first >>= next) start = ⟨(first start).later, .error message⟩ := by
        simp only [Bind.bind, ended]
      rw [Ran, same] at ran
      cases ran
    | ok value =>
      have same : (first >>= next) start =
          ⟨(first start).later ++ (next value ((first start).later.getLastD start)).later,
            (next value ((first start).later.getLastD start)).outcome⟩ := by
        simp only [Bind.bind, ended]
      rw [Ran, same, Trace.mk.injEq] at ran
      refine ⟨(first start).later, _, value, ?_, ?_, ran.1.symm⟩
      · rw [Ran, ← ended]
      · rw [Ran, ← ran.2]
  · rintro ⟨before, rest, value, ran, rested, rfl⟩
    exact ran.bind rested

@[simp] theorem ran_pure {value : Result} {later : List State} :
    Ran (Pure.pure value : Durable State Result) start later result ↔
      later = [] ∧ value = result := by
  rw [Ran]
  simp only [Pure.pure, Trace.mk.injEq, Except.ok.injEq]
  exact and_congr_left fun _ => eq_comm

@[simp] theorem ran_examine {look : State → Except String Value} {later : List State} :
    Ran (Durable.examine look) start later value ↔ later = [] ∧ look start = .ok value := by
  rw [Ran]
  simp only [Durable.examine, Trace.mk.injEq]
  exact and_congr_left fun _ => eq_comm

theorem Ran.stopped (ran : Ran first start before value)
    (rest : Stopped (next value) (before.getLastD start) after) :
    Stopped (first >>= next) start (before ++ after) := by
  rw [Ran] at ran
  have same : ((first >>= next) start).later =
      before ++ (next value (before.getLastD start)).later := by
    simp only [Bind.bind, ran]
  rw [Stopped, same, List.prefix_append_right_inj]
  exact rest

def Raised (computation : Durable State Result) (start : State) (message : String) : Prop :=
  (computation start).outcome = .error message

theorem Raised.bind {message : String} (raised : Raised first start message) :
    Raised (first >>= next) start message := by
  rw [Raised] at raised ⊢
  simp only [Bind.bind, raised]

theorem Ran.raised {message : String} (ran : Ran first start before value)
    (rest : Raised (next value) (before.getLastD start) message) :
    Raised (first >>= next) start message := by
  rw [Ran] at ran
  rw [Raised] at rest ⊢
  simp only [Bind.bind, ran, rest]

theorem Stopped.examine {look : State → Except String Value} (seen : look start = .ok value)
    (rest : Stopped (next value) start after) :
    Stopped (Durable.examine look >>= next) start after :=
  Ran.stopped (.examine seen) rest

theorem Stopped.bind (stopped : Stopped first start before) :
    Stopped (first >>= next) start before := by
  apply stopped.trans
  rw [Bind.bind, instMonad]
  cases ended : (first start).outcome with
  | error message => simp only [ended]; exact List.prefix_rfl
  | ok value => simp only [ended]; exact List.prefix_append _ _

end Run

theorem Stopped.isChain {computation : Durable State Result} {states : List State}
    {returns : Result → State → Prop} (stopped : Stopped computation start states)
    (meets : Meets computation start allows returns raises) :
    List.IsChain allows (start :: states) := by
  obtain ⟨rest, same⟩ := stopped
  have chain := meets.1
  rw [← same, ← List.cons_append] at chain
  exact chain.left_of_append

theorem Meets.ran {computation : Durable State Result} {returns : Result → State → Prop}
    {later : List State} {result : Result}
    (meets : Meets computation start allows returns raises)
    (ran : Ran computation start later result) :
    List.IsChain allows (start :: later) ∧ returns result (later.getLastD start) := by
  have ending := meets.2
  have chain := meets.1
  rw [Ran] at ran
  rw [ran] at chain ending
  rw [final, ran] at ending
  exact ⟨chain, ending⟩

theorem Meets.returned {computation : Durable State Result}
    {returns : Result → State → Prop} {result : Result}
    (meets : Meets computation start allows returns raises)
    (outcome : (computation start).outcome = .ok result) :
    returns result (computation.final start) := by
  have ending := meets.2
  rwa [outcome] at ending

theorem Meets.returns_of_never_raises {computation : Durable State Result}
    {returns : Result → State → Prop}
    (meets : Meets computation start allows returns (fun _ _ => False)) :
    ∃ result, (computation start).outcome = .ok result ∧
      returns result (computation.final start) := by
  have ending := meets.2
  cases outcome : (computation start).outcome with
  | error message =>
    rw [outcome] at ending
    exact ending.elim
  | ok result =>
    rw [outcome] at ending
    exact ⟨result, rfl, ending⟩

end Durable

end JobAgg
