import Mathlib.Data.List.Basic

/-! # Runs of a labelled step relation

A component is given by a relation `Step state event next`. A run strings steps
together and remembers their events; every safety result of this development is
an invariant of one step carried along a run by the lemmas below.
-/

namespace JobAgg

/-- `Run Step initial events final`: the listed events lead, in this order, from
`initial` to `final`. -/
inductive Run {State Event : Type*} (Step : State → Event → State → Prop) :
    State → List Event → State → Prop
  | nil (state : State) : Run Step state [] state
  | cons {current middle final : State} {event : Event} {events : List Event} :
      Step current event middle → Run Step middle events final →
      Run Step current (event :: events) final

namespace Run

variable {State Event : Type*} {Step : State → Event → State → Prop}
  {initial middle final : State} {events later : List Event}

theorem single {event : Event} (step : Step initial event final) :
    Run Step initial [event] final :=
  .cons step (.nil final)

theorem append (first : Run Step initial events middle)
    (second : Run Step middle later final) :
    Run Step initial (events ++ later) final := by
  induction first with
  | nil => exact second
  | cons step _ induction => exact .cons step (induction second)

theorem of_append (run : Run Step initial (events ++ later) final) :
    ∃ middle, Run Step initial events middle ∧ Run Step middle later final := by
  induction events generalizing initial with
  | nil => exact ⟨initial, .nil initial, run⟩
  | cons event events induction =>
    cases run with
    | cons step rest =>
      obtain ⟨middle, first, second⟩ := induction rest
      exact ⟨middle, .cons step first, second⟩

theorem of_concat {event : Event} (run : Run Step initial (events ++ [event]) final) :
    ∃ before, Run Step initial events before ∧ Step before event final := by
  obtain ⟨before, first, last⟩ := run.of_append
  cases last with
  | cons step rest =>
    cases rest
    exact ⟨before, first, step⟩

theorem invariant (run : Run Step initial events final) (holds : State → Prop)
    (preserved : ∀ state event next, Step state event next → holds state → holds next)
    (initially : holds initial) : holds final := by
  induction run with
  | nil => exact initially
  | cons step _ induction => exact induction (preserved _ _ _ step initially)

/-- The same for runs whose events are restricted: a step has to keep the
property only under an event the run may contain. -/
theorem invariant_of_forall (run : Run Step initial events final)
    (admitted : Event → Prop) (holds : State → Prop)
    (preserved : ∀ state event next, admitted event → Step state event next →
      holds state → holds next)
    (allAdmitted : ∀ event ∈ events, admitted event)
    (initially : holds initial) : holds final := by
  induction run with
  | nil => exact initially
  | cons step _ induction =>
    have headAdmitted := allAdmitted _ List.mem_cons_self
    have tailAdmitted := fun event member =>
      allAdmitted event (List.mem_cons_of_mem _ member)
    exact induction tailAdmitted (preserved _ _ _ headAdmitted step initially)

theorem invariant_history (run : Run Step initial events final)
    (holds : List Event → State → Prop)
    (preserved : ∀ past state event next, Step state event next →
      holds past state → holds (past ++ [event]) next)
    (initially : holds [] initial) : holds events final := by
  suffices extended : ∀ past, holds past initial → holds (past ++ events) final by
    simpa using extended [] initially
  clear initially
  induction run with
  | nil => intro past holdsPast; simpa using holdsPast
  | cons step _ induction =>
    intro past holdsPast
    simpa using induction _ (preserved past _ _ _ step holdsPast)

theorem flatMap {Finer : Type*} {FinerStep : State → Finer → State → Prop}
    {expand : Event → List Finer} (run : Run Step initial events final)
    (refined : ∀ state event next, Step state event next →
      Run FinerStep state (expand event) next) :
    Run FinerStep initial (events.flatMap expand) final := by
  induction run with
  | nil state => exact .nil state
  | cons step _ induction => exact (refined _ _ _ step).append induction

end Run

end JobAgg
