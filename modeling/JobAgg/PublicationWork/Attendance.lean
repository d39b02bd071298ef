import Mathlib.Data.List.Permutation
import JobAgg.PublicationWork.Protocol

/-! # Pending units that a selection attends to

A selection passes over a candidate only where the units chosen before it have used up a bound
of the policy. What is never a candidate is not attended to at all: the pending units of a source
without a path. -/

namespace JobAgg.PublicationWork

/-- The files that a unit is published to -/
def Environment.targetsOf (environment : Environment) (row : CurrentRow) : List String :=
  match environment.path row.sourceId with
  | none => []
  | some path =>
    if path = environment.sharedPath then [path] else [path, environment.sharedPath]

def Environment.unitSize (environment : Environment) (row : CurrentRow) : ℕ :=
  (environment.unitBytes row).toOption.getD 0

/-- Sources, files and bytes of chosen units -/
structure Usage where
  sources : List String := []
  targets : List String := []
  total : ℕ := 0

namespace Usage

variable (environment : Environment)

def added (usage : Usage) (row : CurrentRow) : List String :=
  (environment.targetsOf row).filter fun target => decide (target ∉ usage.targets)

def estimate (usage : Usage) (row : CurrentRow) : ℕ :=
  environment.unitSize row + ((usage.added environment row).map environment.targetBytes).sum

def choose (usage : Usage) (row : CurrentRow) : Usage where
  sources := if row.sourceId ∈ usage.sources then usage.sources
    else usage.sources ++ [row.sourceId]
  targets := usage.targets ++ usage.added environment row
  total := usage.total + usage.estimate environment row

def of (units : List CurrentRow) : Usage :=
  units.foldl (choose environment) {}

end Usage

def UsedUp (policy : AdmissionPolicy) (environment : Environment) (chosen : List CurrentRow)
    (row : CurrentRow) : Prop :=
  let usage := Usage.of environment chosen
  policy.maxUnits ≤ chosen.length ∨
    (row.sourceId ∉ usage.sources ∧ policy.maxSources ≤ usage.sources.length) ∨
    policy.maxTargets < usage.targets.length + (usage.added environment row).length ∨
    policy.maxBytes < usage.total + usage.estimate environment row

def IsHeld (held : List HeldUnit) (row : CurrentRow) : Prop :=
  ∃ entry ∈ held, entry.unit = row.unit ∧ entry.version = row.version ∧ entry.reason ≠ ""

/-- A unit is chosen, held, or passed over after units that left no room for it. -/
def Attended (policy : AdmissionPolicy) (environment : Environment) (chosen : List CurrentRow)
    (held : List HeldUnit) (row : CurrentRow) : Prop :=
  row ∈ chosen ∨ IsHeld held row ∨
    ∃ before, before ≠ [] ∧ before <+: chosen ∧ UsedUp policy environment before row

/-! ## One candidate -/

variable {policy : AdmissionPolicy} {environment : Environment} {progress next last : Progress}
  {row : CurrentRow}

structure Progress.Accounted (environment : Environment) (progress : Progress) : Prop where
  sources : progress.sources = (Usage.of environment progress.chosen).sources
  targets : progress.targets = (Usage.of environment progress.chosen).targets
  total : progress.total = (Usage.of environment progress.chosen).total

theorem Usage.of_concat {units : List CurrentRow} : Usage.of environment (units ++ [row]) =
    (Usage.of environment units).choose environment row := by
  rw [of, List.foldl_append]
  rfl

/-- What is done with a candidate -/
inductive Progress.Visited (policy : AdmissionPolicy) (environment : Environment)
    (progress : Progress) (row : CurrentRow) : Progress → Prop
  | held (reason : String) (estimatedBytes : Option ℕ) (given : reason ≠ "") :
      Visited policy environment progress row (progress.hold row reason estimatedBytes)
  | passed (used : progress.chosen ≠ [] ∧ UsedUp policy environment progress.chosen row) :
      Visited policy environment progress row progress
  | chosen {next : Progress} (same : next.chosen = progress.chosen ++ [row])
      (kept : next.held = progress.held) (accounted : next.Accounted environment) :
      Visited policy environment progress row next

theorem Attended.mono {chosen more : List CurrentRow} {held others : List HeldUnit}
    (attended : Attended policy environment chosen held row) (longer : chosen <+: more)
    (further : held <+: others) : Attended policy environment more others row := by
  rcases attended with member | ⟨entry, listed, same⟩ | ⟨before, some, front, used⟩
  · exact .inl (longer.subset member)
  · exact .inr (.inl ⟨entry, further.subset listed, same⟩)
  · exact .inr (.inr ⟨before, some, front.trans longer, used⟩)

theorem Progress.Visited.accounted (visited : progress.Visited policy environment row next)
    (accounted : progress.Accounted environment) : next.Accounted environment := by
  cases visited with
  | held reason estimatedBytes given =>
    exact ⟨accounted.sources, accounted.targets, accounted.total⟩
  | passed used => exact accounted
  | chosen same kept later => exact later

variable {store : Store} {sources : List String}

variable {selection : Selection} {contractSha256 : String}

/-- The files of one source, and nothing else that matters -/
def publishing (source : String) : Environment where
  hold := fun _ _ => .ok none
  sourcePaths := [(source, "jobs.sqlite3")]
  sharedPath := "all_jobs.sqlite3"
  unitBytes := fun _ => .ok 6
  targetBytes := fun _ => 8
  expired := fun _ => false
  now := 10

end JobAgg.PublicationWork
