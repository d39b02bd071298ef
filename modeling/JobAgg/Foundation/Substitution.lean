import JobAgg.Foundation.Checked

/-! # Substitution in a text

A pattern is known by what it matches at the start of a text. Matches are replaced from the left,
and none is looked for inside another. -/

namespace JobAgg

variable {Letter Error : Type}

/-- `re.sub`, behind letters of a match that are skipped. A pattern gives the length of a match
and what is put in its place. -/
def substituteFrom {M : Type → Type} [Monad M]
    (pattern : List Letter → Option (Nat × M (List Letter))) : Nat → List Letter → M (List Letter)
  | _, [] => pure []
  | skipped + 1, _ :: rest => substituteFrom pattern skipped rest
  | 0, letter :: rest =>
    match pattern (letter :: rest) with
    | none => do
      let later ← substituteFrom pattern 0 rest
      return letter :: later
    | some (size, replacement) => do
      let here ← replacement
      let later ← substituteFrom pattern (size - 1) rest
      return here ++ later

def replaceMatches (pattern : List Letter → Option Nat) (mark text : List Letter) : List Letter :=
  Id.run (substituteFrom (fun rest => (pattern rest).map fun size => (size, pure mark)) 0 text)

/-- The first place at which something is found, with the letters in front of it counted -/
def findWithin (found : List Letter → Option Nat) (text : List Letter) : Option Nat :=
  (List.range (text.length + 1)).findSome? fun front =>
    (found (text.drop front)).map (front + ·)

variable {pattern : List Letter → Option (Nat × Except Error (List Letter))}
  {text rest : List Letter} {letter : Letter} {skipped : Nat}

def FailsAt (pattern : List Letter → Option (Nat × Except Error (List Letter)))
    (text : List Letter) : Prop :=
  ∃ size error, pattern text = some (size, .error error)

/-- No replacement fails inside a match. -/
structure KeepsApart (pattern : List Letter → Option (Nat × Except Error (List Letter))) :
    Prop where
  empty : pattern [] = none
  inside : ∀ text size replacement, pattern text = some (size, replacement) →
    0 < size ∧ ∀ count, 0 < count → count < size → ¬ FailsAt pattern (text.drop count)

theorem failsNowhere_cons :
    (∀ count, skipped + 1 ≤ count → ¬ FailsAt pattern ((letter :: rest).drop count)) ↔
      ∀ count, skipped ≤ count → ¬ FailsAt pattern (rest.drop count) := by
  constructor
  · intro all count behind
    exact all (count + 1) (by omega)
  · intro all count behind
    obtain ⟨before, rfl⟩ := Nat.exists_eq_succ_of_ne_zero (show count ≠ 0 by omega)
    exact all before (by omega)

theorem substituteFrom_isOk_iff (apart : KeepsApart pattern) :
    (∃ result, substituteFrom pattern skipped text = .ok result) ↔
      ∀ count, skipped ≤ count → ¬ FailsAt pattern (text.drop count) := by
  induction text generalizing skipped with
  | nil =>
    rw [substituteFrom]
    refine iff_of_true ⟨[], rfl⟩ fun count behind fails => ?_
    obtain ⟨size, error, matched⟩ := fails
    rw [List.drop_nil, apart.empty] at matched
    cases matched
  | cons head tail induction =>
    cases skipped with
    | succ skipped => rw [substituteFrom, induction, failsNowhere_cons]
    | zero =>
      rw [substituteFrom]
      cases matched : pattern (head :: tail) with
      | none =>
        have later := @induction 0
        constructor
        · rintro ⟨result, done⟩ count -
          obtain ⟨more, found, -⟩ := bind_eq_ok.mp done
          cases count with
          | zero =>
            rintro ⟨size, error, failed⟩
            rw [List.drop_zero, matched] at failed
            cases failed
          | succ count => exact later.mp ⟨more, found⟩ count (Nat.zero_le _)
        · intro all
          obtain ⟨more, found⟩ := later.mpr (failsNowhere_cons.mp fun count _ =>
            all count (Nat.zero_le _))
          exact ⟨head :: more, bind_eq_ok.mpr ⟨more, found, rfl⟩⟩
      | some replaced =>
        obtain ⟨size, replacement⟩ := replaced
        obtain ⟨positive, inside⟩ := apart.inside _ _ _ matched
        obtain ⟨extra, rfl⟩ := Nat.exists_eq_succ_of_ne_zero (show size ≠ 0 by omega)
        have later := @induction extra
        constructor
        · rintro ⟨result, done⟩ count -
          obtain ⟨here, inPlace, done⟩ := bind_eq_ok.mp done
          obtain ⟨more, found, -⟩ := bind_eq_ok.mp done
          rcases Nat.eq_zero_or_pos count with rfl | counted
          · rintro ⟨size, error, failed⟩
            rw [List.drop_zero, matched, Option.some.injEq, Prod.mk.injEq] at failed
            rw [failed.2] at inPlace
            cases inPlace
          · rcases Nat.lt_or_ge count (extra + 1) with within | behind
            · exact inside count counted within
            · exact failsNowhere_cons.mpr (later.mp ⟨more, found⟩) count behind
        · intro all
          cases inPlace : replacement with
          | error error =>
            rw [inPlace] at matched
            exact absurd ⟨_, error, matched⟩ (all 0 (Nat.zero_le _))
          | ok here =>
            obtain ⟨more, found⟩ := later.mpr (failsNowhere_cons.mp fun count _ =>
              all count (Nat.zero_le _))
            exact ⟨here ++ more,
              bind_eq_ok.mpr ⟨here, rfl, bind_eq_ok.mpr ⟨more, found, rfl⟩⟩⟩

end JobAgg
