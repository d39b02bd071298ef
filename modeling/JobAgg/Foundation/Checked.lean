import Mathlib.Data.String.Basic

/-! # Guarded computations

The modelled code validates by raising. A raised message is an `Except.error`;
`require` is one guard, and the lemmas below turn a chain of guards that ran to
its end into the conjunction of its conditions.
-/

namespace JobAgg

/-- Raise `message` unless the condition holds. -/
def require {Error : Type} (condition : Bool) (message : Error) : Except Error Unit :=
  if condition then .ok () else .error message

variable {Error Value Result : Type}

@[simp] theorem require_eq_ok {condition : Bool} {message : Error} {done : Unit} :
    require condition message = .ok done ↔ condition = true := by
  cases condition <;> simp [require]

@[simp] theorem pure_eq_ok {value result : Value} :
    (pure value : Except Error Value) = .ok result ↔ value = result := by
  simp [pure, Except.pure]

theorem bind_eq_ok {first : Except Error Value} {second : Value → Except Error Result}
    {result : Result} :
    (first >>= second) = .ok result ↔
      ∃ value, first = .ok value ∧ second value = .ok result := by
  cases first with
  | error message => simp [bind, Except.bind]
  | ok value => simp [bind, Except.bind]

theorem map_eq_ok {source : Except Error Value} {function : Value → Result}
    {result : Result} :
    function <$> source = .ok result ↔
      ∃ value, source = .ok value ∧ function value = result := by
  cases source with
  | error message => simp [Functor.map, Except.map]
  | ok value => simp [Functor.map, Except.map]

theorem mapError_eq_ok {Other : Type} {computation : Except Error Value}
    {change : Error → Other} {value : Value} :
    computation.mapError change = .ok value ↔ computation = .ok value := by
  cases computation <;> simp [Except.mapError]

@[simp] theorem require_bind_eq_ok {condition : Bool} {message : Error}
    {rest : Unit → Except Error Result} {result : Result} :
    (require condition message >>= rest) = .ok result ↔
      condition = true ∧ rest () = .ok result := by
  cases condition <;> simp [require, bind, Except.bind]

@[simp] theorem ok_bind {value : Value} {rest : Value → Except Error Result} :
    ((Except.ok value : Except Error Value) >>= rest) = rest value := rfl

@[simp] theorem error_bind {message : Error} {rest : Value → Except Error Result} :
    ((Except.error message : Except Error Value) >>= rest) = .error message := rfl

theorem bind_eq_error {first : Except Error Value} {second : Value → Except Error Result}
    {reason : Error} (failed : (first >>= second) = .error reason) :
    first = .error reason ∨ ∃ value, first = .ok value ∧ second value = .error reason := by
  cases first with
  | error message =>
    rw [error_bind, Except.error.injEq] at failed
    rw [failed]
    exact .inl rfl
  | ok value => exact .inr ⟨value, rfl, failed⟩

theorem require_bind_eq_error {condition : Bool} {message reason : Error}
    {rest : Unit → Except Error Result}
    (failed : (require condition message >>= rest) = .error reason) :
    reason = message ∨ rest () = .error reason := by
  cases condition with
  | false =>
    cases failed
    exact .inl rfl
  | true => exact .inr failed

theorem eq_ok_of_isSome {computation : Except Error Value}
    (succeeds : computation.toOption.isSome = true) (default : Value) :
    computation = .ok (computation.toOption.getD default) := by
  cases computation with
  | error message => cases succeeds
  | ok value => rfl

def each {Item : Type} (check : Item → Except Error Unit) : List Item → Except Error Unit
  | [] => .ok ()
  | item :: rest => do
    check item
    each check rest

theorem each_eq_ok {Item : Type} {check : Item → Except Error Unit} {items : List Item}
    {done : Unit} : each check items = .ok done ↔ ∀ item ∈ items, check item = .ok () := by
  induction items with
  | nil => simp [each]
  | cons item rest induction =>
    rw [each, bind_eq_ok, List.forall_mem_cons, ← induction]
    constructor
    · rintro ⟨_, first, later⟩
      exact ⟨first, later⟩
    · rintro ⟨first, later⟩
      exact ⟨(), first, later⟩

theorem mapM_of_forall_ok {Item : Type} {function : Item → Except Error Value}
    {items : List Item} (succeeds : ∀ item ∈ items, ∃ value, function item = .ok value) :
    ∃ values, items.mapM function = .ok values := by
  induction items with
  | nil => exact ⟨[], rfl⟩
  | cons item rest induction =>
    obtain ⟨first, later⟩ := List.forall_mem_cons.mp succeeds
    obtain ⟨value, made⟩ := first
    obtain ⟨values, mapped⟩ := induction later
    refine ⟨value :: values, ?_⟩
    rw [List.mapM_cons, made, ok_bind, mapped, ok_bind]
    rfl

theorem exists_of_mapM_eq_ok {Item : Type} {function : Item → Except Error Value}
    {items : List Item} {values : List Value} (mapped : items.mapM function = .ok values) :
    ∀ value ∈ values, ∃ item ∈ items, function item = .ok value := by
  induction items generalizing values with
  | nil =>
    cases mapped
    simp
  | cons item rest induction =>
    rw [List.mapM_cons, bind_eq_ok] at mapped
    obtain ⟨head, made, mapped⟩ := mapped
    rw [bind_eq_ok] at mapped
    obtain ⟨tail, later, same⟩ := mapped
    rw [pure_eq_ok] at same
    subst same
    intro value member
    cases member with
    | head => exact ⟨item, List.mem_cons_self, made⟩
    | tail _ inTail =>
      obtain ⟨source, inRest, found⟩ := induction later value inTail
      exact ⟨source, List.mem_cons_of_mem _ inRest, found⟩

/-- `re.fullmatch(r"[a-f0-9]{64}", text)`. -/
def isSha256 (text : String) : Bool :=
  text.length == 64 && text.toList.all fun letter =>
    letter.isDigit || (decide ('a' ≤ letter) && decide (letter ≤ 'f'))

theorem isSha256_replicate {letter : Char} (hexadecimal :
    (letter.isDigit || (decide ('a' ≤ letter) && decide (letter ≤ 'f'))) = true) :
    isSha256 (String.ofList (List.replicate 64 letter)) = true := by
  have letters : (String.ofList (List.replicate 64 letter)).toList = List.replicate 64 letter :=
    String.toList_ofList
  have length : (String.ofList (List.replicate 64 letter)).length = 64 := by
    rw [← String.length_toList, letters, List.length_replicate]
  unfold isSha256
  rw [length, letters, List.all_replicate]
  simpa using hexadecimal

end JobAgg
