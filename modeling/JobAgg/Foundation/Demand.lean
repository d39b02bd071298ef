import JobAgg.Foundation.Checked

/-! # Computations that ask for what they read

A `Logged` computation keeps what it has noted when it fails. A `Demand` reads values that
it cannot do without: its result is the same for every reader that gives it these values, so
a result found with less to read is found with more. -/

namespace JobAgg

variable {State Error Result Next : Type}

def Logged (State Error Result : Type) := State → Except Error Result × State

namespace Logged

instance : Monad (Logged State Error) where
  pure result := fun state => (.ok result, state)
  bind first rest := fun state =>
    match first state with
    | (.ok value, later) => rest value later
    | (.error error, later) => (.error error, later)

def answer (computation : Logged State Error Result) (state : State) : Except Error Result :=
  (computation state).1

def ofExcept (outcome : Except Error Result) : Logged State Error Result :=
  fun state => (outcome, state)

def note (change : State → State) : Logged State Error Unit :=
  fun state => (.ok (), change state)

variable {first : Logged State Error Result} {rest : Result → Logged State Error Next}
  {state : State} {error : Error} {value : Result}

@[simp] theorem answer_pure : (pure value : Logged State Error Result).answer state = .ok value := rfl

@[simp] theorem answer_ofExcept {outcome : Except Error Result} :
    (ofExcept outcome : Logged State Error Result).answer state = outcome := rfl

theorem answer_bind : (first >>= rest).answer state =
    (first.answer state >>= fun value => (rest value).answer (first state).2) := by
  rw [answer, answer]
  simp only [bind]
  rcases first state with ⟨outcome, later⟩
  cases outcome <;> rfl

theorem answer_bind_eq_ok {result : Next} : (first >>= rest).answer state = .ok result ↔
    ∃ value, first.answer state = .ok value ∧
      (rest value).answer (first state).2 = .ok result := by
  rw [answer_bind, bind_eq_ok]

theorem answer_bind_of_ok (found : first.answer state = .ok value) :
    (first >>= rest).answer state = (rest value).answer (first state).2 := by
  rw [answer_bind, found, ok_bind]

@[simp] theorem answer_note_bind {change : State → State} {rest : Unit → Logged State Error Next} :
    (note change >>= rest).answer state = (rest ()).answer (change state) := rfl

theorem answer_ofExcept_bind {outcome : Except Error Result} :
    (ofExcept outcome >>= rest).answer state =
      (outcome >>= fun value => (rest value).answer state) := by
  rw [answer_bind]
  rfl

def Answers (computation : Logged State Error Result) (value : Result) : Prop :=
  ∃ state, computation.answer state = .ok value

def Settles (refuses : Error → Prop) (computation : Logged State Error Result)
    (holds : Result → Prop) : Prop :=
  ∀ state, (∃ error, refuses error ∧ computation.answer state = .error error) ∨
    ∃ value, computation.answer state = .ok value ∧ holds value

variable {refuses : Error → Prop} {computation : Logged State Error Result}
  {holds : Result → Prop} {next : Result → Logged State Error Next} {after : Next → Prop}

theorem Answers.bind {result : Next} (answers : (first >>= rest).Answers result) :
    ∃ value, first.Answers value ∧ (rest value).Answers result := by
  obtain ⟨state, found⟩ := answers
  obtain ⟨value, there, found⟩ := answer_bind_eq_ok.mp found
  exact ⟨value, ⟨state, there⟩, ⟨_, found⟩⟩

theorem Answers.ofExcept {outcome : Except Error Result}
    (answers : (Logged.ofExcept outcome : Logged State Error Result).Answers value) :
    outcome = .ok value := by
  obtain ⟨state, found⟩ := answers
  exact found

theorem Answers.pure {result : Result}
    (answers : (Pure.pure result : Logged State Error Result).Answers value) : result = value := by
  obtain ⟨state, found⟩ := answers
  exact Except.ok.inj found

theorem Settles.bind (settles : computation.Settles refuses holds)
    (later : ∀ value, holds value → (next value).Settles refuses after) :
    (computation >>= next).Settles refuses after := by
  intro state
  rcases settles state with ⟨error, fatal, failed⟩ | ⟨value, found, held⟩
  · left
    refine ⟨error, fatal, ?_⟩
    rw [answer_bind, failed]
    rfl
  · rw [answer_bind_of_ok found]
    exact later value held _

theorem Settles.mono {also : Result → Prop} (settles : computation.Settles refuses holds)
    (implies : ∀ value, holds value → also value) : computation.Settles refuses also := by
  intro state
  rcases settles state with refused | ⟨value, found, held⟩
  · exact .inl refused
  · exact .inr ⟨value, found, implies value held⟩

theorem Settles.pure {result : Result} (held : holds result) :
    (Pure.pure result : Logged State Error Result).Settles refuses holds :=
  fun _ => .inr ⟨result, rfl, held⟩

theorem Settles.note (change : State → State) :
    (Logged.note change : Logged State Error Unit).Settles refuses fun _ => True :=
  fun _ => .inr ⟨(), rfl, trivial⟩

theorem Settles.ofExcept {outcome : Except Error Result}
    (total : (∃ error, refuses error ∧ outcome = .error error) ∨
      ∃ value, outcome = .ok value ∧ holds value) :
    (Logged.ofExcept outcome : Logged State Error Result).Settles refuses holds :=
  fun _ => total

end Logged

/-- A computation that refuses, or reads the value of a key -/
inductive Demand (Key Value Result : Type)
  | done (result : Result)
  | refuse (message : String)
  | need (key : Key) (next : Value → Demand Key Value Result)

namespace Demand

variable {Key Value : Type}

def andThen (rest : Result → Demand Key Value Next) :
    Demand Key Value Result → Demand Key Value Next
  | done result => rest result
  | refuse message => refuse message
  | need key next => need key fun value => (next value).andThen rest

instance : Monad (Demand Key Value) where
  pure := done
  bind computation rest := computation.andThen rest

def read (key : Key) : Demand Key Value Value := need key done

def ofExcept : Except String Result → Demand Key Value Result
  | .ok result => done result
  | .error message => refuse message

def check (condition : Bool) (message : String) : Demand Key Value Unit :=
  ofExcept (require condition message)

variable (refused : String → Error)

def run (reader : Key → Logged State Error Value) :
    Demand Key Value Result → Logged State Error Result
  | done result => pure result
  | refuse message => .ofExcept (.error (refused message))
  | need key next => reader key >>= fun value => (next value).run reader

def Gives (less more : Key → Logged State Error Value) : Prop :=
  ∀ key value state later, (less key).answer state = .ok value → (more key).answer later = .ok value

theorem run_of_gives {less more : Key → Logged State Error Value} (gives : Gives less more)
    {computation : Demand Key Value Result} {result : Result} {state later : State}
    (found : (computation.run refused less).answer state = .ok result) :
    (computation.run refused more).answer later = .ok result := by
  induction computation generalizing state later with
  | done value => exact found
  | refuse message => cases found
  | need key next induction =>
    rw [run, Logged.answer_bind_eq_ok] at found
    obtain ⟨value, there, found⟩ := found
    rw [run, Logged.answer_bind_of_ok (gives key value state later there)]
    exact induction value found

end Demand

end JobAgg
