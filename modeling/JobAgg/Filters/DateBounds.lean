import JobAgg.Foundation.Calendar
import JobAgg.Foundation.Checked

/-! # Bounds that are days

A search compares stored times with its bounds as text. A bound that is a day alone is turned
into the start of that day, or of the day after, and the explanation of a search compares days.
Both take the bound as a day that is included. -/

namespace JobAgg.Filters

inductive Operator where
  | less
  | atMost
  | greater
  | atLeast
deriving DecidableEq

def Operator.symbol : Operator → String
  | .less => "<"
  | .atMost => "<="
  | .greater => ">"
  | .atLeast => ">="

/-- The comparison of two texts, letter by letter -/
def Operator.holds (operator : Operator) (actual expected : List Char) : Bool :=
  match operator with
  | .less => decide (actual < expected)
  | .atMost => decide (actual ≤ expected)
  | .greater => decide (expected < actual)
  | .atLeast => decide (expected ≤ actual)

/-- A bound of a search: `date | str` -/
inductive Bound where
  | date (value : Date)
  | text (value : List Char)
deriving DecidableEq

def Bound.isoformat : Bound → List Char
  | .date value => value.text
  | .text value => value

def isDateOnly (value : List Char) : Bool :=
  value.length == 10 && value[4]? == some '-' && value[7]? == some '-'

def nextDayIso (value : List Char) : Except String (List Char) :=
  match Date.read value with
  | none => .error "ValueError"
  | some parsed =>
    match parsed.next with
    | none => .error "OverflowError"
    | some later => .ok later.text

def startOfDay : List Char := "T00:00:00+00:00".toList

structure DateClause where
  column : String
  operator : Operator
  parameter : List Char
deriving DecidableEq

def addDateClause (clauses : List DateClause) (column : String) (operator : Operator)
    (value : Option Bound) : Except String (List DateClause) :=
  match value with
  | none => .ok clauses
  | some value =>
    if isDateOnly value.isoformat then
      if operator = .atMost ∨ operator = .less then do
        let next ← nextDayIso value.isoformat
        return clauses ++ [⟨column, .less, next ++ startOfDay⟩]
      else .ok (clauses ++ [⟨column, operator, value.isoformat ++ startOfDay⟩])
    else .ok (clauses ++ [⟨column, operator, value.isoformat⟩])

/-- A column that is `NULL` is not selected by any clause. -/
def DateClause.selects (clause : DateClause) (row : String → Option (List Char)) : Bool :=
  match row clause.column with
  | none => false
  | some stored => clause.operator.holds stored clause.parameter

/-! ## Checks of an explanation -/

/-- `value.replace("Z", "+00:00")` -/
def replaceZulu (value : List Char) : List Char :=
  value.flatMap fun letter => if letter = 'Z' then "+00:00".toList else [letter]

def datePart (value : List Char) : List Char :=
  if value = [] then []
  else
    match Moment.read (replaceZulu value) with
    | some parsed => parsed.date.text
    | none => if isDateOnly (value.take 10) then value.take 10 else value

def dateComparisonValues (actualText : List Char) (expected : Bound) :
    List Char × List Char × List Char :=
  if isDateOnly expected.isoformat then
    (datePart actualText, expected.isoformat, expected.isoformat)
  else (actualText, expected.isoformat, expected.isoformat)

structure DateCheck where
  filter : String
  matched : Bool
  actual : Option (List Char)
  expected : List Char
  reason : List Char
deriving DecidableEq

def addDateCheck (checks : List DateCheck) (label : String) (actual : Option (List Char))
    (operator : Operator) (expected : Option Bound) : List DateCheck :=
  match expected with
  | none => checks
  | some expected =>
    let actualText := actual.getD []
    let values := dateComparisonValues actualText expected
    let matched := values.1 != [] &&
      if operator = .atLeast then Operator.atLeast.holds values.1 values.2.1
      else Operator.atMost.holds values.1 values.2.1
    let compared := ' ' :: operator.symbol.toList ++ ' ' :: values.2.2
    let reason :=
      if matched then label.toList ++ ' ' :: actualText ++ compared
      else label.toList ++ ' ' :: (if actualText = [] then "missing".toList else actualText) ++
        " fails".toList ++ compared
    checks ++ [⟨label, matched, actual, values.2.2, reason⟩]

/-! ## What a stored time is compared as -/

variable {moment : Moment} {day later : Date} {bound : Bound}

theorem isDateOnly_text (day : Date) : isDateOnly day.text = true := by
  have read := Date.read_text day
  rw [Date.read] at read
  split at read
  case isTrue shaped =>
    rw [isDateOnly, Bool.and_eq_true, Bool.and_eq_true, beq_iff_eq, beq_iff_eq, beq_iff_eq]
    exact ⟨⟨shaped.1, shaped.2.1⟩, shaped.2.2⟩
  case isFalse => cases read

theorem replaceZulu_text (moment : Moment) : replaceZulu moment.text = moment.text := by
  have zulu : ('Z' : Char).isDigit = false := by decide
  have absent : ∀ letter ∈ moment.text, letter ≠ 'Z' := by
    rintro letter listed rfl
    rw [Moment.text, List.mem_append, List.mem_cons, List.mem_append] at listed
    rcases listed with listed | same | listed | listed
    · exact Date.notMem_text zulu (by decide) listed
    · cases same
    · exact TimeOfDay.notMem_text zulu (by decide) (by decide) listed
    · exact absurd listed (by decide)
  generalize moment.text = text at absent
  induction text with
  | nil => rfl
  | cons head tail induction =>
    have kept := induction fun letter listed => absent letter (List.mem_cons_of_mem _ listed)
    rw [replaceZulu] at kept
    rw [replaceZulu, List.flatMap_cons, if_neg (absent head List.mem_cons_self), kept]
    rfl

theorem datePart_text (moment : Moment) : datePart moment.text = moment.date.text := by
  have some : moment.text ≠ [] := by
    intro empty
    have length := congrArg List.length empty
    rw [Moment.text, List.length_append, Date.length_text, List.length_nil] at length
    omega
  rw [datePart, if_neg some, replaceZulu_text, Moment.read_text]

def Bound.day? (bound : Bound) : Option Date := Date.read bound.isoformat

theorem Bound.isoformat_of_day? (found : bound.day? = some day) : bound.isoformat = day.text :=
  Date.text_of_read found

theorem nextDayIso_text (found : day.next = some later) : nextDayIso day.text = .ok later.text := by
  rw [nextDayIso, Date.read_text]
  dsimp only
  rw [found]

theorem addDateCheck_day (checks : List DateCheck) (label : String) (operator : Operator)
    (found : bound.day? = some day) : ∃ check,
      addDateCheck checks label (some moment.text) operator (some bound) = checks ++ [check] ∧
        check.matched = if operator = .atLeast then decide (day ≤ moment.date)
          else decide (moment.date ≤ day) := by
  refine ⟨_, rfl, ?_⟩
  have some : moment.date.text ≠ [] := by
    intro empty
    have length := congrArg List.length empty
    rw [Date.length_text] at length
    cases length
  have order : ∀ one two : Date, one.text ≤ two.text ↔ one ≤ two := by
    intro one two
    rw [← not_lt, Date.text_lt_iff, not_lt]
  simp only [Bound.isoformat_of_day? found, dateComparisonValues, isDateOnly_text, if_true,
    Option.getD_some, datePart_text, Operator.holds, order, bne_iff_ne.mpr some, Bool.true_and]

/-- For every stored time, a bound that is a day selects the row exactly when the day of that
time is on or after it, respectively on or before it, and the explanation of the search says
the same. -/
theorem day_bounds_inclusive (moment : Moment) (bound : Bound) (day : Date)
    (found : bound.day? = some day) (before : day < Date.last) (column label : String)
    (clauses : List DateClause) (checks : List DateCheck) (row : String → Option (List Char))
    (stored : row column = some moment.text) :
    (∃ clause check,
      addDateClause clauses column .atLeast (some bound) = .ok (clauses ++ [clause]) ∧
      addDateCheck checks label (row column) .atLeast (some bound) = checks ++ [check] ∧
      (clause.selects row = true ↔ day ≤ moment.date) ∧
      (check.matched = true ↔ day ≤ moment.date)) ∧
    ∃ clause check,
      addDateClause clauses column .atMost (some bound) = .ok (clauses ++ [clause]) ∧
      addDateCheck checks label (row column) .atMost (some bound) = checks ++ [check] ∧
      (clause.selects row = true ↔ moment.date ≤ day) ∧
      (check.matched = true ↔ moment.date ≤ day) := by
  have dayOnly : isDateOnly bound.isoformat = true := by
    rw [Bound.isoformat_of_day? found]
    exact isDateOnly_text day
  obtain ⟨later, next⟩ := Date.exists_next before
  rw [stored]
  constructor
  · obtain ⟨check, checked, matched⟩ := addDateCheck_day checks label .atLeast found
    refine ⟨⟨column, .atLeast, day.text ++ startOfDay⟩, check, ?_, checked, ?_, ?_⟩
    · rw [addDateClause, if_pos dayOnly, if_neg (by decide), Bound.isoformat_of_day? found]
    · rw [DateClause.selects, stored]
      exact decide_eq_true_iff.trans (not_lt.symm.trans
        (not_congr Moment.text_lt_startOf |>.trans not_lt))
    · rw [matched, if_pos rfl, decide_eq_true_iff]
  · obtain ⟨check, checked, matched⟩ := addDateCheck_day checks label .atMost found
    refine ⟨⟨column, .less, later.text ++ startOfDay⟩, check, ?_, checked, ?_, ?_⟩
    · rw [addDateClause, if_pos dayOnly, if_pos (.inl rfl), Bound.isoformat_of_day? found,
        nextDayIso_text next]
      rfl
    · rw [DateClause.selects, stored]
      exact decide_eq_true_iff.trans (Moment.text_lt_startOf.trans (Date.lt_next_iff next))
    · rw [matched, if_neg (by decide), decide_eq_true_iff]

/-- The last microsecond of a leap day against that day -/
theorem day_bounds_inclusive_leapDay :
    ∃ clause, addDateClause [] "j.closes_at" .atMost (some (.text "2024-02-29".toList)) =
        .ok [clause] ∧
      clause.selects (fun _ => some "2024-02-29T23:59:59.999999+00:00".toList) = true := by
  let leapDay : Date := ⟨2024, 2, 29, by decide, by decide, by decide⟩
  let moment : Moment := ⟨leapDay, ⟨23, 59, 59, 999999, by decide, by decide, by decide, by decide⟩⟩
  have found : (Bound.text "2024-02-29".toList).day? = some leapDay := by decide
  have before : leapDay < Date.last := Date.lt_iff.mpr (.inl (by decide))
  have written : some "2024-02-29T23:59:59.999999+00:00".toList = some moment.text := by
    decide
  obtain ⟨-, clause, -, added, -, selected, -⟩ := day_bounds_inclusive moment _ leapDay found before
    "j.closes_at" "closing_date_to" [] [] (fun _ => some "2024-02-29T23:59:59.999999+00:00".toList)
    written
  exact ⟨clause, added, selected.mpr le_rfl⟩

end JobAgg.Filters
