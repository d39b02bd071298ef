import JobAgg.Foundation.Radix
import Mathlib.Data.Prod.Lex
import Mathlib.Data.String.Basic
import Mathlib.Tactic.IntervalCases

/-! # Days and times of day

Days of the proleptic Gregorian calendar from year 1 to year 9999, times of day to the
microsecond, and how both are written. Written text is in the order of what it stands for. -/

namespace JobAgg

/-- A number with zeros in front, as `%04d` and `%02d` write it -/
def padded (width value : Nat) : List Char :=
  (fixedDigits 10 width value).map Nat.digitChar

def readDigits (text : List Char) : Option Nat :=
  if text.all Char.isDigit then some (numberOf 10 (text.map fun letter => letter.toNat - 48))
  else none

variable {width value other : Nat} {letters : List Char} {letter : Char}

@[simp] theorem length_padded : (padded width value).length = width := by
  rw [padded, List.length_map, length_fixedDigits]

theorem isDigit_of_mem_padded (listed : letter ∈ padded width value) : letter.isDigit = true := by
  obtain ⟨digit, member, rfl⟩ := List.mem_map.mp listed
  rw [Nat.isDigit_digitChar, decide_eq_true_eq]
  exact lt_of_mem_fixedDigits (by omega) digit member

theorem notMem_padded (digit : letter.isDigit = false) : letter ∉ padded width value := by
  intro listed
  rw [isDigit_of_mem_padded listed] at digit
  cases digit

theorem digitChar_order {first second : Nat} (one : first < 10) (two : second < 10) :
    (first.digitChar < second.digitChar ↔ first < second) ∧
      (first.digitChar = second.digitChar ↔ first = second) := by
  have all : ∀ first < 10, ∀ second < 10,
      (first.digitChar < second.digitChar ↔ first < second) ∧
        (first.digitChar = second.digitChar ↔ first = second) := by
    decide
  exact all first one second two

theorem padded_lt_iff (first : value < 10 ^ width) (second : other < 10 ^ width) :
    padded width value < padded width other ↔ value < other := by
  rw [padded, padded, map_lt_map_iff, fixedDigits_lt_iff first second]
  intro one inOne two inTwo
  exact digitChar_order (lt_of_mem_fixedDigits (by omega) one inOne)
    (lt_of_mem_fixedDigits (by omega) two inTwo)

theorem padded_inj (first : value < 10 ^ width) (second : other < 10 ^ width) :
    padded width value = padded width other ↔ value = other := by
  constructor
  · intro same
    rcases lt_trichotomy value other with less | equal | greater
    · exact absurd same (ne_of_lt ((padded_lt_iff first second).mpr less))
    · exact equal
    · exact absurd same.symm (ne_of_lt ((padded_lt_iff second first).mpr greater))
  · rintro rfl
    rfl

theorem digitChar_toNat (digit : letter.isDigit = true) :
    letter.toNat - 48 < 10 ∧ (letter.toNat - 48).digitChar = letter := by
  rw [Char.isDigit_iff_toNat] at digit
  have low : 48 ≤ letter.toNat := digit.1
  have high : letter.toNat ≤ 57 := digit.2
  refine ⟨by omega, ?_⟩
  apply Char.toNat_inj.mp
  rw [Nat.toNat_digitChar_of_lt_ten (by omega)]
  omega

theorem readDigits_padded (bounded : value < 10 ^ width) :
    readDigits (padded width value) = some value := by
  have digits : (padded width value).all Char.isDigit = true :=
    List.all_eq_true.mpr fun letter listed => isDigit_of_mem_padded listed
  have same : (padded width value).map (fun letter => letter.toNat - 48) =
      fixedDigits 10 width value := by
    rw [padded, List.map_map]
    apply (List.map_congr_left ?_).trans (List.map_id _)
    intro digit listed
    exact Nat.toNat_digitChar_sub_48_of_lt_ten (lt_of_mem_fixedDigits (by omega) digit listed)
  rw [readDigits, if_pos digits, same, numberOf_fixedDigits bounded]

theorem padded_of_readDigits (found : readDigits letters = some value) :
    letters = padded letters.length value ∧ value < 10 ^ letters.length := by
  rw [readDigits] at found
  split at found
  case isTrue digits =>
    rw [List.all_eq_true] at digits
    rw [Option.some.injEq] at found
    have small : ∀ digit ∈ letters.map (fun letter => letter.toNat - 48), digit < 10 := by
      intro digit listed
      obtain ⟨letter, member, rfl⟩ := List.mem_map.mp listed
      exact (digitChar_toNat (digits letter member)).1
    have spelled := fixedDigits_numberOf small
    have bound := numberOf_lt small
    rw [List.length_map, found] at spelled bound
    refine ⟨?_, bound⟩
    rw [padded, spelled, List.map_map]
    symm
    apply (List.map_congr_left ?_).trans (List.map_id _)
    intro letter listed
    exact (digitChar_toNat (digits letter listed)).2
  case isFalse => cases found

theorem eq_split_of_getElem? {Item : Type} {items : List Item} {index : Nat} {item : Item}
    (found : items[index]? = some item) :
    items = items.take index ++ item :: items.drop (index + 1) := by
  obtain ⟨inside, same⟩ := List.getElem?_eq_some_iff.mp found
  rw [← same, ← List.drop_eq_getElem_cons inside, List.take_append_drop]

/-! ## Days -/

def isLeapYear (year : Nat) : Bool :=
  year % 4 == 0 && (year % 100 != 0 || year % 400 == 0)

def daysInMonth (year month : Nat) : Nat :=
  if month = 2 then
    if isLeapYear year then 29 else 28
  else if month = 4 ∨ month = 6 ∨ month = 9 ∨ month = 11 then 30
  else 31

theorem daysInMonth_bounds (year month : Nat) :
    28 ≤ daysInMonth year month ∧ daysInMonth year month ≤ 31 := by
  rw [daysInMonth]
  split
  · split <;> omega
  · split <;> omega

/-- A day that there is: `datetime.date` -/
@[ext] structure Date where
  year : Nat
  month : Nat
  day : Nat
  inEra : 1 ≤ year ∧ year ≤ 9999
  inYear : 1 ≤ month ∧ month ≤ 12
  inMonth : 1 ≤ day ∧ day ≤ daysInMonth year month
deriving DecidableEq

namespace Date

variable {date later earlier : Date}

def key (date : Date) : Nat ×ₗ Nat ×ₗ Nat :=
  toLex (date.year, toLex (date.month, date.day))

theorem key_injective : Function.Injective key := by
  intro one two same
  rw [key, key, EmbeddingLike.apply_eq_iff_eq, Prod.mk.injEq, EmbeddingLike.apply_eq_iff_eq,
    Prod.mk.injEq] at same
  exact Date.ext same.1 same.2.1 same.2.2

instance : LinearOrder Date := LinearOrder.lift' key key_injective

theorem lt_iff : date < later ↔ date.year < later.year ∨
    date.year = later.year ∧ (date.month < later.month ∨
      date.month = later.month ∧ date.day < later.day) := by
  change key date < key later ↔ _
  rw [key, key, Prod.Lex.toLex_lt_toLex, Prod.Lex.toLex_lt_toLex]

theorem day_le (date : Date) : date.day ≤ 31 :=
  date.inMonth.2.trans (daysInMonth_bounds _ _).2

/-- `datetime.date`, unless there is no such day -/
def of? (year month day : Nat) : Option Date :=
  if inEra : 1 ≤ year ∧ year ≤ 9999 then
    if inYear : 1 ≤ month ∧ month ≤ 12 then
      if inMonth : 1 ≤ day ∧ day ≤ daysInMonth year month then
        some ⟨year, month, day, inEra, inYear, inMonth⟩
      else none
    else none
  else none

theorem of?_eq_some {year month day : Nat} : of? year month day = some date ↔
    date.year = year ∧ date.month = month ∧ date.day = day := by
  rw [of?]
  constructor
  · intro made
    split at made
    case isTrue inEra =>
      split at made
      case isTrue inYear =>
        split at made
        case isTrue inMonth =>
          rw [Option.some.injEq] at made
          subst made
          exact ⟨rfl, rfl, rfl⟩
        case isFalse => cases made
      case isFalse => cases made
    case isFalse => cases made
  · rintro ⟨rfl, rfl, rfl⟩
    rw [dif_pos date.inEra, dif_pos date.inYear, dif_pos date.inMonth]

/-- The day after, unless it is the last one. -/
def next (date : Date) : Option Date :=
  if date.day < daysInMonth date.year date.month then of? date.year date.month (date.day + 1)
  else if date.month < 12 then of? date.year (date.month + 1) 1
  else of? (date.year + 1) 1 1

/-- 31 December 9999 -/
def last : Date := ⟨9999, 12, 31, by decide, by decide, by decide⟩

theorem exists_next (before : date < last) : ∃ later, date.next = some later := by
  have era := date.inEra
  have inYear := date.inYear
  have inMonth := date.inMonth
  rw [lt_iff] at before
  change date.year < 9999 ∨ date.year = 9999 ∧ (date.month < 12 ∨
    date.month = 12 ∧ date.day < 31) at before
  rw [next]
  split
  case isTrue inside =>
    exact ⟨⟨date.year, date.month, date.day + 1, era, inYear, by omega⟩,
      of?_eq_some.mpr ⟨rfl, rfl, rfl⟩⟩
  case isFalse ends =>
    split
    case isTrue inside =>
      have days := daysInMonth_bounds date.year (date.month + 1)
      exact ⟨⟨date.year, date.month + 1, 1, era, by omega, by omega⟩,
        of?_eq_some.mpr ⟨rfl, rfl, rfl⟩⟩
    case isFalse december =>
      have days := daysInMonth_bounds (date.year + 1) 1
      have december : date.month = 12 := by omega
      have whole : daysInMonth date.year date.month = 31 := by
        rw [december]
        rfl
      exact ⟨⟨date.year + 1, 1, 1, by omega, by omega, by omega⟩,
        of?_eq_some.mpr ⟨rfl, rfl, rfl⟩⟩

theorem lt_next_iff (found : date.next = some later) : earlier < later ↔ earlier ≤ date := by
  rw [← not_lt, lt_iff, lt_iff]
  rw [next] at found
  have month := earlier.inYear
  have day := earlier.inMonth
  have ends := date.inMonth
  split at found
  case isTrue inside =>
    obtain ⟨years, months, days⟩ := of?_eq_some.mp found
    omega
  case isFalse last =>
    split at found
    case isTrue inside =>
      obtain ⟨years, months, days⟩ := of?_eq_some.mp found
      constructor
      · intro less after
        rcases after with after | ⟨sameYear, after | ⟨sameMonth, after⟩⟩
        · omega
        · omega
        · rw [← sameYear, ← sameMonth] at day
          omega
      · intro notAfter
        omega
    case isFalse december =>
      obtain ⟨years, months, days⟩ := of?_eq_some.mp found
      have whole := date.inYear
      constructor
      · intro less after
        rcases after with after | ⟨sameYear, after | ⟨sameMonth, after⟩⟩
        · omega
        · omega
        · rw [← sameYear, ← sameMonth] at day
          omega
      · intro notAfter
        omega

/-- `isoformat` -/
def text (date : Date) : List Char :=
  padded 4 date.year ++ '-' :: padded 2 date.month ++ '-' :: padded 2 date.day

@[simp] theorem length_text (date : Date) : date.text.length = 10 := by
  simp [text]

theorem notMem_text (digit : letter.isDigit = false) (dash : letter ≠ '-') :
    letter ∉ date.text := by
  rw [text, List.mem_append, List.mem_append, List.mem_cons, List.mem_cons]
  rintro ((listed | same | listed) | same | listed)
  · exact notMem_padded digit listed
  · exact dash same
  · exact notMem_padded digit listed
  · exact dash same
  · exact notMem_padded digit listed

theorem text_lt_iff : date.text < later.text ↔ date < later := by
  have year := date.inEra.2
  have laterYear := later.inEra.2
  have month := date.inYear.2
  have laterMonth := later.inYear.2
  have day := date.day_le
  have laterDay := later.day_le
  rw [text, text, List.append_assoc, List.append_assoc, append_lt_append_iff (by simp),
    padded_lt_iff (by omega) (by omega), padded_inj (by omega) (by omega), List.cons_append,
    List.cons_append, List.cons_lt_cons_iff, append_lt_append_iff (by simp),
    padded_lt_iff (by omega) (by omega), padded_inj (by omega) (by omega), List.cons_lt_cons_iff,
    padded_lt_iff (by omega) (by omega), lt_iff]
  simp

theorem text_inj : date.text = later.text ↔ date = later := by
  constructor
  · intro same
    rcases lt_trichotomy date later with less | equal | greater
    · exact absurd same (ne_of_lt (text_lt_iff.mpr less))
    · exact equal
    · exact absurd same.symm (ne_of_lt (text_lt_iff.mpr greater))
  · rintro rfl
    rfl

/-- `date.fromisoformat`, of a text with dashes behind four and seven letters -/
def read (text : List Char) : Option Date :=
  if text.length = 10 ∧ text[4]? = some '-' ∧ text[7]? = some '-' then do
    let year ← readDigits (text.take 4)
    let month ← readDigits ((text.drop 5).take 2)
    let day ← readDigits (text.drop 8)
    of? year month day
  else none

theorem read_text (date : Date) : read date.text = some date := by
  have year := date.inEra.2
  have month := date.inYear.2
  have day := date.day_le
  have parts : date.text = padded 4 date.year ++ ('-' :: (padded 2 date.month ++
      ('-' :: padded 2 date.day))) := by
    rw [text, List.append_assoc, List.cons_append]
  have afterYear : date.text.drop 5 = padded 2 date.month ++ ('-' :: padded 2 date.day) := by
    rw [parts, ← List.singleton_append, ← List.append_assoc, List.drop_left' (by simp)]
  have afterMonth : date.text.drop 8 = padded 2 date.day := by
    have twice : date.text.drop 8 = (date.text.drop 5).drop 3 := by rw [List.drop_drop]
    rw [twice, afterYear, ← List.singleton_append, ← List.append_assoc,
      List.drop_left' (by simp)]
  have first : date.text[4]? = some '-' := by
    rw [parts, List.getElem?_append_right (by simp)]
    simp
  have second : date.text[7]? = some '-' := by
    have same := congrArg (fun rest => rest[2]?) afterYear
    rw [List.getElem?_drop] at same
    rw [same, List.getElem?_append_right (by simp)]
    simp
  rw [read, if_pos ⟨length_text date, first, second⟩, afterYear, afterMonth, parts,
    List.take_left' length_padded, List.take_left' length_padded,
    readDigits_padded (by omega), readDigits_padded (by omega), readDigits_padded (by omega)]
  exact of?_eq_some.mpr ⟨rfl, rfl, rfl⟩

theorem text_of_read {letters : List Char} (found : read letters = some date) :
    letters = date.text := by
  rw [read] at found
  split at found
  case isTrue shaped =>
    obtain ⟨length, first, second⟩ := shaped
    simp only [Option.bind_eq_bind, Option.bind_eq_some_iff] at found
    obtain ⟨year, inFront, month, inMiddle, day, atEnd, made⟩ := found
    obtain ⟨rfl, rfl, rfl⟩ := of?_eq_some.mp made
    have front := (padded_of_readDigits inFront).1
    have middle := (padded_of_readDigits inMiddle).1
    have last := (padded_of_readDigits atEnd).1
    rw [List.length_take, length] at front
    rw [List.length_take, List.length_drop, length] at middle
    rw [List.length_drop, length] at last
    change _ = padded 4 date.year at front
    change _ = padded 2 date.month at middle
    change _ = padded 2 date.day at last
    have third : (letters.drop 5)[2]? = some '-' := by
      rw [List.getElem?_drop]
      exact second
    rw [text, ← last, ← middle, ← front, List.append_assoc, List.cons_append]
    have rest : letters.drop 8 = (letters.drop 5).drop 3 := by rw [List.drop_drop]
    rw [rest, ← eq_split_of_getElem? third, ← eq_split_of_getElem? first]
  case isFalse => cases found

end Date

/-! ## Times of day -/

/-- `datetime.time`, to the microsecond -/
@[ext] structure TimeOfDay where
  hour : Nat
  minute : Nat
  second : Nat
  microsecond : Nat
  inDay : hour < 24
  inHour : minute < 60
  inMinute : second < 60
  inSecond : microsecond < 1000000
deriving DecidableEq

namespace TimeOfDay

variable {time later : TimeOfDay}

def key (time : TimeOfDay) : Nat ×ₗ Nat ×ₗ Nat ×ₗ Nat :=
  toLex (time.hour, toLex (time.minute, toLex (time.second, time.microsecond)))

theorem key_injective : Function.Injective key := by
  intro one two same
  rw [key, key, EmbeddingLike.apply_eq_iff_eq, Prod.mk.injEq, EmbeddingLike.apply_eq_iff_eq,
    Prod.mk.injEq, EmbeddingLike.apply_eq_iff_eq, Prod.mk.injEq] at same
  exact TimeOfDay.ext same.1 same.2.1 same.2.2.1 same.2.2.2

instance : LinearOrder TimeOfDay := LinearOrder.lift' key key_injective

def of? (hour minute second microsecond : Nat) : Option TimeOfDay :=
  if bounds : (hour < 24 ∧ minute < 60) ∧ second < 60 ∧ microsecond < 1000000 then
    some ⟨hour, minute, second, microsecond, bounds.1.1, bounds.1.2, bounds.2.1, bounds.2.2⟩
  else none

def midnight : TimeOfDay := ⟨0, 0, 0, 0, by decide, by decide, by decide, by decide⟩

theorem of?_fields (time : TimeOfDay) :
    of? time.hour time.minute time.second time.microsecond = some time :=
  dif_pos ⟨⟨time.inDay, time.inHour⟩, time.inMinute, time.inSecond⟩

/-- The seconds, with microseconds only where there are some -/
def seconds (time : TimeOfDay) : List Char :=
  padded 2 time.second ++
    if time.microsecond = 0 then [] else '.' :: padded 6 time.microsecond

/-- `isoformat` -/
def text (time : TimeOfDay) : List Char :=
  padded 2 time.hour ++ ':' :: (padded 2 time.minute ++ ':' :: time.seconds)

def readPair (text : List Char) : Option Nat :=
  if text.length = 2 then readDigits text else none

/-- Microseconds, of any number of digits behind a point or a comma -/
def readFraction : List Char → Option Nat
  | [] => some 0
  | mark :: digits =>
    if (mark = '.' ∨ mark = ',') ∧ digits ≠ [] ∧ digits.all Char.isDigit then
      readDigits (digits.take 6 ++ List.replicate (6 - digits.length) '0')
    else none

/-- `time.fromisoformat`, of hours, minutes and seconds with colons between them -/
def read (text : List Char) : Option TimeOfDay :=
  match text.splitOn ':' with
  | [hour] => do
    let hour ← readPair hour
    of? hour 0 0 0
  | [hour, minute] => do
    let hour ← readPair hour
    let minute ← readPair minute
    of? hour minute 0 0
  | [hour, minute, second] => do
    let hour ← readPair hour
    let minute ← readPair minute
    let microsecond ← readFraction (second.drop 2)
    let second ← readPair (second.take 2)
    of? hour minute second microsecond
  | _ => none

theorem notMem_seconds (digit : letter.isDigit = false) (point : letter ≠ '.') :
    letter ∉ time.seconds := by
  rw [seconds, List.mem_append]
  rintro (listed | listed)
  · exact notMem_padded digit listed
  · split at listed
    · cases listed
    · rcases List.mem_cons.mp listed with same | inFraction
      · exact point same
      · exact notMem_padded digit inFraction

theorem notMem_text (digit : letter.isDigit = false) (point : letter ≠ '.')
    (colon : letter ≠ ':') : letter ∉ time.text := by
  rw [text, List.mem_append, List.mem_cons, List.mem_append, List.mem_cons]
  rintro (listed | same | listed | same | listed)
  · exact notMem_padded digit listed
  · exact colon same
  · exact notMem_padded digit listed
  · exact colon same
  · exact notMem_seconds digit point listed

theorem readPair_padded (bounded : value < 100) : readPair (padded 2 value) = some value := by
  rw [readPair, if_pos length_padded, readDigits_padded (by omega)]

theorem readFraction_seconds : readFraction (time.seconds.drop 2) = some time.microsecond := by
  rw [seconds, List.drop_left' length_padded]
  split
  case isTrue none => rw [readFraction, none]
  case isFalse =>
    have digits : (padded 6 time.microsecond).all Char.isDigit = true :=
      List.all_eq_true.mpr fun letter listed => isDigit_of_mem_padded listed
    have some : padded 6 time.microsecond ≠ [] := by
      intro empty
      have length := congrArg List.length empty
      rw [length_padded] at length
      cases length
    have bounded := time.inSecond
    rw [readFraction, if_pos ⟨.inl rfl, some, digits⟩, length_padded,
      List.take_of_length_le (by simp), List.replicate_zero, List.append_nil,
      readDigits_padded (by omega)]

theorem read_text (time : TimeOfDay) : read time.text = some time := by
  have colon : (':' : Char).isDigit = false := by decide
  have split : time.text.splitOn ':' =
      [padded 2 time.hour, padded 2 time.minute, time.seconds] := by
    rw [text, List.splitOn_append_cons_self_of_not_mem (notMem_padded colon),
      List.splitOn_append_cons_self_of_not_mem (notMem_padded colon), List.splitOn_eq_splitOnP,
      List.splitOnP_eq_singleton]
    intro letter listed
    rw [beq_eq_false_iff_ne]
    rintro rfl
    exact notMem_seconds colon (by decide) listed
  have hour := time.inDay
  have minute := time.inHour
  have second := time.inMinute
  have taken : time.seconds.take 2 = padded 2 time.second := List.take_left' length_padded
  rw [read, split]
  simp only [taken, readFraction_seconds, readPair_padded (show time.hour < 100 by omega),
    readPair_padded (show time.minute < 100 by omega),
    readPair_padded (show time.second < 100 by omega), Option.bind_eq_bind, Option.bind_some]
  exact of?_fields time

theorem padded_lt_zeros {more rest : List Char} (bounded : value < 10 ^ width)
    (less : padded width value ++ more < padded width 0 ++ rest) :
    value = 0 ∧ more < rest := by
  have zero : 0 < 10 ^ width := Nat.pow_pos (by omega)
  rw [append_lt_append_iff (by simp), padded_lt_iff bounded zero, padded_inj bounded zero] at less
  exact less.resolve_left (Nat.not_lt_zero value)

theorem not_lt_midnight : ¬ time.text ++ "+00:00".toList < "00:00:00+00:00".toList := by
  intro less
  have midnight : "00:00:00+00:00".toList = padded 2 0 ++ ':' :: (padded 2 0 ++ ':' ::
      (padded 2 0 ++ "+00:00".toList)) := by
    decide
  have hour := time.inDay
  have minute := time.inHour
  have second := time.inMinute
  rw [midnight, text, seconds, List.append_assoc, List.cons_append, List.append_assoc,
    List.cons_append, List.append_assoc] at less
  obtain ⟨-, less⟩ := padded_lt_zeros (by omega) less
  rw [List.cons_lt_cons_iff, or_iff_right (by decide)] at less
  obtain ⟨-, less⟩ := padded_lt_zeros (by omega) less.2
  rw [List.cons_lt_cons_iff, or_iff_right (by decide)] at less
  obtain ⟨-, less⟩ := padded_lt_zeros (by omega) less.2
  split at less
  · exact lt_irrefl _ less
  · have offset : "+00:00".toList = '+' :: "00:00".toList := rfl
    rw [offset, List.cons_append, List.cons_lt_cons_iff] at less
    rcases less with less | same
    · exact absurd less (by decide)
    · exact absurd same.1 (by decide)

end TimeOfDay

/-- `datetime`, of one time zone -/
@[ext] structure Moment where
  date : Date
  time : TimeOfDay
deriving DecidableEq

namespace Moment

def key (moment : Moment) : Date ×ₗ TimeOfDay :=
  toLex (moment.date, moment.time)

theorem key_injective : Function.Injective key := by
  intro one two same
  rw [key, key, EmbeddingLike.apply_eq_iff_eq, Prod.mk.injEq] at same
  exact Moment.ext same.1 same.2

instance : LinearOrder Moment := LinearOrder.lift' key key_injective

/-- `isoformat`, in UTC -/
def text (moment : Moment) : List Char :=
  moment.date.text ++ 'T' :: (moment.time.text ++ "+00:00".toList)

/-- `datetime.fromisoformat`, of a day or of a day and a time with or without an offset: the day
and the time as they are written. -/
def read (text : List Char) : Option Moment := do
  let date ← Date.read (text.take 10)
  match text.drop 10 with
  | [] => some ⟨date, .midnight⟩
  | _ :: clock => do
    let isSign := fun letter => letter == '+' || letter == '-'
    let time ← TimeOfDay.read (clock.takeWhile fun letter => !isSign letter)
    match clock.dropWhile fun letter => !isSign letter with
    | [] => some ⟨date, time⟩
    | _ :: offset => (TimeOfDay.read offset).map fun _ => ⟨date, time⟩

theorem read_text (moment : Moment) : read moment.text = some moment := by
  have unsigned : ∀ letter ∈ moment.time.text, (!(letter == '+' || letter == '-')) = true := by
    intro letter listed
    rw [Bool.not_eq_true', Bool.or_eq_false_iff, beq_eq_false_iff_ne, beq_eq_false_iff_ne]
    constructor
    · rintro rfl
      exact TimeOfDay.notMem_text (by decide) (by decide) (by decide) listed
    · rintro rfl
      exact TimeOfDay.notMem_text (by decide) (by decide) (by decide) listed
  have offset : (TimeOfDay.read "00:00".toList).isSome = true := by decide
  obtain ⟨zero, readZero⟩ := Option.isSome_iff_exists.mp offset
  have front : moment.text.take 10 = moment.date.text := List.take_left' moment.date.length_text
  have rest : moment.text.drop 10 = 'T' :: (moment.time.text ++ "+00:00".toList) :=
    List.drop_left' moment.date.length_text
  have sign : "+00:00".toList = '+' :: "00:00".toList := rfl
  rw [read, front, rest, sign, Date.read_text]
  simp only [Option.bind_eq_bind, Option.bind_some, List.takeWhile_append_of_pos unsigned,
    List.dropWhile_append_of_pos unsigned]
  rw [List.takeWhile_cons_of_neg (by decide), List.dropWhile_cons_of_neg (by decide),
    List.append_nil, TimeOfDay.read_text, Option.bind_some]
  dsimp only
  rw [readZero]
  rfl

def startOf (date : Date) : List Char :=
  date.text ++ "T00:00:00+00:00".toList

theorem text_lt_startOf {moment : Moment} {date : Date} :
    moment.text < startOf date ↔ moment.date < date := by
  have start : "T00:00:00+00:00".toList = 'T' :: "00:00:00+00:00".toList := rfl
  rw [text, startOf, append_lt_append_iff (by simp), Date.text_lt_iff, start,
    List.cons_lt_cons_iff, or_iff_left]
  rintro ⟨-, less | ⟨-, less⟩⟩
  · exact lt_irrefl _ less
  · exact TimeOfDay.not_lt_midnight less

end Moment

end JobAgg
