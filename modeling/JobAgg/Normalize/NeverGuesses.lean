import JobAgg.Normalize.DateTimes
import Mathlib.Data.List.Infix

/-! # What a locale decides

A locale is only asked about three numbers that are two dates. Every other text is read in the
same way with any locale. A text is refused with an exception when a reference in it has too many
digits or when its moment is not one in UTC. -/

namespace JobAgg.Normalize

variable {library : DateLibrary} {value : Option (List Char)} {text : List Char}
  {dateLocale other : Option String} {parts : NumericDate} {year month day : Nat}
  {moment : Moment}

theorem isValidYmd_iff : isValidYmd year month day = true ↔
    ∃ date : Date, date.year = year ∧ date.month = month ∧ date.day = day := by
  rw [isValidYmd, Bool.and_eq_true, Bool.and_eq_true, decide_eq_true_eq, decide_eq_true_eq,
    Option.isSome_iff_exists]
  constructor
  · rintro ⟨-, date, made⟩
    exact ⟨date, Date.of?_eq_some.mp made⟩
  · rintro ⟨date, rfl, rfl, rfl⟩
    exact ⟨⟨date.inYear, date.inMonth.1, date.day_le⟩, date, Date.of?_eq_some.mpr ⟨rfl, rfl, rfl⟩⟩

theorem newDatetime_of_valid (valid : isValidYmd year month day = true) :
    ∃ date : Date, newDatetime year month day = .ok ⟨date, TimeOfDay.midnight⟩ ∧
      date.year = year ∧ date.month = month ∧ date.day = day := by
  obtain ⟨date, fields⟩ := isValidYmd_iff.mp valid
  refine ⟨date, ?_, fields⟩
  rw [newDatetime, Date.of?_eq_some.mpr fields]

def byLocale (first second : Moment) (dateLocale : Option String) : Option Moment :=
  if dateLocale = some "US" then some first
  else if dateLocale = some "EU" then some second
  else none

theorem byLocale_us {first second : Moment} : byLocale first second (some "US") = some first :=
  if_pos rfl

theorem byLocale_eu {first second : Moment} : byLocale first second (some "EU") = some second := by
  rw [byLocale, if_neg (by decide), if_pos rfl]

inductive NumericReading (parts : NumericDate) : (Option String → Option Moment) → Prop where
  | ambiguous (first second : Moment) (ambiguous : parts.isAmbiguous = true)
      (different : first ≠ second) :
      NumericReading parts (byLocale first second)
  | single (result : Option Moment) (single : parts.isAmbiguous = false) :
      NumericReading parts fun _ => result

theorem numericReading (parts : NumericDate) : ∃ reading, NumericReading parts reading ∧
    ∀ dateLocale, parseNumericDate parts dateLocale = .ok (reading dateLocale) := by
  cases ambiguous : parts.isAmbiguous with
  | true =>
    have both := ambiguous
    rw [NumericDate.isAmbiguous, Bool.and_eq_true, Bool.and_eq_true, bne_iff_ne] at both
    obtain ⟨one, made, -, months, -⟩ := newDatetime_of_valid both.1.1
    obtain ⟨two, otherMade, -, otherMonths, -⟩ := newDatetime_of_valid both.1.2
    refine ⟨_, .ambiguous ⟨one, TimeOfDay.midnight⟩ ⟨two, TimeOfDay.midnight⟩ ambiguous ?_, ?_⟩
    · intro same
      have dates := congrArg (fun moment => moment.date.month) same
      change one.month = two.month at dates
      rw [months, otherMonths] at dates
      exact both.2 dates
    · intro dateLocale
      simp only [parseNumericDate, byLocale]
      rw [if_pos ambiguous, made, otherMade]
      split
      · rfl
      · split
        · rfl
        · rfl
  | false =>
    have alone : ¬ parts.isAmbiguous = true := by
      rw [ambiguous]
      exact Bool.false_ne_true
    cases first : isValidYmd parts.year (readInt parts.a) (readInt parts.b) with
    | true =>
      obtain ⟨date, made, -⟩ := newDatetime_of_valid first
      refine ⟨_, .single (some ⟨date, TimeOfDay.midnight⟩) ambiguous, fun dateLocale => ?_⟩
      simp only [parseNumericDate]
      rw [if_neg alone, if_pos first, made]
      rfl
    | false =>
      rw [← Bool.not_eq_true] at first
      cases second : isValidYmd parts.year (readInt parts.b) (readInt parts.a) with
      | true =>
        obtain ⟨date, made, -⟩ := newDatetime_of_valid second
        refine ⟨_, .single (some ⟨date, TimeOfDay.midnight⟩) ambiguous, fun dateLocale => ?_⟩
        simp only [parseNumericDate]
        rw [if_neg alone, if_neg first, if_pos second, made]
        rfl
      | false =>
        rw [← Bool.not_eq_true] at second
        refine ⟨_, .single none ambiguous, fun dateLocale => ?_⟩
        simp only [parseNumericDate]
        rw [if_neg alone, if_neg first, if_neg second]

/-! ## Texts -/

/-- ISO texts start with the four digits of a year. -/
def YearsFirst (library : DateLibrary) : Prop :=
  ∀ text stamp, library.fromIsoFormat text = some stamp →
    ∀ letter ∈ text.take 4, letter.isDigit = true

theorem numericField_eq_some {digits rest : List Char}
    (found : numericField text = some (digits, rest)) :
    ∃ separator, text = digits ++ separator :: rest ∧ digits.length ≤ 2 ∧
      isDateSeparator separator = true ∧ ∀ letter ∈ digits, isDecimal letter = true := by
  simp only [numericField] at found
  split at found
  case isTrue short =>
    split at found
    case h_1 separator more behind =>
      split at found
      case isTrue marked =>
        rw [Option.some.injEq, Prod.mk.injEq] at found
        obtain ⟨rfl, rfl⟩ := found
        refine ⟨separator, ?_, short.2, marked, fun letter listed => List.mem_takeWhile_imp listed⟩
        rw [← behind]
        exact List.prefix_append_drop (List.takeWhile_prefix isDecimal)
      case isFalse => cases found
    case h_2 => cases found
  case isFalse => cases found

def isNumericLetter (letter : Char) : Bool :=
  isDecimal letter || isDateSeparator letter || letter == '\n'

theorem letters_of_match (matched : matchNumericDate text = some parts) :
    (∃ letter ∈ text.take 4, isDateSeparator letter = true) ∧
      ∀ letter ∈ text, isNumericLetter letter = true := by
  rw [matchNumericDate] at matched
  simp only [Option.bind_eq_bind, Option.bind_eq_some_iff] at matched
  obtain ⟨⟨a, rest⟩, field, ⟨b, more⟩, second, ended⟩ := matched
  obtain ⟨separator, rfl, short, marked, digits⟩ := numericField_eq_some field
  obtain ⟨other, rfl, -, otherMarked, otherDigits⟩ := numericField_eq_some second
  constructor
  · have found : (a ++ separator :: (b ++ other :: more))[a.length]? = some separator := by
      rw [List.getElem?_append_right (Nat.le_refl _), Nat.sub_self]
      rfl
    refine ⟨separator, ?_, marked⟩
    exact List.mem_of_getElem? ((List.getElem?_take_of_lt (by omega)).trans found)
  · have years : ∀ letter ∈ more, isNumericLetter letter = true := by
      dsimp only at ended
      split at ended
      case isTrue whole =>
        intro letter listed
        rw [isNumericLetter, Bool.or_eq_true, Bool.or_eq_true, beq_iff_eq]
        rw [List.prefix_append_drop (List.takeWhile_prefix isDecimal (l := more)),
          List.mem_append] at listed
        rcases listed with digit | behind
        · exact .inl (.inl (List.mem_takeWhile_imp digit))
        · rcases whole.2.2 with none | newline
          · rw [none] at behind
            cases behind
          · rw [newline, List.mem_singleton] at behind
            exact .inr behind
      case isFalse => cases ended
    intro letter listed
    rw [isNumericLetter, Bool.or_eq_true, Bool.or_eq_true]
    rw [List.mem_append, List.mem_cons, List.mem_append, List.mem_cons] at listed
    rcases listed with first | rfl | first | rfl | inYear
    · exact .inl (.inl (digits letter first))
    · exact .inl (.inr marked)
    · exact .inl (.inl (otherDigits letter first))
    · exact .inl (.inr otherMarked)
    · have year := years letter inYear
      rwa [isNumericLetter, Bool.or_eq_true, Bool.or_eq_true] at year

theorem replaceZulu_eq_self (without : 'Z' ∉ text) : replaceZulu text = text := by
  have same : ∀ letter ∈ text,
      (if letter = 'Z' then "+00:00".toList else [letter]) = [letter] := by
    intro letter listed
    rw [if_neg]
    rintro rfl
    exact without listed
  rw [replaceZulu, List.flatMap_congr same, List.flatMap_singleton']

theorem readIso_of_match (yearsFirst : YearsFirst library)
    (matched : matchNumericDate text = some parts) : readIso library text = none := by
  obtain ⟨⟨letter, early, marked⟩, letters⟩ := letters_of_match matched
  have without : 'Z' ∉ text := by
    intro listed
    exact absurd (letters 'Z' listed) (by decide)
  have refused : library.fromIsoFormat text = none := by
    cases read : library.fromIsoFormat text with
    | none => rfl
    | some stamp =>
      have digit := yearsFirst text stamp read letter early
      rw [isDateSeparator, Bool.or_eq_true, beq_iff_eq, beq_iff_eq] at marked
      rcases marked with rfl | rfl
      · exact absurd digit (by decide)
      · exact absurd digit (by decide)
  rw [readIso, replaceZulu_eq_self without, List.findSome?_cons, refused]
  dsimp only
  rw [List.findSome?_cons, refused]
  rfl

/-! ## Locales -/

def Ambiguous (library : DateLibrary) (value : Option (List Char)) : Prop :=
  ∃ text parts, cleanText library.toTextLibrary value = .ok (some text) ∧
    matchNumericDate text = some parts ∧ parts.isAmbiguous = true

/-- No reference in the text is too long to be a number, and an ISO text has a moment in UTC. -/
def Readable (library : DateLibrary) (value : Option (List Char)) : Prop :=
  (∀ letters ∈ value, ∀ count,
    isLongReference ((withoutMarkup library.isWord letters).drop count) = false) ∧
  ∀ text stamp, cleanText library.toTextLibrary value = .ok (some text) →
    readIso library text = some stamp → stamp.InRange

/-- Every locale is answered, and the answer is only kept back where it would be a guess. -/
structure NeverGuesses (library : DateLibrary) (value : Option (List Char)) : Prop where
  total : ∀ dateLocale ∈ validDateLocales, ∃ result,
    parseDatetime library value dateLocale = .ok result
  kept : ∀ dateLocale ∈ [none, some "ISO"], ∀ moment,
    parseDatetime library value dateLocale = .ok (some moment) →
      parseDatetime library value (some "US") = .ok (some moment) ∧
        parseDatetime library value (some "EU") = .ok (some moment)
  differ : parseDatetime library value (some "US") ≠ parseDatetime library value (some "EU") ↔
    Ambiguous library value
  refused : ∀ dateLocale ∈ [none, some "ISO"],
    parseDatetime library value dateLocale = .ok none ↔
      Ambiguous library value ∨ (parseDatetime library value (some "US") = .ok none ∧
        parseDatetime library value (some "EU") = .ok none)

/-- What a text is read as, by locale -/
inductive Reading (library : DateLibrary) (value : Option (List Char)) :
    (Option String → Option Moment) → Prop where
  | ambiguous (first second : Moment) (ambiguous : Ambiguous library value)
      (different : first ≠ second) :
      Reading library value (byLocale first second)
  | single (result : Option Moment) (single : ¬ Ambiguous library value) :
      Reading library value fun _ => result

theorem inUtc_isOk_iff {stamp : Stamp} :
    (∃ result, inUtc stamp = .ok result) ↔ stamp.InRange := by
  rw [inUtc, Stamp.InRange]
  cases stamp.offset with
  | none => exact iff_of_true ⟨_, rfl⟩ fun shift offset => absurd offset (Option.not_mem_none _)
  | some shift =>
    rw [Stamp.utcOf_isOk_iff]
    constructor
    · intro inRange other same
      rw [Option.mem_some_iff] at same
      rw [← same]
      exact inRange
    · intro inRange
      exact inRange shift rfl

theorem parseDatetime_of_cleaned (valid : dateLocale ∈ validDateLocales)
    (cleaned : cleanText library.toTextLibrary value = .ok (some text)) :
    parseDatetime library value dateLocale = parseText library text dateLocale := by
  rw [parseDatetime, require, if_pos (List.contains_iff_mem.mpr valid), ok_bind, cleaned, ok_bind]

theorem reading_of_readable (yearsFirst : YearsFirst library)
    (readable : Readable library value) : ∃ reading, Reading library value reading ∧
      ∀ dateLocale ∈ validDateLocales,
        parseDatetime library value dateLocale = .ok (reading dateLocale) := by
  have cleaned : ∃ text, cleanText library.toTextLibrary value = .ok text := by
    cases value with
    | none => exact ⟨none, rfl⟩
    | some letters => exact cleanText_isOk_iff.mpr (readable.1 letters rfl)
  obtain ⟨text, cleaned⟩ := cleaned
  cases text with
  | none =>
    refine ⟨_, .single none ?_, fun dateLocale valid => ?_⟩
    · rintro ⟨text, parts, other, -⟩
      rw [cleaned] at other
      cases other
    · rw [parseDatetime, require, if_pos (List.contains_iff_mem.mpr valid), ok_bind, cleaned, ok_bind]
      rfl
  | some text =>
    have unread : Ambiguous library value ↔
        ∃ parts, matchNumericDate text = some parts ∧ parts.isAmbiguous = true := by
      constructor
      · rintro ⟨other, parts, same, found⟩
        rw [cleaned, Except.ok.injEq, Option.some.injEq] at same
        rw [← same] at found
        exact ⟨parts, found⟩
      · rintro ⟨parts, found⟩
        exact ⟨text, parts, cleaned, found⟩
    cases iso : readIso library text with
    | some stamp =>
      obtain ⟨moment, utc⟩ := inUtc_isOk_iff.mpr (readable.2 text stamp cleaned iso)
      refine ⟨_, .single (some moment) ?_, fun dateLocale valid => ?_⟩
      · rw [unread]
        rintro ⟨parts, matched, -⟩
        rw [readIso_of_match yearsFirst matched] at iso
        cases iso
      · rw [parseDatetime_of_cleaned valid cleaned, parseText, iso]
        dsimp only
        rw [utc]
        rfl
    | none =>
      cases matched : matchNumericDate text with
      | some parts =>
        obtain ⟨reading, numeric, parsed⟩ := numericReading parts
        refine ⟨reading, ?_, fun dateLocale valid => ?_⟩
        · cases numeric with
          | ambiguous first second ambiguous different =>
            exact .ambiguous first second (unread.mpr ⟨parts, matched, ambiguous⟩)
              different
          | single result single =>
            refine .single result fun ambiguous => ?_
            obtain ⟨other, same, found⟩ := unread.mp ambiguous
            rw [matched, Option.some.injEq] at same
            rw [← same, single] at found
            cases found
        · rw [parseDatetime_of_cleaned valid cleaned, parseText, iso]
          dsimp only
          rw [matched]
          exact parsed dateLocale
      | none =>
        refine ⟨_, .single (dateFormats.findSome? (library.strptime text)) ?_,
          fun dateLocale valid => ?_⟩
        · rw [unread]
          rintro ⟨parts, other, -⟩
          rw [matched] at other
          cases other
        · rw [parseDatetime_of_cleaned valid cleaned, parseText, iso]
          dsimp only
          rw [matched]

theorem readable_of_parsed {result : Option Moment} (valid : dateLocale ∈ validDateLocales)
    (parsed : parseDatetime library value dateLocale = .ok result) : Readable library value := by
  constructor
  · intro letters given
    rw [Option.mem_def] at given
    subst given
    rw [← cleanText_isOk_iff]
    rw [parseDatetime, require_bind_eq_ok] at parsed
    obtain ⟨cleaned, done, -⟩ := bind_eq_ok.mp parsed.2
    exact ⟨cleaned, done⟩
  · intro text stamp cleaned iso
    rw [parseDatetime_of_cleaned valid cleaned, parseText, iso] at parsed
    obtain ⟨moment, utc, -⟩ := map_eq_ok.mp parsed
    exact inUtc_isOk_iff.mp ⟨moment, utc⟩

theorem neverGuesses_of_reading {reading : Option String → Option Moment}
    (read : Reading library value reading)
    (parsed : ∀ dateLocale ∈ validDateLocales,
      parseDatetime library value dateLocale = .ok (reading dateLocale)) :
    NeverGuesses library value := by
  have american := parsed (some "US") (by decide)
  have european := parsed (some "EU") (by decide)
  have unasked : ∀ dateLocale ∈ [none, some "ISO"], dateLocale ∈ validDateLocales ∧
      dateLocale ≠ some "US" ∧ dateLocale ≠ some "EU" := by
    decide
  cases read with
  | ambiguous first second ambiguous different =>
    rw [byLocale_us] at american
    rw [byLocale_eu] at european
    have kept : ∀ dateLocale ∈ [none, some "ISO"],
        parseDatetime library value dateLocale = .ok none := by
      intro dateLocale listed
      obtain ⟨valid, notAmerican, notEuropean⟩ := unasked dateLocale listed
      rw [parsed dateLocale valid, byLocale, if_neg notAmerican, if_neg notEuropean]
    refine ⟨fun dateLocale valid => ⟨_, parsed dateLocale valid⟩, ?_, ?_, ?_⟩
    · intro dateLocale listed moment found
      rw [kept dateLocale listed] at found
      cases found
    · rw [american, european]
      refine iff_of_true (fun same => ?_) ambiguous
      rw [Except.ok.injEq, Option.some.injEq] at same
      exact different same
    · intro dateLocale listed
      exact iff_of_true (kept dateLocale listed) (.inl ambiguous)
  | single result single =>
    refine ⟨fun dateLocale valid => ⟨_, parsed dateLocale valid⟩, ?_, ?_, ?_⟩
    · intro dateLocale listed moment found
      rw [parsed dateLocale (unasked dateLocale listed).1] at found
      exact ⟨american.trans found, european.trans found⟩
    · rw [american, european]
      exact iff_of_false (not_not_intro rfl) single
    · intro dateLocale listed
      rw [parsed dateLocale (unasked dateLocale listed).1, american, european,
        or_iff_right single, and_self]

/-- Dates are never guessed and never fail exactly for the readable texts. -/
theorem never_guesses_iff (library : DateLibrary) (yearsFirst : YearsFirst library)
    (value : Option (List Char)) : NeverGuesses library value ↔ Readable library value := by
  constructor
  · intro holds
    obtain ⟨result, parsed⟩ := holds.total none (by decide)
    exact readable_of_parsed (by decide) parsed
  · intro readable
    obtain ⟨reading, read, parsed⟩ := reading_of_readable yearsFirst readable
    exact neverGuesses_of_reading read parsed

/-! ## The first hour of the first day -/

def plainIso (text : List Char) : Option Stamp :=
  match Moment.read text, TimeOfDay.read (text.drop 20) with
  | some moment, some offset =>
    if text[19]? = some '+' then
      some {
        moment := moment
        offset := some offset.microseconds
        withinDay := by
          intro shift same
          rw [Option.mem_some_iff] at same
          have bound := offset.microseconds_lt
          rw [dayMicroseconds] at bound ⊢
          omega }
    else none
  | _, _ => none

def plainLibrary : DateLibrary where
  isWord letter := letter.isAlphanum || letter == '_'
  html5 _ := none
  fromIsoFormat := plainIso
  strptime _ _ := none

theorem yearsFirst_plain : YearsFirst plainLibrary := by
  intro text stamp read letter early
  change plainIso text = some stamp at read
  rw [plainIso] at read
  split at read
  case h_1 moment offset found shift =>
    rw [Moment.read, Option.bind_eq_bind, Option.bind_eq_some_iff] at found
    obtain ⟨date, front, -⟩ := found
    have taken := congrArg (List.take 4) (Date.text_of_read front)
    rw [List.take_take, Date.text, List.append_assoc, List.take_left' length_padded] at taken
    change text.take 4 = _ at taken
    rw [taken] at early
    exact isDigit_of_mem_padded early
  case h_2 => cases read

def firstHour : List Char := "0001-01-01T00:00:00+01:00".toList

/-- Midnight of the first day, an hour east of Greenwich, is not a moment in UTC. -/
theorem first_hour_overflows :
    ¬ ∃ result, parseDatetime plainLibrary (some firstHour) none = .ok result := by
  rintro ⟨result, parsed⟩
  have overflow : (parseDatetime plainLibrary (some firstHour) none).toOption = none := by
    decide
  rw [parsed] at overflow
  cases overflow

theorem first_hour_unreadable : ¬ Readable plainLibrary (some firstHour) := by
  intro readable
  have holds := (never_guesses_iff plainLibrary yearsFirst_plain (some firstHour)).mpr readable
  exact first_hour_overflows (holds.total none (by decide))

end JobAgg.Normalize
