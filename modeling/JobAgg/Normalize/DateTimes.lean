import JobAgg.Foundation.UtcOffset
import JobAgg.Normalize.CleanText

/-! # Dates of vendors

A text is read as an ISO date, as three numbers or in one of some formats with a name of a month.
Three numbers that can be read in two ways are only read where a locale says which comes first. -/

namespace JobAgg.Normalize

/-- `datetime.fromisoformat` and `datetime.strptime`, which refuse a text or read it -/
structure DateLibrary extends TextLibrary where
  fromIsoFormat : List Char → Option Stamp
  strptime : List Char → String → Option Moment

def validDateLocales : List (Option String) :=
  [none, some "ISO", some "US", some "EU"]

def decimalZeros : List Nat :=
  [0x30, 0x660, 0x6f0, 0x7c0, 0x966, 0x9e6, 0xa66, 0xae6, 0xb66, 0xbe6, 0xc66, 0xce6, 0xd66, 0xde6,
    0xe50, 0xed0, 0xf20, 0x1040, 0x1090, 0x17e0, 0x1810, 0x1946, 0x19d0, 0x1a80, 0x1a90, 0x1b50,
    0x1bb0, 0x1c40, 0x1c50, 0xa620, 0xa8d0, 0xa900, 0xa9d0, 0xa9f0, 0xaa50, 0xabf0, 0xff10,
    0x104a0, 0x10d30, 0x11066, 0x110f0, 0x11136, 0x111d0, 0x112f0, 0x11450, 0x114d0, 0x11650,
    0x116c0, 0x11730, 0x118e0, 0x11950, 0x11c50, 0x11d50, 0x11da0, 0x16a60, 0x16ac0, 0x16b50,
    0x1d7ce, 0x1d7d8, 0x1d7e2, 0x1d7ec, 0x1d7f6, 0x1e140, 0x1e2f0, 0x1e950, 0x1fbf0]

/-- The digit that a letter is: `\d` -/
def decimalValue (letter : Char) : Option Nat :=
  (decimalZeros.find? fun start => start ≤ letter.toNat ∧ letter.toNat < start + 10).map
    (letter.toNat - ·)

def isDecimal (letter : Char) : Bool := (decimalValue letter).isSome

/-- `int`, of decimal digits -/
def readInt (digits : List Char) : Nat :=
  numberOf 10 (digits.map fun letter => (decimalValue letter).getD 0)

/-- The groups of `_NUMERIC_DATE_RE` -/
structure NumericDate where
  a : List Char
  b : List Char
  yearText : List Char
deriving DecidableEq

def isDateSeparator (letter : Char) : Bool := letter == '/' || letter == '-'

/-- A run of digits, as long as it may be, in front of a separator -/
def numericField (text : List Char) : Option (List Char × List Char) :=
  let digits := text.takeWhile isDecimal
  if 1 ≤ digits.length ∧ digits.length ≤ 2 then
    match text.drop digits.length with
    | separator :: rest => if isDateSeparator separator then some (digits, rest) else none
    | [] => none
  else none

/-- `_NUMERIC_DATE_RE.match` -/
def matchNumericDate (text : List Char) : Option NumericDate := do
  let (a, rest) ← numericField text
  let (b, rest) ← numericField rest
  let yearText := rest.takeWhile isDecimal
  if 2 ≤ yearText.length ∧ yearText.length ≤ 4 ∧
      (rest.drop yearText.length = [] ∨ rest.drop yearText.length = ['\n']) then
    some ⟨a, b, yearText⟩
  else none

def isValidYmd (year month day : Nat) : Bool :=
  decide (1 ≤ month ∧ month ≤ 12) && decide (1 ≤ day ∧ day ≤ 31) &&
    (Date.of? year month day).isSome

/-- `datetime(year, month, day, tzinfo=UTC)` -/
def newDatetime (year month day : Nat) : Except String Moment :=
  match Date.of? year month day with
  | none => .error "ValueError"
  | some date => .ok ⟨date, TimeOfDay.midnight⟩

def NumericDate.year (parts : NumericDate) : Nat :=
  let year := readInt parts.yearText
  if parts.yearText.length = 2 then year + if year < 70 then 2000 else 1900 else year

/-- Both readings are dates, and they are not the same one. -/
def NumericDate.isAmbiguous (parts : NumericDate) : Bool :=
  isValidYmd parts.year (readInt parts.a) (readInt parts.b) &&
    isValidYmd parts.year (readInt parts.b) (readInt parts.a) &&
    readInt parts.a != readInt parts.b

def parseNumericDate (parts : NumericDate) (dateLocale : Option String) :
    Except String (Option Moment) :=
  let first := readInt parts.a
  let second := readInt parts.b
  if parts.isAmbiguous then
    if dateLocale = some "US" then (newDatetime parts.year first second).map some
    else if dateLocale = some "EU" then (newDatetime parts.year second first).map some
    else .ok none
  else if isValidYmd parts.year first second then (newDatetime parts.year first second).map some
  else if isValidYmd parts.year second first then (newDatetime parts.year second first).map some
  else .ok none

/-- `text.replace("Z", "+00:00")` -/
def replaceZulu (text : List Char) : List Char :=
  text.flatMap fun letter => if letter = 'Z' then "+00:00".toList else [letter]

def dateFormats : List String :=
  ["%B %d, %Y", "%b %d, %Y", "%d %B %Y", "%d %b %Y", "%b %d, %Y, %I:%M:%S %p",
    "%d-%b-%Y, %I:%M:%S %p", "%Y-%m-%d, %I:%M:%S %p", "%d/%b/%Y, %I:%M:%S %p", "%d/%b/%Y",
    "%d-%b-%Y", "%d-%b-%y", "%Y-%m-%d"]

variable (library : DateLibrary)

def readIso (text : List Char) : Option Stamp :=
  [text, replaceZulu text].findSome? library.fromIsoFormat

/-- `parsed.replace(tzinfo=UTC)`, or `parsed.astimezone(UTC)` where there is an offset -/
def inUtc (stamp : Stamp) : Except String Moment :=
  match stamp.offset with
  | none => .ok stamp.moment
  | some shift => Stamp.utcOf stamp.moment shift

def parseText (text : List Char) (dateLocale : Option String) : Except String (Option Moment) :=
  match readIso library text with
  | some stamp => (inUtc stamp).map some
  | none =>
    match matchNumericDate text with
    | some parts => parseNumericDate parts dateLocale
    | none => .ok (dateFormats.findSome? (library.strptime text))

def parseDatetime (value : Option (List Char)) (dateLocale : Option String) :
    Except String (Option Moment) := do
  require (validDateLocales.contains dateLocale) "ValueError"
  let text ← cleanText library.toTextLibrary value
  match text with
  | none => return none
  | some text => parseText library text dateLocale

end JobAgg.Normalize
