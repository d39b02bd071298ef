import JobAgg.Foundation.Calendar

/-! # Moments with an offset from UTC

A moment that is written with an offset is another moment in UTC, on the same day, the day before
or the day after. Around the first and the last day there may be no such moment. -/

namespace JobAgg

namespace Date

variable {date : Date}

/-- 1 January of year 1 -/
def first : Date := ⟨1, 1, 1, by decide, by decide, by decide⟩

/-- The day before, unless it is the first one. -/
def previous (date : Date) : Option Date :=
  if 1 < date.day then of? date.year date.month (date.day - 1)
  else if 1 < date.month then
    of? date.year (date.month - 1) (daysInMonth date.year (date.month - 1))
  else of? (date.year - 1) 12 31

theorem previous_isSome_iff : date.previous.isSome = true ↔ date ≠ first := by
  have era := date.inEra
  have inYear := date.inYear
  have inMonth := date.inMonth
  constructor
  · rintro before rfl
    exact absurd before (by decide)
  · intro later
    rw [previous]
    split
    case isTrue inside =>
      exact Option.isSome_iff_exists.mpr ⟨⟨date.year, date.month, date.day - 1, era, inYear,
        by omega⟩, of?_eq_some.mpr ⟨rfl, rfl, rfl⟩⟩
    case isFalse starts =>
      split
      case isTrue inside =>
        have days := daysInMonth_bounds date.year (date.month - 1)
        exact Option.isSome_iff_exists.mpr ⟨⟨date.year, date.month - 1,
          daysInMonth date.year (date.month - 1), era, by omega, by omega⟩,
          of?_eq_some.mpr ⟨rfl, rfl, rfl⟩⟩
      case isFalse january =>
        have years : date.year ≠ 1 := by
          intro year
          exact later (Date.ext year (show date.month = 1 by omega) (show date.day = 1 by omega))
        exact Option.isSome_iff_exists.mpr ⟨⟨date.year - 1, 12, 31, by omega, by omega,
          by decide, Nat.le_of_eq rfl⟩, of?_eq_some.mpr ⟨rfl, rfl, rfl⟩⟩

theorem le_last (date : Date) : date ≤ last := by
  have era := date.inEra.2
  have year := date.inYear.2
  have day := date.day_le
  rw [← not_lt, lt_iff]
  change ¬ (9999 < date.year ∨ 9999 = date.year ∧ (12 < date.month ∨
    12 = date.month ∧ 31 < date.day))
  omega

theorem next_isSome_iff : date.next.isSome = true ↔ date ≠ last := by
  constructor
  · rintro after rfl
    exact absurd after (by decide)
  · intro earlier
    exact Option.isSome_iff_exists.mpr (exists_next (lt_of_le_of_ne date.le_last earlier))

end Date

def dayMicroseconds : Nat := 86400000000

namespace TimeOfDay

def microseconds (time : TimeOfDay) : Nat :=
  ((time.hour * 60 + time.minute) * 60 + time.second) * 1000000 + time.microsecond

def ofMicroseconds (count : Nat) (inDay : count < dayMicroseconds) : TimeOfDay where
  hour := count / 3600000000
  minute := count / 60000000 % 60
  second := count / 1000000 % 60
  microsecond := count % 1000000
  inDay := by rw [dayMicroseconds] at inDay; omega
  inHour := by omega
  inMinute := by omega
  inSecond := by omega

theorem microseconds_lt (time : TimeOfDay) : time.microseconds < dayMicroseconds := by
  have hour := time.inDay
  have minute := time.inHour
  have second := time.inMinute
  have microsecond := time.inSecond
  rw [microseconds, dayMicroseconds]
  omega

end TimeOfDay

/-- A moment as it is written, with its offset from UTC in microseconds where it has one -/
structure Stamp where
  moment : Moment
  offset : Option Int
  withinDay : ∀ shift ∈ offset, -(dayMicroseconds : Int) < shift ∧ shift < dayMicroseconds

namespace Stamp

variable {stamp : Stamp} {shift : Int}

/-- The time of the day in UTC, counted from the start of the written day -/
def shifted (moment : Moment) (shift : Int) : Int := moment.time.microseconds - shift

/-- `astimezone(UTC)`, of a moment with an offset -/
def utcOf (moment : Moment) (shift : Int) : Except String Moment :=
  let count := shifted moment shift
  if early : count < 0 then
    match moment.date.previous with
    | none => .error "OverflowError"
    | some date => .ok ⟨date, TimeOfDay.ofMicroseconds
        ((count + dayMicroseconds).toNat % dayMicroseconds) (Nat.mod_lt _ (by decide))⟩
  else if late : (dayMicroseconds : Int) ≤ count then
    match moment.date.next with
    | none => .error "OverflowError"
    | some date => .ok ⟨date, TimeOfDay.ofMicroseconds
        ((count - dayMicroseconds).toNat % dayMicroseconds) (Nat.mod_lt _ (by decide))⟩
  else .ok ⟨moment.date, TimeOfDay.ofMicroseconds (count.toNat % dayMicroseconds)
    (Nat.mod_lt _ (by decide))⟩

/-- There is such a moment in UTC. -/
def InRange (stamp : Stamp) : Prop :=
  ∀ shift ∈ stamp.offset,
    (shifted stamp.moment shift < 0 → stamp.moment.date ≠ Date.first) ∧
      ((dayMicroseconds : Int) ≤ shifted stamp.moment shift → stamp.moment.date ≠ Date.last)

theorem utcOf_isOk_iff {moment : Moment} : (∃ result, utcOf moment shift = .ok result) ↔
    (shifted moment shift < 0 → moment.date ≠ Date.first) ∧
      ((dayMicroseconds : Int) ≤ shifted moment shift → moment.date ≠ Date.last) := by
  simp only [utcOf]
  split
  case isTrue early =>
    rw [← Date.previous_isSome_iff, imp_iff_right early,
      and_iff_left fun late => absurd (early.trans_le' late) (by decide)]
    cases moment.date.previous with
    | none => exact iff_of_false (fun ⟨result, done⟩ => by cases done) Bool.false_ne_true
    | some date => exact iff_of_true ⟨_, rfl⟩ rfl
  case isFalse onTime =>
    split
    case isTrue late =>
      rw [← Date.next_isSome_iff, and_iff_right fun early => absurd early onTime,
        imp_iff_right late]
      cases moment.date.next with
      | none => exact iff_of_false (fun ⟨result, done⟩ => by cases done) Bool.false_ne_true
      | some date => exact iff_of_true ⟨_, rfl⟩ rfl
    case isFalse early =>
      exact iff_of_true ⟨_, rfl⟩ ⟨fun less => absurd less onTime, fun late => absurd late early⟩

end Stamp

end JobAgg
