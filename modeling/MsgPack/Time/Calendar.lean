import MsgPack.Time.Timestamp

/-!
# Dates, times of day and instants

Dates of the proleptic Gregorian calendar and the numbers of their days, the first of
January of the year 1 being day 1.  The count runs in eras of 400 years that begin with
March, so that the leap day is the last of its year.  Instants are seconds since the epoch
with a fraction; a fraction of more than a second marks a leap second, which no timestamp
can express.
-/

namespace MsgPack

/-! ## Dates -/

/-- A date; the year 0 comes before the year 1. -/
structure Date where
  year : Int
  month : Nat
  day : Nat
  deriving DecidableEq

namespace Date

/-- The days before a month, counted from the first of March. -/
def daysBeforeMonth (monthsFromMarch : Int) : Int :=
  (153 * monthsFromMarch + 2) / 5

/-- The number of a date. -/
def number (date : Date) : Int :=
  let year := if date.month ≤ 2 then date.year - 1 else date.year
  let era := year.fdiv 400
  let yearOfEra := year - era * 400
  let dayOfYear := daysBeforeMonth ((date.month + 9) % 12 : Nat) + date.day - 1
  let dayOfEra := yearOfEra * 365 + yearOfEra / 4 - yearOfEra / 100 + dayOfYear
  era * 146097 + dayOfEra - 305

/-- The date with a number. -/
def ofNumber (number : Int) : Date :=
  let era := (number + 305).fdiv 146097
  let dayOfEra := number + 305 - era * 146097
  let yearOfEra :=
    (dayOfEra - dayOfEra / 1460 + dayOfEra / 36524 - dayOfEra / 146096) / 365
  let dayOfYear := dayOfEra - (365 * yearOfEra + yearOfEra / 4 - yearOfEra / 100)
  let monthsFromMarch := (5 * dayOfYear + 2) / 153
  let month := if monthsFromMarch < 10 then monthsFromMarch + 3 else monthsFromMarch - 9
  let year := yearOfEra + era * 400
  { year := if month ≤ 2 then year + 1 else year
    month := month.toNat
    day := (dayOfYear - daysBeforeMonth monthsFromMarch + 1).toNat }

/-- The least year. -/
def minYear : Int := -262143

/-- The greatest year. -/
def maxYear : Int := 262142

/-- The date with a number, if its year is one of those that dates may have. -/
def ofNumber? (number : Int) : Option Date :=
  let date := ofNumber number
  if minYear ≤ date.year ∧ date.year ≤ maxYear then some date else none

end Date

/-! ## Times of day -/

/-- A time of day, in seconds since midnight. -/
structure ClockTime where
  seconds : Nat
  nanoseconds : Nat
  deriving DecidableEq

/-- The time of day with these parts.  A fraction of more than a second stands for a leap
second, which only the last second of a minute can be. -/
def ClockTime.ofParts? (seconds nanoseconds : Nat) : Option ClockTime :=
  if seconds < 86400 ∧ nanoseconds < 2 * nanosecondsPerSecond
      ∧ (nanoseconds < nanosecondsPerSecond ∨ seconds % 60 = 59) then
    some ⟨seconds, nanoseconds⟩
  else none

/-! ## Instants -/

/-- An instant; a fraction of more than a second stands for a leap second. -/
structure Instant where
  seconds : Int
  nanoseconds : Nat
  deriving DecidableEq

namespace Instant

/-- The first second of the least year. -/
def minSeconds : Int := -8334601228800

/-- The last second of the greatest year. -/
def maxSeconds : Int := 8210266876799

/-- The instant of a timestamp, if it lies in one of the years that dates may have. -/
def ofTimestamp (timestamp : Timestamp) : Except Error Instant :=
  let seconds := timestamp.seconds.toInt
  if minSeconds ≤ seconds ∧ seconds ≤ maxSeconds then .ok ⟨seconds, timestamp.nanoseconds⟩
  else .error (.invalidValue (.timestampRange seconds timestamp.nanoseconds))

/-- The timestamp of an instant, unless it is a leap second. -/
def toTimestamp (instant : Instant) : Except Error Timestamp :=
  Timestamp.ofParts (Int64.ofInt instant.seconds) instant.nanoseconds

end Instant

/-- An instant and the offset of a clock from UTC. -/
structure ZonedInstant where
  instant : Instant
  /-- How many seconds the clock is ahead. -/
  offset : Int
  deriving DecidableEq

namespace ZonedInstant

/-- The instant that a timestamp and an offset in minutes give. -/
def ofTimestamp (timestamp : Timestamp) (minutes : Int16) : Except Error ZonedInstant :=
  if -1440 < minutes.toInt ∧ minutes.toInt < 1440 then do
    return ⟨← Instant.ofTimestamp timestamp, minutes.toInt * 60⟩
  else .error (.invalidValue (.utcOffset minutes.toInt))

/-- The timestamp and the offset in minutes of an instant. -/
def toTimestamp (zoned : ZonedInstant) : Except Error (Timestamp × Int16) :=
  if zoned.offset.tmod 60 = 0 then do
    return (← zoned.instant.toTimestamp, Int16.ofInt (zoned.offset.tdiv 60))
  else .error (.unwritable (.utcOffset zoned.offset))

end ZonedInstant

end MsgPack
