import RoomHub.Text.Decimal

/-!
# Instants and their calendar dates

An `Instant` counts nanoseconds from the first moment of 1970 in universal time. Its date
is found in the proleptic Gregorian calendar, which repeats every 400 years of 146097
days: counting years from March puts the leap day last, so the months of a year begin
after 0, 31, 61, 92 … days whether the year is a leap year or not.
-/

namespace RoomHub

/-- A moment, as nanoseconds from the first moment of 1970. -/
structure Instant where
  nanos : Int
  deriving DecidableEq, Repr, Inhabited

namespace Instant

/-- The first moment of 1970. -/
def epoch : Instant := ⟨0⟩

/-- The moment so many milliseconds after the first of 1970. -/
def ofMillis (ms : Int) : Instant := ⟨ms * 1000000⟩

/-- The milliseconds passed since the first moment of 1970, rounded down. -/
def millis (t : Instant) : Int := t.nanos / 1000000

/-- The seconds passed since the first moment of 1970, rounded down. -/
def seconds (t : Instant) : Int := t.nanos / 1000000000

/-- The least and the greatest millisecond that a clock can show: the ends of the years
-262143 and 262142. -/
def clockRange : Int × Int := (-8334601228800000, 8210266876799999)

/-- What a clock set to a millisecond shows: that moment, or the first of 1970 when the
moment is out of its range. -/
def ofClock (ms : Int) : Instant :=
  if clockRange.1 ≤ ms ∧ ms ≤ clockRange.2 then ofMillis ms else epoch

end Instant

namespace Calendar

/-- A date: the year may be zero or negative. -/
structure Date where
  year : Int
  month : Nat
  day : Nat
  deriving DecidableEq, Repr

/-- The days from the first of March of the year 0 to the first day of 1970. -/
def epochOffset : Int := 719468

/-- The date so many days after the first of 1970. -/
def ofDays (days : Int) : Date :=
  let shifted := days + epochOffset
  let era := shifted / 146097
  let dayOfEra := (shifted % 146097).toNat
  let yearOfEra :=
    (dayOfEra - dayOfEra / 1460 + dayOfEra / 36524 - dayOfEra / 146096) / 365
  let dayOfYear := dayOfEra - (365 * yearOfEra + yearOfEra / 4 - yearOfEra / 100)
  let shiftedMonth := (5 * dayOfYear + 2) / 153
  let day := dayOfYear - (153 * shiftedMonth + 2) / 5 + 1
  let month := if shiftedMonth < 10 then shiftedMonth + 3 else shiftedMonth - 9
  let year := yearOfEra + 400 * era + (if month ≤ 2 then 1 else 0)
  ⟨year, month, day⟩

/-- The days from the first of 1970 to a date. -/
def toDays (d : Date) : Int :=
  let shiftedYear := if d.month ≤ 2 then d.year - 1 else d.year
  let era := shiftedYear / 400
  let yearOfEra := (shiftedYear % 400).toNat
  let shiftedMonth := if d.month > 2 then d.month - 3 else d.month + 9
  let dayOfYear := (153 * shiftedMonth + 2) / 5 + d.day - 1
  let dayOfEra := 365 * yearOfEra + yearOfEra / 4 - yearOfEra / 100 + dayOfYear
  era * 146097 + dayOfEra - epochOffset

/-- Four digits for the years 0 to 9999, and a sign with at least four digits for all
others. -/
def yearText (y : Int) : List Char :=
  if 0 ≤ y ∧ y ≤ 9999 then Text.Decimal.padded 4 y.toNat
  else (if y < 0 then '-' else '+') :: Text.Decimal.padded 4 y.natAbs

/-- The date and time of a moment in universal time, as RFC 3339 writes it, with three
digits of the second's fraction. -/
def rfc3339 (t : Instant) : String :=
  let ms := t.millis
  let date := ofDays (ms / 86400000)
  let ofDay := (ms % 86400000).toNat
  let two := Text.Decimal.padded 2
  String.ofList (yearText date.year ++ '-' :: two date.month ++ '-' :: two date.day ++
    'T' :: two (ofDay / 3600000) ++ ':' :: two (ofDay / 60000 % 60) ++
    ':' :: two (ofDay / 1000 % 60) ++ '.' :: Text.Decimal.padded 3 (ofDay % 1000) ++ ['Z'])

end Calendar

end RoomHub
