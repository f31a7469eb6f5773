import LiveCluster.Fault

/-!
# Instants

An instant is a civil date and time with an offset from UTC. Its time line is the
count of seconds since the first of January 1970, UTC; the calendar is the
Gregorian one, extended in both directions. Years are counted in shifted years that
begin in March, so that the leap day comes last and the months have a fixed rhythm.
-/

namespace LiveCluster

structure Instant where
  year : Int
  month : Nat
  day : Nat
  hour : Nat
  minute : Nat
  second : Nat
  microsecond : Nat := 0
  /-- Minutes east of UTC. -/
  offset : Int := 0
  deriving Repr, DecidableEq, Inhabited

/-- The days from the first of January 1970 to a date. -/
def daysOfDate (year : Int) (month day : Nat) : Int :=
  let y := if month ≤ 2 then year - 1 else year
  let era := y / 400
  let yearOfEra := y - era * 400
  let shifted : Int := ((month + 9) % 12 : Nat)
  let dayOfYear := (153 * shifted + 2) / 5 + day - 1
  let dayOfEra := yearOfEra * 365 + yearOfEra / 4 - yearOfEra / 100 + dayOfYear
  era * 146097 + dayOfEra - 719468

/-- The date that lies the given days after the first of January 1970. -/
def dateOfDays (days : Int) : Int × Int × Int :=
  let z := days + 719468
  let era := z / 146097
  let dayOfEra := z - era * 146097
  let yearOfEra := (dayOfEra - dayOfEra / 1460 + dayOfEra / 36524 - dayOfEra / 146096) / 365
  let dayOfYear := dayOfEra - (365 * yearOfEra + yearOfEra / 4 - yearOfEra / 100)
  let shifted := (5 * dayOfYear + 2) / 153
  let day := dayOfYear - (153 * shifted + 2) / 5 + 1
  let month := if shifted < 10 then shifted + 3 else shifted - 9
  let year := yearOfEra + era * 400
  (if month ≤ 2 then year + 1 else year, month, day)

namespace Instant

/-- The whole seconds from the start of 1970, UTC, to the instant, rounded down. -/
def seconds (t : Instant) : Int :=
  daysOfDate t.year t.month t.day * 86400
    + (t.hour * 3600 + t.minute * 60 + t.second : Nat) - t.offset * 60

/-- A number with at least two digits. -/
def pad (n : Int) : String :=
  if n < 10 then "0" ++ toString n else toString n

/-- The second of an instant in UTC, as `YYYY-MM-DDTHH:MM:SSZ`. Years are written
without leading zeros; the calendar ends after the year 9999 and begins with the
year 1, and an instant that lies outside in UTC has no such form. -/
def stamp (t : Instant) : Except Fault String :=
  let s := t.seconds
  let (year, month, day) := dateOfDays (s / 86400)
  let rest := s % 86400
  if year < 1 || year > 9999 then .error (.misfit .dateRange)
  else .ok (toString year ++ "-" ++ pad month ++ "-" ++ pad day ++ "T" ++ pad (rest / 3600)
    ++ ":" ++ pad (rest / 60 % 60) ++ ":" ++ pad (rest % 60) ++ "Z")

end Instant

end LiveCluster
