import Bundling.Text.Decimal

/-!
Points in time by the Gregorian calendar in universal time. Years are counted from March, so that a
leap day is the last of its year.
-/

set_option autoImplicit false
set_option relaxedAutoImplicit false

namespace Bundling

/-- Seconds since the start of 1970 and microseconds within the second. -/
structure Instant where
  seconds : Nat
  micros : Nat
  deriving DecidableEq, Inhabited

namespace Instant

/-- The days from 1 March of the year 0 to 1 January 1970. -/
def epochDay : Nat := 719468

/-- The days of 400 years. -/
def cycleDays : Nat := 146097

/-- The year of a cycle that a day of it falls in, counted from March. -/
def yearOfCycle (day : Nat) : Nat := (day - day / 1460 + day / 36524 - day / 146096) / 365

/-- Year, month and day of a count of days since the start of 1970. -/
def date (days : Nat) : Nat × Nat × Nat :=
  let day := days + epochDay
  let inCycle := day % cycleDays
  let year := yearOfCycle inCycle
  let inYear := inCycle - (365 * year + year / 4 - year / 100)
  let month := (5 * inYear + 2) / 153
  let monthDay := inYear - (153 * month + 2) / 5 + 1
  let early := month < 10
  (day / cycleDays * 400 + year + if early then 0 else 1,
    if early then month + 3 else month - 9, monthDay)

def padded (width n : Nat) : List Char := (Decimal.ofNat n).leftpad width '0'

/-- Date and time with microseconds, the way logs write them. -/
def text (i : Instant) : String :=
  let (year, month, day) := date (i.seconds / 86400)
  let second := i.seconds % 86400
  String.ofList <| padded 4 year ++ '-' :: padded 2 month ++ '-' :: padded 2 day ++
    'T' :: padded 2 (second / 3600) ++ ':' :: padded 2 (second / 60 % 60) ++
    ':' :: padded 2 (second % 60) ++ '.' :: padded 6 i.micros ++ ['Z']

end Instant

end Bundling
