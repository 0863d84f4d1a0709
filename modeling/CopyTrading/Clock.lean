import Mathlib.Data.Int.Basic

namespace CopyTrading

/-- UTC instants, in nanoseconds since the epoch. -/
abbrev DateTime := Int

/-- Whole seconds since the epoch, rounded down. -/
def timestamp (t : DateTime) : Int := t / 1000000000

/-- A signed duration in whole milliseconds, truncated towards zero. -/
def numMilliseconds (d : Int) : Int := d.tdiv 1000000

def hours (n : Int) : Int := n * 3600000000000

def dayNumber (t : DateTime) : Int := t / 86400000000000

/-- Day of the 400-year cycle that starts on 1 March of year 0. -/
def dayOfEra (t : DateTime) : Nat := ((dayNumber t + 719468) % 146097).toNat

def yearOfEra (doe : Nat) : Nat := (doe - doe / 1460 + doe / 36524 - doe / 146096) / 365

def dayOfMarchYear (doe : Nat) : Nat :=
  doe - (365 * yearOfEra doe + yearOfEra doe / 4 - yearOfEra doe / 100)

def isLeapYear (y : Nat) : Bool := y % 4 == 0 && (y % 100 != 0 || y % 400 == 0)

/-- The day of the year, counted from one. The year itself is not part of it. -/
def ordinal (t : DateTime) : Nat :=
  let doe := dayOfEra t
  let doy := dayOfMarchYear doe
  if doy < 306 then doy + (if isLeapYear (yearOfEra doe) then 61 else 60) else doy - 305

/-- `Utc.timestamp_opt`: none outside the years that the calendar library represents. -/
def timestampOpt (secs : Int) (nanos : Nat) : Option DateTime :=
  if -8334601228800 ≤ secs ∧ secs ≤ 8210266876799 then some (secs * 1000000000 + nanos) else none

/-- Seconds or milliseconds since the epoch: the unit is inferred by magnitude. -/
def epochToUtc (v : Int) : Option DateTime :=
  if v > 100000000000 then timestampOpt (v / 1000) ((v % 1000).toNat * 1000000)
  else timestampOpt v 0

-- 1 January 1970, 29 February 2024 and 31 December 2024
example : ordinal 0 = 1 := by decide
example : ordinal (19782 * 86400000000000) = 60 := by decide
example : ordinal (20088 * 86400000000000) = 366 := by decide

end CopyTrading
