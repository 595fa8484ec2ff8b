/-!
# Calendar dates of epoch seconds

The proleptic Gregorian calendar in UTC, without leap seconds and with astronomical years: year 0
precedes year 1.  Dates are found by counting days from 1 March of year 0, so that a leap day ends
its year and every cycle of 400 years has the same 146097 days.

## Main definitions

* `DateTime` — a calendar date with a time of day.
* `DateTime.ofEpoch` — the date and time of any number of seconds since 1970.
* `DateTime.ofEpoch?` — the same within the years that dates are kept for.
-/

namespace TripleBarrier

/-- A calendar date and a time of day in UTC. -/
structure DateTime where
  year : Int
  month : Int
  day : Int
  hour : Int
  minute : Int
  second : Int
  deriving DecidableEq, Repr

namespace DateTime

/-- Days from 1 March of year 0 to 1 January 1970. -/
def epochDay : Int := 719468

/-- Year, month and day of a count of days since 1 March of year 0. -/
def dateOfDay (day : Int) : Int × Int × Int :=
  let cycle := day / 146097
  let inCycle := day % 146097
  let yearInCycle := (inCycle - inCycle / 1460 + inCycle / 36524 - inCycle / 146096) / 365
  let inYear := inCycle - (365 * yearInCycle + yearInCycle / 4 - yearInCycle / 100)
  let marchMonth := (5 * inYear + 2) / 153
  let month := if marchMonth < 10 then marchMonth + 3 else marchMonth - 9
  let year := yearInCycle + 400 * cycle + (if month ≤ 2 then 1 else 0)
  (year, month, inYear - (153 * marchMonth + 2) / 5 + 1)

/-- The date and time of a number of seconds since the start of 1970. -/
def ofEpoch (seconds : Int) : DateTime :=
  let (year, month, day) := dateOfDay (seconds / 86400 + epochDay)
  let inDay := seconds % 86400
  ⟨year, month, day, inDay / 3600, inDay / 60 % 60, inDay % 60⟩

/-- The date and time, if its year is one of those that dates are kept for. -/
def ofEpoch? (seconds : Int) : Option DateTime :=
  let d := ofEpoch seconds
  if -262143 ≤ d.year ∧ d.year ≤ 262142 then some d else none

end DateTime
end TripleBarrier
