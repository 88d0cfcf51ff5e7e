set_option autoImplicit false

/-!
# Instants and durations

An instant is a count of milliseconds from the start of 2024, a duration a count
of milliseconds.  Instants lie in the years -262143 to 262142 of the Gregorian
calendar, carried on in both directions, and durations are signed 64-bit counts
other than the least.  What leaves these ranges has no result.
-/

namespace Lockstep.Calendar

/-- Days from the first day of the year 1 to the first day of a year. -/
def dayOfYear (year : Int) : Int :=
  let y := year - 1
  365 * y + y / 4 - y / 100 + y / 400

/-- The first millisecond of a year. -/
def startOfYear (year : Int) : Int := (dayOfYear year - dayOfYear 2024) * 86400000

/-- The first instant. -/
def first : Int := startOfYear (-262143)

/-- The last instant. -/
def last : Int := startOfYear 262143 - 1

/-- The longest duration. -/
def maxDuration : Int := 0x7FFFFFFFFFFFFFFF

/-- An instant, if it lies in the calendar. -/
def instant? (t : Int) : Option Int := if first ≤ t ∧ t ≤ last then some t else none

/-- A duration, if it can be told. -/
def duration? (d : Int) : Option Int :=
  if -maxDuration ≤ d ∧ d ≤ maxDuration then some d else none

/-- The instant some milliseconds after another, if both the wait and the
instant can be told. -/
def after? (t d : Int) : Option Int := (duration? d).bind fun d => instant? (t + d)

/-- A duration of whole seconds, if it can be told. -/
def seconds? (n : Int) : Option Int := duration? (n * 1000)

/-- A duration in microseconds, if a signed 64-bit count holds it. -/
def microseconds? (d : Int) : Option Int :=
  if -maxDuration - 1 ≤ d * 1000 ∧ d * 1000 ≤ maxDuration then some (d * 1000) else none

/-- What a sum that leaves the calendar crashes with. -/
def sumCrash : String := "`DateTime + TimeDelta` overflowed"

/-- What a difference that leaves the calendar crashes with. -/
def differenceCrash : String := "`DateTime - TimeDelta` overflowed"

end Lockstep.Calendar
