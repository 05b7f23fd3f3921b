/-!
# Instants

Points in time to the nanosecond, leap seconds included, and the time between them.

## Main definitions

* `Instant`: a day, a second of that day and a nanosecond.
* `Duration`: a time that has passed.
* `Instant.addNanos`: the instant some nanoseconds later.
* `Instant.elapsed?`: the time from one instant to a later one.

A leap second is the second after the one it is counted as: it has the number of the second before
it and a nanosecond from a thousand million on.
-/

namespace WorkflowChart

/-- The nanoseconds of a second. -/
def nanosPerSecond : Int := 1000000000

/-- The seconds of a day. -/
def secondsPerDay : Int := 86400

/-- A point in time. -/
structure Instant where
  /-- The number of the day, where day 0 is 1 January 1970. -/
  day : Int
  /-- The second of the day. -/
  second : Int
  /-- The nanosecond. In a leap second it counts on from a thousand million. -/
  nano : Int
deriving DecidableEq, Repr

/-- A time that has passed. -/
structure Duration where
  seconds : Nat
  nanos : Nat
deriving DecidableEq

namespace Instant

/-- The start of 1 January 1970. -/
def epoch : Instant := ⟨0, 0, 0⟩

/-- Whether an instant lies in a leap second. -/
def isLeap (t : Instant) : Bool :=
  nanosPerSecond ≤ t.nano

/-- The instant with its seconds and nanoseconds brought into the bounds of a day and a second. -/
def normalize (day second nano : Int) : Instant :=
  let second := second + nano / nanosPerSecond
  ⟨day + second / secondsPerDay, second % secondsPerDay, nano % nanosPerSecond⟩

/-- The instant some nanoseconds later. A leap second is left for the second after it, or for the
one before it when whole seconds go back; a step within it stays in it. -/
def addNanos (t : Instant) (nanos : Int) : Instant :=
  let seconds := Int.tdiv nanos nanosPerSecond
  let nanos := Int.tmod nanos nanosPerSecond
  if t.isLeap then
    if 0 < seconds ∨ 2 * nanosPerSecond ≤ t.nano + nanos then
      normalize t.day (t.second + seconds) (t.nano - nanosPerSecond + nanos)
    else if seconds < 0 then
      normalize t.day (t.second + 1 + seconds) (t.nano - nanosPerSecond + nanos)
    else ⟨t.day, t.second, t.nano + nanos⟩
  else normalize t.day (t.second + seconds) (t.nano + nanos)

/-- The seconds of the day from one instant to another. A leap second in between counts. -/
def secondsBetween (start stop : Instant) : Int :=
  let seconds := stop.second - start.second
  if start.second < stop.second ∧ start.isLeap then seconds + 1
  else if stop.second < start.second ∧ stop.isLeap then seconds - 1
  else seconds

/-- The nanoseconds from one instant to another. -/
def nanosBetween (start stop : Instant) : Int :=
  (secondsPerDay * (stop.day - start.day) + secondsBetween start stop) * nanosPerSecond
    + (stop.nano - start.nano)

/-- The time from one instant to another that is not earlier. -/
def elapsed? (start stop : Instant) : Option Duration :=
  let nanos := nanosBetween start stop
  if nanos < 0 then none
  else some ⟨(nanos / nanosPerSecond).toNat, (nanos % nanosPerSecond).toNat⟩

end Instant

end WorkflowChart
