/-!
# The clock

A clock that moves only when told to, in microseconds. With a step set, each reading moves it on by
that step, so that a measured operation takes as long as the step. `wholeMillis?` is a measured time
as it is reported.
-/

namespace SectionStore

/-- A clock, in microseconds. -/
structure Clock where
  now : Nat
  /-- How far a reading moves the clock. -/
  step : Nat
  deriving DecidableEq, Repr

namespace Clock

/-- A clock that starts at zero and stands still. -/
def new : Clock :=
  ⟨0, 0⟩

def advance (clock : Clock) (micros : Nat) : Clock :=
  { clock with now := clock.now + micros }

/-- The clock after it has been read. -/
def afterReading (clock : Clock) : Clock :=
  clock.advance clock.step

/-- The greatest number of milliseconds that is reported. -/
def maxMillis : Nat :=
  0xffffffff

/-- The whole milliseconds in a number of microseconds, unless they are too many to be reported. -/
def wholeMillis? (micros : Nat) : Option Nat :=
  if micros / 1000 ≤ maxMillis then some (micros / 1000) else none

end Clock

end SectionStore
