import Blockwork.Number.Dyad

/-!
Time.  Durations and clock readings are whole nanoseconds.
-/

namespace Blockwork

/-- Nanoseconds. -/
abbrev Nanos := Nat

def nanosPerSecond : Nat := 1000000000

/-- A number of seconds as a duration, rounded to the nearest nanosecond with ties to even.  It must
not be negative and must be below `2 ^ 64` seconds. -/
def nanosOfSeconds? (seconds : Float) : Option Nanos :=
  match Dyad.ofFloat? seconds with
  | none => none
  | some d =>
    if d.negative ∧ d.mantissa ≠ 0 then none
    else if pow2 64 * d.den ≤ d.num then none
    else some (divNearestEven (d.num * nanosPerSecond) d.den)

/-- A duration in seconds: the whole seconds, plus the rest divided by `10 ^ 9`. -/
def secondsOfNanos (n : Nanos) : Float :=
  doubleOfNat (n / nanosPerSecond) + doubleOfNat (n % nanosPerSecond) / 1000000000

/-- A year, in seconds. -/
def longestWait : Float := 31536000

/-- How long a wait of the given seconds takes: between nothing and a year. -/
def waitNanos (seconds : Float) : Nanos :=
  if seconds.isNaN then 0
  else
    let clamped := if seconds < 0 then 0 else if longestWait < seconds then longestWait else seconds
    (nanosOfSeconds? clamped).getD 0

/-- A clock that moves only when it is told to, in whole microseconds.  It counts them in 64 bits. -/
structure Clock where
  micros : UInt64 := 0
  deriving DecidableEq, Repr, Inhabited

namespace Clock

/-- The reading. -/
def now (c : Clock) : Nanos := c.micros.toNat * 1000

/-- Moves the clock on; a fraction of a microsecond is dropped. -/
def advance (span : Nanos) (c : Clock) : Clock := ⟨c.micros + UInt64.ofNat (span / 1000)⟩

/-- Puts the clock to a reading; a fraction of a microsecond is dropped. -/
def set (reading : Nanos) (_ : Clock) : Clock := ⟨UInt64.ofNat (reading / 1000)⟩

end Clock

end Blockwork
