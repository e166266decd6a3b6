import Blockwork.Engine.Signal
import Blockwork.Time

/-!
Timers: the delays under way, and the stopwatch that programs can read.  A delay settles its signal
when the timers are fired at or after the moment it is due.
-/

namespace Blockwork

/-- A delay under way. -/
structure Timer where
  due : Nanos
  token : Token
  deriving DecidableEq, Repr, Inhabited

structure Timers where
  pending : List Timer := []
  /-- When the stopwatch was started. -/
  origin : Nanos := 0
  deriving DecidableEq, Repr, Inhabited

/-- Takes the entry at a position out of a list; the last entry moves into its place. -/
def swapRemove {α : Type} (i : Nat) (xs : List α) : List α :=
  match xs.getLast? with
  | none => []
  | some last => (xs.set i last).dropLast

namespace Timers

/-- Starts a delay of the given length; its signal is settled with null.  The moment at which it is due
is a sum without a bound: a delay past `2 ^ 64` seconds, where a sum in 64 bits would fail, is started
like any other. -/
def delay (now length : Nanos) (ts : Timers) (s : Signals) : Awaitable × Timers × Signals :=
  let (token, s) := s.fresh
  (.waiting token, { ts with pending := ts.pending ++ [⟨now + length, token⟩] }, s)

/-- Looks at the delays from a position on, as often as `looks` allows.  One that is due is taken out
and settled, the last one moves into its place, and that is where the next look goes. -/
def fireFrom (now : Nanos) : Nat → Nat → List Timer → Signals → Nat × List Timer × Signals
  | 0, _, pending, s => (0, pending, s)
  | looks + 1, i, pending, s =>
    match pending[i]? with
    | none => (0, pending, s)
    | some t =>
      if t.due ≤ now then
        let (fired, pending, s) :=
          fireFrom now looks i (swapRemove i pending) (s.settle t.token .null)
        (fired + 1, pending, s)
      else fireFrom now looks (i + 1) pending s

/-- Settles every delay that is due, and says how many there were.  Each delay is looked at once. -/
def fireDue (now : Nanos) (ts : Timers) (s : Signals) : Nat × Timers × Signals :=
  let (fired, pending, s) := fireFrom now ts.pending.length 0 ts.pending s
  (fired, { ts with pending }, s)

/-- Seconds on the stopwatch. -/
def elapsedSeconds (now : Nanos) (ts : Timers) : Float := secondsOfNanos (now - ts.origin)

/-- Restarts the stopwatch. -/
def reset (now : Nanos) (ts : Timers) : Timers := { ts with origin := now }

/-- Drops every delay under way; what waits for one waits in vain. -/
def clear (ts : Timers) (s : Signals) : Timers × Signals :=
  ({ ts with pending := [] }, s.abandonAll (ts.pending.map (·.token)))

end Timers

end Blockwork
