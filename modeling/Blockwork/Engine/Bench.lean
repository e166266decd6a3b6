import Blockwork.Engine.Timers

/-!
A bench for timers: one clock, one set of timers, and the waits that were begun on them, by number.
-/

namespace Blockwork

/-- A wait that was begun: what is waited for, while somebody still waits, and the token, while it is
held on the bench and not by a timer. -/
structure Wait where
  awaitable : Option Awaitable
  token : Option Token := none
  deriving Inhabited

structure Bench where
  clock : Clock := {}
  timers : Timers := {}
  signals : Signals := {}
  waits : List Wait := []
  deriving Inhabited

namespace Bench

/-- A bench whose stopwatch starts at the clock's reading. -/
def ofClock (clock : Clock) : Bench := { clock, timers := { origin := clock.now } }

/-- Adds a wait, and says its number. -/
def add (w : Wait) (b : Bench) : Nat × Bench := (b.waits.length, { b with waits := b.waits ++ [w] })

/-- Starts a delay. -/
def delay (length : Nanos) (b : Bench) : Nat × Bench :=
  let (awaitable, timers, signals) := b.timers.delay b.clock.now length b.signals
  add ⟨some awaitable, none⟩ { b with timers, signals }

/-- Begins a signal whose token stays on the bench. -/
def begin (b : Bench) : Nat × Bench :=
  let (token, signals) := b.signals.fresh
  add ⟨some (.waiting token), some token⟩ { b with signals }

/-- Begins a wait for a value that is there. -/
def ready (v : Value) (b : Bench) : Nat × Bench := b.add ⟨some (.ready (some v)), none⟩

/-- Looks at a wait that somebody still waits for. -/
def poll? (i : Nat) (b : Bench) : Option (Poll × Bench) := do
  let w ← b.waits[i]?
  let a ← w.awaitable
  let (p, a) := a.poll b.signals
  pure (p, { b with waits := b.waits.set i { w with awaitable := some a } })

/-- Gives up waiting. -/
def dropWait? (i : Nat) (b : Bench) : Option Bench := do
  let w ← b.waits[i]?
  pure { b with waits := b.waits.set i { w with awaitable := none } }

/-- Takes a token off the bench; `conclude` says what becomes of its signal. -/
def takeToken? (i : Nat) (conclude : Token → Signals → Signals) (b : Bench) : Option Bench := do
  let w ← b.waits[i]?
  let t ← w.token
  pure { b with signals := conclude t b.signals, waits := b.waits.set i { w with token := none } }

/-- Whether nobody waits any more for a signal whose token is on the bench. -/
def isClosed? (i : Nat) (b : Bench) : Option Bool := do
  let w ← b.waits[i]?
  let _ ← w.token
  pure w.awaitable.isNone

/-- Lets go of a token. -/
def dropToken? (i : Nat) (b : Bench) : Option Bench := b.takeToken? i Signals.abandon

/-- Settles a signal, and says whether somebody was waiting for it. -/
def settle? (i : Nat) (v : Value) (b : Bench) : Option (Bool × Bench) := do
  let closed ← b.isClosed? i
  let b ← b.takeToken? i (Signals.settle · v)
  pure (!closed, b)

/-- Settles the delays that are due. -/
def fire (b : Bench) : Nat × Bench :=
  let (fired, timers, signals) := b.timers.fireDue b.clock.now b.signals
  (fired, { b with timers, signals })

def reset (b : Bench) : Bench := { b with timers := b.timers.reset b.clock.now }

def clear (b : Bench) : Bench :=
  let (timers, signals) := b.timers.clear b.signals
  { b with timers, signals }

def advance (span : Nanos) (b : Bench) : Bench := { b with clock := b.clock.advance span }

def setClock (reading : Nanos) (b : Bench) : Bench := { b with clock := b.clock.set reading }

end Bench

end Blockwork
