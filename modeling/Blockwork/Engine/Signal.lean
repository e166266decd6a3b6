import Blockwork.Value.Basic

/-!
Signals: what waits hang on.

A signal is begun once and settled at most once.  Whoever is to settle it holds its token: a timer, a
broadcast under way, or the host.  If the last holder lets go of the token before that, the signal is
abandoned, and a wait for it never ends by itself.
-/

namespace Blockwork

/-- Names a signal. -/
abbrev Token := Nat

/-- What has become of a signal. -/
inductive Outcome where
  | pending
  | settled (value : Value)
  | abandoned
  deriving Inhabited

/-- Every signal begun so far, by token. -/
structure Signals where
  outcomes : Array Outcome := #[]
  /-- The tokens held by the host, in the order in which they were handed out. -/
  hosted : Array Token := #[]
  deriving Inhabited

namespace Signals

/-- Begins a signal. -/
def fresh (s : Signals) : Token × Signals :=
  (s.outcomes.size, { s with outcomes := s.outcomes.push .pending })

/-- Begins a signal whose token the host holds. -/
def freshHosted (s : Signals) : Token × Signals :=
  let (t, s) := s.fresh
  (t, { s with hosted := s.hosted.push t })

def outcome (s : Signals) (t : Token) : Outcome := s.outcomes[t]?.getD .abandoned

/-- Gives a pending signal its outcome; a signal has one outcome only. -/
def conclude (t : Token) (o : Outcome) (s : Signals) : Signals :=
  match s.outcome t with
  | .pending => { s with outcomes := s.outcomes.setIfInBounds t o }
  | _ => s

/-- Settles a signal. -/
def settle (t : Token) (v : Value) (s : Signals) : Signals := s.conclude t (.settled v)

/-- Lets go of a token. -/
def abandon (t : Token) (s : Signals) : Signals := s.conclude t .abandoned

/-- Lets go of each of the tokens. -/
def abandonAll (ts : List Token) (s : Signals) : Signals := ts.foldl (fun s t => s.abandon t) s

/-- Whether the signal still waits for its outcome. -/
def isPending (s : Signals) (t : Token) : Bool :=
  match s.outcome t with
  | .pending => true
  | _ => false

/-- The token that the host holds under a number, unless it has settled it or let go of it. -/
def hostToken? (s : Signals) (index : Nat) : Option Token := s.hosted[index]?.filter s.isPending

end Signals

/-- What a wait waits for: a value that is there, if it has not been handed out yet, or a signal. -/
inductive Awaitable where
  | ready (value : Option Value)
  | waiting (token : Token)
  deriving Inhabited

/-- What a look at an awaitable shows. -/
inductive Poll where
  | pending
  | settled (value : Value)
  | abandoned
  deriving Inhabited

/-- Looks at an awaitable.  A value is handed out once. -/
def Awaitable.poll (s : Signals) : Awaitable → Poll × Awaitable
  | .ready (some v) => (.settled v, .ready none)
  | .ready none => (.abandoned, .ready none)
  | .waiting t =>
    match s.outcome t with
    | .pending => (.pending, .waiting t)
    | .settled v => (.settled v, .ready none)
    | .abandoned => (.abandoned, .waiting t)

end Blockwork
