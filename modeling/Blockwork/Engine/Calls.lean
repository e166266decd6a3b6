import Blockwork.Table
import Blockwork.Value.Basic

/-!
The calls of custom blocks that a thread is in.
-/

namespace Blockwork

/-- One call under way: which custom block, with which arguments, and whether in warp mode. -/
structure Call where
  procedure : String
  args : Table Value
  warp : Bool
  deriving Inhabited

/-- The calls under way, the innermost first, with the number of warp calls among them. -/
structure CallStack where
  calls : List Call := []
  warpDepth : Nat := 0
  deriving Inhabited

namespace CallStack

/-- Whether a custom block is being run already. -/
def contains (s : CallStack) (procedure : String) : Bool :=
  s.calls.any (·.procedure = procedure)

def push (c : Call) (s : CallStack) : CallStack :=
  { calls := c :: s.calls, warpDepth := if c.warp then s.warpDepth + 1 else s.warpDepth }

def pop (s : CallStack) : Option Call × CallStack :=
  match s.calls with
  | [] => (none, s)
  | c :: rest =>
    (some c, { calls := rest, warpDepth := if c.warp then s.warpDepth - 1 else s.warpDepth })

def top? (s : CallStack) : Option Call := s.calls.head?

def depth (s : CallStack) : Nat := s.calls.length

end CallStack

end Blockwork
