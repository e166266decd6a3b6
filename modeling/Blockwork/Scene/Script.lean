import Blockwork.Block.Basic

/-!
Scripts: a run of blocks, of which the first may be a hat.
-/

namespace Blockwork

/-- One or more blocks; a hat stands only at the top. -/
structure Script where
  top : Block
  rest : List Block
  deriving Inhabited

namespace Script

/-- Blocks must not be empty, and only the first may be a hat. -/
def build : List Block → Except DefinitionError Script
  | [] => .error .emptyScript
  | top :: rest =>
    match rest.find? (·.hat.isSome) with
    | some b => .error (.misplacedHat b.id)
    | none => .ok ⟨top, rest⟩

def blocks (s : Script) : List Block := s.top :: s.rest

/-- The identity by which threads are matched to scripts. -/
def topId (s : Script) : String := s.top.id

def hat (s : Script) : Option Hat := s.top.hat

/-- What a thread runs: everything after the hat. -/
def body (s : Script) : List Block := if s.hat.isSome then s.rest else s.top :: s.rest

end Script

end Blockwork
