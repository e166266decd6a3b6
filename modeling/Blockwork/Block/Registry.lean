import Blockwork.Block.Basic

/-!
The set of block definitions that a scene uses.  An opcode is defined once and keeps its prototype.
-/

namespace Blockwork

/-- Prototypes by opcode. -/
structure Registry where
  prototypes : Table Prototype := []
  deriving Inhabited

namespace Registry

def get? (r : Registry) (opcode : String) : Option Prototype := Table.get? opcode r.prototypes

def contains (r : Registry) (opcode : String) : Bool := Table.contains opcode r.prototypes

/-- Adds a prototype whose opcode is new. -/
def register (r : Registry) (p : Prototype) : Except DefinitionError Registry :=
  if r.contains p.opcode then .error (.duplicateOpcode p.opcode)
  else .ok ⟨Table.insert p.opcode p r.prototypes⟩

/-- The prototype of an opcode, which must be known. -/
def require (r : Registry) (opcode : String) : Except DefinitionError Prototype :=
  match r.get? opcode with
  | some p => .ok p
  | none => .error (.unknownOpcode opcode)

def size (r : Registry) : Nat := r.prototypes.length

/-- The opcodes in increasing order. -/
def opcodes (r : Registry) : List String :=
  (Table.names r.prototypes).mergeSort fun a b => decide (a ≤ b)

end Registry

end Blockwork
