import Blockwork.Error
import Blockwork.Operation
import Blockwork.Shape.Descriptor

/-!
Prototypes and blocks.

A prototype says what a kind of block is: its opcode, the shapes of its inputs, and what it does.  A
block binds a prototype to inputs.  A block can be built only if its inputs fit: every given input is
declared and has its shape, and a declared input that is not given may be null.
-/

namespace Blockwork

/-- When a hat starts its script. -/
inductive HatKind where
  /-- On an event.  With a key input, only on triggers whose key is the literal in that input. -/
  | event (name : String) (keyInput : Option String)
  /-- When the truth of the hat's own report goes from false to true. -/
  | edge
  deriving DecidableEq, Repr

/-- What makes a block a hat. -/
structure Hat where
  kind : HatKind
  /-- Whether firing restarts a thread that already runs the script. -/
  restart : Bool
  deriving DecidableEq, Repr

namespace Hat

/-- An event hat that does not restart. -/
def event (name : String) : Hat := ⟨.event name none, false⟩

/-- An edge hat; these restart. -/
def edge : Hat := ⟨.edge, true⟩

def restarting (restart : Bool) (h : Hat) : Hat := { h with restart }

/-- Matches triggers by the literal in an input.  Edge hats have no triggers to match. -/
def keyedBy (input : String) (h : Hat) : Hat :=
  match h.kind with
  | .event name _ => { h with kind := .event name (some input) }
  | .edge => h

def isEdge (h : Hat) : Bool := h.kind = .edge

end Hat

/-- What a kind of block is. -/
structure Prototype where
  opcode : String
  /-- The inputs in the order of their evaluation. -/
  inputs : Table Shape
  operation : Operation
  /-- The kinds that the block may report; commands report none. -/
  returns : Option (List Kind)
  isPure : Bool
  hat : Option Hat
  deriving Inhabited

namespace Prototype

def isReporter (p : Prototype) : Bool := p.returns.isSome

end Prototype

/-- A prototype as a host writes it down, not yet checked. -/
structure Definition where
  opcode : String
  inputs : List (String × Except ShapeError Shape) := []
  operation : Option Operation := none
  returns : Option (List Kind) := none
  isPure : Bool := false
  hat : Option Hat := none

namespace Definition

/-- Checks the declared inputs in order: each shape must be well formed, and no name may come
twice. -/
def checkInputs (opcode : String) :
    List (String × Except ShapeError Shape) → Table Shape → Except DefinitionError (Table Shape)
  | [], done => .ok done
  | (name, shape) :: rest, done =>
    match shape.bind Shape.checked with
    | .error e => .error (.malformedDescriptor opcode name e.message)
    | .ok s =>
      if Table.contains name done then
        .error (.malformedDescriptor opcode name "input declared twice")
      else checkInputs opcode rest (Table.insert name s done)

/-- Checks a definition.  A hat may go without an operation; it does nothing when it is reached. -/
def build (d : Definition) : Except DefinitionError Prototype :=
  match checkInputs d.opcode d.inputs [] with
  | .error e => .error e
  | .ok inputs =>
    let prototype (operation : Operation) : Prototype :=
      { opcode := d.opcode
        inputs
        operation
        returns := d.returns.map fun kinds => Kind.all.filter fun k => kinds.contains k
        isPure := d.isPure
        hat := d.hat }
    match d.operation, d.hat with
    | some operation, _ => .ok (prototype operation)
    | none, some _ => .ok (prototype (.eager .idle))
    | none, none => .error (.missingExecute d.opcode)

end Definition

mutual

/-- A prototype bound to inputs.  Two blocks are the same block if they carry the same stamp. -/
inductive Block where
  | mk (prototype : Prototype) (id : String) (stamp : Nat) (inputs : List (String × Input))

/-- What stands in an input. -/
inductive Input where
  | literal (value : Value)
  /-- A nested block, evaluated when its value is wanted. -/
  | block (b : Block)
  /-- A stack of blocks, run one after another. -/
  | stack (blocks : List Block)

end

instance : Inhabited Input := ⟨.literal .null⟩

instance : Inhabited Block := ⟨.mk default "" 0 []⟩

namespace Block

def prototype : Block → Prototype
  | .mk p _ _ _ => p

def id : Block → String
  | .mk _ i _ _ => i

def stamp : Block → Nat
  | .mk _ _ s _ => s

/-- The inputs in the order of their declaration. -/
def inputs : Block → Table Input
  | .mk _ _ _ is => is

def opcode (b : Block) : String := b.prototype.opcode

def hat (b : Block) : Option Hat := b.prototype.hat

def operation (b : Block) : Operation := b.prototype.operation

/-- What stands in a named input; null if there is no such input. -/
def input (b : Block) (name : String) : Input :=
  (Table.get? name b.inputs).getD (.literal .null)

end Block

namespace Input

/-- Sameness of inputs: literals by value, blocks by identity. -/
def same : Input → Input → Bool
  | .literal a, .literal b => a.same b
  | .block a, .block b => a.stamp = b.stamp
  | .stack as, .stack bs => as.map Block.stamp = bs.map Block.stamp
  | _, _ => false

end Input

/-! ### Shapes and inputs -/

mutual

/-- Whether an input has the shape. -/
def Shape.accepts : Shape → Input → Bool
  | .block, .block _ => true
  | .union members, i => Shape.anyAccepts members i
  | .arrayOf element, .stack blocks => blocks.all fun b => Shape.accepts element (.block b)
  | s, .literal v => s.acceptsValue v
  | _, _ => false

/-- Whether one of the shapes accepts the input. -/
def Shape.anyAccepts : List Shape → Input → Bool
  | [], _ => false
  | s :: rest, i => Shape.accepts s i || Shape.anyAccepts rest i

end

/-! ### Building blocks -/

namespace Block

/-- What a declared input is bound to: the given input if it fits, or null if none is given and the
shape allows null. -/
def bindInput (id opcode name : String) (shape : Shape) :
    Option Input → Except DefinitionError Input
  | some i => if shape.accepts i then .ok i else .error (.invalidInput id opcode name)
  | none =>
    if shape.acceptsValue .null then .ok (.literal .null)
    else .error (.missingInput id opcode name)

/-- Binds the declared inputs in order.  Each takes what is given for it. -/
def bindInputs (id opcode : String) :
    Table Input → Table Shape → Except DefinitionError (Table Input)
  | _, [] => .ok []
  | given, (name, shape) :: rest => do
    let i ← bindInput id opcode name shape (Table.get? name given)
    let more ← bindInputs id opcode (Table.erase name given) rest
    pure ((name, i) :: more)

/-- Binds a prototype to the given inputs. -/
def build (p : Prototype) (id : String) (stamp : Nat) (given : Table Input) :
    Except DefinitionError Block :=
  match (Table.names given).find? fun name => !Table.contains name p.inputs with
  | some name => .error (.unexpectedInput id p.opcode name)
  | none => (bindInputs id p.opcode given p.inputs).map (.mk p id stamp)

mutual

/-- Whether the block is pure and all it depends on is constant. -/
def isConstant : Block → Bool
  | .mk p _ _ inputs => p.isPure && areConstant inputs

/-- Whether the input does not change: a literal or a constant block. -/
def isConstantInput : Input → Bool
  | .literal _ => true
  | .block b => isConstant b
  | .stack _ => false

/-- Whether every input is constant. -/
def areConstant : List (String × Input) → Bool
  | [] => true
  | (_, i) :: rest => isConstantInput i && areConstant rest

end

end Block

end Blockwork
