import Blockwork.Block.Registry
import Blockwork.Scene.Target

/-!
Scenes: the targets that scripts run on, the block definitions they use, and the custom blocks.

A name that a target does not have is looked up on the stage.
-/

namespace Blockwork

/-- A custom block: its declaration and, once attached, its body. -/
structure Procedure where
  declaration : Declaration
  body : Option (List Block) := none
  deriving Inhabited

/-- The definition of a procedure's call block: one input for each parameter. -/
def Declaration.callDefinition (d : Declaration) : Definition :=
  { opcode := d.signature
    inputs := d.params.map fun p => (p, .ok Shape.any)
    operation := some (.call d) }

structure Scene where
  targets : List Target := []
  /-- Where the stage is, if there is one. -/
  stage : Option Nat := none
  registry : Registry := {}
  procedures : List Procedure := []
  deriving Inhabited

namespace Scene

/-! ### Targets -/

def target? (s : Scene) (i : Nat) : Option Target := s.targets[i]?

/-- Adds a target and says where it is.  There is at most one stage. -/
def addTarget (s : Scene) (t : Target) : Except DefinitionError (Nat × Scene) :=
  let id := s.targets.length
  let added := { s with targets := s.targets ++ [t] }
  if t.isStage then
    match s.stage with
    | some existing =>
      .error (.duplicateStage ((s.target? existing).elim "" Target.name) t.name)
    | none => .ok (id, { added with stage := some id })
  else .ok (id, added)

def findTarget? (s : Scene) (name : String) : Option Nat := s.targets.findIdx? (·.name = name)

def modifyTarget (i : Nat) (f : Target → Target) (s : Scene) : Scene :=
  { s with targets := s.targets.modify i f }

/-- Gives a target another script. -/
def addScript (i : Nat) (script : Script) (s : Scene) : Scene :=
  s.modifyTarget i fun t => { t with scripts := t.scripts ++ [script] }

/-- Every script with its target, in scene order. -/
def scripts (s : Scene) : List (Nat × Script) :=
  s.targets.zipIdx.flatMap fun (t, i) => t.scripts.map (i, ·)

/-! ### Custom blocks -/

/-- Declares a custom block and registers its call block.  The body comes later. -/
def declare (s : Scene) (d : Declaration) : Except DefinitionError Scene := do
  let p ← d.callDefinition.build
  let registry ← s.registry.register p
  pure { s with registry, procedures := s.procedures ++ [{ declaration := d }] }

def procedure? (s : Scene) (signature : String) : Option Procedure :=
  s.procedures.find? (·.declaration.signature = signature)

/-- The body of the custom block with the signature, once it has one. -/
def bodyOf? (s : Scene) (signature : String) : Option (List Block) :=
  (s.procedure? signature).bind (·.body)

/-- Attaches a body.  Only the first one for a signature is taken. -/
def define (s : Scene) (signature : String) (body : List Block) : Except DefinitionError Scene :=
  match s.procedure? signature with
  | none => .error (.unknownOpcode signature)
  | some p =>
    if p.body.isSome then .error (.bodyAlreadyDefined signature)
    else
      let attach (q : Procedure) : Procedure :=
        if q.declaration.signature = signature then { q with body := some body } else q
      .ok { s with procedures := s.procedures.map attach }

/-- Every custom block must have a body. -/
def validate (s : Scene) : Except DefinitionError Unit :=
  match s.procedures.find? (·.body.isNone) with
  | some p => .error (.missingBody p.declaration.signature)
  | none => .ok ()

/-! ### Variables and lists -/

/-- Who owns a name for a target: the target itself, else the stage. -/
def owner? (s : Scene) (i : Nat) (has : Target → Bool) : Option Nat :=
  if (s.target? i).any has then some i
  else s.stage.filter fun j => (s.target? j).any has

def variableOwner? (s : Scene) (i : Nat) (name : String) : Option Nat :=
  s.owner? i fun t => Table.contains name t.vars

def listOwner? (s : Scene) (i : Nat) (name : String) : Option Nat :=
  s.owner? i fun t => Table.contains name t.lists

/-- A variable as a target sees it. -/
def getVariable? (s : Scene) (i : Nat) (name : String) : Option Value :=
  (s.variableOwner? i name).bind fun j => (s.target? j).bind fun t => Table.get? name t.vars

/-- Sets a variable as a target sees it. -/
def setVariable? (s : Scene) (i : Nat) (name : String) (v : Value) : Option Scene :=
  (s.variableOwner? i name).map fun j =>
    s.modifyTarget j fun t => { t with vars := Table.insert name v t.vars }

/-- A list as a target sees it. -/
def getList? (s : Scene) (i : Nat) (name : String) : Option (List Value) :=
  (s.listOwner? i name).bind fun j => (s.target? j).bind fun t => Table.get? name t.lists

/-- Sets the items of a list as a target sees it. -/
def setList? (s : Scene) (i : Nat) (name : String) (items : List Value) : Option Scene :=
  (s.listOwner? i name).map fun j =>
    s.modifyTarget j fun t => { t with lists := Table.insert name items t.lists }

/-- Adds an item at the end of a list as a target sees it. -/
def pushList? (s : Scene) (i : Nat) (name : String) (v : Value) : Option Scene :=
  (s.getList? i name).bind fun items => s.setList? i name (items ++ [v])

end Scene

end Blockwork
