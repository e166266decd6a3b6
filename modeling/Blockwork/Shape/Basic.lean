import Blockwork.Value.Basic
import Blockwork.Json.Basic

/-!
Shapes: what an input of a block may hold.
-/

namespace Blockwork

/-- What an input may hold. -/
inductive Shape where
  /-- A literal of a primitive kind. -/
  | kind (k : Kind)
  /-- A nested block. -/
  | block
  /-- Any of the listed shapes. -/
  | union (members : List Shape)
  /-- A stack of blocks or a literal list, each element of the shape. -/
  | arrayOf (element : Shape)
  /-- A literal object with at least these fields. -/
  | objectOf (fields : List (String × Shape))
  /-- Exactly this literal. -/
  | literal (value : Value)
  deriving Inhabited

/-- What can be wrong with a shape or with its description. -/
inductive ShapeError where
  | notPrimitive (kind : Kind)
  | emptyUnion
  | unnamedField
  | unknownKind (name : String)
  | unrecognized (descriptor : Json)

namespace ShapeError

def message : ShapeError → String
  | notPrimitive kind => "`" ++ kind.name ++ "` is not a primitive kind"
  | emptyUnion => "union has no members"
  | unnamedField => "object field with an empty name"
  | unknownKind name => "unknown kind `" ++ name ++ "`"
  | unrecognized descriptor => "unrecognized descriptor `" ++ descriptor.compact ++ "`"

end ShapeError

namespace Shape

def string : Shape := .kind .string

def number : Shape := .kind .number

def boolean : Shape := .kind .boolean

def null : Shape := .kind .null

/-- A slot: a literal of the kind, free text, or a nested block. -/
def slot (k : Kind) : Shape :=
  .union ([.kind k] ++ (if k = .string then [] else [string]) ++ [.block])

/-- A slot for any primitive literal or a nested block. -/
def any : Shape := .union [null, boolean, number, string, .block]

/-- A mouth: a stack of blocks, or nothing. -/
def substack : Shape := .union [.arrayOf .block, null]

/-- A menu: a fixed text. -/
def field : Shape := string

/-- A truth slot; an empty one reads as false. -/
def condition : Shape := .union [slot .boolean, null]

mutual

/-- Checks that the shape is well formed, and says what is wrong first. -/
def check : Shape → Except ShapeError Unit
  | .kind k => if k.isPrimitive then .ok () else .error (.notPrimitive k)
  | .block => .ok ()
  | .literal _ => .ok ()
  | .union members => if members.isEmpty then .error .emptyUnion else checkAll members
  | .arrayOf element => check element
  | .objectOf fields =>
    if fields.any (·.1 = "") then .error .unnamedField else checkFields fields

/-- Checks each shape in turn. -/
def checkAll : List Shape → Except ShapeError Unit
  | [] => .ok ()
  | s :: rest =>
    match check s with
    | .ok () => checkAll rest
    | .error e => .error e

/-- Checks the shape of each field in turn. -/
def checkFields : List (String × Shape) → Except ShapeError Unit
  | [] => .ok ()
  | (_, s) :: rest =>
    match check s with
    | .ok () => checkFields rest
    | .error e => .error e

end

mutual

/-- Whether a value has the shape. -/
def acceptsValue : Shape → Value → Bool
  | .kind k, v => v.kind = k
  | .block, _ => false
  | .union members, v => anyAcceptsValue members v
  | .arrayOf element, .list items => items.all fun v => acceptsValue element v
  | .arrayOf _, _ => false
  | .objectOf fields, .obj values => acceptsFields fields values
  | .objectOf _, _ => false
  | .literal expected, v => v.same expected

/-- Whether one of the shapes accepts the value. -/
def anyAcceptsValue : List Shape → Value → Bool
  | [], _ => false
  | s :: rest, v => acceptsValue s v || anyAcceptsValue rest v

/-- Whether each field is there and has its shape. -/
def acceptsFields : List (String × Shape) → List (String × Value) → Bool
  | [], _ => true
  | (name, s) :: rest, values =>
    (match Record.get? name values with
      | some v => acceptsValue s v
      | none => false) && acceptsFields rest values

end

end Shape

end Blockwork
