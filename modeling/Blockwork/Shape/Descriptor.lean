import Blockwork.Shape.Basic
import Blockwork.Value.Tree

/-!
Shapes described in JSON.  A descriptor is the name of a primitive kind, `"block"`, or an object with
one field: `union` with a list of descriptors, `array` with one, `object` with one for each field, or
`literal` with any document.
-/

namespace Blockwork.Shape

/-- Lets a shape through if it is well formed. -/
def checked (s : Shape) : Except ShapeError Shape :=
  match s.check with
  | .ok () => .ok s
  | .error e => .error e

mutual

/-- Reads a descriptor.  What is read is well formed at every level. -/
def ofDescriptor : Json → Except ShapeError Shape
  | .str name =>
    if name = "block" then .ok .block
    else
      match Kind.ofName? name with
      | some k => checked (.kind k)
      | none => .error (.unknownKind name)
  | .obj [("union", .arr items)] => do checked (.union (← ofDescriptors items))
  | .obj [("array", inner)] => do checked (.arrayOf (← ofDescriptor inner))
  | .obj [("object", .obj fields)] => do checked (.objectOf (← ofFieldDescriptors fields))
  | .obj [("literal", value)] => .ok (.literal (Value.ofJson value))
  | other => .error (.unrecognized other)

/-- Reads each descriptor in turn. -/
def ofDescriptors : List Json → Except ShapeError (List Shape)
  | [] => .ok []
  | j :: rest => do
    let s ← ofDescriptor j
    let more ← ofDescriptors rest
    pure (s :: more)

/-- Reads the descriptor of each field in turn. -/
def ofFieldDescriptors : List (String × Json) → Except ShapeError (List (String × Shape))
  | [] => .ok []
  | (name, j) :: rest => do
    let s ← ofDescriptor j
    let more ← ofFieldDescriptors rest
    pure ((name, s) :: more)

end

end Blockwork.Shape
