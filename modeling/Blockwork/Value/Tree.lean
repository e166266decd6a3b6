import Blockwork.Value.Basic
import Blockwork.Json.Basic

/-!
Values as JSON.  Plain JSON reads as the value it looks like.  The tagged form names the kind of each
value in a field `t` and holds its content in a field `v`, so that it can be read back.
-/

namespace Blockwork.Value

/-! ### Plain JSON -/

mutual

/-- The value that a JSON document looks like. -/
def ofJson : Json → Value
  | .null => .null
  | .bool b => .bool b
  | .int n => .num (doubleOfInt n)
  | .real x => .num x
  | .str s => .str s
  | .arr items => .list (ofJsonItems items)
  | .obj fields => .obj (ofJsonFields fields)

def ofJsonItems : List Json → List Value
  | [] => []
  | j :: rest => ofJson j :: ofJsonItems rest

def ofJsonFields : List (String × Json) → List (String × Value)
  | [] => []
  | (name, j) :: rest => (name, ofJson j) :: ofJsonFields rest

end

/-! ### The tagged form -/

/-- The tag of a kind. -/
def tag : Kind → String
  | .null => "Null"
  | .boolean => "Bool"
  | .number => "Num"
  | .string => "Str"
  | .list => "List"
  | .object => "Obj"

/-- The kind of a tag. -/
def kindOfTag? (name : String) : Option Kind := Kind.all.find? (tag · = name)

/-- A tagged node: `t` and, unless the content is absent, `v`. -/
def node (kind : Kind) (content : Option Json) : Json :=
  .obj (("t", .str (tag kind)) :: content.toList.map ("v", ·))

mutual

/-- The tagged form of a value.  A number that is not finite has no JSON form and becomes null. -/
def toTagged : Value → Json
  | .null => node .null none
  | .bool b => node .boolean (some (.bool b))
  | .num n => node .number (some (if n.isFinite then .real n else .null))
  | .str s => node .string (some (.str s))
  | .list items => node .list (some (.arr (toTaggedItems items)))
  | .obj fields => node .object (some (.obj (toTaggedFields fields)))

def toTaggedItems : List Value → List Json
  | [] => []
  | v :: rest => toTagged v :: toTaggedItems rest

def toTaggedFields : List (String × Value) → List (String × Json)
  | [] => []
  | (name, v) :: rest => (name, toTagged v) :: toTaggedFields rest

end

/-- Reads the tag of an object: its name, or an object whose one field has that name and holds null. -/
def readTag? : Json → Option Kind
  | .str name => kindOfTag? name
  | .obj [(name, .null)] => kindOfTag? name
  | _ => none

mutual

/-- Reads a tagged node: an object with a field `t` and a field `v`, or the pair of them in an
array.  Only null may go without content, and not in an array, where the tag is always its name. -/
def ofTagged? : Json → Option Value
  | .obj fields => (Record.get? "t" fields).bind readTag? |>.bind fun kind => findContent? kind fields
  | .arr items => ofTaggedPair? items
  | _ => none

/-- Reads a tag and a content that stand side by side. -/
def ofTaggedPair? : List Json → Option Value
  | .str name :: rest => (kindOfTag? name).bind fun kind => ofLastContent? kind rest
  | _ => none

/-- Reads the only item as the content. -/
def ofLastContent? (kind : Kind) : List Json → Option Value
  | [j] => ofContent? kind j
  | _ => none

/-- Reads the content in the field `v`. -/
def findContent? (kind : Kind) : List (String × Json) → Option Value
  | [] => if kind = .null then some .null else none
  | (name, j) :: rest => if name = "v" then ofContent? kind j else findContent? kind rest

/-- Reads the content of a node of the given kind. -/
def ofContent? (kind : Kind) : Json → Option Value
  | .null => if kind = .null then some .null else none
  | .bool b => if kind = .boolean then some (.bool b) else none
  | .int n => if kind = .number then some (.num (doubleOfInt n)) else none
  | .real x => if kind = .number then some (.num x) else none
  | .str s => if kind = .string then some (.str s) else none
  | .arr items => if kind = .list then (ofTaggedItems? items).map .list else none
  | .obj fields => if kind = .object then (ofTaggedFields? fields).map .obj else none

def ofTaggedItems? : List Json → Option (List Value)
  | [] => some []
  | j :: rest => do
    let v ← ofTagged? j
    let vs ← ofTaggedItems? rest
    pure (v :: vs)

def ofTaggedFields? : List (String × Json) → Option (List (String × Value))
  | [] => some []
  | (name, j) :: rest => do
    let v ← ofTagged? j
    let fields ← ofTaggedFields? rest
    pure ((name, v) :: fields)

end

end Blockwork.Value
