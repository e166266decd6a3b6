import Blockwork.Table
import Blockwork.Number.Decimal
import Blockwork.Text.Blank
import Blockwork.Text.Case

/-!
Values of block programs and their casts.

Block programs are loosely typed: any value may stand in any slot, and a block casts what it reads.
Text that spells a number counts as that number, text that does not counts as zero, and every value
has a text.
-/

namespace Blockwork

/-- A value.  The fields of an object are in increasing order of their names. -/
inductive Value where
  | null
  | bool (b : Bool)
  | num (n : Float)
  | str (s : String)
  | list (items : List Value)
  | obj (fields : List (String × Value))
  deriving Inhabited

/-- The kind of a value. -/
inductive Kind where
  | null
  | boolean
  | number
  | string
  | list
  | object
  deriving DecidableEq, Repr, Inhabited

namespace Kind

/-- Every kind, in rank order. -/
def all : List Kind := [.null, .boolean, .number, .string, .list, .object]

/-- Primitive kinds are the ones that a shape may name. -/
def isPrimitive : Kind → Bool
  | .list | .object => false
  | _ => true

def name : Kind → String
  | .null => "null"
  | .boolean => "boolean"
  | .number => "number"
  | .string => "string"
  | .list => "list"
  | .object => "object"

/-- The kind of a given name. -/
def ofName? (name : String) : Option Kind := all.find? (·.name = name)

/-- Position in the order of kinds. -/
def rank : Kind → Nat
  | .null => 0
  | .boolean => 1
  | .number => 2
  | .string => 3
  | .list => 4
  | .object => 5

end Kind

/-- The number that a text spells, blanks around it aside.  `nan` spells none. -/
def spelledNumber? (s : String) : Option Float :=
  (readDouble (Text.trim s.toList)).filter fun n => !n.isNaN

/-- Text of a number: whole numbers below `10 ^ 16` as plain numerals, others by their shortest
digits. -/
def numberText (n : Float) : String :=
  match Dyad.ofFloat? n with
  | none => if n.isNaN then "NaN" else if 0 < n then "Infinity" else "-Infinity"
  | some d =>
    match d.toInt? with
    | some k => if k.natAbs < pow10 16 then toString k else d.text
    | none => d.text

namespace Value

/-- An object with the given fields, put in order. -/
def object (fields : List (String × Value)) : Value := .obj (Record.ofList fields)

def kind : Value → Kind
  | .null => .null
  | .bool _ => .boolean
  | .num _ => .number
  | .str _ => .string
  | .list _ => .list
  | .obj _ => .object

/-! ### Casts -/

/-- Cast to a number: what does not read as one is zero, and so is NaN. -/
def toNumber : Value → Float
  | .bool b => if b then 1 else 0
  | .num n => if n.isNaN then 0 else n
  | .str s => (spelledNumber? s).getD 0
  | .null | .list _ | .obj _ => 0

/-- Cast to a truth value.  The texts `""`, `"0"` and `"false"` are false, and so are zero, NaN and
the empty list. -/
def toBool : Value → Bool
  | .null => false
  | .bool b => b
  | .num n => n != 0 && !n.isNaN
  | .str s => !(s = "" || s = "0" || Text.eqIgnoringCase s "false")
  | .list items => !items.isEmpty
  | .obj _ => true

/-- Whether the value reads as a number without loss. -/
def isNumeric : Value → Bool
  | .num n => !n.isNaN
  | .bool _ => true
  | .str s => (spelledNumber? s).isSome
  | _ => false

/-- Joins the texts of a list's items: without a separator when each is one character long. -/
def joinTexts (texts : List String) : String :=
  (if texts.all (·.length = 1) then "" else " ").intercalate texts

mutual

/-- Cast to text. -/
def text : Value → String
  | .null => ""
  | .bool b => if b then "true" else "false"
  | .num n => numberText n
  | .str s => s
  | .list items => joinTexts (texts items)
  | .obj _ => "[object]"

/-- The text of each item. -/
def texts : List Value → List String
  | [] => []
  | v :: rest => text v :: texts rest

end

/-! ### Equality and order -/

mutual

/-- Sameness of values.  Numbers are compared as numbers: NaN differs from itself, and the two zeros
are the same. -/
def same : Value → Value → Bool
  | .null, .null => true
  | .bool a, .bool b => a == b
  | .num a, .num b => a == b
  | .str a, .str b => a == b
  | .list as, .list bs => sameItems as bs
  | .obj as, .obj bs => sameFields as bs
  | _, _ => false

/-- Sameness item by item. -/
def sameItems : List Value → List Value → Bool
  | [], [] => true
  | a :: as, b :: bs => same a b && sameItems as bs
  | _, _ => false

/-- Sameness field by field. -/
def sameFields : List (String × Value) → List (String × Value) → Bool
  | [], [] => true
  | (m, a) :: as, (n, b) :: bs => m == n && same a b && sameFields as bs
  | _, _ => false

end

/-- Loose order: by number when both sides read as numbers, else by text without regard to case. -/
def order (a b : Value) : Ordering :=
  if a.isNumeric && b.isNumeric then
    if a.toNumber < b.toNumber then .lt
    else if b.toNumber < a.toNumber then .gt
    else .eq
  else compare (Text.lowercase a.text) (Text.lowercase b.text)

/-- Loose equality. -/
def looseEq (a b : Value) : Bool := a.order b == .eq

end Value

end Blockwork
