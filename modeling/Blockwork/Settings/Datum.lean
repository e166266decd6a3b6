import Blockwork.Table

/-!
Values of settings, from whatever kind of document they come.
-/

namespace Blockwork

/-- A value of settings.  A table keeps its names in the order in which they came. -/
inductive Datum where
  | null
  | bool (b : Bool)
  | int (n : Int)
  | float (x : Float)
  | str (s : String)
  | arr (items : List Datum)
  | table (entries : List (String × Datum))
  deriving Inhabited

namespace Datum

/-- The entries of a value; only a table has any. -/
def entries : Datum → Table Datum
  | table es => es
  | _ => []

/-- The items of a value; only an array has any. -/
def items : Datum → List Datum
  | arr ds => ds
  | _ => []

/-- The entries of a document, which must be a table. -/
def root? : Datum → Option (Table Datum)
  | table es => some es
  | _ => none

end Datum

end Blockwork
