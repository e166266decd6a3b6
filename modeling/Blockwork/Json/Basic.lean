import Blockwork.Table
import Blockwork.Number.Decimal

/-!
JSON documents and their compact text.

A whole number written without point or exponent stays exact; every other number is a double.  The
fields of an object are in increasing order of their names.
-/

namespace Blockwork

/-- A JSON document. -/
inductive Json where
  | null
  | bool (b : Bool)
  | int (n : Int)
  | real (x : Float)
  | str (s : String)
  | arr (items : List Json)
  | obj (fields : List (String × Json))
  deriving Inhabited

namespace Json

/-- An object with the given fields, put in order. -/
def object (fields : List (String × Json)) : Json := .obj (Record.ofList fields)

/-- A field of an object. -/
def field? (name : String) : Json → Option Json
  | .obj fields => Record.get? name fields
  | _ => none

/-! ### Compact text -/

/-- The lower-case hexadecimal digits of `n`, at least `width` of them. -/
def hex (width n : Nat) : List Char :=
  let ds := Nat.toDigits 16 n
  List.replicate (width - ds.length) '0' ++ ds

/-- A character inside a JSON string: quotes, backslashes and control characters are escaped. -/
def escapeChar (c : Char) : List Char :=
  if c = '"' then ['\\', '"']
  else if c = '\\' then ['\\', '\\']
  else if c = '\n' then ['\\', 'n']
  else if c = '\r' then ['\\', 'r']
  else if c = '\t' then ['\\', 't']
  else if c.toNat = 8 then ['\\', 'b']
  else if c.toNat = 12 then ['\\', 'f']
  else if c.toNat < 0x20 then '\\' :: 'u' :: hex 4 c.toNat
  else [c]

/-- A quoted JSON string. -/
def quote (s : String) : String :=
  String.ofList ('"' :: s.toList.flatMap escapeChar ++ ['"'])

/-- Shortest digits of a double: positional from `1e-5` up to sixteen digits before the point, and with
a point in them then; else with an exponent, which has a sign always. -/
def realText (x : Float) : String :=
  match Dyad.ofFloat? x with
  | none => "null"
  | some d =>
    let sign := if d.negative then "-" else ""
    if d.mantissa = 0 then sign ++ "0.0"
    else
      let s := d.shortest
      let point : Int := s.digits.length + s.scale
      if 0 ≤ s.scale ∧ point ≤ 16 then sign ++ s.positional ++ ".0"
      else if -5 < point ∧ point ≤ 16 then sign ++ s.positional
      else
        let tail := s.digits.drop 1
        sign ++ String.ofList (s.digits.take 1 ++ (if tail.isEmpty then [] else '.' :: tail)) ++
          (if 0 < point then "e+" else "e") ++ toString (point - 1)

mutual

/-- Compact text: no spaces, fields in order. -/
def compact : Json → String
  | .null => "null"
  | .bool b => if b then "true" else "false"
  | .int n => toString n
  | .real x => realText x
  | .str s => quote s
  | .arr items => "[" ++ ",".intercalate (compactItems items) ++ "]"
  | .obj fields => "\x7b" ++ ",".intercalate (compactFields fields) ++ "\x7d"

/-- The texts of the items. -/
def compactItems : List Json → List String
  | [] => []
  | j :: rest => compact j :: compactItems rest

/-- The texts of the fields. -/
def compactFields : List (String × Json) → List String
  | [] => []
  | (name, j) :: rest => (quote name ++ ":" ++ compact j) :: compactFields rest

end

end Json

end Blockwork
