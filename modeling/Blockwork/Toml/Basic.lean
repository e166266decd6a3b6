import Blockwork.Json.Basic

/-!
TOML documents, and the text of single TOML values.
-/

namespace Blockwork

/-- A TOML value.  A table keeps its keys in the order in which they came. -/
inductive Toml where
  | str (s : String)
  | int (n : Int)
  | float (x : Float)
  | bool (b : Bool)
  /-- A date or a time, as its text. -/
  | moment (text : String)
  | arr (items : List Toml)
  | table (entries : List (String × Toml))
  deriving Inhabited

namespace Toml

/-- Text of a float: shortest digits, with a point in them always. -/
def floatText (x : Float) : String :=
  match Dyad.ofFloat? x with
  | none => if x.isNaN then "nan" else if 0 < x then "inf" else "-inf"
  | some d => d.text ++ if d.toInt?.isSome then ".0" else ""

/-! ### Strings

A string is written in the first of four forms that holds it as it is: between double quotes, between
single quotes, between three double quotes, between three single quotes.  If it needs an escape, it is
written between double quotes, three of them if it has a line end. -/

/-- Whether a character cannot stand in a string without an escape; a line end can if the string may
go over several lines. -/
def isControl (c : Char) : Bool := c ≠ '\t' && (c.toNat < 0x20 || c.toNat = 0x7f)

/-- The length of the longest run of a character in a text. -/
def longestRun (c : Char) (cs : List Char) : Nat :=
  (cs.foldl (fun (longest, current) d =>
    if d = c then (max longest (current + 1), current + 1) else (longest, 0)) (0, 0)).1

/-- The forms in which a string is written. -/
inductive Form where
  /-- Between double quotes, with escapes. -/
  | basic
  /-- Between single quotes, without escapes. -/
  | literal
  /-- Between three double quotes, with escapes. -/
  | basicLines
  /-- Between three single quotes, without escapes. -/
  | literalLines
  deriving DecidableEq

namespace Form

/-- Whether strings of this form may go over several lines. -/
def hasLines (f : Form) : Bool := f = basicLines || f = literalLines

/-- Whether strings of this form may have escapes. -/
def hasEscapes (f : Form) : Bool := f = basic || f = basicLines

/-- The quote of this form. -/
def quote (f : Form) : Char := if f.hasEscapes then '"' else '\x27'

/-- How many quotes may stand side by side in a string of this form. -/
def quoteLimit (f : Form) : Nat := if f.hasLines then 2 else 0

/-- The quotes on either side. -/
def delimiter (f : Form) : List Char := List.replicate (if f.hasLines then 3 else 1) f.quote

/-- Whether this form holds a text as it is. -/
def holds (f : Form) (cs : List Char) : Bool :=
  !cs.any (fun c => isControl c && !(f.hasLines && c = '\n')) &&
    !(f.hasEscapes && cs.contains '\\') && decide (longestRun f.quote cs ≤ f.quoteLimit)

/-- The form in which a text is written. -/
def of (cs : List Char) : Form :=
  match [basic, literal, basicLines, literalLines].find? (·.holds cs) with
  | some f => f
  | none => if cs.contains '\n' then basicLines else basic

end Form

/-- A character between double quotes, which is not a quote itself. -/
def escapeChar (multiline : Bool) (c : Char) : List Char :=
  if c = '\n' then (if multiline then ['\n'] else ['\\', 'n'])
  else if c = '\t' then ['\\', 't']
  else if c = '\r' then ['\\', 'r']
  else if c.toNat = 8 then ['\\', 'b']
  else if c.toNat = 12 then ['\\', 'f']
  else if c = '\\' then ['\\', '\\']
  else if isControl c then '\\' :: 'u' :: (Json.hex 4 c.toNat).map Char.toUpper
  else [c]

/-- A text between the quotes of a form.  A quote is escaped when `count`, the number of bare ones
right before it, is all that may stand side by side. -/
def bodyFrom (f : Form) (count : Nat) : List Char → List Char
  | [] => []
  | c :: rest =>
    if !f.hasEscapes then c :: bodyFrom f 0 rest
    else if c = '"' then
      if count < f.quoteLimit then c :: bodyFrom f (count + 1) rest
      else '\\' :: c :: bodyFrom f 0 rest
    else escapeChar f.hasLines c ++ bodyFrom f 0 rest

/-- Text of a string.  One that has a line end starts on a new line. -/
def stringText (s : String) : String :=
  let cs := s.toList
  let f := Form.of cs
  let start := if f.hasLines && cs.contains '\n' then ['\n'] else []
  String.ofList (f.delimiter ++ start ++ bodyFrom f 0 cs ++ f.delimiter)

end Toml

end Blockwork
