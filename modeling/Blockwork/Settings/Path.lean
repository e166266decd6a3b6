import Blockwork.Number.Decimal

/-!
Paths to settings.  The name of a setting may be a path: names with points between them, and numbers
of items in brackets.  A text that is not a path is one plain name.
-/

namespace Blockwork.Settings

/-- One step of a path. -/
inductive Step where
  /-- To an entry of a table. -/
  | name (s : String)
  /-- To an item of an array; a negative number counts from the end. -/
  | item (i : Int)
  deriving DecidableEq, Repr

namespace Step

/-- Whether a character can stand in a name of a path. -/
def isNamePart (c : Char) : Bool := c.isAlphanum || c = ' ' || c = '_' || c = '-'

/-- A name, which is not empty, and what follows it. -/
def readName (cs : List Char) : Option (Step × List Char) :=
  match cs.takeWhile isNamePart with
  | [] => none
  | chars => some (name (String.ofList chars), cs.dropWhile isNamePart)

/-- The number of an item, up to the closing bracket.  Blanks may stand around it. -/
def readItem (cs : List Char) : Option (Step × List Char) :=
  let isGap (c : Char) : Bool := c = ' ' || c = '\t'
  let cs := cs.dropWhile isGap
  let (negative, rest) := match cs with
    | '-' :: rest => (true, rest)
    | _ => (false, cs)
  let ds := rest.takeWhile Char.isDigit
  let n : Int := if negative then -(digitsValue ds : Int) else digitsValue ds
  match (rest.dropWhile Char.isDigit).dropWhile isGap with
  | ']' :: left => if ds ≠ [] ∧ fitsInt64 n then some (item n, left) else none
  | _ => none

/-- The steps after the first one.  Each takes at least one character. -/
def readMore : Nat → List Char → Option (List Step)
  | _, [] => some []
  | 0, _ => none
  | fuel + 1, c :: rest => do
    let (step, left) ← if c = '.' then readName rest else if c = '[' then readItem rest else none
    let steps ← readMore fuel left
    pure (step :: steps)

/-- The path that a text is, if it is one. -/
def parse? (text : String) : Option (List Step) := do
  let cs := text.toList
  let (first, rest) ← readName cs
  let steps ← readMore rest.length rest
  pure (first :: steps)

/-- The path of a setting. -/
def pathOf (text : String) : List Step := (parse? text).getD [name text]

end Step

end Blockwork.Settings
