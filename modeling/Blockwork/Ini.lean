import Blockwork.Json.Reader
import Blockwork.Table
import Blockwork.Text.Blank

/-!
Reading INI documents: entries `name = value` or `name: value`, in sections that start with a name in
brackets.  Entries in front of the first section are general ones.  A comment takes a whole line, and
its mark is the first character of it.  A backslash starts an escape everywhere, and a value may be
quoted.
-/

namespace Blockwork.Ini

open Blockwork.Text

/-- The entries of a document, in the order in which they stand. -/
structure Document where
  general : List (String × String) := []
  sections : List (String × List (String × String)) := []

namespace Document

/-- Starts a section. -/
def openSection (name : String) (d : Document) : Document :=
  { d with sections := d.sections ++ [(name, [])] }

/-- Adds an entry to the last section. -/
def add (name value : String) (d : Document) : Document :=
  match d.sections.reverse with
  | [] => { d with general := d.general ++ [(name, value)] }
  | (last, entries) :: earlier =>
    { d with sections := earlier.reverse ++ [(last, entries ++ [(name, value)])] }

end Document

/-! ### Texts -/

/-- A character, and whether it is the first of its line. -/
abbrev Mark := Char × Bool

/-- Marks the characters that come first in their lines. -/
def marked (first : Bool) : List Char → List Mark
  | [] => []
  | c :: rest => (c, first) :: marked (c = '\n') rest

def isBlankMark (m : Mark) : Bool := isBlank m.1

/-- White space that does not end a line. -/
def isGapMark (m : Mark) : Bool := isBlank m.1 && m.1 ≠ '\n' && m.1 ≠ '\r'

def isLineEnd (c : Char) : Bool := c = '\n' || c = '\r'

/-- The character of a code of four hexadecimal digits; a plus sign may stand for the first one. -/
def charOfCode? (a b c d : Char) : Option Char := do
  let a ← if a = '+' then some 0 else Json.hexDigit? a
  let b ← Json.hexDigit? b
  let c ← Json.hexDigit? c
  let d ← Json.hexDigit? d
  let n := ((a * 16 + b) * 16 + c) * 16 + d
  if Json.isLeading n || Json.isTrailing n then none else some (Char.ofNat n)

/-- What an escape of one character stands for; an escaped line end stands for nothing. -/
def unescape (c : Char) : List Char :=
  if c = '0' then [Char.ofNat 0]
  else if c = 'a' then [Char.ofNat 7]
  else if c = 'b' then [Char.ofNat 8]
  else if c = 't' then ['\t']
  else if c = 'r' then ['\r']
  else if c = 'n' then ['\n']
  else if c = '\n' then []
  else [c]

/-- Puts characters in front of a text, if it could be read. -/
def following (cs : List Char) (rest : Option (List Char × List Mark)) :
    Option (List Char × List Mark) :=
  rest.map fun (text, left) => (cs ++ text, left)

/-- A text up to a character that stops it, and what follows; the end of the document stops it only
if `toEnd` holds. -/
def readText (stops : Char → Bool) (toEnd : Bool) : List Mark → Option (List Char × List Mark)
  | [] => if toEnd then some ([], []) else none
  | (c, first) :: rest =>
    if stops c then some ([], (c, first) :: rest)
    else if c = '\\' then
      match rest with
      | [] => none
      | ('x', _) :: (a, _) :: (b, _) :: (c, _) :: (d, _) :: more =>
        (charOfCode? a b c d).bind fun x => following [x] (readText stops toEnd more)
      | ('x', _) :: _ => none
      | (e, _) :: more => following (unescape e) (readText stops toEnd more)
    else following [c] (readText stops toEnd rest)

/-- The rest of a line. -/
def readLine (ms : List Mark) : Option (List Char × List Mark) := readText isLineEnd true ms

/-- A value: quoted or not, to the end of its line. -/
def readValue (ms : List Mark) : Option (List Char × List Mark) :=
  match ms.dropWhile isGapMark with
  | [] => some ([], [])
  | (c, first) :: rest =>
    if c = '"' || c = '\x27' then do
      let (quoted, rest) ← readText (· = c) false rest
      following quoted (readLine (rest.drop 1))
    else readLine ((c, first) :: rest)

/-! ### Documents -/

/-- A text without the white space at its ends. -/
def trimmed (cs : List Char) : String := String.ofList (trim cs)

/-- An entry: a name, and a value after its mark.  The name must not be empty. -/
def readEntry (ms : List Mark) : Option ((String × String) × List Mark) := do
  let (name, rest) ← readText (fun c => c = '=' || c = ':') false ms
  let (value, rest) ← readValue (rest.drop 1)
  if trimmed name = "" then none else pure ((trimmed name, trimmed value), rest)

/-- Reads a document from some point on.  Each step takes at least one character. -/
def readFrom : Nat → Document → List Mark → Option Document
  | 0, _, _ => none
  | fuel + 1, d, ms =>
    match ms.dropWhile isBlankMark with
    | [] => some d
    | (c, first) :: rest =>
      if c = ';' || c = '#' then
        if first then readFrom fuel d ((rest.dropWhile (·.1 ≠ '\n')).drop 1) else none
      else if c = '[' then do
        let (name, rest) ← readText (· = ']') false rest
        readFrom fuel (d.openSection (trimmed name)) (rest.drop 1)
      else do
        let ((name, value), rest) ← readEntry ((c, first) :: rest)
        readFrom fuel (d.add name value) rest

/-- The document of a text. -/
def parse? (text : String) : Option Document :=
  let ms := marked true text.toList
  readFrom (ms.length + 1) {} ms

end Blockwork.Ini
