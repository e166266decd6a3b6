import Blockwork.Table
import Blockwork.Text.Blank
import Blockwork.Text.Word

/-!
Files that set environment variables, one `NAME=value` a line.

Values may be quoted, and a quoted value may go over several lines.  Single quotes keep every
character; elsewhere a backslash escapes, and a dollar sign puts in the value of a variable.  A file
never replaces a variable that is set already, and reading stops at the first line that is wrong.
-/

namespace Blockwork.EnvFile

open Blockwork.Text

/-- The variables that are set. -/
abbrev Variables := Table String

/-! ### Lines -/

/-- Where a line stands after some of its characters. -/
inductive Quoting where
  | plain
  | blank
  | escape
  | single
  | singleEscape
  | double
  | doubleEscape
  deriving DecidableEq

/-- One more character of a line.  There is none after the mark of a comment. -/
def Quoting.step (c : Char) : Quoting → Option Quoting
  | .blank =>
    if c = '#' then none
    else if c = '\\' then some .escape
    else if c = '"' then some .double
    else if c = '\x27' then some .single
    else some .plain
  | .plain =>
    if isBlank c && c ≠ '\n' && c ≠ '\r' then some .blank
    else if c = '\\' then some .escape
    else if c = '"' then some .double
    else if c = '\x27' then some .single
    else some .plain
  | .escape => some .plain
  | .double => some (if c = '\\' then .doubleEscape else if c = '"' then .plain else .double)
  | .doubleEscape => some .double
  | .single => some (if c = '\\' then .singleEscape else if c = '\x27' then .plain else .single)
  | .singleEscape => some .single

/-- Follows a line to its end: what it holds before a comment, and how it ends.  A comment ends its
line. -/
def follow (q : Quoting) : List Char → List Char × Quoting × Bool
  | [] => ([], q, false)
  | c :: rest =>
    match q.step c with
    | none => ([], .plain, true)
    | some q =>
      let (kept, q, commented) := follow q rest
      (c :: kept, q, commented)

/-- The lines of a text, each with its line end. -/
def splitLines : List Char → List (List Char)
  | [] => []
  | c :: rest =>
    if c = '\n' then [c] :: splitLines rest
    else
      match splitLines rest with
      | [] => [[c]]
      | line :: lines => (c :: line) :: lines

/-- Without the line end. -/
def dropLineEnd (cs : List Char) : List Char :=
  match cs.reverse with
  | '\n' :: '\r' :: rest => rest.reverse
  | '\n' :: rest => rest.reverse
  | _ => cs

/-- Joins the lines over which a quoted value goes.  An unfinished line at the end is no line. -/
def joinLines (q : Quoting) (held : List Char) : List (List Char) → List (Option (List Char))
  | [] => if q = .plain then [] else [none]
  | line :: rest =>
    if ((held ++ line).dropWhile isBlank).head? = some '#' then some [] :: joinLines .plain [] rest
    else
      let (kept, q, commented) := follow q line
      if commented then some (held ++ kept) :: joinLines .plain [] rest
      else if q = .plain then some (dropLineEnd (held ++ line)) :: joinLines .plain [] rest
      else joinLines q (held ++ line) rest

/-! ### Values -/

/-- What the characters of a value mean at some point. -/
inductive Mode where
  | plain
  | escaped
  /-- In the name of a variable after a dollar sign, which has letters and numbers only; the name so
  far. -/
  | name (chars : List Char)
  /-- The same in braces. -/
  | braced (chars : List Char)
  /-- After the value: only a comment may follow. -/
  | ended

/-- What an escape stands for. -/
def unescape? (c : Char) : Option Char :=
  if c = '\\' ∨ c = '\x27' ∨ c = '"' ∨ c = '$' ∨ c = ' ' then some c
  else if c = 'n' then some '\n'
  else none

/-- The text of a variable; one that is not set has none. -/
def textOf (vars : Variables) (name : List Char) : List Char :=
  ((Table.get? (String.ofList name) vars).getD "").toList

/-- The text of a value from some point on, if the value is well formed; `quote` is the quote that is
open, if there is one. -/
def readValue (vars : Variables) (quote : Option Char) (mode : Mode) :
    List Char → Option (List Char)
  | [] =>
    if quote.isSome then none
    else
      match mode with
      | .braced _ => none
      | .name chars => some (textOf vars chars)
      | _ => some []
  | c :: rest =>
    match mode with
    | .ended =>
      if c = ' ' ∨ c = '\t' then readValue vars quote .ended rest
      else if c = '#' then some []
      else none
    | .escaped => do
      let c ← unescape? c
      let cs ← readValue vars quote .plain rest
      pure (c :: cs)
    | .braced chars =>
      if c = '\x7d' then (readValue vars quote .plain rest).map (textOf vars chars ++ ·)
      else readValue vars quote (.braced (chars ++ [c])) rest
    | .name chars =>
      if isAlphanumeric c then readValue vars quote (.name (chars ++ [c])) rest
      else if c = '\x7b' && chars.isEmpty then readValue vars quote (.braced []) rest
      else if c = '$' then (readValue vars quote (.name []) rest).map (textOf vars chars ++ ·)
      else (readValue vars quote .plain rest).map (textOf vars chars ++ c :: ·)
    | .plain =>
      if quote = some '\x27' then
        if c = '\x27' then readValue vars none .plain rest
        else (readValue vars quote .plain rest).map (c :: ·)
      else if c = '$' then readValue vars quote (.name []) rest
      else if c = '\\' then readValue vars quote .escaped rest
      else if quote = some '"' then
        if c = '"' then readValue vars none .plain rest
        else (readValue vars quote .plain rest).map (c :: ·)
      else if c = '"' ∨ c = '\x27' then readValue vars (some c) .plain rest
      else if c = ' ' ∨ c = '\t' then readValue vars none .ended rest
      else (readValue vars none .plain rest).map (c :: ·)

/-! ### Entries -/

/-- A name, and what follows it. -/
def readName (cs : List Char) : Option (String × List Char) :=
  let part (c : Char) : Bool := c.isAlphanum || c = '_' || c = '.'
  match cs with
  | [] => none
  | c :: _ =>
    if c.isAlpha || c = '_' then some (String.ofList (cs.takeWhile part), cs.dropWhile part) else none

/-- The name of a line and the text after its equals sign.  The word `export` may stand in front. -/
def readTarget (cs : List Char) : Option (String × List Char) := do
  let (name, rest) ← readName cs
  match rest.dropWhile isBlank with
  | '=' :: rest => pure (name, rest.dropWhile isBlank)
  | rest =>
    if name = "export" then do
      let (name, rest) ← readName rest
      match rest.dropWhile isBlank with
      | '=' :: rest => pure (name, rest.dropWhile isBlank)
      | _ => none
    else none

/-- Whether nothing but a comment is left. -/
def isIdle (cs : List Char) : Bool := cs.isEmpty || cs.head? = some '#'

/-- Sets the variable of a line, unless it is set already. -/
def setLine (vars : Variables) (line : List Char) : Option Variables :=
  let cs := trim line
  if isIdle cs then some vars
  else do
    let (name, rest) ← readTarget cs
    let value ← if isIdle rest then some [] else readValue vars none .plain rest
    pure (if Table.contains name vars then vars else Table.insert name (String.ofList value) vars)

/-- Sets the variables of lines, up to the first line that is wrong. -/
def setLines (vars : Variables) : List (Option (List Char)) → Variables
  | [] => vars
  | none :: _ => vars
  | some line :: rest =>
    match setLine vars line with
    | some vars => setLines vars rest
    | none => vars

/-- The variables after a file is read. -/
def load (text : String) (vars : Variables) : Variables :=
  setLines vars (joinLines .plain [] (splitLines (dropOrderMark text.toList)))

end Blockwork.EnvFile
