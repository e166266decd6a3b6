import Blockwork.Text.Blank
import Blockwork.Toml.Draft
import Blockwork.Toml.Quoted

/-!
Reading TOML documents.  Arrays and inline tables may be nested to a fixed depth, on which the
reading of values recurses; each line and each item takes at least one character, so the length of
the text bounds the loops.
-/

namespace Blockwork.Toml

/-- How deep arrays and inline tables may be nested, and how many names a dotted key may have. -/
def depthLimit : Nat := 79

def isGap (c : Char) : Bool := c = ' ' || c = '\t'

/-- The text after white space, line ends and comments.  It starts inside a comment if `inComment`
holds. -/
def skipLines : (inComment : Bool) → List Char → List Char
  | _, [] => []
  | true, c :: rest =>
    if c = '\n' then skipLines false rest
    else if isControl c then c :: rest
    else skipLines true rest
  | false, c :: rest =>
    if isGap c || c = '\n' then skipLines false rest
    else if c = '#' then skipLines true rest
    else c :: rest

/-- The end of a line: white space, a comment, and a line end or the end of the text. -/
def endLine (cs : List Char) : Option (List Char) :=
  let visible (c : Char) : Bool := !isControl c
  let rest := match cs.dropWhile isGap with
    | '#' :: comment => comment.dropWhile visible
    | rest => rest
  match rest with
  | [] => some []
  | '\n' :: left => some left
  | _ => none

/-! ### Keys -/

/-- One name: bare or in quotes. -/
def readName (cs : List Char) : Option (String × List Char) :=
  let part (c : Char) : Bool := c.isAlphanum || c = '_' || c = '-'
  match cs.takeWhile part with
  | [] => (readQuotedLine cs).map fun (name, rest) => (String.ofList name, rest)
  | name => some (String.ofList name, cs.dropWhile part)

/-- A key of at most so many names, with points between them and white space around them. -/
def readKey : Nat → List Char → Option (Key × List Char)
  | 0, _ => none
  | limit + 1, cs => do
    let (name, rest) ← readName (cs.dropWhile isGap)
    match rest.dropWhile isGap with
    | '.' :: more =>
      let (key, left) ← readKey limit more
      pure ({ key with path := name :: key.path }, left)
    | left => pure (⟨[], name⟩, left)

/-! ### Values -/

section

variable (read : List Char → Option (Toml × List Char))

/-- A key, an equals sign and a value. -/
def readEntry (cs : List Char) : Option ((Key × Toml) × List Char) := do
  let (key, rest) ← readKey depthLimit cs
  let rest ← expect '=' rest
  let (v, rest) ← read (rest.dropWhile isGap)
  pure ((key, v), rest)

/-- The items of an array, up to its closing bracket.  A comma may follow the last one. -/
def readItems : Nat → List Char → Option (List Toml × List Char)
  | 0, _ => none
  | fuel + 1, cs =>
    match skipLines false cs with
    | ']' :: left => some ([], left)
    | item => do
      let (v, rest) ← read item
      match skipLines false rest with
      | ']' :: left => pure ([v], left)
      | ',' :: more =>
        let (items, left) ← readItems fuel more
        pure (v :: items, left)
      | _ => none

/-- The entries of an inline table, up to its closing brace; there is at least one. -/
def readFields : Nat → List Char → Option (List (Key × Toml) × List Char)
  | 0, _ => none
  | fuel + 1, cs => do
    let (entry, rest) ← readEntry read cs
    match rest.dropWhile isGap with
    | '\x7d' :: left => pure ([entry], left)
    | ',' :: more =>
      let (entries, left) ← readFields fuel more
      pure (entry :: entries, left)
    | _ => none

end

/-- A string or a bare value. -/
def readPlain (cs : List Char) : Option (Toml × List Char) :=
  match cs with
  | [] => none
  | c :: _ =>
    if c = '"' || c = '\x27' then
      (readQuoted cs).map fun (s, rest) => (.str (String.ofList s), rest)
    else readBare cs

/-- A value with arrays and inline tables nested at most so deep. -/
def readValue : Nat → List Char → Option (Toml × List Char)
  | 0, cs => readPlain cs
  | depth + 1, cs =>
    match cs with
    | '[' :: rest =>
      (readItems (readValue depth) (rest.length + 1) rest).map fun (items, left) =>
        (.arr items, left)
    | '\x7b' :: rest =>
      match rest.dropWhile isGap with
      | '\x7d' :: left => some (.table [], left)
      | _ => do
        let (entries, left) ← readFields (readValue depth) (rest.length + 1) rest
        let table ← ofEntries? entries
        pure (table, left)
    | _ => readPlain cs

/-! ### Documents -/

/-- A line of a document that says something. -/
inductive Line where
  | table (key : Key)
  | element (key : Key)
  | entry (key : Key) (v : Toml)

/-- A line, and what follows it. -/
def readLine (cs : List Char) : Option (Line × List Char) :=
  match cs with
  | '[' :: '[' :: rest => do
    let (key, rest) ← readKey depthLimit rest
    let rest ← expect ']' rest
    let rest ← expect ']' rest
    pure (.element key, rest)
  | '[' :: rest => do
    let (key, rest) ← readKey depthLimit rest
    let rest ← expect ']' rest
    pure (.table key, rest)
  | _ => do
    let ((key, v), rest) ← readEntry (readValue depthLimit) cs
    pure (.entry key v, rest)

/-- The lines of a document. -/
def readLines : Nat → List Char → Option (List Line)
  | 0, _ => none
  | fuel + 1, cs =>
    match skipLines false cs with
    | [] => some []
    | start => do
      let (line, rest) ← readLine start
      let rest ← endLine rest
      let lines ← readLines fuel rest
      pure (line :: lines)

/-- A document while it is read: what it says so far, and the table that its last header opened. -/
structure Page where
  entries : Table Draft := []
  current : List String := []

/-- Adds a line to a document. -/
def Page.add (page : Page) : Line → Option Page
  | .table key => do
    let entries ← Draft.openTable key page.entries
    pure ⟨entries, key.path ++ [key.name]⟩
  | .element key => do
    let entries ← Draft.openElement key page.entries
    pure ⟨entries, key.path ++ [key.name]⟩
  | .entry key v => do
    let entries ←
      Draft.changeAt false (fun _ => Draft.addValue key v) page.current .header page.entries
    pure { page with entries }

/-- Makes every line end a single line feed. -/
def unifyLineEnds : List Char → List Char
  | [] => []
  | '\r' :: '\n' :: rest => '\n' :: unifyLineEnds rest
  | c :: rest => c :: unifyLineEnds rest

/-- The entries of a document, if its text is well formed. -/
def parse? (text : String) : Option (Table Toml) := do
  let cs := unifyLineEnds (Text.dropOrderMark text.toList)
  let lines ← readLines (cs.length + 1) cs
  let page ← lines.foldlM Page.add {}
  pure (Draft.toEntries page.entries)

end Blockwork.Toml
