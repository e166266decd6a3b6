import Blockwork.Json.Reader
import Blockwork.Yaml.Cursor

/-!
Texts of YAML documents: plain, quoted, and in blocks.  A text may go over several lines; except in
literal blocks, a single line end in it stands for a space, and further ones for themselves.
-/

namespace Blockwork.Yaml

/-- So many line ends. -/
def lineEnds (n : Nat) : List Char := List.replicate n '\n'

/-- What a line end with so many empty lines after it stands for. -/
def folded (empty : Nat) : List Char := if empty = 0 then [' '] else lineEnds empty

namespace Cursor

/-! ### Plain texts -/

/-- The characters up to white space or to a mark that ends a plain text. -/
def plainWord (inFlow : Bool) : List Char → List Char
  | [] => []
  | c :: rest =>
    let ends := isGap c || isBreak c || (inFlow && isFlow c) ||
      (c = ':' && (atGap rest || (inFlow && rest.head?.any isFlow)))
    if ends then [] else c :: plainWord inFlow rest

/-- White space in a plain text: what stands for it if the text goes on in the same line, whether
there was a line end, and how many empty lines followed it. -/
structure Pause where
  gap : List Char := []
  broken : Bool := false
  empty : Nat := 0

/-- What a pause stands for between two words. -/
def Pause.text (p : Pause) : List Char := if p.broken then folded p.empty else p.gap

/-- Over the white space in a plain text that is indented by at least `indent`. -/
def plainPause (indent : Int) : Nat → Pause → Cursor → Option (Pause × Cursor)
  | 0, _, _ => none
  | fuel + 1, p, s =>
    match s.rest with
    | [] => some (p, s)
    | c :: _ =>
      if isGap c then
        if !s.fresh then plainPause indent fuel { p with gap := p.gap ++ [c] } (s.skipGap 1)
        else if c = '\t' && (s.col : Int) < indent then do
          let s ← s.skipToLineEnd true
          if atLineEnd s.rest then plainPause indent fuel p s else none
        else plainPause indent fuel p (s.skipGap 1)
      else if isBreak c then
        if s.fresh then plainPause indent fuel { p with empty := p.empty + 1 } s.skipBreak
        else plainPause indent fuel { p with gap := [], broken := true } s.skipBreak
      else some (p, s)

/-- The rest of a plain text after the given part of it. -/
def plainFrom (indent : Int) : Nat → List Char → Pause → Cursor → Option (List Char × Cursor)
  | 0, _, _, _ => none
  | fuel + 1, text, pause, s =>
    let inFlow := s.flow ≠ 0
    if s.rest.head? = some '#' ||
        (s.fresh && (isDocumentMark '-' s.rest || isDocumentMark '.' s.rest)) then
      some (text, s)
    else if inFlow && s.rest.head? = some '-' && s.rest[1]?.any isFlow then none
    else
      let word := plainWord inFlow s.rest
      let (text, pause) := if word.isEmpty then (text, pause) else (text ++ pause.text ++ word, {})
      let s := s.skip word.length
      if !s.rest.head?.any fun c => isGap c || isBreak c then some (text, s)
      else do
        let (pause, s) ← plainPause indent (s.rest.length + 1) pause s
        if !inFlow && (s.col : Int) < indent then some (text, s)
        else plainFrom indent fuel text pause s

/-- A plain text.  A key may follow it on a new line. -/
def plain (s : Cursor) : Option (String × Cursor) := do
  let s := s.dropRequests
  let indent := s.indent + 1
  if s.flow ≠ 0 && (s.col : Int) < indent then none
  else
    let (text, s) ← plainFrom indent (s.rest.length + 1) [] {} s
    if text.isEmpty then none
    else pure (String.ofList text, if s.fresh then { s with keyAllowed := true } else s)

/-! ### Quoted texts -/

/-- What a one-letter escape stands for. -/
def unescape? (c : Char) : Option Nat :=
  if c = '0' then some 0
  else if c = 'a' then some 7
  else if c = 'b' then some 8
  else if c = 't' ∨ c = '\t' then some 9
  else if c = 'n' then some 10
  else if c = 'v' then some 11
  else if c = 'f' then some 12
  else if c = 'r' then some 13
  else if c = 'e' then some 27
  else if c = ' ' ∨ c = '"' ∨ c = '/' ∨ c = '\\' then some c.toNat
  else if c = 'N' then some 0x85
  else if c = '_' then some 0xa0
  else if c = 'L' then some 0x2028
  else if c = 'P' then some 0x2029
  else none

/-- How many digits the code after an escape has. -/
def codeLength (c : Char) : Nat := if c = 'x' then 2 else if c = 'u' then 4 else if c = 'U' then 8 else 0

/-- The character of a code in hexadecimal digits. -/
def charOfHex? (ds : List Char) : Option Char := do
  let n ← ds.foldlM (fun n c => (Json.hexDigit? c).map (n * 16 + ·)) 0
  if n < 0x110000 && !Json.isLeading n && !Json.isTrailing n then some (Char.ofNat n) else none

/-- What an escape stands for; the text is after its backslash. -/
def readEscape (s : Cursor) : Option (Char × Cursor) := do
  let c ← s.rest.head?
  let s := s.skip 1
  let n := codeLength c
  if n = 0 then (unescape? c).map fun code => (Char.ofNat code, s)
  else
    let ds := s.rest.take n
    if ds.length = n then (charOfHex? ds).map fun c => (c, s.skip n) else none

/-- The characters of a quoted text up to white space or its end, and whether an escaped line end
follows them. -/
def quotedWord (quote : Char) : Nat → List Char → Cursor → Option (List Char × Bool × Cursor)
  | 0, _, _ => none
  | fuel + 1, text, s =>
    match s.rest with
    | [] => some (text, false, s)
    | c :: rest =>
      if isGap c || isBreak c then some (text, false, s)
      else if c = quote then
        if quote = '\x27' && rest.head? = some quote then
          quotedWord quote fuel (text ++ [c]) (s.skip 2)
        else some (text, false, s)
      else if quote = '"' && c = '\\' then
        if rest.head?.any isBreak then some (text, true, (s.skip 1).skipBreak)
        else do
          let (c, s) ← (s.skip 1).readEscape
          quotedWord quote fuel (text ++ [c]) s
      else quotedWord quote fuel (text ++ [c]) (s.skip 1)

/-- Over the white space in a quoted text; `leading` holds at the start of a line. -/
def quotedPause (leading : Bool) : Nat → Pause → Cursor → Option (Bool × Pause × Cursor)
  | 0, _, _ => none
  | fuel + 1, p, s =>
    match s.rest with
    | [] => some (leading, p, s)
    | c :: _ =>
      if isGap c then
        if !leading then quotedPause leading fuel { p with gap := p.gap ++ [c] } (s.skipGap 1)
        else if c = '\t' && (s.col : Int) < s.indent then none
        else quotedPause leading fuel p (s.skipGap 1)
      else if isBreak c then
        if leading then quotedPause true fuel { p with empty := p.empty + 1 } s.skipBreak
        else quotedPause true fuel { p with gap := [], broken := true } s.skipBreak
      else some (leading, p, s)

/-- The rest of a quoted text after the given part of it, up to its closing quote. -/
def quotedFrom (quote : Char) : Nat → List Char → Cursor → Option (List Char × Cursor)
  | 0, _, _ => none
  | fuel + 1, text, s =>
    if s.rest.isEmpty || (s.col : Int) < s.indent ||
        (s.col = 0 && (isDocumentMark '-' s.rest || isDocumentMark '.' s.rest)) then
      none
    else do
      let (text, leading, s) ← quotedWord quote (s.rest.length + 1) text s
      if s.rest.head? = some quote then some (text, s)
      else
        let (leading, pause, s) ← quotedPause leading (s.rest.length + 1) {} s
        let between := if leading && !pause.broken then lineEnds pause.empty else pause.text
        quotedFrom quote fuel (text ++ between) s

/-- A quoted text.  In its line only a comment, the colon after a key, or a mark of the flow
collection around it may follow. -/
def quoted (quote : Char) (s : Cursor) : Option (String × Cursor) := do
  let line := s.line
  let (text, s) ← quotedFrom quote (s.rest.length + 1) [] (s.skip 1)
  let s ← (s.skip 1).skipToLineEnd true
  let follows := atLineEnd s.rest || s.rest.head?.any fun c =>
    if s.flow = 0 then c = ':' && line = s.line
    else c = ':' || c = ',' || c = ']' || c = '\x7d'
  if follows then pure (String.ofList text, s) else none

/-! ### Blocks of text -/

/-- What becomes of the line ends after a block of text. -/
inductive Chomping where
  /-- One is kept. -/
  | clip
  /-- None is kept. -/
  | strip
  /-- All are kept. -/
  | keep
  deriving DecidableEq

def Chomping.ofChar? (c : Char) : Option Chomping :=
  if c = '+' then some .keep else if c = '-' then some .strip else none

/-- The indentation that a digit asks for. -/
def increment? (c : Char) : Option Nat :=
  if c.isDigit && c ≠ '0' then some (c.toNat - '0'.toNat) else none

/-- The marks after the first one of a block: what becomes of its last line ends, and its
indentation, in any order. -/
def blockHeader (s : Cursor) : Option (Chomping × Nat × Cursor) :=
  let second {α : Type} (f : Char → Option α) : Option α := s.rest[1]?.bind f
  let zeroAt (i : Nat) : Bool := s.rest[i]? = some '0'
  match s.rest.head?.bind Chomping.ofChar?, s.rest.head?.bind increment? with
  | some ch, _ =>
    match second increment? with
    | some n => some (ch, n, s.skip 2)
    | none => if zeroAt 1 then none else some (ch, 0, s.skip 1)
  | none, some n =>
    match second Chomping.ofChar? with
    | some ch => some (ch, n, s.skip 2)
    | none => some (.clip, n, s.skip 1)
  | none, none => if zeroAt 0 then none else some (.clip, 0, s)

/-- Over the indentation of a line and over empty lines, which are counted. -/
def skipIndent (indent : Nat) : Nat → Nat → Cursor → Nat × Cursor
  | 0, empty, s => (empty, s)
  | fuel + 1, empty, s =>
    let s := s.skipGap ((s.rest.takeWhile (· = ' ')).length.min (indent - s.col))
    if s.rest.head?.any isBreak then skipIndent indent fuel (empty + 1) s.skipBreak else (empty, s)

/-- Over the empty lines in front of a block, and over the indentation of its first line: how far
lines are indented, how many are empty, and where the text begins. -/
def firstIndent : Nat → Nat → Nat → Cursor → Nat × Nat × Cursor
  | 0, widest, empty, s => (widest, empty, s)
  | fuel + 1, widest, empty, s =>
    let s := s.skipGap (s.rest.takeWhile (· = ' ')).length
    let widest := max widest s.col
    if s.rest.head?.any isBreak then firstIndent fuel widest (empty + 1) s.skipBreak
    else (widest, empty, s)

/-- The lines of a block of text so far. -/
structure Lines where
  text : List Char := []
  /-- Whether a line end follows the text. -/
  broken : Bool := false
  /-- How many empty lines follow it. -/
  empty : Nat := 0
  /-- Whether the last line starts with white space, which keeps its line end. -/
  spaced : Bool := false

/-- The lines of a block of text with the given indentation. -/
def blockLines (literal : Bool) (indent : Nat) : Nat → Lines → Cursor → Lines × Cursor
  | 0, l, s => (l, s)
  | fuel + 1, l, s =>
    if s.col ≠ indent || s.rest.isEmpty || (indent = 0 && isDocumentMark '.' s.rest) then (l, s)
    else
      let spaced := s.rest.head?.any isGap
      let between :=
        if !literal && l.broken && !l.spaced && !spaced then folded l.empty
        else (if l.broken then ['\n'] else []) ++ lineEnds l.empty
      let line := s.rest.takeWhile (!isBreak ·)
      let s := s.skip line.length
      let l : Lines := { text := l.text ++ between ++ line, spaced }
      if s.rest.isEmpty then (l, s)
      else
        let (empty, s) := skipIndent indent (s.rest.length + 1) 0 s.skipBreak
        blockLines literal indent fuel { l with broken := true, empty } s

/-- A block of text. -/
def block (literal : Bool) (s : Cursor) : Option (String × Cursor) := do
  let line := s.line
  let (chomping, n, s) ← (s.skip 1).dropRequests.blockHeader
  let s ← s.skipToLineEnd true
  if !atLineEnd s.rest then none
  else
    let hasBreak := !s.rest.isEmpty
    let s := if hasBreak then s.skipBreak else s
    let fuel := s.rest.length + 1
    let (indent, empty, s') :=
      if n = 0 then
        let (widest, empty, s') := firstIndent fuel 0 0 s
        (max (max widest (s.indent + 1).toNat) (if 0 < s.indent then 1 else 0), empty, s')
      else
        let indent := if 0 ≤ s.indent then s.indent.toNat + n else n
        let (empty, s') := skipIndent indent fuel 0 s
        (indent, empty, s')
    if s.rest.head? = some '\t' then none
    else if s'.rest.isEmpty then
      let firstBreak := if hasBreak then ['\n'] else []
      let text := match chomping with
        | .strip => []
        | .clip => if s'.line = line then [] else firstBreak
        | .keep => if s'.line = line then [] else if empty = 0 then firstBreak else lineEnds empty
      pure (String.ofList text, s')
    else if s'.col < indent && s.indent < (s'.col : Int) then none
    else
      let (l, s') := blockLines literal indent fuel { empty } s'
      let last :=
        (if l.broken then ['\n'] else []) ++
          if s'.rest.isEmpty && max indent 1 ≤ s'.col then ['\n'] else []
      let tail := match chomping with
        | .strip => []
        | .clip => last
        | .keep => last ++ lineEnds l.empty
      pure (String.ofList (l.text ++ tail), s')

end Cursor

end Blockwork.Yaml
