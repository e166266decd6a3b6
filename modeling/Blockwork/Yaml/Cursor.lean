import Blockwork.Yaml.Token

/-!
A place in a YAML document, with all that decides how the text there is to be taken: the position,
the blocks that are open, and the places where a key may have begun.
-/

namespace Blockwork.Yaml

/-! ### Characters -/

def isBreak (c : Char) : Bool := c = '\n' || c = '\r'

def isGap (c : Char) : Bool := c = ' ' || c = '\t'

/-- The marks of flow collections. -/
def isFlow (c : Char) : Bool := c = ',' || c = '[' || c = ']' || c = '\x7b' || c = '\x7d'

/-- Whether a text is at the end of a line. -/
def atLineEnd (cs : List Char) : Bool := cs.head?.all isBreak

/-- Whether a text is at white space or at its end. -/
def atGap (cs : List Char) : Bool := cs.head?.all fun c => isBreak c || isGap c

/-- Whether three characters of a kind mark the start or the end of a document here. -/
def isDocumentMark (c : Char) (cs : List Char) : Bool := [c, c, c].isPrefixOf cs && atGap (cs.drop 3)

/-! ### Places -/

/-- A block that is open. -/
structure Block where
  /-- The indentation around it. -/
  outer : Int
  /-- Whether it ends with a token of its own; one that does not only asks for indentation. -/
  ends : Bool

/-- A place where a key may have begun. -/
structure KeyPlace where
  possible : Bool := false
  /-- Whether there must be a key. -/
  required : Bool := false
  /-- The number of its first token. -/
  token : Nat := 0
  index : Nat := 0
  line : Nat := 0
  col : Nat := 0

structure Cursor where
  rest : List Char
  index : Nat := 0
  line : Nat := 0
  col : Nat := 0
  /-- Whether nothing but white space came before in this line. -/
  fresh : Bool := true
  keyAllowed : Bool := true
  /-- Where keys may have begun, in the innermost flow collection first. -/
  keys : List KeyPlace := [{}]
  indent : Int := -1
  /-- The blocks that are open, the innermost first. -/
  blocks : List Block := []
  /-- How many flow collections are open. -/
  flow : Nat := 0
  /-- Where a value may follow its colon without white space. -/
  adjacentAt : Nat := 0
  tokens : Array Token := #[]

namespace Cursor

/-- Over white space. -/
def skipGap (n : Nat) (s : Cursor) : Cursor :=
  { s with rest := s.rest.drop n, index := s.index + n, col := s.col + n }

/-- Over other characters that do not end a line. -/
def skip (n : Nat) (s : Cursor) : Cursor :=
  if n = 0 then s else { s.skipGap n with fresh := false }

/-- Over a line end. -/
def skipBreak (s : Cursor) : Cursor :=
  let n := match s.rest with
    | '\r' :: '\n' :: _ => 2
    | [] => 0
    | _ => 1
  { s with rest := s.rest.drop n, index := s.index + n, line := s.line + 1, col := 0, fresh := true }

/-- Over a comment, to the end of its line. -/
def skipComment (s : Cursor) : Cursor := s.skip (s.rest.takeWhile (!isBreak ·)).length

/-- Over white space and a comment, to the end of the line or to what stands there.  A comment must
have white space in front. -/
def skipToLineEnd (tabs : Bool) (s : Cursor) : Option Cursor :=
  let gap := s.rest.takeWhile fun c => c = ' ' || (tabs && c = '\t')
  let s := s.skipGap gap.length
  if s.rest.head? = some '#' then if gap.isEmpty then none else some s.skipComment else some s

def push (kind : TokenKind) (col : Nat) (s : Cursor) : Cursor :=
  { s with tokens := s.tokens.push ⟨kind, col⟩ }

/-- Puts a token in front of the token with the given number. -/
def insert (i : Nat) (kind : TokenKind) (col : Nat) (s : Cursor) : Cursor :=
  { s with tokens := (s.tokens.extract 0 i).push ⟨kind, col⟩ ++ s.tokens.extract i s.tokens.size }

/-! ### Indentation -/

/-- Ends the blocks that are indented more than a column.  Inside flow collections there are no
blocks. -/
def endBlocks (col : Int) (s : Cursor) : Cursor :=
  let rec go : List Block → Cursor → Cursor
    | [], s => { s with blocks := [] }
    | b :: outer, s =>
      if col < s.indent then
        let s := { s with indent := b.outer }
        go outer (if b.ends then s.push .blockEnd s.col else s)
      else { s with blocks := b :: outer }
  if s.flow = 0 then go s.blocks s else s

/-- Takes back the innermost requests for indentation. -/
def dropRequests (s : Cursor) : Cursor :=
  let rec go : List Block → Cursor → Cursor
    | [], s => { s with blocks := [] }
    | b :: outer, s =>
      if b.ends then { s with blocks := b :: outer } else go outer { s with indent := b.outer }
  go s.blocks s

/-- Starts a block in a column, if it is indented more than what is around it.  Its token goes in
front of the token with the given number, or to the end. -/
def startBlock (col : Nat) (place : Option Nat) (kind : TokenKind) (s : Cursor) : Cursor :=
  if s.flow ≠ 0 then s
  else
    let s := match s.blocks with
      | b :: outer =>
        if s.indent ≤ (col : Int) && !b.ends then { s with indent := b.outer, blocks := outer } else s
      | [] => s
    if s.indent < (col : Int) then
      let s := { s with blocks := ⟨s.indent, true⟩ :: s.blocks, indent := col }
      match place with
      | some i => s.insert i kind col
      | none => s.push kind col
    else s

/-- Asks that what follows is indented by one column more, if it is in a block. -/
def requestIndent (s : Cursor) : Cursor :=
  if s.flow = 0 && s.blocks.head?.any (·.ends) then
    { s with blocks := ⟨s.indent, false⟩ :: s.blocks, indent := s.indent + 1 }
  else s

/-! ### Keys -/

/-- Notes that a key may begin here. -/
def noteKey (s : Cursor) : Cursor :=
  if s.keyAllowed then
    let required := s.flow = 0 && s.indent == (s.col : Int) && s.blocks.head?.any (·.ends)
    let place : KeyPlace := ⟨true, required, s.tokens.size, s.index, s.line, s.col⟩
    { s with keys := place :: s.keys.drop 1 }
  else s

/-- Gives up the last place where a key may have begun. -/
def dropKey (s : Cursor) : Option Cursor :=
  match s.keys with
  | [] => some s
  | k :: outer =>
    if k.possible && k.required then none
    else some { s with keys := { k with possible := false } :: outer }

/-- Gives up the places of keys that would be too long: outside flow collections a key is on one
line and has at most 1024 characters. -/
def dropStaleKeys (s : Cursor) : Option Cursor := do
  let keys ← s.keys.mapM fun k =>
    if k.possible && s.flow = 0 && (k.line < s.line || k.index + 1024 < s.index) then
      if k.required then none else some { k with possible := false }
    else some k
  pure { s with keys }

/-! ### Between tokens -/

/-- To the next token: over white space, line ends and comments.  Tabs do not indent. -/
def toToken : Nat → Cursor → Option Cursor
  | 0, _ => none
  | fuel + 1, s =>
    match s.rest with
    | [] => some s
    | c :: _ =>
      if c = '\t' && !s.blocks.isEmpty && s.fresh && (s.col : Int) < s.indent then do
        let s ← s.skipToLineEnd true
        if atLineEnd s.rest then toToken fuel s else none
      else if isGap c then toToken fuel (s.skipGap 1)
      else if isBreak c then
        let s := s.skipBreak
        toToken fuel (if s.flow = 0 then { s with keyAllowed := true } else s)
      else if c = '#' then toToken fuel s.skipComment
      else some s

/-- To the next token. -/
def toNextToken (s : Cursor) : Option Cursor := toToken (s.rest.length + 1) s

end Cursor

end Blockwork.Yaml
