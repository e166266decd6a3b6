import Blockwork.Yaml.Scalar

/-!
From the text of a YAML document to its tokens.  Whether a text is a key shows only at the colon after
it; the token of the key is then put in where the key began.
-/

namespace Blockwork.Yaml

namespace Cursor

/-! ### Directives and tags -/

/-- The characters of handles and of the names of directives. -/
def isWordPart (c : Char) : Bool := c.isAlphanum || c = '_' || c = '-'

/-- The characters of the rest of a tag. -/
def isTagPart (c : Char) : Bool :=
  isWordPart c || "#;/?:@&=+$_.~*\x27()%".toList.contains c

/-- The characters of an anchor's name. -/
def isAnchorPart (c : Char) : Bool := !isBreak c && !isGap c && !isFlow c && c.toNat ≠ 0xfeff

/-- A directive takes a line of its own.  Those that are not known say nothing. -/
def directive (s : Cursor) : Option Cursor := do
  let line := s.rest.takeWhile (!isBreak ·)
  let words := ((String.ofList (line.takeWhile (· ≠ '#'))).splitOn " ").filter (· ≠ "")
  let kind ← match words with
    | "%YAML" :: _ :: [] => some .versionDirective
    | "%TAG" :: handle :: expansion :: [] => some (.tagDirective handle expansion)
    | "%YAML" :: _ => none
    | "%TAG" :: _ => none
    | _ => some (.tagDirective "" "")
  let s ← (s.endBlocks (-1)).dropKey
  pure (({ s with keyAllowed := false }.push kind s.col).skip line.length).skipBreak

/-- A tag: whole in angle brackets, or a handle and a rest. -/
def tag (s : Cursor) : Option Cursor := do
  let s := { s.noteKey with keyAllowed := false }
  let col := s.col
  let (handle, rest, s) ← match s.rest with
    | '!' :: '<' :: more =>
      match more.dropWhile (· ≠ '>') with
      | '>' :: _ =>
        let name := more.takeWhile (· ≠ '>')
        if name.isEmpty || name.any (fun c => isGap c || isBreak c) then none
        else some ("", String.ofList name, s.skip (name.length + 3))
      | _ => none
    | _ =>
      let word := (s.rest.drop 1).takeWhile isWordPart
      let s' := s.skip (word.length + 1)
      if s'.rest.head? = some '!' then
        let s' := s'.skip 1
        let rest := s'.rest.takeWhile isTagPart
        if rest.isEmpty then none
        else some (String.ofList ('!' :: word ++ ['!']), String.ofList rest, s'.skip rest.length)
      else
        let more := s'.rest.takeWhile isTagPart
        let rest := word ++ more
        some (if rest.isEmpty then ("", "!", s') else ("!", String.ofList rest, s'.skip more.length))
  if atGap s.rest || (s.flow ≠ 0 && s.rest.head?.any isFlow) then pure (s.push (.tag handle rest) col)
  else none

/-- An anchor, or a reference to one. -/
def anchor (kind : String → TokenKind) (s : Cursor) : Option Cursor :=
  let s := { s.noteKey with keyAllowed := false }
  let name := (s.rest.drop 1).takeWhile isAnchorPart
  if name.isEmpty then none
  else some ((s.push (kind (String.ofList name)) s.col).skip (name.length + 1))

/-! ### Structure -/

/-- The mark between two documents, of three characters. -/
def documentMark (kind : TokenKind) (s : Cursor) : Option Cursor := do
  let s ← (s.endBlocks (-1)).dropKey
  pure (({ s with keyAllowed := false }.push kind s.col).skip 3)

/-- The opening mark of a flow collection. -/
def openFlow (kind : TokenKind) (s : Cursor) : Option Cursor := do
  let s := s.noteKey.requestIndent
  let col := s.col
  if 255 ≤ s.flow then none
  else
    let s := { s with keys := {} :: s.keys, flow := s.flow + 1, keyAllowed := true }
    let s ← (s.skip 1).skipToLineEnd true
    pure (s.push kind col)

/-- The closing mark of a flow collection. -/
def closeFlow (kind : TokenKind) (s : Cursor) : Option Cursor := do
  let s ← s.dropKey
  let s := if s.flow = 0 then s else { s with flow := s.flow - 1, keys := s.keys.drop 1 }
  let col := s.col
  let s ← ({ s with keyAllowed := false }.skip 1).skipToLineEnd true
  let s := if s.flow = 0 then s else { s with adjacentAt := s.index }
  pure (s.push kind col)

/-- The comma in a flow collection. -/
def flowEntry (s : Cursor) : Option Cursor := do
  let s ← s.dropKey
  let col := s.col
  let s ← ({ s with keyAllowed := true }.skip 1).skipToLineEnd true
  pure (s.push .flowEntry col)

/-- The dash of an item in a block sequence. -/
def blockEntry (s : Cursor) : Option Cursor := do
  let afterProperty := s.tokens.back?.any fun t => t.kind.isProperty && t.col = 0
  if s.flow ≠ 0 || !s.keyAllowed || (s.col = 0 && afterProperty && -1 < s.indent) then none
  else
    let col := s.col
    let s := (s.skip 1).startBlock col none .blockSequenceStart
    let hasTab := (s.rest.takeWhile isGap).contains '\t'
    let s ← s.skipToLineEnd true
    if hasTab && s.rest.head? = some '-' && atGap (s.rest.drop 1) then none
    else
      let s := if s.rest.head?.any (fun c => isBreak c || isFlow c) then s.requestIndent else s
      let s ← s.dropKey
      pure ({ s with keyAllowed := true }.push .blockEntry s.col)

/-- Over the white space after the mark of a key: blanks, line ends and comments.  There is some. -/
def skipKeyGap : Nat → Bool → Cursor → Option Cursor
  | 0, _, _ => none
  | fuel + 1, found, s =>
    match s.rest.head? with
    | some ' ' => skipKeyGap fuel true (s.skipGap 1)
    | some '#' => skipKeyGap fuel found s.skipComment
    | c =>
      if c.any isBreak then
        let s := s.skipBreak
        skipKeyGap fuel true (if s.flow = 0 then { s with keyAllowed := true } else s)
      else if !found || c = some '\t' then none
      else some s

/-- The question mark in front of a key. -/
def explicitKey (s : Cursor) : Option Cursor := do
  let col := s.col
  if s.flow = 0 && !s.keyAllowed then none
  else
    let s ← (s.startBlock col none .blockMappingStart).dropKey
    let s := { s with keyAllowed := s.flow = 0 }.skip 1
    let s ← skipKeyGap (s.rest.length + 1) false s
    pure (s.push .key col)

/-- The colon in front of a value.  If a key may have begun before it, one did. -/
def value (s : Cursor) : Option Cursor := do
  let k := s.keys.head?.getD {}
  let col := s.col
  let s := s.skip 1
  let gap := s.rest.takeWhile isGap
  let s ← if gap.head? = some '\t' then s.skipToLineEnd true else some s
  if gap.head? = some '\t' && !gap.contains ' ' && s.rest.head?.any isWordPart then none
  else if k.possible then
    let s := s.insert k.token .key k.col
    let s := (s.startBlock k.col (some k.token) .blockMappingStart).requestIndent
    let keys := { k with possible := false } :: s.keys.drop 1
    pure ({ s with keys, keyAllowed := false }.push .value col)
  else if s.flow = 0 && !s.keyAllowed then none
  else
    let s := (s.startBlock col none .blockMappingStart).requestIndent
    pure ({ s with keyAllowed := s.flow = 0 }.push .value col)

/-! ### Texts -/

/-- A text; a key may begin with it. -/
def scalar (isPlain keyAllowed : Bool) (read : Cursor → Option (String × Cursor)) (s : Cursor) :
    Option Cursor := do
  let col := s.col
  let (text, s) ← read { s.noteKey with keyAllowed }
  pure (s.push (.scalar isPlain text) col)

/-- A quoted text; the colon may follow it directly. -/
def quotedScalar (quote : Char) (s : Cursor) : Option Cursor := do
  let s ← s.scalar false false (quoted quote)
  let s ← s.toNextToken
  pure { s with adjacentAt := s.index }

/-! ### All tokens -/

/-- The next token, of which the first character is given. -/
def next (c : Char) (rest : List Char) (s : Cursor) : Option Cursor :=
  let inFlow := s.flow ≠ 0
  if s.col = 0 && c = '%' then s.directive
  else if s.col = 0 && isDocumentMark '-' s.rest then s.documentMark .documentStart
  else if s.col = 0 && isDocumentMark '.' s.rest then do
    let s ← (← s.documentMark .documentEnd).skipToLineEnd true
    if atLineEnd s.rest then pure s else none
  else if (s.col : Int) < s.indent then none
  else if c = '[' then s.openFlow .flowSequenceStart
  else if c = '\x7b' then s.openFlow .flowMappingStart
  else if c = ']' then s.closeFlow .flowSequenceEnd
  else if c = '\x7d' then s.closeFlow .flowMappingEnd
  else if c = ',' then s.flowEntry
  else if c = '-' && atGap rest then s.blockEntry
  else if c = '?' && atGap rest then s.explicitKey
  else if c = ':' &&
      (atGap rest || (inFlow && (rest.head?.any isFlow || s.index = s.adjacentAt))) then
    s.value
  else if c = '*' then s.anchor .reference
  else if c = '&' then s.anchor .anchor
  else if c = '!' then s.tag
  else if c = '|' && !inFlow then s.scalar false true (block true)
  else if c = '>' && !inFlow then s.scalar false true (block false)
  else if c = '\x27' || c = '"' then s.quotedScalar c
  else if c = '%' || c = '@' || c.toNat = 0x60 then none
  else s.scalar true false plain

/-- The tokens from a place on.  Every token takes at least one character. -/
def scanFrom : Nat → Cursor → Option (Array Token)
  | 0, _ => none
  | fuel + 1, s => do
    let s ← (← s.toNextToken).dropStaleKeys
    let s := s.endBlocks s.col
    match s.rest with
    | c :: rest => (next c rest s).bind (scanFrom fuel)
    | [] =>
      let unfinished := s.keys.any fun k => k.required && k.possible
      if unfinished then none else some (s.endBlocks (-1)).tokens

end Cursor

/-- The tokens of a text. -/
def scan (text : String) : Option (List Token) :=
  (Cursor.scanFrom (text.length + 1) { rest := text.toList }).map Array.toList

end Blockwork.Yaml
