import Blockwork.Json.Reader
import Blockwork.Text.Word

/-!
Reading relaxed JSON, the way people write it by hand: comments, names without quotes, strings in
single quotes, a comma after the last item, and more ways to write a number.  Every step takes at
least one character, so the length of the text bounds the recursion.
-/

namespace Blockwork.Json.Relaxed

/-! ### White space and comments -/

def isLineEnd (c : Char) : Bool :=
  c = '\n' || c = '\r' || c.toNat = 0x2028 || c.toNat = 0x2029

def isSpace (c : Char) : Bool :=
  let n := c.toNat
  isLineEnd c || c = '\t' || n = 0xb || n = 0xc || n = 0x20 || n = 0xa0 || n = 0xfeff ||
    n = 0x1680 || (0x2000 ≤ n && n ≤ 0x200a) || n = 0x202f || n = 0x205f || n = 0x3000

/-- Where a text stands with respect to comments. -/
inductive Gap where
  | outside
  /-- In a comment that ends with its line. -/
  | line
  /-- In a comment that ends with its closing mark. -/
  | block

/-- The text after white space and comments.  A comment must be closed. -/
def skip : Gap → List Char → Option (List Char)
  | .block, [] => none
  | _, [] => some []
  | .outside, '/' :: '/' :: rest => skip .line rest
  | .outside, '/' :: '*' :: rest => skip .block rest
  | .outside, c :: rest => if isSpace c then skip .outside rest else some (c :: rest)
  | .line, c :: rest => skip (if isLineEnd c then .outside else .line) rest
  | .block, '*' :: '/' :: rest => skip .outside rest
  | .block, _ :: rest => skip .block rest

/-- What follows a value: the text after white space and comments. -/
def skipAfter {α : Type} (read : Option (α × List Char)) : Option (α × List Char) := do
  let (a, rest) ← read
  let rest ← skip .outside rest
  pure (a, rest)

/-! ### Strings and names -/

/-- What a one-letter escape stands for.  Letters that stand for nothing else stand for themselves;
digits do not. -/
def unescape? (c : Char) : Option Nat :=
  if c = 'b' then some 8
  else if c = 'f' then some 12
  else if c = 'n' then some 10
  else if c = 'r' then some 13
  else if c = 't' then some 9
  else if c = 'v' then some 11
  else if c = '0' then some 0
  else if c.isDigit || c = 'x' || c = 'u' || isLineEnd c then none
  else some c.toNat

/-- Puts a code in front of the codes of a text, if all could be read. -/
def following (code : Option Nat) (rest : Option (List Nat × List Char)) :
    Option (List Nat × List Char) := do
  let code ← code
  let (codes, left) ← rest
  pure (code :: codes, left)

/-- The value of hexadecimal digits. -/
def hexValue? (ds : List Char) : Option Nat :=
  ds.foldlM (fun n c => (hexDigit? c).map (n * 16 + ·)) 0

/-- The character codes of a string, up to its closing quote.  An escaped line end stands for
nothing. -/
def readCodes (quote : Char) : List Char → Option (List Nat × List Char)
  | [] => none
  | '\\' :: '\r' :: '\n' :: rest => readCodes quote rest
  | '\\' :: 'x' :: a :: b :: rest => following (hexValue? [a, b]) (readCodes quote rest)
  | '\\' :: 'u' :: a :: b :: c :: d :: rest =>
    following (hexValue? [a, b, c, d]) (readCodes quote rest)
  | '\\' :: e :: rest =>
    if isLineEnd e then readCodes quote rest else following (unescape? e) (readCodes quote rest)
  | c :: rest =>
    if c = quote then some ([], rest)
    else if c = '\\' || isLineEnd c then none
    else following (some c.toNat) (readCodes quote rest)

/-- Whether a name may start with a character. -/
def isNameStart (c : Char) : Bool := Text.isLetter c || c = '$' || c = '_'

/-- Whether a name may go on with a character. -/
def isNamePart (c : Char) : Bool :=
  isNameStart c || Text.isNameTail c || c.toNat = 0x200c || c.toNat = 0x200d

/-- The character codes of a name without quotes, from its start or from further on. -/
def readNameCodes (atStart : Bool) : List Char → Option (List Nat × List Char)
  | '\\' :: 'u' :: a :: b :: c :: d :: rest =>
    following (hexValue? [a, b, c, d]) (readNameCodes false rest)
  | c :: rest =>
    if isNameStart c || (!atStart && isNamePart c) then
      following (some c.toNat) (readNameCodes false rest)
    else if atStart then none
    else some ([], c :: rest)
  | [] => if atStart then none else some ([], [])

/-- The text of codes, in which surrogates come in pairs. -/
def textOf (read : Option (List Nat × List Char)) : Option (String × List Char) := do
  let (codes, left) ← read
  let chars ← joinSurrogates codes
  pure (String.ofList chars, left)

/-- A string after its opening quote. -/
def readString (quote : Char) (cs : List Char) : Option (String × List Char) :=
  textOf (readCodes quote cs)

/-- The name of a field, with or without quotes. -/
def readName : List Char → Option (String × List Char)
  | '"' :: rest => readString '"' rest
  | '\x27' :: rest => readString '\x27' rest
  | cs => textOf (readNameCodes true cs)

/-! ### Numbers -/

/-- Whether the digits in front of the point are well formed: no zero in front of others. -/
def isWhole (ds : List Char) : Bool :=
  !ds.isEmpty && ds.all Char.isDigit && (ds.head? ≠ some '0' || ds.length = 1)

/-- Whether a text is a decimal without sign.  There are digits on at least one side of the point. -/
def isDecimal (cs : List Char) : Bool :=
  let whole := cs.takeWhile Char.isDigit
  let rest := match cs.dropWhile Char.isDigit with
    | '.' :: more => more.dropWhile Char.isDigit
    | rest => rest
  (readUnsigned false cs).isSome && (readExponent rest).isSome &&
    (isWhole whole || (whole.isEmpty && cs.head? = some '.'))

/-- A number.  A whole one has at most 64 bits with its sign, and at most 32 if it is hexadecimal; a
decimal must be finite.  The only sign that infinity and not-a-number may have is a minus. -/
def ofNumber? (cs : List Char) : Option Json :=
  let (_, body) := readSign cs
  let finite (x : Float) : Option Json := if x.isFinite then some (.real x) else none
  match body with
  | '0' :: 'x' :: ds | '0' :: 'X' :: ds => do
    let n ← hexValue? ds
    if body.length = cs.length ∧ ds ≠ [] ∧ n < pow2 32 then some (.int n) else none
  | _ =>
    if body = "Infinity".toList ∨ body = "NaN".toList then
      if cs.head? = some '+' then none else (readDouble cs).map .real
    else if !isDecimal body then none
    else if body.all Char.isDigit then (readInt64 cs).map .int
    else (readDouble cs).bind finite

/-! ### Documents -/

mutual

/-- One document, which starts right here, and what follows it and the gap after it. -/
def readValue : Nat → List Char → Option (Json × List Char)
  | 0, _ => none
  | fuel + 1, cs =>
    skipAfter <| match cs with
    | 'n' :: 'u' :: 'l' :: 'l' :: rest => some (.null, rest)
    | 't' :: 'r' :: 'u' :: 'e' :: rest => some (.bool true, rest)
    | 'f' :: 'a' :: 'l' :: 's' :: 'e' :: rest => some (.bool false, rest)
    | '"' :: rest => (readString '"' rest).map fun (s, left) => (.str s, left)
    | '\x27' :: rest => (readString '\x27' rest).map fun (s, left) => (.str s, left)
    | '[' :: rest => do
      match ← skip .outside rest with
      | ']' :: left => pure (.arr [], left)
      | more => (readItems fuel more).map fun (items, left) => (.arr items, left)
    | '\x7b' :: rest => do
      match ← skip .outside rest with
      | '\x7d' :: left => pure (.obj [], left)
      | more => (readFields fuel more).map fun (fields, left) => (object fields, left)
    | other =>
      let part (c : Char) : Bool := c.isAlphanum || c = '+' || c = '-' || c = '.'
      (ofNumber? (other.takeWhile part)).map fun n => (n, other.dropWhile part)

/-- The items of an array, up to its closing bracket. -/
def readItems : Nat → List Char → Option (List Json × List Char)
  | 0, _ => none
  | fuel + 1, cs => do
    let (j, rest) ← readValue fuel cs
    match rest with
    | ',' :: more =>
      match ← skip .outside more with
      | ']' :: left => pure ([j], left)
      | more =>
        let (items, left) ← readItems fuel more
        pure (j :: items, left)
    | ']' :: left => pure ([j], left)
    | _ => none

/-- The fields of an object, up to its closing brace. -/
def readFields : Nat → List Char → Option (List (String × Json) × List Char)
  | 0, _ => none
  | fuel + 1, cs => do
    let (name, rest) ← skipAfter (readName cs)
    match rest with
    | ':' :: more =>
      let more ← skip .outside more
      let (j, rest) ← readValue fuel more
      match rest with
      | ',' :: more =>
        match ← skip .outside more with
        | '\x7d' :: left => pure ([(name, j)], left)
        | more =>
          let (fields, left) ← readFields fuel more
          pure ((name, j) :: fields, left)
      | '\x7d' :: left => pure ([(name, j)], left)
      | _ => none
    | _ => none

end

/-- Reads a text that holds exactly one document. -/
def parse? (text : String) : Option Json := do
  let cs ← skip .outside text.toList
  let (j, rest) ← readValue (cs.length + 1) cs
  if rest.isEmpty then pure j else none

end Blockwork.Json.Relaxed
