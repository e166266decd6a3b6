import Blockwork.Toml.Scalar

/-!
Quoted strings of a document.  Between double quotes a backslash starts an escape, between single
quotes every character is itself; three quotes on either side let a string go over several lines.
Line ends are single line feeds here.
-/

namespace Blockwork.Toml

/-- What a one-letter escape stands for. -/
def unescape? (c : Char) : Option Char :=
  if c = 'b' then some (Char.ofNat 8)
  else if c = 't' then some '\t'
  else if c = 'n' then some '\n'
  else if c = 'f' then some (Char.ofNat 12)
  else if c = 'r' then some '\r'
  else if c = '"' ∨ c = '\\' then some c
  else none

/-- The character of a hexadecimal code. -/
def charOfHex? (ds : List Char) : Option Char :=
  let n := valueIn 16 ds
  if ds.all (isDigitIn 16) && (n < 0xd800 || (0xdfff < n && n < 0x110000)) then some (Char.ofNat n)
  else none

/-- Puts a character in front of a string, if both could be read. -/
def after (c : Option Char) (rest : Option (List Char × List Char)) :
    Option (List Char × List Char) := do
  let c ← c
  let (cs, left) ← rest
  pure (c :: cs, left)

/-- The rest of a string on one line, between double quotes. -/
def readBasic : List Char → Option (List Char × List Char)
  | [] => none
  | '"' :: rest => some ([], rest)
  | '\\' :: 'u' :: a :: b :: c :: d :: rest => after (charOfHex? [a, b, c, d]) (readBasic rest)
  | '\\' :: 'U' :: a :: b :: c :: d :: e :: f :: g :: h :: rest =>
    after (charOfHex? [a, b, c, d, e, f, g, h]) (readBasic rest)
  | '\\' :: e :: rest => after (unescape? e) (readBasic rest)
  | c :: rest => if isControl c || c = '\\' then none else after (some c) (readBasic rest)

/-- Where a string over several lines stands with respect to a line end that is left out. -/
inductive Margin where
  /-- In the text. -/
  | text
  /-- After a backslash that ends its line. -/
  | broken
  /-- After such a line end: white space goes with it. -/
  | skipped

/-- Whether a backslash with this text after it ends its line. -/
def endsLine (cs : List Char) : Bool :=
  match cs.dropWhile fun c => c = ' ' || c = '\t' with
  | '\n' :: _ => true
  | _ => false

/-- The rest of a string over several lines, between double quotes.  Up to two quotes may stand
right before the closing ones. -/
def readBasicLines : Margin → List Char → Option (List Char × List Char)
  | _, [] => none
  | .broken, c :: rest => readBasicLines (if c = '\n' then .skipped else .broken) rest
  | .skipped, ' ' :: rest => readBasicLines .skipped rest
  | .skipped, '\t' :: rest => readBasicLines .skipped rest
  | .skipped, '\n' :: rest => readBasicLines .skipped rest
  | _, '"' :: '"' :: '"' :: '"' :: '"' :: rest => some (['"', '"'], rest)
  | _, '"' :: '"' :: '"' :: '"' :: rest => some (['"'], rest)
  | _, '"' :: '"' :: '"' :: rest => some ([], rest)
  | _, '\\' :: 'u' :: a :: b :: c :: d :: rest =>
    after (charOfHex? [a, b, c, d]) (readBasicLines .text rest)
  | _, '\\' :: 'U' :: a :: b :: c :: d :: e :: f :: g :: h :: rest =>
    after (charOfHex? [a, b, c, d, e, f, g, h]) (readBasicLines .text rest)
  | _, '\\' :: e :: rest =>
    if endsLine (e :: rest) then readBasicLines (if e = '\n' then .skipped else .broken) rest
    else after (unescape? e) (readBasicLines .text rest)
  | _, c :: rest =>
    if (isControl c && c ≠ '\n') || c = '\\' then none
    else after (some c) (readBasicLines .text rest)

/-- The rest of a string on one line, between single quotes. -/
def readLiteral : List Char → Option (List Char × List Char)
  | [] => none
  | '\x27' :: rest => some ([], rest)
  | c :: rest => if isControl c then none else after (some c) (readLiteral rest)

/-- The rest of a string over several lines, between single quotes. -/
def readLiteralLines : List Char → Option (List Char × List Char)
  | [] => none
  | '\x27' :: '\x27' :: '\x27' :: '\x27' :: '\x27' :: rest => some (['\x27', '\x27'], rest)
  | '\x27' :: '\x27' :: '\x27' :: '\x27' :: rest => some (['\x27'], rest)
  | '\x27' :: '\x27' :: '\x27' :: rest => some ([], rest)
  | c :: rest => if isControl c && c ≠ '\n' then none else after (some c) (readLiteralLines rest)

/-- A line end right after the opening quotes is not part of the string. -/
def dropLineEnd : List Char → List Char
  | '\n' :: rest => rest
  | cs => cs

/-- A string on one line, which may be a key too. -/
def readQuotedLine : List Char → Option (List Char × List Char)
  | '"' :: rest => readBasic rest
  | '\x27' :: rest => readLiteral rest
  | _ => none

/-- A string of any form. -/
def readQuoted : List Char → Option (List Char × List Char)
  | '"' :: '"' :: '"' :: rest => readBasicLines .text (dropLineEnd rest)
  | '\x27' :: '\x27' :: '\x27' :: rest => readLiteralLines (dropLineEnd rest)
  | cs => readQuotedLine cs

end Blockwork.Toml
