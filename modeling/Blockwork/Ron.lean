import Blockwork.Json.Reader
import Blockwork.Settings.Datum

/-!
Reading RON documents: numbers, texts, lists in brackets, maps in braces, and records and tuples in
parentheses, with or without a name in front.  Records and maps are tables here, lists and tuples are
arrays, and a name alone is null.
-/

namespace Blockwork.Ron

/-! ### White space and comments -/

def isSpace (c : Char) : Bool := c = ' ' || c = '\t' || c = '\r' || c = '\n'

/-- Where a text stands with respect to comments. -/
inductive Gap where
  | outside
  /-- In a comment that ends with its line. -/
  | line
  /-- In so many more comments than one, each inside the next, that end with their closing marks. -/
  | block (more : Nat)

/-- The text after white space and comments.  A comment must be closed. -/
def skipFrom : Gap → List Char → Option (List Char)
  | .block _, [] => none
  | _, [] => some []
  | .outside, '/' :: '/' :: rest => skipFrom .line rest
  | .outside, '/' :: '*' :: rest => skipFrom (.block 0) rest
  | .outside, c :: rest =>
    if isSpace c then skipFrom .outside rest else if c = '/' then none else some (c :: rest)
  | .line, c :: rest => skipFrom (if c = '\n' then .outside else .line) rest
  | .block n, '/' :: '*' :: rest => skipFrom (.block (n + 1)) rest
  | .block 0, '*' :: '/' :: rest => skipFrom .outside rest
  | .block (n + 1), '*' :: '/' :: rest => skipFrom (.block n) rest
  | .block n, _ :: rest => skipFrom (.block n) rest

def skip (cs : List Char) : Option (List Char) := skipFrom .outside cs

/-! ### Names -/

def isNameStart (c : Char) : Bool := c.isAlpha || c = '_'

def isNamePart (c : Char) : Bool := c.isAlphanum || c = '_'

/-- What may stand in a raw name, which has a mark in front. -/
def isRawPart (c : Char) : Bool := isNamePart c || c = '.' || c = '+' || c = '-'

/-- A name, and what follows it.  What looks like more of a raw name must not follow. -/
def readName (cs : List Char) : Option (String × List Char) :=
  match cs with
  | 'r' :: '"' :: _ => none
  | ['r'] => none
  | 'r' :: '#' :: rest =>
    match rest.takeWhile isRawPart with
    | [] => none
    | name => some (String.ofList name, rest.dropWhile isRawPart)
  | c :: _ =>
    let left := cs.dropWhile isNamePart
    if isNameStart c && !left.head?.any isRawPart then
      some (String.ofList (cs.takeWhile isNamePart), left)
    else none
  | [] => none

/-- The text after a word that stands alone. -/
def word? (word : String) (cs : List Char) : Option (List Char) :=
  let rest := cs.drop word.length
  if word.toList.isPrefixOf cs && !rest.head?.any isNamePart then some rest else none

/-! ### Numbers -/

def isWholePart (c : Char) : Bool := (Json.hexDigit? c).isSome || c = '_'

def isFloatPart (c : Char) : Bool :=
  c.isDigit || c = 'e' || c = 'E' || c = '.' || c = '+' || c = '-' || c = '_'

/-- The base that a mark in front of the digits names. -/
def readBase : List Char → Nat × List Char
  | '0' :: 'x' :: rest => (16, rest)
  | '0' :: 'b' :: rest => (2, rest)
  | '0' :: 'o' :: rest => (8, rest)
  | cs => (10, cs)

/-- The value of digits in a base, with underscores anywhere but in front. -/
def wholeValue? (base : Nat) (ds : List Char) : Option Nat :=
  if ds.isEmpty || ds.head? = some '_' then none
  else
    (ds.filter (· ≠ '_')).foldlM (fun n c =>
      (Json.hexDigit? c).bind fun d => if d < base then some (n * base + d) else none) 0

/-- A whole number: of 64 bits with a sign, or of 64 bits without one.  What does not fit a signed
number of 64 bits is a float. -/
def readWhole (cs : List Char) : Option (Datum × List Char) := do
  let (negative, body) := readSign cs
  let (base, ds) := readBase body
  let n ← wholeValue? base (ds.takeWhile isWholePart)
  let left := ds.dropWhile isWholePart
  let value : Int := if negative then -(n : Int) else n
  if fitsInt64 value then some (.int value, left)
  else if body.length = cs.length ∧ n < pow2 64 then some (.float (doubleOfNat n), left)
  else none

/-- A float; no underscores may stand in it. -/
def readFloat (cs : List Char) : Option (Datum × List Char) :=
  let text := cs.takeWhile isFloatPart
  if text.contains '_' then none
  else (readDouble text).map fun x => (.float x, cs.dropWhile isFloatPart)

/-- A number.  A whole number that cannot be read as one is read as a float. -/
def readNumber (cs : List Char) : Option (Datum × List Char) :=
  let (_, body) := readSign cs
  if (body.takeWhile isWholePart).length < (body.takeWhile isFloatPart).length then readFloat cs
  else (readWhole cs).or (readFloat cs)

/-! ### Texts -/

/-- The character of a code, if it has one. -/
def charOfCode? (n : Nat) : Option Char :=
  if n < 0x110000 && !Json.isLeading n && !Json.isTrailing n then some (Char.ofNat n) else none

/-- A code of one to six digits, up to its closing brace. -/
def readCode (cs : List Char) : Option (Char × List Char) := do
  let ds := cs.takeWhile (· ≠ '\x7d')
  if ds.isEmpty || 6 < ds.length then none
  else
    let n ← ds.foldlM (fun n c => (Json.hexDigit? c).map (n * 16 + ·)) 0
    let c ← charOfCode? n
    match cs.dropWhile (· ≠ '\x7d') with
    | _ :: left => pure (c, left)
    | [] => none

/-- What an escape after its backslash stands for, and what follows it. -/
def readEscape : List Char → Option (Char × List Char)
  | 'x' :: a :: b :: rest => do
    let a ← Json.hexDigit? a
    let b ← Json.hexDigit? b
    pure (Char.ofNat (a * 16 + b), rest)
  | 'u' :: '\x7b' :: rest => readCode rest
  | c :: rest =>
    if c = '\x27' ∨ c = '"' ∨ c = '\\' then some (c, rest)
    else if c = 'n' then some ('\n', rest)
    else if c = 'r' then some ('\r', rest)
    else if c = 't' then some ('\t', rest)
    else if c = '0' then some (Char.ofNat 0, rest)
    else none
  | [] => none

/-- The rest of a quoted text.  Each step takes at least one character. -/
def readQuoted : Nat → List Char → Option (List Char × List Char)
  | 0, _ => none
  | _ + 1, [] => none
  | fuel + 1, c :: rest =>
    if c = '"' then some ([], rest)
    else do
      let (c, rest) ← if c = '\\' then readEscape rest else some (c, rest)
      let (cs, left) ← readQuoted fuel rest
      pure (c :: cs, left)

/-- The rest of a raw text, which ends with a quote and as many hash signs as it began with. -/
def readRaw (hashes : Nat) : List Char → Option (List Char × List Char)
  | [] => none
  | c :: rest =>
    if c = '"' && (List.replicate hashes '#').isPrefixOf rest then some ([], rest.drop hashes)
    else (readRaw hashes rest).map fun (cs, left) => (c :: cs, left)

/-- A text in double quotes, raw or not. -/
def readText : List Char → Option (String × List Char)
  | '"' :: rest => (readQuoted (rest.length + 1) rest).map fun (cs, left) => (String.ofList cs, left)
  | 'r' :: rest =>
    match rest.dropWhile (· = '#') with
    | '"' :: body =>
      (readRaw (rest.takeWhile (· = '#')).length body).map fun (cs, left) => (String.ofList cs, left)
    | _ => none
  | _ => none

/-- A single character after its opening quote. -/
def readChar (cs : List Char) : Option (String × List Char) := do
  let (c, rest) ← match cs with
    | '\\' :: rest => readEscape rest
    | c :: rest => if c = '\x27' then none else some (c, rest)
    | [] => none
  match rest with
  | '\x27' :: left => pure (String.singleton c, left)
  | _ => none

/-! ### Documents -/

/-- Whether the text after an opening parenthesis is that of a record: its first name has a colon. -/
def isRecord (cs : List Char) : Bool :=
  match (readName cs).bind fun (_, rest) => skip rest with
  | some (':' :: _) => true
  | _ => false

/-- A value that holds no others. -/
def readPlain (cs : List Char) : Option (Datum × List Char) :=
  match cs with
  | [] => none
  | c :: rest =>
    if c.isDigit || c = '+' || c = '-' then readNumber cs
    else if c = '.' then readFloat cs
    else if c = '"' || c = 'r' then (readText cs).map fun (s, left) => (.str s, left)
    else if c = '\x27' then (readChar rest).map fun (s, left) => (.str s, left)
    else none

/-- The words that stand for values. -/
def readWord (cs : List Char) : Option (Datum × List Char) :=
  [("true", Datum.bool true), ("false", .bool false), ("None", .null), ("inf", .float infinity),
    ("-inf", .float negInfinity), ("NaN", .float notANumber)].findSome? fun (word, v) =>
    (word? word cs).map (v, ·)

/-- The text after a comma, if there is one, and whether there is. -/
def readComma (cs : List Char) : Option (Bool × List Char) := do
  match ← skip cs with
  | ',' :: rest =>
    let rest ← skip rest
    pure (true, rest)
  | rest => pure (false, rest)

section

variable (read : List Char → Option (Datum × List Char))

/-- Items up to the closing mark.  A comma may follow the last one. -/
def readItems (close : Char) : Nat → List Char → Option (List Datum × List Char)
  | 0, _ => none
  | fuel + 1, cs =>
    if cs.head? = some close then some ([], cs.drop 1)
    else do
      let (d, rest) ← read cs
      let (more, rest) ← readComma rest
      if more then
        let (ds, left) ← readItems close fuel rest
        pure (d :: ds, left)
      else if rest.head? = some close then pure ([d], rest.drop 1)
      else none

/-- Entries up to the closing mark; `readKey` reads their names. -/
def readEntries (readKey : List Char → Option (String × List Char)) (close : Char) :
    Nat → List Char → Option (List (String × Datum) × List Char)
  | 0, _ => none
  | fuel + 1, cs =>
    if cs.head? = some close then some ([], cs.drop 1)
    else do
      let (name, rest) ← readKey cs
      match ← skip rest with
      | ':' :: rest =>
        let rest ← skip rest
        let (d, rest) ← read rest
        let (more, rest) ← readComma rest
        if more then
          let (entries, left) ← readEntries readKey close fuel rest
          pure ((name, d) :: entries, left)
        else if rest.head? = some close then pure ([(name, d)], rest.drop 1)
        else none
      | _ => none

/-- The name of an entry of a map, which is any value that is a text. -/
def readMapKey (cs : List Char) : Option (String × List Char) :=
  match read cs with
  | some (.str s, rest) => some (s, rest)
  | _ => none

/-- A record or a tuple from its parenthesis on; without one there is nothing, which is null. -/
def readGroup (cs : List Char) : Option (Datum × List Char) :=
  match cs with
  | '(' :: rest => do
    let rest ← skip rest
    if isRecord rest then
      (readEntries read readName ')' (rest.length + 1) rest).map fun (entries, left) =>
        (.table (Table.ofList entries), left)
    else
      (readItems read ')' (rest.length + 1) rest).map fun (items, left) => (.arr items, left)
  | _ => some (.null, cs)

/-- The value in the parentheses of `Some`.  A comma may follow it. -/
def readSome (cs : List Char) : Option (Datum × List Char) := do
  match ← skip cs with
  | '(' :: rest =>
    let rest ← skip rest
    let (d, rest) ← read rest
    let (_, rest) ← readComma rest
    match rest with
    | ')' :: left => pure (d, left)
    | _ => none
  | _ => none

end

/-- One value with others nested at most `depth` deep in it, and what follows it. -/
def readValue : Nat → List Char → Option (Datum × List Char)
  | 0, _ => none
  | depth + 1, cs =>
    match readWord cs, word? "Some" cs, cs with
    | some found, _, _ => some found
    | none, some rest, _ => readSome (readValue depth) rest
    | none, none, '(' :: ')' :: rest => some (.null, rest)
    | none, none, '[' :: rest => do
      let rest ← skip rest
      (readItems (readValue depth) ']' (rest.length + 1) rest).map fun (items, left) =>
        (.arr items, left)
    | none, none, '\x7b' :: rest => do
      let rest ← skip rest
      let (entries, left) ←
        readEntries (readValue depth) (readMapKey (readValue depth)) '\x7d' (rest.length + 1) rest
      pure (.table (Table.ofList entries), left)
    | none, none, _ =>
      match readName cs, cs with
      | some (_, rest), _ => (skip rest).bind (readGroup (readValue depth))
      | none, '(' :: _ => readGroup (readValue depth) cs
      | none, _ => readPlain cs

/-- How deep values may be nested, counting the outermost. -/
def depthLimit : Nat := 129

/-- The features that a document may ask for.  None of them changes how a document is read here. -/
def features : List String :=
  ["unwrap_newtypes", "implicit_some", "unwrap_variant_newtypes", "explicit_struct_names"]

/-- The text after the given marks, with white space and comments between them. -/
def skipMarks : List String → List Char → Option (List Char)
  | [], cs => some cs
  | mark :: rest, cs =>
    if mark.toList.isPrefixOf cs then (skip (cs.drop mark.length)).bind (skipMarks rest) else none

/-- The rest of a list of features. -/
def skipFeatures : Nat → List Char → Option (List Char)
  | 0, _ => none
  | fuel + 1, cs => do
    let (name, rest) ← readName cs
    let (more, rest) ← readComma rest
    if name ∉ features then none
    else if more && rest.head?.any isNamePart then skipFeatures fuel rest
    else skipMarks [")", "]"] rest

/-- The text after the features that stand in front of a document. -/
def skipHeader : Nat → List Char → Option (List Char)
  | 0, _ => none
  | fuel + 1, cs =>
    match cs with
    | '#' :: _ => do
      let rest ← skipMarks ["#", "!", "[", "enable", "("] cs
      let rest ← skipFeatures (rest.length + 1) rest
      skipHeader fuel rest
    | _ => some cs

/-- Reads a text that holds exactly one document. -/
def parse? (text : String) : Option Datum := do
  let cs ← skip text.toList
  let cs ← skipHeader (cs.length + 1) cs
  let (d, rest) ← readValue depthLimit cs
  let rest ← skip rest
  if rest.isEmpty then pure d else none

end Blockwork.Ron
