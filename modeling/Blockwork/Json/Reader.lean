import Blockwork.Json.Basic

/-!
Reading JSON text.  Each step uses up at least one character, so the length of the text bounds the
recursion; arrays and objects may be nested to a fixed depth only.
-/

namespace Blockwork.Json

/-- The characters that JSON allows between its tokens. -/
def isSpace (c : Char) : Bool := c = ' ' || c = '\t' || c = '\n' || c = '\r'

/-- The value of a hexadecimal digit. -/
def hexDigit? (c : Char) : Option Nat :=
  if '0' ≤ c ∧ c ≤ '9' then some (c.toNat - '0'.toNat)
  else if 'a' ≤ c ∧ c ≤ 'f' then some (c.toNat - 'a'.toNat + 10)
  else if 'A' ≤ c ∧ c ≤ 'F' then some (c.toNat - 'A'.toNat + 10)
  else none

/-- What a one-letter escape stands for. -/
def unescape? (c : Char) : Option Nat :=
  if c = 'n' then some 10
  else if c = 't' then some 9
  else if c = 'r' then some 13
  else if c = 'b' then some 8
  else if c = 'f' then some 12
  else if c = '"' ∨ c = '\\' ∨ c = '/' then some c.toNat
  else none

/-- The character codes of a string, up to its closing quote.  An escaped code may be half of a
surrogate pair. -/
def readCodes : List Char → Option (List Nat × List Char)
  | [] => none
  | c :: rest =>
    if c = '"' then some ([], rest)
    else if c = '\\' then
      match rest with
      | 'u' :: a :: b :: c :: d :: more => do
        let a ← hexDigit? a
        let b ← hexDigit? b
        let c ← hexDigit? c
        let d ← hexDigit? d
        let (codes, left) ← readCodes more
        pure ((((a * 16 + b) * 16 + c) * 16 + d) :: codes, left)
      | e :: more => do
        let code ← unescape? e
        let (codes, left) ← readCodes more
        pure (code :: codes, left)
      | [] => none
    else if c.toNat < 0x20 then none
    else do
      let (codes, left) ← readCodes rest
      pure (c.toNat :: codes, left)

/-- Whether a code is the first half of a surrogate pair. -/
def isLeading (n : Nat) : Bool := 0xd800 ≤ n && n < 0xdc00

/-- Whether a code is the second half of a surrogate pair. -/
def isTrailing (n : Nat) : Bool := 0xdc00 ≤ n && n < 0xe000

/-- Joins surrogate pairs into the characters they stand for.  No half may stand alone. -/
def joinSurrogates : List Nat → Option (List Char)
  | [] => some []
  | [n] => if isLeading n || isTrailing n then none else some [Char.ofNat n]
  | hi :: lo :: rest =>
    if isLeading hi then
      if isTrailing lo then
        (joinSurrogates rest).map
          (Char.ofNat (0x10000 + (hi - 0xd800) * 0x400 + (lo - 0xdc00)) :: ·)
      else none
    else if isTrailing hi then none
    else (joinSurrogates (lo :: rest)).map (Char.ofNat hi :: ·)

/-- The rest of a string after its opening quote. -/
def readString (cs : List Char) : Option (String × List Char) := do
  let (codes, left) ← readCodes cs
  let chars ← joinSurrogates codes
  pure (String.ofList chars, left)

/-! ### Numbers

A number that is not whole is read as a significand of at most 64 bits and a power of ten: the
digits that do not fit are left out, and the double nearest to the significand is multiplied or
divided once by the double nearest to the power. -/

/-- A significand of at most 64 bits and a decimal exponent. -/
structure Scaled where
  significand : Nat := 0
  exponent : Int := 0
  /-- Whether a digit had to be left out. -/
  full : Bool := false

namespace Scaled

/-- Whether the significand has no place for one more digit. -/
def overflows (s : Scaled) (c : Char) : Bool :=
  s.full || pow2 64 ≤ s.significand * 10 + digitsValue [c]

/-- One more digit in front of the point. -/
def addWhole (s : Scaled) (c : Char) : Scaled :=
  if s.overflows c then { s with exponent := s.exponent + 1, full := true }
  else { s with significand := s.significand * 10 + digitsValue [c] }

/-- One more digit after the point. -/
def addFraction (s : Scaled) (c : Char) : Scaled :=
  if s.overflows c then { s with full := true }
  else { s with significand := s.significand * 10 + digitsValue [c], exponent := s.exponent - 1 }

/-- Divides or multiplies by powers of ten, at most `10 ^ 308` at a time.  The result must be
finite; after three divisions nothing is left. -/
def scale (x : Float) (exponent : Int) : Nat → Option Float
  | 0 => some 0
  | fuel + 1 =>
    let power := doubleOfNat (pow10 (min exponent.natAbs 308))
    if x == 0 then some x
    else if 0 ≤ exponent then
      let y := x * power
      if 308 < exponent || y.isInf then none else some y
    else if -308 ≤ exponent then some (x / power)
    else scale (x / power) (exponent + 308) fuel

/-- The double that is read. -/
def toDouble? (s : Scaled) (negative : Bool) : Option Float :=
  (scale (doubleOfNat s.significand) s.exponent 3).map fun x => if negative then -x else x

end Scaled

/-- A number: exact if it is a whole one of at most 64 bits, else a finite double. -/
def readNumber (cs : List Char) : Option Json :=
  let (negative, body) := match cs with
    | '-' :: rest => (true, rest)
    | _ => (false, cs)
  let whole := body.takeWhile Char.isDigit
  let s : Scaled := whole.foldl Scaled.addWhole {}
  let real (s : Scaled) : Option Json := (s.toDouble? negative).map .real
  if whole.isEmpty || (whole.head? = some '0' && 1 < whole.length) then none
  else
    match body.dropWhile Char.isDigit with
    | [] =>
      if s.full then real s
      else if !negative then some (.int s.significand)
      else if s.significand = 0 || pow2 63 < s.significand then real s
      else some (.int (-(s.significand : Int)))
    | '.' :: more =>
      let fraction := more.takeWhile Char.isDigit
      if fraction.isEmpty then none
      else
        (readExponent (more.dropWhile Char.isDigit)).bind fun e =>
          let s := fraction.foldl Scaled.addFraction { s with full := false }
          real { s with exponent := s.exponent + e }
    | rest => (readExponent rest).bind fun e => real { s with exponent := s.exponent + e }

/-! ### Documents -/

/-- How deep arrays and objects may be nested. -/
def depthLimit : Nat := 127

mutual

/-- One document with arrays and objects nested at most `depth` deep, and what follows it. -/
def readValue : (fuel depth : Nat) → List Char → Option (Json × List Char)
  | 0, _, _ => none
  | fuel + 1, depth, cs =>
    match cs.dropWhile isSpace with
    | 'n' :: 'u' :: 'l' :: 'l' :: rest => some (.null, rest)
    | 't' :: 'r' :: 'u' :: 'e' :: rest => some (.bool true, rest)
    | 'f' :: 'a' :: 'l' :: 's' :: 'e' :: rest => some (.bool false, rest)
    | '"' :: rest => (readString rest).map fun (s, left) => (.str s, left)
    | '[' :: rest =>
      if depth = 0 then none
      else
        match rest.dropWhile isSpace with
        | ']' :: left => some (.arr [], left)
        | more => (readItems fuel (depth - 1) more).map fun (items, left) => (.arr items, left)
    | '\x7b' :: rest =>
      if depth = 0 then none
      else
        match rest.dropWhile isSpace with
        | '\x7d' :: left => some (.obj [], left)
        | more => (readFields fuel (depth - 1) more).map fun (fields, left) => (object fields, left)
    | other =>
      let part (c : Char) : Bool :=
        c.isDigit || c = '+' || c = '-' || c = '.' || c = 'e' || c = 'E'
      (readNumber (other.takeWhile part)).map fun n => (n, other.dropWhile part)

/-- The items of an array, up to its closing bracket. -/
def readItems : (fuel depth : Nat) → List Char → Option (List Json × List Char)
  | 0, _, _ => none
  | fuel + 1, depth, cs => do
    let (j, rest) ← readValue fuel depth cs
    match rest.dropWhile isSpace with
    | ',' :: more =>
      let (items, left) ← readItems fuel depth more
      pure (j :: items, left)
    | ']' :: left => pure ([j], left)
    | _ => none

/-- The fields of an object, up to its closing brace. -/
def readFields : (fuel depth : Nat) → List Char → Option (List (String × Json) × List Char)
  | 0, _, _ => none
  | fuel + 1, depth, cs =>
    match cs.dropWhile isSpace with
    | '"' :: rest => do
      let (name, rest) ← readString rest
      match rest.dropWhile isSpace with
      | ':' :: more =>
        let (j, rest) ← readValue fuel depth more
        match rest.dropWhile isSpace with
        | ',' :: more =>
          let (fields, left) ← readFields fuel depth more
          pure ((name, j) :: fields, left)
        | '\x7d' :: left => pure ([(name, j)], left)
        | _ => none
      | _ => none
    | _ => none

end

/-- Reads a text that holds exactly one document. -/
def parse? (text : String) : Option Json :=
  let cs := text.toList
  match readValue (cs.length + 1) depthLimit cs with
  | some (j, rest) => if rest.all isSpace then some j else none
  | none => none

end Blockwork.Json
