import Blockwork.Json.Reader
import Blockwork.Toml.Basic

/-!
Numbers, truth values, dates and times: the values that stand bare in a document.
-/

namespace Blockwork.Toml

/-! ### Numbers -/

/-- Digits in groups, without the single underscores that may stand between two digits. -/
def groupedDigits? (isDigit : Char → Bool) : List Char → Option (List Char)
  | [] => none
  | [c] => if isDigit c then some [c] else none
  | c :: '_' :: rest => if isDigit c then (groupedDigits? isDigit rest).map (c :: ·) else none
  | c :: rest => if isDigit c then (groupedDigits? isDigit rest).map (c :: ·) else none

/-- Decimal digits in groups, with no zero in front of other digits. -/
def wholeDigits? (cs : List Char) : Option (List Char) :=
  (groupedDigits? Char.isDigit cs).filter fun ds => ds.head? ≠ some '0' || ds.length = 1

/-- Whether a character is a digit in a base of at most sixteen. -/
def isDigitIn (base : Nat) (c : Char) : Bool :=
  match Json.hexDigit? c with
  | some d => decide (d < base)
  | none => false

/-- The value of digits in a base of at most sixteen. -/
def valueIn (base : Nat) (ds : List Char) : Nat :=
  ds.foldl (fun n c => base * n + (Json.hexDigit? c).getD 0) 0

/-- A whole number must fit 64 bits with a sign. -/
def int? (n : Int) : Option Toml := if fitsInt64 n then some (.int n) else none

/-- A whole number: decimal with an optional sign, or with a base mark and no sign. -/
def integer? (cs : List Char) : Option Toml :=
  let based (base : Nat) (ds : List Char) : Option Toml :=
    (groupedDigits? (isDigitIn base) ds).bind fun ds => int? (valueIn base ds)
  match cs with
  | '0' :: 'x' :: ds => based 16 ds
  | '0' :: 'o' :: ds => based 8 ds
  | '0' :: 'b' :: ds => based 2 ds
  | _ =>
    let (negative, ds) := readSign cs
    (wholeDigits? ds).bind fun ds =>
      int? (if negative then -(digitsValue ds : Int) else digitsValue ds)

/-- The exponent of a float, which takes the rest of its text. -/
def exponent? : List Char → Option Int
  | [] => some 0
  | c :: cs =>
    if c = 'e' ∨ c = 'E' then
      let (negative, ds) := readSign cs
      (groupedDigits? Char.isDigit ds).map fun ds =>
        if negative then -(digitsValue ds : Int) else digitsValue ds
    else none

/-- A float: digits with a fraction, an exponent or both, or one of the two words.  Digits that
round to positive infinity are refused. -/
def float? (cs : List Char) : Option Toml :=
  let (negative, body) := readSign cs
  if body = ['i', 'n', 'f'] then some (.float (if negative then negInfinity else infinity))
  else if body = ['n', 'a', 'n'] then some (.float notANumber)
  else
    let inGroup (c : Char) : Bool := c.isDigit || c = '_'
    let finish (whole fraction : List Char) (exponent : Int) : Option Toml :=
      let x := decimalDouble negative (digitsValue (whole ++ fraction)) (exponent - fraction.length)
      if x == infinity then none else some (.float x)
    (wholeDigits? (body.takeWhile inGroup)).bind fun whole =>
      match body.dropWhile inGroup with
      | [] => none
      | '.' :: more =>
        (groupedDigits? Char.isDigit (more.takeWhile inGroup)).bind fun fraction =>
          (exponent? (more.dropWhile inGroup)).bind (finish whole fraction)
      | rest => (exponent? rest).bind (finish whole [])

/-! ### Dates and times -/

/-- A number of a fixed count of digits between two bounds, as text and value. -/
def readField (width low high : Nat) (cs : List Char) : Option ((List Char × Nat) × List Char) :=
  let ds := cs.take width
  let n := digitsValue ds
  if ds.length = width ∧ ds.all Char.isDigit ∧ low ≤ n ∧ n ≤ high then
    some ((ds, n), cs.drop width)
  else none

/-- How many days a month has. -/
def daysIn (year month : Nat) : Nat :=
  if month = 2 then
    if year % 4 = 0 ∧ (year % 100 ≠ 0 ∨ year % 400 = 0) then 29 else 28
  else if month = 4 ∨ month = 6 ∨ month = 9 ∨ month = 11 then 30
  else 31

/-- The rest of a text after a character that must come first. -/
def expect (c : Char) : List Char → Option (List Char)
  | d :: rest => if d = c then some rest else none
  | [] => none

/-- A date. -/
def readDate (cs : List Char) : Option (List Char × List Char) := do
  let ((year, y), rest) ← readField 4 0 9999 cs
  let rest ← expect '-' rest
  let ((month, m), rest) ← readField 2 1 12 rest
  let rest ← expect '-' rest
  let ((day, _), rest) ← readField 2 1 (daysIn y m) rest
  pure (year ++ '-' :: month ++ '-' :: day, rest)

/-- The fraction of a second: nine digits count, and zeros at their end are left out. -/
def fractionText (ds : List Char) : List Char :=
  match ((ds.take 9).reverse.dropWhile (· = '0')).reverse with
  | [] => []
  | kept => '.' :: kept

/-- A time of day.  A leap second is allowed. -/
def readTime (lastHour : Nat) (cs : List Char) : Option (List Char × List Char) := do
  let ((hour, _), rest) ← readField 2 0 lastHour cs
  let rest ← expect ':' rest
  let ((minute, _), rest) ← readField 2 0 59 rest
  let rest ← expect ':' rest
  let ((second, _), rest) ← readField 2 0 60 rest
  let text := hour ++ ':' :: minute ++ ':' :: second
  match rest with
  | '.' :: more =>
    let ds := more.takeWhile Char.isDigit
    if ds.isEmpty then none else pure (text ++ fractionText ds, more.dropWhile Char.isDigit)
  | _ => pure (text, rest)

/-- The distance from universal time; none at all is written with a plus. -/
def readOffset (cs : List Char) : Option (List Char × List Char) :=
  match cs with
  | [] => none
  | c :: rest =>
    if c = 'Z' ∨ c = 'z' then some (['Z'], rest)
    else if c = '+' ∨ c = '-' then do
      let ((hour, h), rest) ← readField 2 0 23 rest
      let rest ← expect ':' rest
      let ((minute, m), rest) ← readField 2 0 59 rest
      pure ((if h = 0 ∧ m = 0 then '+' else c) :: hour ++ ':' :: minute, rest)
    else none

/-- The time that may follow a date, with its mark in front. -/
def readDayTime (cs : List Char) : Option (List Char × List Char) :=
  match cs with
  | [] => none
  | c :: rest =>
    if c = 'T' ∨ c = 't' ∨ c = ' ' then do
      let (time, rest) ← readTime 23 rest
      match readOffset rest with
      | some (offset, rest) => pure ('T' :: time ++ offset, rest)
      | none => pure ('T' :: time, rest)
    else none

/-- A date with or without a time, or a time alone. -/
def readMoment (cs : List Char) : Option (Toml × List Char) :=
  match readDate cs with
  | some (date, rest) =>
    match readDayTime rest with
    | some (time, rest) => some (.moment (String.ofList (date ++ time)), rest)
    | none => some (.moment (String.ofList date), rest)
  | none => (readTime 23 cs).map fun (time, rest) => (.moment (String.ofList time), rest)

/-! ### Dates and times in strings

A string that stands for a date or a time is read by a wider rule: there is an hour 24, an offset may
be any number of minutes up to a day, and it may follow a date directly. -/

/-- An offset in hours and minutes, to the end of a string. -/
def offsetText? (c : Char) (cs : List Char) : Option (List Char) := do
  let ((_, hours), rest) ← readField 2 0 99 cs
  let rest ← expect ':' rest
  let ((_, minutes), rest) ← readField 2 0 99 rest
  let total := hours * 60 + minutes
  let two (n : Nat) : List Char := if n < 10 then '0' :: Nat.toDigits 10 n else Nat.toDigits 10 n
  if (c = '+' ∨ c = '-') ∧ total ≤ 24 * 60 ∧ rest = [] then
    some ((if total = 0 then '+' else c) :: two (total / 60) ++ ':' :: two (total % 60))
  else none

/-- What follows a date and a time, to the end of a string. -/
def momentEnd? : List Char → Option (List Char)
  | [] => some []
  | ['Z'] => some ['Z']
  | ['z'] => some ['Z']
  | c :: rest => offsetText? c rest

/-- The date or time for which a string stands. -/
def momentOfText? (s : String) : Option String :=
  let cs := s.toList
  if cs[2]? = some ':' then do
    let (time, rest) ← readTime 24 cs
    if rest = [] then some (String.ofList time) else none
  else do
    let (date, rest) ← readDate cs
    match rest with
    | [] => some (String.ofList date)
    | c :: more =>
      if c = 'T' ∨ c = 't' ∨ c = ' ' then do
        let (time, rest) ← readTime 24 more
        let tail ← momentEnd? rest
        pure (String.ofList (date ++ 'T' :: time ++ tail))
      else (momentEnd? rest).map fun tail => String.ofList (date ++ tail)

/-! ### Bare values -/

/-- Whether a character can stand in a bare value. -/
def isBare (c : Char) : Bool := c.isAlphanum || c = '_' || c = '+' || c = '-' || c = '.'

/-- What a bare word or number stands for. -/
def ofBare? (cs : List Char) : Option Toml :=
  if cs = ['t', 'r', 'u', 'e'] then some (.bool true)
  else if cs = ['f', 'a', 'l', 's', 'e'] then some (.bool false)
  else (integer? cs).or (float? cs)

/-- A bare value, and what follows it. -/
def readBare (cs : List Char) : Option (Toml × List Char) :=
  (readMoment cs).or ((ofBare? (cs.takeWhile isBare)).map fun v => (v, cs.dropWhile isBare))

end Blockwork.Toml
