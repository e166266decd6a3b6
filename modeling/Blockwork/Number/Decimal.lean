import Blockwork.Number.Dyad

/-!
Decimal text of doubles, both ways.

Writing takes the fewest digits that read back as the same double, and of those the nearest to the
exact value; a tie goes up.  The digits stand in positional notation, never with an exponent.
Reading accepts the usual decimal forms and rounds correctly.
-/

namespace Blockwork

/-- The number `digits · 10 ^ scale`; the digits end in a non-zero one. -/
structure Decimal where
  digits : List Char
  scale : Int
  deriving DecidableEq, Repr

namespace Decimal

/-- The number `n · 10 ^ scale` with the zeros at the end of `n` moved into the scale. -/
def ofNat (n : Nat) (scale : Int) : Decimal :=
  let reversed := (Nat.toDigits 10 n).reverse
  let zeros := (reversed.takeWhile (· = '0')).length
  ⟨(reversed.drop zeros).reverse, scale + zeros⟩

/-- Positional notation. -/
def positional (d : Decimal) : String :=
  let point : Int := d.digits.length + d.scale
  if 0 ≤ d.scale then String.ofList (d.digits ++ List.replicate d.scale.toNat '0')
  else if 0 < point then
    String.ofList (d.digits.take point.toNat ++ '.' :: d.digits.drop point.toNat)
  else String.ofList ('0' :: '.' :: List.replicate (-point).toNat '0' ++ d.digits)

end Decimal

/-! ### Shortest digits -/

/-- The `e` with `10 ^ (e - 1) ≤ num / den < 10 ^ e`, for positive `num` and `den`. -/
def decimalExponent (num den : Nat) : Int :=
  if den ≤ num then (Nat.toDigits 10 (num / den)).length
  else
    let places := (Nat.toDigits 10 (den / num)).length
    if num * pow10 (places - 1) = den then 2 - (places : Int) else 1 - (places : Int)

/-- The nearest multiple of `10 ^ scale` that reads back as `d`, if one of the two multiples around
`d` does.  Written in units of a quarter of the last place, `d` is `4 · mantissa`, the doubles above
and below it lie 4 (or 2, just above a power of two) units away, and what lies less than half way
to them reads back as `d`; a point exactly half way does when the mantissa is even. -/
def Dyad.onGrid (d : Dyad) (scale : Int) : Option Nat :=
  let grid := pow10 scale.toNat * pow2 (2 - d.exponent).toNat
  let unit := pow10 (-scale).toNat * pow2 (d.exponent - 2).toNat
  let value := 4 * d.mantissa * unit
  let below := if d.mantissa = pow2 52 ∧ -1074 < d.exponent then 1 else 2
  let low := (4 * d.mantissa - below) * unit
  let high := (4 * d.mantissa + 2) * unit
  let fits (n : Nat) : Bool :=
    if d.mantissa % 2 = 0 then decide (low ≤ n * grid) && decide (n * grid ≤ high)
    else decide (low < n * grid) && decide (n * grid < high)
  let n := value / grid
  match fits n, fits (n + 1) with
  | true, true => some (if 2 * (value - n * grid) < grid then n else n + 1)
  | true, false => some n
  | false, true => some (n + 1)
  | false, false => none

/-- The shortest decimal that reads back as `d`, which is not zero.  Seventeen digits always do. -/
def Dyad.shortest (d : Dyad) : Decimal :=
  let top := decimalExponent d.num d.den
  let found := (List.range 17).findSome? fun (i : Nat) =>
    let scale : Int := top - (i + 1 : Nat)
    (d.onGrid scale).map (Decimal.ofNat · scale)
  found.getD (Decimal.ofNat 0 0)

/-- Text of a finite double: a minus sign also for negative zero. -/
def Dyad.text (d : Dyad) : String :=
  (if d.negative then "-" else "") ++ if d.mantissa = 0 then "0" else d.shortest.positional

/-- Plain text of a double: shortest digits, `inf`, `-inf` or `NaN`. -/
def plainText (x : Float) : String :=
  match Dyad.ofFloat? x with
  | some d => d.text
  | none => if x.isNaN then "NaN" else if 0 < x then "inf" else "-inf"

/-! ### Reading -/

/-- The value of a run of decimal digits. -/
def digitsValue (ds : List Char) : Nat :=
  ds.foldl (fun n c => 10 * n + (c.toNat - '0'.toNat)) 0

/-- The double nearest to `± n · 10 ^ scale`.  Far outside the range of doubles the power of ten is
not computed: the answer is infinity or zero. -/
def decimalDouble (negative : Bool) (n : Nat) (scale : Int) : Float :=
  let top : Int := (Nat.toDigits 10 n).length + scale
  if n = 0 ∨ top < -330 then nearest negative 0 1
  else if 310 < top then (if negative then negInfinity else infinity)
  else nearest negative (n * pow10 scale.toNat) (pow10 (-scale).toNat)

/-- An optional sign: whether it is a minus, and what follows it. -/
def readSign : List Char → Bool × List Char
  | '-' :: rest => (true, rest)
  | '+' :: rest => (false, rest)
  | cs => (false, cs)

/-- Reads a whole text as a whole number of at most 64 bits, with an optional sign. -/
def readInt64 (cs : List Char) : Option Int :=
  let (negative, ds) := readSign cs
  let n : Int := if negative then -(digitsValue ds : Int) else digitsValue ds
  if ds ≠ [] ∧ ds.all Char.isDigit ∧ fitsInt64 n then some n else none

/-- The exponent part of a decimal, which takes the whole text: nothing, or `e` with an optional
sign and at least one digit. -/
def readExponent : List Char → Option Int
  | [] => some 0
  | c :: cs =>
    if c = 'e' ∨ c = 'E' then
      let (negative, ds) := readSign cs
      if ds ≠ [] ∧ ds.all Char.isDigit then
        some (if negative then -(digitsValue ds : Int) else digitsValue ds)
      else none
    else none

/-- Digits with an optional point among them and an optional exponent after them. -/
def readUnsigned (negative : Bool) (cs : List Char) : Option Float :=
  let whole := cs.takeWhile Char.isDigit
  let rest := cs.dropWhile Char.isDigit
  let (fraction, rest) := match rest with
    | '.' :: more => (more.takeWhile Char.isDigit, more.dropWhile Char.isDigit)
    | _ => ([], rest)
  if whole.isEmpty && fraction.isEmpty then none
  else
    (readExponent rest).map fun e =>
      decimalDouble negative (digitsValue (whole ++ fraction)) (e - fraction.length)

/-- Reads a whole text as a double: a sign, then `inf`, `infinity` or `nan` in any letter case, or a
decimal. -/
def readDouble (cs : List Char) : Option Float :=
  let (negative, body) := readSign cs
  let word := String.ofList (body.map Char.toLower)
  if word = "inf" ∨ word = "infinity" then some (if negative then negInfinity else infinity)
  else if word = "nan" then some notANumber
  else readUnsigned negative body

end Blockwork
