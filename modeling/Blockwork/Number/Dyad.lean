/-!
Doubles as exact fractions.

A finite double is `± mantissa · 2 ^ exponent`.  Everything this library does with the digits of a
number (floors, roundings, remainders, decimal text) is done on that exact fraction in natural-number
arithmetic, and comes back to a double through one function, `nearest`, that rounds a fraction to the
nearest double with ties to even.
-/

namespace Blockwork

/-- A power of two. -/
def pow2 (n : Nat) : Nat := Nat.pow 2 n

/-- A power of ten. -/
def pow10 (n : Nat) : Nat := Nat.pow 10 n

/-- The quotient `a / b` rounded to the nearest natural number; a tie goes to the even neighbour. -/
def divNearestEven (a b : Nat) : Nat :=
  let q := a / b
  let r := a % b
  if 2 * r < b then q
  else if b < 2 * r then q + 1
  else if q % 2 = 0 then q
  else q + 1

/-- A finite double: `mantissa · 2 ^ exponent`, negated when `negative`. -/
structure Dyad where
  negative : Bool
  mantissa : Nat
  exponent : Int
  deriving DecidableEq, Repr

namespace Dyad

/-- The exact value of a double, if it is finite. -/
def ofFloat? (x : Float) : Option Dyad :=
  let bits := x.toBits.toNat
  let biased : Nat := bits / pow2 52 % pow2 11
  let fraction := bits % pow2 52
  if biased = 2047 then none
  else if biased = 0 then some ⟨decide (pow2 63 ≤ bits), fraction, -1074⟩
  else some ⟨decide (pow2 63 ≤ bits), fraction + pow2 52, (biased : Int) - 1075⟩

/-- Numerator of the magnitude. -/
def num (d : Dyad) : Nat := d.mantissa * pow2 d.exponent.toNat

/-- Denominator of the magnitude: a power of two. -/
def den (d : Dyad) : Nat := pow2 (-d.exponent).toNat

/-- An integer with the sign of `d` and the given magnitude. -/
def signed (d : Dyad) (magnitude : Nat) : Int :=
  if d.negative then -(magnitude : Int) else magnitude

/-- The greatest integer not above `d`. -/
def floor (d : Dyad) : Int := d.signed d.num / (d.den : Int)

/-- The nearest integer; a tie goes away from zero. -/
def round (d : Dyad) : Int := d.signed ((2 * d.num + d.den) / (2 * d.den))

/-- The integer that `d` is, if it is one. -/
def toInt? (d : Dyad) : Option Int :=
  if d.num % d.den = 0 then some (d.signed (d.num / d.den)) else none

end Dyad

/-! ### From fractions to doubles -/

/-- The greatest `e` with `2 ^ e ≤ num / den`, for positive `num` and `den`. -/
def floorLog2 (num den : Nat) : Int :=
  let e : Int := (num.log2 : Int) - den.log2
  if den * pow2 e.toNat ≤ num * pow2 (-e).toNat then e else e - 1

/-- Bit pattern of positive infinity. -/
def infinityBits : Nat := 0x7ff0000000000000

/-- Bit pattern of the double nearest to `num / den`, ties to even.

With the last place at `2 ^ q`, the pattern of `m · 2 ^ q` is `(q + 1074) · 2 ^ 52 + m`, for
subnormal and normal numbers alike, and a mantissa that rounds up to the next power of two carries
into the exponent by itself. -/
def nearestBits (num den : Nat) : Nat :=
  if num = 0 then 0
  else
    let q := max (floorLog2 num den - 52) (-1074)
    let m := divNearestEven (num * pow2 (-q).toNat) (den * pow2 q.toNat)
    min ((q + 1074).toNat * pow2 52 + m) infinityBits

/-- The double nearest to `± num / den`, ties to even. -/
def nearest (negative : Bool) (num den : Nat) : Float :=
  Float.ofBits (UInt64.ofNat (nearestBits num den + if negative then pow2 63 else 0))

/-- The double nearest to a natural number. -/
def doubleOfNat (n : Nat) : Float := nearest false n 1

/-- The double nearest to an integer. -/
def doubleOfInt (n : Int) : Float := nearest (decide (n < 0)) n.natAbs 1

/-- Positive infinity. -/
def infinity : Float := Float.ofBits 0x7ff0000000000000

/-- Negative infinity. -/
def negInfinity : Float := Float.ofBits 0xfff0000000000000

/-- The one not-a-number. -/
def notANumber : Float := Float.ofBits 0x7ff8000000000000

/-! ### Whole-number views of a double -/

/-- The greatest whole double not above `x`; zeros, infinities and NaN stay as they are. -/
def floorDouble (x : Float) : Float :=
  match Dyad.ofFloat? x with
  | some d => if d.mantissa = 0 ∨ 0 ≤ d.exponent then x else doubleOfInt d.floor
  | none => x

/-- Whether an integer fits 64 bits with a sign. -/
def fitsInt64 (n : Int) : Bool := decide (-(pow2 63 : Int) ≤ n) && decide (n < (pow2 63 : Int))

/-- An integer clamped to the signed 64-bit range. -/
def clampInt64 (n : Int) : Int := max (-(pow2 63 : Int)) (min n ((pow2 63 : Int) - 1))

/-- Nearest integer, ties away from zero, clamped to the signed 64-bit range; NaN gives 0. -/
def roundInt64 (x : Float) : Int :=
  match Dyad.ofFloat? x with
  | some d => clampInt64 d.round
  | none => if x.isNaN then 0 else if 0 < x then (pow2 63 : Int) - 1 else -(pow2 63 : Int)

/-- Remainder of `x` by a positive whole number, with the sign of `x`.  It is exact. -/
def remainder (x : Float) (n : Nat) : Float :=
  match Dyad.ofFloat? x with
  | some d => nearest d.negative (d.num % (n * d.den)) d.den
  | none => notANumber

end Blockwork
