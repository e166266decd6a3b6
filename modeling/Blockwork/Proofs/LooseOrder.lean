import Blockwork.Proofs.Vocabulary
import Mathlib

/-!
The loose order of values.

Doubles other than NaN stand on one line, on which both zeros share a place.  A place is written as
a class, an exponent and a mantissa, and comparing two doubles comes down to comparing their places
(`Place.compare_ofUnpacked`), so that what holds of every linear order holds of them.  Values are
compared by the places of their numbers if both read as numbers, else by their lower-cased texts
(`Value.order_of_numeric`, `Value.order_of_text`).  Within each of the two classes this is one key,
which gives the preorder, and between them the order still turns around with its operands.
-/

namespace Blockwork

open Float.Model

/-! ### The line of doubles -/

/-- A place on the line of doubles, in lexicographic order: a class (below zero, zero, above zero,
and the two infinities), an exponent and a mantissa. -/
abbrev Place := ℤ ×ₗ ℤ ×ₗ ℤ

namespace Place

/-- The place of a class, an exponent and a mantissa. -/
def of (kind exponent mantissa : ℤ) : Place := toLex (kind, toLex (exponent, mantissa))

theorem compare_of (k e m k' e' m' : ℤ) :
    compare (of k e m) (of k' e' m') =
      (compare k k').then ((compare e e').then (compare m m')) := by
  simp only [Prod.Lex.compare_def]
  rfl

/-- The place of an unpacked double.  Below zero, exponents and mantissas count downwards. -/
def ofUnpacked : UnpackedFloat → Place
  | .infinity .negative => of (-2) 0 0
  | .finite .negative m e _ => of (-1) (-e) (-m)
  | .zero _ | .notANumber => of 0 0 0
  | .finite .positive m e _ => of 1 e m
  | .infinity .positive => of 2 0 0

theorem compare_neg (a b : ℤ) : compare (-a) (-b) = (compare a b).swap := by
  rw [← Std.OrientedOrd.eq_swap (a := b) (b := a)]
  simp [Int.compare_eq_ite_lt]

theorem compare_cast (m n : ℕ) : compare (m : ℤ) n = compare m n := by
  simp [Int.compare_eq_ite_lt, Nat.compare_eq_ite_lt]

/-- Of the doubles on one side of zero, the exponent decides, and then the mantissa. -/
theorem compare_ofUnpacked {a b : UnpackedFloat} (ha : a.isNaN = false) (hb : b.isNaN = false) :
    a.compare b = some (compare (ofUnpacked a) (ofUnpacked b)) := by
  cases a with
  | notANumber => cases ha
  | infinity s =>
    cases b with
    | notANumber => cases hb
    | infinity s' => cases s <;> cases s' <;> rfl
    | zero s' => cases s <;> rfl
    | finite s' n f hn => cases s <;> cases s' <;> rfl
  | zero s =>
    cases b with
    | notANumber => cases hb
    | infinity s' => cases s' <;> rfl
    | zero s' => rfl
    | finite s' n f hn => cases s' <;> rfl
  | finite s m e hm =>
    cases b with
    | notANumber => cases hb
    | infinity s' => cases s <;> cases s' <;> rfl
    | zero s' => cases s <;> rfl
    | finite s' n f hn =>
      cases s <;> cases s'
      case negative.negative =>
        simp only [UnpackedFloat.compare, ofUnpacked, compare_of, compare_neg, compare_cast,
          Ordering.swap_then]
        rfl
      case positive.positive =>
        simp only [UnpackedFloat.compare, ofUnpacked, compare_of, compare_cast]
        rfl
      all_goals rfl

theorem compare_eq_ite (p q : Place) :
    compare p q = if p < q then .lt else if q < p then .gt else .eq := by
  rcases lt_trichotomy p q with h | rfl | h
  · simp [h, compare_lt_iff_lt.mpr h]
  · simp
  · simp [h, h.not_gt, compare_gt_iff_gt.mpr h]

/-- The place of a double. -/
def ofDouble (x : Float) : Place := ofUnpacked x.toModel.unpack

section

variable {x y : Float} (hx : x.isNaN = false) (hy : y.isNaN = false)
include hx hy

theorem lt_iff : x < y ↔ ofDouble x < ofDouble y := by
  have h : x < y ↔ x.toModel.unpack.compare y.toModel.unpack = some .lt := by
    change decide (x.toModel.unpack.lt y.toModel.unpack = true) = true ↔ _
    simp [UnpackedFloat.lt]
  rw [h, compare_ofUnpacked hx hy, Option.some_inj, compare_lt_iff_lt]
  rfl

theorem beq_iff : (x == y) = true ↔ ofDouble x = ofDouble y := by
  have h : (x == y) = true ↔ x.toModel.unpack.compare y.toModel.unpack = some .eq := by
    change x.toModel.unpack.beq y.toModel.unpack = true ↔ _
    simp [UnpackedFloat.beq]
  rw [h, compare_ofUnpacked hx hy, Option.some_inj, compare_eq_iff_eq]
  rfl

end

end Place

/-- How two doubles compare, if neither is NaN. -/
def compareDoubles? (x y : Float) : Option Ordering :=
  if x < y then some .lt
  else if y < x then some .gt
  else if x == y then some .eq
  else none

theorem compareDoubles?_eq_some {x y : Float} (hx : x.isNaN = false) (hy : y.isNaN = false) :
    compareDoubles? x y = some (compare (Place.ofDouble x) (Place.ofDouble y)) := by
  rw [compareDoubles?, Place.compare_eq_ite]
  simp only [Place.lt_iff hx hy, Place.lt_iff hy hx, Place.beq_iff hx hy]
  rcases lt_trichotomy (Place.ofDouble x) (Place.ofDouble y) with h | h | h
  · simp [h]
  · simp [h]
  · simp [h, h.not_gt]

namespace Value

/-! ### Values that read as numbers -/

/-- The double that a value reads as, which may be NaN.  Blanks around a text are left out. -/
inductive Reads : Value → Float → Prop
  | num (n : Float) : Reads (.num n) n
  | bool (b : Bool) : Reads (.bool b) (if b then 1 else 0)
  | str {s : String} {n : Float} (h : readDouble (Text.trim s.toList) = some n) : Reads (.str s) n

/-- Numeric values are those with a reading other than NaN, which the cast to a number gives
back. -/
theorem isNumeric_iff {a : Value} :
    a.isNumeric = true ↔ ∃ n, Reads a n ∧ n.isNaN = false ∧ a.toNumber = n := by
  constructor
  · intro h
    cases a with
    | bool b => exact ⟨_, .bool b, by cases b <;> decide, rfl⟩
    | num n =>
      have hn : n.isNaN = false := by simpa [isNumeric] using h
      exact ⟨n, .num n, hn, if_neg (ne_true_of_eq_false hn)⟩
    | str s =>
      obtain ⟨n, hn⟩ := Option.isSome_iff_exists.mp h
      obtain ⟨hread, hnan⟩ := Option.filter_eq_some_iff.mp hn
      exact ⟨n, .str hread, by simpa using hnan, by simp [toNumber, hn]⟩
    | null | list items | obj fields => cases h
  · rintro ⟨n, hread, hnan, -⟩
    cases hread with
    | num n => rw [isNumeric, hnan, Bool.not_false]
    | bool b => rfl
    | str h => rw [isNumeric, spelledNumber?, h, Option.filter_some, hnan]; rfl

theorem toNumber_ne_nan {a : Value} (ha : a.isNumeric = true) : a.toNumber.isNaN = false := by
  obtain ⟨n, -, hnan, hn⟩ := isNumeric_iff.mp ha
  rw [hn, hnan]

/-! ### The loose order -/

/-- Where the number of a value stands. -/
def place (a : Value) : Place := Place.ofDouble a.toNumber

/-- The text of a value without regard to case. -/
def folded (a : Value) : String := Text.lowercase a.text

theorem order_of_numeric {a b : Value} (ha : a.isNumeric = true) (hb : b.isNumeric = true) :
    a.order b = compare a.place b.place := by
  have hx := toNumber_ne_nan ha
  have hy := toNumber_ne_nan hb
  rw [place, place, Place.compare_eq_ite, order]
  simp only [ha, hb, Bool.and_self, if_true, Place.lt_iff hx hy, Place.lt_iff hy hx]

theorem order_of_text {a b : Value} (h : (a.isNumeric && b.isNumeric) = false) :
    a.order b = compare a.folded b.folded := by
  rw [order, h]
  rfl

theorem order_swap (a b : Value) : b.order a = (a.order b).swap := by
  by_cases h : a.isNumeric = true ∧ b.isNumeric = true
  · rw [order_of_numeric h.1 h.2, order_of_numeric h.2 h.1]
    exact Std.OrientedOrd.eq_swap
  · have hab : (a.isNumeric && b.isNumeric) = false := by simpa using h
    rw [order_of_text hab, order_of_text (Bool.and_comm _ _ ▸ hab)]
    exact Std.OrientedOrd.eq_swap

/-- Only equality is its own reverse. -/
theorem order_self (a : Value) : a.order a = .eq := by
  have h := order_swap a a
  cases ho : a.order a <;> rw [ho] at h <;> first | rfl | cases h

/-- Among numbers the order is that of their places, among the other values that of their texts. -/
theorem order_isLE_trans {a b c : Value} (hab : a.isNumeric = b.isNumeric)
    (hbc : b.isNumeric = c.isNumeric) (h : (a.order b).isLE = true) (h' : (b.order c).isLE = true) :
    (a.order c).isLE = true := by
  cases hc : c.isNumeric with
  | true =>
    rw [hc] at hbc
    rw [hbc] at hab
    rw [order_of_numeric hab hbc] at h
    rw [order_of_numeric hbc hc] at h'
    rw [order_of_numeric hab hc]
    exact Std.TransOrd.isLE_trans h h'
  | false =>
    rw [hc] at hbc
    rw [hbc] at hab
    rw [order_of_text (by simp [hab])] at h ⊢
    rw [order_of_text (by simp [hbc])] at h'
    exact Std.TransOrd.isLE_trans h h'

end Value

/-- The loose order is coherent.  It turns around when its operands change places, and every value
is equal to itself in it; so `less` and `greater` are one test with its operands swapped, and loose
equality is reflexive and symmetric.  A value is numeric just when it has a reading other than NaN,
which is then its number; so two numeric values always compare as numbers.  Among the numeric
values, and also among the others, the order is a total preorder. -/
theorem loose_order_is_coherent :
    (∀ a b : Value, b.order a = (a.order b).swap) ∧
    (∀ a : Value, a.order a = .eq) ∧
    (∀ (a b : Value) (cx : Context),
      Library.perform "operator_lt" [("OPERAND1", b), ("OPERAND2", a)] cx =
        some (.ok (.done (.bool (a.order b == .gt))), cx) ∧
      Library.perform "operator_gt" [("OPERAND1", a), ("OPERAND2", b)] cx =
        some (.ok (.done (.bool (a.order b == .gt))), cx)) ∧
    (∀ a : Value, a.looseEq a = true) ∧
    (∀ a b : Value, b.looseEq a = a.looseEq b) ∧
    (∀ a : Value, a.isNumeric = true ↔ ∃ n, a.Reads n ∧ n.isNaN = false ∧ a.toNumber = n) ∧
    (∀ a b : Value, a.isNumeric = true → b.isNumeric = true →
      compareDoubles? a.toNumber b.toNumber = some (a.order b)) ∧
    (∀ a b : Value, (a.order b).isLE = true ∨ (b.order a).isLE = true) ∧
    ∀ a b c : Value, a.isNumeric = b.isNumeric → b.isNumeric = c.isNumeric →
      (a.order b).isLE = true → (b.order c).isLE = true → (a.order c).isLE = true := by
  refine ⟨Value.order_swap, Value.order_self, ?operators, ?reflexive, ?symmetric,
    fun _ => Value.isNumeric_iff, ?numbers, ?total, fun a b c => Value.order_isLE_trans⟩
  case operators =>
    intro a b cx
    have hless : (b.order a == .lt) = (a.order b == .gt) := by
      rw [Value.order_swap a b]
      cases a.order b <;> rfl
    refine ⟨?_, rfl⟩
    rw [← hless]
    rfl
  case reflexive =>
    intro a
    rw [Value.looseEq, Value.order_self]
    rfl
  case symmetric =>
    intro a b
    rw [Value.looseEq, Value.looseEq, Value.order_swap a b]
    cases a.order b <;> rfl
  case numbers =>
    intro a b ha hb
    rw [compareDoubles?_eq_some (Value.toNumber_ne_nan ha) (Value.toNumber_ne_nan hb),
      Value.order_of_numeric ha hb]
    rfl
  case total =>
    intro a b
    rw [Value.order_swap a b]
    cases a.order b <;> simp

/-- Texts that spell numbers are ordered by them, other texts and lists without regard to case. -/
theorem loose_order_is_coherent_spelled :
    compareDoubles? (Value.str " 9").toNumber (Value.str "1e1").toNumber = some .lt ∧
    ((Value.bool true).order (.str "1e1")).isLE = true ∧
    ((Value.str "Apple").order (.list [.str "B", .null])).isLE = true := by
  obtain ⟨-, -, -, -, -, -, hnumbers, -, htrans⟩ := loose_order_is_coherent
  refine ⟨?_, ?_, ?_⟩
  · rw [hnumbers (.str " 9") (.str "1e1") (by decide +kernel) (by decide +kernel)]
    decide +kernel
  · exact htrans (.bool true) (.str " 9") (.str "1e1") (by decide +kernel) (by decide +kernel)
      (by decide +kernel) (by decide +kernel)
  · exact htrans (.str "Apple") (.str "aPPLE") (.list [.str "B", .null]) (by decide +kernel)
      (by decide +kernel) (by decide +kernel) (by decide +kernel)

end Blockwork
