import Blockwork.Proofs.Doubles
import Blockwork.Value.Basic
import Mathlib

/-!
Whole numbers among the doubles.

A double that is not zero is determined by its exact value (`HasValue.eq`), because the mantissa of
a canonical fraction fills its 53 digits; of the value zero there are two.  So a whole double is what
`doubleOfInt` makes of its value, and it reads as that integer, rounded or not.  Whole numbers whose
sum stays below `2 ^ 53` are added exactly (`doubleOfNat_add`): at the lesser exponent of the two the
sum is that of the whole numbers, and rounding it only drops zeros.
-/

namespace Blockwork

open Float.Model

/-- The double is finite, and this is its exact value. -/
def HasValue (x : Float) (q : ℚ) : Prop := ∃ d, Dyad.ofFloat? x = some d ∧ d.value = q

variable {x y : Float} {q r : ℚ}

/-! ### Finite doubles -/

theorem isFinite_eq (x : Float) : x.isFinite = (Dyad.ofFloat? x).isSome := by
  have hexponent : @UnpackedFloat.unpackExponent Format.binary64 x.toBits.toBitVec = -1#11 ↔
      x.toBits.toNat / pow2 52 % pow2 11 = 2047 := by
    rw [← BitVec.toNat_inj, toNat_unpackExponent]
    rfl
  change (UnpackedFloat.unpack Format.binary64 x.toBits.toBitVec).isFinite = _
  rw [UnpackedFloat.unpack, Dyad.ofFloat?]
  by_cases h : x.toBits.toNat / pow2 52 % pow2 11 = 2047
  · simp only [hexponent.mpr h, if_pos h, if_true]
    split <;> rfl
  · simp only [if_neg (mt hexponent.mp h), if_neg h]
    split <;> split <;> first | rfl | (split <;> rfl)

theorem HasValue.isFinite (h : HasValue x q) : x.isFinite = true := by
  obtain ⟨d, hd, -⟩ := h
  rw [isFinite_eq, hd]
  rfl

theorem hasValue_of_isFinite (h : x.isFinite = true) : ∃ q, HasValue x q := by
  rw [isFinite_eq, Option.isSome_iff_exists] at h
  obtain ⟨d, hd⟩ := h
  exact ⟨d.value, d, hd, rfl⟩

theorem HasValue.isNaN (h : HasValue x q) : x.isNaN = false := by
  obtain ⟨d, hd, -⟩ := h
  exact Dyad.isNaN_of_ofFloat? hd

theorem HasValue.isNumeric (h : HasValue x q) : (Value.num x).isNumeric = true := by
  rw [Value.isNumeric, h.isNaN, Bool.not_false]

theorem HasValue.toNumber (h : HasValue x q) : (Value.num x).toNumber = x :=
  if_neg (ne_true_of_eq_false h.isNaN)

theorem HasValue.unique (h : HasValue x q) (h' : HasValue x r) : q = r := by
  obtain ⟨d, hd, rfl⟩ := h
  obtain ⟨d', hd', rfl⟩ := h'
  rw [Option.some_inj.mp (hd.symm.trans hd')]

namespace Dyad

variable {d d' : Dyad}

/-- The parts of a double's pattern, as its exact fraction tells them. -/
structure Spells (d : Dyad) (bits biased fraction : ℕ) : Prop where
  bits_eq : bits = biased * 2 ^ 52 + fraction + if d.negative then 2 ^ 63 else 0
  biased_lt : biased < 2047
  fraction_lt : fraction < 2 ^ 52
  parts : biased = 0 ∧ d.mantissa = fraction ∧ d.exponent = -1074 ∨
    0 < biased ∧ d.mantissa = fraction + 2 ^ 52 ∧ d.exponent = (biased : ℤ) - 1075

theorem spells_of_ofFloat? (h : ofFloat? x = some d) :
    ∃ biased fraction, d.Spells x.toBits.toNat biased fraction := by
  have hlt := x.toBits.toNat_lt
  dsimp only [ofFloat?] at h
  generalize x.toBits.toNat = bits at h hlt ⊢
  have hsplit : bits = bits / pow2 52 % pow2 11 * 2 ^ 52 + bits % pow2 52 +
      if decide (pow2 63 ≤ bits) then 2 ^ 63 else 0 := by
    by_cases hsign : pow2 63 ≤ bits
    · rw [decide_eq_true hsign, if_pos rfl]
      simp only [pow2_eq] at hsign ⊢
      omega
    · rw [decide_eq_false hsign, if_neg Bool.false_ne_true]
      simp only [pow2_eq] at hsign ⊢
      omega
  have hfraction : bits % pow2 52 < 2 ^ 52 := Nat.mod_lt _ (pow2_eq 52 ▸ by norm_num)
  have hbiased : bits / pow2 52 % pow2 11 < 2048 := Nat.mod_lt _ (pow2_eq 11 ▸ by norm_num)
  by_cases htop : bits / pow2 52 % pow2 11 = 2047
  · rw [if_pos htop] at h
    cases h
  · rw [if_neg htop] at h
    refine ⟨bits / pow2 52 % pow2 11, bits % pow2 52, ?_⟩
    by_cases hzero : bits / pow2 52 % pow2 11 = 0
    · rw [if_pos hzero] at h
      cases h
      exact ⟨hsplit, by omega, hfraction, .inl ⟨hzero, rfl, rfl⟩⟩
    · rw [if_neg hzero] at h
      cases h
      exact ⟨hsplit, by omega, hfraction, .inr ⟨by omega, rfl, rfl⟩⟩

theorem ofFloat?_inj (hx : ofFloat? x = some d) (hy : ofFloat? y = some d) : x = y := by
  obtain ⟨biased, fraction, ⟨hbits, -, hfraction, hparts⟩⟩ := spells_of_ofFloat? hx
  obtain ⟨biased', fraction', ⟨hbits', -, hfraction', hparts'⟩⟩ := spells_of_ofFloat? hy
  have hsame : biased = biased' ∧ fraction = fraction' := by omega
  rw [← Float.toBits_inj, ← UInt64.toNat_inj, hbits, hbits', hsame.1, hsame.2]

/-- The mantissa has 53 binary digits, or fewer at the least exponent. -/
structure Canonical (d : Dyad) : Prop where
  lt : d.mantissa < 2 ^ 53
  le : -1074 ≤ d.exponent
  full : d.exponent = -1074 ∨ 2 ^ 52 ≤ d.mantissa

theorem canonical_of_ofFloat? (h : ofFloat? x = some d) : d.Canonical := by
  obtain ⟨biased, fraction, ⟨-, -, hfraction, hparts⟩⟩ := spells_of_ofFloat? h
  constructor <;> omega

theorem Canonical.exponent_le (hd : d.Canonical) (hd' : d'.Canonical)
    (h : (d.mantissa : ℚ) * 2 ^ d.exponent = d'.mantissa * 2 ^ d'.exponent) :
    d.exponent ≤ d'.exponent := by
  by_contra hlt
  obtain ⟨k, hk⟩ : ∃ k : ℕ, d.exponent = ((k + 1 : ℕ) : ℤ) + d'.exponent :=
    ⟨(d.exponent - d'.exponent - 1).toNat, by omega⟩
  have hmantissa : d.mantissa * 2 ^ (k + 1) = d'.mantissa := by
    rw [hk, zpow_add₀ two_ne_zero, ← mul_assoc, zpow_natCast] at h
    exact_mod_cast mul_right_cancel₀ (zpow_ne_zero _ two_ne_zero) h
  have hfull : 2 ^ 52 ≤ d.mantissa := hd.full.resolve_left (by have := hd'.le; omega)
  have hpow : 2 ≤ 2 ^ (k + 1) := Nat.le_self_pow k.succ_ne_zero 2
  have hbig := Nat.mul_le_mul hfull hpow
  rw [hmantissa] at hbig
  exact absurd hd'.lt (by omega)

theorem value_nonneg_iff (h : d.value ≠ 0) : 0 ≤ d.value ↔ d.negative = false := by
  have hpos : (0 : ℚ) ≤ d.mantissa * 2 ^ d.exponent := by positivity
  rw [value, signed] at h ⊢
  cases hneg : d.negative with
  | false => simpa using hpos
  | true =>
    rw [hneg] at h
    simp only [if_true, Int.cast_neg, Int.cast_natCast, neg_mul] at h ⊢
    simp only [Bool.true_eq_false, iff_false, not_le]
    exact lt_of_le_of_ne (neg_nonpos.mpr hpos) h

theorem abs_value (d : Dyad) : |d.value| = d.mantissa * 2 ^ d.exponent := by
  have hpos : (0 : ℚ) ≤ d.mantissa * 2 ^ d.exponent := by positivity
  rw [value, signed]
  cases d.negative <;> simp [abs_of_nonneg hpos]

theorem Canonical.eq_of_value (hd : d.Canonical) (hd' : d'.Canonical) (hzero : d.value ≠ 0)
    (h : d.value = d'.value) : d = d' := by
  have habs : (d.mantissa : ℚ) * 2 ^ d.exponent = d'.mantissa * 2 ^ d'.exponent := by
    rw [← abs_value, ← abs_value, h]
  have hexponent : d.exponent = d'.exponent :=
    le_antisymm (hd.exponent_le hd' habs) (hd'.exponent_le hd habs.symm)
  have hmantissa : d.mantissa = d'.mantissa := by
    rw [hexponent] at habs
    exact_mod_cast mul_right_cancel₀ (zpow_ne_zero _ two_ne_zero) habs
  have hsign : d.negative = false ↔ d'.negative = false := by
    rw [← value_nonneg_iff hzero, ← value_nonneg_iff (h ▸ hzero), h]
  have hnegative : d.negative = d'.negative := by
    cases hneg : d'.negative <;> simpa [hneg] using hsign
  cases d
  cases d'
  congr

end Dyad

theorem HasValue.eq (hx : HasValue x q) (hy : HasValue y q) (hzero : q ≠ 0) : x = y := by
  obtain ⟨d, hd, rfl⟩ := hx
  obtain ⟨d', hd', hvalue⟩ := hy
  have heq : d = d' := (Dyad.canonical_of_ofFloat? hd).eq_of_value (Dyad.canonical_of_ofFloat? hd')
    hzero hvalue.symm
  exact Dyad.ofFloat?_inj hd (heq ▸ hd')

/-- The value zero has two doubles. -/
theorem HasValue.eq_zero (h : HasValue x 0) : x = 0 ∨ x = -0 := by
  obtain ⟨⟨negative, mantissa, exponent⟩, hd, hvalue⟩ := h
  have hcanonical := Dyad.canonical_of_ofFloat? hd
  have hmantissa : mantissa = 0 := by
    have habs := Dyad.abs_value ⟨negative, mantissa, exponent⟩
    rw [hvalue, abs_zero, eq_comm, mul_eq_zero] at habs
    exact_mod_cast habs.resolve_right (zpow_ne_zero _ two_ne_zero)
  have hexponent : exponent = -1074 := hcanonical.full.resolve_right (by simp [hmantissa])
  rw [hmantissa, hexponent] at hd
  cases negative with
  | false => exact .inl (Dyad.ofFloat?_inj hd (by decide +kernel))
  | true => exact .inr (Dyad.ofFloat?_inj hd (by decide +kernel))

/-- Doubles of one value are equal as numbers. -/
theorem HasValue.beq (hx : HasValue x q) (hy : HasValue y q) : (x == y) = true := by
  rcases eq_or_ne q 0 with rfl | hzero
  · rcases hx.eq_zero with rfl | rfl <;> rcases hy.eq_zero with rfl | rfl <;> decide +kernel
  · have hnan := hx.isNaN
    rw [Float.isNaN_eq_decide_eq_nan, decide_eq_false_iff_not] at hnan
    rw [← HasValue.eq hx hy hzero]
    exact Float.beq_self_iff.mpr hnan

/-! ### Whole doubles -/

namespace Dyad

variable {d : Dyad} {n : ℤ}

/-- What a whole value says of the fraction. -/
theorem of_value_intCast (h : d.value = n) : d.num = n.natAbs * d.den ∧ d.signed n.natAbs = n := by
  have hden : 0 < d.den := Nat.two_pow_pos _
  have hsigned : d.signed d.num = n * d.den := by
    rw [value_eq, div_eq_iff (by exact_mod_cast hden.ne')] at h
    exact_mod_cast h
  have hnum : d.num = n.natAbs * d.den := by
    have habs := congrArg Int.natAbs hsigned
    rw [Int.natAbs_mul, Int.natAbs_natCast] at habs
    rw [← habs, signed]
    split <;> simp
  refine ⟨hnum, mul_right_cancel₀ (b := (d.den : ℤ)) (by exact_mod_cast hden.ne') ?_⟩
  rw [← hsigned, hnum, signed, signed]
  split <;> push_cast <;> ring

theorem toInt?_of_value (h : d.value = n) : d.toInt? = some n := by
  obtain ⟨hnum, hsigned⟩ := of_value_intCast h
  have hden : 0 < d.den := Nat.two_pow_pos _
  rw [toInt?, hnum, Nat.mul_mod_left, if_pos rfl, Nat.mul_div_cancel _ hden, hsigned]

theorem round_of_value (h : d.value = n) : d.round = n := by
  obtain ⟨hnum, hsigned⟩ := of_value_intCast h
  have hden : 0 < d.den := Nat.two_pow_pos _
  have hquotient : (2 * (n.natAbs * d.den) + d.den) / (2 * d.den) = n.natAbs := by
    rw [Nat.mul_left_comm, Nat.mul_comm n.natAbs, Nat.mul_add_div (by omega),
      Nat.div_eq_of_lt (by omega), Nat.add_zero]
  rw [round, hnum, hquotient, hsigned]

/-- Rounding stays on one side of an integer. -/
theorem neg_le_round {k : ℕ} (h : -(k : ℚ) ≤ d.value) : -(k : ℤ) ≤ d.round := by
  have hden : 0 < d.den := Nat.two_pow_pos _
  rw [value_eq, signed] at h
  rw [round, signed]
  cases hneg : d.negative with
  | false =>
    exact le_trans (by omega) (Int.natCast_nonneg _)
  | true =>
    rw [hneg, if_pos rfl] at h
    have hnum : d.num ≤ k * d.den := by
      rw [Int.cast_neg, neg_div, neg_le_neg_iff, div_le_iff₀ (by exact_mod_cast hden)] at h
      exact_mod_cast h
    have hquotient : (2 * d.num + d.den) / (2 * d.den) < k + 1 := by
      rw [Nat.div_lt_iff_lt_mul (by omega), Nat.add_mul, Nat.mul_left_comm]
      omega
    exact neg_le_neg (Int.ofNat_le.mpr (Nat.lt_succ_iff.mp hquotient))

end Dyad

theorem fitsInt64_of_natAbs_lt {n : ℤ} (h : n.natAbs < 2 ^ 63) : fitsInt64 n = true := by
  rw [fitsInt64, Bool.and_eq_true, decide_eq_true_eq, decide_eq_true_eq, pow2_eq]
  omega

theorem roundInt64_of_hasValue {n : ℤ} (h : HasValue x n) (hn : fitsInt64 n = true) :
    roundInt64 x = n := by
  obtain ⟨d, hd, hvalue⟩ := h
  rw [fitsInt64, Bool.and_eq_true, decide_eq_true_eq, decide_eq_true_eq] at hn
  rw [roundInt64, hd]
  simp only [Dyad.round_of_value hvalue, clampInt64]
  omega

theorem neg_le_roundInt64 {k : ℕ} (h : HasValue x q) (hk : k ≤ 2 ^ 63) (hq : -(k : ℚ) ≤ q) :
    -(k : ℤ) ≤ roundInt64 x := by
  obtain ⟨d, hd, rfl⟩ := h
  have hround := Dyad.neg_le_round hq
  rw [roundInt64, hd]
  simp only [clampInt64, pow2_eq]
  omega

theorem roundInt64_lt (x : Float) : roundInt64 x < 2 ^ 63 := by
  rw [roundInt64]
  split
  · rw [clampInt64, pow2_eq]
    omega
  · split
    · norm_num
    · split <;> rw [pow2_eq] <;> omega

theorem dvd_of_hasValue {n : ℤ} (h : HasValue x n) : 2 ^ (n.natAbs.log2 - 52) ∣ n.natAbs := by
  obtain ⟨d, hd, hvalue⟩ := h
  have hlt := (Dyad.canonical_of_ofFloat? hd).lt
  obtain ⟨hnum, -⟩ := Dyad.of_value_intCast hvalue
  rw [Dyad.num, Dyad.den, pow2_eq, pow2_eq] at hnum
  rcases Nat.eq_zero_or_pos n.natAbs with hzero | hpos
  · rw [hzero]
    exact dvd_zero _
  rcases le_total 0 d.exponent with hexponent | hexponent
  · rw [show (-d.exponent).toNat = 0 by omega, Nat.pow_zero, Nat.mul_one] at hnum
    rw [← hnum]
    have hlog : (d.mantissa * 2 ^ d.exponent.toNat).log2 < 53 + d.exponent.toNat := by
      rw [Nat.log2_lt (by omega), Nat.pow_add]
      exact Nat.mul_lt_mul_of_pos_right hlt (Nat.two_pow_pos _)
    exact (Nat.pow_dvd_pow 2 (by omega)).mul_left _
  · rw [show d.exponent.toNat = 0 by omega, Nat.pow_zero, Nat.mul_one] at hnum
    have hsmall : n.natAbs < 2 ^ 53 :=
      lt_of_le_of_lt (hnum ▸ Nat.le_mul_of_pos_right _ (Nat.two_pow_pos _)) hlt
    have hlog : n.natAbs.log2 < 53 := (Nat.log2_lt (by omega)).mpr hsmall
    rw [Nat.sub_eq_zero_of_le (by omega)]
    exact one_dvd _

theorem hasValue_doubleOfInt {n : ℤ} (hlog : n.natAbs.log2 ≤ 1023)
    (hexact : 2 ^ (n.natAbs.log2 - 52) ∣ n.natAbs) : HasValue (doubleOfInt n) n := by
  rcases eq_or_ne n 0 with rfl | hn
  · exact ⟨⟨false, 0, -1074⟩, by decide +kernel, by simp [Dyad.value, Dyad.signed]⟩
  · obtain ⟨d, hd, hvalue⟩ :=
      ofFloat?_nearest (Int.natAbs_ne_zero.mpr hn) hlog hexact (decide (n < 0))
    refine ⟨d, hd, hvalue.trans ?_⟩
    have hmagnitude : ((n.natAbs : ℕ) : ℚ) = |(n : ℚ)| := by
      rw [Nat.cast_natAbs, Int.cast_abs]
    rw [hmagnitude]
    by_cases hneg : n < 0
    · rw [if_pos (decide_eq_true hneg), abs_of_neg (by exact_mod_cast hneg), neg_neg]
    · rw [if_neg (by simpa using hneg), abs_of_nonneg (by exact_mod_cast not_lt.mp hneg)]

theorem HasValue.doubleOfInt {n : ℤ} (h : HasValue x n) (hlog : n.natAbs.log2 ≤ 1023) :
    HasValue (doubleOfInt n) n := hasValue_doubleOfInt hlog (dvd_of_hasValue h)

/-- A whole double is the double of its value, unless it is negative zero. -/
theorem HasValue.eq_doubleOfInt {n : ℤ} (h : HasValue x n) (hlog : n.natAbs.log2 ≤ 1023)
    (hneg : x ≠ -0) : x = Blockwork.doubleOfInt n := by
  rcases eq_or_ne n 0 with rfl | hzero
  · rw [h.eq_zero.resolve_right hneg]
    decide +kernel
  · exact h.eq (h.doubleOfInt hlog) (by exact_mod_cast hzero)

theorem log2_le_of_lt {n e : ℕ} (h : n < 2 ^ (e + 1)) : n.log2 ≤ e := by
  rcases eq_or_ne n 0 with rfl | hn
  · exact Nat.zero_le _
  · exact Nat.lt_succ_iff.mp ((Nat.log2_lt hn).mpr h)

theorem hasValue_doubleOfInt_of_le {n : ℤ} (h : n.natAbs ≤ 2 ^ 53) : HasValue (doubleOfInt n) n := by
  have hlog : n.natAbs.log2 ≤ 53 := log2_le_of_lt (by omega)
  exact hasValue_doubleOfInt (by omega) (dvd_of_le_two_pow h)

/-! ### Sums of whole numbers -/

/-- The digits of 53 that a whole number leaves free. -/
def spareDigits (n : ℕ) : ℕ := 52 - n.log2

/-- A whole number as an unpacked double, with all 53 digits. -/
def unpackedNat (n : ℕ) : UnpackedFloat :=
  if h : n = 0 then .zero .positive
  else .finite .positive (n * 2 ^ spareDigits n) (-(spareDigits n : ℤ))
    (Nat.mul_pos (Nat.pos_of_ne_zero h) (Nat.two_pow_pos _))

theorem log2_mul_two_pow {n : ℕ} (hn : n ≠ 0) (k : ℕ) : (n * 2 ^ k).log2 = n.log2 + k := by
  induction k with
  | zero => rw [Nat.pow_zero, Nat.mul_one, Nat.add_zero]
  | succ k ih =>
    have hpos : n * 2 ^ k ≠ 0 := Nat.mul_ne_zero hn (Nat.two_pow_pos k).ne'
    rw [Nat.pow_succ, ← Nat.mul_assoc, Nat.mul_comm, Nat.log2_two_mul hpos, ih, Nat.add_assoc]

section

open UnpackedFloat

theorem shiftRight_whole (m k : ℕ) :
    (⟨m * 2 ^ k, false, false⟩ : ExtendedMantissa) >>> k = ⟨m, false, false⟩ := by
  induction k generalizing m with
  | zero => rw [Nat.pow_zero, Nat.mul_one]; rfl
  | succ k ih =>
    have hstep : (⟨m * 2 ^ (k + 1), false, false⟩ : ExtendedMantissa) >>> (k + 1) =
        ((⟨m * 2 * 2 ^ k, false, false⟩ : ExtendedMantissa) >>> k).shiftRightOne := by
      rw [Nat.pow_succ', ← Nat.mul_assoc]
      rfl
    rw [hstep, ih, ExtendedMantissa.shiftRightOne]
    simp

theorem targetExponent_whole {n : ℕ} (hn : n ≠ 0) (h : n < 2 ^ 53) (k : ℕ) :
    Format.binary64.targetExponent (totalExponent (n * 2 ^ k) (-(k : ℤ))) =
      -(spareDigits n : ℤ) := by
  have hlog : n.log2 < 53 := (Nat.log2_lt hn).mpr h
  rw [totalExponent, log2_mul_two_pow hn]
  simp only [Format.targetExponent, Format.mantissaBits, Format.minExponent, spareDigits]
  omega

theorem decreaseExponent_whole (n : ℕ) {j k : ℕ} (h : j ≤ k) :
    decreaseExponent (n * 2 ^ j) (-(j : ℤ)) (-(k : ℤ)) = (n * 2 ^ k, -(k : ℤ)) := by
  have hshift : (-(j : ℤ) - -(k : ℤ)).toNat = k - j := by omega
  rw [decreaseExponent, hshift, Nat.shiftLeft_eq, Nat.mul_assoc, ← Nat.pow_add,
    Nat.add_sub_cancel' h]
  simp only [Prod.mk.injEq, true_and]
  omega

theorem shiftToTargetExponent_whole {n : ℕ} (hn : n ≠ 0) (h : n < 2 ^ 53) {k : ℕ}
    (hk : spareDigits n ≤ k) :
    shiftToTargetExponent Format.binary64 (n * 2 ^ k) (-(k : ℤ)) .exact =
      (⟨n * 2 ^ spareDigits n, false, false⟩, -(spareDigits n : ℤ)) := by
  obtain ⟨s, rfl⟩ := Nat.exists_eq_add_of_le hk
  rw [shiftToTargetExponent, targetExponent_whole hn h, shiftToExponent]
  have hshift : (-(spareDigits n : ℤ) - -((spareDigits n + s : ℕ) : ℤ)).toNat = s := by omega
  simp only [hshift, ExtendedMantissa.ofMantissaAndAccuracy, Prod.mk.injEq]
  refine ⟨?_, by omega⟩
  rw [Nat.pow_add, ← Nat.mul_assoc]
  exact shiftRight_whole _ s

theorem round_whole {n : ℕ} (hn : n ≠ 0) (h : n < 2 ^ 53) {k : ℕ} (hk : spareDigits n ≤ k) :
    UnpackedFloat.round Format.binary64 .positive (n * 2 ^ k) (-(k : ℤ)) = unpackedNat n := by
  have hpos : n * 2 ^ spareDigits n ≠ 0 := Nat.mul_ne_zero hn (Nat.two_pow_pos _).ne'
  have hdecrease : decreaseExponent (n * 2 ^ k) (-(k : ℤ)) (-(spareDigits n : ℤ)) =
      (n * 2 ^ k, -(k : ℤ)) := by
    rw [decreaseExponent, show (-(k : ℤ) - -(spareDigits n : ℤ)).toNat = 0 by omega]
    simp
  rw [UnpackedFloat.round, targetExponent_whole hn h, hdecrease]
  simp only [roundWithAccuracy, shiftToTargetExponent_whole hn h hk,
    ExtendedMantissa.roundedMantissa, ExtendedMantissa.accuracy, Accuracy.roundToNearestEven,
    shiftToTargetExponent_whole hn h (le_refl (spareDigits n)), dif_neg hpos]
  rw [unpackedNat, dif_neg hn]

theorem add_unpackedNat {a b : ℕ} (h : a + b < 2 ^ 53) :
    UnpackedFloat.add Format.binary64 (unpackedNat a) (unpackedNat b) = unpackedNat (a + b) := by
  rcases Nat.eq_zero_or_pos a with rfl | ha
  · rw [Nat.zero_add, unpackedNat, dif_pos rfl, unpackedNat]
    split <;> rfl
  rcases Nat.eq_zero_or_pos b with rfl | hb
  · rw [Nat.add_zero, unpackedNat, unpackedNat, dif_pos rfl]
    split <;> rfl
  -- both are brought to the lesser exponent, where the sum is that of the whole numbers
  obtain ⟨k, hak, hbk, hmin⟩ : ∃ k, spareDigits a ≤ k ∧ spareDigits b ≤ k ∧
      min (-(spareDigits a : ℤ)) (-(spareDigits b : ℤ)) = -(k : ℤ) :=
    ⟨max (spareDigits a) (spareDigits b), by omega, by omega, by omega⟩
  have hsum : Sign.positive.apply ((a * 2 ^ k : ℕ) : ℤ) + Sign.positive.apply ((b * 2 ^ k : ℕ) : ℤ) =
      ((a + b) * 2 ^ k : ℕ) := by
    rw [Nat.add_mul]
    rfl
  have hpos : 0 < (a + b) * 2 ^ k := Nat.mul_pos (by omega) (Nat.two_pow_pos _)
  have hspare : spareDigits (a + b) ≤ k := by
    have hlog : a.log2 ≤ (a + b).log2 := (Nat.le_log2 (by omega)).mpr
      (le_trans (Nat.log2_self_le ha.ne') (Nat.le_add_right a b))
    exact le_trans (Nat.sub_le_sub_left hlog 52) hak
  rw [unpackedNat, unpackedNat, dif_neg ha.ne', dif_neg hb.ne']
  simp only [UnpackedFloat.add, hmin, decreaseExponent_whole a hak, decreaseExponent_whole b hbk,
    hsum]
  rw [UnpackedFloat.normalize, Int.compare_eq_gt.mpr (by exact_mod_cast hpos)]
  exact round_whole (by omega) h hspare

end

theorem unpack_of_normal {b : BitVec Format.binary64.numBits} {e f : ℕ}
    (hb : b.toNat = e * 2 ^ 52 + f) (he : 0 < e) (he' : e < 2047) (hf : f < 2 ^ 52) :
    UnpackedFloat.unpack Format.binary64 b =
      .finite .positive (f + 2 ^ 52) ((e : ℤ) - 1075) (Nat.add_pos_right f (by norm_num)) := by
  have hexponent : (UnpackedFloat.unpackExponent b).toNat = e := by
    rw [toNat_unpackExponent, hb]
    omega
  have hmantissa : (UnpackedFloat.unpackMantissa b).toNat = f := by
    rw [UnpackedFloat.unpackMantissa_def, BitVec.extractLsb'_toNat, hb]
    simp
    omega
  have hsign : UnpackedFloat.unpackSign b = 0#1 := by
    rw [UnpackedFloat.unpackSign_def, ← BitVec.toNat_inj, BitVec.extractLsb'_toNat, hb]
    simp [Nat.shiftRight_eq_div_pow]
    omega
  have htop : UnpackedFloat.unpackExponent b ≠ -1#_ := by
    intro heq
    have hnat : e = 2047 := hexponent.symm.trans (congrArg BitVec.toNat heq)
    omega
  have hzero : UnpackedFloat.unpackExponent b ≠ 0#_ := by
    intro heq
    have hnat : e = 0 := hexponent.symm.trans (congrArg BitVec.toNat heq)
    omega
  have hfull : (1#1 ++ UnpackedFloat.unpackMantissa b).toNat = f + 2 ^ 52 := by
    rw [BitVec.toNat_append, hmantissa, ← Nat.shiftLeft_add_eq_or_of_lt hf, Nat.add_comm]
    rfl
  simp only [UnpackedFloat.unpack, if_neg htop, if_neg hzero, hsign, hexponent, hfull]
  rfl

theorem unpack_doubleOfNat {n : ℕ} (h : n < 2 ^ 53) :
    (doubleOfNat n).toModel.unpack = unpackedNat n := by
  rcases Nat.eq_zero_or_pos n with rfl | hpos
  · rfl
  have hlog : n.log2 < 53 := (Nat.log2_lt hpos.ne').mpr h
  have hplaces : n.log2 - 52 = 0 := by omega
  obtain ⟨m, hm, hlow, hhigh⟩ := exists_mantissa hpos.ne' (hplaces ▸ one_dvd n)
  have hbits := nearestBits_one hpos.ne' (by omega) hm hlow hhigh
  rw [hplaces, Nat.pow_zero, Nat.mul_one] at hm
  rw [pow2_eq] at hbits
  have hpattern : (doubleOfNat n).toBits.toNat = (n.log2 + 1023) * 2 ^ 52 + (m - 2 ^ 52) := by
    rw [doubleOfNat, nearest, if_neg Bool.false_ne_true, Nat.add_zero, hbits]
    exact toBits_ofBits (by omega) (by omega)
  have hmantissa : m - 2 ^ 52 + 2 ^ 52 = n * 2 ^ spareDigits n := by
    rw [Nat.sub_add_cancel hlow, hm, spareDigits]
  have hexponent : ((n.log2 + 1023 : ℕ) : ℤ) - 1075 = -(spareDigits n : ℤ) := by
    rw [spareDigits]
    omega
  have hunpack := unpack_of_normal (b := (doubleOfNat n).toBits.toBitVec) hpattern (by omega)
    (by omega) (by omega)
  simp only [hmantissa, hexponent] at hunpack
  rw [unpackedNat, dif_neg hpos.ne']
  exact hunpack

theorem doubleOfNat_add {a b : ℕ} (h : a + b < 2 ^ 53) :
    doubleOfNat a + doubleOfNat b = doubleOfNat (a + b) := by
  have hunpack : UnpackedFloat.add Format.binary64 (doubleOfNat a).toModel.unpack
      (doubleOfNat b).toModel.unpack = (doubleOfNat (a + b)).toModel.unpack := by
    rw [unpack_doubleOfNat (by omega), unpack_doubleOfNat (by omega), unpack_doubleOfNat h,
      add_unpackedNat h]
  rw [← Float.toBits_inj, ← UInt64.toBitVec_inj]
  change UnpackedFloat.pack _ (UnpackedFloat.add _ _ _) = _
  rw [hunpack]
  exact UnpackedFloat.pack_unpack_of_valid (doubleOfNat (a + b)).toModel.valid

theorem hasValue_doubleOfNat_add {a b : ℕ} (h : a + b < 2 ^ 53) :
    HasValue (doubleOfNat a + doubleOfNat b) ((a + b : ℕ) : ℤ) := by
  rw [doubleOfNat_add h]
  exact ofFloat?_doubleOfNat h.le

end Blockwork
