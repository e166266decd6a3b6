import Blockwork.Number.Dyad
import Mathlib

/-!
Doubles and the numbers they stand for.

The exact value of a double is a rational number, and its floor is the floor of that number
(`Dyad.floor_eq`).  A double that is made from the pattern of a finite one has that pattern
(`toBits_ofBits`).  So what the pattern of a whole number says can be read back from the double, and
whole numbers that need at most 53 binary digits are doubles (`ofFloat?_nearest`).
-/

namespace Blockwork

open Float.Model

/-! ### Powers of two -/

theorem pow2_eq (n : ℕ) : pow2 n = 2 ^ n := rfl

theorem two_zpow (e : ℤ) : (2 : ℚ) ^ e = 2 ^ e.toNat / 2 ^ (-e).toNat := by
  rw [← zpow_natCast, ← zpow_natCast, ← zpow_sub₀ two_ne_zero]
  congr 1
  omega

namespace Dyad

/-- The exact value. -/
def value (d : Dyad) : ℚ := d.signed d.mantissa * 2 ^ d.exponent

theorem value_eq (d : Dyad) : d.value = (d.signed d.num : ℚ) / d.den := by
  rw [value, num, den, two_zpow, signed, signed]
  split <;> push_cast [pow2_eq] <;> ring

theorem floor_eq (d : Dyad) : d.floor = ⌊d.value⌋ := by
  rw [value_eq, Rat.floor_intCast_div_natCast, floor]

end Dyad

/-! ### Patterns -/

open UnpackedFloat in
theorem toNat_unpackExponent (b : BitVec Format.binary64.numBits) :
    (unpackExponent b).toNat = b.toNat / 2 ^ 52 % 2 ^ 11 := by
  simp [unpackExponent, BitVec.extractLsb_toNat, Nat.shiftRight_eq_div_pow]

/-- The pattern of a double that is made from the pattern of a finite one. -/
theorem toBits_ofBits {n : ℕ} (hn : n < 2 ^ 64) (hfinite : n / 2 ^ 52 % 2 ^ 11 ≠ 2047) :
    (Float.ofBits (UInt64.ofNat n)).toBits.toNat = n := by
  have hbits : (UInt64.ofNat n).toBitVec.toNat = n := by
    rw [UInt64.toNat_toBitVec, UInt64.toNat_ofNat', Nat.mod_eq_of_lt hn]
  have hexponent :
      @UnpackedFloat.unpackExponent Format.binary64 (UInt64.ofNat n).toBitVec ≠ -1#11 := by
    intro h
    have hnat := congrArg BitVec.toNat h
    rw [toNat_unpackExponent, hbits] at hnat
    exact hfinite hnat
  have hpack : (Float.ofBits (UInt64.ofNat n)).toBits.toBitVec = (UInt64.ofNat n).toBitVec := by
    have hnan : @UnpackedFloat.isNaNBits Format.binary64 (UInt64.ofNat n).toBitVec = false :=
      decide_eq_false fun h => hexponent h.1
    exact (@UnpackedFloat.pack_unpack Format.binary64 _ (by decide)).trans
      (if_neg (ne_true_of_eq_false hnan))
  rw [← UInt64.toNat_toBitVec, hpack, hbits]

/-! ### Whole numbers as doubles -/

namespace Dyad

/-- A double with an exact value is not a NaN. -/
theorem isNaN_of_ofFloat? {x : Float} {d : Dyad} (h : ofFloat? x = some d) : x.isNaN = false := by
  have hnan : ofFloat? Float.nan = none := by decide +kernel
  rw [Float.isNaN_eq_decide_eq_nan, decide_eq_false_iff_not]
  rintro rfl
  rw [hnan] at h
  cases h

/-- The double of a biased exponent and a fraction below the leading bit. -/
theorem ofFloat?_ofBits {e f : ℕ} (he : 0 < e) (he' : e < 2047) (hf : f < 2 ^ 52)
    (negative : Bool) :
    ofFloat? (Float.ofBits (UInt64.ofNat (e * pow2 52 + f + if negative then pow2 63 else 0))) =
      some ⟨negative, f + pow2 52, (e : ℤ) - 1075⟩ := by
  simp only [pow2_eq]
  generalize hn : e * 2 ^ 52 + f + (if negative then 2 ^ 63 else 0) = n
  have hparts : n < 2 ^ 64 ∧ n / 2 ^ 52 % 2 ^ 11 = e ∧ n % 2 ^ 52 = f ∧
      (2 ^ 63 ≤ n ↔ negative = true) := by
    cases negative <;> simp at hn ⊢ <;> omega
  obtain ⟨hlt, hexponent, hfraction, hsign⟩ := hparts
  have hbits := toBits_ofBits hlt (by omega)
  rw [ofFloat?, hbits]
  simp only [pow2_eq, hexponent, hfraction, hsign, Bool.decide_eq_true]
  rw [if_neg (by omega), if_neg (by omega)]

end Dyad

theorem divNearestEven_of_dvd {a b : ℕ} (hb : 0 < b) (h : b ∣ a) : divNearestEven a b = a / b := by
  have hr : a % b = 0 := Nat.mod_eq_zero_of_dvd h
  simp [divNearestEven, hr, hb]

theorem floorLog2_one {n : ℕ} (hn : n ≠ 0) : floorLog2 n 1 = n.log2 := by
  have hle : 2 ^ n.log2 ≤ n := Nat.log2_self_le hn
  have hone : Nat.log2 1 = 0 := rfl
  simp [floorLog2, pow2_eq, hone, hle]

/-- A whole number at 53 digits, if it needs no more. -/
theorem exists_mantissa {n : ℕ} (hn : n ≠ 0) (hexact : 2 ^ (n.log2 - 52) ∣ n) :
    ∃ m, m * 2 ^ (n.log2 - 52) = n * 2 ^ (52 - n.log2) ∧ 2 ^ 52 ≤ m ∧ m < 2 ^ 53 := by
  obtain ⟨m, hm⟩ : 2 ^ (n.log2 - 52) ∣ n * 2 ^ (52 - n.log2) := hexact.mul_right _
  -- both sides are scaled by the same power, of which one exponent is zero
  have hshift : 2 ^ n.log2 * 2 ^ (52 - n.log2) = 2 ^ 52 * 2 ^ (n.log2 - 52) := by
    rw [← Nat.pow_add, ← Nat.pow_add]
    congr 1
    omega
  have hlow := Nat.mul_le_mul_right (2 ^ (52 - n.log2)) (Nat.log2_self_le hn)
  have hhigh :=
    Nat.mul_lt_mul_of_pos_right (Nat.lt_log2_self (n := n)) (Nat.two_pow_pos (52 - n.log2))
  rw [Nat.pow_succ, Nat.mul_right_comm, hshift, hm] at hhigh
  rw [hshift, hm, Nat.mul_comm] at hlow
  have hpos : 0 < 2 ^ (n.log2 - 52) := Nat.two_pow_pos _
  refine ⟨m, by rw [hm, Nat.mul_comm], Nat.le_of_mul_le_mul_left hlow hpos, ?_⟩
  exact Nat.lt_of_mul_lt_mul_left (a := 2 ^ (n.log2 - 52)) (by linarith)

theorem nearestBits_one {n m : ℕ} (hn : n ≠ 0) (hlog : n.log2 ≤ 1023)
    (hm : m * 2 ^ (n.log2 - 52) = n * 2 ^ (52 - n.log2)) (hlow : 2 ^ 52 ≤ m) (hhigh : m < 2 ^ 53) :
    nearestBits n 1 = (n.log2 + 1023) * pow2 52 + (m - 2 ^ 52) := by
  have hq : max ((n.log2 : ℤ) - 52) (-1074) = (n.log2 : ℤ) - 52 := by omega
  have hup : (-((n.log2 : ℤ) - 52)).toNat = 52 - n.log2 := by omega
  have hdown : ((n.log2 : ℤ) - 52).toNat = n.log2 - 52 := by omega
  have hquotient : divNearestEven (n * 2 ^ (52 - n.log2)) (1 * 2 ^ (n.log2 - 52)) = m := by
    rw [Nat.one_mul, ← hm, divNearestEven_of_dvd (Nat.two_pow_pos _) (Nat.dvd_mul_left _ _),
      Nat.mul_div_cancel _ (Nat.two_pow_pos _)]
  have hplace : ((n.log2 : ℤ) - 52 + 1074).toNat = n.log2 + 1022 := by omega
  have hinfinity : infinityBits = 2047 * 2 ^ 52 := rfl
  simp only [nearestBits, if_neg hn, floorLog2_one hn, hq, hup, hdown, pow2_eq, hquotient, hplace]
  rw [hinfinity, Nat.min_eq_left (by omega)]
  omega

/-- A whole number that needs at most 53 digits is a double. -/
theorem ofFloat?_nearest {n : ℕ} (hn : n ≠ 0) (hlog : n.log2 ≤ 1023)
    (hexact : 2 ^ (n.log2 - 52) ∣ n) (negative : Bool) :
    ∃ d, Dyad.ofFloat? (nearest negative n 1) = some d ∧
      d.value = if negative then -(n : ℚ) else n := by
  obtain ⟨m, hm, hlow, hhigh⟩ := exists_mantissa hn hexact
  refine ⟨⟨negative, m - 2 ^ 52 + pow2 52, ((n.log2 + 1023 : ℕ) : ℤ) - 1075⟩, ?_, ?_⟩
  · rw [nearest, nearestBits_one hn hlog hm hlow hhigh]
    exact Dyad.ofFloat?_ofBits (by omega) (by omega) (by omega) negative
  · have hmantissa : m - 2 ^ 52 + pow2 52 = m := by rw [pow2_eq, Nat.sub_add_cancel hlow]
    have hexponent : ((n.log2 + 1023 : ℕ) : ℤ) - 1075 = (n.log2 : ℤ) - 52 := by omega
    have hup : (-((n.log2 : ℤ) - 52)).toNat = 52 - n.log2 := by omega
    have hdown : ((n.log2 : ℤ) - 52).toNat = n.log2 - 52 := by omega
    have hvalue : (m : ℚ) * 2 ^ ((n.log2 : ℤ) - 52) = n := by
      have hcast : (m : ℚ) * 2 ^ (n.log2 - 52) = n * 2 ^ (52 - n.log2) := by exact_mod_cast hm
      rw [two_zpow, hup, hdown, mul_div_assoc', hcast, mul_div_assoc, div_self (by positivity),
        mul_one]
    rw [Dyad.value, hmantissa, hexponent, Dyad.signed]
    cases negative <;> simp [hvalue]

theorem dvd_of_le_two_pow {n : ℕ} (h : n ≤ 2 ^ 53) : 2 ^ (n.log2 - 52) ∣ n := by
  by_cases h52 : n.log2 ≤ 52
  · rw [Nat.sub_eq_zero_of_le h52]
    exact one_dvd n
  · have hn : n ≠ 0 := by
      rintro rfl
      exact h52 (Nat.zero_le _)
    have hlow : 2 ^ 53 ≤ n := (Nat.le_log2 hn).mp (by omega)
    rw [le_antisymm h hlow, Nat.log2_two_pow]
    exact Nat.pow_dvd_pow 2 (by norm_num)

/-- Among them are all up to `2 ^ 53`. -/
theorem ofFloat?_doubleOfNat {n : ℕ} (h : n ≤ 2 ^ 53) :
    ∃ d, Dyad.ofFloat? (doubleOfNat n) = some d ∧ d.value = n := by
  rcases Nat.eq_zero_or_pos n with rfl | hpos
  · exact ⟨⟨false, 0, -1074⟩, by decide +kernel, by simp [Dyad.value, Dyad.signed]⟩
  · have hn : n ≠ 0 := hpos.ne'
    have hlog : n.log2 < 54 := (Nat.log2_lt hn).mpr (by omega)
    exact ofFloat?_nearest hn (by omega) (dvd_of_le_two_pow h) false

end Blockwork
