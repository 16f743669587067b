/-
The exact number that a double stands for.

A finite double is its mantissa scaled by a power of two, a rational number.  It is whole
exactly when that number is an integer.  Cut to 64 bits a whole double is this integer where
64 bits hold it, and beyond them the nearer end of their range.
-/
import Mathlib.Algebra.Order.Field.Basic
import Mathlib.Algebra.Order.Ring.Rat
import Mathlib.Data.Nat.Cast.Field
import Mathlib.Data.Rat.Lemmas
import Mathlib.Tactic.Ring
import FilterSql.Number.Binary64

namespace FilterSql.Binary64

/-- The number that a finite double stands for. -/
def value (x : Binary64) : ℚ :=
  let format := BinaryFormat.binary64
  let magnitude := format.mantissa x.pattern * (2 : ℚ) ^ format.exponent x.pattern
  if x.negative then -magnitude else magnitude

/-- The magnitude of a double without its fractional part, with the sign of the double. -/
def signedWholePart (x : Binary64) : Int :=
  if x.negative then -(x.wholePart : Int) else x.wholePart

theorem ratio_den_ne_zero (x : Binary64) : x.ratio.2 ≠ 0 :=
  Nat.ne_of_gt (Nat.pow_pos (by decide))

theorem zpow_two_eq_div (e : Int) :
    (2 : ℚ) ^ e = (Nat.pow 2 e.toNat : ℕ) / (Nat.pow 2 (-e).toNat : ℕ) := by
  simp only [Nat.pow_eq, Nat.cast_pow, Nat.cast_ofNat]
  by_cases he : 0 ≤ e
  · have hneg : (-e).toNat = 0 := by omega
    rw [hneg, pow_zero, div_one, ← zpow_natCast, Int.toNat_of_nonneg he]
  · have hpos : e.toNat = 0 := by omega
    have hcast : ((-e).toNat : Int) = -e := Int.toNat_of_nonneg (by omega)
    rw [hpos, pow_zero, one_div, ← zpow_natCast, hcast, zpow_neg, inv_inv]

/-- The value of a double by the fraction of its magnitude. -/
theorem value_eq (x : Binary64) :
    x.value =
      if x.negative then -((x.ratio.1 : ℚ) / x.ratio.2) else (x.ratio.1 : ℚ) / x.ratio.2 := by
  have hmagnitude : (BinaryFormat.binary64.mantissa x.pattern : ℚ) *
      2 ^ BinaryFormat.binary64.exponent x.pattern = (x.ratio.1 : ℚ) / x.ratio.2 := by
    rw [zpow_two_eq_div, ratio, BinaryFormat.ratio]
    push_cast
    ring
  rw [value]
  simp only [hmagnitude]

/-- A double whose fraction leaves no rest stands for its whole part. -/
theorem value_eq_signedWholePart {x : Binary64} (hdvd : x.ratio.2 ∣ x.ratio.1) :
    x.value = x.signedWholePart := by
  have hquotient : (x.ratio.1 : ℚ) / x.ratio.2 = x.wholePart := by
    rw [wholePart, Nat.cast_div hdvd (Nat.cast_ne_zero.mpr x.ratio_den_ne_zero)]
  rw [value_eq, signedWholePart, hquotient]
  split <;> simp

theorem ratio_dvd_of_value_eq {x : Binary64} {n : Int} (hvalue : x.value = n) :
    x.ratio.2 ∣ x.ratio.1 := by
  have hinteger : ∃ m : Int, (x.ratio.1 : ℚ) / x.ratio.2 = m := by
    rw [value_eq] at hvalue
    split at hvalue
    · exact ⟨-n, by rw [Int.cast_neg, ← hvalue, neg_neg]⟩
    · exact ⟨n, hvalue⟩
  obtain ⟨m, hm⟩ := hinteger
  rw [← Rat.den_div_natCast_eq_one_iff _ _ x.ratio_den_ne_zero, hm]
  exact Rat.den_intCast _

/-- A finite double is whole when it stands for an integer, and then for its whole part. -/
theorem isWhole_iff {x : Binary64} (hfinite : x.isFinite = true) :
    x.isWhole = true ↔ ∃ n : Int, (n : ℚ) = x.value := by
  rw [isWhole, hfinite, Bool.true_and, beq_iff_eq, ← Nat.dvd_iff_mod_eq_zero]
  constructor
  · intro hdvd
    exact ⟨x.signedWholePart, (value_eq_signedWholePart hdvd).symm⟩
  · rintro ⟨n, hn⟩
    exact ratio_dvd_of_value_eq hn.symm

theorem value_of_isWhole {x : Binary64} (hwhole : x.isWhole = true) :
    x.value = x.signedWholePart := by
  rw [isWhole, Bool.and_eq_true, beq_iff_eq] at hwhole
  exact value_eq_signedWholePart (Nat.dvd_iff_mod_eq_zero.mpr hwhole.2)

theorem abs_value (x : Binary64) : |x.value| = (x.ratio.1 : ℚ) / x.ratio.2 := by
  have hpos : (0 : ℚ) ≤ (x.ratio.1 : ℚ) / x.ratio.2 :=
    div_nonneg (Nat.cast_nonneg _) (Nat.cast_nonneg _)
  rw [value_eq]
  split
  · rw [abs_neg, abs_of_nonneg hpos]
  · exact abs_of_nonneg hpos

theorem mantissa_lt (pattern : Nat) : BinaryFormat.binary64.mantissa pattern < 2 ^ 53 := by
  have hbound : BinaryFormat.binary64.fractionBound = 2 ^ 52 := rfl
  rw [BinaryFormat.mantissa, hbound]
  split <;> omega

/-- A double of 53 binary digits or more before the point has none behind it. -/
theorem isWhole_of_le_abs {x : Binary64} (hfinite : x.isFinite = true)
    (hlarge : 2 ^ 53 ≤ |x.value|) : x.isWhole = true := by
  have hden : (0 : ℚ) < x.ratio.2 := Nat.cast_pos.mpr (Nat.pos_of_ne_zero x.ratio_den_ne_zero)
  rw [abs_value, le_div_iff₀ hden] at hlarge
  have hle : 2 ^ 53 * x.ratio.2 ≤ x.ratio.1 := by exact_mod_cast hlarge
  have hmantissa := mantissa_lt x.pattern
  have hdvd : x.ratio.2 ∣ x.ratio.1 := by
    rw [ratio, BinaryFormat.ratio] at hle ⊢
    by_cases hexponent : 0 ≤ BinaryFormat.binary64.exponent x.pattern
    · have hnone : (-BinaryFormat.binary64.exponent x.pattern).toNat = 0 := by omega
      rw [hnone]
      exact one_dvd _
    · have hnone : (BinaryFormat.binary64.exponent x.pattern).toNat = 0 := by omega
      have hpow := Nat.pow_pos (n := (-BinaryFormat.binary64.exponent x.pattern).toNat)
        (by decide : 0 < 2)
      rw [hnone] at hle
      simp only [Nat.pow_eq, pow_zero, mul_one] at hle
      have hscaled := Nat.le_mul_of_pos_right (2 ^ 53) hpow
      omega
  rw [isWhole, hfinite, Bool.true_and, beq_iff_eq]
  exact Nat.dvd_iff_mod_eq_zero.mp hdvd

theorem toInt_toInt64 {x : Binary64} (hfinite : x.isFinite = true) :
    x.toInt64.toInt = max (-2 ^ 63) (min (2 ^ 63 - 1) x.signedWholePart) := by
  have hnan : x.isNan = false := by
    simp only [isFinite, isNan, decide_eq_true_eq, decide_eq_false_iff_not] at hfinite ⊢
    omega
  rw [toInt64, hnan, hfinite, if_neg Bool.false_ne_true, if_pos rfl]
  show (Int64.ofIntClamp x.signedWholePart).toInt = _
  have hleast : Int64.minValue.toInt = -2 ^ 63 := rfl
  have hlargest : Int64.maxValue.toInt = 2 ^ 63 - 1 := rfl
  rw [Int64.ofIntClamp]
  split
  · split
    · rw [Int64.toInt_ofIntLE]
      omega
    · omega
  · omega

end FilterSql.Binary64
