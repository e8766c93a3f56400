import ParcelDelivery.DecimalArith
import Mathlib.Algebra.Order.Field.Power
import Mathlib.Algebra.Order.Field.Rat
import Mathlib.Tactic.NormNum
import Mathlib.Tactic.Ring
import Mathlib.Tactic.FieldSimp
import Mathlib.Tactic.Linarith

/-!
# The value of a decimal

The rational number that a decimal denotes. A decimal that denotes a whole number of units
is stored as it is (`roundUnits_of_value`).
-/

namespace DecimalArith

/-- The number that a decimal denotes. -/
def Decimal.value (d : Decimal) : ℚ := d.coeff * (10 : ℚ) ^ d.exp

/-- A column value in units. -/
theorem Numeric.value_toDecimal {p s : ℕ} (x : Numeric p s) :
    x.toDecimal.value = x.units / 10 ^ s := by
  simp only [Decimal.value, Numeric.toDecimal, zpow_neg, zpow_natCast, div_eq_mul_inv]

/-! ## Storing without rounding -/

@[simp] theorem withSign_natAbs (z : ℤ) : withSign z z.natAbs = z := by
  rw [withSign]
  split <;> omega

/-- Dropping zeros is exact. -/
theorem dropHalfUp_mul (n k : ℕ) : dropHalfUp (n * 10 ^ k) k = n := by
  have hpos : 0 < 10 ^ k := Nat.pow_pos (by decide)
  rw [dropHalfUp, Nat.div_eq_iff (by omega)]
  have hcomm : n * (2 * 10 ^ k) = 2 * (n * 10 ^ k) := by ring
  omega

/-- **No rounding**: a whole number of units is stored as it is. -/
theorem roundUnits_of_value {d : Decimal} {s : ℕ} {n : ℤ} (h : d.value = n / 10 ^ s) :
    Numeric.roundUnits s d = n := by
  have hten : (10 : ℚ) ≠ 0 := by norm_num
  have hscaled : (d.coeff : ℚ) * 10 ^ (d.exp + s) = n := by
    rw [zpow_add₀ hten, zpow_natCast, ← mul_assoc]
    rw [Decimal.value] at h
    rw [h, div_mul_cancel₀ _ (pow_ne_zero s hten)]
  rw [Numeric.roundUnits]
  split
  · next hexp =>
    obtain ⟨k, hk⟩ := Int.eq_ofNat_of_zero_le hexp
    rw [hk, zpow_natCast] at hscaled
    rw [hk, Int.toNat_natCast]
    exact_mod_cast hscaled
  · next hexp =>
    obtain ⟨k, hk⟩ := Int.eq_ofNat_of_zero_le (show 0 ≤ -(d.exp + s) by omega)
    have hcoeff : d.coeff = n * 10 ^ k := by
      rw [show d.exp + s = -(k : ℤ) by omega, zpow_neg, zpow_natCast] at hscaled
      have hpow : (10 : ℚ) ^ k ≠ 0 := pow_ne_zero k hten
      rw [← div_eq_mul_inv, div_eq_iff hpow] at hscaled
      exact_mod_cast hscaled
    have habs : d.coeff.natAbs = n.natAbs * 10 ^ k := by
      rw [hcoeff, Int.natAbs_mul, Int.natAbs_pow]
      rfl
    simp only [hk, Int.toNat_natCast, habs, dropHalfUp_mul]
    -- the coefficient has the sign of the number of units
    have hpos : (0 : ℤ) < 10 ^ k := by positivity
    have hsign : d.coeff < 0 ↔ n < 0 := by
      rw [hcoeff]
      refine ⟨?_, ?_⟩
      · intro hneg
        by_contra hnot
        exact absurd (mul_nonneg (not_lt.mp hnot) hpos.le) (not_le.mpr hneg)
      · exact fun hneg => mul_neg_of_neg_of_pos hneg hpos
    rw [withSign]
    simp only [hsign]
    exact withSign_natAbs n

namespace Numeric

variable {p s : ℕ} {d : Decimal} {n : ℤ}

/-- What is stored without rounding denotes the same number. -/
theorem ofDecimal_of_value (h : d.value = n / 10 ^ s) (hrange : n.natAbs < 10 ^ p) :
    ∃ x : Numeric p s, ofDecimal p s d = some x ∧ x.units = n ∧ x.toDecimal.value = d.value := by
  have hround := roundUnits_of_value h
  refine ⟨⟨n, hrange⟩, ?_, rfl, ?_⟩
  · rw [ofDecimal]
    simp only [hround]
    exact dif_pos hrange
  · rw [value_toDecimal, h]

end Numeric

end DecimalArith
