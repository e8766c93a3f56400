import ParcelDelivery.DecimalRounding

/-!
# Counting digits

`max_digits` and `decimal_places` count the digits of a decimal twice, as it is written and
normalized, and each bound refuses only what exceeds it both times (`fits`). Normalizing rounds in
the default context, so that a longer number can pass as a shorter one. What is left is a bound on
the number: before the point it has no more digits than there are left of `max_digits`
(`value_lt_of_fits`).
-/

namespace DecimalArith

namespace Decimal

/-! ## The default context -/

/-- `Emax`; `Emin` is as far below zero. -/
def eMax : ℤ := 999999

/-- `Etiny`: the exponent of the last digit below `Emin`. -/
def eTiny : ℤ := -eMax - (precision - 1)

/-- `Decimal.adjusted`: the exponent of the first digit. -/
def adjusted (d : Decimal) : ℤ := d.exp + Nat.log 10 d.coeff.natAbs

/-- The number in the default context: a zero with its exponent clamped, a number below `Emin`
rounded at `Etiny`, any other rounded to the precision; `none` where `Overflow` is raised. -/
def finalize (d : Decimal) : Option Decimal :=
  if d.coeff = 0 then some ⟨0, max eTiny (min d.exp eMax)⟩
  else if d.adjusted < -eMax then
    if d.exp < eTiny then
      some ⟨withSign d.coeff (dropHalfEven d.coeff.natAbs (eTiny - d.exp).toNat), eTiny⟩
    else some d
  else if d.fix.adjusted ≤ eMax then some d.fix
  else none

/-- Zeros at the end of the coefficient go into the exponent. -/
def dropZeros : ℕ → Decimal → Decimal
  | 0, d => d
  | k + 1, d => if d.coeff % 10 = 0 then dropZeros k ⟨d.coeff / 10, d.exp + 1⟩ else d

/-- `Decimal.normalize`. -/
def normalize (d : Decimal) : Option Decimal :=
  d.finalize.map fun r =>
    if r.coeff = 0 then ⟨0, 0⟩ else r.dropZeros (digitCount r.coeff.natAbs)

/-! ## The bounds -/

/-- The number of decimal places. -/
def places (d : Decimal) : ℕ := (-d.exp).toNat

/-- The number of digits, with the zeros that the exponent puts before or behind the point. -/
def digits (d : Decimal) : ℕ := max (digitCount d.coeff.natAbs + d.exp.toNat) d.places

/-- The number of digits before the point. -/
def wholeDigits (d : Decimal) : ℕ := d.digits - d.places

/-- `max_digits` and `decimal_places`; what cannot be normalized is taken as it is. -/
def fits (maxDigits decimalPlaces : ℕ) (d : Decimal) : Bool :=
  let n := d.normalize.getD d
  (d.digits ≤ maxDigits || n.digits ≤ maxDigits) &&
    (d.places ≤ decimalPlaces || n.places ≤ decimalPlaces) &&
    (d.wholeDigits ≤ maxDigits - decimalPlaces || n.wholeDigits ≤ maxDigits - decimalPlaces)

section Bounds

variable {d r : Decimal} {w : ℕ}

theorem value_dropZeros (k : ℕ) (d : Decimal) : (d.dropZeros k).value = d.value := by
  induction k generalizing d with
  | zero => rfl
  | succ k ih =>
    rw [dropZeros]
    split
    · next hzero =>
      rw [ih, value, value, zpow_add_one₀ (by norm_num)]
      have hcoeff : (d.coeff : ℚ) = (d.coeff / 10 : ℤ) * 10 := by
        exact_mod_cast (Int.ediv_mul_cancel (Int.dvd_of_emod_eq_zero hzero)).symm
      rw [hcoeff]
      ring
    · rfl

/-- A coefficient is below the power of ten after its digits. -/
theorem coeff_lt (d : Decimal) : (d.coeff : ℚ) < 10 ^ digitCount d.coeff.natAbs := by
  have hle : (d.coeff : ℚ) ≤ (d.coeff.natAbs : ℤ) := Int.cast_le.mpr Int.le_natAbs
  have hlt : (d.coeff.natAbs : ℚ) < 10 ^ digitCount d.coeff.natAbs := by
    exact_mod_cast natAbs_lt_pow_digitCount d.coeff
  exact hle.trans_lt (by rw [Int.cast_natCast]; exact hlt)

/-- A number is below the power of ten after its first digit. -/
theorem value_lt_adjusted (d : Decimal) : d.value < 10 ^ (d.adjusted + 1) := by
  have hexp : d.adjusted + 1 = (digitCount d.coeff.natAbs : ℤ) + d.exp := by
    rw [adjusted, digitCount]
    push_cast
    ring
  rw [value, hexp, zpow_add₀ (by norm_num), zpow_natCast]
  exact mul_lt_mul_of_pos_right d.coeff_lt (by positivity)

/-- **Digits before the point** bound a number. -/
theorem value_lt_of_wholeDigits (h : d.wholeDigits ≤ w) : d.value < 10 ^ w := by
  have hexp : d.adjusted + 1 ≤ w := by
    rw [wholeDigits, digits, places] at h
    rw [adjusted]
    rw [digitCount] at h
    omega
  calc d.value < 10 ^ (d.adjusted + 1) := d.value_lt_adjusted
    _ ≤ 10 ^ (w : ℤ) := zpow_le_zpow_right₀ (by norm_num) hexp
    _ = 10 ^ w := zpow_natCast 10 w

/-- **No number is rounded in the context below a power of ten that it has reached.** -/
theorem value_lt_of_finalize (hd : 0 ≤ d.coeff) (h : d.finalize = some r) (hr : r.value < 10 ^ w) :
    d.value < 10 ^ w := by
  rw [finalize] at h
  split at h
  · next hzero =>
    rw [value, hzero, Int.cast_zero, zero_mul]
    positivity
  · split at h
    · next htiny =>
      calc d.value < 10 ^ (d.adjusted + 1) := d.value_lt_adjusted
        _ ≤ 10 ^ (0 : ℤ) := zpow_le_zpow_right₀ (by norm_num) (by rw [eMax] at htiny; omega)
        _ ≤ 10 ^ w := by
          rw [zpow_zero]
          exact one_le_pow₀ (by norm_num)
    · split at h
      · obtain rfl := Option.some.inj h
        -- the power of ten, with 28 zeros
        have hpow : (10 : ℚ) ^ w = ((10 ^ precision : ℕ) : ℚ) * 10 ^ ((w : ℤ) - precision) := by
          rw [zpow_sub₀ (by norm_num), zpow_natCast, zpow_natCast]
          push_cast
          field_simp
        have hhalf : d.value < (((10 ^ precision : ℕ) : ℚ) - 1 / 2) * 10 ^ ((w : ℤ) - precision) := by
          refine (fix_lt_iff hd (by decide) (by decide) le_rfl).mp ?_
          rw [← hpow]
          exact hr
        rw [hpow]
        exact hhalf.trans (half_under _ _)
      · cases h

/-- A number is below a power of ten when the normalized one is. -/
theorem value_lt_of_normalize (hd : 0 ≤ d.coeff) (h : d.normalize = some r)
    (hr : r.value < 10 ^ w) : d.value < 10 ^ w := by
  obtain ⟨r', hfinal, rfl⟩ := Option.map_eq_some_iff.mp h
  refine value_lt_of_finalize hd hfinal ?_
  split at hr
  · next hzero =>
    rw [value, hzero, Int.cast_zero, zero_mul]
    positivity
  · rw [value_dropZeros] at hr
    exact hr

/-- **What the bounds leave**: as many digits before the point as `decimal_places` leaves of
`max_digits`. -/
theorem value_lt_of_fits {m p : ℕ} (hd : 0 ≤ d.coeff) (h : d.fits m p = true) :
    d.value < 10 ^ (m - p) := by
  rw [fits, Bool.and_eq_true, Bool.or_eq_true, decide_eq_true_eq, decide_eq_true_eq] at h
  rcases h.2 with hwhole | hwhole
  · exact value_lt_of_wholeDigits hwhole
  · cases hnormal : d.normalize with
    | none =>
      rw [hnormal] at hwhole
      exact value_lt_of_wholeDigits hwhole
    | some r =>
      rw [hnormal] at hwhole
      exact value_lt_of_normalize hd hnormal (value_lt_of_wholeDigits hwhole)

/-- The zeros of `1.2000` do not count, and neither does what the context rounds away. -/
example : (⟨12000, -4⟩ : Decimal).fits 10 3 = true ∧ (⟨12001, -4⟩ : Decimal).fits 10 3 = false ∧
    (⟨10 ^ 32 + 1, -32⟩ : Decimal).fits 10 3 = true := by decide +kernel

end Bounds

end Decimal

end DecimalArith
