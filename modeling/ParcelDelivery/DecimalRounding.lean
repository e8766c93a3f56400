import ParcelDelivery.DecimalValue

/-!
# Rounding against a bound

Rounding is monotone, so that what it makes of a number is below a bound exactly when the number
is below a point half a unit under it: `roundUnits_lt_iff` for a column, which rounds halves
away from zero, and `fix_lt_iff` for the context precision, which rounds halves to even and
so reaches an even bound from the half.

All numbers here are not negative.
-/

namespace DecimalArith

/-! ## Whole numbers -/

theorem dropHalfUp_lt_iff {m k n : ℕ} : dropHalfUp m k < n ↔ 2 * m + 10 ^ k < 2 * n * 10 ^ k := by
  rw [dropHalfUp, Nat.div_lt_iff_lt_mul (by positivity)]
  have hcomm : n * (2 * 10 ^ k) = 2 * n * 10 ^ k := by ring
  rw [hcomm]

/-- An even bound is reached from the half under it. -/
theorem dropHalfEven_lt_iff {m k n : ℕ} (heven : Even n) :
    dropHalfEven m k < n ↔ 2 * m + 10 ^ k < 2 * n * 10 ^ k := by
  have hpos : 0 < 10 ^ k := Nat.pow_pos (by decide)
  rw [dropHalfEven]
  generalize 10 ^ k = d at hpos
  have hdiv : d * (m / d) + m % d = m := Nat.div_add_mod m d
  have hmod : m % d < d := Nat.mod_lt m hpos
  generalize m / d = q at hdiv
  generalize m % d = r at hdiv hmod
  obtain ⟨a, rfl⟩ := heven
  -- `q + 1 ≤ n` or `n ≤ q`, in units of `d`
  rcases Nat.lt_or_ge q (a + a) with hlt | hge
  · rcases Nat.lt_or_ge (q + 1) (a + a) with hlt' | hge'
    · have hmul : (q + 2) * d ≤ (a + a) * d := Nat.mul_le_mul_right d hlt'
      refine iff_of_true ?_ ?_
      · split <;> omega
      · nlinarith
    · obtain rfl : q = a + a - 1 := by omega
      obtain ⟨b, rfl⟩ : ∃ b, a = b + 1 := ⟨a - 1, by omega⟩
      have hq : b + 1 + (b + 1) - 1 = 2 * b + 1 := by omega
      rw [hq] at hdiv ⊢
      split
      · next hup =>
        refine iff_of_false (by omega) ?_
        have hr : d ≤ 2 * r := by omega
        nlinarith
      · next hdown =>
        refine iff_of_true (by omega) ?_
        have hr : 2 * r < d := by omega
        nlinarith
  · have hmul : (a + a) * d ≤ q * d := Nat.mul_le_mul_right d hge
    refine iff_of_false ?_ (by nlinarith)
    split <;> omega

/-- The number of digits of a rounded number. -/
theorem dropHalfEven_bounds {m k p : ℕ} (hlo : 10 ^ (p + k) ≤ m) (hhi : m < 10 ^ (p + 1 + k)) :
    10 ^ p ≤ dropHalfEven m k ∧ dropHalfEven m k ≤ 10 ^ (p + 1) := by
  have hpos : 0 < 10 ^ k := Nat.pow_pos (by decide)
  have hq : 10 ^ p ≤ m / 10 ^ k := by
    rw [Nat.le_div_iff_mul_le hpos, ← Nat.pow_add]
    exact hlo
  have hq' : m / 10 ^ k < 10 ^ (p + 1) := by
    rw [Nat.div_lt_iff_lt_mul hpos, ← Nat.pow_add]
    exact hhi
  rw [dropHalfEven]
  split <;> omega

/-- Whole numbers of units, against a bound. -/
theorem lt_iff_half {m n : ℤ} : m < n ↔ (m : ℚ) < n - 1 / 2 := by
  refine ⟨?_, ?_⟩
  · intro hlt
    have hle : (m : ℚ) ≤ n - 1 := by exact_mod_cast Int.le_sub_one_of_lt hlt
    linarith
  · intro hlt
    have hlt' : (m : ℚ) < n := by linarith
    exact_mod_cast hlt'

/-- A quotient by `10 ^ k`, against half a unit under a bound. -/
theorem scaled_lt_iff {m k n : ℕ} :
    2 * m + 10 ^ k < 2 * n * 10 ^ k ↔ (m : ℚ) * 10 ^ (-(k : ℤ)) < n - 1 / 2 := by
  have hpos : (0 : ℚ) < 10 ^ k := by positivity
  rw [zpow_neg, zpow_natCast, ← div_eq_mul_inv, div_lt_iff₀ hpos]
  refine ⟨?_, ?_⟩
  · intro hlt
    have hlt' : (2 * m + 10 ^ k : ℚ) < 2 * n * 10 ^ k := by exact_mod_cast hlt
    linarith
  · intro hlt
    have hlt' : (2 * m + 10 ^ k : ℚ) < 2 * n * 10 ^ k := by linarith
    exact_mod_cast hlt'

@[simp] theorem withSign_of_nonneg {z : ℤ} (h : 0 ≤ z) (n : ℕ) : withSign z n = n :=
  if_neg (not_lt.mpr h)

/-- Dropping zeros is exact. -/
theorem dropHalfEven_mul (n k : ℕ) : dropHalfEven (n * 10 ^ k) k = n := by
  have hpos : 0 < 10 ^ k := Nat.pow_pos (by decide)
  simp only [dropHalfEven, Nat.mul_div_cancel n hpos, Nat.mul_mod_left]
  rw [if_neg]
  omega

theorem withSign_mul (z : ℤ) (n m : ℕ) : withSign z (n * m) = withSign z n * m := by
  rw [withSign, withSign]
  split <;> push_cast <;> ring

theorem Decimal.value_nonneg_iff {d : Decimal} : 0 ≤ d.value ↔ 0 ≤ d.coeff := by
  have hpos : (0 : ℚ) < 10 ^ d.exp := by positivity
  rw [value, mul_nonneg_iff_of_pos_right hpos, Int.cast_nonneg_iff]

/-! ## Columns -/

namespace Numeric

variable {d d' : Decimal} {s : ℕ}

theorem roundUnits_nonneg (hd : 0 ≤ d.coeff) : 0 ≤ roundUnits s d := by
  rw [roundUnits]
  split
  · positivity
  · rw [withSign_of_nonneg hd]
    exact Int.natCast_nonneg _

/-- **A stored number is below a bound** exactly when it is below half a unit under it. -/
theorem roundUnits_lt_iff (hd : 0 ≤ d.coeff) {n : ℕ} :
    roundUnits s d < n ↔ d.value * 10 ^ s < n - 1 / 2 := by
  have hten : (10 : ℚ) ≠ 0 := by norm_num
  have hscaled : d.value * 10 ^ s = d.coeff * 10 ^ (d.exp + s) := by
    rw [Decimal.value, zpow_add₀ hten, zpow_natCast, mul_assoc]
  obtain ⟨c, hc⟩ := Int.eq_ofNat_of_zero_le hd
  rw [hscaled, roundUnits]
  split
  · next hexp =>
    obtain ⟨k, hk⟩ := Int.eq_ofNat_of_zero_le hexp
    simp only [hk, Int.toNat_natCast, zpow_natCast, lt_iff_half]
    push_cast
    exact Iff.rfl
  · next hexp =>
    obtain ⟨k, hk⟩ := Int.eq_ofNat_of_zero_le (show 0 ≤ -(d.exp + s) by omega)
    rw [withSign_of_nonneg hd, hk, Int.toNat_natCast, hc, Int.natAbs_natCast,
      show d.exp + s = -(k : ℤ) by omega, Int.ofNat_lt, dropHalfUp_lt_iff, scaled_lt_iff,
      Int.cast_natCast]

/-- Rounding is symmetric. -/
theorem roundUnits_neg (s : ℕ) (c exp : ℤ) : roundUnits s ⟨-c, exp⟩ = -roundUnits s ⟨c, exp⟩ := by
  simp only [roundUnits, Int.natAbs_neg]
  split
  · exact neg_mul _ _
  · rcases lt_trichotomy c 0 with hneg | rfl | hpos
    · rw [withSign_of_nonneg (by omega), withSign, if_pos hneg, neg_neg]
    · have hzero : ∀ k, dropHalfUp 0 k = 0 := fun k => by simpa using dropHalfUp_mul 0 k
      simp [withSign, hzero]
    · rw [withSign_of_nonneg hpos.le, withSign, if_pos (by omega)]

/-- **Rounding is monotone**, for numbers that are not negative. -/
theorem roundUnits_mono_of_nonneg (hd : 0 ≤ d.coeff) (hd' : 0 ≤ d'.coeff)
    (h : d.value ≤ d'.value) : roundUnits s d ≤ roundUnits s d' := by
  obtain ⟨n, hn⟩ := Int.eq_ofNat_of_zero_le (roundUnits_nonneg (s := s) hd')
  have hbelow : d'.value * 10 ^ s < (n + 1 : ℕ) - 1 / 2 := by
    rw [← roundUnits_lt_iff hd', hn]
    omega
  have hle : d.value * 10 ^ s ≤ d'.value * 10 ^ s := mul_le_mul_of_nonneg_right h (by positivity)
  have hlt := (roundUnits_lt_iff hd).mpr (hle.trans_lt hbelow)
  rw [hn]
  omega

/-- Rounding is monotone. -/
theorem roundUnits_mono (h : d.value ≤ d'.value) : roundUnits s d ≤ roundUnits s d' := by
  have hvalue : ∀ d : Decimal, (⟨-d.coeff, d.exp⟩ : Decimal).value = -d.value := by
    intro d
    simp [Decimal.value]
  have hneg : ∀ d : Decimal, roundUnits s d = -roundUnits s ⟨-d.coeff, d.exp⟩ := by
    intro d
    rw [roundUnits_neg, neg_neg]
  rcases le_or_gt 0 d.coeff with hd | hd
  · have hd' : 0 ≤ d'.coeff :=
      Decimal.value_nonneg_iff.mp ((Decimal.value_nonneg_iff.mpr hd).trans h)
    exact roundUnits_mono_of_nonneg hd hd' h
  · rcases le_or_gt 0 d'.coeff with hd' | hd'
    · have hround := roundUnits_nonneg (s := s) (d := ⟨-d.coeff, d.exp⟩) (by dsimp only; omega)
      have hround' := roundUnits_nonneg (s := s) hd'
      rw [hneg d]
      omega
    · rw [hneg d, hneg d', neg_le_neg_iff]
      refine roundUnits_mono_of_nonneg (by dsimp only; omega) (by dsimp only; omega) ?_
      rw [hvalue, hvalue]
      exact neg_le_neg h

end Numeric

/-! ## The context precision -/

namespace Decimal

variable {d : Decimal}

theorem natAbs_lt_pow_digitCount (z : ℤ) : z.natAbs < 10 ^ digitCount z.natAbs :=
  Nat.lt_pow_succ_log_self (by decide) _

/-- A coefficient of at most 28 digits stays. -/
theorem fix_of_digits (h : d.coeff.natAbs < 10 ^ precision) : d.fix = d := by
  have hcount : digitCount d.coeff.natAbs ≤ precision :=
    Nat.log_lt_of_lt_pow' (by decide) h
  rw [fix, Nat.sub_eq_zero_of_le hcount]
  exact if_pos rfl

theorem mul_eq (a b : Decimal) : a * b = fix ⟨a.coeff * b.coeff, a.exp + b.exp⟩ := rfl

/-- The number can be written with at most `n` digits and zeros after them. -/
def Significant (n : ℕ) (d : Decimal) : Prop :=
  ∃ (c : ℤ) (k : ℕ), d.coeff = c * 10 ^ k ∧ c.natAbs < 10 ^ n

/-- **A number of at most 28 significant digits keeps its value**, however many zeros its
coefficient ends in. -/
theorem value_fix_of_significant (h : d.Significant precision) : d.fix.value = d.value := by
  obtain ⟨c, k, hcoeff, hc⟩ := h
  have habs : d.coeff.natAbs = c.natAbs * 10 ^ k := by
    rw [hcoeff, Int.natAbs_mul, Int.natAbs_pow]
    rfl
  by_cases hshort : d.coeff.natAbs < 10 ^ precision
  · rw [fix_of_digits hshort]
  -- only zeros are rounded off
  · have hcount : digitCount d.coeff.natAbs ≤ precision + k := by
      refine Nat.log_lt_of_lt_pow' (by simp [precision]) ?_
      rw [habs, Nat.pow_add]
      exact Nat.mul_lt_mul_of_pos_right hc (Nat.pow_pos (by decide))
    have hlong : precision < digitCount d.coeff.natAbs := by
      by_contra hle
      have hlt := natAbs_lt_pow_digitCount d.coeff
      exact hshort (hlt.trans_le (Nat.pow_le_pow_right (by decide) (not_lt.mp hle)))
    obtain ⟨j, hj⟩ : ∃ j, digitCount d.coeff.natAbs = precision + j :=
      ⟨digitCount d.coeff.natAbs - precision, by omega⟩
    obtain ⟨i, rfl⟩ : ∃ i, k = i + j := ⟨k - j, by omega⟩
    have hzeros : d.coeff.natAbs = c.natAbs * 10 ^ i * 10 ^ j := by
      rw [habs, Nat.pow_add, Nat.mul_assoc]
    have hdigits : digitCount (c.natAbs * 10 ^ i) ≤ precision := by
      refine Nat.log_lt_of_lt_pow' (by decide) ?_
      have hlt := natAbs_lt_pow_digitCount d.coeff
      rw [hj, hzeros, Nat.pow_add] at hlt
      exact Nat.lt_of_mul_lt_mul_right hlt
    have hj0 : j ≠ 0 := by omega
    simp only [fix, hj, Nat.add_sub_cancel_left, hj0, if_false]
    simp only [hzeros, dropHalfEven_mul, hdigits, if_true]
    have hsign : withSign d.coeff (c.natAbs * 10 ^ i) * (10 ^ j : ℕ) = d.coeff := by
      rw [← withSign_mul, ← hzeros, withSign_natAbs]
    rw [value, value, zpow_add₀ (by norm_num), zpow_natCast]
    conv_rhs => rw [← hsign]
    push_cast
    ring

/-- A product of at most 28 digits is exact. -/
theorem mul_of_digits {a b : Decimal} (h : (a.coeff * b.coeff).natAbs < 10 ^ precision) :
    a * b = ⟨a.coeff * b.coeff, a.exp + b.exp⟩ :=
  (mul_eq a b).trans (fix_of_digits h)

theorem coeffAt_self (c exp : ℤ) : (⟨c, exp⟩ : Decimal).coeffAt (min exp exp) = c := by
  simp only [coeffAt, min_self, sub_self, Int.toNat_zero, pow_zero, mul_one]

/-- A sum of two numbers with one exponent, of at most 28 digits, is exact. -/
theorem add_of_digits {c c' exp : ℤ} (h : (c + c').natAbs < 10 ^ precision) :
    (⟨c, exp⟩ : Decimal) + ⟨c', exp⟩ = ⟨c + c', exp⟩ := by
  have hsum : (⟨c, exp⟩ : Decimal) + ⟨c', exp⟩ = fix ⟨(⟨c, exp⟩ : Decimal).coeffAt (min exp exp) +
      (⟨c', exp⟩ : Decimal).coeffAt (min exp exp), min exp exp⟩ := rfl
  rw [hsum, coeffAt_self, coeffAt_self, min_self]
  exact fix_of_digits h

/-- The product before the context rounds it. -/
def exactMul (a b : Decimal) : Decimal := ⟨a.coeff * b.coeff, a.exp + b.exp⟩

/-- The sum before the context rounds it. -/
def exactAdd (a b : Decimal) : Decimal :=
  let exp := min a.exp b.exp
  ⟨a.coeffAt exp + b.coeffAt exp, exp⟩

theorem fix_exactMul (a b : Decimal) : (exactMul a b).fix = a * b := rfl

theorem fix_exactAdd (a b : Decimal) : (exactAdd a b).fix = a + b := rfl

theorem value_exactMul (a b : Decimal) : (exactMul a b).value = a.value * b.value := by
  simp only [exactMul, value, zpow_add₀ (show (10 : ℚ) ≠ 0 by norm_num)]
  push_cast
  ring

/-- A product that needs at most 28 digits is exact. -/
theorem value_mul_of_significant {a b : Decimal} (h : (exactMul a b).Significant precision) :
    (a * b).value = a.value * b.value := by
  rw [← fix_exactMul, value_fix_of_significant h, value_exactMul]

theorem significant_of_digits (h : d.coeff.natAbs < 10 ^ precision) : d.Significant precision :=
  ⟨d.coeff, 0, by rw [pow_zero, mul_one], h⟩

/-- A longer coefficient: as many digits are rounded off as it has too many. -/
theorem fix_of_long {c : ℕ} (hc : d.coeff = c) {k : ℕ} (hk : 0 < k)
    (hlo : 10 ^ (precision - 1 + k) ≤ c) (hhi : c < 10 ^ (precision + k)) :
    d.fix.value = dropHalfEven c k * 10 ^ (d.exp + k) := by
  have hcount : digitCount c = precision + k := by
    have hlog : Nat.log 10 c = precision - 1 + k :=
      Nat.log_eq_of_pow_le_of_lt_pow hlo (by
        rw [show precision - 1 + k + 1 = precision + k by rw [precision]; omega]
        exact hhi)
    rw [digitCount, hlog, precision]
    omega
  obtain ⟨-, hle⟩ := dropHalfEven_bounds (m := c) (k := k) (p := precision - 1) hlo hhi
  simp only [fix, hc, Int.natAbs_natCast, hcount, Nat.add_sub_cancel_left]
  simp only [Nat.ne_of_gt hk, if_false, withSign_of_nonneg (Int.natCast_nonneg c)]
  split
  · rw [value, Int.cast_natCast]
  · next hdigits =>
    -- the carry has made one digit more: a power of ten
    have heq : dropHalfEven c k = 10 ^ precision := by
      refine Nat.le_antisymm hle ?_
      by_contra hlt
      exact hdigits (Nat.log_lt_of_lt_pow' (by decide) (not_le.mp hlt))
    rw [value, heq, zpow_add_one₀ (by norm_num), precision]
    push_cast
    ring

theorem fix_nonneg (hd : 0 ≤ d.coeff) : 0 ≤ d.fix.coeff := by
  rw [fix]
  split
  · exact hd
  · simp only [withSign_of_nonneg hd]
    split
    · exact Int.natCast_nonneg _
    · exact Int.natCast_nonneg _

/-! ### Bounds of 28 digits -/

theorem precision_step (i : ℤ) :
    (10 : ℚ) ^ (precision - 1) * 10 ^ (i + 1) = 10 ^ precision * 10 ^ i := by
  rw [zpow_add_one₀ (by norm_num), precision]
  ring

/-- Half a unit of the last digit under a bound. -/
theorem half_under (n : ℕ) (j : ℤ) : ((n : ℚ) - 1 / 2) * 10 ^ j < n * 10 ^ j :=
  mul_lt_mul_of_pos_right (by linarith) (by positivity)

/-- What has 28 digits in smaller units is below the bound. -/
theorem lt_bound {n : ℕ} {e j : ℤ} (hlo : 10 ^ (precision - 1) < n) (he : e < j) :
    (10 : ℚ) ^ precision * 10 ^ e < (n - 1 / 2) * 10 ^ j := by
  have hn : (10 : ℚ) ^ (precision - 1) + 1 ≤ n := by exact_mod_cast hlo
  have hexp : (10 : ℚ) ^ e ≤ 10 ^ (j - 1) := zpow_le_zpow_right₀ (by norm_num) (by omega)
  calc (10 : ℚ) ^ precision * 10 ^ e ≤ 10 ^ precision * 10 ^ (j - 1) :=
        mul_le_mul_of_nonneg_left hexp (by positivity)
    _ = 10 ^ (precision - 1) * 10 ^ j := by rw [← precision_step, sub_add_cancel]
    _ < (n - 1 / 2) * 10 ^ j := mul_lt_mul_of_pos_right (by linarith) (by positivity)

/-- What has 28 digits in larger units is not. -/
theorem bound_le {n : ℕ} {e j : ℤ} (hhi : n ≤ 10 ^ precision) (he : j < e) :
    (n : ℚ) * 10 ^ j ≤ 10 ^ (precision - 1) * 10 ^ e := by
  have hn : (n : ℚ) ≤ 10 ^ precision := by exact_mod_cast hhi
  have hexp : (10 : ℚ) ^ (j + 1) ≤ 10 ^ e := zpow_le_zpow_right₀ (by norm_num) (by omega)
  calc (n : ℚ) * 10 ^ j ≤ 10 ^ precision * 10 ^ j := mul_le_mul_of_nonneg_right hn (by positivity)
    _ = 10 ^ (precision - 1) * 10 ^ (j + 1) := (precision_step j).symm
    _ ≤ 10 ^ (precision - 1) * 10 ^ e := mul_le_mul_of_nonneg_left hexp (by positivity)

/-- A number with at most 28 digits against a bound that has 28: both sides of `fix_lt_iff`. -/
theorem short_lt_iff {c n : ℕ} {e j : ℤ} (hc : c < 10 ^ precision)
    (hlo : 10 ^ (precision - 1) < n) :
    (c : ℚ) * 10 ^ e < n * 10 ^ j ↔ (c : ℚ) * 10 ^ e < (n - 1 / 2) * 10 ^ j := by
  have hpos : (0 : ℚ) < 10 ^ j := by positivity
  by_cases he : j ≤ e
  · -- a whole number of units of the bound
    obtain ⟨k, hk⟩ := Int.eq_ofNat_of_zero_le (show 0 ≤ e - j by omega)
    have hunits : (c : ℚ) * 10 ^ e = ((c * 10 ^ k : ℕ) : ℤ) * 10 ^ j := by
      rw [show e = k + j by omega, zpow_add₀ (by norm_num), zpow_natCast]
      push_cast
      ring
    rw [hunits, mul_lt_mul_iff_left₀ hpos, mul_lt_mul_iff_left₀ hpos]
    exact_mod_cast lt_iff_half (m := (c * 10 ^ k : ℕ)) (n := n)
  · -- far below the bound
    have hc' : (c : ℚ) < 10 ^ precision := by exact_mod_cast hc
    have hlt : (c : ℚ) * 10 ^ e < (n - 1 / 2) * 10 ^ j :=
      (mul_lt_mul_of_pos_right hc' (by positivity)).trans (lt_bound hlo (not_le.mp he))
    exact iff_of_true (hlt.trans (half_under n j)) hlt

/-- A longer coefficient has `k` digits too many. -/
theorem exists_digits {c : ℕ} (hlong : ¬ c < 10 ^ precision) :
    ∃ k, 0 < k ∧ 10 ^ (precision - 1 + k) ≤ c ∧ c < 10 ^ (precision + k) := by
  have hne : c ≠ 0 := fun h => hlong (by rw [h]; positivity)
  have hlog : precision ≤ Nat.log 10 c := Nat.le_log_of_pow_le (by decide) (not_lt.mp hlong)
  refine ⟨Nat.log 10 c + 1 - precision, by omega, ?_, ?_⟩
  · rw [show precision - 1 + (Nat.log 10 c + 1 - precision) = Nat.log 10 c by
      rw [precision] at hlog ⊢; omega]
    exact Nat.pow_log_le_self 10 hne
  · rw [show precision + (Nat.log 10 c + 1 - precision) = Nat.log 10 c + 1 by omega]
    exact Nat.lt_pow_succ_log_self (by decide) c

/-- A coefficient with `k` digits too many, rounded, against the bound. -/
theorem long_lt_iff {c k n : ℕ} {e j : ℤ} (hclo : 10 ^ (precision - 1 + k) ≤ c)
    (hchi : c < 10 ^ (precision + k)) (heven : Even n) (hlo : 10 ^ (precision - 1) < n)
    (hhi : n ≤ 10 ^ precision) :
    (dropHalfEven c k : ℚ) * 10 ^ (e + k) < n * 10 ^ j ↔
      (c : ℚ) * 10 ^ e < (n - 1 / 2) * 10 ^ j := by
  have hten : (10 : ℚ) ≠ 0 := by norm_num
  have hpos : (0 : ℚ) < 10 ^ j := by positivity
  obtain ⟨hrlo, hrhi⟩ := dropHalfEven_bounds (m := c) (k := k) (p := precision - 1) hclo hchi
  have hscale : ∀ p : ℕ, (10 : ℚ) ^ (p + k) * 10 ^ e = 10 ^ p * 10 ^ (e + k) := by
    intro p
    rw [zpow_add₀ hten, zpow_natCast, pow_add]
    ring
  rcases lt_trichotomy (e + k) j with hlt | heq | hgt
  · -- both are below the bound
    have hr : (dropHalfEven c k : ℚ) ≤ 10 ^ precision := by exact_mod_cast hrhi
    have hc : (c : ℚ) < 10 ^ (precision + k) := by exact_mod_cast hchi
    have hvalue : (c : ℚ) * 10 ^ e < 10 ^ precision * 10 ^ (e + k) := by
      rw [← hscale]
      exact mul_lt_mul_of_pos_right hc (by positivity)
    refine iff_of_true ?_ (hvalue.trans (lt_bound hlo hlt))
    exact (mul_le_mul_of_nonneg_right hr (by positivity)).trans_lt
      ((lt_bound hlo hlt).trans (half_under n j))
  · -- the units of the bound
    rw [heq, mul_lt_mul_iff_left₀ hpos, Nat.cast_lt, dropHalfEven_lt_iff heven, scaled_lt_iff,
      ← mul_lt_mul_iff_left₀ hpos, mul_assoc, ← zpow_add₀ hten, show -(k : ℤ) + j = e by omega]
  · -- neither is
    have hr : (10 : ℚ) ^ (precision - 1) ≤ dropHalfEven c k := by exact_mod_cast hrlo
    have hc : (10 : ℚ) ^ (precision - 1 + k) ≤ c := by exact_mod_cast hclo
    have hvalue : (10 : ℚ) ^ (precision - 1) * 10 ^ (e + k) ≤ c * 10 ^ e := by
      rw [← hscale]
      exact mul_le_mul_of_nonneg_right hc (by positivity)
    refine iff_of_false (not_lt.mpr ?_) (not_lt.mpr ?_)
    · exact (bound_le hhi hgt).trans (mul_le_mul_of_nonneg_right hr (by positivity))
    · exact (half_under n j).le.trans ((bound_le hhi hgt).trans hvalue)

/-- **A rounded number is below an even bound** of 28 digits exactly when the number is below half a
unit of the last digit under it. -/
theorem fix_lt_iff (hd : 0 ≤ d.coeff) {n : ℕ} {j : ℤ} (heven : Even n)
    (hlo : 10 ^ (precision - 1) < n) (hhi : n ≤ 10 ^ precision) :
    d.fix.value < n * 10 ^ j ↔ d.value < (n - 1 / 2) * 10 ^ j := by
  obtain ⟨c, hc⟩ := Int.eq_ofNat_of_zero_le hd
  have hvalue : d.value = c * 10 ^ d.exp := by rw [value, hc, Int.cast_natCast]
  by_cases hshort : c < 10 ^ precision
  · rw [fix_of_digits (by rw [hc, Int.natAbs_natCast]; exact hshort), hvalue]
    exact short_lt_iff hshort hlo
  · obtain ⟨k, hk, hclo, hchi⟩ := exists_digits hshort
    rw [fix_of_long hc hk hclo hchi, hvalue]
    exact long_lt_iff hclo hchi heven hlo hhi

end Decimal

end DecimalArith
