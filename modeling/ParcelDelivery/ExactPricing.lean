import ParcelDelivery.PriceRange
import ParcelDelivery.DecimalDigits

/-!
# Exact prices

With the default coefficients `_formula` never needs more digits than the context keeps, as long
as the rate has at most 15 of them: the two products and their sum have 13 digits, and the price
has 28. So the price is the exact number, and what is stored of it grows with the weight, the
declared value and the rate.
-/

namespace ParcelDelivery

open Relational DecimalArith

/-- The results of the operations of `_formula` before the context rounds them, in their order. -/
def formulaResults (cfg : DeliverySettings) (weight declared rate : Decimal) : List Decimal :=
  [weight.exactMul cfg.weightCoeff,
    declared.exactMul cfg.valueCoeff,
    (weight * cfg.weightCoeff).exactAdd (declared * cfg.valueCoeff),
    (weight * cfg.weightCoeff + declared * cfg.valueCoeff).exactMul rate]

/-- Rounded to the context, they are what `_formula` computes with, and its price. -/
theorem fix_formulaResults (cfg : DeliverySettings) (weight declared rate : Decimal) :
    (formulaResults cfg weight declared rate).map Decimal.fix =
      [weight * cfg.weightCoeff, declared * cfg.valueCoeff,
        weight * cfg.weightCoeff + declared * cfg.valueCoeff,
        formula cfg weight declared rate] := by
  simp only [formulaResults, List.map_cons, List.map_nil, Decimal.fix_exactMul,
    Decimal.fix_exactAdd, formula]

/-- `_formula` with the default coefficients, on two column values. -/
abbrev columnPrice (weight : Numeric 10 3) (declared : Numeric 12 2) (rate : Decimal) : Decimal :=
  formula .default weight.toDecimal declared.toDecimal rate

/-- `0.5 * weight + 0.01 * value`, as the exact number. -/
def exactBase (weight : Numeric 10 3) (declared : Numeric 12 2) : ℚ :=
  1 / 2 * weight.toDecimal.value + 1 / 100 * declared.toDecimal.value

section Exact

variable {weight weight' : Numeric 10 3} {declared declared' : Numeric 12 2} {rate rate' : Decimal}

/-- The number of units of the base, of 13 digits. -/
theorem base_units_le (weight : Numeric 10 3) (declared : Numeric 12 2) :
    (weight.units * 5 + declared.units).natAbs ≤ 10 ^ 13 := by
  have hweight := weight.inRange
  have hvalue := declared.inRange
  omega

theorem exactBase_eq (weight : Numeric 10 3) (declared : Numeric 12 2) :
    exactBase weight declared = (weight.units * 5 + declared.units : ℤ) / 10 ^ 4 := by
  simp only [exactBase, Numeric.value_toDecimal]
  push_cast
  ring

/-- Thirteen digits times fifteen. -/
theorem significant_product (hdigits : rate.Significant 15) :
    (Decimal.exactMul ⟨weight.units * 5 + declared.units, -4⟩ rate).Significant precision := by
  obtain ⟨c, k, hcoeff, hc⟩ := hdigits
  refine ⟨(weight.units * 5 + declared.units) * c, k, ?_, ?_⟩
  · change (weight.units * 5 + declared.units) * rate.coeff = _
    rw [hcoeff, mul_assoc]
  · rw [Int.natAbs_mul]
    calc (weight.units * 5 + declared.units).natAbs * c.natAbs ≤ 10 ^ 13 * c.natAbs :=
          Nat.mul_le_mul_right _ (base_units_le weight declared)
      _ < 10 ^ 13 * 10 ^ 15 := Nat.mul_lt_mul_of_pos_left hc (by decide)
      _ = 10 ^ precision := by rw [← Nat.pow_add, precision]

/-- **Twenty-eight digits are enough** for every result of `_formula`. -/
theorem formula_digits (weight : Numeric 10 3) (declared : Numeric 12 2)
    (hdigits : rate.Significant 15) :
    ∀ d ∈ formulaResults .default weight.toDecimal declared.toDecimal rate,
      d.Significant precision := by
  have hweight := weight.inRange
  have hvalue := declared.inRange
  have hbase := base_units_le weight declared
  simp only [formulaResults, List.forall_mem_cons, formula_sum]
  refine ⟨?_, ?_, ?_, significant_product hdigits, fun d hd => absurd hd List.not_mem_nil⟩
  · refine Decimal.significant_of_digits ?_
    change (weight.units * 5).natAbs < 10 ^ 28
    omega
  · refine Decimal.significant_of_digits ?_
    change (declared.units * 1).natAbs < 10 ^ 28
    omega
  · refine Decimal.significant_of_digits ?_
    rw [formula_weight, formula_value, Decimal.exactAdd, Decimal.coeffAt_self,
      Decimal.coeffAt_self]
    change (weight.units * 5 + declared.units).natAbs < 10 ^ 28
    omega

/-- Within `Emin` and `Emax` of the default context; zero always is. -/
def InContext (d : Decimal) : Prop :=
  d.coeff = 0 ∨ -Decimal.eMax ≤ d.adjusted ∧ d.adjusted ≤ Decimal.eMax

theorem inContext_of_digits {d : Decimal} (hexp : d.exp = -4) (h : d.coeff.natAbs ≤ 10 ^ 13) :
    InContext d := by
  have hlog : Nat.log 10 d.coeff.natAbs ≤ 13 := by
    rw [← Nat.log_pow (show 1 < 10 by decide) 13]
    exact Nat.log_mono_right h
  refine Or.inr ⟨?_, ?_⟩ <;> rw [Decimal.adjusted, Decimal.eMax, hexp] <;> omega

/-- **The exponents stay in the context** as well, for every rate whose exponent is not at its very
limits; those of JSON numbers are far from them. -/
theorem formula_inContext (weight : Numeric 10 3) (declared : Numeric 12 2)
    (hlo : -999995 ≤ rate.adjusted) (hhi : rate.adjusted ≤ 999990) :
    ∀ d ∈ formulaResults .default weight.toDecimal declared.toDecimal rate, InContext d := by
  have hweight := weight.inRange
  have hvalue := declared.inRange
  have hbase := base_units_le weight declared
  simp only [formulaResults, List.forall_mem_cons, formula_sum]
  refine ⟨inContext_of_digits rfl ?_, inContext_of_digits rfl ?_, ?_, ?_,
    fun d hd => absurd hd List.not_mem_nil⟩
  · change (weight.units * 5).natAbs ≤ _
    omega
  · change (declared.units * 1).natAbs ≤ _
    omega
  · rw [formula_weight, formula_value, Decimal.exactAdd, Decimal.coeffAt_self,
      Decimal.coeffAt_self]
    exact inContext_of_digits (min_self _) hbase
  · by_cases hzero : (weight.units * 5 + declared.units) * rate.coeff = 0
    · exact Or.inl hzero
    obtain ⟨hunits, hcoeff⟩ := mul_ne_zero_iff.mp hzero
    -- the product has the digits of the rate and at most 13 more
    have hmore : Nat.log 10 rate.coeff.natAbs ≤
        Nat.log 10 ((weight.units * 5 + declared.units) * rate.coeff).natAbs := by
      apply Nat.log_mono_right
      rw [Int.natAbs_mul]
      exact Nat.le_mul_of_pos_left _ (Int.natAbs_pos.mpr hunits)
    have hless : Nat.log 10 ((weight.units * 5 + declared.units) * rate.coeff).natAbs ≤
        13 + Nat.log 10 rate.coeff.natAbs := by
      refine Nat.le_of_lt_succ (Nat.log_lt_of_lt_pow (Int.natAbs_ne_zero.mpr hzero) ?_)
      rw [Int.natAbs_mul]
      calc (weight.units * 5 + declared.units).natAbs * rate.coeff.natAbs ≤
            10 ^ 13 * rate.coeff.natAbs := Nat.mul_le_mul_right _ hbase
        _ < 10 ^ 13 * 10 ^ (Nat.log 10 rate.coeff.natAbs + 1) :=
            Nat.mul_lt_mul_of_pos_left (Nat.lt_pow_succ_log_self (by decide) _) (by decide)
        _ = 10 ^ (13 + Nat.log 10 rate.coeff.natAbs + 1) := by rw [← Nat.pow_add, Nat.add_assoc]
    have hadjusted : (Decimal.exactMul ⟨weight.units * 5 + declared.units, -4⟩ rate).adjusted =
        -4 + rate.exp + Nat.log 10 ((weight.units * 5 + declared.units) * rate.coeff).natAbs := rfl
    rw [Decimal.adjusted] at hlo hhi
    rw [InContext, hadjusted, Decimal.eMax]
    exact Or.inr ⟨by omega, by omega⟩

/-- **The price is exact.** -/
theorem value_columnPrice (weight : Numeric 10 3) (declared : Numeric 12 2)
    (hdigits : rate.Significant 15) :
    (columnPrice weight declared rate).value = exactBase weight declared * rate.value := by
  have hbase : (⟨weight.units * 5 + declared.units, -4⟩ : Decimal).value =
      exactBase weight declared := by
    rw [exactBase_eq, Decimal.value, zpow_neg, zpow_ofNat, div_eq_mul_inv]
  change ((_ + _) * rate).value = _
  rw [formula_sum, Decimal.value_mul_of_significant (significant_product hdigits), hbase]

/-! ## Order -/

theorem exactBase_mono (hweight : weight.units ≤ weight'.units)
    (hvalue : declared.units ≤ declared'.units) :
    exactBase weight declared ≤ exactBase weight' declared' := by
  rw [exactBase_eq, exactBase_eq]
  have hle : weight.units * 5 + declared.units ≤ weight'.units * 5 + declared'.units := by omega
  have hcast : ((weight.units * 5 + declared.units : ℤ) : ℚ) ≤
      (weight'.units * 5 + declared'.units : ℤ) := by exact_mod_cast hle
  exact div_le_div_of_nonneg_right hcast (by norm_num)

/-- The exact price grows with all three, where the base is not negative or the rate is the
same. -/
theorem exactPrice_mono (hpos : 0 < rate.value) (hweight : weight.units ≤ weight'.units)
    (hvalue : declared.units ≤ declared'.units) (hrate : rate.value ≤ rate'.value)
    (hbase : rate.value = rate'.value ∨ 0 ≤ exactBase weight declared) :
    exactBase weight declared * rate.value ≤ exactBase weight' declared' * rate'.value := by
  have hmono := exactBase_mono hweight hvalue
  rcases hbase with heq | hnonneg
  · rw [← heq]
    exact mul_le_mul_of_nonneg_right hmono hpos.le
  · exact mul_le_mul hmono hrate hpos.le (hnonneg.trans hmono)

/-- What a stored amount of money is rounded to. -/
theorem units_of_store {d : Decimal} {cost : Money} (h : Money.store d = some cost) :
    Numeric.roundUnits 2 d = cost.1.units := by
  obtain ⟨stored, hstored, h⟩ := Option.bind_eq_some_iff.mp h
  split at h
  · cases h
    rw [Numeric.ofDecimal] at hstored
    split at hstored
    · cases hstored
      rfl
    · cases hstored
  · cases h

/-- A price that is stored although the exact number is negative is zero. -/
theorem roundUnits_nonpos {d : Decimal} (h : d.value ≤ 0) : Numeric.roundUnits 2 d ≤ 0 := by
  have hzero : Numeric.roundUnits 2 ⟨0, 0⟩ = 0 := by decide
  rw [← hzero]
  apply Numeric.roundUnits_mono
  rw [show (⟨0, 0⟩ : Decimal).value = 0 by simp [Decimal.value]]
  exact h

end Exact

/-- The price of two column values at a rate needs no more digits than the context keeps, and is
the exact number. -/
structure PriceExact (weight : Numeric 10 3) (declared : Numeric 12 2) (rate : Decimal) :
    Prop where
  digits : ∀ d ∈ formulaResults .default weight.toDecimal declared.toDecimal rate,
    d.Significant precision
  exact : (columnPrice weight declared rate).value =
    (1 / 2 * weight.toDecimal.value + 1 / 100 * declared.toDecimal.value) * rate.value

/-- The price does not fall when the weight, the value and the rate grow: neither the rounded one,
where nothing is negative or the rate stays, nor any that is stored. -/
structure PriceMonotone (weight weight' : Numeric 10 3) (declared declared' : Numeric 12 2)
    (rate rate' : Decimal) : Prop where
  rounded : rate.value = rate'.value ∨ 0 ≤ weight.units ∧ 0 ≤ declared.units →
    Numeric.roundUnits 2 (columnPrice weight declared rate) ≤
      Numeric.roundUnits 2 (columnPrice weight' declared' rate')
  stored : ∀ cost cost', Money.store (columnPrice weight declared rate) = some cost →
    Money.store (columnPrice weight' declared' rate') = some cost' → cost.1.units ≤ cost'.1.units

end ParcelDelivery
