import ParcelDelivery.PricingSteps
import ParcelDelivery.DecimalRounding

/-!
# Prices and the range of their column

`_formula` multiplies two columns by a rate from outside, and `delivery_cost_rub` has no more
digits than `declared_value_usd`. With the default coefficients everything before the
multiplication by the rate is exact (`formula_default`); the product is rounded to the
context precision, and then to the column's two decimals. `price_in_range_iff` tells for
which parcels and rates the result is in range, and `all_prices_in_range_iff` for
which rates it is whatever the parcel.
-/

namespace ParcelDelivery

open Relational DecimalArith

/-! ## The formula -/

/-- The cost before the multiplication by the rate, in units of `0.0001`. -/
def Parcel.baseUnits (p : Parcel) : ℤ := p.weightKg.1.units * 5 + p.declaredValueUsd.1.units

theorem Parcel.baseUnits_nonneg (p : Parcel) : 0 ≤ p.baseUnits := by
  have hweight := p.weightKg.2
  have hvalue := p.declaredValueUsd.2
  rw [baseUnits]
  omega

/-- What the coefficients weigh and value a parcel at: `0.5 * weight_kg + 0.01 * declared_value_usd`,
as the exact number. -/
def Parcel.baseCost (p : Parcel) : ℚ :=
  1 / 2 * p.weightKg.1.toDecimal.value + 1 / 100 * p.declaredValueUsd.1.toDecimal.value

theorem Parcel.baseCost_eq (p : Parcel) : p.baseCost = p.baseUnits / 10 ^ 4 := by
  simp only [baseCost, Numeric.value_toDecimal, baseUnits]
  push_cast
  ring

theorem formula_weight (weight : Numeric 10 3) :
    weight.toDecimal * DeliverySettings.default.weightCoeff = ⟨weight.units * 5, -4⟩ := by
  have hweight := weight.inRange
  refine Decimal.mul_of_digits ?_
  change (weight.units * 5).natAbs < 10 ^ 28
  omega

theorem formula_value (declared : Numeric 12 2) :
    declared.toDecimal * DeliverySettings.default.valueCoeff = ⟨declared.units, -4⟩ := by
  have hvalue := declared.inRange
  rw [← mul_one declared.units]
  refine Decimal.mul_of_digits ?_
  change (declared.units * 1).natAbs < 10 ^ 28
  omega

/-- The sum of `_formula`, in units of `0.0001`, is exact. -/
theorem formula_sum (weight : Numeric 10 3) (declared : Numeric 12 2) :
    weight.toDecimal * DeliverySettings.default.weightCoeff +
        declared.toDecimal * DeliverySettings.default.valueCoeff =
      ⟨weight.units * 5 + declared.units, -4⟩ := by
  have hweight := weight.inRange
  have hvalue := declared.inRange
  rw [formula_weight, formula_value]
  refine Decimal.add_of_digits ?_
  change (weight.units * 5 + declared.units).natAbs < 10 ^ 28
  omega

/-- **The formula rounds once**, when it multiplies by the rate. -/
theorem formula_default (p : Parcel) (rate : Decimal) :
    formula .default p.weightKg.1.toDecimal p.declaredValueUsd.1.toDecimal rate =
      Decimal.fix ⟨p.baseUnits * rate.coeff, -4 + rate.exp⟩ := by
  change (_ + _) * rate = _
  rw [formula_sum]
  exact Decimal.mul_eq _ _

/-! ## The range -/

/-- The cost of a parcel at a rate before it is stored, with the default coefficients. -/
def Parcel.rawCost (rate : Decimal) (p : Parcel) : Decimal :=
  formula .default p.weightKg.1.toDecimal p.declaredValueUsd.1.toDecimal rate

/-- The least exact cost that is out of range: half a unit of the 28th digit under the half unit
under `10 ^ 10`. -/
def costBound : ℚ := 9999999999.9949999999999999995

/-- A parcel can be priced at a rate: the rounded cost is in the range of `delivery_cost_rub` and
satisfies its `CHECK`, and no batch is refused on its account. -/
structure Parcel.Priceable (rate : Decimal) (p : Parcel) : Prop where
  inRange : (Numeric.roundUnits 2 (p.rawCost rate)).natAbs < 10 ^ 12
  check : 0 ≤ Numeric.roundUnits 2 (p.rawCost rate)
  commits : ∀ (batch : List Parcel) (parcels : Table Parcel),
    (∀ q ∈ batch, q ≠ p → ∃ cost, q.cost .default rate = some cost) →
      (commitBatch .default rate batch parcels).isSome = true

section Range

variable {p : Parcel} {rate : Decimal}

theorem Money.store_of_units {d : Decimal} (hrange : (Numeric.roundUnits 2 d).natAbs < 10 ^ 12)
    (hcheck : 0 ≤ Numeric.roundUnits 2 d) : ∃ cost, Money.store d = some cost := by
  refine ⟨⟨⟨Numeric.roundUnits 2 d, hrange⟩, hcheck⟩, ?_⟩
  rw [Money.store, Numeric.ofDecimal, dif_pos hrange]
  exact dif_pos hcheck

/-- The range and the `CHECK` are all that a batch can be refused for. -/
theorem priceable_of_units (hrange : (Numeric.roundUnits 2 (p.rawCost rate)).natAbs < 10 ^ 12)
    (hcheck : 0 ≤ Numeric.roundUnits 2 (p.rawCost rate)) : p.Priceable rate := by
  refine ⟨hrange, hcheck, fun batch parcels hothers => ?_⟩
  have hfit : ∀ q ∈ batch, ∃ cost, q.cost .default rate = some cost := by
    intro q hq
    by_cases hqp : q = p
    · rw [hqp]
      exact Money.store_of_units hrange hcheck
    · exact hothers q hq hqp
  obtain ⟨costs, hcosts⟩ := batchCosts_of_fit hfit
  rw [commitBatch, hcosts]
  rfl

theorem rawCost_nonneg (hrate : 0 ≤ rate.value) : 0 ≤ (p.rawCost rate).coeff := by
  rw [Parcel.rawCost, formula_default]
  refine Decimal.fix_nonneg ?_
  exact mul_nonneg p.baseUnits_nonneg (Decimal.value_nonneg_iff.mp hrate)

/-- **The range of a cost**, in terms of the exact product. -/
theorem rawCost_in_range_iff (hrate : 0 ≤ rate.value) :
    (Numeric.roundUnits 2 (p.rawCost rate)).natAbs < 10 ^ 12 ↔
      p.baseCost * rate.value < costBound := by
  have hnonneg := rawCost_nonneg (p := p) hrate
  have hproduct : (⟨p.baseUnits * rate.coeff, -4 + rate.exp⟩ : Decimal).value =
      p.baseCost * rate.value := by
    rw [Parcel.baseCost_eq, Decimal.value, Decimal.value, zpow_add₀ (by norm_num)]
    push_cast
    rw [zpow_neg, zpow_ofNat]
    ring
  obtain ⟨units, hunits⟩ := Int.eq_ofNat_of_zero_le (Numeric.roundUnits_nonneg (s := 2) hnonneg)
  have hstored : (Numeric.roundUnits 2 (p.rawCost rate)).natAbs < 10 ^ 12 ↔
      Numeric.roundUnits 2 (p.rawCost rate) < (10 ^ 12 : ℕ) := by
    rw [hunits, Int.natAbs_natCast, Int.ofNat_lt]
  -- the last digit of the bound is even, so that its half is rounded up to it
  have hbound : (p.rawCost rate).value < (9999999999995 * 10 ^ 15 : ℕ) * (10 : ℚ) ^ (-18 : ℤ) ↔
      p.baseCost * rate.value < ((9999999999995 * 10 ^ 15 : ℕ) - 1 / 2) * (10 : ℚ) ^ (-18 : ℤ) := by
    rw [Parcel.rawCost, formula_default, ← hproduct]
    exact Decimal.fix_lt_iff (mul_nonneg p.baseUnits_nonneg (Decimal.value_nonneg_iff.mp hrate))
      (by decide) (by decide) (by decide)
  have hcolumn : ((9999999999995 * 10 ^ 15 : ℕ) : ℚ) * 10 ^ (-18 : ℤ) =
      ((10 ^ 12 : ℕ) - 1 / 2) / 10 ^ 2 := by norm_num
  have hcost : (((9999999999995 * 10 ^ 15 : ℕ) : ℚ) - 1 / 2) * 10 ^ (-18 : ℤ) = costBound := by
    rw [costBound]
    norm_num
  rw [hcost, hcolumn, lt_div_iff₀ (by norm_num)] at hbound
  rw [hstored, Numeric.roundUnits_lt_iff hnonneg, hbound]

end Range

/-- **Exactly when a stored parcel can be priced**: at a rate that is not negative, with the default
coefficients, its cost is in the range of its column, satisfies the `CHECK` and stops no
batch if and only if the exact cost is below `costBound`. -/
theorem price_in_range_iff (p : Parcel) (rate : Decimal) (hrate : 0 ≤ rate.value) :
    p.Priceable rate ↔ p.baseCost * rate.value < costBound := by
  rw [← rawCost_in_range_iff hrate]
  refine ⟨Parcel.Priceable.inRange, fun hrange => ?_⟩
  exact priceable_of_units hrange (Numeric.roundUnits_nonneg (rawCost_nonneg hrate))

/-- A small parcel at 90 rubles. -/
theorem price_in_range_iff_small :
    (sampleParcel "parcel-1").Priceable ⟨90, 0⟩ ↔
      (sampleParcel "parcel-1").baseCost * (⟨90, 0⟩ : Decimal).value < costBound :=
  price_in_range_iff (sampleParcel "parcel-1") ⟨90, 0⟩ (Decimal.value_nonneg_iff.mpr (by decide))

/-- A parcel at both column limits. -/
def heaviestParcel : Parcel :=
  { sampleParcel "parcel-1" with
    weightKg := ⟨⟨10 ^ 10 - 1, by decide⟩, by decide⟩
    declaredValueUsd := ⟨⟨10 ^ 12 - 1, by decide⟩, by decide⟩ }

theorem baseCost_le_heaviest (p : Parcel) : p.baseCost ≤ heaviestParcel.baseCost := by
  have hweight := p.weightKg.1.inRange
  have hvalue := p.declaredValueUsd.1.inRange
  have hunits : p.baseUnits ≤ heaviestParcel.baseUnits := by
    change p.weightKg.1.units * 5 + p.declaredValueUsd.1.units ≤ (10 ^ 10 - 1) * 5 + (10 ^ 12 - 1)
    omega
  simp only [Parcel.baseCost_eq]
  have hcast : (p.baseUnits : ℚ) ≤ heaviestParcel.baseUnits := by exact_mod_cast hunits
  exact div_le_div_of_nonneg_right hcast (by norm_num)

/-- **The rates at which every parcel can be priced**: those that keep the heaviest and most valuable
one in range, which ends a little above 95 rubles. -/
theorem all_priceable_iff (rate : Decimal) (hrate : 0 ≤ rate.value) :
    (∀ p : Parcel, p.Priceable rate) ↔ 104999999.9994 * rate.value < costBound := by
  have hheaviest : heaviestParcel.baseCost = 104999999.9994 := by
    rw [Parcel.baseCost_eq, show heaviestParcel.baseUnits = 1049999999994 by decide]
    norm_num
  refine ⟨?_, ?_⟩
  · intro hall
    rw [← hheaviest]
    exact (price_in_range_iff heaviestParcel rate hrate).mp (hall heaviestParcel)
  · intro hlt p
    refine (price_in_range_iff p rate hrate).mpr (lt_of_le_of_lt ?_ hlt)
    rw [← hheaviest]
    exact mul_le_mul_of_nonneg_right (baseCost_le_heaviest p) hrate

/-- At 100 rubles the parcel at both column limits is refused, and its batch with it. -/
theorem heaviest_not_priceable :
    1 ≤ (⟨100, 0⟩ : Decimal).value ∧ (⟨100, 0⟩ : Decimal).value ≤ 150 ∧
      heaviestParcel.cost .default ⟨100, 0⟩ = none ∧
      commitBatch .default ⟨100, 0⟩ [heaviestParcel] (Table.singleton heaviestParcel) = none ∧
      ¬ heaviestParcel.Priceable ⟨100, 0⟩ := by
  have hcost : heaviestParcel.cost .default ⟨100, 0⟩ = none := by decide +kernel
  have hrange : ¬ (Numeric.roundUnits 2 (heaviestParcel.rawCost ⟨100, 0⟩)).natAbs < 10 ^ 12 := by
    decide +kernel
  have hvalue : (⟨100, 0⟩ : Decimal).value = 100 := by
    rw [Decimal.value]
    norm_num
  refine ⟨by rw [hvalue]; norm_num, by rw [hvalue]; norm_num, hcost, ?_,
    fun h => hrange h.inRange⟩
  simp only [commitBatch, batchCosts, List.mapM_cons, hcost]
  rfl

end ParcelDelivery
