import ParcelDelivery.Core
import ParcelDelivery.Table
import ParcelDelivery.DecimalArith

/-!
# The parcel store

The rows of `parcel` and `parcel_type`. The `CHECK` constraints and the ranges of the
numeric columns are part of the column types, so that a stored row satisfies them.
-/

namespace ParcelDelivery

open Relational DecimalArith

/-- `weight_kg`: `Numeric(10, 3)`, checked to be positive. -/
abbrev Weight : Type := { w : Numeric 10 3 // 0 < w.units }

/-- `declared_value_usd` and `delivery_cost_rub`: `Numeric(12, 2)`, checked not to be
negative. -/
abbrev Money : Type := { v : Numeric 12 2 // 0 ≤ v.units }

/-- Store a decimal in a money column; `none` is an error of the database. -/
def Money.store (d : Decimal) : Option Money :=
  (Numeric.ofDecimal 12 2 d).bind fun v => if h : 0 ≤ v.units then some ⟨v, h⟩ else none

/-- Store a decimal in the weight column; `none` is an error of the database. -/
def Weight.store (d : Decimal) : Option Weight :=
  (Numeric.ofDecimal 10 3 d).bind fun w => if h : 0 < w.units then some ⟨w, h⟩ else none

/-- A row of `parcel`. -/
structure Parcel : Type where
  id : String
  name : String
  weightKg : Weight
  declaredValueUsd : Money
  sessionId : String
  deliveryCostRub : Option Money
  parcelTypeId : String
  userId : Option String
  deriving DecidableEq

/-- A row of `parcel_type`. -/
structure ParcelType : Type where
  id : String
  name : String
  deriving DecidableEq, Repr

/-- `parcel.id` is the primary key. -/
instance : Row Parcel where
  clash p p' := p.id = p'.id
  decClash _ _ := inferInstanceAs (Decidable (_ = _))
  clash_refl _ := rfl
  clash_symm h := h.symm

namespace Parcel

/-- `delivery_cost_rub IS NOT NULL`. -/
def priced (p : Parcel) : Bool := p.deliveryCostRub.isSome

end Parcel

/-- An unpriced parcel of one kilogram and ten dollars. -/
def sampleParcel (id : String) : Parcel where
  id := id
  name := "book"
  weightKg := ⟨⟨1000, by decide⟩, by decide⟩
  declaredValueUsd := ⟨⟨1000, by decide⟩, by decide⟩
  sessionId := "session-1"
  deliveryCostRub := none
  parcelTypeId := "type-1"
  userId := none

end ParcelDelivery
