import ParcelDelivery.ParcelDb
import ParcelDelivery.Uuid

/-!
# `ParcelService`

`app/services/parcel.py`, method by method, as programs over the parcel database. The
setting `AUTH_REQUIRED` is an argument of every method: it decides which owner column is
written and compared. The set-up of a new object takes the `uuid4` of its primary key.
-/

namespace ParcelDelivery

open DecimalArith Process ParcelProg

/-- `ParcelCreate`. -/
structure ParcelCreate : Type where
  name : String
  weightKg : Decimal
  declaredValueUsd : Decimal
  parcelTypeId : String
  deriving DecidableEq, Repr

/-- `ParcelFilterParams`. -/
structure ParcelFilterParams : Type where
  typeId : Option Uuid4
  hasCost : Option Bool
  deriving DecidableEq, Repr

namespace ParcelService

variable (authRequired : Bool)

/-- The object that `create_from_dto` adds to the session. -/
def newParcel (data : ParcelCreate) (ownerId newId : String) : NewParcel where
  id := newId
  name := data.name
  weightKg := data.weightKg
  declaredValueUsd := data.declaredValueUsd
  parcelTypeId := data.parcelTypeId
  sessionId := if authRequired then "" else ownerId
  userId := if authRequired then some ownerId else none

/-- `create_from_dto`. -/
def createFromDto (data : ParcelCreate) (ownerId newId : String) : ParcelProg Parcel := do
  let typeExists ← selectTypeId data.parcelTypeId
  -- an empty id is no id: `if not type_exists`
  if (typeExists.filter fun id => id != "").isNone then
    .throw (.businessError "Unknown parcel type")
  else if data.weightKg.coeff ≤ 0 then
    .throw (.businessError "Weight must be positive")
  else
    commitParcel (newParcel authRequired data ownerId newId)
    refreshParcel newId

/-- The comparison of `get_owned`, in Python. -/
def ownerMatch (parcel : Parcel) (ownerId : String) : Bool :=
  if authRequired then parcel.userId == some ownerId else parcel.sessionId == ownerId

/-- `get_owned`. -/
def getOwned (parcelId ownerId : String) : ParcelProg LoadedParcel := do
  match ← selectParcel parcelId with
  | none => .throw (.notFoundError "Parcel not found")
  | some parcel =>
    if ownerMatch authRequired parcel.row ownerId then return parcel
    else .throw (.unauthorizedError "Parcel not found")

/-- The conditions of `list_owned`. A `uuid.UUID` is bound as a parameter of type `Uuid`, whatever
column it is compared with, and the driver of a database without such a type sends its `hex`. -/
def ownedQuery (ownerId : String) (filters : ParcelFilterParams) : OwnedQuery where
  byUser := authRequired
  ownerId := ownerId
  typeId := filters.typeId.map fun id => id.hex
  hasCost := filters.hasCost

/-- `list_owned`: the total and the rows of a page. -/
def listOwned (ownerId : String) (filters : ParcelFilterParams) (limit offset : ℕ) :
    ParcelProg (ℕ × List LoadedParcel) := do
  let total ← countOwned (ownedQuery authRequired ownerId filters)
  let rows ← selectOwned (ownedQuery authRequired ownerId filters) limit offset
  return (total, rows)

end ParcelService

end ParcelDelivery
