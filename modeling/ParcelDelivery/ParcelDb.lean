import ParcelDelivery.Core
import ParcelDelivery.ParcelStore
import ParcelDelivery.Process
import Mathlib.Data.List.Sort

/-!
# The parcel database

The tables that `ParcelService` reads and writes, and its database calls. Strings are
compared inside SQL under a collation, and `ORDER BY` compares the sort keys. Python
compares the strings themselves, also when `selectinload` attaches the related rows it has
fetched.
-/

namespace ParcelDelivery

open Relational DecimalArith Process

/-- `parcel_type.id` is the primary key and `parcel_type.name` is unique. -/
instance : Row ParcelType where
  clash t t' := t.id = t'.id ∨ t.name = t'.name
  decClash _ _ := inferInstanceAs (Decidable (_ ∨ _))
  clash_refl _ := Or.inl rfl
  clash_symm h := h.imp Eq.symm Eq.symm

/-- The committed database, as far as `ParcelService` reads and writes it. -/
structure ParcelDb : Type where
  types : Table ParcelType
  parcels : Table Parcel
  /-- the primary keys of `user` -/
  userIds : List String

/-- A `Parcel` object before its `INSERT`. -/
structure NewParcel : Type where
  id : String
  name : String
  weightKg : Decimal
  declaredValueUsd : Decimal
  sessionId : String
  parcelTypeId : String
  userId : Option String
  deriving DecidableEq, Repr

/-- A parcel with the related row that `selectinload(Parcel.parcel_type)` attaches. -/
structure LoadedParcel : Type where
  row : Parcel
  parcelType : Option ParcelType
  deriving DecidableEq

/-- The filters of `list_owned`, the owner condition included. -/
structure OwnedQuery : Type where
  /-- compare `user_id`, otherwise `session_id` -/
  byUser : Bool
  ownerId : String
  typeId : Option String
  hasCost : Option Bool
  deriving DecidableEq, Repr

/-- The row of a `Parcel` object, with the values that the numeric columns store; `none`
where a column or a `CHECK` refuses one. -/
def NewParcel.row (p : NewParcel) : Option Parcel :=
  if p.id.length ≤ 36 ∧ p.name.length ≤ 255 ∧ p.sessionId.length ≤ 255 ∧
      p.parcelTypeId.length ≤ 36 ∧ p.userId.all (fun userId => userId.length ≤ 36) then
    match Weight.store p.weightKg, Money.store p.declaredValueUsd with
    | some weightKg, some declaredValueUsd =>
      some { id := p.id, name := p.name, weightKg, declaredValueUsd, sessionId := p.sessionId,
             deliveryCostRub := none, parcelTypeId := p.parcelTypeId, userId := p.userId }
    | _, _ => none
  else none

section Sql

variable (collate : String → String)

/-- The `WHERE` of `list_owned`; `NULL` equals nothing. -/
def OwnedQuery.matches (q : OwnedQuery) (r : Parcel) : Bool :=
  (if q.byUser then r.userId.any fun userId => sqlEq collate userId q.ownerId
    else sqlEq collate r.sessionId q.ownerId) &&
  (q.typeId.all fun typeId => sqlEq collate r.parcelTypeId typeId) &&
  (q.hasCost.all fun hasCost => r.priced == hasCost)

namespace ParcelDb

/-- `selectinload`: the related row whose key is the foreign key, letter by letter. -/
def load (db : ParcelDb) (r : Parcel) : LoadedParcel where
  row := r
  parcelType := db.types.select fun t => t.id == r.parcelTypeId

/-- The rows that meet a condition, in the order of their primary keys. -/
def selectOrdered (db : ParcelDb) (q : OwnedQuery) : List Parcel :=
  (db.parcels.selectAll (q.matches collate)).insertionSort fun r r' =>
    collate r.id ≤ collate r'.id

/-- `INSERT INTO parcel`: the columns take the values, the primary key is new and the foreign
keys exist, as the database compares them. -/
def insertParcel (db : ParcelDb) (p : NewParcel) : Except Exn ParcelDb :=
  match p.row with
  | none => .error .dataError
  | some row =>
    if (db.parcels.select fun r => sqlEq collate r.id row.id).isNone &&
        (db.types.select fun t => sqlEq collate t.id row.parcelTypeId).isSome &&
        row.userId.all (fun userId => db.userIds.any fun id => sqlEq collate id userId) then
      match db.parcels.insert row with
      | some parcels => .ok { db with parcels }
      | none => .error .integrityError
    else .error .integrityError

end ParcelDb

end Sql

/-! ## Database calls -/

/-- The database calls of `ParcelService`. -/
inductive ParcelCmd : Type where
  /-- `SELECT parcel_type.id … WHERE parcel_type.id = …` -/
  | selectTypeId (id : String)
  /-- `session.commit()` with the `INSERT` of a parcel -/
  | commitParcel (parcel : NewParcel)
  /-- `session.refresh(parcel)` -/
  | refreshParcel (id : String)
  /-- `SELECT … FROM parcel WHERE id = …`, with `selectinload` -/
  | selectParcel (id : String)
  /-- `SELECT count(*) …` -/
  | countOwned (q : OwnedQuery)
  /-- `SELECT … ORDER BY parcel.id LIMIT … OFFSET …`, with `selectinload` -/
  | selectOwned (q : OwnedQuery) (limit offset : ℕ)

/-- What a call answers. -/
abbrev ParcelCmd.Answer : ParcelCmd → Type
  | .selectTypeId _ => Option String
  | .commitParcel _ => Unit
  | .refreshParcel _ => Parcel
  | .selectParcel _ => Option LoadedParcel
  | .countOwned _ => ℕ
  | .selectOwned _ _ _ => List LoadedParcel

/-- Programs over the parcel database. -/
abbrev ParcelProg (α : Type) : Type := Prog ParcelCmd ParcelCmd.Answer Exn α

namespace ParcelProg

/-- `session.scalar(select(ParcelType.id).where(ParcelType.id == id))`. -/
def selectTypeId (id : String) : ParcelProg (Option String) :=
  .call (ParcelCmd.selectTypeId id) .ret

/-- `session.add_all(…)` and `session.commit()`. -/
def commitParcel (parcel : NewParcel) : ParcelProg Unit :=
  .call (ParcelCmd.commitParcel parcel) .ret

/-- `session.refresh(parcel)`. -/
def refreshParcel (id : String) : ParcelProg Parcel :=
  .call (ParcelCmd.refreshParcel id) .ret

/-- `session.scalar(select(Parcel).options(…).where(Parcel.id == id))`. -/
def selectParcel (id : String) : ParcelProg (Option LoadedParcel) :=
  .call (ParcelCmd.selectParcel id) .ret

/-- `session.scalar(select(func.count()).select_from(…))`. -/
def countOwned (q : OwnedQuery) : ParcelProg ℕ :=
  .call (ParcelCmd.countOwned q) .ret

/-- `session.scalars(stmt.order_by(Parcel.id).limit(limit).offset(offset))`. -/
def selectOwned (q : OwnedQuery) (limit offset : ℕ) : ParcelProg (List LoadedParcel) :=
  .call (ParcelCmd.selectOwned q limit offset) .ret

end ParcelProg

/-- The meaning of a call on the committed database. -/
def parcelHandler (collate : String → String) :
    Handler ParcelCmd ParcelCmd.Answer Exn ParcelDb
  | .selectTypeId id, db =>
    (.ok ((db.types.select fun t => sqlEq collate t.id id).map ParcelType.id), db)
  | .commitParcel parcel, db =>
    match db.insertParcel collate parcel with
    | .ok db' => (.ok (), db')
    | .error e => (.error e, db)
  | .refreshParcel id, db =>
    match db.parcels.select fun r => sqlEq collate r.id id with
    | some row => (.ok row, db)
    | none => (.error .invalidRequestError, db)
  | .selectParcel id, db =>
    (.ok ((db.parcels.select fun r => sqlEq collate r.id id).map db.load), db)
  | .countOwned q, db => (.ok (db.parcels.selectAll (q.matches collate)).length, db)
  | .selectOwned q limit offset, db =>
    (.ok ((((db.selectOrdered collate q).drop offset).take limit).map db.load), db)

end ParcelDelivery
