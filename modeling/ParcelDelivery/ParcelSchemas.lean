import ParcelDelivery.ParcelDb

/-!
# Schemas and JSON values

The response models of `app/schemas`, how they are built from loaded rows, and the JSON
values that the cache keeps of them. `jsonable_encoder` writes a response model by its
aliases, with decimals as strings; any other object is written as its `vars()`,
with decimals as numbers. `response_model` reads both spellings of a field.
-/

namespace ParcelDelivery

open DecimalArith

/-- `ParcelTypeRead`. -/
structure ParcelTypeRead : Type where
  id : String
  name : String
  deriving DecidableEq, Repr

/-- `ParcelRead`. -/
structure ParcelRead : Type where
  id : String
  name : String
  weightKg : Decimal
  declaredValueUsd : Decimal
  deliveryCostRub : Option Decimal
  parcelType : ParcelTypeRead
  deriving DecidableEq, Repr

/-- `PaginationParams`. -/
structure PaginationParams : Type where
  limit : ℕ
  offset : ℕ
  deriving DecidableEq, Repr

/-- `PaginatedResponse[ParcelRead]`. -/
structure PaginatedResponse : Type where
  items : List ParcelRead
  total : ℕ
  limit : ℕ
  offset : ℕ
  deriving DecidableEq, Repr

/-- `ParcelRead` from the attributes of a loaded row; it fails without a type. -/
def ParcelRead.ofLoaded (p : LoadedParcel) : Option ParcelRead :=
  p.parcelType.map fun t =>
    { id := p.row.id
      name := p.row.name
      weightKg := p.row.weightKg.1.toDecimal
      declaredValueUsd := p.row.declaredValueUsd.1.toDecimal
      deliveryCostRub := p.row.deliveryCostRub.map fun cost => cost.1.toDecimal
      parcelType := ⟨t.id, t.name⟩ }

/-- `PaginatedResponse[ParcelRead](items=rows, …)`; it fails with any of its rows. -/
def PaginatedResponse.ofRows (total : ℕ) (rows : List LoadedParcel)
    (pagination : PaginationParams) : Option PaginatedResponse :=
  (rows.mapM ParcelRead.ofLoaded).map fun items =>
    { items, total, limit := pagination.limit, offset := pagination.offset }

/-! ## JSON -/

/-- A JSON value. The text of a decimal is kept as the decimal that it denotes. -/
inductive Json : Type where
  | null
  | str (s : String)
  /-- a string that holds `str` of a decimal -/
  | decimalStr (d : Decimal)
  /-- a number with a fraction -/
  | float (d : Decimal)
  | int (n : ℤ)
  | arr (items : List Json)
  | obj (fields : List (String × Json))

namespace Json

/-- The value of a field under its alias or its name. -/
def field (byAlias byName : String) : Json → Option Json
  | obj fields => (fields.lookup byAlias).or (fields.lookup byName)
  | _ => none

/-- A `str`. -/
def toStr : Json → Option String
  | str s => some s
  | _ => none

/-- A `Decimal`, from the text of a string or a number. -/
def toDecimal : Json → Option Decimal
  | decimalStr d => some d
  | float d => some d
  | int n => some ⟨n, 0⟩
  | _ => none

/-- A `Decimal | None`. -/
def toDecimal? : Json → Option (Option Decimal)
  | null => some none
  | json => (toDecimal json).map some

/-- An `int` that is not negative. -/
def toNat : Json → Option ℕ
  | int n => if 0 ≤ n then some n.toNat else none
  | _ => none

/-- A `list`. -/
def toList : Json → Option (List Json)
  | arr items => some items
  | _ => none

/-- `null` or a value. -/
def ofOption {α : Type} (f : α → Json) : Option α → Json
  | none => null
  | some a => f a

end Json

/-- The shortest text of a `float`: trailing zeros go, one decimal place stays. -/
def stripZeros : ℕ → Decimal → Decimal
  | 0, d => d
  | k + 1, d => if d.exp < -1 ∧ d.coeff % 10 = 0 then stripZeros k ⟨d.coeff / 10, d.exp + 1⟩ else d

/-- `jsonable_encoder` on a `Decimal` outside a response model: an `int` where it has no
decimal places, a `float` otherwise. -/
def encodeDecimal (d : Decimal) : Json :=
  if 0 ≤ d.exp then .int (d.coeff * 10 ^ d.exp.toNat) else .float (stripZeros d.exp.natAbs d)

/-- `jsonable_encoder` on a `ParcelTypeRead`. -/
def ParcelTypeRead.toJson (t : ParcelTypeRead) : Json :=
  .obj [("id", .str t.id), ("name", .str t.name)]

/-- `jsonable_encoder` on a `ParcelRead`. -/
def ParcelRead.toJson (p : ParcelRead) : Json :=
  .obj [("id", .str p.id), ("name", .str p.name), ("weightKg", .decimalStr p.weightKg),
    ("declaredValueUsd", .decimalStr p.declaredValueUsd),
    ("deliveryCostRub", .ofOption .decimalStr p.deliveryCostRub),
    ("parcelType", p.parcelType.toJson)]

/-- `jsonable_encoder` on a `PaginatedResponse`. -/
def PaginatedResponse.toJson (page : PaginatedResponse) : Json :=
  .obj [("items", .arr (page.items.map ParcelRead.toJson)), ("total", .int page.total),
    ("limit", .int page.limit), ("offset", .int page.offset)]

/-- `jsonable_encoder` on a `Parcel` object: its loaded attributes. -/
def LoadedParcel.toJson (p : LoadedParcel) : Json :=
  .obj [("id", .str p.row.id), ("name", .str p.row.name),
    ("weight_kg", encodeDecimal p.row.weightKg.1.toDecimal),
    ("declared_value_usd", encodeDecimal p.row.declaredValueUsd.1.toDecimal),
    ("session_id", .str p.row.sessionId),
    ("delivery_cost_rub",
      .ofOption (fun cost : Money => encodeDecimal cost.1.toDecimal) p.row.deliveryCostRub),
    ("parcel_type_id", .str p.row.parcelTypeId), ("user_id", .ofOption .str p.row.userId),
    ("parcel_type", .ofOption (fun t : ParcelType =>
      .obj [("id", .str t.id), ("name", .str t.name)]) p.parcelType)]

/-- A `ParcelTypeRead` from JSON. -/
def ParcelTypeRead.ofJson (json : Json) : Option ParcelTypeRead := do
  let id ← (← json.field "id" "id").toStr
  let name ← (← json.field "name" "name").toStr
  return { id, name }

/-- A `ParcelRead` from JSON. -/
def ParcelRead.ofJson (json : Json) : Option ParcelRead := do
  let id ← (← json.field "id" "id").toStr
  let name ← (← json.field "name" "name").toStr
  let weightKg ← (← json.field "weightKg" "weight_kg").toDecimal
  let declaredValueUsd ← (← json.field "declaredValueUsd" "declared_value_usd").toDecimal
  -- the only field with a default
  let deliveryCostRub ←
    ((json.field "deliveryCostRub" "delivery_cost_rub").getD .null).toDecimal?
  let parcelType ← ParcelTypeRead.ofJson (← json.field "parcelType" "parcel_type")
  return { id, name, weightKg, declaredValueUsd, deliveryCostRub, parcelType }

/-- A `PaginatedResponse` from JSON. -/
def PaginatedResponse.ofJson (json : Json) : Option PaginatedResponse := do
  let items ← (← (← json.field "items" "items").toList).mapM ParcelRead.ofJson
  let total ← (← json.field "total" "total").toNat
  let limit ← (← json.field "limit" "limit").toNat
  let offset ← (← json.field "offset" "offset").toNat
  return { items, total, limit, offset }

/-! ## Round trips -/

theorem ParcelRead.ofJson_toJson (p : ParcelRead) : ParcelRead.ofJson p.toJson = some p := by
  obtain ⟨id, name, weightKg, declaredValueUsd, deliveryCostRub, type⟩ := p
  cases deliveryCostRub <;> rfl

theorem mapM_ofJson_toJson (items : List ParcelRead) :
    (items.map ParcelRead.toJson).mapM ParcelRead.ofJson = some items := by
  induction items with
  | nil => rfl
  | cons p items ih =>
    simp only [List.map_cons, List.mapM_cons, ParcelRead.ofJson_toJson, ih]
    rfl

/-- **A page survives the cache.** -/
theorem PaginatedResponse.ofJson_toJson (page : PaginatedResponse) :
    PaginatedResponse.ofJson page.toJson = some page := by
  have hnat : ∀ n : ℕ, (Json.int n).toNat = some n := fun n => by
    rw [Json.toNat, if_pos (Int.natCast_nonneg n), Int.toNat_natCast]
  change ((page.items.map ParcelRead.toJson).mapM ParcelRead.ofJson).bind (fun items =>
    (Json.int page.total).toNat.bind fun total => (Json.int page.limit).toNat.bind fun limit =>
      (Json.int page.offset).toNat.bind fun offset =>
        some { items, total, limit, offset : PaginatedResponse }) = some page
  simp only [mapM_ofJson_toJson, hnat]
  rfl

/-- A parcel that is read from the cache is the one that was loaded. -/
theorem LoadedParcel.id_of_toJson {p : LoadedParcel} {body : ParcelRead}
    (h : ParcelRead.ofJson p.toJson = some body) : body.id = p.row.id := by
  have hread : ∀ (weight value : Option Decimal) (cost : Option (Option Decimal))
      (type : Option ParcelTypeRead),
      (weight.bind fun weightKg => value.bind fun declaredValueUsd =>
        cost.bind fun deliveryCostRub => type.bind fun parcelType =>
          some { id := p.row.id, name := p.row.name, weightKg, declaredValueUsd,
                 deliveryCostRub, parcelType : ParcelRead }) = some body → body.id = p.row.id := by
    intro weight value cost type h
    obtain ⟨_, -, h⟩ := Option.bind_eq_some_iff.mp h
    obtain ⟨_, -, h⟩ := Option.bind_eq_some_iff.mp h
    obtain ⟨_, -, h⟩ := Option.bind_eq_some_iff.mp h
    obtain ⟨_, -, h⟩ := Option.bind_eq_some_iff.mp h
    rw [← Option.some.inj h]
  exact hread (encodeDecimal p.row.weightKg.1.toDecimal).toDecimal
    (encodeDecimal p.row.declaredValueUsd.1.toDecimal).toDecimal
    (Json.ofOption (fun cost : Money => encodeDecimal cost.1.toDecimal)
      p.row.deliveryCostRub).toDecimal?
    (ParcelTypeRead.ofJson (Json.ofOption (fun t : ParcelType =>
      .obj [("id", .str t.id), ("name", .str t.name)]) p.parcelType)) h

/-! ## Rows of a page -/

theorem ParcelRead.id_of_loaded {p : LoadedParcel} {body : ParcelRead}
    (h : ParcelRead.ofLoaded p = some body) : body.id = p.row.id := by
  obtain ⟨t, -, rfl⟩ := Option.map_eq_some_iff.mp h
  rfl

theorem ids_of_rows {rows : List LoadedParcel} {items : List ParcelRead}
    (h : rows.mapM ParcelRead.ofLoaded = some items) :
    items.map ParcelRead.id = rows.map fun p => p.row.id := by
  induction rows generalizing items with
  | nil =>
    obtain rfl : items = [] := (Option.some.inj h).symm
    rfl
  | cons p rows ih =>
    rw [List.mapM_cons] at h
    obtain ⟨body, hbody, h⟩ := Option.bind_eq_some_iff.mp h
    obtain ⟨rest, hrest, h⟩ := Option.bind_eq_some_iff.mp h
    obtain rfl := Option.some.inj h
    rw [List.map_cons, List.map_cons, ParcelRead.id_of_loaded hbody, ih hrest]

end ParcelDelivery
