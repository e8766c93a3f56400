import ParcelDelivery.ParcelApi
import ParcelDelivery.DecimalDigits

/-!
# What the schema admits

`ParcelCreate` bounds the name, the weight and the declared value; the columns of `parcel`
bound them again. The two bounds of the name agree. Those of the value do not: `max_digits`
leaves twelve digits before the point and the column holds ten. Neither do the decimal
places: a number that the decimal context rounds to few places is admitted as it is
(`admitted_parcels_stored_iff`).
-/

namespace ParcelDelivery

open Relational DecimalArith Process ParcelService

/-! ## The schema -/

/-- `PositiveWeight`. -/
def positiveWeight (d : Decimal) : Bool := decide (0 < d.coeff) && d.fits 10 3

/-- `NonNegativeMoney`. -/
def nonNegativeMoney (d : Decimal) : Bool := decide (0 ≤ d.coeff) && d.fits 14 2

/-- The payload passes the validation of `ParcelCreate`. -/
def ParcelCreate.accepted (data : ParcelCreate) : Bool :=
  decide (data.name.length ≤ 255) && positiveWeight data.weightKg &&
    nonNegativeMoney data.declaredValueUsd

@[simp] theorem positiveWeight_iff {d : Decimal} :
    positiveWeight d = true ↔ 0 < d.coeff ∧ d.fits 10 3 = true := by
  simp [positiveWeight]

@[simp] theorem nonNegativeMoney_iff {d : Decimal} :
    nonNegativeMoney d = true ↔ 0 ≤ d.coeff ∧ d.fits 14 2 = true := by
  simp [nonNegativeMoney]

theorem ParcelCreate.accepted_iff {data : ParcelCreate} : data.accepted = true ↔
    (data.name.length ≤ 255 ∧ positiveWeight data.weightKg = true) ∧
      nonNegativeMoney data.declaredValueUsd = true := by
  simp only [accepted, Bool.and_eq_true, decide_eq_true_eq]

/-! ## The columns -/

/-- The sign of a number of units is that of the decimal. -/
theorem units_pos_of_value {d : Decimal} {n : ℤ} {s : ℕ} (h : d.value = n / 10 ^ s)
    (hpos : 0 < d.coeff) : 0 < n := by
  have hvalue : 0 < d.value := mul_pos (by exact_mod_cast hpos) (zpow_pos (by norm_num) _)
  rw [h] at hvalue
  have hscaled := mul_pos hvalue (show (0 : ℚ) < 10 ^ s by positivity)
  rw [div_mul_cancel₀ _ (by positivity)] at hscaled
  exact_mod_cast hscaled

theorem units_nonneg_of_value {d : Decimal} {n : ℤ} {s : ℕ} (h : d.value = n / 10 ^ s)
    (hnonneg : 0 ≤ d.coeff) : 0 ≤ n := by
  have hvalue : 0 ≤ d.value := mul_nonneg (by exact_mod_cast hnonneg) (zpow_nonneg (by norm_num) _)
  rw [h] at hvalue
  have hscaled := mul_nonneg hvalue (show (0 : ℚ) ≤ 10 ^ s by positivity)
  rw [div_mul_cancel₀ _ (by positivity)] at hscaled
  exact_mod_cast hscaled

/-- A bound on a number bounds its units. -/
theorem units_lt_of_value {d : Decimal} {n : ℤ} {s w : ℕ} (h : d.value = n / 10 ^ s)
    (hlt : d.value < 10 ^ w) : n < 10 ^ (w + s) := by
  rw [h, div_lt_iff₀ (by positivity), ← pow_add] at hlt
  exact_mod_cast hlt

/-- The number has at most so many decimal places, however it is written. -/
def WholeUnits (s : ℕ) (d : Decimal) : Prop := ∃ n : ℤ, d.value = n / 10 ^ s

/-- What is in a column is a whole number of its units. -/
theorem wholeUnits_of_column {p s : ℕ} {d : Decimal} {x : Numeric p s}
    (h : x.toDecimal.value = d.value) : WholeUnits s d :=
  ⟨x.units, h.symm.trans (Numeric.value_toDecimal x)⟩

/-- **Every weight that the schema admits is stored as it is** when it has three decimal
places. -/
theorem store_of_positiveWeight {d : Decimal} (h : positiveWeight d = true)
    (hunits : WholeUnits 3 d) :
    ∃ w : Weight, Weight.store d = some w ∧ w.1.toDecimal.value = d.value := by
  rw [positiveWeight_iff] at h
  obtain ⟨n, hvalue⟩ := hunits
  have hpos := units_pos_of_value hvalue h.1
  have hlt : d.value < 10 ^ 7 := Decimal.value_lt_of_fits h.1.le h.2
  have hrange : n.natAbs < 10 ^ 10 := by
    have hbound := units_lt_of_value hvalue hlt
    omega
  obtain ⟨x, hstore, hx, hsame⟩ := Numeric.ofDecimal_of_value hvalue hrange
  have hpos : 0 < x.units := hx ▸ hpos
  refine ⟨⟨x, hpos⟩, ?_, hsame⟩
  rw [Weight.store, hstore, Option.bind_some, dif_pos hpos]

/-- A value that the schema admits is stored as it is when it has two decimal places and is small
enough. -/
theorem store_of_nonNegativeMoney {d : Decimal} (h : nonNegativeMoney d = true)
    (hunits : WholeUnits 2 d) (hlt : d.value < 10 ^ 10) :
    ∃ v : Money, Money.store d = some v ∧ v.1.toDecimal.value = d.value := by
  rw [nonNegativeMoney_iff] at h
  obtain ⟨n, hvalue⟩ := hunits
  have hnonneg := units_nonneg_of_value hvalue h.1
  have hrange : n.natAbs < 10 ^ 12 := by
    have hbound := units_lt_of_value hvalue hlt
    omega
  obtain ⟨x, hstore, hx, hsame⟩ := Numeric.ofDecimal_of_value hvalue hrange
  have hx : 0 ≤ x.units := hx ▸ hnonneg
  refine ⟨⟨x, hx⟩, ?_, hsame⟩
  rw [Money.store, hstore, Option.bind_some, dif_pos hx]

/-- A value in the column is below ten billion. -/
theorem value_lt_of_money (v : Money) : v.1.toDecimal.value < 10 ^ 10 := by
  have hrange := v.1.inRange
  rw [Numeric.value_toDecimal, div_lt_iff₀ (by positivity), ← pow_add]
  have hlt : v.1.units < 10 ^ 12 := by omega
  exact_mod_cast hlt

/-! ## The service -/

section Service

variable (collate : String → String) (db : ParcelDb)

/-- The user exists. -/
def ParcelDb.knowsUser (userId : String) : Bool := db.userIds.any fun id => sqlEq collate id userId

/-- The call stores the payload, without rounding, and returns its row. -/
def StoresExactly (data : ParcelCreate) (ownerId newId : String) : Prop :=
  ∃ row db', (createFromDto true data ownerId newId).run (parcelHandler collate) db =
      (.ok row, db') ∧
    db'.parcels.rows = db.parcels.rows ++ [row] ∧ row.id = newId ∧ row.name = data.name ∧
    row.weightKg.1.toDecimal.value = data.weightKg.value ∧
    row.declaredValueUsd.1.toDecimal.value = data.declaredValueUsd.value ∧
    row.parcelTypeId = data.parcelTypeId ∧ row.userId = some ownerId ∧ row.sessionId = ""

/-- A payload that names a type is stored, and the only errors are business errors that leave
the database as it was. -/
def StoresOrRefuses (data : ParcelCreate) (ownerId newId : String) : Prop :=
  (db.knowsType collate data.parcelTypeId = true → StoresExactly collate db data ownerId newId) ∧
    ∀ e db', (createFromDto true data ownerId newId).run (parcelHandler collate) db =
      (.error e, db') → (∃ message, e = .businessError message) ∧ db' = db

/-- What the columns and the foreign keys ask of an admitted payload. -/
structure FitsColumns (data : ParcelCreate) (ownerId : String) : Prop where
  weightPlaces : WholeUnits 3 data.weightKg
  valuePlaces : WholeUnits 2 data.declaredValueUsd
  valueFits : data.declaredValueUsd.value < 10 ^ 10
  typeIdFits : data.parcelTypeId.length ≤ 36
  ownerIdFits : ownerId.length ≤ 36
  ownerExists : db.knowsUser collate ownerId = true

end Service

section Calls

variable {collate : String → String} {authRequired : Bool} {db : ParcelDb} {data : ParcelCreate}
  {ownerId newId : String}

/-- A row that the columns admit can be inserted under a fresh key. -/
theorem insertParcel_of_row {p : NewParcel} {row : Parcel} (hrow : p.row = some row)
    (hfresh : ∀ r ∈ db.parcels.rows, collate r.id ≠ collate row.id)
    (htype : ∃ t, db.types.select (fun t => sqlEq collate t.id row.parcelTypeId) = some t)
    (huser : row.userId.all (db.knowsUser collate) = true) :
    ∃ db', db.insertParcel collate p = .ok db' := by
  have hselect : db.parcels.select (fun r => sqlEq collate r.id row.id) = none :=
    Table.select_eq_none.mpr fun r hr heq => hfresh r hr (sqlEq_iff.mp heq)
  obtain ⟨t, ht⟩ := htype
  obtain ⟨parcels, hinsert⟩ := Table.insert_of_fresh (t := db.parcels) (r := row)
    fun r hr heq => hfresh r hr (congrArg collate heq)
  have hchecks : ((db.parcels.select fun r => sqlEq collate r.id row.id).isNone &&
      (db.types.select fun t => sqlEq collate t.id row.parcelTypeId).isSome &&
      row.userId.all (fun userId => db.userIds.any fun id => sqlEq collate id userId)) = true := by
    rw [hselect, ht]
    exact huser
  refine ⟨{ db with parcels }, ?_⟩
  rw [ParcelDb.insertParcel, hrow]
  dsimp only
  rw [if_pos hchecks, hinsert]

/-- The row of an admitted payload, where the columns hold it. -/
theorem row_of_accepted (haccepted : data.accepted = true) (hid : newId.length ≤ 36)
    (hfits : FitsColumns collate db data ownerId) :
    ∃ row, (newParcel true data ownerId newId).row = some row ∧
      row.weightKg.1.toDecimal.value = data.weightKg.value ∧
      row.declaredValueUsd.1.toDecimal.value = data.declaredValueUsd.value := by
  obtain ⟨⟨hname, hweight⟩, hmoney⟩ := ParcelCreate.accepted_iff.mp haccepted
  obtain ⟨hweightPlaces, hvaluePlaces, hvalue, htype, howner, -⟩ := hfits
  obtain ⟨w, hw, hwsame⟩ := store_of_positiveWeight hweight hweightPlaces
  obtain ⟨v, hv, hvsame⟩ := store_of_nonNegativeMoney hmoney hvaluePlaces hvalue
  have hlengths : (newParcel true data ownerId newId).id.length ≤ 36 ∧
      (newParcel true data ownerId newId).name.length ≤ 255 ∧
      (newParcel true data ownerId newId).sessionId.length ≤ 255 ∧
      (newParcel true data ownerId newId).parcelTypeId.length ≤ 36 ∧
      (newParcel true data ownerId newId).userId.all (fun userId => userId.length ≤ 36) :=
    ⟨hid, hname, Nat.zero_le 255, htype, decide_eq_true howner⟩
  refine ⟨{ id := newId, name := data.name, weightKg := w, declaredValueUsd := v, sessionId := "",
            deliveryCostRub := none, parcelTypeId := data.parcelTypeId, userId := some ownerId },
    ?_, hwsame, hvsame⟩
  have hw' : Weight.store (newParcel true data ownerId newId).weightKg = some w := hw
  have hv' : Money.store (newParcel true data ownerId newId).declaredValueUsd = some v := hv
  rw [NewParcel.row, if_pos hlengths, hw', hv']
  rfl

/-- What the columns have to hold of a row. -/
theorem NewParcel.lengths_of_row {p : NewParcel} {row : Parcel} (h : p.row = some row) :
    p.parcelTypeId.length ≤ 36 ∧ p.userId.all (fun userId => userId.length ≤ 36) = true := by
  rw [NewParcel.row] at h
  split at h
  · next hlengths => exact hlengths.2.2.2
  · cases h

/-- The owner of an inserted row exists. -/
theorem knowsUser_of_insert {p : NewParcel} {db' : ParcelDb}
    (h : db.insertParcel collate p = .ok db') : p.userId.all (db.knowsUser collate) = true := by
  rw [ParcelDb.insertParcel] at h
  split at h
  · cases h
  · next row hrow =>
    split at h
    · next hchecks =>
      rw [Bool.and_eq_true] at hchecks
      rw [← (NewParcel.row_eq_some hrow).2.2.2.2.2.2.2]
      exact hchecks.2
    · cases h

/-- What a payload has needed that is stored as it is. -/
theorem fitsColumns_of_stored (hweight : 0 < data.weightKg.coeff)
    (hknown : db.knowsType collate data.parcelTypeId = true)
    (h : StoresExactly collate db data ownerId newId) : FitsColumns collate db data ownerId := by
  obtain ⟨row, db', hrun, -, -, -, hwsame, hvsame, -⟩ := h
  cases hinsert : db.insertParcel collate (newParcel true data ownerId newId) with
  | error e => exact nomatch hrun.symm.trans (createFromDto_of_refused hknown hweight hinsert)
  | ok db₁ =>
    obtain ⟨row', hrow, -⟩ := insertParcel_eq_ok hinsert
    obtain ⟨htype, howner⟩ := NewParcel.lengths_of_row hrow
    refine ⟨wholeUnits_of_column hwsame, wholeUnits_of_column hvsame, ?_, htype,
      of_decide_eq_true howner, knowsUser_of_insert hinsert⟩
    rw [← hvsame]
    exact value_lt_of_money row.declaredValueUsd

end Calls

/-- **What the schema admits is stored** exactly when the columns hold it: a weight of three decimal
places and a value of two, the value below ten digits, the type's id and the owner's id in
their columns, and an owner with an account. -/
theorem admitted_parcels_stored_iff (collate : String → String) (db : ParcelDb)
    (data : ParcelCreate) (ownerId newId : String) (haccepted : data.accepted = true)
    (hid : newId.length ≤ 36) (hfresh : ∀ r ∈ db.parcels.rows, collate r.id ≠ collate newId) :
    StoresOrRefuses collate db data ownerId newId ↔
      (db.knowsType collate data.parcelTypeId = true → FitsColumns collate db data ownerId) := by
  have hweight : 0 < data.weightKg.coeff :=
    (positiveWeight_iff.mp (ParcelCreate.accepted_iff.mp haccepted).1.2).1
  refine ⟨fun h hknown => fitsColumns_of_stored hweight hknown (h.1 hknown), ?_⟩
  intro hfits
  by_cases hknown : db.knowsType collate data.parcelTypeId = true
  · obtain ⟨row, hrow, hwsame, hvsame⟩ := row_of_accepted haccepted hid (hfits hknown)
    obtain ⟨hrid, hname, -, -, hsession, -, hrtype, hruser⟩ := NewParcel.row_eq_some hrow
    have hselect : ∃ t, db.types.select (fun t => sqlEq collate t.id row.parcelTypeId) = some t := by
      rw [hrtype]
      exact select_of_knowsType hknown
    have huser := (hfits hknown).ownerExists
    obtain ⟨db', hinsert⟩ : ∃ db', db.insertParcel collate (newParcel true data ownerId newId) =
        .ok db' :=
      insertParcel_of_row hrow (by rw [hrid]; exact hfresh) hselect (by rw [hruser]; exact huser)
    obtain ⟨row', hcreated⟩ := created_of_insert hknown hweight hinsert
    obtain rfl : row = row' := Option.some.inj (hrow.symm.trans hcreated.row_eq)
    refine ⟨fun _ => ⟨row, db', hcreated.run, hcreated.rows, hrid, hname, hwsame, hvsame, hrtype,
      hruser, hsession⟩, fun e db₂ h => ?_⟩
    exact nomatch h.symm.trans hcreated.run
  · have hrun := createFromDto_of_unknown true ownerId newId hknown
    refine ⟨fun h => absurd h hknown, fun e db' h => ?_⟩
    cases h.symm.trans hrun
    exact ⟨⟨_, rfl⟩, rfl⟩

/-! ## A value of eleven digits -/

/-- The JWT mode, with one token that the service has issued. -/
def sampleJwtEnv : ApiEnv where
  authRequired := true
  cacheTtl := 60
  sha256 := id
  bearerToken := some
  jwtPayload token := if token = "token-1" then
      some { claims := [("sub", .text "user-1"), ("jti", .text "jti-1"),
               ("iss", .text "parcel-delivery-api"), ("aud", .text "parcel-delivery-clients"),
               ("role", .text "user"), ("scope", .text "parcels:read parcels:write")],
             exp := some 900, nbf := some 0, iat := some 0 }
    else none
  listParams _ := none
  parcelIdOf := id
  collate := id

/-- The caller with that token. -/
def sampleJwtCaller : Caller where
  authorization := some "token-1"
  session := none
  uuid4 := "session-1"

/-- One type, one user and no parcels. -/
def sampleUserDb : ParcelDb where
  types := ⟨[⟨"type-a", "Clothes"⟩], by decide⟩
  parcels := Table.empty
  userIds := ["user-1"]

/-- A parcel of the heaviest weight, of a value in cents. -/
def sampleValuable (cents : ℤ) : ParcelCreate where
  name := "ring"
  weightKg := ⟨9999999999, -3⟩
  declaredValueUsd := ⟨cents, -2⟩
  parcelTypeId := "type-a"

theorem admitted_parcels_stored_iff_sample :
    StoresOrRefuses id sampleUserDb (sampleValuable 999999999999) "user-1" "p1" :=
  (admitted_parcels_stored_iff id sampleUserDb (sampleValuable 999999999999) "user-1" "p1"
    (by decide +kernel) (by decide) (by decide)).mpr fun _ =>
      ⟨⟨9999999999, rfl⟩, ⟨999999999999, rfl⟩, by norm_num [sampleValuable, Decimal.value],
        by decide, by decide, by decide⟩

/-- The schema admits ten billion dollars, the column refuses them with a database error. -/
theorem large_value_refused :
    (sampleValuable 1000000000000).accepted = true ∧
      sampleUserDb.knowsType id "type-a" = true ∧
      sampleJwtEnv.writerId 0 sampleJwtCaller = .ok "user-1" ∧
      (createFromDto true (sampleValuable 1000000000000) "user-1" "p1").run (parcelHandler id)
        sampleUserDb = (.error .dataError, sampleUserDb) ∧
      (sampleJwtEnv.post ⟨sampleJwtCaller, some (sampleValuable 1000000000000), "p1"⟩
        ⟨sampleUserDb, [], 0⟩).1 = .internalError ∧
      ¬ StoresOrRefuses id sampleUserDb (sampleValuable 1000000000000) "user-1" "p1" := by
  have hrun : (createFromDto true (sampleValuable 1000000000000) "user-1" "p1").run
      (parcelHandler id) sampleUserDb = (.error .dataError, sampleUserDb) := rfl
  refine ⟨by decide, by decide, by rfl, hrun, by rfl, fun h => ?_⟩
  obtain ⟨⟨message, hmessage⟩, -⟩ := h.2 _ _ hrun
  cases hmessage

/-- So does it with a cent less and a long row of nines; a weight with a long row of zeros is stored,
without the digit behind them. -/
example :
    let long := { sampleValuable 0 with declaredValueUsd := ⟨10 ^ 32 - 1, -22⟩ }
    let heavy := { sampleValuable 0 with weightKg := ⟨10 ^ 32 + 1, -32⟩ }
    long.accepted = true ∧
      (createFromDto true long "user-1" "p1").run (parcelHandler id) sampleUserDb =
        (.error .dataError, sampleUserDb) ∧
      heavy.accepted = true ∧
      ((createFromDto true heavy "user-1" "p1").run (parcelHandler id) sampleUserDb).1.map
        (fun row => row.weightKg.1.toDecimal) = .ok ⟨1000, -3⟩ :=
  ⟨by decide +kernel, rfl, by decide +kernel, rfl⟩

end ParcelDelivery
