import ParcelDelivery.ParcelService
import ParcelDelivery.PricingJob

/-!
# What happens to the parcel database

The writes that the database sees over time: parcels that are created, in either
mode, costs that the pricing job commits, users that register. No row ever leaves the
table, and of a row only the cost changes (`Persists`).
-/

namespace ParcelDelivery

open Relational DecimalArith Process TransitionSystem ParcelService

/-- A committed batch of costs. -/
def ParcelDb.price (costs : List (String × Money)) (db : ParcelDb) : ParcelDb :=
  { db with
    parcels := db.parcels.update (fun _ => true) (Parcel.assignCost costs)
      (Parcel.assignCost_clash costs) }

/-- What is written next. -/
inductive ParcelMove : Type where
  /-- a call of `create_from_dto`, with the `uuid4` of the new row -/
  | create (authRequired : Bool) (data : ParcelCreate) (ownerId newId : String)
  /-- a commit of the pricing job -/
  | price (costs : List (String × Money))
  /-- a user registers -/
  | addUser (id : String)

/-- The database over time. -/
def parcelSystem (collate : String → String) : System ParcelDb ParcelMove where
  step db
    | .create authRequired data ownerId newId =>
      some ((createFromDto authRequired data ownerId newId).run (parcelHandler collate) db).2
    | .price costs => some (db.price costs)
    | .addUser id => some { db with userIds := id :: db.userIds }

/-! ## `create_from_dto` alone -/

section Create

variable {collate : String → String} {authRequired : Bool} {data : ParcelCreate}
  {ownerId newId : String} {db db' : ParcelDb}

theorem sqlEq_iff {a b : String} : sqlEq collate a b = true ↔ collate a = collate b := beq_iff_eq

/-- A parcel has been created: what was checked, and what was written. -/
structure Created (collate : String → String) (authRequired : Bool) (data : ParcelCreate)
    (ownerId newId : String) (db : ParcelDb) (row : Parcel) (db' : ParcelDb) : Prop where
  run : (createFromDto authRequired data ownerId newId).run (parcelHandler collate) db =
    (.ok row, db')
  /-- the type that the existence check matches -/
  type : ∃ t, db.types.select (fun t => sqlEq collate t.id data.parcelTypeId) = some t
  row_eq : (newParcel authRequired data ownerId newId).row = some row
  fresh : ∀ r ∈ db.parcels.rows, collate r.id ≠ collate newId
  rows : db'.parcels.rows = db.parcels.rows ++ [row]
  types : db'.types = db.types
  userIds : db'.userIds = db.userIds

/-- The row of a new object has its fields. -/
theorem NewParcel.row_eq_some {p : NewParcel} {row : Parcel} (h : p.row = some row) :
    row.id = p.id ∧ row.name = p.name ∧ Weight.store p.weightKg = some row.weightKg ∧
      Money.store p.declaredValueUsd = some row.declaredValueUsd ∧
      row.sessionId = p.sessionId ∧ row.deliveryCostRub = none ∧
      row.parcelTypeId = p.parcelTypeId ∧ row.userId = p.userId := by
  rw [NewParcel.row] at h
  split at h
  · split at h
    · next weight value hweight hvalue =>
      obtain rfl := Option.some.inj h
      exact ⟨rfl, rfl, hweight, hvalue, rfl, rfl, rfl, rfl⟩
    · cases h
  · cases h

/-- What an `INSERT` has checked and written. -/
theorem insertParcel_eq_ok {p : NewParcel} (h : db.insertParcel collate p = .ok db') :
    ∃ row, p.row = some row ∧ (∀ r ∈ db.parcels.rows, collate r.id ≠ collate row.id) ∧
      db'.parcels.rows = db.parcels.rows ++ [row] ∧ db'.types = db.types ∧
      db'.userIds = db.userIds := by
  rw [ParcelDb.insertParcel] at h
  split at h
  · cases h
  · next row hrow =>
    split at h
    · next hchecks =>
      simp only [Bool.and_eq_true, Option.isNone_iff_eq_none] at hchecks
      split at h
      · next parcels hinsert =>
        obtain rfl := Except.ok.inj h
        refine ⟨row, hrow, fun r hr heq => ?_, (Table.insert_eq_some hinsert).1, rfl, rfl⟩
        exact Table.select_eq_none.mp hchecks.1.1 r hr (sqlEq_iff.mpr heq)
      · cases h
    · cases h

/-- The existence check finds a type. -/
def ParcelDb.knowsType (collate : String → String) (db : ParcelDb) (parcelTypeId : String) : Bool :=
  (db.types.select fun t => sqlEq collate t.id parcelTypeId).any fun t => t.id != ""

theorem knowsType_iff {parcelTypeId : String} : db.knowsType collate parcelTypeId = true ↔
    ¬ (((db.types.select fun t => sqlEq collate t.id parcelTypeId).map ParcelType.id).filter
      fun id => id != "").isNone = true := by
  rw [ParcelDb.knowsType]
  cases db.types.select fun t => sqlEq collate t.id parcelTypeId with
  | none => simp
  | some t => by_cases hid : t.id = "" <;> simp [Option.filter, hid]

theorem select_of_knowsType {parcelTypeId : String}
    (h : db.knowsType collate parcelTypeId = true) :
    ∃ t, db.types.select (fun t => sqlEq collate t.id parcelTypeId) = some t := by
  obtain ⟨t, ht, -⟩ := Option.any_eq_true _ _ |>.mp h
  exact ⟨t, ht⟩

/-- `create_from_dto` by its two checks. -/
theorem createFromDto_run (authRequired : Bool) (data : ParcelCreate) (ownerId newId : String) :
    (createFromDto authRequired data ownerId newId).run (parcelHandler collate) db =
      if db.knowsType collate data.parcelTypeId = true then
        if 0 < data.weightKg.coeff then
          (do
            ParcelProg.commitParcel (newParcel authRequired data ownerId newId)
            ParcelProg.refreshParcel newId : ParcelProg Parcel).run (parcelHandler collate) db
        else (.error (.businessError "Weight must be positive"), db)
      else (.error (.businessError "Unknown parcel type"), db) := by
  change Prog.run (parcelHandler collate) (if _ then _ else if _ then _ else _) db = _
  by_cases hknown : db.knowsType collate data.parcelTypeId = true
  · rw [if_neg (knowsType_iff.mp hknown), if_pos hknown]
    by_cases hweight : 0 < data.weightKg.coeff
    · rw [if_neg (not_le.mpr hweight), if_pos hweight]
    · rw [if_pos (not_lt.mp hweight), if_neg hweight]
      rfl
  · rw [if_neg hknown, if_pos (not_not.mp (mt knowsType_iff.mpr hknown))]
    rfl

/-- A payload with an unknown type. -/
theorem createFromDto_of_unknown (authRequired : Bool) (ownerId newId : String)
    (h : ¬ db.knowsType collate data.parcelTypeId = true) :
    (createFromDto authRequired data ownerId newId).run (parcelHandler collate) db =
      (.error (.businessError "Unknown parcel type"), db) := by
  rw [createFromDto_run, if_neg h]

/-- A payload with a known type that is refused by the database. -/
theorem createFromDto_of_refused (h : db.knowsType collate data.parcelTypeId = true)
    (hweight : 0 < data.weightKg.coeff) {e : Exn}
    (hinsert : db.insertParcel collate (newParcel authRequired data ownerId newId) = .error e) :
    (createFromDto authRequired data ownerId newId).run (parcelHandler collate) db =
      (.error e, db) := by
  rw [createFromDto_run, if_pos h, if_pos hweight]
  exact Prog.run_call_error (by rw [parcelHandler, hinsert])

/-- A payload with a known type that the database accepts. -/
theorem created_of_insert (hknown : db.knowsType collate data.parcelTypeId = true)
    (hweight : 0 < data.weightKg.coeff)
    (hinsert : db.insertParcel collate (newParcel authRequired data ownerId newId) = .ok db') :
    ∃ row, Created collate authRequired data ownerId newId db row db' := by
  obtain ⟨row, hrow, hfresh, hrows, htypes, husers⟩ := insertParcel_eq_ok hinsert
  have hid : row.id = newId := (NewParcel.row_eq_some hrow).1
  -- `session.refresh` finds the new row, and no older one
  have hrefresh : db'.parcels.select (fun r => sqlEq collate r.id newId) = some row := by
    rw [Table.select, hrows, List.find?_append]
    have hold : db.parcels.rows.find? (fun r => sqlEq collate r.id newId) = none := by
      refine List.find?_eq_none.mpr fun r hr heq => hfresh r hr ?_
      rw [hid]
      exact sqlEq_iff.mp heq
    rw [hold, Option.none_or, hid.symm]
    exact List.find?_cons_of_pos (sqlEq_iff.mpr rfl)
  have hcreate : parcelHandler collate (.commitParcel (newParcel authRequired data ownerId newId)) db =
      (.ok (), db') := by rw [parcelHandler, hinsert]
  refine ⟨row, ?_, select_of_knowsType hknown, hrow, hid ▸ hfresh, hrows, htypes, husers⟩
  rw [createFromDto_run, if_pos hknown, if_pos hweight]
  refine (Prog.run_call_ok hcreate).trans ?_
  exact Prog.run_call_ok (by rw [parcelHandler, hrefresh])

/-- **What `create_from_dto` does**: it creates the parcel and returns its row, or it raises
and leaves the database as it was. -/
theorem createFromDto_spec (collate : String → String) (authRequired : Bool)
    (data : ParcelCreate) (ownerId newId : String) (db : ParcelDb) :
    (∃ row db', Created collate authRequired data ownerId newId db row db') ∨
      ∃ e, (createFromDto authRequired data ownerId newId).run (parcelHandler collate) db =
        (.error e, db) := by
  by_cases hknown : db.knowsType collate data.parcelTypeId = true
  · by_cases hweight : 0 < data.weightKg.coeff
    · cases hinsert : db.insertParcel collate (newParcel authRequired data ownerId newId) with
      | error e => exact Or.inr ⟨e, createFromDto_of_refused hknown hweight hinsert⟩
      | ok db' =>
        obtain ⟨row, hcreated⟩ := created_of_insert hknown hweight hinsert
        exact Or.inl ⟨row, db', hcreated⟩
    · refine Or.inr ⟨.businessError "Weight must be positive", ?_⟩
      rw [createFromDto_run, if_pos hknown, if_neg hweight]
  · exact Or.inr ⟨_, createFromDto_of_unknown authRequired ownerId newId hknown⟩

/-- What a successful call has done. -/
theorem created_of_run {row : Parcel}
    (h : (createFromDto authRequired data ownerId newId).run (parcelHandler collate) db =
      (.ok row, db')) :
    Created collate authRequired data ownerId newId db row db' := by
  rcases createFromDto_spec collate authRequired data ownerId newId db with
    ⟨row', db'', hcreated⟩ | ⟨e, hrun⟩
  · cases h.symm.trans hcreated.run
    exact hcreated
  · cases h.symm.trans hrun

end Create

/-! ## Steps -/

/-- The row of `r` is still there, perhaps with another cost. -/
def Parcel.KeptIn (r : Parcel) (parcels : Table Parcel) : Prop :=
  ∃ cost, { r with deliveryCostRub := cost } ∈ parcels.rows

/-- No type and no row is lost. -/
structure Persists (db db' : ParcelDb) : Prop where
  types : db'.types = db.types
  rows : ∀ r ∈ db.parcels.rows, r.KeptIn db'.parcels

/-- What a write does. -/
inductive ParcelStep (collate : String → String) (db : ParcelDb) : ParcelMove → ParcelDb → Prop where
  | created {authRequired : Bool} {data : ParcelCreate} {ownerId newId : String} {row : Parcel}
      {db' : ParcelDb}
      (hcreated : Created collate authRequired data ownerId newId db row db') :
      ParcelStep collate db (.create authRequired data ownerId newId) db'
  | refused {authRequired : Bool} {data : ParcelCreate} {ownerId newId : String} :
      ParcelStep collate db (.create authRequired data ownerId newId) db
  | priced {costs : List (String × Money)} :
      ParcelStep collate db (.price costs) (db.price costs)
  | userAdded {id : String} :
      ParcelStep collate db (.addUser id) { db with userIds := id :: db.userIds }

section Steps

variable {collate : String → String} {db db' db'' : ParcelDb} {l : ParcelMove}

theorem parcelStep_of_step (h : (parcelSystem collate).step db l = some db') :
    ParcelStep collate db l db' := by
  cases l with
  | create authRequired data ownerId newId =>
    obtain rfl := Option.some.inj h
    rcases createFromDto_spec collate authRequired data ownerId newId db with
      ⟨row, db', hcreated⟩ | ⟨e, hrun⟩
    · rw [hcreated.run]
      exact .created hcreated
    · rw [hrun]
      exact .refused
  | price costs =>
    obtain rfl := Option.some.inj h
    exact .priced
  | addUser id =>
    obtain rfl := Option.some.inj h
    exact .userAdded

theorem Persists.refl (db : ParcelDb) : Persists db db :=
  ⟨rfl, fun r hr => ⟨r.deliveryCostRub, hr⟩⟩

theorem Persists.trans (h : Persists db db') (h' : Persists db' db'') : Persists db db'' := by
  refine ⟨h'.types.trans h.types, fun r hr => ?_⟩
  obtain ⟨cost, hr'⟩ := h.rows r hr
  obtain ⟨cost', hr''⟩ := h'.rows _ hr'
  exact ⟨cost', hr''⟩

/-- The row of a parcel after a batch of costs. -/
theorem Parcel.assignCost_eq (costs : List (String × Money)) (r : Parcel) :
    ∃ cost, r.assignCost costs = { r with deliveryCostRub := cost } := by
  rw [Parcel.assignCost]
  split
  · next cost _ => exact ⟨some cost, rfl⟩
  · exact ⟨r.deliveryCostRub, rfl⟩

theorem mem_price {costs : List (String × Money)} {r : Parcel} :
    r ∈ (db.price costs).parcels.rows ↔ ∃ r₀ ∈ db.parcels.rows, r₀.assignCost costs = r := by
  rw [ParcelDb.price, Table.mem_update]
  exact exists_congr fun r₀ => and_congr_right fun _ => by rw [if_pos rfl]

theorem Created.persists {authRequired : Bool} {data : ParcelCreate} {ownerId newId : String}
    {row : Parcel} (h : Created collate authRequired data ownerId newId db row db') :
    Persists db db' := by
  refine ⟨h.types, fun r hr => ⟨r.deliveryCostRub, ?_⟩⟩
  rw [h.rows]
  exact List.mem_append_left _ hr

theorem Created.mem {authRequired : Bool} {data : ParcelCreate} {ownerId newId : String}
    {row : Parcel} (h : Created collate authRequired data ownerId newId db row db') :
    row ∈ db'.parcels.rows := by
  rw [h.rows]
  exact List.mem_append_right _ (List.mem_singleton_self row)

/-- **Rows persist** along every step. -/
theorem persists_of_step (h : ParcelStep collate db l db') : Persists db db' := by
  cases h with
  | created hcreated => exact hcreated.persists
  | refused => exact .refl db
  | priced =>
    refine ⟨rfl, fun r hr => ?_⟩
    obtain ⟨cost, hcost⟩ := r.assignCost_eq _
    exact ⟨cost, mem_price.mpr ⟨r, hr, hcost⟩⟩
  | userAdded => exact ⟨rfl, fun r hr => ⟨r.deliveryCostRub, hr⟩⟩

/-- The row after a step comes from a row before it, or has just been created. -/
theorem row_before_step (h : ParcelStep collate db l db') {r' : Parcel}
    (hr' : r' ∈ db'.parcels.rows) :
    (∃ r ∈ db.parcels.rows, ∃ cost, r' = { r with deliveryCostRub := cost }) ∨
      ∃ authRequired data ownerId newId, l = .create authRequired data ownerId newId ∧
        Created collate authRequired data ownerId newId db r' db' := by
  have hold : r' ∈ db.parcels.rows → ∃ r ∈ db.parcels.rows, ∃ cost,
      r' = { r with deliveryCostRub := cost } := fun hr => ⟨r', hr, r'.deliveryCostRub, rfl⟩
  cases h with
  | created hcreated =>
    rw [hcreated.rows, List.mem_append, List.mem_singleton] at hr'
    rcases hr' with hr' | rfl
    · exact Or.inl (hold hr')
    · exact Or.inr ⟨_, _, _, _, rfl, hcreated⟩
  | refused => exact Or.inl (hold hr')
  | priced =>
    obtain ⟨r, hr, rfl⟩ := mem_price.mp hr'
    obtain ⟨cost, hcost⟩ := r.assignCost_eq _
    exact Or.inl ⟨r, hr, cost, hcost⟩
  | userAdded => exact Or.inl (hold hr')

/-- The primary keys differ for the database too, not only letter by letter. -/
def ParcelDb.Keyed (collate : String → String) (db : ParcelDb) : Prop :=
  db.parcels.rows.Pairwise fun r r' => collate r.id ≠ collate r'.id

theorem ParcelDb.Keyed.eq (h : db.Keyed collate) {r r' : Parcel} (hr : r ∈ db.parcels.rows)
    (hr' : r' ∈ db.parcels.rows) (heq : collate r.id = collate r'.id) : r = r' := by
  by_contra hne
  have hsymm : Std.Symm fun r r' : Parcel => collate r.id ≠ collate r'.id :=
    ⟨fun _ _ hab hba => hab hba.symm⟩
  exact h.forall hr hr' hne heq

/-- A primary key finds its row. -/
theorem ParcelDb.Keyed.select (h : db.Keyed collate) {r : Parcel} (hr : r ∈ db.parcels.rows) :
    db.parcels.select (fun r' => sqlEq collate r'.id r.id) = some r := by
  cases hselect : db.parcels.select fun r' => sqlEq collate r'.id r.id with
  | none => exact absurd (sqlEq_iff.mpr rfl) (Table.select_eq_none.mp hselect r hr)
  | some r' =>
    obtain ⟨hr', heq⟩ := Table.select_mem hselect
    rw [h.eq hr' hr (sqlEq_iff.mp heq)]

theorem ParcelDb.Keyed.step (h : db.Keyed collate) (hstep : ParcelStep collate db l db') :
    db'.Keyed collate := by
  cases hstep with
  | created hcreated =>
    have hid := (NewParcel.row_eq_some hcreated.row_eq).1
    rw [ParcelDb.Keyed, hcreated.rows, List.pairwise_append]
    refine ⟨h, List.pairwise_singleton _ _, fun r hr r' hr' => ?_⟩
    rw [List.mem_singleton.mp hr', hid]
    exact hcreated.fresh r hr
  | refused => exact h
  | priced =>
    have hrows : ∀ costs, (db.price costs).parcels.rows =
        db.parcels.rows.map (Parcel.assignCost costs) := by
      intro costs
      rw [ParcelDb.price, Table.update_rows]
      exact List.map_congr_left fun r _ => if_pos rfl
    rw [ParcelDb.Keyed, hrows, List.pairwise_map]
    refine List.Pairwise.imp (fun hne => ?_) h
    rwa [Parcel.assignCost_id, Parcel.assignCost_id]
  | userAdded => exact h

/-! ## Runs -/

/-- Rows persist along every run. -/
theorem Persists.of_run {moves : List ParcelMove}
    (hrun : (parcelSystem collate).run db moves = some db') : Persists db db' :=
  System.run_relates Persists.refl Persists.trans
    (fun _ _ _ hstep => persists_of_step (parcelStep_of_step hstep)) hrun

theorem ParcelDb.Keyed.of_run {moves : List ParcelMove} (h : db.Keyed collate)
    (hrun : (parcelSystem collate).run db moves = some db') : db'.Keyed collate :=
  System.run_preserves (I := ParcelDb.Keyed collate)
    (fun _ _ _ hI hstep => hI.step (parcelStep_of_step hstep)) h hrun

end Steps

/-! ## A small database -/

/-- Two types and no parcels. -/
def sampleTypesDb : ParcelDb where
  types := ⟨[⟨"type-a", "Clothes"⟩, ⟨"type-b", "Other"⟩], by decide⟩
  parcels := Table.empty
  userIds := []

/-- A parcel of one kilogram whose type is spelled as given. -/
def sampleCreate (parcelTypeId : String) : ParcelCreate where
  name := "book"
  weightKg := ⟨1000, -3⟩
  declaredValueUsd := ⟨1000, -2⟩
  parcelTypeId := parcelTypeId

end ParcelDelivery
