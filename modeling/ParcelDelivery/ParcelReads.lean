import ParcelDelivery.ParcelApi

/-!
# The read paths

What `list_owned`, `get_owned` and `list_parcels` answer on a database, and whose rows
they show.
-/

namespace ParcelDelivery

open Relational DecimalArith Process ParcelService

/-- The owner column of the mode holds this owner id. -/
def Parcel.ownedBy (authRequired : Bool) (ownerId : String) (r : Parcel) : Prop :=
  if authRequired then r.userId = some ownerId else r.sessionId = ownerId

section Service

variable {collate : String → String} {authRequired : Bool} {ownerId ownerId' parcelId : String}
  {filters : ParcelFilterParams} {pagination : PaginationParams} {limit offset : ℕ}
  {db db' : ParcelDb}

theorem listOwned_run : (listOwned authRequired ownerId filters limit offset).run
    (parcelHandler collate) db =
      (.ok ((db.parcels.selectAll
          ((ownedQuery authRequired ownerId filters).matches collate)).length,
        (((db.selectOrdered collate (ownedQuery authRequired ownerId filters)).drop offset).take
          limit).map db.load), db) := rfl

theorem ownerMatch_iff {r : Parcel} : ownerMatch authRequired r ownerId = true ↔
    r.ownedBy authRequired ownerId := by
  cases authRequired <;> exact beq_iff_eq

/-- What `list_owned` selects belongs to the owner, where SQL compares letter by letter. -/
theorem ownedBy_of_matches (hexact : Function.Injective collate) {r : Parcel}
    (h : (ownedQuery authRequired ownerId filters).matches collate r = true) :
    r.ownedBy authRequired ownerId := by
  simp only [OwnedQuery.matches, Bool.and_eq_true] at h
  obtain ⟨⟨howner, -⟩, -⟩ := h
  rw [Parcel.ownedBy]
  cases authRequired with
  | true =>
    cases huser : r.userId with
    | none =>
      rw [huser] at howner
      cases howner
    | some userId =>
      rw [huser] at howner
      exact congrArg some (hexact (sqlEq_iff.mp howner))
  | false => exact hexact (sqlEq_iff.mp howner)

theorem mem_selectOrdered {q : OwnedQuery} {r : Parcel} (h : r ∈ db.selectOrdered collate q) :
    r ∈ db.parcels.rows ∧ q.matches collate r = true := by
  rw [ParcelDb.selectOrdered, List.mem_insertionSort] at h
  exact List.mem_filter.mp h

/-- Every row of a page is a row of the owner. -/
theorem mem_of_listOwned (hexact : Function.Injective collate) {total : ℕ}
    {rows : List LoadedParcel}
    (h : (listOwned authRequired ownerId filters limit offset).run (parcelHandler collate) db =
      (.ok (total, rows), db')) :
    ∀ p ∈ rows, p.row ∈ db.parcels.rows ∧ p.row.ownedBy authRequired ownerId := by
  rw [listOwned_run] at h
  obtain ⟨-, rfl⟩ := Prod.mk.inj (Except.ok.inj (Prod.mk.inj h).1)
  intro p hp
  obtain ⟨r, hr, rfl⟩ := List.mem_map.mp hp
  obtain ⟨hmem, hmatches⟩ := mem_selectOrdered (List.mem_of_mem_drop (List.mem_of_mem_take hr))
  exact ⟨hmem, ownedBy_of_matches hexact hmatches⟩

/-- Owners of nothing get the same, empty list. -/
theorem listOwned_of_none (hexact : Function.Injective collate)
    (h : ∀ r ∈ db.parcels.rows, ¬ r.ownedBy authRequired ownerId)
    (h' : ∀ r ∈ db.parcels.rows, ¬ r.ownedBy authRequired ownerId') :
    (listOwned authRequired ownerId filters limit offset).run (parcelHandler collate) db =
      (listOwned authRequired ownerId' filters limit offset).run (parcelHandler collate) db := by
  have hnone : ∀ {o}, (∀ r ∈ db.parcels.rows, ¬ r.ownedBy authRequired o) →
      db.parcels.selectAll ((ownedQuery authRequired o filters).matches collate) = [] := by
    intro o hnot
    refine List.filter_eq_nil_iff.mpr fun r hr hmatches => ?_
    exact hnot r hr (ownedBy_of_matches hexact hmatches)
  rw [listOwned_run, listOwned_run, ParcelDb.selectOrdered, ParcelDb.selectOrdered, hnone h,
    hnone h']

/-- `get_owned` behind its `SELECT`. -/
theorem getOwned_of_select :
    (getOwned authRequired parcelId ownerId).run (parcelHandler collate) db =
      Prog.run (parcelHandler collate)
        (match (db.parcels.select fun r => sqlEq collate r.id parcelId).map db.load with
        | none => .throw (.notFoundError "Parcel not found")
        | some parcel =>
          if ownerMatch authRequired parcel.row ownerId then .ret parcel
          else .throw (.unauthorizedError "Parcel not found")) db := rfl

/-- `get_owned` alone. -/
theorem getOwned_run : (getOwned authRequired parcelId ownerId).run (parcelHandler collate) db =
    (match db.parcels.select fun r => sqlEq collate r.id parcelId with
      | none => .error (.notFoundError "Parcel not found")
      | some row =>
        if ownerMatch authRequired row ownerId then .ok (db.load row)
        else .error (.unauthorizedError "Parcel not found"), db) := by
  rw [getOwned_of_select]
  cases db.parcels.select fun r => sqlEq collate r.id parcelId with
  | none => rfl
  | some row =>
    rw [Option.map_some]
    change Prog.run _ (if ownerMatch authRequired row ownerId then _ else _) db = (if _ then _ else _, _)
    split <;> rfl

/-- What `get_owned` has found and checked. -/
theorem row_of_getOwned {loaded : LoadedParcel}
    (h : (getOwned authRequired parcelId ownerId).run (parcelHandler collate) db =
      (.ok loaded, db')) :
    db.parcels.select (fun r => sqlEq collate r.id parcelId) = some loaded.row ∧
      loaded.row.ownedBy authRequired ownerId := by
  rw [getOwned_run] at h
  have h := (Prod.mk.inj h).1
  cases hrow : db.parcels.select fun r => sqlEq collate r.id parcelId with
  | none =>
    rw [hrow] at h
    cases h
  | some row =>
    rw [hrow] at h
    dsimp only at h
    split at h
    · next hmatch =>
      cases h
      exact ⟨rfl, ownerMatch_iff.mp hmatch⟩
    · cases h

/-- The row that `get_owned` returns has the id that was asked for, as the database compares
them. -/
theorem id_of_getOwned {loaded : LoadedParcel}
    (h : (getOwned authRequired parcelId ownerId).run (parcelHandler collate) db =
      (.ok loaded, db')) : collate loaded.row.id = collate parcelId :=
  sqlEq_iff.mp (Table.select_mem (row_of_getOwned h).1).2

/-- What `get_owned` returns is a row of the owner. -/
theorem mem_of_getOwned {loaded : LoadedParcel}
    (h : (getOwned authRequired parcelId ownerId).run (parcelHandler collate) db =
      (.ok loaded, db')) :
    loaded.row ∈ db.parcels.rows ∧ loaded.row.ownedBy authRequired ownerId := by
  obtain ⟨hselect, howned⟩ := row_of_getOwned h
  exact ⟨(Table.select_mem hselect).1, howned⟩

/-- `list_parcels` alone. -/
theorem listParcels_run : (listParcels authRequired pagination filters ownerId).run
    (parcelHandler collate) db =
      match (listOwned authRequired ownerId filters pagination.limit pagination.offset).run
        (parcelHandler collate) db with
      | (.ok (total, rows), _) =>
        (match PaginatedResponse.ofRows total rows pagination with
          | some page => .ok page
          | none => .error .valueError, db)
      | (.error e, _) => (.error e, db) := by
  rw [listParcels, Prog.run_bind, listOwned_run]
  dsimp only
  generalize PaginatedResponse.ofRows _ _ pagination = page
  cases page with
  | some _ | none => rfl

/-- A list request leaves the database as it is. -/
theorem listParcels_readOnly (collate : String → String) (authRequired : Bool)
    (pagination : PaginationParams) (filters : ParcelFilterParams) (ownerId : String)
    (db : ParcelDb) : ∃ result, (listParcels authRequired pagination filters ownerId).run
      (parcelHandler collate) db = (result, db) := by
  rw [listParcels_run, listOwned_run]
  exact ⟨_, rfl⟩

/-- The page of `list_parcels` shows the rows of `list_owned`. -/
theorem listOwned_of_listParcels {page : PaginatedResponse}
    (h : (listParcels authRequired pagination filters ownerId).run (parcelHandler collate) db =
      (.ok page, db')) :
    ∃ rows, (listOwned authRequired ownerId filters pagination.limit pagination.offset).run
        (parcelHandler collate) db = (.ok (page.total, rows), db) ∧
      page.items.map ParcelRead.id = rows.map fun p => p.row.id := by
  rw [listParcels_run, listOwned_run] at h
  dsimp only at h
  split at h
  · next page' hpage =>
    cases (Prod.mk.inj h).1
    obtain ⟨items, hitems, rfl⟩ := Option.map_eq_some_iff.mp hpage
    exact ⟨_, listOwned_run, ids_of_rows hitems⟩
  · cases (Prod.mk.inj h).1

end Service

end ParcelDelivery
