import ParcelDelivery.ParcelReads

/-!
# Whose parcels are shown

`create_from_dto` writes the owner into the column of the mode and leaves a sentinel in the
other one: `''` in `session_id`, `NULL` in `user_id`. `list_owned` compares the column in
SQL, `get_owned` in Python.

* Where SQL compares letter by letter, a caller is shown a parcel by either path exactly
  when it was created in the caller's mode for the caller's owner id
  (`exposed_iff_created`).
* Under any other collation the two paths agree on a parcel and an owner exactly when the
  column does not equal the owner id up to the collation only (`reads_agree_iff`).
-/

namespace ParcelDelivery

open Relational DecimalArith Process TransitionSystem ParcelService

/-! ## The two read paths -/

section Reads

variable (collate : String → String) (db : ParcelDb) (authRequired : Bool) (ownerId : String)

/-- `list_owned` without filters, with room for every row, returns the row. -/
def Listed (r : Parcel) : Prop :=
  ∃ total rows, (listOwned authRequired ownerId ⟨none, none⟩ db.parcels.rows.length 0).run
    (parcelHandler collate) db = (.ok (total, rows), db) ∧ ∃ p ∈ rows, p.row = r

/-- `get_owned` returns the row by its id. -/
def Got (r : Parcel) : Prop :=
  ∃ loaded, (getOwned authRequired r.id ownerId).run (parcelHandler collate) db =
    (.ok loaded, db) ∧ loaded.row = r

/-- The owner column of the mode equals the owner id for the database. -/
def Parcel.sqlOwnedBy (r : Parcel) : Prop :=
  if authRequired then ∃ userId, r.userId = some userId ∧ collate userId = collate ownerId
  else collate r.sessionId = collate ownerId

end Reads

section Agreement

variable {collate : String → String} {db : ParcelDb} {authRequired : Bool} {ownerId : String}
  {r : Parcel}

theorem matches_iff_sqlOwnedBy : (ownedQuery authRequired ownerId ⟨none, none⟩).matches collate r =
    true ↔ r.sqlOwnedBy collate authRequired ownerId := by
  have hmatches : (ownedQuery authRequired ownerId ⟨none, none⟩).matches collate r =
      if authRequired then r.userId.any fun userId => sqlEq collate userId ownerId
      else sqlEq collate r.sessionId ownerId := by
    rw [OwnedQuery.matches]
    exact (Bool.and_true _).trans (Bool.and_true _)
  rw [hmatches, Parcel.sqlOwnedBy]
  cases authRequired with
  | true => simp only [if_pos, Option.any_eq_true, sqlEq_iff]
  | false => exact sqlEq_iff

/-- What equals letter by letter equals for the database. -/
theorem Parcel.ownedBy.sql (h : r.ownedBy authRequired ownerId) :
    r.sqlOwnedBy collate authRequired ownerId := by
  cases authRequired with
  | true => exact ⟨ownerId, h, rfl⟩
  | false => exact congrArg collate h

/-- The list shows the rows whose owner column equals the owner id in SQL. -/
theorem listed_iff : Listed collate db authRequired ownerId r ↔
    r ∈ db.parcels.rows ∧ r.sqlOwnedBy collate authRequired ownerId := by
  have hlength : (db.selectOrdered collate (ownedQuery authRequired ownerId ⟨none, none⟩)).length ≤
      db.parcels.rows.length := by
    rw [ParcelDb.selectOrdered, List.length_insertionSort]
    exact List.length_filter_le _ _
  rw [← matches_iff_sqlOwnedBy]
  refine ⟨?_, ?_⟩
  · rintro ⟨total, rows, hrun, p, hp, rfl⟩
    rw [listOwned_run] at hrun
    obtain ⟨-, rfl⟩ := Prod.mk.inj (Except.ok.inj (Prod.mk.inj hrun).1)
    obtain ⟨r, hr, rfl⟩ := List.mem_map.mp hp
    exact mem_selectOrdered (List.mem_of_mem_drop (List.mem_of_mem_take hr))
  · rintro ⟨hr, hmatches⟩
    refine ⟨_, _, listOwned_run, db.load r, List.mem_map_of_mem ?_, rfl⟩
    rw [List.drop_zero, List.take_of_length_le hlength, ParcelDb.selectOrdered,
      List.mem_insertionSort]
    exact List.mem_filter.mpr ⟨hr, hmatches⟩

/-- `get_owned` shows the rows whose owner column is the owner id. -/
theorem got_iff (hkeyed : db.Keyed collate) (hr : r ∈ db.parcels.rows) :
    Got collate db authRequired ownerId r ↔ r.ownedBy authRequired ownerId := by
  refine ⟨?_, ?_⟩
  · rintro ⟨loaded, hrun, rfl⟩
    exact (mem_of_getOwned hrun).2
  · intro howned
    refine ⟨db.load r, ?_, rfl⟩
    rw [getOwned_run, hkeyed.select hr]
    dsimp only
    rw [if_pos (ownerMatch_iff.mpr howned)]

/-- **The two read paths agree** on a parcel and an owner exactly when the owner column that
equals the owner id for the database is the owner id. -/
theorem reads_agree_iff (collate : String → String) (db : ParcelDb) (authRequired : Bool)
    (ownerId : String) (r : Parcel) (hkeyed : db.Keyed collate) (hr : r ∈ db.parcels.rows) :
    (Listed collate db authRequired ownerId r ↔ Got collate db authRequired ownerId r) ↔
      (r.sqlOwnedBy collate authRequired ownerId → r.ownedBy authRequired ownerId) := by
  rw [listed_iff, got_iff hkeyed hr]
  refine ⟨?_, ?_⟩
  · intro h hsql
    exact h.mp ⟨hr, hsql⟩
  · intro h
    exact ⟨fun hlisted => h hlisted.2, fun howned => ⟨hr, howned.sql⟩⟩

end Agreement

/-! ## A session id in capitals -/

/-- The session id of a client. -/
def sampleSession : String := "3f0f2a52-6f0e-4c7b-9d3c-0a4c8f2b7e11"

/-- The same UUID, spelled in capitals. -/
def sampleSessionInCapitals : String := "3F0F2A52-6F0E-4C7B-9D3C-0A4C8F2B7E11"

/-- A parcel of that session. -/
def sampleSessionParcel (sessionId : String) : Parcel :=
  { sampleParcel "p1" with sessionId := sessionId, parcelTypeId := "type-a" }

/-- The database with that parcel. -/
def sampleSessionDb (sessionId : String) : ParcelDb where
  types := sampleTypesDb.types
  parcels := ⟨[sampleSessionParcel sessionId], List.pairwise_singleton _ _⟩
  userIds := []

theorem reads_agree_iff_sample :
    Listed foldCase (sampleSessionDb sampleSession) false sampleSession
        (sampleSessionParcel sampleSession) ↔
      Got foldCase (sampleSessionDb sampleSession) false sampleSession
        (sampleSessionParcel sampleSession) :=
  (reads_agree_iff foldCase (sampleSessionDb sampleSession) false sampleSession
    (sampleSessionParcel sampleSession) (List.pairwise_singleton _ _)
    (List.mem_singleton_self _)).mpr fun _ => rfl

/-- The middleware keeps both spellings. A parcel created under one of them is listed under the
other, and refused by its id. -/
theorem capital_session_splits_reads :
    assignSessionId (some sampleSession) "u1" = sampleSession ∧
      assignSessionId (some sampleSessionInCapitals) "u1" = sampleSessionInCapitals ∧
      (createFromDto false (sampleCreate "type-a") sampleSessionInCapitals "p1").run
        (parcelHandler foldCase) sampleTypesDb =
          (.ok (sampleSessionParcel sampleSessionInCapitals),
            sampleSessionDb sampleSessionInCapitals) ∧
      ¬ (Listed foldCase (sampleSessionDb sampleSessionInCapitals) false sampleSession
          (sampleSessionParcel sampleSessionInCapitals) ↔
        Got foldCase (sampleSessionDb sampleSessionInCapitals) false sampleSession
          (sampleSessionParcel sampleSessionInCapitals)) := by
  refine ⟨by decide, by decide, by rfl, fun h => ?_⟩
  have hlisted : Listed foldCase (sampleSessionDb sampleSessionInCapitals) false sampleSession
      (sampleSessionParcel sampleSessionInCapitals) :=
    listed_iff.mpr ⟨List.mem_singleton_self _, by
      change foldCase sampleSessionInCapitals = foldCase sampleSession
      decide⟩
  have hkeyed : (sampleSessionDb sampleSessionInCapitals).Keyed foldCase :=
    List.pairwise_singleton _ _
  have howned : sampleSessionInCapitals = sampleSession :=
    (got_iff hkeyed (List.mem_singleton_self _)).mp (h.mp hlisted)
  exact absurd howned (by decide)

/-! ## Alternating modes -/

/-- The owner columns, as `create_from_dto` writes them in a mode. -/
def Parcel.writtenFor (authRequired : Bool) (ownerId : String) (r : Parcel) : Prop :=
  r.sessionId = (if authRequired then "" else ownerId) ∧
    r.userId = if authRequired then some ownerId else none

/-- A call in the mode, for the owner, has created the parcel with this id. -/
def CreatedFor (collate : String → String) (db₀ : ParcelDb) (moves : List ParcelMove)
    (authRequired : Bool) (ownerId id : String) : Prop :=
  ∃ before data after db₁ row db₂, moves = before ++ .create authRequired data ownerId id :: after ∧
    (parcelSystem collate).run db₀ before = some db₁ ∧
    (createFromDto authRequired data ownerId id).run (parcelHandler collate) db₁ = (.ok row, db₂)

/-- Every row has been created for the owner of its columns. -/
structure OwnersWritten (collate : String → String) (db₀ : ParcelDb) (moves : List ParcelMove)
    (db : ParcelDb) : Prop where
  keyed : db.Keyed collate
  created_iff : ∀ authRequired ownerId id, CreatedFor collate db₀ moves authRequired ownerId id ↔
    ∃ r ∈ db.parcels.rows, r.id = id ∧ r.writtenFor authRequired ownerId
  written : ∀ r ∈ db.parcels.rows, ∃ authRequired ownerId, r.writtenFor authRequired ownerId

section Modes

variable {collate : String → String} {db₀ db db' : ParcelDb} {moves : List ParcelMove}
  {l : ParcelMove} {authRequired : Bool} {ownerId id : String} {r : Parcel}

/-- **The sentinels are nobody's owner id**: no column of the other mode is taken for an owner. -/
theorem ownedBy_iff_writtenFor (hcaller : authRequired = false → ownerId ≠ "")
    (hwritten : ∃ authRequired ownerId, r.writtenFor authRequired ownerId) :
    r.ownedBy authRequired ownerId ↔ r.writtenFor authRequired ownerId := by
  obtain ⟨mode, owner, hsession, huser⟩ := hwritten
  simp only [Parcel.ownedBy, Parcel.writtenFor, hsession, huser]
  cases authRequired with
  | true => cases mode <;> simp
  | false =>
    have hne := hcaller rfl
    cases mode with
    | true => simp [hne.symm]
    | false => simp

/-- A history with one more move. -/
theorem createdFor_append (hrun : (parcelSystem collate).run db₀ moves = some db) :
    CreatedFor collate db₀ (moves ++ [l]) authRequired ownerId id ↔
      CreatedFor collate db₀ moves authRequired ownerId id ∨
        ∃ data row db₂, l = .create authRequired data ownerId id ∧
          (createFromDto authRequired data ownerId id).run (parcelHandler collate) db =
            (.ok row, db₂) := by
  refine ⟨?_, ?_⟩
  · rintro ⟨before, data, after, db₁, row, db₂, heq, hbefore, hcreate⟩
    rcases List.eq_nil_or_concat after with rfl | ⟨after, last, rfl⟩
    · obtain ⟨rfl, hl⟩ := List.append_inj' heq rfl
      obtain rfl := Option.some.inj (hrun.symm.trans hbefore)
      exact Or.inr ⟨data, row, db₂, (List.cons.inj hl).1, hcreate⟩
    · rw [List.concat_eq_append, ← List.cons_append, ← List.append_assoc] at heq
      obtain ⟨rfl, -⟩ := List.append_inj' heq rfl
      exact Or.inl ⟨before, data, after, db₁, row, db₂, rfl, hbefore, hcreate⟩
  · rintro (⟨before, data, after, db₁, row, db₂, rfl, hbefore, hcreate⟩ | ⟨data, row, db₂, rfl, hcreate⟩)
    · refine ⟨before, data, after ++ [l], db₁, row, db₂, ?_, hbefore, hcreate⟩
      rw [List.append_assoc, List.cons_append]
    · exact ⟨moves, data, [], db, row, db₂, rfl, hrun, hcreate⟩

/-- The columns tell the mode and the owner. -/
theorem Parcel.writtenFor.unique {mode : Bool} {owner : String}
    (h : r.writtenFor authRequired ownerId) (h' : r.writtenFor mode owner) :
    authRequired = mode ∧ ownerId = owner := by
  obtain ⟨hsession, huser⟩ := h
  obtain ⟨hsession', huser'⟩ := h'
  rw [hsession] at hsession'
  rw [huser] at huser'
  cases authRequired <;> cases mode <;> simp_all

theorem Created.writtenFor {data : ParcelCreate} {newId : String}
    (h : Created collate authRequired data ownerId newId db r db') :
    r.id = newId ∧ r.writtenFor authRequired ownerId := by
  obtain ⟨hid, -, -, -, hsession, -, -, huser⟩ := NewParcel.row_eq_some h.row_eq
  exact ⟨hid, hsession, huser⟩

/-- **Every write keeps the owners written.** -/
theorem OwnersWritten.step (h : OwnersWritten collate db₀ moves db)
    (hrun : (parcelSystem collate).run db₀ moves = some db)
    (hstep : (parcelSystem collate).step db l = some db') :
    OwnersWritten collate db₀ (moves ++ [l]) db' := by
  have hmove := parcelStep_of_step hstep
  refine ⟨h.keyed.step hmove, fun authRequired ownerId id => ?_, fun r' hr' => ?_⟩
  · rw [createdFor_append hrun, h.created_iff]
    refine ⟨?_, ?_⟩
    · rintro (⟨r, hr, hid, hwritten⟩ | ⟨data, row, db₂, rfl, hcreate⟩)
      · obtain ⟨cost, hr'⟩ := (persists_of_step hmove).rows r hr
        exact ⟨_, hr', hid, hwritten⟩
      · obtain rfl : db₂ = db' := Option.some.inj ((congrArg
          (fun outcome : Except Exn Parcel × ParcelDb => some outcome.2) hcreate).symm.trans hstep)
        have hcreated := created_of_run hcreate
        exact ⟨row, hcreated.mem, hcreated.writtenFor⟩
    · rintro ⟨r', hr', hid, hwritten⟩
      rcases row_before_step hmove hr' with ⟨r, hr, cost, rfl⟩ |
        ⟨mode, data, owner, newId, rfl, hcreated⟩
      · exact Or.inl ⟨r, hr, hid, hwritten⟩
      · obtain ⟨hnew, hwritten'⟩ := hcreated.writtenFor
        obtain ⟨rfl, rfl⟩ := hwritten.unique hwritten'
        obtain rfl := hid.symm.trans hnew
        exact Or.inr ⟨data, r', db', rfl, hcreated.run⟩
  · rcases row_before_step hmove hr' with ⟨r, hr, cost, rfl⟩ |
      ⟨mode, data, owner, newId, rfl, hcreated⟩
    · exact h.written r hr
    · exact ⟨mode, owner, hcreated.writtenFor.2⟩

theorem ownersWritten_of_run (hempty : db₀.parcels.rows = [])
    (hrun : (parcelSystem collate).run db₀ moves = some db) :
    OwnersWritten collate db₀ moves db := by
  refine System.run_history ?_ (fun _ _ _ _ hbefore h hstep => h.step hbefore hstep) hrun
  refine ⟨?_, fun authRequired ownerId id => ⟨?_, ?_⟩, fun r hr => ?_⟩
  · rw [ParcelDb.Keyed, hempty]
    exact List.Pairwise.nil
  · rintro ⟨before, data, after, db₁, row, db₂, heq, -⟩
    exact absurd heq.symm (List.append_ne_nil_of_right_ne_nil before (List.cons_ne_nil _ after))
  · rintro ⟨r, hr, -⟩
    rw [hempty] at hr
    exact absurd hr List.not_mem_nil
  · rw [hempty] at hr
    exact absurd hr List.not_mem_nil

end Modes

/-- **Ownership isolation across modes**: after any alternation of calls in the two modes, each
read path shows a caller the parcels that were created in the caller's mode for the caller. -/
theorem exposed_iff_created (collate : String → String) (db₀ db : ParcelDb)
    (moves : List ParcelMove) (authRequired : Bool) (ownerId : String)
    (hexact : Function.Injective collate) (hempty : db₀.parcels.rows = [])
    (hrun : (parcelSystem collate).run db₀ moves = some db)
    (hcaller : authRequired = false → ownerId ≠ "") :
    ∀ id, ((∃ r, r.id = id ∧ Listed collate db authRequired ownerId r) ↔
        CreatedFor collate db₀ moves authRequired ownerId id) ∧
      ((∃ loaded, (getOwned authRequired id ownerId).run (parcelHandler collate) db =
          (.ok loaded, db)) ↔
        CreatedFor collate db₀ moves authRequired ownerId id) := by
  have howners := ownersWritten_of_run hempty hrun
  intro id
  rw [howners.created_iff]
  have hsql : ∀ r : Parcel, r.sqlOwnedBy collate authRequired ownerId ↔
      r.ownedBy authRequired ownerId := fun r =>
    ⟨fun h => ownedBy_of_matches hexact (matches_iff_sqlOwnedBy.mpr h), Parcel.ownedBy.sql⟩
  have howned : ∀ r ∈ db.parcels.rows,
      (r.ownedBy authRequired ownerId ↔ r.writtenFor authRequired ownerId) :=
    fun r hr => ownedBy_iff_writtenFor hcaller (howners.written r hr)
  refine ⟨⟨?_, ?_⟩, ?_, ?_⟩
  · rintro ⟨r, hid, hlisted⟩
    rw [listed_iff, hsql] at hlisted
    exact ⟨r, hlisted.1, hid, (howned r hlisted.1).mp hlisted.2⟩
  · rintro ⟨r, hr, hid, hwritten⟩
    refine ⟨r, hid, ?_⟩
    rw [listed_iff, hsql]
    exact ⟨hr, (howned r hr).mpr hwritten⟩
  · rintro ⟨loaded, hget⟩
    obtain ⟨hr, hmatch⟩ := mem_of_getOwned hget
    exact ⟨loaded.row, hr, hexact (id_of_getOwned hget), (howned loaded.row hr).mp hmatch⟩
  · rintro ⟨r, hr, rfl, hwritten⟩
    obtain ⟨loaded, hget, -⟩ := (got_iff howners.keyed hr).mpr ((howned r hr).mpr hwritten)
    exact ⟨loaded, hget⟩

/-- A parcel of each mode: the user's and the session's. -/
def sampleModeMoves : List ParcelMove :=
  [.addUser "user-1", .create true (sampleCreate "type-a") "user-1" "p1",
    .create false (sampleCreate "type-b") sampleSession "p2"]

theorem exposed_iff_created_sample :
    ∃ db, (parcelSystem id).run sampleTypesDb sampleModeMoves = some db ∧
      ∀ parcelId, ((∃ r, r.id = parcelId ∧ Listed id db false sampleSession r) ↔
          CreatedFor id sampleTypesDb sampleModeMoves false sampleSession parcelId) ∧
        ((∃ loaded, (getOwned false parcelId sampleSession).run (parcelHandler id) db =
            (.ok loaded, db)) ↔
          CreatedFor id sampleTypesDb sampleModeMoves false sampleSession parcelId) :=
  ⟨_, rfl, exposed_iff_created id sampleTypesDb _ sampleModeMoves false sampleSession
    (fun _ _ heq => heq) rfl rfl (by decide)⟩

end ParcelDelivery
