import ParcelDelivery.ParcelReads

/-!
# What is created can be read

The existence check and the foreign key compare the type of a new parcel as the database
does, the related row is attached letter by letter, and a response without a type does
not validate. So a parcel can be read, and the pages that show it can be sent, exactly as
long as parcels are created with the type spelled as it is stored
(`created_parcels_readable_iff`).
-/

namespace ParcelDelivery

open Relational DecimalArith Process TransitionSystem ParcelService

/-! ## Reading -/

section Reading

variable (collate : String → String) (db : ParcelDb)

/-- The answer of `get_parcel`, computed on the database. -/
def detailResponse (authRequired : Bool) (parcelId ownerId : String) : Response :=
  respond getParcelRespond getParcelRaise
    ((getOwned authRequired parcelId ownerId).run (parcelHandler collate) db).1

/-- The answer of `list_parcels`, computed on the database. -/
def listResponse (authRequired : Bool) (pagination : PaginationParams)
    (filters : ParcelFilterParams) (ownerId : String) : Response :=
  respond .page .ofExn
    ((listParcels authRequired pagination filters ownerId).run (parcelHandler collate) db).1

/-- The page of an owner contains the row. -/
def InPage (authRequired : Bool) (pagination : PaginationParams) (filters : ParcelFilterParams)
    (ownerId : String) (r : Parcel) : Prop :=
  ∃ total rows, (listOwned authRequired ownerId filters pagination.limit pagination.offset).run
    (parcelHandler collate) db = (.ok (total, rows), db) ∧ ∃ p ∈ rows, p.row = r

/-- The body shows the row, with the type that the existence check matches. -/
structure Shows (r : Parcel) (body : ParcelRead) : Prop where
  id : body.id = r.id
  name : body.name = r.name
  weightKg : body.weightKg = r.weightKg.1.toDecimal
  declaredValueUsd : body.declaredValueUsd = r.declaredValueUsd.1.toDecimal
  parcelType : ∃ t, db.types.select (fun t => sqlEq collate t.id r.parcelTypeId) = some t ∧
    body.parcelType = ⟨t.id, t.name⟩

/-- The owner gets the row by its id and in every page that contains it, and some page of
every size does. -/
structure Readable (authRequired : Bool) (ownerId : String) (r : Parcel) : Prop where
  detail : ∃ body, detailResponse collate db authRequired r.id ownerId = .parcel body ∧
    Shows collate db r body
  pages : ∀ pagination filters, InPage collate db authRequired pagination filters ownerId r →
    ∃ page, listResponse collate db authRequired pagination filters ownerId = .page page ∧
      ∃ body ∈ page.items, Shows collate db r body
  listed : ∀ limit, 0 < limit →
    ∃ offset, InPage collate db authRequired ⟨limit, offset⟩ ⟨none, none⟩ ownerId r

/-- Every row can be read by its owner. -/
def AllReadable : Prop :=
  ∀ r ∈ db.parcels.rows, ∀ authRequired ownerId, r.ownedBy authRequired ownerId →
    Readable collate db authRequired ownerId r

end Reading

/-- The type is spelled as it is stored. -/
def ParcelDb.spellsType (db : ParcelDb) (parcelTypeId : String) : Bool :=
  db.types.rows.any fun t => t.id == parcelTypeId

/-- A parcel that is created has its type spelled as it is stored. -/
def SpelledAsStored (collate : String → String) (db : ParcelDb) (l : ParcelMove) (db' : ParcelDb) :
    Prop :=
  ∀ authRequired data ownerId newId row, l = .create authRequired data ownerId newId →
    (createFromDto authRequired data ownerId newId).run (parcelHandler collate) db =
      (.ok row, db') →
    db.spellsType data.parcelTypeId = true

/-- The state of a database all of whose parcels can be read. -/
structure WellSpelled (collate : String → String) (db : ParcelDb) : Prop where
  keyed : db.Keyed collate
  typesKeyed : db.types.rows.Pairwise fun t t' => collate t.id ≠ collate t'.id
  spelled : ∀ r ∈ db.parcels.rows, db.spellsType r.parcelTypeId = true

section Rows

variable {collate : String → String} {authRequired : Bool} {ownerId : String} {db db' : ParcelDb}
  {r : Parcel} {l : ParcelMove}

/-- A type that is spelled as it is stored is attached. -/
theorem load_of_spelled (h : db.spellsType r.parcelTypeId = true) :
    ∃ t ∈ db.types.rows, t.id = r.parcelTypeId ∧ (db.load r).parcelType = some t := by
  cases hload : (db.load r).parcelType with
  | some t =>
    obtain ⟨hmem, hid⟩ := Table.select_mem hload
    exact ⟨t, hmem, beq_iff_eq.mp hid, rfl⟩
  | none =>
    obtain ⟨t, ht, hid⟩ := List.any_eq_true.mp h
    exact absurd hid (Table.select_eq_none.mp hload t ht)

/-- Otherwise there is none. -/
theorem load_of_not_spelled (h : ¬ db.spellsType r.parcelTypeId = true) :
    (db.load r).parcelType = none := by
  refine Table.select_eq_none.mpr fun t ht hid => h ?_
  exact List.any_eq_true.mpr ⟨t, ht, hid⟩

/-- The attached type is the one that the existence check matches. -/
theorem select_of_spelled (hdb : WellSpelled collate db) {t : ParcelType}
    (ht : t ∈ db.types.rows) (hid : t.id = r.parcelTypeId) :
    db.types.select (fun t => sqlEq collate t.id r.parcelTypeId) = some t := by
  cases hselect : db.types.select fun t => sqlEq collate t.id r.parcelTypeId with
  | none =>
    exact absurd (sqlEq_iff.mpr (congrArg collate hid)) (Table.select_eq_none.mp hselect t ht)
  | some t' =>
    obtain ⟨ht', heq⟩ := Table.select_mem hselect
    have hcollate : collate t'.id = collate t.id := by
      rw [hid]
      exact sqlEq_iff.mp heq
    congr 1
    by_contra hne
    have hsymm : Std.Symm fun t t' : ParcelType => collate t.id ≠ collate t'.id :=
      ⟨fun _ _ hab hba => hab hba.symm⟩
    exact hdb.typesKeyed.forall ht' ht hne hcollate

/-- A well-spelled row is read as it is stored. -/
theorem shows_of_spelled (hdb : WellSpelled collate db) (hr : r ∈ db.parcels.rows) :
    ∃ body, ParcelRead.ofLoaded (db.load r) = some body ∧ Shows collate db r body := by
  obtain ⟨t, ht, hid, hload⟩ := load_of_spelled (hdb.spelled r hr)
  rw [ParcelRead.ofLoaded, hload]
  exact ⟨_, rfl, rfl, rfl, rfl, rfl, t, select_of_spelled hdb ht hid, rfl⟩

/-- `get_parcel` finds the row of an id, whoever asks. -/
theorem detailResponse_eq (hkeyed : db.Keyed collate) (hr : r ∈ db.parcels.rows)
    (howned : r.ownedBy authRequired ownerId) :
    detailResponse collate db authRequired r.id ownerId = getParcelRespond (db.load r) := by
  rw [detailResponse, getOwned_run, hkeyed.select hr]
  dsimp only
  rw [if_pos (ownerMatch_iff.mpr howned)]
  rfl

/-- The rows of a page of well-spelled rows all validate. -/
theorem mapM_ofLoaded (hdb : WellSpelled collate db) {rows : List Parcel}
    (hrows : ∀ r ∈ rows, r ∈ db.parcels.rows) :
    ∃ items, (rows.map db.load).mapM ParcelRead.ofLoaded = some items ∧
      ∀ r ∈ rows, ∃ body ∈ items, Shows collate db r body := by
  induction rows with
  | nil => exact ⟨[], rfl, fun r hr => absurd hr List.not_mem_nil⟩
  | cons r rows ih =>
    obtain ⟨items, hitems, hshows⟩ := ih fun r' hr' => hrows r' (List.mem_cons_of_mem r hr')
    obtain ⟨body, hbody, hshow⟩ := shows_of_spelled hdb (hrows r List.mem_cons_self)
    refine ⟨body :: items, ?_, ?_⟩
    · simp only [List.map_cons, List.mapM_cons, hbody, hitems]
      rfl
    · intro r' hr'
      rcases List.mem_cons.mp hr' with rfl | hr'
      · exact ⟨body, List.mem_cons_self, hshow⟩
      · obtain ⟨body', hbody', hshow'⟩ := hshows r' hr'
        exact ⟨body', List.mem_cons_of_mem body hbody', hshow'⟩

/-- Some page of every size contains a row of the owner. -/
theorem inPage_of_owned (hr : r ∈ db.parcels.rows) (howned : r.ownedBy authRequired ownerId)
    {limit : ℕ} (hlimit : 0 < limit) :
    ∃ offset, InPage collate db authRequired ⟨limit, offset⟩ ⟨none, none⟩ ownerId r := by
  have hmatches : (ownedQuery authRequired ownerId ⟨none, none⟩).matches collate r = true := by
    simp only [OwnedQuery.matches, Bool.and_eq_true]
    refine ⟨⟨?_, rfl⟩, rfl⟩
    cases authRequired with
    | true =>
      have huser : r.userId = some ownerId := howned
      rw [huser]
      exact sqlEq_iff.mpr rfl
    | false => exact sqlEq_iff.mpr (congrArg collate howned)
  have hmem : r ∈ db.selectOrdered collate (ownedQuery authRequired ownerId ⟨none, none⟩) := by
    rw [ParcelDb.selectOrdered, List.mem_insertionSort]
    exact List.mem_filter.mpr ⟨hr, hmatches⟩
  -- the page that begins with the row
  obtain ⟨i, hi, rfl⟩ := List.getElem_of_mem hmem
  obtain ⟨k, rfl⟩ := Nat.exists_eq_succ_of_ne_zero hlimit.ne'
  refine ⟨i, _, _, listOwned_run, db.load _, List.mem_map_of_mem ?_, rfl⟩
  rw [List.drop_eq_getElem_cons hi, List.take_succ_cons]
  exact List.mem_cons_self

/-- **Well-spelled parcels can be read.** -/
theorem WellSpelled.allReadable (hdb : WellSpelled collate db) : AllReadable collate db := by
  intro r hr authRequired ownerId howned
  obtain ⟨body, hbody, hshow⟩ := shows_of_spelled hdb hr
  refine ⟨⟨body, ?_, hshow⟩, ?_, fun limit => inPage_of_owned hr howned⟩
  · rw [detailResponse_eq hdb.keyed hr howned, getParcelRespond, hbody]
    rfl
  · rintro pagination filters ⟨total, rows, hrun, p, hp, rfl⟩
    rw [listOwned_run] at hrun
    obtain ⟨rfl, rfl⟩ := Prod.mk.inj (Except.ok.inj (Prod.mk.inj hrun).1)
    obtain ⟨r, hr', rfl⟩ := List.mem_map.mp hp
    obtain ⟨items, hitems, hshows⟩ := mapM_ofLoaded hdb fun r hr =>
      (mem_selectOrdered (List.mem_of_mem_drop (List.mem_of_mem_take hr))).1
    obtain ⟨body, hbody, hshow⟩ := hshows r hr'
    have hresponse : listResponse collate db authRequired pagination filters ownerId =
        .page ⟨items, (db.parcels.selectAll
          ((ownedQuery authRequired ownerId filters).matches collate)).length,
          pagination.limit, pagination.offset⟩ := by
      rw [listResponse, listParcels_run, listOwned_run]
      dsimp only
      rw [PaginatedResponse.ofRows, hitems]
      rfl
    exact ⟨_, hresponse, body, hbody, hshow⟩

/-- A parcel whose type is spelled otherwise cannot be read by its owner. -/
theorem spelled_of_readable (hkeyed : db.Keyed collate) (hr : r ∈ db.parcels.rows)
    (howned : r.ownedBy authRequired ownerId) (h : Readable collate db authRequired ownerId r) :
    db.spellsType r.parcelTypeId = true := by
  by_contra hnot
  obtain ⟨body, hbody, -⟩ := h.detail
  rw [detailResponse_eq hkeyed hr howned, getParcelRespond, ParcelRead.ofLoaded,
    load_of_not_spelled hnot] at hbody
  cases hbody

end Rows

/-! ## Steps -/

section Steps

variable {collate : String → String} {db db' : ParcelDb} {l : ParcelMove}

/-- The row that is created belongs to the owner it was created for. -/
theorem Created.ownedBy {authRequired : Bool} {data : ParcelCreate} {ownerId newId : String}
    {row : Parcel} (h : Created collate authRequired data ownerId newId db row db') :
    row.ownedBy authRequired ownerId := by
  obtain ⟨-, -, -, -, hsession, -, -, huser⟩ := NewParcel.row_eq_some h.row_eq
  cases authRequired with
  | true => exact huser
  | false => exact hsession

theorem spellsType_of_types (h : db'.types = db.types) (id : String) :
    db'.spellsType id = db.spellsType id := by
  simp only [ParcelDb.spellsType, h]

/-- **A guarded step keeps the parcels well spelled.** -/
theorem WellSpelled.step (hdb : WellSpelled collate db)
    (hstep : (parcelSystem collate).step db l = some db') (hguard : SpelledAsStored collate db l db') :
    WellSpelled collate db' := by
  have h := parcelStep_of_step hstep
  have htypes := (persists_of_step h).types
  refine ⟨hdb.keyed.step h, by rw [htypes]; exact hdb.typesKeyed, fun r' hr' => ?_⟩
  rw [spellsType_of_types htypes]
  rcases row_before_step h hr' with ⟨r, hr, cost, rfl⟩ |
    ⟨authRequired, data, ownerId, newId, rfl, hcreated⟩
  · exact hdb.spelled r hr
  · obtain ⟨-, -, -, -, -, -, htype, -⟩ := NewParcel.row_eq_some hcreated.row_eq
    rw [htype]
    exact hguard authRequired data ownerId newId r' rfl hcreated.run

/-- The parcels that a history creates are there in every later state, as they were stored, and
their owners can read them. -/
def CreatedReadable (collate : String → String) (db₀ : ParcelDb) (moves : List ParcelMove) : Prop :=
  ∀ before authRequired data ownerId newId after rest db₁ row db₂ db,
    moves = before ++ .create authRequired data ownerId newId :: (after ++ rest) →
    (parcelSystem collate).run db₀ before = some db₁ →
    (createFromDto authRequired data ownerId newId).run (parcelHandler collate) db₁ =
      (.ok row, db₂) →
    (parcelSystem collate).run db₂ after = some db →
    ∃ r ∈ db.parcels.rows, r.id = row.id ∧ r.name = data.name ∧
      Weight.store data.weightKg = some r.weightKg ∧
      Money.store data.declaredValueUsd = some r.declaredValueUsd ∧
      r.parcelTypeId = data.parcelTypeId ∧ db.types = db₁.types ∧
      Readable collate db authRequired ownerId r

theorem WellSpelled.of_run {moves : List ParcelMove} (h : WellSpelled collate db)
    (hguard : (parcelSystem collate).Steps (SpelledAsStored collate) db moves)
    (hrun : (parcelSystem collate).run db moves = some db') : WellSpelled collate db' :=
  System.run_invariant (fun _ _ _ hI hstep hguard => hI.step hstep hguard) h hguard hrun

/-- What is created can be read exactly when parcels are created with the spelling of their
types. -/
theorem created_parcels_readable_iff (collate : String → String) (db₀ : ParcelDb)
    (moves : List ParcelMove) (hempty : db₀.parcels.rows = [])
    (htypes : db₀.types.rows.Pairwise fun t t' => collate t.id ≠ collate t'.id) :
    CreatedReadable collate db₀ moves ↔
      (parcelSystem collate).Steps (SpelledAsStored collate) db₀ moves := by
  have hkeyed : db₀.Keyed collate := by
    rw [ParcelDb.Keyed, hempty]
    exact List.Pairwise.nil
  refine ⟨?_, ?_⟩
  · intro h
    refine System.steps_iff_split.mpr ?_
    rintro before l after db₁ db₂ rfl hbefore - authRequired data ownerId newId row rfl hcreate
    have hcreated := created_of_run hcreate
    -- the state right after the call is a later state
    obtain ⟨r, hr, hid, -, -, -, htype, -, hreadable⟩ := h before authRequired data ownerId newId
      [] after db₁ row db₂ db₂ rfl hbefore hcreate rfl
    have hkeyed₂ : db₂.Keyed collate := (hkeyed.of_run hbefore).step (.created hcreated)
    obtain rfl := hkeyed₂.eq hr hcreated.mem (congrArg collate hid)
    rw [← spellsType_of_types hcreated.types, ← htype]
    exact spelled_of_readable hkeyed₂ hr hcreated.ownedBy hreadable
  · rintro hguard before authRequired data ownerId newId after rest db₁ row db₂ db rfl hbefore
      hcreate hafter
    have hcreated := created_of_run hcreate
    have hspelled₀ : WellSpelled collate db₀ := by
      refine ⟨hkeyed, htypes, fun r hr => ?_⟩
      rw [hempty] at hr
      exact absurd hr List.not_mem_nil
    have hspelled₁ := hspelled₀.of_run hguard.of_append_left hbefore
    have hrest := hguard.of_append_right hbefore
    have hstep : (parcelSystem collate).step db₁ (.create authRequired data ownerId newId) =
        some db₂ :=
      congrArg (fun outcome : Except Exn Parcel × ParcelDb => some outcome.2) hcreate
    obtain ⟨hcreateGuard, hafterGuard⟩ := hrest db₂ hstep
    have hspelled := (hspelled₁.step hstep hcreateGuard).of_run hafterGuard.of_append_left hafter
    -- the row is still there, perhaps with a cost
    have hpersists := Persists.of_run hafter
    obtain ⟨cost, hr⟩ := hpersists.rows row hcreated.mem
    obtain ⟨hid, hname, hweight, hvalue, -, -, htype, -⟩ := NewParcel.row_eq_some hcreated.row_eq
    refine ⟨_, hr, rfl, hname, hweight, hvalue, htype, hpersists.types.trans hcreated.types, ?_⟩
    refine hspelled.allReadable _ hr authRequired ownerId ?_
    have howned := hcreated.ownedBy
    rw [Parcel.ownedBy] at howned ⊢
    exact howned

end Steps

/-! ## A type in capitals -/

/-- The row of `sampleCreate`. -/
def sampleRow (parcelTypeId : String) : Parcel :=
  { sampleParcel "p1" with parcelTypeId := parcelTypeId }

theorem created_parcels_readable_iff_sample :
    CreatedReadable foldCase sampleTypesDb
      [.create false (sampleCreate "type-a") "session-1" "p1",
        .price [("p1", ⟨⟨5400, by decide⟩, by decide⟩)]] :=
  (created_parcels_readable_iff foldCase sampleTypesDb _ rfl (by decide)).mpr (by
    intro db' _
    refine ⟨?_, fun db'' _ => ⟨fun _ _ _ _ _ heq => (nomatch heq), trivial⟩⟩
    intro authRequired data ownerId newId row heq _
    cases heq
    decide)

/-- A type in capitals passes the existence check, and neither route can show the parcel. -/
theorem capital_type_unreadable :
    ∃ db, (createFromDto false (sampleCreate "TYPE-A") "session-1" "p1").run
        (parcelHandler foldCase) sampleTypesDb = (.ok (sampleRow "TYPE-A"), db) ∧
      detailResponse foldCase db false "p1" "session-1" = .internalError ∧
      listResponse foldCase db false ⟨20, 0⟩ ⟨none, none⟩ "session-1" = .internalError ∧
      ¬ CreatedReadable foldCase sampleTypesDb
        [.create false (sampleCreate "TYPE-A") "session-1" "p1"] := by
  have hcreate : (createFromDto false (sampleCreate "TYPE-A") "session-1" "p1").run
      (parcelHandler foldCase) sampleTypesDb = (.ok (sampleRow "TYPE-A"),
        ⟨sampleTypesDb.types, ⟨[sampleRow "TYPE-A"], List.pairwise_singleton _ _⟩, []⟩) := by
    rfl
  refine ⟨_, hcreate, by decide, by decide, fun h => ?_⟩
  obtain ⟨r, hr, hid, -, -, -, -, -, hreadable⟩ := h [] false _ _ _ [] [] _ _ _ _ rfl rfl hcreate rfl
  obtain ⟨body, hbody, -⟩ := hreadable.detail
  have hdetail : detailResponse foldCase
      ⟨sampleTypesDb.types, ⟨[sampleRow "TYPE-A"], List.pairwise_singleton _ _⟩, []⟩ false r.id
        "session-1" = .internalError := by
    rw [hid]
    decide
  exact Response.noConfusion (hbody.symm.trans hdetail)

end ParcelDelivery
