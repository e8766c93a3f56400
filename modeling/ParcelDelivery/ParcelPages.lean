import ParcelDelivery.Paging
import ParcelDelivery.ParcelReads

/-!
# Page walks

`list_owned` page by page, on a database at rest and on one where parcels are created and
priced between two pages, and `list_parcel_types` with the two reads of `ParcelTypeService`.
-/

namespace ParcelDelivery

open Relational DecimalArith Process TransitionSystem ParcelService Paging

/-! ## The pages of `list_owned` -/

section Parcels

variable {collate : String → String} {authRequired : Bool} {ownerId : String}
  {filters : ParcelFilterParams} {limit : ℕ} {db db' : ParcelDb}

/-- `list_owned` with a limit, read at an offset: the total and the rows. -/
def ownedPages (collate : String → String) (authRequired : Bool) (ownerId : String)
    (filters : ParcelFilterParams) (limit : ℕ) :
    Source ParcelDb (ℕ × List LoadedParcel) LoadedParcel where
  limit := limit
  fetch offset db := ((listOwned authRequired ownerId filters limit offset).run
    (parcelHandler collate) db).1.toOption
  items := Prod.snd

/-- A client that walks through the pages while the database is written. -/
abbrev ownedWalk (collate : String → String) (authRequired : Bool) (ownerId : String)
    (filters : ParcelFilterParams) (limit : ℕ) :
    System (Walk ParcelDb (ℕ × List LoadedParcel)) (WalkMove ParcelMove) :=
  walkSystem (ownedPages collate authRequired ownerId filters limit) (parcelSystem collate)

/-- The parcels that a walk has returned, in the order of the pages. -/
abbrev returnedParcels (w : Walk ParcelDb (ℕ × List LoadedParcel)) : List Parcel :=
  w.pages.flatMap fun page => page.2.map LoadedParcel.row

/-- The rows that the walk is about, with their types. -/
def ownedView (collate : String → String) (authRequired : Bool) (ownerId : String)
    (filters : ParcelFilterParams) (db : ParcelDb) : List LoadedParcel :=
  (db.selectOrdered collate (ownedQuery authRequired ownerId filters)).map db.load

theorem ownedPages_fetch (offset : ℕ) (db : ParcelDb) :
    (ownedPages collate authRequired ownerId filters limit).fetch offset db =
      some ((db.parcels.selectAll ((ownedQuery authRequired ownerId filters).matches
          collate)).length,
        window limit offset (ownedView collate authRequired ownerId filters db)) := by
  simp only [ownedPages, listOwned_run, Except.toOption, window, ownedView, List.map_take,
    List.map_drop]

theorem ownedPages_serves : (ownedPages collate authRequired ownerId filters limit).Serves
    (ownedView collate authRequired ownerId filters) :=
  fun offset db => ⟨_, ownedPages_fetch offset db, rfl⟩

theorem map_row_ownedView : (ownedView collate authRequired ownerId filters db).map
    LoadedParcel.row = db.selectOrdered collate (ownedQuery authRequired ownerId filters) := by
  rw [ownedView, List.map_map]
  exact List.map_id _

/-- The order of `ORDER BY parcel.id`. -/
def idBefore (collate : String → String) (id id' : String) : Prop := collate id ≤ collate id'

instance : DecidableRel (idBefore collate) := fun _ _ => inferInstanceAs (Decidable (_ ≤ _))

instance : IsTrans String (idBefore collate) := ⟨fun _ _ _ => String.le_trans⟩

instance : Std.Total (idBefore collate) := ⟨fun _ _ => String.le_total _ _⟩

/-- The ids of the selected rows. -/
theorem map_id_selectOrdered (q : OwnedQuery) : (db.selectOrdered collate q).map Parcel.id =
    ((db.parcels.selectAll (q.matches collate)).map Parcel.id).insertionSort
      (idBefore collate) :=
  List.map_insertionSort _ _ _ _ fun _ _ _ _ => Iff.rfl

/-- `selectOrdered` gives the rows that match, each once, by their ids. -/
theorem selectOrdered_spec (collate : String → String) (db : ParcelDb) (q : OwnedQuery) :
    (db.selectOrdered collate q).Perm (db.parcels.rows.filter (q.matches collate)) ∧
      (db.selectOrdered collate q).Pairwise (fun r r' => idBefore collate r.id r'.id) ∧
      (db.selectOrdered collate q).Nodup := by
  have hperm : (db.selectOrdered collate q).Perm (db.parcels.rows.filter (q.matches collate)) :=
    List.perm_insertionSort _ _
  refine ⟨hperm, ?_, hperm.nodup_iff.mpr (db.parcels.nodup.filter _)⟩
  have hsorted : ((db.selectOrdered collate q).map Parcel.id).Pairwise (idBefore collate) := by
    rw [map_id_selectOrdered]
    exact List.pairwise_insertionSort _ _
  exact List.pairwise_map.mp hsorted

/-! ### Writes between two pages -/

/-- A parcel that matches still does when it has a cost. -/
theorem matches_assignCost {q : OwnedQuery} (hcost : q.hasCost ≠ some false)
    (costs : List (String × Money)) {r : Parcel} (h : q.matches collate r = true) :
    q.matches collate (r.assignCost costs) = true := by
  rw [Parcel.assignCost]
  split
  · simp only [OwnedQuery.matches, Bool.and_eq_true] at h ⊢
    refine ⟨h.1, ?_⟩
    rcases hhas : q.hasCost with _ | _ | _
    · rfl
    · exact absurd hhas hcost
    · rfl
  · exact h

/-- A write keeps the ids that match, in the order of the table. -/
theorem matching_ids_sublist {q : OwnedQuery} (hcost : q.hasCost ≠ some false) {l : ParcelMove}
    (h : ParcelStep collate db l db') :
    ((db.parcels.rows.filter (q.matches collate)).map Parcel.id).Sublist
      ((db'.parcels.rows.filter (q.matches collate)).map Parcel.id) := by
  cases h with
  | created hcreated =>
    rw [hcreated.rows, List.filter_append, List.map_append]
    exact List.sublist_append_left _ _
  | refused | userAdded => exact List.Sublist.refl _
  | @priced costs =>
    have hrows : (db.price costs).parcels.rows = db.parcels.rows.map (Parcel.assignCost costs) := by
      simp [ParcelDb.price]
    have hid : Parcel.id ∘ Parcel.assignCost costs = Parcel.id :=
      funext (Parcel.assignCost_id costs)
    rw [hrows, List.filter_map, List.map_map, hid]
    apply List.Sublist.map
    exact List.monotone_filter_right _ fun r => matches_assignCost hcost costs

/-- **A write keeps the list that the pages are cut from**, with more rows in between. -/
theorem ownedView_grows (hcost : filters.hasCost ≠ some false) {l : ParcelMove}
    (h : (parcelSystem collate).step db l = some db') :
    ((ownedView collate authRequired ownerId filters db).map fun p => p.row.id).Sublist
      ((ownedView collate authRequired ownerId filters db').map fun p => p.row.id) := by
  have hids : ∀ db, (ownedView collate authRequired ownerId filters db).map (fun p => p.row.id) =
      ((db.parcels.rows.filter ((ownedQuery authRequired ownerId filters).matches collate)).map
        Parcel.id).insertionSort (idBefore collate) := by
    intro db
    rw [← Function.comp_def, ← List.map_map, map_row_ownedView, map_id_selectOrdered]
    rfl
  rw [hids, hids]
  apply insertionSort_sublist
  exact matching_ids_sublist hcost (parcelStep_of_step h)

/-! ### The walks -/

/-- A walk has returned the parcels that meet a condition, each once, in the order of their ids,
and every page has told their number. -/
structure OwnedListing (collate : String → String) (P : Parcel → Prop) (db : ParcelDb)
    (w : Walk ParcelDb (ℕ × List LoadedParcel)) : Prop where
  matching : ∀ r, r ∈ returnedParcels w ↔ r ∈ db.parcels.rows ∧ P r
  sorted : (returnedParcels w).Pairwise fun r r' => idBefore collate r.id r'.id
  nodup : (returnedParcels w).Nodup
  totals : ∀ page ∈ w.pages, page.1 = (returnedParcels w).length

/-- A walk on a database at rest returns what the `WHERE` selects. -/
theorem owned_walk_tiles (hlimit : 0 < limit) :
    (ownedPages collate authRequired ownerId filters limit).WalkedAlone (parcelSystem collate) db
      (OwnedListing collate
        (fun r => (ownedQuery authRequired ownerId filters).matches collate r = true) db) := by
  refine (walk_tiles _ ownedPages_serves hlimit db).mono fun w ⟨hreturned, hfetched⟩ => ?_
  have hrows : returnedParcels w =
      db.selectOrdered collate (ownedQuery authRequired ownerId filters) := by
    rw [← map_row_ownedView, ← hreturned, Walk.returned, List.map_flatMap]
    rfl
  obtain ⟨hperm, hsorted, hnodup⟩ :=
    selectOrdered_spec collate db (ownedQuery authRequired ownerId filters)
  rw [← hrows] at hperm hsorted hnodup
  refine ⟨fun r => ?_, hsorted, hnodup, fun page hpage => ?_⟩
  · rw [hperm.mem_iff, List.mem_filter]
  · obtain ⟨offset, hpage⟩ := hfetched page hpage
    rw [ownedPages_fetch] at hpage
    rw [← Option.some.inj hpage, hperm.length_eq]
    rfl

/-- Every parcel that met a condition at the start is on some page, perhaps with another cost. -/
def OwnedCovered (P : Parcel → Prop) (db : ParcelDb) (w : Walk ParcelDb (ℕ × List LoadedParcel)) :
    Prop :=
  ∀ r ∈ db.parcels.rows, P r →
    ∃ page ∈ w.pages, ∃ p ∈ page.2, ∃ cost, p.row = { r with deliveryCostRub := cost }

/-- A walk among writers returns what the `WHERE` selected at the start. -/
theorem owned_walk_covers (hcost : filters.hasCost ≠ some false) (hlimit : 0 < limit)
    {moves : List (WalkMove ParcelMove)} {w : Walk ParcelDb (ℕ × List LoadedParcel)}
    (hrun : (ownedWalk collate authRequired ownerId filters limit).run (.start db) moves = some w)
    (hended : w.ended = true) :
    OwnedCovered (fun r => (ownedQuery authRequired ownerId filters).matches collate r = true)
      db w := by
  intro r hr hmatches
  have hview : db.load r ∈ ownedView collate authRequired ownerId filters db := by
    apply List.mem_map_of_mem
    rw [ParcelDb.selectOrdered, List.mem_insertionSort]
    exact List.mem_filter.mpr ⟨hr, hmatches⟩
  obtain ⟨p, hp, hid, db', ⟨writes, hwrites⟩, hmem⟩ := walk_covers (fun p => p.row.id)
    ownedPages_serves hlimit (fun _ _ _ hstep => ownedView_grows hcost hstep) hrun hended hview
  obtain ⟨page, hpage, hp⟩ := List.mem_flatMap.mp hp
  -- the row that was returned is the row of `r` at the time of that page
  obtain ⟨cost, hkept⟩ := (Persists.of_run hwrites).rows r hr
  obtain ⟨row, hrow, rfl⟩ := List.mem_map.mp hmem
  exact ⟨page, hpage, _, hp, cost, Table.eq_of_clash (mem_selectOrdered hrow).1 hkept hid⟩

/-! ### What the client asks for -/

/-- The owner column of the mode holds the owner id, and the parcel has a cost, or has none, as
asked. -/
structure OfOwner (collate : String → String) (authRequired : Bool) (ownerId : String)
    (hasCost : Option Bool) (r : Parcel) : Prop where
  owner : if authRequired then ∃ userId, r.userId = some userId ∧ sqlEq collate userId ownerId
    else sqlEq collate r.sessionId ownerId
  cost : ∀ priced, hasCost = some priced → r.priced = priced

/-- **A matching parcel** is the owner's, has a cost or none as asked, and is of the type with the
UUID that is asked for, texts being equal as the database compares them. -/
structure Matching (collate : String → String) (authRequired : Bool) (ownerId : String)
    (filters : ParcelFilterParams) (r : Parcel) : Prop
    extends OfOwner collate authRequired ownerId filters.hasCost r where
  type : ∀ id, filters.typeId = some id → sqlEq collate r.parcelTypeId id.text

/-- The `WHERE` selects by the same conditions, but for the text of the UUID. -/
theorem matches_iff {r : Parcel} :
    (ownedQuery authRequired ownerId filters).matches collate r = true ↔
      OfOwner collate authRequired ownerId filters.hasCost r ∧
        ∀ id, filters.typeId = some id → sqlEq collate r.parcelTypeId id.hex := by
  have howner : (if authRequired then r.userId.any fun userId => sqlEq collate userId ownerId
      else sqlEq collate r.sessionId ownerId) = true ↔
        if authRequired then ∃ userId, r.userId = some userId ∧ sqlEq collate userId ownerId
        else sqlEq collate r.sessionId ownerId := by
    cases authRequired with
    | true => exact Option.any_eq_true _ _
    | false => exact Iff.rfl
  simp only [OwnedQuery.matches, ownedQuery, Bool.and_eq_true, Option.all_eq_true,
    Option.map_eq_some_iff, beq_iff_eq]
  refine ⟨?_, ?_⟩
  · rintro ⟨⟨hcolumn, htype⟩, hcost⟩
    exact ⟨⟨howner.mp hcolumn, hcost⟩, fun id hid => htype _ ⟨id, hid, rfl⟩⟩
  · rintro ⟨⟨hcolumn, hcost⟩, htype⟩
    refine ⟨⟨howner.mpr hcolumn, ?_⟩, hcost⟩
    rintro _ ⟨id, hid, rfl⟩
    exact htype id hid

/-- The two texts of the UUID that is asked for are alike to the database, on every parcel that
the other conditions select. -/
def TypeTextsAgree (collate : String → String) (authRequired : Bool) (ownerId : String)
    (filters : ParcelFilterParams) (db : ParcelDb) : Prop :=
  ∀ id, filters.typeId = some id → ∀ r ∈ db.parcels.rows,
    OfOwner collate authRequired ownerId filters.hasCost r →
      sqlEq collate r.parcelTypeId id.hex = sqlEq collate r.parcelTypeId id.text

/-- Where SQL compares letter by letter, the texts agree exactly when none of these parcels has either
of them: they are never the same. -/
theorem typeTextsAgree_iff_of_exact (hexact : Function.Injective collate) :
    TypeTextsAgree collate authRequired ownerId filters db ↔
      ∀ id, filters.typeId = some id → ∀ r ∈ db.parcels.rows,
        OfOwner collate authRequired ownerId filters.hasCost r →
          r.parcelTypeId ≠ id.hex ∧ r.parcelTypeId ≠ id.text := by
  have hsame : ∀ {a b : String}, sqlEq collate a b = true ↔ a = b :=
    fun {a b} => sqlEq_iff.trans hexact.eq_iff
  refine forall_congr' fun id => forall_congr' fun _ => forall₃_congr fun r _ _ => ?_
  have hne : id.hex ≠ id.text := Uuid.hex_ne_text _ _
  rw [Bool.eq_iff_iff, hsame, hsame]
  refine ⟨fun h => ⟨fun hhex => ?_, fun htext => ?_⟩, fun h => iff_of_false h.1 h.2⟩
  · exact hne (hhex.symm.trans (h.mp hhex))
  · exact hne ((h.mpr htext).symm.trans htext)

/-- **What is selected is what is asked for** exactly when the texts agree. -/
theorem matches_iff_matching :
    (∀ r ∈ db.parcels.rows, (ownedQuery authRequired ownerId filters).matches collate r = true ↔
        Matching collate authRequired ownerId filters r) ↔
      TypeTextsAgree collate authRequired ownerId filters db := by
  refine ⟨fun h id hid r hr howned => ?_, fun h r hr => ?_⟩
  · have hone : ∀ {p : Uuid4 → Prop}, (∀ id, filters.typeId = some id → p id) ↔ p id := by
      intro p
      simp only [hid, Option.some.injEq, forall_eq']
    have hiff := h r hr
    rw [matches_iff, hone] at hiff
    refine Bool.eq_iff_iff.mpr ⟨fun hhex => ?_, fun htext => ?_⟩
    · exact (hiff.mp ⟨howned, hhex⟩).type id hid
    · exact (hiff.mpr ⟨howned, hone.mpr htext⟩).2
  · rw [matches_iff]
    refine ⟨fun ⟨howned, htype⟩ => ⟨howned, fun id hid => ?_⟩,
      fun hmatching => ⟨hmatching.toOfOwner, fun id hid => ?_⟩⟩
    · rw [← h id hid r hr howned]
      exact htype id hid
    · rw [h id hid r hr hmatching.toOfOwner]
      exact hmatching.type id hid

/-- Conditions that agree on the rows have the same listings. -/
theorem OwnedListing.congr {P Q : Parcel → Prop} {w : Walk ParcelDb (ℕ × List LoadedParcel)}
    (h : ∀ r ∈ db.parcels.rows, P r ↔ Q r) (hP : OwnedListing collate P db w) :
    OwnedListing collate Q db w :=
  { hP with matching := fun r => (hP.matching r).trans (and_congr_right (h r)) }

/-- **A walk returns what is asked for** exactly when the texts agree. -/
theorem owned_walk_matching_iff (hlimit : 0 < limit) :
    (ownedPages collate authRequired ownerId filters limit).WalkedAlone (parcelSystem collate) db
        (OwnedListing collate (Matching collate authRequired ownerId filters) db) ↔
      TypeTextsAgree collate authRequired ownerId filters db := by
  rw [← matches_iff_matching]
  refine ⟨fun h r hr => ?_, fun h => (owned_walk_tiles hlimit).mono fun w => .congr h⟩
  obtain ⟨n, w, hrun, hended⟩ := h.1
  have hselected := (owned_walk_tiles hlimit).2 n w hrun hended
  have hmatching := h.2 n w hrun hended
  have hiff := (hselected.matching r).symm.trans (hmatching.matching r)
  rwa [and_congr_right_iff, forall_prop_of_true hr] at hiff

end Parcels

/-! ## `list_parcel_types` -/

/-- `PaginatedResponse[ParcelTypeRead]`. -/
structure ParcelTypePage : Type where
  items : List ParcelTypeRead
  total : ℕ
  limit : ℕ
  offset : ℕ
  deriving DecidableEq, Repr

/-- The database calls of `ParcelTypeService`. -/
inductive ParcelTypeCmd : Type where
  /-- `SELECT count(*) FROM parcel_type` -/
  | countTypes
  /-- `SELECT … FROM parcel_type ORDER BY parcel_type.name` -/
  | selectTypes

/-- What a call answers. -/
abbrev ParcelTypeCmd.Answer : ParcelTypeCmd → Type
  | .countTypes => ℕ
  | .selectTypes => List ParcelType

/-- Programs over the parcel types. -/
abbrev ParcelTypeProg (α : Type) : Type := Prog ParcelTypeCmd ParcelTypeCmd.Answer Exn α

namespace ParcelTypeService

/-- `total`. -/
def total : ParcelTypeProg ℕ := .call ParcelTypeCmd.countTypes .ret

/-- `list_all`. -/
def listAll : ParcelTypeProg (List ParcelType) := .call ParcelTypeCmd.selectTypes .ret

end ParcelTypeService

/-- `rows[start:stop]`. -/
def slice {α : Type} (start stop : ℕ) (rows : List α) : List α := (rows.take stop).drop start

/-- `list_parcel_types`. -/
def listParcelTypes (pagination : PaginationParams) : ParcelTypeProg ParcelTypePage := do
  let total ← ParcelTypeService.total
  let rows ← ParcelTypeService.listAll
  let sliced := slice pagination.offset (pagination.offset + pagination.limit) rows
  return {
    items := sliced.map fun t => ⟨t.id, t.name⟩
    total := total
    limit := pagination.limit
    offset := pagination.offset }

section Types

variable {collate : String → String} {limit : ℕ} {db : ParcelDb}

/-- The rows of `parcel_type`, in the order of their names. -/
def ParcelDb.typesByName (collate : String → String) (db : ParcelDb) : List ParcelType :=
  db.types.rows.insertionSort fun t t' => collate t.name ≤ collate t'.name

/-- The meaning of a call on the committed database. -/
def parcelTypeHandler (collate : String → String) :
    Handler ParcelTypeCmd ParcelTypeCmd.Answer Exn ParcelDb
  | .countTypes, db => (.ok db.types.rows.length, db)
  | .selectTypes, db => (.ok (db.typesByName collate), db)

/-- `list_parcel_types` with a limit, read at an offset. -/
def typePages (collate : String → String) (limit : ℕ) :
    Source ParcelDb ParcelTypePage ParcelTypeRead where
  limit := limit
  fetch offset db := ((listParcelTypes ⟨limit, offset⟩).run (parcelTypeHandler collate)
    db).1.toOption
  items := ParcelTypePage.items

/-- The types as the pages show them. -/
def typeView (collate : String → String) (db : ParcelDb) : List ParcelTypeRead :=
  (db.typesByName collate).map fun t => ⟨t.id, t.name⟩

theorem slice_eq_window {α : Type} (limit offset : ℕ) (rows : List α) :
    slice offset (offset + limit) rows = window limit offset rows := by
  simp [slice, window, List.drop_take]

theorem typePages_fetch (offset : ℕ) (db : ParcelDb) :
    (typePages collate limit).fetch offset db =
      some { items := window limit offset (typeView collate db), total := db.types.rows.length,
             limit, offset } := by
  have hitems : (slice offset (offset + limit) (db.typesByName collate)).map
      (fun t => (⟨t.id, t.name⟩ : ParcelTypeRead)) =
        window limit offset (typeView collate db) := by
    simp only [slice_eq_window, window, typeView, List.map_take, List.map_drop]
  rw [← hitems]
  rfl

theorem typePages_serves : (typePages collate limit).Serves (typeView collate) :=
  fun offset db => ⟨_, typePages_fetch offset db, rfl⟩

/-- The order of `ORDER BY parcel_type.name`. -/
def nameBefore (collate : String → String) (t t' : ParcelTypeRead) : Prop :=
  collate t.name ≤ collate t'.name

/-- The pages show every type once, by the names. -/
theorem typeView_spec (collate : String → String) (db : ParcelDb) :
    (typeView collate db).Perm (db.types.rows.map fun t => ⟨t.id, t.name⟩) ∧
      (typeView collate db).Pairwise (nameBefore collate) ∧ (typeView collate db).Nodup := by
  have hperm : (db.typesByName collate).Perm db.types.rows := List.perm_insertionSort _ _
  refine ⟨hperm.map _, ?_, ?_⟩
  · rw [typeView, List.pairwise_map]
    have htrans : IsTrans ParcelType fun t t' => collate t.name ≤ collate t'.name :=
      ⟨fun _ _ _ => String.le_trans⟩
    have htotal : Std.Total fun t t' : ParcelType => collate t.name ≤ collate t'.name :=
      ⟨fun _ _ => String.le_total _ _⟩
    exact List.pairwise_insertionSort (fun t t' : ParcelType => collate t.name ≤ collate t'.name) _
  · have hinj : Function.Injective fun t : ParcelType => (⟨t.id, t.name⟩ : ParcelTypeRead) := by
      rintro ⟨id, name⟩ ⟨id', name'⟩ h
      cases h
      rfl
    exact (hperm.nodup_iff.mpr db.types.nodup).map hinj

/-- A walk has returned all the types, each once, in the order of their names, and every page has
told their number. -/
structure TypeListing (collate : String → String) (db : ParcelDb)
    (w : Walk ParcelDb ParcelTypePage) : Prop where
  all : (w.pages.flatMap ParcelTypePage.items).Perm (db.types.rows.map fun t => ⟨t.id, t.name⟩)
  sorted : (w.pages.flatMap ParcelTypePage.items).Pairwise (nameBefore collate)
  nodup : (w.pages.flatMap ParcelTypePage.items).Nodup
  totals : ∀ page ∈ w.pages, page.total = (w.pages.flatMap ParcelTypePage.items).length

/-- A walk through the types. -/
theorem type_walk_tiles (hlimit : 0 < limit) :
    (typePages collate limit).WalkedAlone (parcelSystem collate) db (TypeListing collate db) := by
  refine (walk_tiles _ typePages_serves hlimit db).mono fun w ⟨hreturned, hfetched⟩ => ?_
  have hrows : w.pages.flatMap ParcelTypePage.items = typeView collate db := hreturned
  obtain ⟨hperm, hsorted, hnodup⟩ := typeView_spec collate db
  rw [← hrows] at hperm hsorted hnodup
  refine ⟨hperm, hsorted, hnodup, fun page hpage => ?_⟩
  obtain ⟨offset, hpage⟩ := hfetched page hpage
  rw [typePages_fetch] at hpage
  rw [← Option.some.inj hpage, hperm.length_eq, List.length_map]

end Types

/-! ## Both lists -/

/-- **Exactly when page walks return what is asked for**: on a database at rest a walk through
`list_owned` ends with the matching parcels, and, where parcels are created and priced between
the pages and unpriced parcels are not asked for, it can always be led to its end and has
then returned every parcel that matched at its start, if and only if the two texts of the type
agree on the owner's parcels. A walk through `list_parcel_types` always ends with all types. -/
theorem page_walks_iff (collate : String → String) (authRequired : Bool) (ownerId : String)
    (filters : ParcelFilterParams) {limit : ℕ} (hlimit : 0 < limit) (db : ParcelDb) :
    ((ownedPages collate authRequired ownerId filters limit).WalkedAlone (parcelSystem collate) db
          (OwnedListing collate (Matching collate authRequired ownerId filters) db) ∧
        (filters.hasCost ≠ some false → ∀ moves w,
          (ownedWalk collate authRequired ownerId filters limit).run (.start db) moves = some w →
          (∃ n w', (ownedWalk collate authRequired ownerId filters limit).run w
            (List.replicate n .fetch) = some w' ∧ w'.ended = true) ∧
          (w.ended = true →
            OwnedCovered (Matching collate authRequired ownerId filters) db w)) ∧
        (typePages collate limit).WalkedAlone (parcelSystem collate) db (TypeListing collate db)) ↔
      TypeTextsAgree collate authRequired ownerId filters db := by
  refine ⟨fun h => (owned_walk_matching_iff hlimit).mp h.1, fun h => ?_⟩
  refine ⟨(owned_walk_matching_iff hlimit).mpr h, fun hcost moves w hrun => ⟨?_, ?_⟩,
    type_walk_tiles hlimit⟩
  · exact walk_ends (parcelSystem collate) ownedPages_serves hlimit w
  · intro hended r hr hmatching
    have hmatches := (matches_iff_matching.mpr h r hr).mpr hmatching
    exact owned_walk_covers hcost hlimit hrun hended r hr hmatches

/-! ### Three parcels -/

/-- The UUID of a parcel type. -/
def sampleTypeId : Uuid4 where
  int := 0xa3a814f447244947b6ab8337f3b33969
  inRange := by decide
  version := by decide

/-- A parcel of this type. -/
def typedParcel (id : String) : Parcel :=
  { sampleParcel id with parcelTypeId := "a3a814f4-4724-4947-b6ab-8337f3b33969" }

/-- A database with a type and three parcels of the session. -/
def samplePagesDb : ParcelDb where
  types := Table.singleton ⟨"a3a814f4-4724-4947-b6ab-8337f3b33969", "Other"⟩
  parcels := ⟨[typedParcel "parcel-4", typedParcel "parcel-2", typedParcel "parcel-6"], by decide⟩
  userIds := []

/-- After the first page a parcel is created that comes before all the others, and one that has
not been seen is priced. -/
def sampleWalk : List (WalkMove ParcelMove) :=
  [.fetch,
    .write (.create false (sampleCreate "a3a814f4-4724-4947-b6ab-8337f3b33969") "session-1"
      "parcel-1"),
    .write (.price [("parcel-6", ⟨⟨4700, by decide⟩, by decide⟩)]), .fetch, .fetch]

/-- The walk returns one parcel twice and loses none. -/
theorem page_walks_iff_shifted : ∃ w, (ownedWalk foldCase false "session-1" ⟨none, none⟩ 2).run
      (.start samplePagesDb) sampleWalk = some w ∧
    (returnedParcels w).map Parcel.id = ["parcel-2", "parcel-4", "parcel-4", "parcel-6"] ∧
    OwnedCovered (Matching foldCase false "session-1" ⟨none, none⟩) samplePagesDb w := by
  have hrun : ∃ w, (ownedWalk foldCase false "session-1" ⟨none, none⟩ 2).run
      (.start samplePagesDb) sampleWalk = some w ∧ w.ended = true ∧
      (returnedParcels w).map Parcel.id = ["parcel-2", "parcel-4", "parcel-4", "parcel-6"] :=
    ⟨_, rfl, by decide +kernel, by decide +kernel⟩
  obtain ⟨w, hrun, hended, hreturned⟩ := hrun
  refine ⟨w, hrun, hreturned, ?_⟩
  exact (((page_walks_iff foldCase false "session-1" ⟨none, none⟩ (show 0 < 2 by decide)
    samplePagesDb).mpr nofun).2.1 nofun sampleWalk w hrun).2 hended

/-- Asked for their type, the first page is empty and tells that there are none. -/
theorem typed_page_empty :
    sampleTypeId.text = "a3a814f4-4724-4947-b6ab-8337f3b33969" ∧
      ((listOwned false "session-1" ⟨some sampleTypeId, none⟩ 20 0).run (parcelHandler foldCase)
        samplePagesDb).1 = .ok (0, []) ∧
      Matching foldCase false "session-1" ⟨some sampleTypeId, none⟩ (typedParcel "parcel-2") ∧
      ¬ (ownedPages foldCase false "session-1" ⟨some sampleTypeId, none⟩ 20).WalkedAlone
        (parcelSystem foldCase) samplePagesDb
        (OwnedListing foldCase (Matching foldCase false "session-1" ⟨some sampleTypeId, none⟩)
          samplePagesDb) := by
  have htext : sampleTypeId.text = "a3a814f4-4724-4947-b6ab-8337f3b33969" := by decide +kernel
  have howned : OfOwner foldCase false "session-1" none (typedParcel "parcel-2") :=
    ⟨by decide +kernel, nofun⟩
  refine ⟨htext, by decide +kernel, ⟨howned, ?_⟩, ?_⟩
  · rintro id hid
    cases hid
    decide +kernel
  · rw [owned_walk_matching_iff (by decide)]
    intro h
    have hagree := h sampleTypeId rfl (typedParcel "parcel-2") (by decide +kernel) howned
    revert hagree
    decide +kernel

end ParcelDelivery
