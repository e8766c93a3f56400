import ParcelDelivery.ParcelAdmission
import ParcelDelivery.ParcelOwnership

/-!
# Session ids

What `assign_session_id` makes of the text of a header. It checks the text with `uuid.UUID`, which
accepts a UUID in many spellings of any length, and keeps the text itself as the owner key.
-/

namespace ParcelDelivery

open Relational DecimalArith Process ParcelService

/-! ## The owner key in its column -/

/-- A call of `create_from_dto` in the session mode never fails on account of this owner key: what
can be created under another key can be created under it. -/
def StorableKey (ownerId : String) : Prop :=
  ∀ (collate : String → String) (data : ParcelCreate) (newId key : String) (db db' : ParcelDb)
    (row : Parcel), (createFromDto false data key newId).run (parcelHandler collate) db =
      (.ok row, db') →
    ∃ row' db'', (createFromDto false data ownerId newId).run (parcelHandler collate) db =
      (.ok row', db'')

section Storable

variable {collate : String → String} {data : ParcelCreate} {ownerId key newId : String}
  {db db' : ParcelDb} {row : Parcel}

/-- What a successful call has checked. -/
theorem checks_of_run {authRequired : Bool}
    (h : (createFromDto authRequired data ownerId newId).run (parcelHandler collate) db =
      (.ok row, db')) :
    db.knowsType collate data.parcelTypeId = true ∧ 0 < data.weightKg.coeff := by
  rw [createFromDto_run] at h
  split at h
  · next hknown =>
    split at h
    · next hweight => exact ⟨hknown, hweight⟩
    · cases h
  · cases h

/-- The owner key is the only difference between two rows of the session mode. -/
theorem row_of_key (h : (newParcel false data key newId).row = some row)
    (hlength : ownerId.length ≤ 255) :
    (newParcel false data ownerId newId).row = some { row with sessionId := ownerId } := by
  rw [NewParcel.row] at h ⊢
  split at h
  · next hlengths =>
    have hlengths' : (newParcel false data ownerId newId).id.length ≤ 36 ∧
        (newParcel false data ownerId newId).name.length ≤ 255 ∧
        (newParcel false data ownerId newId).sessionId.length ≤ 255 ∧
        (newParcel false data ownerId newId).parcelTypeId.length ≤ 36 ∧
        (newParcel false data ownerId newId).userId.all (fun userId => userId.length ≤ 36) :=
      ⟨hlengths.1, hlengths.2.1, hlength, hlengths.2.2.2⟩
    rw [if_pos hlengths']
    split at h
    · next weight value hweight hvalue =>
      have hweight' : Weight.store (newParcel false data ownerId newId).weightKg = some weight :=
        hweight
      have hvalue' : Money.store (newParcel false data ownerId newId).declaredValueUsd =
          some value := hvalue
      rw [hweight', hvalue', ← Option.some.inj h]
      rfl
    · cases h
  · cases h

/-- **A key that fits its column** does not make a call fail. -/
theorem storableKey_of_length (hlength : ownerId.length ≤ 255) : StorableKey ownerId := by
  intro collate data newId key db db' row hrun
  obtain ⟨hknown, hweight⟩ := checks_of_run hrun
  have hcreated := created_of_run hrun
  have hrow := row_of_key hcreated.row_eq hlength
  obtain ⟨hid, -, -, -, -, -, htype, huser⟩ := NewParcel.row_eq_some hcreated.row_eq
  have hid' : row.id = newId := hid
  have htype' : row.parcelTypeId = data.parcelTypeId := htype
  have huser' : row.userId = none := huser
  have hfresh : ∀ r ∈ db.parcels.rows, collate r.id ≠ collate row.id := by
    rw [hid']
    exact hcreated.fresh
  have hselect : ∃ t, db.types.select (fun t => sqlEq collate t.id row.parcelTypeId) = some t := by
    rw [htype']
    exact hcreated.type
  have hknows : row.userId.all (db.knowsUser collate) = true := by
    rw [huser']
    rfl
  obtain ⟨db₁, hinsert⟩ := insertParcel_of_row hrow hfresh hselect hknows
  obtain ⟨row', hcreated'⟩ := created_of_insert hknown hweight hinsert
  exact ⟨row', db₁, hcreated'.run⟩

/-- A key that does not fit makes every call fail. -/
theorem length_of_run
    (h : (createFromDto false data ownerId newId).run (parcelHandler collate) db =
      (.ok row, db')) : ownerId.length ≤ 255 := by
  have hrow := (created_of_run h).row_eq
  rw [NewParcel.row] at hrow
  split at hrow
  · next hlengths => exact hlengths.2.2.1
  · cases hrow

/-- **What a longer key does**: the database refuses the value. -/
theorem createFromDto_of_long (hlength : ¬ ownerId.length ≤ 255)
    (hknown : db.knowsType collate data.parcelTypeId = true) (hweight : 0 < data.weightKg.coeff) :
    (createFromDto false data ownerId newId).run (parcelHandler collate) db =
      (.error .dataError, db) := by
  have hrow : (newParcel false data ownerId newId).row = none :=
    if_neg fun hlengths => hlength hlengths.2.2.1
  apply createFromDto_of_refused hknown hweight
  rw [ParcelDb.insertParcel, hrow]

/-- A call that succeeds under a short key. -/
theorem run_sampleCreate : ∃ row db',
    (createFromDto false (sampleCreate "type-a") sampleSession "p1").run (parcelHandler foldCase)
      sampleTypesDb = (.ok row, db') :=
  ⟨_, _, rfl⟩

theorem storableKey_iff : StorableKey ownerId ↔ ownerId.length ≤ 255 := by
  refine ⟨fun hstorable => ?_, storableKey_of_length⟩
  obtain ⟨row, db', hrun⟩ := run_sampleCreate
  obtain ⟨row', db'', hrun'⟩ := hstorable _ _ _ _ _ _ _ hrun
  exact length_of_run hrun'

end Storable

/-! ## Normalisation -/

/-- The middleware accepts both texts, as the same UUID. -/
def SameUuid (session session' : String) : Prop :=
  keepsSession session = true ∧ keepsSession session' = true ∧ uuidValue session = uuidValue session'

/-- The id that is assigned for a header is the text of a UUID and fits its column; a text that is
no UUID is replaced; every other text of the same UUID leads to the same owner key; and that key can
be stored. -/
structure SessionNormalized (header : HeaderValue) (fresh : Uuid) : Prop where
  uuidText : (uuidValue (assignSessionId header fresh.text)).isSome = true
  fits : (assignSessionId header fresh.text).length ≤ 255
  replaced : ∀ session ∈ header, keepsSession session = false →
    assignSessionId header fresh.text = fresh.text
  sameOwner : ∀ session ∈ header, ∀ session' fresh', SameUuid session session' →
    assignSessionId header fresh.text = assignSessionId (some session') (Uuid.text fresh')
  storable : StorableKey (assignSessionId header fresh.text)

section Normalized

variable {header : HeaderValue} {fresh : Uuid} {session session' : String}

theorem assignSessionId_of_kept (h : keepsSession session = true) (uuid4 : String) :
    assignSessionId (some session) uuid4 = session := by
  rw [assignSessionId_some, if_pos h]

theorem assignSessionId_of_replaced (h : ∀ session ∈ header, keepsSession session = false)
    (uuid4 : String) : assignSessionId header uuid4 = uuid4 := by
  cases header with
  | none => rfl
  | some session => rw [assignSessionId_some, h session rfl, if_neg Bool.false_ne_true]

/-- **Another spelling**: a text is the text of the same UUID with `urn:` before it. -/
theorem uuidValue_urn (session : String) : uuidValue ("urn:" ++ session) = uuidValue session := by
  have hchars : ("urn:" ++ session).toList = 'u' :: 'r' :: 'n' :: ':' :: session.toList := by
    rw [String.toList_append]
    rfl
  have hremove : removeAll ['u', 'r', 'n', ':'] 0 ('u' :: 'r' :: 'n' :: ':' :: session.toList) =
      removeAll ['u', 'r', 'n', ':'] 0 session.toList := by
    simp [removeAll, List.isPrefixOf]
  rw [uuidValue, hchars, hremove, uuidValue]

theorem urn_ne (session : String) : "urn:" ++ session ≠ session := by
  intro heq
  have hlength := congrArg String.length heq
  rw [String.length_append] at hlength
  have hurn : "urn:".length = 4 := rfl
  omega

theorem sameUuid_urn (h : keepsSession session = true) : SameUuid session ("urn:" ++ session) := by
  have hsame := uuidValue_urn session
  refine ⟨h, ?_, hsame.symm⟩
  simp only [keepsSession, Bool.and_eq_true, bne_iff_ne] at h ⊢
  refine ⟨fun hempty => ?_, by rw [hsame]; exact h.2⟩
  have hlength := congrArg String.length hempty
  rw [String.length_append] at hlength
  have hurn : "urn:".length = 4 := rfl
  have hnone : "".length = 0 := rfl
  omega

/-- A header that is not kept is normalised. -/
theorem normalized_of_replaced (h : ∀ session ∈ header, keepsSession session = false) :
    SessionNormalized header fresh := by
  have hid := assignSessionId_of_replaced h fresh.text
  have hlength : fresh.text.length ≤ 255 := by
    rw [fresh.length_text]
    decide
  refine ⟨?_, ?_, fun _ _ _ => hid, fun session hsession _ _ hsame => ?_, ?_⟩
  · rw [hid, uuidValue_text]
    rfl
  · rw [hid]
    exact hlength
  · have hkept := hsame.1
    rw [h session hsession] at hkept
    cases hkept
  · rw [hid]
    exact storableKey_of_length hlength

/-- A header that is kept is not, for want of one spelling. -/
theorem not_normalized_of_kept (h : keepsSession session = true) :
    ¬ SessionNormalized (some session) fresh := by
  intro hnormalized
  have hsame := sameUuid_urn h
  have howner := hnormalized.sameOwner session rfl _ fresh hsame
  rw [assignSessionId_of_kept h, assignSessionId_of_kept hsame.2.1] at howner
  exact urn_ne session howner.symm

end Normalized

/-- **When a session id is normalised**: exactly when the header is missing, empty or not the text of
a UUID. A text that is kept is a storable key if and only if it has at most 255 characters, and
shares its owner key with no other text of its UUID. -/
theorem session_normalized_iff (header : HeaderValue) (fresh : Uuid) :
    (SessionNormalized header fresh ↔ ∀ session ∈ header, keepsSession session = false) ∧
      ∀ session ∈ header, keepsSession session = true →
        (StorableKey (assignSessionId header fresh.text) ↔ session.length ≤ 255) ∧
        ∀ session' fresh', SameUuid session session' →
          (assignSessionId header fresh.text = assignSessionId (some session') (Uuid.text fresh') ↔
            session = session') := by
  refine ⟨⟨fun hnormalized session hsession => ?_, normalized_of_replaced⟩, ?_⟩
  · obtain rfl : header = some session := hsession
    by_contra hkept
    exact not_normalized_of_kept (eq_true_of_ne_false hkept) hnormalized
  · intro session hsession hkept
    obtain rfl : header = some session := hsession
    rw [assignSessionId_of_kept hkept]
    refine ⟨storableKey_iff, fun session' fresh' hsame => ?_⟩
    rw [assignSessionId_of_kept hsame.2.1]

/-- A session id of 256 characters: a UUID behind 220 hyphens. -/
def sampleLongSession : String := String.ofList (List.replicate 220 '-' ++ sampleSession.toList)

/-- The long id is kept, and no parcel can be created under it. -/
theorem long_session_refused :
    assignSessionId (some sampleLongSession) "u1" = sampleLongSession ∧
      (createFromDto false (sampleCreate "type-a") sampleLongSession "p1").run
        (parcelHandler foldCase) sampleTypesDb = (.error .dataError, sampleTypesDb) ∧
      ∀ fresh, ¬ SessionNormalized (some sampleLongSession) fresh := by
  have hlength : sampleLongSession.length = 256 := by
    rw [sampleLongSession, String.length_ofList, List.length_append, List.length_replicate]
    rfl
  have hchars : sampleSession.toList =
      (⟨0x3f0f2a526f0e4c7b9d3c0a4c8f2b7e11, by decide⟩ : Uuid).chars := by decide
  have hkept : keepsSession sampleLongSession = true := by
    rw [keepsSession, Bool.and_eq_true, bne_iff_ne]
    refine ⟨fun hempty => ?_, ?_⟩
    · rw [hempty] at hlength
      cases hlength
    · rw [sampleLongSession, hchars, uuidValue_hyphens]
      rfl
  exact ⟨assignSessionId_of_kept hkept _, createFromDto_of_long (by omega) (by decide) (by decide),
    fun _ => not_normalized_of_kept hkept⟩

end ParcelDelivery
