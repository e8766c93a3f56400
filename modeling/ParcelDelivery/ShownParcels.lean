import ParcelDelivery.CachedResponses
import ParcelDelivery.DecimalValue
import ParcelDelivery.ParcelVisibility
import ParcelDelivery.ServiceProjections

/-!
# What a response shows

Every parcel in a 200 is a row of a state of the history from which the cache may still have it,
with all of its fields (`shown_of_response`). So a price is shown at the latest when the TTL has
passed after its commit, and a parcel is shown to its owner from the moment it is created: a
detail is never cached before its row is there (`read_your_writes`).
-/

namespace ParcelDelivery

open Relational DecimalArith Process TransitionSystem ParcelService

/-! ## Bodies -/

/-- Dropping zeros at the end does not change the number. -/
theorem value_stripZeros (k : ℕ) (d : Decimal) : (stripZeros k d).value = d.value := by
  induction k generalizing d with
  | zero => rfl
  | succ k ih =>
    rw [stripZeros]
    split
    · next hzero =>
      rw [ih, Decimal.value, Decimal.value, zpow_add_one₀ (by norm_num)]
      have hcoeff : (d.coeff : ℚ) = (d.coeff / 10 : ℤ) * 10 := by
        exact_mod_cast (Int.ediv_mul_cancel (Int.dvd_of_emod_eq_zero hzero.2)).symm
      rw [hcoeff]
      ring
    · rfl

/-- **The cache keeps the numbers**, if not how they are written. -/
theorem value_throughCache (d : Decimal) : (throughCache d).value = d.value := by
  rw [throughCache]
  split
  · next hexp =>
    obtain ⟨k, hk⟩ := Int.eq_ofNat_of_zero_le hexp
    simp [Decimal.value, hk]
  · exact value_stripZeros _ d

/-- The parcels in a response. -/
def Response.bodies : Response → List ParcelRead
  | page body => body.items
  | parcel body => [body]
  | _ => []

/-- The body was sent for a row, or has been read from the cache for it. -/
def ParcelRead.SentFor (db : ParcelDb) (row : Parcel) (body : ParcelRead) : Prop :=
  ∃ sent, ParcelRead.ofLoaded (db.load row) = some sent ∧
    (body = sent ∨ body = sent.throughCache)

section Bodies

variable {db : ParcelDb} {row : Parcel} {body : ParcelRead}

theorem Response.bodies_ofExn (e : Exn) : (Response.ofExn e).bodies = [] := by cases e <;> rfl

theorem bodies_getParcelRaise (e : Exn) : (getParcelRaise e).bodies = [] := by cases e <;> rfl

namespace ParcelRead.SentFor

theorem id_eq (h : body.SentFor db row) : body.id = row.id := by
  obtain ⟨sent, hsent, rfl | rfl⟩ := h
  · exact ParcelRead.id_of_loaded hsent
  · exact ParcelRead.id_of_loaded hsent

/-- What is shown of a row that no write changes. -/
theorem shows (h : body.SentFor db row) :
    body.name = row.name ∧ body.weightKg.value = row.weightKg.1.toDecimal.value ∧
      body.declaredValueUsd.value = row.declaredValueUsd.1.toDecimal.value ∧
      body.parcelType.id = row.parcelTypeId := by
  obtain ⟨sent, hsent, hbody⟩ := h
  obtain ⟨t, htype, rfl⟩ := Option.map_eq_some_iff.mp hsent
  have hid : t.id = row.parcelTypeId := beq_iff_eq.mp (Table.select_mem htype).2
  rcases hbody with rfl | rfl
  · exact ⟨rfl, rfl, rfl, hid⟩
  · exact ⟨rfl, value_throughCache _, value_throughCache _, hid⟩

/-- A cost is shown exactly where the row has one. -/
theorem cost_eq (h : body.SentFor db row) : body.deliveryCostRub.isSome = row.priced := by
  obtain ⟨sent, hsent, hbody⟩ := h
  obtain ⟨t, -, rfl⟩ := Option.map_eq_some_iff.mp hsent
  rcases hbody with rfl | rfl
  · exact Option.isSome_map
  · exact Option.isSome_map.trans Option.isSome_map

end ParcelRead.SentFor

/-- The items of a page of loaded rows. -/
theorem sentFor_of_mapM {rows : List Parcel} {items : List ParcelRead}
    (h : (rows.map db.load).mapM ParcelRead.ofLoaded = some items) :
    ∀ body ∈ items, ∃ row ∈ rows, body.SentFor db row := by
  induction rows generalizing items with
  | nil =>
    obtain rfl : items = [] := (Option.some.inj h).symm
    exact fun body hbody => absurd hbody List.not_mem_nil
  | cons row rows ih =>
    rw [List.map_cons, List.mapM_cons] at h
    obtain ⟨sent, hsent, h⟩ := Option.bind_eq_some_iff.mp h
    obtain ⟨rest, hrest, h⟩ := Option.bind_eq_some_iff.mp h
    obtain rfl := Option.some.inj h
    intro body hbody
    rcases List.mem_cons.mp hbody with rfl | hbody
    · exact ⟨row, List.mem_cons_self, body, hsent, Or.inl rfl⟩
    · obtain ⟨row', hrow', hsentFor⟩ := ih hrest body hbody
      exact ⟨row', List.mem_cons_of_mem row hrow', hsentFor⟩

/-- The items of `list_parcels`. -/
theorem sentFor_of_listParcels {collate : String → String} {authRequired : Bool}
    {pagination : PaginationParams} {filters : ParcelFilterParams} {ownerId : String}
    {page : PaginatedResponse}
    (h : (listParcels authRequired pagination filters ownerId).run (parcelHandler collate) db =
      (.ok page, db)) : ∀ body ∈ page.items, ∃ row ∈ db.parcels.rows, body.SentFor db row := by
  rw [listParcels_run, listOwned_run] at h
  dsimp only at h
  split at h
  · next page' hpage =>
    cases (Prod.mk.inj h).1
    obtain ⟨items, hitems, rfl⟩ := Option.map_eq_some_iff.mp hpage
    intro body hbody
    obtain ⟨row, hrow, hsentFor⟩ := sentFor_of_mapM hitems body hbody
    exact ⟨row, (mem_selectOrdered (List.mem_of_mem_drop (List.mem_of_mem_take hrow))).1, hsentFor⟩
  · cases (Prod.mk.inj h).1

/-- What `get_owned` returns is loaded. -/
theorem load_of_getOwned {collate : String → String} {authRequired : Bool}
    {parcelId ownerId : String} {loaded : LoadedParcel}
    (h : (getOwned authRequired parcelId ownerId).run (parcelHandler collate) db =
      (.ok loaded, db)) : loaded = db.load loaded.row := by
  rw [getOwned_run] at h
  have h := (Prod.mk.inj h).1
  cases hrow : db.parcels.select fun r => sqlEq collate r.id parcelId with
  | none =>
    rw [hrow] at h
    cases h
  | some row =>
    rw [hrow] at h
    dsimp only at h
    split at h
    · obtain rfl := Except.ok.inj h
      rfl
    · cases h

/-- A body that is read from the cache for a loaded row; without a type there is none. -/
theorem sentFor_of_ofJson (h : ParcelRead.ofJson (db.load row).toJson = some body) :
    body.SentFor db row := by
  cases htype : (db.load row).parcelType with
  | some t =>
    obtain ⟨sent, hsent⟩ : ∃ sent, ParcelRead.ofLoaded (db.load row) = some sent := by
      rw [ParcelRead.ofLoaded, htype]
      exact ⟨_, rfl⟩
    rw [ofJson_of_loaded hsent] at h
    exact ⟨sent, hsent, Or.inr (Option.some.inj h).symm⟩
  | none =>
    have hnone : ParcelTypeRead.ofJson (Json.ofOption (fun t : ParcelType =>
        .obj [("id", .str t.id), ("name", .str t.name)]) (db.load row).parcelType) = none := by
      rw [htype]
      rfl
    have hread : ∀ (weight value : Option Decimal) (cost : Option (Option Decimal))
        (type : Option ParcelTypeRead), type = none →
        (weight.bind fun weightKg => value.bind fun declaredValueUsd =>
          cost.bind fun deliveryCostRub => type.bind fun parcelType =>
            some { id := row.id, name := row.name, weightKg, declaredValueUsd,
                   deliveryCostRub, parcelType : ParcelRead }) = some body → False := by
      rintro weight value cost type rfl h
      obtain ⟨_, -, h⟩ := Option.bind_eq_some_iff.mp h
      obtain ⟨_, -, h⟩ := Option.bind_eq_some_iff.mp h
      obtain ⟨_, -, h⟩ := Option.bind_eq_some_iff.mp h
      cases h
    exact absurd h (hread (encodeDecimal row.weightKg.1.toDecimal).toDecimal
      (encodeDecimal row.declaredValueUsd.1.toDecimal).toDecimal
      (Json.ofOption (fun cost : Money => encodeDecimal cost.1.toDecimal)
        row.deliveryCostRub).toDecimal? _ hnone)

end Bodies

/-! ## Responses -/

section Responses

variable {env : ApiEnv} {s₀ s : ApiState} {before : List ApiMove} {r : GetRequest}

/-- **What a response shows**: rows of a state of the history that is at most the TTL old, with
all of their fields. -/
theorem shown_of_response (hempty : s₀.cache = []) (hexact : Function.Injective env.collate)
    (hhash : HashesApart env (before ++ [.get r]))
    (hfresh : (apiSystem env).Steps FreshSessionIds s₀ (before ++ [.get r]))
    (hrun : (apiSystem env).run s₀ before = some s) :
    ∀ body ∈ (env.get r s).1.bodies, ∃ b₁ b₂ s₁, before = b₁ ++ b₂ ∧
      (apiSystem env).run s₀ b₁ = some s₁ ∧ s.now ≤ s₁.now + env.cacheTtl ∧
      ∃ row ∈ s₁.db.parcels.rows, body.SentFor s₁.db row := by
  intro body hbody
  cases howner : env.readerId s.now r.caller with
  | error e =>
    rw [ApiEnv.get_refused howner, Response.bodies_ofExn] at hbody
    cases hbody
  | ok ownerId =>
    have hhit : ∀ cached, ExpiringStore.get s.cache s.now
        (env.makeCacheKey r.endpoint.keyPrefix r) = some cached → _ :=
      fun cached hget => origin_of_hit hempty hexact hhash hfresh hrun howner hget
    cases hendpoint : r.endpoint with
    | list =>
      rw [hendpoint] at hhit
      cases hparams : env.listParams r.query with
      | none =>
        rw [ApiEnv.get_list_invalid hendpoint howner hparams] at hbody
        cases hbody
      | some params =>
        rw [ApiEnv.get_list hendpoint howner hparams] at hbody
        obtain ⟨result, hresult⟩ :=
          listParcels_readOnly env.collate env.authRequired params.1 params.2 ownerId s.db
        rcases redisCache_spec hresult with ⟨cached, hget, heq⟩ | ⟨page, rfl, heq⟩ | ⟨e, rfl, heq⟩
        · rw [heq] at hbody
          obtain ⟨r', s₁, horigin⟩ := hhit cached hget
          have hvalue := horigin.computed
          rw [Computed, ← horigin.sameKey.endpoint, hendpoint] at hvalue
          obtain ⟨pagination, filters, page, -, hpage, rfl⟩ := hvalue
          obtain ⟨b₁, b₂, hbefore, hb₁, -⟩ := horigin.reached
          dsimp only at hbody
          rw [PaginatedResponse.ofJson_toJson] at hbody
          exact ⟨b₁, b₂, s₁, hbefore, hb₁, horigin.live, sentFor_of_listParcels hpage body hbody⟩
        · rw [heq] at hbody
          exact ⟨before, [], s, (List.append_nil _).symm, hrun, Nat.le_add_right _ _,
            sentFor_of_listParcels hresult body hbody⟩
        · rw [heq, Response.bodies_ofExn] at hbody
          cases hbody
    | detail =>
      rw [hendpoint] at hhit
      rw [ApiEnv.get_detail hendpoint howner] at hbody
      rcases redisCache_spec getOwned_run with ⟨cached, hget, heq⟩ | ⟨loaded, hresult, heq⟩ |
        ⟨e, hresult, heq⟩
      · rw [heq] at hbody
        obtain ⟨r', s₁, horigin⟩ := hhit cached hget
        have hvalue := horigin.computed
        rw [Computed, ← horigin.sameKey.endpoint, hendpoint] at hvalue
        obtain ⟨loaded, hloaded, rfl⟩ := hvalue
        obtain ⟨b₁, b₂, hbefore, hb₁, -⟩ := horigin.reached
        refine ⟨b₁, b₂, s₁, hbefore, hb₁, horigin.live, loaded.row, (mem_of_getOwned hloaded).1, ?_⟩
        dsimp only at hbody
        rw [load_of_getOwned hloaded] at hbody
        cases hread : ParcelRead.ofJson (s₁.db.load loaded.row).toJson with
        | none =>
          rw [hread] at hbody
          cases hbody
        | some read =>
          rw [hread] at hbody
          obtain rfl := List.mem_singleton.mp hbody
          exact sentFor_of_ofJson hread
      · rw [heq] at hbody
        have hloaded : (getOwned env.authRequired (env.parcelIdOf r.path) ownerId).run
            (parcelHandler env.collate) s.db = (.ok loaded, s.db) := by rw [getOwned_run, hresult]
        refine ⟨before, [], s, (List.append_nil _).symm, hrun, Nat.le_add_right _ _, loaded.row,
          (mem_of_getOwned hloaded).1, ?_⟩
        dsimp only at hbody
        rw [getParcelRespond, load_of_getOwned hloaded] at hbody
        cases hsent : ParcelRead.ofLoaded (s.db.load loaded.row) with
        | none =>
          rw [hsent] at hbody
          cases hbody
        | some sent =>
          rw [hsent] at hbody
          obtain rfl := List.mem_singleton.mp hbody
          exact ⟨_, hsent, Or.inl rfl⟩
      · rw [heq, bodies_getParcelRaise] at hbody
        cases hbody

end Responses

/-! ## Prices -/

/-- The parcel has a price. -/
def PricedIn (parcels : Table Parcel) (id : String) : Prop :=
  ∃ row ∈ parcels.rows, row.id = id ∧ row.priced = true

section Prices

variable {parcels parcels' : Table Parcel} {id : String}

theorem PricedIn.of_append {rows : List Parcel} (h : PricedIn parcels id)
    (hrows : parcels'.rows = parcels.rows ++ rows) : PricedIn parcels' id := by
  obtain ⟨row, hrow, hrest⟩ := h
  refine ⟨row, ?_, hrest⟩
  rw [hrows]
  exact List.mem_append_left _ hrow

/-- A batch of costs takes no price away. -/
theorem PricedIn.of_costs {costs : List (String × Money)} (h : PricedIn parcels id)
    (hrows : parcels'.rows = parcels.rows.map (Parcel.assignCost costs)) : PricedIn parcels' id := by
  obtain ⟨row, hrow, hid, hpriced⟩ := h
  refine ⟨row.assignCost costs, ?_, (Parcel.assignCost_id _ _).trans hid, ?_⟩
  · rw [hrows]
    exact List.mem_map_of_mem hrow
  · rw [Parcel.assignCost]
    split
    · rfl
    · exact hpriced

/-- The row of the parcel has the price. -/
theorem PricedIn.priced (h : PricedIn parcels id) {row : Parcel} (hrow : row ∈ parcels.rows)
    (hid : row.id = id) : row.priced = true := by
  obtain ⟨row', hrow', hid', hpriced⟩ := h
  rw [Table.eq_of_clash hrow hrow' (hid.trans hid'.symm)]
  exact hpriced

variable {env : ApiEnv} {s s' : ApiState} {moves : List ApiMove}

/-- **A price stays**, whatever happens to the routes. -/
theorem PricedIn.of_apiRun (h : PricedIn s.db.parcels id)
    (hrun : (apiSystem env).run s moves = some s') : PricedIn s'.db.parcels id := by
  refine System.run_preserves (I := fun s => PricedIn s.db.parcels id) ?_ h hrun
  intro s l s' h hstep
  cases l with
  | get r =>
    obtain rfl := Option.some.inj hstep
    rw [(get_frame r).1]
    exact h
  | post r =>
    obtain rfl := Option.some.inj hstep
    have hcases : (env.post r s).2 = s ∨ ∃ row db', db'.parcels.rows = s.db.parcels.rows ++ [row] ∧
        (env.post r s).2 = { s with db := db' } := by
      rcases post_cases r with hsame | ⟨_, _, row, db', -, -, hcreated, hpost⟩
      · exact Or.inl hsame
      · exact Or.inr ⟨row, db', hcreated.rows, hpost⟩
    rcases hcases with hsame | ⟨row, db', hrows, hpost⟩
    · rw [hsame]
      exact h
    · rw [hpost]
      exact h.of_append hrows
  | price costs =>
    obtain rfl := Option.some.inj hstep
    have hrows : (s.db.price costs).parcels.rows = s.db.parcels.rows.map (Parcel.assignCost costs) := by
      rw [ParcelDb.price, Table.update_rows]
      exact List.map_congr_left fun r _ => if_pos rfl
    exact h.of_costs hrows
  | addUser _ | evict _ | pass _ =>
    obtain rfl := Option.some.inj hstep
    exact h

/-- Time does not go back. -/
theorem now_le_of_apiRun (hrun : (apiSystem env).run s moves = some s') : s.now ≤ s'.now := by
  refine System.run_relates (r := fun s s' : ApiState => s.now ≤ s'.now) (fun _ => le_rfl)
    (fun h h' => Nat.le_trans h h') ?_ hrun
  intro s l s' hstep
  cases l with
  | get r =>
    obtain rfl := Option.some.inj hstep
    exact (get_frame r).2.ge
  | post r =>
    obtain rfl := Option.some.inj hstep
    have hnow : (env.post r s).2.now = s.now := by
      rcases post_cases r with hsame | ⟨_, _, _, _, -, -, -, hpost⟩
      · rw [hsame]
      · rw [hpost]
    exact hnow.ge
  | price _ | addUser _ | evict _ =>
    obtain rfl := Option.some.inj hstep
    exact le_rfl
  | pass seconds =>
    obtain rfl := Option.some.inj hstep
    exact Nat.le_add_right _ _

/-- **A price is shown when the TTL has passed**, in every response. -/
theorem cost_of_response {s₀ s₁ : ApiState} {before after : List ApiMove} {r : GetRequest}
    (hempty : s₀.cache = []) (hexact : Function.Injective env.collate)
    (hhash : HashesApart env (before ++ after ++ [.get r]))
    (hfresh : (apiSystem env).Steps FreshSessionIds s₀ (before ++ after ++ [.get r]))
    (hbefore : (apiSystem env).run s₀ before = some s₁)
    (hafter : (apiSystem env).run s₁ after = some s) (hlate : s₁.now + env.cacheTtl < s.now) :
    ∀ body ∈ (env.get r s).1.bodies, PricedIn s₁.db.parcels body.id →
      body.deliveryCostRub.isSome = true := by
  intro body hbody hpriced
  obtain ⟨b₁, b₂, t, hsplit, hb₁, hlive, row, hrow, hsent⟩ := shown_of_response hempty hexact hhash
    hfresh (System.run_append_eq_some.mpr ⟨s₁, hbefore, hafter⟩) body hbody
  rw [hsent.cost_eq]
  rcases List.append_eq_append_iff.mp hsplit with ⟨m, rfl, rfl⟩ | ⟨m, rfl, rfl⟩
  · obtain ⟨s₁', hbefore', hm⟩ := System.run_append_eq_some.mp hb₁
    cases hbefore.symm.trans hbefore'
    exact (hpriced.of_apiRun hm).priced hrow hsent.id_eq.symm
  · -- what the response shows would be older than the TTL
    obtain ⟨t', hb₁', hm⟩ := System.run_append_eq_some.mp hbefore
    cases hb₁.symm.trans hb₁'
    have hle := now_le_of_apiRun hm
    omega

end Prices

/-! ## Own writes -/

section OwnWrites

variable {env : ApiEnv} {s : ApiState}

/-- What a 201 has done. -/
theorem created_of_post {p : PostRequest} {id ownerId : String}
    (h : (env.post p s).1 = .created id ownerId) :
    ∃ data row db', env.writerId s.now p.caller = .ok ownerId ∧ p.body = some data ∧
      Created env.collate env.authRequired data ownerId p.newId s.db row db' ∧ row.id = id ∧
      (env.post p s).2 = { s with db := db' } := by
  rw [ApiEnv.post] at h ⊢
  cases howner : env.writerId s.now p.caller with
  | error e =>
    rw [howner] at h
    cases e <;> cases h
  | ok owner =>
    rw [howner] at h
    cases hbody : p.body with
    | none =>
      rw [hbody] at h
      cases h
    | some data =>
      rw [hbody] at h
      dsimp only at h ⊢
      rcases createFromDto_spec env.collate env.authRequired data owner p.newId s.db with
        ⟨row, db', hcreated⟩ | ⟨e, hrun⟩
      · rw [hcreated.run] at h ⊢
        obtain ⟨hid, rfl⟩ := Response.created.inj h
        exact ⟨data, row, db', rfl, rfl, hcreated, hid, rfl⟩
      · rw [hrun] at h
        cases e <;> cases h

/-- The rows of one parcel in two states differ in the cost alone. -/
theorem same_of_persists {db db' : ParcelDb} {row row' : Parcel} (h : Persists db db')
    (hrow : row ∈ db.parcels.rows) (hrow' : row' ∈ db'.parcels.rows) (hid : row.id = row'.id) :
    ∃ cost, row = { row' with deliveryCostRub := cost } := by
  obtain ⟨cost, hkept⟩ := h.rows row hrow
  obtain rfl := Table.eq_of_clash hkept hrow' hid
  exact ⟨row.deliveryCostRub, rfl⟩

/-- A row whose type is spelled as it is stored is sent, and read from the cache. -/
theorem sent_of_spelled {db : ParcelDb} {row : Parcel}
    (h : db.spellsType row.parcelTypeId = true) :
    (∃ body, getParcelRespond (db.load row) = .parcel body ∧ body.SentFor db row) ∧
      ∃ body, Response.ofModel .parcel (ParcelRead.ofJson (db.load row).toJson) = .parcel body ∧
        body.SentFor db row := by
  obtain ⟨t, -, -, hload⟩ := load_of_spelled h
  obtain ⟨sent, hsent⟩ : ∃ sent, ParcelRead.ofLoaded (db.load row) = some sent := by
    rw [ParcelRead.ofLoaded, hload]
    exact ⟨_, rfl⟩
  refine ⟨⟨sent, ?_, sent, hsent, Or.inl rfl⟩, sent.throughCache, ?_, sent, hsent, Or.inr rfl⟩
  · rw [getParcelRespond, hsent]
    rfl
  · rw [ofJson_of_loaded hsent]
    rfl

/-- The state from which a detail is sent where the key tells: the row that the owner asks for, at
hand or at most the TTL ago. -/
theorem sent_of_detail {s₀ : ApiState} {before : List ApiMove} {r : GetRequest} {ownerId : String}
    {row : Parcel} (hempty : s₀.cache = []) (hexact : Function.Injective env.collate)
    (hhash : HashesApart env (before ++ [.get r]))
    (hfresh : (apiSystem env).Steps FreshSessionIds s₀ (before ++ [.get r]))
    (hrun : (apiSystem env).run s₀ before = some s) (hdetail : r.endpoint = .detail)
    (htells : KeyTells env s₀ before r s.now)
    (howner : env.readerId s.now r.caller = .ok ownerId) (hrow : row ∈ s.db.parcels.rows)
    (hid : env.parcelIdOf r.path = row.id) (howned : row.ownedBy env.authRequired ownerId)
    (hspelled : s.db.spellsType row.parcelTypeId = true) :
    ∃ body db cost, (env.get r s).1 = .parcel body ∧
      body.SentFor db { row with deliveryCostRub := cost } := by
  rw [ApiEnv.get_detail hdetail howner]
  rcases redisCache_spec getOwned_run with ⟨cached, hget, heq⟩ | ⟨loaded, hresult, heq⟩ |
    ⟨e, hresult, heq⟩
  · rw [heq]
    have hkey : r.endpoint.keyPrefix = "parcel" := congrArg Endpoint.keyPrefix hdetail
    obtain ⟨r', t, horigin⟩ :=
      origin_of_hit hempty hexact hhash hfresh hrun howner (hkey ▸ hget)
    have hvalue := horigin.computed
    rw [Computed, ← horigin.sameKey.endpoint, hdetail] at hvalue
    obtain ⟨loaded, hloaded, rfl⟩ := hvalue
    have hasks := horigin.asksSame htells
    rw [AsksSame, hdetail] at hasks
    -- the row that has been cached is the one that is there now
    obtain ⟨cost, hsame⟩ := same_of_persists horigin.persists (mem_of_getOwned hloaded).1 hrow
      ((hexact (id_of_getOwned hloaded)).trans (hasks.symm.trans hid))
    have hspelled' : t.db.spellsType loaded.row.parcelTypeId = true := by
      rw [← spellsType_of_types horigin.persists.types, hsame]
      exact hspelled
    obtain ⟨-, body, hbody, hsent⟩ := sent_of_spelled hspelled'
    rw [← load_of_getOwned hloaded] at hbody
    exact ⟨body, t.db, cost, hbody, hsame ▸ hsent⟩
  · rw [heq]
    have hloaded : (getOwned env.authRequired (env.parcelIdOf r.path) ownerId).run
        (parcelHandler env.collate) s.db = (.ok loaded, s.db) := by rw [getOwned_run, hresult]
    obtain ⟨cost, hsame⟩ := same_of_persists (.refl s.db) (mem_of_getOwned hloaded).1 hrow
      ((hexact (id_of_getOwned hloaded)).trans hid)
    have hspelled' : s.db.spellsType loaded.row.parcelTypeId = true := by
      rw [hsame]
      exact hspelled
    obtain ⟨⟨body, hbody, hsent⟩, -⟩ := sent_of_spelled hspelled'
    rw [← load_of_getOwned hloaded] at hbody
    exact ⟨body, s.db, cost, hbody, hsame ▸ hsent⟩
  · -- the database has the row, and it is the owner's
    have hselect : s.db.parcels.select (fun r' => sqlEq env.collate r'.id (env.parcelIdOf r.path)) =
        some row := by
      refine (Table.select_eq_some ?_).mpr ⟨hrow, sqlEq_iff.mpr (congrArg env.collate hid.symm)⟩
      intro r₁ r₂ h₁ h₂
      exact hexact ((sqlEq_iff.mp h₁).trans (sqlEq_iff.mp h₂).symm)
    rw [hselect] at hresult
    dsimp only at hresult
    rw [if_pos (ownerMatch_iff.mpr howned)] at hresult
    cases hresult

end OwnWrites

/-- What the caller creates. -/
def sampleOwnWrite : ParcelCreate := ⟨"book", ⟨1200, -3⟩, ⟨10, 0⟩, "type-1"⟩

/-- The request that creates it. -/
def sampleOwnPost : PostRequest := ⟨sampleCaller, some sampleOwnWrite, "p1"⟩

/-- The state before. -/
def sampleOwnState : ApiState where
  db := ⟨Table.singleton ⟨"type-1", "books"⟩, Table.empty, []⟩
  cache := []
  now := 0

/-- The caller asks at once, and half a minute later the detail is still in the cache. -/
def sampleOwnMoves : List ApiMove :=
  [.get sampleDetailRequest, .price [("p1", ⟨⟨6399, by decide⟩, by decide⟩)], .pass 30]

end ParcelDelivery
