import ParcelDelivery.CacheIsolation

/-!
# Cached and computed responses

A response is sent twice: by the request that computes it, and by those that find it in the
cache. `list_parcels` returns a response model and the cache keeps its JSON; `get_parcel`
returns the loaded row, whose decimals the cache keeps as numbers, without the zeros at
their ends. So pages always agree, and a parcel does exactly when none of its
numbers ends in a zero (`cached_response_eq_iff`).
-/

namespace ParcelDelivery

open Relational DecimalArith Process TransitionSystem ParcelService

/-! ## Decimals through the cache -/

/-- The decimal that is read back for a decimal that has been kept as a number. -/
def throughCache (d : Decimal) : Decimal :=
  if 0 ≤ d.exp then ⟨d.coeff * 10 ^ d.exp.toNat, 0⟩ else stripZeros d.exp.natAbs d

theorem toDecimal_encodeDecimal (d : Decimal) :
    (encodeDecimal d).toDecimal = some (throughCache d) := by
  rw [encodeDecimal, throughCache]
  split <;> rfl

theorem toDecimal?_ofOption (cost : Option Decimal) :
    (Json.ofOption encodeDecimal cost).toDecimal? = some (cost.map throughCache) := by
  cases cost with
  | none => rfl
  | some d =>
    simp only [Option.map_some, Json.ofOption, encodeDecimal, throughCache]
    split <;> rfl

theorem exp_le_stripZeros (k : ℕ) (d : Decimal) : d.exp ≤ (stripZeros k d).exp := by
  induction k generalizing d with
  | zero => exact le_rfl
  | succ k ih =>
    rw [stripZeros]
    split
    · have hstrip := ih ⟨d.coeff / 10, d.exp + 1⟩
      dsimp only at hstrip
      omega
    · exact le_rfl

/-- **Zeros are lost**: a column value with two decimal places or more survives exactly when its
last digit is not a zero. -/
theorem throughCache_eq_iff {p s : ℕ} (hs : 2 ≤ s) (x : Numeric p s) :
    throughCache x.toDecimal = x.toDecimal ↔ x.units % 10 ≠ 0 := by
  obtain ⟨k, rfl⟩ := Nat.exists_eq_add_of_le' hs
  have hnat : x.toDecimal.exp.natAbs = (k + 1) + 1 := by
    rw [Numeric.toDecimal]
    dsimp only
    omega
  have hexp : x.toDecimal.exp < -1 := by
    rw [Numeric.toDecimal]
    dsimp only
    omega
  rw [throughCache, if_neg (by omega), hnat, stripZeros]
  refine ⟨?_, ?_⟩
  · intro h hzero
    rw [if_pos ⟨hexp, hzero⟩] at h
    have hle := exp_le_stripZeros (k + 1) ⟨x.toDecimal.coeff / 10, x.toDecimal.exp + 1⟩
    rw [h] at hle
    dsimp only at hle
    omega
  · intro hdigit
    exact if_neg fun hzero => hdigit hzero.2

/-! ## Bodies -/

/-- No number of the row ends in a zero. -/
structure Parcel.NoTrailingZeros (r : Parcel) : Prop where
  weightKg : r.weightKg.1.units % 10 ≠ 0
  declaredValueUsd : r.declaredValueUsd.1.units % 10 ≠ 0
  deliveryCostRub : ∀ cost, r.deliveryCostRub = some cost → cost.1.units % 10 ≠ 0

/-- The body that is read from the cache for a body that was sent. -/
def ParcelRead.throughCache (body : ParcelRead) : ParcelRead :=
  { body with
    weightKg := ParcelDelivery.throughCache body.weightKg
    declaredValueUsd := ParcelDelivery.throughCache body.declaredValueUsd
    deliveryCostRub := body.deliveryCostRub.map ParcelDelivery.throughCache }

/-- A row that has been sent is read from the cache. -/
theorem ofJson_of_loaded {loaded : LoadedParcel} {body : ParcelRead}
    (h : ParcelRead.ofLoaded loaded = some body) :
    ParcelRead.ofJson loaded.toJson = some body.throughCache := by
  obtain ⟨t, htype, rfl⟩ := Option.map_eq_some_iff.mp h
  have hcost : (Json.ofOption (fun cost : Money => encodeDecimal cost.1.toDecimal)
      loaded.row.deliveryCostRub).toDecimal? =
        some ((loaded.row.deliveryCostRub.map fun cost => cost.1.toDecimal).map throughCache) := by
    rw [← toDecimal?_ofOption]
    cases loaded.row.deliveryCostRub <;> rfl
  have htype' : ParcelTypeRead.ofJson (Json.ofOption (fun t : ParcelType =>
      .obj [("id", .str t.id), ("name", .str t.name)]) loaded.parcelType) =
        some ⟨t.id, t.name⟩ := by
    rw [htype]
    rfl
  change ((encodeDecimal loaded.row.weightKg.1.toDecimal).toDecimal.bind fun weightKg =>
    (encodeDecimal loaded.row.declaredValueUsd.1.toDecimal).toDecimal.bind fun declaredValueUsd =>
      (Json.ofOption (fun cost : Money => encodeDecimal cost.1.toDecimal)
        loaded.row.deliveryCostRub).toDecimal?.bind fun deliveryCostRub =>
          (ParcelTypeRead.ofJson (Json.ofOption (fun t : ParcelType =>
            .obj [("id", .str t.id), ("name", .str t.name)]) loaded.parcelType)).bind
              fun parcelType => some { id := loaded.row.id, name := loaded.row.name, weightKg,
                                       declaredValueUsd, deliveryCostRub, parcelType
                                       : ParcelRead }) = _
  simp only [toDecimal_encodeDecimal, hcost, htype']
  rfl

/-- **A body survives the cache** exactly when its row has no zeros to lose. -/
theorem throughCache_body_iff {loaded : LoadedParcel} {body : ParcelRead}
    (h : ParcelRead.ofLoaded loaded = some body) :
    body.throughCache = body ↔ loaded.row.NoTrailingZeros := by
  obtain ⟨t, htype, rfl⟩ := Option.map_eq_some_iff.mp h
  have hweight := throughCache_eq_iff (by decide) loaded.row.weightKg.1
  have hvalue := throughCache_eq_iff (by decide) loaded.row.declaredValueUsd.1
  rw [ParcelRead.throughCache, ParcelRead.mk.injEq]
  dsimp only
  rw [hweight, hvalue]
  have hcost : ((loaded.row.deliveryCostRub.map fun cost => cost.1.toDecimal).map throughCache =
      loaded.row.deliveryCostRub.map fun cost => cost.1.toDecimal) ↔
        ∀ cost, loaded.row.deliveryCostRub = some cost → cost.1.units % 10 ≠ 0 := by
    cases loaded.row.deliveryCostRub with
    | none => simp
    | some cost =>
      rw [Option.map_some, Option.map_some, Option.some_inj, throughCache_eq_iff (by decide)]
      exact ⟨fun hdigit cost' heq => Option.some.inj heq ▸ hdigit, fun hall => hall cost rfl⟩
  rw [hcost]
  refine ⟨?_, ?_⟩
  · rintro ⟨-, -, hw, hv, hc, -⟩
    exact ⟨hw, hv, hc⟩
  · rintro ⟨hw, hv, hc⟩
    exact ⟨rfl, rfl, hw, hv, hc, rfl⟩

/-! ## Misses and hits -/

/-- The request misses the cache, sends a 200 and leaves this JSON under its key. -/
structure Fills (env : ApiEnv) (r : GetRequest) (s : ApiState) (response : Response) (json : Json) :
    Prop where
  miss : ExpiringStore.get s.cache s.now (env.makeCacheKey r.endpoint.keyPrefix r) = none
  sent : (env.get r s).1 = response
  ok : response.ok = true
  kept : ExpiringStore.get (env.get r s).2.cache s.now
    (env.makeCacheKey r.endpoint.keyPrefix r) = some json

/-- The request gets as far as the cache and finds this JSON under its key. -/
structure Hits (env : ApiEnv) (r : GetRequest) (s : ApiState) (json : Json) : Prop where
  reader : ∃ ownerId, env.readerId s.now r.caller = .ok ownerId
  params : r.endpoint = .list → (env.listParams r.query).isSome = true
  hit : ExpiringStore.get s.cache s.now (env.makeCacheKey r.endpoint.keyPrefix r) = some json

section Requests

variable {env : ApiEnv} {r : GetRequest} {s : ApiState} {response : Response} {json : Json}

/-- A miss runs the handler. -/
theorem redisCache_of_miss {α : Type} {keyPrefix : String} {fn : ParcelProg α} {toJson : α → Json}
    {sendCached : Json → Response} {send : α → Response} {raise : Exn → Response}
    {result : Except Exn α} (hrun : fn.run (parcelHandler env.collate) s.db = (result, s.db))
    (hmiss : ExpiringStore.get s.cache s.now (env.makeCacheKey keyPrefix r) = none)
    (hkept : ExpiringStore.get (env.redisCache keyPrefix r s fn toJson sendCached send raise).2.cache
      s.now (env.makeCacheKey keyPrefix r) = some json) :
    ∃ value, result = .ok value ∧ json = toJson value ∧
      (env.redisCache keyPrefix r s fn toJson sendCached send raise).1 = send value := by
  rcases redisCache_spec hrun with ⟨cached, hget, -⟩ | ⟨value, rfl, heq⟩ | ⟨e, rfl, heq⟩
  · exact nomatch hmiss.symm.trans hget
  · rw [heq] at hkept ⊢
    dsimp only at hkept
    rw [ExpiringStore.get_set_self (Nat.le_add_right _ _)] at hkept
    exact ⟨value, rfl, (Option.some.inj hkept).symm, rfl⟩
  · rw [heq] at hkept
    exact nomatch hmiss.symm.trans hkept

/-- A request that fills the cache has found its owner. -/
theorem Fills.reader (h : Fills env r s response json) :
    ∃ ownerId, env.readerId s.now r.caller = .ok ownerId := by
  cases howner : env.readerId s.now r.caller with
  | error e =>
    have hkept := h.kept
    rw [ApiEnv.get_refused howner] at hkept
    exact nomatch h.miss.symm.trans hkept
  | ok ownerId => exact ⟨ownerId, rfl⟩

/-- What a list request sends and keeps. -/
theorem Fills.list (h : Fills env r s response json) (hlist : r.endpoint = .list) :
    ∃ page : PaginatedResponse, response = .page page ∧ json = page.toJson := by
  obtain ⟨ownerId, howner⟩ := h.reader
  obtain ⟨hmiss, hsent, -, hkept⟩ := h
  rw [show r.endpoint.keyPrefix = "parcels" from congrArg Endpoint.keyPrefix hlist] at hmiss hkept
  cases hparams : env.listParams r.query with
  | none =>
    rw [ApiEnv.get_list_invalid hlist howner hparams] at hkept
    exact nomatch hmiss.symm.trans hkept
  | some params =>
    rw [ApiEnv.get_list hlist howner hparams] at hsent hkept
    obtain ⟨result, hrun⟩ :=
      listParcels_readOnly env.collate env.authRequired params.1 params.2 ownerId s.db
    obtain ⟨page, -, rfl, hsend⟩ := redisCache_of_miss hrun hmiss hkept
    exact ⟨page, hsent.symm.trans hsend, rfl⟩

/-- What a detail request sends and keeps. -/
theorem Fills.detail (h : Fills env r s response json) (hdetail : r.endpoint = .detail) :
    ∃ loaded body, response = .parcel body ∧ ParcelRead.ofLoaded loaded = some body ∧
      json = loaded.toJson ∧
      s.db.parcels.select (fun p => sqlEq env.collate p.id (env.parcelIdOf r.path)) =
        some loaded.row := by
  obtain ⟨ownerId, howner⟩ := h.reader
  obtain ⟨hmiss, hsent, hok, hkept⟩ := h
  rw [show r.endpoint.keyPrefix = "parcel" from congrArg Endpoint.keyPrefix hdetail] at hmiss hkept
  rw [ApiEnv.get_detail hdetail howner] at hsent hkept
  obtain ⟨loaded, hloaded, rfl, hsend⟩ := redisCache_of_miss getOwned_run hmiss hkept
  replace hsent : getParcelRespond loaded = response := hsend.symm.trans hsent
  rw [getParcelRespond] at hsent
  cases hbody : ParcelRead.ofLoaded loaded with
  | none =>
    rw [hbody] at hsent
    rw [← hsent] at hok
    cases hok
  | some body =>
    rw [hbody] at hsent
    refine ⟨loaded, body, hsent.symm, hbody, rfl, ?_⟩
    exact (row_of_getOwned (getOwned_run.trans (congrArg (·, s.db) hloaded))).1

/-- What a request sends that hits the cache. -/
theorem Hits.sent (h : Hits env r s json) :
    (env.get r s).1 = match r.endpoint with
      | .list => .ofModel .page (PaginatedResponse.ofJson json)
      | .detail => .ofModel .parcel (ParcelRead.ofJson json) := by
  obtain ⟨⟨ownerId, howner⟩, hparams, hhit⟩ := h
  cases hendpoint : r.endpoint with
  | list =>
    rw [show r.endpoint.keyPrefix = "parcels" from congrArg Endpoint.keyPrefix hendpoint] at hhit
    obtain ⟨params, hsome⟩ := Option.isSome_iff_exists.mp (hparams hendpoint)
    rw [ApiEnv.get_list hendpoint howner hsome, ApiEnv.redisCache, hhit]
  | detail =>
    rw [show r.endpoint.keyPrefix = "parcel" from congrArg Endpoint.keyPrefix hendpoint] at hhit
    rw [ApiEnv.get_detail hendpoint howner, ApiEnv.redisCache, hhit]

end Requests

/-- **A response from the cache is the one that filled it**, for every page, and for a parcel
exactly when no number of its row ends in a zero. -/
theorem cached_response_eq_iff (env : ApiEnv) (r r' : GetRequest) (s s' : ApiState)
    (response : Response) (json : Json) (hfills : Fills env r s response json)
    (hhits : Hits env r' s' json) (hsame : r'.endpoint = r.endpoint) :
    (env.get r' s').1 = response ↔
      (r.endpoint = .detail → ∀ row,
        s.db.parcels.select (fun p => sqlEq env.collate p.id (env.parcelIdOf r.path)) = some row →
          row.NoTrailingZeros) := by
  rw [hhits.sent, hsame]
  cases hendpoint : r.endpoint with
  | list =>
    obtain ⟨page, rfl, rfl⟩ := hfills.list hendpoint
    dsimp only
    rw [PaginatedResponse.ofJson_toJson]
    exact ⟨fun _ => nofun, fun _ => rfl⟩
  | detail =>
    obtain ⟨loaded, body, rfl, hbody, rfl, hrow⟩ := hfills.detail hendpoint
    dsimp only
    rw [ofJson_of_loaded hbody]
    change Response.parcel body.throughCache = .parcel body ↔ _
    rw [Response.parcel.injEq, throughCache_body_iff hbody]
    refine ⟨?_, ?_⟩
    · intro hzeros _ row hrow'
      obtain rfl := Option.some.inj (hrow.symm.trans hrow')
      exact hzeros
    · intro h
      exact h rfl loaded.row hrow

/-! ## A weight that ends in zeros -/

/-- The caller's parcel, with a weight. -/
def sampleWeighed (weightKg : Weight) : Parcel :=
  { sampleParcel "p1" with
    weightKg
    declaredValueUsd := ⟨⟨1055, by decide⟩, by decide⟩
    sessionId := "3f0f2a52-6f0e-4c7b-9d3c-0a4c8f2b7e11" }

/-- The state with this parcel and an empty cache. -/
def sampleWeighedState (weightKg : Weight) : ApiState where
  db := ⟨Table.singleton ⟨"type-1", "books"⟩, Table.singleton (sampleWeighed weightKg), []⟩
  cache := []
  now := 0

/-- The body that is sent for it, with a text of the weight. -/
def sampleWeighedBody (weightKg : Decimal) : ParcelRead where
  id := "p1"
  name := "book"
  weightKg := weightKg
  declaredValueUsd := ⟨1055, -2⟩
  deliveryCostRub := none
  parcelType := ⟨"type-1", "books"⟩

/-- The request fills the cache. -/
theorem fills_sample (weightKg : Weight) :
    Fills sampleCacheEnv sampleDetailRequest (sampleWeighedState weightKg)
      (.parcel (sampleWeighedBody weightKg.1.toDecimal))
      (LoadedParcel.toJson ⟨sampleWeighed weightKg, some ⟨"type-1", "books"⟩⟩) :=
  ⟨rfl, by rfl, rfl, by rfl⟩

/-- It finds itself in the cache. -/
theorem hits_sample (weightKg : Weight) :
    Hits sampleCacheEnv sampleDetailRequest
      (sampleCacheEnv.get sampleDetailRequest (sampleWeighedState weightKg)).2
      (LoadedParcel.toJson ⟨sampleWeighed weightKg, some ⟨"type-1", "books"⟩⟩) :=
  ⟨⟨"3f0f2a52-6f0e-4c7b-9d3c-0a4c8f2b7e11", by rfl⟩, nofun, by rfl⟩

theorem cached_response_eq_iff_sample :
    (sampleCacheEnv.get sampleDetailRequest (sampleCacheEnv.get sampleDetailRequest
      (sampleWeighedState ⟨⟨1234, by decide⟩, by decide⟩)).2).1 =
        .parcel (sampleWeighedBody ⟨1234, -3⟩) :=
  (cached_response_eq_iff sampleCacheEnv sampleDetailRequest sampleDetailRequest _ _ _ _
    (fills_sample _) (hits_sample _) rfl).mpr (by
      intro _ row hrow
      obtain rfl : sampleWeighed ⟨⟨1234, by decide⟩, by decide⟩ = row := Option.some.inj hrow
      exact ⟨by decide, by decide, nofun⟩)

/-- A weight of `1.200` is sent as `1.2` from the cache. -/
theorem trailing_zeros_lost :
    ∃ (weightKg : Weight) (json : Json),
      Fills sampleCacheEnv sampleDetailRequest (sampleWeighedState weightKg)
        (.parcel (sampleWeighedBody ⟨1200, -3⟩)) json ∧
      Hits sampleCacheEnv sampleDetailRequest
        (sampleCacheEnv.get sampleDetailRequest (sampleWeighedState weightKg)).2 json ∧
      (sampleCacheEnv.get sampleDetailRequest (sampleCacheEnv.get sampleDetailRequest
        (sampleWeighedState weightKg)).2).1 = .parcel (sampleWeighedBody ⟨12, -1⟩) ∧
      Response.parcel (sampleWeighedBody ⟨12, -1⟩) ≠ .parcel (sampleWeighedBody ⟨1200, -3⟩) := by
  refine ⟨⟨⟨1200, by decide⟩, by decide⟩, _, fills_sample _, hits_sample _, ?_, by decide⟩
  rw [(hits_sample _).sent]
  rfl

end ParcelDelivery
