import ParcelDelivery.CacheIsolation
import ParcelDelivery.ParcelPages

/-!
# The parcel-type route

`app/api/parcel_type.py` behind `redis_cache` with `make_cache_key_no_session`: one entry for all
callers. The keys of the route start with a prefix of their own, so that it shares the
store with the parcel routes and neither reads an entry of the other (`get_parcelView`).
-/

namespace ParcelDelivery

open Relational Process

/-! ## The page and its JSON -/

/-- `jsonable_encoder` on a `PaginatedResponse[ParcelTypeRead]`. -/
def ParcelTypePage.toJson (page : ParcelTypePage) : Json :=
  .obj [("items", .arr (page.items.map ParcelTypeRead.toJson)), ("total", .int page.total),
    ("limit", .int page.limit), ("offset", .int page.offset)]

/-- A `PaginatedResponse[ParcelTypeRead]` from JSON. -/
def ParcelTypePage.ofJson (json : Json) : Option ParcelTypePage := do
  let items ← (← (← json.field "items" "items").toList).mapM ParcelTypeRead.ofJson
  let total ← (← json.field "total" "total").toNat
  let limit ← (← json.field "limit" "limit").toNat
  let offset ← (← json.field "offset" "offset").toNat
  return { items, total, limit, offset }

theorem mapM_typeOfJson_toJson (items : List ParcelTypeRead) :
    (items.map ParcelTypeRead.toJson).mapM ParcelTypeRead.ofJson = some items := by
  induction items with
  | nil => rfl
  | cons t items ih =>
    rw [List.map_cons, List.mapM_cons, ih]
    rfl

/-- **A page of types survives the cache.** -/
theorem ParcelTypePage.ofJson_toJson (page : ParcelTypePage) :
    ParcelTypePage.ofJson page.toJson = some page := by
  have hnat : ∀ n : ℕ, (Json.int n).toNat = some n := fun n => by
    rw [Json.toNat, if_pos (Int.natCast_nonneg n), Int.toNat_natCast]
  change ((page.items.map ParcelTypeRead.toJson).mapM ParcelTypeRead.ofJson).bind (fun items =>
    (Json.int page.total).toNat.bind fun total => (Json.int page.limit).toNat.bind fun limit =>
      (Json.int page.offset).toNat.bind fun offset =>
        some { items, total, limit, offset : ParcelTypePage }) = some page
  simp only [mapM_typeOfJson_toJson, hnat]
  rfl

/-! ## The route -/

/-- A `GET /parcel-types` request; nothing of the caller is read. -/
structure TypesRequest : Type where
  host : String
  path : String
  query : String
  deriving DecidableEq, Repr

/-- `request.url`, in parts. -/
def TypesRequest.url (r : TypesRequest) : Url.Parts :=
  Url.split (Url.join ⟨r.host, r.path, r.query⟩)

/-- A response of the route. -/
inductive TypesResponse : Type where
  /-- 200 with a page -/
  | page (body : ParcelTypePage)
  /-- `_error_response` -/
  | error (response : Response)
  deriving DecidableEq, Repr

namespace ApiEnv

variable (env : ApiEnv)

/-- `raw_key` of `make_cache_key_no_session`. -/
def rawKeyNoSession (r : TypesRequest) : String :=
  JsonText.dumpObject [("path", r.url.path), ("query", r.url.query)]

/-- `make_cache_key_no_session`. -/
def makeCacheKeyNoSession (keyPrefix : String) (r : TypesRequest) : String :=
  keyPrefix ++ ":" ++ env.sha256 (rawKeyNoSession r)

/-- The key of the route. -/
def typesKey (r : TypesRequest) : String := env.makeCacheKeyNoSession "parcel_types" r

/-- `list_parcel_types` under `redis_cache`. -/
def getTypes (pagination : PaginationParams) (r : TypesRequest) (s : ApiState) :
    TypesResponse × ApiState :=
  match ExpiringStore.get s.cache s.now (env.typesKey r) with
  | some cached =>
    (match ParcelTypePage.ofJson cached with
      | some page => .page page
      | none => .error .internalError, s)
  | none =>
    match (listParcelTypes pagination).run (parcelTypeHandler env.collate) s.db with
    | (.ok page, _) =>
      (.page page, { s with
        cache := ExpiringStore.set s.cache s.now env.cacheTtl (env.typesKey r) page.toJson })
    | (.error e, _) => (.error (.ofExn e), s)

/-- The page of a fresh read. -/
def freshTypes (pagination : PaginationParams) (db : ParcelDb) : ParcelTypePage where
  items := Paging.window pagination.limit pagination.offset (typeView env.collate db)
  total := db.types.rows.length
  limit := pagination.limit
  offset := pagination.offset

end ApiEnv

section Route

variable {env : ApiEnv} {pagination : PaginationParams} {r r' : TypesRequest} {s : ApiState}

theorem listParcelTypes_run (db : ParcelDb) :
    (listParcelTypes pagination).run (parcelTypeHandler env.collate) db =
      (.ok (env.freshTypes pagination db), db) := by
  have hitems : (slice pagination.offset (pagination.offset + pagination.limit)
      (db.typesByName env.collate)).map (fun t => (⟨t.id, t.name⟩ : ParcelTypeRead)) =
        Paging.window pagination.limit pagination.offset (typeView env.collate db) := by
    simp only [slice_eq_window, Paging.window, typeView, List.map_take, List.map_drop]
  rw [ApiEnv.freshTypes, ← hitems]
  rfl

/-- How a request for types ends: from the cache, or with a fresh page that the cache keeps. -/
inductive TypesStep (env : ApiEnv) (pagination : PaginationParams) (r : TypesRequest)
    (s : ApiState) : TypesResponse → ApiState → Prop where
  | hit {cached : Json} {response : TypesResponse}
      (hget : ExpiringStore.get s.cache s.now (env.typesKey r) = some cached)
      (hresponse : ∀ page, cached = ParcelTypePage.toJson page → response = .page page) :
      TypesStep env pagination r s response s
  | computed (hget : ExpiringStore.get s.cache s.now (env.typesKey r) = none) :
      TypesStep env pagination r s (.page (env.freshTypes pagination s.db)) { s with
        cache := ExpiringStore.set s.cache s.now env.cacheTtl (env.typesKey r)
          (env.freshTypes pagination s.db).toJson }

/-- **Inversion of a request for types.** -/
theorem typesStep_of_getTypes :
    TypesStep env pagination r s (env.getTypes pagination r s).1
      (env.getTypes pagination r s).2 := by
  rw [ApiEnv.getTypes]
  cases hget : ExpiringStore.get s.cache s.now (env.typesKey r) with
  | some cached =>
    refine .hit hget ?_
    rintro page rfl
    dsimp only
    rw [ParcelTypePage.ofJson_toJson]
  | none =>
    rw [listParcelTypes_run]
    exact .computed hget

/-! ## Keys -/

/-- The texts that are hashed for types along a list of requests. -/
def hashedTypes (requests : List TypesRequest) : Set String :=
  fun x => ∃ r ∈ requests, x = ApiEnv.rawKeyNoSession r

/-- **A key of the route says which URL was asked for**: its path and its query. -/
theorem typesKey_inj {requests : List TypesRequest}
    (hhash : Set.InjOn env.sha256 (hashedTypes requests)) (hr : r ∈ requests) (hr' : r' ∈ requests)
    (heq : env.typesKey r = env.typesKey r') :
    r.url.path = r'.url.path ∧ r.url.query = r'.url.query := by
  have hchars := congrArg String.toList heq
  simp only [ApiEnv.typesKey, ApiEnv.makeCacheKeyNoSession, String.toList_append] at hchars
  have hhashes := String.toList_inj.mp (List.append_cancel_left hchars)
  have hraw := JsonText.dumpObject_injective (hhash ⟨r, hr, rfl⟩ ⟨r', hr', rfl⟩ hhashes)
  obtain ⟨hpath, hrest⟩ := List.cons.inj hraw
  obtain ⟨hquery, -⟩ := List.cons.inj hrest
  exact ⟨(Prod.mk.inj hpath).2, (Prod.mk.inj hquery).2⟩

/-! ## Two routes in one store -/

/-- The keys of the route. -/
def isTypesKey (key : String) : Bool := "parcel_types:".toList.isPrefixOf key.toList

theorem isTypesKey_typesKey (r : TypesRequest) : isTypesKey (env.typesKey r) = true := by
  rw [isTypesKey, List.isPrefixOf_iff_prefix]
  refine ⟨(env.sha256 (ApiEnv.rawKeyNoSession r)).toList, ?_⟩
  simp [ApiEnv.typesKey, ApiEnv.makeCacheKeyNoSession]

/-- **The routes share no key**, whatever the hashes are: their prefixes differ. -/
theorem isTypesKey_cacheKey (r : GetRequest) :
    isTypesKey (env.makeCacheKey r.endpoint.keyPrefix r) = false := by
  have htypes : ("parcel_types:" : String).toList =
      ['p', 'a', 'r', 'c', 'e', 'l', '_', 't', 'y', 'p', 'e', 's', ':'] := by decide
  have hlist : (Endpoint.keyPrefix .list).toList = ['p', 'a', 'r', 'c', 'e', 'l', 's'] := by decide
  have hdetail : (Endpoint.keyPrefix .detail).toList = ['p', 'a', 'r', 'c', 'e', 'l'] := by decide
  have hcolon : ":".toList = [':'] := by decide
  rw [isTypesKey, ApiEnv.makeCacheKey, String.toList_append, String.toList_append, htypes, hcolon]
  cases r.endpoint with
  | list =>
    rw [hlist]
    rfl
  | detail =>
    rw [hdetail]
    rfl

/-- The entries of the parcel routes. -/
def parcelEntries (cache : ExpiringStore.Store String Json) : ExpiringStore.Store String Json :=
  ExpiringStore.keep (fun key => !isTypesKey key) cache

theorem parcelEntries_remove (cache : ExpiringStore.Store String Json) (key : String) :
    parcelEntries (ExpiringStore.remove cache key) =
      ExpiringStore.remove (parcelEntries cache) key := ExpiringStore.keep_remove

/-- The state without the entries of the route for types. -/
def ApiState.parcelView (s : ApiState) : ApiState := { s with cache := parcelEntries s.cache }

/-- A parcel route behind the cache sees only its own entries. -/
theorem redisCache_parcelView {α : Type} {keyPrefix : String} {r : GetRequest} {fn : ParcelProg α}
    {toJson : α → Json} {sendCached : Json → Response} {send : α → Response}
    {raise : Exn → Response} (hkey : isTypesKey (env.makeCacheKey keyPrefix r) = false) :
    env.redisCache keyPrefix r s.parcelView fn toJson sendCached send raise =
      ((env.redisCache keyPrefix r s fn toJson sendCached send raise).1,
        (env.redisCache keyPrefix r s fn toJson sendCached send raise).2.parcelView) := by
  have hkept : (!isTypesKey (env.makeCacheKey keyPrefix r)) = true := by rw [hkey, Bool.not_false]
  have hget : ExpiringStore.get s.parcelView.cache s.parcelView.now (env.makeCacheKey keyPrefix r) =
      ExpiringStore.get s.cache s.now (env.makeCacheKey keyPrefix r) :=
    ExpiringStore.get_keep (p := fun key => !isTypesKey key) hkept
  rw [ApiEnv.redisCache, ApiEnv.redisCache, hget]
  cases ExpiringStore.get s.cache s.now (env.makeCacheKey keyPrefix r) with
  | some cached => rfl
  | none =>
    dsimp only
    rw [show s.parcelView.db = s.db from rfl]
    rcases fn.run (parcelHandler env.collate) s.db with ⟨e | result, db⟩
    · rfl
    · simp only [ApiState.parcelView, parcelEntries,
        ExpiringStore.keep_set_of_pos (p := fun key => !isTypesKey key) hkept]

/-- **A parcel request does not notice the entries of the route for types.** -/
theorem get_parcelView (r : GetRequest) :
    env.get r s.parcelView = ((env.get r s).1, (env.get r s).2.parcelView) := by
  have hkey : isTypesKey (env.makeCacheKey r.endpoint.keyPrefix r) = false := isTypesKey_cacheKey r
  have hnow : s.parcelView.now = s.now := rfl
  cases howner : env.readerId s.now r.caller with
  | error e => rw [ApiEnv.get_refused howner, ApiEnv.get_refused (hnow ▸ howner)]
  | ok ownerId =>
    cases hendpoint : r.endpoint with
    | list =>
      rw [hendpoint] at hkey
      cases hparams : env.listParams r.query with
      | none =>
        rw [ApiEnv.get_list_invalid hendpoint howner hparams,
          ApiEnv.get_list_invalid hendpoint (hnow ▸ howner) hparams]
      | some params =>
        rw [ApiEnv.get_list hendpoint howner hparams,
          ApiEnv.get_list hendpoint (hnow ▸ howner) hparams]
        exact redisCache_parcelView hkey
    | detail =>
      rw [hendpoint] at hkey
      rw [ApiEnv.get_detail hendpoint howner, ApiEnv.get_detail hendpoint (hnow ▸ howner)]
      exact redisCache_parcelView hkey

theorem post_parcelView (r : PostRequest) :
    env.post r s.parcelView = ((env.post r s).1, (env.post r s).2.parcelView) := by
  rw [ApiEnv.post, ApiEnv.post, show s.parcelView.now = s.now from rfl,
    show s.parcelView.db = s.db from rfl]
  cases env.writerId s.now r.caller with
  | error e => rfl
  | ok ownerId =>
    cases r.body with
    | none => rfl
    | some data =>
      dsimp only
      rcases (ParcelService.createFromDto env.authRequired data ownerId r.newId).run
        (parcelHandler env.collate) s.db with ⟨e | parcel, db⟩
      · rfl
      · rfl

/-- A request for types leaves the entries of the parcel routes alone. -/
theorem getTypes_parcelView (pagination : PaginationParams) (r : TypesRequest) :
    (env.getTypes pagination r s).2.parcelView = s.parcelView := by
  have hstep : TypesStep env pagination r s (env.getTypes pagination r s).1
    (env.getTypes pagination r s).2 := typesStep_of_getTypes
  generalize (env.getTypes pagination r s).1 = response,
    (env.getTypes pagination r s).2 = s' at hstep ⊢
  cases hstep with
  | hit _ _ => rfl
  | computed _ =>
    have hkey : (!isTypesKey (env.typesKey r)) = false := by
      rw [isTypesKey_typesKey, Bool.not_true]
    simp only [ApiState.parcelView, parcelEntries,
      ExpiringStore.keep_set_of_neg (p := fun key => !isTypesKey key) hkey]

end Route

end ParcelDelivery
