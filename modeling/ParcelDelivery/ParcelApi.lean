import ParcelDelivery.ParcelRuns
import ParcelDelivery.ParcelSchemas
import ParcelDelivery.CallerIdentity
import ParcelDelivery.JsonText
import ParcelDelivery.ExpiringStore
import ParcelDelivery.Url

/-!
# The parcel routes

`app/api/parcel.py` behind `redis_cache` and the dependencies that find the owner id. A
request is handled in one piece. What the framework and the libraries make of a
request is a field of `ApiEnv`: the path parameter and the query parameters are
functions of the decoded path and the query string, the bearer token is a function of
the `Authorization` header. The cache key has another path and another query: those of
`request.url`, which is put together from the request and taken apart again
(`Url`). Requests that the rate limiter turns away are left out, and so are those whose
`Host` header no URL can be made of.
-/

namespace ParcelDelivery

open Relational DecimalArith Process TransitionSystem ParcelService

/-! ## Responses -/

/-- A response of the parcel routes. -/
inductive Response : Type where
  /-- 200 with a page -/
  | page (body : PaginatedResponse)
  /-- 200 with a parcel -/
  | parcel (body : ParcelRead)
  /-- 201 -/
  | created (id ownerId : String)
  /-- `_error_response` -/
  | errorResponse (code message : String) (status : ℕ)
  /-- an `HTTPException` -/
  | httpException (status : ℕ) (detail : String)
  deriving DecidableEq, Repr

/-- `internal_error_handler`. -/
def Response.internalError : Response :=
  .errorResponse "internal_error" "Unexpected server error" 500

/-- The handlers of `register_exception_handlers`. -/
def Response.ofExn : Exn → Response
  | .businessError message => .errorResponse "business_error" message 400
  | .notFoundError message => .errorResponse "not_found" message 404
  | .unauthorizedError message => .errorResponse "unauthorized" message 401
  | .forbiddenError message => .errorResponse "forbidden" message 403
  | _ => .internalError

/-- `response_model`: what cannot be validated is an internal error. -/
def Response.ofModel {α : Type} (respond : α → Response) : Option α → Response
  | some body => respond body
  | none => .internalError

/-! ## Handlers -/

/-- `list_parcels` under its decorators: the service call and the page, which is validated
in the handler. -/
def listParcels (authRequired : Bool) (pagination : PaginationParams)
    (filters : ParcelFilterParams) (ownerId : String) : ParcelProg PaginatedResponse := do
  let (total, rows) ← listOwned authRequired ownerId filters pagination.limit pagination.offset
  match PaginatedResponse.ofRows total rows pagination with
  | some page => return page
  | none => .throw .valueError

/-- The exceptions of `get_parcel`. -/
def getParcelRaise : Exn → Response
  | .unauthorizedError _ => .httpException 403 "Forbidden"
  | .notFoundError _ => .httpException 404 "Not found"
  | e => .ofExn e

/-- `get_parcel`: the loaded row, which is validated when it is sent. -/
def getParcelRespond (parcel : LoadedParcel) : Response :=
  .ofModel .parcel (ParcelRead.ofLoaded parcel)

/-- The outcome of a handler, as it is sent. -/
def respond {α : Type} (send : α → Response) (raise : Exn → Response) : Except Exn α → Response
  | .ok result => send result
  | .error e => raise e

/-! ## The environment -/

/-- The settings that the routes read, and the functions of the framework and of libraries. -/
structure ApiEnv : Type where
  /-- `AUTH_REQUIRED` -/
  authRequired : Bool
  /-- `CACHE_TTL_DEFAULT` -/
  cacheTtl : ℕ
  /-- `hashlib.sha256(_.encode()).hexdigest()` -/
  sha256 : String → String
  /-- `oauth2_scheme` on an `Authorization` header -/
  bearerToken : String → Option String
  /-- `jwt.decode`, the instants apart -/
  jwtPayload : String → Option TokenPayload
  /-- the query parameters of a list, validated, by the query string -/
  listParams : String → Option (PaginationParams × ParcelFilterParams)
  /-- the path parameter, by the decoded path -/
  parcelIdOf : String → String
  /-- the collation of the database -/
  collate : String → String

/-- What a request says about its caller, and the `uuid4` that the middleware would
draw for it. -/
structure Caller : Type where
  authorization : HeaderValue
  session : HeaderValue
  uuid4 : String
  deriving DecidableEq, Repr

/-- `list_parcels` or `get_parcel`. -/
inductive Endpoint : Type where
  | list
  | detail
  deriving DecidableEq, Repr

/-- A `GET` request. -/
structure GetRequest : Type where
  endpoint : Endpoint
  caller : Caller
  /-- the `Host` header -/
  host : String
  /-- the path, percent-decoded -/
  path : String
  /-- the query string, as it was sent -/
  query : String
  deriving DecidableEq, Repr

/-- `request.url`, in parts. -/
def GetRequest.url (r : GetRequest) : Url.Parts := Url.split (Url.join ⟨r.host, r.path, r.query⟩)

/-- A `POST /parcels` request; no body is one that fails its validation. -/
structure PostRequest : Type where
  caller : Caller
  body : Option ParcelCreate
  newId : String
  deriving DecidableEq, Repr

/-- The database, Redis and the clock. -/
structure ApiState : Type where
  db : ParcelDb
  cache : ExpiringStore.Store String Json
  now : ℕ

namespace ApiEnv

variable (env : ApiEnv)

/-- `get_owner_id`; in legacy mode behind `assign_session_id`. -/
def ownerId (now : ℕ) (caller : Caller) (requiredScopes : List String) : Except Exn String :=
  if env.authRequired then
    match (caller.authorization.bind env.bearerToken).filter fun token => token != "" with
    | none => .error (.unauthorizedError "Missing authorization token")
    | some token =>
      match decodeToken env.jwtPayload now token requiredScopes with
      | none => .error (.unauthorizedError "Invalid or expired token")
      | some claims => .ok claims.sub
  else .ok (assignSessionId caller.session caller.uuid4)

/-- `get_parcel_reader_owner_id`. -/
def readerId (now : ℕ) (caller : Caller) : Except Exn String :=
  env.ownerId now caller ["parcels:read"]

/-- `get_parcel_writer_owner_id`. -/
def writerId (now : ℕ) (caller : Caller) : Except Exn String :=
  env.ownerId now caller ["parcels:write"]

/-- The header that identifies the caller of a cached request. -/
def identityHeader (caller : Caller) : String :=
  (if env.authRequired then caller.authorization else caller.session).getD "anon"

/-- The identity in the key: a short hash of the bearer token, or the session id. -/
def identity (caller : Caller) : String :=
  if env.authRequired then String.ofList ((env.sha256 (env.identityHeader caller)).toList.take 16)
  else env.identityHeader caller

/-- `raw_key`. -/
def rawKey (r : GetRequest) : String :=
  JsonText.dumpObject
    [("identity", env.identity r.caller), ("path", r.url.path), ("query", r.url.query)]

/-- `make_cache_key`. -/
def makeCacheKey (keyPrefix : String) (r : GetRequest) : String :=
  keyPrefix ++ ":" ++ env.sha256 (env.rawKey r)

/-- `redis_cache`: a cached value is sent through the response model; what the handler
returns is cached as `jsonable_encoder` writes it. -/
def redisCache {α : Type} (keyPrefix : String) (r : GetRequest) (s : ApiState) (fn : ParcelProg α)
    (toJson : α → Json) (sendCached : Json → Response) (send : α → Response)
    (raise : Exn → Response) : Response × ApiState :=
  match ExpiringStore.get s.cache s.now (env.makeCacheKey keyPrefix r) with
  | some cached => (sendCached cached, s)
  | none =>
    match fn.run (parcelHandler env.collate) s.db with
    | (.ok result, db) =>
      (send result, { s with
        db
        cache := ExpiringStore.set s.cache s.now env.cacheTtl (env.makeCacheKey keyPrefix r)
          (toJson result) })
    | (.error e, db) => (raise e, { s with db })

/-- A `GET` request: the response, and the state afterwards. -/
def get (r : GetRequest) (s : ApiState) : Response × ApiState :=
  match env.readerId s.now r.caller with
  | .error e => (.ofExn e, s)
  | .ok ownerId =>
    match r.endpoint with
    | .list =>
      match env.listParams r.query with
      | none => (.errorResponse "validation_error" "Payload validation failed" 422, s)
      | some (pagination, filters) =>
        env.redisCache "parcels" r s (listParcels env.authRequired pagination filters ownerId)
          PaginatedResponse.toJson (fun json => .ofModel .page (PaginatedResponse.ofJson json))
          .page .ofExn
    | .detail =>
      env.redisCache "parcel" r s (getOwned env.authRequired (env.parcelIdOf r.path) ownerId)
        LoadedParcel.toJson (fun json => .ofModel .parcel (ParcelRead.ofJson json))
        getParcelRespond getParcelRaise

section Get

variable {env : ApiEnv} {r : GetRequest} {s : ApiState} {ownerId : String}

theorem get_refused {e : Exn} (howner : env.readerId s.now r.caller = .error e) :
    env.get r s = (.ofExn e, s) := by
  simp only [get, howner]

theorem get_list_invalid (hlist : r.endpoint = .list)
    (howner : env.readerId s.now r.caller = .ok ownerId) (hparams : env.listParams r.query = none) :
    env.get r s = (.errorResponse "validation_error" "Payload validation failed" 422, s) := by
  simp only [get, howner, hlist, hparams]

theorem get_list {pagination : PaginationParams} {filters : ParcelFilterParams}
    (hlist : r.endpoint = .list) (howner : env.readerId s.now r.caller = .ok ownerId)
    (hparams : env.listParams r.query = some (pagination, filters)) :
    env.get r s =
      env.redisCache "parcels" r s (listParcels env.authRequired pagination filters ownerId)
        PaginatedResponse.toJson (fun json => .ofModel .page (PaginatedResponse.ofJson json))
        .page .ofExn := by
  simp only [get, howner, hlist, hparams]

theorem get_detail (hdetail : r.endpoint = .detail)
    (howner : env.readerId s.now r.caller = .ok ownerId) :
    env.get r s =
      env.redisCache "parcel" r s (getOwned env.authRequired (env.parcelIdOf r.path) ownerId)
        LoadedParcel.toJson (fun json => .ofModel .parcel (ParcelRead.ofJson json))
        getParcelRespond getParcelRaise := by
  simp only [get, howner, hdetail]

end Get

/-- A `POST /parcels` request, `register_parcel`. -/
def post (r : PostRequest) (s : ApiState) : Response × ApiState :=
  match env.writerId s.now r.caller with
  | .error e => (.ofExn e, s)
  | .ok ownerId =>
    match r.body with
    | none => (.errorResponse "validation_error" "Payload validation failed" 422, s)
    | some data =>
      match (createFromDto env.authRequired data ownerId r.newId).run
          (parcelHandler env.collate) s.db with
      | (.ok parcel, db) => (.created parcel.id ownerId, { s with db })
      | (.error e, db) => (.ofExn e, { s with db })

end ApiEnv

/-- What happens next. -/
inductive ApiMove : Type where
  | get (r : GetRequest)
  | post (r : PostRequest)
  /-- the pricing job commits a batch -/
  | price (costs : List (String × Money))
  /-- a user registers -/
  | addUser (id : String)
  /-- a cache entry goes before its time -/
  | evict (key : String)
  /-- seconds go by -/
  | pass (seconds : ℕ)

/-- The routes over time. -/
def apiSystem (env : ApiEnv) : System ApiState ApiMove where
  step s
    | .get r => some (env.get r s).2
    | .post r => some (env.post r s).2
    | .price costs => some { s with db := s.db.price costs }
    | .addUser id => some { s with db := { s.db with userIds := id :: s.db.userIds } }
    | .evict key => some { s with cache := ExpiringStore.remove s.cache key }
    | .pass seconds => some { s with now := s.now + seconds }

end ParcelDelivery
