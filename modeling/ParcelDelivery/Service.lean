import ParcelDelivery.RateLimit
import ParcelDelivery.ParcelTypeApi
import ParcelDelivery.RequestGuards
import ParcelDelivery.Credentials

/-!
# The service

All routes of `app/main.py` that are rate limited, over one database, one Redis and one clock,
next to the runs of the pricing job. A request is handled in one piece; the job moves
between two requests. The parcel table is the one of the job, and the user keys that
`ParcelService` refers to are those of the credential store.
-/

namespace ParcelDelivery

open Relational Process TransitionSystem

/-! ## Settings -/

/-- The limits of `Settings`. -/
structure RateLimitSettings : Type where
  /-- `RATE_LIMIT_CREATE` -/
  create : String
  /-- `RATE_LIMIT_LIST` -/
  list : String
  /-- `RATE_LIMIT_DETAIL` -/
  detail : String
  /-- `RATE_LIMIT_PARCEL_TYPES` -/
  parcelTypes : String
  /-- `RATE_LIMIT_RECALC` -/
  recalc : String
  deriving DecidableEq, Repr

/-- The defaults of `Settings`. -/
def RateLimitSettings.default : RateLimitSettings where
  create := "20/minute"
  list := "60/minute"
  detail := "60/minute"
  parcelTypes := "100/minute"
  recalc := "5/minute"

/-- The settings of the service, and the functions of the framework and of libraries. -/
structure ServiceEnv : Type where
  api : ApiEnv
  guards : GuardSettings
  delivery : DeliverySettings
  limits : RateLimitSettings
  /-- `limits.parse` -/
  parse : String → RateLimitItem
  /-- `PaginationParams` of a query string, validated -/
  pageParams : String → Option PaginationParams

/-! ## State -/

/-- The tables, the Redis keys of the application and the runs of the job. -/
structure AppState : Type where
  types : Table ParcelType
  auth : AuthDb
  job : JobState
  cache : ExpiringStore.Store String Json

/-- The database of `ParcelService`; the user that has registered last comes first. -/
def AppState.parcelDb (a : AppState) : ParcelDb where
  types := a.types
  parcels := a.job.parcels
  userIds := (a.auth.users.rows.map User.id).reverse

/-- What the parcel routes see. -/
def AppState.api (a : AppState) (now : ℕ) : ApiState where
  db := a.parcelDb
  cache := a.cache
  now := now

/-- What the parcel routes leave. -/
def AppState.setApi (a : AppState) (s : ApiState) : AppState :=
  { a with job := { a.job with parcels := s.db.parcels }, cache := s.cache }

/-! ## Requests and responses -/

/-- A request. The payload is none where its validation fails. -/
inductive ServiceRequest : Type where
  /-- `POST /auth/register` -/
  | register (body : Option UserRegister) (draw : Draw)
  /-- `POST /auth/login` -/
  | login (body : Option UserLogin) (draw : Draw)
  /-- `POST /auth/refresh`, `POST /auth/logout` or `POST /tasks/recalc-delivery` -/
  | guarded (request : GuardedRequest)
  /-- `POST /auth/logout-all` -/
  | logoutAll (authorization : HeaderValue) (draw : Draw)
  /-- `GET /parcels` or `GET /parcels/{parcel_id}` -/
  | parcels (r : GetRequest)
  /-- `POST /parcels` -/
  | createParcel (r : PostRequest)
  /-- `GET /parcel-types` -/
  | parcelTypes (r : TypesRequest)

/-- A request and the host that it comes from. -/
structure ClientRequest : Type where
  client : Option String
  request : ServiceRequest

/-- A response. -/
inductive ServiceResponse : Type where
  /-- the parcel routes, and every error envelope -/
  | parcels (response : Response)
  | parcelTypes (response : TypesResponse)
  /-- the other routes, with their status -/
  | served (status : ℕ) (served : Served)
  /-- 429 -/
  | rateLimited (error : String)
  deriving DecidableEq, Repr

/-- The handlers of `register_exception_handlers`; a `TypeError` has none of its own. -/
def ServiceResponse.ofRequestExn : RequestExn → ServiceResponse
  | .service e => .parcels (.ofExn e)
  | .typeError => .parcels .internalError

/-- `validation_exception_handler`. -/
def ServiceResponse.validationError : ServiceResponse :=
  .parcels (.errorResponse "validation_error" "Payload validation failed" 422)

/-- What the session and task routes send. -/
def ServiceResponse.ofServed : Except RequestExn Served → ServiceResponse
  | .ok (.tokens result) => .served 200 (.tokens result)
  | .ok .loggedOut => .served 204 .loggedOut
  | .ok .recalcStarted => .served 202 .recalcStarted
  | .error e => .ofRequestExn e

/-- `get_current_user_id`. -/
def ApiEnv.currentUserId (env : ApiEnv) (now : ℕ) (authorization : HeaderValue) :
    Except Exn String :=
  match (authorization.bind env.bearerToken).filter fun token => token != "" with
  | none => .error (.unauthorizedError "Missing authorization token")
  | some token =>
    match decodeToken env.jwtPayload now token [] with
    | none => .error (.unauthorizedError "Invalid or expired token")
    | some claims => .ok claims.sub

namespace ServiceEnv

variable (env : ServiceEnv)

/-! ## Handlers -/

/-- A call of `AuthService`, and what it answers. -/
def authCall (status : ℕ) (op : AuthOp) (draw : Draw) (a : AppState) :
    ServiceResponse × AppState :=
  match (op.prog env.guards.env draw).run authHandler a.auth with
  | (.ok (some result), auth) => (.served status (.tokens result), { a with auth })
  | (.ok none, auth) => (.served status .loggedOut, { a with auth })
  | (.error e, auth) => (.parcels (.ofExn e), { a with auth })

/-- The decorated functions of the routes. -/
def handler (r : ClientRequest) (now : ℕ) (a : AppState) : ServiceResponse × AppState :=
  match r.request with
  | .register none _ | .login none _ => (.validationError, a)
  | .register (some body) draw => env.authCall 201 (.register body.email body.password) draw a
  | .login (some body) draw => env.authCall 200 (.login body.email body.password) draw a
  | .guarded request =>
    (.ofServed (request.serve env.guards ⟨a.auth, a.job⟩).1,
      { a with
        auth := (request.serve env.guards ⟨a.auth, a.job⟩).2.auth
        job := (request.serve env.guards ⟨a.auth, a.job⟩).2.job })
  | .logoutAll authorization draw =>
    match env.api.currentUserId now authorization with
    | .error e => (.parcels (.ofExn e), a)
    | .ok userId => env.authCall 204 (.logoutAll userId) draw a
  | .parcels r =>
    (.parcels (env.api.get r (a.api now)).1, a.setApi (env.api.get r (a.api now)).2)
  | .createParcel r =>
    (.parcels (env.api.post r (a.api now)).1, a.setApi (env.api.post r (a.api now)).2)
  | .parcelTypes r =>
    match env.pageParams r.query with
    | none => (.validationError, a)
    | some pagination =>
      (.parcelTypes (env.api.getTypes pagination r (a.api now)).1,
        a.setApi (env.api.getTypes pagination r (a.api now)).2)

/-- What is resolved before the decorated function is called: the payload, the query and the
dependencies. The guards of the session routes are inside the function. -/
def refuse (r : ClientRequest) (now : ℕ) (_ : AppState) : Option ServiceResponse :=
  match r.request with
  | .register body _ => if body.isNone then some .validationError else none
  | .login body _ => if body.isNone then some .validationError else none
  | .guarded (.manualRecalc xAdminToken) =>
    match requireTaskAdminToken env.guards.taskAdminToken xAdminToken with
    | .error e => some (.ofRequestExn e)
    | .ok () => none
  | .guarded _ => none
  | .logoutAll authorization _ =>
    match env.api.currentUserId now authorization with
    | .error e => some (.parcels (.ofExn e))
    | .ok _ => none
  | .parcels r =>
    match env.api.readerId now r.caller with
    | .error e => some (.parcels (.ofExn e))
    | .ok _ =>
      match r.endpoint with
      | .list => if (env.api.listParams r.query).isNone then some .validationError else none
      | .detail => none
  | .createParcel r =>
    match env.api.writerId now r.caller with
    | .error e => some (.parcels (.ofExn e))
    | .ok _ => if r.body.isNone then some .validationError else none
  | .parcelTypes r => if (env.pageParams r.query).isNone then some .validationError else none

/-! ## Limits -/

/-- The method and the path of a route. -/
def route : ServiceRequest → String × String
  | .register _ _ => ("POST", "/auth/register")
  | .login _ _ => ("POST", "/auth/login")
  | .guarded (.refresh _ _) => ("POST", "/auth/refresh")
  | .guarded (.logout _ _) => ("POST", "/auth/logout")
  | .guarded (.manualRecalc _) => ("POST", "/tasks/recalc-delivery")
  | .logoutAll _ _ => ("POST", "/auth/logout-all")
  | .parcels r => ("GET", match r.endpoint with
    | .list => "/parcels"
    | .detail => "/parcels/{parcel_id}")
  | .createParcel _ => ("POST", "/parcels")
  | .parcelTypes _ => ("GET", "/parcel-types")

/-- The limit of a route. -/
def limitOf : ServiceRequest → String
  | .register _ _ => "10/minute"
  | .login _ _ => "20/minute"
  | .guarded (.refresh _ _) => "20/minute"
  | .guarded (.logout _ _) => "20/minute"
  | .guarded (.manualRecalc _) => env.limits.recalc
  | .logoutAll _ _ => "10/minute"
  | .parcels r => match r.endpoint with
    | .list => env.limits.list
    | .detail => env.limits.detail
  | .createParcel _ => env.limits.create
  | .parcelTypes _ => env.limits.parcelTypes

/-- What happens beside the requests. -/
inductive Background : Type where
  /-- a run of the job moves, or a key of the job expires -/
  | job (l : JobMove)
  /-- a cache entry goes before its time -/
  | evict (key : String)

/-- The moves of the job that no request makes. -/
def runsAlone : JobMove → Bool
  | .manual => false
  | .create _ => false
  | _ => true

/-- The application behind the limiter. -/
def app : LimitedApp ClientRequest ServiceResponse Background AppState where
  call r :=
    { method := (route r.request).1
      route := some (route r.request).2
      urlPath := (route r.request).2
      client := r.client }
  item r := env.parse (env.limitOf r.request)
  refuse := env.refuse
  handler := env.handler
  exceeded detail := .rateLimited ("Rate limit exceeded: " ++ detail)
  other
    | .job l, _, a =>
      if runsAlone l then
        ((jobSystem env.delivery).step a.job l).map fun job => { a with job }
      else none
    | .evict key, _, a => some { a with cache := ExpiringStore.remove a.cache key }

end ServiceEnv

end ParcelDelivery
