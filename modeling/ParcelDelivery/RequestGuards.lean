import ParcelDelivery.AuthRuns
import ParcelDelivery.JobLock

/-!
# Request guards

`_require_csrf` of `app/api/auth.py` and `require_task_admin_token` of `app/api/deps.py`, with
the three endpoints that they protect. Both end in `compare_digest`, which compares `str`s only
where they are ASCII and raises `TypeError` otherwise.
-/

namespace ParcelDelivery

open Relational Process TransitionSystem

/-- What a request can raise: the exceptions of the services, or `TypeError` of a library call. -/
inductive RequestExn : Type where
  | service (e : Exn)
  | typeError
  deriving DecidableEq, Repr

/-- `raise ForbiddenError(message)`. -/
def RequestExn.forbidden (message : String) : RequestExn := .service (.forbiddenError message)

/-- `str.isascii`. -/
def isAscii (s : String) : Bool := s.toList.all fun c => c.toNat < 128

/-- `secrets.compare_digest` on two `str`s. -/
def compareDigest (a b : String) : Except RequestExn Bool :=
  if isAscii a && isAscii b then .ok (a == b) else .error .typeError

/-- The truth of a `str | None`: it is there, and it is not empty. -/
def given : Option String → Bool
  | some s => s != ""
  | none => false

/-- `not a or not b or not compare_digest(a, b)`. -/
def digestsDiffer (a b : Option String) : Except RequestExn Bool :=
  match a, b with
  | some a, some b =>
    if a = "" then .ok true
    else if b = "" then .ok true
    else (compareDigest a b).map fun equal => !equal
  | _, _ => .ok true

/-! ## The guards -/

/-- What the session endpoints read of a request. -/
structure SessionRequest : Type where
  /-- the cookie `CSRF_COOKIE_NAME` -/
  csrfCookie : Option String
  /-- the header `CSRF_HEADER_NAME` -/
  csrfHeader : Option String
  /-- the cookie `REFRESH_COOKIE_NAME` -/
  refreshCookie : Option String
  deriving DecidableEq, Repr

/-- `_refresh_token_from_request`. -/
def refreshTokenFromRequest (request : SessionRequest) : Except RequestExn String :=
  match request.refreshCookie with
  | some token =>
    if token = "" then .error (.service (.unauthorizedError "Missing refresh token"))
    else .ok token
  | none => .error (.service (.unauthorizedError "Missing refresh token"))

/-- `_require_csrf`. -/
def requireCsrf (request : SessionRequest) : Except RequestExn Unit :=
  match digestsDiffer request.csrfCookie request.csrfHeader with
  | .error e => .error e
  | .ok true => .error (.forbidden "Invalid CSRF token")
  | .ok false => .ok ()

/-- `require_task_admin_token`, under a setting `TASK_ADMIN_TOKEN`. -/
def requireTaskAdminToken (taskAdminToken : String) (xAdminToken : Option String) :
    Except RequestExn Unit :=
  if taskAdminToken = "" then .error (.forbidden "Manual task trigger is disabled")
  else
    -- the setting is not empty here, so the header decides whether there is a comparison
    match digestsDiffer xAdminToken (some taskAdminToken) with
    | .error e => .error e
    | .ok true => .error (.forbidden "Invalid admin token")
    | .ok false => .ok ()

/-! ## The endpoints -/

/-- The tables and the Redis keys that the guarded endpoints change. -/
structure ServerState : Type where
  auth : AuthDb
  job : JobState

/-- A request to a guarded endpoint. -/
inductive GuardedRequest : Type where
  /-- `POST /auth/refresh` -/
  | refresh (request : SessionRequest) (draw : Draw)
  /-- `POST /auth/logout` -/
  | logout (request : SessionRequest) (draw : Draw)
  /-- `POST /tasks/recalc-delivery` -/
  | manualRecalc (xAdminToken : Option String)

/-- A request that has passed its guard. -/
inductive Served : Type where
  /-- new tokens, in the body and in the cookies -/
  | tokens (result : AuthResult)
  /-- the auth cookies are cleared -/
  | loggedOut
  /-- a run of the job has been started -/
  | recalcStarted
  deriving DecidableEq, Repr

/-- What the endpoints are configured with. -/
structure GuardSettings : Type where
  env : AuthEnv
  /-- `TASK_ADMIN_TOKEN` -/
  taskAdminToken : String

namespace GuardedRequest

variable (cfg : GuardSettings)

/-- The guard of the endpoint. -/
def guard : GuardedRequest → Except RequestExn Unit
  | refresh request _ => requireCsrf request
  | logout request _ => requireCsrf request
  | manualRecalc xAdminToken => requireTaskAdminToken cfg.taskAdminToken xAdminToken

/-- A call of `AuthService` with the refresh token of the request. -/
def session {α : Type} (request : SessionRequest) (call : String → AuthProg α)
    (answer : α → Served) (s : ServerState) : Except RequestExn Served × ServerState :=
  match refreshTokenFromRequest request with
  | .error e => (.error e, s)
  | .ok token =>
    let (result, auth) := (call token).run authHandler s.auth
    ((result.mapError .service).map answer, { s with auth })

/-- The endpoint behind its guard. `manual_recalc` starts a run that deletes the lock first. -/
def body : GuardedRequest → ServerState → Except RequestExn Served × ServerState
  | refresh request draw, s => session request (AuthService.refresh cfg.env draw) .tokens s
  | logout request draw, s =>
    session request (AuthService.logout cfg.env draw) (fun _ => .loggedOut) s
  | manualRecalc _, s =>
    (.ok .recalcStarted, { s with job := { s.job with runs := s.job.runs ++ [.deleteLock] } })

/-- The endpoint: the guard first. The limiter of `app/core/rate_limit.py`, which may turn a
request away before that, is left out here; `ServiceEnv.app` stands behind it. -/
def serve (request : GuardedRequest) (s : ServerState) : Except RequestExn Served × ServerState :=
  match request.guard cfg with
  | .error e => (.error e, s)
  | .ok () => request.body cfg s

/-- The two values that the guard compares. -/
def secrets : GuardedRequest → Option String × Option String
  | refresh request _ => (request.csrfCookie, request.csrfHeader)
  | logout request _ => (request.csrfCookie, request.csrfHeader)
  | manualRecalc xAdminToken => (xAdminToken, some cfg.taskAdminToken)

/-- Both values are there, not empty and equal. -/
def Allowed (request : GuardedRequest) : Prop :=
  ∃ secret, secret ≠ "" ∧ request.secrets cfg = (some secret, some secret)

/-- One of the values is missing or empty, or both are ASCII. -/
def Comparable (request : GuardedRequest) : Prop :=
  given (request.secrets cfg).1 = true → given (request.secrets cfg).2 = true →
    ((request.secrets cfg).1.all isAscii = true ∧ (request.secrets cfg).2.all isAscii = true)

/-- The request is let through where it may be, and refused as forbidden, with nothing changed,
everywhere else. -/
structure FailsClosed (request : GuardedRequest) (s : ServerState) : Prop where
  passes : request.guard cfg = .ok () ↔ request.Allowed cfg
  refused : ¬ request.Allowed cfg →
    ∃ message, request.serve cfg s = (.error (.forbidden message), s)

end GuardedRequest

/-! ## What the guards decide -/

section Guards

variable {cfg : GuardSettings} {request : GuardedRequest} {s : ServerState}

/-- The comparison of two values by what they are. -/
theorem digestsDiffer_cases (a b : Option String) :
    ((given a = false ∨ given b = false) ∧ digestsDiffer a b = .ok true) ∨
      ∃ x y, a = some x ∧ b = some y ∧ x ≠ "" ∧ y ≠ "" ∧
        digestsDiffer a b = if isAscii x && isAscii y then .ok (!(x == y)) else .error .typeError := by
  rcases a with _ | x
  · exact Or.inl ⟨Or.inl rfl, rfl⟩
  rcases b with _ | y
  · exact Or.inl ⟨Or.inr rfl, rfl⟩
  by_cases hx : x = ""
  · exact Or.inl ⟨Or.inl (by simp [given, hx]), by simp [digestsDiffer, hx]⟩
  by_cases hy : y = ""
  · exact Or.inl ⟨Or.inr (by simp [given, hy]), by simp [digestsDiffer, hy]⟩
  refine Or.inr ⟨x, y, rfl, rfl, hx, hy, ?_⟩
  simp only [digestsDiffer, hx, hy, if_false, compareDigest]
  split <;> rfl

/-- A guard by the comparison of its two values. -/
theorem guard_cases (cfg : GuardSettings) (request : GuardedRequest) :
    ∃ message, request.guard cfg =
      match digestsDiffer (request.secrets cfg).1 (request.secrets cfg).2 with
      | .error e => .error e
      | .ok true => .error (.forbidden message)
      | .ok false => .ok () := by
  cases request with
  | refresh request _ | logout request _ => exact ⟨"Invalid CSRF token", rfl⟩
  | manualRecalc xAdminToken =>
    by_cases hempty : cfg.taskAdminToken = ""
    · refine ⟨"Manual task trigger is disabled", ?_⟩
      have hdiffer : digestsDiffer xAdminToken (some cfg.taskAdminToken) = .ok true := by
        cases xAdminToken <;> simp [digestsDiffer, hempty]
      simp only [GuardedRequest.secrets, hdiffer]
      simp only [GuardedRequest.guard, requireTaskAdminToken, hempty, if_true]
    · refine ⟨"Invalid admin token", ?_⟩
      simp only [GuardedRequest.guard, GuardedRequest.secrets, requireTaskAdminToken, hempty,
        if_false]

/-- **A refused request changes nothing**, whatever it is refused with. -/
theorem serve_of_refused {e : RequestExn} (h : request.guard cfg = .error e) :
    request.serve cfg s = (.error e, s) := by
  simp only [GuardedRequest.serve, h]

/-- Where a value is missing or empty, the request is forbidden. -/
theorem failsClosed_of_not_given
    (h : given (request.secrets cfg).1 = false ∨ given (request.secrets cfg).2 = false)
    (hdiffer : digestsDiffer (request.secrets cfg).1 (request.secrets cfg).2 = .ok true) :
    request.FailsClosed cfg s := by
  obtain ⟨message, hguard⟩ := guard_cases cfg request
  rw [hdiffer] at hguard
  have hnot : ¬ request.Allowed cfg := by
    rintro ⟨secret, hne, heq⟩
    rw [heq] at h
    simp [given, hne] at h
  refine ⟨⟨fun hok => ?_, fun hallowed => absurd hallowed hnot⟩,
    fun _ => ⟨message, serve_of_refused hguard⟩⟩
  rw [hguard] at hok
  cases hok

/-- Two ASCII values are compared. -/
theorem failsClosed_of_ascii {x y : String} (hsecrets : request.secrets cfg = (some x, some y))
    (hx : x ≠ "") (hdiffer : digestsDiffer (some x) (some y) = .ok (!(x == y))) :
    request.FailsClosed cfg s := by
  obtain ⟨message, hguard⟩ := guard_cases cfg request
  rw [hsecrets, hdiffer] at hguard
  by_cases heq : x = y
  · subst heq
    have hallowed : request.Allowed cfg := ⟨x, hx, hsecrets⟩
    simp only [beq_self_eq_true, Bool.not_true] at hguard
    exact ⟨⟨fun _ => hallowed, fun _ => hguard⟩, fun hnot => absurd hallowed hnot⟩
  · have hnot : ¬ request.Allowed cfg := by
      rintro ⟨secret, -, hsecret⟩
      rw [hsecrets] at hsecret
      cases hsecret
      exact heq rfl
    simp only [beq_eq_false_iff_ne.mpr heq, Bool.not_false] at hguard
    refine ⟨⟨fun hok => ?_, fun hallowed => absurd hallowed hnot⟩,
      fun _ => ⟨message, serve_of_refused hguard⟩⟩
    rw [hguard] at hok
    cases hok

/-- A value that is not ASCII makes the comparison raise. -/
theorem not_failsClosed_of_typeError {e : RequestExn} (hne : ∀ message, e ≠ .forbidden message)
    (hdiffer : digestsDiffer (request.secrets cfg).1 (request.secrets cfg).2 = .error e) :
    ¬ request.FailsClosed cfg s := by
  obtain ⟨message, hguard⟩ := guard_cases cfg request
  rw [hdiffer] at hguard
  rintro ⟨hpasses, hrefused⟩
  by_cases hallowed : request.Allowed cfg
  · rw [hpasses.mpr hallowed] at hguard
    cases hguard
  · obtain ⟨message, hserve⟩ := hrefused hallowed
    rw [serve_of_refused hguard] at hserve
    exact hne message (Except.error.inj (Prod.mk.inj hserve).1)

/-- **When the guards fail closed**: a request is let through exactly where its two values are
there and equal, and is forbidden without any change otherwise, if and only if a value is missing
or empty or both are ASCII. -/
theorem guards_failClosed_iff (cfg : GuardSettings) (request : GuardedRequest) (s : ServerState) :
    request.FailsClosed cfg s ↔ request.Comparable cfg := by
  rcases digestsDiffer_cases (request.secrets cfg).1 (request.secrets cfg).2 with
    ⟨hmissing, hdiffer⟩ | ⟨x, y, hfst, hsnd, hx, hy, hdiffer⟩
  · refine ⟨fun _ hfirst hsecond => ?_, fun _ => failsClosed_of_not_given hmissing hdiffer⟩
    rcases hmissing with hmissing | hmissing <;> simp [hmissing] at hfirst hsecond
  · have hsecrets : request.secrets cfg = (some x, some y) := Prod.ext hfst hsnd
    have hcomparable : request.Comparable cfg ↔ (isAscii x && isAscii y) = true := by
      simp [GuardedRequest.Comparable, hsecrets, given, hx, hy]
    rw [hcomparable]
    by_cases hascii : (isAscii x && isAscii y) = true
    · rw [if_pos hascii, hfst, hsnd] at hdiffer
      exact ⟨fun _ => hascii, fun _ => failsClosed_of_ascii hsecrets hx hdiffer⟩
    · rw [if_neg hascii] at hdiffer
      refine ⟨fun hclosed => absurd hclosed ?_, fun h => absurd h hascii⟩
      exact not_failsClosed_of_typeError (fun _ h => by cases h) hdiffer

end Guards

/-- A refresh with a CSRF cookie and this header. -/
def sampleCsrfRequest (csrfHeader : String) : GuardedRequest :=
  .refresh ⟨some "csrf-123", some csrfHeader, some "refresh-token"⟩ (sampleDraw "1" 0)

/-- A CSRF header with an accented letter raises `TypeError`, which is no refusal. -/
theorem csrf_header_typeError :
    ((sampleCsrfRequest "é").serve ⟨sampleEnv, ""⟩ ⟨.empty foldCase, .init⟩).1 =
        .error .typeError ∧
      ¬ (sampleCsrfRequest "é").FailsClosed ⟨sampleEnv, ""⟩ ⟨.empty foldCase, .init⟩ := by
  refine ⟨rfl, not_failsClosed_of_typeError (e := .typeError) (fun _ heq => ?_) ?_⟩
  · cases heq
  · decide

end ParcelDelivery
