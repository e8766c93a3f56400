import ParcelDelivery.ExpiringStore
import ParcelDelivery.PoolInvariant
import ParcelDelivery.RenewedSessions
import ParcelDelivery.RequestGuards

/-!
# The sessions of browsers

The auth cookies of `app/api/auth.py` and the browsers that keep them, over the credential store.
A browser holds a refresh token and a CSRF token in two cookies, a page echoes the CSRF token in a
header, and the server rotates both with every refresh. For the holders of the cookies these are
sessions that end unless they are renewed (`browser_sessions_refine`): a refresh is answered with
tokens of the user who has logged in with this browser, until the browser or the user logs out or
no page refreshes for the lifetime of the cookies.
-/

namespace ParcelDelivery

open Relational Process TransitionSystem AuthService RenewedSessions

/-! ## Cookies -/

/-- The settings of the cookies. -/
structure CookieSettings : Type where
  guards : GuardSettings
  /-- `JWT_REFRESH_TOKEN_EXPIRE_DAYS` -/
  refreshTokenExpireDays : ℕ
  /-- `REFRESH_COOKIE_NAME` -/
  refreshCookieName : String
  /-- `CSRF_COOKIE_NAME` -/
  csrfCookieName : String
  /-- `ENVIRONMENT` -/
  environment : String
  /-- the rows and the cookies have one lifetime, in seconds -/
  lifetime : guards.env.refreshTokenLifetime = (refreshTokenExpireDays * 24 * 60 * 60 : ℕ)
  names : refreshCookieName ≠ csrfCookieName

/-- A `Set-Cookie` header. -/
structure SetCookie : Type where
  key : String
  value : String
  maxAge : ℕ
  httponly : Bool
  secure : Bool
  samesite : String
  path : String
  deriving DecidableEq, Repr

/-- `Response.delete_cookie`. -/
def deleteCookie (key path : String) : SetCookie where
  key := key
  value := ""
  maxAge := 0
  httponly := false
  secure := false
  samesite := "lax"
  path := path

namespace CookieSettings

variable (cfg : CookieSettings)

/-- `_cookie_secure`. -/
def cookieSecure : Bool := cfg.environment == "prod"

/-- `_cookie_max_age`. -/
def cookieMaxAge : ℕ := cfg.refreshTokenExpireDays * 24 * 60 * 60

/-- `_set_auth_cookies`. -/
def setAuthCookies (result : AuthResult) : List SetCookie :=
  [{ key := cfg.refreshCookieName
     value := result.refreshToken
     maxAge := cfg.cookieMaxAge
     httponly := true
     secure := cfg.cookieSecure
     samesite := "lax"
     path := "/auth" },
    { key := cfg.csrfCookieName
      value := result.csrfToken
      maxAge := cfg.cookieMaxAge
      httponly := false
      secure := cfg.cookieSecure
      samesite := "lax"
      path := "/auth" }]

/-- `_clear_auth_cookies`. -/
def clearAuthCookies : List SetCookie :=
  [deleteCookie cfg.refreshCookieName "/auth", deleteCookie cfg.csrfCookieName "/auth"]

/-- The cookies of a response; an error response has none. -/
def cookiesOf : Except RequestExn Served → List SetCookie
  | .ok (.tokens result) => cfg.setAuthCookies result
  | .ok .loggedOut => cfg.clearAuthCookies
  | .ok .recalcStarted => []
  | .error _ => []

end CookieSettings

/-! ## Browsers -/

/-- The cookies of a browser, under their names and paths. -/
abbrev CookieJar : Type := ExpiringStore.Store (String × String) String

/-- What a browser does with a `Set-Cookie` header; an age of zero removes the cookie. -/
def CookieJar.keep (jar : CookieJar) (now : ℕ) (cookie : SetCookie) : CookieJar :=
  if cookie.maxAge = 0 then ExpiringStore.remove jar (cookie.key, cookie.path)
  else ExpiringStore.set jar now cookie.maxAge (cookie.key, cookie.path) cookie.value

/-- What a browser does with a response. -/
def CookieJar.receive (jar : CookieJar) (now : ℕ) (cookies : List SetCookie) : CookieJar :=
  cookies.foldl (fun jar cookie => jar.keep now cookie) jar

/-- A request to one of the session endpoints, by what the page chooses. -/
inductive BrowserRequest : Type where
  | register (email password : String)
  | login (email password : String)
  /-- with this CSRF header -/
  | refresh (csrfHeader : Option String)
  | logout (csrfHeader : Option String)
  /-- with an access token of this user -/
  | logoutAll (userId : String)

/-- A call of `AuthService` by an endpoint without a guard. -/
def authServed (env : AuthEnv) (op : AuthOp) (draw : Draw) (s : ServerState) :
    Except RequestExn Served × ServerState :=
  match (op.prog env draw).run authHandler s.auth with
  | (.ok (some result), auth) => (.ok (.tokens result), { s with auth })
  | (.ok none, auth) => (.ok .loggedOut, { s with auth })
  | (.error e, auth) => (.error (.service e), { s with auth })

namespace CookieSettings

variable (cfg : CookieSettings)

/-- The two cookies. -/
def refreshKey : String × String := (cfg.refreshCookieName, "/auth")

def csrfKey : String × String := (cfg.csrfCookieName, "/auth")

/-- What a browser sends to the guarded endpoints. -/
def sessionRequest (jar : CookieJar) (now : ℕ) (csrfHeader : Option String) : SessionRequest where
  csrfCookie := ExpiringStore.get jar now cfg.csrfKey
  csrfHeader := csrfHeader
  refreshCookie := ExpiringStore.get jar now cfg.refreshKey

/-- The endpoints of `app/api/auth.py`. -/
def serve (jar : CookieJar) (now : ℕ) (draw : Draw) (request : BrowserRequest) (s : ServerState) :
    Except RequestExn Served × ServerState :=
  match request with
  | .register email password => authServed cfg.guards.env (.register email password) draw s
  | .login email password => authServed cfg.guards.env (.login email password) draw s
  | .refresh csrfHeader =>
    GuardedRequest.serve cfg.guards (.refresh (cfg.sessionRequest jar now csrfHeader) draw) s
  | .logout csrfHeader =>
    GuardedRequest.serve cfg.guards (.logout (cfg.sessionRequest jar now csrfHeader) draw) s
  | .logoutAll userId => authServed cfg.guards.env (.logoutAll userId) draw s

end CookieSettings

/-- The server, the browsers and the clock. -/
structure Browsers (B : Type) : Type where
  server : ServerState
  jars : B → CookieJar
  now : ℕ

/-- Time passes, or a browser sends a request. -/
inductive BrowserMove (B : Type) : Type where
  | pass (seconds : ℕ)
  | send (b : B) (request : BrowserRequest) (draw : Draw)

/-- A browser gets an answer, and the server has changed. -/
def Browsers.receive {B : Type} [DecidableEq B] (s : Browsers B) (cfg : CookieSettings) (b : B)
    (out : Except RequestExn Served × ServerState) : Browsers B where
  server := out.2
  jars b' := if b' = b then (s.jars b).receive s.now (cfg.cookiesOf out.1) else s.jars b'
  now := s.now

/-- Browsers at the session endpoints. -/
def browserSystem (B : Type) [DecidableEq B] (cfg : CookieSettings) :
    System (Browsers B) (BrowserMove B) where
  step s
    | .pass seconds => some { s with now := s.now + seconds }
    | .send b request draw =>
      if draw.now = s.now then
        some (s.receive cfg b (cfg.serve (s.jars b) s.now draw request s.server))
      else none

/-- What is drawn is new; tokens are not empty, and `token_urlsafe` is ASCII. -/
structure Draw.Usable (env : AuthEnv) (draw : Draw) (db : AuthDb) : Prop where
  fresh : draw.Fresh env db
  rawToken : draw.rawToken ≠ ""
  csrfToken : draw.csrfToken ≠ ""
  ascii : isAscii draw.csrfToken = true

instance (env : AuthEnv) (draw : Draw) (db : AuthDb) : Decidable (draw.Usable env db) :=
  decidable_of_iff (draw.Fresh env db ∧ draw.rawToken ≠ "" ∧ draw.csrfToken ≠ "" ∧
      isAscii draw.csrfToken = true)
    ⟨fun ⟨h₁, h₂, h₃, h₄⟩ => ⟨h₁, h₂, h₃, h₄⟩, fun ⟨h₁, h₂, h₃, h₄⟩ => ⟨h₁, h₂, h₃, h₄⟩⟩

/-- Every request draws new tokens. -/
def DrawsUsable {B : Type} (cfg : CookieSettings) (s : Browsers B) (l : BrowserMove B)
    (_ : Browsers B) : Prop :=
  match l with
  | .pass _ => True
  | .send _ _ draw => draw.Usable cfg.guards.env s.server.auth

instance {B : Type} (cfg : CookieSettings) (s : Browsers B) (l : BrowserMove B) (s' : Browsers B) :
    Decidable (DrawsUsable cfg s l s') :=
  match l with
  | .pass _ => isTrue trivial
  | .send _ _ draw => inferInstanceAs (Decidable (draw.Usable _ _))

/-! ## Sessions -/

/-- The user whose tokens are sent. -/
def servedUser : Except RequestExn Served → Option String
  | .ok (.tokens result) => some result.user.id
  | _ => none

/-- What a move is for the sessions. A refresh or a logout counts where the header is the one that a
page of the site sends. -/
def Browsers.events {B : Type} (cfg : CookieSettings) (s : Browsers B) (l : BrowserMove B)
    (_ : Browsers B) : List (Event B String) :=
  match l with
  | .pass seconds => [.pass seconds]
  | .send b request draw =>
    let answer := (cfg.serve (s.jars b) s.now draw request s.server).1
    let echo := ExpiringStore.get (s.jars b) s.now cfg.csrfKey
    match request with
    | .register _ _ | .login _ _ =>
      match servedUser answer with
      | some userId => [.opened b userId]
      | none => []
    | .refresh csrfHeader => if csrfHeader = echo then [.renewed b (servedUser answer)] else []
    | .logout csrfHeader => if csrfHeader = echo then [.closed b] else []
    | .logoutAll userId => [.closedAll b userId]

/-! ## Rows along a request -/

/-- What becomes of a table: rows that are touched are revoked, the others stay, and rows come
in. -/
structure Evolution (db db' : AuthDb) (touched : RefreshToken → Prop) (new : List RefreshToken) :
    Prop where
  users : ∀ id, (db.userOf id).isSome = true → (db'.userOf id).isSome = true
  stays : ∀ r ∈ db.refreshTokens.rows, ¬touched r → r ∈ db'.refreshTokens.rows
  row : ∀ r ∈ db.refreshTokens.rows, ∃ r' ∈ db'.refreshTokens.rows, r'.tokenHash = r.tokenHash
  old : ∀ r' ∈ db'.refreshTokens.rows, r' ∈ new ∨ ∃ r ∈ db.refreshTokens.rows, r.SameKeys r' ∧
    r'.expiresAt = r.expiresAt ∧ (r'.live = true → r.live = true ∧ ¬touched r)

section Evolution

variable {db db' : AuthDb} {env : AuthEnv} {draw : Draw} {token : RefreshToken} {user : User}

/-- Nothing is written to the table, or a row comes in. -/
theorem Evolution.of_append {new : List RefreshToken}
    (husers : ∀ id, (db.userOf id).isSome = true → (db'.userOf id).isSome = true)
    (hrows : db'.refreshTokens.rows = db.refreshTokens.rows ++ new) :
    Evolution db db' (fun _ => False) new := by
  have hmem : ∀ r ∈ db.refreshTokens.rows, r ∈ db'.refreshTokens.rows := by
    intro r hr
    rw [hrows]
    exact List.mem_append_left _ hr
  refine ⟨husers, fun r hr _ => hmem r hr, fun r hr => ⟨r, hmem r hr, rfl⟩, fun r' hr' => ?_⟩
  rw [hrows] at hr'
  rcases List.mem_append.mp hr' with hr' | hr'
  · exact Or.inr ⟨r', hr', .refl r', rfl, fun hlive => ⟨hlive, id⟩⟩
  · exact Or.inl hr'

theorem Evolution.refl (db : AuthDb) : Evolution db db (fun _ => False) [] :=
  .of_append (fun _ h => h) (List.append_nil _).symm

/-- Rows are revoked. -/
theorem Evolution.of_revokeWhere {p : RefreshToken → Bool} {now : Time}
    (husers : db'.users = db.users)
    (hrows : db'.refreshTokens.rows = (db.revokeWhere p now).refreshTokens.rows) :
    Evolution db db' (fun r => p r = true) [] := by
  have hsame : ∀ id, db'.userOf id = db.userOf id := fun id => by rw [AuthDb.userOf, husers]; rfl
  refine ⟨fun id h => by rw [hsame id]; exact h, fun r hr hnot => ?_, fun r hr => ?_,
    fun r' hr' => Or.inr ?_⟩
  · rw [hrows]
    exact AuthDb.mem_revokeWhere_of_not hr (Or.inl (Bool.eq_false_iff.mpr hnot))
  · rw [hrows]
    refine ⟨_, AuthDb.mem_revokeWhere.mpr ⟨r, hr, rfl⟩, ?_⟩
    split
    · rfl
    · rfl
  · rw [hrows] at hr'
    obtain ⟨r, hr, rfl⟩ := AuthDb.mem_revokeWhere.mp hr'
    refine ⟨r, hr, ?_⟩
    by_cases hp : (p r && r.live) = true
    · rw [if_pos hp]
      exact ⟨.assign r _ _, rfl, fun hlive => absurd hlive Bool.false_ne_true⟩
    · rw [if_neg hp]
      refine ⟨.refl r, rfl, fun hlive => ⟨hlive, fun hpr => hp ?_⟩⟩
      rw [hpr, hlive]
      rfl

/-- A row is rotated. -/
theorem Evolution.of_rotation (hmem : token ∈ db.refreshTokens.rows)
    (hins : (db.updateRefreshToken token.jti (some draw.now) (some draw.jti)).insertRefreshToken
      (newRefreshToken env draw user.id token.familyId) = some db') :
    Evolution db db' (fun r => r = token) [newRefreshToken env draw user.id token.familyId] := by
  obtain ⟨husers, -, hrows, -⟩ := AuthDb.insertRefreshToken_eq_some hins
  have hsame : ∀ id, db'.userOf id = db.userOf id := fun id => by rw [AuthDb.userOf, husers]; rfl
  refine ⟨fun id h => by rw [hsame id]; exact h, fun r hr hne => ?_, fun r hr => ?_,
    fun r' hr' => ?_⟩
  · rw [hrows]
    exact List.mem_append_left _ (AuthDb.mem_updateRefreshToken_of_ne hmem hr hne)
  · obtain ⟨r', hr', hkeys, -⟩ := mem_rotation hrows hr
    exact ⟨r', hr', hkeys.tokenHash⟩
  · rw [hrows] at hr'
    rcases List.mem_append.mp hr' with hr' | hr'
    · obtain ⟨r, hr, rfl⟩ := AuthDb.mem_updateRefreshToken.mp hr'
      refine Or.inr ⟨r, hr, ?_⟩
      by_cases hjti : r.jti = token.jti
      · rw [if_pos (beq_iff_eq.mpr hjti)]
        exact ⟨.assign r _ _, rfl, fun hlive => absurd hlive Bool.false_ne_true⟩
      · rw [if_neg (by simp [hjti])]
        exact ⟨.refl r, rfl, fun hlive => ⟨hlive, fun heq => hjti (congrArg RefreshToken.jti heq)⟩⟩
    · exact Or.inl hr'

end Evolution

/-! ## One browser -/

section Browser

variable (cfg : CookieSettings) (jar : CookieJar) (now : ℕ) (db : AuthDb)

/-- The row is the one of the refresh token that the browser sends. -/
def Carries (r : RefreshToken) : Prop :=
  ∃ raw, ExpiringStore.get jar now cfg.refreshKey = some raw ∧
    r.tokenHash = cfg.guards.env.hashToken raw

/-- The browser has both cookies up to a deadline, and the row of the refresh token is unrevoked and
expires then. -/
structure OpenSession (userId : String) (deadline : ℕ) : Prop where
  token : ∃ raw, raw ≠ "" ∧
    (∀ t, now ≤ t → t ≤ deadline → ExpiringStore.get jar t cfg.refreshKey = some raw) ∧
    ∃ r ∈ db.refreshTokens.rows, r.tokenHash = cfg.guards.env.hashToken raw ∧ r.live = true ∧
      r.expiresAt = deadline ∧ r.userId = userId
  csrf : ∃ csrf, csrf ≠ "" ∧ isAscii csrf = true ∧
    ∀ t, now ≤ t → t ≤ deadline → ExpiringStore.get jar t cfg.csrfKey = some csrf

/-- What the browser sends cannot be rotated. -/
def NoSession : Prop :=
  ∀ r ∈ db.refreshTokens.rows, Carries cfg jar now r → r.live = false ∨ r.expiresAt ≤ now

/-- The session has not ended. -/
def Running (session : Option (String × ℕ)) : Prop :=
  ∃ userId deadline, session = some (userId, deadline) ∧ now < deadline

/-- The browser has the session, or none. -/
structure Tracked (session : Option (String × ℕ)) : Prop where
  keyed : ExpiringStore.Keyed jar
  held : ∀ raw, ExpiringStore.get jar now cfg.refreshKey = some raw →
    ∃ r ∈ db.refreshTokens.rows, r.tokenHash = cfg.guards.env.hashToken raw
  running : ∀ userId deadline, session = some (userId, deadline) → now < deadline →
    OpenSession cfg jar now db userId deadline
  ended : ¬Running now session → NoSession cfg jar now db

end Browser

section Tracking

variable {cfg : CookieSettings} {jar : CookieJar} {now : ℕ} {db db' : AuthDb}
  {session : Option (String × ℕ)} {touched : RefreshToken → Prop} {new : List RefreshToken}
  {r r' : RefreshToken} {userId : String} {deadline : ℕ}

/-- The rows that a browser carries are one. -/
theorem Carries.eq (h : Carries cfg jar now r) (h' : Carries cfg jar now r')
    (hr : r ∈ db.refreshTokens.rows) (hr' : r' ∈ db.refreshTokens.rows) : r = r' := by
  obtain ⟨raw, hget, hhash⟩ := h
  obtain ⟨raw', hget', hhash'⟩ := h'
  cases hget.symm.trans hget'
  exact AuthDb.eq_of_tokenHash hr hr' (hhash.trans hhash'.symm)

/-- A browser does not carry a row that comes in. -/
theorem Tracked.carried_old (h : Tracked cfg jar now db session)
    (hevolution : Evolution db db' touched new)
    (hnew : ∀ n ∈ new, ∀ r ∈ db.refreshTokens.rows, r.tokenHash ≠ n.tokenHash)
    (hr' : r' ∈ db'.refreshTokens.rows) (hcarries : Carries cfg jar now r') :
    ∃ r ∈ db.refreshTokens.rows, Carries cfg jar now r ∧ r.SameKeys r' ∧
      r'.expiresAt = r.expiresAt ∧ (r'.live = true → r.live = true ∧ ¬touched r) := by
  obtain ⟨raw, hget, hhash⟩ := hcarries
  rcases hevolution.old r' hr' with hin | ⟨r, hr, hkeys, hrest⟩
  · obtain ⟨r, hr, hraw⟩ := h.held raw hget
    exact absurd (hraw.trans hhash.symm) (hnew r' hin r hr)
  · exact ⟨r, hr, ⟨raw, hget, hkeys.tokenHash.symm.trans hhash⟩, hkeys, hrest⟩

/-- Rows that change elsewhere. -/
theorem Tracked.evolve (h : Tracked cfg jar now db session)
    (hevolution : Evolution db db' touched new)
    (hnew : ∀ n ∈ new, ∀ r ∈ db.refreshTokens.rows, r.tokenHash ≠ n.tokenHash)
    (hkeep : Running now session → ∀ r ∈ db.refreshTokens.rows, Carries cfg jar now r →
      ¬touched r) :
    Tracked cfg jar now db' session := by
  refine ⟨h.keyed, fun raw hget => ?_, fun userId deadline hsession hlt => ?_, fun hended => ?_⟩
  · obtain ⟨r, hr, hhash⟩ := h.held raw hget
    obtain ⟨r', hr', hsame⟩ := hevolution.row r hr
    exact ⟨r', hr', hsame.trans hhash⟩
  · obtain ⟨⟨raw, hne, hget, r, hr, hhash, hrow⟩, hcsrf⟩ := h.running userId deadline hsession hlt
    have hstays := hevolution.stays r hr
      (hkeep ⟨userId, deadline, hsession, hlt⟩ r hr ⟨raw, hget now le_rfl hlt.le, hhash⟩)
    exact ⟨⟨raw, hne, hget, r, hstays, hhash, hrow⟩, hcsrf⟩
  · intro r' hr' hcarries
    obtain ⟨r, hr, hcarries', -, hexpires, hlive⟩ := h.carried_old hevolution hnew hr' hcarries
    rcases h.ended hended r hr hcarries' with hdead | hover
    · refine Or.inl (Bool.eq_false_iff.mpr fun hlive' => ?_)
      rw [(hlive hlive').1] at hdead
      cases hdead
    · exact Or.inr (hexpires ▸ hover)

/-- The row of a browser is revoked. -/
theorem Tracked.close (h : Tracked cfg jar now db session)
    (hevolution : Evolution db db' touched new)
    (hnew : ∀ n ∈ new, ∀ r ∈ db.refreshTokens.rows, r.tokenHash ≠ n.tokenHash)
    (htouched : Running now session → ∀ r ∈ db.refreshTokens.rows, Carries cfg jar now r →
      touched r) :
    Tracked cfg jar now db' none := by
  refine ⟨h.keyed, fun raw hget => ?_, nofun, fun _ r' hr' hcarries => ?_⟩
  · obtain ⟨r, hr, hhash⟩ := h.held raw hget
    obtain ⟨r', hr', hsame⟩ := hevolution.row r hr
    exact ⟨r', hr', hsame.trans hhash⟩
  · obtain ⟨r, hr, hcarries', -, hexpires, hlive⟩ := h.carried_old hevolution hnew hr' hcarries
    by_cases hrunning : Running now session
    · refine Or.inl (Bool.eq_false_iff.mpr fun hlive' => ?_)
      exact (hlive hlive').2 (htouched hrunning r hr hcarries')
    · rcases h.ended hrunning r hr hcarries' with hdead | hover
      · refine Or.inl (Bool.eq_false_iff.mpr fun hlive' => ?_)
        rw [(hlive hlive').1] at hdead
        cases hdead
      · exact Or.inr (hexpires ▸ hover)

/-- What is sent later would have been sent before. -/
theorem Tracked.earlier (h : Tracked cfg jar now db session) {seconds : ℕ}
    (hcarries : Carries cfg jar (now + seconds) r) : Carries cfg jar now r := by
  obtain ⟨raw, hget, hhash⟩ := hcarries
  exact ⟨raw, h.keyed.get_of_le (Nat.le_add_right _ _) hget, hhash⟩

/-- Time passes for a browser. -/
theorem Tracked.pass (h : Tracked cfg jar now db session) (seconds : ℕ) :
    Tracked cfg jar (now + seconds) db session := by
  refine ⟨h.keyed, fun raw hget => ?_, fun userId deadline hsession hlt => ?_,
    fun hended r hr hcarries => ?_⟩
  · exact h.held raw (h.keyed.get_of_le (Nat.le_add_right _ _) hget)
  · have hbefore : now < deadline := (Nat.le_add_right _ _).trans_lt hlt
    obtain ⟨⟨raw, hne, hget, hrow⟩, csrf, hcsrf, hascii, hget'⟩ :=
      h.running userId deadline hsession hbefore
    exact ⟨⟨raw, hne, fun t hle => hget t ((Nat.le_add_right _ _).trans hle), hrow⟩, csrf, hcsrf,
      hascii, fun t hle => hget' t ((Nat.le_add_right _ _).trans hle)⟩
  · by_cases hrunning : Running now session
    · obtain ⟨userId, deadline, hsession, hlt⟩ := hrunning
      obtain ⟨⟨raw, -, hget, r₀, hr₀, hhash, -, hexpires, -⟩, -⟩ :=
        h.running userId deadline hsession hlt
      have hsame := (h.earlier hcarries).eq ⟨raw, hget now le_rfl hlt.le, hhash⟩ hr hr₀
      have hover : deadline ≤ now + seconds :=
        Nat.not_lt.mp fun hlt' => hended ⟨userId, deadline, hsession, hlt'⟩
      refine Or.inr ?_
      rw [hsame, hexpires]
      exact Int.ofNat_le.mpr hover
    · rcases h.ended hrunning r hr (h.earlier hcarries) with hdead | hover
      · exact Or.inl hdead
      · refine Or.inr (hover.trans ?_)
        exact Int.ofNat_le.mpr (Nat.le_add_right _ _)

end Tracking

/-! ## Cookies received -/

section Received

variable {cfg : CookieSettings} {jar : CookieJar} {now : ℕ} {db : AuthDb} {draw : Draw} {user : User}
  {familyId : String}

theorem refreshKey_ne_csrfKey (cfg : CookieSettings) : cfg.refreshKey ≠ cfg.csrfKey :=
  fun h => cfg.names (congrArg Prod.fst h)

theorem keyed_keep (h : ExpiringStore.Keyed jar) (cookie : SetCookie) :
    ExpiringStore.Keyed (jar.keep now cookie) := by
  rw [CookieJar.keep]
  split
  · exact h.remove
  · exact h.set

theorem keyed_receive (h : ExpiringStore.Keyed jar) (cookies : List SetCookie) :
    ExpiringStore.Keyed (jar.receive now cookies) := by
  induction cookies generalizing jar with
  | nil => exact h
  | cons cookie cookies ih => exact ih (keyed_keep h cookie)

/-- The cookies of new tokens, for the lifetime that they are given. -/
theorem get_received {result : AuthResult} {t : ℕ} (hage : cfg.cookieMaxAge ≠ 0)
    (ht : t ≤ now + cfg.cookieMaxAge) :
    ExpiringStore.get (jar.receive now (cfg.setAuthCookies result)) t cfg.refreshKey =
        some result.refreshToken ∧
      ExpiringStore.get (jar.receive now (cfg.setAuthCookies result)) t cfg.csrfKey =
        some result.csrfToken := by
  have hjar : jar.receive now (cfg.setAuthCookies result) =
      ExpiringStore.set (ExpiringStore.set jar now cfg.cookieMaxAge cfg.refreshKey
        result.refreshToken) now cfg.cookieMaxAge cfg.csrfKey result.csrfToken := by
    simp [CookieJar.receive, CookieSettings.setAuthCookies, CookieJar.keep, hage,
      CookieSettings.refreshKey, CookieSettings.csrfKey]
  rw [hjar, ExpiringStore.get_set_of_ne (refreshKey_ne_csrfKey cfg)]
  exact ⟨ExpiringStore.get_set_self ht, ExpiringStore.get_set_self ht⟩

/-- Cookies without a lifetime are removed. -/
theorem get_received_zero {result : AuthResult} {t : ℕ} (hage : cfg.cookieMaxAge = 0) :
    ExpiringStore.get (jar.receive now (cfg.setAuthCookies result)) t cfg.refreshKey = none := by
  have hjar : jar.receive now (cfg.setAuthCookies result) =
      ExpiringStore.remove (ExpiringStore.remove jar cfg.refreshKey) cfg.csrfKey := by
    simp [CookieJar.receive, CookieSettings.setAuthCookies, CookieJar.keep, hage,
      CookieSettings.refreshKey, CookieSettings.csrfKey]
  rw [hjar, ExpiringStore.get_remove_of_ne (refreshKey_ne_csrfKey cfg)]
  exact ExpiringStore.get_remove_self

/-- Cleared cookies are gone. -/
theorem get_cleared {t : ℕ} :
    ExpiringStore.get (jar.receive now cfg.clearAuthCookies) t cfg.refreshKey = none := by
  have hjar : jar.receive now cfg.clearAuthCookies =
      ExpiringStore.remove (ExpiringStore.remove jar cfg.refreshKey) cfg.csrfKey := by
    simp [CookieJar.receive, CookieSettings.clearAuthCookies, deleteCookie, CookieJar.keep,
      CookieSettings.refreshKey, CookieSettings.csrfKey]
  rw [hjar, ExpiringStore.get_remove_of_ne (refreshKey_ne_csrfKey cfg)]
  exact ExpiringStore.get_remove_self

/-- A browser without a refresh token. -/
theorem tracked_of_none (hkeyed : ExpiringStore.Keyed jar)
    (hget : ExpiringStore.get jar now cfg.refreshKey = none) :
    Tracked cfg jar now db none := by
  refine ⟨hkeyed, fun raw hraw => ?_, nofun, ?_⟩
  · cases hget.symm.trans hraw
  · rintro - r - ⟨raw, hraw, -⟩
    cases hget.symm.trans hraw

theorem tracked_of_cleared (hkeyed : ExpiringStore.Keyed jar) :
    Tracked cfg (jar.receive now cfg.clearAuthCookies) now db none :=
  tracked_of_none (keyed_receive hkeyed _) get_cleared

/-- The row of new tokens is the one that the browser carries. -/
theorem eq_of_carries_received {r : RefreshToken}
    (hrow : newRefreshToken cfg.guards.env draw user.id familyId ∈ db.refreshTokens.rows)
    (hr : r ∈ db.refreshTokens.rows)
    (hcarries : Carries cfg (jar.receive now
      (cfg.setAuthCookies (authResult cfg.guards.env draw user))) now r) :
    r = newRefreshToken cfg.guards.env draw user.id familyId := by
  obtain ⟨raw, hget, hhash⟩ := hcarries
  by_cases hage : cfg.cookieMaxAge = 0
  · cases (get_received_zero hage).symm.trans hget
  · cases (get_received hage (Nat.le_add_right _ _)).1.symm.trans hget
    exact AuthDb.eq_of_tokenHash hr hrow hhash

/-- **A browser that has received new tokens** has a session for their lifetime. -/
theorem tracked_of_received (hkeyed : ExpiringStore.Keyed jar) (hnow : draw.now = now)
    (hraw : draw.rawToken ≠ "") (hcsrf : draw.csrfToken ≠ "") (hascii : isAscii draw.csrfToken = true)
    (hrow : newRefreshToken cfg.guards.env draw user.id familyId ∈ db.refreshTokens.rows) :
    Tracked cfg (jar.receive now (cfg.setAuthCookies (authResult cfg.guards.env draw user))) now db
      (some (user.id, now + cfg.cookieMaxAge)) := by
  refine ⟨keyed_receive hkeyed _, fun raw hget => ?_, ?_, ?_⟩
  · by_cases hage : cfg.cookieMaxAge = 0
    · cases (get_received_zero hage).symm.trans hget
    · cases (get_received hage (Nat.le_add_right _ _)).1.symm.trans hget
      exact ⟨_, hrow, rfl⟩
  · rintro userId deadline ⟨⟩ hlt
    have hage : cfg.cookieMaxAge ≠ 0 := by omega
    have hexpires : refreshExpiresAt cfg.guards.env draw.now = (now + cfg.cookieMaxAge : ℕ) := by
      rw [refreshExpiresAt, cfg.lifetime, hnow]
      exact (Int.natCast_add _ _).symm
    exact ⟨⟨draw.rawToken, hraw, fun t _ hle => (get_received hage hle).1, _, hrow, rfl, rfl, hexpires,
      rfl⟩, draw.csrfToken, hcsrf, hascii, fun t _ hle => (get_received hage hle).2⟩
  · rintro hended r - ⟨raw, hget, -⟩
    have hage : cfg.cookieMaxAge = 0 := by
      refine Nat.eq_zero_of_not_pos fun hpos => hended ⟨user.id, _, rfl, ?_⟩
      omega
    cases (get_received_zero hage).symm.trans hget

end Received

/-! ## Answers -/

section Answers

variable {cfg : CookieSettings} {jar : CookieJar} {now : ℕ} {draw : Draw} {s : ServerState}

/-- Equal tokens pass the guard. -/
theorem requireCsrf_of_eq {request : SessionRequest} {csrf : String} (hne : csrf ≠ "")
    (hascii : isAscii csrf = true) (hcookie : request.csrfCookie = some csrf)
    (hheader : request.csrfHeader = some csrf) : requireCsrf request = .ok () := by
  simp [requireCsrf, hcookie, hheader, digestsDiffer, hne, compareDigest, hascii, Except.map]

/-- Different tokens do not. -/
theorem requireCsrf_of_ne {request : SessionRequest} (hne : request.csrfHeader ≠ request.csrfCookie) :
    ∃ e, requireCsrf request = .error e := by
  rcases digestsDiffer_cases request.csrfCookie request.csrfHeader with
    ⟨-, hdiffer⟩ | ⟨x, y, hx, hy, -, -, hdiffer⟩
  · exact ⟨_, by rw [requireCsrf, hdiffer]⟩
  · have hxy : (x == y) = false := by
      rw [beq_eq_false_iff_ne]
      rintro rfl
      exact hne (hy.trans hx.symm)
    rw [hxy] at hdiffer
    split at hdiffer
    · exact ⟨_, by rw [requireCsrf, hdiffer]; rfl⟩
    · exact ⟨_, by rw [requireCsrf, hdiffer]⟩

/-- A call with the token of the cookie. -/
theorem session_of_token {α : Type} {request : SessionRequest} {call : String → AuthProg α}
    {answer : α → Served} {raw : String} (hcookie : request.refreshCookie = some raw)
    (hne : raw ≠ "") :
    GuardedRequest.session request call answer s =
      ((((call raw).run authHandler s.auth).1.mapError .service).map answer,
        { s with auth := ((call raw).run authHandler s.auth).2 }) := by
  have htoken : refreshTokenFromRequest request = .ok raw := by
    rw [refreshTokenFromRequest, hcookie]
    exact if_neg hne
  rw [GuardedRequest.session, htoken]

/-- A call with the token of the cookie, or none. -/
theorem session_cases {α : Type} (request : SessionRequest) (call : String → AuthProg α)
    (answer : α → Served) (s : ServerState) :
    (∃ e, GuardedRequest.session request call answer s = (.error e, s)) ∨
      ∃ raw, request.refreshCookie = some raw ∧ GuardedRequest.session request call answer s =
        ((((call raw).run authHandler s.auth).1.mapError .service).map answer,
          { s with auth := ((call raw).run authHandler s.auth).2 }) := by
  rcases hcookie : request.refreshCookie with _ | raw
  · refine Or.inl ⟨.service (.unauthorizedError "Missing refresh token"), ?_⟩
    rw [GuardedRequest.session, refreshTokenFromRequest, hcookie]
  · by_cases hne : raw = ""
    · refine Or.inl ⟨.service (.unauthorizedError "Missing refresh token"), ?_⟩
      rw [GuardedRequest.session, refreshTokenFromRequest, hcookie]
      dsimp only
      rw [if_pos hne]
    · exact Or.inr ⟨raw, rfl, session_of_token hcookie hne⟩

/-- A guarded request is refused, or goes on to its session. -/
theorem guarded_cases {α : Type} {guarded : GuardedRequest} {request : SessionRequest}
    {call : String → AuthProg α} {answer : α → Served}
    (hbody : guarded.body cfg.guards s = GuardedRequest.session request call answer s) :
    (∃ e, guarded.serve cfg.guards s = (.error e, s)) ∨
      ∃ raw, request.refreshCookie = some raw ∧ guarded.serve cfg.guards s =
        ((((call raw).run authHandler s.auth).1.mapError .service).map answer,
          { s with auth := ((call raw).run authHandler s.auth).2 }) := by
  rcases hguard : guarded.guard cfg.guards with e | ⟨⟩
  · exact Or.inl ⟨e, serve_of_refused hguard⟩
  · have hserve : guarded.serve cfg.guards s = guarded.body cfg.guards s := by
      rw [GuardedRequest.serve, hguard]
    rw [hserve, hbody]
    exact session_cases request call answer s

variable {db : AuthDb} {session : Option (String × ℕ)} {userId : String} {deadline : ℕ}

/-- What a session sends is let through to its call. -/
theorem guarded_of_open {α : Type} {guarded : GuardedRequest} {call : String → AuthProg α}
    {answer : α → Served} (hopen : OpenSession cfg jar now s.auth userId deadline)
    (hlt : now < deadline)
    (hguard : guarded.guard cfg.guards = requireCsrf (cfg.sessionRequest jar now
      (ExpiringStore.get jar now cfg.csrfKey)))
    (hbody : guarded.body cfg.guards s = GuardedRequest.session (cfg.sessionRequest jar now
      (ExpiringStore.get jar now cfg.csrfKey)) call answer s) :
    ∃ raw r, r ∈ s.auth.refreshTokens.rows ∧ Carries cfg jar now r ∧
      s.auth.tokenOf (cfg.guards.env.hashToken raw) = some r ∧ r.live = true ∧
      r.expiresAt = deadline ∧ r.userId = userId ∧ guarded.serve cfg.guards s =
        ((((call raw).run authHandler s.auth).1.mapError .service).map answer,
          { s with auth := ((call raw).run authHandler s.auth).2 }) := by
  obtain ⟨⟨raw, hraw, hget, r, hr, hhash, hlive, hexpires, huser⟩, csrf, hcsrf, hascii, hget'⟩ := hopen
  have hcookie := hget now le_rfl hlt.le
  have hecho := hget' now le_rfl hlt.le
  refine ⟨raw, r, hr, ⟨raw, hcookie, hhash⟩, AuthDb.tokenOf_eq_some.mpr ⟨hr, hhash⟩, hlive, hexpires,
    huser, ?_⟩
  have hpass : guarded.guard cfg.guards = .ok () := by
    rw [hguard]
    exact requireCsrf_of_eq hcsrf hascii hecho hecho
  rw [GuardedRequest.serve, hpass]
  exact hbody.trans (session_of_token hcookie hraw)

/-- **A refresh in a session** rotates its row. -/
theorem refresh_of_open (hopen : OpenSession cfg jar now s.auth userId deadline)
    (hlt : now < deadline) (hnow : draw.now = now) (hfresh : draw.Fresh cfg.guards.env s.auth)
    (howners : ∀ r ∈ s.auth.refreshTokens.rows, (s.auth.userOf r.userId).isSome = true) :
    ∃ r user db', r ∈ s.auth.refreshTokens.rows ∧ Carries cfg jar now r ∧ user.id = userId ∧
      (s.auth.updateRefreshToken r.jti (some draw.now) (some draw.jti)).insertRefreshToken
        (newRefreshToken cfg.guards.env draw user.id r.familyId) = some db' ∧
      cfg.serve jar now draw (.refresh (ExpiringStore.get jar now cfg.csrfKey)) s =
        (.ok (.tokens (authResult cfg.guards.env draw user)), { s with auth := db' }) := by
  have hbody : GuardedRequest.body cfg.guards
      (.refresh (cfg.sessionRequest jar now (ExpiringStore.get jar now cfg.csrfKey)) draw) s =
    GuardedRequest.session (cfg.sessionRequest jar now (ExpiringStore.get jar now cfg.csrfKey))
      (AuthService.refresh cfg.guards.env draw) .tokens s := rfl
  obtain ⟨raw, r, hr, hcarries, hsel, hlive, hexpires, huserId, hserve⟩ :=
    guarded_of_open hopen hlt rfl hbody
  have hvalid : draw.now < r.expiresAt := by
    rw [hnow, hexpires]
    exact Int.ofNat_lt.mpr hlt
  obtain ⟨user, huser⟩ := Option.isSome_iff_exists.mp (howners r hr)
  have hnew : ∀ r' ∈ s.auth.refreshTokens.rows, r'.jti ≠ draw.jti ∧
      r'.tokenHash ≠ cfg.guards.env.hashToken draw.rawToken :=
    fun r' hr' => ⟨(hfresh.jti r' hr').1, hfresh.rawToken r' hr'⟩
  obtain ⟨db', hins⟩ := rotation_of_new hnew huser
  refine ⟨r, user, db', hr, hcarries, (AuthDb.userOf_id huser).trans huserId, hins, ?_⟩
  refine hserve.trans ?_
  have hout := @refresh_outcome cfg.guards.env draw s.auth raw
  generalize (refresh cfg.guards.env draw raw).run authHandler s.auth = out at hout ⊢
  cases hout with
  | unknown hsel' => cases hsel.symm.trans hsel'
  | reused token hsel' hrevoked =>
    cases hsel.symm.trans hsel'
    cases hlive.symm.trans hrevoked
  | expired token hsel' _ hexpired =>
    cases hsel.symm.trans hsel'
    exact absurd hvalid (Int.not_lt.mpr hexpired)
  | ownerless token hsel' _ _ hnone =>
    cases hsel.symm.trans hsel'
    cases huser.symm.trans hnone
  | rotated token user' db'' hsel' _ _ huser' hins' =>
    cases hsel.symm.trans hsel'
    cases huser.symm.trans huser'
    cases hins.symm.trans hins'
    rfl
  | collided token user' hsel' _ _ huser' hins' =>
    cases hsel.symm.trans hsel'
    cases huser.symm.trans huser'
    cases hins.symm.trans hins'

/-- The touched rows are of the family of the token that the browser sends. -/
def OwnFamily (cfg : CookieSettings) (jar : CookieJar) (now : ℕ) (db : AuthDb)
    (touched : RefreshToken → Prop) : Prop :=
  ∀ r ∈ db.refreshTokens.rows, touched r →
    ∃ token ∈ db.refreshTokens.rows, Carries cfg jar now token ∧ r.familyId = token.familyId

theorem ownFamily_false : OwnFamily cfg jar now db fun _ => False := fun _ _ h => h.elim

/-- A row that is revoked by its key. -/
theorem evolution_of_revoked {token : RefreshToken} (hmem : token ∈ db.refreshTokens.rows)
    (hcarries : Carries cfg jar now token) (hlive : token.live = true) (t : Time) :
    ∃ touched, Evolution db (db.updateRefreshToken token.jti (some t) none) touched [] ∧
      OwnFamily cfg jar now db touched := by
  refine ⟨_, .of_revokeWhere rfl (AuthDb.updateRefreshToken_eq_revokeWhere hmem hlive), ?_⟩
  intro r hr hjti
  exact ⟨token, hmem, hcarries, congrArg _ (AuthDb.eq_of_jti hr hmem (beq_iff_eq.mp hjti))⟩

/-- **A refresh without a session** is refused, and touches no other family. -/
theorem refresh_of_none (csrfHeader : Option String) (hnow : draw.now = now)
    (hnone : NoSession cfg jar now s.auth) :
    ∃ e db' touched, cfg.serve jar now draw (.refresh csrfHeader) s =
        (.error e, { s with auth := db' }) ∧
      Evolution s.auth db' touched [] ∧ OwnFamily cfg jar now s.auth touched := by
  have hbody : GuardedRequest.body cfg.guards
      (.refresh (cfg.sessionRequest jar now csrfHeader) draw) s =
    GuardedRequest.session (cfg.sessionRequest jar now csrfHeader)
      (AuthService.refresh cfg.guards.env draw) .tokens s := rfl
  rcases guarded_cases hbody with ⟨e, hserve⟩ | ⟨raw, hcookie, hserve⟩
  · exact ⟨e, s.auth, _, hserve, .refl _, ownFamily_false⟩
  have hcarries : ∀ {token}, s.auth.tokenOf (cfg.guards.env.hashToken raw) = some token →
      token ∈ s.auth.refreshTokens.rows ∧ Carries cfg jar now token := by
    intro token hsel
    obtain ⟨hmem, hhash⟩ := AuthDb.tokenOf_eq_some.mp hsel
    exact ⟨hmem, raw, hcookie, hhash⟩
  change ∃ e db' touched, GuardedRequest.serve _ _ _ = _ ∧ _
  rw [hserve]
  have hout := @refresh_outcome cfg.guards.env draw s.auth raw
  generalize (refresh cfg.guards.env draw raw).run authHandler s.auth = out at hout ⊢
  cases hout with
  | unknown _ => exact ⟨_, _, _, rfl, .refl _, ownFamily_false⟩
  | reused token hsel _ =>
    obtain ⟨hmem, hcarries⟩ := hcarries hsel
    refine ⟨_, _, _, rfl, .of_revokeWhere rfl rfl, fun r _ hfamily => ?_⟩
    exact ⟨token, hmem, hcarries, beq_iff_eq.mp hfamily⟩
  | expired token hsel hlive _ | ownerless token hsel hlive _ _ =>
    obtain ⟨hmem, hcarries⟩ := hcarries hsel
    obtain ⟨touched, hevolution, hown⟩ := evolution_of_revoked hmem hcarries hlive draw.now
    exact ⟨_, _, touched, rfl, hevolution, hown⟩
  | rotated token user db' hsel hlive hvalid _ _ =>
    obtain ⟨hmem, hcarries⟩ := hcarries hsel
    rw [hnow] at hvalid
    rcases hnone token hmem hcarries with hdead | hover
    · cases hlive.symm.trans hdead
    · exact absurd hvalid (Int.not_lt.mpr hover)
  | collided _ _ _ _ _ _ _ => exact ⟨_, _, _, rfl, .refl _, ownFamily_false⟩

/-- A logout clears the cookies and touches no other family, or is refused. -/
theorem logout_cases (draw : Draw) (csrfHeader : Option String) :
    (∃ e, cfg.serve jar now draw (.logout csrfHeader) s = (.error e, s)) ∨
      ∃ db' touched, cfg.serve jar now draw (.logout csrfHeader) s =
          (.ok .loggedOut, { s with auth := db' }) ∧
        Evolution s.auth db' touched [] ∧ OwnFamily cfg jar now s.auth touched := by
  have hbody : GuardedRequest.body cfg.guards
      (.logout (cfg.sessionRequest jar now csrfHeader) draw) s =
    GuardedRequest.session (cfg.sessionRequest jar now csrfHeader)
      (AuthService.logout cfg.guards.env draw) (fun _ => .loggedOut) s := rfl
  rcases guarded_cases hbody with hrefused | ⟨raw, hcookie, hserve⟩
  · exact Or.inl hrefused
  change (∃ e, GuardedRequest.serve _ _ _ = _) ∨ ∃ db' touched, GuardedRequest.serve _ _ _ = _ ∧ _
  rw [hserve]
  have hout := @logout_outcome cfg.guards.env draw s.auth raw
  generalize (logout cfg.guards.env draw raw).run authHandler s.auth = out at hout ⊢
  cases hout with
  | unknown _ => exact Or.inl ⟨_, rfl⟩
  | revoked _ _ _ => exact Or.inr ⟨_, _, rfl, .refl _, ownFamily_false⟩
  | ended token hsel hlive =>
    obtain ⟨hmem, hhash⟩ := AuthDb.tokenOf_eq_some.mp hsel
    obtain ⟨touched, hevolution, hown⟩ :=
      evolution_of_revoked hmem ⟨raw, hcookie, hhash⟩ hlive draw.now
    exact Or.inr ⟨_, touched, rfl, hevolution, hown⟩

/-- A session can be closed. -/
theorem logout_of_open (hopen : OpenSession cfg jar now s.auth userId deadline)
    (hlt : now < deadline) :
    (cfg.serve jar now draw (.logout (ExpiringStore.get jar now cfg.csrfKey)) s).1 =
      .ok .loggedOut := by
  have hbody : GuardedRequest.body cfg.guards
      (.logout (cfg.sessionRequest jar now (ExpiringStore.get jar now cfg.csrfKey)) draw) s =
    GuardedRequest.session (cfg.sessionRequest jar now (ExpiringStore.get jar now cfg.csrfKey))
      (AuthService.logout cfg.guards.env draw) (fun _ => .loggedOut) s := rfl
  obtain ⟨raw, r, -, -, hsel, -, -, -, hserve⟩ := guarded_of_open hopen hlt rfl hbody
  refine (congrArg Prod.fst hserve).trans ?_
  have hout := @logout_outcome cfg.guards.env draw s.auth raw
  generalize (logout cfg.guards.env draw raw).run authHandler s.auth = out at hout ⊢
  cases hout with
  | unknown hsel' => cases hsel.symm.trans hsel'
  | revoked _ _ _ | ended _ _ _ => rfl

/-- A header that no page of the site would send changes nothing. -/
theorem refused_of_header {csrfHeader : Option String} (draw : Draw) (s : ServerState)
    (hne : csrfHeader ≠ ExpiringStore.get jar now cfg.csrfKey) :
    (∃ e, cfg.serve jar now draw (.refresh csrfHeader) s = (.error e, s)) ∧
      ∃ e, cfg.serve jar now draw (.logout csrfHeader) s = (.error e, s) := by
  have hheader : (cfg.sessionRequest jar now csrfHeader).csrfHeader ≠
      (cfg.sessionRequest jar now csrfHeader).csrfCookie := hne
  obtain ⟨e, hguard⟩ := requireCsrf_of_ne hheader
  exact ⟨⟨e, serve_of_refused hguard⟩, e, serve_of_refused hguard⟩

/-- New tokens of a user. -/
theorem issue_cases {db₁ : AuthDb} (cfg : CookieSettings) (draw : Draw) (user : User)
    (hrows : db₁.refreshTokens = db.refreshTokens)
    (husers : ∀ id, (db.userOf id).isSome = true → (db₁.userOf id).isSome = true) :
    (∃ e, (issueTokens cfg.guards.env draw user).run authHandler db₁ = (.error e, db₁) ∧
        Evolution db db₁ (fun _ => False) []) ∨
      ∃ db', (issueTokens cfg.guards.env draw user).run authHandler db₁ =
          (.ok (authResult cfg.guards.env draw user), db') ∧
        Evolution db db' (fun _ => False)
          [newRefreshToken cfg.guards.env draw user.id draw.familyId] ∧
        newRefreshToken cfg.guards.env draw user.id draw.familyId ∈ db'.refreshTokens.rows ∧
        (db'.userOf user.id).isSome = true := by
  rw [issueTokens_run]
  rcases hins : db₁.insertRefreshToken
    (newRefreshToken cfg.guards.env draw user.id draw.familyId) with _ | db'
  · refine Or.inl ⟨_, rfl, .of_append husers ?_⟩
    rw [hrows, List.append_nil]
  · obtain ⟨hsame, howner, hrows', -⟩ := AuthDb.insertRefreshToken_eq_some hins
    have hkept : ∀ id, db'.userOf id = db₁.userOf id := fun id => by
      rw [AuthDb.userOf, hsame]
      rfl
    refine Or.inr ⟨db', rfl, .of_append ?_ ?_, ?_, ?_⟩
    · intro id h
      rw [hkept id]
      exact husers id h
    · rw [hrows', hrows]
    · rw [hrows']
      exact List.mem_append_right _ (List.mem_singleton_self _)
    · rw [hkept user.id]
      exact howner

/-- A browser shows a password: it gets the tokens of a new family, or is refused. -/
def Issues (cfg : CookieSettings) (draw : Draw) (s : ServerState)
    (out : Except RequestExn Served × ServerState) : Prop :=
  (∃ e db', out = (.error e, { s with auth := db' }) ∧
      Evolution s.auth db' (fun _ => False) []) ∨
    ∃ user db', out = (.ok (.tokens (authResult cfg.guards.env draw user)), { s with auth := db' }) ∧
      Evolution s.auth db' (fun _ => False)
        [newRefreshToken cfg.guards.env draw user.id draw.familyId] ∧
      newRefreshToken cfg.guards.env draw user.id draw.familyId ∈ db'.refreshTokens.rows ∧
      (db'.userOf user.id).isSome = true

theorem issues_of_run (op : AuthOp) {m : AuthProg AuthResult}
    (hprog : op.prog cfg.guards.env draw = some <$> m)
    (hrun : (∃ e, m.run authHandler s.auth = (.error e, s.auth)) ∨
      ∃ user db₁, db₁.refreshTokens = s.auth.refreshTokens ∧
        (∀ id, (s.auth.userOf id).isSome = true → (db₁.userOf id).isSome = true) ∧
        m.run authHandler s.auth =
          (issueTokens cfg.guards.env draw user).run authHandler db₁) :
    Issues cfg draw s (authServed cfg.guards.env op draw s) := by
  rw [authServed, hprog, Prog.run_map]
  rcases hrun with ⟨e, hrun⟩ | ⟨user, db₁, hrows, husers, hrun⟩
  · rw [hrun]
    exact Or.inl ⟨.service e, s.auth, rfl, .refl _⟩
  · rw [hrun]
    rcases issue_cases cfg draw user hrows husers with
      ⟨e, hissue, hevolution⟩ | ⟨db', hissue, hevolution, hrow, howner⟩
    · rw [hissue]
      exact Or.inl ⟨.service e, db₁, rfl, hevolution⟩
    · rw [hissue]
      exact Or.inr ⟨user, db', rfl, hevolution, hrow, howner⟩

/-- A new user is there, and so are the others. -/
theorem userOf_insert {db₁ : AuthDb} {user : User} (hins : db.insertUser user = some db₁)
    {id : String} (h : (db.userOf id).isSome = true) : (db₁.userOf id).isSome = true := by
  obtain ⟨u, hu⟩ := Option.isSome_iff_exists.mp h
  obtain ⟨hmem, hid⟩ := Table.select_mem hu
  refine Option.ne_none_iff_isSome.mp fun hnone => ?_
  refine AuthDb.userOf_eq_none.mp hnone u ?_ (beq_iff_eq.mp hid)
  rw [(AuthDb.insertUser_eq_some hins).2.2.1]
  exact List.mem_append_left _ hmem

/-- **A registration or a login** opens a session, or is refused. -/
theorem register_issues (email password : String) :
    Issues cfg draw s (cfg.serve jar now draw (.register email password) s) := by
  refine issues_of_run (.register email password) rfl ?_
  rcases @register_outcome cfg.guards.env draw s.auth email password with
    ⟨e, hrun⟩ | ⟨hashedPassword, db₁, -, hins, hrun⟩
  · exact Or.inl ⟨e, hrun⟩
  · exact Or.inr ⟨newUser draw email hashedPassword, db₁, (AuthDb.insertUser_eq_some hins).2.1,
      fun _ h => userOf_insert hins h, hrun⟩

theorem login_issues (email password : String) :
    Issues cfg draw s (cfg.serve jar now draw (.login email password) s) := by
  refine issues_of_run (.login email password) rfl ?_
  rcases @login_outcome cfg.guards.env draw s.auth email password with
    ⟨e, hrun⟩ | ⟨user, -, -, -, hrun⟩
  · exact Or.inl ⟨e, hrun⟩
  · exact Or.inr ⟨user, s.auth, rfl, fun _ h => h, hrun⟩

/-- All sessions of a user are closed. -/
theorem serve_logoutAll (userId : String) :
    cfg.serve jar now draw (.logoutAll userId) s =
      (.ok .loggedOut, { s with auth := s.auth.revokeUser userId draw.now }) := rfl

end Answers

/-! ## All browsers -/

/-- The browsers have the sessions, and no two of them one family. -/
structure Tracks {B : Type} (cfg : CookieSettings) (s : Browsers B) (t : Sessions B String) :
    Prop where
  now : t.now = s.now
  owners : ∀ r ∈ s.server.auth.refreshTokens.rows, (s.server.auth.userOf r.userId).isSome = true
  apart : ∀ b b', b ≠ b' → ∀ r ∈ s.server.auth.refreshTokens.rows,
    ∀ r' ∈ s.server.auth.refreshTokens.rows, Carries cfg (s.jars b) s.now r →
      Carries cfg (s.jars b') s.now r' → r.familyId ≠ r'.familyId
  browsers : ∀ b, Tracked cfg (s.jars b) s.now s.server.auth (t.opened b)

section World

variable {B : Type} [DecidableEq B] {cfg : CookieSettings} {s : Browsers B} {t t' : Sessions B String}
  {b b' : B} {draw : Draw} {db' : AuthDb} {touched : RefreshToken → Prop} {new : List RefreshToken}
  {answer : Except RequestExn Served} {out : Except RequestExn Served × ServerState}

omit [DecidableEq B] in
/-- Another browser, where only the family of this one is touched. -/
theorem Tracks.others (h : Tracks cfg s t) (hevolution : Evolution s.server.auth db' touched new)
    (hnew : ∀ n ∈ new, ∀ r ∈ s.server.auth.refreshTokens.rows, r.tokenHash ≠ n.tokenHash)
    (hown : OwnFamily cfg (s.jars b) s.now s.server.auth touched) (hne : b' ≠ b) :
    Tracked cfg (s.jars b') s.now db' (t.opened b') := by
  refine (h.browsers b').evolve hevolution hnew fun _ r hr hcarries htouched => ?_
  obtain ⟨token, hmem, hcarries', hfamily⟩ := hown r hr htouched
  exact h.apart b' b hne r hr token hmem hcarries hcarries' hfamily

/-- **An answer to one browser**, with what it does to the table. -/
theorem Tracks.receive (h : Tracks cfg s t) (hevolution : Evolution s.server.auth db' touched new)
    (hnew : ∀ n ∈ new, ∀ r ∈ s.server.auth.refreshTokens.rows, r.tokenHash ≠ n.tokenHash)
    (howner : ∀ n ∈ new, (db'.userOf n.userId).isSome = true) (hnow : t'.now = t.now)
    (hself : Tracked cfg ((s.jars b).receive s.now (cfg.cookiesOf answer)) s.now db' (t'.opened b))
    (hothers : ∀ b' ≠ b, Tracked cfg (s.jars b') s.now db' (t'.opened b'))
    (hfamily : ∀ r' ∈ db'.refreshTokens.rows,
      Carries cfg ((s.jars b).receive s.now (cfg.cookiesOf answer)) s.now r' →
        (∀ r ∈ s.server.auth.refreshTokens.rows, r.familyId ≠ r'.familyId) ∨
          ∃ r ∈ s.server.auth.refreshTokens.rows, Carries cfg (s.jars b) s.now r ∧
            r.familyId = r'.familyId) :
    Tracks cfg (s.receive cfg b (answer, { s.server with auth := db' })) t' := by
  have hcross : ∀ b' ≠ b, ∀ r ∈ db'.refreshTokens.rows, ∀ r' ∈ db'.refreshTokens.rows,
      Carries cfg ((s.jars b).receive s.now (cfg.cookiesOf answer)) s.now r →
        Carries cfg (s.jars b') s.now r' → r.familyId ≠ r'.familyId := by
    intro b' hne r hr r' hr' hcarries hcarries'
    obtain ⟨r₀', hr₀', hcarries₀', hkeys', -⟩ :=
      (h.browsers b').carried_old hevolution hnew hr' hcarries'
    rw [hkeys'.familyId]
    rcases hfamily r hr hcarries with hfresh | ⟨r₀, hr₀, hcarries₀, hsame⟩
    · exact (hfresh r₀' hr₀').symm
    · rw [← hsame]
      exact h.apart b b' hne.symm r₀ hr₀ r₀' hr₀' hcarries₀ hcarries₀'
  have hjar : ∀ b', b' ≠ b → (s.receive cfg b (answer, { s.server with auth := db' })).jars b' =
      s.jars b' := fun b' hne => if_neg hne
  have hjar' : (s.receive cfg b (answer, { s.server with auth := db' })).jars b =
      (s.jars b).receive s.now (cfg.cookiesOf answer) := if_pos rfl
  refine ⟨hnow.trans h.now, fun r' hr' => ?_, fun b₁ b₂ hne r hr r' hr' hcarries hcarries' => ?_,
    fun b' => ?_⟩
  · rcases hevolution.old r' hr' with hin | ⟨r, hr, hkeys, -⟩
    · exact howner r' hin
    · rw [hkeys.userId]
      exact hevolution.users _ (h.owners r hr)
  · by_cases h₁ : b₁ = b
    · subst h₁
      rw [hjar'] at hcarries
      rw [hjar b₂ hne.symm] at hcarries'
      exact hcross b₂ hne.symm r hr r' hr' hcarries hcarries'
    · rw [hjar b₁ h₁] at hcarries
      by_cases h₂ : b₂ = b
      · subst h₂
        rw [hjar'] at hcarries'
        exact (hcross b₁ h₁ r' hr' r hr hcarries' hcarries).symm
      · rw [hjar b₂ h₂] at hcarries'
        obtain ⟨r₀, hr₀, hcarries₀, hkeys, -⟩ :=
          (h.browsers b₁).carried_old hevolution hnew hr hcarries
        obtain ⟨r₀', hr₀', hcarries₀', hkeys', -⟩ :=
          (h.browsers b₂).carried_old hevolution hnew hr' hcarries'
        rw [hkeys.familyId, hkeys'.familyId]
        exact h.apart b₁ b₂ hne r₀ hr₀ r₀' hr₀' hcarries₀ hcarries₀'
  · by_cases hb : b' = b
    · subst hb
      rw [hjar']
      exact hself
    · rw [hjar b' hb]
      exact hothers b' hb

/-- A refused request leaves the cookies alone. -/
theorem Tracks.refused (h : Tracks cfg s t) {e : RequestExn}
    (hevolution : Evolution s.server.auth db' touched [])
    (hown : OwnFamily cfg (s.jars b) s.now s.server.auth touched)
    (hself : Tracked cfg (s.jars b) s.now db' (t'.opened b)) (hnow : t'.now = t.now)
    (hopened : ∀ b' ≠ b, t'.opened b' = t.opened b') :
    Tracks cfg (s.receive cfg b (.error e, { s.server with auth := db' })) t' := by
  refine h.receive hevolution nofun nofun hnow hself (fun b' hne => ?_) fun r' hr' hcarries => ?_
  · rw [hopened b' hne]
    exact h.others hevolution nofun hown hne
  · obtain ⟨r, hr, hcarries', hkeys, -⟩ :=
      (h.browsers b).carried_old hevolution nofun hr' hcarries
    exact Or.inr ⟨r, hr, hcarries', hkeys.familyId.symm⟩

/-- A browser whose cookies are cleared. -/
theorem Tracks.cleared (h : Tracks cfg s t) (hevolution : Evolution s.server.auth db' touched [])
    (hnow : t'.now = t.now) (hself : t'.opened b = none)
    (hothers : ∀ b' ≠ b, Tracked cfg (s.jars b') s.now db' (t'.opened b')) :
    Tracks cfg (s.receive cfg b (.ok .loggedOut, { s.server with auth := db' })) t' := by
  refine h.receive hevolution nofun nofun hnow ?_ hothers ?_
  · rw [hself]
    exact tracked_of_cleared (h.browsers b).keyed
  · rintro r' - ⟨raw, hget, -⟩
    cases get_cleared.symm.trans hget

/-- A browser that receives new tokens. -/
theorem Tracks.received (h : Tracks cfg s t) {user : User} {familyId : String}
    (husable : draw.Usable cfg.guards.env s.server.auth) (hdraw : draw.now = s.now)
    (hevolution : Evolution s.server.auth db' touched
      [newRefreshToken cfg.guards.env draw user.id familyId])
    (hrow : newRefreshToken cfg.guards.env draw user.id familyId ∈ db'.refreshTokens.rows)
    (howner : (db'.userOf user.id).isSome = true)
    (hown : OwnFamily cfg (s.jars b) s.now s.server.auth touched)
    (hfamily : (∀ r ∈ s.server.auth.refreshTokens.rows, r.familyId ≠ familyId) ∨
      ∃ r ∈ s.server.auth.refreshTokens.rows, Carries cfg (s.jars b) s.now r ∧
        r.familyId = familyId) :
    Tracks cfg (s.receive cfg b (.ok (.tokens (authResult cfg.guards.env draw user)),
        { s.server with auth := db' }))
      (t.put b (some (user.id, t.now + cfg.cookieMaxAge))) := by
  have hnew : ∀ n ∈ [newRefreshToken cfg.guards.env draw user.id familyId],
      ∀ r ∈ s.server.auth.refreshTokens.rows, r.tokenHash ≠ n.tokenHash := by
    intro n hn r hr
    rw [List.mem_singleton.mp hn]
    exact husable.fresh.rawToken r hr
  refine h.receive hevolution hnew (fun n hn => ?_) rfl ?_ (fun b' hne => ?_) fun r' hr' hcarries => ?_
  · rw [List.mem_singleton.mp hn]
    exact howner
  · have hput : (t.put b (some (user.id, t.now + cfg.cookieMaxAge))).opened b =
        some (user.id, s.now + cfg.cookieMaxAge) := by
      rw [← h.now]
      exact if_pos rfl
    rw [hput]
    exact tracked_of_received (h.browsers b).keyed hdraw husable.rawToken husable.csrfToken
      husable.ascii hrow
  · have hput : (t.put b (some (user.id, t.now + cfg.cookieMaxAge))).opened b' = t.opened b' :=
      if_neg hne
    rw [hput]
    exact h.others hevolution hnew hown hne
  · rw [eq_of_carries_received hrow hr' hcarries]
    exact hfamily

omit [DecidableEq B] in
/-- The browser has a session exactly as long as it runs. -/
theorem Tracks.running_iff (h : Tracks cfg s t) {userId : String} :
    t.user b = some userId ↔
      ∃ deadline, t.opened b = some (userId, deadline) ∧ s.now < deadline := by
  rw [user_eq_some, h.now]

omit [DecidableEq B] in
theorem Tracks.not_running (h : Tracks cfg s t) (hnone : t.user b = none) :
    ¬Running s.now (t.opened b) := by
  rintro ⟨userId, deadline, hsession, hlt⟩
  cases hnone.symm.trans (h.running_iff.mpr ⟨deadline, hsession, hlt⟩)

/-- A browser that has shown a password. -/
theorem Tracks.issues (h : Tracks cfg s t) (husable : draw.Usable cfg.guards.env s.server.auth)
    (hdraw : draw.now = s.now) (hissues : Issues cfg draw s.server out) :
    ∃ t', (system cfg.cookieMaxAge).run t (match servedUser out.1 with
        | some userId => [.opened b userId]
        | none => []) = some t' ∧ Tracks cfg (s.receive cfg b out) t' := by
  rcases hissues with ⟨e, db', rfl, hevolution⟩ | ⟨user, db', rfl, hevolution, hrow, howner⟩
  · refine ⟨t, rfl, h.refused hevolution ownFamily_false ?_ rfl fun _ _ => rfl⟩
    exact (h.browsers b).evolve hevolution nofun fun _ _ _ _ => id
  · refine ⟨_, rfl, h.received husable hdraw hevolution hrow howner ownFamily_false ?_⟩
    exact Or.inl husable.fresh.familyId

/-- A browser that refreshes. -/
theorem Tracks.refreshes (h : Tracks cfg s t) (husable : draw.Usable cfg.guards.env s.server.auth)
    (hdraw : draw.now = s.now)
    (hout : out = cfg.serve (s.jars b) s.now draw
      (.refresh (ExpiringStore.get (s.jars b) s.now cfg.csrfKey)) s.server) :
    ∃ t', (system cfg.cookieMaxAge).run t [.renewed b (servedUser out.1)] = some t' ∧
      Tracks cfg (s.receive cfg b out) t' := by
  cases huser : t.user b with
  | some userId =>
    obtain ⟨deadline, hsession, hlt⟩ := h.running_iff.mp huser
    have hopen := (h.browsers b).running userId deadline hsession hlt
    obtain ⟨r, user, db', hr, hcarries, rfl, hins, hserve⟩ :=
      refresh_of_open hopen hlt hdraw husable.fresh h.owners
    rw [hout.trans hserve]
    refine ⟨t.put b (some (user.id, t.now + cfg.cookieMaxAge)), ?_, ?_⟩
    · exact System.run_cons_eq_some.mpr ⟨_, step_renewed_some huser, rfl⟩
    · obtain ⟨-, howner, hrows, -⟩ := AuthDb.insertRefreshToken_eq_some hins
      refine h.received husable hdraw (.of_rotation hr hins) ?_ ?_ ?_ ?_
      · rw [hrows]
        exact List.mem_append_right _ (List.mem_singleton_self _)
      · exact (Evolution.of_rotation hr hins).users _ howner
      · rintro r' - rfl
        exact ⟨r', hr, hcarries, rfl⟩
      · exact Or.inr ⟨r, hr, hcarries, rfl⟩
  | none =>
    have hended := h.not_running huser
    obtain ⟨e, db', touched, hserve, hevolution, hown⟩ :=
      refresh_of_none (ExpiringStore.get (s.jars b) s.now cfg.csrfKey) hdraw
        ((h.browsers b).ended hended)
    rw [hout.trans hserve]
    refine ⟨t, ?_, h.refused hevolution hown ?_ rfl fun _ _ => rfl⟩
    · exact System.run_cons_eq_some.mpr ⟨_, step_renewed_none huser, rfl⟩
    · exact (h.browsers b).evolve hevolution nofun fun hrunning => absurd hrunning hended

/-- A browser that logs out. -/
theorem Tracks.logsOut (h : Tracks cfg s t)
    (hout : out = cfg.serve (s.jars b) s.now draw
      (.logout (ExpiringStore.get (s.jars b) s.now cfg.csrfKey)) s.server) :
    Tracks cfg (s.receive cfg b out) (t.put b none) := by
  have hput : ∀ b' ≠ b, (t.put b none).opened b' = t.opened b' := fun b' hne => if_neg hne
  have hself : (t.put b none).opened b = none := if_pos rfl
  rcases logout_cases draw (ExpiringStore.get (s.jars b) s.now cfg.csrfKey) with
    ⟨e, hserve⟩ | ⟨db', touched, hserve, hevolution, hown⟩
  · have hended : ¬Running s.now (t.opened b) := by
      rintro ⟨userId, deadline, hsession, hlt⟩
      have hopen := (h.browsers b).running userId deadline hsession hlt
      cases (congrArg Prod.fst hserve).symm.trans (logout_of_open hopen hlt)
    rw [hout.trans hserve]
    refine h.refused (.refl _) ownFamily_false ?_ rfl hput
    rw [hself]
    exact (h.browsers b).close (.refl _) nofun fun hrunning => absurd hrunning hended
  · rw [hout.trans hserve]
    refine h.cleared hevolution rfl hself fun b' hne => ?_
    rw [hput b' hne]
    exact h.others hevolution nofun hown hne

/-- All sessions of a user are closed, by way of a browser. -/
theorem Tracks.logsOutAll (h : Tracks cfg s t) (userId : String) (now : Time) :
    Tracks cfg (s.receive cfg b
        (.ok .loggedOut, { s.server with auth := s.server.auth.revokeUser userId now }))
      { t with opened := fun b' =>
        if b' = b ∨ (t.opened b').map Prod.fst = some userId then none else t.opened b' } := by
  have hevolution : Evolution s.server.auth (s.server.auth.revokeUser userId now)
      (fun r => (r.userId == userId) = true) [] := .of_revokeWhere rfl rfl
  refine h.cleared hevolution rfl (if_pos (Or.inl rfl)) fun b' hne => ?_
  have hrow : ∀ userId' deadline, t.opened b' = some (userId', deadline) → s.now < deadline →
      ∀ r ∈ s.server.auth.refreshTokens.rows, Carries cfg (s.jars b') s.now r →
        r.userId = userId' := by
    intro userId' deadline hsession hlt r hr hcarries
    obtain ⟨⟨raw, -, hget, r₀, hr₀, hhash, -, -, huser⟩, -⟩ :=
      (h.browsers b').running userId' deadline hsession hlt
    rw [hcarries.eq ⟨raw, hget s.now le_rfl hlt.le, hhash⟩ hr hr₀, huser]
  dsimp only
  by_cases hsame : (t.opened b').map Prod.fst = some userId
  · rw [if_pos (Or.inr hsame)]
    refine (h.browsers b').close hevolution nofun ?_
    rintro ⟨userId', deadline, hsession, hlt⟩ r hr hcarries
    rw [hsession] at hsame
    rw [beq_iff_eq, hrow userId' deadline hsession hlt r hr hcarries]
    exact Option.some.inj hsame
  · rw [if_neg (not_or.mpr ⟨hne, hsame⟩)]
    refine (h.browsers b').evolve hevolution nofun ?_
    rintro ⟨userId', deadline, hsession, hlt⟩ r hr hcarries htouched
    rw [hsession] at hsame
    rw [beq_iff_eq, hrow userId' deadline hsession hlt r hr hcarries] at htouched
    exact hsame (congrArg some htouched)

/-- **Simulation**: a move of the browsers is what it is for the sessions. -/
theorem Tracks.step (h : Tracks cfg s t) {l : BrowserMove B} {s' : Browsers B}
    (husable : DrawsUsable cfg s l s') (hstep : (browserSystem B cfg).step s l = some s') :
    ∃ t', (system cfg.cookieMaxAge).run t (s.events cfg l s') = some t' ∧ Tracks cfg s' t' := by
  cases l with
  | pass seconds =>
    obtain rfl := Option.some.inj hstep
    refine ⟨{ t with now := t.now + seconds }, rfl, congrArg (· + seconds) h.now, h.owners, ?_,
      fun b => (h.browsers b).pass seconds⟩
    intro b b' hne r hr r' hr' hcarries hcarries'
    exact h.apart b b' hne r hr r' hr' ((h.browsers b).earlier hcarries)
      ((h.browsers b').earlier hcarries')
  | send b request draw =>
    change (if draw.now = (s.now : ℤ) then some _ else none) = _ at hstep
    split at hstep
    swap
    · cases hstep
    next hdraw =>
    obtain rfl := Option.some.inj hstep
    cases request with
    | register email password => exact h.issues husable hdraw (register_issues email password)
    | login email password => exact h.issues husable hdraw (login_issues email password)
    | refresh csrfHeader =>
      by_cases hecho : csrfHeader = ExpiringStore.get (s.jars b) s.now cfg.csrfKey
      · subst hecho
        rw [Browsers.events, if_pos rfl]
        exact h.refreshes husable hdraw rfl
      · obtain ⟨⟨e, hserve⟩, -⟩ := refused_of_header draw s.server hecho
        rw [Browsers.events, if_neg hecho, hserve]
        exact ⟨t, rfl, h.refused (.refl _) ownFamily_false (h.browsers b) rfl fun _ _ => rfl⟩
    | logout csrfHeader =>
      by_cases hecho : csrfHeader = ExpiringStore.get (s.jars b) s.now cfg.csrfKey
      · subst hecho
        rw [Browsers.events, if_pos rfl]
        exact ⟨_, rfl, h.logsOut rfl⟩
      · obtain ⟨-, e, hserve⟩ := refused_of_header draw s.server hecho
        rw [Browsers.events, if_neg hecho, hserve]
        exact ⟨t, rfl, h.refused (.refl _) ownFamily_false (h.browsers b) rfl fun _ _ => rfl⟩
    | logoutAll userId => exact ⟨_, rfl, h.logsOutAll userId draw.now⟩

end World

section Runs

variable {B : Type} [DecidableEq B] {cfg : CookieSettings} {s₀ s : Browsers B} {t : Sessions B String}
  {moves : List (BrowserMove B)} {b : B} {draw : Draw}

/-- What browsers without cookies do is done to sessions. -/
theorem tracks_of_run (hempty : ∀ b, s₀.jars b = [])
    (howners : ∀ r ∈ s₀.server.auth.refreshTokens.rows,
      (s₀.server.auth.userOf r.userId).isSome = true)
    (husable : (browserSystem B cfg).Steps (DrawsUsable cfg) s₀ moves)
    (hrun : (browserSystem B cfg).run s₀ moves = some s) :
    ∃ t, (system cfg.cookieMaxAge).run ⟨fun _ => none, s₀.now⟩
        ((browserSystem B cfg).collect (Browsers.events cfg) s₀ moves) = some t ∧
      Tracks cfg s t := by
  have hstart : Tracks cfg s₀ ⟨fun _ => none, s₀.now⟩ := by
    have hget : ∀ b, ExpiringStore.get (s₀.jars b) s₀.now cfg.refreshKey = none := by
      intro b
      rw [hempty b]
      rfl
    refine ⟨rfl, howners, ?_, fun b => tracked_of_none ?_ (hget b)⟩
    · rintro b - - r - r' - ⟨raw, hraw, -⟩
      cases (hget b).symm.trans hraw
    · rw [hempty b]
      exact .nil
  have hstep : ∀ (s : Browsers B) (t : Sessions B String) (l : BrowserMove B) (s' : Browsers B),
      Tracks cfg s t → DrawsUsable cfg s l s' → (browserSystem B cfg).step s l = some s' →
      ∃ t', (system cfg.cookieMaxAge).run t (s.events cfg l s') = some t' ∧ Tracks cfg s' t' :=
    fun _ _ _ _ h hguard hstep => h.step hguard hstep
  exact System.run_translate_steps hstep hstart husable hrun

/-- A page that refreshes gets tokens exactly where its browser has a session. -/
theorem Tracks.answer (h : Tracks cfg s t) (hdraw : draw.now = s.now)
    (husable : draw.Usable cfg.guards.env s.server.auth) :
    servedUser (cfg.serve (s.jars b) s.now draw
      (.refresh (ExpiringStore.get (s.jars b) s.now cfg.csrfKey)) s.server).1 = t.user b := by
  obtain ⟨t', hrenewed, -⟩ := h.refreshes husable hdraw rfl
  obtain ⟨t₁, hstep, -⟩ := System.run_cons_eq_some.mp hrenewed
  exact answer_of_renewed hstep

end Runs

/-- Cookies for a day. -/
def sampleCookies : CookieSettings where
  guards := ⟨{ sampleEnv with refreshTokenLifetime := 86400 }, "admin"⟩
  refreshTokenExpireDays := 1
  refreshCookieName := "refresh_token"
  csrfCookieName := "refresh_csrf"
  environment := "prod"
  lifetime := rfl
  names := by decide

/-- Two browsers without cookies, and no users. -/
def sampleBrowsers : Browsers Bool where
  server := ⟨.empty foldCase, .init⟩
  jars _ := []
  now := 0

/-- A user registers with one browser and logs in with the other. The page of the first refreshes,
and is then forged by a site that does not know its CSRF token. -/
def sampleBrowserMoves : List (BrowserMove Bool) :=
  [.send true (.register "a@example.com" "password-1") (sampleDraw "1" 0), .pass 10,
    .send false (.login "a@example.com" "password-1") (sampleDraw "2" 10), .pass 80000,
    .send true (.refresh (some "csrf-1")) (sampleDraw "3" 80010),
    .send true (.refresh (some "csrf-1")) (sampleDraw "4" 80010), .pass 7000]

/-- The browsers afterwards. -/
def sampleBrowsersLater : Browsers Bool :=
  ((browserSystem Bool sampleCookies).run sampleBrowsers sampleBrowserMoves).get (by decide)

end ParcelDelivery
