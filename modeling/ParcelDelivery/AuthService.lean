import ParcelDelivery.AuthStore

/-!
# `AuthService`

`app/services/auth.py`, method by method, as programs over the credential
store. A method takes the values that its clock and its random sources return
during the call as a `Draw`; the hash functions, the JWT encoder and the settings
it uses are the fields of `AuthEnv`.
-/

namespace ParcelDelivery

open Relational Process AuthProg

/-- `DEFAULT_USER_ROLE`. -/
def defaultUserRole : String := "user"

/-- `DEFAULT_USER_SCOPES`. -/
def defaultUserScopes : List String := ["parcels:read", "parcels:write"]

/-- The functions of `app/core/security.py` and the setting that `AuthService` uses. -/
structure AuthEnv : Type where
  /-- `hash_token`: SHA-256 in hexadecimal -/
  hashToken : String → String
  /-- `hash_password`: bcrypt under a salt; it refuses some passwords with `ValueError` -/
  hashPassword : String → String → Except Exn String
  /-- `verify_password` -/
  verifyPassword : String → String → Except Exn Bool
  /-- `create_access_token` for a subject, a role and scopes at an instant -/
  createAccessToken : String → String → List String → Time → String
  /-- `timedelta(days=settings.JWT_REFRESH_TOKEN_EXPIRE_DAYS)` -/
  refreshTokenLifetime : Time

/-- What the clock, `uuid4`, `token_urlsafe` and `gensalt` return during one call. -/
structure Draw : Type where
  /-- `_now()` -/
  now : Time
  /-- the raw refresh token of `create_refresh_token` -/
  rawToken : String
  /-- the JTI of `create_refresh_token` -/
  jti : String
  /-- `create_csrf_token` -/
  csrfToken : String
  /-- the `family_id` of `_issue_tokens` -/
  familyId : String
  /-- the default of `User.id` -/
  userId : String
  /-- the salt of `hash_password` -/
  salt : String
  deriving DecidableEq, Repr

/-- Tokens returned after login, registration, or refresh rotation. -/
structure AuthResult : Type where
  user : User
  accessToken : String
  refreshToken : String
  csrfToken : String
  deriving DecidableEq, Repr

namespace AuthService

variable (env : AuthEnv) (draw : Draw)

/-- `_create_user_access_token`; `user.role or DEFAULT_USER_ROLE`. -/
def createUserAccessToken (user : User) : String :=
  env.createAccessToken user.id (if user.role = "" then defaultUserRole else user.role)
    defaultUserScopes draw.now

/-- `_refresh_expires_at`. -/
def refreshExpiresAt (now : Time) : Time := now + env.refreshTokenLifetime

/-- The row that a rotation or a login adds for the drawn token. -/
def newRefreshToken (userId familyId : String) : RefreshToken where
  jti := draw.jti
  userId := userId
  tokenHash := env.hashToken draw.rawToken
  familyId := familyId
  expiresAt := refreshExpiresAt env draw.now
  revokedAt := none
  replacedByJti := none
  createdAt := draw.now

/-- The credentials returned with the drawn tokens. -/
def authResult (user : User) : AuthResult where
  user := user
  accessToken := createUserAccessToken env draw user
  refreshToken := draw.rawToken
  csrfToken := draw.csrfToken

/-- `_get_refresh_token`. -/
def getRefreshToken (rawRefreshToken : String) : AuthProg RefreshToken := do
  match ← selectRefreshToken (env.hashToken rawRefreshToken) with
  | none => .throw (.unauthorizedError "Invalid refresh token")
  | some token => return token

/-- `_issue_tokens`: a new token family for the user. -/
def issueTokens (user : User) : AuthProg AuthResult := do
  commit [.insertRefreshToken (newRefreshToken env draw user.id draw.familyId)]
  return authResult env draw user

/-- `register`. -/
def register (email password : String) : AuthProg AuthResult := do
  match ← selectUserByEmail email with
  | some _ => .throw (.businessError "Email already registered")
  | none =>
    match env.hashPassword password draw.salt with
    | .error e => .throw e
    | .ok hashedPassword =>
      let user : User :=
        { id := draw.userId, email, hashedPassword, role := "user", createdAt := draw.now }
      commit [.insertUser user]
      let user ← refreshUser user.id
      issueTokens env draw user

/-- `login`; the password is only verified when the user exists. -/
def login (email password : String) : AuthProg AuthResult := do
  match ← selectUserByEmail email with
  | none => .throw (.unauthorizedError "Invalid email or password")
  | some user =>
    match env.verifyPassword password user.hashedPassword with
    | .error e => .throw e
    | .ok false => .throw (.unauthorizedError "Invalid email or password")
    | .ok true => issueTokens env draw user

/-- `refresh`: rotate a valid refresh token. The branches that refuse a known
token commit a revocation before they raise. -/
def refresh (rawRefreshToken : String) : AuthProg AuthResult := do
  let token ← getRefreshToken env rawRefreshToken
  if token.revokedAt.isSome then
    commit [.revokeFamily token.familyId draw.now]
    .throw (.unauthorizedError "Invalid refresh token")
  else if token.expiresAt ≤ draw.now then
    commit [.updateRefreshToken token.jti (some draw.now) none]
    .throw (.unauthorizedError "Invalid refresh token")
  else
    match ← selectUserById token.userId with
    | none =>
      commit [.updateRefreshToken token.jti (some draw.now) none]
      .throw (.unauthorizedError "Invalid refresh token")
    | some user =>
      commit
        [.updateRefreshToken token.jti (some draw.now) (some draw.jti),
          .insertRefreshToken (newRefreshToken env draw user.id token.familyId)]
      return authResult env draw user

/-- `logout`: only an unrevoked row is touched. -/
def logout (rawRefreshToken : String) : AuthProg Unit := do
  let token ← getRefreshToken env rawRefreshToken
  if token.revokedAt.isNone then
    commit [.updateRefreshToken token.jti (some draw.now) none]
  else
    return ()

/-- `logout_all`. -/
def logoutAll (userId : String) : AuthProg Unit :=
  commit [.revokeUser userId draw.now]

end AuthService

end ParcelDelivery
