import ParcelDelivery.Core
import ParcelDelivery.Uuid

/-!
# Who is calling

The two ways in which a parcel route finds the owner id of its caller: the session id
of `assign_session_id` (`app/middlewares/session.py`), or the subject of the
access token (`decode_token` of `app/core/security.py` and `app/api/deps.py`).
-/

namespace ParcelDelivery

/-! ## The session -/

/-- `request.headers.get(…)` of a header. -/
abbrev HeaderValue : Type := Option String

/-- `assign_session_id`: the header when it is the text of a UUID, as it stands; a fresh
`uuid4` otherwise. -/
def assignSessionId (header : HeaderValue) (uuid4 : String) : String :=
  match header with
  | none => uuid4
  | some session =>
    if session = "" then uuid4
    else if (uuidValue session).isSome then session
    else uuid4

/-- The middleware keeps this header value. -/
def keepsSession (session : String) : Bool := session != "" && (uuidValue session).isSome

theorem assignSessionId_some (session uuid4 : String) :
    assignSessionId (some session) uuid4 = if keepsSession session then session else uuid4 := by
  rw [assignSessionId, keepsSession]
  by_cases hempty : session = ""
  · subst hempty
    rfl
  · rw [if_neg hempty, bne_iff_ne.mpr hempty, Bool.true_and]

/-- **A session id is never empty**, so that it is not the sentinel of the other mode. -/
theorem assignSessionId_ne_empty {header : HeaderValue} {uuid4 : String} (h : uuid4 ≠ "") :
    assignSessionId header uuid4 ≠ "" := by
  cases header with
  | none => exact h
  | some session =>
    rw [assignSessionId_some]
    split
    · next hkeeps =>
      rw [keepsSession, Bool.and_eq_true, bne_iff_ne] at hkeeps
      exact hkeeps.1
    · exact h

/-! ## The access token -/

/-- A claim of a token, as far as its type matters. -/
inductive ClaimValue : Type where
  | text (s : String)
  | other
  deriving DecidableEq, Repr

/-- The payload of a token whose signature, algorithm, issuer and audience are right. -/
structure TokenPayload : Type where
  claims : List (String × ClaimValue)
  exp : Option ℕ
  nbf : Option ℕ
  iat : Option ℕ
  deriving DecidableEq, Repr

/-- `TokenClaims`. -/
structure TokenClaims : Type where
  sub : String
  jti : String
  iss : String
  aud : String
  role : String
  scopes : List String
  deriving DecidableEq, Repr

namespace TokenPayload

/-- The instants that PyJWT checks. -/
def validAt (payload : TokenPayload) (now : ℕ) : Bool :=
  payload.exp.all (fun exp => now < exp) && payload.nbf.all (fun nbf => nbf ≤ now) &&
    payload.iat.all (fun iat => iat ≤ now)

/-- A claim that has to be a `str`. -/
def text (payload : TokenPayload) (name : String) : Option String :=
  match payload.claims.lookup name with
  | some (.text s) => some s
  | _ => none

/-- `payload.get("scope", "")`. -/
def scope (payload : TokenPayload) : Option String :=
  match payload.claims.lookup "scope" with
  | some (.text s) => some s
  | some .other => none
  | none => some ""

end TokenPayload

/-- `str.isspace` of a character. -/
def isWhitespace (c : Char) : Bool :=
  (9 ≤ c.toNat && c.toNat ≤ 13) || (28 ≤ c.toNat && c.toNat ≤ 32) || c.toNat == 133 ||
    c.toNat == 160 || c.toNat == 5760 || (8192 ≤ c.toNat && c.toNat ≤ 8202) ||
    c.toNat == 8232 || c.toNat == 8233 || c.toNat == 8239 || c.toNat == 8287 || c.toNat == 12288

/-- `str.split()`. -/
def splitWords (s : String) : List String :=
  ((s.toList.splitOnP isWhitespace).filter fun cs => cs != []).map String.ofList

/-- `decode_token`; `jwtPayload` is `jwt.decode` without the instants. -/
def decodeToken (jwtPayload : String → Option TokenPayload) (now : ℕ) (token : String)
    (requiredScopes : List String) : Option TokenClaims := do
  let payload ← (jwtPayload token).filter fun payload => payload.validAt now
  let sub ← payload.text "sub"
  let jti ← payload.text "jti"
  let iss ← payload.text "iss"
  let aud ← payload.text "aud"
  let role ← payload.text "role"
  let scopes := splitWords (← payload.scope)
  if requiredScopes.all fun scope => scopes.contains scope then
    some { sub, jti, iss, aud, role, scopes }
  else none

/-- **The subject is part of the token**: whenever a token is accepted, for whatever, its
subject is the same. -/
theorem sub_of_decodeToken {jwtPayload : String → Option TokenPayload} {now : ℕ}
    {token : String} {requiredScopes : List String} {claims : TokenClaims}
    (h : decodeToken jwtPayload now token requiredScopes = some claims) :
    ((jwtPayload token).bind fun payload => payload.text "sub") = some claims.sub := by
  obtain ⟨payload, hpayload, h⟩ := Option.bind_eq_some_iff.mp h
  obtain ⟨sub, hsub, h⟩ := Option.bind_eq_some_iff.mp h
  obtain ⟨jti, -, h⟩ := Option.bind_eq_some_iff.mp h
  obtain ⟨iss, -, h⟩ := Option.bind_eq_some_iff.mp h
  obtain ⟨aud, -, h⟩ := Option.bind_eq_some_iff.mp h
  obtain ⟨role, -, h⟩ := Option.bind_eq_some_iff.mp h
  obtain ⟨scope, -, h⟩ := Option.bind_eq_some_iff.mp h
  rw [(Option.filter_eq_some_iff.mp hpayload).1, Option.bind_some, hsub]
  dsimp only at h
  split at h
  · rw [← Option.some.inj h]
  · cases h

end ParcelDelivery
