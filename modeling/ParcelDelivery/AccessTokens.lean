import ParcelDelivery.CallerIdentity
import Mathlib.Algebra.Order.Group.Nat

/-!
# Access tokens

`create_access_token` of `app/core/security.py` and what `decode_token` makes of its token. The
scopes travel as one string, joined with spaces and split at whitespace. The library encodes the
payload, with its instants floored to seconds, and checks the instants when it decodes.
-/

namespace ParcelDelivery

/-! ## Words -/

/-- A scope that survives the trip: not empty, and without whitespace. -/
def IsWord (s : String) : Prop := s ≠ "" ∧ ∀ c ∈ s.toList, isWhitespace c = false

instance : DecidablePred IsWord := fun s =>
  decidable_of_iff (s ≠ "" ∧ (s.toList.all fun c => !isWhitespace c) = true) (by simp [IsWord])

/-- Words that are joined with spaces are the pieces at the whitespace. -/
theorem splitOnP_joined (word : String) (words : List String)
    (h : ∀ w ∈ word :: words, IsWord w) :
    (" ".intercalate (word :: words)).toList.splitOnP isWhitespace =
      (word :: words).map String.toList := by
  induction words generalizing word with
  | nil =>
    simp only [String.intercalate_singleton, List.map_cons, List.map_nil]
    exact List.splitOnP_eq_singleton (h word List.mem_cons_self).2
  | cons next words ih =>
    have hjoin : (" ".intercalate (word :: next :: words)).toList =
        word.toList ++ ' ' :: (" ".intercalate (next :: words)).toList := by
      simp [String.intercalate_cons_cons]
    have hspace : isWhitespace ' ' = true := by decide
    rw [hjoin, List.splitOnP_append_cons_of_forall_mem (h word List.mem_cons_self).2 _ hspace,
      ih next fun w hw => h w (List.mem_cons_of_mem _ hw)]
    rfl

/-- **Splitting undoes joining**: the words come back, in their order and as often. -/
theorem splitWords_join {words : List String} (h : ∀ w ∈ words, IsWord w) :
    splitWords (" ".intercalate words) = words := by
  cases words with
  | nil => rfl
  | cons word words =>
    have hnonempty : ∀ cs ∈ (word :: words).map String.toList, (cs != []) = true := by
      intro cs hcs
      obtain ⟨w, hw, rfl⟩ := List.mem_map.mp hcs
      simpa [String.toList_eq_nil_iff] using (h w hw).1
    rw [splitWords, splitOnP_joined word words h, List.filter_eq_self.mpr hnonempty, List.map_map]
    simp [Function.comp_def]

/-! ## `create_access_token` -/

/-- Instants of the clock, in microseconds since the epoch. -/
abbrev Microseconds : Type := ℕ

/-- The second in which an instant lies. -/
def seconds (t : Microseconds) : ℕ := t / 10 ^ 6

/-- The settings of the token functions. -/
structure JwtSettings : Type where
  /-- `JWT_ISSUER` -/
  issuer : String
  /-- `JWT_AUDIENCE` -/
  audience : String
  /-- `JWT_ACCESS_TOKEN_EXPIRE_MIN` -/
  accessTokenExpireMin : ℕ
  deriving DecidableEq, Repr

/-- `jwt.encode`, and `jwt.decode` without the instants, under one key, algorithm, issuer and
audience. -/
structure JwtCodec : Type where
  encode : TokenPayload → String
  decode : String → Option TokenPayload

section Tokens

variable (jwt : JwtCodec) (cfg : JwtSettings) (subject role : String) (scopes : List String)
  (now : Microseconds) (jti : String)

/-- The payload of `create_access_token`. Datetimes are stored as whole seconds. -/
def accessTokenPayload : TokenPayload where
  claims := [("sub", .text subject), ("jti", .text jti), ("iss", .text cfg.issuer),
    ("aud", .text cfg.audience), ("role", .text role), ("scope", .text (" ".intercalate scopes))]
  exp := some (seconds (now + cfg.accessTokenExpireMin * 60 * 10 ^ 6))
  nbf := some (seconds now)
  iat := some (seconds now)

/-- `create_access_token` at an instant, with the `uuid4` of its JTI. -/
def createAccessToken : String := jwt.encode (accessTokenPayload cfg subject role scopes now jti)

/-- `decode_token` at an instant. -/
def decodeTokenAt (t : Microseconds) (token : String) (requiredScopes : List String) :
    Option TokenClaims :=
  decodeToken jwt.decode (seconds t) token requiredScopes

/-- The library decodes what it has encoded. -/
def JwtRoundTrip : Prop :=
  jwt.decode (createAccessToken jwt cfg subject role scopes now jti) =
    some (accessTokenPayload cfg subject role scopes now jti)

end Tokens

/-! ## `decode_token` -/

section Decode

variable {jwt : JwtCodec} {cfg : JwtSettings} {subject role jti : String} {scopes : List String}
  {now t : Microseconds}

/-- A whole second is over at an instant exactly when it is in the instant's second. -/
theorem seconds_lt_iff {n : ℕ} : seconds t < n ↔ t < n * 10 ^ 6 :=
  Nat.div_lt_iff_lt_mul (by decide)

theorem le_seconds_iff {n : ℕ} : n ≤ seconds t ↔ n * 10 ^ 6 ≤ t :=
  Nat.le_div_iff_mul_le (by decide)

/-- **The checks with fractions of a second**: comparing the seconds is comparing the instants. -/
theorem validAt_seconds_iff {payload : TokenPayload} : payload.validAt (seconds t) = true ↔
    (∀ exp ∈ payload.exp, t < exp * 10 ^ 6) ∧ (∀ nbf ∈ payload.nbf, nbf * 10 ^ 6 ≤ t) ∧
      ∀ iat ∈ payload.iat, iat * 10 ^ 6 ≤ t := by
  simp [TokenPayload.validAt, Option.all_eq_true, seconds_lt_iff, le_seconds_iff, and_assoc]

/-- The second at which a token expires. -/
theorem exp_eq : seconds (now + cfg.accessTokenExpireMin * 60 * 10 ^ 6) =
    seconds now + cfg.accessTokenExpireMin * 60 := by
  rw [seconds, Nat.add_mul_div_right _ _ (by decide)]
  rfl

/-- When the payload of a new token is valid. -/
theorem valid_payload_iff : (accessTokenPayload cfg subject role scopes now jti).validAt
      (seconds t) = true ↔
    t < (seconds now + cfg.accessTokenExpireMin * 60) * 10 ^ 6 ∧ seconds now * 10 ^ 6 ≤ t := by
  simp only [validAt_seconds_iff, accessTokenPayload, exp_eq, Option.mem_def, Option.some.injEq,
    forall_eq', and_self]

/-- What `decode_token` makes of a valid payload of `create_access_token`. -/
theorem decodeToken_of_valid (hscopes : ∀ scope ∈ scopes, IsWord scope)
    (hjwt : JwtRoundTrip jwt cfg subject role scopes now jti)
    (hvalid : (accessTokenPayload cfg subject role scopes now jti).validAt (seconds t) = true)
    (requiredScopes : List String) :
    decodeTokenAt jwt t (createAccessToken jwt cfg subject role scopes now jti) requiredScopes =
      if ∀ scope ∈ requiredScopes, scope ∈ scopes then
        some { sub := subject, jti, iss := cfg.issuer, aud := cfg.audience, role, scopes }
      else none := by
  have hpayload : (jwt.decode (createAccessToken jwt cfg subject role scopes now jti)).filter
      (fun payload => payload.validAt (seconds t)) =
        some (accessTokenPayload cfg subject role scopes now jti) := by
    rw [hjwt, Option.filter_some, if_pos hvalid]
  rw [decodeTokenAt, decodeToken, hpayload]
  change (if (requiredScopes.all fun scope =>
    (splitWords (" ".intercalate scopes)).contains scope) = true then _ else _) = _
  rw [splitWords_join hscopes]
  simp only [List.all_eq_true, List.contains_iff_mem]

/-- A token outside its time is refused, whatever is required. -/
theorem decodeToken_of_invalid (hjwt : JwtRoundTrip jwt cfg subject role scopes now jti)
    (hvalid : ¬ (accessTokenPayload cfg subject role scopes now jti).validAt (seconds t) = true)
    (requiredScopes : List String) :
    decodeTokenAt jwt t (createAccessToken jwt cfg subject role scopes now jti) requiredScopes =
      none := by
  rw [decodeTokenAt, decodeToken, hjwt, Option.filter_some, if_neg hvalid]
  rfl

end Decode

/-- A codec that knows one token. -/
def sampleJwt (payload : TokenPayload) : JwtCodec where
  encode _ := "token-1"
  decode token := if token = "token-1" then some payload else none

/-- The defaults of the settings. -/
def sampleJwtSettings : JwtSettings := ⟨"parcel-delivery-api", "parcel-delivery-clients", 15⟩

end ParcelDelivery
