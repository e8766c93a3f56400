import ParcelDelivery.AuthRuns
import Mathlib

/-!
# Passwords from registration to login

The payloads of `app/schemas/auth.py` and what becomes of a registered password. The schema
counts characters, bcrypt counts bytes, and `login` has no bound at all: a password of more
than 72 bytes is refused by the hash with an exception that no handler names, so
that the round trip of a password needs both passwords to be short
(`credential_round_trip_iff`).

A registered user stays in the table whatever the service does afterwards
(`users_persist`), so that `login` is told in any later state.
-/

namespace ParcelDelivery

open Relational Process TransitionSystem AuthService

/-! ## Payloads -/

/-- One entry of a validation error: the field and the message. -/
structure FieldError : Type where
  loc : List String
  msg : String
  deriving DecidableEq, Repr

/-- `UserRegister`: the email is the one that `EmailStr` returns. -/
structure UserRegister : Type where
  email : String
  password : String
  /-- `min_length=8, max_length=128`, in characters -/
  bounds : 8 ≤ password.length ∧ password.length ≤ 128

/-- `UserLogin`. -/
structure UserLogin : Type where
  email : String
  password : String

/-- `EmailStr`: the normalized address, or why it is none. -/
abbrev EmailStr : Type := String → Except String String

/-- The entries of an `email` field. -/
def emailErrors (emailStr : EmailStr) (email : String) : List FieldError :=
  match emailStr email with
  | .ok _ => []
  | .error reason => [⟨["email"], "value is not a valid email address: " ++ reason⟩]

/-- The entries of the `password` field of `UserRegister`. -/
def passwordErrors (password : String) : List FieldError :=
  if password.length < 8 then [⟨["password"], "String should have at least 8 characters"⟩]
  else if 128 < password.length then
    [⟨["password"], "String should have at most 128 characters"⟩]
  else []

/-- Validation of a registration: every field is checked. -/
def UserRegister.validate (emailStr : EmailStr) (email password : String) :
    Except (List FieldError) UserRegister :=
  if hbounds : 8 ≤ password.length ∧ password.length ≤ 128 then
    match emailStr email with
    | .ok email => .ok ⟨email, password, hbounds⟩
    | .error _ => .error (emailErrors emailStr email)
  else .error (emailErrors emailStr email ++ passwordErrors password)

/-- Validation of a login. -/
def UserLogin.validate (emailStr : EmailStr) (email password : String) :
    Except (List FieldError) UserLogin :=
  match emailStr email with
  | .ok email => .ok ⟨email, password⟩
  | .error _ => .error (emailErrors emailStr email)

/-- What `UserRegister` accepts. -/
theorem UserRegister.validate_eq_ok {emailStr : EmailStr} {email password : String}
    {body : UserRegister} : UserRegister.validate emailStr email password = .ok body ↔
      emailStr email = .ok body.email ∧ body.password = password := by
  rw [UserRegister.validate]
  refine ⟨?_, ?_⟩
  · intro h
    split at h
    · split at h
      · rename_i address hemail
        obtain rfl := Except.ok.inj h
        exact ⟨hemail, rfl⟩
      · cases h
    · cases h
  · rintro ⟨hemail, rfl⟩
    rw [dif_pos body.bounds, hemail]

/-- A refused registration names a field. -/
theorem UserRegister.errors_ne_nil {emailStr : EmailStr} {email password : String}
    {errors : List FieldError}
    (h : UserRegister.validate emailStr email password = .error errors) : errors ≠ [] := by
  rw [UserRegister.validate] at h
  split at h
  · split at h
    · cases h
    · rename_i reason hemail
      obtain rfl := Except.error.inj h
      rw [emailErrors, hemail]
      exact List.cons_ne_nil _ _
  · rename_i hbounds
    obtain rfl := Except.error.inj h
    refine List.append_ne_nil_of_right_ne_nil _ ?_
    rw [passwordErrors]
    split_ifs with hshort hlong
    · exact List.cons_ne_nil _ _
    · exact List.cons_ne_nil _ _
    · exact absurd ⟨Nat.le_of_not_lt hshort, Nat.le_of_not_lt hlong⟩ hbounds

/-! ## The hash -/

/-- The password's size for bcrypt: `len(password.encode())`. -/
def utf8Size (password : String) : ℕ := password.toUTF8.size

/-- bcrypt: more than 72 bytes are refused; otherwise a hash verifies the bytes that it was made
of, and no others. -/
structure Bcrypt (env : AuthEnv) : Prop where
  hash_short : ∀ password salt, utf8Size password ≤ 72 →
    ∃ hashedPassword, env.hashPassword password salt = .ok hashedPassword
  hash_long : ∀ password salt, 72 < utf8Size password →
    env.hashPassword password salt = .error .valueError
  verify_short : ∀ password salt hashedPassword plain,
    env.hashPassword password salt = .ok hashedPassword → utf8Size plain ≤ 72 →
      env.verifyPassword plain hashedPassword = .ok (decide (plain.toUTF8 = password.toUTF8))
  verify_long : ∀ password salt hashedPassword plain,
    env.hashPassword password salt = .ok hashedPassword → 72 < utf8Size plain →
      env.verifyPassword plain hashedPassword = .error .valueError

theorem utf8_eq_iff {s t : String} : s.toUTF8 = t.toUTF8 ↔ s = t := by
  simp only [String.toUTF8_eq_toByteArray, String.toByteArray_inj]

/-! ## Users stay -/

section Persistence

variable {db db' : AuthDb} {user : User}

/-- No statement removes a user. -/
theorem AuthDb.mem_users_of_write {statement : AuthWrite} (hmem : user ∈ db.users.rows)
    (h : db.write statement = some db') : user ∈ db'.users.rows := by
  cases statement with
  | insertUser new =>
    rw [(AuthDb.insertUser_eq_some h).2.2.1]
    exact List.mem_append_left _ hmem
  | insertRefreshToken token =>
    obtain ⟨husers, -⟩ := AuthDb.insertRefreshToken_eq_some h
    rw [husers]
    exact hmem
  | updateRefreshToken _ _ _ | revokeFamily _ _ | revokeUser _ _ =>
    obtain rfl := Option.some.inj h
    exact hmem

theorem AuthDb.mem_users_of_commit {writes : List AuthWrite} (hmem : user ∈ db.users.rows)
    (h : db.commit writes = some db') : user ∈ db'.users.rows := by
  induction writes generalizing db with
  | nil =>
    obtain rfl := Option.some.inj h
    exact hmem
  | cons statement writes ih =>
    rw [AuthDb.commit, List.foldlM_cons] at h
    obtain ⟨db₁, hwrite, hrest⟩ := Option.bind_eq_some_iff.mp h
    exact ih (AuthDb.mem_users_of_write hmem hwrite) hrest

/-- **Step**: no database call removes a user. -/
theorem mem_users_of_handler (c : AuthCmd) (hmem : user ∈ db.users.rows) :
    user ∈ (authHandler c db).2.users.rows := by
  cases c with
  | selectUserByEmail _ | selectUserById _ | selectRefreshToken _ => exact hmem
  | commit writes =>
    rw [authHandler]
    split
    · rename_i db' hcommit
      exact AuthDb.mem_users_of_commit hmem hcommit
    · exact hmem
  | refreshUser id =>
    rw [authHandler]
    split
    · exact hmem
    · exact hmem

/-- **Run**: operations interleaved in any way remove no user. -/
theorem users_persist {ι α : Type} [DecidableEq ι] {p p' : Pool ι AuthDb AuthCmd AuthCmd.Answer Exn α}
    {schedule : List ι} (hmem : user ∈ p.store.users.rows)
    (hrun : (Pool.system authHandler).run p schedule = some p') : user ∈ p'.store.users.rows := by
  refine System.run_preserves
    (I := fun p : Pool ι AuthDb AuthCmd AuthCmd.Answer Exn α => user ∈ p.store.users.rows)
    ?_ hmem hrun
  intro p i p' hmem hstep
  obtain ⟨c, k, -, rfl⟩ := Pool.step_eq_some hstep
  rw [Pool.issue_store]
  exact mem_users_of_handler c hmem

end Persistence

/-! ## One registration, one login -/

section Calls

variable {env : AuthEnv} {draw draw' : Draw} {db : AuthDb} {email plain : String}

/-- `login` for an email that is in no row. -/
theorem login_of_unknown (hunknown : ∀ u ∈ db.users.rows, ¬ sqlEq db.collate u.email email) :
    (AuthService.login env draw email plain).run authHandler db =
      (.error (.unauthorizedError "Invalid email or password"), db) := by
  rw [login_run, AuthDb.userByEmail_eq_none.mpr hunknown]
  rfl

/-- `login` for the email of a row, by what the password check says. -/
theorem login_of_known {user : User} (hmem : user ∈ db.users.rows) :
    (AuthService.login env draw user.email plain).run authHandler db =
      (match env.verifyPassword plain user.hashedPassword with
      | .error e => (.error e, db)
      | .ok false => (.error (.unauthorizedError "Invalid email or password"), db)
      | .ok true => (issueTokens env draw user).run authHandler db) := by
  simp only [login_run, AuthDb.userByEmail_self hmem]
  rcases env.verifyPassword plain user.hashedPassword with e | _ | _ <;> rfl

/-- `_issue_tokens` for a user in the table goes through under a fresh draw. -/
theorem issueTokens_of_fresh {user : User} (hmem : user ∈ db.users.rows)
    (hfresh : draw.Fresh env db) :
    ∃ db', (issueTokens env draw user).run authHandler db = (.ok (authResult env draw user), db') ∧
      db'.users = db.users := by
  have howner : (db.userOf user.id).isSome = true := by
    cases huser : db.userOf user.id with
    | some _ => rfl
    | none => exact absurd rfl (AuthDb.userOf_eq_none.mp huser user hmem)
  have hnew : ∀ r ∈ db.refreshTokens.rows,
      r.jti ≠ (newRefreshToken env draw user.id draw.familyId).jti ∧
        r.tokenHash ≠ (newRefreshToken env draw user.id draw.familyId).tokenHash :=
    fun r hr => ⟨(hfresh.jti r hr).1, hfresh.rawToken r hr⟩
  obtain ⟨db', hins⟩ := AuthDb.insertRefreshToken_of_fresh howner hnew
  refine ⟨db', ?_, (AuthDb.insertRefreshToken_eq_some hins).1⟩
  rw [issueTokens_run, hins]

/-- The identifiers of a registration are new and its email is unused, as the database compares
it. -/
structure NewAccount (env : AuthEnv) (draw : Draw) (email : String) (db : AuthDb) : Prop where
  email : ∀ u ∈ db.users.rows, ¬ sqlEq db.collate u.email email
  userId : ∀ u ∈ db.users.rows, u.id ≠ draw.userId
  fresh : draw.Fresh env db

/-- `register` for a new account, by what the hash says. -/
theorem register_of_new (password : String) (hnew : NewAccount env draw email db) :
    (∃ e, env.hashPassword password draw.salt = .error e ∧
        (AuthService.register env draw email password).run authHandler db = (.error e, db)) ∨
      ∃ hashedPassword db', env.hashPassword password draw.salt = .ok hashedPassword ∧
        (AuthService.register env draw email password).run authHandler db =
          (.ok (authResult env draw (newUser draw email hashedPassword)), db') ∧
        newUser draw email hashedPassword ∈ db'.users.rows := by
  rw [register_run, AuthDb.userByEmail_eq_none.mpr hnew.email]
  cases hhash : env.hashPassword password draw.salt with
  | error e => exact Or.inl ⟨e, rfl, rfl⟩
  | ok hashedPassword =>
    refine Or.inr ?_
    have hfresh : ∀ u ∈ db.users.rows, u.id ≠ (newUser draw email hashedPassword).id ∧
        ¬ sqlEq db.collate u.email (newUser draw email hashedPassword).email :=
      fun u hu => ⟨hnew.userId u hu, hnew.email u hu⟩
    obtain ⟨db₁, hins⟩ := AuthDb.insertUser_of_fresh hfresh
    obtain ⟨hcommit, hreload⟩ := newUser_committed hins
    obtain ⟨-, htokens, hrows, -⟩ := AuthDb.insertUser_eq_some hins
    have hmem : newUser draw email hashedPassword ∈ db₁.users.rows := by
      rw [hrows]
      exact List.mem_append_right _ (List.mem_singleton_self _)
    have hfresh : draw.Fresh env db₁ := by
      refine ⟨?_, ?_, ?_⟩
      · rw [htokens]
        exact hnew.fresh.jti
      · rw [htokens]
        exact hnew.fresh.rawToken
      · rw [htokens]
        exact hnew.fresh.familyId
    obtain ⟨db', hissue, husers⟩ := issueTokens_of_fresh hmem hfresh
    refine ⟨hashedPassword, db', rfl, ?_, ?_⟩
    · exact (Prog.run_call_ok hcommit).trans ((Prog.run_call_ok hreload).trans hissue)
    · rw [husers]
      exact hmem

end Calls

/-! ## The round trip -/

/-- What `login` should answer for a registered email and a password: credentials for the registered
password, and for any other the error that an unknown email gets too. -/
structure LoginAnswers (env : AuthEnv) (email password plain : String) (db : AuthDb) : Prop where
  granted : plain = password → ∀ draw : Draw, draw.Fresh env db → ∃ user db',
    user.email = email ∧ (AuthService.login env draw email plain).run authHandler db =
      (.ok (authResult env draw user), db')
  refused : plain ≠ password → ∀ draw, (AuthService.login env draw email plain).run authHandler db =
    (.error (.unauthorizedError "Invalid email or password"), db)
  silent : plain ≠ password → ∀ draw other,
    (∀ u ∈ db.users.rows, ¬ sqlEq db.collate u.email other) →
      (AuthService.login env draw other plain).run authHandler db =
        (AuthService.login env draw email plain).run authHandler db

/-- What a registration and a later login of the same email should come to: the registration
returns credentials, and the login answers as it should however many other operations
have run in between, interleaved in any way. -/
structure CredentialRoundTrip (env : AuthEnv) (draw : Draw) (db : AuthDb) (body : UserRegister)
    (login : UserLogin) : Prop where
  registered : ∃ user, user.email = body.email ∧
    ((AuthService.register env draw body.email body.password).run authHandler db).1 =
      .ok (authResult env draw user)
  afterwards : ∀ (ι : Type) [DecidableEq ι] (ops : ι → AuthOp × Draw) (schedule : List ι)
    (p : Pool ι AuthDb AuthCmd AuthCmd.Answer Exn (Option AuthResult)),
    (Pool.system authHandler).run
        ⟨((AuthService.register env draw body.email body.password).run authHandler db).2,
          fun i => AuthOp.prog env (ops i).2 (ops i).1⟩ schedule = some p →
      LoginAnswers env login.email body.password login.password p.store

section RoundTrip

variable {env : AuthEnv} {draw : Draw} {db : AuthDb} {password plain : String} {user : User}
  {salt : String}

/-- `register` for a new account and a password of at most 72 bytes. -/
theorem register_of_short {email : String} (hbcrypt : Bcrypt env)
    (hnew : NewAccount env draw email db) (hshort : utf8Size password ≤ 72) :
    ∃ hashedPassword db', env.hashPassword password draw.salt = .ok hashedPassword ∧
      (AuthService.register env draw email password).run authHandler db =
        (.ok (authResult env draw (newUser draw email hashedPassword)), db') ∧
      newUser draw email hashedPassword ∈ db'.users.rows := by
  rcases register_of_new password hnew with ⟨e, hhash, -⟩ | hregistered
  · obtain ⟨hashedPassword, hok⟩ := hbcrypt.hash_short password draw.salt hshort
    rw [hhash] at hok
    cases hok
  · exact hregistered

/-- `login` answers as it should for a stored hash and a password of at most 72 bytes. -/
theorem loginAnswers_of_short (hbcrypt : Bcrypt env) (hmem : user ∈ db.users.rows)
    (hhash : env.hashPassword password salt = .ok user.hashedPassword)
    (hshort : utf8Size plain ≤ 72) : LoginAnswers env user.email password plain db := by
  have hverify := hbcrypt.verify_short password salt user.hashedPassword plain hhash hshort
  have hwrong : plain ≠ password → ∀ draw,
      (AuthService.login env draw user.email plain).run authHandler db =
        (.error (.unauthorizedError "Invalid email or password"), db) := by
    intro hne draw
    rw [login_of_known hmem, hverify, decide_eq_false fun heq => hne (utf8_eq_iff.mp heq)]
  refine ⟨?_, hwrong, fun hne draw other hother => ?_⟩
  · rintro rfl draw hfresh
    obtain ⟨db', hissue, -⟩ := issueTokens_of_fresh hmem hfresh
    refine ⟨user, db', rfl, ?_⟩
    rw [login_of_known hmem, hverify, decide_eq_true rfl]
    exact hissue
  · rw [login_of_unknown hother, hwrong hne draw]

/-- A password of more than 72 bytes does not get the answer that it should. -/
theorem short_of_loginAnswers (hbcrypt : Bcrypt env) (hmem : user ∈ db.users.rows)
    (hhash : env.hashPassword password salt = .ok user.hashedPassword)
    (hregistered : utf8Size password ≤ 72) (draw : Draw)
    (h : LoginAnswers env user.email password plain db) : utf8Size plain ≤ 72 := by
  by_contra hlong
  rw [Nat.not_le] at hlong
  have hne : plain ≠ password := by
    rintro rfl
    exact Nat.not_le_of_lt hlong hregistered
  have hanswer := h.refused hne draw
  rw [login_of_known hmem, hbcrypt.verify_long password salt user.hashedPassword plain hhash hlong]
    at hanswer
  cases (Prod.mk.inj hanswer).1

end RoundTrip

/-- **Exactly when passwords make the round trip**: a registration that the schema accepts, for
an unused email, returns credentials and every later login of that email answers as it should
if and only if neither password is longer than 72 bytes in UTF-8. -/
theorem credential_round_trip_iff (env : AuthEnv) (draw : Draw) (db : AuthDb) (body : UserRegister)
    (login : UserLogin) (hemail : login.email = body.email) (hbcrypt : Bcrypt env)
    (hnew : NewAccount env draw body.email db) :
    CredentialRoundTrip env draw db body login ↔
      utf8Size body.password ≤ 72 ∧ utf8Size login.password ≤ 72 := by
  refine ⟨?_, ?_⟩
  · intro h
    have hregistered : utf8Size body.password ≤ 72 := by
      by_contra hlong
      rw [Nat.not_le] at hlong
      obtain ⟨user, -, hanswer⟩ := h.registered
      rcases register_of_new body.password hnew with
        ⟨e, -, hrun⟩ | ⟨hashedPassword, db', hhash, -⟩
      · rw [hrun] at hanswer
        cases hanswer
      · rw [hbcrypt.hash_long body.password draw.salt hlong] at hhash
        cases hhash
    refine ⟨hregistered, ?_⟩
    obtain ⟨hashedPassword, db', hhash, hrun, hmem⟩ := register_of_short hbcrypt hnew hregistered
    -- no other operation at all
    have hanswers := h.afterwards Empty nofun [] _ rfl
    rw [hrun, hemail] at hanswers
    exact short_of_loginAnswers hbcrypt hmem hhash hregistered draw hanswers
  · rintro ⟨hregistered, hlogin⟩
    obtain ⟨hashedPassword, db', hhash, hrun, hmem⟩ := register_of_short hbcrypt hnew hregistered
    refine ⟨⟨newUser draw body.email hashedPassword, rfl, by rw [hrun]⟩, ?_⟩
    intro ι _ ops schedule p hpool
    rw [hrun] at hpool
    rw [hemail]
    exact loginAnswers_of_short hbcrypt (users_persist hmem hpool) hhash hlogin

/-! ## Sample values -/

/-- An environment whose hash has the bound of bcrypt. -/
def boundedEnv : AuthEnv :=
  { sampleEnv with
    hashPassword := fun password _ =>
      if utf8Size password ≤ 72 then .ok ("bcrypt:" ++ password) else .error .valueError
    verifyPassword := fun plain hashedPassword =>
      if utf8Size plain ≤ 72 then .ok (hashedPassword == "bcrypt:" ++ plain)
      else .error .valueError }

theorem bcrypt_boundedEnv : Bcrypt boundedEnv where
  hash_short password salt hshort := ⟨"bcrypt:" ++ password, if_pos hshort⟩
  hash_long password salt hlong := if_neg (Nat.not_le_of_lt hlong)
  verify_long password salt hashedPassword plain _ hlong := if_neg (Nat.not_le_of_lt hlong)
  verify_short password salt hashedPassword plain hhash hshort := by
    change (if utf8Size password ≤ 72 then Except.ok ("bcrypt:" ++ password)
      else Except.error Exn.valueError) = .ok hashedPassword at hhash
    split at hhash
    · obtain rfl := Except.ok.inj hhash
      refine (if_pos hshort).trans (congrArg Except.ok ?_)
      rw [Bool.eq_iff_iff, decide_eq_true_iff, beq_iff_eq, utf8_eq_iff, String.append_right_inj]
      exact eq_comm
    · cases hhash

theorem newAccount_empty (env : AuthEnv) (draw : Draw) (email : String) :
    NewAccount env draw email (.empty foldCase) where
  email _ hu := absurd hu List.not_mem_nil
  userId _ hu := absurd hu List.not_mem_nil
  fresh := ⟨fun _ hr => absurd hr List.not_mem_nil, fun _ hr => absurd hr List.not_mem_nil,
    fun _ hr => absurd hr List.not_mem_nil⟩

/-- A registration with a password of ten characters. -/
def shortBody : UserRegister := ⟨"a@example.com", "secret1234", by decide⟩

/-- Forty characters of two bytes each. -/
def wideBody : UserRegister :=
  ⟨"a@example.com", String.ofList (List.replicate 40 'é'), by decide⟩

/-- A login with eighty characters. -/
def longLogin : UserLogin := ⟨"a@example.com", String.ofList (List.replicate 80 'x')⟩

/-- The database after the registration of `shortBody`. -/
def shortDb : AuthDb :=
  ((AuthService.register boundedEnv (sampleDraw "1" 0) shortBody.email shortBody.password).run
    authHandler (.empty foldCase)).2

/-- A short password makes the round trip. -/
theorem credential_round_trip_iff_short :
    CredentialRoundTrip boundedEnv (sampleDraw "1" 0) (.empty foldCase) shortBody
        ⟨"a@example.com", "secret1234"⟩ ↔
      utf8Size shortBody.password ≤ 72 ∧ utf8Size "secret1234" ≤ 72 :=
  credential_round_trip_iff boundedEnv (sampleDraw "1" 0) (.empty foldCase) shortBody
    ⟨"a@example.com", "secret1234"⟩ rfl bcrypt_boundedEnv (newAccount_empty _ _ _)

/-- An accepted password that cannot be registered, and a login that tells by its exception that
the email is registered. -/
theorem long_passwords_raise :
    ((AuthService.register boundedEnv (sampleDraw "1" 0) wideBody.email wideBody.password).run
        authHandler (.empty foldCase)).1 = .error .valueError ∧
      ¬ CredentialRoundTrip boundedEnv (sampleDraw "1" 0) (.empty foldCase) wideBody
        ⟨"a@example.com", wideBody.password⟩ ∧
      ((AuthService.login boundedEnv (sampleDraw "2" 1) "a@example.com" longLogin.password).run
        authHandler shortDb).1 = .error .valueError ∧
      ((AuthService.login boundedEnv (sampleDraw "2" 1) "b@example.com" longLogin.password).run
        authHandler shortDb).1 = .error (.unauthorizedError "Invalid email or password") ∧
      ¬ CredentialRoundTrip boundedEnv (sampleDraw "1" 0) (.empty foldCase) shortBody longLogin := by
  have hregister : ((AuthService.register boundedEnv (sampleDraw "1" 0) wideBody.email
      wideBody.password).run authHandler (.empty foldCase)).1 = .error .valueError := by decide +kernel
  have hlogin : ((AuthService.login boundedEnv (sampleDraw "2" 1) "a@example.com"
      longLogin.password).run authHandler shortDb).1 = .error .valueError := by decide +kernel
  refine ⟨hregister, fun h => ?_, hlogin, by decide +kernel, fun h => ?_⟩
  · obtain ⟨user, -, hanswer⟩ := h.registered
    cases hregister.symm.trans hanswer
  · have hanswers := h.afterwards Empty nofun [] _ rfl
    have hrefused := hanswers.refused (by decide) (sampleDraw "2" 1)
    cases hlogin.symm.trans (congrArg Prod.fst hrefused)

end ParcelDelivery
