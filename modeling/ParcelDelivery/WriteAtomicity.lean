import ParcelDelivery.AuthRuns
import ParcelDelivery.ParcelService
import ParcelDelivery.Faults

/-!
# Writes under database failures

The operations of `AuthService` and `create_from_dto` with one database call that fails. All
of them commit once, and last, except `register`: it commits the user before
`_issue_tokens` commits the token, so that a failure in between leaves an account
without credentials (`service_writes_atomic_iff`).
-/

namespace ParcelDelivery

open Relational Process AuthService

/-! ## Reads and writes -/

theorem readOnly_selectUserByEmail (email : String) :
    ReadOnly authHandler (.selectUserByEmail email) := fun _ => rfl

theorem readOnly_selectUserById (id : String) : ReadOnly authHandler (.selectUserById id) :=
  fun _ => rfl

theorem readOnly_selectRefreshToken (tokenHash : String) :
    ReadOnly authHandler (.selectRefreshToken tokenHash) := fun _ => rfl

section Auth

variable {env : AuthEnv} {draw : Draw}

theorem writesOnce_issueTokens (user : User) :
    WritesOnce authHandler (issueTokens env draw user) :=
  .write fun _ => .ret _

theorem writesOnce_verified (user : User) (verified : Except Exn Bool) :
    WritesOnce authHandler (match verified with
      | .error e => .throw e
      | .ok false => .throw (.unauthorizedError "Invalid email or password")
      | .ok true => issueTokens env draw user) := by
  rcases verified with e | _ | _
  · exact .quiet (.throw _)
  · exact .quiet (.throw _)
  · exact writesOnce_issueTokens user

theorem writesOnce_login (email password : String) :
    WritesOnce authHandler (AuthService.login env draw email password) := by
  refine .read (readOnly_selectUserByEmail email) fun user => ?_
  cases user with
  | none => exact .quiet (.throw _)
  | some user => exact writesOnce_verified user (env.verifyPassword password user.hashedPassword)

theorem writesOnce_refresh (rawRefreshToken : String) :
    WritesOnce authHandler (AuthService.refresh env draw rawRefreshToken) := by
  refine .read (readOnly_selectRefreshToken _) fun token => ?_
  cases token with
  | none => exact .quiet (.throw _)
  | some token =>
    change WritesOnce authHandler (if token.revokedAt.isSome then _ else if _ then _ else _)
    split
    · exact .write fun _ => .throw _
    · split
      · exact .write fun _ => .throw _
      · refine .read (readOnly_selectUserById _) fun user => ?_
        cases user with
        | none => exact .write fun _ => .throw _
        | some user => exact .write fun _ => .ret _

theorem writesOnce_logout (rawRefreshToken : String) :
    WritesOnce authHandler (AuthService.logout env draw rawRefreshToken) := by
  refine .read (readOnly_selectRefreshToken _) fun token => ?_
  cases token with
  | none => exact .quiet (.throw _)
  | some token =>
    change WritesOnce authHandler (if token.revokedAt.isNone then _ else _)
    split
    · exact .write fun _ => .ret _
    · exact .quiet (.ret _)

theorem writesOnce_logoutAll (userId : String) :
    WritesOnce authHandler (AuthService.logoutAll draw userId) :=
  .write fun _ => .ret _

end Auth

/-- `create_from_dto` reads, commits the parcel and reads it back. -/
theorem writesOnce_createFromDto (collate : String → String) (authRequired : Bool)
    (data : ParcelCreate) (ownerId newId : String) :
    WritesOnce (parcelHandler collate)
      (ParcelService.createFromDto authRequired data ownerId newId) := by
  refine .read (fun _ => rfl) fun typeExists => ?_
  change WritesOnce (parcelHandler collate) (if _ then _ else if _ then _ else _)
  split
  · exact .quiet (.throw _)
  · split
    · exact .quiet (.throw _)
    · refine .write fun _ => .call (fun db => ?_) fun _ => .ret _
      rw [parcelHandler]
      split <;> rfl

/-! ## `register` -/

/-- What stops `register` before or at its second commit: the account is taken, as the database
compares emails, the password is refused, or the drawn token is not new. -/
def RegisterStops (env : AuthEnv) (draw : Draw) (email password : String) (db : AuthDb) : Prop :=
  (∃ u ∈ db.users.rows, sqlEq db.collate u.email email ∨ u.id = draw.userId) ∨
    (∃ e, env.hashPassword password draw.salt = .error e) ∨
      ∃ r ∈ db.refreshTokens.rows, r.jti = draw.jti ∨ r.tokenHash = env.hashToken draw.rawToken

/-- The rest of `register` once the password has been hashed. -/
def registerRest (env : AuthEnv) (draw : Draw) (email hashedPassword : String) :
    AuthProg AuthResult :=
  .call (AuthCmd.commit [.insertUser (newUser draw email hashedPassword)]) fun _ =>
    .call (AuthCmd.refreshUser draw.userId) fun (user : User) => issueTokens env draw user

section Register

variable {env : AuthEnv} {draw : Draw} {email password hashedPassword : String} {db db₁ : AuthDb}

theorem register_eq : AuthService.register env draw email password =
    .call (AuthCmd.selectUserByEmail email) fun (answer : Option User) =>
      match answer with
      | some _ => .throw (.businessError "Email already registered")
      | none =>
        match env.hashPassword password draw.salt with
        | .error e => .throw e
        | .ok hashedPassword => registerRest env draw email hashedPassword := rfl

/-- A user that is refused is taken. -/
theorem taken_of_refused
    (hins : db.insertUser (newUser draw email hashedPassword) = none) :
    ∃ u ∈ db.users.rows, sqlEq db.collate u.email email ∨ u.id = draw.userId := by
  by_contra hfree
  have hfresh : ∀ u ∈ db.users.rows, u.id ≠ (newUser draw email hashedPassword).id ∧
      ¬ sqlEq db.collate u.email (newUser draw email hashedPassword).email :=
    fun u hu => not_or.mp fun hclash => hfree ⟨u, hu, Or.comm.mp hclash⟩
  obtain ⟨db₁, hsome⟩ := AuthDb.insertUser_of_fresh hfresh
  exact nomatch hins.symm.trans hsome

/-- A user that has been inserted is there. -/
theorem userOf_of_committed
    (hins : db.insertUser (newUser draw email hashedPassword) = some db₁) :
    (db₁.userOf draw.userId).isSome = true := by
  cases howner : db₁.userOf draw.userId with
  | none =>
    refine absurd rfl (AuthDb.userOf_eq_none.mp howner (newUser draw email hashedPassword) ?_)
    rw [(AuthDb.insertUser_eq_some hins).2.2.1]
    exact List.mem_append_right _ (List.mem_singleton_self _)
  | some user => rfl

/-- The token of the new user is inserted when it is new. -/
theorem insertToken_of_committed
    (hins : db.insertUser (newUser draw email hashedPassword) = some db₁)
    (hfree : ∀ r ∈ db.refreshTokens.rows,
      r.jti ≠ draw.jti ∧ r.tokenHash ≠ env.hashToken draw.rawToken) :
    ∃ db', db₁.insertRefreshToken (newRefreshToken env draw draw.userId draw.familyId) =
      some db' := by
  refine AuthDb.insertRefreshToken_of_fresh (userOf_of_committed hins) ?_
  rw [(AuthDb.insertUser_eq_some hins).2.1]
  exact hfree

/-- A token of the new user that is refused is not new. -/
theorem clash_of_refusedToken
    (hins : db.insertUser (newUser draw email hashedPassword) = some db₁)
    (htoken : db₁.insertRefreshToken (newRefreshToken env draw draw.userId draw.familyId) = none) :
    ∃ r ∈ db.refreshTokens.rows, r.jti = draw.jti ∨ r.tokenHash = env.hashToken draw.rawToken := by
  by_contra hfree
  obtain ⟨db', hsome⟩ := insertToken_of_committed hins fun r hr =>
    not_or.mp fun hclash => hfree ⟨r, hr, hclash⟩
  exact nomatch htoken.symm.trans hsome

/-- The database between the two commits is neither the one before nor the one after. -/
theorem between_commits {db' : AuthDb} {user : User} {token : RefreshToken}
    (hins : db.insertUser user = some db₁) (htoken : db₁.insertRefreshToken token = some db') :
    db₁ ≠ db ∧ db₁ ≠ db' := by
  refine ⟨fun hbefore => ?_, fun hafter => ?_⟩
  · have hlength := congrArg (fun db : AuthDb => db.users.rows.length) hbefore
    obtain ⟨-, -, hrows, -⟩ := AuthDb.insertUser_eq_some hins
    rw [hrows, List.length_append] at hlength
    exact Nat.succ_ne_self _ hlength
  · have hlength := congrArg (fun db : AuthDb => db.refreshTokens.rows.length) hafter
    obtain ⟨-, -, htokens, -⟩ := AuthDb.insertRefreshToken_eq_some htoken
    rw [htokens, List.length_append] at hlength
    exact Nat.succ_ne_self _ hlength.symm

/-- The rest of `register` for a free email and an accepted password. -/
theorem registerRest_atomic_iff (hselect : db.userByEmail email = none)
    (hhash : env.hashPassword password draw.salt = .ok hashedPassword) :
    AllOrNothing authHandler (registerRest env draw email hashedPassword) db ↔
      RegisterStops env draw email password db := by
  cases hins : db.insertUser (newUser draw email hashedPassword) with
  | none =>
    exact iff_of_true (allOrNothing_error (newUser_refused hins)) (Or.inl (taken_of_refused hins))
  | some db₁ =>
    obtain ⟨hcommit, hreload⟩ := newUser_committed hins
    have hissue := @issueTokens_run env draw db₁ (newUser draw email hashedPassword)
    rw [registerRest, allOrNothing_call hcommit, Prog.run_call_ok hreload, hissue]
    cases htoken : db₁.insertRefreshToken
        (newRefreshToken env draw (newUser draw email hashedPassword).id draw.familyId) with
    | none =>
      -- the token is refused: the user stays alone also when nothing else fails
      refine iff_of_true ?_ (Or.inr (Or.inr (clash_of_refusedToken hins htoken)))
      have hcommitToken : authHandler (.commit [.insertRefreshToken
          (newRefreshToken env draw (newUser draw email hashedPassword).id draw.familyId)])
            db₁ = (.error .integrityError, db₁) :=
        handler_commit_none (AuthDb.commit_insertRefreshToken.trans htoken)
      intro e n
      have hatomic := (allOrNothing_read hreload (k := fun (user : User) =>
        issueTokens env draw user)).mpr (allOrNothing_error hcommitToken) e n
      rw [Prog.run_call_ok hreload, hissue, htoken] at hatomic
      exact Or.inr (or_self_iff.mp hatomic)
    | some db₂ =>
      obtain ⟨-, -, -, hfresh⟩ := AuthDb.insertRefreshToken_eq_some htoken
      obtain ⟨-, htokens, -, hfree⟩ := AuthDb.insertUser_eq_some hins
      obtain ⟨hbefore, hafter⟩ := between_commits hins htoken
      refine iff_of_false (fun hall => ?_) ?_
      · -- the reload fails: the user is there and the token is not
        exact (hall .integrityError 0).elim hbefore hafter
      · rintro (⟨u, hu, hemail | hid⟩ | ⟨e, herror⟩ | ⟨r, hr, hclash⟩)
        · exact AuthDb.userByEmail_eq_none.mp hselect u hu hemail
        · exact (hfree u hu).1 hid
        · exact nomatch hhash.symm.trans herror
        · exact not_or.mpr (hfresh r (htokens ▸ hr)) hclash

/-- **`register` is all-or-nothing** exactly when something stops it: otherwise a failure
between its commits leaves the user alone. -/
theorem register_atomic_iff :
    AllOrNothing authHandler (AuthService.register env draw email password) db ↔
      RegisterStops env draw email password db := by
  have hread := handler_selectUserByEmail email db
  rw [register_eq]
  cases hselect : db.userByEmail email with
  | some u =>
    rw [allOrNothing_read (hread.trans (by rw [hselect]))]
    obtain ⟨hu, hemail⟩ := Table.select_mem hselect
    exact iff_of_true (WritesOnce.quiet (.throw _)).allOrNothing (Or.inl ⟨u, hu, Or.inl hemail⟩)
  | none =>
    rw [allOrNothing_read (hread.trans (by rw [hselect]))]
    dsimp only
    cases hhash : env.hashPassword password draw.salt with
    | error e =>
      exact iff_of_true (WritesOnce.quiet (.throw _)).allOrNothing (Or.inr (Or.inl ⟨e, hhash⟩))
    | ok hashedPassword => exact registerRest_atomic_iff hselect hhash

/-- A registration under another spelling of a taken email. -/
example : AllOrNothing authHandler
    (AuthService.register sampleEnv (sampleDraw "3" 6) "A@example.com" "secret12")
    sampleHistory.db :=
  register_atomic_iff.mpr (Or.inl ⟨_, List.mem_cons_self, by decide⟩)

end Register

/-- **Service writes under failures**: whatever database call fails, an operation has done
everything or nothing, except a registration that nothing stops. -/
theorem service_writes_atomic_iff (env : AuthEnv) (collate : String → String) :
    (∀ op draw db, AllOrNothing authHandler (AuthOp.prog env draw op) db ↔
      ∀ email password, op = .register email password →
        RegisterStops env draw email password db) ∧
    ∀ authRequired data ownerId newId db, AllOrNothing (parcelHandler collate)
      (ParcelService.createFromDto authRequired data ownerId newId) db := by
  refine ⟨?_, ?_⟩
  · intro op draw db
    cases op with
    | register email password =>
      rw [AuthOp.prog, allOrNothing_map, register_atomic_iff]
      refine ⟨?_, ?_⟩
      · rintro hstops email' password' heq
        cases heq
        exact hstops
      · exact fun hstops => hstops email password rfl
    | login email password =>
      rw [AuthOp.prog, allOrNothing_map]
      exact iff_of_true (writesOnce_login email password).allOrNothing nofun
    | refresh rawRefreshToken =>
      rw [AuthOp.prog, allOrNothing_map]
      exact iff_of_true (writesOnce_refresh rawRefreshToken).allOrNothing nofun
    | logout rawRefreshToken =>
      rw [AuthOp.prog, allOrNothing_map]
      exact iff_of_true (writesOnce_logout rawRefreshToken).allOrNothing nofun
    | logoutAll userId =>
      rw [AuthOp.prog, allOrNothing_map]
      exact iff_of_true (writesOnce_logoutAll userId).allOrNothing nofun
  · intro authRequired data ownerId newId db
    exact (writesOnce_createFromDto collate authRequired data ownerId newId).allOrNothing

/-- The second commit of a registration fails: the account is there and has no token. -/
theorem half_registration :
    ∃ db₁, (AuthDb.empty foldCase).insertUser
        (newUser (sampleDraw "1" 0) "a@example.com" "bcrypt:secret12") = some db₁ ∧
      (AuthOp.prog sampleEnv (sampleDraw "1" 0) (.register "a@example.com" "secret12")).runFaulty
        authHandler .integrityError 3 (.empty foldCase) = (.error .integrityError, db₁) ∧
      db₁.refreshTokens.rows = [] ∧
      ((AuthOp.prog sampleEnv (sampleDraw "1" 0) (.register "a@example.com" "secret12")).run
        authHandler (.empty foldCase)).2.refreshTokens.rows.length = 1 ∧
      ¬ AllOrNothing authHandler
        (AuthOp.prog sampleEnv (sampleDraw "1" 0) (.register "a@example.com" "secret12"))
        (.empty foldCase) := by
  refine ⟨_, rfl, rfl, rfl, by decide, fun hall => ?_⟩
  rw [AuthOp.prog, allOrNothing_map, register_atomic_iff] at hall
  obtain ⟨u, hu, -⟩ | ⟨e, herror⟩ | ⟨r, hr, -⟩ := hall
  · exact absurd hu List.not_mem_nil
  · cases herror
  · exact absurd hr List.not_mem_nil

end ParcelDelivery
