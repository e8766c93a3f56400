import ParcelDelivery.AuthService

/-!
# What each method of `AuthService` does when it runs alone

One specification per method: the answer and the committed database of every
branch (`RefreshOutcome`, `logout_run`, `logoutAll_run`, …). Proofs about
whole runs use these and never unfold a method.
-/

namespace ParcelDelivery

open Relational Process

/-! ## The token table under the statements -/

namespace RefreshToken

variable {revokedAt : Option Time} {replacedByJti : Option String} {r : RefreshToken}

@[simp] theorem assign_jti : (r.assign revokedAt replacedByJti).jti = r.jti := rfl
@[simp] theorem assign_userId : (r.assign revokedAt replacedByJti).userId = r.userId := rfl
@[simp] theorem assign_tokenHash : (r.assign revokedAt replacedByJti).tokenHash = r.tokenHash := rfl
@[simp] theorem assign_familyId : (r.assign revokedAt replacedByJti).familyId = r.familyId := rfl
@[simp] theorem assign_expiresAt : (r.assign revokedAt replacedByJti).expiresAt = r.expiresAt := rfl

@[simp] theorem assign_revokedAt :
    (r.assign revokedAt replacedByJti).revokedAt = revokedAt.or r.revokedAt := rfl

@[simp] theorem assign_replacedByJti :
    (r.assign revokedAt replacedByJti).replacedByJti = replacedByJti.or r.replacedByJti := rfl

theorem live_iff : r.live = true ↔ r.revokedAt = none := Option.isNone_iff_eq_none

theorem not_live_iff : r.live = false ↔ r.revokedAt.isSome = true := by
  cases h : r.revokedAt <;> simp [live, h]

end RefreshToken

namespace AuthDb

variable {db db' : AuthDb} {token r r' : RefreshToken}

/-- Rows with one primary key are one row. -/
theorem eq_of_jti (hr : r ∈ db.refreshTokens.rows) (hr' : r' ∈ db.refreshTokens.rows)
    (h : r.jti = r'.jti) : r = r' :=
  Table.eq_of_clash hr hr' (Or.inl h)

/-- Rows with one token hash are one row. -/
theorem eq_of_tokenHash (hr : r ∈ db.refreshTokens.rows) (hr' : r' ∈ db.refreshTokens.rows)
    (h : r.tokenHash = r'.tokenHash) : r = r' :=
  Table.eq_of_clash hr hr' (Or.inr h)

/-- The row of a token hash. -/
def tokenOf (db : AuthDb) (tokenHash : String) : Option RefreshToken :=
  db.refreshTokens.select fun r => r.tokenHash == tokenHash

theorem tokenOf_eq_some {tokenHash : String} :
    db.tokenOf tokenHash = some r ↔ r ∈ db.refreshTokens.rows ∧ r.tokenHash = tokenHash := by
  unfold tokenOf
  rw [Table.select_eq_some, beq_iff_eq]
  intro r r' h h'
  exact Or.inr ((beq_iff_eq.mp h).trans (beq_iff_eq.mp h').symm)

/-- The user with a primary key. -/
def userOf (db : AuthDb) (id : String) : Option User :=
  db.users.select fun u => u.id == id

theorem userOf_id {id : String} {user : User} (h : db.userOf id = some user) : user.id = id :=
  beq_iff_eq.mp (Table.select_mem h).2

/-- The user with an email, as the database compares it. -/
def userByEmail (db : AuthDb) (email : String) : Option User :=
  db.users.select fun u => sqlEq db.collate u.email email

theorem mem_revokeWhere {p : RefreshToken → Bool} {now : Time} :
    r' ∈ (db.revokeWhere p now).refreshTokens.rows ↔
      ∃ r ∈ db.refreshTokens.rows,
        (if p r && r.live then r.assign (some now) none else r) = r' :=
  List.mem_map

theorem mem_updateRefreshToken {jti : String} {revokedAt : Option Time}
    {replacedByJti : Option String} :
    r' ∈ (db.updateRefreshToken jti revokedAt replacedByJti).refreshTokens.rows ↔
      ∃ r ∈ db.refreshTokens.rows,
        (if r.jti == jti then r.assign revokedAt replacedByJti else r) = r' :=
  List.mem_map

/-- Assigning `revoked_at` on an unrevoked row is a bulk update of this one row. -/
theorem updateRefreshToken_eq_revokeWhere {now : Time} (hr : r ∈ db.refreshTokens.rows)
    (hlive : r.live = true) :
    (db.updateRefreshToken r.jti (some now) none).refreshTokens.rows =
      (db.revokeWhere (fun r' => r'.jti == r.jti) now).refreshTokens.rows := by
  refine List.map_congr_left fun r' hr' => ?_
  by_cases h : r'.jti = r.jti
  · obtain rfl := eq_of_jti hr' hr h
    simp [hlive]
  · simp [h]

/-- Inversion of an insert into `user`. -/
theorem insertUser_eq_some {user : User} (h : db.insertUser user = some db') :
    db'.collate = db.collate ∧ db'.refreshTokens = db.refreshTokens ∧
      db'.users.rows = db.users.rows ++ [user] ∧
      ∀ u ∈ db.users.rows, u.id ≠ user.id ∧ ¬ sqlEq db.collate u.email user.email := by
  unfold insertUser at h
  split at h
  · next hemail =>
    obtain ⟨users, -, rfl⟩ := Option.map_eq_some_iff.mp h
    obtain ⟨hrows, hfree⟩ := Table.insert_eq_some users.2
    exact ⟨rfl, rfl, hrows, fun u hu => ⟨hfree u hu, hemail u hu⟩⟩
  · cases h

/-- A user with a new key and a new email is inserted. -/
theorem insertUser_of_fresh {user : User}
    (hfresh : ∀ u ∈ db.users.rows, u.id ≠ user.id ∧ ¬ sqlEq db.collate u.email user.email) :
    ∃ db', db.insertUser user = some db' := by
  obtain ⟨users, hins⟩ : ∃ users, db.users.insert user = some users :=
    Table.insert_of_fresh fun u hu => (hfresh u hu).1
  unfold insertUser
  rw [dif_pos fun u hu => (hfresh u hu).2]
  exact ⟨_, Option.map_eq_some_iff.mpr ⟨⟨users, hins⟩, Option.attach_eq_some_iff.mpr hins, rfl⟩⟩

/-- Inversion of an insert into `refresh_token`. -/
theorem insertRefreshToken_eq_some (h : db.insertRefreshToken token = some db') :
    db'.users = db.users ∧ (db.userOf token.userId).isSome = true ∧
      db'.refreshTokens.rows = db.refreshTokens.rows ++ [token] ∧
      ∀ r ∈ db.refreshTokens.rows, r.jti ≠ token.jti ∧ r.tokenHash ≠ token.tokenHash := by
  unfold insertRefreshToken at h
  by_cases howner : (db.users.select fun u => u.id == token.userId).isSome = true
  · rw [if_pos howner] at h
    obtain ⟨tokens, hins, rfl⟩ := Option.map_eq_some_iff.mp h
    obtain ⟨hrows, hfree⟩ := Table.insert_eq_some hins
    exact ⟨rfl, howner, hrows, fun r hr => not_or.mp (hfree r hr)⟩
  · rw [if_neg howner] at h
    cases h

theorem collate_insertRefreshToken (h : db.insertRefreshToken token = some db') :
    db'.collate = db.collate := by
  unfold insertRefreshToken at h
  split at h
  · obtain ⟨tokens, -, rfl⟩ := Option.map_eq_some_iff.mp h
    rfl
  · cases h

/-- A row of an existing user with new unique columns is inserted. -/
theorem insertRefreshToken_of_fresh (howner : (db.userOf token.userId).isSome = true)
    (hfresh : ∀ r ∈ db.refreshTokens.rows, r.jti ≠ token.jti ∧ r.tokenHash ≠ token.tokenHash) :
    ∃ db', db.insertRefreshToken token = some db' := by
  obtain ⟨tokens, hins⟩ : ∃ tokens, db.refreshTokens.insert token = some tokens :=
    Table.insert_of_fresh fun r hr => not_or.mpr (hfresh r hr)
  unfold insertRefreshToken
  unfold userOf at howner
  rw [if_pos howner, hins]
  exact ⟨_, rfl⟩

@[simp] theorem commit_insertUser {user : User} :
    db.commit [.insertUser user] = db.insertUser user := by
  rw [commit, List.foldlM_cons]
  rcases h : db.write (.insertUser user) with _ | db'
  · exact h.symm
  · exact h.symm

@[simp] theorem commit_insertRefreshToken :
    db.commit [.insertRefreshToken token] = db.insertRefreshToken token := by
  rw [commit, List.foldlM_cons]
  rcases h : db.write (.insertRefreshToken token) with _ | db'
  · exact h.symm
  · exact h.symm

@[simp] theorem commit_revokeFamily {familyId : String} {now : Time} :
    db.commit [.revokeFamily familyId now] = some (db.revokeFamily familyId now) := rfl

@[simp] theorem commit_revokeUser {userId : String} {now : Time} :
    db.commit [.revokeUser userId now] = some (db.revokeUser userId now) := rfl

@[simp] theorem commit_updateRefreshToken {jti : String} {revokedAt : Option Time}
    {replacedByJti : Option String} :
    db.commit [.updateRefreshToken jti revokedAt replacedByJti] =
      some (db.updateRefreshToken jti revokedAt replacedByJti) := rfl

/-- The commit of a rotation. -/
@[simp] theorem commit_rotation {jti : String} {revokedAt : Option Time}
    {replacedByJti : Option String} :
    db.commit [.updateRefreshToken jti revokedAt replacedByJti, .insertRefreshToken token] =
      (db.updateRefreshToken jti revokedAt replacedByJti).insertRefreshToken token := by
  rw [← commit_insertRefreshToken]
  rfl

end AuthDb

namespace AuthDb

variable {db : AuthDb} {token r : RefreshToken} {now : Time}

theorem tokenOf_eq_none {tokenHash : String} : db.tokenOf tokenHash = none ↔
    ∀ r ∈ db.refreshTokens.rows, r.tokenHash ≠ tokenHash := by
  unfold tokenOf
  rw [Table.select_eq_none]
  exact forall₂_congr fun r _ => not_congr beq_iff_eq

theorem userOf_eq_none {id : String} : db.userOf id = none ↔ ∀ u ∈ db.users.rows, u.id ≠ id := by
  unfold userOf
  rw [Table.select_eq_none]
  exact forall₂_congr fun u _ => not_congr beq_iff_eq

theorem userByEmail_eq_none {email : String} : db.userByEmail email = none ↔
    ∀ u ∈ db.users.rows, ¬ sqlEq db.collate u.email email := by
  unfold userByEmail
  rw [Table.select_eq_none]

/-- Users with one email, as the database compares it, are one user. -/
theorem eq_of_email {u u' : User} (hu : u ∈ db.users.rows) (hu' : u' ∈ db.users.rows)
    (h : db.collate u.email = db.collate u'.email) : u = u' := by
  by_contra hne
  have hsymm : Std.Symm fun a b : User => ¬ sqlEq db.collate a.email b.email :=
    ⟨fun _ _ hab hba => hab (beq_iff_eq.mpr (beq_iff_eq.mp hba).symm)⟩
  exact db.emails.forall hu hu' hne (beq_iff_eq.mpr h)

/-- The `SELECT` of a user's email finds the user. -/
theorem userByEmail_self {user : User} (hmem : user ∈ db.users.rows) :
    db.userByEmail user.email = some user := by
  cases hsel : db.userByEmail user.email with
  | none => exact absurd (beq_self_eq_true _) (userByEmail_eq_none.mp hsel user hmem)
  | some u =>
    obtain ⟨hu, hemail⟩ := Table.select_mem hsel
    rw [eq_of_email hu hmem (beq_iff_eq.mp hemail)]

theorem mem_of_userOf {id : String} {user : User} (h : db.userOf id = some user) :
    ∃ u ∈ db.users.rows, u.id = id :=
  ⟨user, (Table.select_mem h).1, userOf_id h⟩

/-! ### Effect and frame of the two updates -/

theorem map_jti_of_keeps {f : RefreshToken → RefreshToken} (hf : ∀ r, (f r).jti = r.jti)
    (rows : List RefreshToken) :
    (rows.map f).map RefreshToken.jti = rows.map RefreshToken.jti := by
  rw [List.map_map]
  exact List.map_congr_left fun r _ => hf r

theorem map_jti_revokeWhere (p : RefreshToken → Bool) :
    (db.revokeWhere p now).refreshTokens.rows.map RefreshToken.jti =
      db.refreshTokens.rows.map RefreshToken.jti := by
  refine map_jti_of_keeps (fun r => ?_) _
  split <;> rfl

theorem map_jti_updateRefreshToken (jti : String) (revokedAt : Option Time)
    (replacedByJti : Option String) :
    (db.updateRefreshToken jti revokedAt replacedByJti).refreshTokens.rows.map RefreshToken.jti =
      db.refreshTokens.rows.map RefreshToken.jti := by
  refine map_jti_of_keeps (fun r => ?_) _
  split <;> rfl

/-- After a bulk revocation no selected row is unrevoked. -/
theorem revokeWhere_revokes {p : RefreshToken → Bool}
    (hp : ∀ r a b, p (RefreshToken.assign a b r) = p r)
    (hr : r ∈ (db.revokeWhere p now).refreshTokens.rows) (hpr : p r = true) :
    r.live = false := by
  obtain ⟨r₀, -, rfl⟩ := mem_revokeWhere.mp hr
  cases hlive : r₀.live
  · rw [if_neg (by simp)]
    exact hlive
  · have hp₀ : p r₀ = true := by
      split at hpr
      · rwa [hp] at hpr
      · exact hpr
    rw [if_pos (by simp [hp₀])]
    rfl

/-- A bulk revocation leaves revoked rows and rows it does not select. -/
theorem mem_revokeWhere_of_not {p : RefreshToken → Bool} (hr : r ∈ db.refreshTokens.rows)
    (h : p r = false ∨ r.live = false) : r ∈ (db.revokeWhere p now).refreshTokens.rows := by
  refine mem_revokeWhere.mpr ⟨r, hr, if_neg ?_⟩
  rw [Bool.and_eq_true]
  rintro ⟨hp, hlive⟩
  rcases h with h | h
  · rw [hp] at h; cases h
  · rw [hlive] at h; cases h

theorem mem_updateRefreshToken_self {revokedAt : Option Time} {replacedByJti : Option String}
    (hmem : token ∈ db.refreshTokens.rows) :
    token.assign revokedAt replacedByJti ∈
      (db.updateRefreshToken token.jti revokedAt replacedByJti).refreshTokens.rows :=
  mem_updateRefreshToken.mpr ⟨token, hmem, if_pos (beq_self_eq_true _)⟩

/-- An update by primary key leaves every other row. -/
theorem mem_updateRefreshToken_of_ne {revokedAt : Option Time} {replacedByJti : Option String}
    (hmem : token ∈ db.refreshTokens.rows) (hr : r ∈ db.refreshTokens.rows) (hne : r ≠ token) :
    r ∈ (db.updateRefreshToken token.jti revokedAt replacedByJti).refreshTokens.rows := by
  refine mem_updateRefreshToken.mpr ⟨r, hr, if_neg fun hjti => hne ?_⟩
  exact eq_of_jti hr hmem (beq_iff_eq.mp hjti)

end AuthDb

/-! ## Fresh draws -/

/-- The identifiers and the raw token of a draw were never drawn before: no row
of the database holds them. -/
structure Draw.Fresh (env : AuthEnv) (draw : Draw) (db : AuthDb) : Prop where
  jti : ∀ r ∈ db.refreshTokens.rows, r.jti ≠ draw.jti ∧ r.replacedByJti ≠ some draw.jti
  rawToken : ∀ r ∈ db.refreshTokens.rows, r.tokenHash ≠ env.hashToken draw.rawToken
  familyId : ∀ r ∈ db.refreshTokens.rows, r.familyId ≠ draw.familyId

instance (env : AuthEnv) (draw : Draw) (db : AuthDb) : Decidable (draw.Fresh env db) :=
  decidable_of_iff
    ((∀ r ∈ db.refreshTokens.rows, r.jti ≠ draw.jti ∧ r.replacedByJti ≠ some draw.jti) ∧
      (∀ r ∈ db.refreshTokens.rows, r.tokenHash ≠ env.hashToken draw.rawToken) ∧
      ∀ r ∈ db.refreshTokens.rows, r.familyId ≠ draw.familyId)
    ⟨fun ⟨hjti, hraw, hfamily⟩ => ⟨hjti, hraw, hfamily⟩,
      fun ⟨hjti, hraw, hfamily⟩ => ⟨hjti, hraw, hfamily⟩⟩

/-! ## The methods -/

namespace AuthService

variable {env : AuthEnv} {draw : Draw} {db db' : AuthDb}

/-- The exception of every refused refresh and of `logout` for an unknown token. -/
def invalidRefreshToken : Exn := .unauthorizedError "Invalid refresh token"

/-- What `refresh` can do: one constructor per branch, with the answer and the
committed database. -/
inductive RefreshOutcome (env : AuthEnv) (draw : Draw) (rawRefreshToken : String) (db : AuthDb) :
    Except Exn AuthResult × AuthDb → Prop where
  /-- no row has this hash -/
  | unknown (hsel : db.tokenOf (env.hashToken rawRefreshToken) = none) :
      RefreshOutcome env draw rawRefreshToken db (.error invalidRefreshToken, db)
  /-- the row is revoked: the family is revoked -/
  | reused (token : RefreshToken)
      (hsel : db.tokenOf (env.hashToken rawRefreshToken) = some token)
      (hrevoked : token.live = false) :
      RefreshOutcome env draw rawRefreshToken db
        (.error invalidRefreshToken, db.revokeFamily token.familyId draw.now)
  /-- the row has expired: it is revoked -/
  | expired (token : RefreshToken)
      (hsel : db.tokenOf (env.hashToken rawRefreshToken) = some token)
      (hlive : token.live = true) (hexpired : token.expiresAt ≤ draw.now) :
      RefreshOutcome env draw rawRefreshToken db
        (.error invalidRefreshToken, db.updateRefreshToken token.jti (some draw.now) none)
  /-- the user is gone: the row is revoked -/
  | ownerless (token : RefreshToken)
      (hsel : db.tokenOf (env.hashToken rawRefreshToken) = some token)
      (hlive : token.live = true) (hvalid : draw.now < token.expiresAt)
      (huser : db.userOf token.userId = none) :
      RefreshOutcome env draw rawRefreshToken db
        (.error invalidRefreshToken, db.updateRefreshToken token.jti (some draw.now) none)
  /-- the token is rotated -/
  | rotated (token : RefreshToken) (user : User) (db' : AuthDb)
      (hsel : db.tokenOf (env.hashToken rawRefreshToken) = some token)
      (hlive : token.live = true) (hvalid : draw.now < token.expiresAt)
      (huser : db.userOf token.userId = some user)
      (hins : (db.updateRefreshToken token.jti (some draw.now) (some draw.jti)).insertRefreshToken
        (newRefreshToken env draw user.id token.familyId) = some db') :
      RefreshOutcome env draw rawRefreshToken db (.ok (authResult env draw user), db')
  /-- the drawn token collides with a row: nothing is committed -/
  | collided (token : RefreshToken) (user : User)
      (hsel : db.tokenOf (env.hashToken rawRefreshToken) = some token)
      (hlive : token.live = true) (hvalid : draw.now < token.expiresAt)
      (huser : db.userOf token.userId = some user)
      (hins : (db.updateRefreshToken token.jti (some draw.now) (some draw.jti)).insertRefreshToken
        (newRefreshToken env draw user.id token.familyId) = none) :
      RefreshOutcome env draw rawRefreshToken db (.error .integrityError, db)

/-- A rotation goes through when the drawn JTI and token are not in the table. -/
theorem rotation_of_new {token : RefreshToken} {user : User}
    (hnew : ∀ r ∈ db.refreshTokens.rows,
      r.jti ≠ draw.jti ∧ r.tokenHash ≠ env.hashToken draw.rawToken)
    (huser : db.userOf token.userId = some user) :
    ∃ db', (db.updateRefreshToken token.jti (some draw.now) (some draw.jti)).insertRefreshToken
      (newRefreshToken env draw user.id token.familyId) = some db' := by
  refine AuthDb.insertRefreshToken_of_fresh ?_ fun r hr => ?_
  · have hsame : (db.updateRefreshToken token.jti (some draw.now) (some draw.jti)).userOf user.id =
        db.userOf token.userId := by
      rw [AuthDb.userOf_id huser]
      rfl
    change Option.isSome (AuthDb.userOf _ user.id) = true
    rw [hsame, huser]
    rfl
  · obtain ⟨r₀, hr₀, rfl⟩ := AuthDb.mem_updateRefreshToken.mp hr
    have hfree := hnew r₀ hr₀
    split
    · exact hfree
    · exact hfree

theorem handler_selectUserByEmail (email : String) (db : AuthDb) :
    authHandler (.selectUserByEmail email) db = (.ok (db.userByEmail email), db) := rfl

theorem handler_selectRefreshToken (tokenHash : String) (db : AuthDb) :
    authHandler (.selectRefreshToken tokenHash) db = (.ok (db.tokenOf tokenHash), db) := rfl

theorem handler_selectUserById (id : String) (db : AuthDb) :
    authHandler (.selectUserById id) db = (.ok (db.userOf id), db) := rfl

theorem handler_commit_some {writes : List AuthWrite} (h : db.commit writes = some db') :
    authHandler (.commit writes) db = (.ok (), db') := by
  simp only [authHandler, h]

theorem handler_commit_none {writes : List AuthWrite} (h : db.commit writes = none) :
    authHandler (.commit writes) db = (.error .integrityError, db) := by
  simp only [authHandler, h]

theorem getRefreshToken_bind {α : Type} (rawRefreshToken : String)
    (f : RefreshToken → AuthProg α) :
    (getRefreshToken env rawRefreshToken >>= f) =
      .call (AuthCmd.selectRefreshToken (env.hashToken rawRefreshToken))
        fun (answer : Option RefreshToken) =>
          match answer with
          | none => .throw invalidRefreshToken
          | some token => f token := by
  refine congrArg (Prog.call _) (funext fun answer => ?_)
  rcases answer with _ | token <;> rfl

/-- **`refresh` takes one of its branches.** -/
theorem refresh_outcome (rawRefreshToken : String) :
    RefreshOutcome env draw rawRefreshToken db
      ((refresh env draw rawRefreshToken).run authHandler db) := by
  rw [refresh, getRefreshToken_bind, Prog.run_call_ok (handler_selectRefreshToken ..)]
  rcases hsel : db.tokenOf (env.hashToken rawRefreshToken) with _ | token
  · exact .unknown hsel
  cases hlive : token.live
  · have hrevoked := RefreshToken.not_live_iff.mp hlive
    simp only [if_pos hrevoked]
    exact .reused token hsel hlive
  have hrevoked : ¬ token.revokedAt.isSome = true := by
    rw [RefreshToken.live_iff.mp hlive]
    exact Bool.false_ne_true
  simp only [if_neg hrevoked]
  by_cases hexpired : token.expiresAt ≤ draw.now
  · rw [if_pos hexpired]
    exact .expired token hsel hlive hexpired
  rw [if_neg hexpired]
  have hvalid := Int.not_le.mp hexpired
  change RefreshOutcome env draw rawRefreshToken db (Prog.run authHandler (.call _ _) db)
  rw [Prog.run_call_ok (handler_selectUserById ..)]
  rcases huser : db.userOf token.userId with _ | user
  · exact .ownerless token hsel hlive hvalid huser
  change RefreshOutcome env draw rawRefreshToken db (Prog.run authHandler (.call _ _) db)
  rcases hins : (db.updateRefreshToken token.jti (some draw.now) (some draw.jti)).insertRefreshToken
      (newRefreshToken env draw user.id token.familyId) with _ | db'
  · rw [Prog.run_call_error (handler_commit_none (AuthDb.commit_rotation.trans hins))]
    exact .collided token user hsel hlive hvalid huser hins
  · rw [Prog.run_call_ok (handler_commit_some (AuthDb.commit_rotation.trans hins))]
    exact .rotated token user db' hsel hlive hvalid huser hins

/-- What `logout` can do. -/
inductive LogoutOutcome (env : AuthEnv) (draw : Draw) (rawRefreshToken : String) (db : AuthDb) :
    Except Exn Unit × AuthDb → Prop where
  /-- no row has this hash -/
  | unknown (hsel : db.tokenOf (env.hashToken rawRefreshToken) = none) :
      LogoutOutcome env draw rawRefreshToken db (.error invalidRefreshToken, db)
  /-- the row is already revoked: nothing is written -/
  | revoked (token : RefreshToken)
      (hsel : db.tokenOf (env.hashToken rawRefreshToken) = some token)
      (hrevoked : token.live = false) :
      LogoutOutcome env draw rawRefreshToken db (.ok (), db)
  /-- the row is revoked now -/
  | ended (token : RefreshToken)
      (hsel : db.tokenOf (env.hashToken rawRefreshToken) = some token)
      (hlive : token.live = true) :
      LogoutOutcome env draw rawRefreshToken db
        (.ok (), db.updateRefreshToken token.jti (some draw.now) none)

/-- **`logout` takes one of its branches.** -/
theorem logout_outcome (rawRefreshToken : String) :
    LogoutOutcome env draw rawRefreshToken db
      ((logout env draw rawRefreshToken).run authHandler db) := by
  rw [logout, getRefreshToken_bind, Prog.run_call_ok (handler_selectRefreshToken ..)]
  rcases hsel : db.tokenOf (env.hashToken rawRefreshToken) with _ | token
  · exact .unknown hsel
  cases hlive : token.live
  · have hrevoked : ¬ token.revokedAt.isNone = true := by
      rw [← RefreshToken.live, hlive]
      exact Bool.false_ne_true
    simp only [if_neg hrevoked]
    exact .revoked token hsel hlive
  · have hnone : token.revokedAt.isNone = true := hlive
    simp only [if_pos hnone]
    exact .ended token hsel hlive

/-- `logout_all` revokes every unrevoked row of the user. -/
theorem logoutAll_run (userId : String) :
    (logoutAll draw userId).run authHandler db = (.ok (), db.revokeUser userId draw.now) := rfl

/-- `_issue_tokens` inserts the root row of a new family, or fails as a whole. -/
theorem issueTokens_run (user : User) :
    (issueTokens env draw user).run authHandler db =
      match db.insertRefreshToken (newRefreshToken env draw user.id draw.familyId) with
      | some db' => (.ok (authResult env draw user), db')
      | none => (.error .integrityError, db) := by
  change Prog.run authHandler (.call _ _) db = _
  rcases hins : db.insertRefreshToken (newRefreshToken env draw user.id draw.familyId) with _ | db'
  · rw [Prog.run_call_error (handler_commit_none (AuthDb.commit_insertRefreshToken.trans hins))]
  · rw [Prog.run_call_ok (handler_commit_some (AuthDb.commit_insertRefreshToken.trans hins))]
    rfl

/-- `login` behind its `SELECT`. -/
theorem login_run (email password : String) :
    (login env draw email password).run authHandler db = Prog.run authHandler
      (match db.userByEmail email with
        | none => .throw (.unauthorizedError "Invalid email or password")
        | some user =>
          match env.verifyPassword password user.hashedPassword with
          | .error e => .throw e
          | .ok false => .throw (.unauthorizedError "Invalid email or password")
          | .ok true => issueTokens env draw user) db := rfl

/-- `login` refuses and writes nothing, or issues tokens to an existing user. -/
theorem login_outcome (email password : String) :
    (∃ e, (login env draw email password).run authHandler db = (.error e, db)) ∨
      ∃ user, user ∈ db.users.rows ∧ sqlEq db.collate user.email email ∧
        env.verifyPassword password user.hashedPassword = .ok true ∧
        (login env draw email password).run authHandler db =
          (issueTokens env draw user).run authHandler db := by
  rw [login_run]
  rcases hsel : db.userByEmail email with _ | user
  · exact Or.inl ⟨_, rfl⟩
  obtain ⟨hmem, hemail⟩ := Table.select_mem hsel
  rcases hverify : env.verifyPassword password user.hashedPassword with e | _ | _ <;>
    simp only [hverify]
  · exact Or.inl ⟨e, rfl⟩
  · exact Or.inl ⟨.unauthorizedError "Invalid email or password", rfl⟩
  · exact Or.inr ⟨user, hmem, hemail, hverify, rfl⟩

/-- The user row that `register` adds. -/
def newUser (draw : Draw) (email hashedPassword : String) : User where
  id := draw.userId
  email := email
  hashedPassword := hashedPassword
  role := "user"
  createdAt := draw.now

/-- The commit of a new user, and the reload after it. -/
theorem newUser_committed {email hashedPassword : String}
    (hins : db.insertUser (newUser draw email hashedPassword) = some db') :
    authHandler (.commit [.insertUser (newUser draw email hashedPassword)]) db = (.ok (), db') ∧
      authHandler (.refreshUser draw.userId) db' =
        (.ok (newUser draw email hashedPassword), db') := by
  have hself : db'.users.select (fun u => u.id == draw.userId) =
      some (newUser draw email hashedPassword) := by
    rw [Table.select_eq_some fun u u' h h' => (beq_iff_eq.mp h).trans (beq_iff_eq.mp h').symm]
    refine ⟨?_, beq_self_eq_true _⟩
    rw [(AuthDb.insertUser_eq_some hins).2.2.1]
    exact List.mem_append_right _ (List.mem_singleton_self _)
  refine ⟨handler_commit_some (AuthDb.commit_insertUser.trans hins), ?_⟩
  simp only [authHandler, hself]

/-- The commit of a user that is not new. -/
theorem newUser_refused {email hashedPassword : String}
    (hins : db.insertUser (newUser draw email hashedPassword) = none) :
    authHandler (.commit [.insertUser (newUser draw email hashedPassword)]) db =
      (.error .integrityError, db) :=
  handler_commit_none (AuthDb.commit_insertUser.trans hins)

/-- `register` behind its `SELECT`. -/
theorem register_run (email password : String) :
    (register env draw email password).run authHandler db = Prog.run authHandler
      (match db.userByEmail email with
        | some _ => .throw (.businessError "Email already registered")
        | none =>
          match env.hashPassword password draw.salt with
          | .error e => .throw e
          | .ok hashedPassword => do
            AuthProg.commit [.insertUser (newUser draw email hashedPassword)]
            let user ← AuthProg.refreshUser draw.userId
            issueTokens env draw user) db := rfl

/-- `register` refuses and writes nothing, or commits the new user and then
issues tokens to it. -/
theorem register_outcome (email password : String) :
    (∃ e, (register env draw email password).run authHandler db = (.error e, db)) ∨
      ∃ hashedPassword db₁, env.hashPassword password draw.salt = .ok hashedPassword ∧
        db.insertUser (newUser draw email hashedPassword) = some db₁ ∧
        (register env draw email password).run authHandler db =
          (issueTokens env draw (newUser draw email hashedPassword)).run authHandler db₁ := by
  rw [register_run]
  rcases db.userByEmail email with _ | _
  swap
  · exact Or.inl ⟨_, rfl⟩
  rcases hhash : env.hashPassword password draw.salt with e | hashedPassword
  · exact Or.inl ⟨_, rfl⟩
  change (∃ e, Prog.run authHandler (.call _ _) db = _) ∨ _
  rcases hins : db.insertUser (newUser draw email hashedPassword) with _ | db₁
  · exact Or.inl ⟨.integrityError, Prog.run_call_error (newUser_refused hins)⟩
  · obtain ⟨hcommit, hreload⟩ := newUser_committed hins
    refine Or.inr ⟨hashedPassword, db₁, rfl, hins, ?_⟩
    exact (Prog.run_call_ok hcommit).trans (Prog.run_call_ok hreload)

end AuthService

end ParcelDelivery
