import ParcelDelivery.AuthSpec

/-!
# Sequential histories of the credential store

The five operations of `AuthService`, executed one at a time with arbitrary
clock values and random draws, as a labelled system. Its states carry, next to
the database, the JTIs of the rows that `_issue_tokens` has inserted: nothing
in the table itself says which rows are roots.

`TokenChange` lists what one operation can do to the `refresh_token` table, and
`authSystem_step` is the inversion that proofs about histories go by.
-/

namespace ParcelDelivery

open Relational Process TransitionSystem AuthService

/-- The operations of `AuthService`, with the arguments their callers choose. -/
inductive AuthOp : Type where
  | register (email password : String)
  | login (email password : String)
  | refresh (rawRefreshToken : String)
  | logout (rawRefreshToken : String)
  | logoutAll (userId : String)
  deriving DecidableEq, Repr

/-- The program of an operation; the logouts return no credentials. -/
def AuthOp.prog (env : AuthEnv) (draw : Draw) : AuthOp → AuthProg (Option AuthResult)
  | .register email password => some <$> AuthService.register env draw email password
  | .login email password => some <$> AuthService.login env draw email password
  | .refresh rawRefreshToken => some <$> AuthService.refresh env draw rawRefreshToken
  | .logout rawRefreshToken => (fun _ => none) <$> AuthService.logout env draw rawRefreshToken
  | .logoutAll userId => (fun _ => none) <$> AuthService.logoutAll draw userId

/-- The operations that return the tokens of a new family. -/
def AuthOp.startsFamily : AuthOp → Bool
  | .register .. => true
  | .login .. => true
  | _ => false

/-- The database and the JTIs that `_issue_tokens` has put into it. -/
structure AuthHistory : Type where
  db : AuthDb
  issued : List String

namespace AuthHistory

/-- The empty database. -/
def init (collate : String → String) : AuthHistory := ⟨.empty collate, []⟩

/-- The rows of `refresh_token`. -/
abbrev rows (h : AuthHistory) : List RefreshToken := h.db.refreshTokens.rows

/-- Run one operation to its end. -/
def exec (env : AuthEnv) (op : AuthOp) (draw : Draw) (h : AuthHistory) :
    Except Exn (Option AuthResult) × AuthHistory :=
  match (op.prog env draw).run authHandler h.db with
  | (.ok answer, db) =>
    (.ok answer, ⟨db, if op.startsFamily then h.issued ++ [draw.jti] else h.issued⟩)
  | (.error e, db) => (.error e, ⟨db, h.issued⟩)

end AuthHistory

/-- Operations one at a time; the label is the operation and what it draws. -/
def authSystem (env : AuthEnv) : System AuthHistory (AuthOp × Draw) where
  step h l := some (h.exec env l.1 l.2).2

/-- Every operation draws identifiers and tokens that were never drawn before. -/
def FreshDraws (env : AuthEnv) (h : AuthHistory) (l : AuthOp × Draw) (_ : AuthHistory) : Prop :=
  l.2.Fresh env h.db

instance (env : AuthEnv) (h : AuthHistory) (l : AuthOp × Draw) (h' : AuthHistory) :
    Decidable (FreshDraws env h l h') :=
  inferInstanceAs (Decidable (l.2.Fresh env h.db))

/-! ## What one operation does to the token table -/

/-- The change of the `refresh_token` table by one operation. -/
inductive TokenChange (env : AuthEnv) (draw : Draw) (h h' : AuthHistory) : Prop where
  /-- nothing is written -/
  | same (hrows : h'.rows = h.rows) (hissued : h'.issued = h.issued)
  /-- the unrevoked rows that meet a condition are revoked -/
  | revoked (p : RefreshToken → Bool)
      (hrows : h'.rows = (h.db.revokeWhere p draw.now).refreshTokens.rows)
      (hissued : h'.issued = h.issued)
  /-- an unrevoked row is revoked and linked to a new row of its family -/
  | rotated (token : RefreshToken) (hmem : token ∈ h.rows) (hlive : token.live = true)
      (hrows : h'.rows =
        (h.db.updateRefreshToken token.jti (some draw.now) (some draw.jti)).refreshTokens.rows ++
          [newRefreshToken env draw token.userId token.familyId])
      (hissued : h'.issued = h.issued)
  /-- the first row of a new family is added -/
  | issued (user : User)
      (hrows : h'.rows = h.rows ++ [newRefreshToken env draw user.id draw.familyId])
      (hissued : h'.issued = h.issued ++ [draw.jti])

section Step

variable {env : AuthEnv} {draw : Draw} {h : AuthHistory}

theorem exec_map {α : Type} {f : α → Option AuthResult} {m : AuthProg α} {op : AuthOp}
    (hop : op.prog env draw = f <$> m) :
    h.exec env op draw =
      ((m.run authHandler h.db).1.map f,
        ⟨(m.run authHandler h.db).2,
          if op.startsFamily && (m.run authHandler h.db).1.toBool then h.issued ++ [draw.jti]
            else h.issued⟩) := by
  have hmap : (op.prog env draw).run authHandler h.db =
      ((m.run authHandler h.db).1.map f, (m.run authHandler h.db).2) := by
    rw [hop]
    change (m >>= fun a => Prog.ret (f a)).run authHandler h.db = _
    rw [Prog.run_bind]
    rcases m.run authHandler h.db with ⟨e | a, db⟩ <;> rfl
  rw [AuthHistory.exec, hmap]
  rcases m.run authHandler h.db with ⟨e | a, db⟩
  · simp [Except.map, Except.toBool]
  · simp [Except.map, Except.toBool]

/-- `_issue_tokens` on the table of `h`: one new row, or nothing. -/
theorem tokenChange_issueTokens (user : User) {db : AuthDb}
    (hdb : db.refreshTokens = h.db.refreshTokens) :
    TokenChange env draw h
      ⟨((issueTokens env draw user).run authHandler db).2,
        if ((issueTokens env draw user).run authHandler db).1.toBool then h.issued ++ [draw.jti]
          else h.issued⟩ := by
  have hrows : db.refreshTokens.rows = h.rows := by rw [hdb]
  rw [issueTokens_run]
  rcases hins : db.insertRefreshToken (newRefreshToken env draw user.id draw.familyId) with _ | db'
  · exact .same hrows rfl
  · obtain ⟨-, -, hrows', -⟩ := AuthDb.insertRefreshToken_eq_some hins
    refine .issued user ?_ rfl
    rw [← hrows]
    exact hrows'

/-- **Inversion of one operation**: what it does to the token table. -/
theorem tokenChange_exec (op : AuthOp) : TokenChange env draw h (h.exec env op draw).2 := by
  cases op with
  | register email password =>
    rw [exec_map rfl]
    rcases @register_outcome env draw h.db email password with
      ⟨e, hrun⟩ | ⟨hashedPassword, db₁, -, hins, hrun⟩
    · rw [hrun]
      exact .same rfl rfl
    · rw [hrun]
      exact tokenChange_issueTokens (newUser draw email hashedPassword)
        (AuthDb.insertUser_eq_some hins).2.1
  | login email password =>
    rw [exec_map rfl]
    rcases @login_outcome env draw h.db email password with
      ⟨e, hrun⟩ | ⟨user, -, -, -, hrun⟩
    · rw [hrun]
      exact .same rfl rfl
    · rw [hrun]
      exact tokenChange_issueTokens user rfl
  | refresh rawRefreshToken =>
    rw [exec_map rfl]
    have hout := @refresh_outcome env draw h.db rawRefreshToken
    generalize (refresh env draw rawRefreshToken).run authHandler h.db = out at hout ⊢
    cases hout with
    | unknown hsel => exact .same rfl rfl
    | reused token hsel hrevoked => exact .revoked (fun r => r.familyId == token.familyId) rfl rfl
    | expired _ hsel hlive _ | ownerless _ hsel hlive _ _ =>
      have hmem := (AuthDb.tokenOf_eq_some.mp hsel).1
      exact .revoked _ (AuthDb.updateRefreshToken_eq_revokeWhere hmem hlive) rfl
    | rotated token user db' hsel hlive hvalid huser hins =>
      have hmem := (AuthDb.tokenOf_eq_some.mp hsel).1
      obtain ⟨-, -, hrows, -⟩ := AuthDb.insertRefreshToken_eq_some hins
      rw [AuthDb.userOf_id huser] at hrows
      exact .rotated token hmem hlive hrows rfl
    | collided token user hsel hlive hvalid huser hins => exact .same rfl rfl
  | logout rawRefreshToken =>
    rw [exec_map rfl]
    have hout := @logout_outcome env draw h.db rawRefreshToken
    generalize (logout env draw rawRefreshToken).run authHandler h.db = out at hout ⊢
    cases hout with
    | unknown _ | revoked _ _ _ => exact .same rfl rfl
    | ended token hsel hlive =>
      have hmem := (AuthDb.tokenOf_eq_some.mp hsel).1
      exact .revoked _ (AuthDb.updateRefreshToken_eq_revokeWhere hmem hlive) rfl
  | logoutAll userId =>
    rw [exec_map rfl, logoutAll_run]
    exact .revoked (fun r => r.userId == userId) rfl rfl

end Step

/-- Inversion of a step of a sequential history. -/
theorem authSystem_step {env : AuthEnv} {h h' : AuthHistory} {l : AuthOp × Draw}
    (hstep : (authSystem env).step h l = some h') : TokenChange env l.2 h h' := by
  obtain rfl := Option.some.inj hstep
  exact tokenChange_exec l.1

/-! ## Sample values -/

/-- `hash_token` on the tokens `raw-1` to `raw-4`: their SHA-256 digests. -/
def sampleHashToken (rawToken : String) : String :=
  if rawToken = "raw-1" then "e72e2581cffd8fef935b300f398a5a18bcb730d59ebd2fc267c5dfd7d5fe149e"
  else if rawToken = "raw-2" then "335dd07e171725cf337cc75777beadb91a5c56bd1df7eca8b936eb65b243911f"
  else if rawToken = "raw-3" then "800d0a578ca7bca7d23db243c16d966017ec03f46512e9d7622aee925e60d92e"
  else if rawToken = "raw-4" then "79742baf21f29a82ea3ac5e662a342a0042a38f13099cb4cf9bc20f9d83323b6"
  else rawToken

/-- An environment to evaluate the methods in. -/
def sampleEnv : AuthEnv where
  hashToken := sampleHashToken
  hashPassword password _ := .ok ("bcrypt:" ++ password)
  verifyPassword password hashedPassword := .ok (hashedPassword == "bcrypt:" ++ password)
  createAccessToken userId _ _ _ := userId
  refreshTokenLifetime := 100

/-- The `k`-th draw at an instant. -/
def sampleDraw (k : String) (now : Time) : Draw where
  now := now
  rawToken := "raw-" ++ k
  jti := "jti-" ++ k
  csrfToken := "csrf-" ++ k
  familyId := "family-" ++ k
  userId := "user-" ++ k
  salt := "salt-" ++ k

/-- A registration and one rotation. -/
def sampleOps : List (AuthOp × Draw) :=
  [(.register "a@example.com" "secret", sampleDraw "1" 0), (.refresh "raw-1", sampleDraw "2" 5)]

/-- The history of `sampleOps`. -/
def sampleHistory : AuthHistory :=
  sampleOps.foldl (fun h l => (h.exec sampleEnv l.1 l.2).2) (.init foldCase)

/-- The rotated row of `sampleHistory`. -/
def sampleRotated : RefreshToken :=
  (newRefreshToken sampleEnv (sampleDraw "1" 0) "user-1" "family-1").assign (some 5) (some "jti-2")

end ParcelDelivery
