import ParcelDelivery.AuthRuns

/-!
# Session requests in parallel

Any number of `refresh`, `logout` and `logout_all` requests over one database,
interleaved at the granularity of one database call. A request is at one of the
program points `CallPoint`; `callStep_of_step` says what a move of the request does
there, to the request (its next point) and to the database.
-/

namespace ParcelDelivery

open Relational Process TransitionSystem AuthService

/-- The operations on an existing session. -/
inductive SessionOp : Type where
  | refresh (rawRefreshToken : String)
  | logout (rawRefreshToken : String)
  | logoutAll (userId : String)
  deriving DecidableEq, Repr

/-- As an operation of `AuthService`. -/
def SessionOp.toAuthOp : SessionOp → AuthOp
  | .refresh rawRefreshToken => .refresh rawRefreshToken
  | .logout rawRefreshToken => .logout rawRefreshToken
  | .logoutAll userId => .logoutAll userId

/-- The refresh token that the request presents. -/
def SessionOp.presented : SessionOp → Option String
  | .refresh rawRefreshToken => some rawRefreshToken
  | .logout rawRefreshToken => some rawRefreshToken
  | .logoutAll _ => none

/-- A pool of requests. -/
abbrev AuthPool (ι : Type) : Type :=
  Pool ι AuthDb AuthCmd AuthCmd.Answer Exn (Option AuthResult)

/-- Requests before their first database call: request `i` is the operation
`ops i` with the values `draw i`. -/
def authPool {ι : Type} (env : AuthEnv) (draw : ι → Draw) (ops : ι → SessionOp) (db : AuthDb) :
    AuthPool ι where
  store := db
  rest i := (ops i).toAuthOp.prog env (draw i)

/-! ## Program points -/

/-- Where a request stands between two database calls. -/
inductive CallPoint : Type where
  /-- before the first call -/
  | start
  /-- `refresh` has read a revoked row -/
  | revokeFamily (token : RefreshToken)
  /-- `refresh` is about to revoke an expired or ownerless row -/
  | refuse (token : RefreshToken)
  /-- `refresh` has read a valid row -/
  | selectUser (token : RefreshToken)
  /-- `refresh` is about to commit the rotation -/
  | rotate (token : RefreshToken) (user : User)
  /-- `logout` has read an unrevoked row -/
  | endSession (token : RefreshToken)
  /-- the request has returned, `refresh` with credentials -/
  | returned (result : Option AuthResult)
  /-- the request has raised -/
  | raised (e : Exn)

namespace CallPoint

variable (env : AuthEnv) (draw : Draw) (op : SessionOp)

/-- The rest of `refresh` that revokes the row alone. -/
def refuseProg (token : RefreshToken) : AuthProg (Option AuthResult) :=
  .call (AuthCmd.commit [.updateRefreshToken token.jti (some draw.now) none])
    fun _ => .throw invalidRefreshToken

/-- The rest of `refresh` that rotates the row. -/
def rotateProg (token : RefreshToken) (user : User) : AuthProg (Option AuthResult) :=
  .call
    (AuthCmd.commit
      [.updateRefreshToken token.jti (some draw.now) (some draw.jti),
        .insertRefreshToken (newRefreshToken env draw user.id token.familyId)])
    fun _ => .ret (some (authResult env draw user))

/-- What is left of the request at a point. -/
def prog : CallPoint → AuthProg (Option AuthResult)
  | start => op.toAuthOp.prog env draw
  | revokeFamily token =>
    .call (AuthCmd.commit [.revokeFamily token.familyId draw.now])
      fun _ => .throw invalidRefreshToken
  | refuse token => refuseProg draw token
  | selectUser token =>
    .call (AuthCmd.selectUserById token.userId) fun (answer : Option User) =>
      match answer with
      | none => refuseProg draw token
      | some user => rotateProg env draw token user
  | rotate token user => rotateProg env draw token user
  | endSession token =>
    .call (AuthCmd.commit [.updateRefreshToken token.jti (some draw.now) none]) fun _ => .ret none
  | returned result => .ret result
  | raised e => .throw e

/-- The row that a `refresh` holds as valid. -/
def held : CallPoint → Option RefreshToken
  | selectUser token => some token
  | rotate token _ => some token
  | _ => none

end CallPoint

/-- One move of a request: the database it finds, its point, its next point and
the database it leaves. -/
inductive CallStep (env : AuthEnv) (draw : Draw) :
    SessionOp → AuthDb → CallPoint → CallPoint → AuthDb → Prop where
  /-- the presented token is unknown -/
  | unknown {op : SessionOp} {db : AuthDb} {rawRefreshToken : String}
      (hop : op.presented = some rawRefreshToken)
      (hsel : db.tokenOf (env.hashToken rawRefreshToken) = none) :
      CallStep env draw op db .start (.raised invalidRefreshToken) db
  | reused {rawRefreshToken : String} {db : AuthDb} {token : RefreshToken}
      (hsel : db.tokenOf (env.hashToken rawRefreshToken) = some token)
      (hrevoked : token.live = false) :
      CallStep env draw (.refresh rawRefreshToken) db .start (.revokeFamily token) db
  | expired {rawRefreshToken : String} {db : AuthDb} {token : RefreshToken}
      (hsel : db.tokenOf (env.hashToken rawRefreshToken) = some token)
      (hlive : token.live = true) (hexpired : token.expiresAt ≤ draw.now) :
      CallStep env draw (.refresh rawRefreshToken) db .start (.refuse token) db
  | valid {rawRefreshToken : String} {db : AuthDb} {token : RefreshToken}
      (hsel : db.tokenOf (env.hashToken rawRefreshToken) = some token)
      (hlive : token.live = true) (hvalid : draw.now < token.expiresAt) :
      CallStep env draw (.refresh rawRefreshToken) db .start (.selectUser token) db
  | ownerless {op : SessionOp} {db : AuthDb} {token : RefreshToken}
      (huser : db.userOf token.userId = none) :
      CallStep env draw op db (.selectUser token) (.refuse token) db
  | owned {op : SessionOp} {db : AuthDb} {token : RefreshToken} {user : User}
      (huser : db.userOf token.userId = some user) :
      CallStep env draw op db (.selectUser token) (.rotate token user) db
  | familyRevoked {op : SessionOp} {db : AuthDb} {token : RefreshToken} :
      CallStep env draw op db (.revokeFamily token) (.raised invalidRefreshToken)
        (db.revokeFamily token.familyId draw.now)
  | refused {op : SessionOp} {db : AuthDb} {token : RefreshToken} :
      CallStep env draw op db (.refuse token) (.raised invalidRefreshToken)
        (db.updateRefreshToken token.jti (some draw.now) none)
  | rotated {op : SessionOp} {db db' : AuthDb} {token : RefreshToken} {user : User}
      (hins : (db.updateRefreshToken token.jti (some draw.now) (some draw.jti)).insertRefreshToken
        (newRefreshToken env draw user.id token.familyId) = some db') :
      CallStep env draw op db (.rotate token user)
        (.returned (some (authResult env draw user))) db'
  /-- the drawn token collides with a row, or the user is gone -/
  | collided {op : SessionOp} {db : AuthDb} {token : RefreshToken} {user : User}
      (hins : (db.updateRefreshToken token.jti (some draw.now) (some draw.jti)).insertRefreshToken
        (newRefreshToken env draw user.id token.familyId) = none) :
      CallStep env draw op db (.rotate token user) (.raised .integrityError) db
  | loggedOut {rawRefreshToken : String} {db : AuthDb} {token : RefreshToken}
      (hsel : db.tokenOf (env.hashToken rawRefreshToken) = some token)
      (hrevoked : token.live = false) :
      CallStep env draw (.logout rawRefreshToken) db .start (.returned none) db
  | loggingOut {rawRefreshToken : String} {db : AuthDb} {token : RefreshToken}
      (hsel : db.tokenOf (env.hashToken rawRefreshToken) = some token)
      (hlive : token.live = true) :
      CallStep env draw (.logout rawRefreshToken) db .start (.endSession token) db
  | sessionEnded {op : SessionOp} {db : AuthDb} {token : RefreshToken} :
      CallStep env draw op db (.endSession token) (.returned none)
        (db.updateRefreshToken token.jti (some draw.now) none)
  | userRevoked {userId : String} {db : AuthDb} :
      CallStep env draw (.logoutAll userId) db .start (.returned none)
        (db.revokeUser userId draw.now)

section Moves

variable {ι : Type} [DecidableEq ι] {env : AuthEnv} {draw : Draw} {op : SessionOp}
  {p p' : AuthPool ι} {i : ι} {rawRefreshToken : String}

/-- The first move of `refresh` reads the presented row. -/
theorem callStep_refresh
    (hpt : p.rest i = CallPoint.start.prog env draw (.refresh rawRefreshToken))
    (hs : (Pool.system authHandler).step p i = some p') :
    ∃ pt', p'.rest i = pt'.prog env draw (.refresh rawRefreshToken) ∧
      CallStep env draw (.refresh rawRefreshToken) p.store .start pt' p'.store := by
  have hr : p.rest i = .call (AuthCmd.selectRefreshToken (env.hashToken rawRefreshToken)) _ :=
    hpt.trans (congrArg (some <$> ·) (getRefreshToken_bind rawRefreshToken _))
  obtain ⟨hstore, hrest, -⟩ := Pool.step_call hr hs
  rw [hstore, hrest, handler_selectRefreshToken]
  rcases hsel : p.store.tokenOf (env.hashToken rawRefreshToken) with _ | token
  · exact ⟨.raised invalidRefreshToken, rfl, .unknown rfl hsel⟩
  simp only [Prog.resume_ok]
  cases hlive : token.live
  · rw [if_pos (RefreshToken.not_live_iff.mp hlive)]
    exact ⟨.revokeFamily token, rfl, .reused hsel hlive⟩
  have hrevoked : ¬ token.revokedAt.isSome = true := by
    rw [RefreshToken.live_iff.mp hlive]
    exact Bool.false_ne_true
  rw [if_neg hrevoked]
  by_cases hexpired : token.expiresAt ≤ draw.now
  · rw [if_pos hexpired]
    exact ⟨.refuse token, rfl, .expired hsel hlive hexpired⟩
  · rw [if_neg hexpired]
    refine ⟨.selectUser token, ?_, .valid hsel hlive (Int.not_le.mp hexpired)⟩
    refine congrArg (Prog.call _) (funext fun answer => ?_)
    rcases answer with _ | user <;> rfl

/-- The first move of `logout` reads the presented row. -/
theorem callStep_logout
    (hpt : p.rest i = CallPoint.start.prog env draw (.logout rawRefreshToken))
    (hs : (Pool.system authHandler).step p i = some p') :
    ∃ pt', p'.rest i = pt'.prog env draw (.logout rawRefreshToken) ∧
      CallStep env draw (.logout rawRefreshToken) p.store .start pt' p'.store := by
  have hr : p.rest i = .call (AuthCmd.selectRefreshToken (env.hashToken rawRefreshToken)) _ :=
    hpt.trans (congrArg ((fun _ => none) <$> ·) (getRefreshToken_bind rawRefreshToken _))
  obtain ⟨hstore, hrest, -⟩ := Pool.step_call hr hs
  rw [hstore, hrest, handler_selectRefreshToken]
  rcases hsel : p.store.tokenOf (env.hashToken rawRefreshToken) with _ | token
  · exact ⟨.raised invalidRefreshToken, rfl, .unknown rfl hsel⟩
  simp only [Prog.resume_ok]
  cases hlive : token.live
  · have hrevoked : ¬ token.revokedAt.isNone = true := by
      rw [← RefreshToken.live, hlive]
      exact Bool.false_ne_true
    rw [if_neg hrevoked]
    exact ⟨.returned none, rfl, .loggedOut hsel hlive⟩
  · have hnone : token.revokedAt.isNone = true := hlive
    rw [if_pos hnone]
    exact ⟨.endSession token, rfl, .loggingOut hsel hlive⟩

/-- The move that commits a rotation. -/
theorem callStep_rotate {token : RefreshToken} {user : User}
    (hpt : p.rest i = (CallPoint.rotate token user).prog env draw op)
    (hs : (Pool.system authHandler).step p i = some p') :
    ∃ pt', p'.rest i = pt'.prog env draw op ∧
      CallStep env draw op p.store (.rotate token user) pt' p'.store := by
  obtain ⟨hstore, hrest, -⟩ := Pool.step_call hpt hs
  rw [hstore, hrest]
  rcases hins : (p.store.updateRefreshToken token.jti (some draw.now)
      (some draw.jti)).insertRefreshToken
        (newRefreshToken env draw user.id token.familyId) with _ | db'
  · rw [handler_commit_none (AuthDb.commit_rotation.trans hins)]
    exact ⟨.raised .integrityError, rfl, .collided hins⟩
  · rw [handler_commit_some (AuthDb.commit_rotation.trans hins)]
    exact ⟨.returned (some (authResult env draw user)), rfl, .rotated hins⟩

/-- **A move of a request** leads to the next point, as `CallStep` says. -/
theorem callStep_of_step {pt : CallPoint} (hpt : p.rest i = pt.prog env draw op)
    (hs : (Pool.system authHandler).step p i = some p') :
    ∃ pt', p'.rest i = pt'.prog env draw op ∧ CallStep env draw op p.store pt pt' p'.store := by
  cases pt with
  | start =>
    cases op with
    | refresh rawRefreshToken => exact callStep_refresh hpt hs
    | logout rawRefreshToken => exact callStep_logout hpt hs
    | logoutAll userId =>
      obtain ⟨hstore, hrest, -⟩ := Pool.step_call hpt hs
      rw [hstore, hrest]
      exact ⟨.returned none, rfl, .userRevoked⟩
  | revokeFamily token =>
    obtain ⟨hstore, hrest, -⟩ := Pool.step_call hpt hs
    rw [hstore, hrest]
    exact ⟨.raised invalidRefreshToken, rfl, .familyRevoked⟩
  | refuse token =>
    obtain ⟨hstore, hrest, -⟩ := Pool.step_call hpt hs
    rw [hstore, hrest]
    exact ⟨.raised invalidRefreshToken, rfl, .refused⟩
  | selectUser token =>
    obtain ⟨hstore, hrest, -⟩ := Pool.step_call hpt hs
    rw [hstore, hrest, handler_selectUserById]
    rcases huser : p.store.userOf token.userId with _ | user
    · exact ⟨.refuse token, rfl, .ownerless huser⟩
    · exact ⟨.rotate token user, rfl, .owned huser⟩
  | rotate token user => exact callStep_rotate hpt hs
  | endSession token =>
    obtain ⟨hstore, hrest, -⟩ := Pool.step_call hpt hs
    rw [hstore, hrest]
    exact ⟨.returned none, rfl, .sessionEnded⟩
  | returned _ | raised _ =>
    obtain ⟨c, k, hr, -⟩ := Pool.step_eq_some hs
    cases hpt.symm.trans hr

end Moves

/-! ## What a move does to the token table -/

/-- The effect of a move: it reads, it revokes rows, or it commits a rotation. -/
inductive CallEffect (env : AuthEnv) (draw : Draw) (op : SessionOp) (db : AuthDb)
    (pt pt' : CallPoint) (db' : AuthDb) : Prop where
  /-- nothing is written; a row that is held from now on is one that was read as valid -/
  | reads (hdb : db' = db) (hreturned : ∀ result, pt' ≠ .returned (some result))
      (hheld : ∀ token, pt'.held = some token → pt.held = some token ∨
        ∃ rawRefreshToken, op = .refresh rawRefreshToken ∧
          db.tokenOf (env.hashToken rawRefreshToken) = some token ∧ token.live = true)
      (howner : ∀ token user, pt' = .rotate token user → db.userOf token.userId = some user)
  /-- some rows get `revoked_at`, the request is over -/
  | revokes (p : RefreshToken → Bool) (husers : db'.users = db.users)
      (hrows : db'.refreshTokens.rows =
        db.refreshTokens.rows.map fun r => if p r then r.assign (some draw.now) none else r)
      (hreturned : ∀ result, pt' ≠ .returned (some result)) (hheld : pt'.held = none)
  /-- the held row is linked to a new one, the request returns credentials -/
  | rotates (token : RefreshToken) (user : User) (hpt : pt = .rotate token user)
      (hpt' : pt' = .returned (some (authResult env draw user))) (husers : db'.users = db.users)
      (hrows : db'.refreshTokens.rows =
        (db.updateRefreshToken token.jti (some draw.now) (some draw.jti)).refreshTokens.rows ++
          [newRefreshToken env draw user.id token.familyId])

/-- A move that writes nothing and holds no row. -/
theorem CallEffect.idle {env : AuthEnv} {draw : Draw} {op : SessionOp} {db : AuthDb}
    {pt pt' : CallPoint} (hreturned : ∀ result, pt' ≠ .returned (some result))
    (hheld : pt'.held = none) : CallEffect env draw op db pt pt' db := by
  refine .reads rfl hreturned (fun token htoken => ?_) fun token user heq => ?_
  · rw [hheld] at htoken
    cases htoken
  · rw [heq] at hheld
    cases hheld

theorem CallStep.effect {env : AuthEnv} {draw : Draw} {op : SessionOp} {db db' : AuthDb}
    {pt pt' : CallPoint} (h : CallStep env draw op db pt pt' db') :
    CallEffect env draw op db pt pt' db' := by
  cases h with
  | unknown _ _ | reused _ _ | expired _ _ _ => exact .idle nofun rfl
  | valid hsel hlive _ =>
    refine .reads rfl nofun (fun token hheld => Or.inr ?_) fun token user heq => ?_
    · obtain rfl := Option.some.inj hheld
      exact ⟨_, rfl, hsel, hlive⟩
    · cases heq
  | ownerless _ => exact .idle nofun rfl
  | owned huser =>
    refine .reads rfl nofun (fun token hheld => Or.inl hheld) fun token user heq => ?_
    cases heq
    exact huser
  | familyRevoked | refused => exact .revokes _ rfl rfl nofun rfl
  | rotated hins =>
    obtain ⟨husers, -, hrows, -⟩ := AuthDb.insertRefreshToken_eq_some hins
    exact .rotates _ _ rfl rfl husers hrows
  | collided _ | loggedOut _ _ | loggingOut _ _ => exact .idle nofun rfl
  | sessionEnded | userRevoked => exact .revokes _ rfl rfl nofun rfl

/-- A request that has ended does not move. -/
theorem CallStep.not_returned {env : AuthEnv} {draw : Draw} {op : SessionOp} {db db' : AuthDb}
    {pt pt' : CallPoint} (h : CallStep env draw op db pt pt' db') (result : Option AuthResult) :
    pt ≠ .returned result := by
  cases h <;> exact nofun

/-- The commit of a rotation returns credentials, unless the insert is refused. -/
theorem CallStep.of_rotate {env : AuthEnv} {draw : Draw} {op : SessionOp} {db db' : AuthDb}
    {token : RefreshToken} {user : User} {pt' : CallPoint}
    (h : CallStep env draw op db (.rotate token user) pt' db') :
    (db.updateRefreshToken token.jti (some draw.now) (some draw.jti)).insertRefreshToken
        (newRefreshToken env draw user.id token.familyId) = none ∨
      pt' = .returned (some (authResult env draw user)) := by
  cases h with
  | rotated _ => exact Or.inr rfl
  | collided hins => exact Or.inl hins

/-! ## The pool at its points -/

section Points

variable {ι : Type} {env : AuthEnv} {draw : ι → Draw} {ops : ι → SessionOp}
  {p p' : AuthPool ι} {pts : ι → CallPoint} {i : ι}

/-- Every request of the pool stands at its point. -/
def AtPoints (env : AuthEnv) (draw : ι → Draw) (ops : ι → SessionOp) (p : AuthPool ι)
    (pts : ι → CallPoint) : Prop :=
  ∀ i, p.rest i = (pts i).prog env (draw i) (ops i)

theorem atPoints_authPool (db : AuthDb) :
    AtPoints env draw ops (authPool env draw ops db) fun _ => .start :=
  fun _ => rfl

variable [DecidableEq ι]

/-- A move of the pool moves one request from its point to the next. -/
theorem AtPoints.step (h : AtPoints env draw ops p pts)
    (hs : (Pool.system authHandler).step p i = some p') :
    ∃ pt', AtPoints env draw ops p' (Function.update pts i pt') ∧
      CallStep env (draw i) (ops i) p.store (pts i) pt' p'.store := by
  obtain ⟨pt', hpt', hcall⟩ := callStep_of_step (h i) hs
  obtain ⟨c, k, -, rfl⟩ := Pool.step_eq_some hs
  refine ⟨pt', fun j => ?_, hcall⟩
  by_cases hj : j = i
  · subst hj
    rw [Function.update_self]
    exact hpt'
  · rw [Function.update_of_ne hj, Pool.issue_rest_of_ne c k hj]
    exact h j

end Points

/-- The primary key of the row that a commit links to a successor. -/
def AuthCmd.rotates : AuthCmd → Option String
  | .commit [.updateRefreshToken jti _ (some _), .insertRefreshToken _] => some jti
  | _ => none

/-- The primary key of the row that a request is about to link to a successor. -/
def nextRotation {α : Type} (m : AuthProg α) : Option String :=
  m.next?.bind AuthCmd.rotates

theorem nextRotation_prog {env : AuthEnv} {draw : Draw} {op : SessionOp} {pt : CallPoint}
    {jti : String} : nextRotation (pt.prog env draw op) = some jti ↔
      ∃ token user, pt = .rotate token user ∧ token.jti = jti := by
  refine ⟨?_, ?_⟩
  · intro h
    cases pt with
    | start => cases op <;> cases h
    | rotate token user => exact ⟨token, user, rfl, Option.some.inj h⟩
    | revokeFamily _ | refuse _ | selectUser _ | endSession _ | returned _ | raised _ => cases h
  · rintro ⟨token, user, rfl, rfl⟩
    rfl

end ParcelDelivery
