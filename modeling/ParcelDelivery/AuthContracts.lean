import ParcelDelivery.TokenFamily

/-!
# Refused refreshes and ended sessions

* `refresh_contract` — when `refresh` accepts a token, and what it leaves in the
  table when it does and when it does not. The refusing branches commit before
  they raise, so the effect is part of the contract.
* `logout_ends_session_iff` — `logout` looks at the presented row only: it ends the
  session exactly when that row was unrevoked or nothing of its family was left.
-/

namespace ParcelDelivery

open Relational Process TransitionSystem LinkedChain AuthService

/-! ## `refresh` -/

/-- The contract of one call of `refresh` on `db`, with its answer and the
database it leaves. A row of `db` that is also a row of `db'` is untouched. -/
structure RefreshContract (env : AuthEnv) (draw : Draw) (rawRefreshToken : String) (db : AuthDb)
    (answer : Except Exn AuthResult) (db' : AuthDb) : Prop where
  /-- the exact condition of success -/
  accepted : (∃ result, answer = .ok result) ↔
    ∃ token ∈ db.refreshTokens.rows, token.tokenHash = env.hashToken rawRefreshToken ∧
      token.revokedAt = none ∧ draw.now < token.expiresAt ∧
      ∃ user ∈ db.users.rows, user.id = token.userId
  /-- every refusal is `UnauthorizedError` -/
  refused : ∀ e, answer = .error e → e = .unauthorizedError "Invalid refresh token"
  /-- users are only read -/
  users : db'.users = db.users
  /-- success: the row is linked to one new row of its family -/
  rotated : ∀ result, answer = .ok result → ∀ token ∈ db.refreshTokens.rows,
    token.tokenHash = env.hashToken rawRefreshToken →
      db'.refreshTokens.rows.map RefreshToken.jti =
          db.refreshTokens.rows.map RefreshToken.jti ++ [draw.jti] ∧
        newRefreshToken env draw token.userId token.familyId ∈ db'.refreshTokens.rows ∧
        token.assign (some draw.now) (some draw.jti) ∈ db'.refreshTokens.rows ∧
        ∀ r ∈ db.refreshTokens.rows, r ≠ token → r ∈ db'.refreshTokens.rows
  /-- reuse: the family is revoked, revoked rows and other families are untouched,
  no row is added -/
  reused : ∀ token ∈ db.refreshTokens.rows, token.tokenHash = env.hashToken rawRefreshToken →
    token.revokedAt ≠ none →
      answer = .error (.unauthorizedError "Invalid refresh token") ∧
        db'.refreshTokens.rows.map RefreshToken.jti = db.refreshTokens.rows.map RefreshToken.jti ∧
        (∀ r ∈ db'.refreshTokens.rows, r.familyId = token.familyId → r.revokedAt ≠ none) ∧
        (∀ r ∈ db.refreshTokens.rows, r.revokedAt ≠ none → r ∈ db'.refreshTokens.rows) ∧
        ∀ r ∈ db.refreshTokens.rows, r.familyId ≠ token.familyId → r ∈ db'.refreshTokens.rows
  /-- an expired or ownerless token: its own row is revoked, no other one -/
  marked : ∀ token ∈ db.refreshTokens.rows, token.tokenHash = env.hashToken rawRefreshToken →
    token.revokedAt = none →
    (token.expiresAt ≤ draw.now ∨ ∀ user ∈ db.users.rows, user.id ≠ token.userId) →
      answer = .error (.unauthorizedError "Invalid refresh token") ∧
        db'.refreshTokens.rows.map RefreshToken.jti = db.refreshTokens.rows.map RefreshToken.jti ∧
        token.assign (some draw.now) none ∈ db'.refreshTokens.rows ∧
        ∀ r ∈ db.refreshTokens.rows, r ≠ token → r ∈ db'.refreshTokens.rows
  /-- an unknown token changes nothing -/
  unknown : (∀ token ∈ db.refreshTokens.rows, token.tokenHash ≠ env.hashToken rawRefreshToken) →
    answer = .error (.unauthorizedError "Invalid refresh token") ∧ db' = db

section Branches

variable {env : AuthEnv} {draw : Draw} {rawRefreshToken : String} {db db' : AuthDb}
  {token : RefreshToken} {user : User}

/-- The token hash leads to one row only. -/
theorem eq_of_tokenOf (hsel : db.tokenOf (env.hashToken rawRefreshToken) = some token) :
    ∀ r ∈ db.refreshTokens.rows, r.tokenHash = env.hashToken rawRefreshToken → r = token := by
  intro r hr hhash
  obtain ⟨hmem, htoken⟩ := AuthDb.tokenOf_eq_some.mp hsel
  exact AuthDb.eq_of_tokenHash hr hmem (hhash.trans htoken.symm)

theorem contract_unknown (hsel : db.tokenOf (env.hashToken rawRefreshToken) = none) :
    RefreshContract env draw rawRefreshToken db (.error invalidRefreshToken) db := by
  have hnone := AuthDb.tokenOf_eq_none.mp hsel
  exact
    { accepted := by
        refine ⟨?_, ?_⟩
        · rintro ⟨_, heq⟩
          cases heq
        · rintro ⟨r, hr, hhash, -⟩
          exact absurd hhash (hnone r hr)
      refused := fun e he => by cases he; rfl
      users := rfl
      rotated := fun _ heq => nomatch heq
      reused := fun r hr hhash => absurd hhash (hnone r hr)
      marked := fun r hr hhash => absurd hhash (hnone r hr)
      unknown := fun _ => ⟨rfl, rfl⟩ }

theorem contract_reused (hsel : db.tokenOf (env.hashToken rawRefreshToken) = some token)
    (hrevoked : token.live = false) :
    RefreshContract env draw rawRefreshToken db (.error invalidRefreshToken)
      (db.revokeFamily token.familyId draw.now) := by
  obtain ⟨hmem, hhash⟩ := AuthDb.tokenOf_eq_some.mp hsel
  have hnotnone : token.revokedAt ≠ none := by
    intro hnone
    rw [RefreshToken.live_iff.mpr hnone] at hrevoked
    cases hrevoked
  exact
    { accepted := by
        refine ⟨?_, ?_⟩
        · rintro ⟨_, heq⟩
          cases heq
        · rintro ⟨r, hr, hrhash, hnone, -⟩
          rw [eq_of_tokenOf hsel r hr hrhash] at hnone
          exact absurd hnone hnotnone
      refused := fun e he => by cases he; rfl
      users := rfl
      rotated := fun _ heq => nomatch heq
      reused := by
        intro r hr hrhash _
        obtain rfl := eq_of_tokenOf hsel r hr hrhash
        refine ⟨rfl, AuthDb.map_jti_revokeWhere _, ?_, ?_, ?_⟩
        · intro x hx hfamily hnone
          have hlive := AuthDb.revokeWhere_revokes (fun _ _ _ => rfl) hx (beq_iff_eq.mpr hfamily)
          rw [RefreshToken.live_iff.mpr hnone] at hlive
          cases hlive
        · intro x hx hnone
          refine AuthDb.mem_revokeWhere_of_not hx (Or.inr ?_)
          exact RefreshToken.not_live_iff.mpr (Option.isSome_iff_ne_none.mpr hnone)
        · intro x hx hfamily
          exact AuthDb.mem_revokeWhere_of_not hx (Or.inl (beq_eq_false_iff_ne.mpr hfamily))
      marked := by
        intro r hr hrhash hnone
        rw [eq_of_tokenOf hsel r hr hrhash] at hnone
        exact absurd hnone hnotnone
      unknown := fun hnone => absurd hhash (hnone token hmem) }

/-- The two branches that revoke the presented row alone. -/
theorem contract_marked (hsel : db.tokenOf (env.hashToken rawRefreshToken) = some token)
    (hlive : token.live = true)
    (hinvalid : token.expiresAt ≤ draw.now ∨ db.userOf token.userId = none) :
    RefreshContract env draw rawRefreshToken db (.error invalidRefreshToken)
      (db.updateRefreshToken token.jti (some draw.now) none) := by
  obtain ⟨hmem, hhash⟩ := AuthDb.tokenOf_eq_some.mp hsel
  have hnone := RefreshToken.live_iff.mp hlive
  exact
    { accepted := by
        refine ⟨?_, ?_⟩
        · rintro ⟨_, heq⟩
          cases heq
        · rintro ⟨r, hr, hrhash, -, hvalid, u, hu, huser⟩
          rw [eq_of_tokenOf hsel r hr hrhash] at hvalid huser
          rcases hinvalid with hexpired | hgone
          · exact absurd hvalid (Int.not_lt.mpr hexpired)
          · exact absurd huser (AuthDb.userOf_eq_none.mp hgone u hu)
      refused := fun e he => by cases he; rfl
      users := rfl
      rotated := fun _ heq => nomatch heq
      reused := by
        intro r hr hrhash hrevoked
        rw [eq_of_tokenOf hsel r hr hrhash] at hrevoked
        exact absurd hnone hrevoked
      marked := by
        intro r hr hrhash _ _
        obtain rfl := eq_of_tokenOf hsel r hr hrhash
        refine ⟨rfl, AuthDb.map_jti_updateRefreshToken _ _ _,
          AuthDb.mem_updateRefreshToken_self hmem, fun x hx hne => ?_⟩
        exact AuthDb.mem_updateRefreshToken_of_ne hmem hx hne
      unknown := fun hunknown => absurd hhash (hunknown token hmem) }

theorem contract_rotated (hsel : db.tokenOf (env.hashToken rawRefreshToken) = some token)
    (hlive : token.live = true) (hvalid : draw.now < token.expiresAt)
    (huser : db.userOf token.userId = some user)
    (hins : (db.updateRefreshToken token.jti (some draw.now) (some draw.jti)).insertRefreshToken
      (newRefreshToken env draw user.id token.familyId) = some db') :
    RefreshContract env draw rawRefreshToken db (.ok (authResult env draw user)) db' := by
  obtain ⟨hmem, hhash⟩ := AuthDb.tokenOf_eq_some.mp hsel
  have hnone := RefreshToken.live_iff.mp hlive
  obtain ⟨husers, -, hrows, -⟩ := AuthDb.insertRefreshToken_eq_some hins
  rw [AuthDb.userOf_id huser] at hrows
  exact
    { accepted :=
        ⟨fun _ => ⟨token, hmem, hhash, hnone, hvalid, AuthDb.mem_of_userOf huser⟩,
          fun _ => ⟨_, rfl⟩⟩
      refused := fun _ he => nomatch he
      users := husers
      rotated := by
        intro _ _ r hr hrhash
        obtain rfl := eq_of_tokenOf hsel r hr hrhash
        refine ⟨?_, ?_, ?_, fun x hx hne => ?_⟩
        · rw [hrows, List.map_append, AuthDb.map_jti_updateRefreshToken]
          rfl
        · rw [hrows]
          exact List.mem_append_right _ (List.mem_singleton_self _)
        · rw [hrows]
          exact List.mem_append_left _ (AuthDb.mem_updateRefreshToken_self hmem)
        · rw [hrows]
          exact List.mem_append_left _ (AuthDb.mem_updateRefreshToken_of_ne hmem hx hne)
      reused := by
        intro r hr hrhash hrevoked
        rw [eq_of_tokenOf hsel r hr hrhash] at hrevoked
        exact absurd hnone hrevoked
      marked := by
        intro r hr hrhash _ hinvalid
        rw [eq_of_tokenOf hsel r hr hrhash] at hinvalid
        obtain ⟨u, hu, hid⟩ := AuthDb.mem_of_userOf huser
        rcases hinvalid with hexpired | hgone
        · exact absurd hvalid (Int.not_lt.mpr hexpired)
        · exact absurd hid (hgone u hu)
      unknown := fun hunknown => absurd hhash (hunknown token hmem) }

end Branches

/-- **The contract of `refresh`**, in every state of the database. -/
theorem refresh_contract (env : AuthEnv) (draw : Draw) (rawRefreshToken : String) (db : AuthDb)
    (hfresh : draw.Fresh env db) :
    RefreshContract env draw rawRefreshToken db
      ((refresh env draw rawRefreshToken).run authHandler db).1
      ((refresh env draw rawRefreshToken).run authHandler db).2 := by
  have hout := @refresh_outcome env draw db rawRefreshToken
  generalize (refresh env draw rawRefreshToken).run authHandler db = out at hout ⊢
  cases hout with
  | unknown hsel => exact contract_unknown hsel
  | reused token hsel hrevoked => exact contract_reused hsel hrevoked
  | expired token hsel hlive hexpired => exact contract_marked hsel hlive (Or.inl hexpired)
  | ownerless token hsel hlive hvalid huser => exact contract_marked hsel hlive (Or.inr huser)
  | rotated token user db' hsel hlive hvalid huser hins =>
    exact contract_rotated hsel hlive hvalid huser hins
  | collided token user hsel hlive hvalid huser hins =>
    obtain ⟨db', hsome⟩ := rotation_of_new
      (fun r hr => ⟨(hfresh.jti r hr).1, hfresh.rawToken r hr⟩) huser
    cases hins.symm.trans hsome

/-- The reuse of a rotated token. -/
theorem refresh_contract_reuse :
    RefreshContract sampleEnv (sampleDraw "3" 6) "raw-1" sampleHistory.db
      ((refresh sampleEnv (sampleDraw "3" 6) "raw-1").run authHandler sampleHistory.db).1
      ((refresh sampleEnv (sampleDraw "3" 6) "raw-1").run authHandler sampleHistory.db).2 :=
  refresh_contract sampleEnv (sampleDraw "3" 6) "raw-1" sampleHistory.db (by decide)

/-! ## `logout` -/

/-- The family has rows, all revoked. -/
def FamilyClosed (familyId : String) (h : AuthHistory) : Prop :=
  (∃ r ∈ h.rows, r.familyId = familyId) ∧ ∀ r ∈ h.rows, r.familyId = familyId → r.live = false

/-- What ending the session of a presented token means: no row of its family is
unrevoked afterwards, no later refresh accepts a token of the family, and a token
that was already revoked is answered as a reuse, by revoking its family. -/
structure SessionEnded (env : AuthEnv) (draw : Draw) (token : RefreshToken)
    (h h' : AuthHistory) : Prop where
  closed : ∀ r ∈ h'.rows, r.familyId = token.familyId → r.live = false
  refused : ∀ ls h'', (authSystem env).Steps (FreshDraws env) h' ls →
    (authSystem env).run h' ls = some h'' → ∀ r ∈ h''.rows, r.familyId = token.familyId →
      ∀ rawRefreshToken draw', env.hashToken rawRefreshToken = r.tokenHash →
        (h''.exec env (.refresh rawRefreshToken) draw').1 = .error invalidRefreshToken
  reuse : token.live = false →
    h'.rows = (h.db.revokeFamily token.familyId draw.now).refreshTokens.rows

section Logout

variable {env : AuthEnv} {draw : Draw} {h h' : AuthHistory} {familyId rawRefreshToken : String}
  {token : RefreshToken}

/-- A closed family stays closed: only a rotation of an unrevoked row, or a new
family, adds a row. -/
theorem FamilyClosed.step (hfresh : draw.Fresh env h.db) (hclosed : FamilyClosed familyId h)
    (hchange : TokenChange env draw h h') : FamilyClosed familyId h' := by
  obtain ⟨⟨r₀, hr₀, hf₀⟩, hall⟩ := hclosed
  cases hchange with
  | same hrows _ =>
    rw [FamilyClosed, hrows]
    exact ⟨⟨r₀, hr₀, hf₀⟩, hall⟩
  | revoked p hrows _ =>
    rw [FamilyClosed, hrows]
    refine ⟨⟨r₀, AuthDb.mem_revokeWhere_of_not hr₀ (Or.inr (hall r₀ hr₀ hf₀)), hf₀⟩, ?_⟩
    intro r hr hf
    obtain ⟨r₁, hr₁, rfl⟩ := AuthDb.mem_revokeWhere.mp hr
    split at hf
    · rename_i hp
      rw [if_pos hp]
      rfl
    · rename_i hp
      rw [if_neg hp]
      exact hall r₁ hr₁ hf
  | rotated token hmem hlive hrows _ =>
    have hne : token.familyId ≠ familyId := by
      intro hf
      rw [hall token hmem hf] at hlive
      cases hlive
    have hne₀ : r₀ ≠ token := fun heq => hne (heq ▸ hf₀)
    rw [FamilyClosed, hrows]
    refine ⟨⟨r₀, List.mem_append_left _
      (AuthDb.mem_updateRefreshToken_of_ne hmem hr₀ hne₀), hf₀⟩, ?_⟩
    intro r hr hf
    rcases List.mem_append.mp hr with hr | hr
    · obtain ⟨r₁, hr₁, rfl⟩ := AuthDb.mem_updateRefreshToken.mp hr
      split at hf
      · rename_i hjti
        rw [if_pos hjti]
        rfl
      · rename_i hjti
        rw [if_neg hjti]
        exact hall r₁ hr₁ hf
    · rw [List.mem_singleton.mp hr] at hf
      exact absurd hf hne
  | issued user hrows _ =>
    rw [FamilyClosed, hrows]
    refine ⟨⟨r₀, List.mem_append_left _ hr₀, hf₀⟩, ?_⟩
    intro r hr hf
    rcases List.mem_append.mp hr with hr | hr
    · exact hall r hr hf
    · rw [List.mem_singleton.mp hr] at hf
      exact absurd (hf₀.trans hf.symm) (hfresh.familyId r₀ hr₀)

theorem FamilyClosed.run {ls : List (AuthOp × Draw)} (hclosed : FamilyClosed familyId h)
    (hfresh : (authSystem env).Steps (FreshDraws env) h ls)
    (hrun : (authSystem env).run h ls = some h') : FamilyClosed familyId h' :=
  System.run_invariant (fun _ _ _ hclosed hstep hfresh => hclosed.step hfresh (authSystem_step hstep))
    hclosed hfresh hrun

/-- A token of a closed family is refused. -/
theorem FamilyClosed.refuses (hclosed : FamilyClosed familyId h) {r : RefreshToken}
    (hr : r ∈ h.rows) (hf : r.familyId = familyId)
    (hraw : env.hashToken rawRefreshToken = r.tokenHash) :
    (h.exec env (.refresh rawRefreshToken) draw).1 = .error invalidRefreshToken := by
  have hsel : h.db.tokenOf (env.hashToken rawRefreshToken) = some r :=
    AuthDb.tokenOf_eq_some.mpr ⟨hr, hraw.symm⟩
  have hrevoked := hclosed.2 r hr hf
  have hnotnone : r.revokedAt ≠ none :=
    Option.isSome_iff_ne_none.mp (RefreshToken.not_live_iff.mp hrevoked)
  have hout := @refresh_outcome env draw h.db rawRefreshToken
  rw [exec_map (f := some) rfl]
  generalize (refresh env draw rawRefreshToken).run authHandler h.db = out at hout ⊢
  cases hout with
  | unknown _ | reused _ _ _ | expired _ _ _ _ | ownerless _ _ _ _ _ => rfl
  | rotated _ _ _ hsel' hlive _ _ _ | collided _ _ hsel' hlive _ _ _ =>
    obtain rfl := Option.some.inj (hsel.symm.trans hsel')
    rw [hrevoked] at hlive
    cases hlive

/-- `logout` returns normally for every token of the table. -/
theorem logout_returns (hsel : h.db.tokenOf (env.hashToken rawRefreshToken) = some token) :
    (h.exec env (.logout rawRefreshToken) draw).1 = .ok none := by
  have hout := @logout_outcome env draw h.db rawRefreshToken
  rw [exec_map (f := fun _ => none) rfl]
  generalize (logout env draw rawRefreshToken).run authHandler h.db = out at hout ⊢
  cases hout with
  | unknown hnone => cases hsel.symm.trans hnone
  | revoked _ _ _ | ended _ _ _ => rfl

/-- After `logout` the presented row is revoked and the other rows are as before. -/
theorem logout_rows (hsel : h.db.tokenOf (env.hashToken rawRefreshToken) = some token) :
    (h.exec env (.logout rawRefreshToken) draw).2.rows =
      if token.live then
        (h.db.updateRefreshToken token.jti (some draw.now) none).refreshTokens.rows
      else h.rows := by
  have hout := @logout_outcome env draw h.db rawRefreshToken
  rw [exec_map (f := fun _ => none) rfl]
  generalize (logout env draw rawRefreshToken).run authHandler h.db = out at hout ⊢
  cases hout with
  | unknown hnone => cases hsel.symm.trans hnone
  | revoked token' hsel' hrevoked =>
    obtain rfl := Option.some.inj (hsel.symm.trans hsel')
    exact (if_neg (by simp [hrevoked])).symm
  | ended token' hsel' hlive =>
    obtain rfl := Option.some.inj (hsel.symm.trans hsel')
    exact (if_pos hlive).symm

/-- Logging out with an unrevoked token closes the family: it was the last of its
chain, and the only unrevoked one. -/
theorem logout_closes (hI : TokenInvariant h)
    (hsel : h.db.tokenOf (env.hashToken rawRefreshToken) = some token)
    (hlive : token.live = true) :
    FamilyClosed token.familyId (h.exec env (.logout rawRefreshToken) draw).2 := by
  have hmem := (AuthDb.tokenOf_eq_some.mp hsel).1
  have hchain := hI.chain hmem
  have hlast := hI.last_of_live hmem hlive
  rw [FamilyClosed, logout_rows hsel, if_pos hlive]
  refine ⟨⟨_, AuthDb.mem_updateRefreshToken_self hmem, rfl⟩, fun r hr hf => ?_⟩
  obtain ⟨r₀, hr₀, rfl⟩ := AuthDb.mem_updateRefreshToken.mp hr
  by_cases hjti : r₀.jti = token.jti
  · rw [if_pos (beq_iff_eq.mpr hjti)]
    rfl
  · rw [if_neg (by simp [hjti])] at hf ⊢
    cases hlive₀ : r₀.live
    · rfl
    · have hlast₀ := hI.last_of_live hr₀ hlive₀
      have heq : r₀ = token := Linked.next_injOn (h.db.family_nodup token.familyId) hchain.linked
        (AuthDb.mem_family.mpr ⟨hr₀, hf⟩) (AuthDb.mem_family.mpr ⟨hmem, rfl⟩)
        (hlast₀.trans hlast.symm)
      exact absurd (congrArg RefreshToken.jti heq) hjti

/-- Revoking a family without unrevoked rows writes nothing. -/
theorem revokeFamily_of_closed (hall : ∀ r ∈ h.rows, r.familyId = familyId → r.live = false)
    (now : Time) : (h.db.revokeFamily familyId now).refreshTokens.rows = h.rows := by
  refine (List.map_congr_left fun r hr => if_neg ?_).trans (List.map_id _)
  rw [Bool.and_eq_true, beq_iff_eq]
  rintro ⟨hf, hlive⟩
  rw [hall r hr hf] at hlive
  cases hlive

theorem FamilyClosed.sessionEnded (hclosed : FamilyClosed token.familyId h')
    (hreuse : token.live = false →
      h'.rows = (h.db.revokeFamily token.familyId draw.now).refreshTokens.rows) :
    SessionEnded env draw token h h' where
  closed := hclosed.2
  refused _ _ hfresh hrun _ hr hf _ _ hraw := (hclosed.run hfresh hrun).refuses hr hf hraw
  reuse := hreuse

end Logout

/-- **`logout` ends the session** exactly when the presented row is unrevoked, or
no row of its family is. -/
theorem logout_ends_session_iff (env : AuthEnv) (collate : String → String)
    (ls : List (AuthOp × Draw)) (h : AuthHistory)
    (hfresh : (authSystem env).Steps (FreshDraws env) (AuthHistory.init collate) ls)
    (hrun : (authSystem env).run (AuthHistory.init collate) ls = some h)
    (draw : Draw) (rawRefreshToken : String) (token : RefreshToken) (hmem : token ∈ h.rows)
    (hraw : token.tokenHash = env.hashToken rawRefreshToken) :
    (h.exec env (.logout rawRefreshToken) draw).1 = .ok none ∧
      (SessionEnded env draw token h (h.exec env (.logout rawRefreshToken) draw).2 ↔
        token.revokedAt = none ∨
          ∀ r ∈ h.rows, r.familyId = token.familyId → r.revokedAt ≠ none) := by
  have hI := tokenInvariant_run (.init collate) hfresh hrun
  have hsel := AuthDb.tokenOf_eq_some.mpr ⟨hmem, hraw⟩
  refine ⟨logout_returns hsel, ?_⟩
  have hrows := @logout_rows env draw h rawRefreshToken token hsel
  refine ⟨?_, ?_⟩
  · intro hended
    by_cases hnone : token.revokedAt = none
    · exact Or.inl hnone
    · have hrevoked : token.live = false :=
        RefreshToken.not_live_iff.mpr (Option.isSome_iff_ne_none.mpr hnone)
      rw [if_neg (by simp [hrevoked])] at hrows
      refine Or.inr fun r hr hf => ?_
      have hlive := hended.closed r (hrows ▸ hr) hf
      exact Option.isSome_iff_ne_none.mp (RefreshToken.not_live_iff.mp hlive)
  · intro hcond
    cases hlive : token.live
    · -- nothing was written, and nothing of the family was left
      have hall : ∀ r ∈ h.rows, r.familyId = token.familyId → r.live = false := by
        rcases hcond with hnone | hall
        · rw [RefreshToken.live_iff.mpr hnone] at hlive
          cases hlive
        · intro r hr hf
          exact RefreshToken.not_live_iff.mpr (Option.isSome_iff_ne_none.mpr (hall r hr hf))
      rw [if_neg (by simp [hlive])] at hrows
      refine FamilyClosed.sessionEnded ?_ fun _ => ?_
      · rw [FamilyClosed, hrows]
        exact ⟨⟨token, hmem, rfl⟩, hall⟩
      · rw [hrows, revokeFamily_of_closed hall]
    · refine (logout_closes hI hsel hlive).sessionEnded fun hrevoked => ?_
      rw [hlive] at hrevoked
      cases hrevoked

/-- The session of `sampleHistory` ends with its last token. -/
theorem logout_ends_session_iff_last :
    let token := newRefreshToken sampleEnv (sampleDraw "2" 5) "user-1" "family-1"
    (sampleHistory.exec sampleEnv (.logout "raw-2") (sampleDraw "3" 6)).1 = .ok none ∧
      (SessionEnded sampleEnv (sampleDraw "3" 6) token sampleHistory
          (sampleHistory.exec sampleEnv (.logout "raw-2") (sampleDraw "3" 6)).2 ↔
        token.revokedAt = none ∨
          ∀ r ∈ sampleHistory.rows, r.familyId = token.familyId → r.revokedAt ≠ none) :=
  logout_ends_session_iff sampleEnv foldCase sampleOps sampleHistory (by decide) rfl
    (sampleDraw "3" 6) "raw-2" _ (by decide) (by decide)

/-- Logging out with the rotated token returns normally and leaves its successor
unrevoked. -/
theorem logout_keeps_session :
    (authSystem sampleEnv).run (AuthHistory.init foldCase) sampleOps = some sampleHistory ∧
      (authSystem sampleEnv).Steps (FreshDraws sampleEnv) (AuthHistory.init foldCase) sampleOps ∧
      sampleRotated ∈ sampleHistory.rows ∧
      sampleRotated.tokenHash = sampleEnv.hashToken "raw-1" ∧
      (sampleHistory.exec sampleEnv (.logout "raw-1") (sampleDraw "3" 6)).1 = .ok none ∧
      ¬ SessionEnded sampleEnv (sampleDraw "3" 6) sampleRotated sampleHistory
        (sampleHistory.exec sampleEnv (.logout "raw-1") (sampleDraw "3" 6)).2 := by
  refine ⟨rfl, by decide, by decide, rfl, by decide, fun hended => ?_⟩
  have hrevoked := hended.closed
    (newRefreshToken sampleEnv (sampleDraw "2" 5) "user-1" "family-1") (by decide) rfl
  cases hrevoked

end ParcelDelivery
