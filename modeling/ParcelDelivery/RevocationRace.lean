import ParcelDelivery.PoolInvariant

/-!
# Revocation against refreshes in flight

`logout_all` and the reuse branch of `refresh` revoke the rows that are in the table
when they commit. A `refresh` that has read its row before that inserts its
successor afterwards, unrevoked. The record of a pool lists the families that
such a commit has covered; `revocation_final_iff` says that they stay without an
unrevoked row exactly when no rotation is committed in one of them.
-/

namespace ParcelDelivery

open Relational Process TransitionSystem AuthService

/-- The families that a commit revokes as a whole: the one of `_revoke_family`, and
all families of the user of `logout_all`. -/
def AuthCmd.covers : AuthCmd → AuthDb → List String
  | .commit [.revokeFamily familyId _], _ => [familyId]
  | .commit [.revokeUser userId _], db =>
    (db.refreshTokens.selectAll fun r => r.userId == userId).map RefreshToken.familyId
  | _, _ => []

/-- A pool of requests, with the families that were covered so far. -/
abbrev RecordedPool (ι : Type) : Type :=
  Pool ι (AuthDb × List String) AuthCmd AuthCmd.Answer Exn (Option AuthResult)

/-- Requests before their first database call, with nothing covered yet. -/
def recordedPool {ι : Type} (env : AuthEnv) (draw : ι → Draw) (ops : ι → SessionOp)
    (db : AuthDb) : RecordedPool ι where
  store := (db, [])
  rest i := (ops i).toAuthOp.prog env (draw i)

/-- The interleavings of a recorded pool. -/
abbrev recordedSystem (ι : Type) [DecidableEq ι] : System (RecordedPool ι) ι :=
  Pool.system (record AuthCmd.covers authHandler)

/-- Revocation is final: a covered family has no unrevoked row. -/
def RevocationFinal {ι : Type} (p : RecordedPool ι) : Prop :=
  ∀ r ∈ p.store.1.refreshTokens.rows, r.familyId ∈ p.store.2 → r.revokedAt ≠ none

/-- The guard of a move: where it commits a rotation, the family of the row is not
covered. -/
def RotatesUncovered {ι : Type} (p : RecordedPool ι) (i : ι) (_ : RecordedPool ι) : Prop :=
  ∀ jti, nextRotation (p.rest i) = some jti →
    ∀ r ∈ p.store.1.refreshTokens.rows, r.jti = jti → r.familyId ∉ p.store.2

/-- The rows of a family belong to one user. -/
def OneOwner (db : AuthDb) : Prop :=
  ∀ r ∈ db.refreshTokens.rows, ∀ r' ∈ db.refreshTokens.rows,
    r.familyId = r'.familyId → r.userId = r'.userId

section Moves

variable {ι : Type} {env : AuthEnv} {draw : ι → Draw} {ops : ι → SessionOp}
  {db db' : AuthDb} {pts : ι → CallPoint} {pt pt' : CallPoint} {i : ι} {op : SessionOp} {d : Draw}

/-- The families that the next command of a request covers. -/
def coveredNext (env : AuthEnv) (draw : Draw) (op : SessionOp) (pt : CallPoint) (db : AuthDb) :
    List String :=
  (pt.prog env draw op).events AuthCmd.covers db

theorem oneOwner_step (hI : PoolInvariant env draw ops db pts) (howner : OneOwner db)
    (hcall : CallStep env (draw i) (ops i) db (pts i) pt' db') : OneOwner db' := by
  cases hcall.effect with
  | reads hdb _ _ _ =>
    rw [hdb]
    exact howner
  | revokes q _ hrows _ _ =>
    intro a ha b hb hf
    obtain ⟨r, hr, hkeys, -⟩ := of_mem_revocation hrows ha
    obtain ⟨r', hr', hkeys', -⟩ := of_mem_revocation hrows hb
    rw [hkeys.userId, hkeys'.userId]
    exact howner r hr r' hr' (hkeys.familyId.symm.trans (hf.trans hkeys'.familyId))
  | rotates token user hpt _ _ hrows =>
    -- every row has the owner of a row of the old table in its family
    have hold : ∀ a ∈ db'.refreshTokens.rows, ∃ r ∈ db.refreshTokens.rows,
        a.familyId = r.familyId ∧ a.userId = r.userId := by
      intro a ha
      rcases of_mem_rotation hrows ha with rfl | ⟨r, hr, hkeys, -⟩
      · obtain ⟨raw, -, -, r₀, hr₀, hkeys₀⟩ := hI.held i token (by rw [hpt]; rfl)
        refine ⟨r₀, hr₀, hkeys₀.familyId.symm, ?_⟩
        exact (AuthDb.userOf_id (hI.owner i token user hpt)).trans hkeys₀.userId.symm
      · exact ⟨r, hr, hkeys.familyId, hkeys.userId⟩
    intro a ha b hb hf
    obtain ⟨r, hr, hfr, hur⟩ := hold a ha
    obtain ⟨r', hr', hfr', hur'⟩ := hold b hb
    rw [hur, hur']
    exact howner r hr r' hr' (hfr.symm.trans (hf.trans hfr'))

/-- A covering commit leaves no unrevoked row in the families it covers. -/
theorem CallStep.covered (howner : OneOwner db) (hcall : CallStep env d op db pt pt' db')
    {r : RefreshToken} (hr : r ∈ db'.refreshTokens.rows)
    (hf : r.familyId ∈ coveredNext env d op pt db) : r.live = false := by
  cases hcall with
  | unknown hop _ =>
    cases op with
    | refresh _ | logout _ => cases hf
    | logoutAll _ => cases hop
  | familyRevoked =>
    exact AuthDb.revokeWhere_revokes (fun _ _ _ => rfl) hr (beq_iff_eq.mpr (List.mem_singleton.mp hf))
  | userRevoked =>
    obtain ⟨r₀, hr₀, hf₀⟩ := List.mem_map.mp hf
    obtain ⟨hr₀, hu₀⟩ := List.mem_filter.mp hr₀
    refine AuthDb.revokeWhere_revokes (fun _ _ _ => rfl) hr (beq_iff_eq.mpr ?_)
    obtain ⟨r₁, hr₁, heq⟩ := AuthDb.mem_revokeWhere.mp hr
    have hkeys : r₁.SameKeys r := by
      rw [← heq]
      split
      · exact .assign r₁ _ _
      · exact .refl r₁
    rw [hkeys.userId, ← beq_iff_eq.mp hu₀]
    exact howner r₁ hr₁ r₀ hr₀ (hkeys.familyId.symm.trans hf₀.symm)
  | reused _ _ | expired _ _ _ | valid _ _ _ | ownerless _ | owned _ | refused | rotated _
  | collided _ | loggedOut _ _ | loggingOut _ _ | sessionEnded => cases hf

end Moves

/-! ## Runs -/

section Runs

variable {ι : Type} {env : AuthEnv} {draw : ι → Draw} {ops : ι → SessionOp}
  {p p' : RecordedPool ι} {pts : ι → CallPoint} {i : ι}

/-- A move of the recorded pool, at its program points. -/
theorem recorded_step [DecidableEq ι] (hat : AtPoints env draw ops p.erase pts)
    (hs : (recordedSystem ι).step p i = some p') :
    ∃ pt', AtPoints env draw ops p'.erase (Function.update pts i pt') ∧
      CallStep env (draw i) (ops i) p.store.1 (pts i) pt' p'.store.1 ∧
      p'.store.2 = p.store.2 ++ coveredNext env (draw i) (ops i) (pts i) p.store.1 := by
  obtain ⟨herase, hlog⟩ := Pool.step_erase hs
  obtain ⟨pt', hat', hcall⟩ := hat.step herase
  refine ⟨pt', hat', hcall, ?_⟩
  have hrest : p.rest i = (pts i).prog env (draw i) (ops i) := hat i
  rw [hlog, coveredNext, hrest]

/-- A guarded move keeps revocation final. -/
theorem revocationFinal_step (hI : PoolInvariant env draw ops p.store.1 pts)
    (howner : OneOwner p.store.1) (hfinal : RevocationFinal p)
    (hat : AtPoints env draw ops p.erase pts) {pt' : CallPoint}
    (hcall : CallStep env (draw i) (ops i) p.store.1 (pts i) pt' p'.store.1)
    (hlog : p'.store.2 = p.store.2 ++ coveredNext env (draw i) (ops i) (pts i) p.store.1)
    (hguard : RotatesUncovered p i p') : RevocationFinal p' := by
  intro r hr hf hnone
  rw [hlog] at hf
  have hlive := RefreshToken.live_iff.mpr hnone
  rcases List.mem_append.mp hf with hf | hf
  swap
  · rw [hcall.covered howner hr hf] at hlive
    cases hlive
  cases hcall.effect with
  | reads hdb _ _ _ =>
    rw [hdb] at hr
    exact hfinal r hr hf hnone
  | revokes q _ hrows _ _ =>
    obtain ⟨r₀, hr₀, hkeys, -, hlive₀⟩ := of_mem_revocation hrows hr
    rw [hkeys.familyId] at hf
    exact hfinal r₀ hr₀ hf (RefreshToken.live_iff.mp (hlive₀ hlive).1)
  | rotates token user hpt _ _ hrows =>
    rcases of_mem_rotation hrows hr with rfl | ⟨r₀, hr₀, -, ⟨rfl, -⟩ | ⟨-, -, hrevoked⟩⟩
    · -- the new row: its family is the one of the row that the guard looks at
      obtain ⟨raw, -, -, r₀, hr₀, hkeys₀⟩ := hI.held i token (by rw [hpt]; rfl)
      have hrest : p.rest i = (pts i).prog env (draw i) (ops i) := hat i
      have hnext : nextRotation (p.rest i) = some token.jti := by
        rw [hrest]
        exact nextRotation_prog.mpr ⟨token, user, hpt, rfl⟩
      refine hguard token.jti hnext r₀ hr₀ hkeys₀.jti ?_
      rw [hkeys₀.familyId]
      exact hf
    · exact hfinal r hr₀ hf hnone
    · rw [hrevoked] at hlive
      cases hlive

/-- An unguarded rotation leaves an unrevoked row in a covered family. -/
theorem guard_of_revocationFinal (hI : PoolInvariant env draw ops p.store.1 pts)
    (hat : AtPoints env draw ops p.erase pts) {pt' : CallPoint}
    (hcall : CallStep env (draw i) (ops i) p.store.1 (pts i) pt' p'.store.1)
    (hlog : p'.store.2 = p.store.2 ++ coveredNext env (draw i) (ops i) (pts i) p.store.1)
    (hfinal : RevocationFinal p') : RotatesUncovered p i p' := by
  intro jti hnext r hr hjti hf
  have hrest : p.rest i = (pts i).prog env (draw i) (ops i) := hat i
  rw [hrest, nextRotation_prog] at hnext
  obtain ⟨token, user, hpt, rfl⟩ := hnext
  obtain ⟨raw, -, -, r₀, hr₀, hkeys₀⟩ := hI.held i token (by rw [hpt]; rfl)
  obtain rfl := AuthDb.eq_of_jti hr hr₀ (hjti.trans hkeys₀.jti.symm)
  have hreturned := hI.rotation_returns hpt hcall
  cases hcall.effect with
  | reads _ hnot _ _ | revokes _ _ _ hnot _ => exact hnot _ hreturned
  | rotates token' user' hpt' _ _ hrows =>
    obtain ⟨rfl, rfl⟩ := CallPoint.rotate.inj (hpt.symm.trans hpt')
    refine hfinal _ (mem_rotation_new hrows) ?_ rfl
    rw [hlog]
    refine List.mem_append_left _ ?_
    rw [hkeys₀.familyId] at hf
    exact hf

end Runs

/-- **Revocation under interleaving**: from a table whose families have one owner
each, a schedule of requests keeps revocation final in every state exactly when
no rotation is committed in a family that a revocation has covered. -/
theorem revocation_final_iff {ι : Type} [DecidableEq ι] (env : AuthEnv) (draw : ι → Draw)
    (ops : ι → SessionOp) (db : AuthDb) (hfresh : FreshCalls env draw ops db)
    (howner : OneOwner db) (schedule : List ι) :
    (recordedSystem ι).Steps RotatesUncovered (recordedPool env draw ops db) schedule ↔
      (recordedSystem ι).Steps (fun _ _ p' => RevocationFinal p')
        (recordedPool env draw ops db) schedule := by
  refine System.steps_iff_guard
    (I := fun p => ∃ pts, AtPoints env draw ops p.erase pts ∧
      PoolInvariant env draw ops p.store.1 pts ∧ OneOwner p.store.1 ∧ RevocationFinal p)
    ?_ ?_ ⟨_, atPoints_authPool db, poolInvariant_init hfresh, howner, nofun⟩
  · rintro p i p' ⟨pts, hat, hI, howner, hfinal⟩ hs
    obtain ⟨pt', -, hcall, hlog⟩ := recorded_step hat hs
    exact ⟨revocationFinal_step hI howner hfinal hat hcall hlog,
      guard_of_revocationFinal hI hat hcall hlog⟩
  · rintro p i p' ⟨pts, hat, hI, howner, hfinal⟩ hs hguard
    obtain ⟨pt', hat', hcall, hlog⟩ := recorded_step hat hs
    exact ⟨_, hat', hI.step hfresh hcall, oneOwner_step hI howner hcall,
      revocationFinal_step hI howner hfinal hat hcall hlog hguard⟩

/-! ## A refresh and a `logout_all` -/

/-- A refresh and a `logout_all` of the same user. -/
def logoutAllOps : Bool → SessionOp
  | false => .refresh "raw-1"
  | true => .logoutAll "user-1"

theorem freshCalls_logoutAll : FreshCalls sampleEnv raceDraw logoutAllOps registeredDb :=
  freshCalls_race fun i => by
    cases i
    · exact Or.inl rfl
    · exact Or.inr nofun

/-- The `logout_all` after the refresh. -/
theorem revocation_final_iff_sequential :
    (recordedSystem Bool).Steps RotatesUncovered
        (recordedPool sampleEnv raceDraw logoutAllOps registeredDb) [false, false, false, true] ↔
      (recordedSystem Bool).Steps (fun _ _ p' => RevocationFinal p')
        (recordedPool sampleEnv raceDraw logoutAllOps registeredDb) [false, false, false, true] :=
  revocation_final_iff sampleEnv raceDraw logoutAllOps registeredDb freshCalls_logoutAll
    (by unfold OneOwner; decide) _

/-- A refresh that has read its row before the `logout_all` leaves an unrevoked
successor in a family that the `logout_all` has covered. -/
theorem logout_all_race :
    ∃ p, (recordedSystem Bool).run (recordedPool sampleEnv raceDraw logoutAllOps registeredDb)
        [false, false, true, false] = some p ∧
      p.store.2 = ["family-1"] ∧ ¬ RevocationFinal p := by
  refine ⟨_, rfl, by decide, fun hfinal => ?_⟩
  exact hfinal (newRefreshToken sampleEnv (sampleDraw "2" 5) "user-1" "family-1")
    (by decide) (by decide) rfl

end ParcelDelivery
