import ParcelDelivery.AuthPool
import Mathlib.Data.Set.Operations

/-!
# What interleaved session requests never break

`PoolInvariant` relates the token table to the program points of the requests,
under every interleaving: a held row stays in the table, and a row shows a drawn
value only after the request that drew it has returned. The races of the next
modules are about what is not in this list.
-/

namespace ParcelDelivery

open Relational Process TransitionSystem AuthService

/-- The columns that no statement ever updates agree. -/
structure RefreshToken.SameKeys (r r' : RefreshToken) : Prop where
  jti : r'.jti = r.jti
  userId : r'.userId = r.userId
  tokenHash : r'.tokenHash = r.tokenHash
  familyId : r'.familyId = r.familyId

theorem RefreshToken.SameKeys.refl (r : RefreshToken) : r.SameKeys r := ⟨rfl, rfl, rfl, rfl⟩

theorem RefreshToken.SameKeys.assign (r : RefreshToken) (revokedAt : Option Time)
    (replacedByJti : Option String) : r.SameKeys (r.assign revokedAt replacedByJti) :=
  ⟨rfl, rfl, rfl, rfl⟩

theorem RefreshToken.SameKeys.trans {r r' r'' : RefreshToken} (h : r.SameKeys r')
    (h' : r'.SameKeys r'') : r.SameKeys r'' :=
  ⟨h'.jti.trans h.jti, h'.userId.trans h.userId, h'.tokenHash.trans h.tokenHash,
    h'.familyId.trans h.familyId⟩

/-! ## Rows before and after a commit -/

section Rows

variable {env : AuthEnv} {draw : Draw} {db db' : AuthDb} {token : RefreshToken} {user : User}
  {q : RefreshToken → Bool} {now : Time} {r r' : RefreshToken}

/-- The row that a revocation leaves in the place of `r`. -/
theorem mem_revocation (hrows : db'.refreshTokens.rows =
      db.refreshTokens.rows.map fun r => if q r then r.assign (some now) none else r)
    (hr : r ∈ db.refreshTokens.rows) :
    ∃ r' ∈ db'.refreshTokens.rows, r.SameKeys r' ∧ r'.replacedByJti = r.replacedByJti := by
  refine ⟨if q r then r.assign (some now) none else r, ?_, ?_⟩
  · rw [hrows]
    exact List.mem_map_of_mem hr
  · split
    · exact ⟨.assign r _ _, rfl⟩
    · exact ⟨.refl r, rfl⟩

/-- The row that a revocation has found in the place of `r'`. -/
theorem of_mem_revocation (hrows : db'.refreshTokens.rows =
      db.refreshTokens.rows.map fun r => if q r then r.assign (some now) none else r)
    (hr' : r' ∈ db'.refreshTokens.rows) :
    ∃ r ∈ db.refreshTokens.rows, r.SameKeys r' ∧ r'.replacedByJti = r.replacedByJti ∧
      (r'.live = true → r.live = true ∧ q r = false) := by
  rw [hrows] at hr'
  obtain ⟨r, hr, rfl⟩ := List.mem_map.mp hr'
  refine ⟨r, hr, ?_⟩
  by_cases hq : q r = true
  · rw [if_pos hq]
    exact ⟨.assign r _ _, rfl, nofun⟩
  · rw [if_neg hq]
    exact ⟨.refl r, rfl, fun hlive => ⟨hlive, Bool.not_eq_true _ ▸ hq⟩⟩

/-- The row that a rotation leaves in the place of `r`. -/
theorem mem_rotation (hrows : db'.refreshTokens.rows =
      (db.updateRefreshToken token.jti (some draw.now) (some draw.jti)).refreshTokens.rows ++
        [newRefreshToken env draw user.id token.familyId])
    (hr : r ∈ db.refreshTokens.rows) :
    ∃ r' ∈ db'.refreshTokens.rows, r.SameKeys r' ∧ (r.jti ≠ token.jti → r' = r) ∧
      (r.jti = token.jti → r'.replacedByJti = some draw.jti) := by
  refine ⟨if r.jti == token.jti then r.assign (some draw.now) (some draw.jti) else r, ?_, ?_⟩
  · rw [hrows]
    exact List.mem_append_left _ (List.mem_map_of_mem hr)
  · by_cases hjti : r.jti = token.jti
    · rw [if_pos (beq_iff_eq.mpr hjti)]
      exact ⟨.assign r _ _, fun hne => absurd hjti hne, fun _ => rfl⟩
    · rw [if_neg (by simp [hjti])]
      exact ⟨.refl r, fun _ => rfl, fun heq => absurd heq hjti⟩

/-- The row that a rotation has found in the place of `r'`, unless `r'` is new. -/
theorem of_mem_rotation (hrows : db'.refreshTokens.rows =
      (db.updateRefreshToken token.jti (some draw.now) (some draw.jti)).refreshTokens.rows ++
        [newRefreshToken env draw user.id token.familyId])
    (hr' : r' ∈ db'.refreshTokens.rows) :
    r' = newRefreshToken env draw user.id token.familyId ∨
      ∃ r ∈ db.refreshTokens.rows, r.SameKeys r' ∧
        (r' = r ∧ r.jti ≠ token.jti ∨
          r.jti = token.jti ∧ r'.replacedByJti = some draw.jti ∧ r'.live = false) := by
  rw [hrows] at hr'
  rcases List.mem_append.mp hr' with hr' | hr'
  · obtain ⟨r, hr, rfl⟩ := AuthDb.mem_updateRefreshToken.mp hr'
    refine Or.inr ⟨r, hr, ?_⟩
    by_cases hjti : r.jti = token.jti
    · rw [if_pos (beq_iff_eq.mpr hjti)]
      exact ⟨.assign r _ _, Or.inr ⟨hjti, rfl, rfl⟩⟩
    · rw [if_neg (by simp [hjti])]
      exact ⟨.refl r, Or.inl ⟨rfl, hjti⟩⟩
  · exact Or.inl (List.mem_singleton.mp hr')

theorem mem_rotation_new (hrows : db'.refreshTokens.rows =
      (db.updateRefreshToken token.jti (some draw.now) (some draw.jti)).refreshTokens.rows ++
        [newRefreshToken env draw user.id token.familyId]) :
    newRefreshToken env draw user.id token.familyId ∈ db'.refreshTokens.rows := by
  rw [hrows]
  exact List.mem_append_right _ (List.mem_singleton_self _)

end Rows

/-! ## The invariant -/

section Invariant

variable {ι : Type} {env : AuthEnv} {draw : ι → Draw} {ops : ι → SessionOp}

/-- The requests draw different JTIs and raw tokens, none of them in the table, and
`hash_token` does not collide on the tokens they draw or present. -/
structure FreshCalls (env : AuthEnv) (draw : ι → Draw) (ops : ι → SessionOp) (db : AuthDb) :
    Prop where
  hash_injOn : Set.InjOn env.hashToken
    {raw | ∃ i, (draw i).rawToken = raw ∨ ops i = .refresh raw}
  jti_injective : Function.Injective fun i => (draw i).jti
  rawToken_injective : Function.Injective fun i => (draw i).rawToken
  jti : ∀ i, ∀ r ∈ db.refreshTokens.rows,
    r.jti ≠ (draw i).jti ∧ r.replacedByJti ≠ some (draw i).jti
  rawToken : ∀ i, ∀ r ∈ db.refreshTokens.rows, r.tokenHash ≠ env.hashToken (draw i).rawToken

theorem FreshCalls.drawn_hash_injective {db : AuthDb} (h : FreshCalls env draw ops db) :
    Function.Injective fun i => env.hashToken (draw i).rawToken := by
  intro i j heq
  exact h.rawToken_injective (h.hash_injOn ⟨i, Or.inl rfl⟩ ⟨j, Or.inl rfl⟩ heq)

/-- The table and the program points, under every interleaving. -/
structure PoolInvariant (env : AuthEnv) (draw : ι → Draw) (ops : ι → SessionOp) (db : AuthDb)
    (pts : ι → CallPoint) : Prop where
  /-- a held row is the presented one, and still in the table -/
  held : ∀ i token, (pts i).held = some token → ∃ raw, ops i = .refresh raw ∧
    token.tokenHash = env.hashToken raw ∧ ∃ r ∈ db.refreshTokens.rows, token.SameKeys r
  /-- the user of a rotation exists -/
  owner : ∀ i token user, pts i = .rotate token user → db.userOf token.userId = some user
  /-- only a request that returned credentials has linked a row or added one -/
  drawn : ∀ i, ∀ r ∈ db.refreshTokens.rows,
    r.jti = (draw i).jti ∨ r.tokenHash = env.hashToken (draw i).rawToken ∨
      r.replacedByJti = some (draw i).jti → ∃ result, pts i = .returned (some result)
  /-- a linked row was presented by the request that linked it -/
  linked : ∀ i, ∀ r ∈ db.refreshTokens.rows, r.replacedByJti = some (draw i).jti →
    ∃ raw, ops i = .refresh raw ∧ r.tokenHash = env.hashToken raw

theorem poolInvariant_init {db : AuthDb} (hfresh : FreshCalls env draw ops db) :
    PoolInvariant env draw ops db fun _ => .start where
  held := nofun
  owner _ _ _ hpt := by cases hpt
  drawn := by
    rintro i r hr (hjti | hhash | hnext)
    · exact absurd hjti (hfresh.jti i r hr).1
    · exact absurd hhash (hfresh.rawToken i r hr)
    · exact absurd hnext (hfresh.jti i r hr).2
  linked i r hr hnext := absurd hnext (hfresh.jti i r hr).2

variable [DecidableEq ι] {db db' : AuthDb} {pts : ι → CallPoint} {pt' : CallPoint} {i : ι}
  {token : RefreshToken} {user : User}

/-- A move keeps the requests that have returned. -/
theorem returned_of_update (hmoves : ∀ result, pts i ≠ .returned result) {j : ι}
    {result : Option AuthResult} (h : pts j = .returned result) :
    Function.update pts i pt' j = .returned result := by
  have hj : j ≠ i := by
    rintro rfl
    exact hmoves result h
  rw [Function.update_of_ne hj]
  exact h

namespace PoolInvariant

theorem reads (hI : PoolInvariant env draw ops db pts)
    (hmoves : ∀ result, pts i ≠ .returned result)
    (hheld : ∀ token, pt'.held = some token → (pts i).held = some token ∨
      ∃ rawRefreshToken, ops i = .refresh rawRefreshToken ∧
        db.tokenOf (env.hashToken rawRefreshToken) = some token ∧ token.live = true)
    (howner : ∀ token user, pt' = .rotate token user → db.userOf token.userId = some user) :
    PoolInvariant env draw ops db (Function.update pts i pt') where
  held := by
    intro j token hj
    by_cases hji : j = i
    · subst hji
      rw [Function.update_self] at hj
      rcases hheld token hj with hold | ⟨raw, hop, hsel, -⟩
      · exact hI.held j token hold
      · obtain ⟨hmem, hhash⟩ := AuthDb.tokenOf_eq_some.mp hsel
        exact ⟨raw, hop, hhash, token, hmem, .refl token⟩
    · rw [Function.update_of_ne hji] at hj
      exact hI.held j token hj
  owner := by
    intro j token user hj
    by_cases hji : j = i
    · subst hji
      rw [Function.update_self] at hj
      exact howner token user hj
    · rw [Function.update_of_ne hji] at hj
      exact hI.owner j token user hj
  drawn := by
    intro j r hr hdrawn
    obtain ⟨result, hj⟩ := hI.drawn j r hr hdrawn
    exact ⟨result, returned_of_update hmoves hj⟩
  linked := hI.linked

omit [DecidableEq ι] in
/-- Revoking rows keeps the invariant at unchanged points. -/
theorem revokes {now : Time} {q : RefreshToken → Bool} (hI : PoolInvariant env draw ops db pts)
    (husers : db'.users = db.users)
    (hrows : db'.refreshTokens.rows =
      db.refreshTokens.rows.map fun r => if q r then r.assign (some now) none else r) :
    PoolInvariant env draw ops db' pts where
  held := by
    intro j token hj
    obtain ⟨raw, hop, hhash, r, hr, hkeys⟩ := hI.held j token hj
    obtain ⟨r', hr', hkeys', -⟩ := mem_revocation hrows hr
    exact ⟨raw, hop, hhash, r', hr', hkeys.trans hkeys'⟩
  owner := by
    intro j token user hj
    rw [AuthDb.userOf, husers]
    exact hI.owner j token user hj
  drawn := by
    intro j r' hr' hdrawn
    obtain ⟨r, hr, hkeys, hnext, -⟩ := of_mem_revocation hrows hr'
    rw [hkeys.jti, hkeys.tokenHash, hnext] at hdrawn
    exact hI.drawn j r hr hdrawn
  linked := by
    intro j r' hr' hlinked
    obtain ⟨r, hr, hkeys, hnext, -⟩ := of_mem_revocation hrows hr'
    obtain ⟨raw, hop, hraw⟩ := hI.linked j r hr (hnext.symm.trans hlinked)
    exact ⟨raw, hop, hkeys.tokenHash.trans hraw⟩

section Rotation

variable {db₀ : AuthDb} (hfresh : FreshCalls env draw ops db₀)
  (hI : PoolInvariant env draw ops db pts) (hpt : pts i = .rotate token user)
  (hpt' : pt' = .returned (some (authResult env (draw i) user)))
  (hrows : db'.refreshTokens.rows =
    (db.updateRefreshToken token.jti (some (draw i).now) (some (draw i).jti)).refreshTokens.rows ++
      [newRefreshToken env (draw i) user.id token.familyId])

include hfresh hI hpt hpt' hrows

/-- After a rotation the drawn values are still only where requests have returned. -/
theorem drawn_of_rotation {j : ι} {r' : RefreshToken} (hr' : r' ∈ db'.refreshTokens.rows)
    (hdrawn : r'.jti = (draw j).jti ∨ r'.tokenHash = env.hashToken (draw j).rawToken ∨
      r'.replacedByJti = some (draw j).jti) :
    ∃ result, Function.update pts i pt' j = .returned (some result) := by
  have hmoves : ∀ result, pts i ≠ .returned result := by
    intro result heq
    rw [hpt] at heq
    cases heq
  have hmine : j = i → ∃ result, Function.update pts i pt' j = .returned (some result) := by
    rintro rfl
    exact ⟨_, (Function.update_self ..).trans hpt'⟩
  have hold : ∀ r ∈ db.refreshTokens.rows, r.jti = (draw j).jti ∨
      r.tokenHash = env.hashToken (draw j).rawToken ∨ r.replacedByJti = some (draw j).jti →
      ∃ result, Function.update pts i pt' j = .returned (some result) := by
    intro r hr hdrawn
    obtain ⟨result, hj⟩ := hI.drawn j r hr hdrawn
    exact ⟨result, returned_of_update hmoves hj⟩
  rcases of_mem_rotation hrows hr' with rfl | ⟨r, hr, hkeys, ⟨rfl, -⟩ | ⟨-, hnext, -⟩⟩
  · -- the new row
    rcases hdrawn with hjti | hh | hnext
    · exact hmine (hfresh.jti_injective hjti).symm
    · exact hmine (hfresh.drawn_hash_injective hh).symm
    · cases hnext
  · exact hold r' hr hdrawn
  · -- the row that is linked to it
    rcases hdrawn with hj | hj | hj
    · exact hold r hr (Or.inl (hkeys.jti.symm.trans hj))
    · exact hold r hr (Or.inr (Or.inl (hkeys.tokenHash.symm.trans hj)))
    · exact hmine (hfresh.jti_injective (Option.some.inj (hnext.symm.trans hj))).symm

omit [DecidableEq ι] hpt' in
/-- After a rotation the linked rows are still presented ones. -/
theorem linked_of_rotation {j : ι} {r' : RefreshToken} (hr' : r' ∈ db'.refreshTokens.rows)
    (hlinked : r'.replacedByJti = some (draw j).jti) :
    ∃ raw, ops j = .refresh raw ∧ r'.tokenHash = env.hashToken raw := by
  obtain ⟨raw, hop, hhash, r₀, hr₀, hkeys₀⟩ := hI.held i token (by rw [hpt]; rfl)
  rcases of_mem_rotation hrows hr' with rfl | ⟨r, hr, hkeys, ⟨rfl, -⟩ | ⟨hjti, hnext, -⟩⟩
  · cases hlinked
  · exact hI.linked j r' hr hlinked
  · obtain rfl : i = j := hfresh.jti_injective (Option.some.inj (hnext.symm.trans hlinked))
    have heq : r = r₀ := AuthDb.eq_of_jti hr hr₀ (hjti.trans hkeys₀.jti.symm)
    refine ⟨raw, hop, ?_⟩
    rw [hkeys.tokenHash, heq, hkeys₀.tokenHash, hhash]

theorem rotates (husers : db'.users = db.users) :
    PoolInvariant env draw ops db' (Function.update pts i pt') := by
  have hself : Function.update pts i pt' i = .returned (some (authResult env (draw i) user)) := by
    rw [Function.update_self, hpt']
  exact
    { held := by
        intro j t hj
        have hji : j ≠ i := by
          rintro rfl
          rw [hself] at hj
          cases hj
        rw [Function.update_of_ne hji] at hj
        obtain ⟨raw, hop, hhash, r, hr, hkeys⟩ := hI.held j t hj
        obtain ⟨r', hr', hkeys', -⟩ := mem_rotation hrows hr
        exact ⟨raw, hop, hhash, r', hr', hkeys.trans hkeys'⟩
      owner := by
        intro j t u hj
        have hji : j ≠ i := by
          rintro rfl
          rw [hself] at hj
          cases hj
        rw [Function.update_of_ne hji] at hj
        rw [AuthDb.userOf, husers]
        exact hI.owner j t u hj
      drawn := fun _ _ hr' hdrawn => drawn_of_rotation hfresh hI hpt hpt' hrows hr' hdrawn
      linked := fun _ _ hr' hlinked => linked_of_rotation hfresh hI hpt hrows hr' hlinked }

end Rotation

/-- **Every move keeps the invariant.** -/
theorem step {db₀ : AuthDb} (hfresh : FreshCalls env draw ops db₀)
    (hI : PoolInvariant env draw ops db pts)
    (hcall : CallStep env (draw i) (ops i) db (pts i) pt' db') :
    PoolInvariant env draw ops db' (Function.update pts i pt') := by
  have hmoves := hcall.not_returned
  cases hcall.effect with
  | reads hdb hreturned hheld howner =>
    rw [hdb]
    exact hI.reads hmoves hheld howner
  | revokes q husers hrows hreturned hheld =>
    refine PoolInvariant.revokes (hI.reads hmoves (fun token htoken => ?_) fun token user heq => ?_)
      husers hrows
    · rw [hheld] at htoken
      cases htoken
    · rw [heq] at hheld
      cases hheld
  | rotates token user hpt hpt' husers hrows => exact rotates hfresh hI hpt hpt' hrows husers

omit [DecidableEq ι] in
/-- The commit of a rotation is not refused: the drawn values are not in the table. -/
theorem rotation_returns (hI : PoolInvariant env draw ops db pts) (hpt : pts i = .rotate token user)
    (hcall : CallStep env (draw i) (ops i) db (pts i) pt' db') :
    pt' = .returned (some (authResult env (draw i) user)) := by
  have hnew : ∀ r ∈ db.refreshTokens.rows,
      r.jti ≠ (draw i).jti ∧ r.tokenHash ≠ env.hashToken (draw i).rawToken := by
    intro r hr
    refine ⟨fun h => ?_, fun h => ?_⟩
    · obtain ⟨_, hi⟩ := hI.drawn i r hr (Or.inl h)
      rw [hpt] at hi
      cases hi
    · obtain ⟨_, hi⟩ := hI.drawn i r hr (Or.inr (Or.inl h))
      rw [hpt] at hi
      cases hi
  rw [hpt] at hcall
  rcases hcall.of_rotate with hnone | hreturned
  · obtain ⟨db', hsome⟩ := rotation_of_new hnew (hI.owner i token user hpt)
    cases hnone.symm.trans hsome
  · exact hreturned

end PoolInvariant

end Invariant

/-! ## Sample values -/

/-- The database after one registration. -/
def registeredDb : AuthDb :=
  ((AuthHistory.init foldCase).exec sampleEnv (.register "a@example.com" "secret")
    (sampleDraw "1" 0)).2.db

/-- The draws of two requests. -/
def raceDraw : Bool → Draw
  | false => sampleDraw "2" 5
  | true => sampleDraw "3" 6

/-- Two requests that present no other token than `raw-1`. -/
theorem freshCalls_race {ops : Bool → SessionOp}
    (hops : ∀ i, ops i = .refresh "raw-1" ∨ (∀ raw, ops i ≠ .refresh raw)) :
    FreshCalls sampleEnv raceDraw ops registeredDb where
  hash_injOn := by
    have hmem : ∀ raw, (∃ i, (raceDraw i).rawToken = raw ∨ ops i = .refresh raw) →
        raw ∈ ["raw-1", "raw-2", "raw-3"] := by
      rintro raw ⟨i, rfl | hop⟩
      · cases i <;> decide
      · rcases hops i with hop' | hnot
        · obtain rfl := SessionOp.refresh.inj (hop'.symm.trans hop)
          decide
        · exact absurd hop (hnot raw)
    have hinj : ∀ a ∈ ["raw-1", "raw-2", "raw-3"], ∀ b ∈ ["raw-1", "raw-2", "raw-3"],
        sampleEnv.hashToken a = sampleEnv.hashToken b → a = b := by decide
    exact fun a ha b hb => hinj a (hmem a ha) b (hmem b hb)
  jti_injective := by
    intro i j
    cases i <;> cases j <;> decide
  rawToken_injective := by
    intro i j
    cases i <;> cases j <;> decide
  jti := by decide
  rawToken := by decide

end ParcelDelivery
