import ParcelDelivery.PoolInvariant

/-!
# Concurrent refreshes of one token

`refresh` reads a row without a lock and later writes it by primary key, so two
requests can both read a row as valid and both rotate it. `SingleUse` is what the
rotation is for: one set of credentials per token, one successor per row, one
unrevoked row per family. A schedule keeps it exactly when no commit links a row
that another request has linked already (`refresh_single_use_iff`), which is what a
conditional update would check.

The invariant `RaceInvariant` is about the rows that can still give a successor:
the unrevoked ones and those that some request holds as valid and nobody has
linked. There is at most one of them in each family.
-/

namespace ParcelDelivery

open Relational Process TransitionSystem AuthService

section Race

variable {ι : Type} {env : AuthEnv} {draw : ι → Draw} {ops : ι → SessionOp}

/-- `p` has returned the credentials of request `i`. -/
def Credentialed (p : AuthPool ι) (i : ι) : Prop :=
  ∃ result, p.rest i = .ret (some result)

/-- Single use of refresh tokens, in one state of the pool. -/
structure SingleUse (env : AuthEnv) (draw : ι → Draw) (ops : ι → SessionOp) (p : AuthPool ι) :
    Prop where
  /-- at most one request that presents a token gets credentials -/
  credentials : ∀ i j rawRefreshToken, ops i = .refresh rawRefreshToken →
    ops j = .refresh rawRefreshToken → Credentialed p i → Credentialed p j → i = j
  /-- a row gets at most one successor: of the requests that present it, at most one
  has its drawn row in the table -/
  successors : ∀ token ∈ p.store.refreshTokens.rows, ∀ i j raw raw',
    ops i = .refresh raw → env.hashToken raw = token.tokenHash →
    ops j = .refresh raw' → env.hashToken raw' = token.tokenHash →
    (∃ r ∈ p.store.refreshTokens.rows, r.jti = (draw i).jti) →
    (∃ r ∈ p.store.refreshTokens.rows, r.jti = (draw j).jti) → i = j
  /-- a family has at most one unrevoked row -/
  live : ∀ r ∈ p.store.refreshTokens.rows, ∀ r' ∈ p.store.refreshTokens.rows,
    r.familyId = r'.familyId → r.revokedAt = none → r'.revokedAt = none → r = r'

/-- No request of the pool has linked the row to its successor. -/
def Unlinked (draw : ι → Draw) (r : RefreshToken) : Prop :=
  ∀ i, r.replacedByJti ≠ some (draw i).jti

/-- The guard of a move: where it commits a rotation, the row is still unlinked. -/
def RotatesUnlinked (draw : ι → Draw) (p : AuthPool ι) (i : ι) (_ : AuthPool ι) : Prop :=
  ∀ jti, nextRotation (p.rest i) = some jti →
    ∀ r ∈ p.store.refreshTokens.rows, r.jti = jti → Unlinked draw r

/-! ## The invariant -/

/-- The row can still get a successor: it is unrevoked, or some request holds it as
valid and it is unlinked. -/
def Rotatable (draw : ι → Draw) (pts : ι → CallPoint) (r : RefreshToken) : Prop :=
  r.live = true ∨ Unlinked draw r ∧ ∃ i token, (pts i).held = some token ∧ token.jti = r.jti

/-- The invariant of guarded schedules. -/
structure RaceInvariant (env : AuthEnv) (draw : ι → Draw) (ops : ι → SessionOp) (db : AuthDb)
    (pts : ι → CallPoint) : Prop extends PoolInvariant env draw ops db pts where
  /-- credentials were returned for a row that is still linked to the drawn one -/
  returned : ∀ i result, pts i = .returned (some result) → ∃ raw, ops i = .refresh raw ∧
    ∃ r ∈ db.refreshTokens.rows, r.tokenHash = env.hashToken raw ∧
      r.replacedByJti = some (draw i).jti
  /-- at most one row of a family can still get a successor -/
  rotatable : ∀ r ∈ db.refreshTokens.rows, ∀ r' ∈ db.refreshTokens.rows,
    r.familyId = r'.familyId → Rotatable draw pts r → Rotatable draw pts r' → r = r'

theorem raceInvariant_init {db : AuthDb} (hfresh : FreshCalls env draw ops db)
    (hlive : ∀ r ∈ db.refreshTokens.rows, ∀ r' ∈ db.refreshTokens.rows,
      r.familyId = r'.familyId → r.revokedAt = none → r'.revokedAt = none → r = r') :
    RaceInvariant env draw ops db fun _ => .start where
  toPoolInvariant := poolInvariant_init hfresh
  returned := nofun
  rotatable := by
    rintro r hr r' hr' hf (hl | ⟨-, _, _, hheld, -⟩) hrot
    · rcases hrot with hl' | ⟨-, _, _, hheld, -⟩
      · exact hlive r hr r' hr' hf (RefreshToken.live_iff.mp hl) (RefreshToken.live_iff.mp hl')
      · cases hheld
    · cases hheld

section Moves

variable [DecidableEq ι] {db db' : AuthDb} {pts : ι → CallPoint} {pt' : CallPoint} {i : ι}
  {token : RefreshToken} {user : User}

/-- A move that returns no credentials keeps what is known of those that did. -/
theorem RaceInvariant.returned_of_update (hI : RaceInvariant env draw ops db pts)
    (hreturned : ∀ result, pt' ≠ .returned (some result)) {j : ι} {result : AuthResult}
    (hj : Function.update pts i pt' j = .returned (some result)) :
    ∃ raw, ops j = .refresh raw ∧ ∃ r ∈ db.refreshTokens.rows,
      r.tokenHash = env.hashToken raw ∧ r.replacedByJti = some (draw j).jti := by
  by_cases hji : j = i
  · subst hji
    rw [Function.update_self] at hj
    exact absurd hj (hreturned result)
  · rw [Function.update_of_ne hji] at hj
    exact hI.returned j result hj

/-- A move makes no row of the table rotatable, except by reading an unrevoked one. -/
theorem rotatable_of_update {r : RefreshToken} (hr : r ∈ db.refreshTokens.rows)
    (hheld : ∀ token, pt'.held = some token → (pts i).held = some token ∨
      token ∈ db.refreshTokens.rows ∧ token.live = true)
    (h : Rotatable draw (Function.update pts i pt') r) : Rotatable draw pts r := by
  rcases h with hlive | ⟨hunlinked, j, token, hj, hjti⟩
  · exact Or.inl hlive
  by_cases hji : j = i
  · subst hji
    rw [Function.update_self] at hj
    rcases hheld token hj with hold | ⟨hmem, hlive⟩
    · exact Or.inr ⟨hunlinked, j, token, hold, hjti⟩
    · rw [← AuthDb.eq_of_jti hmem hr hjti]
      exact Or.inl hlive
  · rw [Function.update_of_ne hji] at hj
    exact Or.inr ⟨hunlinked, j, token, hj, hjti⟩

theorem RaceInvariant.reads (hI : RaceInvariant env draw ops db pts)
    (hpool : PoolInvariant env draw ops db (Function.update pts i pt'))
    (hreturned : ∀ result, pt' ≠ .returned (some result))
    (hheld : ∀ token, pt'.held = some token → (pts i).held = some token ∨
      ∃ rawRefreshToken, ops i = .refresh rawRefreshToken ∧
        db.tokenOf (env.hashToken rawRefreshToken) = some token ∧ token.live = true) :
    RaceInvariant env draw ops db (Function.update pts i pt') where
  toPoolInvariant := hpool
  returned _ _ hj := hI.returned_of_update hreturned hj
  rotatable := by
    have hkeep : ∀ token, pt'.held = some token → (pts i).held = some token ∨
        token ∈ db.refreshTokens.rows ∧ token.live = true := by
      intro token htoken
      rcases hheld token htoken with hold | ⟨raw, -, hsel, hlive⟩
      · exact Or.inl hold
      · exact Or.inr ⟨(AuthDb.tokenOf_eq_some.mp hsel).1, hlive⟩
    intro r hr r' hr' hf hrot hrot'
    exact hI.rotatable r hr r' hr' hf (rotatable_of_update hr hkeep hrot)
      (rotatable_of_update hr' hkeep hrot')

theorem RaceInvariant.revokes {now : Time} {q : RefreshToken → Bool}
    (hI : RaceInvariant env draw ops db pts)
    (hpool : PoolInvariant env draw ops db' (Function.update pts i pt'))
    (hreturned : ∀ result, pt' ≠ .returned (some result)) (hheld : pt'.held = none)
    (hrows : db'.refreshTokens.rows =
      db.refreshTokens.rows.map fun r => if q r then r.assign (some now) none else r) :
    RaceInvariant env draw ops db' (Function.update pts i pt') where
  toPoolInvariant := hpool
  returned := by
    intro j result hj
    obtain ⟨raw, hop, r, hr, hhash, hnext⟩ := hI.returned_of_update hreturned hj
    obtain ⟨r', hr', hkeys, hnext'⟩ := mem_revocation hrows hr
    exact ⟨raw, hop, r', hr', hkeys.tokenHash.trans hhash, hnext'.trans hnext⟩
  rotatable := by
    have hold : ∀ a ∈ db'.refreshTokens.rows, Rotatable draw (Function.update pts i pt') a →
        ∃ r ∈ db.refreshTokens.rows, r.SameKeys a ∧ Rotatable draw pts r := by
      intro a ha hrot
      obtain ⟨r, hr, hkeys, hnext, hlive⟩ := of_mem_revocation hrows ha
      have hrot' : Rotatable draw (Function.update pts i pt') r := by
        rcases hrot with hl | ⟨hunlinked, j, t, hj, hjti⟩
        · exact Or.inl (hlive hl).1
        · refine Or.inr ⟨fun k => ?_, j, t, hj, hjti.trans hkeys.jti⟩
          rw [← hnext]
          exact hunlinked k
      refine ⟨r, hr, hkeys, rotatable_of_update hr (fun t ht => ?_) hrot'⟩
      rw [hheld] at ht
      cases ht
    intro a ha b hb hf hrota hrotb
    obtain ⟨r, hr, hkeys, hrot⟩ := hold a ha hrota
    obtain ⟨r', hr', hkeys', hrot'⟩ := hold b hb hrotb
    have heq : r = r' := hI.rotatable r hr r' hr'
      (hkeys.familyId.symm.trans (hf.trans hkeys'.familyId)) hrot hrot'
    subst heq
    exact AuthDb.eq_of_jti ha hb (hkeys.jti.trans hkeys'.jti.symm)

/-- After a guarded rotation the new row is the only rotatable one of its family. -/
theorem rotatable_of_rotation (hI : RaceInvariant env draw ops db pts)
    (hpt : pts i = .rotate token user)
    (hunlinked : ∀ r ∈ db.refreshTokens.rows, r.jti = token.jti → Unlinked draw r)
    (hrows : db'.refreshTokens.rows =
      (db.updateRefreshToken token.jti (some (draw i).now) (some (draw i).jti)).refreshTokens.rows ++
        [newRefreshToken env (draw i) user.id token.familyId])
    (hheld : pt'.held = none) {a : RefreshToken} (ha : a ∈ db'.refreshTokens.rows)
    (hrot : Rotatable draw (Function.update pts i pt') a) :
    a = newRefreshToken env (draw i) user.id token.familyId ∨
      a ∈ db.refreshTokens.rows ∧ a.familyId ≠ token.familyId ∧ Rotatable draw pts a := by
  have hholds : (pts i).held = some token := by rw [hpt]; rfl
  rcases of_mem_rotation hrows ha with hnew | ⟨r, hr, -, ⟨rfl, hjti⟩ | ⟨-, hnext, hrevoked⟩⟩
  · exact Or.inl hnew
  · have hold : Rotatable draw pts a := rotatable_of_update hr
      (fun t ht => by rw [hheld] at ht; cases ht) hrot
    refine Or.inr ⟨hr, fun hf => ?_, hold⟩
    -- the row that is being rotated is rotatable too, so it would be this one
    obtain ⟨raw, -, -, r₀, hr₀, hkeys₀⟩ := hI.held i token hholds
    have hrot₀ : Rotatable draw pts r₀ :=
      Or.inr ⟨hunlinked r₀ hr₀ hkeys₀.jti, i, token, hholds, hkeys₀.jti.symm⟩
    rw [hI.rotatable a hr r₀ hr₀ (hf.trans hkeys₀.familyId.symm) hold hrot₀] at hjti
    exact hjti hkeys₀.jti
  · -- the rotated row is revoked and linked
    rcases hrot with hlive | ⟨hunlinked', -⟩
    · rw [hrevoked] at hlive
      cases hlive
    · exact absurd hnext (hunlinked' i)

theorem RaceInvariant.rotates (hI : RaceInvariant env draw ops db pts)
    (hpool : PoolInvariant env draw ops db' (Function.update pts i pt'))
    (hpt : pts i = .rotate token user)
    (hunlinked : ∀ r ∈ db.refreshTokens.rows, r.jti = token.jti → Unlinked draw r)
    (hheld : pt'.held = none)
    (hrows : db'.refreshTokens.rows =
      (db.updateRefreshToken token.jti (some (draw i).now) (some (draw i).jti)).refreshTokens.rows ++
        [newRefreshToken env (draw i) user.id token.familyId]) :
    RaceInvariant env draw ops db' (Function.update pts i pt') where
  toPoolInvariant := hpool
  returned := by
    intro j result hj
    by_cases hji : j = i
    · subst hji
      obtain ⟨raw, hop, hhash, r₀, hr₀, hkeys₀⟩ := hI.held j token (by rw [hpt]; rfl)
      obtain ⟨r', hr', hkeys, -, hnext⟩ := mem_rotation hrows hr₀
      refine ⟨raw, hop, r', hr', ?_, hnext hkeys₀.jti⟩
      rw [hkeys.tokenHash, hkeys₀.tokenHash, hhash]
    · rw [Function.update_of_ne hji] at hj
      obtain ⟨raw, hop, r, hr, hraw, hnext⟩ := hI.returned j result hj
      obtain ⟨r', hr', -, hsame, -⟩ := mem_rotation hrows hr
      have hne : r.jti ≠ token.jti := fun hjti => hunlinked r hr hjti j hnext
      rw [hsame hne] at hr'
      exact ⟨raw, hop, r, hr', hraw, hnext⟩
  rotatable := by
    intro a ha b hb hf hrota hrotb
    rcases rotatable_of_rotation hI hpt hunlinked hrows hheld ha hrota with
      rfl | ⟨ha', hfa, hrota'⟩
    · rcases rotatable_of_rotation hI hpt hunlinked hrows hheld hb hrotb with rfl | ⟨-, hfb, -⟩
      · rfl
      · exact absurd hf.symm hfb
    · rcases rotatable_of_rotation hI hpt hunlinked hrows hheld hb hrotb with
        rfl | ⟨hb', -, hrotb'⟩
      · exact absurd hf hfa
      · exact hI.rotatable a ha' b hb' hf hrota' hrotb'

end Moves

/-! ## Runs -/

section Runs

variable {p p' : AuthPool ι} {pts : ι → CallPoint} {i : ι}

theorem returned_of_rest (hat : AtPoints env draw ops p pts) {result : Option AuthResult}
    (h : p.rest i = .ret result) : pts i = .returned result := by
  rw [hat i] at h
  generalize pts i = pt at h ⊢
  cases pt with
  | start => cases hop : ops i <;> rw [hop] at h <;> cases h
  | returned result' => rw [Prog.ret.inj h]
  | revokeFamily _ | refuse _ | selectUser _ | rotate _ _ | endSession _ | raised _ => cases h

theorem Credentialed.returned (hat : AtPoints env draw ops p pts) (h : Credentialed p i) :
    ∃ result, pts i = .returned (some result) := by
  obtain ⟨result, hrest⟩ := h
  exact ⟨result, returned_of_rest hat hrest⟩

theorem credentialed_of_returned (hat : AtPoints env draw ops p pts)
    (h : ∃ result, pts i = .returned (some result)) : Credentialed p i := by
  obtain ⟨result, hi⟩ := h
  exact ⟨result, by rw [hat i, hi]; rfl⟩

/-- The invariant gives single use. -/
theorem RaceInvariant.singleUse {db₀ : AuthDb} (hfresh : FreshCalls env draw ops db₀)
    (hat : AtPoints env draw ops p pts)
    (hI : RaceInvariant env draw ops p.store pts) : SingleUse env draw ops p := by
  -- the row a request presented tells the request, by the link it has put there
  have hsame : ∀ i j raw raw' result result', ops i = .refresh raw → ops j = .refresh raw' →
      env.hashToken raw = env.hashToken raw' → pts i = .returned (some result) →
      pts j = .returned (some result') → i = j := by
    intro i j raw raw' result result' hopᵢ hopⱼ hraw hi hj
    obtain ⟨raw₁, hop₁, r, hr, hr₁, hnext⟩ := hI.returned i result hi
    obtain ⟨raw₂, hop₂, r', hr', hr₂, hnext'⟩ := hI.returned j result' hj
    obtain rfl := SessionOp.refresh.inj (hopᵢ.symm.trans hop₁)
    obtain rfl := SessionOp.refresh.inj (hopⱼ.symm.trans hop₂)
    have heq := AuthDb.eq_of_tokenHash hr hr' (hr₁.trans (hraw.trans hr₂.symm))
    rw [heq, hnext'] at hnext
    exact (hfresh.jti_injective (Option.some.inj hnext)).symm
  refine ⟨fun i j raw hopᵢ hopⱼ hi hj => ?_, fun token _ i j raw raw' hopᵢ hrawᵢ hopⱼ hrawⱼ => ?_,
    fun r hr r' hr' hf hl hl' => ?_⟩
  · obtain ⟨result, hi⟩ := hi.returned hat
    obtain ⟨result', hj⟩ := hj.returned hat
    exact hsame i j raw raw result result' hopᵢ hopⱼ rfl hi hj
  · rintro ⟨r, hr, hjti⟩ ⟨r', hr', hjti'⟩
    obtain ⟨result, hi⟩ := hI.drawn i r hr (Or.inl hjti)
    obtain ⟨result', hj⟩ := hI.drawn j r' hr' (Or.inl hjti')
    exact hsame i j raw raw' result result' hopᵢ hopⱼ (hrawᵢ.trans hrawⱼ.symm) hi hj
  · exact hI.rotatable r hr r' hr' hf (Or.inl (RefreshToken.live_iff.mpr hl))
      (Or.inl (RefreshToken.live_iff.mpr hl'))

variable [DecidableEq ι]

/-- A guarded move keeps the invariant. -/
theorem RaceInvariant.step {db₀ : AuthDb} (hfresh : FreshCalls env draw ops db₀)
    (hat : AtPoints env draw ops p pts)
    (hI : RaceInvariant env draw ops p.store pts)
    (hs : (Pool.system authHandler).step p i = some p')
    (hguard : RotatesUnlinked draw p i p') :
    ∃ pts', AtPoints env draw ops p' pts' ∧ RaceInvariant env draw ops p'.store pts' := by
  obtain ⟨pt', hat', hcall⟩ := hat.step hs
  refine ⟨_, hat', ?_⟩
  have hpool := hI.toPoolInvariant.step hfresh hcall
  cases hcall.effect with
  | reads hdb hreturned hheld howner =>
    rw [hdb] at hpool ⊢
    exact hI.reads hpool hreturned hheld
  | revokes q husers hrows hreturned hheld => exact hI.revokes hpool hreturned hheld hrows
  | rotates token user hpt hpt' husers hrows =>
    refine hI.rotates hpool hpt (hguard token.jti ?_) (by rw [hpt']; rfl) hrows
    rw [hat i]
    exact nextRotation_prog.mpr ⟨token, user, hpt, rfl⟩

/-- An unguarded rotation goes through and breaks single use. -/
theorem RaceInvariant.guard_of_singleUse {db₀ : AuthDb} (hfresh : FreshCalls env draw ops db₀)
    (hat : AtPoints env draw ops p pts) (hI : RaceInvariant env draw ops p.store pts)
    (hs : (Pool.system authHandler).step p i = some p') (huse : SingleUse env draw ops p') :
    RotatesUnlinked draw p i p' := by
  intro jti hnext r hr hjti j hlinked
  rw [hat i, nextRotation_prog] at hnext
  obtain ⟨token, user, hpt, rfl⟩ := hnext
  obtain ⟨raw, hop, hraw, r₀, hr₀, hkeys₀⟩ := hI.held i token (by rw [hpt]; rfl)
  obtain rfl := AuthDb.eq_of_jti hr hr₀ (hjti.trans hkeys₀.jti.symm)
  -- the request that linked the row presented the same token and has its credentials
  obtain ⟨raw', hop', hraw'⟩ := hI.linked j r hr hlinked
  have hraws : raw = raw' := hfresh.hash_injOn ⟨i, Or.inr hop⟩ ⟨j, Or.inr hop'⟩
    (hraw.symm.trans (hkeys₀.tokenHash.symm.trans hraw'))
  subst hraws
  obtain ⟨result, hj⟩ := hI.drawn j r hr (Or.inr (Or.inr hlinked))
  have hji : j ≠ i := by
    rintro rfl
    rw [hpt] at hj
    cases hj
  obtain ⟨pt', hat', hcall⟩ := hat.step hs
  have hreturned := hI.rotation_returns hpt hcall
  refine hji (huse.credentials j i raw hop' hop ?_ ?_)
  · refine credentialed_of_returned hat' ⟨result, ?_⟩
    rw [Function.update_of_ne hji]
    exact hj
  · refine credentialed_of_returned hat' ⟨authResult env (draw i) user, ?_⟩
    rw [Function.update_self]
    exact hreturned

end Runs

end Race

/-- **Single use under interleaving**: from a table with at most one unrevoked row
in each family, a schedule of requests keeps single use in every state exactly when
every rotation it commits finds its row unlinked. -/
theorem refresh_single_use_iff {ι : Type} [DecidableEq ι] (env : AuthEnv) (draw : ι → Draw)
    (ops : ι → SessionOp) (db : AuthDb) (hfresh : FreshCalls env draw ops db)
    (hlive : ∀ r ∈ db.refreshTokens.rows, ∀ r' ∈ db.refreshTokens.rows,
      r.familyId = r'.familyId → r.revokedAt = none → r'.revokedAt = none → r = r')
    (schedule : List ι) :
    SingleUse env draw ops (authPool env draw ops db) ∧
      ((Pool.system authHandler).Steps (RotatesUnlinked draw) (authPool env draw ops db) schedule ↔
        (Pool.system authHandler).Steps (fun _ _ p' => SingleUse env draw ops p')
          (authPool env draw ops db) schedule) := by
  have hinit : RaceInvariant env draw ops db fun _ => .start := raceInvariant_init hfresh hlive
  refine ⟨hinit.singleUse hfresh (atPoints_authPool db), ?_⟩
  refine System.steps_iff_guard
    (I := fun p => ∃ pts, AtPoints env draw ops p pts ∧ RaceInvariant env draw ops p.store pts)
    ?_ ?_ ⟨_, atPoints_authPool db, hinit⟩
  · rintro p i p' ⟨pts, hat, hI⟩ hs
    refine ⟨?_, ?_⟩
    · intro hguard
      obtain ⟨pts', hat', hI'⟩ := hI.step hfresh hat hs hguard
      exact hI'.singleUse hfresh hat'
    · exact hI.guard_of_singleUse hfresh hat hs
  · rintro p i p' ⟨pts, hat, hI⟩ hs hguard
    exact hI.step hfresh hat hs hguard

/-! ## Two requests with one token -/

/-- Two requests that present the same token. -/
def raceOps (_ : Bool) : SessionOp := .refresh "raw-1"

theorem registeredDb_live : ∀ r ∈ registeredDb.refreshTokens.rows,
    ∀ r' ∈ registeredDb.refreshTokens.rows, r.familyId = r'.familyId → r.revokedAt = none →
      r'.revokedAt = none → r = r' := by
  decide

/-- Two requests one after the other. -/
theorem refresh_single_use_iff_sequential :
    SingleUse sampleEnv raceDraw raceOps (authPool sampleEnv raceDraw raceOps registeredDb) ∧
      ((Pool.system authHandler).Steps (RotatesUnlinked raceDraw)
          (authPool sampleEnv raceDraw raceOps registeredDb) [false, false, false, true, true] ↔
        (Pool.system authHandler).Steps (fun _ _ p' => SingleUse sampleEnv raceDraw raceOps p')
          (authPool sampleEnv raceDraw raceOps registeredDb) [false, false, false, true, true]) :=
  refresh_single_use_iff sampleEnv raceDraw raceOps registeredDb
    (freshCalls_race fun _ => Or.inl rfl) registeredDb_live _

/-- When both requests read the row before either commits, both return credentials,
and two rows of the family are unrevoked. -/
theorem refresh_race :
    FreshCalls sampleEnv raceDraw raceOps registeredDb ∧
      (∀ r ∈ registeredDb.refreshTokens.rows, ∀ r' ∈ registeredDb.refreshTokens.rows,
        r.familyId = r'.familyId → r.revokedAt = none → r'.revokedAt = none → r = r') ∧
      ∃ p, (Pool.system authHandler).run (authPool sampleEnv raceDraw raceOps registeredDb)
          [false, true, false, true, false, true] = some p ∧
        Credentialed p false ∧ Credentialed p true ∧
        (p.store.refreshTokens.rows.filter fun r => r.live && r.familyId == "family-1").length = 2 ∧
        ¬ SingleUse sampleEnv raceDraw raceOps p := by
  refine ⟨freshCalls_race fun _ => Or.inl rfl, registeredDb_live, _, rfl, ⟨_, rfl⟩, ⟨_, rfl⟩, by decide, fun huse => ?_⟩
  cases huse.credentials false true "raw-1" rfl rfl ⟨_, rfl⟩ ⟨_, rfl⟩

end ParcelDelivery
