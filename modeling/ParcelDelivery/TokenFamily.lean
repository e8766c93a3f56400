import ParcelDelivery.AuthRuns
import ParcelDelivery.LinkedChain

/-!
# Token families

The invariant of sequential histories: the rows of one `family_id`, in insertion
order, are a linked chain whose first row comes from `_issue_tokens`
(`FamilyChain`), and every operation leaves later versions of the rows it found
(`RefreshToken.Later`). `TokenChain` spells the chain out for a reader of the
table, without its order of insertion.
-/

namespace ParcelDelivery

open Relational TransitionSystem LinkedChain AuthService

/-- The rows of a family, oldest first. -/
def AuthDb.family (db : AuthDb) (familyId : String) : List RefreshToken :=
  db.refreshTokens.selectAll fun r => r.familyId == familyId

theorem AuthDb.mem_family {db : AuthDb} {familyId : String} {r : RefreshToken} :
    r ∈ db.family familyId ↔ r ∈ db.refreshTokens.rows ∧ r.familyId = familyId := by
  simp only [family, Table.selectAll, List.mem_filter, beq_iff_eq]

theorem AuthDb.family_nodup (db : AuthDb) (familyId : String) :
    ((db.family familyId).map RefreshToken.jti).Nodup := by
  have hpair : db.refreshTokens.rows.Pairwise fun r r' => r.jti ≠ r'.jti :=
    db.refreshTokens.unique.imp fun hclash hjti => hclash (Or.inl hjti)
  exact List.pairwise_map.mpr (hpair.sublist List.filter_sublist)

/-! ## Versions of a row -/

namespace RefreshToken

/-- `r'` is `r` at a later instant: `revoked_at` and `replaced_by_jti` may have
been set where they were `NULL`, the rest is the same. -/
structure Later (r r' : RefreshToken) : Prop where
  jti : r'.jti = r.jti
  userId : r'.userId = r.userId
  tokenHash : r'.tokenHash = r.tokenHash
  familyId : r'.familyId = r.familyId
  expiresAt : r'.expiresAt = r.expiresAt
  createdAt : r'.createdAt = r.createdAt
  revokedAt : ∀ t, r.revokedAt = some t → r'.revokedAt = some t
  replacedByJti : ∀ j, r.replacedByJti = some j → r'.replacedByJti = some j

theorem Later.refl (r : RefreshToken) : r.Later r :=
  ⟨rfl, rfl, rfl, rfl, rfl, rfl, fun _ h => h, fun _ h => h⟩

theorem Later.trans {r r' r'' : RefreshToken} (h : r.Later r') (h' : r'.Later r'') :
    r.Later r'' where
  jti := h'.jti.trans h.jti
  userId := h'.userId.trans h.userId
  tokenHash := h'.tokenHash.trans h.tokenHash
  familyId := h'.familyId.trans h.familyId
  expiresAt := h'.expiresAt.trans h.expiresAt
  createdAt := h'.createdAt.trans h.createdAt
  revokedAt t ht := h'.revokedAt t (h.revokedAt t ht)
  replacedByJti j hj := h'.replacedByJti j (h.replacedByJti j hj)

/-- Attributes assigned on an unrevoked row without a successor. -/
theorem Later.assign {r : RefreshToken} (hlive : r.live = true) (hlast : r.replacedByJti = none)
    (revokedAt : Option Time) (replacedByJti : Option String) :
    r.Later (r.assign revokedAt replacedByJti) where
  jti := rfl
  userId := rfl
  tokenHash := rfl
  familyId := rfl
  expiresAt := rfl
  createdAt := rfl
  revokedAt t ht := by rw [live_iff.mp hlive] at ht; cases ht
  replacedByJti j hj := by rw [hlast] at hj; cases hj

/-- `revoked_at` assigned on an unrevoked row. -/
theorem Later.revoke {r : RefreshToken} (hlive : r.live = true) (now : Time) :
    r.Later (r.assign (some now) none) where
  jti := rfl
  userId := rfl
  tokenHash := rfl
  familyId := rfl
  expiresAt := rfl
  createdAt := rfl
  revokedAt t ht := by rw [live_iff.mp hlive] at ht; cases ht
  replacedByJti _ hj := hj

end RefreshToken

/-! ## The invariant of one family -/

/-- The first of the JTIs, and only the first, was issued as a root. -/
def RootFirst (issued jtis : List String) : Prop :=
  ∃ root rest, jtis = root :: rest ∧ root ∈ issued ∧ ∀ j ∈ rest, j ∉ issued

/-- The rows of a family in insertion order: linked one to the next, the first
one issued as a root, one owner, and revoked wherever there is a successor. -/
structure FamilyChain (issued : List String) (l : List RefreshToken) : Prop where
  linked : Linked RefreshToken.jti RefreshToken.replacedByJti l
  root : RootFirst issued (l.map RefreshToken.jti)
  owner : ∀ r ∈ l, ∀ r' ∈ l, r.userId = r'.userId
  revoked : ∀ r ∈ l, r.replacedByJti ≠ none → r.live = false

namespace FamilyChain

variable {issued : List String} {l : List RefreshToken} {t r : RefreshToken}

/-- An unrevoked row has no successor. -/
theorem last_of_live (h : FamilyChain issued l) (hr : r ∈ l) (hlive : r.live = true) :
    r.replacedByJti = none := by
  by_contra hnext
  have hrevoked := h.revoked r hr hnext
  rw [hlive] at hrevoked
  cases hrevoked

/-- A new family. -/
theorem singleton (hissued : r.jti ∈ issued) (hlast : r.replacedByJti = none) :
    FamilyChain issued [r] where
  linked := Linked.singleton hlast
  root := ⟨r.jti, [], rfl, hissued, fun _ hj => nomatch hj⟩
  owner := by
    intro a ha b hb
    rw [List.mem_singleton.mp ha, List.mem_singleton.mp hb]
  revoked := by
    intro a ha hnext
    rw [List.mem_singleton.mp ha] at hnext
    exact absurd hlast hnext

/-- Revoking rows keeps the chain. -/
theorem map {g : RefreshToken → RefreshToken} (h : FamilyChain issued l)
    (hlater : ∀ r ∈ l, r.Later (g r)) (hnext : ∀ r ∈ l, (g r).replacedByJti = r.replacedByJti) :
    FamilyChain issued (l.map g) where
  linked := h.linked.map (fun r hr => (hlater r hr).jti) hnext
  root := by
    have hkeys : (l.map g).map RefreshToken.jti = l.map RefreshToken.jti := by
      rw [List.map_map]
      exact List.map_congr_left fun r hr => (hlater r hr).jti
    rw [hkeys]
    exact h.root
  owner := by
    intro a ha b hb
    obtain ⟨r, hr, rfl⟩ := List.mem_map.mp ha
    obtain ⟨r', hr', rfl⟩ := List.mem_map.mp hb
    rw [(hlater r hr).userId, (hlater r' hr').userId]
    exact h.owner r hr r' hr'
  revoked := by
    intro a ha hsucc
    obtain ⟨r, hr, rfl⟩ := List.mem_map.mp ha
    rw [hnext r hr] at hsucc
    have hrevoked := RefreshToken.not_live_iff.mp (h.revoked r hr hsucc)
    obtain ⟨t, ht⟩ := Option.isSome_iff_exists.mp hrevoked
    rw [RefreshToken.not_live_iff, (hlater r hr).revokedAt t ht]
    rfl

/-- Rotating the last row of a chain. -/
theorem rotate {now : Time} (h : FamilyChain issued (l ++ [t])) (n : RefreshToken)
    (hn : n.replacedByJti = none) (howner : n.userId = t.userId) (hfresh : n.jti ∉ issued) :
    FamilyChain issued (l ++ [t.assign (some now) (some n.jti), n]) where
  linked := h.linked.extend rfl rfl hn
  root := by
    obtain ⟨root, rest, hkeys, hroot, hrest⟩ := h.root
    have hkeys' : (l ++ [t.assign (some now) (some n.jti), n]).map RefreshToken.jti =
        root :: (rest ++ [n.jti]) := by
      rw [← List.cons_append, ← hkeys]
      simp
    refine ⟨root, rest ++ [n.jti], hkeys', hroot, fun j hj => ?_⟩
    rcases List.mem_append.mp hj with hj | hj
    · exact hrest j hj
    · rw [List.mem_singleton.mp hj]
      exact hfresh
  owner := by
    have ht : t ∈ l ++ [t] := List.mem_append_right l (List.mem_singleton_self t)
    have hsame : ∀ r ∈ l ++ [t.assign (some now) (some n.jti), n], r.userId = t.userId := by
      intro r hr
      rcases List.mem_append.mp hr with hr | hr
      · exact h.owner r (List.mem_append_left _ hr) t ht
      · rcases List.mem_pair.mp hr with rfl | rfl
        · rfl
        · exact howner
    intro a ha b hb
    rw [hsame a ha, hsame b hb]
  revoked := by
    intro r hr hsucc
    rcases List.mem_append.mp hr with hr | hr
    · exact h.revoked r (List.mem_append_left _ hr) hsucc
    · rcases List.mem_pair.mp hr with rfl | rfl
      · rfl
      · exact absurd hn hsucc

/-- More roots elsewhere do not touch a chain. -/
theorem issue {j : String} (h : FamilyChain issued l) (hj : j ∉ l.map RefreshToken.jti) :
    FamilyChain (issued ++ [j]) l where
  linked := h.linked
  root := by
    obtain ⟨root, rest, hkeys, hroot, hrest⟩ := h.root
    refine ⟨root, rest, hkeys, List.mem_append_left _ hroot, fun k hk hmem => ?_⟩
    rcases List.mem_append.mp hmem with hmem | hmem
    · exact hrest k hk hmem
    · rw [List.mem_singleton.mp hmem] at hk
      exact hj (hkeys ▸ List.mem_cons_of_mem root hk)
  owner := h.owner
  revoked := h.revoked

end FamilyChain

/-! ## The invariant of the table -/

/-- Every family that has a row is a chain, and the issued roots are in the table. -/
structure TokenInvariant (h : AuthHistory) : Prop where
  family : ∀ familyId,
    h.db.family familyId = [] ∨ FamilyChain h.issued (h.db.family familyId)
  issued : ∀ j ∈ h.issued, ∃ r ∈ h.rows, r.jti = j

/-- Every row of `h` has a later version in `h'`. -/
def AuthHistory.Evolves (h h' : AuthHistory) : Prop :=
  ∀ r ∈ h.rows, ∃ r' ∈ h'.rows, r.Later r'

theorem AuthHistory.Evolves.trans {h₁ h₂ h₃ : AuthHistory} (h : h₁.Evolves h₂)
    (h' : h₂.Evolves h₃) : h₁.Evolves h₃ := by
  intro r hr
  obtain ⟨r', hr', hlater⟩ := h r hr
  obtain ⟨r'', hr'', hlater'⟩ := h' r' hr'
  exact ⟨r'', hr'', hlater.trans hlater'⟩

/-- The families of a table whose rows are rewritten in place, with rows added. -/
theorem AuthDb.family_of_rows {db db' : AuthDb} {g : RefreshToken → RefreshToken}
    {new : List RefreshToken} (hrows : db'.refreshTokens.rows = db.refreshTokens.rows.map g ++ new)
    (hg : ∀ r, (g r).familyId = r.familyId) (familyId : String) :
    db'.family familyId =
      (db.family familyId).map g ++ new.filter fun r => r.familyId == familyId := by
  have hcomp : ((fun r : RefreshToken => r.familyId == familyId) ∘ g) =
      fun r => r.familyId == familyId := funext fun r => by rw [Function.comp_apply, hg]
  simp only [family, Table.selectAll, hrows, List.filter_append, List.filter_map, hcomp]

theorem filter_family_self {r : RefreshToken} {familyId : String} (hf : r.familyId = familyId) :
    [r].filter (fun r => r.familyId == familyId) = [r] := by
  simp [hf]

theorem filter_family_of_ne {r : RefreshToken} {familyId : String} (hf : r.familyId ≠ familyId) :
    [r].filter (fun r => r.familyId == familyId) = [] := by
  simp [hf]

namespace TokenInvariant

variable {env : AuthEnv} {draw : Draw} {h h' : AuthHistory} {r token : RefreshToken}

theorem init (collate : String → String) : TokenInvariant (.init collate) where
  family _ := Or.inl rfl
  issued _ hj := nomatch hj

theorem chain (hI : TokenInvariant h) (hr : r ∈ h.rows) :
    FamilyChain h.issued (h.db.family r.familyId) := by
  rcases hI.family r.familyId with hnil | hchain
  · have hmem := AuthDb.mem_family.mpr ⟨hr, rfl⟩
    rw [hnil] at hmem
    cases hmem
  · exact hchain

theorem last_of_live (hI : TokenInvariant h) (hr : r ∈ h.rows) (hlive : r.live = true) :
    r.replacedByJti = none :=
  (hI.chain hr).last_of_live (AuthDb.mem_family.mpr ⟨hr, rfl⟩) hlive

/-- Rewriting rows keeps the issued roots in the table. -/
theorem issued_of_rows {g : RefreshToken → RefreshToken} {new : List RefreshToken}
    (hI : TokenInvariant h) (hrows : h'.rows = h.rows.map g ++ new)
    (hg : ∀ r, (g r).jti = r.jti) : ∀ j ∈ h.issued, ∃ r ∈ h'.rows, r.jti = j := by
  intro j hj
  obtain ⟨r, hr, hjti⟩ := hI.issued j hj
  refine ⟨g r, ?_, (hg r).trans hjti⟩
  rw [hrows]
  exact List.mem_append_left _ (List.mem_map_of_mem hr)

/-- Bulk revocation keeps the invariant. -/
theorem revoke {p : RefreshToken → Bool} {now : Time} (hI : TokenInvariant h)
    (hrows : h'.rows = (h.db.revokeWhere p now).refreshTokens.rows)
    (hissued : h'.issued = h.issued) : TokenInvariant h' ∧ h.Evolves h' := by
  have hlater : ∀ r : RefreshToken,
      r.Later (if p r && r.live then r.assign (some now) none else r) := by
    intro r
    split
    · rename_i hp
      rw [Bool.and_eq_true] at hp
      exact .revoke hp.2 now
    · exact .refl r
  have hrows' : h'.rows = (h.rows.map fun r =>
      if p r && r.live then r.assign (some now) none else r) ++ [] := by
    rw [hrows, List.append_nil]
    rfl
  refine ⟨⟨fun familyId => ?_, ?_⟩, fun r hr => ⟨_, ?_, hlater r⟩⟩
  · have hfamily := AuthDb.family_of_rows hrows' (fun r => (hlater r).familyId) familyId
    rw [List.filter_nil, List.append_nil] at hfamily
    rw [hfamily, hissued]
    rcases hI.family familyId with hnil | hchain
    · rw [hnil]
      exact Or.inl rfl
    · refine Or.inr (hchain.map (fun r _ => hlater r) fun r _ => ?_)
      split <;> rfl
  · rw [hissued]
    exact hI.issued_of_rows hrows' fun r => (hlater r).jti
  · rw [hrows', List.append_nil]
    exact List.mem_map_of_mem hr

/-- An update by primary key leaves the rows with other keys. -/
theorem map_update_of_ne {rows : List RefreshToken} (h : ∀ r ∈ rows, r.jti ≠ token.jti) :
    rows.map (fun r => if r.jti == token.jti then r.assign (some draw.now) (some draw.jti) else r) =
      rows :=
  (List.map_congr_left fun r hr => if_neg fun heq => h r hr (beq_iff_eq.mp heq)).trans
    (List.map_id rows)

/-- The family of a rotated token: its last row is linked to the new one. -/
theorem chain_of_rotation (hI : TokenInvariant h) (hfresh : draw.Fresh env h.db)
    (hmem : token ∈ h.rows) (hlive : token.live = true) :
    FamilyChain h.issued ((h.db.family token.familyId).map (fun r =>
        if r.jti == token.jti then r.assign (some draw.now) (some draw.jti) else r) ++
      [newRefreshToken env draw token.userId token.familyId]) := by
  have hchain := hI.chain hmem
  obtain ⟨l, hl⟩ := hchain.linked.eq_concat_of_next_none (AuthDb.mem_family.mpr ⟨hmem, rfl⟩)
    (hI.last_of_live hmem hlive)
  have hkeys := h.db.family_nodup token.familyId
  rw [hl] at hchain hkeys ⊢
  -- the rows before the presented one have other keys
  have hbefore : ∀ r ∈ l, r.jti ≠ token.jti := by
    intro r hr
    rw [List.map_append, List.nodup_append] at hkeys
    exact hkeys.2.2 r.jti (List.mem_map_of_mem hr) token.jti
      (List.mem_map_of_mem (List.mem_singleton_self token))
  have hnew : draw.jti ∉ h.issued := by
    intro hj
    obtain ⟨r, hr, hjti⟩ := hI.issued _ hj
    exact (hfresh.jti r hr).1 hjti
  rw [List.map_append, map_update_of_ne hbefore, List.append_assoc, List.map_singleton,
    if_pos (beq_self_eq_true _)]
  exact hchain.rotate (newRefreshToken env draw token.userId token.familyId) rfl rfl hnew

/-- A rotation extends the chain of its family. -/
theorem rotate (hI : TokenInvariant h) (hfresh : draw.Fresh env h.db) (hmem : token ∈ h.rows)
    (hlive : token.live = true)
    (hrows : h'.rows =
      (h.db.updateRefreshToken token.jti (some draw.now) (some draw.jti)).refreshTokens.rows ++
        [newRefreshToken env draw token.userId token.familyId])
    (hissued : h'.issued = h.issued) : TokenInvariant h' ∧ h.Evolves h' := by
  have hlast := hI.last_of_live hmem hlive
  -- the update by primary key reaches exactly the presented row
  have hself : ∀ r ∈ h.rows, r.jti = token.jti → r = token :=
    fun r hr hjti => AuthDb.eq_of_jti hr hmem hjti
  have hlater : ∀ r ∈ h.rows, r.Later
      (if r.jti == token.jti then r.assign (some draw.now) (some draw.jti) else r) := by
    intro r hr
    split
    · rename_i hjti
      obtain rfl := hself r hr (beq_iff_eq.mp hjti)
      exact .assign hlive hlast _ _
    · exact .refl r
  have hfamilyId : ∀ r : RefreshToken,
      (if r.jti == token.jti then r.assign (some draw.now) (some draw.jti) else r).familyId =
        r.familyId := by
    intro r
    split <;> rfl
  have hjti : ∀ r : RefreshToken,
      (if r.jti == token.jti then r.assign (some draw.now) (some draw.jti) else r).jti =
        r.jti := by
    intro r
    split <;> rfl
  refine ⟨⟨fun familyId => ?_, ?_⟩, fun r hr => ⟨_, ?_, hlater r hr⟩⟩
  · rw [AuthDb.family_of_rows hrows hfamilyId familyId, hissued]
    by_cases hf : token.familyId = familyId
    · subst hf
      have hfilter : [newRefreshToken env draw token.userId token.familyId].filter
          (fun r => r.familyId == token.familyId) =
            [newRefreshToken env draw token.userId token.familyId] := filter_family_self rfl
      rw [hfilter]
      exact Or.inr (hI.chain_of_rotation hfresh hmem hlive)
    · have hother : ∀ r ∈ h.db.family familyId, r.jti ≠ token.jti := by
        intro r hr hjti
        obtain ⟨hr, hrf⟩ := AuthDb.mem_family.mp hr
        rw [hself r hr hjti] at hrf
        exact hf hrf
      have hnew := filter_family_of_ne
        (r := newRefreshToken env draw token.userId token.familyId) hf
      rw [hnew, map_update_of_ne hother, List.append_nil]
      exact hI.family familyId
  · rw [hissued]
    exact hI.issued_of_rows hrows hjti
  · rw [hrows]
    exact List.mem_append_left _ (List.mem_map_of_mem hr)

/-- `_issue_tokens` starts a chain. -/
theorem issue {user : User} (hI : TokenInvariant h) (hfresh : draw.Fresh env h.db)
    (hrows : h'.rows = h.rows ++ [newRefreshToken env draw user.id draw.familyId])
    (hissued : h'.issued = h.issued ++ [draw.jti]) : TokenInvariant h' ∧ h.Evolves h' := by
  have hrows' : h'.rows = h.rows.map id ++ [newRefreshToken env draw user.id draw.familyId] := by
    rw [List.map_id]
    exact hrows
  refine ⟨⟨fun familyId => ?_, ?_⟩, fun r hr => ⟨r, ?_, .refl r⟩⟩
  · rw [AuthDb.family_of_rows hrows' (fun _ => rfl) familyId, List.map_id, hissued]
    by_cases hf : draw.familyId = familyId
    · have hnil : h.db.family familyId = [] := by
        refine List.eq_nil_iff_forall_not_mem.mpr fun r hr => ?_
        obtain ⟨hr, hrf⟩ := AuthDb.mem_family.mp hr
        exact hfresh.familyId r hr (hrf.trans hf.symm)
      rw [hnil, List.nil_append, filter_family_self hf]
      exact Or.inr (.singleton (List.mem_append_right _ (List.mem_singleton_self _)) rfl)
    · rw [filter_family_of_ne hf, List.append_nil]
      rcases hI.family familyId with hnil | hchain
      · exact Or.inl hnil
      · refine Or.inr (hchain.issue fun hj => ?_)
        obtain ⟨r, hr, hjti⟩ := List.mem_map.mp hj
        exact (hfresh.jti r (AuthDb.mem_family.mp hr).1).1 hjti
  · rw [hissued]
    intro j hj
    rcases List.mem_append.mp hj with hj | hj
    · exact hI.issued_of_rows hrows' (fun _ => rfl) j hj
    · refine ⟨newRefreshToken env draw user.id draw.familyId, ?_, (List.mem_singleton.mp hj).symm⟩
      rw [hrows]
      exact List.mem_append_right _ (List.mem_singleton_self _)
  · rw [hrows]
    exact List.mem_append_left _ hr

/-- **Every operation keeps the invariant and the history of every row.** -/
theorem step (hI : TokenInvariant h) (hfresh : draw.Fresh env h.db)
    (hchange : TokenChange env draw h h') : TokenInvariant h' ∧ h.Evolves h' := by
  cases hchange with
  | same hrows hissued =>
    have hfamily : ∀ familyId, h'.db.family familyId = h.db.family familyId := fun familyId =>
      congrArg (List.filter fun r : RefreshToken => r.familyId == familyId) hrows
    refine ⟨⟨fun familyId => ?_, ?_⟩, fun r hr => ⟨r, hrows ▸ hr, .refl r⟩⟩
    · rw [hfamily, hissued]
      exact hI.family familyId
    · rw [hissued, hrows]
      exact hI.issued
  | revoked p hrows hissued => exact hI.revoke hrows hissued
  | rotated token hmem hlive hrows hissued => exact hI.rotate hfresh hmem hlive hrows hissued
  | issued user hrows hissued => exact hI.issue hfresh hrows hissued

end TokenInvariant

/-! ## Histories -/

section Histories

variable {env : AuthEnv} {h h' : AuthHistory} {ls : List (AuthOp × Draw)}

/-- The invariant holds after every history with fresh draws. -/
theorem tokenInvariant_run (hI : TokenInvariant h)
    (hfresh : (authSystem env).Steps (FreshDraws env) h ls)
    (hrun : (authSystem env).run h ls = some h') : TokenInvariant h' :=
  System.run_invariant (fun _ _ _ hI hstep hfresh => (hI.step hfresh (authSystem_step hstep)).1)
    hI hfresh hrun

/-- Rows only evolve. -/
theorem evolves_run (hI : TokenInvariant h)
    (hfresh : (authSystem env).Steps (FreshDraws env) h ls)
    (hrun : (authSystem env).run h ls = some h') : h.Evolves h' :=
  System.run_relation (r := AuthHistory.Evolves) (fun _ r hr => ⟨r, hr, .refl r⟩) AuthHistory.Evolves.trans
    (fun _ _ _ hI hstep hfresh => (hI.step hfresh (authSystem_step hstep)).symm) hI hfresh hrun

end Histories

/-- The rows of a family form one finite linear chain. -/
structure TokenChain (h : AuthHistory) (familyId : String) : Prop where
  /-- in insertion order, each row points at the following one -/
  linked : Linked RefreshToken.jti RefreshToken.replacedByJti (h.db.family familyId)
  /-- exactly one row comes from `_issue_tokens` -/
  root : ∃! r, r ∈ h.db.family familyId ∧ r.jti ∈ h.issued
  /-- the root is nobody's successor -/
  root_first : ∀ r ∈ h.db.family familyId, r.jti ∈ h.issued →
    ∀ p ∈ h.rows, p.replacedByJti ≠ some r.jti
  /-- every other row is the successor of exactly one row, of the same family -/
  predecessor : ∀ r ∈ h.db.family familyId, r.jti ∉ h.issued →
    ∃ p ∈ h.db.family familyId, p.replacedByJti = some r.jti ∧
      ∀ q ∈ h.rows, q.replacedByJti = some r.jti → q = p
  /-- links do not leave the family -/
  successor : ∀ p ∈ h.db.family familyId, ∀ j, p.replacedByJti = some j →
    ∃ r ∈ h.db.family familyId, r.jti = j
  /-- links do not branch -/
  no_branch : ∀ p ∈ h.db.family familyId, ∀ q ∈ h.db.family familyId,
    p.replacedByJti = q.replacedByJti → p = q
  /-- links do not cycle -/
  acyclic : ∀ r, ¬ Relation.TransGen
    (Link RefreshToken.jti RefreshToken.replacedByJti (h.db.family familyId)) r r
  /-- one user owns the family -/
  owner : ∀ r ∈ h.db.family familyId, ∀ r' ∈ h.db.family familyId, r.userId = r'.userId
  /-- a row with a successor is revoked -/
  revoked : ∀ r ∈ h.db.family familyId, r.replacedByJti ≠ none → r.revokedAt ≠ none
  /-- only the last row may be unrevoked -/
  last : ∀ r ∈ h.db.family familyId, r.revokedAt = none →
    (h.db.family familyId).getLast? = some r

namespace TokenInvariant

variable {h : AuthHistory} {familyId : String} {p q r : RefreshToken}

/-- A link leads to a row of the same family. -/
theorem successor (hI : TokenInvariant h) (hp : p ∈ h.rows) {j : String}
    (hnext : p.replacedByJti = some j) : ∃ r ∈ h.db.family p.familyId, r.jti = j := by
  have hmem : some j ∈ (h.db.family p.familyId).map RefreshToken.replacedByJti :=
    List.mem_map.mpr ⟨p, AuthDb.mem_family.mpr ⟨hp, rfl⟩, hnext⟩
  rw [(hI.chain hp).linked] at hmem
  rcases List.mem_append.mp hmem with hmem | hmem
  · obtain ⟨r, hr, hjti⟩ := List.mem_map.mp (List.mem_of_mem_tail hmem)
    exact ⟨r, hr, Option.some.inj hjti⟩
  · cases List.mem_singleton.mp hmem

/-- A predecessor is a row of the same family. -/
theorem predecessor_family (hI : TokenInvariant h) (hq : q ∈ h.rows)
    (hr : r ∈ h.db.family familyId) (hnext : q.replacedByJti = some r.jti) :
    q ∈ h.db.family familyId := by
  obtain ⟨hrmem, hrf⟩ := AuthDb.mem_family.mp hr
  obtain ⟨r', hr', hjti⟩ := hI.successor hq hnext
  obtain ⟨hrmem', hrf'⟩ := AuthDb.mem_family.mp hr'
  obtain rfl := AuthDb.eq_of_jti hrmem' hrmem hjti
  exact AuthDb.mem_family.mpr ⟨hq, hrf'.symm.trans hrf⟩

/-- The invariant, read off the table. -/
theorem tokenChain (hI : TokenInvariant h) (hchain : FamilyChain h.issued (h.db.family familyId)) :
    TokenChain h familyId := by
  have hnd := h.db.family_nodup familyId
  obtain ⟨root, rest, hkeys, hroot, hrest⟩ := hchain.root
  obtain ⟨first, l, hl, hfirst, -⟩ := List.map_eq_cons_iff.mp hkeys
  have hhead : (h.db.family familyId).head? = some first := by rw [hl]; rfl
  have hfirstmem : first ∈ h.db.family familyId := List.mem_of_mem_head? hhead
  -- a row is a root exactly when it is the first one
  have hroots : ∀ r ∈ h.db.family familyId, r.jti ∈ h.issued → r = first := by
    intro r hr hissued
    have hmem : r.jti ∈ root :: rest := hkeys ▸ List.mem_map_of_mem hr
    rcases List.mem_cons.mp hmem with hjti | hjti
    · exact Linked.eq_of_key hnd hr hfirstmem (hjti.trans hfirst.symm)
    · exact absurd hissued (hrest _ hjti)
  refine
    { linked := hchain.linked
      root := ⟨first, ⟨hfirstmem, hfirst ▸ hroot⟩, fun r hr => hroots r hr.1 hr.2⟩
      root_first := ?_
      predecessor := ?_
      successor := ?_
      no_branch := fun p hp q hq hnext => Linked.next_injOn hnd hchain.linked hp hq hnext
      acyclic := Linked.acyclic hnd hchain.linked
      owner := hchain.owner
      revoked := ?_
      last := ?_ }
  · intro r hr hissued p hp hnext
    obtain rfl := hroots r hr hissued
    exact Linked.head_no_pred hnd hchain.linked hhead (hI.predecessor_family hp hr hnext) hnext
  · intro r hr hissued
    have hne : (h.db.family familyId).head? ≠ some r := by
      intro heq
      obtain rfl := Option.some.inj (hhead.symm.trans heq)
      exact hissued (hfirst ▸ hroot)
    obtain ⟨p, ⟨hp, hnext⟩, huniq⟩ := Linked.pred_unique hnd hchain.linked hr hne
    refine ⟨p, hp, hnext, fun q hq hqnext => ?_⟩
    exact huniq q ⟨hI.predecessor_family hq hr hqnext, hqnext⟩
  · intro p hp j hnext
    obtain ⟨hpmem, rfl⟩ := AuthDb.mem_family.mp hp
    exact hI.successor hpmem hnext
  · intro r hr hnext hnone
    have hrevoked := hchain.revoked r hr hnext
    rw [RefreshToken.live_iff.mpr hnone] at hrevoked
    cases hrevoked
  · intro r hr hnone
    have hlast := hchain.last_of_live hr (RefreshToken.live_iff.mpr hnone)
    obtain ⟨l₀, hl₀⟩ := hchain.linked.eq_concat_of_next_none hr hlast
    rw [hl₀, List.getLast?_concat]

end TokenInvariant

/-- **Token families are chains**: after every sequential history from the empty
database, and whatever follows, the rows of a family form one chain, and no
`revoked_at` or `replaced_by_jti` that was set changes again. -/
theorem token_families_are_chains (env : AuthEnv) (collate : String → String)
    (ls ls' : List (AuthOp × Draw)) (h h' : AuthHistory)
    (hfresh : (authSystem env).Steps (FreshDraws env) (AuthHistory.init collate) (ls ++ ls'))
    (hrun : (authSystem env).run (AuthHistory.init collate) ls = some h)
    (hrun' : (authSystem env).run h ls' = some h') :
    (∀ r ∈ h.rows, TokenChain h r.familyId) ∧
      ∀ r ∈ h.rows, ∃ r' ∈ h'.rows, r'.jti = r.jti ∧
        (∀ t, r.revokedAt = some t → r'.revokedAt = some t) ∧
        ∀ j, r.replacedByJti = some j → r'.replacedByJti = some j := by
  have hI : TokenInvariant h := tokenInvariant_run (.init collate) hfresh.of_append_left hrun
  refine ⟨fun r hr => hI.tokenChain (hI.chain hr), fun r hr => ?_⟩
  obtain ⟨r', hr', hlater⟩ := evolves_run hI (hfresh.of_append_right hrun) hrun' r hr
  exact ⟨r', hr', hlater.jti, hlater.revokedAt, hlater.replacedByJti⟩

/-- A registration and a rotation, then a reuse of the rotated token. -/
theorem token_families_are_chains_sample :
    ∃ h' : AuthHistory, h'.rows.length = 2 ∧
      (∀ r ∈ sampleHistory.rows, TokenChain sampleHistory r.familyId) ∧
      ∀ r ∈ sampleHistory.rows, ∃ r' ∈ h'.rows, r'.jti = r.jti ∧
        (∀ t, r.revokedAt = some t → r'.revokedAt = some t) ∧
        ∀ j, r.replacedByJti = some j → r'.replacedByJti = some j :=
  ⟨_, by decide, token_families_are_chains sampleEnv foldCase sampleOps
    [(.refresh "raw-1", sampleDraw "3" 6)] sampleHistory _ (by decide) rfl rfl⟩

end ParcelDelivery
