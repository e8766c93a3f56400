import ParcelDelivery.WriteAtomicity

/-!
# Registrations in parallel

Any number of `register` calls for one email over one database, interleaved at the
granularity of one database call. What the calls do to each other is told by a small model
(`raceModel`): a call is at a program point, and at most one of them has committed its user.
The pool refines it (`implements_of_step`), so that facts about the model are facts about
the calls.

A call that has made its `SELECT` before the user was committed cannot end in the
documented error any more, and so the calls share the email as they should exactly when
the first of them commits before any other begins (`concurrent_registration_iff`).
-/

namespace ParcelDelivery

open Relational Process TransitionSystem AuthService

/-! ## The model -/

/-- Where a registration stands between two database calls. -/
inductive RegisterPoint : Type where
  /-- before the first call -/
  | start
  /-- the email was free, the password has been hashed -/
  | checked (hashedPassword : String)
  /-- the user has been committed -/
  | committed (hashedPassword : String)
  /-- the user has been reloaded -/
  | issuing (hashedPassword : String)
  | returned (hashedPassword : String)
  /-- the email was registered -/
  | taken
  /-- the password was refused -/
  | rejected (e : Exn)
  /-- the unique constraint has refused the user -/
  | refused

namespace RegisterPoint

/-- The call has committed its user. -/
def won : RegisterPoint → Option String
  | committed hashedPassword => some hashedPassword
  | issuing hashedPassword => some hashedPassword
  | returned hashedPassword => some hashedPassword
  | _ => none

/-- The call has found the email free. -/
def passed : RegisterPoint → Bool
  | start => false
  | taken => false
  | _ => true

/-- What is left of the call at a point. -/
def prog (env : AuthEnv) (draw : Draw) (email password : String) :
    RegisterPoint → AuthProg AuthResult
  | start => AuthService.register env draw email password
  | checked hashedPassword => registerRest env draw email hashedPassword
  | committed _ =>
    .call (AuthCmd.refreshUser draw.userId) fun (user : User) => issueTokens env draw user
  | issuing hashedPassword => issueTokens env draw (newUser draw email hashedPassword)
  | returned hashedPassword => .ret (authResult env draw (newUser draw email hashedPassword))
  | taken => .throw (.businessError "Email already registered")
  | rejected e => .throw e
  | refused => .throw .integrityError

end RegisterPoint

section Race

variable {ι : Type} [DecidableEq ι]

/-- The points of the calls, the call that has committed its user, under its hash, and whether
the token of that user is committed. -/
structure RegisterRace (ι : Type) : Type where
  pts : ι → RegisterPoint
  winner : Option (ι × String)
  issued : Bool

/-- The next point of a call, by the password's hash and whether the email is registered. -/
def RegisterPoint.next (hash : Except Exn String) (registered : Bool) :
    RegisterPoint → Option RegisterPoint
  | start =>
    if registered then some taken
    else
      match hash with
      | .error e => some (rejected e)
      | .ok hashedPassword => some (checked hashedPassword)
  | checked hashedPassword => some (if registered then refused else committed hashedPassword)
  | committed hashedPassword => some (issuing hashedPassword)
  | issuing hashedPassword => some (returned hashedPassword)
  | _ => none

/-- Call `i` gets to a point. -/
def RegisterRace.arrive (m : RegisterRace ι) (i : ι) (point : RegisterPoint) : RegisterRace ι where
  pts := Function.update m.pts i point
  winner :=
    match point with
    | .committed hashedPassword => some (i, hashedPassword)
    | _ => m.winner
  issued :=
    match point with
    | .returned _ => true
    | _ => m.issued

@[simp] theorem RegisterRace.arrive_pts_self (m : RegisterRace ι) (i : ι) (point : RegisterPoint) :
    (m.arrive i point).pts i = point := Function.update_self ..

theorem RegisterRace.arrive_pts_of_ne {m : RegisterRace ι} {i j : ι} {point : RegisterPoint}
    (hj : j ≠ i) : (m.arrive i point).pts j = m.pts j := Function.update_of_ne hj ..

/-- Interleavings of the calls. -/
def raceModel (hash : ι → Except Exn String) : System (RegisterRace ι) ι where
  step m i := ((m.pts i).next (hash i) m.winner.isSome).map (m.arrive i)

theorem raceModel_step {hash : ι → Except Exn String} {m : RegisterRace ι} {i : ι}
    {point : RegisterPoint} (hnext : (m.pts i).next (hash i) m.winner.isSome = some point) :
    (raceModel hash).step m i = some (m.arrive i point) := by
  simp only [raceModel, hnext, Option.map_some]

/-- Before any call. -/
def RegisterRace.init : RegisterRace ι := ⟨fun _ => .start, none, false⟩

/-! ## The calls -/

/-- A pool of registrations. -/
abbrev RegisterPool (ι : Type) : Type :=
  Pool ι AuthDb AuthCmd AuthCmd.Answer Exn AuthResult

/-- Registrations of an email before their first database call: call `i` has the password
`password i` and the values `draw i`. -/
def registerPool (env : AuthEnv) (draw : ι → Draw) (email : String) (password : ι → String)
    (db : AuthDb) : RegisterPool ι where
  store := db
  rest i := AuthService.register env (draw i) email (password i)

/-- The drawn identifiers and tokens are in no row, and the email is in none, as the database
compares it. -/
structure FreshRegistrations (env : AuthEnv) (draw : ι → Draw) (email : String) (db : AuthDb) :
    Prop where
  email : ∀ u ∈ db.users.rows, ¬ sqlEq db.collate u.email email
  userId : ∀ i, ∀ u ∈ db.users.rows, u.id ≠ (draw i).userId
  token : ∀ i, ∀ r ∈ db.refreshTokens.rows,
    r.jti ≠ (draw i).jti ∧ r.tokenHash ≠ env.hashToken (draw i).rawToken

/-- The calls that have committed are the winner. -/
structure RegisterRace.Consistent (m : RegisterRace ι) : Prop where
  won_iff : ∀ i hashedPassword, (m.pts i).won = some hashedPassword ↔
    m.winner = some (i, hashedPassword)
  issued_iff : m.issued = true ↔ ∃ i hashedPassword, m.pts i = .returned hashedPassword

/-- The pool is at a state of the model. -/
structure Implements (env : AuthEnv) (draw : ι → Draw) (email : String) (password : ι → String)
    (db : AuthDb) (p : RegisterPool ι) (m : RegisterRace ι) : Prop where
  rest : ∀ i, p.rest i = (m.pts i).prog env (draw i) email (password i)
  collate : p.store.collate = db.collate
  users : p.store.users.rows = db.users.rows ++
    (m.winner.map fun w => newUser (draw w.1) email w.2).toList
  tokens : p.store.refreshTokens.rows = db.refreshTokens.rows ++
    (m.winner.filter fun _ => m.issued).toList.map fun w =>
      newRefreshToken env (draw w.1) (draw w.1).userId (draw w.1).familyId
  consistent : m.Consistent

section Step

variable {env : AuthEnv} {draw : ι → Draw} {email : String} {password : ι → String} {db : AuthDb}
  {p p' : RegisterPool ι} {m : RegisterRace ι} {i : ι} {point : RegisterPoint}
  {hash : ι → Except Exn String}

/-- A call that gets to a point where it has won as much as before. -/
theorem RegisterRace.Consistent.same (h : m.Consistent) (hwon : point.won = (m.pts i).won)
    (hcommitted : ∀ hashedPassword, point ≠ .committed hashedPassword)
    (hreturned : ∀ hashedPassword, point ≠ .returned hashedPassword)
    (hbefore : ∀ hashedPassword, m.pts i ≠ .returned hashedPassword) :
    (m.arrive i point).Consistent ∧ (m.arrive i point).winner = m.winner ∧
      (m.arrive i point).issued = m.issued := by
  have hwinner : (m.arrive i point).winner = m.winner := by
    cases point with
    | committed hashedPassword => exact absurd rfl (hcommitted hashedPassword)
    | _ => rfl
  have hissued : (m.arrive i point).issued = m.issued := by
    cases point with
    | returned hashedPassword => exact absurd rfl (hreturned hashedPassword)
    | _ => rfl
  refine ⟨⟨fun j hashedPassword => ?_, ?_⟩, hwinner, hissued⟩
  · rw [hwinner, ← h.won_iff]
    by_cases hj : j = i
    · subst hj
      rw [RegisterRace.arrive_pts_self, hwon]
    · rw [RegisterRace.arrive_pts_of_ne hj]
  · rw [hissued, h.issued_iff]
    refine exists_congr fun j => exists_congr fun hashedPassword => ?_
    by_cases hj : j = i
    · subst hj
      rw [RegisterRace.arrive_pts_self]
      exact iff_of_false (hbefore hashedPassword) (hreturned hashedPassword)
    · rw [RegisterRace.arrive_pts_of_ne hj]

omit [DecidableEq ι] in
/-- Nothing is issued before a call has won. -/
theorem RegisterRace.Consistent.not_issued (h : m.Consistent) (hwinner : m.winner = none) :
    m.issued = false := by
  by_contra hissued
  rw [Bool.not_eq_false, h.issued_iff] at hissued
  obtain ⟨j, hashedPassword, hreturned⟩ := hissued
  have hwon := (h.won_iff j hashedPassword).mp (by rw [hreturned]; rfl)
  exact nomatch hwinner.symm.trans hwon

/-- The first call that commits its user. -/
theorem RegisterRace.Consistent.commit (h : m.Consistent) (hwinner : m.winner = none)
    (hashedPassword : String) : (m.arrive i (.committed hashedPassword)).Consistent := by
  have hnone : ∀ j hashedPassword, (m.pts j).won ≠ some hashedPassword := by
    intro j hashedPassword hwon
    exact nomatch hwinner.symm.trans ((h.won_iff j hashedPassword).mp hwon)
  refine ⟨fun j hashedPassword' => ?_, ?_⟩
  · by_cases hj : j = i
    · subst hj
      simp [RegisterRace.arrive, RegisterPoint.won]
    · rw [RegisterRace.arrive_pts_of_ne hj]
      refine iff_of_false (hnone j hashedPassword') fun heq => hj ?_
      exact (Prod.mk.inj (Option.some.inj heq)).1.symm
  · rw [show (m.arrive i (.committed hashedPassword)).issued = m.issued from rfl,
      h.not_issued hwinner]
    refine iff_of_false Bool.false_ne_true ?_
    rintro ⟨j, hashedPassword', hreturned⟩
    by_cases hj : j = i
    · subst hj
      rw [RegisterRace.arrive_pts_self] at hreturned
      cases hreturned
    · rw [RegisterRace.arrive_pts_of_ne hj] at hreturned
      exact hnone j hashedPassword' (by rw [hreturned]; rfl)

/-- The winner's token is committed. -/
theorem RegisterRace.Consistent.issue (h : m.Consistent) {hashedPassword : String}
    (hpt : m.pts i = .issuing hashedPassword) :
    (m.arrive i (.returned hashedPassword)).Consistent := by
  refine ⟨fun j hashedPassword' => ?_, ?_⟩
  · rw [show (m.arrive i (.returned hashedPassword)).winner = m.winner from rfl, ← h.won_iff]
    by_cases hj : j = i
    · subst hj
      rw [RegisterRace.arrive_pts_self, hpt]
      rfl
    · rw [RegisterRace.arrive_pts_of_ne hj]
  · refine iff_of_true rfl ⟨i, hashedPassword, ?_⟩
    rw [RegisterRace.arrive_pts_self]

omit [DecidableEq ι] in
/-- The email is registered once a call has won. -/
theorem Implements.registered (h : Implements env draw email password db p m)
    (hfresh : FreshRegistrations env draw email db) :
    (p.store.userByEmail email).isSome = m.winner.isSome := by
  rw [AuthDb.userByEmail, Table.select, h.users, h.collate]
  cases m.winner with
  | none =>
    rw [Option.map_none, Option.toList_none, List.append_nil]
    refine Option.isSome_eq_false_iff.mpr (Option.isNone_iff_eq_none.mpr ?_)
    exact List.find?_eq_none.mpr hfresh.email
  | some w =>
    refine List.find?_isSome.mpr ⟨newUser (draw w.1) email w.2, ?_, beq_self_eq_true _⟩
    exact List.mem_append_right _ (List.mem_singleton_self _)

/-- A call gets to a point: its program and the store are those of the point. -/
theorem Implements.arrive (h : Implements env draw email password db p m)
    (hothers : ∀ j, j ≠ i → p'.rest j = p.rest j)
    (hrest : p'.rest i = point.prog env (draw i) email (password i))
    (hcollate : p'.store.collate = p.store.collate)
    (husers : p'.store.users.rows = db.users.rows ++
      ((m.arrive i point).winner.map fun w => newUser (draw w.1) email w.2).toList)
    (htokens : p'.store.refreshTokens.rows = db.refreshTokens.rows ++
      ((m.arrive i point).winner.filter fun _ => (m.arrive i point).issued).toList.map fun w =>
        newRefreshToken env (draw w.1) (draw w.1).userId (draw w.1).familyId)
    (hconsistent : (m.arrive i point).Consistent) :
    Implements env draw email password db p' (m.arrive i point) := by
  refine ⟨fun j => ?_, hcollate.trans h.collate, husers, htokens, hconsistent⟩
  by_cases hj : j = i
  · subst hj
    rw [hrest, RegisterRace.arrive_pts_self]
  · rw [hothers j hj, h.rest, RegisterRace.arrive_pts_of_ne hj]

/-- A call that leaves the store as it is and wins nothing by it. -/
theorem Implements.read (h : Implements env draw email password db p m)
    (hstore : p'.store = p.store) (hothers : ∀ j, j ≠ i → p'.rest j = p.rest j)
    (hrest : p'.rest i = point.prog env (draw i) email (password i))
    (hwon : point.won = (m.pts i).won)
    (hcommitted : ∀ hashedPassword, point ≠ .committed hashedPassword)
    (hreturned : ∀ hashedPassword, point ≠ .returned hashedPassword)
    (hbefore : ∀ hashedPassword, m.pts i ≠ .returned hashedPassword) :
    Implements env draw email password db p' (m.arrive i point) := by
  obtain ⟨hconsistent, hwinner, hissued⟩ := h.consistent.same hwon hcommitted hreturned hbefore
  refine h.arrive hothers hrest (by rw [hstore]) ?_ ?_ hconsistent
  · rw [hstore, hwinner, h.users]
  · simp only [hstore, hwinner, hissued, h.tokens]

/-- The `SELECT` of a call. -/
theorem Implements.select (hfresh : FreshRegistrations env draw email db)
    (h : Implements env draw email password db p m) (hpt : m.pts i = .start)
    (hstep : (Pool.system authHandler).step p i = some p') :
    ∃ m', (raceModel fun i => env.hashPassword (password i) (draw i).salt).step m i = some m' ∧
      Implements env draw email password db p' m' := by
  have hprog := h.rest i
  rw [hpt] at hprog
  obtain ⟨hstore, hrest, hothers⟩ := Pool.step_call (hprog.trans register_eq) hstep
  have hregistered := h.registered hfresh
  rw [handler_selectUserByEmail] at hstore hrest
  cases hselect : p.store.userByEmail email with
  | some u =>
    rw [hselect] at hregistered
    refine ⟨m.arrive i .taken, raceModel_step ?_, h.read hstore hothers ?_ (by rw [hpt]; rfl)
      (by simp) (by simp) (by simp [hpt])⟩
    · rw [hpt, ← hregistered]
      rfl
    · rw [hrest, hselect]
      rfl
  | none =>
    rw [hselect] at hregistered
    cases hhash : env.hashPassword (password i) (draw i).salt with
    | error e =>
      refine ⟨m.arrive i (.rejected e), raceModel_step ?_, h.read hstore hothers ?_
        (by rw [hpt]; rfl) (by simp) (by simp) (by simp [hpt])⟩
      · rw [hpt, ← hregistered, hhash]
        rfl
      · simp only [hrest, hselect, Prog.resume_ok, hhash]
        rfl
    | ok hashedPassword =>
      refine ⟨m.arrive i (.checked hashedPassword), raceModel_step ?_, h.read hstore hothers ?_
        (by rw [hpt]; rfl) (by simp) (by simp) (by simp [hpt])⟩
      · rw [hpt, ← hregistered, hhash]
        rfl
      · simp only [hrest, hselect, Prog.resume_ok, hhash]
        rfl

/-- The first commit of a call. -/
theorem Implements.commitUser (hfresh : FreshRegistrations env draw email db)
    (h : Implements env draw email password db p m) {hashedPassword : String}
    (hpt : m.pts i = .checked hashedPassword)
    (hstep : (Pool.system authHandler).step p i = some p') :
    ∃ m', (raceModel fun i => env.hashPassword (password i) (draw i).salt).step m i = some m' ∧
      Implements env draw email password db p' m' := by
  have hprog := h.rest i
  rw [hpt] at hprog
  obtain ⟨hstore, hrest, hothers⟩ := Pool.step_call hprog hstep
  cases hwinner : m.winner with
  | none =>
    have hnew : ∀ u ∈ p.store.users.rows, u.id ≠ (newUser (draw i) email hashedPassword).id ∧
        ¬ sqlEq p.store.collate u.email (newUser (draw i) email hashedPassword).email := by
      simp only [h.users, h.collate, hwinner, Option.map_none, Option.toList_none, List.append_nil]
      exact fun u hu => ⟨hfresh.userId i u hu, hfresh.email u hu⟩
    obtain ⟨db₁, hins⟩ := AuthDb.insertUser_of_fresh hnew
    obtain ⟨hcollate, htokens, hrows, -⟩ := AuthDb.insertUser_eq_some hins
    have hcommit := (newUser_committed hins).1
    rw [hcommit] at hstore hrest
    refine ⟨m.arrive i (.committed hashedPassword), raceModel_step ?_,
      h.arrive hothers ?_ ?_ ?_ ?_ (h.consistent.commit hwinner hashedPassword)⟩
    · rw [hpt, hwinner]
      rfl
    · exact hrest
    · rw [hstore, hcollate]
    · rw [hstore, hrows, h.users, hwinner]
      simp [RegisterRace.arrive]
    · rw [hstore, htokens, h.tokens, hwinner]
      simp [RegisterRace.arrive, h.consistent.not_issued hwinner]
  | some w =>
    -- the winner's row has the email
    have hins : p.store.insertUser (newUser (draw i) email hashedPassword) = none := by
      by_contra hsome
      obtain ⟨db₁, hins⟩ := Option.ne_none_iff_exists'.mp hsome
      obtain ⟨-, -, -, hfree⟩ := AuthDb.insertUser_eq_some hins
      refine (hfree (newUser (draw w.1) email w.2) ?_).2 (beq_self_eq_true _)
      rw [h.users, hwinner]
      exact List.mem_append_right _ (List.mem_singleton_self _)
    have hcommit := newUser_refused hins
    rw [hcommit] at hstore hrest
    refine ⟨m.arrive i .refused, raceModel_step ?_, h.read hstore hothers hrest
      (by rw [hpt]; rfl) nofun nofun (by rw [hpt]; nofun)⟩
    rw [hpt, hwinner]
    rfl

/-- The reload of the winner. -/
theorem Implements.reload (h : Implements env draw email password db p m) {hashedPassword : String}
    (hpt : m.pts i = .committed hashedPassword)
    (hstep : (Pool.system authHandler).step p i = some p') :
    ∃ m', (raceModel fun i => env.hashPassword (password i) (draw i).salt).step m i = some m' ∧
      Implements env draw email password db p' m' := by
  have hprog := h.rest i
  rw [hpt] at hprog
  obtain ⟨hstore, hrest, hothers⟩ := Pool.step_call hprog hstep
  have hwinner : m.winner = some (i, hashedPassword) :=
    (h.consistent.won_iff i hashedPassword).mp (by rw [hpt]; rfl)
  have hself : p.store.users.select (fun u => u.id == (draw i).userId) =
      some (newUser (draw i) email hashedPassword) := by
    rw [Table.select_eq_some fun u u' h h' => (beq_iff_eq.mp h).trans (beq_iff_eq.mp h').symm,
      h.users, hwinner]
    exact ⟨List.mem_append_right _ (List.mem_singleton_self _), beq_self_eq_true _⟩
  have hreload : authHandler (.refreshUser (draw i).userId) p.store =
      (.ok (newUser (draw i) email hashedPassword), p.store) := by
    rw [authHandler, hself]
  rw [hreload] at hstore hrest
  refine ⟨m.arrive i (.issuing hashedPassword), raceModel_step ?_, h.read hstore hothers hrest
    (by rw [hpt]; rfl) (by simp) (by simp) (by simp [hpt])⟩
  rw [hpt]
  rfl

/-- The second commit of the winner. -/
theorem Implements.commitToken (hfresh : FreshRegistrations env draw email db)
    (h : Implements env draw email password db p m) {hashedPassword : String}
    (hpt : m.pts i = .issuing hashedPassword)
    (hstep : (Pool.system authHandler).step p i = some p') :
    ∃ m', (raceModel fun i => env.hashPassword (password i) (draw i).salt).step m i = some m' ∧
      Implements env draw email password db p' m' := by
  have hprog := h.rest i
  rw [hpt] at hprog
  obtain ⟨hstore, hrest, hothers⟩ := Pool.step_call hprog hstep
  have hwinner : m.winner = some (i, hashedPassword) :=
    (h.consistent.won_iff i hashedPassword).mp (by rw [hpt]; rfl)
  have hissued : m.issued = false := by
    by_contra htrue
    rw [Bool.not_eq_false, h.consistent.issued_iff] at htrue
    obtain ⟨j, hashedPassword', hreturned⟩ := htrue
    have hwinner' := (h.consistent.won_iff j hashedPassword').mp (by rw [hreturned]; rfl)
    obtain ⟨rfl, -⟩ := Prod.mk.inj (Option.some.inj (hwinner.symm.trans hwinner'))
    exact nomatch hpt.symm.trans hreturned
  have htokens : p.store.refreshTokens.rows = db.refreshTokens.rows := by
    rw [h.tokens, hissued, hwinner]
    simp
  have howner : (p.store.userOf (draw i).userId).isSome = true := by
    cases huser : p.store.userOf (draw i).userId with
    | some user => rfl
    | none =>
      refine absurd rfl (AuthDb.userOf_eq_none.mp huser (newUser (draw i) email hashedPassword) ?_)
      rw [h.users, hwinner]
      exact List.mem_append_right _ (List.mem_singleton_self _)
  have hnew : ∀ r ∈ p.store.refreshTokens.rows,
      r.jti ≠ (newRefreshToken env (draw i) (draw i).userId (draw i).familyId).jti ∧
        r.tokenHash ≠ (newRefreshToken env (draw i) (draw i).userId (draw i).familyId).tokenHash := by
    rw [htokens]
    exact hfresh.token i
  obtain ⟨db', hins⟩ := AuthDb.insertRefreshToken_of_fresh howner hnew
  obtain ⟨husers, -, htokens', -⟩ := AuthDb.insertRefreshToken_eq_some hins
  have hcommit := handler_commit_some (AuthDb.commit_insertRefreshToken.trans hins)
  have hstore' : p'.store = db' := hstore.trans (congrArg Prod.snd hcommit)
  refine ⟨m.arrive i (.returned hashedPassword), raceModel_step ?_,
    h.arrive hothers ?_ ?_ ?_ ?_ (h.consistent.issue hpt)⟩
  · rw [hpt]
    rfl
  · exact hrest.trans (congrArg (Prog.resume _) (congrArg Prod.fst hcommit))
  · rw [hstore', AuthDb.collate_insertRefreshToken hins]
  · rw [hstore', husers, h.users]
    rfl
  · rw [hstore', htokens', htokens]
    rw [show (m.arrive i (.returned hashedPassword)).winner = m.winner from rfl, hwinner]
    rfl

/-- **The calls refine the model**: a database call of one of them is a step of the model. -/
theorem implements_of_step (hfresh : FreshRegistrations env draw email db)
    (h : Implements env draw email password db p m)
    (hstep : (Pool.system authHandler).step p i = some p') :
    ∃ m', (raceModel fun i => env.hashPassword (password i) (draw i).salt).step m i = some m' ∧
      Implements env draw email password db p' m' := by
  have hrest := h.rest i
  -- a call that has ended has no move
  have hended : ∀ {m : AuthProg AuthResult}, p.rest i = m → m.next? = none → False := by
    intro prog hprog hnext
    obtain ⟨c, k, hcall, -⟩ := Pool.step_eq_some hstep
    rw [← hprog, hcall] at hnext
    cases hnext
  cases hpt : m.pts i with
  | start => exact h.select hfresh hpt hstep
  | checked hashedPassword => exact h.commitUser hfresh hpt hstep
  | committed hashedPassword => exact h.reload hpt hstep
  | issuing hashedPassword => exact h.commitToken hfresh hpt hstep
  | returned _ | taken | rejected _ | refused =>
    rw [hpt] at hrest
    exact (hended hrest rfl).elim

end Step

/-! ## Runs of the model -/

section ModelRuns

variable {hash : ι → Except Exn String} {m m' : RegisterRace ι} {i j w : ι} {schedule : List ι}

/-- Inversion of a step of the model. -/
theorem raceModel_step_eq_some (hstep : (raceModel hash).step m i = some m') :
    ∃ point, (m.pts i).next (hash i) m.winner.isSome = some point ∧ m' = m.arrive i point := by
  obtain ⟨point, hnext, rfl⟩ := Option.map_eq_some_iff.mp hstep
  exact ⟨point, hnext, rfl⟩

/-- A call that has found the email free is never told that it is registered. -/
theorem RegisterPoint.passed_of_next {point point' : RegisterPoint} {result : Except Exn String}
    {registered : Bool} (hpassed : point.passed = true)
    (hnext : point.next result registered = some point') : point'.passed = true := by
  cases point with
  | start => cases hpassed
  | checked hashedPassword =>
    obtain rfl := Option.some.inj hnext
    cases registered with
    | true | false => rfl
  | committed hashedPassword | issuing hashedPassword =>
    obtain rfl := Option.some.inj hnext
    rfl
  | returned _ | taken | rejected _ | refused => cases hnext

/-- The first `SELECT` of a call finds the email free until a call has won. -/
theorem RegisterPoint.of_start {point : RegisterPoint} {result : Except Exn String}
    (hnext : RegisterPoint.start.next result false = some point) :
    (∃ hashedPassword, point = .checked hashedPassword) ∨ ∃ e, point = .rejected e := by
  cases result with
  | error e => exact Or.inr ⟨e, (Option.some.inj hnext).symm⟩
  | ok hashedPassword => exact Or.inl ⟨hashedPassword, (Option.some.inj hnext).symm⟩

theorem RegisterPoint.passed_of_start {point : RegisterPoint} {result : Except Exn String}
    (hnext : RegisterPoint.start.next result false = some point) : point.passed = true := by
  obtain ⟨hashedPassword, rfl⟩ | ⟨e, rfl⟩ := RegisterPoint.of_start hnext
  · rfl
  · rfl

theorem RegisterPoint.hash_of_rejected {point : RegisterPoint} {result : Except Exn String}
    {registered : Bool} {e : Exn} (hnext : point.next result registered = some (.rejected e)) :
    result = .error e := by
  cases point with
  | start =>
    cases registered with
    | true => cases hnext
    | false =>
      cases result with
      | error e' =>
        cases hnext
        rfl
      | ok hashedPassword => cases hnext
  | checked hashedPassword => cases registered <;> cases hnext
  | committed _ | issuing _ | returned _ | taken | rejected _ | refused => cases hnext

theorem passed_of_step (hpassed : (m.pts j).passed = true)
    (hstep : (raceModel hash).step m i = some m') : (m'.pts j).passed = true := by
  obtain ⟨point, hnext, rfl⟩ := raceModel_step_eq_some hstep
  by_cases hj : j = i
  · subst hj
    rw [RegisterRace.arrive_pts_self]
    exact RegisterPoint.passed_of_next hpassed hnext
  · rw [RegisterRace.arrive_pts_of_ne hj]
    exact hpassed

theorem passed_of_run (hpassed : (m.pts j).passed = true)
    (hrun : (raceModel hash).run m schedule = some m') : (m'.pts j).passed = true :=
  System.run_preserves (I := fun m => (m.pts j).passed = true)
    (fun _ _ _ h hstep => passed_of_step h hstep) hpassed hrun

/-- A call ends in the error of its hash only. -/
theorem rejected_of_run (hrun : (raceModel hash).run RegisterRace.init schedule = some m) {e : Exn}
    (hpt : m.pts i = .rejected e) : hash i = .error e := by
  have hall : ∀ i e, m.pts i = .rejected e → hash i = .error e := by
    refine System.run_preserves
      (I := fun m => ∀ i e, m.pts i = RegisterPoint.rejected e → hash i = .error e) ?_ ?_ hrun
    case refine_2 =>
      intro i e hpt
      cases hpt
    intro m j m' hm hstep i e hpt
    obtain ⟨point, hnext, rfl⟩ := raceModel_step_eq_some hstep
    by_cases hi : i = j
    · subst hi
      rw [RegisterRace.arrive_pts_self] at hpt
      subst hpt
      exact RegisterPoint.hash_of_rejected hnext
    · rw [RegisterRace.arrive_pts_of_ne hi] at hpt
      exact hm i e hpt
  exact hall i e hpt

/-- Call `i` has won, and no other call has found the email free. -/
def RegisterRace.WonBy (m : RegisterRace ι) (i : ι) : Prop :=
  (∃ hashedPassword, m.winner = some (i, hashedPassword)) ∧
    ∀ j, j ≠ i → m.pts j = .start ∨ m.pts j = .taken

/-- Once a call has won, no point of the model is a win. -/
theorem RegisterPoint.next_registered {point point' : RegisterPoint}
    {result : Except Exn String} (hnext : point.next result true = some point') :
    (point = .start → point' = .taken) ∧
      ∀ hashedPassword, point' ≠ .committed hashedPassword := by
  cases point with
  | start =>
    obtain rfl := Option.some.inj hnext
    exact ⟨fun _ => rfl, nofun⟩
  | checked _ | committed _ | issuing _ =>
    obtain rfl := Option.some.inj hnext
    exact ⟨nofun, nofun⟩
  | returned _ | taken | rejected _ | refused => cases hnext

theorem RegisterRace.WonBy.step (h : m.WonBy w) (hstep : (raceModel hash).step m i = some m') :
    m'.WonBy w := by
  obtain ⟨⟨hashedPassword, hwinner⟩, hothers⟩ := h
  obtain ⟨point, hnext, rfl⟩ := raceModel_step_eq_some hstep
  rw [hwinner, Option.isSome_some] at hnext
  obtain ⟨hstart, hcommitted⟩ := RegisterPoint.next_registered hnext
  refine ⟨⟨hashedPassword, ?_⟩, fun j hj => ?_⟩
  · rw [← hwinner]
    cases point with
    | committed hashedPassword' => exact absurd rfl (hcommitted hashedPassword')
    | _ => rfl
  · by_cases hji : j = i
    · subst hji
      rw [RegisterRace.arrive_pts_self]
      rcases hothers j hj with hpt | hpt
      · exact Or.inr (hstart hpt)
      · rw [hpt] at hnext
        cases hnext
    · rw [RegisterRace.arrive_pts_of_ne hji]
      exact hothers j hj

theorem RegisterRace.WonBy.run (h : m.WonBy w)
    (hrun : (raceModel hash).run m schedule = some m') : m'.WonBy w :=
  System.run_preserves (I := fun m => RegisterRace.WonBy m w) (fun _ _ _ h hstep => h.step hstep)
    h hrun

/-- The first move of all: the call gets past the check, and nobody has won. -/
theorem first_step (hstep : (raceModel hash).step RegisterRace.init i = some m) :
    ((∃ hashedPassword, m.pts i = .checked hashedPassword) ∨ ∃ e, m.pts i = .rejected e) ∧
      m.winner = none ∧ ∀ j, j ≠ i → m.pts j = .start := by
  obtain ⟨point, hnext, rfl⟩ := raceModel_step_eq_some hstep
  refine ⟨?_, ?_, fun j hj => RegisterRace.arrive_pts_of_ne hj⟩
  · rw [RegisterRace.arrive_pts_self]
    exact RegisterPoint.of_start hnext
  · obtain ⟨hashedPassword, rfl⟩ | ⟨e, rfl⟩ := RegisterPoint.of_start hnext
    · rfl
    · rfl

/-- The call that moved first moves again: it wins. -/
theorem wonBy_of_second {m₁ : RegisterRace ι}
    (hfirst : (raceModel hash).step RegisterRace.init i = some m₁)
    (hstep : (raceModel hash).step m₁ i = some m) : m.WonBy i := by
  obtain ⟨⟨hashedPassword, hpt⟩ | ⟨e, hpt⟩, hwinner, hothers⟩ := first_step hfirst
  · obtain ⟨point, hnext, rfl⟩ := raceModel_step_eq_some hstep
    rw [hwinner, hpt] at hnext
    obtain rfl := Option.some.inj hnext
    refine ⟨⟨hashedPassword, rfl⟩, fun j hj => ?_⟩
    rw [RegisterRace.arrive_pts_of_ne hj]
    exact Or.inl (hothers j hj)
  · -- a call whose password is refused has ended
    obtain ⟨point, hnext, rfl⟩ := raceModel_step_eq_some hstep
    rw [hpt] at hnext
    cases hnext

/-- Another call moves second: it gets past the check too. -/
theorem passed_of_second {m₁ : RegisterRace ι} (hij : j ≠ i)
    (hfirst : (raceModel hash).step RegisterRace.init i = some m₁)
    (hstep : (raceModel hash).step m₁ j = some m) :
    (m.pts i).passed = true ∧ (m.pts j).passed = true := by
  obtain ⟨hpt, hwinner, hothers⟩ := first_step hfirst
  have hpassed : (m₁.pts i).passed = true := by
    rcases hpt with ⟨hashedPassword, hpt⟩ | ⟨e, hpt⟩ <;> simp [hpt, RegisterPoint.passed]
  refine ⟨passed_of_step hpassed hstep, ?_⟩
  obtain ⟨point, hnext, rfl⟩ := raceModel_step_eq_some hstep
  rw [hothers j hij, hwinner] at hnext
  rw [RegisterRace.arrive_pts_self]
  exact RegisterPoint.passed_of_start hnext

/-- **Only a call that commits before any other begins shuts the others out**: in a run of the
model, one call has won and none of the others has found the email free exactly when the
first two moves are of one call. -/
theorem wonBy_iff (hrun : (raceModel hash).run RegisterRace.init schedule = some m) :
    (∃ w, m.WonBy w) ↔ ∃ i rest, schedule = i :: i :: rest := by
  refine ⟨?_, ?_⟩
  · rintro ⟨w, ⟨hashedPassword, hwinner⟩, hothers⟩
    cases schedule with
    | nil =>
      obtain rfl := Option.some.inj hrun
      cases hwinner
    | cons i schedule =>
      obtain ⟨m₁, hfirst, hrun₁⟩ := System.run_cons_eq_some.mp hrun
      cases schedule with
      | nil =>
        obtain rfl := Option.some.inj hrun₁
        rw [(first_step hfirst).2.1] at hwinner
        cases hwinner
      | cons j schedule =>
        obtain ⟨m₂, hsecond, hrun₂⟩ := System.run_cons_eq_some.mp hrun₁
        by_cases hij : j = i
        · subst hij
          exact ⟨j, schedule, rfl⟩
        · -- both are past the check, and one of them is not the winner
          obtain ⟨hi, hj⟩ := passed_of_second hij hfirst hsecond
          have hnot : ∀ k, k ≠ w → (m.pts k).passed = false := by
            intro k hk
            rcases hothers k hk with hpt | hpt <;> simp [hpt, RegisterPoint.passed]
          by_cases hiw : i = w
          · subst hiw
            exact nomatch (hnot j hij).symm.trans (passed_of_run hj hrun₂)
          · exact nomatch (hnot i hiw).symm.trans (passed_of_run hi hrun₂)
  · rintro ⟨i, rest, rfl⟩
    obtain ⟨m₁, hfirst, hrun₁⟩ := System.run_cons_eq_some.mp hrun
    obtain ⟨m₂, hsecond, hrun₂⟩ := System.run_cons_eq_some.mp hrun₁
    exact ⟨i, (wonBy_of_second hfirst hsecond).run hrun₂⟩

end ModelRuns

/-! ## Runs of the calls -/

/-- What concurrent registrations of one email should come to: one of them has its user row and
its token committed and returns the credentials, and every other has left no row and
ends in the documented error. -/
structure RegistersOnce (env : AuthEnv) (draw : ι → Draw) (email : String) (db : AuthDb)
    (p : RegisterPool ι) (w : ι) (hashedPassword : String) : Prop where
  users : p.store.users.rows = db.users.rows ++ [newUser (draw w) email hashedPassword]
  one : p.store.users.rows.filter (fun u => sqlEq p.store.collate u.email email) =
    [newUser (draw w) email hashedPassword]
  tokens : p.store.refreshTokens.rows = db.refreshTokens.rows ++
    [newRefreshToken env (draw w) (draw w).userId (draw w).familyId]
  credentials : p.rest w = .ret (authResult env (draw w) (newUser (draw w) email hashedPassword))
  others : ∀ i, i ≠ w → p.rest i = .throw (.businessError "Email already registered")

section Runs

variable {env : AuthEnv} {draw : ι → Draw} {email : String} {password : ι → String} {db : AuthDb}
  {p : RegisterPool ι} {m : RegisterRace ι}

omit [DecidableEq ι] in
/-- Before any call the pool is at the first state of the model. -/
theorem implements_init :
    Implements env draw email password db (registerPool env draw email password db)
      RegisterRace.init where
  rest _ := rfl
  collate := rfl
  users := (List.append_nil _).symm
  tokens := (List.append_nil _).symm
  consistent := ⟨fun _ _ => ⟨nofun, nofun⟩, ⟨nofun, fun ⟨_, _, h⟩ => nomatch h⟩⟩

omit [DecidableEq ι] in
/-- A point whose call has ended. -/
theorem RegisterPoint.ended {point : RegisterPoint} {d : Draw} {pw : String}
    (h : (point.prog env d email pw).next? = none) :
    (∃ hashedPassword, point = .returned hashedPassword) ∨ point = .taken ∨
      (∃ e, point = .rejected e) ∨ point = .refused := by
  cases point with
  | start =>
    rw [RegisterPoint.prog, register_eq] at h
    cases h
  | checked _ | committed _ | issuing _ => cases h
  | returned hashedPassword => exact Or.inl ⟨hashedPassword, rfl⟩
  | taken => exact Or.inr (Or.inl rfl)
  | rejected e => exact Or.inr (Or.inr (Or.inl ⟨e, rfl⟩))
  | refused => exact Or.inr (Or.inr (Or.inr rfl))

omit [DecidableEq ι] in
/-- A winner that shuts the others out: they all end as they should. -/
theorem Implements.registersOnce (hfresh : FreshRegistrations env draw email db)
    (h : Implements env draw email password db p m) (hended : ∀ i, (p.rest i).next? = none)
    {w : ι} (hwon : m.WonBy w) :
    ∃ hashedPassword, RegistersOnce env draw email db p w hashedPassword := by
  obtain ⟨⟨hashedPassword, hwinner⟩, hothers⟩ := hwon
  have hpts : ∀ i, (∃ hashedPassword, m.pts i = .returned hashedPassword) ∨ m.pts i = .taken ∨
      (∃ e, m.pts i = .rejected e) ∨ m.pts i = .refused :=
    fun i => RegisterPoint.ended (h.rest i ▸ hended i)
  have hreturned : m.pts w = .returned hashedPassword := by
    have hw := (h.consistent.won_iff w hashedPassword).mpr hwinner
    rcases hpts w with ⟨hashedPassword', hpt⟩ | hpt | ⟨e, hpt⟩ | hpt <;>
      simp [hpt, RegisterPoint.won] at hw
    rw [hpt, hw]
  have hissued : m.issued = true := h.consistent.issued_iff.mpr ⟨w, hashedPassword, hreturned⟩
  have husers : p.store.users.rows = db.users.rows ++ [newUser (draw w) email hashedPassword] := by
    rw [h.users, hwinner]
    rfl
  refine ⟨hashedPassword, husers, ?_, ?_, ?_, fun i hi => ?_⟩
  · have hnone : db.users.rows.filter (fun u => sqlEq db.collate u.email email) = [] :=
      List.filter_eq_nil_iff.mpr hfresh.email
    simp only [husers, h.collate, List.filter_append, hnone, List.nil_append]
    exact List.filter_cons_of_pos (beq_self_eq_true _)
  · rw [h.tokens, hwinner, hissued]
    rfl
  · rw [h.rest, hreturned]
    rfl
  · rw [h.rest]
    rcases hothers i hi with hpt | hpt
    · rcases hpts i with ⟨hashedPassword', hpt'⟩ | hpt' | ⟨e, hpt'⟩ | hpt' <;>
        exact nomatch hpt.symm.trans hpt'
    · rw [hpt]
      rfl

omit [DecidableEq ι] in
/-- The points of a call that has returned. -/
theorem RegisterPoint.prog_eq_ret {point : RegisterPoint} {d : Draw} {pw : String}
    {result : AuthResult} (h : point.prog env d email pw = .ret result) :
    ∃ hashedPassword, point = .returned hashedPassword := by
  rcases RegisterPoint.ended (by rw [h]; rfl) with hpt | rfl | ⟨e, rfl⟩ | rfl
  · exact hpt
  · cases h
  · cases h
  · cases h

omit [DecidableEq ι] in
/-- The points of a call that has raised. -/
theorem RegisterPoint.prog_eq_throw {point : RegisterPoint} {d : Draw} {pw : String} {e : Exn}
    (h : point.prog env d email pw = .throw e) :
    point = .taken ∧ e = .businessError "Email already registered" ∨ point = .rejected e ∨
      point = .refused ∧ e = .integrityError := by
  rcases RegisterPoint.ended (by rw [h]; rfl) with ⟨hashedPassword, rfl⟩ | rfl | ⟨e', rfl⟩ | rfl
  · cases h
  · cases h
    exact Or.inl ⟨rfl, rfl⟩
  · cases h
    exact Or.inr (Or.inl rfl)
  · cases h
    exact Or.inr (Or.inr ⟨rfl, rfl⟩)

omit [DecidableEq ι] in
/-- Where the calls end as they should, the one that returns has shut the others out. -/
theorem Implements.wonBy (h : Implements env draw email password db p m)
    (hrejected : ∀ i e, m.pts i = .rejected e → e = .valueError)
    {w : ι} {hashedPassword : String}
    (honce : RegistersOnce env draw email db p w hashedPassword) : m.WonBy w := by
  refine ⟨?_, fun i hi => ?_⟩
  · obtain ⟨hashedPassword', hpt⟩ :=
      RegisterPoint.prog_eq_ret ((h.rest w).symm.trans honce.credentials)
    refine ⟨hashedPassword', (h.consistent.won_iff w hashedPassword').mp ?_⟩
    simp [hpt, RegisterPoint.won]
  · rcases RegisterPoint.prog_eq_throw ((h.rest i).symm.trans (honce.others i hi)) with
      ⟨hpt, -⟩ | hpt | ⟨-, herror⟩
    · exact Or.inr hpt
    · exact nomatch hrejected i _ hpt
    · cases herror

end Runs

/-- **Exactly when registrations in parallel end as they should**: any number of calls of `register`
for one unused email, interleaved in any way until all have ended, leave one user and one
token, return credentials once and end in "Email already registered" otherwise if and only if
the call that makes the first `SELECT` commits its user before any other call makes its own. -/
theorem concurrent_registration_iff (env : AuthEnv) (draw : ι → Draw) (email : String)
    (password : ι → String) (db : AuthDb) (schedule : List ι) (p : RegisterPool ι)
    (hfresh : FreshRegistrations env draw email db)
    (hbcrypt : ∀ password salt e, env.hashPassword password salt = .error e → e = .valueError)
    (hrun : (Pool.system authHandler).run (registerPool env draw email password db) schedule =
      some p)
    (hended : ∀ i, (p.rest i).next? = none) :
    (∃ w hashedPassword, RegistersOnce env draw email db p w hashedPassword) ↔
      ∃ i rest, schedule = i :: i :: rest := by
  obtain ⟨m, hmodel, himpl⟩ := System.run_simulation
    (fun _ _ _ _ h hstep => implements_of_step hfresh h hstep) implements_init hrun
  rw [← wonBy_iff hmodel]
  refine exists_congr fun w => ⟨?_, himpl.registersOnce hfresh hended⟩
  rintro ⟨hashedPassword, honce⟩
  exact himpl.wonBy (fun i e hpt => hbcrypt _ _ e (rejected_of_run hmodel hpt)) honce

end Race

/-! ## Two registrations -/

/-- The values drawn by two registrations. -/
def twoDraws (second : Bool) : Draw := if second then sampleDraw "2" 0 else sampleDraw "1" 0

/-- Two registrations of one email. -/
def twoRegistrations : RegisterPool Bool :=
  registerPool sampleEnv twoDraws "a@example.com" (fun _ => "secret12") (.empty foldCase)

theorem freshRegistrations_empty :
    FreshRegistrations sampleEnv twoDraws "a@example.com" (.empty foldCase) where
  email _ hu := absurd hu List.not_mem_nil
  userId _ _ hu := absurd hu List.not_mem_nil
  token _ _ hr := absurd hr List.not_mem_nil

/-- One registration after the other. -/
theorem concurrent_registration_iff_sequential :
    ∃ p, (Pool.system authHandler).run twoRegistrations [false, false, false, false, true] = some p ∧
      (∀ i, (p.rest i).next? = none) ∧
      ((∃ w hashedPassword, RegistersOnce sampleEnv twoDraws "a@example.com" (.empty foldCase) p w
          hashedPassword) ↔ ∃ i rest, [false, false, false, false, true] = i :: i :: rest) := by
  refine ⟨_, rfl, Bool.forall_bool.mpr ⟨rfl, rfl⟩, ?_⟩
  exact concurrent_registration_iff sampleEnv twoDraws "a@example.com" (fun _ => "secret12")
    (.empty foldCase) [false, false, false, false, true] _ freshRegistrations_empty
    (fun _ _ _ herror => nomatch herror) rfl (Bool.forall_bool.mpr ⟨rfl, rfl⟩)

/-- Both look the email up before either commits: the second commit raises a database error that
no handler turns into "Email already registered". -/
theorem registration_race :
    FreshRegistrations sampleEnv twoDraws "a@example.com" (.empty foldCase) ∧
      ∃ p, (Pool.system authHandler).run twoRegistrations
          [false, true, false, true, false, false] = some p ∧
        (∀ i, (p.rest i).next? = none) ∧ p.rest true = .throw .integrityError ∧
        ¬ ∃ w hashedPassword, RegistersOnce sampleEnv twoDraws "a@example.com" (.empty foldCase) p w
          hashedPassword := by
  refine ⟨freshRegistrations_empty, _, rfl, Bool.forall_bool.mpr ⟨rfl, rfl⟩, rfl, ?_⟩
  rintro ⟨w, hashedPassword, honce⟩
  cases w with
  | false => exact nomatch honce.others true (by decide)
  | true => exact nomatch honce.others false (by decide)

end ParcelDelivery
