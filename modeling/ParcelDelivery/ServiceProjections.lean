import ParcelDelivery.Service

/-!
# The parts of the service

Every run of the service is, part by part, a run of the credential store, of the pricing job
and of the parcel routes: each part is told what a request means to it, and sees nothing
of the rest. What holds of the runs of a part therefore holds of the service
(`service_projects`).
-/

namespace ParcelDelivery

open Relational Process TransitionSystem

/-! ## The credential store -/

section Auth

/-- What a program leaves does not depend on what is made of its result. -/
theorem run_map_store {C : Type} {R : C → Type} {ε α β : Type} {σ : Type} (h : Handler C R ε σ)
    (f : α → β) (m : Prog C R ε α) (s : σ) : ((f <$> m).run h s).2 = (m.run h s).2 := by
  change ((m >>= fun a => Prog.ret (f a)).run h s).2 = _
  rw [Prog.run_bind]
  rcases m.run h s with ⟨e | a, s'⟩
  · rfl
  · rfl

/-- The credential store after some operations. -/
def AuthDb.after (env : AuthEnv) (db : AuthDb) (ops : List (AuthOp × Draw)) : AuthDb :=
  ops.foldl (fun db l => ((l.1.prog env l.2).run authHandler db).2) db

/-- What a session request asks of `AuthService`, behind its guard and with its cookie. -/
def SessionRequest.authOps (request : SessionRequest) (op : String → AuthOp) (draw : Draw) :
    List (AuthOp × Draw) :=
  match requireCsrf request, refreshTokenFromRequest request with
  | .ok (), .ok token => [(op token, draw)]
  | _, _ => []

/-- What a guarded request asks of `AuthService`. -/
def GuardedRequest.authOps : GuardedRequest → List (AuthOp × Draw)
  | refresh request draw => request.authOps .refresh draw
  | logout request draw => request.authOps .logout draw
  | manualRecalc _ => []

/-- The runs that a guarded request starts. -/
def GuardedRequest.starts (cfg : GuardSettings) : GuardedRequest → List RunPoint
  | manualRecalc xAdminToken =>
    match requireTaskAdminToken cfg.taskAdminToken xAdminToken with
    | .ok () => [.deleteLock]
    | .error _ => []
  | refresh _ _ => []
  | logout _ _ => []

variable {cfg : GuardSettings} {s : ServerState}

theorem AuthDb.after_singleton (env : AuthEnv) (db : AuthDb) (op : AuthOp) (draw : Draw) :
    db.after env [(op, draw)] = ((op.prog env draw).run authHandler db).2 := rfl

/-- A call of `AuthService` with the cookie of a request that has passed its guard. -/
theorem session_state {α : Type} {request : SessionRequest} {op : String → AuthOp} {draw : Draw}
    {m : String → AuthProg α} {answer : α → Served} {f : α → Option AuthResult}
    (hop : ∀ token, (op token).prog cfg.env draw = f <$> m token)
    (hguard : requireCsrf request = .ok ()) :
    (GuardedRequest.session request m answer s).2 =
      { s with auth := s.auth.after cfg.env (request.authOps op draw) } := by
  rw [GuardedRequest.session, SessionRequest.authOps, hguard]
  cases refreshTokenFromRequest request with
  | error e => rfl
  | ok token =>
    dsimp only
    rw [AuthDb.after_singleton, hop, run_map_store]

/-- **What a guarded request leaves**: the store after its operation, and the runs it starts. -/
theorem serve_state (request : GuardedRequest) : (request.serve cfg s).2 =
    { auth := s.auth.after cfg.env request.authOps
      job := { s.job with runs := s.job.runs ++ request.starts cfg } } := by
  have hruns : ∀ auth, ({ auth, job := { s.job with runs := s.job.runs ++ [] } } : ServerState) =
      { s with auth } := by
    intro auth
    rw [List.append_nil]
  cases request with
  | refresh request draw =>
    rw [GuardedRequest.starts, hruns, GuardedRequest.authOps, GuardedRequest.serve,
      GuardedRequest.guard]
    cases hguard : requireCsrf request with
    | error e =>
      rw [SessionRequest.authOps, hguard]
      rfl
    | ok _ => exact session_state (m := AuthService.refresh cfg.env draw) (fun _ => rfl) hguard
  | logout request draw =>
    rw [GuardedRequest.starts, hruns, GuardedRequest.authOps, GuardedRequest.serve,
      GuardedRequest.guard]
    cases hguard : requireCsrf request with
    | error e =>
      rw [SessionRequest.authOps, hguard]
      rfl
    | ok _ => exact session_state (m := AuthService.logout cfg.env draw) (fun _ => rfl) hguard
  | manualRecalc xAdminToken =>
    rw [GuardedRequest.starts, GuardedRequest.authOps, GuardedRequest.serve, GuardedRequest.guard]
    cases requireTaskAdminToken cfg.taskAdminToken xAdminToken with
    | error e => exact (hruns s.auth).symm
    | ok _ => rfl

end Auth

/-! ## The parcel routes -/

section Api

variable {env : ApiEnv} {s : ApiState}

theorem get_frame (r : GetRequest) : (env.get r s).2.db = s.db ∧ (env.get r s).2.now = s.now := by
  have hstep : GetStep env r s (env.get r s).1 (env.get r s).2 := getStep_of_get
  generalize (env.get r s).1 = response, (env.get r s).2 = s' at hstep ⊢
  cases hstep with
  | failed _ | hit _ _ _ | computed _ _ _ _ => exact ⟨rfl, rfl⟩

theorem getTypes_frame (pagination : PaginationParams) (r : TypesRequest) :
    (env.getTypes pagination r s).2.db = s.db ∧ (env.getTypes pagination r s).2.now = s.now := by
  have hstep : TypesStep env pagination r s (env.getTypes pagination r s).1
    (env.getTypes pagination r s).2 := typesStep_of_getTypes
  generalize (env.getTypes pagination r s).1 = response,
    (env.getTypes pagination r s).2 = s' at hstep ⊢
  cases hstep with
  | hit _ _ | computed _ => exact ⟨rfl, rfl⟩

/-- What a `POST` leaves: the state, or a new row at the end of the table. -/
theorem post_cases (r : PostRequest) :
    (env.post r s).2 = s ∨ ∃ data ownerId row db', env.writerId s.now r.caller = .ok ownerId ∧
      r.body = some data ∧
      Created env.collate env.authRequired data ownerId r.newId s.db row db' ∧
      (env.post r s).2 = { s with db := db' } := by
  rw [ApiEnv.post]
  cases howner : env.writerId s.now r.caller with
  | error e => exact Or.inl rfl
  | ok ownerId =>
    cases hbody : r.body with
    | none => exact Or.inl rfl
    | some data =>
      dsimp only
      rcases createFromDto_spec env.collate env.authRequired data ownerId r.newId s.db with
        ⟨row, db', hcreated⟩ | ⟨e, hrun⟩
      · rw [hcreated.run]
        exact Or.inr ⟨data, ownerId, row, db', rfl, rfl, hcreated, rfl⟩
      · rw [hrun]
        exact Or.inl rfl

/-- What the parcel routes see of the application. -/
def AppState.view (a : AppState) (now : ℕ) : ApiState := (a.api now).parcelView

end Api

/-! ## What a handler leaves -/

namespace ServiceEnv

variable (env : ServiceEnv)

/-- The operations of `AuthService` that a request calls for. -/
def authOps (r : ClientRequest) (now : ℕ) : List (AuthOp × Draw) :=
  match r.request with
  | .register (some body) draw => [(.register body.email body.password, draw)]
  | .login (some body) draw => [(.login body.email body.password, draw)]
  | .guarded request => request.authOps
  | .logoutAll authorization draw =>
    match env.api.currentUserId now authorization with
    | .ok userId => [(.logoutAll userId, draw)]
    | .error _ => []
  | _ => []

/-- The runs that a request starts. -/
def starts (r : ClientRequest) : List RunPoint :=
  match r.request with
  | .guarded request => request.starts env.guards
  | _ => []

/-- What a parcel request makes of the parcel routes. -/
def apiAfter (r : ClientRequest) (s : ApiState) : ApiState :=
  match r.request with
  | .parcels r => (env.api.get r s).2
  | .createParcel r => (env.api.post r s).2
  | .parcelTypes r =>
    match env.pageParams r.query with
    | some pagination => (env.api.getTypes pagination r s).2
    | none => s
  | _ => s

section Handlers

variable {env} {r : ClientRequest} {now : ℕ} {a : AppState}

theorem authCall_state (status : ℕ) (op : AuthOp) (draw : Draw) :
    (env.authCall status op draw a).2 =
      { a with auth := a.auth.after env.guards.env [(op, draw)] } := by
  rw [authCall, AuthDb.after_singleton]
  rcases (op.prog env.guards.env draw).run authHandler a.auth with ⟨e | _ | result, auth⟩
  · rfl
  · rfl
  · rfl

/-- **What a handler leaves**, part by part. -/
theorem handler_state : (env.handler r now a).2 =
    { types := a.types
      auth := a.auth.after env.guards.env (env.authOps r now)
      job := { a.job with
        parcels := (env.apiAfter r (a.api now)).db.parcels
        runs := a.job.runs ++ env.starts r }
      cache := (env.apiAfter r (a.api now)).cache } := by
  obtain ⟨client, request⟩ := r
  cases request with
  | register body draw | login body draw =>
    cases body with
    | none =>
      simp only [handler, authOps, starts, apiAfter, List.append_nil]
      rfl
    | some body =>
      simp only [handler, authCall_state, authOps, starts, apiAfter, List.append_nil]
      rfl
  | guarded request =>
    simp only [handler, serve_state, authOps, starts, apiAfter]
    rfl
  | logoutAll authorization draw =>
    cases huser : env.api.currentUserId now authorization with
    | error e =>
      simp only [handler, huser, authOps, starts, apiAfter, List.append_nil]
      rfl
    | ok userId =>
      simp only [handler, huser, authCall_state, authOps, starts, apiAfter, List.append_nil]
      rfl
  | parcels r | createParcel r =>
    simp only [handler, authOps, starts, apiAfter, List.append_nil]
    rfl
  | parcelTypes r =>
    cases hparams : env.pageParams r.query with
    | none | some pagination =>
      simp only [handler, hparams, authOps, starts, apiAfter, List.append_nil]
      rfl

end Handlers

/-! ## The views -/

/-- What `AuthService` is told. -/
def authView : LimitedApp.View ClientRequest Background AppState (AuthOp × Draw) where
  handler r now _ := env.authOps r now
  other _ _ _ := []
  pass _ := []

/-- What the job is told: the parcels that are created, the runs that are started, its moves. -/
def jobView : LimitedApp.View ClientRequest Background AppState JobMove where
  handler r now a :=
    ((env.apiAfter r (a.api now)).db.parcels.rows.drop a.job.parcels.rows.length).map .create ++
      (env.starts r).map fun _ => .manual
  other m _ _ :=
    match m with
    | .job l => [l]
    | .evict _ => []
  pass _ := []

/-- The costs that a move of the job commits. -/
def committed (s : JobState) : JobMove → Option (List (String × Money))
  | .commit i =>
    match s.runs[i]? with
    | some (.commitBatch rate _ batch) => batchCosts env.delivery rate batch
    | _ => none
  | _ => none

/-- What the parcel routes are told: their requests, the users that register, the costs that are
committed. -/
def apiView : LimitedApp.View ClientRequest Background AppState ApiMove where
  handler r now a :=
    match r.request with
    | .parcels r => [.get r]
    | .createParcel r => [.post r]
    | _ => ((a.auth.after env.guards.env (env.authOps r now)).users.rows.drop
        a.auth.users.rows.length).map fun user => .addUser user.id
  other m _ a :=
    match m with
    | .job l => (env.committed a.job l).toList.map .price
    | .evict key => [.evict key]
  pass seconds := [.pass seconds]

/-! ### The credential store -/

section Projections

variable {env} {σ : Type} {strategy : FixedWindow.Strategy σ (String × String)}
  {s s' : LimitedState σ AppState} {moves : List (LimitedMove ClientRequest Background)}

theorem authSystem_run_ops {authEnv : AuthEnv} (ops : List (AuthOp × Draw)) (h : AuthHistory) :
    ∃ h', (authSystem authEnv).run h ops = some h' ∧ h'.db = h.db.after authEnv ops := by
  induction ops generalizing h with
  | nil => exact ⟨h, rfl, rfl⟩
  | cons l ops ih =>
    obtain ⟨h', hrun, hdb⟩ := ih (h.exec authEnv l.1 l.2).2
    refine ⟨h', System.run_cons_eq_some.mpr ⟨_, rfl, hrun⟩, ?_⟩
    rw [hdb, AuthDb.after, AuthDb.after, List.foldl_cons]
    congr 1
    rw [AuthHistory.exec]
    rcases (l.1.prog authEnv l.2).run authHandler h.db with ⟨e | answer, db⟩
    · rfl
    · rfl

/-- **The credential store of the service** has a history of `AuthService`. -/
theorem auth_projects (hrun : (env.app.system strategy).run s moves = some s') (issued : List String) :
    ∃ h, (authSystem env.guards.env).run ⟨s.app.auth, issued⟩
        ((env.app.system strategy).collect (env.authView.record env.app strategy) s moves) = some h ∧
      h.db = s'.app.auth := by
  refine LimitedApp.run_projects (q := fun _ a (h : AuthHistory) => h.db = a.auth)
    (t := ⟨s.app.auth, issued⟩) env.authView ?_ ?_ ?_ rfl hrun
  · rintro r now a h hdb -
    obtain ⟨h', hrun, hdb'⟩ := authSystem_run_ops (env.authOps r now) h
    refine ⟨h', hrun, ?_⟩
    rw [hdb', hdb]
    exact (congrArg AppState.auth handler_state).symm
  · intro m now a a' h hdb hother
    refine ⟨h, rfl, ?_⟩
    rw [hdb]
    cases m with
    | job l =>
      change (if runsAlone l then _ else none) = some a' at hother
      split at hother
      · obtain ⟨job, -, rfl⟩ := Option.map_eq_some_iff.mp hother
        rfl
      · cases hother
    | evict key =>
      obtain rfl := Option.some.inj hother
      rfl
  · exact fun seconds now a h hdb => ⟨h, rfl, hdb⟩

/-! ### The job -/

/-- A row that `create_from_dto` has written is inserted into the table of the job, unpriced. -/
theorem job_create {collate : String → String} {authRequired : Bool} {data : ParcelCreate}
    {ownerId newId : String} {db db' : ParcelDb} {row : Parcel} {job : JobState}
    (h : Created collate authRequired data ownerId newId db row db')
    (hjob : job.parcels = db.parcels) :
    (jobSystem env.delivery).step job (.create row) = some { job with parcels := db'.parcels } := by
  obtain ⟨hid, -, -, -, -, hcost, -⟩ := NewParcel.row_eq_some h.row_eq
  have hunpriced : row.priced = false := by rw [Parcel.priced, hcost]; rfl
  obtain ⟨parcels, hinsert⟩ : ∃ t', job.parcels.insert row = some t' := by
    apply Table.insert_of_fresh
    intro r hr hclash
    rw [hjob] at hr
    exact h.fresh r hr (congrArg collate (hclash.trans hid))
  obtain rfl : parcels = db'.parcels := by
    apply Table.eq_of_rows
    rw [(Table.insert_eq_some hinsert).1, hjob, h.rows]
  change (if row.priced then none else _) = _
  rw [hunpriced, hinsert]
  rfl

/-- The runs that a request starts are manual ones. -/
theorem job_starts (r : ClientRequest) (job : JobState) :
    (jobSystem env.delivery).run job ((env.starts r).map fun _ => .manual) =
      some { job with runs := job.runs ++ env.starts r } := by
  have hnone : (jobSystem env.delivery).run job [] =
      some { job with runs := job.runs ++ [] } := by
    rw [List.append_nil]
    rfl
  obtain ⟨client, request⟩ := r
  cases request with
  | guarded request =>
    cases request with
    | refresh _ _ | logout _ _ => exact hnone
    | manualRecalc xAdminToken =>
      simp only [starts, GuardedRequest.starts]
      cases requireTaskAdminToken env.guards.taskAdminToken xAdminToken with
      | error e => exact hnone
      | ok _ => rfl
  | register _ _ | login _ _ | logoutAll _ _ | parcels _ | createParcel _ | parcelTypes _ =>
    exact hnone

/-- **What a request makes of the parcel table**: nothing, or one new row. -/
theorem apiAfter_cases (r : ClientRequest) (now : ℕ) (a : AppState) :
    (env.apiAfter r (a.api now)).db = a.parcelDb ∨
      ∃ post data ownerId row db', r.request = .createParcel post ∧
        Created env.api.collate env.api.authRequired data ownerId post.newId a.parcelDb row db' ∧
        (env.apiAfter r (a.api now)).db = db' := by
  obtain ⟨client, request⟩ := r
  cases request with
  | parcels r => exact Or.inl (get_frame r).1
  | createParcel r =>
    rcases post_cases (s := a.api now) r with hsame | ⟨data, ownerId, row, db', -, -, hcreated, hpost⟩
    · exact Or.inl (congrArg ApiState.db hsame)
    · exact Or.inr ⟨r, data, ownerId, row, db', rfl, hcreated, congrArg ApiState.db hpost⟩
  | parcelTypes r =>
    refine Or.inl ?_
    rw [apiAfter]
    dsimp only
    split
    · exact (getTypes_frame _ _).1
    · rfl
  | register _ _ | login _ _ | guarded _ | logoutAll _ _ => exact Or.inl rfl

/-- **The job of the service** is a run of the job. -/
theorem job_projects (hrun : (env.app.system strategy).run s moves = some s') :
    (jobSystem env.delivery).run s.app.job
        ((env.app.system strategy).collect (env.jobView.record env.app strategy) s moves) =
      some s'.app.job := by
  have hprojected := LimitedApp.run_projects (T := jobSystem env.delivery)
    (q := fun _ a job => job = a.job) (t := s.app.job) env.jobView ?_ ?_ ?_ rfl hrun
  · obtain ⟨job, hjob, rfl⟩ := hprojected
    exact hjob
  · rintro r now a job rfl -
    refine ⟨_, ?_, rfl⟩
    rw [show (env.app.handler r now a).2.job = _ from congrArg AppState.job handler_state]
    refine System.run_append_eq_some.mpr
      ⟨{ a.job with parcels := (env.apiAfter r (a.api now)).db.parcels }, ?_, job_starts r _⟩
    rcases env.apiAfter_cases r now a with hsame | ⟨post, data, ownerId, row, db', -, hcreated, hdb⟩
    · rw [hsame]
      change (jobSystem env.delivery).run a.job
        ((a.job.parcels.rows.drop a.job.parcels.rows.length).map .create) = some a.job
      rw [List.drop_length]
      rfl
    · rw [hdb, hcreated.rows]
      change (jobSystem env.delivery).run a.job
        (((a.job.parcels.rows ++ [row]).drop a.job.parcels.rows.length).map .create) = _
      rw [List.drop_left]
      exact System.run_cons_eq_some.mpr ⟨_, job_create hcreated rfl, rfl⟩
  · rintro m now a a' job rfl hother
    refine ⟨_, ?_, rfl⟩
    cases m with
    | job l =>
      change (if runsAlone l then _ else none) = some a' at hother
      split at hother
      · obtain ⟨job, hjob, rfl⟩ := Option.map_eq_some_iff.mp hother
        exact System.run_cons_eq_some.mpr ⟨job, hjob, rfl⟩
      · cases hother
    | evict key =>
      obtain rfl := Option.some.inj hother
      rfl
  · exact fun seconds now a job hjob => ⟨job, rfl, hjob⟩

/-! ### The parcel routes -/

/-- A statement keeps the users and may add one at the end. -/
theorem users_prefix_of_write {db db' : AuthDb} {statement : AuthWrite}
    (h : db.write statement = some db') : db.users.rows <+: db'.users.rows := by
  cases statement with
  | insertUser new =>
    exact ⟨[new], (AuthDb.insertUser_eq_some h).2.2.1.symm⟩
  | insertRefreshToken token =>
    obtain ⟨husers, -⟩ := AuthDb.insertRefreshToken_eq_some h
    rw [husers]
  | updateRefreshToken _ _ _ | revokeFamily _ _ | revokeUser _ _ =>
    obtain rfl := Option.some.inj h
    exact List.prefix_rfl

theorem users_prefix_of_commit {db db' : AuthDb} {writes : List AuthWrite}
    (h : db.commit writes = some db') : db.users.rows <+: db'.users.rows := by
  induction writes generalizing db with
  | nil =>
    obtain rfl := Option.some.inj h
    exact List.prefix_rfl
  | cons statement writes ih =>
    rw [AuthDb.commit, List.foldlM_cons] at h
    obtain ⟨db₁, hwrite, hrest⟩ := Option.bind_eq_some_iff.mp h
    exact (users_prefix_of_write hwrite).trans (ih hrest)

/-- No call of `AuthService` changes the users that are there; new ones come last. -/
theorem users_prefix_after (authEnv : AuthEnv) (db : AuthDb) (ops : List (AuthOp × Draw)) :
    db.users.rows <+: (db.after authEnv ops).users.rows := by
  induction ops generalizing db with
  | nil => exact List.prefix_rfl
  | cons l ops ih =>
    refine List.IsPrefix.trans ?_ (ih _)
    refine Prog.run_invariant (h := authHandler)
      (J := fun db' => db.users.rows <+: db'.users.rows) ?_ _ List.prefix_rfl
    intro c db' hprefix
    cases c with
    | selectUserByEmail _ | selectUserById _ | selectRefreshToken _ => exact hprefix
    | commit writes =>
      rw [authHandler]
      split
      · next db'' hcommit => exact hprefix.trans (users_prefix_of_commit hcommit)
      · exact hprefix
    | refreshUser id =>
      rw [authHandler]
      split
      · exact hprefix
      · exact hprefix

/-- Users register, one after the other. -/
theorem api_users {apiEnv : ApiEnv} (users : List User) (t : ApiState) :
    (apiSystem apiEnv).run t (users.map fun user => .addUser user.id) =
      some { t with db := { t.db with
        userIds := (users.map User.id).reverse ++ t.db.userIds } } := by
  induction users generalizing t with
  | nil => rfl
  | cons user users ih =>
    refine System.run_cons_eq_some.mpr ⟨_, rfl, ?_⟩
    rw [ih]
    simp

/-- What a move of the job makes of the parcel table: the costs of a batch, or nothing. -/
theorem job_committed {job job' : JobState} {l : JobMove} (halone : runsAlone l = true)
    (h : (jobSystem env.delivery).step job l = some job') :
    (∃ costs, env.committed job l = some costs ∧
      job'.parcels.rows = job.parcels.rows.map (Parcel.assignCost costs)) ∨
    env.committed job l = none ∧ job'.parcels = job.parcels := by
  have hstep := jobStep_of_step h
  cases hstep with
  | committed hpt hcosts hrows => exact Or.inl ⟨_, by simp only [committed, hpt, hcosts], hrows⟩
  | refused hpt hcosts => exact Or.inr ⟨by simp only [committed, hpt, hcosts], rfl⟩
  | created _ _ | manual => cases halone
  | tick | deleted _ | acquired _ _ | skipped _ _ | rateRead _ _ | rateFailed _ _
  | selected _ _ _ | drained _ _ | finished _ | interrupted _ _ | lockExpired | rateExpired =>
    exact Or.inr ⟨rfl, rfl⟩

/-- A batch of costs in the parcel routes. -/
theorem view_of_committed {a : AppState} {job : JobState} {now : ℕ} {costs : List (String × Money)}
    (hrows : job.parcels.rows = a.job.parcels.rows.map (Parcel.assignCost costs)) :
    ({ a with job } : AppState).view now =
      { a.view now with db := (a.view now).db.price costs } := by
  have hparcels : job.parcels = ((a.view now).db.price costs).parcels := by
    apply Table.eq_of_rows
    rw [hrows, ParcelDb.price, Table.update_rows]
    simp only [if_true]
    rfl
  simp only [AppState.view, AppState.api, AppState.parcelDb, ApiState.parcelView, hparcels]
  rfl

/-- A parcel request changes the parcels and the cache. -/
theorem apiAfter_frame (r : ClientRequest) (now : ℕ) (a : AppState) :
    env.apiAfter r (a.api now) =
      { db := { a.parcelDb with parcels := (env.apiAfter r (a.api now)).db.parcels }
        cache := (env.apiAfter r (a.api now)).cache
        now := now } := by
  have hdb : (env.apiAfter r (a.api now)).db =
      { a.parcelDb with parcels := (env.apiAfter r (a.api now)).db.parcels } := by
    rcases env.apiAfter_cases r now a with hsame | ⟨post, data, ownerId, row, db', -, hcreated, hdb⟩
    · rw [hsame]
    · have htypes := hcreated.types
      have huserIds := hcreated.userIds
      rw [hdb]
      obtain ⟨types, parcels, userIds⟩ := db'
      obtain rfl : types = a.parcelDb.types := htypes
      obtain rfl : userIds = a.parcelDb.userIds := huserIds
      rfl
  have hnow : (env.apiAfter r (a.api now)).now = now := by
    obtain ⟨client, request⟩ := r
    cases request with
    | parcels r => exact (get_frame r).2
    | createParcel r =>
      rcases post_cases (s := a.api now) r with hsame | ⟨_, _, _, _, -, -, -, hpost⟩
      · exact congrArg ApiState.now hsame
      · exact congrArg ApiState.now hpost
    | parcelTypes r =>
      rw [apiAfter]
      dsimp only
      split
      · exact (getTypes_frame _ _).2
      · rfl
    | register _ _ | login _ _ | guarded _ | logoutAll _ _ => rfl
  rw [← hdb]
  exact congrArg (ApiState.mk _ _) hnow

/-- What a handler that calls no method of `AuthService` leaves for the parcel routes. -/
theorem view_of_route {r : ClientRequest} {now : ℕ} {a : AppState} (hops : env.authOps r now = []) :
    (env.handler r now a).2.view now = (env.apiAfter r (a.api now)).parcelView := by
  rw [handler_state, hops, apiAfter_frame]
  rfl

/-- What a handler that is no parcel route leaves for the parcel routes: new users. -/
theorem view_of_users {r : ClientRequest} {now : ℕ} {a : AppState}
    (hsame : (env.apiAfter r (a.api now)).parcelView = a.view now) :
    (apiSystem env.api).run (a.view now)
        (((a.auth.after env.guards.env (env.authOps r now)).users.rows.drop
          a.auth.users.rows.length).map fun user => .addUser user.id) =
      some ((env.handler r now a).2.view now) := by
  obtain ⟨users, husers⟩ := users_prefix_after env.guards.env a.auth (env.authOps r now)
  have hparcels : (env.apiAfter r (a.api now)).db.parcels = a.job.parcels :=
    congrArg (fun t : ApiState => t.db.parcels) hsame
  have hcache : parcelEntries (env.apiAfter r (a.api now)).cache = parcelEntries a.cache :=
    congrArg ApiState.cache hsame
  rw [← husers, List.drop_left, api_users, handler_state]
  change _ = some (ApiState.mk
    ⟨a.types, (env.apiAfter r (a.api now)).db.parcels,
      ((a.auth.after env.guards.env (env.authOps r now)).users.rows.map User.id).reverse⟩
    (parcelEntries (env.apiAfter r (a.api now)).cache) now)
  rw [hparcels, hcache, ← husers, List.map_append, List.reverse_append]
  rfl

/-- **What a handler leaves for the parcel routes**: what their own requests do, or new users. -/
theorem view_of_handler (r : ClientRequest) (now : ℕ) (a : AppState) :
    (apiSystem env.api).run (a.view now) (env.apiView.handler r now a) =
      some ((env.handler r now a).2.view now) := by
  obtain ⟨client, request⟩ := r
  cases request with
  | parcels r =>
    rw [view_of_route rfl]
    refine System.run_cons_eq_some.mpr ⟨_, rfl, ?_⟩
    exact congrArg (fun out : Response × ApiState => some out.2) (get_parcelView r)
  | createParcel r =>
    rw [view_of_route rfl]
    refine System.run_cons_eq_some.mpr ⟨_, rfl, ?_⟩
    exact congrArg (fun out : Response × ApiState => some out.2) (post_parcelView r)
  | parcelTypes r =>
    refine view_of_users ?_
    rw [apiAfter]
    dsimp only
    split
    · exact getTypes_parcelView _ _
    · rfl
  | register _ _ | login _ _ | guarded _ | logoutAll _ _ => exact view_of_users rfl

/-- **The parcel routes of the service** are a run of the parcel routes. -/
theorem api_projects (hrun : (env.app.system strategy).run s moves = some s') :
    (apiSystem env.api).run (s.app.view s.now)
        ((env.app.system strategy).collect (env.apiView.record env.app strategy) s moves) =
      some (s'.app.view s'.now) := by
  have hprojected := LimitedApp.run_projects (T := apiSystem env.api)
    (q := fun now a t => t = a.view now) (t := s.app.view s.now) env.apiView ?_ ?_ ?_ rfl hrun
  · obtain ⟨t, ht, rfl⟩ := hprojected
    exact ht
  · rintro r now a t rfl -
    exact ⟨_, view_of_handler r now a, rfl⟩
  · rintro m now a a' t rfl hother
    refine ⟨_, ?_, rfl⟩
    cases m with
    | job l =>
      change (if runsAlone l then _ else none) = some a' at hother
      split at hother
      · next halone =>
        obtain ⟨job, hjob, rfl⟩ := Option.map_eq_some_iff.mp hother
        rcases job_committed halone hjob with ⟨costs, hcosts, hrows⟩ | ⟨hnone, hparcels⟩
        · simp only [apiView, hcosts, view_of_committed hrows]
          rfl
        · simp only [apiView, hnone, AppState.view, AppState.api, AppState.parcelDb, hparcels]
          rfl
      · cases hother
    | evict key =>
      obtain rfl := Option.some.inj hother
      refine System.run_cons_eq_some.mpr ⟨_, rfl, ?_⟩
      exact congrArg (fun cache => some { a.view now with cache })
        (parcelEntries_remove a.cache key).symm
  · rintro seconds now a t rfl
    exact ⟨_, rfl, rfl⟩

end Projections

/-! ## All parts -/

/-- **The service refines its parts.** Every run of the service, whatever the clients send and
however the job moves in between, is a run of the parcel routes, of the pricing job and of the
credential store, along the moves that each of them is told. -/
theorem service_projects {σ : Type} (env : ServiceEnv)
    (strategy : FixedWindow.Strategy σ (String × String)) (s s' : LimitedState σ AppState)
    (moves : List (LimitedMove ClientRequest Background)) (issued : List String)
    (hrun : (env.app.system strategy).run s moves = some s') :
    (apiSystem env.api).run (s.app.view s.now)
        ((env.app.system strategy).collect (env.apiView.record env.app strategy) s moves) =
      some (s'.app.view s'.now) ∧
    (jobSystem env.delivery).run s.app.job
        ((env.app.system strategy).collect (env.jobView.record env.app strategy) s moves) =
      some s'.app.job ∧
    ∃ h, (authSystem env.guards.env).run ⟨s.app.auth, issued⟩
        ((env.app.system strategy).collect (env.authView.record env.app strategy) s moves) =
        some h ∧
      h.db = s'.app.auth :=
  ⟨api_projects hrun, job_projects hrun, auth_projects hrun issued⟩

end ServiceEnv

/-! ## A day of the service -/

/-- `limits.parse` on the limits of the routes. -/
def sampleParse (text : String) : RateLimitItem :=
  if text = "5/minute" then ⟨⟨5, 60⟩, "5 per 1 minute"⟩
  else if text = "10/minute" then ⟨⟨10, 60⟩, "10 per 1 minute"⟩
  else if text = "20/minute" then ⟨⟨20, 60⟩, "20 per 1 minute"⟩
  else if text = "60/minute" then ⟨⟨60, 60⟩, "60 per 1 minute"⟩
  else ⟨⟨100, 60⟩, "100 per 1 minute"⟩

/-- The legacy mode, under the default settings. -/
def sampleServiceEnv : ServiceEnv where
  api := sampleApiEnv
  guards := ⟨sampleEnv, "admin"⟩
  delivery := .default
  limits := .default
  parse := sampleParse
  pageParams _ := some ⟨20, 0⟩

/-- One parcel type, no user and no parcel; nothing has been counted. -/
def sampleServiceState : LimitedState (RateKey → Option FixedWindow.Window) AppState where
  counters _ := none
  app := ⟨sampleApiState.db.types, .empty foldCase, .init, []⟩
  now := 0

/-- A request from a host. -/
def sampleRequest (request : ServiceRequest) : LimitedMove ClientRequest ServiceEnv.Background :=
  .request ⟨some "10.0.0.7", request⟩

/-- A user registers, the caller creates a parcel and lists it, an administrator starts a run. -/
def sampleServiceMoves : List (LimitedMove ClientRequest ServiceEnv.Background) :=
  [sampleRequest (.register (some ⟨"a@example.com", "secret-password", by decide⟩) (sampleDraw "1" 0)),
    sampleRequest (.createParcel
      ⟨sampleCaller, some ⟨"book", ⟨1, 0⟩, ⟨10, 0⟩, "type-1"⟩, "parcel-1"⟩),
    .pass 20, sampleRequest (.parcels sampleListRequest),
    sampleRequest (.guarded (.manualRecalc (some "admin"))), .other (.job (.delete 0))]

theorem service_projects_sample :
    ∃ s', (sampleServiceEnv.app.system FixedWindow.Strategy.counters).run sampleServiceState
        sampleServiceMoves = some s' ∧
      (apiSystem sampleServiceEnv.api).run (sampleServiceState.app.view 0)
          ((sampleServiceEnv.app.system FixedWindow.Strategy.counters).collect
            (sampleServiceEnv.apiView.record sampleServiceEnv.app FixedWindow.Strategy.counters)
            sampleServiceState sampleServiceMoves) = some (s'.app.view s'.now) ∧
      (jobSystem sampleServiceEnv.delivery).run sampleServiceState.app.job
          ((sampleServiceEnv.app.system FixedWindow.Strategy.counters).collect
            (sampleServiceEnv.jobView.record sampleServiceEnv.app FixedWindow.Strategy.counters)
            sampleServiceState sampleServiceMoves) = some s'.app.job ∧
      ∃ h, (authSystem sampleServiceEnv.guards.env).run ⟨sampleServiceState.app.auth, []⟩
          ((sampleServiceEnv.app.system FixedWindow.Strategy.counters).collect
            (sampleServiceEnv.authView.record sampleServiceEnv.app FixedWindow.Strategy.counters)
            sampleServiceState sampleServiceMoves) = some h ∧
        h.db = s'.app.auth :=
  ⟨_, rfl, ServiceEnv.service_projects sampleServiceEnv FixedWindow.Strategy.counters
    sampleServiceState _ sampleServiceMoves [] rfl⟩

end ParcelDelivery
