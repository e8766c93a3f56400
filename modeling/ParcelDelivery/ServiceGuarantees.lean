import ParcelDelivery.ShownParcels
import ParcelDelivery.PricingRuns

/-!
# What the clients of the service get

Guarantees over whole runs of the service, whatever else the clients and the job do. The
limits: which requests of a client reach a handler is decided by the instants of its own requests
to the route (`service_rate_limits`). The parcel types: no route changes them, so that a page from
the cache is the page of a fresh read (`service_types_fresh`). The prices: what a run of the job
has found unpriced is shown with a price when the TTL of the cache has passed after the run
(`service_prices_shown`).
-/

namespace ParcelDelivery

open Relational Process TransitionSystem FixedWindow

namespace ServiceEnv

/-! ## Limits -/

section Limits

variable {env : ServiceEnv} {r r' : ClientRequest}

theorem method_cases (request : ServiceRequest) :
    (route request).1 = "POST" ∨ (route request).1 = "GET" := by
  cases request with
  | register _ _ | login _ _ | logoutAll _ _ | createParcel _ => exact Or.inl rfl
  | guarded request => cases request <;> exact Or.inl rfl
  | parcels _ | parcelTypes _ => exact Or.inr rfl

/-- The identifier of a route says the method and the path: the methods differ before the colon. -/
theorem route_inj {request request' : ServiceRequest}
    (h : (route request).1 ++ ":" ++ (route request).2 =
      (route request').1 ++ ":" ++ (route request').2) : route request = route request' := by
  have hfirst : ∀ path path' : String, "POST" ++ ":" ++ path ≠ "GET" ++ ":" ++ path' := by
    intro path path' heq
    have hpost : "POST".toList = ['P', 'O', 'S', 'T'] := by decide
    have hget : "GET".toList = ['G', 'E', 'T'] := by decide
    have hchars := congrArg String.toList heq
    simp only [String.toList_append, hpost, hget] at hchars
    exact absurd (List.cons.inj hchars).1 (by decide)
  have hpath : ∀ method path path' : String, method ++ ":" ++ path = method ++ ":" ++ path' →
      path = path' := by
    intro method path path' heq
    have hchars := congrArg String.toList heq
    simp only [String.toList_append] at hchars
    exact String.toList_inj.mp (List.append_cancel_left hchars)
  rcases method_cases request with hm | hm <;> rcases method_cases request' with hm' | hm' <;>
    rw [hm, hm'] at h
  · exact Prod.ext (hm.trans hm'.symm) (hpath _ _ _ h)
  · exact absurd h (hfirst _ _)
  · exact absurd h.symm (hfirst _ _)
  · exact Prod.ext (hm.trans hm'.symm) (hpath _ _ _ h)

/-- **What is counted together**: requests to one route from one host. -/
theorem key_eq (h : env.app.key r = env.app.key r') :
    route r.request = route r'.request ∧ r.client.getD "unknown" = r'.client.getD "unknown" := by
  obtain ⟨-, hkey⟩ := Prod.mk.inj h
  obtain ⟨hroute, hclient⟩ := Prod.mk.inj hkey
  exact ⟨route_inj hroute, hclient⟩

end Limits

/-- **The limits of the service.** In every run, the requests of a host to a route that reach the
handler are those that a window of their own lets pass: twice the amount at most in any stretch
of time as long as the window, and all of them as long as there are never more than the amount.
No request of another host or to another route is counted with them. -/
theorem service_rate_limits {σ : Type} (env : ServiceEnv) (strategy : Strategy σ (String × String))
    (r : ClientRequest) (s : LimitedState σ AppState)
    (moves : List (LimitedMove ClientRequest Background))
    (hnew : strategy.window s.counters s.now (env.app.key r) = none) :
    let limit := (env.parse (env.limitOf r.request)).limit
    let hits := env.app.hits strategy (env.app.key r) s moves
    let handled := env.app.handled strategy (env.app.key r) s moves
    handled = passed limit none hits ∧
      (∀ a, countIn a (a + limit.duration) handled ≤ 2 * limit.amount) ∧
      (Sparse limit [] hits → handled = hits) ∧
      ∀ r', env.app.key r' = env.app.key r →
        route r'.request = route r.request ∧
          r'.client.getD "unknown" = r.client.getD "unknown" := by
  refine ⟨?_, ?_, ?_, fun r' => key_eq⟩
  · rw [LimitedApp.handled_eq_passed_of_run, hnew]
    rfl
  · intro a
    change countIn a (a + (env.app.key r).1.duration)
      (env.app.handled strategy (env.app.key r) s moves) ≤ 2 * (env.app.key r).1.amount
    exact LimitedApp.countIn_handled_le a
  · exact LimitedApp.handled_of_sparse hnew

/-- Who starts a run by hand in `sampleServiceMoves`. -/
def sampleRecalc : ClientRequest := ⟨some "10.0.0.7", .guarded (.manualRecalc (some "admin"))⟩

/-- The request of the sample is one that its window lets pass. -/
theorem service_rate_limits_sample :
    sampleServiceEnv.app.handled Strategy.counters (sampleServiceEnv.app.key sampleRecalc)
        sampleServiceState sampleServiceMoves =
      passed ⟨5, 60⟩ none (sampleServiceEnv.app.hits Strategy.counters
        (sampleServiceEnv.app.key sampleRecalc) sampleServiceState sampleServiceMoves) ∧
      ∀ a, countIn a (a + 60) (sampleServiceEnv.app.handled Strategy.counters
        (sampleServiceEnv.app.key sampleRecalc) sampleServiceState sampleServiceMoves) ≤ 2 * 5 :=
  have hlimits := service_rate_limits sampleServiceEnv Strategy.counters sampleRecalc
    sampleServiceState sampleServiceMoves rfl
  ⟨hlimits.1, hlimits.2.1⟩

/-! ## The parcel types -/

/-- What is asked of the route for types along a schedule. -/
def typesAsked (moves : List (LimitedMove ClientRequest Background)) : List TypesRequest :=
  moves.filterMap fun
    | .request ⟨_, .parcelTypes q⟩ => some q
    | _ => none

/-- No such request with the key of `q` has asked for another page. -/
def TypesKeyTells (env : ServiceEnv) (asked : List TypesRequest) (q : TypesRequest) : Prop :=
  ∀ q' ∈ asked, q.url.path = q'.url.path → q.url.query = q'.url.query →
    env.pageParams q.query = env.pageParams q'.query

/-- An entry of the route for types holds the page of one of these requests, as it is read from
a table of types. -/
def FreshEntry (env : ServiceEnv) (db : ParcelDb) (asked : List TypesRequest)
    (e : ExpiringStore.Entry String Json) : Prop :=
  ∃ q ∈ asked, ∃ pagination, env.pageParams q.query = some pagination ∧
    e.key = env.api.typesKey q ∧ e.value = (env.api.freshTypes pagination db).toJson

section Types

variable {env : ServiceEnv} {σ : Type} {strategy : Strategy σ (String × String)}
  {s s' : LimitedState σ AppState} {r : ClientRequest} {now : ℕ} {a : AppState}
  {asked asked' : List TypesRequest} {e : ExpiringStore.Entry String Json}

theorem FreshEntry.mono {db : ParcelDb} (h : FreshEntry env db asked e)
    (hsub : ∀ q ∈ asked, q ∈ asked') : FreshEntry env db asked' e := by
  obtain ⟨q, hq, hrest⟩ := h
  exact ⟨q, hsub q hq, hrest⟩

/-- The key tells where every URL is plain. -/
theorem typesKeyTells_of_plain {q : TypesRequest}
    (hplain : Url.Parts.Plain ⟨q.host, q.path, q.query⟩)
    (hall : ∀ q' ∈ asked, Url.Parts.Plain ⟨q'.host, q'.path, q'.query⟩) :
    TypesKeyTells env asked q := by
  intro q' hq' _ hquery
  rw [TypesRequest.url, TypesRequest.url, Url.split_join hplain, Url.split_join (hall q' hq')]
    at hquery
  exact congrArg env.pageParams hquery

/-- A page of types depends on the types alone. -/
theorem freshTypes_congr {db db' : ParcelDb} (h : db.types = db'.types)
    (pagination : PaginationParams) :
    env.api.freshTypes pagination db = env.api.freshTypes pagination db' := by
  simp only [ApiEnv.freshTypes, typeView, ParcelDb.typesByName, h]

/-- **What a handler adds for the route of types**: the fresh page of its own request. -/
theorem entry_of_handler (he : e ∈ (env.handler r now a).2.cache) (hkey : isTypesKey e.key = true) :
    e ∈ a.cache ∨ FreshEntry env a.parcelDb (typesAsked [.request r]) e := by
  replace he : e ∈ (env.apiAfter r (a.api now)).cache := by
    rw [show (env.handler r now a).2.cache = _ from congrArg AppState.cache handler_state] at he
    exact he
  obtain ⟨client, request⟩ := r
  cases request with
  | parcels r =>
    rcases entry_of_step
      (show (apiSystem env.api).step (a.api now) (.get r) = some _ from rfl) he with
      hold | ⟨r', -, -, -, hkey', -⟩
    · exact Or.inl hold
    · rw [hkey', isTypesKey_cacheKey] at hkey
      cases hkey
  | createParcel r =>
    rcases entry_of_step
      (show (apiSystem env.api).step (a.api now) (.post r) = some _ from rfl) he with
      hold | ⟨r', -, hget, -⟩
    · exact Or.inl hold
    · cases hget
  | parcelTypes q =>
    rw [apiAfter] at he
    dsimp only at he
    cases hparams : env.pageParams q.query with
    | none =>
      rw [hparams] at he
      exact Or.inl he
    | some pagination =>
      rw [hparams] at he
      dsimp only at he
      have hstep : TypesStep env.api pagination q (a.api now)
        (env.api.getTypes pagination q (a.api now)).1
        (env.api.getTypes pagination q (a.api now)).2 := typesStep_of_getTypes
      generalize (env.api.getTypes pagination q (a.api now)).1 = response,
        (env.api.getTypes pagination q (a.api now)).2 = t at hstep he
      cases hstep with
      | hit _ _ => exact Or.inl he
      | computed _ =>
        rcases ExpiringStore.mem_set he with rfl | hold
        · exact Or.inr ⟨q, List.mem_singleton_self q, pagination, hparams, rfl, rfl⟩
        · exact Or.inl hold
  | register _ _ | login _ _ | guarded _ | logoutAll _ _ => exact Or.inl he

/-- **The entries of the route for types are fresh**, after every run of the service: nothing
changes a type. -/
theorem freshEntries_of_run {before : List (LimitedMove ClientRequest Background)}
    (hempty : ∀ e ∈ s.app.cache, isTypesKey e.key = false)
    (hrun : (env.app.system strategy).run s before = some s') :
    s'.app.types = s.app.types ∧ ∀ e ∈ s'.app.cache, isTypesKey e.key = true →
      FreshEntry env s.app.parcelDb (typesAsked before) e := by
  refine System.run_history (P := fun before s' => s'.app.types = s.app.types ∧
    ∀ e ∈ s'.app.cache, isTypesKey e.key = true →
      FreshEntry env s.app.parcelDb (typesAsked before) e) ?_ ?_ hrun
  · refine ⟨rfl, fun e he hkey => ?_⟩
    rw [hempty e he] at hkey
    cases hkey
  · rintro before s₁ l s₂ - ⟨htypes, hfresh⟩ hstep
    have hmono : ∀ e, FreshEntry env s.app.parcelDb (typesAsked before) e →
        FreshEntry env s.app.parcelDb (typesAsked (before ++ [l])) e := by
      intro e h
      refine h.mono fun q hq => ?_
      rw [typesAsked, List.filterMap_append]
      exact List.mem_append_left _ hq
    rcases LimitedApp.step_cases hstep with ⟨r, -, -, happ, -⟩ | ⟨r, rfl, -, -, happ, -⟩ |
      ⟨m, rfl, hother, -⟩ | ⟨seconds, -, happ, -⟩
    · rw [happ]
      exact ⟨htypes, fun e he hkey => hmono e (hfresh e he hkey)⟩
    · rw [happ]
      refine ⟨?_, fun e he hkey => ?_⟩
      · exact (congrArg AppState.types handler_state).trans htypes
      · rcases entry_of_handler he hkey with hold | ⟨q, hq, pagination, hparams, hkey', hvalue⟩
        · exact hmono e (hfresh e hold hkey)
        · refine ⟨q, ?_, pagination, hparams, hkey', ?_⟩
          · rw [typesAsked, List.filterMap_append]
            exact List.mem_append_right _ hq
          · have hsame : s₁.app.parcelDb.types = s.app.parcelDb.types := htypes
            rw [hvalue, freshTypes_congr hsame]
    · cases m with
      | job l =>
        change (if runsAlone l then _ else none) = some s₂.app at hother
        split at hother
        · obtain ⟨job, -, happ⟩ := Option.map_eq_some_iff.mp hother
          rw [← happ]
          exact ⟨htypes, fun e he hkey => hmono e (hfresh e he hkey)⟩
        · cases hother
      | evict key =>
        obtain happ := Option.some.inj hother
        rw [← happ]
        exact ⟨htypes, fun e he hkey => hmono e (hfresh e (ExpiringStore.mem_remove he) hkey)⟩
    · rw [happ]
      exact ⟨htypes, fun e he hkey => hmono e (hfresh e he hkey)⟩

/-- A valid request for types whose key tells is answered with the fresh page, whether the cache
has it or not. -/
theorem getTypes_fresh {db : ParcelDb} {q : TypesRequest} {pagination : PaginationParams}
    {t : ApiState} (hhash : Set.InjOn env.api.sha256 (hashedTypes asked)) (hq : q ∈ asked)
    (htells : TypesKeyTells env asked q)
    (hparams : env.pageParams q.query = some pagination) (htypes : t.db.types = db.types)
    (hfresh : ∀ e ∈ t.cache, isTypesKey e.key = true → FreshEntry env db asked e) :
    (env.api.getTypes pagination q t).1 = .page (env.api.freshTypes pagination db) := by
  have hstep : TypesStep env.api pagination q t (env.api.getTypes pagination q t).1
    (env.api.getTypes pagination q t).2 := typesStep_of_getTypes
  generalize (env.api.getTypes pagination q t).1 = response,
    (env.api.getTypes pagination q t).2 = t' at hstep ⊢
  cases hstep with
  | hit hget hresponse =>
    obtain ⟨e, he, hkey, rfl, -⟩ := ExpiringStore.get_eq_some hget
    obtain ⟨q', hq', pagination', hparams', hkey', hvalue⟩ :=
      hfresh e he (by rw [hkey, isTypesKey_typesKey])
    obtain ⟨hpath, hquery⟩ := typesKey_inj hhash hq hq' (hkey.symm.trans hkey')
    have hsame := htells q' hq' hpath hquery
    obtain rfl := Option.some.inj (hparams.symm.trans (hsame.trans hparams'))
    exact hresponse _ hvalue
  | computed _ => rw [freshTypes_congr htypes]

end Types

/-- **The parcel types are never stale.** After any run of the service, a request for types whose
key tells what it asks is answered, whoever sends it, with the page of the types at the start of
the run, from the cache or not; only an invalid query and the limit give anything else. -/
theorem service_types_fresh {σ : Type} (env : ServiceEnv) (strategy : Strategy σ (String × String))
    (client : Option String) (q : TypesRequest) (s s' : LimitedState σ AppState)
    (before : List (LimitedMove ClientRequest Background))
    (hempty : ∀ e ∈ s.app.cache, isTypesKey e.key = false)
    (hhash : Set.InjOn env.api.sha256
      (hashedTypes (typesAsked (before ++ [.request ⟨client, .parcelTypes q⟩]))))
    (htells : TypesKeyTells env (typesAsked (before ++ [.request ⟨client, .parcelTypes q⟩])) q)
    (hrun : (env.app.system strategy).run s before = some s') :
    (env.app.serve strategy ⟨client, .parcelTypes q⟩ s').1 =
      match env.pageParams q.query with
      | none => .validationError
      | some pagination =>
        if env.app.admits strategy ⟨client, .parcelTypes q⟩ s' then
          .parcelTypes (.page (env.api.freshTypes pagination s.app.parcelDb))
        else .rateLimited ("Rate limit exceeded: " ++ (env.parse env.limits.parcelTypes).text) := by
  obtain ⟨htypes, hfresh⟩ := freshEntries_of_run hempty hrun
  have hserved := LimitedApp.served_of_serve env.app strategy ⟨client, .parcelTypes q⟩ s'
  have hrefuse : env.app.refuse ⟨client, .parcelTypes q⟩ s'.now s'.app =
    if (env.pageParams q.query).isNone then some .validationError else none := rfl
  generalize (env.app.serve strategy ⟨client, .parcelTypes q⟩ s').1 = response,
    (env.app.serve strategy ⟨client, .parcelTypes q⟩ s').2 = s₂ at hserved ⊢
  cases hparams : env.pageParams q.query with
  | none =>
    rw [hparams] at hrefuse
    cases hserved with
    | refused hrefused => exact Option.some.inj (hrefused.symm.trans hrefuse)
    | exceeded hnot _ | handled hnot _ => cases hnot.symm.trans hrefuse
  | some pagination =>
    rw [hparams] at hrefuse
    cases hserved with
    | refused hrefused => cases hrefused.symm.trans hrefuse
    | exceeded _ hfull =>
      dsimp only
      rw [hfull]
      rfl
    | handled _ hroom =>
      dsimp only
      rw [hroom, if_pos rfl]
      have hpage : (env.api.getTypes pagination q (s'.app.api s'.now)).1 =
          .page (env.api.freshTypes pagination s.app.parcelDb) := by
        refine getTypes_fresh hhash ?_ htells hparams htypes fun e he hkey => ?_
        · rw [typesAsked, List.filterMap_append]
          exact List.mem_append_right _ (List.mem_singleton_self q)
        · refine (hfresh e he hkey).mono fun q' hq' => ?_
          rw [typesAsked, List.filterMap_append]
          exact List.mem_append_left _ hq'
      change (env.handler _ _ _).1 = _
      simp only [handler, hparams, hpage]

/-- A request for types. -/
def sampleTypesRequest : TypesRequest := ⟨"localhost", "/parcel-types", ""⟩

/-- The same request half a minute later: it is found in the cache. -/
theorem service_types_fresh_sample :
    ∃ s', (sampleServiceEnv.app.system Strategy.counters).run sampleServiceState
        [sampleRequest (.parcelTypes sampleTypesRequest), .pass 30] = some s' ∧
      s'.app.cache.length = 1 ∧
      (sampleServiceEnv.app.serve Strategy.counters
        ⟨none, .parcelTypes sampleTypesRequest⟩ s').1 =
          .parcelTypes (.page ⟨[⟨"type-1", "books"⟩], 1, 20, 0⟩) := by
  have honly : ∀ q ∈ [sampleTypesRequest, sampleTypesRequest], q = sampleTypesRequest := by simp
  have hplain : Url.Parts.Plain
      ⟨sampleTypesRequest.host, sampleTypesRequest.path, sampleTypesRequest.query⟩ := by
    decide +kernel
  refine ⟨_, rfl, rfl, ?_⟩
  refine (service_types_fresh sampleServiceEnv Strategy.counters none sampleTypesRequest
    sampleServiceState _ [sampleRequest (.parcelTypes sampleTypesRequest), .pass 30]
    (fun e he => absurd he List.not_mem_nil) ?_ ?_ rfl).trans ?_
  · rintro x ⟨q, hq, rfl⟩ y ⟨q', hq', rfl⟩ -
    rw [honly q hq, honly q' hq']
  · refine typesKeyTells_of_plain hplain fun q' hq' => ?_
    rw [honly q' hq']
    exact hplain
  · rfl

end ServiceEnv

/-! ## Prices -/

/-- The run has come past its lock. -/
def RunPoint.started : RunPoint → Bool
  | deleteLock => false
  | acquireLock => false
  | _ => true

section Job

variable {cfg : DeliverySettings} {s s' : JobState} {l : JobMove} {i : ℕ} {pt : RunPoint}
  {moves : List JobMove}

/-- What a step of the job makes of the table: the same, a row more, or a batch of costs. -/
theorem parcels_of_jobStep (h : JobStep cfg s l s') :
    s'.parcels = s.parcels ∨ (∃ row, s'.parcels.rows = s.parcels.rows ++ [row]) ∨
      ∃ costs, s'.parcels.rows = s.parcels.rows.map (Parcel.assignCost costs) := by
  cases h with
  | committed _ _ hrows => exact Or.inr (Or.inr ⟨_, hrows⟩)
  | created _ hinsert => exact Or.inr (Or.inl ⟨_, (Table.insert_eq_some hinsert).1⟩)
  | tick | manual | deleted _ | acquired _ _ | skipped _ _ | rateRead _ _ | rateFailed _ _
  | selected _ _ _ | drained _ _ | refused _ _ | finished _ | interrupted _ _ | lockExpired
  | rateExpired => exact Or.inl rfl

/-- A parcel stays, and so does its price. -/
theorem pricedIn_of_jobRun {id : String} (hrun : (jobSystem cfg).run s moves = some s') :
    (PricedIn s.parcels id → PricedIn s'.parcels id) ∧
      ((∃ row ∈ s.parcels.rows, row.id = id) → ∃ row ∈ s'.parcels.rows, row.id = id) := by
  refine System.run_relates (r := fun s s' : JobState =>
    (PricedIn s.parcels id → PricedIn s'.parcels id) ∧
      ((∃ row ∈ s.parcels.rows, row.id = id) → ∃ row ∈ s'.parcels.rows, row.id = id))
    (fun _ => ⟨fun h => h, fun h => h⟩)
    (fun h h' => ⟨fun hp => h'.1 (h.1 hp), fun hr => h'.2 (h.2 hr)⟩) ?_ hrun
  intro s l s' hstep
  rcases parcels_of_jobStep (jobStep_of_step hstep) with hsame | ⟨row, hrows⟩ | ⟨costs, hrows⟩
  · rw [hsame]
    exact ⟨fun h => h, fun h => h⟩
  · refine ⟨fun h => h.of_append hrows, ?_⟩
    rintro ⟨row, hrow, hid⟩
    exact ⟨row, by rw [hrows]; exact List.mem_append_left _ hrow, hid⟩
  · refine ⟨fun h => h.of_costs hrows, ?_⟩
    rintro ⟨row, hrow, hid⟩
    refine ⟨row.assignCost costs, ?_, (Parcel.assignCost_id _ _).trans hid⟩
    rw [hrows]
    exact List.mem_map_of_mem hrow

/-- A run that has come past its lock does not come back to it. -/
theorem not_setNx_of_started (hpt : s.runs[i]? = some pt) (hstarted : pt.started = true)
    (hrun : (jobSystem cfg).run s moves = some s') : .setNx i ∉ moves := by
  induction moves generalizing s pt with
  | nil => exact List.not_mem_nil
  | cons l moves ih =>
    obtain ⟨s₁, hs₁, hrest⟩ := System.run_cons_eq_some.mp hrun
    obtain ⟨pt₁, hpt₁, hstep⟩ := point_of_step (jobStep_of_step hs₁) hpt
    have hnext : pt₁.started = true ∧ l ≠ .setNx i := by
      cases hstep with
      | stay hl =>
        refine ⟨hstarted, ?_⟩
        rintro rfl
        exact hl rfl
      | rateRead | rateFailed | selected _ _ | drained _ | committed _ | refused _ | finished
      | interrupted _ => exact ⟨rfl, nofun⟩
      | deleted | acquired _ | skipped _ => cases hstarted
    intro hmem
    rcases List.mem_cons.mp hmem with heq | hmem
    · exact hnext.2 heq.symm
    · exact ih hpt₁ hnext.1 hrest hmem

/-- **What a run of the job leaves**: every parcel that was there when it was in its loop has a
price when it has returned. -/
theorem pricedIn_of_returned (hB : 0 < cfg.batchSize) {n : ℕ} (hpt : s.runs[i]? = some pt)
    (hstarted : pt.started = true) (hloop : pt.drained = false)
    (hrun : (jobSystem cfg).run s moves = some s') (hreturned : s'.runs[i]? = some (.returned n))
    {row : Parcel} (hrow : row ∈ s.parcels.rows) : PricedIn s'.parcels row.id := by
  rcases drained_of_run hrun hreturned rfl with ⟨pt', hpt', hdrained⟩ |
    ⟨before, after, s₁, rfl, -⟩ | ⟨before, after, s₁, rfl, hbefore, hbatch, -⟩
  · cases hpt.symm.trans hpt'
    rw [hloop] at hdrained
    cases hdrained
  · exact absurd (List.mem_append_right _ List.mem_cons_self)
      (not_setNx_of_started hpt hstarted hrun)
  · obtain ⟨s₁', hbefore', hafter⟩ := System.run_append_eq_some.mp hrun
    cases hbefore.symm.trans hbefore'
    obtain ⟨row', hrow', hid⟩ := (pricedIn_of_jobRun hbefore).2 ⟨row, hrow, rfl⟩
    exact (pricedIn_of_jobRun hafter).1
      ⟨row', hrow', hid, priced_of_empty_batch hB hbatch row' hrow'⟩

end Job

namespace ServiceEnv

/-- What the parcel routes are told along a schedule of the service. -/
def apiMoves {σ : Type} (env : ServiceEnv) (strategy : Strategy σ (String × String))
    (s : LimitedState σ AppState) (moves : List (LimitedMove ClientRequest Background)) :
    List ApiMove :=
  (env.app.system strategy).collect (env.apiView.record env.app strategy) s moves

section Prices

variable {env : ServiceEnv} {σ : Type} {strategy : Strategy σ (String × String)}
  {s s' : LimitedState σ AppState} {moves : List (LimitedMove ClientRequest Background)}
  {client : Option String} {r : GetRequest} {response : Response}

theorem apiMoves_append {moves' : List (LimitedMove ClientRequest Background)}
    (hrun : (env.app.system strategy).run s moves = some s') :
    env.apiMoves strategy s (moves ++ moves') =
      env.apiMoves strategy s moves ++ env.apiMoves strategy s' moves' :=
  System.collect_append hrun

/-- A refused request is sent no parcel. -/
theorem bodies_of_refuse {now : ℕ} {a : AppState}
    (h : env.app.refuse ⟨client, .parcels r⟩ now a = some (.parcels response)) :
    response.bodies = [] := by
  change env.refuse ⟨client, .parcels r⟩ now a = _ at h
  rw [refuse] at h
  dsimp only at h
  cases howner : env.api.readerId now r.caller with
  | error e =>
    rw [howner] at h
    obtain rfl := ServiceResponse.parcels.inj (Option.some.inj h)
    exact Response.bodies_ofExn e
  | ok ownerId =>
    rw [howner] at h
    cases hendpoint : r.endpoint with
    | list =>
      rw [hendpoint] at h
      dsimp only at h
      split at h
      · obtain rfl := ServiceResponse.parcels.inj (Option.some.inj h)
        rfl
      · cases h
    | detail =>
      rw [hendpoint] at h
      cases h

/-- **How a parcel request is served**: without any parcel, or by the parcel routes, which are told
of it. -/
theorem parcels_served
    (hserve : (env.app.serve strategy ⟨client, .parcels r⟩ s).1 = .parcels response) :
    response.bodies = [] ∨ response = (env.api.get r (s.app.view s.now)).1 ∧
      env.apiMoves strategy s [.request ⟨client, .parcels r⟩] = [.get r] := by
  have hserved := LimitedApp.served_of_serve env.app strategy ⟨client, .parcels r⟩ s
  rw [hserve] at hserved
  generalize (env.app.serve strategy ⟨client, .parcels r⟩ s).2 = s' at hserved
  generalize hsent : ServiceResponse.parcels response = sent at hserved
  cases hserved with
  | refused hrefuse =>
    rw [← hsent] at hrefuse
    exact Or.inl (bodies_of_refuse hrefuse)
  | exceeded _ _ => cases hsent
  | handled hrefuse hroom =>
    refine Or.inr ⟨?_, ?_⟩
    · have hview : env.api.get r (s.app.view s.now) =
          ((env.api.get r (s.app.api s.now)).1, (env.api.get r (s.app.api s.now)).2.parcelView) :=
        get_parcelView r
      rw [hview]
      exact ServiceResponse.parcels.inj hsent
    · have hreaches : env.app.reaches strategy ⟨client, .parcels r⟩ s = true := by
        rw [LimitedApp.reaches, hrefuse, hroom]
        rfl
      rw [apiMoves, System.collect_cons_of_step (show (env.app.system strategy).step s
        (.request ⟨client, .parcels r⟩) = some _ from rfl)]
      simp only [LimitedApp.View.record, hreaches, if_true]
      rfl

end Prices

end ServiceEnv

/-- A move of the job. -/
def sampleJobMove (l : JobMove) : LimitedMove ClientRequest ServiceEnv.Background := .other (.job l)

/-- The caller creates a parcel and lists it, and the scheduler starts a run. -/
def sampleBefore : List (LimitedMove ClientRequest ServiceEnv.Background) :=
  [sampleRequest (.createParcel
      ⟨sampleCaller, some ⟨"book", ⟨1, 0⟩, ⟨10, 0⟩, "type-1"⟩, "parcel-1"⟩),
    sampleRequest (.parcels sampleListRequest), sampleJobMove .tick, sampleJobMove (.setNx 0),
    sampleJobMove (.readRate 0 "2025-01-01" [some ⟨90, 0⟩])]

/-- The row that the run finds. -/
def sampleFound : Parcel :=
  { sampleParcel "parcel-1" with sessionId := "3f0f2a52-6f0e-4c7b-9d3c-0a4c8f2b7e11" }

/-- The run, up to its return. -/
def sampleRunMoves : List (LimitedMove ClientRequest ServiceEnv.Background) :=
  [sampleJobMove (.select 0 [sampleFound]), sampleJobMove (.commit 0), sampleJobMove (.select 0 []),
    sampleJobMove (.finish 0 0)]

end ParcelDelivery
