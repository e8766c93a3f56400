import ParcelDelivery.ParcelReads
import Mathlib.Data.Set.Function

/-!
# Isolation of cached responses

The cache key is made from a header as it was sent, ownership from what the header
means. The two agree: a token has one subject, a session id that is kept is its
own owner id, and the callers that share a key without a session id of their own
own nothing yet, so that what the cache keeps for them is empty. Every entry is explained by
the request that filled it (`Explained`).

The key is also made from the path and the query of `request.url`, the question from the
decoded path and the query string. These two do not agree: a question mark or a number sign that
is sent percent-encoded ends the path of the URL, so that one key stands for several questions.
A response always shows the caller's own parcels, and it answers what the caller has asked
where the key tells (`cache_isolation`); elsewhere a parcel is sent under an id that no
parcel has (`encoded_question_mark_answered`).
-/

namespace ParcelDelivery

open Relational DecimalArith Process TransitionSystem ParcelService

/-! ## Keys and owners -/

/-- The prefix of the keys of an endpoint. -/
def Endpoint.keyPrefix : Endpoint → String
  | list => "parcels"
  | detail => "parcel"

section Keys

variable {env : ApiEnv} {moves : List ApiMove} {r r' : GetRequest} {now now' : ℕ}
  {ownerId ownerId' : String}

/-- The texts that are hashed for keys along a schedule. -/
def hashedKeys (env : ApiEnv) (moves : List ApiMove) : Set String :=
  fun x => ∃ r, ApiMove.get r ∈ moves ∧ x = env.rawKey r

/-- The `Authorization` headers that are hashed along a schedule. -/
def hashedHeaders (env : ApiEnv) (moves : List ApiMove) : Set String :=
  fun x => env.authRequired = true ∧ ∃ r, ApiMove.get r ∈ moves ∧ x = env.identityHeader r.caller

/-- The hash and its truncation are injective on the inputs that occur. -/
structure HashesApart (env : ApiEnv) (moves : List ApiMove) : Prop where
  keys : Set.InjOn env.sha256 (hashedKeys env moves)
  headers : Set.InjOn (fun header => (env.sha256 header).toList.take 16) (hashedHeaders env moves)

theorem HashesApart.mono {moves' : List ApiMove} (h : HashesApart env moves')
    (hsub : ∀ l ∈ moves, l ∈ moves') : HashesApart env moves where
  keys := by
    refine h.keys.mono ?_
    rintro x ⟨r, hr, hx⟩
    exact ⟨r, hsub _ hr, hx⟩
  headers := by
    refine h.headers.mono ?_
    rintro x ⟨hauth, r, hr, hx⟩
    exact ⟨hauth, r, hsub _ hr, hx⟩

/-- The requests differ in nothing that goes into a key. -/
structure SameKey (env : ApiEnv) (r r' : GetRequest) : Prop where
  endpoint : r.endpoint = r'.endpoint
  header : env.identityHeader r.caller = env.identityHeader r'.caller
  path : r.url.path = r'.url.path
  query : r.url.query = r'.url.query

/-- The requests to one endpoint ask `ParcelService` for the same. -/
def AsksSame (env : ApiEnv) (r r' : GetRequest) : Prop :=
  match r.endpoint with
  | .list => env.listParams r.query = env.listParams r'.query
  | .detail => env.parcelIdOf r.path = env.parcelIdOf r'.path

/-- **A plain URL tells what is asked.** -/
theorem SameKey.asksSame (h : SameKey env r r') (hplain : Url.Parts.Plain ⟨r.host, r.path, r.query⟩)
    (hplain' : Url.Parts.Plain ⟨r'.host, r'.path, r'.query⟩) : AsksSame env r r' := by
  obtain ⟨-, -, hpath, hquery⟩ := h
  rw [GetRequest.url, GetRequest.url, Url.split_join hplain, Url.split_join hplain'] at hpath hquery
  rw [AsksSame]
  split
  · exact congrArg env.listParams hquery
  · exact congrArg env.parcelIdOf hpath

/-- **A key says which URL was asked for, and by whom**, as far as the header goes. -/
theorem makeCacheKey_inj (h : HashesApart env moves) (hr : .get r ∈ moves) (hr' : .get r' ∈ moves)
    (heq : env.makeCacheKey r.endpoint.keyPrefix r = env.makeCacheKey r'.endpoint.keyPrefix r') :
    SameKey env r r' := by
  have hchars := congrArg String.toList heq
  simp only [ApiEnv.makeCacheKey, String.toList_append, List.append_assoc] at hchars
  have hlist : (Endpoint.keyPrefix .list).toList = ['p', 'a', 'r', 'c', 'e', 'l', 's'] := by decide
  have hdetail : (Endpoint.keyPrefix .detail).toList = ['p', 'a', 'r', 'c', 'e', 'l'] := by decide
  have hcolon : ":".toList = [':'] := by decide
  have hsplit : r.endpoint = r'.endpoint ∧
      env.sha256 (env.rawKey r) = env.sha256 (env.rawKey r') := by
    rcases r with ⟨_ | _, caller, host, path, query⟩ <;>
      rcases r' with ⟨_ | _, caller', host', path', query'⟩
    · exact ⟨rfl, String.toList_inj.mp (List.append_cancel_left (List.append_cancel_left hchars))⟩
    · rw [hlist, hdetail, hcolon] at hchars
      have hchar : some 's' = some ':' := congrArg (fun cs : List Char => cs[6]?) hchars
      cases hchar
    · rw [hlist, hdetail, hcolon] at hchars
      have hchar : some ':' = some 's' := congrArg (fun cs : List Char => cs[6]?) hchars
      cases hchar
    · exact ⟨rfl, String.toList_inj.mp (List.append_cancel_left (List.append_cancel_left hchars))⟩
  obtain ⟨hendpoint, hhash⟩ := hsplit
  have hraw := JsonText.dumpObject_injective
    (h.keys ⟨r, hr, rfl⟩ ⟨r', hr', rfl⟩ hhash)
  obtain ⟨hidentity, hrest⟩ := List.cons.inj hraw
  obtain ⟨hpath, hrest⟩ := List.cons.inj hrest
  obtain ⟨hquery, -⟩ := List.cons.inj hrest
  refine ⟨hendpoint, ?_, (Prod.mk.inj hpath).2, (Prod.mk.inj hquery).2⟩
  have hidentity := (Prod.mk.inj hidentity).2
  simp only [ApiEnv.identity] at hidentity
  cases hauth : env.authRequired with
  | true =>
    rw [if_pos hauth, if_pos hauth] at hidentity
    exact h.headers ⟨hauth, r, hr, rfl⟩ ⟨hauth, r', hr', rfl⟩ (String.ofList_injective hidentity)
  | false =>
    rw [if_neg (by rw [hauth]; nofun), if_neg (by rw [hauth]; nofun)] at hidentity
    exact hidentity

/-- An accepted token gives its subject. -/
theorem sub_of_readerId {c : Caller} (hauth : env.authRequired = true)
    (h : env.readerId now c = .ok ownerId) :
    ∃ header token, c.authorization = some header ∧ env.bearerToken header = some token ∧
      ((env.jwtPayload token).bind fun payload => payload.text "sub") = some ownerId := by
  rw [ApiEnv.readerId, ApiEnv.ownerId, if_pos hauth] at h
  split at h
  · cases h
  · next token htoken =>
    obtain ⟨header, hheader, htoken⟩ :=
      Option.bind_eq_some_iff.mp (Option.filter_eq_some_iff.mp htoken).1
    split at h
    · cases h
    · next claims hclaims =>
      cases h
      exact ⟨header, token, hheader, htoken, sub_of_decodeToken hclaims⟩

/-- In legacy mode the owner id is the session id, or drawn. -/
theorem session_of_readerId {c : Caller} (hauth : env.authRequired = false)
    (h : env.readerId now c = .ok ownerId) :
    ownerId = if keepsSession (env.identityHeader c) then env.identityHeader c else c.uuid4 := by
  have hheader : env.identityHeader c = c.session.getD "anon" := by
    rw [ApiEnv.identityHeader, hauth]
    rfl
  rw [ApiEnv.readerId, ApiEnv.ownerId, hauth] at h
  rw [hheader]
  cases hsession : c.session with
  | none =>
    rw [hsession] at h
    -- the name of the missing header is no session id itself
    exact (Except.ok.inj h).symm.trans (if_neg (by decide)).symm
  | some session =>
    rw [hsession] at h
    exact (Except.ok.inj h).symm.trans (assignSessionId_some session c.uuid4)

/-- **One header, one owner**: callers with the same identifying header have the same owner
id, or each one the id that was drawn for it. -/
theorem owner_of_header {c c' : Caller} (h : env.readerId now c = .ok ownerId)
    (h' : env.readerId now' c' = .ok ownerId')
    (heq : env.identityHeader c = env.identityHeader c') :
    ownerId = ownerId' ∨
      env.authRequired = false ∧ ownerId = c.uuid4 ∧ ownerId' = c'.uuid4 := by
  cases hauth : env.authRequired with
  | true =>
    obtain ⟨header, token, hheader, htoken, hsub⟩ := sub_of_readerId hauth h
    obtain ⟨header', token', hheader', htoken', hsub'⟩ := sub_of_readerId hauth h'
    rw [ApiEnv.identityHeader, ApiEnv.identityHeader, if_pos hauth, if_pos hauth, hheader,
      hheader'] at heq
    obtain rfl : header = header' := heq
    cases htoken.symm.trans htoken'
    exact Or.inl (Option.some.inj (hsub.symm.trans hsub'))
  | false =>
    have howner := session_of_readerId hauth h
    have howner' := session_of_readerId hauth h'
    rw [← heq] at howner'
    cases hkeeps : keepsSession (env.identityHeader c) with
    | true =>
      rw [hkeeps] at howner howner'
      exact Or.inl (howner.trans howner'.symm)
    | false =>
      rw [hkeeps] at howner howner'
      exact Or.inr ⟨rfl, howner, howner'⟩

end Keys

/-! ## Steps -/

section Steps

variable {env : ApiEnv} {s s' : ApiState} {l : ApiMove} {r : GetRequest} {ownerId : String}

/-- A request that the service answers, and what the cache keeps of the answer. -/
def Computed (env : ApiEnv) (r : GetRequest) (db : ParcelDb) (ownerId : String) (value : Json) :
    Prop :=
  match r.endpoint with
  | .list => ∃ pagination filters page, env.listParams r.query = some (pagination, filters) ∧
      (listParcels env.authRequired pagination filters ownerId).run (parcelHandler env.collate) db =
        (.ok page, db) ∧ value = page.toJson
  | .detail => ∃ loaded,
      (getOwned env.authRequired (env.parcelIdOf r.path) ownerId).run
        (parcelHandler env.collate) db = (.ok loaded, db) ∧ value = loaded.toJson

/-- What `redis_cache` does. -/
theorem redisCache_spec {α : Type} {keyPrefix : String} {fn : ParcelProg α} {toJson : α → Json}
    {sendCached : Json → Response} {send : α → Response} {raise : Exn → Response}
    {result : Except Exn α} (hrun : fn.run (parcelHandler env.collate) s.db = (result, s.db)) :
    (∃ cached, ExpiringStore.get s.cache s.now (env.makeCacheKey keyPrefix r) = some cached ∧
        env.redisCache keyPrefix r s fn toJson sendCached send raise = (sendCached cached, s)) ∨
      (∃ value, result = .ok value ∧
        env.redisCache keyPrefix r s fn toJson sendCached send raise =
          (send value, { s with
            cache := ExpiringStore.set s.cache s.now env.cacheTtl (env.makeCacheKey keyPrefix r)
              (toJson value) })) ∨
      ∃ e, result = .error e ∧
        env.redisCache keyPrefix r s fn toJson sendCached send raise = (raise e, s) := by
  rw [ApiEnv.redisCache]
  cases ExpiringStore.get s.cache s.now (env.makeCacheKey keyPrefix r) with
  | some cached => exact Or.inl ⟨cached, rfl, rfl⟩
  | none =>
    rw [hrun]
    cases result with
    | ok value => exact Or.inr (Or.inl ⟨value, rfl, rfl⟩)
    | error e => exact Or.inr (Or.inr ⟨e, rfl, rfl⟩)

/-- The response is a 200. -/
def Response.ok : Response → Bool
  | page _ => true
  | parcel _ => true
  | _ => false

theorem Response.ok_ofExn (e : Exn) : (Response.ofExn e).ok = false := by cases e <;> rfl

theorem ok_getParcelRaise (e : Exn) : (getParcelRaise e).ok = false := by cases e <;> rfl

/-- How a `GET` request ends, and the state it leaves. -/
inductive GetStep (env : ApiEnv) (r : GetRequest) (s : ApiState) : Response → ApiState → Prop where
  | failed {response : Response} (hfailed : response.ok = false) : GetStep env r s response s
  | hit {ownerId : String} {cached : Json} {response : Response}
      (howner : env.readerId s.now r.caller = .ok ownerId)
      (hget : ExpiringStore.get s.cache s.now (env.makeCacheKey r.endpoint.keyPrefix r) =
        some cached)
      (hresponse : response = match r.endpoint with
        | .list => .ofModel .page (PaginatedResponse.ofJson cached)
        | .detail => .ofModel .parcel (ParcelRead.ofJson cached)) :
      GetStep env r s response s
  | computed {ownerId : String} {value : Json} {response : Response}
      (howner : env.readerId s.now r.caller = .ok ownerId)
      (hvalue : Computed env r s.db ownerId value)
      (hresponse : ∀ body, response = .page body → r.endpoint = .list ∧ value = body.toJson)
      (hresponse' : ∀ body, response = .parcel body → r.endpoint = .detail ∧
        ∃ loaded : LoadedParcel, value = loaded.toJson ∧ body.id = loaded.row.id) :
      GetStep env r s response { s with
        cache := ExpiringStore.set s.cache s.now env.cacheTtl
          (env.makeCacheKey r.endpoint.keyPrefix r) value }

/-- A list request that gets as far as the cache. -/
theorem getStep_of_list {pagination : PaginationParams} {filters : ParcelFilterParams}
    (hlist : r.endpoint = .list) (howner : env.readerId s.now r.caller = .ok ownerId)
    (hparams : env.listParams r.query = some (pagination, filters)) :
    let out := env.redisCache "parcels" r s
      (listParcels env.authRequired pagination filters ownerId) PaginatedResponse.toJson
      (fun json => .ofModel .page (PaginatedResponse.ofJson json)) .page .ofExn
    GetStep env r s out.1 out.2 := by
  have hkey : r.endpoint.keyPrefix = "parcels" := congrArg Endpoint.keyPrefix hlist
  obtain ⟨result, hrun⟩ :=
    listParcels_readOnly env.collate env.authRequired pagination filters ownerId s.db
  intro out
  rcases redisCache_spec hrun with ⟨cached, hget, heq⟩ | ⟨page, rfl, heq⟩ | ⟨e, rfl, heq⟩
  · rw [show out = _ from heq]
    exact .hit howner (hkey ▸ hget) (by rw [hlist])
  · rw [show out = _ from heq, ← hkey]
    refine .computed howner ?_ (fun body hbody => ?_) fun body hbody => ?_
    · rw [Computed, hlist]
      exact ⟨pagination, filters, page, hparams, hrun, rfl⟩
    · cases hbody
      exact ⟨hlist, rfl⟩
    · cases hbody
  · rw [show out = _ from heq]
    exact .failed (Response.ok_ofExn e)

/-- A detail request that gets as far as the cache. -/
theorem getStep_of_detail (hdetail : r.endpoint = .detail)
    (howner : env.readerId s.now r.caller = .ok ownerId) :
    let out := env.redisCache "parcel" r s
      (getOwned env.authRequired (env.parcelIdOf r.path) ownerId) LoadedParcel.toJson
      (fun json => .ofModel .parcel (ParcelRead.ofJson json)) getParcelRespond getParcelRaise
    GetStep env r s out.1 out.2 := by
  have hkey : r.endpoint.keyPrefix = "parcel" := congrArg Endpoint.keyPrefix hdetail
  intro out
  rcases redisCache_spec getOwned_run with ⟨cached, hget, heq⟩ | ⟨loaded, hresult, heq⟩ |
    ⟨e, hresult, heq⟩
  · rw [show out = _ from heq]
    exact .hit howner (hkey ▸ hget) (by rw [hdetail])
  · rw [show out = _ from heq, ← hkey]
    refine .computed howner ?_ (fun body hbody => ?_) fun body hbody => ?_
    · rw [Computed, hdetail]
      exact ⟨loaded, by rw [getOwned_run, hresult], rfl⟩
    · rw [getParcelRespond] at hbody
      cases hloaded : ParcelRead.ofLoaded loaded with
      | none | some _ =>
        rw [hloaded] at hbody
        cases hbody
    · rw [getParcelRespond] at hbody
      cases hloaded : ParcelRead.ofLoaded loaded with
      | none =>
        rw [hloaded] at hbody
        cases hbody
      | some read =>
        rw [hloaded] at hbody
        cases hbody
        exact ⟨hdetail, loaded, rfl, ParcelRead.id_of_loaded hloaded⟩
  · rw [show out = _ from heq]
    exact .failed (ok_getParcelRaise e)

/-- **Inversion of a `GET` request.** -/
theorem getStep_of_get : GetStep env r s (env.get r s).1 (env.get r s).2 := by
  cases howner : env.readerId s.now r.caller with
  | error e =>
    rw [ApiEnv.get_refused howner]
    exact .failed (Response.ok_ofExn e)
  | ok ownerId =>
    cases hendpoint : r.endpoint with
    | list =>
      cases hparams : env.listParams r.query with
      | none =>
        rw [ApiEnv.get_list_invalid hendpoint howner hparams]
        exact .failed rfl
      | some params =>
        rw [ApiEnv.get_list hendpoint howner hparams]
        exact getStep_of_list hendpoint howner hparams
    | detail =>
      rw [ApiEnv.get_detail hendpoint howner]
      exact getStep_of_detail hendpoint howner

/-- **Rows persist** whatever happens to the routes. -/
theorem persists_of_apiStep (h : (apiSystem env).step s l = some s') : Persists s.db s'.db := by
  cases l with
  | get r =>
    obtain rfl := Option.some.inj h
    have hstep : GetStep env r s (env.get r s).1 (env.get r s).2 := getStep_of_get
    generalize (env.get r s).1 = response, (env.get r s).2 = s' at hstep
    cases hstep with
    | failed _ | hit _ _ _ | computed _ _ _ _ => exact .refl _
  | post r =>
    obtain rfl := Option.some.inj h
    rw [ApiEnv.post]
    split
    · exact .refl _
    · next ownerId _ =>
      split
      · exact .refl _
      · next data _ =>
        rcases createFromDto_spec env.collate env.authRequired data ownerId r.newId s.db with
          ⟨row, db', hcreated⟩ | ⟨e, hrun⟩
        · rw [hcreated.run]
          exact hcreated.persists
        · rw [hrun]
          exact .refl _
  | price costs =>
    obtain rfl := Option.some.inj h
    exact persists_of_step (@ParcelStep.priced env.collate s.db costs)
  | addUser id =>
    obtain rfl := Option.some.inj h
    exact persists_of_step (@ParcelStep.userAdded env.collate s.db id)
  | evict _ | pass _ =>
    obtain rfl := Option.some.inj h
    exact .refl _

/-- An entry after a step was there before, or a `GET` request has just been answered. -/
theorem entry_of_step (h : (apiSystem env).step s l = some s')
    {e : ExpiringStore.Entry String Json} (he : e ∈ s'.cache) :
    e ∈ s.cache ∨ ∃ r ownerId, l = .get r ∧ env.readerId s.now r.caller = .ok ownerId ∧
      e.key = env.makeCacheKey r.endpoint.keyPrefix r ∧ e.expiresAt = s.now + env.cacheTtl ∧
      Computed env r s.db ownerId e.value := by
  cases l with
  | get r =>
    obtain rfl := Option.some.inj h
    have hstep : GetStep env r s (env.get r s).1 (env.get r s).2 := getStep_of_get
    generalize (env.get r s).1 = response, (env.get r s).2 = s' at hstep he
    cases hstep with
    | failed _ | hit _ _ _ => exact Or.inl he
    | computed howner hvalue _ _ =>
      rcases ExpiringStore.mem_set he with rfl | he
      · exact Or.inr ⟨r, _, rfl, howner, rfl, rfl, hvalue⟩
      · exact Or.inl he
  | post r =>
    obtain rfl := Option.some.inj h
    refine Or.inl ?_
    rw [ApiEnv.post] at he
    split at he
    · exact he
    · split at he
      · exact he
      · split at he <;> exact he
  | price _ | addUser _ =>
    obtain rfl := Option.some.inj h
    exact Or.inl he
  | evict key =>
    obtain rfl := Option.some.inj h
    exact Or.inl (ExpiringStore.mem_remove he)
  | pass seconds =>
    obtain rfl := Option.some.inj h
    exact Or.inl he

end Steps

/-! ## Histories -/

/-- The `uuid4` that is drawn for the caller of a read. -/
def ApiMove.drawn : ApiMove → Option String
  | get r => some r.caller.uuid4
  | _ => none

/-- The `uuid4` that is drawn for a caller is nobody's session id yet. -/
def FreshSessionIds (s : ApiState) (l : ApiMove) (_ : ApiState) : Prop :=
  ∀ row ∈ s.db.parcels.rows, l.drawn ≠ some row.sessionId

instance (s : ApiState) (l : ApiMove) (s' : ApiState) : Decidable (FreshSessionIds s l s') :=
  inferInstanceAs (Decidable (∀ row ∈ s.db.parcels.rows, _))

/-- A cache entry is explained by an earlier request that the service has answered. -/
def Explained (env : ApiEnv) (s₀ : ApiState) (before : List ApiMove)
    (e : ExpiringStore.Entry String Json) : Prop :=
  ∃ b₁ r b₂ s₁ ownerId, before = b₁ ++ .get r :: b₂ ∧ (apiSystem env).run s₀ b₁ = some s₁ ∧
    env.readerId s₁.now r.caller = .ok ownerId ∧
    e.key = env.makeCacheKey r.endpoint.keyPrefix r ∧ e.expiresAt = s₁.now + env.cacheTtl ∧
    Computed env r s₁.db ownerId e.value

section Histories

variable {env : ApiEnv} {s₀ s : ApiState} {before : List ApiMove} {r : GetRequest}
  {ownerId : String}

/-- **Every entry of the cache is explained.** -/
theorem explained_of_run (hempty : s₀.cache = []) (hrun : (apiSystem env).run s₀ before = some s) :
    ∀ e ∈ s.cache, Explained env s₀ before e := by
  refine System.run_history (P := fun before s => ∀ e ∈ s.cache, Explained env s₀ before e)
    ?_ ?_ hrun
  · rw [hempty]
    exact fun e he => absurd he List.not_mem_nil
  · intro before s l s' hbefore hall hstep e he
    rcases entry_of_step hstep he with hold | ⟨r, ownerId, rfl, howner, hkey, hexpires, hvalue⟩
    · obtain ⟨b₁, r, b₂, s₁, ownerId, rfl, hrest⟩ := hall e hold
      exact ⟨b₁, r, b₂ ++ [l], s₁, ownerId, List.append_assoc _ _ _, hrest⟩
    · exact ⟨before, r, [], s, ownerId, rfl, hbefore, howner, hkey, hexpires, hvalue⟩

theorem persists_of_run {s s' : ApiState} {moves : List ApiMove}
    (hrun : (apiSystem env).run s moves = some s') : Persists s.db s'.db := by
  refine System.run_relates (r := fun s s' => Persists s.db s'.db) (fun s => .refl s.db) ?_ ?_ hrun
  · intro s₁ s₂ s₃ h h'
    exact h.trans h'
  · exact fun s₁ l s₂ hstep => persists_of_apiStep hstep

/-- What is computed for one owner of nothing is computed for the other. -/
theorem Computed.of_none (hexact : Function.Injective env.collate) {db : ParcelDb}
    {ownerId' : String} {value : Json}
    (hnone : ∀ row ∈ db.parcels.rows, ¬ row.ownedBy env.authRequired ownerId)
    (hnone' : ∀ row ∈ db.parcels.rows, ¬ row.ownedBy env.authRequired ownerId')
    (h : Computed env r db ownerId' value) : Computed env r db ownerId value := by
  rcases r with ⟨_ | _, caller, host, path, query⟩
  · obtain ⟨pagination, filters, page, hparams, hpage, rfl⟩ := h
    refine ⟨pagination, filters, page, hparams, ?_, rfl⟩
    rw [listParcels_run, listOwned_of_none hexact hnone hnone', ← listParcels_run]
    exact hpage
  · obtain ⟨loaded, hloaded, rfl⟩ := h
    obtain ⟨hmem, howned⟩ := mem_of_getOwned hloaded
    exact absurd howned (hnone' loaded.row hmem)

/-- The value has been computed for the owner id, for a request with the same key, in a state
of the history from which the cache may still have it. -/
structure Origin (env : ApiEnv) (s₀ : ApiState) (before : List ApiMove) (r : GetRequest)
    (s : ApiState) (ownerId : String) (value : Json) (r' : GetRequest) (s₁ : ApiState) : Prop where
  reached : ∃ b₁ b₂, before = b₁ ++ b₂ ∧ (apiSystem env).run s₀ b₁ = some s₁ ∧
    (r' = r ∨ ∃ tail, b₂ = .get r' :: tail)
  live : s.now ≤ s₁.now + env.cacheTtl
  persists : Persists s₁.db s.db
  sameKey : SameKey env r r'
  computed : Computed env r' s₁.db ownerId value

/-- **What is read from the cache was computed for the reader**, at an instant of the history
from which it has not expired. -/
theorem origin_of_hit (hempty : s₀.cache = []) (hexact : Function.Injective env.collate)
    (hhash : HashesApart env (before ++ [.get r]))
    (hfresh : (apiSystem env).Steps FreshSessionIds s₀ (before ++ [.get r]))
    (hrun : (apiSystem env).run s₀ before = some s)
    (howner : env.readerId s.now r.caller = .ok ownerId) {cached : Json}
    (hget : ExpiringStore.get s.cache s.now (env.makeCacheKey r.endpoint.keyPrefix r) =
      some cached) :
    ∃ r' s₁, Origin env s₀ before r s ownerId cached r' s₁ := by
  obtain ⟨e, he, hkey, rfl, hlive⟩ := ExpiringStore.get_eq_some hget
  obtain ⟨b₁, r', b₂, s₁, ownerId', rfl, hb₁, howner', hkey', hexpires, hvalue⟩ :=
    explained_of_run hempty hrun e he
  obtain ⟨s₁', hb₁', hb₂⟩ := System.run_append_eq_some.mp hrun
  cases hb₁.symm.trans hb₁'
  have hpersists := persists_of_run hb₂
  have hsame : SameKey env r r' :=
    makeCacheKey_inj hhash (by simp) (by simp) (hkey.symm.trans hkey')
  refine ⟨r', s₁, ⟨b₁, _, rfl, hb₁, Or.inr ⟨b₂, rfl⟩⟩, hexpires ▸ hlive, hpersists, hsame, ?_⟩
  rcases owner_of_header howner howner' hsame.header with rfl | ⟨hauth, hdraw, hdraw'⟩
  · exact hvalue
  · -- both own nothing: the ids were drawn when nobody had them
    have hfresh' : (apiSystem env).Steps FreshSessionIds s₁ (.get r' :: b₂ ++ [.get r]) := by
      rw [List.append_assoc] at hfresh
      exact hfresh.of_append_right hb₁
    have hnone' : ∀ row ∈ s₁.db.parcels.rows, ¬ row.ownedBy env.authRequired ownerId' := by
      intro row hrow howned
      rw [Parcel.ownedBy, hauth] at howned
      exact (hfresh' _ rfl).1 row hrow (congrArg some (howned.trans hdraw').symm)
    have hnone : ∀ row ∈ s₁.db.parcels.rows, ¬ row.ownedBy env.authRequired ownerId := by
      intro row hrow howned
      rw [Parcel.ownedBy, hauth] at howned
      obtain ⟨cost, hrow'⟩ := hpersists.rows row hrow
      exact ((hfresh.of_append_right hrun) _ rfl).1 _ hrow' (congrArg some (howned.trans hdraw).symm)
    exact hvalue.of_none hexact hnone hnone'

/-- A cached value that is sent as a page is the JSON of the page; one that is sent as a
parcel is the JSON of a row with its id. -/
theorem sent_of_cached {r' : GetRequest} (hendpoint : r.endpoint = r'.endpoint) {db : ParcelDb}
    {cached : Json} (hvalue : Computed env r' db ownerId cached) :
    (∀ body, (match r.endpoint with
        | .list => Response.ofModel .page (PaginatedResponse.ofJson cached)
        | .detail => Response.ofModel .parcel (ParcelRead.ofJson cached)) = .page body →
      r.endpoint = .list ∧ cached = body.toJson) ∧
    ∀ body, (match r.endpoint with
        | .list => Response.ofModel .page (PaginatedResponse.ofJson cached)
        | .detail => Response.ofModel .parcel (ParcelRead.ofJson cached)) = .parcel body →
      r.endpoint = .detail ∧ ∃ loaded : LoadedParcel,
        cached = loaded.toJson ∧ body.id = loaded.row.id := by
  rw [hendpoint]
  rcases r' with ⟨_ | _, caller, host, path, query⟩
  · obtain ⟨pagination, filters, page, -, -, rfl⟩ := hvalue
    dsimp only
    rw [PaginatedResponse.ofJson_toJson]
    refine ⟨fun body hbody => ?_, fun body hbody => ?_⟩
    · cases hbody
      exact ⟨rfl, rfl⟩
    · cases hbody
  · obtain ⟨loaded, -, rfl⟩ := hvalue
    dsimp only
    cases hread : ParcelRead.ofJson loaded.toJson with
    | none =>
      refine ⟨fun body hbody => ?_, fun body hbody => ?_⟩
      · cases hbody
      · cases hbody
    | some read =>
      refine ⟨fun body hbody => ?_, fun body hbody => ?_⟩
      · cases hbody
      · cases hbody
        exact ⟨rfl, loaded, rfl, LoadedParcel.id_of_toJson hread⟩

/-- **Where a response comes from**: a 200 was computed for the caller's owner id, in the state
at hand or in one from which the cache still has it. -/
theorem origin_of_response (hempty : s₀.cache = []) (hexact : Function.Injective env.collate)
    (hhash : HashesApart env (before ++ [.get r]))
    (hfresh : (apiSystem env).Steps FreshSessionIds s₀ (before ++ [.get r]))
    (hrun : (apiSystem env).run s₀ before = some s) (hok : (env.get r s).1.ok = true) :
    ∃ ownerId value r' s₁, env.readerId s.now r.caller = .ok ownerId ∧
      Origin env s₀ before r s ownerId value r' s₁ ∧
      (∀ body, (env.get r s).1 = .page body → r.endpoint = .list ∧ value = body.toJson) ∧
      ∀ body, (env.get r s).1 = .parcel body → r.endpoint = .detail ∧
        ∃ loaded : LoadedParcel, value = loaded.toJson ∧ body.id = loaded.row.id := by
  have hstep : GetStep env r s (env.get r s).1 (env.get r s).2 := getStep_of_get
  generalize (env.get r s).1 = response, (env.get r s).2 = s' at hstep hok ⊢
  cases hstep with
  | failed hfailed =>
    rw [hfailed] at hok
    cases hok
  | hit howner hget hresponse =>
    obtain ⟨r', s₁, horigin⟩ := origin_of_hit hempty hexact hhash hfresh hrun howner hget
    rw [hresponse]
    exact ⟨_, _, r', s₁, howner, horigin,
      sent_of_cached horigin.sameKey.endpoint horigin.computed⟩
  | computed howner hvalue hpage hparcel =>
    refine ⟨_, _, r, s, howner, ⟨?_, Nat.le_add_right _ _, .refl _, ?_, hvalue⟩, hpage, hparcel⟩
    · exact ⟨before, [], (List.append_nil _).symm, hrun, Or.inl rfl⟩
    · exact ⟨rfl, rfl, rfl, rfl⟩

/-- **The key tells**: no request with the key of `r` has asked for something else in the last TTL
seconds. -/
def KeyTells (env : ApiEnv) (s₀ : ApiState) (before : List ApiMove) (r : GetRequest) (now : ℕ) :
    Prop :=
  ∀ b₁ r' b₂ s₁, before = b₁ ++ .get r' :: b₂ → (apiSystem env).run s₀ b₁ = some s₁ →
    now ≤ s₁.now + env.cacheTtl → SameKey env r r' → AsksSame env r r'

/-- The key tells where every URL is plain. -/
theorem keyTells_of_plain (now : ℕ)
    (hplain : ∀ r', .get r' ∈ before ++ [.get r] → Url.Parts.Plain ⟨r'.host, r'.path, r'.query⟩) :
    KeyTells env s₀ before r now := by
  rintro b₁ r' b₂ s₁ rfl - - hsame
  exact hsame.asksSame (hplain r (by simp)) (hplain r' (by simp))

theorem Origin.asksSame {value : Json} {r' : GetRequest} {s₁ : ApiState}
    (h : Origin env s₀ before r s ownerId value r' s₁) (htells : KeyTells env s₀ before r s.now) :
    AsksSame env r r' := by
  obtain ⟨⟨b₁, b₂, hbefore, hb₁, rfl | ⟨tail, rfl⟩⟩, hlive, -, hsame, -⟩ := h
  · rw [AsksSame]
    split
    · rfl
    · rfl
  · exact htells b₁ r' tail s₁ hbefore hb₁ hlive hsame

/-- The rows of a page that was computed for an owner are still the owner's. -/
theorem items_owned (hexact : Function.Injective env.collate) {db db' : ParcelDb}
    (hpersists : Persists db db') {pagination : PaginationParams} {filters : ParcelFilterParams}
    {total : ℕ} {rows : List LoadedParcel} {items : List ParcelRead}
    (hrows : (listOwned env.authRequired ownerId filters pagination.limit pagination.offset).run
      (parcelHandler env.collate) db = (.ok (total, rows), db))
    (hids : items.map ParcelRead.id = rows.map fun p => p.row.id) :
    ∀ item ∈ items, ∃ row ∈ db'.parcels.rows, row.id = item.id ∧
      row.ownedBy env.authRequired ownerId := by
  intro item hitem
  have hid : item.id ∈ rows.map fun p => p.row.id := hids ▸ List.mem_map_of_mem hitem
  obtain ⟨p, hp, hpid⟩ := List.mem_map.mp hid
  obtain ⟨hmem, howned⟩ := mem_of_listOwned hexact hrows p hp
  obtain ⟨cost, hrow⟩ := hpersists.rows p.row hmem
  exact ⟨_, hrow, hpid, howned⟩

end Histories

/-- It holds of the database in some state of the history that is at most the TTL old. -/
def WithinTtl (env : ApiEnv) (s₀ : ApiState) (before : List ApiMove) (now : ℕ)
    (P : ParcelDb → Prop) : Prop :=
  ∃ b₁ b₂ s₁, before = b₁ ++ b₂ ∧ (apiSystem env).run s₀ b₁ = some s₁ ∧
    now ≤ s₁.now + env.cacheTtl ∧ P s₁.db

/-- **Cache isolation.** In either mode, after any history of requests, creations, pricing
commits, expiries and evictions, a page or a parcel that is sent with status 200 shows only
parcels of the caller's own owner id. Where the key tells what is asked, it is what the service
answers to that owner id, for this path and query, in a state of the history that is at most the
TTL old. -/
theorem cache_isolation (env : ApiEnv) (s₀ s : ApiState) (before : List ApiMove) (r : GetRequest)
    (hempty : s₀.cache = []) (hexact : Function.Injective env.collate)
    (hhash : HashesApart env (before ++ [.get r]))
    (hfresh : (apiSystem env).Steps FreshSessionIds s₀ (before ++ [.get r]))
    (hrun : (apiSystem env).run s₀ before = some s) :
    (∀ body, (env.get r s).1 = .page body →
      ∃ ownerId, env.readerId s.now r.caller = .ok ownerId ∧
        (∀ item ∈ body.items, ∃ row ∈ s.db.parcels.rows, row.id = item.id ∧
          row.ownedBy env.authRequired ownerId) ∧
        (KeyTells env s₀ before r s.now → ∃ pagination filters rows,
          env.listParams r.query = some (pagination, filters) ∧
          (WithinTtl env s₀ before s.now fun db =>
            (listOwned env.authRequired ownerId filters pagination.limit pagination.offset).run
              (parcelHandler env.collate) db = (.ok (body.total, rows), db)) ∧
          body.items.map ParcelRead.id = rows.map fun p => p.row.id)) ∧
    ∀ body, (env.get r s).1 = .parcel body →
      ∃ ownerId, env.readerId s.now r.caller = .ok ownerId ∧
        (∃ row ∈ s.db.parcels.rows, row.id = body.id ∧ row.ownedBy env.authRequired ownerId) ∧
        (KeyTells env s₀ before r s.now → ∃ loaded,
          (WithinTtl env s₀ before s.now fun db =>
            (getOwned env.authRequired (env.parcelIdOf r.path) ownerId).run
              (parcelHandler env.collate) db = (.ok loaded, db)) ∧
          body.id = loaded.row.id) := by
  refine ⟨?_, ?_⟩
  · intro body hbody
    obtain ⟨ownerId, value, r', s₁, howner, horigin, hpage, -⟩ :=
      origin_of_response hempty hexact hhash hfresh hrun (by rw [hbody]; rfl)
    obtain ⟨hendpoint, rfl⟩ := hpage body hbody
    have hvalue := horigin.computed
    rw [Computed, ← horigin.sameKey.endpoint, hendpoint] at hvalue
    obtain ⟨pagination, filters, page, hparams, hcomputed, hjson⟩ := hvalue
    obtain rfl : body = page := by
      have hread := congrArg PaginatedResponse.ofJson hjson
      simp only [PaginatedResponse.ofJson_toJson] at hread
      exact Option.some.inj hread
    obtain ⟨rows, hrows, hids⟩ := listOwned_of_listParcels hcomputed
    refine ⟨ownerId, howner, items_owned hexact horigin.persists hrows hids, fun htells => ?_⟩
    have hasks := horigin.asksSame htells
    rw [AsksSame, hendpoint] at hasks
    obtain ⟨b₁, b₂, hbefore, hb₁, -⟩ := horigin.reached
    exact ⟨pagination, filters, rows, hasks.trans hparams,
      ⟨b₁, b₂, s₁, hbefore, hb₁, horigin.live, hrows⟩, hids⟩
  · intro body hbody
    obtain ⟨ownerId, value, r', s₁, howner, horigin, -, hparcel⟩ :=
      origin_of_response hempty hexact hhash hfresh hrun (by rw [hbody]; rfl)
    obtain ⟨hendpoint, sent, hsent, hid⟩ := hparcel body hbody
    have hvalue := horigin.computed
    rw [Computed, ← horigin.sameKey.endpoint, hendpoint] at hvalue
    obtain ⟨loaded, hloaded, hjson⟩ := hvalue
    obtain ⟨hmem, howned⟩ := mem_of_getOwned hloaded
    have hsame : sent.row.id = loaded.row.id := by
      obtain ⟨hfield, -⟩ := List.cons.inj (Json.obj.inj (hsent.symm.trans hjson))
      exact Json.str.inj (Prod.mk.inj hfield).2
    obtain ⟨cost, hrow⟩ := horigin.persists.rows loaded.row hmem
    refine ⟨ownerId, howner, ⟨_, hrow, (hid.trans hsame).symm, howned⟩, fun htells => ?_⟩
    have hasks := horigin.asksSame htells
    rw [AsksSame, hendpoint] at hasks
    obtain ⟨b₁, b₂, hbefore, hb₁, -⟩ := horigin.reached
    refine ⟨loaded, ⟨b₁, b₂, s₁, hbefore, hb₁, horigin.live, ?_⟩, hid.trans hsame⟩
    rw [show env.parcelIdOf r.path = env.parcelIdOf r'.path from hasks]
    exact hloaded

/-! ## A history -/

/-- The legacy mode, with the digests of the two keys that the sample hashes. -/
def sampleApiEnv : ApiEnv where
  authRequired := false
  cacheTtl := 60
  sha256 text :=
    if text = "\x7b\"identity\": \"3f0f2a52-6f0e-4c7b-9d3c-0a4c8f2b7e11\", " ++
        "\"path\": \"/parcels\", \"query\": \"\"\x7d" then
      "7f1019f82f2994eaf36f50e489615bd8aca5c0298927107d623490ce5a06402a"
    else ""
  bearerToken _ := none
  jwtPayload _ := none
  listParams _ := some (⟨20, 0⟩, ⟨none, none⟩)
  parcelIdOf path := path
  collate := id

/-- A caller with a session id. -/
def sampleCaller : Caller where
  authorization := none
  session := some "3f0f2a52-6f0e-4c7b-9d3c-0a4c8f2b7e11"
  uuid4 := "90f5bd3c-0c1f-4a53-8e0e-6a2c0a0d4f75"

/-- A list request of this caller. -/
def sampleListRequest : GetRequest where
  endpoint := .list
  caller := sampleCaller
  host := "localhost"
  path := "/parcels"
  query := ""

/-- One parcel type, and nothing else. -/
def sampleApiState : ApiState where
  db := ⟨⟨[⟨"type-1", "books"⟩], List.pairwise_singleton _ _⟩, Table.empty, []⟩
  cache := []
  now := 0

/-- The caller creates a parcel, lists it, and half a minute later a cost has been
committed. -/
def sampleApiMoves : List ApiMove :=
  [.post ⟨sampleCaller, some ⟨"book", ⟨1, 0⟩, ⟨10, 0⟩, "type-1"⟩, "parcel-1"⟩,
    .get sampleListRequest, .price [("parcel-1", ⟨⟨5400, by decide⟩, by decide⟩)], .pass 30]

/-- The page that the caller is sent then: it comes from the cache, without the cost. -/
def samplePage : PaginatedResponse where
  items := [⟨"parcel-1", "book", ⟨1000, -3⟩, ⟨1000, -2⟩, none, ⟨"type-1", "books"⟩⟩]
  total := 1
  limit := 20
  offset := 0

/-- It shows the caller's parcel, as the service would have shown it before. -/
theorem cache_isolation_sample :
    ∃ s, (apiSystem sampleApiEnv).run sampleApiState sampleApiMoves = some s ∧
      (sampleApiEnv.get sampleListRequest s).1 = .page samplePage ∧
      ∃ ownerId, sampleApiEnv.readerId s.now sampleListRequest.caller = .ok ownerId ∧
        (∀ item ∈ samplePage.items, ∃ row ∈ s.db.parcels.rows, row.id = item.id ∧
          row.ownedBy sampleApiEnv.authRequired ownerId) ∧
        ∃ pagination filters rows,
          sampleApiEnv.listParams sampleListRequest.query = some (pagination, filters) ∧
          (WithinTtl sampleApiEnv sampleApiState sampleApiMoves s.now fun db =>
            (listOwned sampleApiEnv.authRequired ownerId filters pagination.limit
              pagination.offset).run (parcelHandler sampleApiEnv.collate) db =
                (.ok (samplePage.total, rows), db)) ∧
          samplePage.items.map ParcelRead.id = rows.map fun p => p.row.id := by
  have honly : ∀ r, ApiMove.get r ∈ sampleApiMoves ++ [.get sampleListRequest] →
      r = sampleListRequest := by
    intro r hr
    simpa [sampleApiMoves] using hr
  have hhash : HashesApart sampleApiEnv (sampleApiMoves ++ [.get sampleListRequest]) := by
    refine ⟨?_, ?_⟩
    · rintro x ⟨r, hr, rfl⟩ y ⟨r', hr', rfl⟩ -
      rw [honly r hr, honly r' hr']
    · rintro x ⟨hauth, -⟩
      cases hauth
  have hsent : ∃ s, (apiSystem sampleApiEnv).run sampleApiState sampleApiMoves = some s ∧
      (sampleApiEnv.get sampleListRequest s).1 = .page samplePage := ⟨_, rfl, by decide +kernel⟩
  obtain ⟨s, hrun, hpage⟩ := hsent
  obtain ⟨ownerId, howner, hitems, hanswered⟩ :=
    (cache_isolation sampleApiEnv sampleApiState s sampleApiMoves sampleListRequest rfl
      (fun _ _ heq => heq) hhash (by decide) hrun).1 samplePage hpage
  refine ⟨s, hrun, hpage, ownerId, howner, hitems, hanswered (keyTells_of_plain s.now ?_)⟩
  intro r' hr'
  rw [honly r' hr']
  decide +kernel

/-! ## A key for two parcels -/

/-- The legacy mode, with readable keys. -/
def sampleCacheEnv : ApiEnv where
  authRequired := false
  cacheTtl := 60
  sha256 := id
  bearerToken _ := none
  jwtPayload _ := none
  listParams _ := none
  parcelIdOf path := String.ofList (path.toList.drop 9)
  collate := id

/-- A detail request of the caller. -/
def sampleDetailRequest : GetRequest where
  endpoint := .detail
  caller := sampleCaller
  host := "localhost"
  path := "/parcels/p1"
  query := ""

/-- A request with `%3F` at the end of its path. -/
def sampleEncodedRequest : GetRequest := { sampleDetailRequest with path := "/parcels/p1?" }

/-- The caller creates a parcel and asks for it. -/
def sampleEncodedMoves : List ApiMove :=
  [.post ⟨sampleCaller, some ⟨"book", ⟨1, 0⟩, ⟨10, 0⟩, "type-1"⟩, "p1"⟩, .get sampleDetailRequest]

/-- The parcel as the cache has it. -/
def sampleEncodedBody : ParcelRead :=
  ⟨"p1", "book", ⟨10, -1⟩, ⟨100, -1⟩, none, ⟨"type-1", "books"⟩⟩

/-- **A parcel is sent under an id that no parcel has**: `GET /parcels/p1%3F` is answered with the
parcel `p1` out of the cache, where the service has never had a parcel `p1?`. -/
theorem encoded_question_mark_answered :
    HashesApart sampleCacheEnv (sampleEncodedMoves ++ [.get sampleEncodedRequest]) ∧
      (apiSystem sampleCacheEnv).Steps FreshSessionIds sampleApiState
        (sampleEncodedMoves ++ [.get sampleEncodedRequest]) ∧
      ∃ s ownerId, (apiSystem sampleCacheEnv).run sampleApiState sampleEncodedMoves = some s ∧
        (sampleCacheEnv.get sampleEncodedRequest s).1 = .parcel sampleEncodedBody ∧
        sampleCacheEnv.readerId s.now sampleEncodedRequest.caller = .ok ownerId ∧
        ∀ loaded, ¬ WithinTtl sampleCacheEnv sampleApiState sampleEncodedMoves s.now fun db =>
          (getOwned sampleCacheEnv.authRequired
            (sampleCacheEnv.parcelIdOf sampleEncodedRequest.path) ownerId).run
              (parcelHandler sampleCacheEnv.collate) db = (.ok loaded, db) := by
  have hasked : sampleCacheEnv.parcelIdOf sampleEncodedRequest.path = "p1?" := by decide
  refine ⟨?_, by decide, ?_⟩
  · refine ⟨fun _ _ _ _ heq => heq, ?_⟩
    rintro x ⟨hauth, -⟩
    cases hauth
  · have hsent : ∃ s, (apiSystem sampleCacheEnv).run sampleApiState sampleEncodedMoves = some s ∧
        (sampleCacheEnv.get sampleEncodedRequest s).1 = .parcel sampleEncodedBody ∧
        ∀ row ∈ s.db.parcels.rows, row.id = "p1" := ⟨_, rfl, by decide +kernel, by decide +kernel⟩
    obtain ⟨s, hrun, hsent, hids⟩ := hsent
    refine ⟨s, _, hrun, hsent, rfl, ?_⟩
    rintro loaded ⟨b₁, b₂, s₁, hbefore, hb₁, -, hloaded⟩
    rw [hbefore] at hrun
    obtain ⟨s₁', hb₁', hb₂⟩ := System.run_append_eq_some.mp hrun
    cases hb₁.symm.trans hb₁'
    -- the row would still be there, with its id
    obtain ⟨cost, hrow⟩ := (persists_of_run hb₂).rows loaded.row (mem_of_getOwned hloaded).1
    have hid := hids _ hrow
    rw [hasked] at hloaded
    exact absurd (hid.symm.trans (id_of_getOwned hloaded)) (by decide)

end ParcelDelivery
