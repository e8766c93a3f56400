import ParcelDelivery.FixedWindow
import ParcelDelivery.System

/-!
# The rate limiter

`app/core/rate_limit.py`: the decorator in front of a route handler. What the framework
resolves before it calls the decorated function, the dependencies and the validation of the
payload, comes before the limiter: a request that is refused there is not counted. Over a run,
the requests that reach a handler are those that a window of their own route and client lets
pass (`handled_eq_passed_of_run`), whatever other requests do in between.
-/

namespace ParcelDelivery

open FixedWindow TransitionSystem

/-- A limit as `limits.parse` reads it, with its text. -/
structure RateLimitItem : Type where
  limit : Limit
  /-- `str` of the item -/
  text : String
  deriving DecidableEq, Repr

/-- What the limiter reads of a request. -/
structure RouteCall : Type where
  method : String
  /-- the path of the matched route, where the scope has one -/
  route : Option String
  urlPath : String
  /-- the host of the client, where the server knows it -/
  client : Option String
  deriving DecidableEq, Repr

/-- `_route_identifier`. -/
def routeIdentifier (call : RouteCall) : String :=
  call.method ++ ":" ++ call.route.getD call.urlPath

/-- `_remote_address`. -/
def remoteAddress (call : RouteCall) : String := call.client.getD "unknown"

/-- What is counted together: the hits of a limit by route and client. -/
abbrev RateKey : Type := Limit × String × String

/-- An application behind the limiter: what its requests `Req` answer, and what else happens to
its state. -/
structure LimitedApp (Req ρ μ α : Type) : Type where
  call : Req → RouteCall
  /-- the item of the decorator -/
  item : Req → RateLimitItem
  /-- the response of a dependency or of the validation that refuses the request -/
  refuse : Req → ℕ → α → Option ρ
  /-- the decorated function -/
  handler : Req → ℕ → α → ρ × α
  /-- `rate_limit_exceeded_handler`, for the detail of the exception -/
  exceeded : String → ρ
  /-- a change of the state that is no request -/
  other : μ → ℕ → α → Option α

/-- The counters, the state of the application and the clock. -/
structure LimitedState (σ α : Type) : Type where
  counters : σ
  app : α
  now : ℕ

/-- What happens next. -/
inductive LimitedMove (Req μ : Type) : Type where
  | request (r : Req)
  | other (m : μ)
  /-- seconds go by -/
  | pass (seconds : ℕ)

/-- The wrapper of `Limiter.limit`: a hit, and then the function or `RateLimitExceeded`. -/
def Limiter.limit {σ ρ α : Type} (strategy : Strategy σ (String × String)) (item : RateLimitItem)
    (call : RouteCall) (func : ℕ → α → ρ × α) (s : LimitedState σ α) :
    Except String ρ × LimitedState σ α :=
  match strategy.hit s.counters s.now item.limit (routeIdentifier call, remoteAddress call) with
  | (true, counters) =>
    (.ok (func s.now s.app).1, { s with counters, app := (func s.now s.app).2 })
  | (false, counters) => (.error item.text, { s with counters })

namespace LimitedApp

section Serving

variable {Req ρ μ α σ : Type} (app : LimitedApp Req ρ μ α) (strategy : Strategy σ (String × String))

/-- The counter of a request. -/
def key (r : Req) : RateKey :=
  ((app.item r).limit, routeIdentifier (app.call r), remoteAddress (app.call r))

/-- A request: the dependencies, the limiter, the handler. -/
def serve (r : Req) (s : LimitedState σ α) : ρ × LimitedState σ α :=
  match app.refuse r s.now s.app with
  | some response => (response, s)
  | none =>
    match Limiter.limit strategy (app.item r) (app.call r) (app.handler r) s with
    | (.ok response, s') => (response, s')
    | (.error detail, s') => (app.exceeded detail, s')

/-- The application over time. -/
def system : System (LimitedState σ α) (LimitedMove Req μ) where
  step s
    | .request r => some (app.serve strategy r s).2
    | .other m => (app.other m s.now s.app).map fun a => { s with app := a }
    | .pass seconds => some { s with now := s.now + seconds }

/-- The request has a window that lets it pass. -/
def admits (r : Req) (s : LimitedState σ α) : Bool :=
  (Window.hit (app.item r).limit.duration s.now
    (strategy.window s.counters s.now (app.key r))).passes (app.item r).limit

/-- The counters after a hit. -/
def count (r : Req) (s : LimitedState σ α) : σ :=
  (strategy.hit s.counters s.now (app.item r).limit
    (routeIdentifier (app.call r), remoteAddress (app.call r))).2

/-- How a request ends, and the state it leaves. -/
inductive Served (r : Req) (s : LimitedState σ α) : ρ → LimitedState σ α → Prop where
  /-- a dependency or the validation refuses it -/
  | refused {response : ρ} (hrefuse : app.refuse r s.now s.app = some response) :
      Served r s response s
  /-- the limiter turns it away -/
  | exceeded (hrefuse : app.refuse r s.now s.app = none) (hfull : app.admits strategy r s = false) :
      Served r s (app.exceeded (app.item r).text) { s with counters := app.count strategy r s }
  /-- it reaches the handler -/
  | handled (hrefuse : app.refuse r s.now s.app = none) (hroom : app.admits strategy r s = true) :
      Served r s (app.handler r s.now s.app).1
        { s with counters := app.count strategy r s, app := (app.handler r s.now s.app).2 }

end Serving

section Steps

variable {Req ρ μ α σ : Type} {app : LimitedApp Req ρ μ α} {strategy : Strategy σ (String × String)}
  {r : Req} {response : ρ} {s s' : LimitedState σ α} {key : RateKey}

/-- **Inversion of a request.** -/
theorem served_of_serve (app : LimitedApp Req ρ μ α) (strategy : Strategy σ (String × String))
    (r : Req) (s : LimitedState σ α) :
    app.Served strategy r s (app.serve strategy r s).1 (app.serve strategy r s).2 := by
  rw [serve]
  cases hrefuse : app.refuse r s.now s.app with
  | some response => exact .refused hrefuse
  | none =>
    have hpasses : _ = app.admits strategy r s :=
      strategy.hit_passes s.counters s.now (app.item r).limit
        (routeIdentifier (app.call r), remoteAddress (app.call r))
    have hcount : (strategy.hit s.counters s.now (app.item r).limit
        (routeIdentifier (app.call r), remoteAddress (app.call r))).2 =
          app.count strategy r s := rfl
    rw [Limiter.limit]
    rcases hhit : strategy.hit s.counters s.now (app.item r).limit
      (routeIdentifier (app.call r), remoteAddress (app.call r)) with ⟨_ | _, counters⟩
    · rw [hhit] at hpasses hcount
      rw [show counters = app.count strategy r s from hcount]
      exact .exceeded hrefuse hpasses.symm
    · rw [hhit] at hpasses hcount
      rw [show counters = app.count strategy r s from hcount]
      exact .handled hrefuse hpasses.symm

/-- The windows after a hit: the one of the request has counted it. -/
theorem window_count : strategy.window (app.count strategy r s) s.now key =
    if key = app.key r then
      some (Window.hit (app.item r).limit.duration s.now
        (strategy.window s.counters s.now (app.key r)))
    else strategy.window s.counters s.now key :=
  strategy.window_hit s.counters s.now (app.item r).limit _ key

theorem now_of_served (h : app.Served strategy r s response s') : s'.now = s.now := by
  cases h with
  | refused _ | exceeded _ _ | handled _ _ => rfl

theorem now_le_of_step {l : LimitedMove Req μ} (h : (app.system strategy).step s l = some s') :
    s.now ≤ s'.now := by
  cases l with
  | request r =>
    obtain rfl := Option.some.inj h
    exact Nat.le_of_eq (now_of_served (served_of_serve app strategy r s)).symm
  | other m =>
    obtain ⟨a, -, rfl⟩ := Option.map_eq_some_iff.mp h
    exact le_rfl
  | pass seconds =>
    obtain rfl := Option.some.inj h
    exact Nat.le_add_right _ _

end Steps

/-! ## Runs -/

section Runs

variable {Req ρ μ α σ : Type} (app : LimitedApp Req ρ μ α) (strategy : Strategy σ (String × String))

/-- The instants at which requests of a key get as far as the limiter. -/
def hitsOf (key : RateKey) (s : LimitedState σ α) :
    LimitedMove Req μ → LimitedState σ α → List ℕ
  | .request r, _ =>
    if (app.refuse r s.now s.app).isNone ∧ app.key r = key then [s.now] else []
  | _, _ => []

/-- The instants at which requests of a key reach their handler. -/
def handledOf (key : RateKey) (s : LimitedState σ α) :
    LimitedMove Req μ → LimitedState σ α → List ℕ
  | .request r, _ =>
    if ((app.refuse r s.now s.app).isNone ∧ app.key r = key) ∧ app.admits strategy r s = true then
      [s.now]
    else []
  | _, _ => []

/-- The instants at which requests of a key come to the limiter, along a schedule. -/
def hits (key : RateKey) (s : LimitedState σ α) (moves : List (LimitedMove Req μ)) : List ℕ :=
  (app.system strategy).collect (app.hitsOf key) s moves

/-- The instants at which requests of a key reach their handler, along a schedule. -/
def handled (key : RateKey) (s : LimitedState σ α) (moves : List (LimitedMove Req μ)) : List ℕ :=
  (app.system strategy).collect (app.handledOf strategy key) s moves

/-- The request reaches its handler. -/
def reaches (r : Req) (s : LimitedState σ α) : Bool :=
  (app.refuse r s.now s.app).isNone && app.admits strategy r s

/-- What a part of the application is told of the handlers, the other changes and the clock. -/
structure View (Req μ α L' : Type) : Type where
  handler : Req → ℕ → α → List L'
  other : μ → ℕ → α → List L'
  pass : ℕ → List L'

/-- What a step records for a part: nothing of a request that does not reach its handler. -/
def View.record {L' : Type} (v : View Req μ α L') (app : LimitedApp Req ρ μ α)
    (strategy : Strategy σ (String × String)) (s : LimitedState σ α) :
    LimitedMove Req μ → LimitedState σ α → List L'
  | .request r, _ => if app.reaches strategy r s then v.handler r s.now s.app else []
  | .other m, _ => v.other m s.now s.app
  | .pass seconds, _ => v.pass seconds

variable {app strategy} {key : RateKey} {response : ρ} {s s' : LimitedState σ α}
  {moves : List (LimitedMove Req μ)}

theorem eq_now_of_mem_hitsOf {l : LimitedMove Req μ} {t : ℕ} (h : t ∈ app.hitsOf key s l s') :
    t = s.now := by
  cases l with
  | request r =>
    rw [hitsOf] at h
    split at h
    · exact List.mem_singleton.mp h
    · exact absurd h List.not_mem_nil
  | other _ | pass _ => exact absurd h List.not_mem_nil

/-- No hit comes before the run. -/
theorem now_le_of_mem_hits : ∀ t ∈ app.hits strategy key s moves, s.now ≤ t := by
  refine System.mem_collect (I := fun s' => s.now ≤ s'.now) ?_ le_rfl
  intro s₁ l s₂ hle hstep
  refine ⟨fun t ht => ?_, Nat.le_trans hle (now_le_of_step hstep)⟩
  rw [eq_now_of_mem_hitsOf ht]
  exact hle

/-- The hits of a run come in the order of time. -/
theorem hits_sorted : (app.hits strategy key s moves).Pairwise (· ≤ ·) := by
  induction moves generalizing s with
  | nil => exact List.Pairwise.nil
  | cons l moves ih =>
    rw [hits]
    rcases hstep : (app.system strategy).step s l with _ | s'
    · rw [System.collect_cons_of_none hstep]
      exact List.Pairwise.nil
    · rw [System.collect_cons_of_step hstep, List.pairwise_append]
      refine ⟨?_, ih, ?_⟩
      · cases l with
        | request r =>
          rw [hitsOf]
          split
          · exact List.pairwise_singleton _ _
          · exact List.Pairwise.nil
        | other _ | pass _ => exact List.Pairwise.nil
      · intro t ht t' ht'
        rw [eq_now_of_mem_hitsOf ht]
        exact Nat.le_trans (now_le_of_step hstep) (now_le_of_mem_hits t' ht')

/-- **One request**: what it adds to the hits of a key and to what is handled of them. -/
theorem handled_of_serve {r : Req} (hserved : app.Served strategy r s response s') (ts : List ℕ) :
    app.handledOf strategy key s (.request r) s' ++
        passed key.1 (strategy.window s'.counters s.now key) ts =
      passed key.1 (strategy.window s.counters s.now key)
        (app.hitsOf key s (.request r) s' ++ ts) := by
  cases hserved with
  | refused hrefuse => simp [handledOf, hitsOf, hrefuse]
  | exceeded hrefuse hfull =>
    rw [window_count]
    by_cases hkey : app.key r = key
    · subst hkey
      simp only [handledOf, hitsOf, hrefuse, hfull, Option.isNone_none, and_self, and_false,
        Bool.false_eq_true, if_true, if_false, List.nil_append, List.singleton_append]
      exact (if_neg (ne_true_of_eq_false hfull)).symm
    · simp [handledOf, hitsOf, hkey, Ne.symm hkey]
  | handled hrefuse hroom =>
    rw [window_count]
    by_cases hkey : app.key r = key
    · subst hkey
      simp only [handledOf, hitsOf, hrefuse, hroom, Option.isNone_none, and_self, if_true,
        List.singleton_append]
      exact (if_pos hroom).symm
    · simp [handledOf, hitsOf, hkey, Ne.symm hkey]

/-- **The limiter decides by its own window**: the requests of a route and a client that reach
the handler are those that their window lets pass, and their instants alone tell which. -/
theorem handled_eq_passed_of_run : app.handled strategy key s moves =
    passed key.1 (strategy.window s.counters s.now key) (app.hits strategy key s moves) := by
  induction moves generalizing s with
  | nil => rfl
  | cons l moves ih =>
    rcases hstep : (app.system strategy).step s l with _ | s'
    · rw [handled, hits, System.collect_cons_of_none hstep, System.collect_cons_of_none hstep]
      rfl
    · have hhandled : app.handled strategy key s (l :: moves) =
          app.handledOf strategy key s l s' ++ app.handled strategy key s' moves :=
        System.collect_cons_of_step hstep
      have hhits : app.hits strategy key s (l :: moves) =
          app.hitsOf key s l s' ++ app.hits strategy key s' moves :=
        System.collect_cons_of_step hstep
      rw [hhandled, hhits, ih]
      cases l with
      | request r =>
        obtain rfl := Option.some.inj hstep
        have hserved := served_of_serve app strategy r s
        rw [← handled_of_serve hserved, now_of_served hserved]
      | other m =>
        obtain ⟨a, -, rfl⟩ := Option.map_eq_some_iff.mp hstep
        rfl
      | pass seconds =>
        obtain rfl := Option.some.inj hstep
        rw [strategy.window_later s.counters s.now _ key (Nat.le_add_right _ _)]
        exact passed_openAt now_le_of_mem_hits

/-- **What a step does to the application**: nothing, or what a handler or another change does,
at the instant of the step, or time goes by. -/
theorem step_cases {l : LimitedMove Req μ} (h : (app.system strategy).step s l = some s') :
    (∃ r, l = .request r ∧ app.reaches strategy r s = false ∧ s'.app = s.app ∧ s'.now = s.now) ∨
      (∃ r, l = .request r ∧ app.reaches strategy r s = true ∧ app.refuse r s.now s.app = none ∧
        s'.app = (app.handler r s.now s.app).2 ∧ s'.now = s.now) ∨
      (∃ m, l = .other m ∧ app.other m s.now s.app = some s'.app ∧ s'.now = s.now) ∨
      ∃ seconds, l = .pass seconds ∧ s'.app = s.app ∧ s'.now = s.now + seconds := by
  cases l with
  | request r =>
    obtain rfl := Option.some.inj h
    have hserved := served_of_serve app strategy r s
    generalize (app.serve strategy r s).1 = response, (app.serve strategy r s).2 = s' at hserved
    cases hserved with
    | refused hrefuse => exact Or.inl ⟨r, rfl, by simp [reaches, hrefuse], rfl, rfl⟩
    | exceeded hrefuse hfull => exact Or.inl ⟨r, rfl, by simp [reaches, hfull], rfl, rfl⟩
    | handled hrefuse hroom =>
      exact Or.inr (Or.inl ⟨r, rfl, by simp [reaches, hrefuse, hroom], hrefuse, rfl, rfl⟩)
  | other m =>
    obtain ⟨a, hother, rfl⟩ := Option.map_eq_some_iff.mp h
    exact Or.inr (Or.inr (Or.inl ⟨m, rfl, hother, rfl⟩))
  | pass seconds =>
    obtain rfl := Option.some.inj h
    exact Or.inr (Or.inr (Or.inr ⟨seconds, rfl, rfl, rfl⟩))

/-- **Invariants** of the application, told for its handlers and its other changes. -/
theorem run_preserves {I : ℕ → α → Prop}
    (hhandler : ∀ r now a, I now a → app.refuse r now a = none → I now (app.handler r now a).2)
    (hother : ∀ m now a a', I now a → app.other m now a = some a' → I now a')
    (hpass : ∀ seconds now a, I now a → I (now + seconds) a) (hI : I s.now s.app)
    (hrun : (app.system strategy).run s moves = some s') : I s'.now s'.app := by
  refine System.run_preserves (I := fun s => I s.now s.app) ?_ hI hrun
  intro s l s' hI hstep
  rcases step_cases hstep with ⟨r, -, -, happ, hnow⟩ | ⟨r, -, -, hrefuse, happ, hnow⟩ |
    ⟨m, -, happ, hnow⟩ | ⟨seconds, -, happ, hnow⟩
  · rw [happ, hnow]
    exact hI
  · rw [happ, hnow]
    exact hhandler r s.now s.app hI hrefuse
  · rw [hnow]
    exact hother m s.now s.app s'.app hI happ
  · rw [happ, hnow]
    exact hpass seconds s.now s.app hI

/-- **Projections** of the application: where a handler, another change and the passing of time
are runs of a system, along labels that they record, every run is one. -/
theorem run_projects {S' L' : Type} {T : System S' L'} {q : ℕ → α → S' → Prop}
    (v : View Req μ α L')
    (hhandler : ∀ r now a t, q now a t → app.refuse r now a = none →
      ∃ t', T.run t (v.handler r now a) = some t' ∧ q now (app.handler r now a).2 t')
    (hother : ∀ m now a a' t, q now a t → app.other m now a = some a' →
      ∃ t', T.run t (v.other m now a) = some t' ∧ q now a' t')
    (hpass : ∀ seconds now a t, q now a t →
      ∃ t', T.run t (v.pass seconds) = some t' ∧ q (now + seconds) a t')
    {t : S'} (hq : q s.now s.app t) (hrun : (app.system strategy).run s moves = some s') :
    ∃ t', T.run t ((app.system strategy).collect (v.record app strategy) s moves) = some t' ∧
      q s'.now s'.app t' := by
  refine System.run_translate (r := fun s t => q s.now s.app t) ?_ hq hrun
  intro s t l s' hq hstep
  rcases step_cases hstep with ⟨r, rfl, hreaches, happ, hnow⟩ |
    ⟨r, rfl, hreaches, hrefuse, happ, hnow⟩ | ⟨m, rfl, happ, hnow⟩ | ⟨seconds, rfl, happ, hnow⟩
  · refine ⟨t, ?_, ?_⟩
    · simp only [View.record, hreaches, Bool.false_eq_true, if_false]
      rfl
    · rw [happ, hnow]
      exact hq
  · simp only [View.record, hreaches, if_true]
    rw [happ, hnow]
    exact hhandler r s.now s.app t hq hrefuse
  · rw [hnow]
    exact hother m s.now s.app s'.app t hq happ
  · rw [happ, hnow]
    exact hpass seconds s.now s.app t hq

/-- What reaches the handlers in any stretch of time of the length of a window is within twice
the amount. -/
theorem countIn_handled_le (a : ℕ) :
    countIn a (a + key.1.duration) (app.handled strategy key s moves) ≤ 2 * key.1.amount := by
  rw [handled_eq_passed_of_run]
  exact countIn_passed_le hits_sorted a

/-- A client that never sends more than the amount at once is never turned away. -/
theorem handled_of_sparse (hnew : strategy.window s.counters s.now key = none)
    (hsparse : Sparse key.1 [] (app.hits strategy key s moves)) :
    app.handled strategy key s moves = app.hits strategy key s moves := by
  rw [handled_eq_passed_of_run, hnew]
  exact passed_of_sparse hits_sorted trivial hsparse

end Runs

end LimitedApp

end ParcelDelivery
