import ParcelDelivery.DecimalText
import ParcelDelivery.ExpiringStore
import ParcelDelivery.JobTimers

/-!
# The cached rate

`get_usd_rub_rate` as it is: Redis keeps the text of the rate under the UTC date, for
`CACHE_TTL_RATE` seconds. The job with these texts and a clock is the job with a table of rates
from which keys go (`cached_job_refines`). Of the rate of a run it is known where it comes from: a
fetch on the same date, at most the TTL ago, and until then nothing else is answered
(`rate_of_read`).
-/

namespace ParcelDelivery

open Relational DecimalArith TransitionSystem DecimalText

/-- The setting of the cache, and the calendar. -/
structure RateEnv : Type where
  /-- `CACHE_TTL_RATE` -/
  ttl : ℕ
  /-- `datetime.now(UTC).date().isoformat()` at an instant of the clock -/
  today : ℕ → String

/-- What `get_usd_rub_rate` can raise. -/
inductive RateExn : Type where
  /-- of the last attempt -/
  | httpError
  /-- `decimal.InvalidOperation` of `Decimal(raw)` -/
  | invalidOperation
  deriving DecidableEq, Repr

/-- The texts of the rates in Redis. -/
abbrev RateTexts : Type := ExpiringStore.Store String String

/-- `get_usd_rub_rate`, with the answers that the service would give to its attempts. -/
def RateEnv.getUsdRubRate (env : RateEnv) (attempts : List (Option Decimal)) (redis : RateTexts)
    (now : ℕ) : Except RateExn Decimal × RateTexts :=
  match ExpiringStore.get redis now (rateKey (env.today now)) with
  | some raw =>
    match ofText raw with
    | some rate => (.ok rate, redis)
    | none => (.error .invalidOperation, redis)
  | none =>
    match fetchRateFromCbr attempts with
    | none => (.error .httpError, redis)
    | some rate =>
      (.ok rate, ExpiringStore.set redis now env.ttl (rateKey (env.today now)) (toText rate))

/-- The job, the texts and the clock; the table of rates of the job is not used. -/
structure CachedJob : Type where
  job : JobState
  redis : RateTexts
  now : ℕ

/-- The job that reads its rate from Redis. -/
def cachedSystem (cfg : DeliverySettings) (env : RateEnv) : System CachedJob TimedMove where
  step s
    | .wait seconds => some { s with now := s.now + seconds }
    | .move (.expireRate _) => none
    | .move (.readRate i today attempts) =>
      if today = env.today s.now ∧ s.job.runs[i]? = some .getRate then
        match env.getUsdRubRate attempts s.redis s.now with
        | (.ok rate, redis) =>
          some { s with job := s.job.goto i (.fetchUnpriced rate 0), redis := redis }
        | (.error .httpError, redis) =>
          some { s with job := s.job.goto i (.raised .httpError), redis := redis }
        -- no text in Redis is refused, see `getUsdRubRate_spec`
        | (.error .invalidOperation, _) => none
      else none
    | .move l => ((jobSystem cfg).step s.job l).map fun job => { s with job }

/-- Every text is the text of a rate, under a key of its own. -/
structure RateTexts.Valid (redis : RateTexts) : Prop where
  texts : ∀ e ∈ redis, ∃ rate, e.value = toText rate
  keyed : ExpiringStore.Keyed redis

/-! ## One call -/

section Call

variable {redis : RateTexts} {now : ℕ}

theorem RateTexts.Valid.set (h : redis.Valid) (ttl : ℕ) (key : String) (rate : Decimal) :
    RateTexts.Valid (ExpiringStore.set redis now ttl key (toText rate)) := by
  refine ⟨fun e he => ?_, h.keyed.set⟩
  rcases ExpiringStore.mem_set he with rfl | he
  · exact ⟨rate, rfl⟩
  · exact h.texts e he

/-- **What a call does**: it reads a rate that has been written, or it fetches one and writes it, or
all of its attempts fail. -/
theorem getUsdRubRate_spec (env : RateEnv) (attempts : List (Option Decimal)) (h : redis.Valid) :
    (∃ rate, ExpiringStore.get redis now (rateKey (env.today now)) = some (toText rate) ∧
        env.getUsdRubRate attempts redis now = (.ok rate, redis)) ∨
      ExpiringStore.get redis now (rateKey (env.today now)) = none ∧
        ((∃ rate, fetchRateFromCbr attempts = some rate ∧ env.getUsdRubRate attempts redis now =
            (.ok rate, ExpiringStore.set redis now env.ttl (rateKey (env.today now))
              (toText rate))) ∨
          fetchRateFromCbr attempts = none ∧
            env.getUsdRubRate attempts redis now = (.error .httpError, redis)) := by
  rw [RateEnv.getUsdRubRate]
  cases hget : ExpiringStore.get redis now (rateKey (env.today now)) with
  | some raw =>
    obtain ⟨e, he, -, rfl, -⟩ := ExpiringStore.get_eq_some hget
    obtain ⟨rate, hrate⟩ := h.texts e he
    refine Or.inl ⟨rate, congrArg some hrate, ?_⟩
    simp only [hrate, ofText_toText]
  | none =>
    refine Or.inr ⟨rfl, ?_⟩
    cases fetchRateFromCbr attempts with
    | some rate => exact Or.inl ⟨rate, rfl, rfl⟩
    | none => exact Or.inr ⟨rfl, rfl⟩

end Call

/-! ## Steps -/

/-- The moves that the table of rates has a part in. -/
def JobMove.usesRates : JobMove → Bool
  | readRate _ _ _ => true
  | expireRate _ => true
  | _ => false

/-- The steps of the job that reads its rate from Redis. -/
inductive CachedStep (cfg : DeliverySettings) (env : RateEnv) (s : CachedJob) :
    TimedMove → CachedJob → Prop where
  | waited {seconds : ℕ} : CachedStep cfg env s (.wait seconds) { s with now := s.now + seconds }
  | hit {i : ℕ} {attempts : List (Option Decimal)} {rate : Decimal}
      (hpt : s.job.runs[i]? = some .getRate)
      (hget : ExpiringStore.get s.redis s.now (rateKey (env.today s.now)) = some (toText rate)) :
      CachedStep cfg env s (.move (.readRate i (env.today s.now) attempts))
        { s with job := s.job.goto i (.fetchUnpriced rate 0) }
  | fetched {i : ℕ} {attempts : List (Option Decimal)} {rate : Decimal}
      (hpt : s.job.runs[i]? = some .getRate)
      (hget : ExpiringStore.get s.redis s.now (rateKey (env.today s.now)) = none)
      (hfetch : fetchRateFromCbr attempts = some rate) :
      CachedStep cfg env s (.move (.readRate i (env.today s.now) attempts)) { s with
        job := s.job.goto i (.fetchUnpriced rate 0)
        redis := ExpiringStore.set s.redis s.now env.ttl (rateKey (env.today s.now)) (toText rate) }
  | failed {i : ℕ} {attempts : List (Option Decimal)} (hpt : s.job.runs[i]? = some .getRate)
      (hget : ExpiringStore.get s.redis s.now (rateKey (env.today s.now)) = none)
      (hfetch : fetchRateFromCbr attempts = none) :
      CachedStep cfg env s (.move (.readRate i (env.today s.now) attempts))
        { s with job := s.job.goto i (.raised .httpError) }
  | moved {l : JobMove} {job : JobState} (hl : l.usesRates = false)
      (hstep : (jobSystem cfg).step s.job l = some job) :
      CachedStep cfg env s (.move l) { s with job }

section Steps

variable {cfg : DeliverySettings} {env : RateEnv} {s s' : CachedJob} {l : TimedMove}

/-- A move that has nothing to do with the rate. -/
theorem cachedSystem_move {l : JobMove} (hl : l.usesRates = false) :
    (cachedSystem cfg env).step s (.move l) =
      ((jobSystem cfg).step s.job l).map fun job => { s with job } := by
  cases l with
  | readRate _ _ _ | expireRate _ => cases hl
  | _ => rfl

/-- **Inversion of a step.** -/
theorem cachedStep_of_step (hvalid : s.redis.Valid) (h : (cachedSystem cfg env).step s l = some s') :
    CachedStep cfg env s l s' := by
  cases l with
  | wait seconds =>
    obtain rfl := Option.some.inj h
    exact .waited
  | move l =>
    by_cases hl : l.usesRates = false
    · rw [cachedSystem_move hl] at h
      obtain ⟨job, hstep, rfl⟩ := Option.map_eq_some_iff.mp h
      exact .moved hl hstep
    · cases l <;> try exact absurd rfl hl
      · rename_i i today attempts
        simp only [cachedSystem] at h
        split at h
        · next hready =>
          obtain ⟨rfl, hpt⟩ := hready
          rcases getUsdRubRate_spec env attempts hvalid with
            ⟨rate, hget, heq⟩ | ⟨hget, ⟨rate, hfetch, heq⟩ | ⟨hfetch, heq⟩⟩
          · rw [heq] at h
            obtain rfl := Option.some.inj h
            exact .hit hpt hget
          · rw [heq] at h
            obtain rfl := Option.some.inj h
            exact .fetched hpt hget hfetch
          · rw [heq] at h
            obtain rfl := Option.some.inj h
            exact .failed hpt hget hfetch
        · cases h
      · cases h

/-- The texts stay valid. -/
theorem valid_of_step (hvalid : s.redis.Valid) (h : (cachedSystem cfg env).step s l = some s') :
    s'.redis.Valid := by
  cases cachedStep_of_step hvalid h with
  | waited | hit _ _ | failed _ _ _ | moved _ _ => exact hvalid
  | fetched _ _ _ => exact hvalid.set _ _ _

/-- The texts stay valid along a run. -/
theorem valid_of_run {moves : List TimedMove} (hvalid : s.redis.Valid)
    (h : (cachedSystem cfg env).run s moves = some s') : s'.redis.Valid :=
  System.run_preserves (I := fun s : CachedJob => s.redis.Valid)
    (fun _ _ _ hvalid hstep => valid_of_step hvalid hstep) hvalid h

end Steps

/-! ## The job on its table of rates -/

/-- The rates that can be read, in the order in which they were written. -/
def RateTexts.rates (redis : RateTexts) (now : ℕ) : List (String × Decimal) :=
  redis.filterMap fun e =>
    if now ≤ e.expiresAt then (ofText e.value).map fun rate => (e.key, rate) else none

/-- The job with its table of rates. -/
def CachedJob.view (s : CachedJob) : JobState := { s.job with rates := s.redis.rates s.now }

/-- The moves of the job with a table: time takes away the keys that expire. -/
def CachedJob.jobMoves (s : CachedJob) (l : TimedMove) (s' : CachedJob) : List JobMove :=
  match l with
  | .wait _ => (s.redis.filter fun e => decide (e.expiresAt < s'.now)).map fun e => .expireRate e.key
  | .move l => [l]

section View

variable {cfg : DeliverySettings} {env : RateEnv} {s s' : CachedJob} {l : TimedMove}
  {redis : RateTexts} {now : ℕ} {key : String}

theorem RateTexts.rates_cons {e : ExpiringStore.Entry String String} :
    RateTexts.rates (e :: redis) now =
      (if now ≤ e.expiresAt then (ofText e.value).map fun rate => (e.key, rate) else none).toList ++
        redis.rates now := by
  rw [RateTexts.rates, List.filterMap_cons, RateTexts.rates]
  split
  · next h => simp [h]
  · next h => simp [h]

/-- A rate is in the table exactly when its text is read. -/
theorem RateTexts.Valid.lookup_rates (h : redis.Valid) :
    (redis.rates now).lookup key = (ExpiringStore.get redis now key).bind ofText := by
  obtain ⟨htexts, -⟩ := h
  induction redis with
  | nil => rfl
  | cons e redis ih =>
    obtain ⟨rate, hrate⟩ := htexts e List.mem_cons_self
    have hrest := ih fun e' he' => htexts e' (List.mem_cons_of_mem e he')
    rw [RateTexts.rates_cons, hrate, ofText_toText]
    by_cases hlive : now ≤ e.expiresAt
    · by_cases hkey : e.key = key
      · simp [hlive, hkey, ExpiringStore.get, hrate, ofText_toText]
      · have hne : (key == e.key) = false := beq_eq_false_iff_ne.mpr (Ne.symm hkey)
        rw [ExpiringStore.get] at hrest ⊢
        simpa [hlive, hkey, hne, List.lookup_cons] using hrest
    · rw [ExpiringStore.get] at hrest ⊢
      simpa [hlive] using hrest

/-- The keys that are gone at an instant. -/
def RateTexts.expired (redis : RateTexts) (now : ℕ) : List String :=
  (redis.filter fun e => decide (e.expiresAt < now)).map ExpiringStore.Entry.key

/-- The table after time has passed. -/
theorem RateTexts.Valid.rates_wait (h : redis.Valid) {now' : ℕ} (hle : now ≤ now') :
    redis.rates now' = (redis.rates now).filter fun r => decide (r.1 ∉ redis.expired now') := by
  rw [RateTexts.rates, RateTexts.rates, List.filter_filterMap]
  apply List.filterMap_congr
  intro e he
  obtain ⟨rate, hrate⟩ := h.texts e he
  rw [hrate, ofText_toText]
  by_cases hlive : now' ≤ e.expiresAt
  · have hkept : e.key ∉ redis.expired now' := by
      intro hmem
      obtain ⟨e', he', hkey⟩ := List.mem_map.mp hmem
      obtain ⟨he', hgone⟩ := List.mem_filter.mp he'
      rw [h.keyed.eq_of_mem he' he hkey] at hgone
      exact absurd (of_decide_eq_true hgone) (Nat.not_lt.mpr hlive)
    simp [hlive, Nat.le_trans hle hlive, hkept, Option.filter]
  · have hgone : e.key ∈ redis.expired now' :=
      List.mem_map.mpr ⟨e, List.mem_filter.mpr ⟨he, decide_eq_true (Nat.not_le.mp hlive)⟩, rfl⟩
    by_cases hbefore : now ≤ e.expiresAt
    · simp [hlive, hbefore, hgone, Option.filter]
    · simp [hlive, hbefore]

/-- The table after a write. -/
theorem RateTexts.rates_set {ttl : ℕ} {rate : Decimal}
    (hget : ExpiringStore.get redis now key = none) :
    RateTexts.rates (ExpiringStore.set redis now ttl key (toText rate)) now =
      (key, rate) :: redis.rates now := by
  rw [ExpiringStore.set, RateTexts.rates_cons, if_pos (Nat.le_add_right _ _), ofText_toText]
  refine congrArg (_ :: ·) ?_
  -- what is removed has expired
  rw [RateTexts.rates, ExpiringStore.remove, List.filterMap_filter, RateTexts.rates]
  apply List.filterMap_congr
  intro e he
  by_cases hkey : e.key = key
  · have hgone : ¬now ≤ e.expiresAt := by
      intro hlive
      rw [ExpiringStore.get, Option.map_eq_none_iff, List.find?_eq_none] at hget
      exact hget e he (by simp [hkey, hlive])
    simp [hkey, hgone]
  · simp [hkey]

/-- Keys expire one after another. -/
theorem run_expireRates (cfg : DeliverySettings) (t : JobState) (keys : List String) :
    (jobSystem cfg).run t (keys.map .expireRate) =
      some { t with rates := t.rates.filter fun r => decide (r.1 ∉ keys) } := by
  induction keys generalizing t with
  | nil => simp
  | cons key keys ih =>
    rw [List.map_cons]
    refine System.run_cons_eq_some.mpr ⟨_, rfl, ?_⟩
    rw [ih, List.filter_filter]
    refine congrArg (fun rates => some { t with rates := rates }) (List.filter_congr fun r _ => ?_)
    by_cases hkey : r.1 = key
    · simp [hkey]
    · simp [hkey]

/-- A move of a run that leaves the rates alone. -/
theorem moveRun_withRates {job : JobState} (rates : List (String × Decimal)) {i : ℕ}
    {f g : RunPoint → Option JobState}
    (h : ∀ pt, g pt = (f pt).map fun job => { job with rates }) :
    { job with rates }.moveRun i g = (job.moveRun i f).map fun job => { job with rates } := by
  change job.runs[i]?.bind g = (job.runs[i]?.bind f).map _
  cases job.runs[i]? with
  | none => rfl
  | some pt => exact h pt

/-- A move that has nothing to do with the rate, on another table of rates. -/
theorem step_withRates {job : JobState} {l : JobMove} (rates : List (String × Decimal))
    (hl : l.usesRates = false) : (jobSystem cfg).step { job with rates } l =
      ((jobSystem cfg).step job l).map fun job => { job with rates } := by
  cases l with
  | readRate _ _ _ | expireRate _ => cases hl
  | tick | manual | expireLock => rfl
  | delete i | finish i now =>
    apply moveRun_withRates
    intro pt
    cases pt <;> rfl
  | setNx i =>
    apply moveRun_withRates
    intro pt
    cases pt <;> try rfl
    dsimp only
    split
    · rfl
    · rfl
  | select i batch =>
    apply moveRun_withRates
    intro pt
    cases pt <;> try rfl
    change (if job.IsBatch cfg batch then _ else _) = _
    dsimp only
    split
    · split
      · rfl
      · rfl
    · rfl
  | commit i =>
    apply moveRun_withRates
    intro pt
    cases pt <;> try rfl
    dsimp only
    split
    · rfl
    · rfl
  | interrupt i =>
    apply moveRun_withRates
    intro pt
    split
    · rfl
    · rfl
  | create parcel =>
    change (if parcel.priced then none else _) = Option.map _ (if parcel.priced then none else _)
    split
    · rfl
    · cases job.parcels.insert parcel with
      | none => rfl
      | some parcels => rfl

/-- The job reads its rate from its table. -/
theorem step_readRate {i : ℕ} {today : String} {attempts : List (Option Decimal)}
    {rate : Option Decimal} {rates : List (String × Decimal)}
    (hpt : s.job.runs[i]? = some .getRate)
    (hrate : getUsdRubRate (s.redis.rates s.now) today attempts = (rate, rates)) :
    (jobSystem cfg).step s.view (.readRate i today attempts) = some { s.job.goto i
      (match rate with
        | some rate => .fetchUnpriced rate 0
        | none => .raised .httpError) with rates } := by
  change Option.bind s.job.runs[i]? _ = _
  rw [hpt]
  cases rate with
  | some rate =>
    dsimp only [Option.bind_some, CachedJob.view]
    rw [hrate]
    rfl
  | none =>
    dsimp only [Option.bind_some, CachedJob.view]
    rw [hrate]
    rfl

/-- **Simulation**: a step of the job that reads its rate from Redis is a run of the job with its
table. -/
theorem view_of_step (hvalid : s.redis.Valid) (h : (cachedSystem cfg env).step s l = some s') :
    (jobSystem cfg).run s.view (s.jobMoves l s') = some s'.view := by
  cases cachedStep_of_step hvalid h with
  | waited =>
    rename_i seconds
    have hrates := hvalid.rates_wait (Nat.le_add_right s.now seconds)
    have hexpire := run_expireRates cfg s.view (s.redis.expired (s.now + seconds))
    rw [RateTexts.expired, List.map_map] at hexpire
    refine hexpire.trans ?_
    rw [CachedJob.view, CachedJob.view, hrates]
    rfl
  | hit hpt hget =>
    rename_i i attempts rate
    have hlookup := hvalid.lookup_rates.trans (congrArg (Option.bind · ofText) hget)
    rw [Option.bind_some, ofText_toText] at hlookup
    have hrate : getUsdRubRate (s.redis.rates s.now) (env.today s.now) attempts =
        (some rate, s.redis.rates s.now) := by
      rw [getUsdRubRate, hlookup]
    exact System.run_cons_eq_some.mpr ⟨_, step_readRate hpt hrate, rfl⟩
  | fetched hpt hget hfetch =>
    rename_i i attempts rate
    have hlookup := hvalid.lookup_rates.trans (congrArg (Option.bind · ofText) hget)
    have hrate : getUsdRubRate (s.redis.rates s.now) (env.today s.now) attempts =
        (some rate, (rateKey (env.today s.now), rate) :: s.redis.rates s.now) := by
      rw [getUsdRubRate, hlookup, Option.bind_none]
      dsimp only
      rw [hfetch]
    refine System.run_cons_eq_some.mpr ⟨_, step_readRate hpt hrate, ?_⟩
    rw [CachedJob.view, RateTexts.rates_set hget]
    rfl
  | failed hpt hget hfetch =>
    rename_i i attempts
    have hlookup := hvalid.lookup_rates.trans (congrArg (Option.bind · ofText) hget)
    have hrate : getUsdRubRate (s.redis.rates s.now) (env.today s.now) attempts =
        (none, s.redis.rates s.now) := by
      rw [getUsdRubRate, hlookup, Option.bind_none]
      dsimp only
      rw [hfetch]
    exact System.run_cons_eq_some.mpr ⟨_, step_readRate hpt hrate, rfl⟩
  | moved hl hstep =>
    refine System.run_cons_eq_some.mpr ⟨_, ?_, rfl⟩
    exact (step_withRates (s.redis.rates s.now) hl).trans (congrArg (Option.map _) hstep)

/-- **The job that reads its rate from Redis is a run of the job with a table of rates**, in which
keys go when their time has come. -/
theorem cached_job_refines {moves : List TimedMove} (hvalid : s.redis.Valid)
    (hrun : (cachedSystem cfg env).run s moves = some s') : (jobSystem cfg).run s.view
      ((cachedSystem cfg env).collect CachedJob.jobMoves s moves) = some s'.view := by
  have hstep : ∀ (s : CachedJob) (t : JobState) (l : TimedMove) (s' : CachedJob),
      s.redis.Valid ∧ t = s.view → (cachedSystem cfg env).step s l = some s' →
      ∃ t', (jobSystem cfg).run t (s.jobMoves l s') = some t' ∧
        s'.redis.Valid ∧ t' = s'.view := by
    rintro s _ l s' ⟨hvalid, rfl⟩ hstep
    exact ⟨s'.view, view_of_step hvalid hstep, valid_of_step hvalid hstep, rfl⟩
  obtain ⟨_, hjob, -, rfl⟩ := System.run_translate hstep ⟨hvalid, rfl⟩ hrun
  exact hjob

end View

/-- The default TTL; midnight after a day. -/
def sampleRateEnv : RateEnv where
  ttl := 600
  today now := if now < 24 * 60 * 60 then "2025-01-01" else "2025-01-02"

/-- Parcels without prices and an empty Redis, before midnight. -/
def sampleCachedJob : CachedJob where
  job := sampleParcels
  redis := []
  now := 86000

/-- A run fetches the rate and prices the parcels; five minutes later the next one starts. -/
def sampleCachedMoves : List TimedMove :=
  [.move .tick, .move (.setNx 0), .move (.readRate 0 "2025-01-01" [none, some ⟨905, -1⟩]),
    .move (.select 0 sampleParcels.unpriced), .move (.commit 0), .move (.select 0 []),
    .move (.finish 0 0), .wait 331, .move .expireLock, .move .tick, .move (.setNx 1)]

/-- Ten minutes after it was fetched, the rate goes. -/
theorem cached_job_refines_sample :
    ∃ s', (cachedSystem .default sampleRateEnv).run sampleCachedJob
        (sampleCachedMoves ++ [.wait 300]) = some s' ∧
      (cachedSystem .default sampleRateEnv).collect CachedJob.jobMoves sampleCachedJob
          (sampleCachedMoves ++ [.wait 300]) =
        [.tick, .setNx 0, .readRate 0 "2025-01-01" [none, some ⟨905, -1⟩],
          .select 0 sampleParcels.unpriced, .commit 0, .select 0 [], .finish 0 0, .expireLock,
          .tick, .setNx 1, .expireRate "usd_rub:2025-01-01"] ∧
      (jobSystem .default).run sampleCachedJob.view
        ((cachedSystem .default sampleRateEnv).collect CachedJob.jobMoves sampleCachedJob
          (sampleCachedMoves ++ [.wait 300])) = some s'.view :=
  ⟨_, rfl, rfl, cached_job_refines ⟨nofun, .nil⟩ rfl⟩

/-! ## Where a rate comes from -/

/-- In a run, a read has found nothing in Redis and has fetched a rate. -/
def Fetched (cfg : DeliverySettings) (env : RateEnv) (s₀ : CachedJob) (moves : List TimedMove)
    (s : CachedJob) (rate : Decimal) : Prop :=
  ∃ before i attempts after,
    moves = before ++ .move (.readRate i (env.today s.now) attempts) :: after ∧
      (cachedSystem cfg env).run s₀ before = some s ∧
      ExpiringStore.get s.redis s.now (rateKey (env.today s.now)) = none ∧
      fetchRateFromCbr attempts = some rate

/-- A rate that was fetched on this date and has not expired since. -/
def Fresh (cfg : DeliverySettings) (env : RateEnv) (s₀ : CachedJob) (moves : List TimedMove)
    (now : ℕ) (rate : Decimal) : Prop :=
  ∃ s, Fetched cfg env s₀ moves s rate ∧ env.today s.now = env.today now ∧ now ≤ s.now + env.ttl

section Provenance

variable {cfg : DeliverySettings} {env : RateEnv} {s₀ s s' : CachedJob} {moves : List TimedMove}
  {rate : Decimal} {now : ℕ}

theorem Fetched.append (h : Fetched cfg env s₀ moves s rate) (ls : List TimedMove) :
    Fetched cfg env s₀ (moves ++ ls) s rate := by
  obtain ⟨before, i, attempts, after, rfl, hfetched⟩ := h
  exact ⟨before, i, attempts, after ++ ls, by simp, hfetched⟩

/-- Every text in Redis has been written by a fetch. -/
theorem fetched_of_mem (hempty : s₀.redis = [])
    (hrun : (cachedSystem cfg env).run s₀ moves = some s) :
    ∀ e ∈ s.redis, ∃ s₁ rate, Fetched cfg env s₀ moves s₁ rate ∧
      e = ⟨rateKey (env.today s₁.now), toText rate, s₁.now + env.ttl⟩ := by
  have hvalid₀ : s₀.redis.Valid := by
    rw [hempty]
    exact ⟨nofun, .nil⟩
  refine System.run_history (P := fun before s => ∀ e ∈ s.redis, ∃ s₁ rate,
    Fetched cfg env s₀ before s₁ rate ∧
      e = ⟨rateKey (env.today s₁.now), toText rate, s₁.now + env.ttl⟩) ?_ ?_ hrun
  · rw [hempty]
    exact nofun
  · intro before s l s' hbefore ih hstep
    have hold : ∀ e ∈ s.redis, ∃ s₁ rate, Fetched cfg env s₀ (before ++ [l]) s₁ rate ∧
        e = ⟨rateKey (env.today s₁.now), toText rate, s₁.now + env.ttl⟩ := by
      intro e he
      obtain ⟨s₁, rate, hfetched, heq⟩ := ih e he
      exact ⟨s₁, rate, hfetched.append [l], heq⟩
    cases cachedStep_of_step (valid_of_run hvalid₀ hbefore) hstep with
    | waited | hit _ _ | failed _ _ _ | moved _ _ => exact hold
    | fetched hpt hget hfetch =>
      intro e he
      rcases ExpiringStore.mem_set he with rfl | he
      · exact ⟨s, _, ⟨before, _, _, [], rfl, hbefore, hget, hfetch⟩, rfl⟩
      · exact hold e he

/-- A text that is read until an instant is not written again before. -/
theorem get_of_run {key text : String} {deadline : ℕ} (hvalid : s.redis.Valid)
    (hget : ∀ t, s.now ≤ t → t ≤ deadline → ExpiringStore.get s.redis t key = some text)
    (hrun : (cachedSystem cfg env).run s moves = some s') (hlive : s'.now ≤ deadline) :
    ExpiringStore.get s'.redis s'.now key = some text := by
  have hinvariant : s'.redis.Valid ∧ ∀ t, s'.now ≤ t → t ≤ deadline →
      ExpiringStore.get s'.redis t key = some text := by
    refine System.run_preserves (I := fun s : CachedJob => s.redis.Valid ∧ ∀ t, s.now ≤ t →
      t ≤ deadline → ExpiringStore.get s.redis t key = some text) ?_ ⟨hvalid, hget⟩ hrun
    rintro s l s' ⟨hvalid, hget⟩ hstep
    refine ⟨valid_of_step hvalid hstep, fun t hle hdeadline => ?_⟩
    cases cachedStep_of_step hvalid hstep with
    | waited => exact hget t ((Nat.le_add_right _ _).trans hle) hdeadline
    | hit _ _ | failed _ _ _ | moved _ _ => exact hget t hle hdeadline
    | fetched hpt hnone hfetch =>
      have hread := hget s.now le_rfl (hle.trans hdeadline)
      have hne : key ≠ rateKey (env.today s.now) := by
        intro heq
        rw [← heq, hread] at hnone
        cases hnone
      exact (ExpiringStore.get_set_of_ne hne).trans (hget t hle hdeadline)
  exact hinvariant.2 s'.now le_rfl hlive

/-- A fetched rate is read until it expires. -/
theorem get_of_fetched (hvalid : s₀.redis.Valid)
    (hrun : (cachedSystem cfg env).run s₀ moves = some s) {s₁ : CachedJob}
    (hfetched : Fetched cfg env s₀ moves s₁ rate) (hlive : s.now ≤ s₁.now + env.ttl) :
    ExpiringStore.get s.redis s.now (rateKey (env.today s₁.now)) = some (toText rate) := by
  obtain ⟨before, i, attempts, after, rfl, hbefore, hnone, hfetch⟩ := hfetched
  obtain ⟨s₁', hs₁', hrest⟩ := System.run_append_eq_some.mp hrun
  cases hs₁'.symm.trans hbefore
  obtain ⟨s₂, hstep, hafter⟩ := System.run_cons_eq_some.mp hrest
  have hvalid₁ := valid_of_run hvalid hbefore
  have hvalid₂ := valid_of_step hvalid₁ hstep
  cases cachedStep_of_step hvalid₁ hstep with
  | hit _ hget => cases hnone.symm.trans hget
  | failed _ _ hfail => cases hfetch.symm.trans hfail
  | moved hl _ => cases hl
  | fetched _ _ hfetch' =>
    cases hfetch.symm.trans hfetch'
    exact get_of_run hvalid₂ (fun t _ hle => ExpiringStore.get_set_self hle) hafter hlive

/-- **What is in Redis for a date** is the rate that was fetched on it. -/
theorem get_iff_fresh (hempty : s₀.redis = [])
    (hrun : (cachedSystem cfg env).run s₀ moves = some s) :
    ExpiringStore.get s.redis s.now (rateKey (env.today s.now)) = some (toText rate) ↔
      Fresh cfg env s₀ moves s.now rate := by
  refine ⟨fun hget => ?_, ?_⟩
  · obtain ⟨e, he, hkey, htext, hlive⟩ := ExpiringStore.get_eq_some hget
    obtain ⟨s₁, rate', hfetched, rfl⟩ := fetched_of_mem hempty hrun e he
    have hrate : rate' = rate := by
      have htext : toText rate' = toText rate := htext
      have hdecimal := congrArg ofText htext
      rw [ofText_toText, ofText_toText] at hdecimal
      exact Option.some.inj hdecimal
    subst hrate
    exact ⟨s₁, hfetched, String.append_right_inj _ |>.mp hkey, hlive⟩
  · rintro ⟨s₁, hfetched, htoday, hlive⟩
    have hvalid₀ : s₀.redis.Valid := by
      rw [hempty]
      exact ⟨nofun, .nil⟩
    rw [← htoday]
    exact get_of_fetched hvalid₀ hrun hfetched hlive

/-- **Where a rate comes from.** A run that asks for the rate goes on with the rate that an earlier
run has fetched on this date, at most the TTL ago; if there is none, with the rate that it fetches
itself; and it fails exactly when there is none and all of its attempts fail. -/
theorem rate_of_read {i : ℕ} {today : String} {attempts : List (Option Decimal)}
    (hempty : s₀.redis = []) (hrun : (cachedSystem cfg env).run s₀ moves = some s)
    (hread : (cachedSystem cfg env).step s (.move (.readRate i today attempts)) = some s') :
    today = env.today s.now ∧
      (∀ rate, s'.job.runs[i]? = some (.fetchUnpriced rate 0) ↔
        Fresh cfg env s₀ moves s.now rate ∨
          (∀ rate, ¬Fresh cfg env s₀ moves s.now rate) ∧ fetchRateFromCbr attempts = some rate) ∧
      (s'.job.runs[i]? = some (.raised .httpError) ↔
        (∀ rate, ¬Fresh cfg env s₀ moves s.now rate) ∧ fetchRateFromCbr attempts = none) := by
  have hvalid₀ : s₀.redis.Valid := by
    rw [hempty]
    exact ⟨nofun, .nil⟩
  have hnone : ExpiringStore.get s.redis s.now (rateKey (env.today s.now)) = none →
      ∀ rate, ¬Fresh cfg env s₀ moves s.now rate := by
    intro hget rate hfresh
    cases hget.symm.trans ((get_iff_fresh hempty hrun).mpr hfresh)
  cases cachedStep_of_step (valid_of_run hvalid₀ hrun) hread with
  | hit hpt hget =>
    rename_i rate
    have hrun' : (s.job.goto i (.fetchUnpriced rate 0)).runs[i]? = some (.fetchUnpriced rate 0) :=
      JobState.goto_runs_self hpt
    have hfresh := (get_iff_fresh hempty hrun).mp hget
    refine ⟨rfl, fun rate' => ⟨fun hrate => ?_, ?_⟩, fun hraised => ?_, ?_⟩
    · cases hrun'.symm.trans hrate
      exact Or.inl hfresh
    · rintro (hfresh' | ⟨hstale, -⟩)
      · have hget' := (get_iff_fresh hempty hrun).mpr hfresh'
        have hdecimal := congrArg (Option.bind · ofText) (hget.symm.trans hget')
        simp only [Option.bind_some, ofText_toText] at hdecimal
        rw [← Option.some.inj hdecimal]
        exact hrun'
      · exact absurd hfresh (hstale rate)
    · cases hrun'.symm.trans hraised
    · rintro ⟨hstale, -⟩
      exact absurd hfresh (hstale rate)
  | fetched hpt hget hfetch =>
    rename_i rate
    have hrun' : (s.job.goto i (.fetchUnpriced rate 0)).runs[i]? = some (.fetchUnpriced rate 0) :=
      JobState.goto_runs_self hpt
    refine ⟨rfl, fun rate' => ⟨fun hrate => ?_, ?_⟩, fun hraised => ?_, ?_⟩
    · cases hrun'.symm.trans hrate
      exact Or.inr ⟨hnone hget, hfetch⟩
    · rintro (hfresh | ⟨-, hfetch'⟩)
      · exact absurd hfresh (hnone hget rate')
      · cases hfetch.symm.trans hfetch'
        exact hrun'
    · cases hrun'.symm.trans hraised
    · rintro ⟨-, hfail⟩
      cases hfetch.symm.trans hfail
  | failed hpt hget hfetch =>
    have hrun' : (s.job.goto i (.raised .httpError)).runs[i]? = some (.raised .httpError) :=
      JobState.goto_runs_self hpt
    refine ⟨rfl, fun rate => ⟨fun hrate => ?_, ?_⟩, fun _ => ⟨hnone hget, hfetch⟩, fun _ => hrun'⟩
    · cases hrun'.symm.trans hrate
    · rintro (hfresh | ⟨-, hfetch'⟩)
      · exact absurd hfresh (hnone hget rate)
      · cases hfetch.symm.trans hfetch'
  | moved hl _ => cases hl

end Provenance

/-- The second run gets the rate of the first one, though the service does not answer. -/
theorem rate_of_read_sample :
    ∃ s s', (cachedSystem .default sampleRateEnv).run sampleCachedJob sampleCachedMoves = some s ∧
      (cachedSystem .default sampleRateEnv).step s (.move (.readRate 1 "2025-01-01" [])) = some s' ∧
      Fresh .default sampleRateEnv sampleCachedJob sampleCachedMoves s.now ⟨905, -1⟩ := by
  obtain ⟨s, s', hrun, hread, hpt⟩ : ∃ s s',
      (cachedSystem .default sampleRateEnv).run sampleCachedJob sampleCachedMoves = some s ∧
        (cachedSystem .default sampleRateEnv).step s (.move (.readRate 1 "2025-01-01" [])) =
          some s' ∧ s'.job.runs[1]? = some (.fetchUnpriced ⟨905, -1⟩ 0) := ⟨_, _, rfl, rfl, rfl⟩
  refine ⟨s, s', hrun, hread, ?_⟩
  rcases ((rate_of_read rfl hrun hread).2.1 _).mp hpt with hfresh | ⟨-, hfetch⟩
  · exact hfresh
  · cases hfetch

/-! ## Where a price comes from -/

/-- Run `i` has read this rate: it was fetched on the date of the reading, at most the TTL before
it, or by the reading itself. -/
def RateOf (cfg : DeliverySettings) (env : RateEnv) (s₀ : CachedJob) (moves : List TimedMove) (i : ℕ)
    (rate : Decimal) : Prop :=
  ∃ before attempts after s,
    moves = before ++ .move (.readRate i (env.today s.now) attempts) :: after ∧
      (cachedSystem cfg env).run s₀ before = some s ∧
      Fresh cfg env s₀ (before ++ [.move (.readRate i (env.today s.now) attempts)]) s.now rate

/-- A run has committed this cost of a parcel, at the rate that it had read. -/
def Priced (cfg : DeliverySettings) (env : RateEnv) (s₀ : CachedJob) (moves : List TimedMove)
    (row : Parcel) (cost : Money) : Prop :=
  ∃ before i after s rate updated batch, moves = before ++ .move (.commit i) :: after ∧
    (cachedSystem cfg env).run s₀ before = some s ∧
    s.job.runs[i]? = some (.commitBatch rate updated batch) ∧ row.id ∈ batch.map Parcel.id ∧
    RateOf cfg env s₀ before i rate ∧ row.cost cfg rate = some cost

/-- What is known of a job: of the rates in its loops and of the prices in its table. -/
structure Accounted (cfg : DeliverySettings) (env : RateEnv) (s₀ : CachedJob)
    (moves : List TimedMove) (s : CachedJob) : Prop where
  known : BatchesKnown s.job
  rates : ∀ (i : ℕ) (pt : RunPoint) (rate : Decimal), s.job.runs[i]? = some pt →
    pt.loopRate = some rate → RateOf cfg env s₀ moves i rate
  prices : ∀ row ∈ s.job.parcels.rows, ∀ cost, row.deliveryCostRub = some cost →
    row ∈ s₀.job.parcels.rows ∨ Priced cfg env s₀ moves row cost

section Prices

variable {cfg : DeliverySettings} {env : RateEnv} {s₀ s s' : CachedJob} {moves : List TimedMove}
  {i : ℕ} {rate : Decimal} {row : Parcel} {cost : Money}

theorem Fresh.append {now : ℕ} (h : Fresh cfg env s₀ moves now rate) (ls : List TimedMove) :
    Fresh cfg env s₀ (moves ++ ls) now rate := by
  obtain ⟨s, hfetched, hrest⟩ := h
  exact ⟨s, hfetched.append ls, hrest⟩

theorem RateOf.append (h : RateOf cfg env s₀ moves i rate) (ls : List TimedMove) :
    RateOf cfg env s₀ (moves ++ ls) i rate := by
  obtain ⟨before, attempts, after, s, rfl, hrest⟩ := h
  exact ⟨before, attempts, after ++ ls, s, by simp, hrest⟩

theorem Priced.append (h : Priced cfg env s₀ moves row cost) (ls : List TimedMove) :
    Priced cfg env s₀ (moves ++ ls) row cost := by
  obtain ⟨before, i, after, s, rate, updated, batch, rfl, hrest⟩ := h
  exact ⟨before, i, after ++ ls, s, rate, updated, batch, by simp, hrest⟩

/-- A run in its loop has not ended. -/
theorem not_ended_of_loopRate {pt : RunPoint} (h : pt.loopRate = some rate) : pt.ended = false := by
  cases pt with
  | fetchUnpriced _ _ | commitBatch _ _ _ => rfl
  | _ => cases h

/-- The rate in the loop of a run does not change. -/
theorem loopRate_of_step {job job' : JobState} {l : JobMove} {pt' : RunPoint}
    (h : JobStep cfg job l job') (hl : l.usesRates = false) (hpt' : job'.runs[i]? = some pt')
    (hrate : pt'.loopRate = some rate) :
    ∃ pt, job.runs[i]? = some pt ∧ pt.loopRate = some rate := by
  rcases point_before_step h hpt' with ⟨pt, hpt, hstep⟩ | ⟨-, ⟨-, rfl⟩ | ⟨-, rfl⟩⟩
  · cases hstep with
    | stay _ | selected _ _ | committed _ => exact ⟨_, hpt, hrate⟩
    | rateRead => cases hl
    | deleted | acquired _ | skipped _ | rateFailed | drained _ | refused _ | finished
    | interrupted _ => cases hrate
  · cases hrate
  · cases hrate

/-- Where the point of one run alone has changed. -/
theorem Accounted.goto {pt : RunPoint} {l : TimedMove} (h : Accounted cfg env s₀ moves s)
    (hpt : s.job.runs[i]? ≠ none) (hjob : s'.job = s.job.goto i pt)
    (hbatch : ∀ rate updated batch, pt ≠ .commitBatch rate updated batch)
    (hrate : ∀ rate, pt.loopRate = some rate → RateOf cfg env s₀ (moves ++ [l]) i rate) :
    Accounted cfg env s₀ (moves ++ [l]) s' := by
  have hpoint : ∀ (j : ℕ) (pt' : RunPoint), s'.job.runs[j]? = some pt' →
      j = i ∧ pt' = pt ∨ s.job.runs[j]? = some pt' := by
    intro j pt' hpt'
    rw [hjob] at hpt'
    by_cases hj : j = i
    · obtain ⟨pt₀, hpt₀⟩ := Option.ne_none_iff_exists'.mp hpt
      rw [hj, JobState.goto_runs_self hpt₀] at hpt'
      exact Or.inl ⟨hj, (Option.some.inj hpt').symm⟩
    · exact Or.inr ((JobState.goto_runs_of_ne hj).symm.trans hpt')
  have hparcels : s'.job.parcels = s.job.parcels := by
    rw [hjob]
    rfl
  refine ⟨fun j rate updated batch hpt' => ?_, fun j pt' rate hpt' hloop => ?_, ?_⟩
  · rw [hparcels]
    rcases hpoint j _ hpt' with ⟨-, heq⟩ | hold
    · exact absurd heq.symm (hbatch rate updated batch)
    · exact h.known j rate updated batch hold
  · rcases hpoint j _ hpt' with ⟨rfl, rfl⟩ | hold
    · exact hrate rate hloop
    · exact (h.rates j pt' rate hold hloop).append [l]
  · rw [hparcels]
    intro row hrow cost hcost
    rcases h.prices row hrow cost hcost with hstart | hpriced
    · exact Or.inl hstart
    · exact Or.inr (hpriced.append [l])

/-- **A step keeps the account.** -/
theorem Accounted.step {l : TimedMove} (hempty : s₀.redis = []) (h : Accounted cfg env s₀ moves s)
    (hbefore : (cachedSystem cfg env).run s₀ moves = some s)
    (hstep : CachedStep cfg env s l s') : Accounted cfg env s₀ (moves ++ [l]) s' := by
  cases hstep with
  | waited =>
    exact ⟨h.known, fun i pt rate hpt hrate => (h.rates i pt rate hpt hrate).append _,
      fun row hrow cost hcost => (h.prices row hrow cost hcost).imp_right fun hp => hp.append _⟩
  | hit hpt hget =>
    refine h.goto (by rw [hpt]; nofun) rfl nofun ?_
    rintro rate ⟨⟩
    exact ⟨moves, _, [], s, rfl, hbefore, ((get_iff_fresh hempty hbefore).mp hget).append _⟩
  | fetched hpt hget hfetch =>
    refine h.goto (by rw [hpt]; nofun) rfl nofun ?_
    rintro rate ⟨⟩
    exact ⟨moves, _, [], s, rfl, hbefore, s, ⟨moves, _, _, [], rfl, hbefore, hget, hfetch⟩, rfl,
      Nat.le_add_right _ _⟩
  | failed hpt hget hfetch => exact h.goto (by rw [hpt]; nofun) rfl nofun nofun
  | moved hl hmove =>
    have hmove := jobStep_of_step hmove
    refine ⟨h.known.step hmove, fun i pt' rate hpt' hloop => ?_, fun row' hrow' cost hcost => ?_⟩
    · obtain ⟨pt, hpt, hrate⟩ := loopRate_of_step hmove hl hpt' hloop
      exact (h.rates i pt rate hpt hrate).append _
    · obtain ⟨f, hrows, hf, hcreated⟩ := rows_of_step h.known hmove
      rw [hrows] at hrow'
      rcases List.mem_append.mp hrow' with hrow' | hnew
      · obtain ⟨row, hrow, rfl⟩ := List.mem_map.mp hrow'
        have hrowStep := hf row hrow
        generalize f row = row' at hrowStep hcost
        cases hrowStep with
        | same => exact (h.prices row hrow cost hcost).imp_right fun hp => hp.append _
        | priced hl hpt hcosts hbatch hrowCost =>
          subst hl
          cases hcost
          refine Or.inr ⟨moves, _, [], s, _, _, _, rfl, hbefore, hpt, hbatch, ?_, hrowCost⟩
          exact h.rates _ _ _ hpt rfl
      · have hunpriced := hcreated row' hnew
        rw [Parcel.priced, hcost] at hunpriced
        cases hunpriced

/-- **Where a price comes from**: every price in the table was there at the start, or it is the cost
of the parcel at a rate that was fetched in the run, on the date on which the run that commits it
has read it and at most the TTL before. -/
theorem price_provenance (hempty : s₀.redis = []) (hidle : s₀.job.Idle)
    (hrun : (cachedSystem cfg env).run s₀ moves = some s) :
    ∀ row ∈ s.job.parcels.rows, ∀ cost, row.deliveryCostRub = some cost →
      row ∈ s₀.job.parcels.rows ∨ Priced cfg env s₀ moves row cost := by
  have hvalid₀ : s₀.redis.Valid := by
    rw [hempty]
    exact ⟨nofun, .nil⟩
  have haccount : Accounted cfg env s₀ moves s := by
    refine System.run_history (P := fun moves s => Accounted cfg env s₀ moves s) ?_ ?_ hrun
    · refine ⟨.of_idle hidle, fun i pt rate hpt hrate => ?_, fun row hrow _ _ => Or.inl hrow⟩
      exact absurd (not_ended_of_loopRate hrate) (hidle.not_live hpt)
    · intro before s l s' hbefore h hstep
      exact h.step hempty hbefore (cachedStep_of_step (valid_of_run hvalid₀ hbefore) hstep)
  exact haccount.prices

end Prices

/-- The parcels of the first run are priced at the rate that it has fetched. -/
theorem price_provenance_sample :
    ∃ s, (cachedSystem .default sampleRateEnv).run sampleCachedJob sampleCachedMoves = some s ∧
      ∀ row ∈ s.job.parcels.rows, ∃ cost, row.deliveryCostRub = some cost ∧
        Priced .default sampleRateEnv sampleCachedJob sampleCachedMoves row cost := by
  obtain ⟨s, hrun, hpriced⟩ : ∃ s,
      (cachedSystem .default sampleRateEnv).run sampleCachedJob sampleCachedMoves = some s ∧
        ∀ row ∈ s.job.parcels.rows, row.priced = true := ⟨_, rfl, by decide⟩
  refine ⟨s, hrun, fun row hrow => ?_⟩
  obtain ⟨cost, hcost⟩ := Option.isSome_iff_exists.mp (hpriced row hrow)
  refine ⟨cost, hcost, ?_⟩
  rcases price_provenance rfl (.of_runs_nil rfl) hrun row hrow cost hcost with hstart | hgiven
  · have hnone : ∀ row ∈ sampleParcels.parcels.rows, row.deliveryCostRub = none := by decide
    cases hcost.symm.trans (hnone row hstart)
  · exact hgiven

end ParcelDelivery
