import ParcelDelivery.ParcelStore
import ParcelDelivery.System

/-!
# The pricing job

`app/tasks/delivery.py`, `manual_recalc` of `app/tasks/routes.py` and
`get_usd_rub_rate`, as a labelled system: any number of runs, started by the
scheduler or by hand, over one parcel table and one Redis. A run stands at a
`RunPoint` between two of its calls. A label names the run that moves and carries
what its call gets from outside: the date, the answers of the rate service, the
rows that a `SELECT … LIMIT` without an order happens to return.
-/

namespace ParcelDelivery

open Relational DecimalArith TransitionSystem

/-- The settings of the delivery job. -/
structure DeliverySettings : Type where
  /-- `DELIVERY_WEIGHT_COEFF` -/
  weightCoeff : Decimal
  /-- `DELIVERY_VALUE_COEFF` -/
  valueCoeff : Decimal
  /-- `DELIVERY_BATCH_SIZE` -/
  batchSize : ℕ

/-- The defaults of `Settings`. -/
def DeliverySettings.default : DeliverySettings where
  weightCoeff := ⟨5, -1⟩
  valueCoeff := ⟨1, -2⟩
  batchSize := 500

/-! ## Prices -/

/-- `_formula`. -/
def formula (cfg : DeliverySettings) (weight declared rate : Decimal) : Decimal :=
  let cost := weight * cfg.weightCoeff
  let cost := cost + declared * cfg.valueCoeff
  cost * rate

/-- The cost of a parcel at a rate, as the column stores it; `none` is refused. -/
def Parcel.cost (cfg : DeliverySettings) (rate : Decimal) (p : Parcel) : Option Money :=
  Money.store (formula cfg p.weightKg.1.toDecimal p.declaredValueUsd.1.toDecimal rate)

/-- `UPDATE parcel SET delivery_cost_rub = … WHERE id = …` for the parcels of a batch. -/
def Parcel.assignCost (costs : List (String × Money)) (p : Parcel) : Parcel :=
  match costs.lookup p.id with
  | some cost => { p with deliveryCostRub := some cost }
  | none => p

theorem Parcel.assignCost_id (costs : List (String × Money)) (p : Parcel) :
    (p.assignCost costs).id = p.id := by
  unfold assignCost
  split <;> rfl

/-- The `UPDATE` leaves the primary keys alone. -/
theorem Parcel.assignCost_clash (costs : List (String × Money)) (p p' : Parcel) :
    Row.clash (p.assignCost costs) p' ↔ Row.clash p p' := by
  change (p.assignCost costs).id = p'.id ↔ p.id = p'.id
  rw [p.assignCost_id costs]

/-- The costs that a batch commits; `none` when one of them is refused. -/
def batchCosts (cfg : DeliverySettings) (rate : Decimal) (batch : List Parcel) :
    Option (List (String × Money)) :=
  batch.mapM fun p => (p.cost cfg rate).map fun cost => (p.id, cost)

/-- The commit of a batch. -/
def commitBatch (cfg : DeliverySettings) (rate : Decimal) (batch : List Parcel)
    (parcels : Table Parcel) : Option (Table Parcel) :=
  (batchCosts cfg rate batch).map fun costs =>
    parcels.update (fun _ => true) (Parcel.assignCost costs) (Parcel.assignCost_clash costs)

/-! ## The exchange rate -/

/-- `KEY_TMPL`. -/
def rateKey (date : String) : String := "usd_rub:" ++ date

/-- `_fetch_rate_from_cbr`: up to three attempts. -/
def fetchRateFromCbr (attempts : List (Option Decimal)) : Option Decimal :=
  (attempts.take 3).findSome? id

/-- `get_usd_rub_rate` on the cached rates: the rate (`none` when all attempts have
failed) and the cached rates afterwards. -/
def getUsdRubRate (rates : List (String × Decimal)) (today : String)
    (attempts : List (Option Decimal)) : Option Decimal × List (String × Decimal) :=
  match rates.lookup (rateKey today) with
  | some rate => (some rate, rates)
  | none =>
    match fetchRateFromCbr attempts with
    | none => (none, rates)
    | some rate => (some rate, (rateKey today, rate) :: rates)

/-! ## Runs -/

/-- Where a run stands. -/
inductive RunPoint : Type where
  /-- `manual_recalc` before it deletes the lock -/
  | deleteLock
  /-- `recalc_delivery_costs` before `_acquire_lock` -/
  | acquireLock
  /-- before `get_usd_rub_rate` -/
  | getRate
  /-- before `_fetch_unpriced`, `updated` parcels counted so far -/
  | fetchUnpriced (rate : Decimal) (updated : ℕ)
  /-- before the commit of a batch -/
  | commitBatch (rate : Decimal) (updated : ℕ) (batch : List Parcel)
  /-- the loop is over -/
  | finish (updated : ℕ)
  /-- the run has returned its count -/
  | returned (updated : ℕ)
  /-- the run has raised -/
  | raised (e : Exn)
  /-- the run was interrupted from outside -/
  | interrupted
  deriving DecidableEq

namespace RunPoint

/-- Between a successful `_acquire_lock` and the end of the run. -/
def inProgress : RunPoint → Bool
  | getRate => true
  | fetchUnpriced _ _ => true
  | commitBatch _ _ _ => true
  | finish _ => true
  | _ => false

/-- The run is over. -/
def ended : RunPoint → Bool
  | returned _ => true
  | raised _ => true
  | interrupted => true
  | _ => false

end RunPoint

/-- The parcel table, the Redis keys of the job, its counter and its runs. -/
structure JobState : Type where
  parcels : Table Parcel
  /-- the key `delivery_job_lock` exists -/
  lock : Bool
  /-- the keys `usd_rub:…` -/
  rates : List (String × Decimal)
  /-- the key `delivery_last_run_updated` -/
  lastRunUpdated : Option ℕ
  /-- the key `delivery_last_run_at` -/
  lastRunAt : Option Time
  /-- the counter `DELIVERY_RECALC_PARCELS` -/
  recalcParcels : ℕ
  /-- the runs so far, in the order in which they were started -/
  runs : List RunPoint

/-- What happens next. -/
inductive JobMove : Type where
  /-- the scheduler starts a run -/
  | tick
  /-- `manual_recalc` is called -/
  | manual
  /-- `redis.delete("delivery_job_lock")` of `manual_recalc` -/
  | delete (i : ℕ)
  /-- `redis.set("delivery_job_lock", "1", ex=ttl, nx=True)` -/
  | setNx (i : ℕ)
  /-- `get_usd_rub_rate` on this date, with the answers that the service would give -/
  | readRate (i : ℕ) (today : String) (attempts : List (Option Decimal))
  /-- the `SELECT` of `_fetch_unpriced`, with the rows it returns -/
  | select (i : ℕ) (batch : List Parcel)
  /-- `session.commit()` -/
  | commit (i : ℕ)
  /-- counter, metadata and return -/
  | finish (i : ℕ) (now : Time)
  /-- the run is interrupted -/
  | interrupt (i : ℕ)
  /-- the TTL of the lock runs out -/
  | expireLock
  /-- the TTL of a cached rate runs out -/
  | expireRate (key : String)
  /-- a parcel is created -/
  | create (parcel : Parcel)

/-- The run that moves. -/
def JobMove.runOf : JobMove → Option ℕ
  | delete i => some i
  | setNx i => some i
  | readRate i _ _ => some i
  | select i _ => some i
  | commit i => some i
  | finish i _ => some i
  | interrupt i => some i
  | _ => none

namespace JobState

/-- The unpriced rows. -/
def unpriced (s : JobState) : List Parcel := s.parcels.selectAll fun p => !p.priced

/-- A possible answer to `SELECT … WHERE delivery_cost_rub IS NULL LIMIT batchSize`:
that many different unpriced rows, or all of them when there are fewer. -/
def IsBatch (cfg : DeliverySettings) (s : JobState) (batch : List Parcel) : Prop :=
  batch.Nodup ∧ (∀ p ∈ batch, p ∈ s.unpriced) ∧
    batch.length = min cfg.batchSize s.unpriced.length

instance (cfg : DeliverySettings) (s : JobState) (batch : List Parcel) :
    Decidable (s.IsBatch cfg batch) :=
  inferInstanceAs (Decidable (_ ∧ _ ∧ _))

/-- Run `i` goes on to a point. -/
def goto (s : JobState) (i : ℕ) (pt : RunPoint) : JobState := { s with runs := s.runs.set i pt }

/-- A move of run `i` from where it stands. -/
def moveRun (s : JobState) (i : ℕ) (f : RunPoint → Option JobState) : Option JobState :=
  s.runs[i]?.bind f

end JobState

/-- The job: what each call does. -/
def jobSystem (cfg : DeliverySettings) : System JobState JobMove where
  step s
    | .tick => some { s with runs := s.runs ++ [.acquireLock] }
    | .manual => some { s with runs := s.runs ++ [.deleteLock] }
    | .delete i => s.moveRun i fun
      | .deleteLock => some ({ s with lock := false }.goto i .acquireLock)
      | _ => none
    | .setNx i => s.moveRun i fun
      | .acquireLock =>
        if s.lock then some (s.goto i (.returned 0))
        else some ({ s with lock := true }.goto i .getRate)
      | _ => none
    | .readRate i today attempts => s.moveRun i fun
      | .getRate =>
        match getUsdRubRate s.rates today attempts with
        | (some rate, rates) => some ({ s with rates := rates }.goto i (.fetchUnpriced rate 0))
        | (none, rates) => some ({ s with rates := rates }.goto i (.raised .httpError))
      | _ => none
    | .select i batch => s.moveRun i fun
      | .fetchUnpriced rate updated =>
        if s.IsBatch cfg batch then
          if batch = [] then some (s.goto i (.finish updated))
          else some (s.goto i (.commitBatch rate updated batch))
        else none
      | _ => none
    | .commit i => s.moveRun i fun
      | .commitBatch rate updated batch =>
        match commitBatch cfg rate batch s.parcels with
        | some parcels =>
          some ({ s with parcels := parcels }.goto i (.fetchUnpriced rate (updated + batch.length)))
        | none => some (s.goto i (.raised .dataError))
      | _ => none
    | .finish i now => s.moveRun i fun
      | .finish updated =>
        some ({ s with
          recalcParcels := s.recalcParcels + updated
          lastRunUpdated := some updated
          lastRunAt := some now }.goto i (.returned updated))
      | _ => none
    | .interrupt i => s.moveRun i fun pt =>
      if pt.ended then none else some (s.goto i .interrupted)
    | .expireLock => some { s with lock := false }
    | .expireRate key => some { s with rates := s.rates.filter fun r => r.1 != key }
    | .create parcel =>
      if parcel.priced then none
      else (s.parcels.insert parcel).map fun parcels => { s with parcels := parcels }

/-! ## Inversion -/

/-- The steps of the job, one constructor per outcome of a call. -/
inductive JobStep (cfg : DeliverySettings) (s : JobState) : JobMove → JobState → Prop where
  | tick : JobStep cfg s .tick { s with runs := s.runs ++ [.acquireLock] }
  | manual : JobStep cfg s .manual { s with runs := s.runs ++ [.deleteLock] }
  | deleted {i : ℕ} (hpt : s.runs[i]? = some .deleteLock) :
      JobStep cfg s (.delete i) ({ s with lock := false }.goto i .acquireLock)
  | acquired {i : ℕ} (hpt : s.runs[i]? = some .acquireLock) (hfree : s.lock = false) :
      JobStep cfg s (.setNx i) ({ s with lock := true }.goto i .getRate)
  | skipped {i : ℕ} (hpt : s.runs[i]? = some .acquireLock) (hheld : s.lock = true) :
      JobStep cfg s (.setNx i) (s.goto i (.returned 0))
  | rateRead {i : ℕ} {today : String} {attempts : List (Option Decimal)} {rate : Decimal}
      {rates : List (String × Decimal)} (hpt : s.runs[i]? = some .getRate)
      (hrate : getUsdRubRate s.rates today attempts = (some rate, rates)) :
      JobStep cfg s (.readRate i today attempts)
        ({ s with rates := rates }.goto i (.fetchUnpriced rate 0))
  | rateFailed {i : ℕ} {today : String} {attempts : List (Option Decimal)}
      {rates : List (String × Decimal)} (hpt : s.runs[i]? = some .getRate)
      (hrate : getUsdRubRate s.rates today attempts = (none, rates)) :
      JobStep cfg s (.readRate i today attempts)
        ({ s with rates := rates }.goto i (.raised .httpError))
  | selected {i : ℕ} {rate : Decimal} {updated : ℕ} {batch : List Parcel}
      (hpt : s.runs[i]? = some (.fetchUnpriced rate updated)) (hbatch : s.IsBatch cfg batch)
      (hne : batch ≠ []) :
      JobStep cfg s (.select i batch) (s.goto i (.commitBatch rate updated batch))
  | drained {i : ℕ} {rate : Decimal} {updated : ℕ}
      (hpt : s.runs[i]? = some (.fetchUnpriced rate updated)) (hbatch : s.IsBatch cfg []) :
      JobStep cfg s (.select i []) (s.goto i (.finish updated))
  | committed {i : ℕ} {rate : Decimal} {updated : ℕ} {batch : List Parcel}
      {costs : List (String × Money)} {parcels : Table Parcel}
      (hpt : s.runs[i]? = some (.commitBatch rate updated batch))
      (hcosts : batchCosts cfg rate batch = some costs)
      (hrows : parcels.rows = s.parcels.rows.map (Parcel.assignCost costs)) :
      JobStep cfg s (.commit i)
        ({ s with parcels := parcels }.goto i (.fetchUnpriced rate (updated + batch.length)))
  | refused {i : ℕ} {rate : Decimal} {updated : ℕ} {batch : List Parcel}
      (hpt : s.runs[i]? = some (.commitBatch rate updated batch))
      (hcosts : batchCosts cfg rate batch = none) :
      JobStep cfg s (.commit i) (s.goto i (.raised .dataError))
  | finished {i : ℕ} {now : Time} {updated : ℕ} (hpt : s.runs[i]? = some (.finish updated)) :
      JobStep cfg s (.finish i now) ({ s with
        recalcParcels := s.recalcParcels + updated
        lastRunUpdated := some updated
        lastRunAt := some now }.goto i (.returned updated))
  | interrupted {i : ℕ} {pt : RunPoint} (hpt : s.runs[i]? = some pt) (hended : pt.ended = false) :
      JobStep cfg s (.interrupt i) (s.goto i .interrupted)
  | lockExpired : JobStep cfg s .expireLock { s with lock := false }
  | rateExpired {key : String} :
      JobStep cfg s (.expireRate key) { s with rates := s.rates.filter fun r => r.1 != key }
  | created {parcel : Parcel} {parcels : Table Parcel} (hunpriced : parcel.priced = false)
      (hinsert : s.parcels.insert parcel = some parcels) :
      JobStep cfg s (.create parcel) { s with parcels := parcels }

namespace JobState

variable {s s' : JobState} {i : ℕ} {f : RunPoint → Option JobState}

/-- A run that moves stands somewhere. -/
theorem moveRun_eq_some (h : s.moveRun i f = some s') :
    ∃ pt, s.runs[i]? = some pt ∧ f pt = some s' :=
  Option.bind_eq_some_iff.mp h

end JobState

/-- **Inversion of a step.** -/
theorem jobStep_of_step {cfg : DeliverySettings} {s s' : JobState} {l : JobMove}
    (h : (jobSystem cfg).step s l = some s') : JobStep cfg s l s' := by
  cases l with
  | tick =>
    obtain rfl := Option.some.inj h
    exact .tick
  | manual =>
    obtain rfl := Option.some.inj h
    exact .manual
  | delete i =>
    obtain ⟨pt, hpt, h⟩ := JobState.moveRun_eq_some h
    cases pt <;> try cases h
    exact .deleted hpt
  | setNx i =>
    obtain ⟨pt, hpt, h⟩ := JobState.moveRun_eq_some h
    cases pt <;> try cases h
    cases hlock : s.lock with
    | false =>
      simp only [hlock, Bool.false_eq_true, if_false] at h
      obtain rfl := Option.some.inj h
      exact .acquired hpt hlock
    | true =>
      simp only [hlock, if_true] at h
      obtain rfl := Option.some.inj h
      exact .skipped hpt hlock
  | readRate i today attempts =>
    obtain ⟨pt, hpt, h⟩ := JobState.moveRun_eq_some h
    cases pt <;> try cases h
    rcases hrate : getUsdRubRate s.rates today attempts with ⟨_ | rate, rates⟩
    · simp only [hrate] at h
      obtain rfl := Option.some.inj h
      exact .rateFailed hpt hrate
    · simp only [hrate] at h
      obtain rfl := Option.some.inj h
      exact .rateRead hpt hrate
  | select i batch =>
    obtain ⟨pt, hpt, h⟩ := JobState.moveRun_eq_some h
    cases pt <;> try cases h
    rename_i rate updated
    by_cases hbatch : s.IsBatch cfg batch
    · by_cases hne : batch = []
      · subst hne
        simp only [if_pos hbatch, if_true] at h
        obtain rfl := Option.some.inj h
        exact .drained hpt hbatch
      · simp only [if_pos hbatch, if_neg hne] at h
        obtain rfl := Option.some.inj h
        exact .selected hpt hbatch hne
    · simp only [if_neg hbatch] at h
      cases h
  | commit i =>
    obtain ⟨pt, hpt, h⟩ := JobState.moveRun_eq_some h
    cases pt <;> try cases h
    rename_i rate updated batch
    rcases hcosts : batchCosts cfg rate batch with _ | costs
    · simp only [commitBatch, hcosts, Option.map_none] at h
      obtain rfl := Option.some.inj h
      exact .refused hpt hcosts
    · simp only [commitBatch, hcosts, Option.map_some] at h
      obtain rfl := Option.some.inj h
      refine .committed hpt hcosts ?_
      rw [Table.update_rows]
      exact List.map_congr_left fun p _ => if_pos rfl
  | finish i now =>
    obtain ⟨pt, hpt, h⟩ := JobState.moveRun_eq_some h
    cases pt <;> try cases h
    exact .finished hpt
  | interrupt i =>
    obtain ⟨pt, hpt, h⟩ := JobState.moveRun_eq_some h
    cases hended : pt.ended with
    | false =>
      simp only [hended, Bool.false_eq_true, if_false] at h
      obtain rfl := Option.some.inj h
      exact .interrupted hpt hended
    | true =>
      simp only [hended, if_true] at h
      cases h
  | expireLock =>
    obtain rfl := Option.some.inj h
    exact .lockExpired
  | expireRate key =>
    obtain rfl := Option.some.inj h
    exact .rateExpired
  | create parcel =>
    change (if parcel.priced then none else _) = _ at h
    cases hpriced : parcel.priced with
    | true =>
      simp only [hpriced, if_true] at h
      cases h
    | false =>
      simp only [hpriced, Bool.false_eq_true, if_false] at h
      obtain ⟨parcels, hinsert, rfl⟩ := Option.map_eq_some_iff.mp h
      exact .created hpriced hinsert

/-! ## The runs along a step -/

/-- What a step makes of the point of run `i`. -/
inductive PointStep (cfg : DeliverySettings) (s : JobState) (i : ℕ) :
    JobMove → RunPoint → RunPoint → Prop where
  /-- the run does not move -/
  | stay {l : JobMove} {pt : RunPoint} (hl : l.runOf ≠ some i) : PointStep cfg s i l pt pt
  | deleted : PointStep cfg s i (.delete i) .deleteLock .acquireLock
  | acquired (hfree : s.lock = false) : PointStep cfg s i (.setNx i) .acquireLock .getRate
  | skipped (hheld : s.lock = true) : PointStep cfg s i (.setNx i) .acquireLock (.returned 0)
  | rateRead {today : String} {attempts : List (Option Decimal)} {rate : Decimal} :
      PointStep cfg s i (.readRate i today attempts) .getRate (.fetchUnpriced rate 0)
  | rateFailed {today : String} {attempts : List (Option Decimal)} :
      PointStep cfg s i (.readRate i today attempts) .getRate (.raised .httpError)
  | selected {rate : Decimal} {updated : ℕ} {batch : List Parcel} (hbatch : s.IsBatch cfg batch)
      (hne : batch ≠ []) :
      PointStep cfg s i (.select i batch) (.fetchUnpriced rate updated)
        (.commitBatch rate updated batch)
  | drained {rate : Decimal} {updated : ℕ} (hbatch : s.IsBatch cfg []) :
      PointStep cfg s i (.select i []) (.fetchUnpriced rate updated) (.finish updated)
  | committed {rate : Decimal} {updated : ℕ} {batch : List Parcel}
      {costs : List (String × Money)} (hcosts : batchCosts cfg rate batch = some costs) :
      PointStep cfg s i (.commit i) (.commitBatch rate updated batch)
        (.fetchUnpriced rate (updated + batch.length))
  | refused {rate : Decimal} {updated : ℕ} {batch : List Parcel}
      (hcosts : batchCosts cfg rate batch = none) :
      PointStep cfg s i (.commit i) (.commitBatch rate updated batch) (.raised .dataError)
  | finished {now : Time} {updated : ℕ} :
      PointStep cfg s i (.finish i now) (.finish updated) (.returned updated)
  | interrupted {pt : RunPoint} (hended : pt.ended = false) :
      PointStep cfg s i (.interrupt i) pt .interrupted

section Runs

variable {cfg : DeliverySettings} {s s' : JobState} {l : JobMove} {i : ℕ} {pt pt' : RunPoint}

/-- One run moves, or a run is started, or the runs stay as they are. -/
theorem runs_of_step (h : JobStep cfg s l s') :
    (∃ i pt pt', s.runs[i]? = some pt ∧ PointStep cfg s i l pt pt' ∧ l.runOf = some i ∧
        s'.runs = s.runs.set i pt') ∨
      l.runOf = none ∧ (s'.runs = s.runs ∨ l = .tick ∧ s'.runs = s.runs ++ [.acquireLock] ∨
        l = .manual ∧ s'.runs = s.runs ++ [.deleteLock]) := by
  cases h with
  | tick => exact Or.inr ⟨rfl, Or.inr (Or.inl ⟨rfl, rfl⟩)⟩
  | manual => exact Or.inr ⟨rfl, Or.inr (Or.inr ⟨rfl, rfl⟩)⟩
  | deleted hpt => exact Or.inl ⟨_, _, _, hpt, .deleted, rfl, rfl⟩
  | acquired hpt hfree => exact Or.inl ⟨_, _, _, hpt, .acquired hfree, rfl, rfl⟩
  | skipped hpt hheld => exact Or.inl ⟨_, _, _, hpt, .skipped hheld, rfl, rfl⟩
  | rateRead hpt _ => exact Or.inl ⟨_, _, _, hpt, .rateRead, rfl, rfl⟩
  | rateFailed hpt _ => exact Or.inl ⟨_, _, _, hpt, .rateFailed, rfl, rfl⟩
  | selected hpt hbatch hne => exact Or.inl ⟨_, _, _, hpt, .selected hbatch hne, rfl, rfl⟩
  | drained hpt hbatch => exact Or.inl ⟨_, _, _, hpt, .drained hbatch, rfl, rfl⟩
  | committed hpt hcosts _ => exact Or.inl ⟨_, _, _, hpt, .committed hcosts, rfl, rfl⟩
  | refused hpt hcosts => exact Or.inl ⟨_, _, _, hpt, .refused hcosts, rfl, rfl⟩
  | finished hpt => exact Or.inl ⟨_, _, _, hpt, .finished, rfl, rfl⟩
  | interrupted hpt hended => exact Or.inl ⟨_, _, _, hpt, .interrupted hended, rfl, rfl⟩
  | lockExpired | rateExpired | created _ _ => exact Or.inr ⟨rfl, Or.inl rfl⟩

/-- **Where a run stands after a step.** -/
theorem point_of_step (h : JobStep cfg s l s') (hpt : s.runs[i]? = some pt) :
    ∃ pt', s'.runs[i]? = some pt' ∧ PointStep cfg s i l pt pt' := by
  obtain ⟨hlt, -⟩ := List.getElem?_eq_some_iff.mp hpt
  rcases runs_of_step h with ⟨j, pt₀, pt', hpt₀, hstep, hl, hruns⟩ | ⟨hl, hruns⟩
  · by_cases hj : j = i
    · subst hj
      cases hpt.symm.trans hpt₀
      exact ⟨pt', by rw [hruns, List.getElem?_set_self hlt], hstep⟩
    · refine ⟨pt, by rw [hruns, List.getElem?_set_ne hj, hpt], .stay ?_⟩
      rw [hl]
      exact fun heq => hj (Option.some.inj heq)
  · refine ⟨pt, ?_, .stay (by rw [hl]; nofun)⟩
    rcases hruns with hruns | ⟨-, hruns⟩ | ⟨-, hruns⟩
    · rw [hruns, hpt]
    · rw [hruns, List.getElem?_append_left hlt, hpt]
    · rw [hruns, List.getElem?_append_left hlt, hpt]

/-- Where a run stood before a step, if it is not just started. -/
theorem point_before_step (h : JobStep cfg s l s') (hpt' : s'.runs[i]? = some pt') :
    (∃ pt, s.runs[i]? = some pt ∧ PointStep cfg s i l pt pt') ∨
      i = s.runs.length ∧ (l = .tick ∧ pt' = .acquireLock ∨ l = .manual ∧ pt' = .deleteLock) := by
  rcases hpt : s.runs[i]? with _ | pt
  · have hge : s.runs.length ≤ i := List.getElem?_eq_none_iff.mp hpt
    have hstarted : ∀ {pt₀}, s'.runs = s.runs ++ [pt₀] → i = s.runs.length ∧ pt' = pt₀ := by
      intro pt₀ hruns
      rw [hruns, List.getElem?_append_right hge] at hpt'
      obtain ⟨hlt, hget⟩ := List.getElem?_eq_some_iff.mp hpt'
      rw [List.length_singleton] at hlt
      exact ⟨by omega, List.mem_singleton.mp (List.mem_of_getElem? hpt')⟩
    rcases runs_of_step h with ⟨j, pt₀, pt₁, hpt₀, -, -, hruns⟩ | ⟨-, hruns | hruns | hruns⟩
    · rw [hruns, List.getElem?_eq_none (by rw [List.length_set]; exact hge)] at hpt'
      cases hpt'
    · rw [hruns, hpt] at hpt'
      cases hpt'
    · obtain ⟨hi, heq⟩ := hstarted hruns.2
      exact Or.inr ⟨hi, Or.inl ⟨hruns.1, heq⟩⟩
    · obtain ⟨hi, heq⟩ := hstarted hruns.2
      exact Or.inr ⟨hi, Or.inr ⟨hruns.1, heq⟩⟩
  · obtain ⟨pt₁, hpt₁, hstep⟩ := point_of_step h hpt
    cases hpt'.symm.trans hpt₁
    exact Or.inl ⟨pt, rfl, hstep⟩

end Runs

end ParcelDelivery
