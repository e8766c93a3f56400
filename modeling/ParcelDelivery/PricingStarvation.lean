import ParcelDelivery.PricingRuns
import ParcelDelivery.PriceRange
import ParcelDelivery.HeadBatches

/-!
# A parcel that cannot be stored

One run of `recalc_delivery_costs` over a table where the column refuses the cost of some unpriced
parcels. The commit of a batch that has one of them raises, and the exception leaves the
loop: what was not committed before stays unpriced, storable or not.

So the run prices every storable parcel exactly when it selects a refused one only after all
storable ones; where the `SELECT` keeps to the order of the table, exactly when the
storable parcels come first and fill their batches (`bad_parcel_starves_iff`).
-/

namespace ParcelDelivery

open Relational DecimalArith TransitionSystem HeadBatches

/-! ## One run -/

/-- The column takes the cost of the parcel at a rate. -/
def Parcel.storable (cfg : DeliverySettings) (rate : Decimal) (p : Parcel) : Bool :=
  (p.cost cfg rate).isSome

/-- The moves of run `i` after it has read its rate; nothing interrupts it. -/
def JobMove.ofLoop (i : ℕ) : JobMove → Bool
  | select j _ => j == i
  | commit j => j == i
  | finish j _ => j == i
  | _ => false

theorem JobMove.runOf_of_loop {i : ℕ} {l : JobMove} (h : l.ofLoop i = true) :
    l.runOf = some i ∧ l ≠ .interrupt i := by
  cases l with
  | select _ _ | commit _ | finish _ _ => exact ⟨congrArg some (beq_iff_eq.mp h), nofun⟩
  | _ => cases h

/-- Run `i` of `recalc_delivery_costs`, from its lock to its end, with nothing in between: it finds
the lock free and gets a rate. -/
structure RunsAlone (cfg : DeliverySettings) (i : ℕ) (today : String)
    (attempts : List (Option Decimal)) (rate : Decimal) (loop : List JobMove)
    (s s' : JobState) : Prop where
  start : s.runs[i]? = some .acquireLock
  free : s.lock = false
  rated : (getUsdRubRate s.rates today attempts).1 = some rate
  run : (jobSystem cfg).run s (.setNx i :: .readRate i today attempts :: loop) = some s'
  own : ∀ l ∈ loop, l.ofLoop i = true
  ended : ∃ pt, s'.runs[i]? = some pt ∧ pt.ended = true

/-- Every unpriced parcel that has a storable cost has got it. -/
def PricesStorable (cfg : DeliverySettings) (rate : Decimal) (s s' : JobState) : Prop :=
  ∀ p ∈ s.unpriced, ∀ cost, p.cost cfg rate = some cost →
    { p with deliveryCostRub := some cost } ∈ s'.parcels.rows

/-- A `SELECT` returns a refused parcel only when no storable one is unpriced. -/
def BadLast (cfg : DeliverySettings) (rate : Decimal) (s : JobState) (l : JobMove)
    (_ : JobState) : Prop :=
  match l with
  | .select _ batch => (∃ p ∈ batch, p.storable cfg rate = false) →
      ∀ p ∈ s.unpriced, p.storable cfg rate = false
  | _ => True

/-- A `SELECT` returns the first unpriced rows of the table. -/
def InTableOrder (cfg : DeliverySettings) (s : JobState) (l : JobMove) (_ : JobState) : Prop :=
  match l with
  | .select _ batch => batch = s.unpriced.take cfg.batchSize
  | _ => True

/-- Where the run stands in its loop. -/
def RunPoint.InLoop (cfg : DeliverySettings) (rate : Decimal) (s : JobState) : RunPoint → Prop
  | fetchUnpriced r _ => r = rate
  | commitBatch r _ batch => r = rate ∧ s.IsBatch cfg batch ∧ batch ≠ []
  | finish _ => True
  | returned _ => True
  | raised _ => True
  | _ => False

/-- A move of the run in its loop: the points before and after it, and the table. -/
inductive LoopStep (cfg : DeliverySettings) (rate : Decimal) (i : ℕ) (s : JobState) :
    RunPoint → JobMove → RunPoint → JobState → Prop where
  | selected {updated : ℕ} {batch : List Parcel} {s' : JobState} (hbatch : s.IsBatch cfg batch)
      (hne : batch ≠ []) (hparcels : s'.parcels = s.parcels) :
      LoopStep cfg rate i s (.fetchUnpriced rate updated) (.select i batch)
        (.commitBatch rate updated batch) s'
  | drained {updated : ℕ} {s' : JobState} (hbatch : s.IsBatch cfg [])
      (hparcels : s'.parcels = s.parcels) :
      LoopStep cfg rate i s (.fetchUnpriced rate updated) (.select i []) (.finish updated) s'
  | committed {updated : ℕ} {batch : List Parcel} {costs : List (String × Money)} {s' : JobState}
      (hcosts : batchCosts cfg rate batch = some costs) (hbatch : s.IsBatch cfg batch)
      (hne : batch ≠ [])
      (hrows : s'.parcels.rows = s.parcels.rows.map (Parcel.assignCost costs)) :
      LoopStep cfg rate i s (.commitBatch rate updated batch) (.commit i)
        (.fetchUnpriced rate (updated + batch.length)) s'
  | refused {updated : ℕ} {batch : List Parcel} {s' : JobState}
      (hcosts : batchCosts cfg rate batch = none) (hparcels : s'.parcels = s.parcels) :
      LoopStep cfg rate i s (.commitBatch rate updated batch) (.commit i) (.raised .dataError) s'
  | finished {updated : ℕ} {now : Time} {s' : JobState} (hparcels : s'.parcels = s.parcels) :
      LoopStep cfg rate i s (.finish updated) (.finish i now) (.returned updated) s'

section Loop

variable {cfg : DeliverySettings} {rate : Decimal} {s s' s₀ : JobState} {l : JobMove} {i : ℕ}
  {pt : RunPoint} {batch : List Parcel} {p : Parcel}

theorem mem_unpriced : p ∈ s.unpriced ↔ p ∈ s.parcels.rows ∧ p.priced = false := by
  simp only [JobState.unpriced, Table.selectAll, List.mem_filter, Bool.not_eq_true']

theorem nodup_unpriced (s : JobState) : s.unpriced.Nodup := s.parcels.nodup.filter _

/-- A batch is refused for one of its parcels. -/
theorem bad_of_refused (h : batchCosts cfg rate batch = none) :
    ∃ p ∈ batch, p.storable cfg rate = false := by
  by_contra hall
  have hfit : ∀ p ∈ batch, ∃ cost, p.cost cfg rate = some cost := by
    intro p hp
    rw [← Option.isSome_iff_exists]
    by_contra hbad
    exact hall ⟨p, hp, Bool.eq_false_iff.mpr hbad⟩
  obtain ⟨costs, hcosts⟩ := batchCosts_of_fit hfit
  exact nomatch h.symm.trans hcosts

theorem storable_of_committed {costs : List (String × Money)}
    (hcosts : batchCosts cfg rate batch = some costs) (hbatch : s.IsBatch cfg batch)
    (hne : batch ≠ []) (hp : p ∈ batch) : p.storable cfg rate = true := by
  obtain ⟨cost, hcost⟩ := cost_of_commit hcosts (BatchKnown.of_isBatch hbatch hne)
    (mem_unpriced.mp (hbatch.2.1 p hp)).1 (List.mem_map_of_mem hp)
  rw [Parcel.storable, hcost]
  rfl

/-- A row that has an identifier of the batch is in it. -/
theorem mem_batch_iff (hbatch : s.IsBatch cfg batch) {r : Parcel} (hr : r ∈ s.parcels.rows) :
    r.id ∈ batch.map Parcel.id ↔ r ∈ batch := by
  refine ⟨fun hid => ?_, fun h => List.mem_map_of_mem h⟩
  obtain ⟨q, hq, hqid⟩ := List.mem_map.mp hid
  rwa [← Parcel.eq_of_id (mem_unpriced.mp (hbatch.2.1 q hq)).1 hr hqid]

/-- What a commit leaves unpriced. -/
theorem unpriced_of_commit {costs : List (String × Money)}
    (hcosts : batchCosts cfg rate batch = some costs) (hbatch : s.IsBatch cfg batch)
    (hne : batch ≠ []) (hrows : s'.parcels.rows = s.parcels.rows.map (Parcel.assignCost costs)) :
    s'.unpriced = s.unpriced.filter fun p => decide (p ∉ batch) := by
  have hknown := BatchKnown.of_isBatch hbatch hne
  rw [JobState.unpriced, Table.selectAll, hrows, rows_of_commit hcosts hknown, List.filter_map,
    JobState.unpriced, Table.selectAll, List.filter_filter]
  have hfilter : s.parcels.rows.filter ((fun p => !p.priced) ∘ fun r =>
      if r.id ∈ batch.map Parcel.id then r.priceAt cfg rate else r) =
      s.parcels.rows.filter fun p => decide (p ∉ batch) && !p.priced := by
    refine List.filter_congr fun r hr => ?_
    by_cases hin : r ∈ batch
    · obtain ⟨cost, hcost⟩ := cost_of_commit hcosts hknown hr (List.mem_map_of_mem hin)
      rw [Function.comp_apply, if_pos ((mem_batch_iff hbatch hr).mpr hin), Parcel.priceAt,
        hcost]
      simp [hin, Parcel.priced]
    · rw [Function.comp_apply, if_neg fun hid => hin ((mem_batch_iff hbatch hr).mp hid)]
      simp [hin]
  rw [hfilter]
  refine (List.map_congr_left fun r hr => ?_).trans (List.map_id _)
  have hr' := List.mem_filter.mp hr
  rw [if_neg fun hid => ?_]
  · rfl
  · have hin := (mem_batch_iff hbatch hr'.1).mp hid
    simp [hin] at hr'

/-- **Inversion of a move in the loop.** -/
theorem loopStep_of_step (h : JobStep cfg s l s') (hown : l.ofLoop i = true)
    (hpt : s.runs[i]? = some pt) (hin : pt.InLoop cfg rate s) :
    ∃ pt', s'.runs[i]? = some pt' ∧ LoopStep cfg rate i s pt l pt' s' := by
  obtain ⟨hrun, hnot⟩ := JobMove.runOf_of_loop hown
  obtain ⟨hlt, -⟩ := List.getElem?_eq_some_iff.mp hpt
  have hgoto : ∀ pt', (s.runs.set i pt')[i]? = some pt' :=
    fun pt' => List.getElem?_set_self hlt
  cases h with
  | selected hpt' hbatch hne =>
    cases hrun
    cases hpt.symm.trans hpt'
    obtain rfl := hin
    exact ⟨_, hgoto _, .selected hbatch hne rfl⟩
  | drained hpt' hbatch =>
    cases hrun
    cases hpt.symm.trans hpt'
    obtain rfl := hin
    exact ⟨_, hgoto _, .drained hbatch rfl⟩
  | committed hpt' hcosts hrows =>
    cases hrun
    cases hpt.symm.trans hpt'
    obtain ⟨rfl, hbatch, hne⟩ := hin
    exact ⟨_, hgoto _, .committed hcosts hbatch hne hrows⟩
  | refused hpt' hcosts =>
    cases hrun
    cases hpt.symm.trans hpt'
    obtain ⟨rfl, -, -⟩ := hin
    exact ⟨_, hgoto _, .refused hcosts rfl⟩
  | finished hpt' =>
    cases hrun
    cases hpt.symm.trans hpt'
    exact ⟨_, hgoto _, .finished rfl⟩
  | interrupted hpt' hended =>
    cases hrun
    exact absurd rfl hnot
  | deleted hpt' | acquired hpt' _ | skipped hpt' _ | rateRead hpt' _ | rateFailed hpt' _ =>
    cases hrun
    cases hpt.symm.trans hpt'
    cases hin
  | tick | manual | lockExpired | rateExpired | created _ _ => cases hrun

/-- A table that stays answers a `SELECT` in the same ways. -/
theorem isBatch_of_parcels (hparcels : s'.parcels = s.parcels) :
    s'.IsBatch cfg batch ↔ s.IsBatch cfg batch := by
  simp only [JobState.IsBatch, JobState.unpriced, hparcels]

theorem LoopStep.inLoop {pt' : RunPoint} (h : LoopStep cfg rate i s pt l pt' s') :
    pt'.InLoop cfg rate s' := by
  cases h with
  | selected hbatch hne hparcels => exact ⟨rfl, (isBatch_of_parcels hparcels).mpr hbatch, hne⟩
  | drained hbatch hparcels => trivial
  | committed hcosts hbatch hne hrows => exact rfl
  | refused _ _ | finished _ => trivial

/-- **Run rule of the loop**: what holds before it and every move in it preserves, under a guard of
its steps, holds at its end. -/
theorem loop_invariant {I : JobState → RunPoint → Prop} {A : JobState → JobMove → JobState → Prop}
    (hstep : ∀ s pt l pt' s', I s pt → A s l s' → LoopStep cfg rate i s pt l pt' s' → I s' pt')
    {loop : List JobMove} (hown : ∀ l ∈ loop, l.ofLoop i = true) (hA : (jobSystem cfg).Steps A s loop)
    (hpt : s.runs[i]? = some pt) (hin : pt.InLoop cfg rate s) (hI : I s pt)
    (hrun : (jobSystem cfg).run s loop = some s') :
    ∃ pt', s'.runs[i]? = some pt' ∧ pt'.InLoop cfg rate s' ∧ I s' pt' := by
  refine System.run_invariant
    (I := fun s => ∃ pt, s.runs[i]? = some pt ∧ pt.InLoop cfg rate s ∧ I s pt) ?_ ⟨pt, hpt, hin, hI⟩
    ((System.steps_of_labels (P := fun l => JobMove.ofLoop i l = true) hown).and hA) hrun
  rintro s l s' ⟨pt, hpt, hin, hI⟩ hs ⟨hl, hA⟩
  obtain ⟨pt', hpt', hloop⟩ := loopStep_of_step (jobStep_of_step hs) hl hpt hin
  exact ⟨pt', hpt', hloop.inLoop, hstep s pt l pt' s' hI hA hloop⟩

/-- The run rule for what every move in the loop preserves. -/
theorem loop_preserves {I : JobState → RunPoint → Prop}
    (hstep : ∀ s pt l pt' s', I s pt → LoopStep cfg rate i s pt l pt' s' → I s' pt')
    {loop : List JobMove} (hown : ∀ l ∈ loop, l.ofLoop i = true) (hpt : s.runs[i]? = some pt)
    (hin : pt.InLoop cfg rate s) (hI : I s pt) (hrun : (jobSystem cfg).run s loop = some s') :
    ∃ pt', s'.runs[i]? = some pt' ∧ pt'.InLoop cfg rate s' ∧ I s' pt' :=
  loop_invariant (A := fun _ _ _ => True)
    (fun s pt l pt' s' hI _ hloop => hstep s pt l pt' s' hI hloop) hown
    (System.steps_of_forall fun _ _ _ => trivial) hpt hin hI hrun

theorem unpriced_of_parcels (hparcels : s'.parcels = s.parcels) : s'.unpriced = s.unpriced := by
  simp only [JobState.unpriced, hparcels]

theorem unpriced_of_empty_batch (hB : 0 < cfg.batchSize) (h : s.IsBatch cfg []) :
    s.unpriced = [] := by
  refine List.filter_eq_nil_iff.mpr fun r hr => ?_
  rw [priced_of_empty_batch hB h r hr]
  exact Bool.false_ne_true

/-! ## What the run has done so far -/

/-- Of the rows that were unpriced, the others have their cost at the rate of the run; an empty
`SELECT` has found no unpriced row. -/
structure LoopProgress (cfg : DeliverySettings) (rate : Decimal) (s₀ s : JobState)
    (pt : RunPoint) : Prop where
  kept : ∀ p ∈ s₀.unpriced, p ∈ s.unpriced ∨ ∃ cost, p.cost cfg rate = some cost ∧
    { p with deliveryCostRub := some cost } ∈ s.parcels.rows
  only : ∀ p ∈ s.unpriced, p ∈ s₀.unpriced
  drained : pt.drained = true → s.unpriced = []

theorem LoopProgress.same {pt' : RunPoint} (h : LoopProgress cfg rate s₀ s pt)
    (hparcels : s'.parcels = s.parcels) (hdrained : pt'.drained = true → s.unpriced = []) :
    LoopProgress cfg rate s₀ s' pt' := by
  have hunpriced := unpriced_of_parcels hparcels
  refine ⟨fun p hp => ?_, fun p hp => ?_, fun hpt => ?_⟩
  · rw [hunpriced, hparcels]
    exact h.kept p hp
  · rw [hunpriced] at hp
    exact h.only p hp
  · rw [hunpriced]
    exact hdrained hpt

/-- A priced row stays when a batch is committed, and a row of the batch gets its cost. -/
theorem row_of_commit {costs : List (String × Money)}
    (hcosts : batchCosts cfg rate batch = some costs) (hbatch : s.IsBatch cfg batch)
    (hne : batch ≠ []) (hrows : s'.parcels.rows = s.parcels.rows.map (Parcel.assignCost costs)) :
    (∀ r ∈ s.parcels.rows, r.priced = true → r ∈ s'.parcels.rows) ∧
      ∀ p ∈ batch, ∃ cost, p.cost cfg rate = some cost ∧
        { p with deliveryCostRub := some cost } ∈ s'.parcels.rows := by
  have hknown := BatchKnown.of_isBatch hbatch hne
  rw [hrows, rows_of_commit hcosts hknown]
  refine ⟨?_, ?_⟩
  · intro r hr hpriced
    refine List.mem_map.mpr ⟨r, hr, if_neg fun hid => ?_⟩
    have hin := hbatch.2.1 r ((mem_batch_iff hbatch hr).mp hid)
    rw [(mem_unpriced.mp hin).2] at hpriced
    cases hpriced
  · intro p hp
    have hrow := (mem_unpriced.mp (hbatch.2.1 p hp)).1
    have hid := List.mem_map_of_mem (f := Parcel.id) hp
    obtain ⟨cost, hcost⟩ := cost_of_commit hcosts hknown hrow hid
    refine ⟨cost, hcost, List.mem_map.mpr ⟨p, hrow, ?_⟩⟩
    rw [if_pos hid, Parcel.priceAt, hcost]
    rfl

/-- **Step**: the run keeps its progress. -/
theorem LoopProgress.step {pt' : RunPoint} (hB : 0 < cfg.batchSize)
    (h : LoopProgress cfg rate s₀ s pt) (hloop : LoopStep cfg rate i s pt l pt' s') :
    LoopProgress cfg rate s₀ s' pt' := by
  cases hloop with
  | selected hbatch hne hparcels => exact h.same hparcels nofun
  | drained hbatch hparcels => exact h.same hparcels fun _ => unpriced_of_empty_batch hB hbatch
  | refused hcosts hparcels => exact h.same hparcels nofun
  | finished hparcels => exact h.same hparcels fun _ => h.drained rfl
  | committed hcosts hbatch hne hrows =>
    rename_i updated batch costs
    have hunpriced := unpriced_of_commit hcosts hbatch hne hrows
    obtain ⟨hstays, hpriced⟩ := row_of_commit hcosts hbatch hne hrows
    refine ⟨fun p hp => ?_, fun p hp => ?_, nofun⟩
    · rcases h.kept p hp with hold | ⟨cost, hcost, hrow⟩
      · by_cases hin : p ∈ batch
        · exact Or.inr (hpriced p hin)
        · refine Or.inl ?_
          rw [hunpriced]
          exact List.mem_filter.mpr ⟨hold, decide_eq_true hin⟩
      · exact Or.inr ⟨cost, hcost, hstays _ hrow rfl⟩
    · rw [hunpriced] at hp
      exact h.only p (List.mem_of_mem_filter hp)

/-- The run has priced what it should exactly when it has left no storable row. -/
theorem LoopProgress.pricesStorable_iff (h : LoopProgress cfg rate s₀ s pt) :
    PricesStorable cfg rate s₀ s ↔ ∀ p ∈ s.unpriced, p.storable cfg rate = false := by
  refine ⟨?_, ?_⟩
  · intro hprices p hp
    rw [Parcel.storable, Bool.eq_false_iff]
    intro hstorable
    obtain ⟨cost, hcost⟩ := Option.isSome_iff_exists.mp hstorable
    have hrow := hprices p (h.only p hp) cost hcost
    obtain ⟨hold, hunpriced⟩ := mem_unpriced.mp hp
    have heq : p = { p with deliveryCostRub := some cost } := Parcel.eq_of_id hold hrow rfl
    rw [heq] at hunpriced
    cases hunpriced
  · intro hbad p hp cost hcost
    rcases h.kept p hp with hold | ⟨cost', hcost', hrow⟩
    · have hnot := hbad p hold
      rw [Parcel.storable, hcost] at hnot
      cases hnot
    · cases hcost.symm.trans hcost'
      exact hrow

/-! ## Refused parcels last -/

/-- What the guard says of the point of the run. -/
def RunPoint.OnlyBad (cfg : DeliverySettings) (rate : Decimal) (s : JobState) : RunPoint → Prop
  | commitBatch _ _ batch => (∃ p ∈ batch, p.storable cfg rate = false) →
      ∀ p ∈ s.unpriced, p.storable cfg rate = false
  | raised _ => ∀ p ∈ s.unpriced, p.storable cfg rate = false
  | _ => True

theorem LoopStep.onlyBad {pt' : RunPoint} (h : pt.OnlyBad cfg rate s)
    (hguard : BadLast cfg rate s l s') (hloop : LoopStep cfg rate i s pt l pt' s') :
    pt'.OnlyBad cfg rate s' := by
  cases hloop with
  | selected hbatch hne hparcels =>
    intro hbad
    rw [unpriced_of_parcels hparcels]
    exact hguard hbad
  | drained _ _ | committed _ _ _ _ => trivial
  | refused hcosts hparcels =>
    simp only [RunPoint.OnlyBad, unpriced_of_parcels hparcels]
    exact h (bad_of_refused hcosts)
  | finished hparcels => trivial

/-- The run has selected a refused parcel and has not changed the table since. -/
def RunPoint.Stuck (cfg : DeliverySettings) (rate : Decimal) (parcels : Table Parcel)
    (s : JobState) (pt : RunPoint) : Prop :=
  s.parcels = parcels ∧
    ((∃ updated batch, pt = .commitBatch rate updated batch ∧
        ∃ p ∈ batch, p.storable cfg rate = false) ∨ ∃ e, pt = .raised e)

theorem LoopStep.stuck {parcels : Table Parcel} {pt' : RunPoint}
    (h : RunPoint.Stuck cfg rate parcels s pt) (hloop : LoopStep cfg rate i s pt l pt' s') :
    RunPoint.Stuck cfg rate parcels s' pt' := by
  obtain ⟨hsame, ⟨updated, batch, rfl, p, hp, hbad⟩ | ⟨e, rfl⟩⟩ := h
  · cases hloop with
    | committed hcosts hbatch hne hrows =>
      rw [storable_of_committed hcosts hbatch hne hp] at hbad
      cases hbad
    | refused hcosts hparcels => exact ⟨hparcels.trans hsame, Or.inr ⟨_, rfl⟩⟩
  · cases hloop

/-! ## In the order of the table -/

/-- The loop on the list of unpriced rows: what it will leave is `rest`. -/
def RunPoint.Ordered (cfg : DeliverySettings) (rate : Decimal) (k : ℕ) (rest : List Parcel)
    (s : JobState) : RunPoint → Prop
  | fetchUnpriced _ _ => leftover (Parcel.storable cfg rate) k s.unpriced = rest
  | commitBatch _ _ batch => leftover (Parcel.storable cfg rate) k s.unpriced = rest ∧
      batch = s.unpriced.take (k + 1)
  | _ => s.unpriced = rest

/-- **Step**: the run does what `leftover` says. -/
theorem LoopStep.ordered {k : ℕ} {rest : List Parcel} {pt' : RunPoint}
    (hk : cfg.batchSize = k + 1) (h : pt.Ordered cfg rate k rest s)
    (horder : InTableOrder cfg s l s') (hloop : LoopStep cfg rate i s pt l pt' s') :
    pt'.Ordered cfg rate k rest s' := by
  cases hloop with
  | selected hbatch hne hparcels =>
    rw [InTableOrder, hk] at horder
    rw [RunPoint.Ordered, unpriced_of_parcels hparcels]
    exact ⟨h, horder⟩
  | drained hbatch hparcels =>
    have hnil : s.unpriced = [] := unpriced_of_empty_batch (by omega) hbatch
    simp only [RunPoint.Ordered, hnil, leftover_nil] at h
    simp only [RunPoint.Ordered, unpriced_of_parcels hparcels, hnil, h]
  | committed hcosts hbatch hne hrows =>
    obtain ⟨hrest, rfl⟩ := h
    have hall : (s.unpriced.take (k + 1)).all (Parcel.storable cfg rate) = true :=
      List.all_eq_true.mpr fun p hp => storable_of_committed hcosts hbatch hne hp
    rw [RunPoint.Ordered, unpriced_of_commit hcosts hbatch hne hrows,
      filter_not_mem_take (nodup_unpriced s), ← leftover_of_all hall]
    exact hrest
  | refused hcosts hparcels =>
    obtain ⟨hrest, rfl⟩ := h
    obtain ⟨p, hp, hbad⟩ := bad_of_refused hcosts
    have hnot : ¬ (s.unpriced.take (k + 1)).all (Parcel.storable cfg rate) = true := by
      intro hall
      rw [List.all_eq_true.mp hall p hp] at hbad
      cases hbad
    rw [leftover_of_not_all hnot] at hrest
    simp only [RunPoint.Ordered, unpriced_of_parcels hparcels, hrest]
  | finished hparcels =>
    simp only [RunPoint.Ordered, unpriced_of_parcels hparcels]
    exact h

/-- In the order of the rows: all of them are storable, or the refused ones come last and the others
fill their batches. -/
def StorableFirst (cfg : DeliverySettings) (rate : Decimal) (rows : List Parcel) : Prop :=
  (∀ p ∈ rows, p.storable cfg rate = true) ∨
    cfg.batchSize ∣ (rows.takeWhile (Parcel.storable cfg rate)).length ∧
      ∀ p ∈ rows.dropWhile (Parcel.storable cfg rate), p.storable cfg rate = false

end Loop

/-! ## Whole runs -/

section Runs

variable {cfg : DeliverySettings} {i : ℕ} {today : String} {attempts : List (Option Decimal)}
  {rate : Decimal} {loop : List JobMove} {s s' : JobState}

/-- The run gets to its loop with the table as it was. -/
theorem RunsAlone.enters (h : RunsAlone cfg i today attempts rate loop s s') :
    ∃ s₁ s₂, (jobSystem cfg).step s (.setNx i) = some s₁ ∧
      (jobSystem cfg).step s₁ (.readRate i today attempts) = some s₂ ∧
      (jobSystem cfg).run s₂ loop = some s' ∧ s₂.runs[i]? = some (.fetchUnpriced rate 0) ∧
      s₂.parcels = s.parcels := by
  obtain ⟨s₁, hs₁, hrun₁⟩ := System.run_cons_eq_some.mp h.run
  obtain ⟨s₂, hs₂, hrun₂⟩ := System.run_cons_eq_some.mp hrun₁
  refine ⟨s₁, s₂, hs₁, hs₂, hrun₂, ?_⟩
  cases jobStep_of_step hs₁ with
  | skipped hpt hheld => exact nomatch h.free.symm.trans hheld
  | acquired hpt hfree =>
    obtain ⟨hlt, -⟩ := List.getElem?_eq_some_iff.mp hpt
    cases jobStep_of_step hs₂ with
    | rateFailed hpt' hrate => exact nomatch h.rated.symm.trans (congrArg Prod.fst hrate)
    | rateRead hpt' hrate =>
      cases h.rated.symm.trans (congrArg Prod.fst hrate)
      refine ⟨List.getElem?_set_self ?_, rfl⟩
      change i < (s.runs.set i _).length
      rw [List.length_set]
      exact hlt

/-- A loop that comes to its end has stopped at a refused batch or has found no unpriced row. -/
theorem RunPoint.InLoop.of_ended {pt : RunPoint} (hin : pt.InLoop cfg rate s)
    (hended : pt.ended = true) : (∃ e, pt = .raised e) ∨ ∃ updated, pt = .returned updated := by
  cases pt with
  | raised e => exact Or.inl ⟨e, rfl⟩
  | returned updated => exact Or.inr ⟨updated, rfl⟩
  | interrupted => exact hin.elim
  | _ => cases hended

section Loop

variable {pt : RunPoint} (hown : ∀ l ∈ loop, l.ofLoop i = true)
  (hpt : s.runs[i]? = some (.fetchUnpriced rate 0)) (hrun : (jobSystem cfg).run s loop = some s')
  (hpt' : s'.runs[i]? = some pt) (hended : pt.ended = true)

include hown hpt hrun

/-- After a refused parcel the table stays as it is: what is left then is left at the end. -/
theorem badLast_of_left (hbad : ∀ p ∈ s'.unpriced, p.storable cfg rate = false) :
    (jobSystem cfg).Steps (BadLast cfg rate) s loop := by
  refine System.steps_iff_split.mpr ?_
  rintro before l after s₁ s₂ rfl hbefore hstep
  obtain ⟨s₁', hbefore', hrest⟩ := System.run_append_eq_some.mp hrun
  cases hbefore.symm.trans hbefore'
  obtain ⟨s₂', hstep', hafter⟩ := System.run_cons_eq_some.mp hrest
  cases hstep.symm.trans hstep'
  cases l with
  | select j batch =>
    intro hbatchBad
    obtain ⟨pt₁, hpt₁, hin₁, -⟩ := loop_preserves (I := fun _ _ => True)
      (fun _ _ _ _ _ _ _ => trivial) (fun l hl => hown l (List.mem_append_left _ hl)) hpt rfl
      trivial hbefore
    obtain ⟨pt₂, hpt₂, hloop⟩ := loopStep_of_step (jobStep_of_step hstep)
      (hown _ (List.mem_append_right _ List.mem_cons_self)) hpt₁ hin₁
    have hstuck : RunPoint.Stuck cfg rate s₁.parcels s₂ pt₂ := by
      cases hloop with
      | selected hbatch hne hparcels => exact ⟨hparcels, Or.inl ⟨_, _, rfl, hbatchBad⟩⟩
      | drained hbatch hparcels =>
        obtain ⟨p, hp, -⟩ := hbatchBad
        cases hp
    obtain ⟨pt₃, -, -, hend, -⟩ := loop_preserves (I := RunPoint.Stuck cfg rate s₁.parcels)
      (fun _ _ _ _ _ hI hloop => hloop.stuck hI)
      (fun l hl => hown l (List.mem_append_right _ (List.mem_cons_of_mem _ hl))) hpt₂
      hloop.inLoop hstuck hafter
    rw [← unpriced_of_parcels hend]
    exact hbad
  | _ => trivial

include hpt' hended

/-- A run that selects refused parcels last leaves nothing else. -/
theorem left_of_badLast (hdrained : pt.drained = true → s'.unpriced = [])
    (hguard : (jobSystem cfg).Steps (BadLast cfg rate) s loop) :
    ∀ p ∈ s'.unpriced, p.storable cfg rate = false := by
  obtain ⟨pt₁, hpt₁, hin, honly⟩ := loop_invariant
    (I := fun s pt => RunPoint.OnlyBad cfg rate s pt)
    (fun _ _ _ _ _ hI hA hloop => hloop.onlyBad hI hA) hown hguard hpt rfl trivial hrun
  cases hpt'.symm.trans hpt₁
  obtain ⟨e, rfl⟩ | ⟨updated, rfl⟩ := hin.of_ended hended
  · exact honly
  · rw [hdrained rfl]
    exact fun p hp => absurd hp List.not_mem_nil

/-- **In the order of the table the run leaves what `leftover` says.** -/
theorem left_of_tableOrder {k : ℕ} (hk : cfg.batchSize = k + 1)
    (horder : (jobSystem cfg).Steps (InTableOrder cfg) s loop) :
    s'.unpriced = leftover (Parcel.storable cfg rate) k s.unpriced := by
  obtain ⟨pt₁, hpt₁, hin, hordered⟩ := loop_invariant
    (I := fun s' pt => RunPoint.Ordered cfg rate k
      (leftover (Parcel.storable cfg rate) k s.unpriced) s' pt)
    (fun _ _ _ _ _ hI hA hloop => hloop.ordered hk hI hA) hown horder hpt rfl rfl hrun
  cases hpt'.symm.trans hpt₁
  obtain ⟨e, rfl⟩ | ⟨updated, rfl⟩ := hin.of_ended hended
  · exact hordered
  · exact hordered

end Loop

/-- **Exactly when one run prices every storable parcel**: whatever rows its `SELECT`s return, when
they return a refused parcel only after all storable ones; where they keep to the order of
the table, when the storable parcels come first and fill their batches. -/
theorem bad_parcel_starves_iff (cfg : DeliverySettings) (i : ℕ) (today : String)
    (attempts : List (Option Decimal)) (rate : Decimal) (loop : List JobMove) (s s' : JobState)
    (hB : 1 ≤ cfg.batchSize) (h : RunsAlone cfg i today attempts rate loop s s') :
    (PricesStorable cfg rate s s' ↔ (jobSystem cfg).Steps (BadLast cfg rate) s
        (.setNx i :: .readRate i today attempts :: loop)) ∧
      ((jobSystem cfg).Steps (InTableOrder cfg) s
          (.setNx i :: .readRate i today attempts :: loop) →
        (PricesStorable cfg rate s s' ↔ StorableFirst cfg rate s.unpriced)) := by
  obtain ⟨s₁, s₂, hs₁, hs₂, hrun, hpt, hparcels⟩ := h.enters
  obtain ⟨k, hk⟩ : ∃ k, cfg.batchSize = k + 1 := ⟨cfg.batchSize - 1, by omega⟩
  obtain ⟨pt, hpt', hended⟩ := h.ended
  have hunpriced : s₂.unpriced = s.unpriced := unpriced_of_parcels hparcels
  have hstart : LoopProgress cfg rate s s₂ (.fetchUnpriced rate 0) :=
    ⟨fun p hp => Or.inl (hunpriced ▸ hp), fun p hp => hunpriced ▸ hp, nofun⟩
  obtain ⟨pt₁, hpt₁, -, hprogress⟩ := loop_preserves (I := LoopProgress cfg rate s)
    (fun _ _ _ _ _ hI hloop => hI.step hB hloop) h.own hpt rfl hstart hrun
  cases hpt'.symm.trans hpt₁
  -- the guards speak of `SELECT`s only
  have hskip : ∀ {Q : JobState → JobMove → JobState → Prop}, Q s (.setNx i) s₁ →
      Q s₁ (.readRate i today attempts) s₂ → ((jobSystem cfg).Steps Q s
        (.setNx i :: .readRate i today attempts :: loop) ↔ (jobSystem cfg).Steps Q s₂ loop) := by
    intro Q hq₁ hq₂
    rw [System.steps_cons_of_step hs₁, System.steps_cons_of_step hs₂]
    exact ⟨fun hsteps => hsteps.2.2, fun hsteps => ⟨hq₁, hq₂, hsteps⟩⟩
  rw [hprogress.pricesStorable_iff, hskip (Q := BadLast cfg rate) trivial trivial,
    hskip (Q := InTableOrder cfg) trivial trivial]
  refine ⟨⟨badLast_of_left h.own hpt hrun, ?_⟩, fun horder => ?_⟩
  · exact left_of_badLast h.own hpt hrun hpt' hended hprogress.drained
  · rw [left_of_tableOrder h.own hpt hrun hpt' hended hk horder, hunpriced, leftover_bad_iff,
      StorableFirst, hk]
    rfl

end Runs

/-! ## Sample runs -/

/-- A small parcel before one whose cost is out of range at 100 rubles; a run is about to start. -/
def mixedParcels : JobState where
  parcels := ⟨[sampleParcel "parcel-2", heaviestParcel], by decide⟩
  lock := false
  rates := []
  lastRunUpdated := none
  lastRunAt := none
  recalcParcels := 0
  runs := [.acquireLock]

/-- Batches of one parcel, in the order of the table. -/
def loopOfOne : List JobMove :=
  [.select 0 [sampleParcel "parcel-2"], .commit 0, .select 0 [heaviestParcel], .commit 0]

/-- The storable parcel fills a batch of its own: it is priced before the run raises. -/
theorem bad_parcel_starves_iff_first :
    ∃ s', (PricesStorable { DeliverySettings.default with batchSize := 1 } ⟨100, 0⟩ mixedParcels s' ↔
        (jobSystem { DeliverySettings.default with batchSize := 1 }).Steps
          (BadLast { DeliverySettings.default with batchSize := 1 } ⟨100, 0⟩) mixedParcels
          (.setNx 0 :: .readRate 0 "2025-01-01" [some ⟨100, 0⟩] :: loopOfOne)) ∧
      ((jobSystem { DeliverySettings.default with batchSize := 1 }).Steps
          (InTableOrder { DeliverySettings.default with batchSize := 1 }) mixedParcels
          (.setNx 0 :: .readRate 0 "2025-01-01" [some ⟨100, 0⟩] :: loopOfOne) →
        (PricesStorable { DeliverySettings.default with batchSize := 1 } ⟨100, 0⟩ mixedParcels s' ↔
          StorableFirst { DeliverySettings.default with batchSize := 1 } ⟨100, 0⟩
            mixedParcels.unpriced)) := by
  refine ⟨_, bad_parcel_starves_iff { DeliverySettings.default with batchSize := 1 } 0 "2025-01-01"
    [some ⟨100, 0⟩] ⟨100, 0⟩ loopOfOne mixedParcels _ (by decide)
    ⟨rfl, rfl, rfl, rfl, by decide, _, rfl, rfl⟩⟩

/-- With the default settings both parcels are in one batch: it is refused, and the small parcel
stays unpriced. -/
theorem bad_parcel_starves :
    ∃ s', RunsAlone .default 0 "2025-01-01" [some ⟨100, 0⟩] ⟨100, 0⟩
        [.select 0 mixedParcels.unpriced, .commit 0] mixedParcels s' ∧
      s'.runs = [.raised .dataError] ∧ sampleParcel "parcel-2" ∈ s'.unpriced ∧
      ((sampleParcel "parcel-2").cost .default ⟨100, 0⟩).isSome = true ∧
      ¬ PricesStorable .default ⟨100, 0⟩ mixedParcels s' := by
  have hunpriced : sampleParcel "parcel-2" ∈ mixedParcels.unpriced := by decide
  refine ⟨{ mixedParcels with
    lock := true, rates := [(rateKey "2025-01-01", ⟨100, 0⟩)], runs := [.raised .dataError] },
    ⟨rfl, rfl, rfl, rfl, by decide, _, rfl, rfl⟩, rfl, hunpriced, by decide, fun hprices => ?_⟩
  have hrow := hprices _ hunpriced ⟨⟨6000, by decide⟩, by decide⟩ (by decide)
  revert hrow
  decide

end ParcelDelivery
