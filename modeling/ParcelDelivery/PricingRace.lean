import ParcelDelivery.PricingCount

/-!
# Two pricing runs on one batch

A batch is committed by primary key, and the `UPDATE` does not ask again whether the
rows are unpriced. Prices are final and the counts are right as long as every commit
finds its batch unpriced, and a run that breaks off has counted nothing
(`price_final_iff`). While the lock of a run in progress is left alone, no other
run can get between a `SELECT` and its commit (`commitsFresh_of_lock`).
-/

namespace ParcelDelivery

open Relational DecimalArith TransitionSystem JobState

/-- The guard of a move. A batch that is committed is still unpriced in the table; a run
whose batch is refused, or that is interrupted, has counted nothing so far. -/
structure CommitsFresh (cfg : DeliverySettings) (s : JobState) (l : JobMove) (_ : JobState) :
    Prop where
  fresh : ∀ i rate updated batch costs, l = .commit i →
    s.runs[i]? = some (.commitBatch rate updated batch) →
    batchCosts cfg rate batch = some costs →
    ∀ r ∈ s.parcels.rows, r.id ∈ batch.map Parcel.id → r.priced = false
  refused : ∀ i rate updated batch, l = .commit i →
    s.runs[i]? = some (.commitBatch rate updated batch) →
    batchCosts cfg rate batch = none → updated = 0
  interrupted : ∀ i pt, l = .interrupt i → s.runs[i]? = some pt → pt.counted = 0

/-- Priced rows stay as they are, and the runs have counted as many parcels as went from
`NULL` to a price since `s₀`. -/
structure PriceFinal (s₀ s : JobState) (_ : JobMove) (s' : JobState) : Prop where
  kept : ∀ r ∈ s.parcels.rows, r.priced = true → r ∈ s'.parcels.rows
  tally : s'.counted = newlyPriced s₀ s'

/-- The invariant of a run whose prices have been final so far. -/
structure Settled (s₀ s : JobState) : Prop where
  known : BatchesKnown s
  grows : Grows s₀ s
  tally : s.counted = newlyPriced s₀ s

section Steps

variable {cfg : DeliverySettings} {s₀ s s' : JobState} {l : JobMove}

theorem Settled.start (h : s.runs = []) : Settled s s := by
  refine ⟨.of_idle (.of_runs_nil h), .refl s, ?_⟩
  have hadd := newlyPriced_add (Grows.refl s)
  have hzero : s.counted = 0 := by
    rw [counted, h]
    rfl
  omega

/-- The guard of a commit that goes through. -/
theorem commitsFresh_committed {i : ℕ} {rate : Decimal} {updated : ℕ} {batch : List Parcel}
    {costs : List (String × Money)} (hpt : s.runs[i]? = some (.commitBatch rate updated batch))
    (hcosts : batchCosts cfg rate batch = some costs) : CommitsFresh cfg s (.commit i) s' ↔
      ∀ r ∈ s.parcels.rows, r.id ∈ batch.map Parcel.id → r.priced = false := by
  refine ⟨fun hguard => hguard.fresh i rate updated batch costs rfl hpt hcosts,
    fun hfresh => ⟨?_, ?_, nofun⟩⟩
  · rintro i' rate' updated' batch' costs' hl hpt' -
    cases hl
    cases hpt.symm.trans hpt'
    exact hfresh
  · rintro i' rate' updated' batch' hl hpt' hnone
    cases hl
    cases hpt.symm.trans hpt'
    cases hcosts.symm.trans hnone

/-- The guard of a commit that is refused. -/
theorem commitsFresh_refused {i : ℕ} {rate : Decimal} {updated : ℕ} {batch : List Parcel}
    (hpt : s.runs[i]? = some (.commitBatch rate updated batch))
    (hcosts : batchCosts cfg rate batch = none) :
    CommitsFresh cfg s (.commit i) s' ↔ updated = 0 := by
  refine ⟨fun hguard => hguard.refused i rate updated batch rfl hpt hcosts,
    fun hzero => ⟨?_, ?_, nofun⟩⟩
  · rintro i' rate' updated' batch' costs' hl hpt' hsome
    cases hl
    cases hpt.symm.trans hpt'
    cases hcosts.symm.trans hsome
  · rintro i' rate' updated' batch' hl hpt' -
    cases hl
    cases hpt.symm.trans hpt'
    exact hzero

/-- The guard of an interruption. -/
theorem commitsFresh_interrupted {i : ℕ} {pt : RunPoint} (hpt : s.runs[i]? = some pt) :
    CommitsFresh cfg s (.interrupt i) s' ↔ pt.counted = 0 := by
  refine ⟨fun hguard => hguard.interrupted i pt rfl hpt, fun hzero => ⟨nofun, nofun, ?_⟩⟩
  rintro i' pt' hl hpt'
  cases hl
  cases hpt.symm.trans hpt'
  exact hzero

/-- A step keeps the tally exactly when it meets the guard. -/
theorem commitsFresh_iff_tally (hs : Settled s₀ s) (h : JobStep cfg s l s') :
    CommitsFresh cfg s l s' ↔ s'.counted = newlyPriced s₀ s' := by
  have hbefore := newlyPriced_add hs.grows
  have hafter := newlyPriced_add (hs.grows.trans (grows_of_step hs.known h))
  have htally := hs.tally
  cases tally_of_step h with
  | committed hl hpt hcosts hrows hcounted =>
    rename_i i rate updated batch costs
    obtain ⟨-, hiff⟩ := pricedCount_commit hcosts (hs.known i rate updated batch hpt)
    rw [← hrows] at hiff
    change s'.pricedCount = s.pricedCount + _ ↔ _ at hiff
    have hsame : s'.counted = newlyPriced s₀ s' ↔
        s'.pricedCount = s.pricedCount + batch.length := by omega
    rw [hsame, hiff, hl]
    exact commitsFresh_committed hpt hcosts
  | refused hl hpt hcosts hrows hcounted =>
    rename_i i rate updated batch
    have hpriced := pricedCount_of_parcels hrows
    have hsame : s'.counted = newlyPriced s₀ s' ↔ updated = 0 := by omega
    rw [hsame, hl]
    exact commitsFresh_refused hpt hcosts
  | interrupted hl hpt hrows hcounted =>
    rename_i i pt
    have hpriced := pricedCount_of_parcels hrows
    have hsame : s'.counted = newlyPriced s₀ s' ↔ pt.counted = 0 := by omega
    rw [hsame, hl]
    exact commitsFresh_interrupted hpt
  | other hl hl' hpriced hcounted =>
    have hsame : s'.counted = newlyPriced s₀ s' := by omega
    refine iff_of_true ⟨?_, ?_, ?_⟩ hsame
    · exact fun i _ _ _ _ heq => absurd heq (hl i)
    · exact fun i _ _ _ heq => absurd heq (hl i)
    · exact fun i _ heq => absurd heq (hl' i)

/-- A commit of an unpriced batch leaves the priced rows alone. -/
theorem kept_of_fresh (hknown : BatchesKnown s) (h : JobStep cfg s l s')
    (hguard : CommitsFresh cfg s l s') :
    ∀ r ∈ s.parcels.rows, r.priced = true → r ∈ s'.parcels.rows := by
  intro r hr hpriced
  obtain ⟨r', hr', hrow⟩ := row_of_step hknown h hr
  cases hrow with
  | same => exact hr'
  | priced hl hpt hcosts hbatch _ =>
    rw [hguard.fresh _ _ _ _ _ hl hpt hcosts r hr hbatch] at hpriced
    cases hpriced

/-- **Exact guard of a step.** -/
theorem commitsFresh_iff (hs : Settled s₀ s) (h : JobStep cfg s l s') :
    CommitsFresh cfg s l s' ↔ PriceFinal s₀ s l s' := by
  refine ⟨?_, ?_⟩
  · intro hguard
    exact ⟨kept_of_fresh hs.known h hguard, (commitsFresh_iff_tally hs h).mp hguard⟩
  · intro hfinal
    exact (commitsFresh_iff_tally hs h).mpr hfinal.tally

theorem Settled.step (hs : Settled s₀ s) (h : JobStep cfg s l s')
    (hguard : CommitsFresh cfg s l s') : Settled s₀ s' where
  known := hs.known.step h
  grows := hs.grows.trans (grows_of_step hs.known h)
  tally := (commitsFresh_iff_tally hs h).mp hguard

end Steps

/-! ## Under the lock -/

/-- The costs of a batch that is committed fit the column, and no run is interrupted. -/
def Unbroken (cfg : DeliverySettings) (s : JobState) (l : JobMove) (_ : JobState) : Prop :=
  (∀ i rate updated batch, l = .commit i → s.runs[i]? = some (.commitBatch rate updated batch) →
    batchCosts cfg rate batch ≠ none) ∧ ∀ i, l ≠ .interrupt i

/-- **What the lock is for**: while the key of a run in progress is neither deleted nor
expires, every commit finds its batch unpriced. -/
theorem commitsFresh_of_lock (cfg : DeliverySettings) (s : JobState) (moves : List JobMove)
    (hstart : s.runs = [])
    (h : (jobSystem cfg).Steps (fun s l s' => LockUndisturbed s l s' ∧ Unbroken cfg s l s') s
      moves) :
    (jobSystem cfg).Steps (CommitsFresh cfg) s moves := by
  refine System.steps_of_invariant (I := fun s => (BatchesKnown s ∧ BatchesUnpriced s) ∧
    s.MutualExclusion ∧ ∀ j, s.Running j → s.lock = true) ?_ ?_ h
  · rintro s l s' ⟨⟨hknown, hunpriced⟩, hmutex, hlocked⟩ hs ⟨hundisturbed, hfit, hnot⟩
    have hstep := jobStep_of_step hs
    have hkept : LockKept s l s' := fun i _ ⟨j, hj⟩ => hlocked j hj
    refine ⟨⟨?_, ?_, ?_⟩, ⟨hknown.step hstep, hunpriced.step hknown hmutex hstep⟩,
      (lockKept_iff hmutex hstep).mp hkept, locked_step hstep hlocked hundisturbed⟩
    · exact fun i rate updated batch _ _ hpt _ => hunpriced i rate updated batch hpt
    · exact fun i rate updated batch hl hpt hnone => absurd hnone (hfit i rate updated batch hl hpt)
    · exact fun i _ hl _ => absurd hl (hnot i)
  · have hidle : s.Idle := .of_runs_nil hstart
    have hnot : ∀ j, ¬ s.Running j := by
      rintro j ⟨pt, hpt, -⟩
      rw [hstart] at hpt
      cases hpt
    exact ⟨⟨.of_idle hidle, .of_idle hidle⟩, fun i _ hi _ => absurd hi (hnot i),
      fun j hj => absurd hj (hnot j)⟩

/-! ## Whole runs -/

/-- **Prices are final exactly as long as commits are fresh.** In every sequence of moves
from a job without runs: priced rows stay as they are and the counts of the runs add
up at every step, exactly when every commit finds its batch unpriced and no run breaks off
after a commit. When all runs have ended then, the numbers they have returned add up
to the number of parcels that went from `NULL` to a price. -/
theorem price_final_iff (cfg : DeliverySettings) (s : JobState) (moves : List JobMove)
    (hstart : s.runs = []) :
    ((jobSystem cfg).Steps (CommitsFresh cfg) s moves ↔
        (jobSystem cfg).Steps (PriceFinal s) s moves) ∧
      ∀ s', (jobSystem cfg).run s moves = some s' →
        (jobSystem cfg).Steps (CommitsFresh cfg) s moves →
        (∀ r ∈ s.parcels.rows, r.priced = true → r ∈ s'.parcels.rows) ∧
          ((∀ pt ∈ s'.runs, pt.ended = true) → s'.returnedTotal = newlyPriced s s') := by
  refine ⟨?_, ?_⟩
  · refine System.steps_iff_guard (I := Settled s) ?_ ?_ (.start hstart)
    · intro s₁ l s₂ hs hstep
      exact commitsFresh_iff hs (jobStep_of_step hstep)
    · intro s₁ l s₂ hs hstep hguard
      exact hs.step (jobStep_of_step hstep) hguard
  · intro s' hrun hguard
    refine ⟨?_, ?_⟩
    · intro r hr hpriced
      refine (System.run_invariant (I := fun s₁ => Settled s s₁ ∧ r ∈ s₁.parcels.rows) ?_
        ⟨.start hstart, hr⟩ hguard hrun).2
      rintro s₁ l s₂ ⟨hs, hr⟩ hstep hguard
      have hstep := jobStep_of_step hstep
      exact ⟨hs.step hstep hguard, kept_of_fresh hs.known hstep hguard r hr hpriced⟩
    · intro hended
      have hs' := System.run_invariant (I := Settled s)
        (fun s₁ l s₂ hs hstep hguard => hs.step (jobStep_of_step hstep) hguard)
        (.start hstart) hguard hrun
      rw [returnedTotal_of_ended hended, hs'.tally]

/-! ## A race -/

/-- A table with one unpriced parcel. -/
def raceState : JobState :=
  { JobState.init with parcels := Table.singleton (sampleParcel "parcel-1") }

/-- A scheduled run that prices the parcel. -/
def scheduledMoves : List JobMove :=
  [.tick, .setNx 0, .readRate 0 "2025-01-01" [some ⟨90, 0⟩], .select 0 [sampleParcel "parcel-1"], .commit 0,
    .select 0 [], .finish 0 0]

/-- One run counts the one parcel that it prices. -/
theorem price_final_iff_scheduled :
    ((jobSystem .default).Steps (CommitsFresh .default) raceState scheduledMoves ↔
        (jobSystem .default).Steps (PriceFinal raceState) raceState scheduledMoves) ∧
      ∀ s', (jobSystem .default).run raceState scheduledMoves = some s' →
        (jobSystem .default).Steps (CommitsFresh .default) raceState scheduledMoves →
        (∀ r ∈ raceState.parcels.rows, r.priced = true → r ∈ s'.parcels.rows) ∧
          ((∀ pt ∈ s'.runs, pt.ended = true) → s'.returnedTotal = newlyPriced raceState s') :=
  price_final_iff .default raceState scheduledMoves rfl

/-- A scheduled run reads the rate of one day and its batch; a manual one takes the lock
away, reads the rate of the next day and the same batch; the first one commits. -/
def racingMoves : List JobMove :=
  [.tick, .setNx 0, .readRate 0 "2025-01-01" [some ⟨90, 0⟩], .select 0 [sampleParcel "parcel-1"],
    .manual, .delete 1, .setNx 1, .readRate 1 "2025-01-02" [some ⟨100, 0⟩],
    .select 1 [sampleParcel "parcel-1"], .commit 0]

/-- The second commit replaces the price of the first, and both runs count the parcel. -/
theorem racing_runs_reprice :
    ∃ s₁ s₂, (jobSystem .default).run raceState racingMoves = some s₁ ∧
      (jobSystem .default).run s₁
        [.select 0 [], .finish 0 0, .commit 1, .select 1 [], .finish 1 0] = some s₂ ∧
      s₁.parcels.rows.map (fun r => r.deliveryCostRub.map fun cost => cost.1.units) =
        [some 5400] ∧
      s₂.parcels.rows.map (fun r => r.deliveryCostRub.map fun cost => cost.1.units) =
        [some 6000] ∧
      (∀ pt ∈ s₂.runs, pt.ended = true) ∧ s₂.returnedTotal = 2 ∧ newlyPriced raceState s₂ = 1 :=
  ⟨_, _, rfl, rfl, by decide, by decide, by decide, by decide, by decide⟩

end ParcelDelivery
