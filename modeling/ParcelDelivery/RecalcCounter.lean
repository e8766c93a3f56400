import ParcelDelivery.PricingRuns

/-!
# The counter of priced parcels

A run commits its batches one by one and adds their number to `DELIVERY_RECALC_PARCELS`
once, behind its loop. A run that breaks off between two batches leaves priced
parcels behind that nothing counts (`JobState.dropped`), and no later run makes up for them:
over runs that do not overlap, the counter grows by the parcels that went from `NULL` to
a price, less those that were dropped (`counter_of_run`).
-/

namespace ParcelDelivery

open DecimalArith TransitionSystem

/-! ## Runs that break off -/

/-- The run that a move breaks off: it is interrupted, or its batch is refused. -/
def JobState.brokenOff (cfg : DeliverySettings) (s : JobState) : JobMove → Option ℕ
  | .interrupt i => some i
  | .commit i =>
    match s.runs[i]? with
    | some (.commitBatch rate _ batch) => if batchCosts cfg rate batch = none then some i else none
    | _ => none
  | _ => none

/-- What the run that a move breaks off has counted. -/
def JobState.dropped (cfg : DeliverySettings) (s : JobState) (l : JobMove) : ℕ :=
  (s.brokenOff cfg l).elim 0 s.countedBy

/-- The guard of a move: a run that breaks off has committed no batch. -/
def BreaksOffEmpty (cfg : DeliverySettings) (s : JobState) (l : JobMove) (_ : JobState) : Prop :=
  ∀ i ∈ s.brokenOff cfg l, s.countedBy i = 0

instance (cfg : DeliverySettings) (s : JobState) (l : JobMove) (s' : JobState) :
    Decidable (BreaksOffEmpty cfg s l s') :=
  inferInstanceAs (Decidable (∀ i ∈ s.brokenOff cfg l, _))

section Steps

variable {cfg : DeliverySettings} {s s' : JobState} {l : JobMove} {i : ℕ} {pt pt' : RunPoint}

theorem dropped_eq_zero_iff : s.dropped cfg l = 0 ↔ BreaksOffEmpty cfg s l s' := by
  rw [JobState.dropped, BreaksOffEmpty]
  cases s.brokenOff cfg l <;> simp

theorem brokenOff_refused {rate : Decimal} {updated : ℕ} {batch : List Parcel}
    (hpt : s.runs[i]? = some (.commitBatch rate updated batch))
    (hcosts : batchCosts cfg rate batch = none) : s.brokenOff cfg (.commit i) = some i := by
  simp only [JobState.brokenOff, hpt, hcosts, if_true]

theorem brokenOff_committed {rate : Decimal} {updated : ℕ} {batch : List Parcel}
    {costs : List (String × Money)} (hpt : s.runs[i]? = some (.commitBatch rate updated batch))
    (hcosts : batchCosts cfg rate batch = some costs) : s.brokenOff cfg (.commit i) = none := by
  simp only [JobState.brokenOff, hpt, hcosts, reduceCtorEq, if_false]

/-- The run that breaks off had not ended before, and has ended now. -/
theorem ended_of_brokenOff (h : JobStep cfg s l s') (hi : s.brokenOff cfg l = some i) :
    (∃ pt, s.runs[i]? = some pt ∧ pt.ended = false) ∧
      (∀ pt, s'.runs[i]? = some pt → pt.ended = true) ∧ l.starts = false := by
  have hset : ∀ {s₁ : JobState} {j : ℕ} {pt pt' : RunPoint}, pt'.ended = true →
      (s₁.goto j pt').runs[j]? = some pt → pt.ended = true := by
    intro s₁ j pt pt' hended hpt
    rw [JobState.goto, List.getElem?_set_self'] at hpt
    obtain ⟨_, -, rfl⟩ := Option.map_eq_some_iff.mp hpt
    exact hended
  cases h with
  | refused hpt hcosts =>
    obtain rfl := Option.some.inj ((brokenOff_refused hpt hcosts).symm.trans hi)
    exact ⟨⟨_, hpt, rfl⟩, fun pt => hset rfl, rfl⟩
  | committed hpt hcosts _ => cases (brokenOff_committed hpt hcosts).symm.trans hi
  | interrupted hpt hlive =>
    obtain rfl := Option.some.inj hi
    exact ⟨⟨_, hpt, hlive⟩, fun pt => hset rfl, rfl⟩
  | tick | manual | deleted _ | acquired _ _ | skipped _ _ | rateRead _ _ | rateFailed _ _
  | selected _ _ _ | drained _ _ | finished _ | lockExpired | rateExpired | created _ _ => cases hi

/-- When the one run in progress breaks off, all runs have ended. -/
theorem idle_of_brokenOff (hs : Sequential s) (h : JobStep cfg s l s')
    (hi : s.brokenOff cfg l = some i) : s'.Idle := by
  obtain ⟨⟨pt, hpt, hlive⟩, hended, hstarts⟩ := ended_of_brokenOff h hi
  intro pt' hmem
  obtain ⟨j, hpt'⟩ := List.mem_iff_getElem?.mp hmem
  cases hlive' : pt'.ended with
  | true => rfl
  | false =>
    rcases live_of_step h hpt' hlive' with ⟨pt₀, hpt₀, hlive₀⟩ | ⟨-, hl⟩
    · obtain rfl := hs.alone j i pt₀ pt hpt₀ hpt hlive₀ hlive
      rw [hended pt' hpt'] at hlive'
      cases hlive'
    · rw [hstarts] at hl
      cases hl

end Steps

/-! ## The balance of a step -/

section Balance

variable {cfg : DeliverySettings} {s s' : JobState} {l : JobMove} {i : ℕ} {pt pt' : RunPoint}

theorem returnedTotal_goto (h : s.runs[i]? = some pt) :
    (s.goto i pt').returnedTotal + pt.returnedCount = s.returnedTotal + pt'.returnedCount :=
  JobState.sum_map_set RunPoint.returnedCount h

/-- Where a run goes on from one point to another without returning, the sum stays. -/
theorem returnedTotal_goto_of_zero (h : s.runs[i]? = some pt) (hpt : pt.returnedCount = 0)
    (hpt' : pt'.returnedCount = 0) : (s.goto i pt').returnedTotal = s.returnedTotal := by
  have hgoto : (s.goto i pt').returnedTotal + _ = _ := returnedTotal_goto h
  omega

theorem returnedTotal_concat (h : pt.returnedCount = 0) :
    ({ s with runs := s.runs ++ [pt] } : JobState).returnedTotal = s.returnedTotal :=
  JobState.sum_map_concat RunPoint.returnedCount s.runs h

/-- **The counter grows by what is returned.** -/
theorem recalcParcels_of_step (h : JobStep cfg s l s') :
    s'.recalcParcels + s.returnedTotal = s.recalcParcels + s'.returnedTotal := by
  have hsame : s'.recalcParcels = s.recalcParcels → s'.returnedTotal = s.returnedTotal →
      s'.recalcParcels + s.returnedTotal = s.recalcParcels + s'.returnedTotal := by
    intro hcounter hreturned
    rw [hcounter, hreturned]
  cases h with
  | finished hpt =>
    rename_i i now updated
    have hgoto : (s.goto i (.returned updated)).returnedTotal + 0 = s.returnedTotal + updated :=
      returnedTotal_goto hpt
    change s.recalcParcels + updated + s.returnedTotal =
      s.recalcParcels + (s.goto i (.returned updated)).returnedTotal
    omega
  | interrupted hpt hlive =>
    rename_i i pt
    refine hsame rfl (returnedTotal_goto_of_zero hpt ?_ rfl)
    cases pt <;> first | rfl | cases hlive
  | tick | manual => exact hsame rfl (returnedTotal_concat rfl)
  | deleted hpt | acquired hpt _ | skipped hpt _ | rateRead hpt _ | rateFailed hpt _
  | selected hpt _ _ | drained hpt _ | committed hpt _ _ | refused hpt _ =>
    exact hsame rfl (returnedTotal_goto_of_zero hpt rfl rfl)
  | lockExpired | rateExpired | created _ _ => exact hsame rfl rfl

/-- **The runs count what they price**, except for what breaks off. -/
theorem counted_of_step (hs : Sequential s) (h : JobStep cfg s l s') :
    s'.counted + s.pricedCount + s.dropped cfg l = s.counted + s'.pricedCount := by
  cases tally_of_step h with
  | committed hl hpt hcosts hrows hcounted =>
    rename_i i rate updated batch costs
    subst hl
    have hpriced := newlyPriced_commit hs h hpt hcosts
    have hadd := newlyPriced_add (grows_of_step hs.known h)
    rw [JobState.dropped, brokenOff_committed hpt hcosts, Option.elim_none]
    omega
  | refused hl hpt hcosts hrows hcounted =>
    rename_i i rate updated batch
    have hpriced := pricedCount_of_parcels hrows
    have hdropped : s.dropped cfg l = updated := by
      rw [hl, JobState.dropped, brokenOff_refused hpt hcosts]
      exact JobState.countedBy_eq hpt
    omega
  | interrupted hl hpt hrows hcounted =>
    rename_i i pt
    have hpriced := pricedCount_of_parcels hrows
    have hdropped : s.dropped cfg l = pt.counted := by
      rw [hl]
      exact JobState.countedBy_eq hpt
    omega
  | other hl hl' hpriced hcounted =>
    have hnone : s.brokenOff cfg l = none := by
      cases l with
      | commit i => exact absurd rfl (hl i)
      | interrupt i => exact absurd rfl (hl' i)
      | _ => rfl
    rw [JobState.dropped, hnone, Option.elim_none]
    omega

/-- **What the commits of a run add to the priced rows**, when no other run commits. -/
theorem pricedCount_of_step (hknown : BatchesKnown s) (h : JobStep cfg s l s')
    (honly : ∀ j, l = .commit j → j = i) :
    0 + s.pricedCount + movedByStep i s l s' = 0 + s'.pricedCount := by
  have hadd := newlyPriced_add (grows_of_step hknown h)
  cases l with
  | commit j =>
    obtain rfl := honly j rfl
    have hmoved : movedByStep j s (.commit j) s' = newlyPriced s s' := if_pos rfl
    omega
  | _ =>
    cases tally_of_step h with
    | committed hl _ _ _ _ => cases hl
    | refused hl _ _ _ _ => cases hl
    | interrupted _ _ hrows _ =>
      rw [pricedCount_of_parcels hrows]
      rfl
    | other _ _ hpriced _ =>
      rw [hpriced]
      rfl

end Balance

/-! ## The balance of a run -/

section Runs

variable {cfg : DeliverySettings} {s s' : JobState} {moves : List JobMove} {i : ℕ}

theorem grows_of_run (hs : Sequential s) (hno : (jobSystem cfg).Steps NonOverlapping s moves)
    (hrun : (jobSystem cfg).run s moves = some s') : Grows s s' := by
  refine System.run_relation (I := Sequential) Grows.refl Grows.trans ?_ hs hno hrun
  intro s₁ l s₂ hs₁ hstep hno₁
  have hstep := jobStep_of_step hstep
  exact ⟨grows_of_step hs₁.known hstep, hs₁.step hstep hno₁⟩

/-- **The counter over runs that do not overlap**: from when all runs have ended to when all
runs have ended again, it grows by the parcels that went from `NULL` to a price, less those
that were dropped. -/
theorem counter_of_run (hidle : s.Idle) (hidle' : s'.Idle)
    (hno : (jobSystem cfg).Steps NonOverlapping s moves)
    (hrun : (jobSystem cfg).run s moves = some s') :
    s'.recalcParcels + (jobSystem cfg).total (fun s l _ => s.dropped cfg l) s moves =
      s.recalcParcels + newlyPriced s s' := by
  have hs := Sequential.of_idle hidle
  have hbalance : s'.recalcParcels + s'.counted + (s.returnedTotal + s.pricedCount) +
      (jobSystem cfg).total (fun s l _ => s.dropped cfg l) s moves =
        s.recalcParcels + s.counted + (s'.returnedTotal + s'.pricedCount) := by
    refine System.run_balance (I := Sequential) (q := fun s => s.recalcParcels + s.counted)
      (p := fun s => s.returnedTotal + s.pricedCount) ?_ hs hno hrun
    intro s₁ l s₂ hs₁ hstep hno₁
    have hstep := jobStep_of_step hstep
    have hcounter := recalcParcels_of_step hstep
    have hcounted := counted_of_step hs₁ hstep
    exact ⟨by omega, hs₁.step hstep hno₁⟩
  have hadd := newlyPriced_add (grows_of_run hs hno hrun)
  have hreturned := JobState.returnedTotal_of_ended hidle
  have hreturned' := JobState.returnedTotal_of_ended hidle'
  omega

theorem movedBy_eq_total : movedBy cfg i s moves = (jobSystem cfg).total (movedByStep i) s moves := by
  induction moves generalizing s with
  | nil => rfl
  | cons l moves ih =>
    rw [movedBy, System.total]
    cases (jobSystem cfg).step s l with
    | none => rfl
    | some s₁ => exact congrArg _ ih

/-- The runs never become fewer. -/
theorem runs_length_of_run (hrun : (jobSystem cfg).run s moves = some s') :
    s.runs.length ≤ s'.runs.length := by
  refine System.run_relates (r := fun s s' => s.runs.length ≤ s'.runs.length)
    (fun _ => Nat.le_refl _) Nat.le_trans ?_ hrun
  intro s₁ l s₂ hstep
  rcases runs_of_step (jobStep_of_step hstep) with ⟨i, pt, pt', -, -, -, hruns⟩ |
    ⟨-, hruns | ⟨-, hruns⟩ | ⟨-, hruns⟩⟩
  · rw [hruns, List.length_set]
  · rw [hruns]
  · rw [hruns, List.length_append]
    exact Nat.le_add_right _ _
  · rw [hruns, List.length_append]
    exact Nat.le_add_right _ _

/-- Where all runs have ended and one is started, it is the only one that commits. -/
theorem only_commits_of_run (hidle : s.Idle) (hrun : (jobSystem cfg).run s moves = some s')
    (hone : s'.runs.length = s.runs.length + 1) :
    (jobSystem cfg).Steps (fun _ l _ => ∀ j, l = .commit j → j = s.runs.length) s moves := by
  refine System.steps_iff_split.mpr ?_
  rintro before l after s₁ s₂ rfl hbefore hstep j rfl
  obtain ⟨s₃, hbefore', hafter⟩ := System.run_append_eq_some.mp hrun
  cases hbefore.symm.trans hbefore'
  have hlength := runs_length_of_run hafter
  have hpt : ∃ rate updated batch, s₁.runs[j]? = some (.commitBatch rate updated batch) := by
    cases jobStep_of_step hstep with
    | committed hpt _ _ => exact ⟨_, _, _, hpt⟩
    | refused hpt _ => exact ⟨_, _, _, hpt⟩
  obtain ⟨rate, updated, batch, hpt⟩ := hpt
  have hlt : j < s₁.runs.length := (List.getElem?_eq_some_iff.mp hpt).1
  rcases hold : s.runs[j]? with _ | pt
  · have hge := List.getElem?_eq_none_iff.mp hold
    omega
  · have hended := hidle pt (List.mem_of_getElem? hold)
    cases hpt.symm.trans (ended_of_run hold hended hbefore)
    cases hended

/-- What one run moves is what is newly priced while it runs. -/
theorem newlyPriced_of_run (hidle : s.Idle) (hno : (jobSystem cfg).Steps NonOverlapping s moves)
    (hrun : (jobSystem cfg).run s moves = some s') (hone : s'.runs.length = s.runs.length + 1) :
    newlyPriced s s' = movedBy cfg s.runs.length s moves := by
  have hs := Sequential.of_idle hidle
  have hbalance : 0 + s.pricedCount + (jobSystem cfg).total (movedByStep s.runs.length) s moves =
      0 + s'.pricedCount := by
    refine System.run_balance (I := BatchesKnown) (q := fun _ => 0) ?_ hs.known
      (only_commits_of_run hidle hrun hone) hrun
    intro s₁ l s₂ hknown hstep honly
    have hstep := jobStep_of_step hstep
    exact ⟨pricedCount_of_step hknown hstep honly, hknown.step hstep⟩
  have hadd := newlyPriced_add (grows_of_run hs hno hrun)
  rw [← movedBy_eq_total] at hbalance
  omega

end Runs

/-! ## The counter is exact -/

/-- Whenever all runs have ended, the counter has grown by the number of parcels that went from
`NULL` to a price. -/
def CounterExact (cfg : DeliverySettings) (s : JobState) (moves : List JobMove) : Prop :=
  ∀ before after s₁, moves = before ++ after → (jobSystem cfg).run s before = some s₁ → s₁.Idle →
    s₁.recalcParcels = s.recalcParcels + newlyPriced s s₁

theorem breaksOffEmpty_iff {cfg : DeliverySettings} {s : JobState} {moves : List JobMove} :
    (jobSystem cfg).Steps (BreaksOffEmpty cfg) s moves ↔
      (jobSystem cfg).total (fun s l _ => s.dropped cfg l) s moves = 0 := by
  rw [System.total_eq_zero_iff]
  exact ⟨.mono fun _ _ _ => dropped_eq_zero_iff.mpr, .mono fun _ _ _ => dropped_eq_zero_iff.mp⟩

/-- **The counter is exact unless a run breaks off after a commit.** For every table, batch size
and sequence of runs that do not overlap: the counter agrees with the parcels that went from
`NULL` to a price whenever all runs have ended, exactly when every run that breaks off, at a
`SELECT`, at a commit or from outside, has committed no batch before. Over one run, the counter
grows by the parcels that the commits of this run price under the same condition. -/
theorem recalc_counter_iff (cfg : DeliverySettings) (s : JobState) (moves : List JobMove)
    (hidle : s.Idle) (hno : (jobSystem cfg).Steps NonOverlapping s moves) :
    ((jobSystem cfg).Steps (BreaksOffEmpty cfg) s moves ↔ CounterExact cfg s moves) ∧
      ∀ s', (jobSystem cfg).run s moves = some s' → s'.Idle →
        s'.runs.length = s.runs.length + 1 →
        ((jobSystem cfg).Steps (BreaksOffEmpty cfg) s moves ↔
          s'.recalcParcels = s.recalcParcels + movedBy cfg s.runs.length s moves) := by
  refine ⟨⟨?_, ?_⟩, ?_⟩
  · rintro hguard before after s₁ rfl hrun hidle₁
    have hbalance := counter_of_run hidle hidle₁ hno.of_append_left hrun
    rwa [breaksOffEmpty_iff.mp hguard.of_append_left, Nat.add_zero] at hbalance
  · intro hexact
    refine System.steps_iff_split.mpr ?_
    rintro before l after s₁ s₂ rfl hbefore hstep i hi
    have hsplit : before ++ l :: after = before ++ [l] ++ after := by simp
    have hlast : (jobSystem cfg).run s₁ [l] = some s₂ :=
      System.run_cons_eq_some.mpr ⟨s₂, hstep, rfl⟩
    have hrun := System.run_append_eq_some.mpr ⟨s₁, hbefore, hlast⟩
    rw [hsplit] at hno hexact
    -- all runs have ended when this one breaks off, so that the counter is exact there
    have hs₁ := sequential_of_run (.of_idle hidle) hno.of_append_left.of_append_left hbefore
    have hidle₂ := idle_of_brokenOff hs₁ (jobStep_of_step hstep) hi
    have hcounter := hexact _ _ s₂ rfl hrun hidle₂
    have hbalance := counter_of_run hidle hidle₂ hno.of_append_left hrun
    have hzero : (jobSystem cfg).total (fun s l _ => s.dropped cfg l) s (before ++ [l]) = 0 := by
      omega
    have hguard := (breaksOffEmpty_iff.mpr hzero).of_append_right hbefore
    exact (hguard s₂ hstep).1 i hi
  · intro s' hrun hidle' hone
    have hbalance := counter_of_run hidle hidle' hno hrun
    rw [newlyPriced_of_run hidle hno hrun hone] at hbalance
    rw [breaksOffEmpty_iff]
    omega

/-- Batches of one parcel. -/
def onePerBatch : DeliverySettings := { DeliverySettings.default with batchSize := 1 }

/-- A run prices one parcel of two, and its next `SELECT` raises. -/
def brokenOffMoves : List JobMove :=
  [.tick, .setNx 0, .readRate 0 "2025-01-01" [some ⟨90, 0⟩], .select 0 [sampleParcel "parcel-1"],
    .commit 0, .interrupt 0]

/-- The next run prices the other one. -/
def resumedMoves : List JobMove :=
  [.manual, .delete 1, .setNx 1, .readRate 1 "2025-01-01" [], .select 1 [sampleParcel "parcel-2"],
    .commit 1, .select 1 [], .finish 1 0]

theorem recalc_counter_iff_broken_off :
    ((jobSystem onePerBatch).Steps (BreaksOffEmpty onePerBatch) sampleParcels brokenOffMoves ↔
        CounterExact onePerBatch sampleParcels brokenOffMoves) ∧
      ∀ s', (jobSystem onePerBatch).run sampleParcels brokenOffMoves = some s' → s'.Idle →
        s'.runs.length = sampleParcels.runs.length + 1 →
        ((jobSystem onePerBatch).Steps (BreaksOffEmpty onePerBatch) sampleParcels brokenOffMoves ↔
          s'.recalcParcels = sampleParcels.recalcParcels +
            movedBy onePerBatch sampleParcels.runs.length sampleParcels brokenOffMoves) :=
  recalc_counter_iff onePerBatch sampleParcels brokenOffMoves (by decide) (by decide)

/-- One parcel is priced and the counter stays at zero; after the next run two are priced and it
stands at one. -/
theorem priced_parcel_uncounted :
    (jobSystem onePerBatch).Steps NonOverlapping sampleParcels (brokenOffMoves ++ resumedMoves) ∧
      ∃ s₁ s₂, (jobSystem onePerBatch).run sampleParcels brokenOffMoves = some s₁ ∧
        s₁.runs = [.interrupted] ∧ movedBy onePerBatch 0 sampleParcels brokenOffMoves = 1 ∧
        sampleParcels.recalcParcels = 0 ∧ s₁.recalcParcels = 0 ∧
        (jobSystem onePerBatch).run s₁ resumedMoves = some s₂ ∧
        s₂.runs = [.interrupted, .returned 1] ∧ newlyPriced sampleParcels s₂ = 2 ∧
        s₂.recalcParcels = 1 :=
  ⟨by decide, _, _, rfl, by decide, by decide, rfl, rfl, rfl, by decide, by decide, rfl⟩

end ParcelDelivery
