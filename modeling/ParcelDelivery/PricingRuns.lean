import ParcelDelivery.PricingCount

/-!
# Pricing runs one after another

Runs that do not overlap, completed or interrupted at any point, over a table that
may get new parcels at any time. A run in progress is the only one that commits, so its
batch is unpriced when it commits it (`BatchesUnpriced.step`); everything else is
read off from what a step does to the table (`PricesOnce`) and to the run (`PointStep`).
-/

namespace ParcelDelivery

open Relational DecimalArith TransitionSystem

/-! ## Runs that do not overlap -/

/-- A run is started. -/
def JobMove.starts : JobMove → Bool
  | tick => true
  | manual => true
  | _ => false

/-- A run is started only when all runs before it have ended. -/
def NonOverlapping (s : JobState) (l : JobMove) (_ : JobState) : Prop :=
  l.starts = true → ∀ pt ∈ s.runs, pt.ended = true

instance (s : JobState) (l : JobMove) (s' : JobState) : Decidable (NonOverlapping s l s') :=
  inferInstanceAs (Decidable (_ → _))

/-- All costs that a move commits fit the column. -/
def JobState.costsFit (cfg : DeliverySettings) (s : JobState) : JobMove → Bool
  | .commit i =>
    match s.runs[i]? with
    | some (.commitBatch rate _ batch) => batch.all fun p => (p.cost cfg rate).isSome
    | _ => true
  | _ => true

/-- The cost of every parcel of a batch that is committed fits the column. -/
def CostsFit (cfg : DeliverySettings) (s : JobState) (l : JobMove) (_ : JobState) : Prop :=
  s.costsFit cfg l = true

instance (cfg : DeliverySettings) (s : JobState) (l : JobMove) (s' : JobState) :
    Decidable (CostsFit cfg s l s') :=
  inferInstanceAs (Decidable (_ = _))

/-- At most one run has not ended; its batch is in the table and unpriced. -/
structure Sequential (s : JobState) : Prop where
  known : BatchesKnown s
  unpriced : BatchesUnpriced s
  alone : ∀ (i j : ℕ) (pt pt' : RunPoint), s.runs[i]? = some pt → s.runs[j]? = some pt' →
    pt.ended = false → pt'.ended = false → i = j

section Steps

variable {cfg : DeliverySettings} {s s' : JobState} {l : JobMove} {i : ℕ} {pt pt' : RunPoint}

theorem RunPoint.not_ended_of_inProgress (h : pt.inProgress = true) : pt.ended = false := by
  cases pt <;> first | rfl | cases h

theorem Sequential.mutualExclusion (h : Sequential s) : s.MutualExclusion := by
  rintro i j ⟨pt, hpt, hin⟩ ⟨pt', hpt', hin'⟩
  exact h.alone i j pt pt' hpt hpt' (RunPoint.not_ended_of_inProgress hin)
    (RunPoint.not_ended_of_inProgress hin')

theorem PointStep.ended_mono (h : PointStep cfg s i l pt pt') (hended : pt.ended = true) :
    pt' = pt := by
  cases h with
  | stay _ => rfl
  | interrupted hlive =>
    rw [hended] at hlive
    cases hlive
  | deleted | acquired _ | skipped _ | rateRead | rateFailed | selected _ _ | drained _
  | committed _ | refused _ | finished => cases hended

/-- A run that has not ended had not ended before, or is just started. -/
theorem live_of_step (h : JobStep cfg s l s') (hpt' : s'.runs[i]? = some pt')
    (hlive : pt'.ended = false) :
    (∃ pt, s.runs[i]? = some pt ∧ pt.ended = false) ∨
      i = s.runs.length ∧ l.starts = true := by
  rcases point_before_step h hpt' with ⟨pt, hpt, hstep⟩ | ⟨hi, ⟨rfl, -⟩ | ⟨rfl, -⟩⟩
  · refine Or.inl ⟨pt, hpt, ?_⟩
    cases hended : pt.ended with
    | false => rfl
    | true =>
      rw [hstep.ended_mono hended, hended] at hlive
      cases hlive
  · exact Or.inr ⟨hi, rfl⟩
  · exact Or.inr ⟨hi, rfl⟩

theorem Sequential.of_idle (h : s.Idle) : Sequential s :=
  ⟨.of_idle h, .of_idle h, fun _ _ _ _ hpt _ hlive _ => absurd hlive (h.not_live hpt)⟩

/-- **A sequential job stays sequential.** -/
theorem Sequential.step (hs : Sequential s) (h : JobStep cfg s l s')
    (hno : NonOverlapping s l s') : Sequential s' where
  known := hs.known.step h
  unpriced := hs.unpriced.step hs.known hs.mutualExclusion h
  alone := by
    intro i j pt pt' hpt hpt' hlive hlive'
    have hcontra : ∀ {k : ℕ}, (∃ pt, s.runs[k]? = some pt ∧ pt.ended = false) →
        ¬ l.starts = true := by
      rintro k ⟨pt₀, hpt₀, hlive₀⟩ hl
      rw [hno hl pt₀ (List.mem_of_getElem? hpt₀)] at hlive₀
      cases hlive₀
    rcases live_of_step h hpt hlive with hold | ⟨hi, hl⟩
    · rcases live_of_step h hpt' hlive' with hold' | ⟨-, hl⟩
      · obtain ⟨pt₀, hpt₀, hlive₀⟩ := hold
        obtain ⟨pt₁, hpt₁, hlive₁⟩ := hold'
        exact hs.alone i j pt₀ pt₁ hpt₀ hpt₁ hlive₀ hlive₁
      · exact absurd hl (hcontra hold)
    · rcases live_of_step h hpt' hlive' with hold' | ⟨hj, -⟩
      · exact absurd hl (hcontra hold')
      · exact hi.trans hj.symm

end Steps

/-! ## Prices -/

/-- What a move does to the table: a commit of a run sets the cost of unpriced rows of
its batch, at the rate of the run; priced rows and all other fields stay; a created parcel
comes in unpriced. -/
def PricesOnce (cfg : DeliverySettings) (s : JobState) (l : JobMove) (s' : JobState) : Prop :=
  ∃ f, s'.parcels.rows = s.parcels.rows.map f ++ l.created ∧
    (∀ r ∈ s.parcels.rows, RowStep cfg s l r (f r) ∧ (r.priced = true → f r = r)) ∧
    ∀ p ∈ l.created, p.priced = false

section Prices

variable {cfg : DeliverySettings} {s s' : JobState} {l : JobMove}

theorem pricesOnce_of_step (hs : Sequential s) (h : JobStep cfg s l s') : PricesOnce cfg s l s' := by
  obtain ⟨f, hrows, hf, hcreated⟩ := rows_of_step hs.known h
  refine ⟨f, hrows, fun r hr => ⟨hf r hr, fun hpriced => ?_⟩, hcreated⟩
  have hrow := hf r hr
  generalize f r = r' at hrow ⊢
  cases hrow with
  | same => rfl
  | priced _ hpt _ hbatch _ =>
    rw [hs.unpriced _ _ _ _ hpt r hr hbatch] at hpriced
    cases hpriced

theorem PricesOnce.kept (h : PricesOnce cfg s l s') {r : Parcel} (hr : r ∈ s.parcels.rows)
    (hpriced : r.priced = true) : r ∈ s'.parcels.rows := by
  obtain ⟨f, hrows, hf, -⟩ := h
  rw [hrows, ← (hf r hr).2 hpriced]
  exact List.mem_append_left _ (List.mem_map_of_mem hr)

end Prices

/-! ## Completed runs -/

/-- The run has left its loop. -/
def RunPoint.leftLoop : RunPoint → Bool
  | finish _ => true
  | pt => pt.ended

/-- The run has drained the table, and is about to return or has returned. -/
def RunPoint.drained : RunPoint → Bool
  | finish _ => true
  | returned _ => true
  | _ => false

section Completed

variable {cfg : DeliverySettings} {s s' : JobState} {l : JobMove} {i : ℕ} {pt pt' : RunPoint}

/-- An empty batch means that every row has a price. -/
theorem priced_of_empty_batch (hB : 0 < cfg.batchSize) (h : s.IsBatch cfg []) :
    ∀ r ∈ s.parcels.rows, r.priced = true := by
  have hzero : s.unpriced.length = 0 := by
    have hlength := h.2.2
    rw [List.length_nil] at hlength
    omega
  intro r hr
  cases hpriced : r.priced with
  | true => rfl
  | false =>
    have hmem : r ∈ s.unpriced := List.mem_filter.mpr ⟨hr, by rw [hpriced]; rfl⟩
    rw [List.length_eq_zero_iff.mp hzero] at hmem
    cases hmem

theorem PointStep.leftLoop (h : PointStep cfg s i l pt pt') (hleft : pt.leftLoop = true) :
    pt'.leftLoop = true ∧ ∀ batch, l ≠ .select i batch := by
  cases h with
  | stay hl =>
    refine ⟨hleft, ?_⟩
    rintro batch rfl
    exact hl rfl
  | finished | interrupted _ => exact ⟨rfl, nofun⟩
  | deleted | acquired _ | skipped _ | rateRead | rateFailed | selected _ _ | drained _
  | committed _ | refused _ => cases hleft

/-- A run that has left its loop selects nothing more. -/
theorem not_select_of_leftLoop {moves : List JobMove} (hpt : s.runs[i]? = some pt)
    (hleft : pt.leftLoop = true) (hrun : (jobSystem cfg).run s moves = some s') :
    ∀ batch, .select i batch ∉ moves := by
  induction moves generalizing s pt with
  | nil => exact fun _ => List.not_mem_nil
  | cons l moves ih =>
    obtain ⟨s₁, hs₁, hrest⟩ := System.run_cons_eq_some.mp hrun
    obtain ⟨pt₁, hpt₁, hstep⟩ := point_of_step (jobStep_of_step hs₁) hpt
    obtain ⟨hleft₁, hl⟩ := hstep.leftLoop hleft
    intro batch hmem
    rcases List.mem_cons.mp hmem with heq | hmem
    · exact hl batch heq.symm
    · exact ih hpt₁ hleft₁ hrest batch hmem

/-- An ended run stays where it is. -/
theorem ended_of_run {moves : List JobMove} (hpt : s.runs[i]? = some pt)
    (hended : pt.ended = true) (hrun : (jobSystem cfg).run s moves = some s') :
    s'.runs[i]? = some pt := by
  refine System.run_preserves (I := fun s => s.runs[i]? = some pt) ?_ hpt hrun
  intro s₁ l s₂ hpt hs
  obtain ⟨pt₂, hpt₂, hstep⟩ := point_of_step (jobStep_of_step hs) hpt
  rw [hpt₂, hstep.ended_mono hended]

/-- A run comes to be drained by a `SELECT` that finds nothing, or is skipped. -/
theorem drained_of_step (h : JobStep cfg s l s') (hpt' : s'.runs[i]? = some pt')
    (hdrained : pt'.drained = true) :
    (∃ pt, s.runs[i]? = some pt ∧ pt.drained = true) ∨
      (l = .setNx i ∧ s.lock = true ∧ pt' = .returned 0) ∨
      l = .select i [] ∧ s.IsBatch cfg [] := by
  rcases point_before_step h hpt' with ⟨pt, hpt, hstep⟩ | ⟨-, ⟨-, rfl⟩ | ⟨-, rfl⟩⟩
  · cases hstep with
    | stay _ => exact Or.inl ⟨_, hpt, hdrained⟩
    | finished => exact Or.inl ⟨_, hpt, rfl⟩
    | skipped hheld => exact Or.inr (Or.inl ⟨rfl, hheld, rfl⟩)
    | drained hbatch => exact Or.inr (Or.inr ⟨rfl, hbatch⟩)
    | deleted | acquired _ | rateRead | rateFailed | selected _ _ | committed _ | refused _
    | interrupted _ => cases hdrained
  · cases hdrained
  · cases hdrained

/-- **How a run comes to its end.** -/
theorem drained_of_run {moves : List JobMove} (hrun : (jobSystem cfg).run s moves = some s')
    (hpt' : s'.runs[i]? = some pt') (hdrained : pt'.drained = true) :
    (∃ pt, s.runs[i]? = some pt ∧ pt.drained = true) ∨
      (∃ before after s₁, moves = before ++ .setNx i :: after ∧
        (jobSystem cfg).run s before = some s₁ ∧ s₁.lock = true ∧ pt' = .returned 0) ∨
      ∃ before after s₁, moves = before ++ .select i [] :: after ∧
        (jobSystem cfg).run s before = some s₁ ∧ s₁.IsBatch cfg [] ∧
        ∀ batch, .select i batch ∉ after := by
  induction moves generalizing s with
  | nil =>
    obtain rfl := Option.some.inj hrun
    exact Or.inl ⟨pt', hpt', hdrained⟩
  | cons l moves ih =>
    obtain ⟨s₁, hs₁, hrest⟩ := System.run_cons_eq_some.mp hrun
    have hstep := jobStep_of_step hs₁
    rcases ih hrest with ⟨pt₁, hpt₁, hd₁⟩ | ⟨before, after, s₂, rfl, hbefore, hrest⟩ |
      ⟨before, after, s₂, rfl, hbefore, hrest⟩
    · rcases drained_of_step hstep hpt₁ hd₁ with hold | ⟨rfl, hheld, rfl⟩ | ⟨rfl, hbatch⟩
      · exact Or.inl hold
      · refine Or.inr (Or.inl ⟨[], moves, s, rfl, rfl, hheld, ?_⟩)
        exact Option.some.inj (hpt'.symm.trans (ended_of_run hpt₁ rfl hrest))
      · refine Or.inr (Or.inr ⟨[], moves, s, rfl, rfl, hbatch, ?_⟩)
        refine not_select_of_leftLoop hpt₁ ?_ hrest
        cases pt₁ <;> first | rfl | cases hd₁
    · exact Or.inr (Or.inl ⟨l :: before, after, s₂, rfl,
        System.run_cons_eq_some.mpr ⟨s₁, hs₁, hbefore⟩, hrest⟩)
    · exact Or.inr (Or.inr ⟨l :: before, after, s₂, rfl,
        System.run_cons_eq_some.mpr ⟨s₁, hs₁, hbefore⟩, hrest⟩)

end Completed

/-! ## Counts -/

/-- The parcels that a move of run `i` takes from `NULL` to a price. -/
def movedByStep (i : ℕ) (s : JobState) (l : JobMove) (s' : JobState) : ℕ :=
  match l with
  | .commit j => if j = i then newlyPriced s s' else 0
  | _ => 0

/-- The parcels that the commits of run `i` take from `NULL` to a price. -/
def movedBy (cfg : DeliverySettings) (i : ℕ) : JobState → List JobMove → ℕ
  | _, [] => 0
  | s, l :: moves =>
    match (jobSystem cfg).step s l with
    | none => 0
    | some s' => movedByStep i s l s' + movedBy cfg i s' moves

section Counts

variable {cfg : DeliverySettings} {s s' : JobState} {l : JobMove} {i : ℕ} {pt pt' : RunPoint}

/-- The commit of an unpriced batch prices as many parcels as the batch has. -/
theorem newlyPriced_commit (hs : Sequential s) (h : JobStep cfg s (.commit i) s')
    {rate : Decimal} {updated : ℕ} {batch : List Parcel} {costs : List (String × Money)}
    (hpt : s.runs[i]? = some (.commitBatch rate updated batch))
    (hcosts : batchCosts cfg rate batch = some costs) : newlyPriced s s' = batch.length := by
  have hadd := newlyPriced_add (grows_of_step hs.known h)
  cases tally_of_step h with
  | committed hl hpt' hcosts' hrows _ =>
    cases hl
    cases hpt.symm.trans hpt'
    obtain ⟨-, hiff⟩ := pricedCount_commit hcosts' (hs.known i rate updated batch hpt)
    have hcount := hiff.mpr (hs.unpriced i rate updated batch hpt)
    rw [← hrows] at hcount
    change s'.pricedCount = s.pricedCount + _ at hcount
    omega
  | refused hl hpt' hnone _ _ =>
    cases hl
    cases hpt.symm.trans hpt'
    cases hcosts.symm.trans hnone
  | interrupted hl _ _ _ => cases hl
  | other hl _ _ _ => exact absurd rfl (hl i)

theorem movedByStep_of_ne (hl : l.runOf ≠ some i) : movedByStep i s l s' = 0 := by
  cases l with
  | commit j => exact if_neg fun h => hl (congrArg some h)
  | _ => rfl

theorem countedBy_of_none (h : s.runs[i]? = none) : s.countedBy i = 0 := by
  rw [JobState.countedBy, h]
  rfl

/-- **A run counts what it moves**, unless it breaks off. -/
theorem countedBy_of_step (hs : Sequential s) (h : JobStep cfg s l s')
    (hpt' : s'.runs[i]? = some pt') (hbroken : pt'.broken = false) :
    s'.countedBy i = s.countedBy i + movedByStep i s l s' := by
  rw [JobState.countedBy_eq hpt']
  rcases point_before_step h hpt' with ⟨pt, hpt, hstep⟩ | ⟨rfl, hnew⟩
  · rw [JobState.countedBy_eq hpt]
    cases hstep with
    | stay hl => rw [movedByStep_of_ne hl, Nat.add_zero]
    | committed hcosts =>
      have hmoved : movedByStep i s (.commit i) s' = newlyPriced s s' := if_pos rfl
      rw [hmoved, newlyPriced_commit hs h hpt hcosts]
      rfl
    | refused _ | interrupted _ | rateFailed => cases hbroken
    | deleted | acquired _ | skipped _ | rateRead | selected _ _ | drained _ | finished => rfl
  · rw [countedBy_of_none (List.getElem?_eq_none (Nat.le_refl _))]
    rcases hnew with ⟨rfl, rfl⟩ | ⟨rfl, rfl⟩ <;> rfl

/-- A run that is not there yet does not move. -/
theorem runOf_of_none (h : JobStep cfg s l s') (hnone : s'.runs[i]? = none) :
    s.runs[i]? = none ∧ l.runOf ≠ some i := by
  rcases hpt : s.runs[i]? with _ | pt
  · refine ⟨rfl, fun hl => ?_⟩
    rcases runs_of_step h with ⟨j, pt, -, hpt', -, hl', -⟩ | ⟨hl', -⟩
    · cases hl.symm.trans hl'
      cases hpt.symm.trans hpt'
    · cases hl.symm.trans hl'
  · obtain ⟨pt', hpt', -⟩ := point_of_step h hpt
    cases hnone.symm.trans hpt'

/-- A run that has broken off stays so. -/
theorem PointStep.broken_mono (h : PointStep cfg s i l pt pt') (hbroken : pt.broken = true) :
    pt'.broken = true := by
  rw [h.ended_mono (by cases pt <;> first | rfl | cases hbroken)]
  exact hbroken

theorem countedBy_of_run {moves : List JobMove} (hs : Sequential s)
    (hno : (jobSystem cfg).Steps NonOverlapping s moves)
    (hrun : (jobSystem cfg).run s moves = some s') (hpt' : s'.runs[i]? = some pt')
    (hbroken : pt'.broken = false) :
    s'.countedBy i = s.countedBy i + movedBy cfg i s moves := by
  induction moves generalizing s with
  | nil =>
    obtain rfl := Option.some.inj hrun
    rfl
  | cons l moves ih =>
    obtain ⟨s₁, hs₁, hrest⟩ := System.run_cons_eq_some.mp hrun
    obtain ⟨hno₁, hno₂⟩ := hno s₁ hs₁
    have hstep := jobStep_of_step hs₁
    have hcount : s₁.countedBy i = s.countedBy i + movedByStep i s l s₁ := by
      rcases hpt₁ : s₁.runs[i]? with _ | pt₁
      · obtain ⟨hnone, hl⟩ := runOf_of_none hstep hpt₁
        rw [countedBy_of_none hpt₁, countedBy_of_none hnone, movedByStep_of_ne hl]
      · refine countedBy_of_step hs hstep hpt₁ ?_
        cases hb : pt₁.broken with
        | false => rfl
        | true =>
          have hended : pt₁.ended = true := by cases pt₁ <;> first | rfl | cases hb
          cases hpt'.symm.trans (ended_of_run hpt₁ hended hrest)
          exact hb.symm.trans hbroken
    have hrest' := ih (hs.step hstep hno₁) hno₂ hrest
    have hmoved : movedBy cfg i s (l :: moves) =
        movedByStep i s l s₁ + movedBy cfg i s₁ moves := by
      rw [movedBy, hs₁]
    omega

end Counts

/-! ## Termination -/

/-- The moves that a run can still make, with `unpriced` rows without a price. -/
def RunPoint.remaining (unpriced : ℕ) : RunPoint → ℕ
  | deleteLock => 2 * unpriced + 5
  | acquireLock => 2 * unpriced + 4
  | getRate => 2 * unpriced + 3
  | fetchUnpriced _ _ => 2 * unpriced + 2
  | commitBatch _ _ _ => 2 * unpriced + 1
  | finish _ => 1
  | _ => 0

/-- The moves that run `i` can still make, started or not. -/
def JobState.remaining (s : JobState) (i : ℕ) : ℕ :=
  match s.runs[i]? with
  | some pt => pt.remaining s.unpriced.length
  | none => 2 * s.unpriced.length + 5

section Termination

variable {cfg : DeliverySettings} {s s' : JobState} {l : JobMove} {i : ℕ} {pt pt' : RunPoint}

theorem unpriced_add_pricedCount (s : JobState) :
    s.pricedCount + s.unpriced.length = s.parcels.rows.length := by
  have hsplit := List.length_eq_countP_add_countP (l := s.parcels.rows) Parcel.priced
  rw [JobState.unpriced, Table.selectAll, ← List.countP_eq_length_filter]
  simp only [Bool.not_eq_true, Bool.decide_eq_false] at hsplit
  exact hsplit.symm

/-- The unpriced rows along a step: created parcels come in, newly priced ones leave. -/
theorem unpriced_of_step (hs : Sequential s) (h : JobStep cfg s l s') :
    s'.unpriced.length + newlyPriced s s' = s.unpriced.length + l.created.length := by
  have hadd := newlyPriced_add (grows_of_step hs.known h)
  obtain ⟨f, hrows, -, -⟩ := rows_of_step hs.known h
  have hbefore := unpriced_add_pricedCount s
  have hafter := unpriced_add_pricedCount s'
  rw [hrows, List.length_append, List.length_map] at hafter
  omega

theorem RunPoint.remaining_mono {m n : ℕ} (h : m ≤ n) : pt.remaining m ≤ pt.remaining n := by
  cases pt <;> simp only [RunPoint.remaining] <;> omega

/-- **Every move of a run brings it nearer to its end.** -/
theorem PointStep.remaining_lt (hs : Sequential s) (h : JobStep cfg s l s')
    (hpt : s.runs[i]? = some pt) (hstep : PointStep cfg s i l pt pt') (hl : l.runOf = some i) :
    pt'.remaining s'.unpriced.length + 1 ≤ pt.remaining s.unpriced.length := by
  have hle := unpriced_of_step hs h
  cases hstep with
  | stay hl' => exact absurd hl hl'
  | committed hcosts =>
    rename_i rate updated batch costs
    have hpriced := newlyPriced_commit hs h hpt hcosts
    have hpos := List.length_pos_iff.mpr (hs.known i rate updated batch hpt).nonempty
    simp only [JobMove.created, List.length_nil, RunPoint.remaining] at hle ⊢
    omega
  | interrupted hlive =>
    have hpos : 1 ≤ pt.remaining s.unpriced.length := by
      cases pt <;> first
        | cases hlive; done
        | simp only [RunPoint.remaining]; omega
    exact hpos
  | deleted | acquired _ =>
    simp only [JobMove.created, List.length_nil, RunPoint.remaining] at hle ⊢; omega
  | skipped _ => simp only [RunPoint.remaining]; omega
  | rateRead => simp only [JobMove.created, List.length_nil, RunPoint.remaining] at hle ⊢; omega
  | rateFailed => simp only [RunPoint.remaining]; omega
  | selected _ _ => simp only [JobMove.created, List.length_nil, RunPoint.remaining] at hle ⊢; omega
  | drained _ | refused _ | finished => simp only [RunPoint.remaining]; omega

theorem RunPoint.remaining_add (pt : RunPoint) (m k : ℕ) :
    pt.remaining (m + k) ≤ pt.remaining m + 2 * k := by
  cases pt <;> simp only [RunPoint.remaining] <;> omega

theorem remaining_of_step (hs : Sequential s) (h : JobStep cfg s l s') :
    s'.remaining i + (if l.runOf = some i then 1 else 0) ≤
      s.remaining i + 2 * l.created.length := by
  have hle := unpriced_of_step hs h
  rcases hpt' : s'.runs[i]? with _ | pt'
  · obtain ⟨hnone, hl⟩ := runOf_of_none h hpt'
    rw [if_neg hl, JobState.remaining, hpt', JobState.remaining, hnone]
    simp only
    omega
  · have hafter : s'.remaining i = pt'.remaining s'.unpriced.length := by
      rw [JobState.remaining, hpt']
    rw [hafter]
    rcases point_before_step h hpt' with ⟨pt, hpt, hstep⟩ | ⟨rfl, hnew⟩
    · have hbefore : s.remaining i = pt.remaining s.unpriced.length := by
        rw [JobState.remaining, hpt]
      rw [hbefore]
      by_cases hl : l.runOf = some i
      · have hlt := hstep.remaining_lt hs h hpt hl
        rw [if_pos hl]
        omega
      · have hstay : pt' = pt := by
          cases hstep <;> first | rfl | exact absurd rfl hl
        have hmono : pt.remaining s'.unpriced.length ≤
            pt.remaining (s.unpriced.length + l.created.length) :=
          RunPoint.remaining_mono (by omega)
        have hadd := RunPoint.remaining_add pt s.unpriced.length l.created.length
        rw [if_neg hl, hstay]
        omega
    · have hbefore : s.remaining s.runs.length = 2 * s.unpriced.length + 5 := by
        rw [JobState.remaining, List.getElem?_eq_none (Nat.le_refl _)]
      rw [hbefore]
      rcases hnew with ⟨rfl, rfl⟩ | ⟨rfl, rfl⟩ <;>
        simp only [JobMove.created, JobMove.runOf, RunPoint.remaining, List.length_nil] at hle ⊢ <;>
        simp <;> omega

theorem remaining_of_run {moves : List JobMove} (hs : Sequential s)
    (hno : (jobSystem cfg).Steps NonOverlapping s moves)
    (hrun : (jobSystem cfg).run s moves = some s') :
    moves.countP (fun l => decide (l.runOf = some i)) + s'.remaining i ≤
      s.remaining i + 2 * (moves.flatMap JobMove.created).length := by
  induction moves generalizing s with
  | nil =>
    obtain rfl := Option.some.inj hrun
    simp
  | cons l moves ih =>
    obtain ⟨s₁, hs₁, hrest⟩ := System.run_cons_eq_some.mp hrun
    obtain ⟨hno₁, hno₂⟩ := hno s₁ hs₁
    have hstep := jobStep_of_step hs₁
    have hfirst := remaining_of_step (i := i) hs hstep
    have hrest' := ih (hs.step hstep hno₁) hno₂ hrest
    rw [List.countP_cons, List.flatMap_cons, List.length_append]
    simp only [decide_eq_true_eq]
    omega

/-- The first rows of the unpriced ones are a batch. -/
theorem isBatch_take (cfg : DeliverySettings) (s : JobState) :
    s.IsBatch cfg (s.unpriced.take cfg.batchSize) := by
  refine ⟨?_, fun p hp => List.mem_of_mem_take hp, List.length_take⟩
  exact (s.parcels.nodup.sublist List.filter_sublist).sublist (List.take_sublist _ _)

/-- **A run that has not ended can go on.** -/
theorem move_of_live (hpt : s.runs[i]? = some pt) (hlive : pt.ended = false) :
    ∃ l s', l.runOf = some i ∧ l ≠ .interrupt i ∧ (jobSystem cfg).step s l = some s' := by
  have hmove : ∀ f, s.moveRun i f = f pt := by
    intro f
    rw [JobState.moveRun, hpt, Option.bind_some]
  cases pt with
  | deleteLock => exact ⟨.delete i, _, rfl, nofun, hmove _⟩
  | acquireLock =>
    cases hlock : s.lock with
    | true => exact ⟨.setNx i, _, rfl, nofun, (hmove _).trans (if_pos hlock)⟩
    | false => exact ⟨.setNx i, _, rfl, nofun, (hmove _).trans (if_neg (by rw [hlock]; nofun))⟩
  | getRate =>
    rcases hrate : getUsdRubRate s.rates "" [] with ⟨_ | rate, rates⟩
    · exact ⟨.readRate i "" [], _, rfl, nofun, (hmove _).trans (by rw [hrate])⟩
    · exact ⟨.readRate i "" [], _, rfl, nofun, (hmove _).trans (by rw [hrate])⟩
  | fetchUnpriced rate updated =>
    have hbatch := isBatch_take cfg s
    by_cases hne : s.unpriced.take cfg.batchSize = []
    · exact ⟨.select i _, _, rfl, nofun,
        (hmove _).trans ((if_pos hbatch).trans (if_pos hne))⟩
    · exact ⟨.select i _, _, rfl, nofun,
        (hmove _).trans ((if_pos hbatch).trans (if_neg hne))⟩
  | commitBatch rate updated batch =>
    rcases hcommit : commitBatch cfg rate batch s.parcels with _ | parcels
    · exact ⟨.commit i, s.goto i (.raised .dataError), rfl, nofun,
        (hmove _).trans (by simp only [hcommit])⟩
    · exact ⟨.commit i, { s with parcels := parcels }.goto i
        (.fetchUnpriced rate (updated + batch.length)), rfl, nofun,
        (hmove _).trans (by simp only [hcommit])⟩
  | finish updated => exact ⟨.finish i 0, _, rfl, nofun, hmove _⟩
  | returned _ | raised _ | interrupted => cases hlive

end Termination

/-! ## The table of one run -/

/-- The row that a run leaves behind: a priced row as it was, an unpriced one with its cost
at the rate of the run. -/
def Parcel.finalRow (cfg : DeliverySettings) (rate : Decimal) (r : Parcel) : Parcel :=
  if r.priced then r else r.priceAt cfg rate

/-- The rate of a run in its loop. -/
def RunPoint.loopRate : RunPoint → Option Decimal
  | fetchUnpriced rate _ => some rate
  | commitBatch rate _ _ => some rate
  | _ => none

/-- Run `i` is on its way to a table: what it leaves behind of the rows as they are is what
it leaves behind of `rows`; once drained, there is nothing left to do. -/
def Approaches (cfg : DeliverySettings) (rate : Decimal) (i : ℕ) (rows : List Parcel)
    (s : JobState) : Prop :=
  ∃ pt, s.runs[i]? = some pt ∧ (pt.broken = true ∨
    s.parcels.rows.map (Parcel.finalRow cfg rate) = rows.map (Parcel.finalRow cfg rate) ∧
      (pt.loopRate = some rate ∨
        pt.drained = true ∧ ∀ r ∈ s.parcels.rows, r.priced = true))

section Table

variable {cfg : DeliverySettings} {s s' : JobState} {l : JobMove} {i : ℕ} {rate : Decimal}
  {rows : List Parcel}

theorem Parcel.finalRow_of_priced {r : Parcel} (h : r.priced = true) : r.finalRow cfg rate = r :=
  if_pos h

/-- A commit at the rate of the run does not change what the run leaves behind. -/
theorem finalRow_of_step (hs : Sequential s) (h : JobStep cfg s l s') (hcreated : l.created = [])
    (hrate : ∀ j rate' updated batch, l = .commit j →
      s.runs[j]? = some (.commitBatch rate' updated batch) → rate' = rate) :
    s'.parcels.rows.map (Parcel.finalRow cfg rate) =
      s.parcels.rows.map (Parcel.finalRow cfg rate) := by
  obtain ⟨f, hrows, hf, -⟩ := rows_of_step hs.known h
  simp only [hrows, hcreated, List.append_nil, List.map_map]
  refine List.map_congr_left fun r hr => ?_
  rw [Function.comp_apply]
  have hrow := hf r hr
  generalize f r = r' at hrow ⊢
  cases hrow with
  | same => rfl
  | priced hl hpt _ hbatch hcost =>
    obtain rfl := hrate _ _ _ _ hl hpt
    have hunpriced := hs.unpriced _ _ _ _ hpt r hr hbatch
    rw [Parcel.finalRow_of_priced rfl, Parcel.finalRow, if_neg (by rw [hunpriced]; nofun),
      Parcel.priceAt, hcost]
    rfl

theorem all_priced_of_step (hs : Sequential s) (h : JobStep cfg s l s') (hcreated : l.created = [])
    (hall : ∀ r ∈ s.parcels.rows, r.priced = true) : ∀ r ∈ s'.parcels.rows, r.priced = true := by
  obtain ⟨f, hrows, hf, -⟩ := rows_of_step hs.known h
  intro r' hr'
  rw [hrows, hcreated, List.append_nil] at hr'
  obtain ⟨r, hr, rfl⟩ := List.mem_map.mp hr'
  exact (hf r hr).priced_mono (hall r hr)

/-- Where all rows are priced, no batch waits for its commit. -/
theorem not_waiting_of_all_priced (hs : Sequential s)
    (hall : ∀ r ∈ s.parcels.rows, r.priced = true) {j : ℕ} {rate' : Decimal} {updated : ℕ}
    {batch : List Parcel} : s.runs[j]? ≠ some (.commitBatch rate' updated batch) := by
  intro hpt
  have hknown := hs.known j rate' updated batch hpt
  obtain ⟨p, hp⟩ := List.exists_mem_of_ne_nil batch hknown.nonempty
  obtain ⟨r, hr, hsame⟩ := hknown.row p hp
  have hunpriced := hs.unpriced j rate' updated batch hpt r hr
    (hsame.id ▸ List.mem_map_of_mem hp)
  rw [hall r hr] at hunpriced
  cases hunpriced

theorem Approaches.step (hB : 0 < cfg.batchSize) (hs : Sequential s) (h : JobStep cfg s l s')
    (hcreated : l.created = []) (ha : Approaches cfg rate i rows s) :
    Approaches cfg rate i rows s' := by
  obtain ⟨pt, hpt, ha⟩ := ha
  obtain ⟨pt', hpt', hstep⟩ := point_of_step h hpt
  refine ⟨pt', hpt', ?_⟩
  rcases ha with hbroken | ⟨hrows, hloop | ⟨hdrained, hall⟩⟩
  · exact Or.inl (hstep.broken_mono hbroken)
  · -- the run in its loop is the only one that commits
    have hrate : ∀ j rate' updated batch, l = .commit j →
        s.runs[j]? = some (.commitBatch rate' updated batch) → rate' = rate := by
      intro j rate' updated batch _ hpt₁
      have hlive : pt.ended = false := by cases pt <;> first | rfl | cases hloop
      obtain rfl := hs.alone i j pt _ hpt hpt₁ hlive rfl
      cases hpt.symm.trans hpt₁
      exact Option.some.inj hloop
    have hrows' := (finalRow_of_step hs h hcreated hrate).trans hrows
    cases hstep with
    | stay _ | selected _ _ | committed _ => exact Or.inr ⟨hrows', Or.inl hloop⟩
    | drained hbatch =>
      have hall := priced_of_empty_batch hB hbatch
      exact Or.inr ⟨hrows', Or.inr ⟨rfl, all_priced_of_step hs h hcreated hall⟩⟩
    | refused _ | interrupted _ => exact Or.inl rfl
    | deleted | acquired _ | skipped _ | rateRead | rateFailed | finished => cases hloop
  · have hrows' := (finalRow_of_step hs h hcreated fun _ _ _ _ _ hpt₁ =>
      absurd hpt₁ (not_waiting_of_all_priced hs hall)).trans hrows
    have hall' := all_priced_of_step hs h hcreated hall
    cases hstep with
    | stay _ => exact Or.inr ⟨hrows', Or.inr ⟨hdrained, hall'⟩⟩
    | finished => exact Or.inr ⟨hrows', Or.inr ⟨rfl, hall'⟩⟩
    | interrupted _ => exact Or.inl rfl
    | selected _ _ | committed _ | drained _ | refused _ | deleted | acquired _ | skipped _
    | rateRead | rateFailed => cases hdrained

end Table

/-- One uninterrupted run, from the moment when it has its rate to its return, with all
other runs ended and no parcels created meanwhile. -/
structure OneRun (cfg : DeliverySettings) (rate : Decimal) (s s' : JobState) : Prop where
  batchSize : 0 < cfg.batchSize
  run : ∃ (i : ℕ) (moves : List JobMove) (updated : ℕ), (jobSystem cfg).run s moves = some s' ∧
    s.runs[i]? = some (.fetchUnpriced rate 0) ∧
    (∀ (j : ℕ) (pt : RunPoint), s.runs[j]? = some pt → j ≠ i → pt.ended = true) ∧
    s'.runs[i]? = some (.returned updated) ∧
    (jobSystem cfg).Steps NonOverlapping s moves ∧ ∀ l ∈ moves, l.created = []

/-- **The table that one run leaves behind.** -/
theorem OneRun.rows {cfg : DeliverySettings} {rate : Decimal} {s s' : JobState}
    (h : OneRun cfg rate s s') :
    s'.parcels.rows = s.parcels.rows.map (Parcel.finalRow cfg rate) := by
  obtain ⟨i, moves, updated, hrun, hpt, hothers, hpt', hno, hcreated⟩ := h.run
  have hone : ∀ {j : ℕ} {pt : RunPoint}, s.runs[j]? = some pt → pt.ended = false →
      j = i ∧ pt = .fetchUnpriced rate 0 := by
    intro j pt hptj hlive
    by_cases hj : j = i
    · subst hj
      exact ⟨rfl, Option.some.inj (hptj.symm.trans hpt)⟩
    · rw [hothers j pt hptj hj] at hlive
      cases hlive
  have hs : Sequential s := by
    refine ⟨?_, ?_, ?_⟩
    · intro j rate' updated' batch hptj
      cases (hone hptj rfl).2
    · intro j rate' updated' batch hptj
      cases (hone hptj rfl).2
    · intro j k pt pt' hptj hptk hlive hlive'
      exact (hone hptj hlive).1.trans (hone hptk hlive').1.symm
  have hend : Approaches cfg rate i s.parcels.rows s' := by
    refine (System.run_invariant
      (I := fun s₁ => Sequential s₁ ∧ Approaches cfg rate i s.parcels.rows s₁) ?_
      ⟨hs, _, hpt, Or.inr ⟨rfl, Or.inl rfl⟩⟩ (hno.and (System.steps_of_labels hcreated)) hrun).2
    rintro s₁ l s₂ ⟨hs₁, ha₁⟩ hstep ⟨hno₁, hnone⟩
    have hstep := jobStep_of_step hstep
    exact ⟨hs₁.step hstep hno₁, ha₁.step h.batchSize hs₁ hstep hnone⟩
  obtain ⟨pt, hptend, hbroken | ⟨hrows, hloop | ⟨-, hall⟩⟩⟩ := hend
  · cases hpt'.symm.trans hptend
    cases hbroken
  · cases hpt'.symm.trans hptend
    cases hloop
  · rw [← hrows]
    refine (List.map_id _).symm.trans (List.map_congr_left fun r hr => ?_)
    exact (Parcel.finalRow_of_priced (hall r hr)).symm

/-! ## The whole job -/

/-- What a sequence of pricing runs does, from a job without runs to `s'`. -/
structure PricingContract (cfg : DeliverySettings) (s : JobState) (moves : List JobMove)
    (s' : JobState) : Prop where
  /-- a price is set at most once, to the cost at the rate of the run that commits it, and
  nothing else of a parcel ever changes -/
  once : (jobSystem cfg).Steps (PricesOnce cfg) s moves
  /-- priced parcels are the same at the end -/
  kept : ∀ r ∈ s.parcels.rows, r.priced = true → r ∈ s'.parcels.rows
  /-- a run that has returned was skipped, or every parcel that existed at its last
  `SELECT` had a price, and has it still -/
  completed : ∀ (i n : ℕ), s'.runs[i]? = some (.returned n) →
    (∃ before after s₁, moves = before ++ .setNx i :: after ∧
      (jobSystem cfg).run s before = some s₁ ∧ s₁.lock = true ∧ n = 0) ∨
    ∃ before after s₁, moves = before ++ .select i [] :: after ∧
      (jobSystem cfg).run s before = some s₁ ∧ (∀ batch, .select i batch ∉ after) ∧
      ∀ r ∈ s₁.parcels.rows, r.priced = true ∧ r ∈ s'.parcels.rows
  /-- a run that has returned returns the number of parcels that it has moved from `NULL` to
  a price -/
  counts : ∀ (i n : ℕ), s'.runs[i]? = some (.returned n) → n = movedBy cfg i s moves
  /-- no commit is refused -/
  accepted : ∀ i : ℕ, s'.runs[i]? ≠ some (.raised .dataError)
  /-- a run makes finitely many moves: at most two for every parcel that is unpriced or
  created, and five more -/
  bounded : ∀ i : ℕ, moves.countP (fun l => decide (l.runOf = some i)) ≤
    2 * (s.unpriced.length + (moves.flatMap JobMove.created).length) + 5
  /-- a run that has not ended can go on -/
  goesOn : ∀ (i : ℕ) (pt : RunPoint), s'.runs[i]? = some pt → pt.ended = false →
    ∃ l s'', l.runOf = some i ∧ l ≠ .interrupt i ∧ (jobSystem cfg).step s' l = some s''

section Contract

variable {cfg : DeliverySettings} {s s' : JobState} {l : JobMove} {moves : List JobMove}

theorem kept_of_run (hs : Sequential s) (hno : (jobSystem cfg).Steps NonOverlapping s moves)
    (hrun : (jobSystem cfg).run s moves = some s') {r : Parcel} (hr : r ∈ s.parcels.rows)
    (hpriced : r.priced = true) : r ∈ s'.parcels.rows := by
  refine (System.run_invariant (I := fun s => Sequential s ∧ r ∈ s.parcels.rows) ?_ ⟨hs, hr⟩
    hno hrun).2
  rintro s₁ l s₂ ⟨hs₁, hr₁⟩ hstep hno₁
  have hstep := jobStep_of_step hstep
  exact ⟨hs₁.step hstep hno₁, (pricesOnce_of_step hs₁ hstep).kept hr₁ hpriced⟩

theorem sequential_of_run (hs : Sequential s) (hno : (jobSystem cfg).Steps NonOverlapping s moves)
    (hrun : (jobSystem cfg).run s moves = some s') : Sequential s' :=
  System.run_invariant (fun _ _ _ hs hstep hno => hs.step (jobStep_of_step hstep) hno) hs hno hrun

theorem CostsFit.cost {i : ℕ} {rate : Decimal} {updated : ℕ} {batch : List Parcel}
    (h : CostsFit cfg s (.commit i) s') (hpt : s.runs[i]? = some (.commitBatch rate updated batch)) :
    ∀ p ∈ batch, ∃ cost, p.cost cfg rate = some cost := by
  rw [CostsFit, JobState.costsFit, hpt] at h
  exact fun p hp => Option.isSome_iff_exists.mp (List.all_eq_true.mp h p hp)

theorem accepted_of_step (h : JobStep cfg s l s') (hfit : CostsFit cfg s l s')
    (hs : ∀ i : ℕ, s.runs[i]? ≠ some (.raised .dataError)) (i : ℕ) :
    s'.runs[i]? ≠ some (.raised .dataError) := by
  intro hpt'
  rcases point_before_step h hpt' with ⟨pt, hpt, hstep⟩ | ⟨-, ⟨-, heq⟩ | ⟨-, heq⟩⟩
  · cases hstep with
    | stay _ => exact hs i hpt
    | refused hcosts =>
      obtain ⟨costs, hcosts'⟩ := batchCosts_of_fit (hfit.cost hpt)
      cases hcosts.symm.trans hcosts'
  · cases heq
  · cases heq

end Contract

/-- Two unpriced parcels. -/
def sampleParcels : JobState where
  parcels := ⟨[sampleParcel "parcel-1", sampleParcel "parcel-2"], by decide⟩
  lock := false
  rates := []
  lastRunUpdated := none
  lastRunAt := none
  recalcParcels := 0
  runs := []

/-- Batches of one parcel: a run is interrupted after its first batch, a parcel is
created, and after the TTL of the lock a second run prices the rest. -/
def sampleMoves : List JobMove :=
  [.tick, .setNx 0, .readRate 0 "2025-01-01" [some ⟨90, 0⟩], .select 0 [sampleParcel "parcel-2"],
    .commit 0, .select 0 [sampleParcel "parcel-1"], .interrupt 0, .create (sampleParcel "parcel-3"),
    .expireLock, .tick, .setNx 1, .readRate 1 "2025-01-02" [none, some ⟨100, 0⟩],
    .select 1 [sampleParcel "parcel-3"], .commit 1, .select 1 [sampleParcel "parcel-1"],
    .commit 1, .select 1 [], .finish 1 0]

end ParcelDelivery
