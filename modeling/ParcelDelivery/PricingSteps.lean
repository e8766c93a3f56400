import ParcelDelivery.PricingJob
import ParcelDelivery.JobLock
import Mathlib.Data.List.Perm.Basic
import Mathlib.Data.List.Count
import Mathlib.Data.List.Dedup

/-!
# What a pricing step does to the parcels

A batch is read in one transaction and written by primary key, later, from the
values that were read. Nothing updates weights and values, so the commit prices
the stored rows of the batch (`rows_of_commit`); whether they were still unpriced
is another question, and decides whether the run counts right (`pricedCount_commit`).
-/

namespace ParcelDelivery

open Relational DecimalArith TransitionSystem

/-! ## Costs of a batch -/

/-- The row with its cost at a rate; unchanged where the column refuses the cost. -/
def Parcel.priceAt (cfg : DeliverySettings) (rate : Decimal) (p : Parcel) : Parcel :=
  { p with deliveryCostRub := (p.cost cfg rate).or p.deliveryCostRub }

/-- `r` is the row of `p`, with the data that its cost depends on. -/
structure Parcel.SameData (p r : Parcel) : Prop where
  id : r.id = p.id
  weightKg : r.weightKg = p.weightKg
  declaredValueUsd : r.declaredValueUsd = p.declaredValueUsd

section Costs

variable {cfg : DeliverySettings} {rate : Decimal} {batch : List Parcel}
  {costs : List (String × Money)} {p r : Parcel}

theorem Parcel.SameData.refl (p : Parcel) : p.SameData p := ⟨rfl, rfl, rfl⟩

theorem Parcel.SameData.cost (h : p.SameData r) : r.cost cfg rate = p.cost cfg rate := by
  simp only [Parcel.cost, h.weightKg, h.declaredValueUsd]

theorem batchCosts_cons : batchCosts cfg rate (p :: batch) = some costs ↔
    ∃ cost rest, p.cost cfg rate = some cost ∧ batchCosts cfg rate batch = some rest ∧
      costs = (p.id, cost) :: rest := by
  rw [batchCosts, List.mapM_cons]
  refine ⟨?_, ?_⟩
  · intro h
    obtain ⟨c, hc, h⟩ := Option.bind_eq_some_iff.mp h
    obtain ⟨cost, hcost, rfl⟩ := Option.map_eq_some_iff.mp hc
    obtain ⟨rest, hrest, h⟩ := Option.bind_eq_some_iff.mp h
    exact ⟨cost, rest, hcost, hrest, (Option.some.inj h).symm⟩
  · rintro ⟨cost, rest, hcost, hrest, rfl⟩
    have hrest' : (List.mapM (fun p : Parcel => (p.cost cfg rate).map fun cost => (p.id, cost))
        batch) = some rest := hrest
    rw [hcost, hrest']
    rfl

/-- Every parcel of a batch that is committed has a cost, and it is the one that is
written to its row. -/
theorem lookup_batchCosts (h : batchCosts cfg rate batch = some costs)
    (hnd : (batch.map Parcel.id).Nodup) (hp : p ∈ batch) :
    ∃ cost, p.cost cfg rate = some cost ∧ costs.lookup p.id = some cost := by
  induction batch generalizing costs with
  | nil => cases hp
  | cons q batch ih =>
    obtain ⟨cost, rest, hcost, hrest, rfl⟩ := batchCosts_cons.mp h
    rw [List.map_cons, List.nodup_cons] at hnd
    rcases List.mem_cons.mp hp with rfl | hp
    · exact ⟨cost, hcost, by rw [List.lookup_cons, beq_self_eq_true]⟩
    · obtain ⟨cost', hcost', hlookup⟩ := ih hrest hnd.2 hp
      have hne : (p.id == q.id) = false := by
        rw [beq_eq_false_iff_ne]
        intro heq
        exact hnd.1 (heq ▸ List.mem_map_of_mem hp)
      exact ⟨cost', hcost', by rw [List.lookup_cons, hne]; exact hlookup⟩

/-- No cost is written to a row outside the batch. -/
theorem lookup_batchCosts_of_not_mem (h : batchCosts cfg rate batch = some costs) {id : String}
    (hid : id ∉ batch.map Parcel.id) : costs.lookup id = none := by
  induction batch generalizing costs with
  | nil =>
    obtain rfl : costs = [] := (Option.some.inj h).symm
    rfl
  | cons q batch ih =>
    obtain ⟨cost, rest, -, hrest, rfl⟩ := batchCosts_cons.mp h
    rw [List.map_cons, List.mem_cons, not_or] at hid
    have hne : (id == q.id) = false := beq_eq_false_iff_ne.mpr hid.1
    rw [List.lookup_cons, hne]
    exact ih hrest hid.2

/-- A batch whose costs all fit the column can be committed. -/
theorem batchCosts_of_fit (h : ∀ p ∈ batch, ∃ cost, p.cost cfg rate = some cost) :
    ∃ costs, batchCosts cfg rate batch = some costs := by
  induction batch with
  | nil => exact ⟨[], rfl⟩
  | cons p batch ih =>
    obtain ⟨cost, hcost⟩ := h p List.mem_cons_self
    obtain ⟨rest, hrest⟩ := ih fun q hq => h q (List.mem_cons_of_mem p hq)
    exact ⟨_, batchCosts_cons.mpr ⟨cost, rest, hcost, hrest, rfl⟩⟩

end Costs

/-! ## Batches and rows -/

/-- The parcels of a batch are different rows of the table, with the stored data. -/
structure BatchKnown (parcels : Table Parcel) (batch : List Parcel) : Prop where
  nonempty : batch ≠ []
  nodup : (batch.map Parcel.id).Nodup
  row : ∀ p ∈ batch, ∃ r ∈ parcels.rows, p.SameData r

section Rows

variable {cfg : DeliverySettings} {rate : Decimal} {batch : List Parcel}
  {costs : List (String × Money)} {parcels : Table Parcel}

theorem Parcel.eq_of_id {p q : Parcel} (hp : p ∈ parcels.rows) (hq : q ∈ parcels.rows)
    (h : p.id = q.id) : p = q :=
  Table.eq_of_clash hp hq h

/-- **A commit prices the stored rows of its batch.** -/
theorem rows_of_commit (hcosts : batchCosts cfg rate batch = some costs)
    (hknown : BatchKnown parcels batch) :
    parcels.rows.map (Parcel.assignCost costs) = parcels.rows.map fun r =>
      if r.id ∈ batch.map Parcel.id then r.priceAt cfg rate else r := by
  refine List.map_congr_left fun r hr => ?_
  by_cases hid : r.id ∈ batch.map Parcel.id
  · obtain ⟨p, hp, hpid⟩ := List.mem_map.mp hid
    obtain ⟨cost, hcost, hlookup⟩ := lookup_batchCosts hcosts hknown.nodup hp
    obtain ⟨r', hr', hsame⟩ := hknown.row p hp
    obtain rfl := Parcel.eq_of_id hr hr' (hpid.symm.trans hsame.id.symm)
    rw [hpid] at hlookup
    rw [if_pos hid, Parcel.assignCost, hlookup, Parcel.priceAt, hsame.cost, hcost]
    rfl
  · rw [if_neg hid, Parcel.assignCost, lookup_batchCosts_of_not_mem hcosts hid]

/-- The rows of a batch that is committed all have a cost. -/
theorem cost_of_commit (hcosts : batchCosts cfg rate batch = some costs)
    (hknown : BatchKnown parcels batch) {r : Parcel} (hr : r ∈ parcels.rows)
    (hid : r.id ∈ batch.map Parcel.id) : ∃ cost, r.cost cfg rate = some cost := by
  obtain ⟨p, hp, hpid⟩ := List.mem_map.mp hid
  obtain ⟨cost, hcost, -⟩ := lookup_batchCosts hcosts hknown.nodup hp
  obtain ⟨r', hr', hsame⟩ := hknown.row p hp
  obtain rfl := Parcel.eq_of_id hr hr' (hpid.symm.trans hsame.id.symm)
  exact ⟨cost, hsame.cost.trans hcost⟩

/-- Rows that meet one of two conditions, and rows that meet both. -/
theorem countP_or_add_and {α : Type} (l : List α) (a b : α → Bool) :
    l.countP (fun x => a x || b x) + l.countP (fun x => a x && b x) = l.countP a + l.countP b := by
  induction l with
  | nil => rfl
  | cons x l ih =>
    simp only [List.countP_cons]
    cases a x <;> cases b x <;> simp <;> omega

/-- The batch has as many rows in the table as it has parcels. -/
theorem countP_batch (hknown : BatchKnown parcels batch) :
    parcels.rows.countP (fun r => decide (r.id ∈ batch.map Parcel.id)) = batch.length := by
  rw [List.countP_eq_length_filter]
  have hkeys : (parcels.rows.map Parcel.id).Nodup := List.pairwise_map.mpr parcels.unique
  have hperm : ((parcels.rows.filter fun r => decide (r.id ∈ batch.map Parcel.id)).map
      Parcel.id).Perm (batch.map Parcel.id) := by
    refine (List.perm_ext_iff_of_nodup ?_ hknown.nodup).mpr fun id => ?_
    · exact hkeys.sublist (List.filter_sublist.map _)
    · refine ⟨?_, ?_⟩
      · intro hid
        obtain ⟨r, hr, rfl⟩ := List.mem_map.mp hid
        exact of_decide_eq_true (List.mem_filter.mp hr).2
      · intro hid
        obtain ⟨p, hp, rfl⟩ := List.mem_map.mp hid
        obtain ⟨r, hr, hsame⟩ := hknown.row p hp
        refine List.mem_map.mpr ⟨r, List.mem_filter.mpr ⟨hr, ?_⟩, hsame.id⟩
        rw [decide_eq_true_eq, hsame.id]
        exact hid
  have hlength := hperm.length_eq
  rwa [List.length_map, List.length_map] at hlength

/-- **A commit counts right exactly when its batch was still unpriced**: the number of
priced rows grows by the size of the batch. -/
theorem pricedCount_commit (hcosts : batchCosts cfg rate batch = some costs)
    (hknown : BatchKnown parcels batch) :
    (parcels.rows.map (Parcel.assignCost costs)).countP Parcel.priced ≤
        parcels.rows.countP Parcel.priced + batch.length ∧
      ((parcels.rows.map (Parcel.assignCost costs)).countP Parcel.priced =
          parcels.rows.countP Parcel.priced + batch.length ↔
        ∀ r ∈ parcels.rows, r.id ∈ batch.map Parcel.id → r.priced = false) := by
  -- a row is priced afterwards when it is in the batch or was priced before
  have hafter : (parcels.rows.map (Parcel.assignCost costs)).countP Parcel.priced =
      parcels.rows.countP fun r => r.priced || decide (r.id ∈ batch.map Parcel.id) := by
    rw [rows_of_commit hcosts hknown, List.countP_map]
    refine List.countP_congr fun r hr => ?_
    rw [Function.comp_apply]
    by_cases hid : r.id ∈ batch.map Parcel.id
    · obtain ⟨cost, hcost⟩ := cost_of_commit hcosts hknown hr hid
      simp [hid, Parcel.priceAt, Parcel.priced, hcost]
    · simp [hid]
  have hsplit := countP_or_add_and parcels.rows Parcel.priced
    fun r => decide (r.id ∈ batch.map Parcel.id)
  rw [countP_batch hknown] at hsplit
  rw [hafter]
  refine ⟨by omega, ?_⟩
  have hzero : parcels.rows.countP (fun r => r.priced && decide (r.id ∈ batch.map Parcel.id)) = 0 ↔
      ∀ r ∈ parcels.rows, r.id ∈ batch.map Parcel.id → r.priced = false := by
    rw [List.countP_eq_zero]
    refine forall₂_congr fun r _ => ?_
    simp only [Bool.and_eq_true, decide_eq_true_eq, not_and', Bool.not_eq_true]
  rw [← hzero]
  omega

end Rows

/-! ## Rows along a step -/

/-- The parcels that a move creates. -/
def JobMove.created : JobMove → List Parcel
  | create p => [p]
  | _ => []

/-- What a step makes of a row: nothing, or a commit of a run prices it at the rate of
that run. -/
inductive RowStep (cfg : DeliverySettings) (s : JobState) (l : JobMove) (r : Parcel) :
    Parcel → Prop where
  | same : RowStep cfg s l r r
  | priced {i : ℕ} {rate : Decimal} {updated : ℕ} {batch : List Parcel}
      {costs : List (String × Money)} {cost : Money} (hl : l = .commit i)
      (hpt : s.runs[i]? = some (.commitBatch rate updated batch))
      (hcosts : batchCosts cfg rate batch = some costs) (hbatch : r.id ∈ batch.map Parcel.id)
      (hcost : r.cost cfg rate = some cost) :
      RowStep cfg s l r { r with deliveryCostRub := some cost }

theorem RowStep.sameData {cfg : DeliverySettings} {s : JobState} {l : JobMove} {r r' : Parcel}
    (h : RowStep cfg s l r r') : r.SameData r' := by
  cases h with
  | same => exact .refl r
  | priced _ _ _ _ _ => exact ⟨rfl, rfl, rfl⟩

/-- All runs have ended. -/
def JobState.Idle (s : JobState) : Prop := ∀ pt ∈ s.runs, pt.ended = true

instance (s : JobState) : Decidable s.Idle := inferInstanceAs (Decidable (∀ _ ∈ _, _))

theorem JobState.Idle.of_runs_nil {s : JobState} (h : s.runs = []) : s.Idle := by
  rw [Idle, h]
  nofun

theorem JobState.Idle.not_live {s : JobState} {i : ℕ} {pt : RunPoint} (h : s.Idle)
    (hpt : s.runs[i]? = some pt) : pt.ended ≠ false := by
  intro hlive
  rw [h pt (List.mem_of_getElem? hpt)] at hlive
  cases hlive

/-- The batches that wait for their commit are known. -/
def BatchesKnown (s : JobState) : Prop :=
  ∀ (i : ℕ) (rate : Decimal) (updated : ℕ) (batch : List Parcel),
    s.runs[i]? = some (RunPoint.commitBatch rate updated batch) →
    BatchKnown s.parcels batch

section Steps

variable {cfg : DeliverySettings} {s s' : JobState} {l : JobMove} {j : ℕ}

theorem BatchesKnown.of_idle (h : s.Idle) : BatchesKnown s :=
  fun _ _ _ _ hpt => absurd rfl (h.not_live hpt)

/-- **The parcel table along a step**: every row stays in its place, priced or not, and
a created parcel comes behind them, unpriced. -/
theorem rows_of_step (hknown : BatchesKnown s) (h : JobStep cfg s l s') :
    ∃ f, s'.parcels.rows = s.parcels.rows.map f ++ l.created ∧
      (∀ r ∈ s.parcels.rows, RowStep cfg s l r (f r)) ∧ ∀ p ∈ l.created, p.priced = false := by
  have hsame : s'.parcels = s.parcels → l.created = [] → ∃ f,
      s'.parcels.rows = s.parcels.rows.map f ++ l.created ∧
        (∀ r ∈ s.parcels.rows, RowStep cfg s l r (f r)) ∧ ∀ p ∈ l.created, p.priced = false := by
    intro heq hnone
    rw [hnone]
    refine ⟨id, ?_, fun r _ => .same, fun p hp => absurd hp List.not_mem_nil⟩
    rw [heq, List.map_id, List.append_nil]
  cases h with
  | committed hpt hcosts hrows =>
    rename_i i rate updated batch costs parcels
    have hb := hknown i rate updated batch hpt
    refine ⟨fun r => if r.id ∈ batch.map Parcel.id then r.priceAt cfg rate else r, ?_, ?_,
      fun p hp => absurd hp List.not_mem_nil⟩
    · exact hrows.trans ((rows_of_commit hcosts hb).trans (List.append_nil _).symm)
    · intro r hr
      beta_reduce
      by_cases hid : r.id ∈ batch.map Parcel.id
      · obtain ⟨cost, hcost⟩ := cost_of_commit hcosts hb hr hid
        rw [if_pos hid, Parcel.priceAt, hcost]
        exact .priced rfl hpt hcosts hid hcost
      · rw [if_neg hid]
        exact .same
  | created hunpriced hinsert =>
    refine ⟨id, ?_, fun r _ => .same, fun p hp => ?_⟩
    · rw [List.map_id]
      exact (Table.insert_eq_some hinsert).1
    · rw [List.mem_singleton.mp hp]
      exact hunpriced
  | tick | manual | deleted _ | acquired _ _ | skipped _ _ | rateRead _ _ | rateFailed _ _
  | selected _ _ _ | drained _ _ | refused _ _ | finished _ | interrupted _ _ | lockExpired
  | rateExpired => exact hsame rfl rfl

theorem row_of_step (hknown : BatchesKnown s) (h : JobStep cfg s l s') {r : Parcel}
    (hr : r ∈ s.parcels.rows) : ∃ r' ∈ s'.parcels.rows, RowStep cfg s l r r' := by
  obtain ⟨f, hrows, hf, -⟩ := rows_of_step hknown h
  refine ⟨f r, ?_, hf r hr⟩
  rw [hrows]
  exact List.mem_append_left _ (List.mem_map_of_mem hr)

theorem BatchKnown.of_isBatch {batch : List Parcel} (h : s.IsBatch cfg batch) (hne : batch ≠ []) :
    BatchKnown s.parcels batch := by
  obtain ⟨hnodup, hmem, -⟩ := h
  have hrow : ∀ p ∈ batch, p ∈ s.parcels.rows := fun p hp => List.mem_of_mem_filter (hmem p hp)
  refine ⟨hne, ?_, fun p hp => ⟨p, hrow p hp, .refl p⟩⟩
  refine (List.nodup_map_iff_inj_on hnodup).mpr fun p hp q hq hid => ?_
  exact Parcel.eq_of_id (hrow p hp) (hrow q hq) hid

theorem BatchKnown.step {batch : List Parcel} (hb : BatchKnown s.parcels batch)
    (hknown : BatchesKnown s) (h : JobStep cfg s l s') : BatchKnown s'.parcels batch := by
  refine ⟨hb.nonempty, hb.nodup, fun p hp => ?_⟩
  obtain ⟨r, hr, hsame⟩ := hb.row p hp
  obtain ⟨r', hr', hrow⟩ := row_of_step hknown h hr
  have hsame' := hrow.sameData
  exact ⟨r', hr', hsame'.id.trans hsame.id, hsame'.weightKg.trans hsame.weightKg,
    hsame'.declaredValueUsd.trans hsame.declaredValueUsd⟩

/-- A run that waits for a commit has waited before the step, or has just read its batch. -/
theorem commitBatch_of_step (h : JobStep cfg s l s') {rate : Decimal} {updated : ℕ}
    {batch : List Parcel} (hpt' : s'.runs[j]? = some (.commitBatch rate updated batch)) :
    s.runs[j]? = some (.commitBatch rate updated batch) ∧ l ≠ .commit j ∨
      l = .select j batch ∧ s.IsBatch cfg batch ∧ batch ≠ [] := by
  rcases point_before_step h hpt' with ⟨pt, hpt, hstep⟩ | ⟨-, ⟨-, heq⟩ | ⟨-, heq⟩⟩
  · cases hstep with
    | stay hl =>
      refine Or.inl ⟨hpt, ?_⟩
      rintro rfl
      exact hl rfl
    | selected hbatch hne => exact Or.inr ⟨rfl, hbatch, hne⟩
  · cases heq
  · cases heq

/-- Every step keeps the waiting batches known. -/
theorem BatchesKnown.step (hknown : BatchesKnown s) (h : JobStep cfg s l s') :
    BatchesKnown s' := by
  intro j rate updated batch hpt
  rcases commitBatch_of_step h hpt with ⟨hold, -⟩ | ⟨-, hbatch, hne⟩
  · exact (hknown j rate updated batch hold).step hknown h
  · exact (BatchKnown.of_isBatch hbatch hne).step hknown h

/-- The batches that wait for their commit are unpriced in the table. -/
def BatchesUnpriced (s : JobState) : Prop :=
  ∀ (i : ℕ) (rate : Decimal) (updated : ℕ) (batch : List Parcel),
    s.runs[i]? = some (RunPoint.commitBatch rate updated batch) →
    ∀ r ∈ s.parcels.rows, r.id ∈ batch.map Parcel.id → r.priced = false

theorem BatchesUnpriced.of_idle (h : s.Idle) : BatchesUnpriced s :=
  fun _ _ _ _ hpt => absurd rfl (h.not_live hpt)

/-- **One run at a time finds its batch as it has read it**: a row of a waiting batch could
only have been priced by another run in progress. -/
theorem BatchesUnpriced.step (hunpriced : BatchesUnpriced s) (hknown : BatchesKnown s)
    (hmutex : s.MutualExclusion) (h : JobStep cfg s l s') : BatchesUnpriced s' := by
  intro j rate updated batch hpt r' hr' hid
  obtain ⟨f, hrows, hf, hcreated⟩ := rows_of_step hknown h
  rw [hrows, List.mem_append] at hr'
  rcases hr' with hr' | hr'
  · obtain ⟨r, hr, rfl⟩ := List.mem_map.mp hr'
    have hrow := hf r hr
    rw [hrow.sameData.id] at hid
    rcases commitBatch_of_step h hpt with ⟨hold, hl⟩ | ⟨rfl, hbatch, -⟩
    · generalize f r = r' at hrow ⊢
      cases hrow with
      | same => exact hunpriced j rate updated batch hold r hr hid
      | priced hl' hpt' _ _ _ =>
        obtain rfl := hmutex _ j ⟨_, hpt', rfl⟩ ⟨_, hold, rfl⟩
        exact absurd hl' hl
    · generalize f r = r' at hrow ⊢
      cases hrow with
      | same =>
        obtain ⟨p, hp, hpid⟩ := List.mem_map.mp hid
        obtain ⟨hp, hpriced⟩ := List.mem_filter.mp (hbatch.2.1 p hp)
        rw [Parcel.eq_of_id hr hp hpid.symm]
        exact Bool.not_eq_true' _ ▸ hpriced
      | priced hl _ _ _ _ => cases hl
  · exact hcreated r' hr'

end Steps

end ParcelDelivery
