import ParcelDelivery.PricingSteps
import Mathlib.Algebra.GroupWithZero.Nat

/-!
# Counting the parcels that are priced

Every run counts the parcels of the batches it has committed, whether they were
unpriced or not. This module compares these counts with the parcels that really
went from `NULL` to a price: over a step (`tally_of_step`), and for the commits of
one run (`movedBy`).
-/

namespace ParcelDelivery

open Relational DecimalArith TransitionSystem

/-! ## Newly priced parcels -/

/-- The number of priced rows. -/
def JobState.pricedCount (s : JobState) : ℕ := s.parcels.rows.countP Parcel.priced

/-- The parcel has a price in this state. -/
def JobState.pricedAt (s : JobState) (id : String) : Bool :=
  s.parcels.rows.any fun r => decide (r.id = id) && r.priced

/-- The number of parcels that went from `NULL` to a price between two states. -/
def newlyPriced (s s' : JobState) : ℕ :=
  s'.parcels.rows.countP fun r => r.priced && !s.pricedAt r.id

/-- The rows of `s` are still there in `s'`, in their places, with their data and, where
they had one, with a price. -/
def Grows (s s' : JobState) : Prop :=
  ∃ f new, s'.parcels.rows = s.parcels.rows.map f ++ new ∧
    ∀ r ∈ s.parcels.rows, r.SameData (f r) ∧ (r.priced = true → (f r).priced = true)

section Grows

variable {cfg : DeliverySettings} {s s' s'' : JobState} {l : JobMove}

theorem Grows.refl (s : JobState) : Grows s s :=
  ⟨id, [], by rw [List.map_id, List.append_nil], fun r _ => ⟨.refl r, id⟩⟩

theorem Parcel.SameData.trans {p q r : Parcel} (h : p.SameData q) (h' : q.SameData r) :
    p.SameData r :=
  ⟨h'.id.trans h.id, h'.weightKg.trans h.weightKg, h'.declaredValueUsd.trans h.declaredValueUsd⟩

theorem Grows.trans (h : Grows s s') (h' : Grows s' s'') : Grows s s'' := by
  obtain ⟨f, new, hrows, hf⟩ := h
  obtain ⟨g, new', hrows', hg⟩ := h'
  refine ⟨g ∘ f, new.map g ++ new', ?_, fun r hr => ?_⟩
  · simp only [hrows', hrows, List.map_append, List.map_map, List.append_assoc]
  · have hfr : f r ∈ s'.parcels.rows := by
      rw [hrows]
      exact List.mem_append_left _ (List.mem_map_of_mem hr)
    obtain ⟨hsame, hpriced⟩ := hf r hr
    obtain ⟨hsame', hpriced'⟩ := hg (f r) hfr
    exact ⟨hsame.trans hsame', fun h => hpriced' (hpriced h)⟩

theorem RowStep.priced_mono {r r' : Parcel} (h : RowStep cfg s l r r') :
    r.priced = true → r'.priced = true := by
  cases h with
  | same => exact id
  | priced _ _ _ _ _ => exact fun _ => rfl

theorem grows_of_step (hknown : BatchesKnown s) (h : JobStep cfg s l s') : Grows s s' := by
  obtain ⟨f, hrows, hf, -⟩ := rows_of_step hknown h
  exact ⟨f, l.created, hrows, fun r hr => ⟨(hf r hr).sameData, (hf r hr).priced_mono⟩⟩

/-- The same table has the same priced rows. -/
theorem pricedCount_of_parcels (h : s'.parcels = s.parcels) : s'.pricedCount = s.pricedCount := by
  rw [JobState.pricedCount, h, JobState.pricedCount]

theorem pricedAt_self {r : Parcel} (hr : r ∈ s.parcels.rows) : s.pricedAt r.id = r.priced := by
  rw [Bool.eq_iff_iff, JobState.pricedAt, List.any_eq_true]
  refine ⟨?_, ?_⟩
  · rintro ⟨r', hr', h⟩
    rw [Bool.and_eq_true, decide_eq_true_eq] at h
    rw [← Parcel.eq_of_id hr' hr h.1]
    exact h.2
  · intro hpriced
    exact ⟨r, hr, by rw [hpriced, decide_eq_true rfl, Bool.true_and]⟩

/-- Nothing loses its price, so the newly priced parcels are those by which the number of
priced rows grows. -/
theorem newlyPriced_add (h : Grows s s') : newlyPriced s s' + s.pricedCount = s'.pricedCount := by
  obtain ⟨f, new, hrows, hf⟩ := h
  -- the rows that were priced before, counted in their new places
  have hwas : (s'.parcels.rows.countP fun r => r.priced && s.pricedAt r.id) = s.pricedCount := by
    have hunique := s'.parcels.unique
    rw [hrows, List.pairwise_append] at hunique
    have hnew : (new.countP fun r => r.priced && s.pricedAt r.id) = 0 := by
      rw [List.countP_eq_zero]
      intro p hp hcount
      rw [Bool.and_eq_true, JobState.pricedAt, List.any_eq_true] at hcount
      obtain ⟨-, r, hr, hid⟩ := hcount
      rw [Bool.and_eq_true, decide_eq_true_eq] at hid
      exact hunique.2.2 (f r) (List.mem_map_of_mem hr) p hp ((hf r hr).1.id.trans hid.1)
    simp only [hrows, List.countP_append, hnew, Nat.add_zero, List.countP_map]
    refine List.countP_congr fun r hr => ?_
    obtain ⟨hsame, hpriced⟩ := hf r hr
    rw [Function.comp_apply, hsame.id, pricedAt_self hr, Bool.and_eq_true]
    exact ⟨fun h => h.2, fun h => ⟨hpriced h, h⟩⟩
  have hsplit := List.countP_eq_countP_filter_add s'.parcels.rows Parcel.priced
    fun r => s.pricedAt r.id
  simp only [List.countP_filter, hwas] at hsplit
  exact (Nat.add_comm _ _).trans hsplit.symm

end Grows

/-! ## What the runs have counted -/

namespace RunPoint

/-- The parcels that the run has counted. -/
def counted : RunPoint → ℕ
  | fetchUnpriced _ updated => updated
  | commitBatch _ updated _ => updated
  | finish updated => updated
  | returned updated => updated
  | _ => 0

/-- The number that the run has returned. -/
def returnedCount : RunPoint → ℕ
  | returned updated => updated
  | _ => 0

/-- The run ended without returning. -/
def broken : RunPoint → Bool
  | raised _ => true
  | interrupted => true
  | _ => false

end RunPoint

namespace JobState

/-- What all runs have counted. -/
def counted (s : JobState) : ℕ := (s.runs.map RunPoint.counted).sum

/-- What all runs have returned. -/
def returnedTotal (s : JobState) : ℕ := (s.runs.map RunPoint.returnedCount).sum

/-- What run `i` has counted. -/
def countedBy (s : JobState) (i : ℕ) : ℕ := (s.runs[i]?.map RunPoint.counted).getD 0

variable {s : JobState} {i : ℕ} {pt pt' : RunPoint}

theorem countedBy_eq (h : s.runs[i]? = some pt) : s.countedBy i = pt.counted := by
  rw [countedBy, h]
  rfl

/-- When all runs have ended, they have returned what they have counted. -/
theorem returnedTotal_of_ended (h : ∀ pt ∈ s.runs, pt.ended = true) :
    s.returnedTotal = s.counted := by
  refine congrArg List.sum (List.map_congr_left fun pt hpt => ?_)
  have hended := h pt hpt
  cases pt <;> first | rfl | cases hended

theorem sum_map_set (f : RunPoint → ℕ) {runs : List RunPoint} (h : runs[i]? = some pt) :
    ((runs.set i pt').map f).sum + f pt = (runs.map f).sum + f pt' := by
  induction runs generalizing i with
  | nil => cases h
  | cons pt₀ runs ih =>
    cases i with
    | zero =>
      obtain rfl := Option.some.inj h
      simp only [List.set_cons_zero, List.map_cons, List.sum_cons]
      omega
    | succ i =>
      have ih := ih h
      simp only [List.set_cons_succ, List.map_cons, List.sum_cons]
      omega

/-- A run goes on: the sum changes by what its own count changes. -/
theorem counted_goto (h : s.runs[i]? = some pt) :
    (s.goto i pt').counted + pt.counted = s.counted + pt'.counted :=
  sum_map_set RunPoint.counted h

theorem counted_goto_of_eq (h : s.runs[i]? = some pt) (heq : pt'.counted = pt.counted) :
    (s.goto i pt').counted = s.counted := by
  have hgoto : (s.goto i pt').counted + pt.counted = s.counted + pt'.counted := counted_goto h
  omega

theorem sum_map_concat (f : RunPoint → ℕ) (runs : List RunPoint) (h : f pt = 0) :
    ((runs ++ [pt]).map f).sum = (runs.map f).sum := by
  rw [List.map_append, List.sum_append, List.map_singleton, List.sum_singleton, h, Nat.add_zero]

theorem counted_concat (h : pt.counted = 0) :
    ({ s with runs := s.runs ++ [pt] } : JobState).counted = s.counted :=
  sum_map_concat RunPoint.counted s.runs h

end JobState

/-! ## The tally of a step -/

/-- What a step does to the counts of the runs and to the number of priced rows. -/
inductive Tally (cfg : DeliverySettings) (s : JobState) (l : JobMove) (s' : JobState) : Prop where
  /-- a batch is committed -/
  | committed {i : ℕ} {rate : Decimal} {updated : ℕ} {batch : List Parcel}
      {costs : List (String × Money)} (hl : l = .commit i)
      (hpt : s.runs[i]? = some (.commitBatch rate updated batch))
      (hcosts : batchCosts cfg rate batch = some costs)
      (hrows : s'.parcels.rows = s.parcels.rows.map (Parcel.assignCost costs))
      (hcounted : s'.counted = s.counted + batch.length)
  /-- a batch is refused, and its run raises -/
  | refused {i : ℕ} {rate : Decimal} {updated : ℕ} {batch : List Parcel} (hl : l = .commit i)
      (hpt : s.runs[i]? = some (.commitBatch rate updated batch))
      (hcosts : batchCosts cfg rate batch = none) (hrows : s'.parcels = s.parcels)
      (hcounted : s'.counted + updated = s.counted)
  /-- a run is interrupted -/
  | interrupted {i : ℕ} {pt : RunPoint} (hl : l = .interrupt i) (hpt : s.runs[i]? = some pt)
      (hrows : s'.parcels = s.parcels) (hcounted : s'.counted + pt.counted = s.counted)
  /-- another step -/
  | other (hl : ∀ i, l ≠ .commit i) (hl' : ∀ i, l ≠ .interrupt i)
      (hpriced : s'.pricedCount = s.pricedCount) (hcounted : s'.counted = s.counted)

open JobState

theorem tally_of_step {cfg : DeliverySettings} {s s' : JobState} {l : JobMove}
    (h : JobStep cfg s l s') : Tally cfg s l s' := by
  cases h with
  | committed hpt hcosts hrows =>
    rename_i i rate updated batch costs parcels
    refine .committed rfl hpt hcosts hrows ?_
    have hgoto : ({ s with parcels := parcels }.goto i
        (.fetchUnpriced rate (updated + batch.length))).counted + updated =
          s.counted + (updated + batch.length) :=
      counted_goto (s := { s with parcels := parcels }) hpt
    omega
  | refused hpt hcosts =>
    refine .refused rfl hpt hcosts rfl ?_
    exact counted_goto hpt
  | interrupted hpt _ => exact .interrupted rfl hpt rfl (counted_goto hpt)
  | tick | manual => exact .other nofun nofun rfl (counted_concat rfl)
  | deleted hpt | acquired hpt _ =>
    exact .other nofun nofun rfl (counted_goto_of_eq (s := { s with lock := _ }) hpt rfl)
  | skipped hpt _ => exact .other nofun nofun rfl (counted_goto_of_eq hpt rfl)
  | rateRead hpt _ | rateFailed hpt _ =>
    exact .other nofun nofun rfl (counted_goto_of_eq (s := { s with rates := _ }) hpt rfl)
  | selected hpt _ _ | drained hpt _ => exact .other nofun nofun rfl (counted_goto_of_eq hpt rfl)
  | finished hpt =>
    exact .other nofun nofun rfl (counted_goto_of_eq
      (s := { s with recalcParcels := _, lastRunUpdated := _, lastRunAt := _ }) hpt rfl)
  | lockExpired | rateExpired => exact .other nofun nofun rfl rfl
  | created hunpriced hinsert =>
    refine .other nofun nofun ?_ rfl
    change List.countP _ _ = List.countP _ _
    rw [(Table.insert_eq_some hinsert).1, List.countP_append, List.countP_singleton, hunpriced]
    rfl

end ParcelDelivery
