import ParcelDelivery.PricingJob

/-!
# Mutual exclusion of the pricing job

`delivery_job_lock` carries no owner: `manual_recalc` deletes it whoever holds it, and
its TTL can run out under a live run. At most one run is in progress exactly as
long as every `SET NX` that is tried during a run still finds the key
(`mutual_exclusion_iff`).
-/

namespace ParcelDelivery

open TransitionSystem

namespace JobState

/-- Run `i` is between its successful `_acquire_lock` and its end. -/
def Running (s : JobState) (i : ℕ) : Prop := ∃ pt, s.runs[i]? = some pt ∧ pt.inProgress = true

/-- At most one run is in progress. -/
def MutualExclusion (s : JobState) : Prop := ∀ i j, s.Running i → s.Running j → i = j

section Goto

variable {s : JobState} {i j : ℕ} {pt pt' : RunPoint}

theorem goto_runs_self (h : s.runs[i]? = some pt) : (s.goto i pt').runs[i]? = some pt' := by
  obtain ⟨hi, -⟩ := List.getElem?_eq_some_iff.mp h
  exact List.getElem?_set_self hi

theorem goto_runs_of_ne (hj : j ≠ i) : (s.goto i pt').runs[j]? = s.runs[j]? :=
  List.getElem?_set_ne hj.symm

end Goto

end JobState

open JobState

section Steps

variable {cfg : DeliverySettings} {s s' : JobState} {l : JobMove} {i j : ℕ}

/-- A run comes to be in progress only by taking a free lock. -/
theorem running_of_step (h : JobStep cfg s l s') (hj : s'.Running j) :
    s.Running j ∨ l = .setNx j ∧ s.lock = false := by
  obtain ⟨pt', hpt', hin⟩ := hj
  rcases point_before_step h hpt' with ⟨pt, hpt, hstep⟩ | ⟨-, ⟨-, rfl⟩ | ⟨-, rfl⟩⟩
  · cases hstep with
    | stay _ => exact Or.inl ⟨_, hpt, hin⟩
    | acquired hfree => exact Or.inr ⟨rfl, hfree⟩
    | rateRead | selected _ _ | drained _ | committed _ => exact Or.inl ⟨_, hpt, rfl⟩
    | deleted | skipped _ | rateFailed | refused _ | finished | interrupted _ => cases hin
  · cases hin
  · cases hin

/-- A `SET NX` that finds no key puts its run in progress, next to those that are. -/
theorem running_of_setNx (h : JobStep cfg s (.setNx i) s') (hfree : s.lock = false) :
    s.runs[i]? = some .acquireLock ∧ s'.Running i ∧ ∀ j, j ≠ i → s.Running j → s'.Running j := by
  cases h with
  | acquired hpt _ =>
    refine ⟨hpt, ⟨.getRate, goto_runs_self (s := { s with lock := true }) hpt, rfl⟩, ?_⟩
    rintro j hj ⟨pt, hget, hin⟩
    exact ⟨pt, (goto_runs_of_ne (s := { s with lock := true }) hj).trans hget, hin⟩
  | skipped _ hheld =>
    rw [hfree] at hheld
    cases hheld

/-- The guard of a move: a `SET NX` that is tried during a run finds the key. -/
def LockKept (s : JobState) (l : JobMove) (_ : JobState) : Prop :=
  ∀ i, l = .setNx i → (∃ j, s.Running j) → s.lock = true

/-- The key is neither deleted nor does it expire during a run. -/
def LockUndisturbed (s : JobState) (l : JobMove) (_ : JobState) : Prop :=
  (l = .expireLock ∨ ∃ i, l = .delete i) → ∀ j, ¬ s.Running j

/-- A step keeps mutual exclusion exactly when it meets the guard. -/
theorem lockKept_iff (hmutex : s.MutualExclusion) (h : JobStep cfg s l s') :
    LockKept s l s' ↔ s'.MutualExclusion := by
  refine ⟨?_, ?_⟩
  · intro hkept i j hi hj
    rcases running_of_step h hi with hi | ⟨rfl, hfree⟩
    · rcases running_of_step h hj with hj | ⟨rfl, hfree⟩
      · exact hmutex i j hi hj
      · rw [hkept j rfl ⟨i, hi⟩] at hfree
        cases hfree
    · rcases running_of_step h hj with hj | ⟨heq, -⟩
      · rw [hkept i rfl ⟨j, hj⟩] at hfree
        cases hfree
      · exact JobMove.setNx.inj heq
  · rintro hmutex' i rfl ⟨j, hj⟩
    cases hlock : s.lock with
    | true => rfl
    | false =>
      obtain ⟨hpt, hi, hothers⟩ := running_of_setNx h hlock
      have hne : j ≠ i := by
        rintro rfl
        obtain ⟨pt, hget, hin⟩ := hj
        rw [hpt] at hget
        obtain rfl := Option.some.inj hget
        cases hin
      exact absurd (hmutex' j i (hothers j hne hj) hi) hne

/-- The lock of a run in progress stays, unless it is deleted or expires. -/
theorem lock_of_step (h : JobStep cfg s l s') (hlock : s.lock = true)
    (hl : l ≠ .expireLock) (hl' : ∀ i, l ≠ .delete i) : s'.lock = true := by
  cases h with
  | deleted _ => exact absurd rfl (hl' _)
  | lockExpired => exact absurd rfl hl
  | acquired _ _ => rfl
  | tick | manual | skipped _ _ | rateRead _ _ | rateFailed _ _ | selected _ _ _
  | drained _ _ | committed _ _ _ | refused _ _ | finished _ | interrupted _ _
  | rateExpired | created _ _ => exact hlock

/-- While the lock is not disturbed, a run in progress has it. -/
theorem locked_step (h : JobStep cfg s l s') (hlocked : ∀ j, s.Running j → s.lock = true)
    (hundisturbed : LockUndisturbed s l s') : ∀ j, s'.Running j → s'.lock = true := by
  intro j hj
  rcases running_of_step h hj with hold | ⟨rfl, hfree⟩
  · refine lock_of_step h (hlocked j hold) ?_ ?_
    · rintro rfl
      exact hundisturbed (Or.inl rfl) j hold
    · rintro i rfl
      exact hundisturbed (Or.inr ⟨i, rfl⟩) j hold
  · cases h with
    | acquired _ _ => rfl
    | skipped _ hheld =>
      rw [hfree] at hheld
      cases hheld

end Steps

/-- **Mutual exclusion of the job**: in every sequence of moves, at most one run is
in progress in every state exactly when each `SET NX` that is tried during a run finds
the key; this is the case when the key is neither deleted nor expires during a run. -/
theorem mutual_exclusion_iff (cfg : DeliverySettings) (s : JobState) (moves : List JobMove)
    (hidle : ∀ i, ¬ s.Running i) :
    ((jobSystem cfg).Steps LockKept s moves ↔
        (jobSystem cfg).Steps (fun _ _ s' => s'.MutualExclusion) s moves) ∧
      ((jobSystem cfg).Steps LockUndisturbed s moves →
        (jobSystem cfg).Steps (fun _ _ s' => s'.MutualExclusion) s moves) := by
  have hmutex : s.MutualExclusion := fun i _ hi => absurd hi (hidle i)
  refine ⟨?_, ?_⟩
  · refine System.steps_iff_guard (I := MutualExclusion) ?_ ?_ hmutex
    · intro s l s' hmutex hs
      exact lockKept_iff hmutex (jobStep_of_step hs)
    · intro s l s' hmutex hs hkept
      exact (lockKept_iff hmutex (jobStep_of_step hs)).mp hkept
  · refine System.steps_of_invariant
      (I := fun s => s.MutualExclusion ∧ ∀ j, s.Running j → s.lock = true) ?_ ⟨hmutex, fun j hj => absurd hj (hidle j)⟩
    rintro s l s' ⟨hmutex, hlocked⟩ hs hundisturbed
    have hstep := jobStep_of_step hs
    have hkept : LockKept s l s' := fun i _ ⟨j, hj⟩ => hlocked j hj
    have hmutex' := (lockKept_iff hmutex hstep).mp hkept
    exact ⟨hmutex', hmutex', locked_step hstep hlocked hundisturbed⟩

/-- The job before its first run, with an empty parcel table. -/
def JobState.init : JobState where
  parcels := Relational.Table.empty
  lock := false
  rates := []
  lastRunUpdated := none
  lastRunAt := none
  recalcParcels := 0
  runs := []

theorem JobState.init_idle (i : ℕ) : ¬ JobState.init.Running i := by
  rintro ⟨pt, hget, -⟩
  cases hget

/-- Two ticks, the second one while the first run has the lock. -/
theorem mutual_exclusion_iff_ticks :
    ((jobSystem .default).Steps LockKept .init [.tick, .setNx 0, .tick, .setNx 1] ↔
        (jobSystem .default).Steps (fun _ _ s' => s'.MutualExclusion) .init
          [.tick, .setNx 0, .tick, .setNx 1]) ∧
      ((jobSystem .default).Steps LockUndisturbed .init [.tick, .setNx 0, .tick, .setNx 1] →
        (jobSystem .default).Steps (fun _ _ s' => s'.MutualExclusion) .init
          [.tick, .setNx 0, .tick, .setNx 1]) :=
  mutual_exclusion_iff .default .init _ JobState.init_idle

/-- A manual call during a scheduled run deletes its lock and runs next to it. -/
theorem manual_recalc_breaks_lock :
    ∃ s, (jobSystem .default).run .init [.tick, .setNx 0, .manual, .delete 1, .setNx 1] = some s ∧
      s.Running 0 ∧ s.Running 1 ∧ ¬ s.MutualExclusion := by
  refine ⟨_, rfl, ⟨.getRate, rfl, rfl⟩, ⟨.getRate, rfl, rfl⟩, fun hmutex => ?_⟩
  cases hmutex 0 1 ⟨.getRate, rfl, rfl⟩ ⟨.getRate, rfl, rfl⟩

end ParcelDelivery
