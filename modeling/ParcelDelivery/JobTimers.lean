import ParcelDelivery.PricingRuns

/-!
# The timers of the job

The job with a clock: `delivery_job_lock` expires `DELIVERY_LOCK_TTL` seconds after the `SET NX` that
has set it, and the scheduler starts a run at multiples of its interval, when the one before
has ended. A timed run is a run of the job (`job_of_timed`); all that the clock adds is
when the key goes.

Nothing in `recalc_delivery_costs` deletes the key. So the lock is free after every run, and every
tick takes it, exactly when each run outlasts the TTL; and of ticks at all multiples of the
interval, those are skipped at which the key of an earlier one is still there
(`job_lock_iff`).
-/

namespace ParcelDelivery

open Relational DecimalArith TransitionSystem

/-- The two settings, in seconds. -/
structure LockTimers : Type where
  /-- `DELIVERY_LOCK_TTL` -/
  ttl : ℕ
  /-- `DELIVERY_JOB_INTERVAL_MIN` -/
  interval : ℕ

/-- The defaults of `Settings`. -/
def LockTimers.default : LockTimers where
  ttl := 330
  interval := 5 * 60

/-- The job and the clock. -/
structure TimedJob : Type where
  job : JobState
  /-- the clock, in seconds -/
  now : ℕ
  /-- the instant of the last `SET NX` that has set the key -/
  acquiredAt : ℕ

/-- Time passes, or the job moves. -/
inductive TimedMove : Type where
  | wait (seconds : ℕ)
  | move (l : JobMove)

/-- The job with a clock: the key is there up to `ttl` seconds after it was set. -/
def timedSystem (cfg : DeliverySettings) (timers : LockTimers) : System TimedJob TimedMove where
  step s
    | .wait seconds =>
      let now := s.now + seconds
      some { s with
        job := { s.job with lock := s.job.lock && decide (now ≤ s.acquiredAt + timers.ttl) }
        now := now }
    | .move .expireLock => none
    | .move l => ((jobSystem cfg).step s.job l).map fun job =>
      { s with job := job, acquiredAt := if job.lock && !s.job.lock then s.now else s.acquiredAt }

section Timed

variable {cfg : DeliverySettings} {timers : LockTimers} {s s' : TimedJob} {l : TimedMove}

/-- The steps of the job with a clock. -/
inductive TimedStep (cfg : DeliverySettings) (timers : LockTimers) (s : TimedJob) :
    TimedMove → TimedJob → Prop where
  | waited {seconds : ℕ} : TimedStep cfg timers s (.wait seconds) { s with
      job := { s.job with
        lock := s.job.lock && decide (s.now + seconds ≤ s.acquiredAt + timers.ttl) }
      now := s.now + seconds }
  | moved {l : JobMove} {job : JobState} (hl : l ≠ .expireLock) (hstep : JobStep cfg s.job l job) :
      TimedStep cfg timers s (.move l) { s with
        job := job, acquiredAt := if job.lock && !s.job.lock then s.now else s.acquiredAt }

/-- A move of the job, on the clock. -/
theorem timedSystem_move {l : JobMove} (hl : l ≠ .expireLock) :
    (timedSystem cfg timers).step s (.move l) = ((jobSystem cfg).step s.job l).map fun job =>
      { s with
        job := job
        acquiredAt := if job.lock && !s.job.lock then s.now else s.acquiredAt } := by
  cases l with
  | expireLock => exact absurd rfl hl
  | _ => rfl

/-- **Inversion of a timed step.** -/
theorem timedStep_of_step (h : (timedSystem cfg timers).step s l = some s') :
    TimedStep cfg timers s l s' := by
  cases l with
  | wait seconds =>
    obtain rfl := Option.some.inj h
    exact .waited
  | move l =>
    by_cases hl : l = .expireLock
    · subst hl
      cases h
    · rw [timedSystem_move hl] at h
      obtain ⟨job, hstep, rfl⟩ := Option.map_eq_some_iff.mp h
      exact .moved hl (jobStep_of_step hstep)

/-- **A timed step is a step of the job**, or none, or the end of the key. -/
theorem job_of_timedStep (h : (timedSystem cfg timers).step s l = some s') :
    ∃ moves, (jobSystem cfg).run s.job moves = some s'.job := by
  cases l with
  | wait seconds =>
    obtain rfl := Option.some.inj h
    by_cases hkept : s.now + seconds ≤ s.acquiredAt + timers.ttl
    · refine ⟨[], ?_⟩
      simp [hkept]
    · refine ⟨[.expireLock], ?_⟩
      simp only [hkept, decide_false, Bool.and_false]
      rfl
  | move l =>
    by_cases hl : l = .expireLock
    · subst hl
      cases h
    · rw [timedSystem_move hl] at h
      obtain ⟨job, hstep, rfl⟩ := Option.map_eq_some_iff.mp h
      exact ⟨[l], System.run_cons_eq_some.mpr ⟨job, hstep, rfl⟩⟩

/-- **Timed runs are runs of the job.** -/
theorem job_of_timed {moves : List TimedMove} (h : (timedSystem cfg timers).run s moves = some s') :
    (jobSystem cfg).Reachable s.job s'.job := by
  refine System.run_relates (r := fun s s' => (jobSystem cfg).Reachable s.job s'.job)
    (fun s => System.Reachable.refl s.job) System.Reachable.trans ?_ h
  exact fun s l s' hstep => job_of_timedStep hstep

end Timed

/-! ## The contract of the lock -/

/-- A tick of the scheduler. -/
def TimedMove.ticks : TimedMove → Bool
  | move .tick => true
  | _ => false

/-- No move of `manual_recalc`. -/
def TimedMove.automatic : TimedMove → Bool
  | move .manual => false
  | move (.delete _) => false
  | _ => true

/-- What the scheduler does: it starts runs at multiples of its interval, when those before have
ended. Nobody calls `manual_recalc`. -/
def Scheduled (timers : LockTimers) (s : TimedJob) (l : TimedMove) (_ : TimedJob) : Prop :=
  l.automatic = true ∧
    (l.ticks = true → timers.interval ∣ s.now ∧ ∀ pt ∈ s.job.runs, pt.ended = true)

instance (timers : LockTimers) (s : TimedJob) (l : TimedMove) (s' : TimedJob) :
    Decidable (Scheduled timers s l s') :=
  inferInstanceAs (Decidable (_ ∧ (_ → _ ∧ _)))

/-- The lock is held only while a run is in progress; a run that asks for it when none is gets it;
a run that comes to the end of its loop has left no parcel without a price. -/
structure LockContract (s : TimedJob) (l : TimedMove) (s' : TimedJob) : Prop where
  held : s'.job.lock = true → ∃ i, s'.job.Running i
  acquired : ∀ i, l = .move (.setNx i) → (∀ j, ¬ s.job.Running j) → s'.job.Running i
  priced : ∀ i updated : ℕ, s'.job.runs[i]? = some (RunPoint.finish updated) →
    s.job.runs[i]? ≠ some (RunPoint.finish updated) → ∀ r ∈ s'.job.parcels.rows, r.priced = true

/-- The run that ends has outlasted the TTL of its lock. -/
def OutlastsLock (timers : LockTimers) (s : TimedJob) (_ : TimedMove) (s' : TimedJob) : Prop :=
  (∃ i, s.job.Running i) → (∀ i, ¬ s'.job.Running i) → s.acquiredAt + timers.ttl < s.now

/-- Between two moves: one run at most has not ended, the key is there as long as the clock says,
and no longer than the run. -/
structure LockInvariant (timers : LockTimers) (s : TimedJob) : Prop where
  alone : ∀ (i j : ℕ) (pt pt' : RunPoint), s.job.runs[i]? = some pt → s.job.runs[j]? = some pt' →
    pt.ended = false → pt'.ended = false → i = j
  clock : ∀ i, s.job.Running i → (s.job.lock = true ↔ s.now ≤ s.acquiredAt + timers.ttl)
  held : s.job.lock = true → ∃ i, s.job.Running i

section Contract

variable {cfg : DeliverySettings} {timers : LockTimers} {s s' : TimedJob} {l : TimedMove} {i : ℕ}

/-- A run that has come to the end of its loop has been told that no row is unpriced. -/
theorem priced_of_finish {job job' : JobState} {l : JobMove} (hB : 0 < cfg.batchSize)
    (h : JobStep cfg job l job') {updated : ℕ} (hpt' : job'.runs[i]? = some (.finish updated))
    (hne : job.runs[i]? ≠ some (.finish updated)) : ∀ r ∈ job'.parcels.rows, r.priced = true := by
  rcases point_before_step h hpt' with ⟨pt, hpt, hstep⟩ | ⟨-, ⟨-, heq⟩ | ⟨-, heq⟩⟩
  · cases hstep with
    | stay hl => exact absurd hpt hne
    | drained hbatch =>
      cases h with
      | drained _ _ => exact priced_of_empty_batch hB hbatch
      | selected _ _ hnonempty => exact absurd rfl hnonempty
  · cases heq
  · cases heq

/-- A move of the job that sets the key puts its run in progress, and no other move starts one. -/
theorem lock_of_move {job job' : JobState} {l : JobMove} (h : JobStep cfg job l job')
    (hl : l ≠ .expireLock) (hl' : ∀ i, l ≠ .delete i) :
    (∃ i, l = .setNx i ∧ job.lock = false ∧ job'.lock = true ∧ job'.Running i) ∨
      job'.lock = job.lock ∧ ∀ i, job'.Running i → job.Running i := by
  have hrunning : (∀ i, l = .setNx i → job.lock = true) → ∀ i, job'.Running i → job.Running i := by
    intro hheld i hi
    rcases running_of_step h hi with hold | ⟨hset, hfree⟩
    · exact hold
    · exact nomatch (hheld i hset).symm.trans hfree
  cases h with
  | acquired hpt hfree =>
    rename_i i
    exact Or.inl ⟨i, rfl, hfree, rfl, .getRate,
      JobState.goto_runs_self (s := { job with lock := true }) hpt, rfl⟩
  | deleted hpt => exact absurd rfl (hl' _)
  | lockExpired => exact absurd rfl hl
  | skipped hpt hheld => exact Or.inr ⟨rfl, hrunning fun _ _ => hheld⟩
  | tick | manual | rateRead _ _ | rateFailed _ _ | selected _ _ _ | drained _ _
  | committed _ _ _ | refused _ _ | finished _ | interrupted _ _ | rateExpired
  | created _ _ => exact Or.inr ⟨rfl, hrunning nofun⟩

/-- A scheduled step starts no run next to one that has not ended. -/
theorem LockInvariant.alone_step (h : LockInvariant timers s) (hstep : TimedStep cfg timers s l s')
    (hscheduled : Scheduled timers s l s') :
    ∀ (i j : ℕ) (pt pt' : RunPoint), s'.job.runs[i]? = some pt → s'.job.runs[j]? = some pt' →
      pt.ended = false → pt'.ended = false → i = j := by
  cases hstep with
  | waited => exact h.alone
  | moved hl hmove =>
    rename_i l job
    intro i j pt pt' hpt hpt' hlive hlive'
    have hnone : l.starts = true → ∀ (k : ℕ) (pt : RunPoint), s.job.runs[k]? = some pt →
        pt.ended = true := by
      intro hstarts k pt hpt
      cases l with
      | tick => exact (hscheduled.2 rfl).2 pt (List.mem_of_getElem? hpt)
      | manual => cases hscheduled.1
      | _ => cases hstarts
    have hold : ∀ {k : ℕ}, (∃ pt, s.job.runs[k]? = some pt ∧ pt.ended = false) →
        ¬ l.starts = true := by
      rintro k ⟨pt, hpt, hlive⟩ hstarts
      rw [hnone hstarts k pt hpt] at hlive
      cases hlive
    rcases live_of_step hmove hpt hlive with hi | ⟨hi, hstarts⟩
    · rcases live_of_step hmove hpt' hlive' with hj | ⟨-, hstarts⟩
      · obtain ⟨pt₀, hpt₀, hlive₀⟩ := hi
        obtain ⟨pt₁, hpt₁, hlive₁⟩ := hj
        exact h.alone i j pt₀ pt₁ hpt₀ hpt₁ hlive₀ hlive₁
      · exact absurd hstarts (hold hi)
    · rcases live_of_step hmove hpt' hlive' with hj | ⟨hj, -⟩
      · exact absurd hstarts (hold hj)
      · exact hi.trans hj.symm

/-- A scheduled move deletes no key. -/
theorem not_delete_of_scheduled {l : JobMove} (h : Scheduled timers s (.move l) s') (i : ℕ) :
    l ≠ .delete i := by
  rintro rfl
  cases h.1

/-- **Exact guard**: a step keeps the contract exactly when the run that it ends has outlasted its
lock. -/
theorem outlastsLock_iff (hB : 0 < cfg.batchSize) (h : LockInvariant timers s)
    (hstep : TimedStep cfg timers s l s') (hscheduled : Scheduled timers s l s') :
    OutlastsLock timers s l s' ↔ LockContract s l s' := by
  cases hstep with
  | waited =>
    refine iff_of_true (fun ⟨i, hi⟩ hnone => absurd hi (hnone i)) ⟨fun hlock => ?_, nofun, ?_⟩
    · exact h.held (Bool.and_eq_true_iff.mp hlock).1
    · exact fun i updated hpt hne => absurd hpt hne
  | moved hl hmove =>
    rename_i l job
    have hpriced : ∀ i updated : ℕ, job.runs[i]? = some (RunPoint.finish updated) →
        s.job.runs[i]? ≠ some (RunPoint.finish updated) → ∀ r ∈ job.parcels.rows, r.priced = true :=
      fun i updated => priced_of_finish hB hmove
    rcases lock_of_move hmove hl (not_delete_of_scheduled hscheduled) with
      ⟨i, rfl, hfree, hheld, hrunning⟩ | ⟨hlock, hrunning⟩
    · refine iff_of_true (fun _ hnone => absurd hrunning (hnone i))
        ⟨fun _ => ⟨i, hrunning⟩, ?_, hpriced⟩
      rintro j heq -
      cases heq
      exact hrunning
    · refine ⟨?_, ?_⟩
      · intro hguard
        refine ⟨fun hlock' => ?_, ?_, hpriced⟩
        · by_contra hnone
          have hheld := hlock.symm.trans hlock'
          obtain ⟨i, hi⟩ := h.held hheld
          have hexpired := hguard ⟨i, hi⟩ (not_exists.mp hnone)
          exact Nat.not_le_of_lt hexpired ((h.clock i hi).mp hheld)
        · rintro i heq hnone
          cases heq
          cases hmove with
          | acquired hpt hfree => exact nomatch hfree.symm.trans hlock.symm
          | skipped hpt hheld =>
            obtain ⟨j, hj⟩ := h.held hheld
            exact absurd hj (hnone j)
      · rintro hcontract ⟨i, hi⟩ hnone
        have hfree : ¬ s.job.lock = true := by
          intro hheld
          obtain ⟨j, hj⟩ := hcontract.held (hlock.trans hheld)
          exact hnone j hj
        rw [h.clock i hi] at hfree
        exact not_le.mp hfree

/-- A key that goes by the clock still does when seconds have passed. -/
theorem lock_waited {lock : Bool} {now expires : ℕ} (h : lock = true ↔ now ≤ expires)
    (seconds : ℕ) :
    (lock && decide (now + seconds ≤ expires)) = true ↔ now + seconds ≤ expires := by
  simp only [Bool.and_eq_true, h, decide_eq_true_eq]
  omega

/-- **Step**: the contract keeps the invariant. -/
theorem LockInvariant.step (h : LockInvariant timers s) (hstep : TimedStep cfg timers s l s')
    (hscheduled : Scheduled timers s l s') (hcontract : LockContract s l s') :
    LockInvariant timers s' := by
  refine ⟨h.alone_step hstep hscheduled, ?_, hcontract.held⟩
  cases hstep with
  | waited =>
    rename_i seconds
    intro i hi
    exact lock_waited (h.clock i hi) seconds
  | moved hl hmove =>
    rename_i l job
    rcases lock_of_move hmove hl (not_delete_of_scheduled hscheduled) with
      ⟨i, rfl, hfree, hheld, hrunning⟩ | ⟨hlock, hrunning⟩
    · intro j hj
      simp [hfree, hheld]
    · intro i hi
      simpa [hlock] using h.clock i (hrunning i hi)

/-- No run is in progress, and nobody has the lock. -/
structure TimedJob.Idle (s : TimedJob) : Prop where
  ended : ∀ pt ∈ s.job.runs, pt.ended = true
  free : s.job.lock = false

theorem TimedJob.Idle.lockInvariant (h : s.Idle) : LockInvariant timers s := by
  have hnone : ∀ i, ¬ s.job.Running i := by
    rintro i ⟨pt, hpt, hin⟩
    exact nomatch (h.ended pt (List.mem_of_getElem? hpt)).symm.trans
      (RunPoint.not_ended_of_inProgress hin)
  refine ⟨fun i j pt pt' hpt _ hlive _ => ?_, fun i hi => absurd hi (hnone i), fun hlock => ?_⟩
  · rw [h.ended pt (List.mem_of_getElem? hpt)] at hlive
    cases hlive
  · rw [h.free] at hlock
    cases hlock

end Contract

/-! ## Ticks at all multiples -/

/-- What may happen between the `SET NX` of one run and the next tick. -/
def TimedMove.betweenTicks : TimedMove → Bool
  | move .tick => false
  | move .manual => false
  | move (.delete _) => false
  | move (.setNx _) => false
  | _ => true

/-- Ticks at all multiples of the interval, with runs that are shorter than it; whether the lock was
free at each of them. -/
inductive Ticks (cfg : DeliverySettings) (timers : LockTimers) (s₀ : TimedJob) :
    List Bool → TimedJob → Prop where
  | start : Ticks cfg timers s₀ [] s₀
  | tick {free : List Bool} {s s₁ s' : TimedJob} {body : List TimedMove}
      (h : Ticks cfg timers s₀ free s)
      (htick : (timedSystem cfg timers).run s
        [.move .tick, .move (.setNx s.job.runs.length)] = some s₁)
      (hbody : (timedSystem cfg timers).run s₁ body = some s')
      (hbetween : ∀ l ∈ body, l.betweenTicks = true)
      (hended : ∀ pt ∈ s'.job.runs, pt.ended = true)
      (hnext : s'.now = s.now + timers.interval) :
      Ticks cfg timers s₀ (free ++ [!s.job.lock]) s'

/-- The key was set at an instant, and goes by the clock. -/
structure KeySetAt (timers : LockTimers) (instant : ℕ) (s : TimedJob) : Prop where
  acquiredAt : s.acquiredAt = instant
  clock : s.job.lock = true ↔ s.now ≤ instant + timers.ttl

section Ticks

variable {cfg : DeliverySettings} {timers : LockTimers} {s s' s₀ : TimedJob} {l : TimedMove}
  {instant : ℕ} {free : List Bool}

theorem KeySetAt.step (h : KeySetAt timers instant s) (hstep : TimedStep cfg timers s l s')
    (hl : l.betweenTicks = true) : KeySetAt timers instant s' := by
  obtain ⟨rfl, hclock⟩ := h
  cases hstep with
  | waited =>
    rename_i seconds
    exact ⟨rfl, lock_waited hclock seconds⟩
  | moved hexpire hmove =>
    rename_i l job
    have hdelete : ∀ i, l ≠ .delete i := by
      rintro i rfl
      cases hl
    rcases lock_of_move hmove hexpire hdelete with ⟨i, rfl, -⟩ | ⟨hlock, -⟩
    · cases hl
    · refine ⟨?_, ?_⟩
      · simp [hlock]
      · rw [← hclock, ← hlock]

theorem KeySetAt.run {body : List TimedMove} (h : KeySetAt timers instant s)
    (hbetween : ∀ l ∈ body, l.betweenTicks = true)
    (hrun : (timedSystem cfg timers).run s body = some s') : KeySetAt timers instant s' :=
  System.run_invariant (I := KeySetAt timers instant) (A := fun _ l _ => l.betweenTicks = true)
    (fun _ _ _ h hstep hl => h.step (timedStep_of_step hstep) hl) h
    (System.steps_of_labels (P := fun l => TimedMove.betweenTicks l = true) hbetween) hrun

/-- A tick leaves the key and the clock. -/
theorem timed_tick (s : TimedJob) : (timedSystem cfg timers).step s (.move .tick) =
    some { s with job := { s.job with runs := s.job.runs ++ [.acquireLock] } } := by
  have hacquired : (if s.job.lock && !s.job.lock then s.now else s.acquiredAt) = s.acquiredAt :=
    if_neg (by simp)
  conv_rhs => rw [← hacquired]
  rfl

/-- A tick and the `SET NX` of its run: a key that is there stays, and otherwise it is set. -/
theorem keySetAt_tick (instant : ℕ) (hrun : (timedSystem cfg timers).run s
      [.move .tick, .move (.setNx s.job.runs.length)] = some s') :
    (s.job.lock = true → KeySetAt timers instant s → KeySetAt timers instant s') ∧
      (s.job.lock = false → KeySetAt timers s.now s') := by
  obtain ⟨s₁, hs₁, hrun₁⟩ := System.run_cons_eq_some.mp hrun
  obtain ⟨s₂, hs₂, hrun₂⟩ := System.run_cons_eq_some.mp hrun₁
  obtain rfl := Option.some.inj hrun₂
  rw [timed_tick] at hs₁
  obtain rfl := Option.some.inj hs₁
  cases timedStep_of_step hs₂ with
  | moved hexpire hmove =>
    cases hmove with
    | acquired hpt hfree =>
      refine ⟨fun hheld => ?_, fun hfree' => ⟨?_, iff_of_true rfl (Nat.le_add_right _ _)⟩⟩
      · exact nomatch hfree.symm.trans hheld
      · simp [JobState.goto, hfree']
    | skipped hpt hheld =>
      refine ⟨fun _ h => ⟨?_, h.clock⟩, fun hfree => nomatch hfree.symm.trans hheld⟩
      simp [JobState.goto, h.acquiredAt]

/-- The multiples at which the key of an earlier one has gone. -/
theorem expired_iff {ttl interval n q : ℕ} (hI : 0 < interval)
    (hle : q * (ttl / interval + 1) ≤ n) (t₀ : ℕ) :
    t₀ + n * interval ≤ t₀ + q * (ttl / interval + 1) * interval + ttl ↔
      n < (q + 1) * (ttl / interval + 1) := by
  obtain ⟨d, rfl⟩ := Nat.exists_eq_add_of_le hle
  have hsum : (q * (ttl / interval + 1) + d) * interval =
      q * (ttl / interval + 1) * interval + d * interval := Nat.add_mul _ _ _
  have hdiv : d ≤ ttl / interval ↔ d * interval ≤ ttl := Nat.le_div_iff_mul_le hI
  have hnext : (q + 1) * (ttl / interval + 1) =
      q * (ttl / interval + 1) + (ttl / interval + 1) := Nat.succ_mul _ _
  rw [hsum, hnext]
  omega

/-- Between two multiples of `m`, only the second one is one. -/
theorem dvd_iff_of_between {m n q : ℕ} (hlo : q * m < n) (hhi : n ≤ (q + 1) * m) :
    m ∣ n ↔ n = (q + 1) * m := by
  refine ⟨?_, ?_⟩
  · rintro ⟨c, rfl⟩
    have hc : q < c := by
      by_contra hle
      have hmul : m * c ≤ m * q := Nat.mul_le_mul_left m (not_lt.mp hle)
      rw [Nat.mul_comm q m] at hlo
      omega
    refine Nat.le_antisymm hhi ?_
    rw [Nat.mul_comm m c]
    exact Nat.mul_le_mul_right m hc
  · rintro rfl
    exact Nat.dvd_mul_left m (q + 1)

/-- Where the ticks stand after `n` of them. -/
structure TicksInvariant (timers : LockTimers) (s₀ : TimedJob) (free : List Bool)
    (s : TimedJob) : Prop where
  now : s.now = s₀.now + free.length * timers.interval
  first : free = [] → s.job.lock = false
  key : free ≠ [] → ∃ q, q * (timers.ttl / timers.interval + 1) < free.length ∧
    free.length ≤ (q + 1) * (timers.ttl / timers.interval + 1) ∧
    KeySetAt timers (s₀.now + q * (timers.ttl / timers.interval + 1) * timers.interval) s
  free_iff : ∀ (k : ℕ) (b : Bool), free[k]? = some b →
    (b = true ↔ timers.ttl / timers.interval + 1 ∣ k)

/-- A tick finds the lock free at the multiples of `ttl / interval + 1`. -/
theorem TicksInvariant.free_at (h : TicksInvariant timers s₀ free s) (hI : 0 < timers.interval) :
    (!s.job.lock) = true ↔ timers.ttl / timers.interval + 1 ∣ free.length := by
  rw [Bool.not_eq_true', ← Bool.not_eq_true]
  by_cases hnil : free = []
  · rw [h.first hnil, hnil]
    exact iff_of_true Bool.false_ne_true (Nat.dvd_zero _)
  · obtain ⟨q, hlo, hhi, hkey⟩ := h.key hnil
    rw [hkey.clock, h.now, expired_iff hI hlo.le, dvd_iff_of_between hlo hhi]
    omega

/-- **Run**: which ticks find the lock free. -/
theorem ticksInvariant_of_ticks (hI : 0 < timers.interval) (hidle : s₀.Idle)
    (h : Ticks cfg timers s₀ free s) : TicksInvariant timers s₀ free s := by
  induction h with
  | start =>
    refine ⟨by simp, fun _ => hidle.free, fun hne => absurd rfl hne, fun k b hb => ?_⟩
    cases hb
  | tick h htick hbody hbetween hended hnext ih =>
    rename_i free s s₁ s' body
    have hfree := ih.free_at hI
    obtain ⟨hkept, hset⟩ := keySetAt_tick s.acquiredAt htick
    refine ⟨?_, fun hnil => absurd hnil (List.append_ne_nil_of_right_ne_nil _ (by simp)),
      fun _ => ?_, fun k b hb => ?_⟩
    · simp only [hnext, ih.now, List.length_append, List.length_singleton, Nat.succ_mul,
        Nat.add_assoc]
    · rw [List.length_append, List.length_singleton]
      cases hlock : s.job.lock with
      | true =>
        -- the key of an earlier tick
        have hne : free ≠ [] := fun hnil => nomatch hlock.symm.trans (ih.first hnil)
        obtain ⟨q, hlo, hhi, hkey⟩ := ih.key hne
        have hnot : ¬ timers.ttl / timers.interval + 1 ∣ free.length := by
          rw [← hfree, hlock]
          exact Bool.false_ne_true
        rw [dvd_iff_of_between hlo hhi] at hnot
        refine ⟨q, by omega, by omega, ?_⟩
        rw [hkey.acquiredAt] at hkept
        exact (hkept hlock hkey).run hbetween hbody
      | false =>
        -- the key of this tick
        obtain ⟨q, hq⟩ : timers.ttl / timers.interval + 1 ∣ free.length := by
          rw [← hfree, hlock]
          rfl
        have hmul : (timers.ttl / timers.interval + 1) * q = q * (timers.ttl / timers.interval + 1) :=
          Nat.mul_comm _ _
        have hpos : 1 ≤ timers.ttl / timers.interval + 1 := Nat.le_add_left 1 _
        refine ⟨q, by omega, by rw [Nat.succ_mul]; omega, ?_⟩
        rw [← hmul, ← hq, ← ih.now]
        exact (hset hlock).run hbetween hbody
    · rcases Nat.lt_trichotomy k free.length with hlt | rfl | hgt
      · rw [List.getElem?_append_left hlt] at hb
        exact ih.free_iff k b hb
      · rw [List.getElem?_append_right (Nat.le_refl _), Nat.sub_self] at hb
        obtain rfl := Option.some.inj hb
        exact hfree
      · rw [List.getElem?_eq_none (by rw [List.length_append, List.length_singleton]; omega)] at hb
        cases hb

end Ticks

/-- **Exactly when the lock is held only during a run**: along every schedule of ticks, the lock is
free after each run and every tick takes it if and only if each run outlasts the TTL of its
lock. Of ticks at all multiples of the interval, `n` finds the lock free if and only if
it is a multiple of `ttl / interval + 1`. -/
theorem job_lock_iff (cfg : DeliverySettings) (timers : LockTimers) (s : TimedJob)
    (moves : List TimedMove) (hB : 0 < cfg.batchSize) (hI : 0 < timers.interval)
    (hidle : s.Idle) (hscheduled : (timedSystem cfg timers).Steps (Scheduled timers) s moves) :
    ((timedSystem cfg timers).Steps (OutlastsLock timers) s moves ↔
        (timedSystem cfg timers).Steps LockContract s moves) ∧
      ∀ free s', Ticks cfg timers s free s' → ∀ (n : ℕ) (b : Bool), free[n]? = some b →
        (b = true ↔ timers.ttl / timers.interval + 1 ∣ n) := by
  refine ⟨?_, fun free s' h => (ticksInvariant_of_ticks hI hidle h).free_iff⟩
  refine System.steps_iff (I := LockInvariant timers) (A := Scheduled timers) ?_ ?_
    hidle.lockInvariant hscheduled
  · intro s l s' hI hs hscheduled
    exact outlastsLock_iff hB hI (timedStep_of_step hs) hscheduled
  · intro s l s' hI hs hscheduled hguard
    have hstep := timedStep_of_step hs
    exact hI.step hstep hscheduled ((outlastsLock_iff hB hI hstep hscheduled).mp hguard)

/-! ## Sample schedules -/

/-- One unpriced parcel, before the first tick. -/
def oneParcel : TimedJob where
  job := { sampleParcels with parcels := Table.singleton (sampleParcel "parcel-1") }
  now := 0
  acquiredAt := 0

/-- A run that takes twenty seconds to fail, and the tick after it. -/
def slowMoves : List TimedMove :=
  [.move .tick, .move (.setNx 0), .wait 20, .move (.readRate 0 "2025-01-01" [none, none, none]),
    .wait 280, .move .tick, .move (.setNx 1)]

/-- Under a TTL of ten seconds the run outlasts its lock. -/
theorem job_lock_iff_slow :
    ((timedSystem .default ⟨10, 300⟩).Steps (OutlastsLock ⟨10, 300⟩) oneParcel slowMoves ↔
        (timedSystem .default ⟨10, 300⟩).Steps LockContract oneParcel slowMoves) ∧
      ∀ free s', Ticks .default ⟨10, 300⟩ oneParcel free s' → ∀ (n : ℕ) (b : Bool),
        free[n]? = some b → (b = true ↔ 10 / 300 + 1 ∣ n) :=
  job_lock_iff .default ⟨10, 300⟩ oneParcel slowMoves (by decide) (by decide)
    ⟨nofun, rfl⟩ (by decide)

/-- A run that prices the parcel in two seconds, a new parcel, and the tick after it. -/
def quickMoves : List TimedMove :=
  [.move .tick, .move (.setNx 0), .move (.readRate 0 "2025-01-01" [some ⟨90, 0⟩]),
    .move (.select 0 [sampleParcel "parcel-1"]), .wait 2, .move (.commit 0), .move (.select 0 []),
    .move (.finish 0 0), .wait 298, .move (.create (sampleParcel "parcel-2")), .move .tick,
    .move (.setNx 1)]

/-- With the default settings the lock outlives the run, and the next tick is skipped: it returns with
a parcel unpriced. -/
theorem tick_skipped :
    oneParcel.Idle ∧
      (timedSystem .default .default).Steps (Scheduled .default) oneParcel quickMoves ∧
      ∃ s', (timedSystem .default .default).run oneParcel quickMoves = some s' ∧
        s'.now = 300 ∧ s'.job.lock = true ∧ s'.job.runs = [.returned 1, .returned 0] ∧
        sampleParcel "parcel-2" ∈ s'.job.unpriced ∧
        ¬ (timedSystem .default .default).Steps LockContract oneParcel quickMoves := by
  refine ⟨⟨nofun, rfl⟩, by decide +kernel, _, rfl, rfl, by decide +kernel, by decide +kernel,
    by decide +kernel, fun hsteps => ?_⟩
  have hfinish := System.steps_iff_split.mp hsteps (quickMoves.take 7) (.move (.finish 0 0))
    (quickMoves.drop 8) _ _ rfl rfl rfl
  obtain ⟨i, pt, hpt, hin⟩ := hfinish.held rfl
  rcases i with _ | i
  · obtain rfl := Option.some.inj hpt
    cases hin
  · cases hpt

end ParcelDelivery
