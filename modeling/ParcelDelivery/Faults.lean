import ParcelDelivery.Process

/-!
# Failing commands

A program alone, in which one command fails by raising: the store is left as the commands
before it have left it, and the program ends there.

* `Prog.runFaulty` — the run in which the `n`-th command fails.
* `AllOrNothing` — wherever the program fails, the store is the one before it or the one
  that it leaves when nothing fails.
* `WritesOnce` — nothing is written after the first command that may write; such a program
  is all-or-nothing (`WritesOnce.allOrNothing`).
-/

namespace Process

universe u v

variable {C : Type u} {R : C → Type u} {ε α β : Type u} {σ : Type v}

namespace Prog

/-- Run a program whose `n`-th command raises `e` instead of doing anything. -/
def runFaulty (h : Handler C R ε σ) (e : ε) : Prog C R ε α → ℕ → σ → Except ε α × σ
  | ret a, _, s => (.ok a, s)
  | throw e', _, s => (.error e', s)
  | call c k, n, s =>
    match n with
    | 0 => (.error e, s)
    | n + 1 =>
      match h c s with
      | (.ok r, s') => (k r).runFaulty h e n s'
      | (.error e', s') => (.error e', s')

end Prog

/-- Wherever the program fails, it has done everything or nothing to the store. -/
def AllOrNothing (h : Handler C R ε σ) (m : Prog C R ε α) (s : σ) : Prop :=
  ∀ e n, (m.runFaulty h e n s).2 = s ∨ (m.runFaulty h e n s).2 = (m.run h s).2

/-- The command leaves every store as it is. -/
def ReadOnly (h : Handler C R ε σ) (c : C) : Prop := ∀ s, (h c s).2 = s

/-- The program leaves every store as it is. -/
inductive Quiet (h : Handler C R ε σ) : Prog C R ε α → Prop where
  | ret (a : α) : Quiet h (.ret a)
  | throw (e : ε) : Quiet h (.throw e)
  | call {c : C} {k : R c → Prog C R ε α} (hc : ReadOnly h c) (hk : ∀ r, Quiet h (k r)) :
    Quiet h (.call c k)

/-- The program writes at most once, and last. -/
inductive WritesOnce (h : Handler C R ε σ) : Prog C R ε α → Prop where
  | quiet {m : Prog C R ε α} (hm : Quiet h m) : WritesOnce h m
  | read {c : C} {k : R c → Prog C R ε α} (hc : ReadOnly h c) (hk : ∀ r, WritesOnce h (k r)) :
    WritesOnce h (.call c k)
  | write {c : C} {k : R c → Prog C R ε α} (hk : ∀ r, Quiet h (k r)) : WritesOnce h (.call c k)

variable {h : Handler C R ε σ} {m : Prog C R ε α} {s s' : σ} {e : ε} {n : ℕ}

/-! ## Failing runs -/

@[simp] theorem runFaulty_ret (a : α) : (Prog.ret a : Prog C R ε α).runFaulty h e n s = (.ok a, s) :=
  rfl

@[simp] theorem runFaulty_throw (e' : ε) :
    (Prog.throw e' : Prog C R ε α).runFaulty h e n s = (.error e', s) := rfl

@[simp] theorem runFaulty_zero (c : C) (k : R c → Prog C R ε α) :
    (Prog.call c k).runFaulty h e 0 s = (.error e, s) := rfl

theorem runFaulty_succ (c : C) (k : R c → Prog C R ε α) :
    (Prog.call c k).runFaulty h e (n + 1) s =
      (Prog.resume k (h c s).1).runFaulty h e n (h c s).2 := by
  rcases hc : h c s with ⟨e' | r, s'⟩ <;> simp only [Prog.runFaulty, hc, Prog.resume]

/-- A program after a command that has answered. -/
theorem allOrNothing_call {c : C} {k : R c → Prog C R ε α} {r : R c} (hc : h c s = (.ok r, s')) :
    AllOrNothing h (.call c k) s ↔
      ∀ e n, ((k r).runFaulty h e n s').2 = s ∨ ((k r).runFaulty h e n s').2 = ((k r).run h s').2 := by
  have hrun : (Prog.call c k).run h s = (k r).run h s' := Prog.run_call_ok hc
  refine ⟨?_, ?_⟩
  · intro hall e n
    have hfaulty := hall e (n + 1)
    rwa [runFaulty_succ, hc, hrun] at hfaulty
  · intro hall e n
    cases n with
    | zero => exact Or.inl rfl
    | succ n =>
      rw [runFaulty_succ, hc, hrun]
      exact hall e n

/-- A command that only reads can be left out. -/
theorem allOrNothing_read {c : C} {k : R c → Prog C R ε α} {r : R c} (hc : h c s = (.ok r, s)) :
    AllOrNothing h (.call c k) s ↔ AllOrNothing h (k r) s := allOrNothing_call hc

/-- A command that raises and leaves the store alone. -/
theorem allOrNothing_error {c : C} {k : R c → Prog C R ε α} {e' : ε} (hc : h c s = (.error e', s)) :
    AllOrNothing h (.call c k) s := by
  intro e n
  cases n with
  | zero => exact Or.inl rfl
  | succ n =>
    rw [runFaulty_succ, hc]
    exact Or.inl rfl

/-- What is returned in the end does not matter. -/
theorem runFaulty_map (f : α → β) : ((f <$> m).runFaulty h e n s).2 = (m.runFaulty h e n s).2 := by
  induction m generalizing n s with
  | ret _ | throw _ => rfl
  | call c k ih =>
    rw [Prog.call_map]
    cases n with
    | zero => rfl
    | succ n =>
      simp only [runFaulty_succ]
      rcases h c s with ⟨e' | r, s'⟩
      · rfl
      · exact ih r

theorem run_map (f : α → β) : ((f <$> m).run h s).2 = (m.run h s).2 := by
  change ((m >>= fun a => .ret (f a)).run h s).2 = _
  rw [Prog.run_bind]
  rcases m.run h s with ⟨e | a, s'⟩ <;> rfl

theorem allOrNothing_map (f : α → β) : AllOrNothing h (f <$> m) s ↔ AllOrNothing h m s := by
  simp only [AllOrNothing, runFaulty_map, run_map]

/-! ## Programs that write once -/

theorem Quiet.run (hm : Quiet h m) : (m.run h s).2 = s := by
  induction hm generalizing s with
  | ret _ | throw _ => rfl
  | call hc hk ih =>
    rename_i c k
    rw [Prog.run_call]
    have hstore := hc s
    rcases hcall : h c s with ⟨e | r, s'⟩
    · rw [hcall] at hstore
      exact hstore
    · rw [hcall] at hstore
      obtain rfl : s' = s := hstore
      exact ih r

theorem Quiet.runFaulty (hm : Quiet h m) : (m.runFaulty h e n s).2 = s := by
  induction hm generalizing n s with
  | ret _ | throw _ => rfl
  | call hc hk ih =>
    rename_i c k
    cases n with
    | zero => rfl
    | succ n =>
      rw [runFaulty_succ]
      have hstore := hc s
      rcases hcall : h c s with ⟨e' | r, s'⟩
      · rw [hcall] at hstore
        exact hstore
      · rw [hcall] at hstore
        obtain rfl : s' = s := hstore
        exact ih r

/-- **One write is all or nothing.** -/
theorem WritesOnce.allOrNothing (hm : WritesOnce h m) : AllOrNothing h m s := by
  intro e n
  induction hm generalizing n s with
  | quiet hm => exact Or.inl hm.runFaulty
  | read hc hk ih =>
    rename_i c k
    cases n with
    | zero => exact Or.inl rfl
    | succ n =>
      rw [runFaulty_succ, Prog.run_call]
      have hstore := hc s
      rcases hcall : h c s with ⟨e' | r, s'⟩
      · exact Or.inr rfl
      · rw [hcall] at hstore
        obtain rfl : s' = s := hstore
        exact ih r n
  | write hk =>
    rename_i c k
    cases n with
    | zero => exact Or.inl rfl
    | succ n =>
      -- the write has been done, and what follows leaves the store alone
      rw [runFaulty_succ, Prog.run_call]
      rcases h c s with ⟨e' | r, s'⟩
      · exact Or.inr rfl
      · exact Or.inr ((hk r).runFaulty.trans (hk r).run.symm)

end Process
