import Mathlib.Data.List.Induction

/-!
# Runs of a labelled system

A `System` is a step function on labelled moves: all nondeterminism (which
thread moves, what a clock or an outside service answers) is in the label, so
that a schedule of labels determines the run and a run can be evaluated.

* `run` / `Reachable` — the states a schedule leads to.
* `Steps` — a property of every step of a run, told from the state before, the
  label and the state after. Guards (conditions on the state before a step),
  safety (conditions on the state after it) and frame properties are all `Steps`.
* `total` — the sum of a weight over the steps of a run.
* the run rules — from what one step preserves to what a whole run preserves,
  and the **exact-guard rule** `steps_iff`: where every step keeps a property
  exactly when it meets a guard, a run keeps it exactly when it meets the guard.
-/

namespace TransitionSystem

universe u v

/-- A labelled system: the state that a label leads to, `none` where the label
is not enabled. -/
structure System (S : Type u) (L : Type v) : Type (max u v) where
  /-- the next state -/
  step : S → L → Option S

namespace System

variable {S : Type u} {L : Type v} (T : System S L)

/-- Follow a schedule; `none` when one of its labels is not enabled. -/
def run : S → List L → Option S
  | s, [] => some s
  | s, l :: ls => (T.step s l).bind fun s' => run s' ls

/-- Every step of the run along a schedule satisfies `Q`. -/
def Steps (Q : S → L → S → Prop) : S → List L → Prop
  | _, [] => True
  | s, l :: ls => ∀ s', T.step s l = some s' → Q s l s' ∧ Steps Q s' ls

instance Steps.decide {Q : S → L → S → Prop} [∀ s l s', Decidable (Q s l s')] :
    ∀ (s : S) (ls : List L), Decidable (T.Steps Q s ls)
  | _, [] => isTrue trivial
  | s, l :: ls =>
    match h : T.step s l with
    | none => isTrue fun _ hs' => nomatch h.symm.trans hs'
    | some s₁ =>
      have := Steps.decide (Q := Q) s₁ ls
      decidable_of_iff (Q s l s₁ ∧ T.Steps Q s₁ ls)
        ⟨fun hq _ hs' => Option.some.inj (h.symm.trans hs') ▸ hq, fun hq => hq s₁ h⟩

/-- Some schedule leads from `s₀` to `s`. -/
def Reachable (s₀ s : S) : Prop := ∃ ls, T.run s₀ ls = some s

variable {T}

@[simp] theorem run_nil (s : S) : T.run s [] = some s := rfl

theorem run_cons_eq_some {s s' : S} {l : L} {ls : List L} :
    T.run s (l :: ls) = some s' ↔ ∃ s₁, T.step s l = some s₁ ∧ T.run s₁ ls = some s' := by
  rw [run, Option.bind_eq_some_iff]

theorem run_append {s : S} (ls ls' : List L) :
    T.run s (ls ++ ls') = (T.run s ls).bind fun s' => T.run s' ls' := by
  induction ls generalizing s with
  | nil => rfl
  | cons l ls ih =>
    simp only [List.cons_append, run, Option.bind_assoc]
    exact congrArg _ (funext fun s' => ih)

theorem run_append_eq_some {s s' : S} {ls ls' : List L} :
    T.run s (ls ++ ls') = some s' ↔ ∃ s₁, T.run s ls = some s₁ ∧ T.run s₁ ls' = some s' := by
  rw [run_append, Option.bind_eq_some_iff]

theorem Reachable.refl (s : S) : T.Reachable s s := ⟨[], rfl⟩

theorem Reachable.trans {s s₁ s₂ : S} (h₁ : T.Reachable s s₁) (h₂ : T.Reachable s₁ s₂) :
    T.Reachable s s₂ := by
  obtain ⟨ls, hls⟩ := h₁
  obtain ⟨ls', hls'⟩ := h₂
  exact ⟨ls ++ ls', run_append_eq_some.mpr ⟨s₁, hls, hls'⟩⟩

/-! ## Properties of all steps -/

variable {Q Q' A G : S → L → S → Prop}

@[simp] theorem steps_nil (s : S) : T.Steps Q s [] := trivial

theorem steps_cons {s : S} {l : L} {ls : List L} :
    T.Steps Q s (l :: ls) ↔ ∀ s', T.step s l = some s' → Q s l s' ∧ T.Steps Q s' ls :=
  Iff.rfl

theorem steps_cons_of_step {s s' : S} {l : L} {ls : List L} (hstep : T.step s l = some s') :
    T.Steps Q s (l :: ls) ↔ Q s l s' ∧ T.Steps Q s' ls := by
  refine ⟨?_, ?_⟩
  · exact fun h => h s' hstep
  · intro h s₁ hs₁
    obtain rfl := Option.some.inj (hstep.symm.trans hs₁)
    exact h

theorem Steps.mono (h : ∀ s l s', Q s l s' → Q' s l s') {s : S} {ls : List L}
    (hs : T.Steps Q s ls) : T.Steps Q' s ls := by
  induction ls generalizing s with
  | nil => trivial
  | cons l ls ih =>
    intro s' hs'
    obtain ⟨hq, hrest⟩ := hs s' hs'
    exact ⟨h s l s' hq, ih hrest⟩

theorem steps_of_forall (h : ∀ s l s', Q s l s') {s : S} {ls : List L} : T.Steps Q s ls := by
  induction ls generalizing s with
  | nil => trivial
  | cons l ls ih => exact fun s' _ => ⟨h s l s', ih⟩

/-- Two properties of all steps. -/
theorem Steps.and {s : S} {ls : List L} (h : T.Steps Q s ls) (h' : T.Steps Q' s ls) :
    T.Steps (fun s l s' => Q s l s' ∧ Q' s l s') s ls := by
  induction ls generalizing s with
  | nil => trivial
  | cons l ls ih =>
    intro s' hs'
    obtain ⟨hq, hrest⟩ := h s' hs'
    obtain ⟨hq', hrest'⟩ := h' s' hs'
    exact ⟨⟨hq, hq'⟩, ih hrest hrest'⟩

/-- A property of the labels of a schedule is a property of its steps. -/
theorem steps_of_labels {P : L → Prop} {s : S} {ls : List L} (h : ∀ l ∈ ls, P l) :
    T.Steps (fun _ l _ => P l) s ls := by
  induction ls generalizing s with
  | nil => trivial
  | cons l ls ih =>
    intro s' _
    exact ⟨h l List.mem_cons_self, ih fun l' hl' => h l' (List.mem_cons_of_mem l hl')⟩

/-- A property of all steps holds of the steps of the second part of a run. -/
theorem Steps.of_append_right {s s₁ : S} {ls ls' : List L} (h : T.Steps Q s (ls ++ ls'))
    (hrun : T.run s ls = some s₁) : T.Steps Q s₁ ls' := by
  induction ls generalizing s with
  | nil =>
    obtain rfl := Option.some.inj hrun
    exact h
  | cons l ls ih =>
    obtain ⟨s₂, hstep, hrun₂⟩ := run_cons_eq_some.mp hrun
    exact ih (h s₂ hstep).2 hrun₂

/-- A property of all steps holds of the steps of the first part of a run. -/
theorem Steps.of_append_left {s : S} {ls ls' : List L} (h : T.Steps Q s (ls ++ ls')) :
    T.Steps Q s ls := by
  induction ls generalizing s with
  | nil => trivial
  | cons l ls ih =>
    intro s' hs'
    exact ⟨(h s' hs').1, ih (h s' hs').2⟩

/-- The steps of a run, told by the schedule before and after each of them. -/
theorem steps_iff_split {s : S} {ls : List L} :
    T.Steps Q s ls ↔ ∀ before l after s₁ s₂, ls = before ++ l :: after →
      T.run s before = some s₁ → T.step s₁ l = some s₂ → Q s₁ l s₂ := by
  refine ⟨?_, ?_⟩
  · rintro h before l after s₁ s₂ rfl hrun hstep
    exact (h.of_append_right hrun s₂ hstep).1
  · intro h
    induction ls generalizing s with
    | nil => trivial
    | cons l ls ih =>
      intro s' hs'
      refine ⟨h [] l ls s s' rfl rfl hs', ih ?_⟩
      rintro before l' after s₁ s₂ rfl hrun hstep
      exact h (l :: before) l' after s₁ s₂ rfl (run_cons_eq_some.mpr ⟨s', hs', hrun⟩) hstep

/-! ## Sums over all steps -/

/-- The sum of a weight over the steps of the run along a schedule. -/
def total (T : System S L) (f : S → L → S → ℕ) : S → List L → ℕ
  | _, [] => 0
  | s, l :: ls =>
    match T.step s l with
    | none => 0
    | some s' => f s l s' + total T f s' ls

variable {f : S → L → S → ℕ}

theorem total_cons_of_step {s s' : S} {l : L} {ls : List L} (hstep : T.step s l = some s') :
    T.total f s (l :: ls) = f s l s' + T.total f s' ls := by
  rw [total, hstep]

/-- Nothing adds up to zero but zeros. -/
theorem total_eq_zero_iff {s : S} {ls : List L} :
    T.total f s ls = 0 ↔ T.Steps (fun s l s' => f s l s' = 0) s ls := by
  induction ls generalizing s with
  | nil => exact iff_of_true rfl trivial
  | cons l ls ih =>
    rcases hstep : T.step s l with _ | s'
    · rw [total, hstep]
      refine iff_of_true rfl fun s' hs' => ?_
      cases hstep.symm.trans hs'
    · rw [total_cons_of_step hstep, steps_cons_of_step hstep, Nat.add_eq_zero_iff, ih]

/-! ## Records of all steps -/

/-- What the steps of the run along a schedule record, one after the other. -/
def collect {E : Type*} (T : System S L) (g : S → L → S → List E) : S → List L → List E
  | _, [] => []
  | s, l :: ls =>
    match T.step s l with
    | none => []
    | some s' => g s l s' ++ collect T g s' ls

section Collect

variable {E : Type*} {g : S → L → S → List E}

theorem collect_cons_of_step {s s' : S} {l : L} {ls : List L} (hstep : T.step s l = some s') :
    T.collect g s (l :: ls) = g s l s' ++ T.collect g s' ls := by
  rw [collect, hstep]

theorem collect_cons_of_none {s : S} {l : L} {ls : List L} (hstep : T.step s l = none) :
    T.collect g s (l :: ls) = [] := by
  rw [collect, hstep]

/-- The records of a run in two parts. -/
theorem collect_append {s s' : S} {ls ls' : List L} (hrun : T.run s ls = some s') :
    T.collect g s (ls ++ ls') = T.collect g s ls ++ T.collect g s' ls' := by
  induction ls generalizing s with
  | nil =>
    obtain rfl := Option.some.inj hrun
    rfl
  | cons l ls ih =>
    obtain ⟨s₁, hs₁, hrest⟩ := run_cons_eq_some.mp hrun
    rw [List.cons_append, collect_cons_of_step hs₁, collect_cons_of_step hs₁, ih hrest,
      List.append_assoc]

/-- What is true of the records of each step from an invariant state is true of all. -/
theorem mem_collect {I : S → Prop} {P : E → Prop}
    (hstep : ∀ s l s', I s → T.step s l = some s' → (∀ e ∈ g s l s', P e) ∧ I s') {ls : List L}
    {s : S} (hI : I s) : ∀ e ∈ T.collect g s ls, P e := by
  induction ls generalizing s with
  | nil => exact fun e he => absurd he List.not_mem_nil
  | cons l ls ih =>
    rcases hs : T.step s l with _ | s'
    · rw [collect_cons_of_none hs]
      exact fun e he => absurd he List.not_mem_nil
    · obtain ⟨hP, hI'⟩ := hstep s l s' hI hs
      rw [collect_cons_of_step hs]
      intro e he
      rcases List.mem_append.mp he with he | he
      · exact hP e he
      · exact ih hI' e he

end Collect

/-! ## The run rules -/

/-- **Invariant rule**: what every step meeting `A` preserves holds at the end
of every run whose steps meet `A`. -/
theorem run_invariant {I : S → Prop}
    (hstep : ∀ s l s', I s → T.step s l = some s' → A s l s' → I s') :
    ∀ {ls : List L} {s s' : S}, I s → T.Steps A s ls → T.run s ls = some s' → I s' := by
  intro ls
  induction ls with
  | nil =>
    intro s s' hI _ hrun
    obtain rfl := Option.some.inj hrun
    exact hI
  | cons l ls ih =>
    intro s s' hI hA hrun
    obtain ⟨s₁, hs₁, hrest⟩ := run_cons_eq_some.mp hrun
    obtain ⟨hA₁, hA₂⟩ := hA s₁ hs₁
    exact ih (hstep s l s₁ hI hs₁ hA₁) hA₂ hrest

/-- The invariant rule for what every step preserves. -/
theorem run_preserves {I : S → Prop} (hstep : ∀ s l s', I s → T.step s l = some s' → I s')
    {ls : List L} {s s' : S} (hI : I s) (hrun : T.run s ls = some s') : I s' :=
  run_invariant (A := fun _ _ _ => True) (fun s l s' hI hs _ => hstep s l s' hI hs) hI
    (steps_of_forall fun _ _ _ => trivial) hrun

/-- Run rule for a property of steps, carried by an invariant. -/
theorem steps_of_invariant {I : S → Prop}
    (hstep : ∀ s l s', I s → T.step s l = some s' → A s l s' → Q s l s' ∧ I s') :
    ∀ {ls : List L} {s : S}, I s → T.Steps A s ls → T.Steps Q s ls := by
  intro ls
  induction ls with
  | nil => intro s _ _; trivial
  | cons l ls ih =>
    intro s hI hA s' hs'
    obtain ⟨hA₁, hA₂⟩ := hA s' hs'
    obtain ⟨hQ, hI'⟩ := hstep s l s' hI hs' hA₁
    exact ⟨hQ, ih hI' hA₂⟩

/-- **Exact-guard rule.** Under an assumption `A`: where each step from an
invariant state keeps the property `Q` exactly when it meets the guard `G`, and
a guarded step keeps the invariant, a run keeps `Q` at every step exactly when
it meets `G` at every step. -/
theorem steps_iff {I : S → Prop}
    (hiff : ∀ s l s', I s → T.step s l = some s' → A s l s' → (G s l s' ↔ Q s l s'))
    (hinv : ∀ s l s', I s → T.step s l = some s' → A s l s' → G s l s' → I s') :
    ∀ {ls : List L} {s : S}, I s → T.Steps A s ls → (T.Steps G s ls ↔ T.Steps Q s ls) := by
  intro ls
  induction ls with
  | nil => intro s _ _; exact Iff.rfl
  | cons l ls ih =>
    intro s hI hA
    simp only [steps_cons]
    refine forall_congr' fun s' => forall_congr' fun hs' => ?_
    obtain ⟨hA₁, hA₂⟩ := hA s' hs'
    have hGQ := hiff s l s' hI hs' hA₁
    refine ⟨?_, ?_⟩
    · rintro ⟨hG, hrest⟩
      exact ⟨hGQ.mp hG, (ih (hinv s l s' hI hs' hA₁ hG) hA₂).mp hrest⟩
    · rintro ⟨hQ, hrest⟩
      have hG := hGQ.mpr hQ
      exact ⟨hG, (ih (hinv s l s' hI hs' hA₁ hG) hA₂).mpr hrest⟩

/-- The exact-guard rule without an assumption. -/
theorem steps_iff_guard {G : S → L → S → Prop} {I : S → Prop}
    (hiff : ∀ s l s', I s → T.step s l = some s' → (G s l s' ↔ Q s l s'))
    (hinv : ∀ s l s', I s → T.step s l = some s' → G s l s' → I s') {ls : List L} {s : S}
    (hI : I s) : T.Steps G s ls ↔ T.Steps Q s ls :=
  steps_iff (A := fun _ _ _ => True) (fun s l s' hI hs _ => hiff s l s' hI hs)
    (fun s l s' hI hs _ => hinv s l s' hI hs) hI (steps_of_forall fun _ _ _ => trivial)

/-- **History rule**: a property of a state and of the schedule that has led to it, which every
step extends. -/
theorem run_history {P : List L → S → Prop} {s₀ : S} (hnil : P [] s₀)
    (hstep : ∀ before s l s', T.run s₀ before = some s → P before s → T.step s l = some s' →
      P (before ++ [l]) s') :
    ∀ {ls : List L} {s : S}, T.run s₀ ls = some s → P ls s := by
  intro ls
  induction ls using List.reverseRecOn with
  | nil =>
    intro s hrun
    obtain rfl := Option.some.inj hrun
    exact hnil
  | append_singleton before l ih =>
    intro s' hrun
    obtain ⟨s, hbefore, hlast⟩ := run_append_eq_some.mp hrun
    obtain ⟨s₁, hs₁, hrest⟩ := run_cons_eq_some.mp hlast
    obtain rfl := Option.some.inj hrest
    exact hstep before s l s₁ hbefore (ih hbefore) hs₁

/-- **Balance rule**: where every step adds to `p` what it adds to `q` and its weight, a run adds
to `p` what it adds to `q` and the sum of the weights. -/
theorem run_balance {I : S → Prop} {p q : S → ℕ}
    (hstep : ∀ s l s', I s → T.step s l = some s' → A s l s' →
      q s' + p s + f s l s' = q s + p s' ∧ I s') :
    ∀ {ls : List L} {s s' : S}, I s → T.Steps A s ls → T.run s ls = some s' →
      q s' + p s + T.total f s ls = q s + p s' := by
  intro ls
  induction ls with
  | nil =>
    intro s s' _ _ hrun
    obtain rfl := Option.some.inj hrun
    rfl
  | cons l ls ih =>
    intro s s' hI hA hrun
    obtain ⟨s₁, hs₁, hrest⟩ := run_cons_eq_some.mp hrun
    obtain ⟨hA₁, hA₂⟩ := hA s₁ hs₁
    obtain ⟨hbalance, hI'⟩ := hstep s l s₁ hI hs₁ hA₁
    have hrest := ih hI' hA₂ hrest
    rw [total_cons_of_step hs₁]
    omega

/-- A reflexive and transitive relation that every step respects relates the
two ends of a run. -/
theorem run_relation {r : S → S → Prop} (hrefl : ∀ s, r s s)
    (htrans : ∀ {s₁ s₂ s₃}, r s₁ s₂ → r s₂ s₃ → r s₁ s₃) {I : S → Prop}
    (hstep : ∀ s l s', I s → T.step s l = some s' → A s l s' → r s s' ∧ I s') :
    ∀ {ls : List L} {s s' : S}, I s → T.Steps A s ls → T.run s ls = some s' → r s s' := by
  intro ls
  induction ls with
  | nil =>
    intro s s' _ _ hrun
    obtain rfl := Option.some.inj hrun
    exact hrefl s
  | cons l ls ih =>
    intro s s' hI hA hrun
    obtain ⟨s₁, hs₁, hrest⟩ := run_cons_eq_some.mp hrun
    obtain ⟨hA₁, hA₂⟩ := hA s₁ hs₁
    obtain ⟨hr, hI'⟩ := hstep s l s₁ hI hs₁ hA₁
    exact htrans hr (ih hI' hA₂ hrest)

/-- The relation rule for what every step respects. -/
theorem run_relates {r : S → S → Prop} (hrefl : ∀ s, r s s)
    (htrans : ∀ {s₁ s₂ s₃}, r s₁ s₂ → r s₂ s₃ → r s₁ s₃)
    (hstep : ∀ s l s', T.step s l = some s' → r s s') {ls : List L} {s s' : S}
    (hrun : T.run s ls = some s') : r s s' :=
  run_relation (I := fun _ => True) (A := fun _ _ _ => True) hrefl htrans
    (fun s l s' _ hs _ => ⟨hstep s l s' hs, trivial⟩) trivial
    (steps_of_forall fun _ _ _ => trivial) hrun

/-- **Simulation rule**: where every step of one system is matched by a step of another under the
same label, so is every run. -/
theorem run_simulation {S' : Type*} {T' : System S' L} {r : S → S' → Prop}
    (hstep : ∀ s t l s', r s t → T.step s l = some s' → ∃ t', T'.step t l = some t' ∧ r s' t') :
    ∀ {ls : List L} {s s' : S} {t : S'}, r s t → T.run s ls = some s' →
      ∃ t', T'.run t ls = some t' ∧ r s' t' := by
  intro ls
  induction ls with
  | nil =>
    intro s s' t hr hrun
    obtain rfl := Option.some.inj hrun
    exact ⟨t, rfl, hr⟩
  | cons l ls ih =>
    intro s s' t hr hrun
    obtain ⟨s₁, hs₁, hrest⟩ := run_cons_eq_some.mp hrun
    obtain ⟨t₁, ht₁, hr₁⟩ := hstep s t l s₁ hr hs₁
    obtain ⟨t', ht', hr'⟩ := ih hr₁ hrest
    exact ⟨t', run_cons_eq_some.mpr ⟨t₁, ht₁, ht'⟩, hr'⟩

/-- **Translation rule**: where every step of one system that meets a guard is a run of another,
along labels that the step records, so is every run whose steps meet it. -/
theorem run_translate_steps {S' L' : Type*} {T' : System S' L'} {r : S → S' → Prop}
    {g : S → L → S → List L'}
    (hstep : ∀ s t l s', r s t → Q s l s' → T.step s l = some s' →
      ∃ t', T'.run t (g s l s') = some t' ∧ r s' t') :
    ∀ {ls : List L} {s s' : S} {t : S'}, r s t → T.Steps Q s ls → T.run s ls = some s' →
      ∃ t', T'.run t (T.collect g s ls) = some t' ∧ r s' t' := by
  intro ls
  induction ls with
  | nil =>
    intro s s' t hr _ hrun
    obtain rfl := Option.some.inj hrun
    exact ⟨t, rfl, hr⟩
  | cons l ls ih =>
    intro s s' t hr hsteps hrun
    obtain ⟨s₁, hs₁, hrest⟩ := run_cons_eq_some.mp hrun
    obtain ⟨hguard, hlater⟩ := (steps_cons_of_step hs₁).mp hsteps
    obtain ⟨t₁, ht₁, hr₁⟩ := hstep s t l s₁ hr hguard hs₁
    obtain ⟨t', ht', hr'⟩ := ih hr₁ hlater hrest
    refine ⟨t', ?_, hr'⟩
    rw [collect_cons_of_step hs₁]
    exact run_append_eq_some.mpr ⟨t₁, ht₁, ht'⟩

/-- The translation rule without a guard. -/
theorem run_translate {S' L' : Type*} {T' : System S' L'} {r : S → S' → Prop}
    {g : S → L → S → List L'}
    (hstep : ∀ s t l s', r s t → T.step s l = some s' →
      ∃ t', T'.run t (g s l s') = some t' ∧ r s' t')
    {ls : List L} {s s' : S} {t : S'} (hr : r s t) (hrun : T.run s ls = some s') :
    ∃ t', T'.run t (T.collect g s ls) = some t' ∧ r s' t' :=
  run_translate_steps (Q := fun _ _ _ => True) (fun s t l s' hr _ hs => hstep s t l s' hr hs) hr
    (steps_of_forall fun _ _ _ => trivial) hrun

end System

end TransitionSystem
