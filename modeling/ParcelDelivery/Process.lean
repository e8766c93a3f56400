import ParcelDelivery.System
import Mathlib.Logic.Function.Basic

/-!
# Programs over a shared store, alone and interleaved

`Prog` is a free monad over a signature of commands: a program returns, raises,
or issues one command and goes on with its answer. The commands are data, so
that a program can be written once in `do` notation and then be given both
meanings:

* `Prog.run` — the program alone, command after command;
* `Pool.system` — any number of programs over one store, interleaved at the
  granularity of one command.

A `Handler` says what a command answers and what it does to the store; an
exception it answers ends the program.
-/

namespace Process

open TransitionSystem

universe u v w

/-- A program over the commands `C` with answers `R`, exceptions `ε` and
result `α`. -/
inductive Prog (C : Type u) (R : C → Type u) (ε : Type u) (α : Type u) : Type u where
  /-- return a value -/
  | ret : α → Prog C R ε α
  /-- raise an exception -/
  | throw : ε → Prog C R ε α
  /-- issue a command and continue with its answer -/
  | call : (c : C) → (R c → Prog C R ε α) → Prog C R ε α

/-- What a command answers (or raises) and the store it leaves. -/
abbrev Handler (C : Type u) (R : C → Type u) (ε : Type u) (σ : Type v) : Type (max u v) :=
  (c : C) → σ → Except ε (R c) × σ

namespace Prog

variable {C : Type u} {R : C → Type u} {ε α β : Type u} {σ : Type v}

/-- Sequencing: graft a continuation onto every returned value. -/
protected def bind : Prog C R ε α → (α → Prog C R ε β) → Prog C R ε β
  | ret a, f => f a
  | throw e, _ => throw e
  | call c k, f => call c fun r => (k r).bind f

instance : Monad (Prog C R ε) where
  pure := ret
  bind := Prog.bind

/-- Issue one command and return its answer. -/
def send (c : C) : Prog C R ε (R c) := call c ret

@[simp] theorem pure_eq (a : α) : (pure a : Prog C R ε α) = ret a := rfl

@[simp] theorem ret_bind (a : α) (f : α → Prog C R ε β) : (ret a >>= f) = f a := rfl

@[simp] theorem throw_bind (e : ε) (f : α → Prog C R ε β) : (throw e >>= f) = throw e := rfl

@[simp] theorem call_bind (c : C) (k : R c → Prog C R ε α) (f : α → Prog C R ε β) :
    (call c k >>= f) = call c fun r => k r >>= f := rfl

@[simp] theorem send_bind (c : C) (f : R c → Prog C R ε β) :
    (send c >>= f) = call c f := rfl

@[simp] theorem ret_map (a : α) (f : α → β) : (f <$> (ret a : Prog C R ε α)) = ret (f a) := rfl

@[simp] theorem throw_map (e : ε) (f : α → β) :
    (f <$> (throw e : Prog C R ε α)) = throw e := rfl

@[simp] theorem call_map (c : C) (k : R c → Prog C R ε α) (f : α → β) :
    (f <$> call c k) = call c fun r => f <$> k r := rfl

/-- The command that a program issues next. -/
def next? : Prog C R ε α → Option C
  | call c _ => some c
  | _ => none

/-- How a program goes on after the answer to its command. -/
def resume {c : C} (k : R c → Prog C R ε α) : Except ε (R c) → Prog C R ε α
  | .ok r => k r
  | .error e => throw e

@[simp] theorem resume_ok {c : C} (k : R c → Prog C R ε α) (r : R c) :
    resume k (.ok r) = k r := rfl

@[simp] theorem resume_error {c : C} (k : R c → Prog C R ε α) (e : ε) :
    resume k (.error e) = throw e := rfl

/-! ## A program alone -/

/-- Run a program to its end: the value or exception, and the store it leaves. -/
def run (h : Handler C R ε σ) : Prog C R ε α → σ → Except ε α × σ
  | ret a, s => (.ok a, s)
  | throw e, s => (.error e, s)
  | call c k, s =>
    match h c s with
    | (.ok r, s') => (k r).run h s'
    | (.error e, s') => (.error e, s')

variable {h : Handler C R ε σ}

@[simp] theorem run_ret (a : α) (s : σ) : (ret a).run h s = (.ok a, s) := rfl

@[simp] theorem run_throw (e : ε) (s : σ) :
    (throw e : Prog C R ε α).run h s = (.error e, s) := rfl

theorem run_call (c : C) (k : R c → Prog C R ε α) (s : σ) :
    (call c k).run h s = (resume k (h c s).1).run h (h c s).2 := by
  rcases he : h c s with ⟨r | r, s'⟩ <;> simp only [run, he, resume]

/-- A command that answers: the program goes on from the store it left. -/
theorem run_call_ok {c : C} {k : R c → Prog C R ε α} {s s' : σ} {r : R c}
    (hc : h c s = (.ok r, s')) : (call c k).run h s = (k r).run h s' := by
  rw [run_call, hc, resume_ok]

/-- A command that raises ends the program. -/
theorem run_call_error {c : C} {k : R c → Prog C R ε α} {s s' : σ} {e : ε}
    (hc : h c s = (.error e, s')) : (call c k).run h s = (.error e, s') := by
  simp only [run_call, hc, resume_error, run_throw]

theorem run_bind (m : Prog C R ε α) (f : α → Prog C R ε β) (s : σ) :
    (m >>= f).run h s =
      match m.run h s with
      | (.ok a, s') => (f a).run h s'
      | (.error e, s') => (.error e, s') := by
  induction m generalizing s with
  | ret _ | throw _ => rfl
  | call c k ih =>
    simp only [call_bind, run_call]
    rcases h c s with ⟨e | r, s'⟩
    · rfl
    · exact ih r s'

/-- A program whose value is mapped. -/
theorem run_map (m : Prog C R ε α) (f : α → β) (s : σ) :
    (f <$> m).run h s = ((m.run h s).1.map f, (m.run h s).2) := by
  change (m >>= fun a => ret (f a)).run h s = _
  rw [run_bind]
  rcases m.run h s with ⟨e | a, s'⟩
  · rfl
  · rfl

/-- A store property that every command preserves holds after a whole program. -/
theorem run_invariant {J : σ → Prop} (hJ : ∀ c s, J s → J (h c s).2) :
    ∀ (m : Prog C R ε α) {s : σ}, J s → J (m.run h s).2 := by
  intro m
  induction m with
  | ret _ | throw _ => intro s hs; exact hs
  | call c k ih =>
    intro s hs
    have hs' := hJ c s hs
    rw [run_call]
    rcases he : h c s with ⟨e | r, s'⟩
    · rw [he] at hs'
      exact hs'
    · rw [he] at hs'
      exact ih r hs'

end Prog

/-! ## Programs interleaved -/

/-- Programs `rest i`, one for every `i`, over one store. -/
structure Pool (ι : Type w) (σ : Type v) (C : Type u) (R : C → Type u) (ε α : Type u) :
    Type (max u v w) where
  /-- the shared store -/
  store : σ
  /-- what is left of each program -/
  rest : ι → Prog C R ε α

namespace Pool

variable {ι : Type w} {C : Type u} {R : C → Type u} {ε α : Type u} {σ : Type v}

/-- The pool after program `i` has issued its command `c`. -/
def issue [DecidableEq ι] (h : Handler C R ε σ) (p : Pool ι σ C R ε α) (i : ι) (c : C)
    (k : R c → Prog C R ε α) : Pool ι σ C R ε α where
  store := (h c p.store).2
  rest := Function.update p.rest i (Prog.resume k (h c p.store).1)

/-- Interleaving semantics: the label names the program that moves, and a move
is one command of it. A program that has ended cannot move. -/
def system [DecidableEq ι] (h : Handler C R ε σ) : System (Pool ι σ C R ε α) ι where
  step p i :=
    match p.rest i with
    | .call c k => some (p.issue h i c k)
    | _ => none

variable [DecidableEq ι] {h : Handler C R ε σ} {p p' : Pool ι σ C R ε α} {i j : ι}

/-- A move of a program that is about to issue a command. -/
theorem step_of_rest {c : C} {k : R c → Prog C R ε α} (hr : p.rest i = .call c k) :
    (system h).step p i = some (p.issue h i c k) := by
  simp only [system, hr]

/-- Inversion of a move: the program had a command to issue. -/
theorem step_eq_some (hs : (system h).step p i = some p') :
    ∃ c k, p.rest i = .call c k ∧ p' = p.issue h i c k := by
  simp only [system] at hs
  rcases hr : p.rest i with a | e | ⟨c, k⟩
  · rw [hr] at hs; cases hs
  · rw [hr] at hs; cases hs
  · rw [hr] at hs
    exact ⟨c, k, rfl, (Option.some.inj hs).symm⟩

@[simp] theorem issue_store (c : C) (k : R c → Prog C R ε α) :
    (p.issue h i c k).store = (h c p.store).2 := rfl

@[simp] theorem issue_rest_self (c : C) (k : R c → Prog C R ε α) :
    (p.issue h i c k).rest i = Prog.resume k (h c p.store).1 :=
  Function.update_self ..

theorem issue_rest_of_ne (c : C) (k : R c → Prog C R ε α) (hj : j ≠ i) :
    (p.issue h i c k).rest j = p.rest j :=
  Function.update_of_ne hj ..

/-- What a move does, given the command the program is about to issue. -/
theorem step_call {c : C} {k : R c → Prog C R ε α} (hr : p.rest i = .call c k)
    (hs : (system h).step p i = some p') :
    p'.store = (h c p.store).2 ∧ p'.rest i = Prog.resume k (h c p.store).1 ∧
      ∀ j, j ≠ i → p'.rest j = p.rest j := by
  rw [step_of_rest hr] at hs
  obtain rfl := Option.some.inj hs
  exact ⟨rfl, issue_rest_self c k, fun j hj => issue_rest_of_ne c k hj⟩

end Pool

/-! ## Recording -/

/-- A handler that also records what each command does, as `ev` tells it from the
command and the store it found. -/
def record {C : Type u} {R : C → Type u} {ε : Type u} {σ : Type v} {E : Type w}
    (ev : C → σ → List E) (h : Handler C R ε σ) : Handler C R ε (σ × List E) :=
  fun c s => ((h c s.1).1, ((h c s.1).2, s.2 ++ ev c s.1))

/-- What the next command of a program adds to the record. -/
def Prog.events {C : Type u} {R : C → Type u} {ε α : Type u} {σ : Type v} {E : Type w}
    (ev : C → σ → List E) (m : Prog C R ε α) (s : σ) : List E :=
  match m.next? with
  | some c => ev c s
  | none => []

namespace Pool

variable {ι : Type w} {C : Type u} {R : C → Type u} {ε α : Type u} {σ : Type v} {E : Type w}
  [DecidableEq ι] {ev : C → σ → List E} {h : Handler C R ε σ}
  {p p' : Pool ι (σ × List E) C R ε α} {i : ι}

/-- Forget the record. -/
def erase (p : Pool ι (σ × List E) C R ε α) : Pool ι σ C R ε α where
  store := p.store.1
  rest := p.rest

/-- **Recording changes nothing**: a recorded move is a move of the pool without the
record, and adds to the record. -/
theorem step_erase (hs : (system (record ev h)).step p i = some p') :
    (system h).step p.erase i = some p'.erase ∧
      p'.store.2 = p.store.2 ++ (p.rest i).events ev p.store.1 := by
  obtain ⟨c, k, hr, rfl⟩ := step_eq_some hs
  refine ⟨?_, ?_⟩
  · rw [step_of_rest (p := p.erase) hr]
    rfl
  · rw [hr]
    rfl

end Pool

end Process
