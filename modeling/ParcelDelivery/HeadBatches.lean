import Mathlib.Data.List.Basic
import Mathlib.Algebra.Order.Group.Nat

/-!
# Batches from the head of a list

Batches of one size are taken from the head of a list, until one of them has an element that
is refused (`leftover`). Only refused elements are left exactly when the others come first
and fill their batches (`leftover_bad_iff`).
-/

namespace HeadBatches

variable {α : Type} {ok : α → Bool} {k : ℕ} {xs : List α}

/-- What is left when batches of `k + 1` elements are taken from the head, until one of them has an
element that is not `ok`. -/
def leftover (ok : α → Bool) (k : ℕ) : List α → List α
  | [] => []
  | x :: xs =>
    if ((x :: xs).take (k + 1)).all ok then leftover ok k (xs.drop k) else x :: xs
termination_by xs => xs.length
decreasing_by
  rw [List.length_drop, List.length_cons]
  omega

@[simp] theorem leftover_nil : leftover ok k [] = [] := by rw [leftover]

/-- A batch that is taken. -/
theorem leftover_of_all (h : (xs.take (k + 1)).all ok = true) :
    leftover ok k xs = leftover ok k (xs.drop (k + 1)) := by
  cases xs with
  | nil => rfl
  | cons x xs => rw [leftover, if_pos h, List.drop_succ_cons]

/-- A batch that is refused. -/
theorem leftover_of_not_all (h : ¬ (xs.take (k + 1)).all ok = true) : leftover ok k xs = xs := by
  cases xs with
  | nil => rw [leftover_nil]
  | cons x xs => rw [leftover, if_neg h]

/-- Nothing that is `ok` is left behind. -/
def OnlyBadLeft (ok : α → Bool) (k : ℕ) (xs : List α) : Prop :=
  (∀ x ∈ xs, ok x = true) ∨
    k + 1 ∣ (xs.takeWhile ok).length ∧ ∀ x ∈ xs.dropWhile ok, ok x = false

/-- An element that is not `ok` ends the leading ones. -/
theorem length_takeWhile_lt (h : ¬ (xs.take (k + 1)).all ok = true) :
    (xs.takeWhile ok).length < k + 1 := by
  by_contra hge
  refine h (List.all_eq_true.mpr fun x hx => ?_)
  have hinitial : xs.take (k + 1) <+: xs.takeWhile ok := by
    refine List.prefix_of_prefix_length_le (List.take_prefix _ _) (List.takeWhile_prefix ok) ?_
    rw [List.length_take]
    omega
  exact (List.all_eq_true.mp List.all_takeWhile) x (hinitial.subset hx)

theorem onlyBadLeft_of_all (h : (xs.take (k + 1)).all ok = true) :
    OnlyBadLeft ok k xs ↔ OnlyBadLeft ok k (xs.drop (k + 1)) := by
  have hok := List.all_eq_true.mp h
  have hsplit : xs.take (k + 1) ++ xs.drop (k + 1) = xs := List.take_append_drop _ _
  have hall : (∀ x ∈ xs, ok x = true) ↔ ∀ x ∈ xs.drop (k + 1), ok x = true := by
    refine ⟨?_, ?_⟩
    · exact fun hxs x hx => hxs x (List.mem_of_mem_drop hx)
    · intro hxs x hx
      rw [← hsplit, List.mem_append] at hx
      exact hx.elim (hok x) (hxs x)
  by_cases hlen : xs.length ≤ k + 1
  · -- everything is taken
    have hnil : xs.drop (k + 1) = [] := List.drop_eq_nil_of_le hlen
    refine iff_of_true (Or.inl (hall.mpr ?_)) (Or.inl ?_) <;>
      · rw [hnil]
        exact fun x hx => absurd hx List.not_mem_nil
  · have htake : xs.takeWhile ok = xs.take (k + 1) ++ (xs.drop (k + 1)).takeWhile ok := by
      conv_lhs => rw [← hsplit]
      exact List.takeWhile_append_of_pos hok
    have hdrop : xs.dropWhile ok = (xs.drop (k + 1)).dropWhile ok := by
      conv_lhs => rw [← hsplit]
      exact List.dropWhile_append_of_pos hok
    rw [OnlyBadLeft, OnlyBadLeft, hall, htake, hdrop, List.length_append, List.length_take,
      Nat.min_eq_left (by omega), Nat.dvd_add_right (Nat.dvd_refl _)]

/-- **What is left**: only refused elements, exactly when the others come first and fill their
batches. -/
theorem leftover_bad_iff : (∀ x ∈ leftover ok k xs, ok x = false) ↔ OnlyBadLeft ok k xs := by
  induction hn : xs.length using Nat.strong_induction_on generalizing xs with
  | _ n ih =>
    by_cases h : (xs.take (k + 1)).all ok = true
    · rw [leftover_of_all h, onlyBadLeft_of_all h]
      cases xs with
      | nil => simp [OnlyBadLeft]
      | cons x xs =>
        refine ih _ ?_ rfl
        rw [← hn, List.length_drop, List.length_cons]
        omega
    · rw [leftover_of_not_all h]
      refine ⟨?_, ?_⟩
      · intro hbad
        cases xs with
        | nil => exact absurd rfl h
        | cons x xs =>
          have hx := hbad x List.mem_cons_self
          refine Or.inr ?_
          rw [List.takeWhile_cons_of_neg (by rw [hx]; exact Bool.false_ne_true),
            List.dropWhile_cons_of_neg (by rw [hx]; exact Bool.false_ne_true)]
          exact ⟨Nat.dvd_zero _, hbad⟩
      · rintro (hall | ⟨hdvd, hbad⟩)
        · exact absurd (List.all_eq_true.mpr fun x hx => hall x (List.mem_of_mem_take hx)) h
        · have hzero : (xs.takeWhile ok).length = 0 :=
            Nat.eq_zero_of_dvd_of_lt hdvd (length_takeWhile_lt h)
          have hnil := List.length_eq_zero_iff.mp hzero
          have hdrop : xs.dropWhile ok = xs := by
            have happend := List.takeWhile_append_dropWhile (p := ok) (l := xs)
            rwa [hnil, List.nil_append] at happend
          rwa [hdrop] at hbad

/-- Without the batch at the head. -/
theorem filter_not_mem_take [DecidableEq α] (hnodup : xs.Nodup) (n : ℕ) :
    xs.filter (fun x => decide (x ∉ xs.take n)) = xs.drop n := by
  have hsplit : xs.take n ++ xs.drop n = xs := List.take_append_drop n xs
  have hdisjoint : ∀ x ∈ xs.take n, x ∉ xs.drop n := by
    rw [← hsplit] at hnodup
    exact fun x hx hx' => (List.nodup_append.mp hnodup).2.2 x hx x hx' rfl
  have hhead : (xs.take n).filter (fun x => decide (x ∉ xs.take n)) = [] :=
    List.filter_eq_nil_iff.mpr fun x hx => by simp [hx]
  have htail : (xs.drop n).filter (fun x => decide (x ∉ xs.take n)) = xs.drop n :=
    List.filter_eq_self.mpr fun x hx => decide_eq_true fun hx' => hdisjoint x hx' hx
  conv_lhs => arg 2; rw [← hsplit]
  simp only [List.filter_append, hhead, htail, List.nil_append]

end HeadBatches
