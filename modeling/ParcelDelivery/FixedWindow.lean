import ParcelDelivery.ExpiringStore
import Mathlib.Data.Nat.Basic
import Mathlib.Logic.Function.Basic
import Mathlib.Tactic.SplitIfs

/-!
# Fixed-window counters

A limit lets a number of hits pass in a window. The first hit opens a window of a fixed
duration, every hit in the window is counted, and a hit passes while the count is within the
amount. What happens to a sequence of hits is a function of their instants alone (`passed`); a
`Strategy` keeps many windows in one store, each of them as if it were alone.

* `countIn_passed_window` — what passes in one window is within the amount.
* `countIn_passed_le` — any stretch of time of the length of a window meets at most two windows.
* `passed_of_sparse` — hits that are never more than the amount at once all pass.
-/

namespace FixedWindow

universe u v

/-- How many hits pass in a window, and how long it is open. -/
structure Limit : Type where
  amount : ℕ
  duration : ℕ
  deriving DecidableEq, Repr

/-- A window: the hits so far, and its last instant. -/
structure Window : Type where
  hits : ℕ
  expiresAt : ℕ
  deriving DecidableEq, Repr

/-- The window that a hit falls into, with this hit. -/
def Window.hit (duration now : ℕ) : Option Window → Window
  | none => ⟨1, now + duration⟩
  | some w => if now ≤ w.expiresAt then ⟨w.hits + 1, w.expiresAt⟩ else ⟨1, now + duration⟩

/-- The window, if it is still open at an instant. -/
def Window.openAt (now : ℕ) (w? : Option Window) : Option Window :=
  w?.filter fun w => decide (now ≤ w.expiresAt)

/-- The hit that fills a window up passes, the next one does not. -/
def Window.passes (limit : Limit) (w : Window) : Bool := decide (w.hits ≤ limit.amount)

/-- The instants of the hits that pass. -/
def passed (limit : Limit) : Option Window → List ℕ → List ℕ
  | _, [] => []
  | w, t :: ts =>
    if (Window.hit limit.duration t w).passes limit then
      t :: passed limit (some (Window.hit limit.duration t w)) ts
    else passed limit (some (Window.hit limit.duration t w)) ts

/-- How many of these instants are in a stretch of time, its ends included. -/
def countIn (a b : ℕ) (ts : List ℕ) : ℕ := ts.countP fun t => decide (a ≤ t) && decide (t ≤ b)

section Counting

variable {limit : Limit} {w : Window} {w? : Option Window} {a b t : ℕ} {ts : List ℕ}

theorem countIn_cons : countIn a b (t :: ts) = countIn a b ts + if a ≤ t ∧ t ≤ b then 1 else 0 := by
  simp [countIn, List.countP_cons]

theorem countIn_eq_zero (h : ∀ t ∈ ts, b < t ∨ t < a) : countIn a b ts = 0 := by
  rw [countIn, List.countP_eq_zero]
  intro t ht
  simp only [Bool.and_eq_true, decide_eq_true_eq, not_and, not_le]
  rcases h t ht with hlt | hlt <;> omega

/-- A longer stretch counts more. -/
theorem countIn_mono {a' b' : ℕ} (ha : a' ≤ a) (hb : b ≤ b') : countIn a b ts ≤ countIn a' b' ts := by
  apply List.countP_mono_left
  intro t _
  simp only [Bool.and_eq_true, decide_eq_true_eq]
  omega

theorem mem_of_mem_passed (h : t ∈ passed limit w? ts) : t ∈ ts := by
  induction ts generalizing w? with
  | nil => exact h
  | cons t' ts ih =>
    rw [passed] at h
    split at h
    · rcases List.mem_cons.mp h with rfl | h
      · exact List.mem_cons_self
      · exact List.mem_cons_of_mem _ (ih h)
    · exact List.mem_cons_of_mem _ (ih h)

/-- One hit more: it is counted where it passes and lies in the stretch. -/
theorem countIn_passed_cons : countIn a b (passed limit w? (t :: ts)) =
    countIn a b (passed limit (some (Window.hit limit.duration t w?)) ts) +
      if (Window.hit limit.duration t w?).passes limit ∧ a ≤ t ∧ t ≤ b then 1 else 0 := by
  rw [passed]
  by_cases hpass : (Window.hit limit.duration t w?).passes limit = true
  · rw [if_pos hpass, countIn_cons]
    simp only [hpass, true_and]
  · rw [if_neg hpass, if_neg fun h => hpass h.1]
    rfl

theorem Window.hit_of_le (h : t ≤ w.expiresAt) :
    Window.hit limit.duration t (some w) = ⟨w.hits + 1, w.expiresAt⟩ := if_pos h

theorem Window.hit_of_gt (h : w.expiresAt < t) :
    Window.hit limit.duration t (some w) = ⟨1, t + limit.duration⟩ := if_neg (not_le.mpr h)

/-- **One window**: what passes in what is left of a window is within what is left of the
amount. -/
theorem countIn_passed_window (hsorted : ts.Pairwise (· ≤ ·)) :
    countIn a w.expiresAt (passed limit (some w) ts) ≤ limit.amount - w.hits := by
  induction ts generalizing w with
  | nil => exact Nat.zero_le _
  | cons t ts ih =>
    obtain ⟨hle, hsorted⟩ := List.pairwise_cons.mp hsorted
    rcases Nat.lt_or_ge w.expiresAt t with hgt | hin
    · -- the window is over, and so it is for the later hits
      rw [countIn_eq_zero]
      · exact Nat.zero_le _
      · intro t' ht'
        rcases List.mem_cons.mp (mem_of_mem_passed ht') with rfl | ht'
        · exact Or.inl hgt
        · exact Or.inl (Nat.lt_of_lt_of_le hgt (hle t' ht'))
    · have hrest := ih (w := ⟨w.hits + 1, w.expiresAt⟩) hsorted
      rw [countIn_passed_cons, Window.hit_of_le hin]
      dsimp only at hrest
      split_ifs with hcounted
      · have hwithin : w.hits + 1 ≤ limit.amount := of_decide_eq_true hcounted.1
        omega
      · omega

/-- **A new window** takes in everything for its duration. -/
theorem countIn_passed_new (hsorted : (t :: ts).Pairwise (· ≤ ·))
    (hnew : Window.hit limit.duration t w? = ⟨1, t + limit.duration⟩) :
    countIn a (t + limit.duration) (passed limit w? (t :: ts)) ≤ limit.amount := by
  have hrest : countIn a (t + limit.duration) (passed limit (some ⟨1, t + limit.duration⟩) ts) ≤
      limit.amount - 1 :=
    countIn_passed_window (w := ⟨1, t + limit.duration⟩) (List.pairwise_cons.mp hsorted).2
  rw [countIn_passed_cons, hnew]
  split_ifs with hcounted
  · have hwithin : 1 ≤ limit.amount := of_decide_eq_true hcounted.1
    omega
  · omega

/-- From some instant on, there is what is left of a window, and a new one. -/
theorem countIn_passed_from (hsorted : ts.Pairwise (· ≤ ·)) (hfrom : ∀ t ∈ ts, a ≤ t) :
    countIn a (a + limit.duration) (passed limit (some w) ts) ≤
      (limit.amount - w.hits) + limit.amount := by
  induction ts generalizing w with
  | nil => exact Nat.zero_le _
  | cons t ts ih =>
    have hat := hfrom t List.mem_cons_self
    rcases Nat.lt_or_ge w.expiresAt t with hgt | hin
    · have hnew : countIn a (t + limit.duration) (passed limit (some w) (t :: ts)) ≤ limit.amount :=
        countIn_passed_new hsorted (Window.hit_of_gt hgt)
      have hmono : countIn a (a + limit.duration) (passed limit (some w) (t :: ts)) ≤ _ :=
        countIn_mono le_rfl (Nat.add_le_add_right hat limit.duration)
      omega
    · have hrest := ih (w := ⟨w.hits + 1, w.expiresAt⟩) (List.pairwise_cons.mp hsorted).2
        fun t' ht' => hfrom t' (List.mem_cons_of_mem t ht')
      rw [countIn_passed_cons, Window.hit_of_le hin]
      dsimp only at hrest
      split_ifs with hcounted
      · have hwithin : w.hits + 1 ≤ limit.amount := of_decide_eq_true hcounted.1
        omega
      · omega

/-- **Two windows at most**: in any stretch of time of the length of a window, what passes is
within twice the amount. -/
theorem countIn_passed_le (hsorted : ts.Pairwise (· ≤ ·)) (a : ℕ) :
    countIn a (a + limit.duration) (passed limit w? ts) ≤ 2 * limit.amount := by
  induction ts generalizing w? with
  | nil => exact Nat.zero_le _
  | cons t ts ih =>
    rcases Nat.lt_or_ge t a with hbefore | hfrom
    · rw [countIn_passed_cons, if_neg (by omega)]
      exact ih (List.pairwise_cons.mp hsorted).2
    · have hle : ∀ t' ∈ t :: ts, a ≤ t' := by
        intro t' ht'
        rcases List.mem_cons.mp ht' with rfl | ht'
        · exact hfrom
        · exact Nat.le_trans hfrom ((List.pairwise_cons.mp hsorted).1 t' ht')
      cases w? with
      | some w =>
        have hsome : countIn a (a + limit.duration) (passed limit (some w) (t :: ts)) ≤
            (limit.amount - w.hits) + limit.amount := countIn_passed_from hsorted hle
        omega
      | none =>
        have hnew : countIn a (t + limit.duration) (passed limit none (t :: ts)) ≤ limit.amount :=
          countIn_passed_new hsorted rfl
        have hmono : countIn a (a + limit.duration) (passed limit none (t :: ts)) ≤ _ :=
          countIn_mono le_rfl (Nat.add_le_add_right hfrom limit.duration)
        omega

/-! ## Windows that are over -/

theorem Window.openAt_of_le {now : ℕ} (h : now ≤ w.expiresAt) :
    Window.openAt now (some w) = some w := if_pos (decide_eq_true h)

theorem Window.openAt_of_gt {now : ℕ} (h : w.expiresAt < now) :
    Window.openAt now (some w) = none :=
  if_neg fun hopen => absurd (of_decide_eq_true hopen) (Nat.not_le.mpr h)

/-- A hit lies in its own window. -/
theorem Window.openAt_hit {now : ℕ} :
    Window.openAt now (some (Window.hit limit.duration now (Window.openAt now w?))) =
      some (Window.hit limit.duration now (Window.openAt now w?)) := by
  apply Window.openAt_of_le
  cases w? with
  | none => exact Nat.le_add_right _ _
  | some w =>
    rcases Nat.lt_or_ge w.expiresAt now with hgt | hin
    · rw [Window.openAt_of_gt hgt]
      exact Nat.le_add_right _ _
    · rw [Window.openAt_of_le hin, Window.hit_of_le hin]
      exact hin

/-- What is open later was open before. -/
theorem Window.openAt_openAt {now now' : ℕ} (hle : now ≤ now') :
    Window.openAt now' (Window.openAt now w?) = Window.openAt now' w? := by
  cases w? with
  | none => rfl
  | some w =>
    rcases Nat.lt_or_ge w.expiresAt now with hgt | hin
    · rw [Window.openAt_of_gt hgt, Window.openAt_of_gt (Nat.lt_of_lt_of_le hgt hle)]
      rfl
    · rw [Window.openAt_of_le hin]

/-- A window that is over before the hits is as good as none. -/
theorem passed_openAt {now : ℕ} (hfrom : ∀ t ∈ ts, now ≤ t) :
    passed limit (Window.openAt now w?) ts = passed limit w? ts := by
  cases ts with
  | nil => rfl
  | cons t ts =>
    have hsame : Window.hit limit.duration t (Window.openAt now w?) =
        Window.hit limit.duration t w? := by
      cases w? with
      | none => rfl
      | some w =>
        rcases Nat.lt_or_ge w.expiresAt now with hgt | hin
        · rw [Window.openAt_of_gt hgt,
            Window.hit_of_gt (Nat.lt_of_lt_of_le hgt (hfrom t List.mem_cons_self))]
          rfl
        · rw [Window.openAt_of_le hin]
    rw [passed, passed, hsame]

/-! ## Hits that are far enough apart -/

/-- A sequence of hits after others, never more than the amount at once. -/
def Sparse (limit : Limit) : List ℕ → List ℕ → Prop
  | _, [] => True
  | before, t :: ts =>
    before.countP (fun t' => decide (t ≤ t' + limit.duration)) < limit.amount ∧
      Sparse limit (before ++ [t]) ts

/-- The window was opened by one of these hits, and has counted no others. -/
def Window.Within (limit : Limit) (before : List ℕ) : Option Window → Prop
  | none => True
  | some w => (∃ t ∈ before, w.expiresAt = t + limit.duration) ∧
      w.hits ≤ before.countP fun t => decide (w.expiresAt ≤ t + limit.duration)

/-- **Step**: a hit falls into the window, or into a new one. -/
theorem Window.within_hit {before : List ℕ} (hlast : ∀ t' ∈ before, t' ≤ t)
    (h : Window.Within limit before w?) :
    Window.Within limit (before ++ [t]) (some (Window.hit limit.duration t w?)) := by
  have hnew : Window.Within limit (before ++ [t]) (some ⟨1, t + limit.duration⟩) := by
    refine ⟨⟨t, by simp, rfl⟩, ?_⟩
    simp [List.countP_append]
  cases w? with
  | none => exact hnew
  | some w =>
    rcases Nat.lt_or_ge w.expiresAt t with hgt | hin
    · rw [Window.hit_of_gt hgt]
      exact hnew
    · obtain ⟨⟨t₀, ht₀, hopened⟩, hhits⟩ := h
      have hcounted : w.expiresAt ≤ t + limit.duration := by
        rw [hopened]
        exact Nat.add_le_add_right (hlast t₀ ht₀) _
      rw [Window.hit_of_le hin]
      refine ⟨⟨t₀, by simp [ht₀], hopened⟩, ?_⟩
      simp only [List.countP_append, List.countP_singleton, hcounted, decide_true, if_true]
      exact Nat.add_le_add_right hhits 1

/-- A hit into a window that has not counted too much passes. -/
theorem Window.passes_of_within {before : List ℕ} (h : Window.Within limit before w?)
    (hsparse : before.countP (fun t' => decide (t ≤ t' + limit.duration)) < limit.amount) :
    (Window.hit limit.duration t w?).passes limit = true := by
  have hnew : Window.passes limit ⟨1, t + limit.duration⟩ = true :=
    decide_eq_true (Nat.lt_of_le_of_lt (Nat.zero_le _) hsparse)
  cases w? with
  | none => exact hnew
  | some w =>
    rcases Nat.lt_or_ge w.expiresAt t with hgt | hin
    · rw [Window.hit_of_gt hgt]
      exact hnew
    · rw [Window.hit_of_le hin]
      -- the window is not older than its duration, so that its hits are recent
      have hrecent : before.countP (fun t' => decide (w.expiresAt ≤ t' + limit.duration)) ≤
          before.countP fun t' => decide (t ≤ t' + limit.duration) := by
        apply List.countP_mono_left
        intro t' _
        simp only [decide_eq_true_eq]
        exact Nat.le_trans hin
      exact decide_eq_true (Nat.lt_of_le_of_lt (Nat.le_trans h.2 hrecent) hsparse)

/-- **Sparse hits all pass.** -/
theorem passed_of_sparse {before : List ℕ} (hsorted : (before ++ ts).Pairwise (· ≤ ·))
    (hwithin : Window.Within limit before w?) (hsparse : Sparse limit before ts) :
    passed limit w? ts = ts := by
  induction ts generalizing before w? with
  | nil => rfl
  | cons t ts ih =>
    obtain ⟨hfew, hsparse⟩ := hsparse
    have hlast : ∀ t' ∈ before, t' ≤ t := fun t' ht' =>
      (List.pairwise_append.mp hsorted).2.2 t' ht' t List.mem_cons_self
    rw [passed, if_pos (Window.passes_of_within hwithin hfew)]
    rw [ih (by simpa using hsorted) (Window.within_hit hlast hwithin) hsparse]

end Counting

/-! ## Many windows in one store -/

/-- A fixed-window strategy: hits of keys against limits, and the windows that are open at an
instant. A hit is counted in the window of its own limit and key, and decided by it; no other
window changes, and a window stays until its last instant is over. -/
structure Strategy (σ : Type u) (K : Type v) [DecidableEq K] : Type (max u v) where
  /-- count a hit; does it pass -/
  hit : σ → ℕ → Limit → K → Bool × σ
  /-- the window that is open at an instant -/
  window : σ → ℕ → Limit × K → Option Window
  hit_passes : ∀ s now limit k, (hit s now limit k).1 =
    (Window.hit limit.duration now (window s now (limit, k))).passes limit
  window_hit : ∀ s now limit k key, window (hit s now limit k).2 now key =
    if key = (limit, k) then some (Window.hit limit.duration now (window s now (limit, k)))
    else window s now key
  window_later : ∀ s now now' key, now ≤ now' →
    window s now' key = Window.openAt now' (window s now key)

namespace Strategy

variable {K : Type v} [DecidableEq K]

/-- A counter with an expiry for every key: `INCR`, and `EXPIRE` on the first hit. -/
def counters : Strategy (Limit × K → Option Window) K where
  hit s now limit k :=
    ((Window.hit limit.duration now (Window.openAt now (s (limit, k)))).passes limit,
      Function.update s (limit, k)
        (some (Window.hit limit.duration now (Window.openAt now (s (limit, k))))))
  window s now key := Window.openAt now (s key)
  hit_passes _ _ _ _ := rfl
  window_hit s now limit k key := by
    by_cases hkey : key = (limit, k)
    · subst hkey
      rw [if_pos rfl]
      dsimp only
      rw [Function.update_self]
      exact Window.openAt_hit
    · rw [if_neg hkey]
      dsimp only
      rw [Function.update_of_ne hkey]
  window_later s now now' key hle := (Window.openAt_openAt hle).symm

end Strategy

end FixedWindow
