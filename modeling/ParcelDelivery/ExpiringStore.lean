import Mathlib.Data.List.Basic

/-!
# A key-value store with expiry

Keys with a value and an instant up to which the value is there. Writing a key replaces
its value and its expiry; reading looks at the clock. What is read has been written, and
is not older than it was allowed to become (`get_eq_some`, `mem_set`); and what has been written is
read until then, whatever happens to other keys (`get_set_self`, `get_set_of_ne`).
-/

namespace ExpiringStore

universe u v

/-- A key with its value, until it expires. -/
structure Entry (K : Type u) (V : Type v) : Type (max u v) where
  key : K
  value : V
  /-- the last instant at which the entry is there -/
  expiresAt : ℕ
  deriving DecidableEq

/-- The entries, the newest first. -/
abbrev Store (K : Type u) (V : Type v) : Type (max u v) := List (Entry K V)

variable {K : Type u} {V : Type v} [DecidableEq K] {s : Store K V} {e : Entry K V} {k k' : K}
  {v : V} {now ttl : ℕ}

/-- `GET`. -/
def get (s : Store K V) (now : ℕ) (k : K) : Option V :=
  (s.find? fun e => decide (e.key = k) && decide (now ≤ e.expiresAt)).map Entry.value

/-- `DEL`. -/
def remove (s : Store K V) (k : K) : Store K V := s.filter fun e => decide (e.key ≠ k)

/-- `SET … EX ttl`. -/
def set (s : Store K V) (now ttl : ℕ) (k : K) (v : V) : Store K V :=
  ⟨k, v, now + ttl⟩ :: remove s k

/-- What is read is in the store and has not expired. -/
theorem get_eq_some (h : get s now k = some v) :
    ∃ e ∈ s, e.key = k ∧ e.value = v ∧ now ≤ e.expiresAt := by
  obtain ⟨e, he, rfl⟩ := Option.map_eq_some_iff.mp h
  have hfound := List.find?_some he
  simp only [Bool.and_eq_true, decide_eq_true_eq] at hfound
  exact ⟨e, List.mem_of_find?_eq_some he, hfound.1, rfl, hfound.2⟩

theorem mem_remove (h : e ∈ remove s k) : e ∈ s := List.mem_of_mem_filter h

/-- What is in the store after a write is the new entry or was there before. -/
theorem mem_set (h : e ∈ set s now ttl k v) : e = ⟨k, v, now + ttl⟩ ∨ e ∈ s := by
  rcases List.mem_cons.mp h with rfl | h
  · exact Or.inl rfl
  · exact Or.inr (mem_remove h)

/-- A key that has been written is read until it expires. -/
theorem get_set_self {now' : ℕ} (h : now' ≤ now + ttl) : get (set s now ttl k v) now' k = some v := by
  rw [get, set, List.find?_cons_of_pos]
  · rfl
  · rw [Bool.and_eq_true, decide_eq_true_eq, decide_eq_true_eq]
    exact ⟨rfl, h⟩

theorem get_remove_self : get (remove s k) now k = none := by
  rw [get, Option.map_eq_none_iff, List.find?_eq_none]
  intro e he
  have hne : e.key ≠ k := of_decide_eq_true (List.mem_filter.mp he).2
  simp [hne]

/-! ## One entry for a key -/

/-- No key has two entries. -/
def Keyed (s : Store K V) : Prop := s.Pairwise fun e e' => e.key ≠ e'.key

theorem Keyed.set (h : Keyed s) : Keyed (set s now ttl k v) := by
  refine List.pairwise_cons.mpr ⟨?_, List.Pairwise.filter _ h⟩
  intro e he
  exact Ne.symm (of_decide_eq_true (List.mem_filter.mp he).2)

theorem Keyed.remove (h : Keyed s) : Keyed (remove s k) := List.Pairwise.filter _ h

omit [DecidableEq K] in
/-- A key has one entry. -/
theorem Keyed.eq_of_mem {e' : Entry K V} (h : Keyed s) (he : e ∈ s) (he' : e' ∈ s)
    (hkey : e.key = e'.key) : e = e' := by
  induction s with
  | nil => exact absurd he List.not_mem_nil
  | cons e₀ s ih =>
    obtain ⟨hne, hkeyed⟩ := List.pairwise_cons.mp h
    rcases List.mem_cons.mp he with rfl | hmem
    · rcases List.mem_cons.mp he' with rfl | hmem'
      · rfl
      · exact absurd hkey (hne e' hmem')
    · rcases List.mem_cons.mp he' with rfl | hmem'
      · exact absurd hkey.symm (hne e hmem)
      · exact ih hkeyed hmem hmem'

/-- An entry is read until it expires. -/
theorem Keyed.get_of_mem (h : Keyed s) (he : e ∈ s) (hlive : now ≤ e.expiresAt) :
    get s now e.key = some e.value := by
  induction s with
  | nil => exact absurd he List.not_mem_nil
  | cons e' s ih =>
    obtain ⟨hne, hkeyed⟩ := List.pairwise_cons.mp h
    rcases List.mem_cons.mp he with rfl | he
    · simp [get, hlive]
    · have hread := ih hkeyed he
      rw [get] at hread ⊢
      rw [List.find?_cons_of_neg, hread]
      simp [hne e he]

/-- What is still read later has been read all the time. -/
theorem Keyed.get_of_le {now' : ℕ} (h : Keyed s) (hle : now ≤ now') (hget : get s now' k = some v) :
    get s now k = some v := by
  obtain ⟨e, he, rfl, rfl, hlive⟩ := get_eq_some hget
  exact h.get_of_mem he (Nat.le_trans hle hlive)

/-! ## Some of the keys -/

/-- The entries whose keys meet a condition. -/
def keep (p : K → Bool) (s : Store K V) : Store K V := s.filter fun e => p e.key

variable {p : K → Bool}

/-- What is read under a key that is kept is still there. -/
theorem get_keep (h : p k = true) : get (keep p s) now k = get s now k := by
  induction s with
  | nil => rfl
  | cons e s ih =>
    simp only [get, keep] at ih
    by_cases hkey : e.key = k
    · have hp : p e.key = true := by rw [hkey, h]
      simp only [get, keep, List.filter_cons, hp, if_true, List.find?_cons]
      cases decide (e.key = k) && decide (now ≤ e.expiresAt) with
      | true => rfl
      | false => exact ih
    · cases hp : p e.key with
      | true => simpa [get, keep, hp, hkey] using ih
      | false => simpa [get, keep, hp, hkey] using ih

theorem keep_remove : keep p (remove s k) = remove (keep p s) k := by
  simp only [keep, remove, List.filter_filter]
  exact List.filter_congr fun e _ => Bool.and_comm _ _

/-- Another key is read as before a removal. -/
theorem get_remove_of_ne {now' : ℕ} (h : k' ≠ k) : get (remove s k) now' k' = get s now' k' :=
  get_keep (p := fun key => decide (key ≠ k)) (decide_eq_true h)

/-- Another key is read as before a write. -/
theorem get_set_of_ne {now' : ℕ} (h : k' ≠ k) :
    get (set s now ttl k v) now' k' = get s now' k' := by
  have hremove : get (remove s k) now' k' = get s now' k' := get_remove_of_ne h
  rw [← hremove, get, get, set, List.find?_cons_of_neg]
  simp [Ne.symm h]

/-- A write under a key that is kept. -/
theorem keep_set_of_pos (h : p k = true) : keep p (set s now ttl k v) = set (keep p s) now ttl k v := by
  rw [set, set, ← keep_remove]
  exact List.filter_cons_of_pos h

/-- A write under a key that is not kept. -/
theorem keep_set_of_neg (h : p k = false) : keep p (set s now ttl k v) = keep p s := by
  simp only [set, keep, remove, List.filter_cons, h, Bool.false_eq_true, if_false,
    List.filter_filter]
  apply List.filter_congr
  intro e _
  by_cases hkey : e.key = k
  · rw [hkey, h, Bool.false_and]
  · simp [hkey]

end ExpiringStore
