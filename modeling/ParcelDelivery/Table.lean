import Mathlib.Data.List.Pairwise

/-!
# Tables with unique columns

A relational table as its list of rows, in insertion order. The rows of a type
say through `Row.clash` when two of them agree on a column that is declared
unique (the primary key, or another unique column); a `Table` carries the proof
that no two of its rows clash, so an instance with a duplicate key cannot be
built. An insert checks the constraint and refuses (`none`) what the database
would refuse; an update may only touch the other columns.
-/

namespace Relational

universe u

/-- Rows with unique columns: `clash r r'` when the rows agree on one of them. -/
class Row (ρ : Type u) where
  /-- the rows agree on a unique column -/
  clash : ρ → ρ → Prop
  /-- the constraint can be checked -/
  decClash : DecidableRel clash
  /-- a row agrees with itself -/
  clash_refl : ∀ r, clash r r
  /-- agreement is symmetric -/
  clash_symm : ∀ {r r'}, clash r r' → clash r' r

instance {ρ : Type u} [Row ρ] : DecidableRel (Row.clash (ρ := ρ)) := Row.decClash

/-- A table: rows that pairwise differ on the unique columns. -/
structure Table (ρ : Type u) [Row ρ] : Type u where
  /-- the rows, oldest first -/
  rows : List ρ
  /-- the unique constraint -/
  unique : rows.Pairwise fun r r' => ¬ Row.clash r r'

namespace Table

variable {ρ : Type u} [Row ρ] {t t' : Table ρ} {r r' : ρ}

/-- The table without rows. -/
def empty : Table ρ := ⟨[], List.Pairwise.nil⟩

/-- The table with one row. -/
def singleton (r : ρ) : Table ρ := ⟨[r], List.pairwise_singleton _ _⟩

/-- `SELECT … LIMIT 1` on a condition. -/
def select (t : Table ρ) (p : ρ → Bool) : Option ρ := t.rows.find? p

/-- `SELECT` of all rows that meet a condition. -/
def selectAll (t : Table ρ) (p : ρ → Bool) : List ρ := t.rows.filter p

/-- `INSERT`; `none` is a duplicate key. -/
def insert (t : Table ρ) (r : ρ) : Option (Table ρ) :=
  if h : ∀ r' ∈ t.rows, ¬ Row.clash r' r then
    some ⟨t.rows ++ [r], by
      rw [List.pairwise_append]
      refine ⟨t.unique, List.pairwise_singleton _ _, fun a ha b hb => ?_⟩
      rw [List.mem_singleton.mp hb]
      exact h a ha⟩
  else none

/-- `UPDATE … SET … WHERE`: `f` is applied to the rows that meet the condition
and leaves their unique columns alone. -/
def update (t : Table ρ) (p : ρ → Bool) (f : ρ → ρ)
    (hf : ∀ r r', Row.clash (f r) r' ↔ Row.clash r r') : Table ρ where
  rows := t.rows.map fun r => if p r then f r else r
  unique := by
    have hg : ∀ r r', Row.clash (if p r then f r else r) r' ↔ Row.clash r r' := by
      intro r r'
      by_cases hp : p r
      · rw [if_pos hp]
        exact hf r r'
      · rw [if_neg hp]
    rw [List.pairwise_map]
    refine t.unique.imp fun {a b} hab hclash => hab ?_
    exact Row.clash_symm ((hg b a).mp (Row.clash_symm ((hg a _).mp hclash)))

/-! ## Unique rows -/

/-- Rows of a table that agree on a unique column are one row. -/
theorem eq_of_clash (hr : r ∈ t.rows) (hr' : r' ∈ t.rows) (h : Row.clash r r') : r = r' := by
  by_contra hne
  have hsymm : Std.Symm fun a b : ρ => ¬ Row.clash a b :=
    ⟨fun _ _ hab hba => hab (Row.clash_symm hba)⟩
  exact t.unique.forall hr hr' hne h

theorem nodup (t : Table ρ) : t.rows.Nodup := by
  refine t.unique.imp ?_
  rintro a b hab rfl
  exact hab (Row.clash_refl a)

/-- A table is its rows. -/
theorem eq_of_rows (h : t.rows = t'.rows) : t = t' := by
  obtain ⟨rows, _⟩ := t
  obtain ⟨rows', _⟩ := t'
  obtain rfl : rows = rows' := h
  rfl

/-! ## Reading -/

theorem select_mem {p : ρ → Bool} (h : t.select p = some r) : r ∈ t.rows ∧ p r = true :=
  ⟨List.mem_of_find?_eq_some h, List.find?_some h⟩

theorem select_eq_none {p : ρ → Bool} : t.select p = none ↔ ∀ r ∈ t.rows, ¬ p r = true :=
  List.find?_eq_none

/-- A condition on a unique column finds the only row that meets it. -/
theorem select_eq_some {p : ρ → Bool} (hp : ∀ r r', p r = true → p r' = true → Row.clash r r') :
    t.select p = some r ↔ r ∈ t.rows ∧ p r = true := by
  refine ⟨select_mem, fun ⟨hr, hpr⟩ => ?_⟩
  rcases h : t.select p with _ | r'
  · exact absurd hpr (select_eq_none.mp h r hr)
  · obtain ⟨hr', hpr'⟩ := select_mem h
    rw [eq_of_clash hr hr' (hp r r' hpr hpr')]

/-! ## Inserting -/

theorem insert_eq_some (h : t.insert r = some t') :
    t'.rows = t.rows ++ [r] ∧ ∀ r' ∈ t.rows, ¬ Row.clash r' r := by
  unfold insert at h
  by_cases hfree : ∀ r' ∈ t.rows, ¬ Row.clash r' r
  · rw [dif_pos hfree] at h
    obtain rfl := Option.some.inj h
    exact ⟨rfl, hfree⟩
  · rw [dif_neg hfree] at h
    cases h

/-- A row with fresh unique columns can be inserted. -/
theorem insert_of_fresh (h : ∀ r' ∈ t.rows, ¬ Row.clash r' r) :
    ∃ t', t.insert r = some t' := by
  unfold insert
  rw [dif_pos h]
  exact ⟨_, rfl⟩

/-! ## Updating -/

section Update

variable {p : ρ → Bool} {f : ρ → ρ} {hf : ∀ r r', Row.clash (f r) r' ↔ Row.clash r r'}

@[simp] theorem update_rows :
    (t.update p f hf).rows = t.rows.map fun r => if p r then f r else r := rfl

theorem mem_update {x : ρ} :
    x ∈ (t.update p f hf).rows ↔ ∃ r ∈ t.rows, (if p r then f r else r) = x := by
  rw [update_rows, List.mem_map]

end Update

end Table

end Relational
