import Mathlib.Data.List.Basic
import Mathlib.Data.List.Nodup
import Mathlib.Data.Option.Basic
import Mathlib.Logic.Relation

/-!
# Linked chains

Records that carry a key and the key of their successor. A list of records is
`Linked` when the successor keys, read along the list, are the keys of the list
from its second element on, and the last record has no successor. The definition
is one equation between lists, so that rewriting records, or hanging a new one
behind the last, is list algebra.

For records with distinct keys this is a finite linear chain: one root, one
predecessor for every other record (`Linked.pred_unique`), no branch
(`Linked.next_injOn`) and no cycle (`Linked.acyclic`).
-/

namespace LinkedChain

universe u v

variable {ρ : Type u} {κ : Type v} (key : ρ → κ) (next : ρ → Option κ)

/-- Each record points at the following one, the last one at none. -/
def Linked (l : List ρ) : Prop :=
  l.map next = (l.map fun r => some (key r)).tail ++ [none]

/-- `r` points at `r'`, both in the list. -/
def Link (l : List ρ) (r r' : ρ) : Prop :=
  r ∈ l ∧ r' ∈ l ∧ next r = some (key r')

variable {key next}

namespace Linked

variable {l : List ρ} {r r' t t' n : ρ}

theorem singleton (h : next r = none) : Linked key next [r] := by
  simp [Linked, h]

/-- Rewriting the records without touching keys and successors. -/
theorem map {g : ρ → ρ} (h : Linked key next l) (hkey : ∀ r ∈ l, key (g r) = key r)
    (hnext : ∀ r ∈ l, next (g r) = next r) : Linked key next (l.map g) := by
  have hk : (l.map g).map (fun r => some (key r)) = l.map fun r => some (key r) := by
    rw [List.map_map]
    exact List.map_congr_left fun r hr => congrArg some (hkey r hr)
  have hn : (l.map g).map next = l.map next := by
    rw [List.map_map]
    exact List.map_congr_left hnext
  rw [Linked, hn, hk]
  exact h

/-- Read off the end of a chain. -/
theorem concat_iff : Linked key next (l ++ [t]) ↔
    l.map next = ((l ++ [t]).map fun r => some (key r)).tail ∧ next t = none := by
  have hmap : (l ++ [t]).map next = l.map next ++ [next t] := List.map_append
  rw [Linked, hmap]
  refine ⟨?_, ?_⟩
  · intro h
    obtain ⟨hl, ht⟩ := List.append_inj' h rfl
    exact ⟨hl, List.singleton_inj.mp ht⟩
  · rintro ⟨hl, ht⟩
    rw [hl, ht]

/-- Hang a record behind the last one, which is rewritten to point at it. -/
theorem extend (h : Linked key next (l ++ [t])) (hkey : key t' = key t)
    (ht' : next t' = some (key n)) (hn : next n = none) :
    Linked key next (l ++ [t', n]) := by
  obtain ⟨hl, -⟩ := concat_iff.mp h
  have htail : ((l ++ [t', n]).map fun r => some (key r)).tail =
      ((l ++ [t]).map fun r => some (key r)).tail ++ [some (key n)] := by
    cases l <;> simp [hkey]
  rw [Linked, htail, ← hl]
  simp [ht', hn]

/-- Only the last record has no successor. -/
theorem eq_concat_of_next_none (h : Linked key next l) (hr : r ∈ l) (hnone : next r = none) :
    ∃ l₀, l = l₀ ++ [r] := by
  rcases List.eq_nil_or_concat l with rfl | ⟨l₀, x, rfl⟩
  · cases hr
  rw [List.concat_eq_append] at h hr ⊢
  obtain ⟨hl, -⟩ := concat_iff.mp h
  rcases List.mem_append.mp hr with hr₀ | hr₀
  · have hmem : (none : Option κ) ∈ l₀.map next := List.mem_map.mpr ⟨r, hr₀, hnone⟩
    rw [hl] at hmem
    obtain ⟨_, -, hsome⟩ := List.mem_map.mp (List.mem_of_mem_tail hmem)
    cases hsome
  · exact ⟨l₀, by rw [List.mem_singleton.mp hr₀]⟩

/-! ### With distinct keys -/

section Distinct

variable (hnd : (l.map key).Nodup)
include hnd

theorem nodup_somes : (l.map fun r => some (key r)).Nodup := by
  have hmap : (l.map fun r => some (key r)) = (l.map key).map some := by
    rw [List.map_map]
    rfl
  rw [hmap]
  exact hnd.map (Option.some_injective κ)

theorem eq_of_key (hr : r ∈ l) (hr' : r' ∈ l) (h : key r = key r') : r = r' :=
  List.inj_on_of_nodup_map hnd hr hr' h

theorem nodup_next (h : Linked key next l) : (l.map next).Nodup := by
  rw [h]
  refine List.Nodup.append (nodup_somes hnd).tail (List.nodup_singleton _) ?_
  intro x hx hx'
  rw [List.mem_singleton.mp hx'] at hx
  obtain ⟨_, -, hsome⟩ := List.mem_map.mp (List.mem_of_mem_tail hx)
  cases hsome

/-- No branch: two records do not point at the same successor, nor are both last. -/
theorem next_injOn (h : Linked key next l) (hr : r ∈ l) (hr' : r' ∈ l)
    (heq : next r = next r') : r = r' :=
  List.inj_on_of_nodup_map (nodup_next hnd h) hr hr' heq

/-- A link leads to the next position of the list. -/
theorem getElem?_succ (h : Linked key next l) (hlink : Link key next l r r') {i : ℕ}
    (hi : l[i]? = some r) : l[i + 1]? = some r' := by
  obtain ⟨-, hr', hnext⟩ := hlink
  have hat : (l.map next)[i]? = some (some (key r')) := by
    rw [List.getElem?_map, hi, Option.map_some, hnext]
  rw [h] at hat
  rw [List.getElem?_append] at hat
  split at hat
  · rw [List.getElem?_tail, List.getElem?_map] at hat
    obtain ⟨x, hx, hkey⟩ := Option.map_eq_some_iff.mp hat
    rw [hx, eq_of_key hnd (List.mem_of_getElem? hx) hr' (Option.some.inj hkey)]
  · cases List.mem_singleton.mp (List.mem_of_getElem? hat)

/-- No cycle: following the links never leads back. -/
theorem acyclic (h : Linked key next l) (r : ρ) :
    ¬ Relation.TransGen (Link key next l) r r := by
  have hforward : ∀ r', Relation.TransGen (Link key next l) r r' →
      ∀ i : ℕ, l[i]? = some r → ∃ j : ℕ, i < j ∧ l[j]? = some r' := by
    intro r' hpath
    induction hpath with
    | single hlink =>
      intro i hi
      exact ⟨i + 1, Nat.lt_succ_self i, getElem?_succ hnd h hlink hi⟩
    | tail _ hlink ih =>
      intro i hi
      obtain ⟨j, hij, hj⟩ := ih i hi
      exact ⟨j + 1, Nat.lt_succ_of_lt hij, getElem?_succ hnd h hlink hj⟩
  intro hcycle
  have hmem : r ∈ l := by
    obtain ⟨_, hlink, -⟩ := Relation.TransGen.head'_iff.mp hcycle
    exact hlink.1
  obtain ⟨i, hi, hget⟩ := List.mem_iff_getElem.mp hmem
  have hi' : l[i]? = some r := by rw [List.getElem?_eq_getElem hi, hget]
  obtain ⟨j, hij, hj⟩ := hforward r hcycle i hi'
  have heq := (List.getElem?_inj hi hnd.of_map).mp (hi'.trans hj.symm)
  omega

/-- Every record but the root is the successor of exactly one record. -/
theorem pred_unique (h : Linked key next l) (hr : r ∈ l) (hroot : l.head? ≠ some r) :
    ∃ p, (p ∈ l ∧ next p = some (key r)) ∧ ∀ q, q ∈ l ∧ next q = some (key r) → q = p := by
  have htail : some (key r) ∈ (l.map fun r => some (key r)).tail := by
    cases l with
    | nil => cases hr
    | cons x xs =>
      rcases List.mem_cons.mp hr with rfl | hxs
      · exact absurd rfl hroot
      · exact List.mem_map.mpr ⟨r, hxs, rfl⟩
  have hmem : some (key r) ∈ l.map next := by
    rw [h]
    exact List.mem_append_left _ htail
  obtain ⟨p, hp, hnext⟩ := List.mem_map.mp hmem
  refine ⟨p, ⟨hp, hnext⟩, fun q hq => ?_⟩
  exact next_injOn hnd h hq.1 hp (hq.2.trans hnext.symm)

/-- The root is nobody's successor. -/
theorem head_no_pred (h : Linked key next l) (hroot : l.head? = some r) {p : ρ} (hp : p ∈ l) :
    next p ≠ some (key r) := by
  intro heq
  have hmem : some (key r) ∈ l.map next := List.mem_map.mpr ⟨p, hp, heq⟩
  rw [h] at hmem
  cases l with
  | nil => cases hroot
  | cons x xs =>
    obtain rfl := Option.some.inj hroot
    rcases List.mem_append.mp hmem with hmem | hmem
    · obtain ⟨y, hy, hkey⟩ := List.mem_map.mp hmem
      exact (List.nodup_cons.mp hnd).1 (List.mem_map.mpr ⟨y, hy, Option.some.inj hkey⟩)
    · cases List.mem_singleton.mp hmem

end Distinct

end Linked

end LinkedChain
