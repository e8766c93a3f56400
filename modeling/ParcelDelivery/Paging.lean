import ParcelDelivery.System
import Mathlib.Data.List.Sort

/-!
# Walks through the pages of a list

A list that is served in pages: a fetch at an offset answers a page of at most `limit` items.
A reader walks through it by offsets `0`, `limit`, `2 * limit`, … until a page is empty,
while other writers may change the list between two fetches.

* `walk_tiles` — a list at rest is returned piece by piece, in its order.
* `walk_covers` — where writers only add items, whatever stood in the list at the start is
  returned, wherever in the list the new items go.
* `walk_ends` — a reader who is left alone comes to an empty page.
-/

namespace Paging

open TransitionSystem

universe u

/-- The items from an offset on, at most `limit` of them. -/
def window {α : Type u} (limit offset : ℕ) (rows : List α) : List α :=
  (rows.drop offset).take limit

/-- A list in a state that is served in pages. -/
structure Source (S P α : Type u) : Type u where
  /-- the most items of a page -/
  limit : ℕ
  /-- the page at an offset; `none` is a failure -/
  fetch : ℕ → S → Option P
  items : P → List α

/-- A reader on the way through the pages. -/
structure Walk (S P : Type u) : Type u where
  state : S
  /-- where the next page starts -/
  offset : ℕ
  /-- the pages so far -/
  pages : List P
  /-- the last page was empty -/
  ended : Bool

/-- The reader fetches the next page, or somebody writes. -/
inductive WalkMove (L : Type u) : Type u where
  | fetch
  | write (l : L)

variable {S L P α κ : Type u}

/-- A walk that has not fetched anything. -/
def Walk.start (s : S) : Walk S P where
  state := s
  offset := 0
  pages := []
  ended := false

/-- A walk with its writers. It fetches nothing after an empty page. -/
def walkSystem (src : Source S P α) (T : System S L) : System (Walk S P) (WalkMove L) where
  step w
    | .fetch =>
      if w.ended then none
      else
        (src.fetch w.offset w.state).map fun p =>
          { w with
            offset := w.offset + src.limit
            pages := w.pages ++ [p]
            ended := (src.items p).isEmpty }
    | .write l => (T.step w.state l).map fun s => { w with state := s }

/-- What the walk has returned. -/
def Walk.returned (src : Source S P α) (w : Walk S P) : List α := w.pages.flatMap src.items

/-- A reader who starts in `s`, and is alone, comes to an empty page, and then `Q` holds. -/
def Source.WalkedAlone (src : Source S P α) (T : System S L) (s : S) (Q : Walk S P → Prop) : Prop :=
  (∃ n w, (walkSystem src T).run (.start s) (List.replicate n .fetch) = some w ∧
    w.ended = true) ∧
  ∀ n w, (walkSystem src T).run (.start s) (List.replicate n .fetch) = some w →
    w.ended = true → Q w

/-- Every fetch answers the items of the list at its offset. -/
def Source.Serves (src : Source S P α) (view : S → List α) : Prop :=
  ∀ offset s, ∃ p, src.fetch offset s = some p ∧ src.items p = window src.limit offset (view s)

section Steps

variable {src : Source S P α} {T : System S L} {view : S → List α} {w w' : Walk S P}

/-- What a move of the walk does. -/
theorem step_cases (hserves : src.Serves view) {l : WalkMove L}
    (h : (walkSystem src T).step w l = some w') :
    (l = .fetch ∧ w.ended = false ∧ ∃ p, src.fetch w.offset w.state = some p ∧
        src.items p = window src.limit w.offset (view w.state) ∧
        w' = { w with
          offset := w.offset + src.limit
          pages := w.pages ++ [p]
          ended := (src.items p).isEmpty }) ∨
      ∃ m s, l = .write m ∧ T.step w.state m = some s ∧ w' = { w with state := s } := by
  cases l with
  | fetch =>
    simp only [walkSystem] at h
    split at h
    · cases h
    · next hended =>
      obtain ⟨p, hp, hitems⟩ := hserves w.offset w.state
      simp only [hp, Option.map_some, Option.some.injEq] at h
      exact Or.inl ⟨rfl, eq_false_of_ne_true hended, p, hp, hitems, h.symm⟩
  | write m =>
    obtain ⟨s, hs, rfl⟩ := Option.map_eq_some_iff.mp h
    exact Or.inr ⟨m, s, rfl, hs, rfl⟩

/-- A walk that has not ended can fetch. -/
theorem fetch_enabled (hserves : src.Serves view) (hended : w.ended = false) :
    ∃ p, src.items p = window src.limit w.offset (view w.state) ∧
      (walkSystem src T).step w .fetch = some
        { w with
          offset := w.offset + src.limit
          pages := w.pages ++ [p]
          ended := (src.items p).isEmpty } := by
  obtain ⟨p, hp, hitems⟩ := hserves w.offset w.state
  refine ⟨p, hitems, ?_⟩
  simp [walkSystem, hended, hp]

theorem window_eq_nil {limit offset : ℕ} {rows : List α} (hlimit : 0 < limit)
    (h : window limit offset rows = []) : rows.drop offset = [] := by
  rcases List.take_eq_nil_iff.mp h with hzero | hnil
  · omega
  · exact hnil

/-- A window and what comes after it. -/
theorem window_append_drop (limit offset : ℕ) (rows : List α) :
    window limit offset rows ++ rows.drop (offset + limit) = rows.drop offset := by
  rw [window, ← List.drop_drop]
  exact List.take_append_drop limit _

end Steps

/-! ## A list at rest -/

section AtRest

variable {src : Source S P α} {T : System S L} {view : S → List α}

/-- How far a walk through a list at rest has come. -/
structure Tiled (src : Source S P α) (view : S → List α) (s : S) (w : Walk S P) : Prop where
  state : w.state = s
  returned : w.returned src = (view s).take w.offset
  ended : w.ended = true → (view s).drop w.offset = []
  fetched : ∀ p ∈ w.pages, ∃ offset, src.fetch offset s = some p

theorem tiled_step (hserves : src.Serves view) (hlimit : 0 < src.limit) {s : S} {w w' : Walk S P}
    (htiled : Tiled src view s w) (hstep : (walkSystem src T).step w .fetch = some w') :
    Tiled src view s w' := by
  rcases step_cases hserves hstep with ⟨-, -, p, hp, hitems, rfl⟩ | ⟨m, s', hmove, -⟩
  · obtain rfl := htiled.state
    refine ⟨rfl, ?_, fun hended => ?_, fun p' hp' => ?_⟩
    · have hreturned := htiled.returned
      simp only [Walk.returned] at hreturned
      simp only [Walk.returned, List.flatMap_append, List.flatMap_singleton, hreturned, hitems,
        window, List.take_add]
    · have hempty : window src.limit w.offset (view w.state) = [] := by
        rw [← hitems]
        exact List.isEmpty_iff.mp hended
      simp only [← List.drop_drop, window_eq_nil hlimit hempty, List.drop_nil]
    · simp only [List.mem_append, List.mem_singleton] at hp'
      rcases hp' with hp' | rfl
      · exact htiled.fetched p' hp'
      · exact ⟨w.offset, hp⟩
  · cases hmove

/-- **A reader who is left alone comes to an empty page.** -/
theorem walk_ends (T : System S L) (hserves : src.Serves view) (hlimit : 0 < src.limit)
    (w : Walk S P) :
    ∃ n w', (walkSystem src T).run w (List.replicate n .fetch) = some w' ∧ w'.ended = true := by
  -- each fetch leaves less of the list to come
  induction hleft : ((view w.state).drop w.offset).length using Nat.strong_induction_on
    generalizing w with
  | _ left ih =>
    cases hended : w.ended with
    | true => exact ⟨0, w, rfl, hended⟩
    | false =>
      obtain ⟨p, hitems, hstep⟩ := fetch_enabled (T := T) hserves hended
      by_cases hempty : src.items p = []
      · refine ⟨1, _, System.run_cons_eq_some.mpr ⟨_, hstep, rfl⟩, ?_⟩
        simp [hempty]
      · have hmore : (view w.state).drop w.offset ≠ [] := by
          intro hnil
          apply hempty
          rw [hitems, window, hnil, List.take_nil]
        have hless : ((view w.state).drop (w.offset + src.limit)).length < left := by
          have hpos := List.length_pos_of_ne_nil hmore
          simp only [List.length_drop] at hpos hleft ⊢
          omega
        obtain ⟨n, w', hrun, hw'⟩ := ih _ hless
          { w with
            offset := w.offset + src.limit
            pages := w.pages ++ [p]
            ended := (src.items p).isEmpty } rfl
        exact ⟨n + 1, w', System.run_cons_eq_some.mpr ⟨_, hstep, hrun⟩, hw'⟩

/-- **Tiling.** A walk through a list at rest ends, and has returned the list; every page was
fetched from it. -/
theorem walk_tiles (T : System S L) (hserves : src.Serves view) (hlimit : 0 < src.limit) (s : S) :
    src.WalkedAlone T s fun w =>
      w.returned src = view s ∧ ∀ p ∈ w.pages, ∃ offset, src.fetch offset s = some p := by
  refine ⟨walk_ends T hserves hlimit _, fun n w hrun hended => ?_⟩
  have htiled : Tiled src view s w := by
    refine System.run_invariant (I := Tiled src view s) (A := fun _ l _ => l = .fetch)
      (fun w l w' hI hstep hl => tiled_step hserves hlimit hI (hl ▸ hstep)) ?_ ?_ hrun
    · exact ⟨rfl, rfl, fun h => Bool.noConfusion h, fun p hp => absurd hp List.not_mem_nil⟩
    · exact System.steps_of_labels fun l hl => (List.mem_replicate.mp hl).2
  refine ⟨?_, htiled.fetched⟩
  rw [htiled.returned, ← List.append_nil (List.take _ _), ← htiled.ended hended,
    List.take_append_drop]

theorem Source.WalkedAlone.mono {s : S} {Q Q' : Walk S P → Prop}
    (h : src.WalkedAlone T s Q) (hQ : ∀ w, Q w → Q' w) : src.WalkedAlone T s Q' :=
  ⟨h.1, fun n w hrun hended => hQ w (h.2 n w hrun hended)⟩

end AtRest

/-! ## A list that grows -/

section Growing

variable {src : Source S P α} {T : System S L} {view : S → List α} {key : α → κ}

/-- An item with this key has been returned, as it stood in the list at the time. -/
def Returned (src : Source S P α) (T : System S L) (view : S → List α) (key : α → κ) (s₀ : S)
    (k : κ) (w : Walk S P) : Prop :=
  ∃ a ∈ w.returned src, key a = k ∧ ∃ s, T.Reachable s₀ s ∧ a ∈ view s

/-- The item with this key has been returned, or the reader is still before it. -/
structure Covered (src : Source S P α) (T : System S L) (view : S → List α) (key : α → κ)
    (s₀ : S) (k : κ) (w : Walk S P) : Prop where
  reachable : T.Reachable s₀ w.state
  ahead : Returned src T view key s₀ k w ∨
    w.ended = false ∧ k ∈ ((view w.state).map key).drop w.offset

theorem covered_step (hserves : src.Serves view) (hlimit : 0 < src.limit)
    (hgrows : ∀ s l s', T.step s l = some s' → ((view s).map key).Sublist ((view s').map key))
    {s₀ : S} {k : κ} {w w' : Walk S P} {l : WalkMove L}
    (hcovered : Covered src T view key s₀ k w) (hstep : (walkSystem src T).step w l = some w') :
    Covered src T view key s₀ k w' := by
  rcases step_cases hserves hstep with ⟨-, -, p, -, hitems, rfl⟩ | ⟨m, s', -, hs', rfl⟩
  · refine ⟨hcovered.reachable, ?_⟩
    rcases hcovered.ahead with ⟨a, ha, hkey, hseen⟩ | ⟨-, hahead⟩
    · refine Or.inl ⟨a, ?_, hkey, hseen⟩
      simp only [Walk.returned, List.flatMap_append, List.mem_append]
      exact Or.inl ha
    -- the key is on this page, or after it
    · rw [← List.map_drop, ← window_append_drop src.limit, List.map_append, List.mem_append]
        at hahead
      rcases hahead with hpage | hlater
      · obtain ⟨a, ha, hkey⟩ := List.mem_map.mp hpage
        refine Or.inl ⟨a, ?_, hkey, w.state, hcovered.reachable,
          List.mem_of_mem_drop (List.mem_of_mem_take ha)⟩
        simp only [Walk.returned, List.flatMap_append, List.flatMap_singleton, List.mem_append]
        exact Or.inr (hitems ▸ ha)
      · refine Or.inr ⟨?_, by rwa [List.map_drop] at hlater⟩
        simp only [List.isEmpty_eq_false_iff]
        intro hempty
        rw [hitems] at hempty
        rw [← List.drop_drop, window_eq_nil hlimit hempty] at hlater
        simp at hlater
  · refine ⟨hcovered.reachable.trans
      ⟨[m], System.run_cons_eq_some.mpr ⟨s', hs', rfl⟩⟩, ?_⟩
    rcases hcovered.ahead with hreturned | ⟨hended, hahead⟩
    · exact Or.inl hreturned
    -- what is ahead of the reader stays ahead when the list grows
    · exact Or.inr ⟨hended, ((hgrows _ _ _ hs').drop w.offset).subset hahead⟩

/-- **Coverage.** Where every write keeps the keys of the list in their order, a walk that has
ended has returned every key that stood in the list when it began. -/
theorem walk_covers (key : α → κ) (hserves : src.Serves view) (hlimit : 0 < src.limit)
    (hgrows : ∀ s l s', T.step s l = some s' → ((view s).map key).Sublist ((view s').map key))
    {s₀ : S} {moves : List (WalkMove L)} {w : Walk S P}
    (hrun : (walkSystem src T).run (.start s₀) moves = some w) (hended : w.ended = true)
    {a : α} (ha : a ∈ view s₀) : Returned src T view key s₀ (key a) w := by
  have hstart : Covered src T view key s₀ (key a) (Walk.start s₀) :=
    ⟨.refl s₀, Or.inr ⟨rfl, List.mem_map_of_mem ha⟩⟩
  have hcovered := System.run_preserves (I := Covered src T view key s₀ (key a))
    (fun _ _ _ hI hstep => covered_step hserves hlimit hgrows hI hstep) hstart hrun
  rcases hcovered.ahead with hreturned | ⟨hnot, -⟩
  · exact hreturned
  · rw [hended] at hnot
    cases hnot

end Growing

/-! ## Sorted lists -/

section Sorted

variable {r : α → α → Prop} [DecidableRel r] [IsTrans α r] [Std.Total r]

/-- A list that grows keeps its items in their sorted order. -/
theorem insertionSort_sublist {l l' : List α} (h : l.Sublist l') :
    (l.insertionSort r).Sublist (l'.insertionSort r) := by
  induction h with
  | slnil => exact List.Sublist.refl _
  | cons a _ ih => exact ih.trans (List.sublist_orderedInsert a _)
  | cons_cons a _ ih => exact ih.orderedInsert_sublist a (List.pairwise_insertionSort r _)

end Sorted

end Paging
