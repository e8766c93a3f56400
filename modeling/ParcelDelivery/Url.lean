import Mathlib.Data.List.TakeWhile

/-!
# URLs put together and taken apart

A server puts the parts of a request together as a URL, and whoever reads the URL takes it apart
again, at the first character that ends a part. The parts come back where none of them holds
such a character (`split_join`). Elsewhere the borders move, and different parts can be read
as the same.

`split` follows Python's `urlsplit`: tabs and line breaks go first, then the network location
ends at the first slash, question mark or number sign, what follows a number sign is the
fragment, and what follows a question mark in the rest is the query.
-/

namespace Url

/-- The parts of a URL; the scheme and the fragment are left out. -/
structure Parts : Type where
  netloc : String
  path : String
  query : String
  deriving DecidableEq, Repr

/-- A tab, a line feed or a carriage return. -/
def dropped (c : Char) : Bool := c.toNat == 9 || c.toNat == 10 || c.toNat == 13

/-- The character ends a network location. -/
def endsNetloc (c : Char) : Bool := c == '/' || c == '?' || c == '#'

/-- The query and the question mark before it. -/
def querySuffix (query : String) : List Char := if query = "" then [] else '?' :: query.toList

/-- The text of the parts, behind the scheme. -/
def join (p : Parts) : List Char :=
  '/' :: '/' :: (p.netloc.toList ++ (p.path.toList ++ querySuffix p.query))

/-- The parts of a text that comes behind a scheme and a colon and starts with two slashes. -/
def split (text : List Char) : Parts :=
  let cs := (text.filter fun c => !dropped c).drop 2
  let rest := (cs.dropWhile fun c => !endsNetloc c).takeWhile fun c => c != '#'
  { netloc := String.ofList (cs.takeWhile fun c => !endsNetloc c)
    path := String.ofList (rest.takeWhile fun c => c != '?')
    query := String.ofList ((rest.dropWhile fun c => c != '?').drop 1) }

/-- No part holds a character that is dropped or that ends it, and the path starts with a slash. -/
structure Parts.Plain (p : Parts) : Prop where
  netloc : ∀ c ∈ p.netloc.toList, dropped c = false ∧ endsNetloc c = false
  path : ∀ c ∈ p.path.toList, dropped c = false ∧ c ≠ '#' ∧ c ≠ '?'
  absolute : p.path.toList.head? = some '/'
  query : ∀ c ∈ p.query.toList, dropped c = false ∧ c ≠ '#'

/-- Whether the parts are plain, character by character. -/
theorem Parts.plain_iff (p : Parts) :
    (p.netloc.toList.all (fun c => !dropped c && !endsNetloc c) = true ∧
      p.path.toList.all (fun c => !dropped c && (c != '#' && c != '?')) = true ∧
      p.path.toList.head? = some '/' ∧
      p.query.toList.all (fun c => !dropped c && c != '#') = true) ↔ p.Plain := by
  simp only [List.all_eq_true, Bool.and_eq_true, Bool.not_eq_true', bne_iff_ne]
  exact ⟨fun ⟨hnetloc, hpath, habsolute, hquery⟩ => ⟨hnetloc, hpath, habsolute, hquery⟩,
    fun ⟨hnetloc, hpath, habsolute, hquery⟩ => ⟨hnetloc, hpath, habsolute, hquery⟩⟩

instance (p : Parts) : Decidable p.Plain := decidable_of_iff _ p.plain_iff

section Plain

variable {p : Parts}

theorem drop_querySuffix (query : String) : (querySuffix query).drop 1 = query.toList := by
  by_cases hempty : query = ""
  · subst hempty
    rfl
  · rw [querySuffix, if_neg hempty]
    rfl

theorem Parts.Plain.mem_querySuffix (h : p.Plain) {c : Char} (hc : c ∈ querySuffix p.query) :
    dropped c = false ∧ c ≠ '#' := by
  rw [querySuffix] at hc
  split at hc
  · exact absurd hc List.not_mem_nil
  · rcases List.mem_cons.mp hc with rfl | hc
    · decide
    · exact h.query c hc

/-- Nothing is dropped from the text of plain parts. -/
theorem Parts.Plain.filter_join (h : p.Plain) :
    (join p).filter (fun c => !dropped c) = join p := by
  refine List.filter_eq_self.mpr fun c hc => ?_
  rw [Bool.not_eq_true']
  simp only [join, List.mem_cons, List.mem_append] at hc
  rcases hc with rfl | rfl | hc | hc | hc
  · rfl
  · rfl
  · exact (h.netloc c hc).1
  · exact (h.path c hc).1
  · exact (h.mem_querySuffix hc).1

/-- The network location of plain parts ends where the path begins. -/
theorem Parts.Plain.netloc_ends (h : p.Plain) (cs : List Char) :
    (p.netloc.toList ++ (p.path.toList ++ cs)).takeWhile (fun c => !endsNetloc c) =
        p.netloc.toList ∧
      (p.netloc.toList ++ (p.path.toList ++ cs)).dropWhile (fun c => !endsNetloc c) =
        p.path.toList ++ cs := by
  have hnetloc : ∀ c ∈ p.netloc.toList, (!endsNetloc c) = true := by
    intro c hc
    rw [(h.netloc c hc).2]
    rfl
  obtain ⟨tail, hpath⟩ := List.head?_eq_some_iff.mp h.absolute
  rw [List.takeWhile_append_of_pos hnetloc, List.dropWhile_append_of_pos hnetloc, hpath]
  exact ⟨List.append_nil _, rfl⟩

/-- **Plain parts come back.** -/
theorem split_join (h : p.Plain) : split (join p) = p := by
  have hpath : ∀ c ∈ p.path.toList, (c != '?') = true := fun c hc => bne_iff_ne.mpr (h.path c hc).2.2
  have hrest : ∀ c ∈ p.path.toList ++ querySuffix p.query, (c != '#') = true := by
    intro c hc
    rcases List.mem_append.mp hc with hc | hc
    · exact bne_iff_ne.mpr (h.path c hc).2.1
    · exact bne_iff_ne.mpr (h.mem_querySuffix hc).2
  have hends := h.netloc_ends (querySuffix p.query)
  have htake : (querySuffix p.query).takeWhile (fun c => c != '?') = [] ∧
      (querySuffix p.query).dropWhile (fun c => c != '?') = querySuffix p.query := by
    rw [querySuffix]
    split <;> exact ⟨rfl, rfl⟩
  have hjoin : (join p).drop 2 =
      p.netloc.toList ++ (p.path.toList ++ querySuffix p.query) := rfl
  simp only [split, h.filter_join, hjoin, hends.1, hends.2,
    List.takeWhile_eq_self_iff.mpr hrest, List.takeWhile_append_of_pos hpath,
    List.dropWhile_append_of_pos hpath, htake.1, htake.2, drop_querySuffix, List.append_nil,
    String.ofList_toList]

/-- A question mark in a path begins the query, and a number sign ends everything. -/
example : split (join ⟨"localhost", "/items/1?", ""⟩) = ⟨"localhost", "/items/1", ""⟩ ∧
    split (join ⟨"localhost", "/items/1#a", "b=c"⟩) = ⟨"localhost", "/items/1", ""⟩ := by decide

end Plain

end Url
