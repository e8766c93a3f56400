import Mathlib.Data.List.Basic

/-!
# JSON string literals

The text of a string as `json.dumps` writes it, all of it in ASCII: quotes,
backslashes and control characters are escaped, and so is every other character
outside the printable ASCII range, by one or two UTF-16 code units. Reading one character back
(`readChar_escapeChar`) makes the writing injective, also when something follows:
`literal_append_inj` is the rule for texts that are put together from literals.
-/

namespace JsonText

/-- The double quote. -/
def quote : Char := Char.ofNat 34

/-- The backslash. -/
def backslash : Char := Char.ofNat 92

/-- A lowercase hexadecimal digit. -/
def hexDigit (n : ℕ) : Char := if n < 10 then Char.ofNat (48 + n) else Char.ofNat (87 + n)

/-- Four hexadecimal digits. -/
def hex4 (n : ℕ) : List Char :=
  [hexDigit (n / 4096 % 16), hexDigit (n / 256 % 16), hexDigit (n / 16 % 16), hexDigit (n % 16)]

/-- A code unit, escaped. -/
def unicodeEscape (n : ℕ) : List Char := backslash :: 'u' :: hex4 n

/-- The characters with an escape of two characters, and its second one. -/
def shortEscapes : List (Char × Char) :=
  [(quote, quote), (backslash, backslash), (Char.ofNat 10, 'n'), (Char.ofNat 13, 'r'),
    (Char.ofNat 9, 't'), (Char.ofNat 12, 'f'), (Char.ofNat 8, 'b')]

/-- A character within a literal. -/
def escapeChar (c : Char) : List Char :=
  match shortEscapes.lookup c with
  | some e => [backslash, e]
  | none =>
    if 32 ≤ c.toNat ∧ c.toNat < 127 then [c]
    else if c.toNat < 65536 then unicodeEscape c.toNat
    else unicodeEscape (55296 + (c.toNat - 65536) / 1024) ++
      unicodeEscape (56320 + (c.toNat - 65536) % 1024)

/-- The characters of a literal, the quotes included. -/
def literal (s : String) : List Char := quote :: (s.toList.flatMap escapeChar ++ [quote])

/-- The text of the fields of an object whose values are strings, and of its end. -/
def dumpFields : List (String × String) → List Char
  | [] => ['}']
  | [(name, value)] => literal name ++ (':' :: ' ' :: (literal value ++ ['}']))
  | (name, value) :: field :: fields =>
    literal name ++ (':' :: ' ' :: (literal value ++ (',' :: ' ' :: dumpFields (field :: fields))))

/-- The text of an object whose values are strings. -/
def dumpObject (fields : List (String × String)) : String :=
  String.ofList ('{' :: dumpFields fields)

/-! ## Reading back -/

/-- The value of a hexadecimal digit. -/
def hexValue (c : Char) : ℕ := if c.toNat < 58 then c.toNat - 48 else c.toNat - 87

/-- Read four hexadecimal digits. -/
def readHex4 : List Char → Option (ℕ × List Char)
  | a :: b :: c :: d :: rest =>
    some (4096 * hexValue a + 256 * hexValue b + 16 * hexValue c + hexValue d, rest)
  | _ => none

/-- Read what follows the start of a code unit. -/
def readUnicode (cs : List Char) : Option (Char × List Char) :=
  match readHex4 cs with
  | some (n, rest) =>
    if 55296 ≤ n ∧ n < 56320 then
      -- the second code unit of a pair, behind its own two characters
      match readHex4 (rest.drop 2) with
      | some (m, rest') => some (Char.ofNat (65536 + 1024 * (n - 55296) + (m - 56320)), rest')
      | none => none
    else some (Char.ofNat n, rest)
  | none => none

/-- Read one character of a literal. -/
def readChar : List Char → Option (Char × List Char)
  | c :: e :: rest =>
    if c = backslash then
      if e = 'u' then readUnicode rest
      else (shortEscapes.find? fun p => p.2 == e).map fun p => (p.1, rest)
    else some (c, e :: rest)
  | [c] => some (c, [])
  | [] => none

theorem hexValue_hexDigit {n : ℕ} (h : n < 16) : hexValue (hexDigit n) = n := by
  have hall : ∀ k : Fin 16, hexValue (hexDigit k) = k := by decide
  exact hall ⟨n, h⟩

theorem readHex4_hex4 {n : ℕ} (h : n < 65536) (rest : List Char) :
    readHex4 (hex4 n ++ rest) = some (n, rest) := by
  have hdigit : ∀ k : ℕ, hexValue (hexDigit (k % 16)) = k % 16 :=
    fun k => hexValue_hexDigit (Nat.mod_lt k (by decide))
  simp only [hex4, List.cons_append, List.nil_append, readHex4, hdigit]
  congr 2
  omega

/-- A code point is no surrogate. -/
theorem toNat_valid (c : Char) : c.toNat < 55296 ∨ 57343 < c.toNat ∧ c.toNat < 1114112 :=
  c.valid

theorem readUnicode_unit {c : Char} (h : c.toNat < 65536) (rest : List Char) :
    readUnicode (hex4 c.toNat ++ rest) = some (c, rest) := by
  have hvalid := toNat_valid c
  rw [readUnicode, readHex4_hex4 h]
  simp only
  rw [if_neg (by omega), Char.ofNat_toNat]

theorem readUnicode_pair {c : Char} (h : 65536 ≤ c.toNat) (rest : List Char) :
    readUnicode (hex4 (55296 + (c.toNat - 65536) / 1024) ++
      (unicodeEscape (56320 + (c.toNat - 65536) % 1024) ++ rest)) = some (c, rest) := by
  have hvalid := toNat_valid c
  have hhigh : 55296 + (c.toNat - 65536) / 1024 < 56320 := by omega
  rw [readUnicode, readHex4_hex4 (by omega)]
  simp only
  rw [if_pos ⟨by omega, hhigh⟩]
  simp only [unicodeEscape, List.cons_append, List.drop_succ_cons, List.drop_zero]
  rw [readHex4_hex4 (by omega)]
  simp only
  have hback : 65536 + 1024 * (55296 + (c.toNat - 65536) / 1024 - 55296) +
      (56320 + (c.toNat - 65536) % 1024 - 56320) = c.toNat := by omega
  rw [hback, Char.ofNat_toNat]

theorem readChar_unicode (cs : List Char) : readChar (backslash :: 'u' :: cs) = readUnicode cs :=
  rfl

theorem readChar_short (rest : List Char) :
    ∀ p ∈ shortEscapes, readChar (backslash :: p.2 :: rest) = some (p.1, rest) := by
  intro p hp
  simp only [shortEscapes, List.mem_cons, List.not_mem_nil, or_false] at hp
  rcases hp with rfl | rfl | rfl | rfl | rfl | rfl | rfl <;> rfl

theorem readChar_plain {c : Char} (h : c ≠ backslash) (rest : List Char) :
    readChar (c :: rest) = some (c, rest) := by
  cases rest with
  | nil => rfl
  | cons e rest => exact if_neg h

/-- **Reading undoes writing**, one character at a time. -/
theorem readChar_escapeChar (c : Char) (rest : List Char) :
    readChar (escapeChar c ++ rest) = some (c, rest) := by
  rw [escapeChar]
  split
  · next e he =>
    obtain ⟨l₁, l₂, heq, -⟩ := List.lookup_eq_some_iff.mp he
    have hmem : (c, e) ∈ shortEscapes := by
      rw [heq]
      exact List.mem_append_right _ List.mem_cons_self
    exact readChar_short rest (c, e) hmem
  · next hnone =>
    split
    · refine readChar_plain ?_ rest
      rintro rfl
      cases hnone
    · split
      · next hlt => exact (readChar_unicode _).trans (readUnicode_unit hlt rest)
      · next hge =>
        rw [List.append_assoc]
        exact (readChar_unicode _).trans (readUnicode_pair (Nat.le_of_not_lt hge) rest)

/-! ## Injectivity -/

/-- No escaped character starts like the end of the literal. -/
theorem escapeChar_head (c : Char) : ∃ e rest, escapeChar c = e :: rest ∧ e ≠ quote := by
  rw [escapeChar]
  split
  · exact ⟨_, _, rfl, by decide⟩
  · next hnone =>
    split
    · refine ⟨c, [], rfl, ?_⟩
      rintro rfl
      cases hnone
    · split
      · exact ⟨_, _, rfl, by decide⟩
      · exact ⟨_, _, rfl, by decide⟩

theorem escape_append_inj {as bs x y : List Char}
    (h : as.flatMap escapeChar ++ quote :: x = bs.flatMap escapeChar ++ quote :: y) :
    as = bs ∧ x = y := by
  induction as generalizing bs with
  | nil =>
    cases bs with
    | nil => exact ⟨rfl, (List.cons.inj h).2⟩
    | cons b bs =>
      obtain ⟨e, rest, he, hne⟩ := escapeChar_head b
      rw [List.flatMap_cons, he] at h
      exact absurd (List.cons.inj h).1.symm hne
  | cons a as ih =>
    cases bs with
    | nil =>
      obtain ⟨e, rest, he, hne⟩ := escapeChar_head a
      rw [List.flatMap_cons, he] at h
      exact absurd (List.cons.inj h).1 hne
    | cons b bs =>
      simp only [List.flatMap_cons, List.append_assoc] at h
      have hread := congrArg readChar h
      simp only [readChar_escapeChar] at hread
      obtain ⟨rfl, hrest⟩ := Prod.mk.inj (Option.some.inj hread)
      obtain ⟨rfl, hxy⟩ := ih hrest
      exact ⟨rfl, hxy⟩

/-- **A literal says where it ends**: it determines its string and what follows. -/
theorem literal_append_inj {s t : String} {x y : List Char}
    (h : literal s ++ x = literal t ++ y) : s = t ∧ x = y := by
  have h' : s.toList.flatMap escapeChar ++ [quote] ++ x = t.toList.flatMap escapeChar ++ [quote] ++ y :=
    (List.cons.inj h).2
  simp only [List.append_assoc] at h'
  obtain ⟨hst, hxy⟩ := escape_append_inj h'
  exact ⟨String.toList_inj.mp hst, hxy⟩

theorem dumpFields_inj {fs gs : List (String × String)} (h : dumpFields fs = dumpFields gs) :
    fs = gs := by
  induction fs generalizing gs with
  | nil =>
    rcases gs with _ | ⟨g, _ | ⟨g', gs⟩⟩
    · rfl
    · cases (List.cons.inj h).1
    · cases (List.cons.inj h).1
  | cons f fs ih =>
    rcases fs with _ | ⟨f', fs⟩
    · rcases gs with _ | ⟨g, _ | ⟨g', gs⟩⟩
      · cases (List.cons.inj h).1
      · obtain ⟨hname, hrest⟩ := literal_append_inj h
        obtain ⟨hvalue, -⟩ := literal_append_inj (List.cons.inj (List.cons.inj hrest).2).2
        rw [Prod.ext hname hvalue]
      · obtain ⟨hname, hrest⟩ := literal_append_inj h
        obtain ⟨-, hend⟩ := literal_append_inj (List.cons.inj (List.cons.inj hrest).2).2
        cases (List.cons.inj hend).1
    · rcases gs with _ | ⟨g, _ | ⟨g', gs⟩⟩
      · cases (List.cons.inj h).1
      · obtain ⟨hname, hrest⟩ := literal_append_inj h
        obtain ⟨-, hend⟩ := literal_append_inj (List.cons.inj (List.cons.inj hrest).2).2
        cases (List.cons.inj hend).1
      · obtain ⟨hname, hrest⟩ := literal_append_inj h
        obtain ⟨hvalue, hend⟩ := literal_append_inj (List.cons.inj (List.cons.inj hrest).2).2
        rw [Prod.ext hname hvalue, ih (List.cons.inj (List.cons.inj hend).2).2]

/-- **The text of an object determines its fields.** -/
theorem dumpObject_injective : Function.Injective dumpObject := by
  intro fs gs h
  exact dumpFields_inj (List.cons.inj (String.ofList_injective h)).2

/-- The text that Python writes. -/
example : dumpObject [("path", "/parcels"), ("query", "a=\"é\"")] =
    "\x7b\"path\": \"/parcels\", \"query\": \"a=\\\"\\u00e9\\\"\"\x7d" := by decide

end JsonText
