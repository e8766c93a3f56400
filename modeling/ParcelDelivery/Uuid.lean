import Mathlib.Data.Nat.Notation
import Mathlib.Tactic.Ring

/-!
# `uuid.UUID`

The text that `UUID(s)` accepts, and the two texts that a UUID is written as: `str` with
hyphens, `hex` without. What is written is read back (`uuidValue_text`), and the two texts of a
UUID differ (`Uuid.hex_ne_text`), so that a comparison of texts tells them apart.
-/

namespace ParcelDelivery

/-! ## Reading -/

/-- `str.replace(pattern, "")` on characters; `skip` characters of a match are left. -/
def removeAll (pattern : List Char) : ℕ → List Char → List Char
  | _, [] => []
  | skip + 1, _ :: cs => removeAll pattern skip cs
  | 0, c :: cs =>
    if pattern.isPrefixOf (c :: cs) then removeAll pattern (pattern.length - 1) cs
    else c :: removeAll pattern 0 cs

/-- `str.strip`. -/
def stripChars (p : Char → Bool) (cs : List Char) : List Char :=
  ((cs.dropWhile p).reverse.dropWhile p).reverse

/-- The whitespace that `int` accepts around a number, among the Latin-1 characters that a
header consists of. -/
def isSpaceChar (c : Char) : Bool :=
  c.toNat == 32 || (9 ≤ c.toNat && c.toNat ≤ 13) || c.toNat == 133 || c.toNat == 160

/-- The value of a hexadecimal digit. -/
def hexDigitValue (c : Char) : Option ℕ :=
  if 48 ≤ c.toNat ∧ c.toNat ≤ 57 then some (c.toNat - 48)
  else if 97 ≤ c.toNat ∧ c.toNat ≤ 102 then some (c.toNat - 87)
  else if 65 ≤ c.toNat ∧ c.toNat ≤ 70 then some (c.toNat - 55)
  else none

/-- The digits after the first one; a single underscore may stand between two digits. -/
def hexDigits : ℕ → List Char → Option ℕ
  | n, [] => some n
  | n, '_' :: c :: cs => (hexDigitValue c).bind fun d => hexDigits (16 * n + d) cs
  | n, c :: cs => (hexDigitValue c).bind fun d => hexDigits (16 * n + d) cs

/-- A number of at least one digit. -/
def hexNumber : List Char → Option ℕ
  | [] => none
  | c :: cs => (hexDigitValue c).bind fun d => hexDigits d cs

/-- What may follow a sign: a number, or `0x` and a number with or without an underscore
before it. -/
def hexUnsigned : List Char → Option ℕ
  | '0' :: 'x' :: '_' :: cs => hexNumber cs
  | '0' :: 'X' :: '_' :: cs => hexNumber cs
  | '0' :: 'x' :: cs => hexNumber cs
  | '0' :: 'X' :: cs => hexNumber cs
  | cs => hexNumber cs

/-- `int(_, 16)` on text without hyphens. -/
def intBase16 (cs : List Char) : Option ℕ :=
  match stripChars isSpaceChar cs with
  | '+' :: cs => hexUnsigned cs
  | cs => hexUnsigned cs

/-- The value of `UUID(s)`; `none` is `ValueError`. -/
def uuidValue (s : String) : Option ℕ :=
  let hex := removeAll ['u', 'u', 'i', 'd', ':'] 0 (removeAll ['u', 'r', 'n', ':'] 0 s.toList)
  let hex := (stripChars (fun c => c == Char.ofNat 123 || c == Char.ofNat 125) hex).filter
    fun c => c != '-'
  if hex.length = 32 then intBase16 hex else none

/-- Spellings of one UUID. -/
example : uuidValue "\x7b12345678-1234-5678-1234-56781234567A\x7d" =
    uuidValue "urn:uuid:1234567812345678123456781234567a" ∧
      (uuidValue "1234567812345678123456781234567a").isSome ∧
      uuidValue "anon" = none := by decide

/-! ## Writing -/

/-- A `uuid.UUID`. -/
structure Uuid : Type where
  int : ℕ
  inRange : int < 2 ^ 128
  deriving DecidableEq, Repr

/-- A hexadecimal digit. -/
def hexDigit (n : ℕ) : Char := Char.ofNat (if n < 10 then 48 + n else 87 + n)

/-- `'%0*x' % (k, n)`. -/
def hexText : ℕ → ℕ → List Char
  | 0, _ => []
  | k + 1, n => hexText k (n / 16) ++ [hexDigit (n % 16)]

/-- `str(uuid)`, as characters. -/
def Uuid.chars (u : Uuid) : List Char :=
  let hex := hexText 32 u.int
  hex.take 8 ++ '-' :: ((hex.drop 8).take 4 ++ '-' :: ((hex.drop 12).take 4 ++
    '-' :: ((hex.drop 16).take 4 ++ '-' :: hex.drop 20)))

/-- `str(uuid)`. -/
def Uuid.text (u : Uuid) : String := String.ofList u.chars

/-- `uuid.hex`. -/
def Uuid.hex (u : Uuid) : String := String.ofList (hexText 32 u.int)

/-- A UUID of version 4, by its thirteenth digit. -/
structure Uuid4 : Type extends Uuid where
  version : int / 16 ^ 19 % 16 = 4
  deriving DecidableEq, Repr

/-- Every character is a hexadecimal digit. -/
def AllHex (cs : List Char) : Prop := ∀ c ∈ cs, (hexDigitValue c).isSome = true

section Hex

variable {cs cs' : List Char} {c : Char}

theorem hexDigitValue_hexDigit : ∀ n < 16, hexDigitValue (hexDigit n) = some n := by decide

theorem length_hexText (k n : ℕ) : (hexText k n).length = k := by
  induction k generalizing n with
  | zero => rfl
  | succ k ih => simp [hexText, ih]

theorem allHex_hexText (k n : ℕ) : AllHex (hexText k n) := by
  induction k generalizing n with
  | zero => exact fun c hc => absurd hc List.not_mem_nil
  | succ k ih =>
    intro c hc
    simp only [hexText, List.mem_append, List.mem_singleton] at hc
    rcases hc with hc | rfl
    · exact ih _ c hc
    · rw [hexDigitValue_hexDigit _ (Nat.mod_lt n (by decide))]
      rfl

/-- A character that is no digit does not occur. -/
theorem AllHex.not_mem (h : AllHex cs) (hc : hexDigitValue c = none) : c ∉ cs := by
  intro hmem
  have hsome := h c hmem
  rw [hc] at hsome
  cases hsome

theorem AllHex.tail (h : AllHex (c :: cs)) : AllHex cs := fun d hd => h d (List.mem_cons_of_mem _ hd)

/-! ### Reading the digits back -/

theorem hexDigits_cons (hc : (hexDigitValue c).isSome = true) (m : ℕ) (cs : List Char) :
    hexDigits m (c :: cs) = (hexDigitValue c).bind fun d => hexDigits (16 * m + d) cs := by
  rw [hexDigits.eq_3]
  rintro d ds rfl
  cases hc

/-- Digits are read from the left. -/
theorem hexDigits_append (h : AllHex cs) (m : ℕ) (cs' : List Char) :
    hexDigits m (cs ++ cs') = (hexDigits m cs).bind fun n => hexDigits n cs' := by
  induction cs generalizing m with
  | nil => rfl
  | cons c cs ih =>
    have hc := h c List.mem_cons_self
    rw [List.cons_append, hexDigits_cons hc, hexDigits_cons hc, Option.bind_assoc]
    simp only [ih h.tail]

/-- **The digits of a number are read back.** -/
theorem hexDigits_hexText (k n m : ℕ) :
    hexDigits m (hexText k n) = some (m * 16 ^ k + n % 16 ^ k) := by
  induction k generalizing n with
  | zero => simp [hexText, hexDigits, Nat.mod_one]
  | succ k ih =>
    have hdigit := hexDigitValue_hexDigit (n % 16) (Nat.mod_lt n (by decide))
    rw [hexText, hexDigits_append (allHex_hexText _ _), ih, Option.bind_some,
      hexDigits_cons (by rw [hdigit]; rfl), hdigit, Option.bind_some, hexDigits,
      Nat.pow_succ', Nat.mod_mul]
    congr 1
    ring

theorem hexNumber_of_allHex (h : AllHex cs) (hne : cs ≠ []) : hexNumber cs = hexDigits 0 cs := by
  cases cs with
  | nil => exact absurd rfl hne
  | cons c cs =>
    rw [hexNumber, hexDigits_cons (h c List.mem_cons_self)]
    simp only [Nat.mul_zero, Nat.zero_add]

/-- Text that consists of digits has no `0x` in front. -/
theorem hexUnsigned_of_allHex (h : AllHex cs) : hexUnsigned cs = hexNumber cs := by
  have hx : 'x' ∉ cs := h.not_mem rfl
  have hX : 'X' ∉ cs := h.not_mem rfl
  have hnot : ∀ pre ds, cs = pre ++ ds → 'x' ∉ pre ∧ 'X' ∉ pre := by
    rintro pre ds rfl
    simp only [List.mem_append, not_or] at hx hX
    exact ⟨hx.1, hX.1⟩
  apply hexUnsigned.eq_5
  · exact fun ds heq => (hnot ['0', 'x', '_'] ds heq).1 (by decide)
  · exact fun ds heq => (hnot ['0', 'X', '_'] ds heq).2 (by decide)
  · exact fun ds heq => (hnot ['0', 'x'] ds heq).1 (by decide)
  · exact fun ds heq => (hnot ['0', 'X'] ds heq).2 (by decide)

/-- `str.strip` on text without such characters. -/
theorem stripChars_of_forall {p : Char → Bool} (h : ∀ c ∈ cs, p c = false) :
    stripChars p cs = cs := by
  have hdrop : ∀ l : List Char, (∀ c ∈ l, p c = false) → l.dropWhile p = l := by
    intro l hl
    cases l with
    | nil => rfl
    | cons c l => simp [hl c List.mem_cons_self]
  rw [stripChars, hdrop cs h, hdrop cs.reverse (by simpa using h), List.reverse_reverse]

theorem intBase16_of_allHex (h : AllHex cs) : intBase16 cs = hexUnsigned cs := by
  have hspace : ∀ c ∈ cs, isSpaceChar c = false := by
    intro c hc
    have hdigit := h c hc
    simp only [hexDigitValue] at hdigit
    simp only [isSpaceChar]
    grind
  have hplus : '+' ∉ cs := h.not_mem rfl
  rw [intBase16, stripChars_of_forall hspace]
  split
  · simp at hplus
  · rfl

/-! ### `uuid.UUID` on the text -/

/-- `str.replace` of a pattern whose first character does not occur. -/
theorem removeAll_of_not_mem {p : Char} {pattern : List Char} (h : p ∉ cs) :
    removeAll (p :: pattern) 0 cs = cs := by
  induction cs with
  | nil => rfl
  | cons c cs ih =>
    simp only [List.mem_cons, not_or] at h
    have hprefix : (p :: pattern).isPrefixOf (c :: cs) = false := by
      simp [List.isPrefixOf, h.1]
    rw [removeAll, hprefix, ih h.2]
    rfl

theorem Uuid.filter_chars (u : Uuid) :
    u.chars.filter (fun c => c != '-') = hexText 32 u.int := by
  have hhyphen : ∀ ds : List Char, ds.Sublist (hexText 32 u.int) →
      ds.filter (fun c => c != '-') = ds := by
    intro ds hsub
    refine List.filter_eq_self.mpr fun c hc => bne_iff_ne.mpr ?_
    rintro rfl
    exact (allHex_hexText 32 u.int).not_mem rfl (hsub.subset hc)
  simp only [Uuid.chars, List.filter_append, List.filter_cons, bne_self_eq_false,
    Bool.false_eq_true, if_false]
  rw [hhyphen _ (List.take_sublist _ _),
    hhyphen _ ((List.take_sublist _ _).trans (List.drop_sublist _ _)),
    hhyphen _ ((List.take_sublist _ _).trans (List.drop_sublist _ _)),
    hhyphen _ ((List.take_sublist _ _).trans (List.drop_sublist _ _)),
    hhyphen _ (List.drop_sublist _ _)]
  -- the five groups, put together again
  rw [show 20 = 16 + 4 from rfl, ← List.drop_drop, List.take_append_drop, show 16 = 12 + 4 from rfl,
    ← List.drop_drop, List.take_append_drop, show 12 = 8 + 4 from rfl, ← List.drop_drop,
    List.take_append_drop, List.take_append_drop]

/-- The characters of a text are digits and hyphens. -/
theorem Uuid.not_mem_chars (u : Uuid) (hc : hexDigitValue c = none) (hne : c ≠ '-') :
    c ∉ u.chars := by
  intro hmem
  have hfilter : c ∈ u.chars.filter fun c => c != '-' :=
    List.mem_filter.mpr ⟨hmem, bne_iff_ne.mpr hne⟩
  rw [u.filter_chars] at hfilter
  exact (allHex_hexText 32 u.int).not_mem hc hfilter

/-- **Hyphens do not count**: the text of a UUID behind any number of them is a text of the UUID. -/
theorem uuidValue_hyphens (n : ℕ) (u : Uuid) :
    uuidValue (String.ofList (List.replicate n '-' ++ u.chars)) = some u.int := by
  have hchars : ∀ c, hexDigitValue c = none → c ≠ '-' → c ∉ List.replicate n '-' ++ u.chars := by
    intro c hc hne hmem
    rcases List.mem_append.mp hmem with hmem | hmem
    · exact hne (List.eq_of_mem_replicate hmem)
    · exact u.not_mem_chars hc hne hmem
  have hu : 'u' ∉ List.replicate n '-' ++ u.chars := hchars _ rfl (by decide)
  have hbraces : ∀ c ∈ List.replicate n '-' ++ u.chars,
      (c == Char.ofNat 123 || c == Char.ofNat 125) = false := by
    intro c hc
    simp only [Bool.or_eq_false_iff, beq_eq_false_iff_ne]
    refine ⟨?_, ?_⟩ <;> rintro rfl
    · exact hchars _ (by decide) (by decide) hc
    · exact hchars _ (by decide) (by decide) hc
  have hfilter : (List.replicate n '-' ++ u.chars).filter (fun c => c != '-') =
      hexText 32 u.int := by
    rw [List.filter_append, u.filter_chars, List.filter_replicate_of_neg (by decide),
      List.nil_append]
  have hhex := allHex_hexText 32 u.int
  have hne : hexText 32 u.int ≠ [] := by
    rw [← List.length_pos_iff, length_hexText]
    decide
  have hmod : u.int % 16 ^ 32 = u.int := Nat.mod_eq_of_lt (by have := u.inRange; omega)
  simp only [uuidValue, String.toList_ofList, removeAll_of_not_mem hu,
    stripChars_of_forall hbraces, hfilter, length_hexText, if_true]
  rw [intBase16_of_allHex hhex, hexUnsigned_of_allHex hhex, hexNumber_of_allHex hhex hne,
    hexDigits_hexText, Nat.zero_mul, Nat.zero_add, hmod]

/-- **`UUID(str(uuid))`** is the UUID. -/
theorem uuidValue_text (u : Uuid) : uuidValue u.text = some u.int := by
  have hvalue := uuidValue_hyphens 0 u
  rwa [List.replicate_zero, List.nil_append] at hvalue

theorem Uuid.length_text (u : Uuid) : u.text.length = 36 := by
  have hlength := length_hexText 32 u.int
  simp only [Uuid.text, String.length_ofList, Uuid.chars, List.length_append, List.length_cons,
    List.length_take, List.length_drop, hlength]
  rfl

theorem Uuid.length_hex (u : Uuid) : u.hex.length = 32 := by
  rw [Uuid.hex, String.length_ofList, length_hexText]

/-- **Two texts of one UUID**, or of two, differ in their length. -/
theorem Uuid.hex_ne_text (u v : Uuid) : u.hex ≠ v.text := by
  intro heq
  have hlength := congrArg String.length heq
  rw [u.length_hex, v.length_text] at hlength
  cases hlength

end Hex

end ParcelDelivery
