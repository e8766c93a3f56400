import ParcelDelivery.DecimalArith
import Mathlib.Data.List.Basic

/-!
# The text of a decimal

`str` of a decimal, and the decimal of a text. Both go through the digits of the coefficient:
`str` puts a point between them and, where the exponent is positive or too small, adds an
exponent; the constructor reads the digits on both sides of the point as one number. So a text
gives back the decimal it was written for, with its coefficient and its exponent
(`ofText_toText`).
-/

namespace DecimalText

open DecimalArith

/-! ## Writing -/

/-- `"%+d"`. -/
def signed (z : ℤ) : List Char := (if z < 0 then '-' else '+') :: Nat.toDigits 10 z.natAbs

/-- The digits with the point after the first `dotplace` of them. -/
def mantissa (int : List Char) (dotplace : ℤ) : List Char :=
  if dotplace ≤ 0 then '0' :: '.' :: (List.replicate (-dotplace).toNat '0' ++ int)
  else if int.length ≤ dotplace then int ++ List.replicate (dotplace - int.length).toNat '0'
  else int.take dotplace.toNat ++ '.' :: int.drop dotplace.toNat

/-- The exponent, where it is not zero. -/
def exponent (e : ℤ) : List Char := if e = 0 then [] else 'E' :: signed e

/-- `Decimal.__str__` on the digits of the coefficient. -/
def unsigned (int : List Char) (exp : ℤ) : List Char :=
  let leftdigits : ℤ := exp + int.length
  let dotplace : ℤ := if exp ≤ 0 ∧ -6 < leftdigits then leftdigits else 1
  mantissa int dotplace ++ exponent (leftdigits - dotplace)

/-- `Decimal.__str__`. -/
def toText (d : Decimal) : String :=
  String.ofList ((if d.coeff < 0 then ['-'] else []) ++
    unsigned (Nat.toDigits 10 d.coeff.natAbs) d.exp)

/-! ## Reading -/

/-- The whitespace that `str.strip` takes away. -/
def isSpace (c : Char) : Bool :=
  c.toNat == 32 || (9 ≤ c.toNat && c.toNat ≤ 13) || (28 ≤ c.toNat && c.toNat ≤ 31) ||
    c.toNat == 133 || c.toNat == 160 || c.toNat == 5760 || (8192 ≤ c.toNat && c.toNat ≤ 8202) ||
    c.toNat == 8232 || c.toNat == 8233 || c.toNat == 8239 || c.toNat == 8287 || c.toNat == 12288

/-- `str.strip`. -/
def strip (cs : List Char) : List Char := ((cs.dropWhile isSpace).reverse.dropWhile isSpace).reverse

/-- A sign, if there is one: is it a minus, and what follows. -/
def readSign : List Char → Bool × List Char
  | '-' :: cs => (true, cs)
  | '+' :: cs => (false, cs)
  | cs => (false, cs)

/-- Digits after a point, if there is one, and what follows. -/
def readFraction : List Char → List Char × List Char
  | '.' :: cs => (cs.takeWhile Char.isDigit, cs.dropWhile Char.isDigit)
  | cs => ([], cs)

/-- The exponent up to the end of the text. -/
def readExponent : List Char → Option ℤ
  | [] => some 0
  | c :: cs =>
    if c = 'E' ∨ c = 'e' then
      match readSign cs with
      | (minus, digits) =>
        if digits ≠ [] ∧ digits.all Char.isDigit then
          some (if minus then -(Nat.ofDigitChars 10 digits 0 : ℤ) else Nat.ofDigitChars 10 digits 0)
        else none
    else none

/-- Digits, a point between them, an exponent: the number without the point, and the exponent
that it then has. -/
def readUnsigned (cs : List Char) : Option (ℕ × ℤ) :=
  match readFraction (cs.dropWhile Char.isDigit) with
  | (frac, rest) =>
    if cs.takeWhile Char.isDigit = [] ∧ frac = [] then none
    else
      (readExponent rest).map fun exp =>
        (Nat.ofDigitChars 10 (cs.takeWhile Char.isDigit ++ frac) 0, exp - frac.length)

/-- `Decimal(text)`, for finite numbers in ASCII: whitespace around the text and underscores do not
count. -/
def ofText (text : String) : Option Decimal :=
  match readSign ((strip text.toList).filter fun c => c != '_') with
  | (minus, cs) => (readUnsigned cs).map fun (n, exp) => ⟨if minus then -(n : ℤ) else n, exp⟩

/-- Spellings of one decimal. -/
example : ofText " 1_2.50 " = some ⟨1250, -2⟩ ∧ ofText "+125.0E-1" = some ⟨1250, -2⟩ ∧
    ofText "." = none := by decide

/-! ## Reading what has been written -/

section Reading

variable {a b int : List Char} {e exp : ℤ}

/-- All of the characters are digits. -/
def Digits (cs : List Char) : Prop := ∀ c ∈ cs, c.isDigit = true

theorem digits_toDigits (n : ℕ) : Digits (Nat.toDigits 10 n) :=
  fun _ hc => Nat.isDigit_of_mem_toDigits (by decide) (by decide) hc

theorem digits_zeros (n : ℕ) : Digits (List.replicate n '0') := by
  intro c hc
  rw [List.eq_of_mem_replicate hc]
  rfl

theorem Digits.append (ha : Digits a) (hb : Digits b) : Digits (a ++ b) := by
  intro c hc
  rcases List.mem_append.mp hc with hc | hc
  · exact ha c hc
  · exact hb c hc

/-- Digits are read up to the first character that is none. -/
theorem split_digits (ha : Digits a) (hb : ∀ c cs, b = c :: cs → c.isDigit = false) :
    (a ++ b).takeWhile Char.isDigit = a ∧ (a ++ b).dropWhile Char.isDigit = b := by
  rw [List.takeWhile_append_of_pos ha, List.dropWhile_append_of_pos ha]
  cases b with
  | nil => simp
  | cons c cs => simp [hb c cs rfl]

/-- An exponent does not begin with a digit. -/
theorem exponent_cons {c : Char} {cs : List Char} (h : exponent e = c :: cs) : c = 'E' := by
  rw [exponent] at h
  split at h
  · cases h
  · exact (List.cons.inj h).1.symm

theorem exponent_not_digit : ∀ c cs, exponent e = c :: cs → c.isDigit = false := by
  intro c cs h
  rw [exponent_cons h]
  rfl

theorem readFraction_exponent : readFraction (exponent e) = ([], exponent e) := by
  rw [exponent]
  split
  · rfl
  · rfl

theorem readExponent_exponent : readExponent (exponent e) = some e := by
  have hdigits : Nat.toDigits 10 e.natAbs ≠ [] ∧ (Nat.toDigits 10 e.natAbs).all Char.isDigit :=
    ⟨Nat.toDigits_ne_nil, List.all_eq_true.mpr (digits_toDigits _)⟩
  rw [exponent, signed]
  by_cases hzero : e = 0
  · rw [if_pos hzero, hzero]
    rfl
  · rw [if_neg hzero, readExponent, if_pos (Or.inl rfl)]
    by_cases hneg : e < 0
    · rw [if_pos hneg]
      simp only [readSign, if_pos hdigits, Nat.ofDigitChars_ten_toDigits, if_true]
      exact congrArg some (by omega)
    · rw [if_neg hneg]
      simp only [readSign, if_pos hdigits, Nat.ofDigitChars_ten_toDigits, Bool.false_eq_true,
        if_false]
      exact congrArg some (by omega)

/-- Digits and an exponent. -/
theorem readUnsigned_whole (ha : Digits a) (hne : a ≠ []) :
    readUnsigned (a ++ exponent e) = some (Nat.ofDigitChars 10 a 0, e) := by
  obtain ⟨htake, hdrop⟩ := split_digits ha (exponent_not_digit (e := e))
  rw [readUnsigned, htake, hdrop, readFraction_exponent]
  dsimp only
  rw [if_neg fun h => hne h.1, readExponent_exponent]
  simp

/-- Digits, a point, digits and an exponent. -/
theorem readUnsigned_point (ha : Digits a) (hb : Digits b) (hne : a ≠ []) :
    readUnsigned (a ++ '.' :: b ++ exponent e) =
      some (Nat.ofDigitChars 10 (a ++ b) 0, e - b.length) := by
  have hpoint : ∀ c cs, '.' :: (b ++ exponent e) = c :: cs → c.isDigit = false := by
    intro c cs h
    rw [← (List.cons.inj h).1]
    rfl
  obtain ⟨htake, hdrop⟩ := split_digits ha hpoint
  obtain ⟨htake', hdrop'⟩ := split_digits hb (exponent_not_digit (e := e))
  rw [List.append_assoc, List.cons_append, readUnsigned, htake, hdrop, readFraction, htake', hdrop']
  dsimp only
  rw [if_neg fun h => hne h.1, readExponent_exponent]
  rfl

/-- **The digits and the exponent are read back.** -/
theorem readUnsigned_unsigned (hint : Digits int) (hne : int ≠ []) :
    readUnsigned (unsigned int exp) = some (Nat.ofDigitChars 10 int 0, exp) := by
  have hlength : 0 < int.length := List.length_pos_iff.mpr hne
  rw [unsigned]
  generalize hleft : exp + (int.length : ℤ) = leftdigits
  generalize hplace : (if exp ≤ 0 ∧ -6 < leftdigits then leftdigits else 1) = dotplace
  have hcases : exp ≤ 0 ∧ dotplace = leftdigits ∨ dotplace = 1 := by
    split at hplace
    · next hplain => exact Or.inl ⟨hplain.1, hplace.symm⟩
    · exact Or.inr hplace.symm
  rw [mantissa]
  by_cases hzero : dotplace ≤ 0
  · -- zeros come before the digits
    rw [if_pos hzero]
    have hread := readUnsigned_point (a := ['0']) (e := leftdigits - dotplace) (digits_zeros 1)
      ((digits_zeros (-dotplace).toNat).append hint) (List.cons_ne_nil _ _)
    refine hread.trans ?_
    rw [Nat.ofDigitChars_append, Nat.ofDigitChars_append, Nat.ofDigitChars_replicate_zero]
    refine congrArg some (Prod.ext ?_ ?_)
    · simp [Nat.ofDigitChars]
    · simp only [List.length_append, List.length_replicate]
      omega
  · rw [if_neg hzero]
    by_cases hwhole : (int.length : ℤ) ≤ dotplace
    · -- no zeros follow the digits: the point would come right behind them
      rw [if_pos hwhole, show (dotplace - int.length).toNat = 0 by omega, List.replicate_zero,
        List.append_nil, readUnsigned_whole hint hne]
      refine congrArg some (Prod.ext rfl ?_)
      dsimp only
      omega
    · rw [if_neg hwhole]
      have htake : Digits (int.take dotplace.toNat) := fun c hc => hint c (List.mem_of_mem_take hc)
      have hdrop : Digits (int.drop dotplace.toNat) := fun c hc => hint c (List.mem_of_mem_drop hc)
      have htakeNe : int.take dotplace.toNat ≠ [] := by
        refine List.length_pos_iff.mp ?_
        rw [List.length_take]
        omega
      rw [readUnsigned_point htake hdrop htakeNe, List.take_append_drop, List.length_drop]
      refine congrArg some (Prod.ext rfl ?_)
      dsimp only
      omega

/-! ### No other characters -/

/-- A character that is neither whitespace nor an underscore. -/
def Plain (c : Char) : Prop := isSpace c = false ∧ c ≠ '_'

theorem plain_of_digit {c : Char} (h : c.isDigit = true) : Plain c := by
  have hrange : 48 ≤ c.toNat ∧ c.toNat ≤ 57 := by
    rw [Char.isDigit, Bool.and_eq_true, decide_eq_true_eq, decide_eq_true_eq] at h
    exact ⟨UInt32.le_iff_toNat_le.mp h.1, UInt32.le_iff_toNat_le.mp h.2⟩
  refine ⟨?_, ?_⟩
  · simp only [isSpace, Bool.or_eq_false_iff, Bool.and_eq_false_iff, beq_eq_false_iff_ne,
      decide_eq_false_iff_not]
    omega
  · rintro rfl
    cases h

theorem plain_signed (z : ℤ) : ∀ c ∈ signed z, Plain c := by
  intro c hc
  rcases List.mem_cons.mp hc with rfl | hc
  · split
    · exact ⟨rfl, by decide⟩
    · exact ⟨rfl, by decide⟩
  · exact plain_of_digit (digits_toDigits _ c hc)

theorem plain_unsigned (hint : Digits int) : ∀ c ∈ unsigned int exp, Plain c := by
  have hpoint : Plain '.' := ⟨rfl, by decide⟩
  have hmantissa : ∀ dotplace, ∀ c ∈ mantissa int dotplace, Plain c := by
    intro dotplace c hc
    rw [mantissa] at hc
    split at hc
    · rcases List.mem_cons.mp hc with rfl | hc
      · exact plain_of_digit rfl
      · rcases List.mem_cons.mp hc with rfl | hc
        · exact hpoint
        · exact plain_of_digit ((digits_zeros _).append hint c hc)
    · split at hc
      · exact plain_of_digit (hint.append (digits_zeros _) c hc)
      · rcases List.mem_append.mp hc with hc | hc
        · exact plain_of_digit (hint c (List.mem_of_mem_take hc))
        · rcases List.mem_cons.mp hc with rfl | hc
          · exact hpoint
          · exact plain_of_digit (hint c (List.mem_of_mem_drop hc))
  have hexponent : ∀ e, ∀ c ∈ exponent e, Plain c := by
    intro e c hc
    rw [exponent] at hc
    split at hc
    · cases hc
    · rcases List.mem_cons.mp hc with rfl | hc
      · exact ⟨rfl, by decide⟩
      · exact plain_signed e c hc
  intro c hc
  rcases List.mem_append.mp hc with hc | hc
  · exact hmantissa _ c hc
  · exact hexponent _ c hc

/-- Nothing is taken away from a text without whitespace and underscores. -/
theorem strip_plain {cs : List Char} (h : ∀ c ∈ cs, Plain c) :
    (strip cs).filter (fun c => c != '_') = cs := by
  have hkeep : ∀ {cs : List Char}, (∀ c ∈ cs, Plain c) → cs.dropWhile isSpace = cs := by
    intro cs h
    cases cs with
    | nil => rfl
    | cons c cs => simp [(h c List.mem_cons_self).1]
  rw [strip, hkeep h, hkeep fun c hc => h c (List.mem_reverse.mp hc), List.reverse_reverse]
  exact List.filter_eq_self.mpr fun c hc => bne_iff_ne.mpr (h c hc).2

/-- A number begins with a digit. -/
theorem unsigned_cons (exp : ℤ) (hint : Digits int) (hne : int ≠ []) :
    ∃ c cs, unsigned int exp = c :: cs ∧ c.isDigit = true := by
  have hmantissa : ∀ dotplace, ∃ c cs, mantissa int dotplace = c :: cs ∧ c.isDigit = true := by
    obtain ⟨c, int, rfl⟩ := List.exists_cons_of_ne_nil hne
    have hdigit := hint c List.mem_cons_self
    intro dotplace
    rw [mantissa]
    split
    · exact ⟨'0', _, rfl, rfl⟩
    · next hpos =>
      split
      · exact ⟨c, _, rfl, hdigit⟩
      · obtain ⟨k, hk⟩ := Nat.exists_eq_succ_of_ne_zero (show dotplace.toNat ≠ 0 by omega)
        rw [hk]
        exact ⟨c, _, rfl, hdigit⟩
  obtain ⟨c, cs, heq, hdigit⟩ :=
    hmantissa (if exp ≤ 0 ∧ -6 < exp + (int.length : ℤ) then exp + (int.length : ℤ) else 1)
  simp only [unsigned, heq]
  exact ⟨c, _, rfl, hdigit⟩

/-- The sign is read back. -/
theorem readSign_unsigned (z : ℤ) (hint : Digits int) (hne : int ≠ []) :
    readSign ((if z < 0 then ['-'] else []) ++ unsigned int exp) =
      (decide (z < 0), unsigned int exp) := by
  obtain ⟨c, cs, heq, hdigit⟩ := unsigned_cons exp hint hne
  by_cases hneg : z < 0
  · simp [hneg, readSign]
  · rw [if_neg hneg, heq, List.nil_append, decide_eq_false hneg, readSign]
    · rintro cs' ⟨rfl, -⟩
      cases hdigit
    · rintro cs' ⟨rfl, -⟩
      cases hdigit

end Reading

/-- **Round trip**: a text gives back the decimal it was written for. -/
theorem ofText_toText (d : Decimal) : ofText (toText d) = some d := by
  have hint := digits_toDigits d.coeff.natAbs
  have hne : Nat.toDigits 10 d.coeff.natAbs ≠ [] := Nat.toDigits_ne_nil
  have hplain : ∀ c ∈ (if d.coeff < 0 then ['-'] else []) ++
      unsigned (Nat.toDigits 10 d.coeff.natAbs) d.exp, Plain c := by
    intro c hc
    rcases List.mem_append.mp hc with hc | hc
    · split at hc
      · rw [List.mem_singleton.mp hc]
        exact ⟨rfl, by decide⟩
      · cases hc
    · exact plain_unsigned hint c hc
  rw [ofText, toText, String.toList_ofList, strip_plain hplain, readSign_unsigned d.coeff hint hne]
  dsimp only
  rw [readUnsigned_unsigned hint hne, Nat.ofDigitChars_ten_toDigits, Option.map_some]
  obtain ⟨coeff, exp⟩ := d
  refine congrArg some (congrArg (Decimal.mk · exp) ?_)
  dsimp only
  by_cases hneg : coeff < 0
  · rw [decide_eq_true hneg, if_pos rfl]
    omega
  · rw [decide_eq_false hneg, if_neg Bool.false_ne_true]
    omega

end DecimalText
