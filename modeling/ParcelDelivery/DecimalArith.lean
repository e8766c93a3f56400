import Mathlib.Data.Int.Notation
import Mathlib.Algebra.Group.Nat.Defs
import Mathlib.Algebra.Group.Int.Defs
import Mathlib.Data.Nat.Log

/-!
# Decimal arithmetic and fixed-point columns

* `Decimal` — the finite numbers of Python's `decimal` module, a coefficient and an
  exponent, so that `2.0` and `2.00` are different values. Sums and products are
  exact and then rounded to the context precision, halves to even.
* `Numeric p s` — a column `DECIMAL(p, s)`: a whole number of units of `10 ^ (-s)` with
  at most `p` digits. Storing a decimal rounds halves away from zero and is
  refused (`none`) out of range.

The exponent range of the context is not bounded here.
-/

namespace DecimalArith

/-- `coeff * 10 ^ exp`. -/
structure Decimal : Type where
  coeff : ℤ
  exp : ℤ
  deriving DecidableEq, Repr

/-- The default context precision. -/
def precision : ℕ := 28

/-- The number of decimal digits, one for zero. -/
def digitCount (n : ℕ) : ℕ := Nat.log 10 n + 1

/-- Drop the last `k` digits, halves to even. -/
def dropHalfEven (n k : ℕ) : ℕ :=
  let q := n / 10 ^ k
  let r := n % 10 ^ k
  if 10 ^ k < 2 * r ∨ 2 * r = 10 ^ k ∧ q % 2 = 1 then q + 1 else q

/-- Drop the last `k` digits, halves away from zero. -/
def dropHalfUp (n k : ℕ) : ℕ := (2 * n + 10 ^ k) / (2 * 10 ^ k)

/-- `n` with the sign of `z`. -/
def withSign (z : ℤ) (n : ℕ) : ℤ := if z < 0 then -(n : ℤ) else n

namespace Decimal

/-- Round to the context precision. -/
def fix (d : Decimal) : Decimal :=
  let k := digitCount d.coeff.natAbs - precision
  if k = 0 then d
  else
    let n := dropHalfEven d.coeff.natAbs k
    if digitCount n ≤ precision then ⟨withSign d.coeff n, d.exp + k⟩
    else ⟨withSign d.coeff (n / 10), d.exp + k + 1⟩

/-- The coefficient of a number written with a smaller exponent. -/
def coeffAt (d : Decimal) (exp : ℤ) : ℤ := d.coeff * 10 ^ (d.exp - exp).toNat

instance : Mul Decimal where
  mul a b := fix ⟨a.coeff * b.coeff, a.exp + b.exp⟩

instance : Add Decimal where
  add a b :=
    let exp := min a.exp b.exp
    fix ⟨a.coeffAt exp + b.coeffAt exp, exp⟩

end Decimal

/-- A value of a column `DECIMAL(p, s)`, in units of `10 ^ (-s)`. -/
structure Numeric (p s : ℕ) : Type where
  units : ℤ
  inRange : units.natAbs < 10 ^ p
  deriving DecidableEq

namespace Numeric

variable {p s : ℕ}

/-- The value read from a column: it has `s` decimal places. -/
def toDecimal (x : Numeric p s) : Decimal := ⟨x.units, -(s : ℤ)⟩

/-- The number of units that a decimal is rounded to. -/
def roundUnits (s : ℕ) (d : Decimal) : ℤ :=
  if 0 ≤ d.exp + s then d.coeff * 10 ^ (d.exp + s).toNat
  else withSign d.coeff (dropHalfUp d.coeff.natAbs (-(d.exp + s)).toNat)

/-- Store a decimal; `none` is out of range. -/
def ofDecimal (p s : ℕ) (d : Decimal) : Option (Numeric p s) :=
  if h : (roundUnits s d).natAbs < 10 ^ p then some ⟨roundUnits s d, h⟩ else none

end Numeric

end DecimalArith
