import Mathlib.Data.Int.Notation

/-!
# Exceptions, instants and collations

The domain exceptions of `app/core/exceptions.py`, with their messages, and the
exceptions of the database driver that the services let through. Instants are
naive UTC datetimes, counted at the resolution that the `DateTime` columns keep.

The comparison of strings inside SQL is a parameter wherever a query makes one: a
collation maps a string to its sort key, and two strings are equal for the database
when their keys are.
-/

namespace ParcelDelivery

/-- A naive UTC `datetime`. -/
abbrev Time := ℤ

/-- What a service call can raise. -/
inductive Exn : Type where
  /-- business-rule violation, HTTP 400 -/
  | businessError (message : String)
  /-- missing record, HTTP 404 -/
  | notFoundError (message : String)
  /-- missing or invalid credentials, HTTP 401 -/
  | unauthorizedError (message : String)
  /-- access denied, HTTP 403 -/
  | forbiddenError (message : String)
  /-- a uniqueness or foreign-key constraint refused a write -/
  | integrityError
  /-- a column or `CHECK` constraint refused a value -/
  | dataError
  /-- `session.refresh` found no row -/
  | invalidRequestError
  /-- `ValueError` of a library call -/
  | valueError
  /-- the rate service failed after all its attempts -/
  | httpError
  deriving DecidableEq, Repr

/-- `a = b` inside SQL, under a collation. -/
def sqlEq (collate : String → String) (a b : String) : Bool := collate a == collate b

/-- A collation that ignores the case of letters. -/
def foldCase (s : String) : String := String.ofList (s.toList.map Char.toLower)

end ParcelDelivery
