/-
  TestScaffold/Datum/FormatError.lean
  ===================================
  Why a text yields no datum.
-/

namespace TestScaffold

/-- A cause that keeps a text of a data format from being read. -/
inductive FormatError where
  /-- The text does not follow the rules of the format. -/
  | malformed
  /-- A value is well written, but there is no such value. -/
  | noSuchValue (reason : String)
  /-- A value does not have the form that its tag asks for. -/
  | unlikeTag
  /-- A number has no digits. -/
  | emptyNumber
  /-- A value has none of the words that its tag knows. -/
  | unknownWord
deriving DecidableEq, Repr

namespace FormatError

/-- An integer of more digits than are read. -/
def longInteger (digits : Nat) : FormatError :=
  .noSuchValue ("Exceeds the limit (4300 digits) for integer string conversion: value has " ++
    toString digits ++ " digits; use sys.set_int_max_str_digits() to increase the limit")

end FormatError

end TestScaffold
