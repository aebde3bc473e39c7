/-
  TestScaffold/Datum.lean
  =======================
  Untyped data: what a settings file, an environment variable or a caller
  hands over before it is checked against a schema.

  A mapping keeps its entries in the order of first insertion; a repeated key
  keeps its place and takes the last value.
-/
import TestScaffold.Number.Binary64

namespace TestScaffold

/-- A value of a data file. `instant` is a date or time, which no setting accepts; its text is
kept as written. -/
inductive Datum where
  | null
  | bool (value : Bool)
  | int (value : Int)
  | float (value : Binary64)
  | str (value : String)
  | instant (text : String)
  | binary (bytes : List UInt8)
  | list (items : List Datum)
  | dict (entries : List (String × Datum))
deriving Inhabited

/-- The entries of a mapping. -/
abbrev Entries := List (String × Datum)

namespace Datum

/-- The entry of a key. -/
def lookup? (key : String) : Entries → Option Datum
  | [] => none
  | (k, v) :: rest => if k = key then some v else lookup? key rest

/-- Entries with one key set: in place if it is there, else at the end. -/
def insert (key : String) (value : Datum) : Entries → Entries
  | [] => [(key, value)]
  | (k, v) :: rest =>
    if k = key then (key, value) :: rest else (k, v) :: insert key value rest

end Datum

end TestScaffold
