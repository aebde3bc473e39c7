/-
  TestScaffold/Datum/Plain.lean
  =============================
  What a text without any notation means: a word for a boolean, a number, a
  list of items between commas, or itself.

  The first reading that fits wins, in this order.  A text with a point is
  tried as a decimal only, a text without one as an integer only.
-/
import TestScaffold.Datum
import TestScaffold.Number.Numeral
import TestScaffold.Text.Words

namespace TestScaffold.Datum

open TestScaffold.Text

/-- The boolean that a word stands for, in letters of any case. -/
def switchOf? (s : String) : Option Bool :=
  let word := lower s
  if word ∈ ["true", "yes", "on"] then some true
  else if word ∈ ["false", "no", "off"] then some false
  else none

/-- The number that a text writes. -/
def numberOf? (s : String) : Option Datum :=
  if hasChar '.' s then (Numeral.decimal? s).map .float else (Numeral.integer? s).map .int

/-- The trimmed items between commas. -/
def itemsOf (s : String) : List String := (splitOn ',' s).map trim

/-- The meaning of a plain text. -/
def ofPlain (s : String) : Datum :=
  match switchOf? s with
  | some b => bool b
  | none =>
    match numberOf? s with
    | some d => d
    | none => if hasChar ',' s then list ((itemsOf s).map str) else str s

end TestScaffold.Datum
