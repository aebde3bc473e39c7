/-
  TestScaffold/Toml/Printer.lean
  ==============================
  TOML documents written out: values before tables, every item of an array on
  a line of its own.
-/
import TestScaffold.Datum
import TestScaffold.Text.Hex
import TestScaffold.Text.Words
import TestScaffold.Toml.Document

namespace TestScaffold.Toml

open TestScaffold.Text

/-- One character inside double quotes. -/
def escapedChar (c : Char) : List Char :=
  if c = '"' then ['\\', '"']
  else if c = '\\' then ['\\', '\\']
  else if c = '\n' then ['\\', 'n']
  else if c = '\r' then ['\\', 'r']
  else if c = '\t' then ['\\', 't']
  else if isControl c then '\\' :: 'u' :: hexDigits 4 c.toNat
  else [c]

/-- A text in double quotes. -/
def quotedText (s : String) : String :=
  "\"" ++ String.ofList (s.toList.flatMap escapedChar) ++ "\""

/-- A key, in quotes if it has to be. -/
def keyText (k : String) : String :=
  if k ≠ "" ∧ k.toList.all isKeyChar then k else quotedText k

/-- The spaces in front of an item at some depth. -/
def margin (depth : Nat) : String := String.ofList (List.replicate (4 * depth) ' ')

mutual

/-- A value, inside so many arrays. Nulls and bytes have no form and become empty texts. -/
def valueText (depth : Nat) : Datum → String
  | .null => quotedText ""
  | .bool b => if b then "true" else "false"
  | .int n => toString n
  | .float x => x.text
  | .str s => quotedText s
  | .instant s => s
  | .binary _ => quotedText ""
  | .list [] => "[]"
  | .list (d :: ds) => "[\n" ++ itemTexts (depth + 1) (d :: ds) ++ margin depth ++ "]"
  | .dict es => "\x7b" ++ pairTexts depth es ++ "\x7d"

/-- The items of an array, each with its line. -/
def itemTexts (depth : Nat) : List Datum → String
  | [] => ""
  | d :: ds => margin depth ++ valueText depth d ++ ",\n" ++ itemTexts depth ds

/-- The entries of a table on one line. -/
def pairTexts (depth : Nat) : List (String × Datum) → String
  | [] => ""
  | [(k, d)] => " " ++ keyText k ++ " = " ++ valueText depth d ++ " "
  | (k, d) :: e :: es =>
    " " ++ keyText k ++ " = " ++ valueText depth d ++ "," ++ pairTexts depth (e :: es)

end

/-- Whether a value gets a header of its own. -/
def isTable : Datum → Bool
  | .dict _ => true
  | _ => false

mutual

/-- The sections of a datum that is a table under a header. -/
def tableSections (header : List String) : Datum → List String
  | .dict es =>
    let lines := es.filterMap fun (k, d) =>
      if isTable d then none else some (keyText k ++ " = " ++ valueText 0 d ++ "\n")
    let title := if header.isEmpty then [] else ["[" ++ joinWith "." header ++ "]\n"]
    let own := String.join (title ++ lines)
    (if own = "" then [] else [own]) ++ entrySections header es
  | _ => []

/-- The sections of the tables among some entries. -/
def entrySections (header : List String) : List (String × Datum) → List String
  | [] => []
  | (k, d) :: es => tableSections (header ++ [keyText k]) d ++ entrySections header es

end

/-- A document. -/
def render (es : Entries) : String := joinWith "\n" (tableSections [] (.dict es))

end TestScaffold.Toml
