/-
  TestScaffold/Datum/Display.lean
  ===============================
  Data in messages: texts quoted, the rest in plain notation.
-/
import TestScaffold.Datum
import TestScaffold.Text.Quoted

namespace TestScaffold.Datum

open TestScaffold.Text

mutual

/-- A datum inside another one. -/
def shown : Datum → String
  | null => "None"
  | bool b => if b then "True" else "False"
  | int n => toString n
  | float x => x.text
  | str s => quoted s
  | instant s => s
  | binary bytes => "b" ++ quoted (String.ofList (bytes.map fun b => Char.ofNat b.toNat))
  | list items => "[" ++ shownAll items ++ "]"
  | dict entries => "\x7b" ++ shownEntries entries ++ "\x7d"

/-- Data with commas between them. -/
def shownAll : List Datum → String
  | [] => ""
  | [d] => shown d
  | d :: e :: rest => shown d ++ ", " ++ shownAll (e :: rest)

/-- Entries with commas between them. -/
def shownEntries : List (String × Datum) → String
  | [] => ""
  | [(k, d)] => quoted k ++ ": " ++ shown d
  | (k, d) :: e :: rest => quoted k ++ ": " ++ shown d ++ ", " ++ shownEntries (e :: rest)

end

/-- A datum on its own: a text stands as it is. -/
def display : Datum → String
  | str s => s
  | d => shown d

end TestScaffold.Datum
