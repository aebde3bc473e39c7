/-
  TestScaffold/Command/Screen.lean
  ================================
  What the console shows: panels and tables, as lines of text.

  Frames, styles and the blanks that align columns carry no meaning and are
  left out; where a long line breaks does show.  The console is 500 characters
  wide.  A panel breaks between words, and inside words that are longer than
  itself; a table cell breaks between words and cuts longer words off.
-/
import TestScaffold.Command.Markup

namespace TestScaffold.Command.Screen

open TestScaffold.Text
open TestScaffold.Command.Markup (MarkupError)

/-- The width of the console. -/
def width : Nat := 500

/-- What a panel takes for its frame and its margins. -/
def panelMargin : Nat := 4

/-- What a table column takes for its margins. -/
def columnMargin : Nat := 2

/-- Whether a character moves the cursor instead of showing. -/
def isControl (c : Char) : Bool := [7, 8, 11, 12, 13].contains c.toNat

/-- The text that markup shows on the console. -/
def shown (markup : String) : Except MarkupError (List Char) :=
  (Markup.render markup).map fun s => s.toList.filter fun c => !isControl c

/-! ### Breaking lines -/

/-- The words of a line, each with the blanks behind it; the first one also has those in front. -/
def wordsWithBlanks (line : List Char) : List (List Char) :=
  match line.takeWhile isBlank, wordsFrom [] false (line.dropWhile isBlank) with
  | blanks, word :: rest => (blanks ++ word) :: rest
  | _, [] => []
where
  /-- The words from within one, whose characters so far stand in reverse. -/
  wordsFrom (word : List Char) (isOver : Bool) : List Char → List (List Char)
    | [] => if word.isEmpty then [] else [word.reverse]
    | c :: rest =>
      if isOver && !isBlank c then word.reverse :: wordsFrom [c] false rest
      else wordsFrom (c :: word) (isBlank c) rest

/-- The characters without the blanks at the end. -/
def trimEnd (cs : List Char) : List Char := (cs.reverse.dropWhile isBlank).reverse

/-- The pieces of a text, all but the last of the full size. -/
def chop (size : Nat) (cs : List Char) : List (List Char) :=
  if _h : size = 0 ∨ cs.length ≤ size then [cs]
  else cs.take size :: chop size (cs.drop size)
termination_by cs.length
decreasing_by
  simp only [List.length_drop]
  omega

/-- A text of several lines: the line being filled, and the full ones in front, last first. -/
structure Filling where
  full : List (List Char) := []
  line : List Char := []

/-- Adds a word to a text that is being broken. -/
def Filling.add (size : Nat) (folds : Bool) (f : Filling) (word : List Char) : Filling :=
  let length := (trimEnd word).length
  let next : Filling := if f.line.isEmpty then f else { full := f.line :: f.full, line := [] }
  if f.line.length + length ≤ size then { f with line := f.line ++ word }
  else if size < length ∧ folds then
    (chop size word).foldl (fun f piece =>
      if f.line.isEmpty then { f with line := piece }
      else { full := f.line :: f.full, line := piece }) next
  else { next with line := word }

/-- A line without the blanks that run over its end, and cut off if it still is too long. -/
def fit (size : Nat) (folds : Bool) (line : List Char) : List Char :=
  let line := if size < line.length then trimEnd line else line
  if size < line.length then
    if folds then line.take size else line.take (size - 1) ++ ['…']
  else line

/-- The lines that one line breaks into. -/
def breakLine (size : Nat) (folds : Bool) (line : List Char) : List (List Char) :=
  let f := (wordsWithBlanks line).foldl (Filling.add size folds) {}
  (f.line :: f.full).reverse.map (fit size folds)

/-- The lines of a text. -/
def linesOf (size : Nat) (folds : Bool) (text : List Char) : List (List Char) :=
  (splitChars '\n' text).flatMap (breakLine size folds)

/-! ### Panels and tables -/

/-- A panel: its title over its text. -/
def panel (title markup : String) : Except MarkupError (List String) :=
  match shown markup with
  | .error e => .error e
  | .ok text =>
    .ok (lower title :: (linesOf (width - panelMargin) true text).map String.ofList)

/-- A table of two columns; `isFirstFixed` keeps the first one from being made smaller. -/
structure Table where
  title? : Option String := none
  isFirstFixed : Bool := false
  heads : String × String
  rows : List (String × String)

/-- The width that cells need. -/
def needed (cells : List (List Char)) : Nat :=
  let lines := cells.flatMap fun c => splitChars '\n' c
  min width ((lines.map List.length).foldl max 0 + columnMargin)

/-- Half of a number, to the even neighbour. -/
def halfEven (n : Nat) : Nat := if n % 4 = 3 then n / 2 + 1 else n / 2

/-- The widths of two columns on the console. The wider column gives way first, then both by
halves. -/
def share (isFirstFixed : Bool) (m n : Nat) : Nat × Nat :=
  let excess := m + n - width
  if excess = 0 then (m, n)
  else if isFirstFixed then (m, n - excess)
  else
    let (m', n') := if n ≤ m then (m - min excess (m - n), n) else (m, n - min excess (n - m))
    let half := halfEven (m' + n' - width)
    (m' - half, min n' (width - (m' - half)))

/-- The lines of a row: the lines of its cells side by side. -/
def rowLines (sizes : Nat × Nat) (row : List Char × List Char) : List String :=
  let lines (size : Nat) (cell : List Char) := linesOf (size - columnMargin) false cell
  let left := lines sizes.1 row.1
  let right := lines sizes.2 row.2
  (List.range (max left.length right.length)).map fun i =>
    joinWith " " (([left[i]?, right[i]?].filterMap id).map String.ofList)

/-- A row as its cells are shown. -/
def shownRow (row : String × String) : Except MarkupError (List Char × List Char) :=
  match shown row.1, shown row.2 with
  | .ok left, .ok right => .ok (left, right)
  | .error e, _ => .error e
  | _, .error e => .error e

/-- The lines of a table. -/
def Table.lines (t : Table) : Except MarkupError (List String) :=
  match (t.heads :: t.rows).mapM shownRow with
  | .error e => .error e
  | .ok rows =>
    let sizes := share t.isFirstFixed (needed (rows.map (·.1))) (needed (rows.map (·.2)))
    .ok (t.title?.toList ++ rows.flatMap (rowLines sizes))

end TestScaffold.Command.Screen
