/-
  TestScaffold/Proofs/Command/Tables.lean
  =======================================
  **A table shows its rows in order, and one line each where they fit.**

  The lines of a table are those of its rows, one after the other
  (`Table.lines_eq_ok_iff`).  A line that fits is not broken, and no column gives
  way while the console is wide enough for both, so a row of cells that fit is one
  line (`lines_of_fits`).
-/
import Mathlib.Algebra.GroupWithZero.Nat
import Mathlib.Data.List.TakeWhile
import TestScaffold.Proofs.Command.Verbatim
import TestScaffold.Proofs.Fixture.Parts
import TestScaffold.Proofs.Text.Pieces

namespace TestScaffold.Command.Screen

open TestScaffold.Text
open TestScaffold.Command.Markup (MarkupError)

/-! ### Lines that fit -/

theorem flatten_wordsFrom (word : List Char) (isOver : Bool) (cs : List Char) :
    (wordsWithBlanks.wordsFrom word isOver cs).flatten = word.reverse ++ cs := by
  induction cs generalizing word isOver with
  | nil => cases word <;> simp [wordsWithBlanks.wordsFrom]
  | cons c rest ih =>
    simp only [wordsWithBlanks.wordsFrom]
    split <;> simp [ih]

/-- The words of a line are the line again, unless it has nothing but blanks. -/
theorem flatten_wordsWithBlanks {line : List Char} (h : ∃ c ∈ line, isBlank c = false) :
    (wordsWithBlanks line).flatten = line := by
  have hwords := flatten_wordsFrom [] false (line.dropWhile isBlank)
  unfold wordsWithBlanks
  cases hsplit : wordsWithBlanks.wordsFrom [] false (line.dropWhile isBlank) with
  | nil =>
    obtain ⟨c, hc, hblank⟩ := h
    rw [hsplit] at hwords
    have hnone := List.dropWhile_eq_nil_iff.mp hwords.symm c hc
    exact absurd hnone (by simp [hblank])
  | cons word rest =>
    rw [hsplit] at hwords
    simp only [List.flatten_cons, List.reverse_nil, List.nil_append] at hwords
    simp only [List.flatten_cons, List.append_assoc, hwords]
    exact List.takeWhile_append_dropWhile

theorem length_trimEnd_le (cs : List Char) : (trimEnd cs).length ≤ cs.length := by
  have hsuffix := (List.dropWhile_suffix isBlank (l := cs.reverse)).length_le
  simpa [trimEnd] using hsuffix

/-- Words that fit on the line being filled are put there. -/
theorem foldl_add_of_fits {size : Nat} {folds : Bool} {words : List (List Char)} :
    ∀ {line : List Char}, line.length + words.flatten.length ≤ size →
      words.foldl (Filling.add size folds) { line } = { line := line ++ words.flatten } := by
  induction words with
  | nil => simp
  | cons word rest ih =>
    intro line h
    simp only [List.flatten_cons, List.length_append] at h
    have hword := length_trimEnd_le word
    have hfits : line.length + (trimEnd word).length ≤ size := by omega
    have hadd : Filling.add size folds { line } word = { line := line ++ word } := by
      simp only [Filling.add, if_pos hfits]
    rw [List.foldl_cons, hadd, ih (by rw [List.length_append]; omega), List.append_assoc,
      List.flatten_cons]

/-- A line that fits is not broken. -/
theorem breakLine_of_fits {size : Nat} (folds : Bool) {line : List Char}
    (hshows : ∃ c ∈ line, isBlank c = false) (h : line.length ≤ size) :
    breakLine size folds line = [line] := by
  have hwords := flatten_wordsWithBlanks hshows
  have hfilled : (wordsWithBlanks line).foldl (Filling.add size folds) {} = { line } := by
    have hfits := @foldl_add_of_fits size folds (wordsWithBlanks line) []
    rw [hwords] at hfits
    simpa using hfits (by simpa using h)
  simp [breakLine, hfilled, fit, Nat.not_lt.mpr h]

theorem linesOf_of_fits {size : Nat} (folds : Bool) {text : List Char} (hbreak : '\n' ∉ text)
    (hshows : ∃ c ∈ text, isBlank c = false) (h : text.length ≤ size) :
    linesOf size folds text = [text] := by
  rw [linesOf, splitChars_of_not_mem hbreak, List.flatMap_singleton,
    breakLine_of_fits folds hshows h]

example : linesOf 12 false "to be or not".toList = ["to be or not".toList] ∧
    linesOf 8 false "to be or not".toList = ["to be or".toList, "not".toList] := by
  decide +kernel

/-! ### Columns -/

theorem foldl_max_le_iff {ns : List Nat} {bound : Nat} :
    ∀ {m : Nat}, ns.foldl max m ≤ bound ↔ m ≤ bound ∧ ∀ n ∈ ns, n ≤ bound := by
  induction ns with
  | nil => simp
  | cons n rest ih =>
    intro m
    rw [List.foldl_cons, ih, Nat.max_le, List.forall_mem_cons, and_assoc]

/-- The width that cells of one line need: it holds each of them, and no more than the widest. -/
theorem needed_of_lines {cells : List (List Char)} (hbreak : ∀ cell ∈ cells, '\n' ∉ cell)
    {bound : Nat} (hmargin : columnMargin ≤ bound) (hbound : bound ≤ width)
    (h : ∀ cell ∈ cells, cell.length + columnMargin ≤ bound) :
    needed cells ≤ bound ∧ ∀ cell ∈ cells, cell.length + columnMargin ≤ needed cells := by
  have hlines : cells.flatMap (fun cell => splitChars '\n' cell) = cells := by
    have hsingle : ∀ cell ∈ cells, splitChars '\n' cell = [cell] := fun cell hcell =>
      splitChars_of_not_mem (hbreak cell hcell)
    rw [List.flatMap_congr hsingle]
    simp
  have hmax : (cells.map List.length).foldl max 0 ≤ bound - columnMargin := by
    rw [foldl_max_le_iff]
    refine ⟨Nat.zero_le _, fun n hn => ?_⟩
    obtain ⟨cell, hcell, rfl⟩ := List.mem_map.mp hn
    have hcell' := h cell hcell
    omega
  have hneeded : needed cells = (cells.map List.length).foldl max 0 + columnMargin := by
    rw [needed, hlines]
    exact Nat.min_eq_right (by omega)
  rw [hneeded]
  refine ⟨by omega, fun cell hcell => Nat.add_le_add_right ?_ _⟩
  exact (foldl_max_le_iff.mp (Nat.le_refl _)).2 _ (List.mem_map_of_mem hcell)

/-- Columns that fit side by side keep their widths. -/
theorem share_of_fits (isFirstFixed : Bool) {m n : Nat} (h : m + n ≤ width) :
    share isFirstFixed m n = (m, n) := by
  have hexcess : m + n - width = 0 := Nat.sub_eq_zero_of_le h
  simp [share, hexcess]

/-- A row whose cells fit is one line. -/
theorem rowLines_of_fits {sizes : Nat × Nat} {row : List Char × List Char}
    (hbreak : '\n' ∉ row.1 ∧ '\n' ∉ row.2)
    (hshows : (∃ c ∈ row.1, isBlank c = false) ∧ ∃ c ∈ row.2, isBlank c = false)
    (hfits : row.1.length + columnMargin ≤ sizes.1 ∧ row.2.length + columnMargin ≤ sizes.2) :
    rowLines sizes row = [String.ofList row.1 ++ " " ++ String.ofList row.2] := by
  have hleft : linesOf (sizes.1 - columnMargin) false row.1 = [row.1] :=
    linesOf_of_fits false hbreak.1 hshows.1 (by omega)
  have hright : linesOf (sizes.2 - columnMargin) false row.2 = [row.2] :=
    linesOf_of_fits false hbreak.2 hshows.2 (by omega)
  simp only [rowLines, hleft, hright]
  rfl

/-! ### Tables -/

/-- The lines of rows in columns that are as wide as the cells need. -/
def linesOfRows (isFirstFixed : Bool) (rows : List (List Char × List Char)) : List String :=
  rows.flatMap
    (rowLines (share isFirstFixed (needed (rows.map (·.1))) (needed (rows.map (·.2)))))

/-- **The lines of a table are those of its rows, in order**, below its title. -/
theorem Table.lines_eq_ok_iff {t : Table} {lines : List String} :
    t.lines = .ok lines ↔ ∃ rows,
      List.Forall₂ (fun row cells => shownRow row = .ok cells) (t.heads :: t.rows) rows ∧
        lines = t.title?.toList ++ linesOfRows t.isFirstFixed rows := by
  unfold Table.lines
  constructor
  · intro h
    cases hrows : (t.heads :: t.rows).mapM shownRow with
    | error e =>
      rw [hrows] at h
      cases h
    | ok rows =>
      rw [hrows] at h
      cases h
      exact ⟨rows, forall₂_of_mapM_eq_ok hrows, rfl⟩
  · rintro ⟨rows, hrows, rfl⟩
    rw [mapM_eq_of_forall₂ hrows]
    rfl

/-- The most columns that a text takes: characters of some scripts take two. -/
def columns (cs : List Char) : Nat := (cs.map fun c => if c.toNat < 128 then 1 else 2).sum

theorem length_le_columns (cs : List Char) : cs.length ≤ columns cs := by
  induction cs with
  | nil => exact Nat.le_refl _
  | cons c rest ih =>
    simp only [columns, List.map_cons, List.sum_cons, List.length_cons] at ih ⊢
    split <;> omega

/-- Rows that fit on the console side by side. -/
def Fits (rows : List (List Char × List Char)) : Prop :=
  ∃ m n, m + n ≤ width ∧
    ∀ row ∈ rows, columns row.1 + columnMargin ≤ m ∧ columns row.2 + columnMargin ≤ n

/-- **Rows that fit are one line each**, with a blank between the cells. -/
theorem lines_of_fits (isFirstFixed : Bool) {rows : List (List Char × List Char)}
    (hbreak : ∀ row ∈ rows, '\n' ∉ row.1 ∧ '\n' ∉ row.2)
    (hshows : ∀ row ∈ rows,
      (∃ c ∈ row.1, isBlank c = false) ∧ ∃ c ∈ row.2, isBlank c = false)
    (hfits : Fits rows) : linesOfRows isFirstFixed rows =
      rows.map fun row => String.ofList row.1 ++ " " ++ String.ofList row.2 := by
  obtain ⟨m, n, hwidth, hcells⟩ := hfits
  unfold linesOfRows
  cases rows with
  | nil => rfl
  | cons first rest =>
    have hlength : ∀ row ∈ first :: rest,
        row.1.length + columnMargin ≤ m ∧ row.2.length + columnMargin ≤ n := by
      intro row hrow
      have hleft := length_le_columns row.1
      have hright := length_le_columns row.2
      have hcell := hcells row hrow
      omega
    have hfirst := hlength first List.mem_cons_self
    obtain ⟨hm, hleft⟩ := @needed_of_lines ((first :: rest).map (·.1))
      (List.forall_mem_map.mpr fun row hrow => (hbreak row hrow).1) m (by omega) (by omega)
      (List.forall_mem_map.mpr fun row hrow => (hlength row hrow).1)
    obtain ⟨hn, hright⟩ := @needed_of_lines ((first :: rest).map (·.2))
      (List.forall_mem_map.mpr fun row hrow => (hbreak row hrow).2) n (by omega) (by omega)
      (List.forall_mem_map.mpr fun row hrow => (hlength row hrow).2)
    have hrows : ∀ row ∈ first :: rest, rowLines (needed ((first :: rest).map (·.1)),
        needed ((first :: rest).map (·.2))) row =
          [String.ofList row.1 ++ " " ++ String.ofList row.2] := fun row hrow =>
      rowLines_of_fits (hbreak row hrow) (hshows row hrow)
        ⟨hleft _ (List.mem_map_of_mem hrow), hright _ (List.mem_map_of_mem hrow)⟩
    rw [share_of_fits isFirstFixed (by omega), List.flatMap_congr hrows]
    exact (List.map_eq_flatMap ..).symm

end TestScaffold.Command.Screen
