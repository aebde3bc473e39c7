/-
  TestScaffold/Proofs/Fixture/Braces.lean
  =======================================
  **Blocks in braces are balanced, and each line is as far in as its block.**

  Lines are looked at from the first to the last, with a count of the blocks that
  are open.  What is laid out is built from the inside, though: a block is laid out
  as if nothing stood around it and then moved one level in.  So a list of lines is
  first seen to be put together from solid lines and blocks (`Nested`); and such a
  list, moved in by any number of levels, is run through from that number back to
  the same number, with the right margin before every line (`Nested.runs`).
-/
import Mathlib.Data.List.TakeWhile
import TestScaffold.Fixture.Layout

namespace TestScaffold.Layout

open TestScaffold.Text

/-! ### Depths of lines -/

/-- The margin of lines in `depth` blocks: one unit for each. -/
def margin (unit : String) : Nat → String
  | 0 => ""
  | depth + 1 => margin unit depth ++ unit

/-- What margins are made of. -/
def isMarginChar (c : Char) : Bool := c == ' ' || c == '\t'

/-- Whether a line is an opening brace behind a margin. -/
def opens (line : String) : Bool := line.toList.dropWhile isMarginChar == ['\x7b']

/-- Whether a line is a closing brace behind a margin. -/
def closes (line : String) : Bool := line.toList.dropWhile isMarginChar == ['\x7d']

/-- How many blocks are open behind a line, unless it closes one where none is open. -/
def depthBehind (depth : Nat) (line : String) : Option Nat :=
  if opens line then some (depth + 1)
  else if closes line then (if depth = 0 then none else some (depth - 1))
  else some depth

/-- How many blocks are open behind lines, unless more are closed than were open. -/
def depthAfter (lines : List String) : Option Nat := lines.foldlM depthBehind 0

/-- The margin of a line with `depth` open blocks before it. A closing brace stands as far in as
the block that it closes. -/
def marginOf (unit : String) (depth : Nat) (line : String) : String :=
  margin unit (if closes line then depth - 1 else depth)

/-- Lines lead from one number of open blocks to another, each with its margin if it is not
empty. -/
inductive Runs (unit : String) : Nat → List String → Nat → Prop where
  | nil {depth : Nat} : Runs unit depth [] depth
  | cons {depth next last : Nat} {line : String} {rest : List String}
      (margin : line ≠ "" → ∃ body, line = marginOf unit depth line ++ body)
      (step : depthBehind depth line = some next) (run : Runs unit next rest last) :
      Runs unit depth (line :: rest) last

namespace Runs

variable {unit : String} {depth next last : Nat} {lines more : List String}

theorem append (h : Runs unit depth lines next) (h' : Runs unit next more last) :
    Runs unit depth (lines ++ more) last := by
  induction h with
  | nil => exact h'
  | cons hmargin hstep _ ih => exact .cons hmargin hstep (ih h')

theorem foldlM_depthBehind (h : Runs unit depth lines last) :
    lines.foldlM depthBehind depth = some last := by
  induction h with
  | nil => rfl
  | cons _ hstep _ ih => rw [List.foldlM_cons, hstep, Option.bind_eq_bind, Option.bind_some, ih]

/-- Every line has the margin for the blocks that are open before it. -/
theorem margin_of_mem (h : Runs unit depth lines last) {before behind : List String} {line : String}
    (hlines : lines = before ++ line :: behind) (hline : line ≠ "") :
    ∃ d body, before.foldlM depthBehind depth = some d ∧ line = marginOf unit d line ++ body := by
  induction h generalizing before with
  | nil => simp at hlines
  | @cons depth next last first rest hmargin hstep _ ih =>
    cases before with
    | nil =>
      obtain ⟨rfl, -⟩ := List.cons.inj hlines
      obtain ⟨body, hbody⟩ := hmargin hline
      exact ⟨depth, body, rfl, hbody⟩
    | cons b before =>
      obtain ⟨rfl, hrest⟩ := List.cons.inj hlines
      obtain ⟨d, body, hd, hbody⟩ := ih hrest
      refine ⟨d, body, ?_, hbody⟩
      rw [List.foldlM_cons, hstep, Option.bind_eq_bind, Option.bind_some, hd]

end Runs

/-! ### Lines and blocks -/

/-- Whether a text has no line end in it. -/
def isOneLine (s : String) : Bool := s.toList.all fun c => c != '\n' && c != '\r'

@[simp]
theorem isOneLine_append (s t : String) : isOneLine (s ++ t) = (isOneLine s && isOneLine t) := by
  simp [isOneLine]

/-- Whether a character is neither blank nor a brace. -/
def isSolidChar (c : Char) : Bool := !isBlank c && c != '\x7b' && c != '\x7d'

/-- A line that is more than blanks and a brace. -/
def Solid (line : String) : Prop := isOneLine line = true ∧ line.toList.any isSolidChar = true

instance (line : String) : Decidable (Solid line) := inferInstanceAs (Decidable (_ ∧ _))

/-- Lines that are put together from solid lines, empty lines and blocks of such lines. -/
inductive Nested (unit : String) : List String → Prop where
  | nil : Nested unit []
  | empty {rest : List String} : Nested unit rest → Nested unit ("" :: rest)
  | line {line : String} {rest : List String} :
      Solid line → Nested unit rest → Nested unit (line :: rest)
  | block {inner rest : List String} :
      Nested unit inner → Nested unit rest → Nested unit (block unit inner ++ rest)

/-- Lines moved in by some levels. -/
def raised (unit : String) (depth : Nat) (lines : List String) : List String :=
  lines.map fun line => if line = "" then "" else margin unit depth ++ line

theorem Solid.append_left {line lead : String} (h : Solid line) (hlead : isOneLine lead = true) :
    Solid (lead ++ line) := by
  rw [Solid, isOneLine_append, String.toList_append, List.any_append, hlead, h.1, h.2, Bool.or_true]
  exact ⟨rfl, rfl⟩

theorem Solid.append_right {line tail : String} (h : Solid line) (htail : isOneLine tail = true) :
    Solid (line ++ tail) := by
  rw [Solid, isOneLine_append, String.toList_append, List.any_append, htail, h.1, h.2, Bool.true_or]
  exact ⟨rfl, rfl⟩

theorem Solid.exists_char {line : String} (h : Solid line) :
    ∃ c ∈ line.toList, isBlank c = false ∧ c ≠ '\x7b' ∧ c ≠ '\x7d' := by
  obtain ⟨c, hc, hsolid⟩ := List.any_eq_true.mp h.2
  simp only [isSolidChar, Bool.and_eq_true, Bool.not_eq_true', bne_iff_ne] at hsolid
  exact ⟨c, hc, hsolid.1.1, hsolid.1.2, hsolid.2⟩

theorem Solid.not_isBlankText {line : String} (h : Solid line) : isBlankText line = false := by
  obtain ⟨c, hc, hblank, -⟩ := h.exists_char
  rw [isBlankText, List.all_eq_false]
  exact ⟨c, hc, by simp [hblank]⟩

theorem Solid.ne_empty {line : String} (h : Solid line) : line ≠ "" := by
  rintro rfl
  cases h.not_isBlankText

theorem isBlank_of_isMarginChar {c : Char} (h : isMarginChar c = true) : isBlank c = true := by
  rcases Bool.or_eq_true_iff.mp h with h | h
  · rw [beq_iff_eq.mp h]
    decide
  · rw [beq_iff_eq.mp h]
    decide

/-- A solid line is none of a brace. -/
theorem Solid.not_brace {line : String} (h : Solid line) :
    opens line = false ∧ closes line = false := by
  obtain ⟨c, hc, hblank, hopen, hclose⟩ := h.exists_char
  have hmem : c ∈ line.toList.dropWhile isMarginChar := by
    rw [← List.takeWhile_append_dropWhile (p := isMarginChar) (l := line.toList)] at hc
    refine (List.mem_append.mp hc).resolve_left fun hlead => ?_
    have hblank' := isBlank_of_isMarginChar (List.mem_takeWhile_imp hlead)
    rw [hblank] at hblank'
    cases hblank'
  constructor
  · refine beq_eq_false_iff_ne.mpr fun heq => hopen ?_
    rw [heq] at hmem
    exact List.mem_singleton.mp hmem
  · refine beq_eq_false_iff_ne.mpr fun heq => hclose ?_
    rw [heq] at hmem
    exact List.mem_singleton.mp hmem

section Margins

variable {unit : String}

theorem isMarginChar_margin (hunit : ∀ c ∈ unit.toList, isMarginChar c = true) (depth : Nat) :
    ∀ c ∈ (margin unit depth).toList, isMarginChar c = true := by
  induction depth with
  | zero => exact fun c hc => by cases hc
  | succ depth ih =>
    rw [margin, String.toList_append]
    exact List.forall_mem_append.mpr ⟨ih, hunit⟩

theorem isOneLine_of_margin {s : String} (hs : ∀ c ∈ s.toList, isMarginChar c = true) :
    isOneLine s = true := by
  refine List.all_eq_true.mpr fun c hc => ?_
  rcases Bool.or_eq_true_iff.mp (hs c hc) with h | h
  · rw [beq_iff_eq.mp h]
    rfl
  · rw [beq_iff_eq.mp h]
    rfl

theorem dropWhile_margin (hunit : ∀ c ∈ unit.toList, isMarginChar c = true) (depth : Nat)
    (line : String) : (margin unit depth ++ line).toList.dropWhile isMarginChar =
      line.toList.dropWhile isMarginChar := by
  rw [String.toList_append, List.dropWhile_append_of_pos (isMarginChar_margin hunit depth)]

/-- A block that is moved in begins and ends with braces, and its lines are one level further in. -/
theorem raised_block (depth : Nat) (inner : List String) :
    raised unit depth (block unit inner) = (margin unit depth ++ "\x7b") ::
      (raised unit (depth + 1) inner ++ [margin unit depth ++ "\x7d"]) := by
  have hinner : raised unit depth (indented unit inner) = raised unit (depth + 1) inner := by
    rw [raised, indented, List.map_map]
    refine List.map_congr_left fun line _ => ?_
    by_cases hline : line = ""
    · simp [hline]
    · simp [hline, margin, String.append_assoc]
  rw [block, raised, List.map_append, List.map_cons, ← hinner]
  rfl

/-- **Nested lines are run through from any number of open blocks back to it.** -/
theorem Nested.runs (hunit : ∀ c ∈ unit.toList, isMarginChar c = true) {lines : List String}
    (h : Nested unit lines) :
    ∀ depth, Runs unit depth (raised unit depth lines) depth := by
  induction h with
  | nil => exact fun depth => .nil
  | empty _ ih =>
    intro depth
    exact .cons (fun hne => absurd rfl hne) rfl (ih depth)
  | @line line rest hsolid _ ih =>
    intro depth
    have hmargin : isOneLine (margin unit depth) = true :=
      isOneLine_of_margin (isMarginChar_margin hunit depth)
    obtain ⟨hopens, hcloses⟩ := (hsolid.append_left hmargin).not_brace
    rw [raised, List.map_cons, if_neg hsolid.ne_empty]
    refine .cons (fun _ => ⟨line, ?_⟩) ?_ (ih depth)
    · rw [marginOf, hcloses]
      rfl
    · rw [depthBehind, hopens, hcloses]
      rfl
  | @block inner rest _ _ ihInner ihRest =>
    intro depth
    have hopen : opens (margin unit depth ++ "\x7b") = true ∧
        closes (margin unit depth ++ "\x7b") = false := by
      unfold opens closes
      rw [dropWhile_margin hunit]
      decide
    have hclose : opens (margin unit depth ++ "\x7d") = false ∧
        closes (margin unit depth ++ "\x7d") = true := by
      unfold opens closes
      rw [dropWhile_margin hunit]
      decide
    have hsplit : raised unit depth (Layout.block unit inner ++ rest) =
        (margin unit depth ++ "\x7b") :: (raised unit (depth + 1) inner ++
          (margin unit depth ++ "\x7d") :: raised unit depth rest) := by
      rw [raised, List.map_append, ← raised, ← raised, raised_block]
      simp
    rw [hsplit]
    refine .cons (fun _ => ⟨"\x7b", ?_⟩) ?_ ((ihInner (depth + 1)).append
      (.cons (fun _ => ⟨"\x7d", ?_⟩) ?_ (ihRest depth)))
    · rw [marginOf, hopen.2]
      rfl
    · rw [depthBehind, hopen.1]
      rfl
    · rw [marginOf, hclose.2]
      rfl
    · rw [depthBehind, hclose.1, hclose.2]
      rfl

/-- Nested lines have no line ends in them, and are not blank unless they are empty. -/
theorem Nested.line_of_mem (hunit : isOneLine unit = true) {lines : List String}
    (h : Nested unit lines) :
    ∀ line ∈ lines, line = "" ∨ isOneLine line = true ∧ isBlankText line = false := by
  induction h with
  | nil => exact fun line hline => absurd hline List.not_mem_nil
  | empty _ ih => exact List.forall_mem_cons.mpr ⟨.inl rfl, ih⟩
  | line hsolid _ ih =>
    exact List.forall_mem_cons.mpr ⟨.inr ⟨hsolid.1, hsolid.not_isBlankText⟩, ih⟩
  | block _ _ ihInner ihRest =>
    refine List.forall_mem_append.mpr ⟨?_, ihRest⟩
    refine List.forall_mem_append.mpr ⟨List.forall_mem_cons.mpr ⟨.inr (by decide), ?_⟩, ?_⟩
    · intro line hline
      obtain ⟨inner, hinner, rfl⟩ := List.mem_map.mp hline
      rcases ihInner inner hinner with rfl | ⟨hone, hfull⟩
      · exact .inl rfl
      · have hne : inner ≠ "" := by
          rintro rfl
          cases hfull
        rw [if_neg hne]
        refine .inr ⟨by simp [hunit, hone], ?_⟩
        rw [isBlankText, String.toList_append, List.all_append, ← isBlankText, ← isBlankText, hfull,
          Bool.and_false]
    · exact fun line hline => List.mem_singleton.mp hline ▸ .inr (by decide)

end Margins

theorem raised_zero (unit : String) (lines : List String) : raised unit 0 lines = lines := by
  refine (List.map_congr_left fun line _ => ?_).trans (List.map_id _)
  by_cases hline : line = ""
  · simp [hline]
  · simp [hline, margin]

namespace Nested

variable {unit : String} {lines more : List String}

theorem append (h : Nested unit lines) (h' : Nested unit more) : Nested unit (lines ++ more) := by
  induction h with
  | nil => exact h'
  | empty _ ih => exact .empty ih
  | line hsolid _ ih => exact .line hsolid ih
  | block hinner _ _ ih =>
    rw [List.append_assoc]
    exact .block hinner ih

theorem of_solid (h : ∀ line ∈ lines, Solid line) : Nested unit lines := by
  induction lines with
  | nil => exact .nil
  | cons line rest ih =>
    obtain ⟨hline, hrest⟩ := List.forall_mem_cons.mp h
    exact .line hline (ih hrest)

theorem inBraces (h : Nested unit lines) : Nested unit (Layout.block unit lines) := by
  have hblock := Nested.block h .nil
  rwa [List.append_nil] at hblock

/-- Members with empty lines between them. -/
theorem spaced {members : List (List String)} (h : ∀ m ∈ members, Nested unit m) :
    Nested unit (Layout.spaced members) := by
  induction members with
  | nil => exact .nil
  | cons m rest ih =>
    obtain ⟨hm, hrest⟩ := List.forall_mem_cons.mp h
    cases rest with
    | nil => exact hm
    | cons n rest => exact hm.append (.empty (ih hrest))

end Nested

end TestScaffold.Layout
