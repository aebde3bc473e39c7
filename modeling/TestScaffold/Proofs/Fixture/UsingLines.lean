/-
  TestScaffold/Proofs/Fixture/UsingLines.lean
  ===========================================
  **Directives survive their lines, however these are spaced.**

  A directive is written on one line and its parts are cut from that line again by
  fixed words and signs: the words before it by their lengths, the alias at the
  first equals sign, the semicolons at the end.  Whether this gives back the parts
  is a question of the texts in the directive alone (`Source.Using.Separable`),
  and no matter of the blanks in the line: any of them may be any run of blanks
  (`Text.respace`), since only words are read.
-/
import TestScaffold.Proofs.Fixture.UsingText
import TestScaffold.Proofs.Text.Words

namespace TestScaffold

open TestScaffold.Text

open CSharp

/-! ### Other blanks -/

namespace Text

/-- A run of blanks that separates words. -/
structure BlankRun where
  chars : List Char
  nonempty : chars ≠ []
  isBlank : ∀ c ∈ chars, isBlank c = true

/-- The characters with a run of blanks for every blank, in order. -/
def respace (runs : Nat → BlankRun) : List Char → List Char
  | [] => []
  | c :: cs =>
    if isBlank c then (runs 0).chars ++ respace (fun i => runs (i + 1)) cs
    else c :: respace runs cs

/-- Other blanks leave the words. -/
theorem sameWords_respace (runs : Nat → BlankRun) (cs : List Char) :
    SameWords (respace runs cs) cs := by
  induction cs generalizing runs with
  | nil => exact fun _ => rfl
  | cons c cs ih =>
    unfold respace
    split
    · rename_i hblank
      have hone : ∀ d ∈ [c], isBlank d = true := by
        intro d hd
        rwa [List.mem_singleton.mp hd]
      rw [← List.singleton_append (l := cs)]
      apply SameWords.runs (runs 0).isBlank (runs 0).nonempty hone (List.cons_ne_nil _ _)
      exact ih _
    · exact (ih runs).cons c

end Text

theorem CSharp.usingOfText?_respace (runs : Nat → BlankRun) (line : String) :
    usingOfText? (String.ofList (respace runs line.toList)) = usingOfText? line := by
  have hsqueeze : squeeze (String.ofList (respace runs line.toList)) = squeeze line := by
    rw [squeeze, squeeze, String.toList_ofList, wordsOfChars, wordsOfChars]
    rw [sameWords_respace runs line.toList []]
  rw [usingOfText?_eq, hsqueeze, ← usingOfText?_eq]

/-! ### Parts that can be told apart -/

namespace Source.Using

/-- The parts of a directive can be told apart on its line. Its texts have single spaces between
words, and no other blanks; its name does not end with a semicolon; an equals sign stands in a name
only behind an alias, and in no alias; and what is not static does not begin with the word of what
is. -/
structure Separable (u : Using) : Prop where
  name : Neat u.name.text.toList
  last : u.name.text.toList.getLast? ≠ some ';'
  aliasName : ∀ a ∈ u.alias?, a ≠ "" ∧ Neat a.toList ∧ '=' ∉ a.toList
  noAlias : u.alias? = none → '=' ∉ u.name.text.toList
  first : u.isStatic = false → (wordsOfChars u.lead).head? ≠ some "static".toList

namespace Separable

variable {u : Using}

theorem not_static_prefix (h : u.Separable) (hstatic : u.isStatic = false) :
    ¬ "static".toList ++ [' '] <+: u.lead := by
  rintro ⟨rest, hrest⟩
  apply h.first hstatic
  have hword : ∀ c ∈ "static".toList, isBlank c = false := not_isBlank_of_all (by decide)
  rw [← hrest, List.append_assoc, List.singleton_append,
    wordsOfChars_append_space (by decide) hword]
  rfl

theorem ne_static (h : u.Separable) (hstatic : u.isStatic = false) :
    ∀ a ∈ u.alias?, a ≠ "static" := by
  intro a ha heq
  apply h.first hstatic
  have hlead : u.lead = "static".toList := by rw [lead, Option.mem_def.mp ha, heq]
  rw [hlead]
  decide

theorem tidy (h : u.Separable) : u.Tidy where
  name := h.name
  aliasName a ha := (h.aliasName a ha).2
  noAlias := h.noAlias
  noStatic := h.not_static_prefix

end Separable

/-- **A directive survives its line**: with any blanks between its words, the line of a directive
whose parts can be told apart states that directive. -/
theorem usingOfText?_of_separable {u : Using} (h : u.Separable) (runs : Nat → BlankRun) :
    usingOfText? (String.ofList (respace runs (Layout.usingLine u).toList)) = some u := by
  rw [usingOfText?_respace]
  apply h.tidy.usingOfText?_line
  · exact fun a ha => (h.aliasName a ha).1
  · exact h.ne_static
  · exact h.last

/-- An alias of a tuple, for all files. -/
def spanAlias : Using where
  name := ⟨"(int from, int to)", by decide⟩
  alias? := some "Span"
  isGlobal := true

/-- A tab, a line break and a space that keeps the words together, and these again and again. -/
def mixedRuns (i : Nat) : BlankRun :=
  if i % 3 = 0 then ⟨['\t'], by decide, List.all_eq_true.mp (by decide)⟩
  else if i % 3 = 1 then ⟨['\n', ' '], by decide, List.all_eq_true.mp (by decide)⟩
  else ⟨['\u00a0'], by decide, List.all_eq_true.mp (by decide)⟩

theorem separable_spanAlias : spanAlias.Separable where
  name := neat_iff_squeeze.mpr (by decide +kernel)
  last := by decide
  aliasName a ha := by
    cases ha
    exact ⟨by decide, neat_iff_squeeze.mpr (by decide +kernel), by decide⟩
  noAlias h := by cases h
  first _ := by decide +kernel

theorem usingOfText?_spanAlias :
    spanAlias.Separable ∧
      usingOfText? "global\tusing\n Span\u00a0=\t(int\n from,\u00a0int\tto);" = some spanAlias := by
  have h := usingOfText?_of_separable separable_spanAlias mixedRuns
  have htext : String.ofList (respace mixedRuns (Layout.usingLine spanAlias).toList) =
      "global\tusing\n Span\u00a0=\t(int\n from,\u00a0int\tto);" := by decide +kernel
  rw [htext] at h
  exact ⟨separable_spanAlias, h⟩

end Source.Using

end TestScaffold
