/-
  TestScaffold/Proofs/Fixture/Rendering.lean
  ==========================================
  **A legible test class is rendered, line by line as the rows of a sheet.**

  A test class is legible if its names are identifiers that no keyword is spelled
  like, and if each directive, field and statement is written as what it is.
-/
import TestScaffold.Fixture.Layout
import TestScaffold.Proofs.CSharp.Heads
import TestScaffold.Proofs.Lists

namespace TestScaffold

open TestScaffold.Text
open TestScaffold.CSharp

/-! ### Legible parts -/

/-- How the tokens of fields and statements are read. -/
def isBodyRole : Terminal → Bool
  | .keyword k => k ∈ typeKeywords ∨ k ∈ [.default_, .new_, .await_, .false_, .private_]
  | .mark m => m ∈ typeMarks ∨ m ∈ [.assign, .semicolon]
  | role => role == .identifier || role == .stringLiteral

/-- How the tokens of members are read. -/
def isMemberRole : Terminal → Bool
  | .keyword k => isBodyRole (.keyword k) || k ∈ [.public_, .async_]
  | .mark m => isBodyRole (.mark m) || m ∈ [.openBrace, .closeBrace]
  | role => isBodyRole role

/-- How the tokens of directives are read. -/
def isUsingRole : Terminal → Bool
  | .keyword k => k ∈ typeKeywords ∨ k ∈ [.using_, .static_, .unsafe_]
  | .mark m => m ∈ typeMarks ∨ m ∈ [.assign, .semicolon]
  | role => role == .identifier

/-- The row that a directive is written as. -/
structure UsingRow (u : Source.Using) (row : List Token) : Prop where
  code : Code .usingDirective (Layout.usingLine u).toList row
  roles : ∀ t ∈ row, isUsingRole t.role = true

/-- The row that a field is written as. -/
structure FieldRow (f : Field) (row : List Token) : Prop where
  code : ∃ line, Layout.fieldLine f = .ok line ∧ Code .fieldDeclaration line.toList row
  steady : Steady row
  roles : ∀ t ∈ row, isBodyRole t.role = true
  ends : ∃ us, row = us ++ [(Token.name f.name.text.toList).spaced, Token.mark .semicolon]

/-- The row that a statement is written as. -/
structure StmtRow (s : Stmt) (row : List Token) : Prop where
  code : ∃ line, Layout.stmtText s = .ok line ∧ Code .statement line.toList row
  statement : StatementRow row
  roles : ∀ t ∈ row, isBodyRole t.role = true

/-- A name that passes the check of its declaration and is read as a name everywhere. -/
structure Name.Legible (n : Name) : Prop where
  identifier : Layout.isIdentifier n.text.toList = true
  name : IsName n.text.toList

/-- A namespace of identifiers that may stand behind points. -/
structure Name.LegibleNamespace (n : Name) : Prop where
  identifiers : ∀ p ∈ splitChars '.' n.text.toList,
    Layout.isIdentifier p = true ∧ isPlainWord p = true
  noKeyword : ∀ p ∈ splitChars '.' n.text.toList,
    Keyword.ofChars? p ≠ some .this_ ∧ Keyword.ofChars? p ≠ some .operator_

/-- A test method whose name and statements are legible. -/
structure Test.Legible (t : Test) : Prop where
  name : t.name.Legible
  attributeText : t.attributeText = "Fact"
  body : ∀ s ∈ t.body, ∃ row, StmtRow s row

/-- A test class all parts of which are legible. -/
structure Fixture.Legible (x : Fixture) : Prop where
  className : x.className.Legible
  namespaceName : x.namespaceName.LegibleNamespace
  setupName : x.setup.name = x.className
  usings : ∀ u ∈ x.usings, ∃ row, UsingRow u row
  fields : ∀ f ∈ x.fields, ∃ row, FieldRow f row
  setup : ∀ s ∈ x.setup.body, ∃ row, StmtRow s row
  tests : ∀ t ∈ x.tests, t.Legible

/-! ### Lists of lines -/

/-- A directive begins with its first word. -/
theorem UsingRow.role_head {u : Source.Using} {row : List Token} (h : UsingRow u row) :
    ∀ t ∈ row.head?, t.role ≠ .identifier := by
  intro t ht hrole
  cases row with
  | nil => cases ht
  | cons t row =>
    cases ht
    have hmem := h.code.phrase.role_mem [.keyword .using_, .keyword .global_] (by decide)
    rw [hrole] at hmem
    exact absurd hmem (by decide)

theorem UsingRow.steady {u : Source.Using} {row : List Token} (h : UsingRow u row) : Steady row :=
  fun t ht _ => Token.named_of_role (h.role_head t ht) _

namespace CSharp

theorem Line.of_spelt {line : String} {row : List Token} (hne : row ≠ [])
    (h : Spelt line.toList row) : Line line row :=
  .row hne (List.nil_append _).symm (fun _ hc => absurd hc List.not_mem_nil) h

theorem Code.line {c : Category} {line : String} {row : List Token} (hc : c ≠ .compilationUnit)
    (h : Code c line.toList row) : Line line row :=
  .of_spelt (h.ne_nil hc) h.spelt

end CSharp

/-- Lines in braces. -/
theorem lines_block {unit : String} (hunit : ∀ c ∈ unit.toList, isPlainBlank c = true)
    {ls : List String} {rows : List (List Token)} (h : List.Forall₂ Line ls rows) :
    List.Forall₂ Line (Layout.block unit ls) (inBraces rows) := by
  have hbrace : ∀ {m : Mark} {s : String}, m ∉ oddMarks → s.toList = m.chars →
      Line s [Token.mark m] := fun hm hs =>
    .of_spelt (List.cons_ne_nil _ _) (hs ▸ Spelt.mark hm)
  refine .cons (hbrace (by decide) (by decide)) ?_
  refine List.rel_append (lines_indented h hunit) (.cons (hbrace (by decide) (by decide)) .nil)

/-- Members with empty lines between them. -/
theorem lines_spaced {lss : List (List String)} {rows : List (List (List Token))}
    (h : List.Forall₂ (List.Forall₂ Line) lss rows) :
    List.Forall₂ Line (Layout.spaced lss) (spacedRows rows) := by
  induction h with
  | nil => exact .nil
  | @cons ls row lss rows hline hlines ih =>
    cases hlines with
    | nil => exact hline
    | cons h' hs => exact List.rel_append hline (.cons .empty ih)

/-! ### The sheet of a test class -/

/-- The directives as they are written: the global ones first. -/
def Fixture.sortedUsings (x : Fixture) : List Source.Using :=
  x.usings.filter (·.isGlobal) ++ x.usings.filter (!·.isGlobal)

/-- The sheet that a test method is written as. -/
structure Test.Written (t : Test) (s : TestSheet) : Prop where
  name : s.name = t.name.text.toList
  isAsync : s.isAsync = t.isAsync
  body : List.Forall₂ StmtRow t.body s.body

/-- The sheet that a test class is written as. -/
structure Fixture.Written (x : Fixture) (s : Sheet) : Prop where
  usings : List.Forall₂ UsingRow x.sortedUsings s.usings
  namespaceName : s.namespaceName = splitChars '.' x.namespaceName.text.toList
  className : s.className = x.className.text.toList
  fields : List.Forall₂ FieldRow x.fields s.fields
  setup : List.Forall₂ StmtRow x.setup.body s.setup
  tests : List.Forall₂ Test.Written x.tests s.tests

theorem Test.Legible.exists_written {t : Test} (h : t.Legible) : ∃ s, t.Written s := by
  obtain ⟨rows, hrows⟩ := exists_forall₂_iff.mpr h.body
  exact ⟨⟨t.name.text.toList, t.isAsync, rows⟩, rfl, rfl, hrows⟩

theorem Fixture.Legible.exists_written {x : Fixture} (h : x.Legible) : ∃ s, x.Written s := by
  have husings : ∀ u ∈ x.sortedUsings, ∃ row, UsingRow u row := by
    intro u hu
    rcases List.mem_append.mp hu with hu | hu
    · exact h.usings u (List.mem_filter.mp hu).1
    · exact h.usings u (List.mem_filter.mp hu).1
  obtain ⟨usings, husings⟩ := exists_forall₂_iff.mpr husings
  obtain ⟨fields, hfields⟩ := exists_forall₂_iff.mpr h.fields
  obtain ⟨setup, hsetup⟩ := exists_forall₂_iff.mpr h.setup
  obtain ⟨tests, htests⟩ := exists_forall₂_iff.mpr fun t ht => (h.tests t ht).exists_written
  exact ⟨⟨usings, splitChars '.' x.namespaceName.text.toList, x.className.text.toList, fields,
    setup, tests⟩, husings, rfl, rfl, hfields, hsetup, htests⟩

namespace Fixture.Written

variable {x : Fixture} {s : Sheet}

theorem good (h : x.Written s) : s.Good where
  usings := forall_of_forall₂ h.usings fun _ _ hu => hu.code.phrase
  namespaceName := h.namespaceName ▸ splitChars_ne_nil _ _
  fields := forall_of_forall₂ h.fields fun _ _ hf => hf.code.elim fun _ hc => hc.2.phrase
  setup := forall_of_forall₂ h.setup fun _ _ hs => hs.code.elim fun _ hc => hc.2.phrase
  tests := forall_of_forall₂ h.tests fun _ _ ht =>
    forall_of_forall₂ ht.body fun _ _ hs => hs.code.elim fun _ hc => hc.2.phrase

theorem fluent (h : x.Written s) : s.Fluent where
  usings := forall_of_forall₂ h.usings fun _ _ hu => hu.steady
  fields := forall_of_forall₂ h.fields fun _ _ hf =>
    ⟨hf.code.elim fun _ hc => hc.2.ne_nil (by decide), hf.steady⟩
  setup := forall_of_forall₂ h.setup fun _ _ hs => hs.statement
  tests := forall_of_forall₂ h.tests fun _ _ ht =>
    forall_of_forall₂ ht.body fun _ _ hs => hs.statement

end Fixture.Written

/-! ### The lines of a sheet -/

section Lines

variable {unit : String}

/-- The lines of statements. -/
theorem lines_statements {body : List Stmt} {rows : List (List Token)}
    (h : List.Forall₂ StmtRow body rows) :
    ∃ ls, body.mapM Layout.stmtText = .ok ls ∧ List.Forall₂ Line ls rows :=
  mapM_of_forall₂ (h.imp fun _ _ hs =>
    hs.code.elim fun line hc => ⟨line, hc.1, hc.2.line (by decide)⟩)

theorem lines_setup (hunit : ∀ c ∈ unit.toList, isPlainBlank c = true) {s : Setup}
    {rows : List (List Token)} (hname : s.name.Legible) (h : List.Forall₂ StmtRow s.body rows) :
    ∃ ls, Layout.setupLines unit s = .ok ls ∧
      List.Forall₂ Line ls (setupRow s.name.text.toList :: inBraces rows) := by
  obtain ⟨ls, hls, hlines⟩ := lines_statements h
  refine ⟨("public " ++ s.name.text ++ "()") :: Layout.block unit ls, ?_, ?_⟩
  · simp only [Layout.setupLines, Layout.checkName, hname.identifier, hls]
    rfl
  · refine .cons (.of_spelt (by simp [setupRow]) ?_) (lines_block hunit hlines)
    simpa using spelt_setupRow hname.name

theorem lines_test (hunit : ∀ c ∈ unit.toList, isPlainBlank c = true) {t : Test} {s : TestSheet}
    (hlegible : t.Legible) (h : t.Written s) :
    ∃ ls, Layout.testLines unit t = .ok ls ∧ List.Forall₂ Line ls s.rows := by
  obtain ⟨ls, hls, hlines⟩ := lines_statements h.body
  have hname : IsName s.name := h.name ▸ hlegible.name.name
  refine ⟨("[" ++ t.attributeText ++ "]") ::
    ((if t.isAsync then "public async Task " else "public void ") ++ t.name.text ++ "()") ::
      Layout.block unit ls, ?_, ?_⟩
  · simp only [Layout.testLines, Layout.checkName, hlegible.name.identifier, hls]
    rfl
  · refine .cons (.of_spelt (by simp [attributeRow]) ?_) (.cons (.of_spelt (by simp [testRow]) ?_)
      (lines_block hunit hlines))
    · rw [hlegible.attributeText]
      exact spelt_attributeRow
    · have hrow := spelt_testRow hname
      rw [h.isAsync, h.name] at hrow
      cases hasync : t.isAsync <;> simpa [hasync] using hrow

theorem lines_tests (hunit : ∀ c ∈ unit.toList, isPlainBlank c = true) {tests : List Test}
    {sheets : List TestSheet} (hlegible : ∀ t ∈ tests, t.Legible)
    (h : List.Forall₂ Test.Written tests sheets) :
    ∃ lss, tests.mapM (Layout.testLines unit) = .ok lss ∧
      List.Forall₂ (List.Forall₂ Line) lss (sheets.map TestSheet.rows) := by
  refine mapM_of_forall₂ (List.forall₂_map_right_iff.mpr ?_)
  induction h with
  | nil => exact .nil
  | cons ht _ ih =>
    exact .cons (lines_test hunit (hlegible _ List.mem_cons_self) ht)
      (ih fun t ht => hlegible t (List.mem_cons_of_mem _ ht))

/-- The lines of the class are those of its rows. -/
theorem lines_class (hunit : ∀ c ∈ unit.toList, isPlainBlank c = true) {x : Fixture} {s : Sheet}
    (hlegible : x.Legible) (h : x.Written s) :
    ∃ ls, Layout.classLines unit x = .ok ls ∧ List.Forall₂ Line ls s.classRows := by
  obtain ⟨fields, hfields, hfieldLines⟩ := mapM_of_forall₂ (R := Line) (h.fields.imp fun _ _ hf =>
    hf.code.elim fun line hc => ⟨line, hc.1, hc.2.line (by decide)⟩)
  obtain ⟨setup, hsetup, hsetupLines⟩ := lines_setup hunit
    (hlegible.setupName ▸ hlegible.className) h.setup
  obtain ⟨tests, htests, htestLines⟩ := lines_tests hunit hlegible.tests h.tests
  have hempty := isEmpty_of_forall₂ hfieldLines
  have hmembers : List.Forall₂ (List.Forall₂ Line)
      ((if fields.isEmpty then [] else [fields]) ++ setup :: tests) s.members := by
    unfold Sheet.members
    rw [← hempty, h.className, ← hlegible.setupName]
    refine List.rel_append ?_ (.cons hsetupLines htestLines)
    split
    · exact .nil
    · exact .cons hfieldLines .nil
  refine ⟨("public class " ++ x.className.text) :: Layout.block unit (Layout.spaced
    ((if fields.isEmpty then [] else [fields]) ++ setup :: tests)), ?_, ?_⟩
  · simp only [Layout.classLines, hfields, hsetup, htests]
    rfl
  · refine .cons (.of_spelt (by simp [classRow]) ?_) (lines_block hunit (lines_spaced hmembers))
    rw [h.className]
    simpa using spelt_classRow hlegible.className.name

/-- A name may stand behind a point unless it is one of two words. -/
theorem CSharp.Token.named_dot {q : List Char} (hplain : isPlainWord q = true)
    (hword : Keyword.ofChars? q ≠ some .this_ ∧ Keyword.ofChars? q ≠ some .operator_) :
    (Token.name q).Named (.mark .dot) := by
  refine Token.named_name hplain fun k hk hcontextual hfollow => ?_
  rcases List.mem_cons.mp (mem_of_mayFollow_dot hfollow) with rfl | hmem
  · exact hword.1 hk
  · rcases List.mem_cons.mp hmem with rfl | hmem
    · exact hword.2 hk
    · exact hcontextual hmem

theorem Name.LegibleNamespace.spelt {n : Name} (h : n.LegibleNamespace) :
    Spelt n.text.toList (dotted (splitChars '.' n.text.toList)) := by
  have hdot : ∀ q ∈ splitChars '.' n.text.toList, (Token.name q).Named (.mark .dot) := fun q hq =>
    Token.named_dot (h.identifiers q hq).2 (h.noKeyword q hq)
  have hjoined := dottedChars_splitChars n.text.toList
  cases hpieces : splitChars '.' n.text.toList with
  | nil => exact absurd hpieces (splitChars_ne_nil _ _)
  | cons p ps =>
    rw [hpieces] at hdot hjoined
    have hplain : ∀ q ∈ p :: ps, isPlainWord q = true := fun q hq =>
      (h.identifiers q (hpieces ▸ hq)).2
    exact hjoined ▸ spelt_dotted hplain fun q hq => hdot q (List.mem_cons_of_mem _ hq)

theorem spelt_namespaceRow {n : Name} (h : n.LegibleNamespace) :
    Spelt ("namespace ".toList ++ n.text.toList) (namespaceRow (splitChars '.' n.text.toList)) := by
  have hspelt := h.spelt
  cases hpieces : splitChars '.' n.text.toList with
  | nil => exact absurd hpieces (splitChars_ne_nil _ _)
  | cons p ps =>
    have hplain : isPlainWord p = true := (h.identifiers p (hpieces ▸ List.mem_cons_self)).2
    rw [hpieces] at hspelt
    have hall := (Spelt.keyword .namespace_).blank (List.cons_ne_nil _ _) hspelt (by simp [dotted])
      fun a ha b hb => by
        cases ha
        cases hb
        exact Token.named_name hplain fun k _ hcontextual hfollow =>
          hcontextual (mem_of_mayFollow_namespace hfollow)
    simpa [namespaceRow, show Keyword.chars .namespace_ = "namespace".toList by decide]
      using hall

/-- **The lines of a test class are those of its sheet.** -/
theorem lines_fixture (hunit : ∀ c ∈ unit.toList, isPlainBlank c = true) {x : Fixture} {s : Sheet}
    (hlegible : x.Legible) (h : x.Written s) :
    ∃ ls, Layout.lines unit x = .ok ls ∧ List.Forall₂ Line ls s.rows := by
  obtain ⟨body, hbody, hlines⟩ := lines_class hunit hlegible h
  have hnamespace : Layout.checkNamespace x.namespaceName.text = .ok () := by
    unfold Layout.checkNamespace
    rw [if_pos]
    exact List.all_eq_true.mpr fun p hp => (hlegible.namespaceName.identifiers p hp).1
  have husings : List.Forall₂ Line (x.sortedUsings.map Layout.usingLine) s.usings :=
    List.forall₂_map_left_iff.mpr (h.usings.imp fun _ _ hu => hu.code.line (by decide))
  have hempty := isEmpty_of_forall₂ husings
  refine ⟨x.sortedUsings.map Layout.usingLine ++
    (if (x.sortedUsings.map Layout.usingLine).isEmpty then [] else [""]) ++
      ("namespace " ++ x.namespaceName.text) :: Layout.block unit body, ?_, ?_⟩
  · simp only [Layout.lines, Layout.checkName, hlegible.className.identifier, hnamespace, hbody]
    rfl
  · unfold Sheet.rows
    rw [← hempty]
    refine List.rel_append (List.rel_append husings ?_) (.cons (.of_spelt ?_ ?_)
      (lines_block hunit hlines))
    · split
      · exact .nil
      · exact .cons .empty .nil
    · simp [namespaceRow]
    · rw [h.namespaceName]
      simpa using spelt_namespaceRow hlegible.namespaceName

end Lines

/-! ### The text of a test class -/

/-- The first token of a sheet is a keyword. -/
theorem Fixture.Written.role_head {x : Fixture} {s : Sheet} (h : x.Written s) :
    ∀ row ∈ (s.rows.filter (!·.isEmpty)).head?, ∀ t ∈ row.head?, t.role ≠ .identifier := by
  intro row hrow
  have hrows : ∀ row ∈ s.usings, row ≠ [] ∧ ∀ t ∈ row.head?, t.role ≠ .identifier :=
    forall_of_forall₂ h.usings fun _ _ hu => ⟨hu.code.ne_nil (by decide), hu.role_head⟩
  unfold Sheet.rows at hrow
  cases husings : s.usings with
  | nil =>
    rw [husings] at hrow
    cases hrow
    intro t ht
    cases ht
    exact fun e => by cases e
  | cons first rest =>
    have hfirst := hrows first (husings ▸ List.mem_cons_self)
    rw [husings, List.cons_append, List.cons_append,
      List.filter_cons_of_pos (by simpa using hfirst.1)] at hrow
    cases hrow
    exact hfirst.2

theorem Newline.isPlainBlank_text (n : Newline) :
    n.text.toList ≠ [] ∧ ∀ c ∈ n.text.toList, isPlainBlank c = true := by
  rw [← List.all_eq_true]
  cases n <;> decide

/-- **A legible test class has a text, and the text has a tree**, which reads the rows of a sheet
that the test class is written as. -/
theorem Fixture.Legible.exists_tree {x : Fixture} (h : x.Legible) (layout : Layout)
    (hindent : ∀ c ∈ layout.indent.toList, isPlainBlank c = true) :
    ∃ s ts us out, x.Written s ∧ Laid s.rows ts ∧ Layout.render layout x = .ok out ∧
      Tree.ofText? out = some (.node .compilationUnit us) ∧
      ∃ rhs ∈ Grammar.rules .compilationUnit, Reads rhs ts us := by
  obtain ⟨s, hs⟩ := h.exists_written
  obtain ⟨ls, hls, hlines⟩ := lines_fixture hindent h hs
  obtain ⟨hne, hblank⟩ := layout.newline.isPlainBlank_text
  obtain ⟨ts, trail, htext, htrail, hlaid, hplain, hchain, hhead⟩ :=
    spelt_lines hne hblank hlines hs.fluent.chained
      (w := []) fun c hc => absurd hc List.not_mem_nil
  have hfirst : ∀ t ∈ ts.head?, t.role ≠ .identifier := by
    intro t ht
    obtain ⟨row, hrow, u, hu, g, _, _, rfl⟩ := hhead t ht
    exact hs.role_head row hrow u hu
  obtain ⟨us, htree, hreads⟩ := Tree.exists_of_phrase (hs.good.compilationUnit hlaid) hplain
    hchain hfirst htrail
  refine ⟨s, ts, us, joinWith layout.newline.text ls ++ layout.newline.text, hs, hlaid, ?_, ?_,
    hreads⟩
  · simp only [Layout.render, hls]
    rfl
  · have hlsne : ls ≠ [] := by
      rintro rfl
      have hlength := hlines.length_eq
      simp [Sheet.rows] at hlength
    unfold Tree.ofText?
    rw [joinWith_append _ hlsne, ← htree]
    simpa using congrArg Tree.ofChars? htext

end TestScaffold
