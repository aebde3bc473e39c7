/-
  TestScaffold/Proofs/Fixture/Pages.lean
  ======================================
  **How the text of a test class is laid out.**

  The text is a list of lines, each with a line feed behind it.  Braces on lines of
  their own are balanced and lines stand as far in as the blocks around them, because
  the lines are nested (`Braces.lean`).  An empty line stands behind the directives
  and between members, so the lines between empty ones are the directives and the
  members one by one; what opens and closes the class goes with the first and the
  last of these (`splitOn_lines`).

  All of this needs that no text which is put into a line has a line end in it.  A
  string literal never has.
-/
import TestScaffold.Proofs.CSharp.Lines
import TestScaffold.Proofs.Fixture.Braces
import TestScaffold.Proofs.Fixture.Literals
import TestScaffold.Proofs.Fixture.Parts
import TestScaffold.Proofs.Fixture.Refusals

namespace TestScaffold

open TestScaffold.Text

/-- A test class whose names, types, directives and attributes have no line end in them. -/
structure Fixture.SingleLine (x : Fixture) : Prop where
  mentions : ∀ m ∈ x.mentions, Layout.isOneLine m.name.text = true
  usings : ∀ u ∈ x.usings, Layout.isOneLine u.name.text = true ∧
    ∀ a ∈ u.alias?, Layout.isOneLine a = true
  attributes : ∀ t ∈ x.tests, Layout.isOneLine t.attributeText = true

namespace Layout

/-! ### Results with a property -/

/-- What is computed, if anything, has the property. -/
def Yields {α : Type} (r : Except RenderError α) (P : α → Prop) : Prop := ∀ a, r = .ok a → P a

namespace Yields

variable {α β : Type} {r : Except RenderError α} {P : α → Prop} {Q : β → Prop}

theorem ok {a : α} (h : P a) : Yields (.ok a) P := by
  intro b hb
  cases hb
  exact h

theorem bind {f : α → Except RenderError β} (h : Yields r P) (hf : ∀ a, P a → Yields (f a) Q) :
    Yields (r >>= f) Q := by
  intro b hb
  obtain ⟨a, ha, hb⟩ := exists_of_bind_eq_ok hb
  exact hf a (h a ha) b hb

theorem map {g : α → β} (h : Yields r P) (hg : ∀ a, P a → Q (g a)) :
    Yields (r >>= fun a => pure (g a)) Q :=
  h.bind fun a ha => ok (hg a ha)

theorem mapM {γ : Type} {f : γ → Except RenderError α} {cs : List γ}
    (h : ∀ c ∈ cs, Yields (f c) P) : Yields (cs.mapM f) fun as => ∀ a ∈ as, P a := by
  induction cs with
  | nil => exact ok fun a ha => absurd ha List.not_mem_nil
  | cons c cs ih =>
    rw [List.mapM_cons]
    refine (h c List.mem_cons_self).bind fun a ha => ?_
    refine (ih fun d hd => h d (List.mem_cons_of_mem _ hd)).map fun as has => ?_
    exact List.forall_mem_cons.mpr ⟨ha, has⟩

end Yields

theorem yields_any {α : Type} (r : Except RenderError α) : Yields r fun _ => True :=
  fun _ _ => trivial

/-! ### Texts in lines -/

theorem isOneLine_literalText (value : Literal) : isOneLine (literalText value) = true := by
  cases value with
  | bool b => cases b <;> rfl
  | text s =>
    have hall : ∀ c ∈ (literalText (.text s)).toList, c ≠ '\n' ∧ c ≠ '\r' := by
      rw [toList_literalText]
      obtain ⟨hfeed, hreturn⟩ := notMem_lineEnd_escape s.toList
      refine List.forall_mem_cons.mpr ⟨by decide, List.forall_mem_append.mpr ⟨fun c hc => ?_, ?_⟩⟩
      · exact ⟨fun h => hfeed (h ▸ hc), fun h => hreturn (h ▸ hc)⟩
      · exact List.forall_mem_singleton.mpr (by decide)
    simpa [isOneLine] using hall

theorem yields_typeText {t : TypeUse} (h : isOneLine t.name.text = true) :
    Yields (typeText t) fun s => isOneLine s = true := by
  unfold typeText
  split
  · exact fun s hs => by cases hs
  · refine .ok ?_
    split
    · simp [h, show isOneLine "Mock<" = true from rfl, show isOneLine ">" = true from rfl]
    · exact h

/-- Mentions whose texts have no line end in them. -/
def OneLined (ms : List Mention) : Prop := ∀ m ∈ ms, isOneLine m.name.text = true

theorem oneLined_append {ms ns : List Mention} : OneLined (ms ++ ns) ↔ OneLined ms ∧ OneLined ns :=
  List.forall_mem_append

theorem oneLined_cons {m : Mention} {ms : List Mention} :
    OneLined (m :: ms) ↔ isOneLine m.name.text = true ∧ OneLined ms :=
  List.forall_mem_cons

mutual

theorem yields_exprText : ∀ {e : Expr}, OneLined e.mentions →
    Yields (exprText e) fun s => isOneLine s = true
  | .identifier _, h => .ok (oneLined_cons.mp h).1
  | .literal value, _ => .ok (isOneLine_literalText value)
  | .default _, h => (yields_typeText (oneLined_cons.mp h).1).map fun s hs => by simp +decide [hs]
  | .member _ name, h =>
    have hname : isOneLine name.text = true := (oneLined_cons.mp (oneLined_append.mp h).2).1
    (yields_exprText (oneLined_append.mp h).1).map fun s hs => by simp +decide [hs, hname]
  | .call _ _, h =>
    (yields_exprText (oneLined_append.mp h).1).bind fun s hs =>
      (yields_argumentTexts (oneLined_append.mp h).2).map fun t ht => by simp +decide [hs, ht]
  | .create _ _, h =>
    (yields_typeText (oneLined_cons.mp h).1).bind fun s hs =>
      (yields_argumentTexts (oneLined_cons.mp h).2).map fun t ht => by simp +decide [hs, ht]
  | .await operand, h =>
    (yields_exprText (e := operand) h).map fun s hs => by simp +decide [hs]
  | .assign _ _, h =>
    (yields_exprText (oneLined_append.mp h).1).bind fun s hs =>
      (yields_exprText (oneLined_append.mp h).2).map fun t ht => by simp +decide [hs, ht]

theorem yields_argumentTexts : ∀ {es : List Expr}, OneLined (Expr.mentionsOfAll es) →
    Yields (argumentTexts es) fun s => isOneLine s = true
  | [], _ => .ok rfl
  | [_], h => yields_exprText (oneLined_append.mp h).1
  | _ :: _ :: _, h =>
    (yields_exprText (oneLined_append.mp h).1).bind fun s hs =>
      (yields_argumentTexts (oneLined_append.mp h).2).map fun t ht => by simp +decide [hs, ht]

end

/-! ### Lines of members -/

theorem yields_stmtText {s : Stmt} (h : OneLined s.mentions) : Yields (stmtText s) Solid := by
  have hend : Solid ";" := by decide
  cases s with
  | declare type name initializer =>
    obtain ⟨(hname : isOneLine name.text = true), hrest⟩ := oneLined_cons.mp h
    obtain ⟨htype, hinitializer⟩ := oneLined_cons.mp hrest
    refine (yields_any _).bind fun _ _ => (yields_typeText htype).bind fun head hhead =>
      (yields_exprText hinitializer).map fun s hs => hend.append_left ?_
    simp +decide [hhead, hname, hs]
  | evaluate expression =>
    exact (yields_exprText (e := expression) h).map fun s hs => hend.append_left hs

theorem yields_fieldLine {f : Field} (h : OneLined f.mentions) : Yields (fieldLine f) Solid := by
  have hend : Solid ";" := by decide
  obtain ⟨(hname : isOneLine f.name.text = true), hrest⟩ := oneLined_cons.mp h
  refine (yields_any _).bind fun _ _ => (yields_typeText (oneLined_cons.mp hrest).1).map
    fun head hhead => hend.append_left ?_
  simp +decide [hhead, hname]

/-- The lines of a member: solid lines and blocks without an empty line. -/
structure Compact (unit : String) (lines : List String) : Prop where
  nested : Nested unit lines
  full : "" ∉ lines

theorem Compact.of_solid (unit : String) {lines : List String} (h : ∀ line ∈ lines, Solid line) :
    Compact unit lines :=
  ⟨.of_solid h, fun hmem => (h _ hmem).ne_empty rfl⟩

/-- Lines that are not empty are still not when they are moved in. -/
theorem notMem_indented (unit : String) {lines : List String} (h : "" ∉ lines) :
    "" ∉ indented unit lines := by
  intro hmem
  obtain ⟨line, hline, hempty⟩ := List.mem_map.mp hmem
  have hne : line ≠ "" := fun heq => h (heq ▸ hline)
  rw [if_neg hne] at hempty
  exact hne (String.append_eq_empty_iff.mp hempty).2

theorem Compact.of_body {unit : String} (heads : List String) {body : List String}
    (hheads : ∀ line ∈ heads, Solid line) (hbody : ∀ line ∈ body, Solid line) :
    Compact unit (heads ++ block unit body) where
  nested := (Nested.of_solid hheads).append (Nested.of_solid hbody).inBraces
  full := by
    have hfull := notMem_indented unit (Compact.of_solid unit hbody).full
    intro hmem
    rcases List.mem_append.mp hmem with hmem | hmem
    · exact (hheads _ hmem).ne_empty rfl
    · simp [block, hfull] at hmem

theorem oneLined_flatMap {α : Type} {mentions : α → List Mention} {as : List α} :
    OneLined (as.flatMap mentions) ↔ ∀ a ∈ as, OneLined (mentions a) := by
  unfold OneLined
  simp only [List.mem_flatMap]
  exact ⟨fun h a ha m hm => h m ⟨a, ha, hm⟩, fun h m ⟨a, ha, hm⟩ => h a ha m hm⟩

theorem yields_setupLines (unit : String) {s : Setup} (h : OneLined s.mentions) :
    Yields (setupLines unit s) (Compact unit) := by
  obtain ⟨(hname : isOneLine s.name.text = true), hbody⟩ := oneLined_cons.mp h
  refine (yields_any _).bind fun _ _ => (Yields.mapM fun s hs =>
    yields_stmtText (oneLined_flatMap.mp hbody s hs)).map fun body hbody => ?_
  have hhead : Solid ("public " ++ s.name.text ++ "()") :=
    (by decide : Solid "()").append_left (by simp +decide [hname])
  exact Compact.of_body [_] (List.forall_mem_singleton.mpr hhead) hbody

theorem yields_testLines (unit : String) {t : Test} (h : OneLined t.mentions)
    (hattribute : isOneLine t.attributeText = true) :
    Yields (testLines unit t) (Compact unit) := by
  obtain ⟨(hname : isOneLine t.name.text = true), hbody⟩ := oneLined_cons.mp h
  refine (yields_any _).bind fun _ _ => (Yields.mapM fun s hs =>
    yields_stmtText (oneLined_flatMap.mp hbody s hs)).map fun body hbody => ?_
  have hattributeLine : Solid ("[" ++ t.attributeText ++ "]") :=
    (by decide : Solid "]").append_left (by simp +decide [hattribute])
  have hhead : Solid ((if t.isAsync then "public async Task " else "public void ") ++
      t.name.text ++ "()") :=
    (by decide : Solid "()").append_left (by cases t.isAsync <;> simp +decide [hname])
  exact Compact.of_body [_, _]
    (List.forall_mem_cons.mpr ⟨hattributeLine, List.forall_mem_singleton.mpr hhead⟩) hbody

/-! ### Groups of lines -/

/-- The members as groups of lines: the fields together if there are any, the constructor, and the
tests one by one. -/
def memberGroups (fields setup : List String) (tests : List (List String)) : List (List String) :=
  (if fields.isEmpty then [] else [fields]) ++ setup :: tests

/-- Groups with lines before the first and behind the last. -/
def framed (front back : List String) : List (List String) → List (List String)
  | [] => []
  | [m] => [front ++ m ++ back]
  | m :: n :: rest => (front ++ m) :: framed [] back (n :: rest)

theorem framed_ne_nil (front back : List String) {groups : List (List String)} (h : groups ≠ []) :
    framed front back groups ≠ [] := by
  cases groups with
  | nil => exact absurd rfl h
  | cons m rest => cases rest <;> exact List.cons_ne_nil _ _

theorem spaced_framed {front back : List String} {groups : List (List String)} (h : groups ≠ []) :
    spaced (framed front back groups) = front ++ spaced groups ++ back := by
  induction groups generalizing front with
  | nil => exact absurd rfl h
  | cons m rest ih =>
    cases rest with
    | nil => rfl
    | cons n rest =>
      obtain ⟨k, ks, hframed⟩ := List.exists_cons_of_ne_nil
        (framed_ne_nil [] back (List.cons_ne_nil n rest))
      have hrest : spaced (framed [] back (n :: rest)) = [] ++ spaced (n :: rest) ++ back :=
        ih (List.cons_ne_nil n rest)
      rw [hframed] at hrest
      rw [framed, hframed, spaced, hrest]
      simp [spaced]

theorem full_framed {front back : List String} {groups : List (List String)} (hfront : "" ∉ front)
    (hback : "" ∉ back) (h : ∀ m ∈ groups, "" ∉ m) : ∀ m ∈ framed front back groups, "" ∉ m := by
  induction groups generalizing front with
  | nil => exact fun m hm => absurd hm List.not_mem_nil
  | cons m rest ih =>
    obtain ⟨hm, hrest⟩ := List.forall_mem_cons.mp h
    cases rest with
    | nil => simp [framed, hfront, hm, hback]
    | cons n rest =>
      exact List.forall_mem_cons.mpr ⟨by simp [hfront, hm], ih List.not_mem_nil hrest⟩

theorem indented_spaced (unit : String) (groups : List (List String)) :
    indented unit (spaced groups) = spaced (groups.map (indented unit)) := by
  induction groups with
  | nil => rfl
  | cons m rest ih =>
    cases rest with
    | nil => rfl
    | cons n rest =>
      simp only [List.map_cons, spaced] at ih ⊢
      rw [← ih, indented, List.map_append, List.map_cons, if_pos rfl]
      rfl

/-- Groups are found again between empty lines. -/
theorem splitOn_spaced {groups : List (List String)} (hne : groups ≠ [])
    (h : ∀ m ∈ groups, "" ∉ m) : (spaced groups).splitOn "" = groups := by
  have hspaced : spaced groups = [""].intercalate groups := by
    clear hne h
    induction groups with
    | nil => rfl
    | cons m rest ih =>
      cases rest with
      | nil => simp [spaced]
      | cons n rest => simp [spaced, ih, List.intercalate_cons_cons]
  rw [hspaced, List.splitOn_intercalate "" h hne]

/-! ### The lines of a test class -/

/-- The directives with an empty line behind them, if there are any. -/
def directiveLines (x : Fixture) : List String :=
  x.sortedUsings.map usingLine ++ if x.usings.isEmpty then [] else [""]

/-- The lines before the first member, from the namespace on. -/
def opening (unit : String) (x : Fixture) : List String :=
  ["namespace " ++ x.namespaceName.text, "\x7b",
    unit ++ ("public class " ++ x.className.text), unit ++ "\x7b"]

/-- The lines behind the last member. -/
def closing (unit : String) : List String := [unit ++ "\x7d", "\x7d"]

/-- The lines of a test class with the given members. -/
def pageLines (unit : String) (x : Fixture) (groups : List (List String)) : List String :=
  directiveLines x ++ ("namespace " ++ x.namespaceName.text) ::
    block unit (("public class " ++ x.className.text) :: block unit (spaced groups))

/-- The lines of the members of a test class, not moved in. -/
structure MemberLines (unit : String) (x : Fixture) (fields setup : List String)
    (tests : List (List String)) : Prop where
  fields : x.fields.mapM fieldLine = .ok fields
  setup : setupLines unit x.setup = .ok setup
  tests : x.tests.mapM (testLines unit) = .ok tests

section

variable {unit : String} {x : Fixture} {fields setup : List String} {tests : List (List String)}
  {groups : List (List String)}

theorem isEmpty_sortedUsings (x : Fixture) : x.sortedUsings.isEmpty = x.usings.isEmpty := by
  unfold Fixture.sortedUsings
  cases x.usings with
  | nil => rfl
  | cons u us => cases hglobal : u.isGlobal <;> simp [hglobal]

theorem exists_memberLines {ls : List String} (h : lines unit x = .ok ls) :
    ∃ fields setup tests, MemberLines unit x fields setup tests ∧
      ls = pageLines unit x (memberGroups fields setup tests) := by
  obtain ⟨_, _, h⟩ := exists_of_bind_eq_ok h
  obtain ⟨_, _, h⟩ := exists_of_bind_eq_ok h
  obtain ⟨body, hbody, h⟩ := exists_of_bind_eq_ok h
  obtain ⟨fields, hfields, hbody⟩ := exists_of_bind_eq_ok hbody
  obtain ⟨setup, hsetup, hbody⟩ := exists_of_bind_eq_ok hbody
  obtain ⟨tests, htests, hbody⟩ := exists_of_bind_eq_ok hbody
  cases hbody
  cases h
  refine ⟨fields, setup, tests, ⟨hfields, hsetup, htests⟩, ?_⟩
  unfold pageLines directiveLines
  rw [← isEmpty_sortedUsings, ← List.isEmpty_map (f := usingLine)]
  rfl

theorem memberGroups_ne_nil : memberGroups fields setup tests ≠ [] := by simp [memberGroups]

/-- The members of a test class are lines and blocks without an empty line. -/
theorem MemberLines.compact (h : MemberLines unit x fields setup tests) (hx : x.SingleLine) :
    ∀ m ∈ memberGroups fields setup tests, Compact unit m := by
  obtain ⟨⟨hfields, hsetup⟩, htests⟩ := (oneLined_append.trans (and_congr_left' oneLined_append)).mp
    (oneLined_cons.mp (oneLined_cons.mp hx.mentions).2).2
  intro m hm
  rcases List.mem_append.mp hm with hm | hm
  · split at hm
    · cases hm
    · rw [List.mem_singleton.mp hm]
      exact .of_solid unit (Yields.mapM (fun f hf => yields_fieldLine
        (oneLined_flatMap.mp hfields f hf)) fields h.fields)
  · rcases List.mem_cons.mp hm with rfl | hm
    · exact yields_setupLines unit hsetup _ h.setup
    · exact Yields.mapM (fun t ht => yields_testLines unit (oneLined_flatMap.mp htests t ht)
        (hx.attributes t ht)) tests h.tests m hm

theorem isOneLine_joinWith {sep : String} {pieces : List String} (hsep : isOneLine sep = true)
    (h : ∀ piece ∈ pieces, isOneLine piece = true) : isOneLine (joinWith sep pieces) = true := by
  induction pieces with
  | nil => rfl
  | cons s rest ih =>
    obtain ⟨hs, hrest⟩ := List.forall_mem_cons.mp h
    cases rest with
    | nil => exact hs
    | cons t rest => simp [joinWith, hs, hsep, ih hrest]

theorem solid_usingLine {u : Source.Using} (hname : isOneLine u.name.text = true)
    (halias : ∀ a ∈ u.alias?, isOneLine a = true) : Solid (usingLine u) := by
  refine (by decide : Solid ";").append_left (isOneLine_joinWith rfl ?_)
  have hword : ∀ (b : Bool) (word : String), isOneLine word = true →
      ∀ piece ∈ if b then [word] else [], isOneLine piece = true := by
    intro b word hword
    cases b <;> simp [hword]
  refine List.forall_mem_append.mpr ⟨List.forall_mem_append.mpr ⟨List.forall_mem_append.mpr
    ⟨List.forall_mem_append.mpr ⟨hword _ _ rfl, List.forall_mem_singleton.mpr rfl⟩,
      hword _ _ rfl⟩, ?_⟩, List.forall_mem_singleton.mpr hname⟩
  cases hcase : u.alias? with
  | none => exact fun piece hpiece => absurd hpiece List.not_mem_nil
  | some a =>
    have ha := halias a hcase
    dsimp only
    split
    · exact fun piece hpiece => absurd hpiece List.not_mem_nil
    · exact List.forall_mem_singleton.mpr (by simp +decide [ha])

theorem solid_directives (hx : x.SingleLine) :
    ∀ line ∈ x.sortedUsings.map usingLine, Solid line := by
  intro line hline
  obtain ⟨u, hu, rfl⟩ := List.mem_map.mp hline
  have hmem : u ∈ x.usings := by
    rcases List.mem_append.mp hu with hu | hu
    · exact (List.mem_filter.mp hu).1
    · exact (List.mem_filter.mp hu).1
  obtain ⟨hname, halias⟩ := hx.usings u hmem
  exact solid_usingLine hname halias

theorem solid_heads (hx : x.SingleLine) : Solid ("namespace " ++ x.namespaceName.text) ∧
    Solid ("public class " ++ x.className.text) := by
  obtain ⟨hclass, hrest⟩ := oneLined_cons.mp hx.mentions
  exact ⟨(by decide : Solid "namespace ").append_right (oneLined_cons.mp hrest).1,
    (by decide : Solid "public class ").append_right hclass⟩

/-- The lines of a test class are solid lines and blocks. -/
theorem nested_pageLines (hx : x.SingleLine) (h : ∀ m ∈ groups, Compact unit m) :
    Nested unit (pageLines unit x groups) := by
  have hdirectives : Nested unit (directiveLines x) := by
    refine (Nested.of_solid (solid_directives hx)).append ?_
    split
    · exact .nil
    · exact .empty .nil
  obtain ⟨hspace, hclass⟩ := solid_heads hx
  have hmembers : Nested unit (spaced groups) := .spaced fun m hm => (h m hm).nested
  exact hdirectives.append (.line hspace (Nested.line hclass hmembers.inBraces).inBraces)

/-- Lines that are moved in twice. -/
theorem indented_indented {lines : List String} (h : "" ∉ lines) :
    indented unit (indented unit lines) = lines.map (margin unit 2 ++ ·) := by
  rw [indented, indented, List.map_map]
  refine List.map_congr_left fun line hline => ?_
  have hne : line ≠ "" := fun heq => h (heq ▸ hline)
  simp [hne, margin, String.append_assoc]

/-- The namespace is its members, with what opens it before the first and what closes it behind
the last. -/
theorem namespaceLines_eq (hne : groups ≠ []) (h : ∀ m ∈ groups, "" ∉ m) :
    ("namespace " ++ x.namespaceName.text) ::
      block unit (("public class " ++ x.className.text) :: block unit (spaced groups)) =
    spaced (framed (opening unit x) (closing unit)
      (groups.map fun m => m.map (margin unit 2 ++ ·))) := by
  have hinner : indented unit (indented unit (spaced groups)) =
      spaced (groups.map fun m => m.map (margin unit 2 ++ ·)) := by
    rw [indented_spaced, indented_spaced, List.map_map]
    exact congrArg spaced (List.map_congr_left fun m hm => indented_indented (h m hm))
  rw [spaced_framed (by simpa using hne), ← hinner]
  simp [block, opening, closing, indented, String.append_eq_empty_iff]

/-- **Between empty lines stand the directives and the members**, in their order. -/
theorem splitOn_pageLines (hx : x.SingleLine) (hne : groups ≠ [])
    (h : ∀ m ∈ groups, Compact unit m) : (pageLines unit x groups).splitOn "" =
      (if x.usings.isEmpty then [] else [x.sortedUsings.map usingLine]) ++
        framed (opening unit x) (closing unit)
          (groups.map fun m => m.map (margin unit 2 ++ ·)) := by
  rw [pageLines, namespaceLines_eq hne fun m hm => (h m hm).full]
  have hfull : ∀ m ∈ framed (opening unit x) (closing unit)
      (groups.map fun m => m.map (margin unit 2 ++ ·)), "" ∉ m := by
    refine full_framed ?_ ?_ ?_
    · simp [opening, (solid_heads hx).1.ne_empty.symm, String.append_eq_empty_iff]
    · simp [closing, String.append_eq_empty_iff]
    · intro m hm
      obtain ⟨m, hgroup, rfl⟩ := List.mem_map.mp hm
      rw [← indented_indented (h m hgroup).full]
      exact notMem_indented unit (notMem_indented unit (h m hgroup).full)
  have hframed : framed (opening unit x) (closing unit)
      (groups.map fun m => m.map (margin unit 2 ++ ·)) ≠ [] := framed_ne_nil _ _ (by simpa using hne)
  unfold directiveLines
  split
  · rename_i hempty
    rw [← isEmpty_sortedUsings] at hempty
    rw [List.isEmpty_iff.mp hempty]
    exact splitOn_spaced hframed hfull
  · have hdirectives : "" ∉ x.sortedUsings.map usingLine := fun hmem =>
      (solid_directives hx _ hmem).ne_empty rfl
    obtain ⟨m, rest, hcons⟩ := List.exists_cons_of_ne_nil hframed
    rw [hcons] at hfull ⊢
    have hsplit := splitOn_spaced (List.cons_ne_nil (x.sortedUsings.map usingLine) (m :: rest))
      (List.forall_mem_cons.mpr ⟨hdirectives, hfull⟩)
    rw [spaced] at hsplit
    simpa using hsplit

end

/-! ### Texts of lines -/

/-- The lines of a text that ends with a line feed. -/
def linesOf (text : String) : List String := (splitOn '\n' text).dropLast

/-- The text with a carriage return before every line feed. -/
def withReturns (text : String) : String :=
  String.ofList (text.toList.flatMap fun c => if c = '\n' then ['\r', '\n'] else [c])

theorem linesOf_joinWith {ls : List String} (hne : ls ≠ []) (h : ∀ l ∈ ls, isOneLine l = true) :
    linesOf (joinWith "\n" ls ++ "\n") = ls := by
  have htext : joinWith "\n" ls ++ "\n" = joinWith (String.singleton '\n') (ls ++ [""]) := by
    rw [joinWith_concat, if_neg hne, String.append_empty]
    rfl
  have hnone : ∀ l ∈ ls ++ [""], '\n' ∉ l.toList := by
    refine List.forall_mem_append.mpr ⟨fun l hl hmem => ?_, by decide⟩
    have hone := List.all_eq_true.mp (h l hl) _ hmem
    cases hone
  rw [linesOf, htext, splitOn_joinWith (by simp) hnone, List.dropLast_concat]

theorem withReturns_joinWith {ls : List String} (hne : ls ≠ [])
    (h : ∀ l ∈ ls, isOneLine l = true) :
    withReturns (joinWith "\n" ls ++ "\n") = joinWith "\r\n" ls ++ "\r\n" := by
  have hline : ∀ l ∈ ls, (l.toList.flatMap fun c => if c = '\n' then ['\r', '\n'] else [c]) =
      l.toList := by
    intro l hl
    have hnone : ∀ c ∈ l.toList, c ≠ '\n' := by
      rintro c hc rfl
      cases List.all_eq_true.mp (h l hl) _ hc
    rw [List.flatMap_congr fun c hc => if_neg (hnone c hc), List.flatMap_singleton']
  refine String.toList_inj.mp ?_
  rw [withReturns, String.toList_ofList, CSharp.joinWith_append _ hne,
    CSharp.joinWith_append _ hne, List.flatMap_assoc]
  refine List.flatMap_congr fun l hl => ?_
  rw [List.flatMap_append, hline l hl]
  rfl

/-- How the text of a test class is laid out. -/
structure Page (unit : String) (x : Fixture) (text : String) : Prop where
  /-- The text ends in one line feed. -/
  ends : ∃ front, text = front ++ "\n" ∧ front.toList.getLast? ≠ some '\n'
  /-- As many blocks are closed as are opened, and none before it is opened. -/
  balanced : depthAfter (linesOf text) = some 0
  /-- Every line that is not blank begins with the margin of the blocks around it. -/
  margins : ∀ before line behind, linesOf text = before ++ line :: behind →
    isBlankText line = false →
      ∃ depth body, depthAfter before = some depth ∧ line = marginOf unit depth line ++ body
  /-- Blank lines are empty. -/
  blanks : ∀ line ∈ linesOf text, isBlankText line = true → line = ""
  /-- Between empty lines stand the directives, if there are any, and the members. -/
  groups : ∃ fields setup tests, MemberLines unit x fields setup tests ∧
    (linesOf text).splitOn "" = (if x.usings.isEmpty then [] else [x.sortedUsings.map usingLine]) ++
      framed (opening unit x) (closing unit)
        ((memberGroups fields setup tests).map fun m => m.map (margin unit 2 ++ ·))

theorem render_eq_ok_iff {unit : String} {newline : Newline} {x : Fixture} {text : String} :
    Layout.render ⟨unit, newline⟩ x = .ok text ↔
      ∃ ls, lines unit x = .ok ls ∧ text = joinWith newline.text ls ++ newline.text := by
  constructor
  · intro h
    obtain ⟨ls, hlines, htext⟩ := exists_of_bind_eq_ok h
    cases htext
    exact ⟨ls, hlines, rfl⟩
  · rintro ⟨ls, hlines, rfl⟩
    simp only [Layout.render, hlines]
    rfl

/-- The last line closes the namespace. -/
theorem exists_pageLines_concat (unit : String) (x : Fixture) (groups : List (List String)) :
    ∃ init, pageLines unit x groups = init ++ ["\x7d"] := by
  refine ⟨directiveLines x ++ ("namespace " ++ x.namespaceName.text) :: "\x7b" ::
    indented unit (("public class " ++ x.className.text) :: block unit (spaced groups)), ?_⟩
  rw [pageLines, block]
  simp

/-- **How the text of a test class is laid out.** The two styles of line ends differ in nothing
else. -/
theorem render_page {unit : String} {x : Fixture} {text : String}
    (hunit : ∀ c ∈ unit.toList, c = ' ' ∨ c = '\t') (hx : x.SingleLine)
    (h : Layout.render ⟨unit, .lf⟩ x = .ok text) :
    Layout.render ⟨unit, .crlf⟩ x = .ok (withReturns text) ∧ Page unit x text := by
  obtain ⟨ls, hlines, (rfl : text = joinWith "\n" ls ++ "\n")⟩ := render_eq_ok_iff.mp h
  obtain ⟨fields, setup, tests, hmembers, hls⟩ := exists_memberLines hlines
  have hmargin : ∀ c ∈ unit.toList, isMarginChar c = true := fun c hc => by
    rcases hunit c hc with rfl | rfl <;> rfl
  have hnested : Nested unit ls := hls ▸ nested_pageLines hx (hmembers.compact hx)
  have hline := hnested.line_of_mem (isOneLine_of_margin hmargin)
  have hruns : Runs unit 0 ls 0 := raised_zero unit ls ▸ hnested.runs hmargin 0
  obtain ⟨init, hinit⟩ := exists_pageLines_concat unit x (memberGroups fields setup tests)
  rw [← hls] at hinit
  have hne : ls ≠ [] := by simp [hinit]
  have hone : ∀ l ∈ ls, isOneLine l = true := by
    intro l hl
    rcases hline l hl with rfl | ⟨hone, -⟩
    · rfl
    · exact hone
  have hlinesOf := linesOf_joinWith hne hone
  refine ⟨render_eq_ok_iff.mpr ⟨ls, hlines, withReturns_joinWith hne hone⟩,
    { ends := ⟨joinWith "\n" ls, rfl, ?_⟩, balanced := ?_, margins := ?_, blanks := ?_,
      groups := ⟨fields, setup, tests, hmembers, ?_⟩ }⟩
  · rw [hinit, joinWith_concat, String.toList_append, List.getLast?_append_of_ne_nil _ (by decide)]
    decide
  · rw [hlinesOf]
    exact hruns.foldlM_depthBehind
  · intro before line behind hsplit hblank
    rw [hlinesOf] at hsplit
    refine hruns.margin_of_mem hsplit ?_
    rintro rfl
    cases hblank
  · intro line hmem hblank
    rw [hlinesOf] at hmem
    rcases hline line hmem with hempty | ⟨-, hfull⟩
    · exact hempty
    · rw [hblank] at hfull
      cases hfull
  · rw [hlinesOf, hls]
    exact splitOn_pageLines hx memberGroups_ne_nil (hmembers.compact hx)

end Layout

/-- A test class with directives, a field, a constructor and two tests, one of which has a line end
in a string literal. -/
def counterTests : Fixture where
  namespaceName := ⟨"Tally.Tests", by decide⟩
  usings := [{ name := ⟨"Tally.Checks", by decide⟩ },
    { name := ⟨"Tally.Core", by decide⟩, alias? := some "Core", isGlobal := true }]
  className := ⟨"CounterTests", by decide⟩
  fields := [{ name := ⟨"_counter", by decide⟩, type := ⟨⟨"Counter", by decide⟩, false⟩ }]
  setup := {
    name := ⟨"CounterTests", by decide⟩
    body := [.evaluate (.assign (.identifier ⟨"_counter", by decide⟩)
      (.create ⟨⟨"Counter", by decide⟩, false⟩ []))] }
  tests := [{ name := ⟨"ResetTest0", by decide⟩ },
    { name := ⟨"LabelTest0", by decide⟩, isAsync := true,
      body := [.evaluate (.await (.call
        (.member (.identifier ⟨"_counter", by decide⟩) ⟨"Label", by decide⟩)
        [.literal (.text "one\n\"two\""), .literal (.bool true)]))] }]
  distinct := by decide

/-- The text of the test class, with tabs for margins. -/
def counterText : String := joinWith "\n" [
  "global using Core = Tally.Core;",
  "using Tally.Checks;",
  "",
  "namespace Tally.Tests",
  "\x7b",
  "\tpublic class CounterTests",
  "\t\x7b",
  "\t\tprivate Counter _counter;",
  "",
  "\t\tpublic CounterTests()",
  "\t\t\x7b",
  "\t\t\t_counter = new Counter();",
  "\t\t\x7d",
  "",
  "\t\t[Fact]",
  "\t\tpublic void ResetTest0()",
  "\t\t\x7b",
  "\t\t\x7d",
  "",
  "\t\t[Fact]",
  "\t\tpublic async Task LabelTest0()",
  "\t\t\x7b",
  "\t\t\tawait _counter.Label(\"one\\n\\\"two\\\"\", true);",
  "\t\t\x7d",
  "\t\x7d",
  "\x7d",
  ""]

/-- The test class is laid out as its text. -/
theorem Layout.page_counterTests :
    (∀ c ∈ "\t".toList, c = ' ' ∨ c = '\t') ∧ counterTests.SingleLine ∧
      Layout.render ⟨"\t", .lf⟩ counterTests = .ok counterText ∧
      Layout.render ⟨"\t", .crlf⟩ counterTests = .ok (withReturns counterText) ∧
      Page "\t" counterTests counterText := by
  have hunit : ∀ c ∈ "\t".toList, c = ' ' ∨ c = '\t' :=
    List.forall_mem_singleton.mpr (.inr rfl)
  have hsingle : counterTests.SingleLine :=
    ⟨by decide +kernel, by decide +kernel, by decide +kernel⟩
  have htext : Layout.render ⟨"\t", .lf⟩ counterTests = .ok counterText := by decide +kernel
  exact ⟨hunit, hsingle, htext, render_page hunit hsingle htext⟩

end TestScaffold
