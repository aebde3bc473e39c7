/-
  TestScaffold/Proofs/Fixture/Refusals.lean
  =========================================
  **Which test classes have no text.**

  A test class mentions names and types.  Some of the names it declares, the others
  it only uses, inside expressions.  Rendering looks at the mentions in the order
  of the text, and is refused for the first one that is malformed (`Tells`).  It
  does not look at the names that are only used, so a test class may be malformed
  and still have a text (`render_refuses_iff`).
-/
import Mathlib.Computability.Language
import TestScaffold.Proofs.Fixture.Words

namespace TestScaffold

open TestScaffold.Text
open Computability

/-! ### Patterns of names -/

/-- The texts of one character, which satisfies `p`. -/
def Text.oneOf (p : Char → Bool) : Language Char := fun cs => ∃ c, p c = true ∧ cs = [c]

namespace Layout

/-- The pattern of an identifier: an at sign or none, a character of words that is no digit, and
any characters of words. -/
def identifiers : Language Char :=
  (1 + {['@']}) * oneOf (fun c => isWord c && !isDecimal c) * (oneOf isWord)∗

/-- The pattern of a namespace: an identifier, and any number of points with an identifier
behind each. -/
def dottedIdentifiers : Language Char := identifiers * ({['.']} * identifiers)∗

end Layout

theorem Text.mem_kstar_oneOf {p : Char → Bool} {cs : List Char} :
    cs ∈ (oneOf p)∗ ↔ ∀ c ∈ cs, p c = true := by
  rw [Language.mem_kstar]
  constructor
  · rintro ⟨pieces, rfl, hpieces⟩ c hc
    obtain ⟨piece, hpiece, hc⟩ := List.mem_flatten.mp hc
    obtain ⟨d, hd, rfl⟩ := hpieces piece hpiece
    exact List.mem_singleton.mp hc ▸ hd
  · intro h
    refine ⟨cs.map fun c => [c], ?_, fun piece hpiece => ?_⟩
    · induction cs with
      | nil => rfl
      | cons c cs ih =>
        rw [List.map_cons, List.flatten_cons, ← ih fun d hd => h d (List.mem_cons_of_mem _ hd)]
        rfl
    · obtain ⟨c, hc, rfl⟩ := List.mem_map.mp hpiece
      exact ⟨c, h c hc, rfl⟩

/-- The check of a declared name is the pattern of an identifier. -/
theorem mem_identifiers_iff {cs : List Char} :
    cs ∈ Layout.identifiers ↔ Layout.isIdentifier cs = true := by
  rw [isIdentifier_iff]
  constructor
  · rintro ⟨_, ⟨lead, hlead, _, ⟨c, hc, rfl⟩, rfl⟩, rest, hrest, rfl⟩
    rw [Bool.and_eq_true, Bool.not_eq_true'] at hc
    refine ⟨c, rest, hc.1, hc.2, mem_kstar_oneOf.mp hrest, ?_⟩
    rcases hlead with rfl | rfl
    · exact .inl rfl
    · exact .inr rfl
  · rintro ⟨c, rest, hword, hdecimal, hrest, hcs⟩
    have hc : [c] ∈ oneOf fun c => isWord c && !isDecimal c := ⟨c, by simp [hword, hdecimal], rfl⟩
    rcases hcs with rfl | rfl
    · exact ⟨[c], ⟨[], .inl rfl, [c], hc, rfl⟩, rest, mem_kstar_oneOf.mpr hrest, rfl⟩
    · exact ⟨['@', c], ⟨['@'], .inr rfl, [c], hc, rfl⟩, rest, mem_kstar_oneOf.mpr hrest, rfl⟩

/-- No point stands in an identifier. -/
theorem notMem_of_isIdentifier {cs : List Char} (h : Layout.isIdentifier cs = true) : '.' ∉ cs := by
  have hpoint : isWord '.' = false := by decide
  have hword : ∀ d, isWord d = true → '.' ≠ d := by
    rintro d hd rfl
    rw [hpoint] at hd
    cases hd
  obtain ⟨c, rest, hc, -, hrest, rfl | rfl⟩ := isIdentifier_iff.mp h
  · rw [List.mem_cons, not_or]
    exact ⟨hword c hc, fun hmem => hword _ (hrest _ hmem) rfl⟩
  · rw [List.mem_cons, List.mem_cons, not_or, not_or]
    exact ⟨by decide, hword c hc, fun hmem => hword _ (hrest _ hmem) rfl⟩

/-- Identifiers are found again between points. -/
theorem splitChars_dottedChars {p : List Char} {ps : List (List Char)}
    (h : ∀ q ∈ p :: ps, Layout.isIdentifier q = true) :
    splitChars '.' (CSharp.dottedChars (p :: ps)) = p :: ps := by
  have hjoined : CSharp.dottedChars (p :: ps) = List.intercalate ['.'] (p :: ps) := by
    clear h
    induction ps generalizing p with
    | nil => simp [CSharp.dottedChars]
    | cons q qs ih =>
      have hrest := ih (p := q)
      simp only [CSharp.dottedChars, List.flatMap_cons, List.cons_append] at hrest ⊢
      rw [hrest, List.intercalate_cons_cons, List.append_assoc, List.singleton_append]
  rw [hjoined, splitChars_eq_splitOn, List.splitOn_intercalate '.'
    (fun q hq => notMem_of_isIdentifier (h q hq)) (List.cons_ne_nil _ _)]

/-- The check of a namespace is its pattern. -/
theorem mem_dottedIdentifiers_iff {cs : List Char} :
    cs ∈ Layout.dottedIdentifiers ↔ (splitChars '.' cs).all Layout.isIdentifier = true := by
  rw [List.all_eq_true]
  constructor
  · rintro ⟨p, hp, _, ⟨pieces, rfl, hpieces⟩, rfl⟩
    obtain ⟨ps, rfl, hps⟩ : ∃ ps : List (List Char), pieces = ps.map ('.' :: ·) ∧
        ∀ q ∈ ps, Layout.isIdentifier q = true := by
      refine ⟨pieces.map List.tail, ?_, ?_⟩
      · rw [List.map_map]
        refine (List.map_id _).symm.trans (List.map_congr_left fun piece hpiece => ?_)
        obtain ⟨_, rfl, q, -, rfl⟩ := hpieces piece hpiece
        rfl
      · intro q hq
        obtain ⟨piece, hpiece, rfl⟩ := List.mem_map.mp hq
        obtain ⟨_, rfl, q, hidentifier, rfl⟩ := hpieces piece hpiece
        exact mem_identifiers_iff.mp hidentifier
    have hall : ∀ q ∈ p :: ps, Layout.isIdentifier q = true :=
      List.forall_mem_cons.mpr ⟨mem_identifiers_iff.mp hp, hps⟩
    have hsplit := splitChars_dottedChars hall
    rw [CSharp.dottedChars, List.flatMap_def] at hsplit
    rw [hsplit]
    exact hall
  · intro h
    rw [← CSharp.dottedChars_splitChars cs]
    cases hpieces : splitChars '.' cs with
    | nil => exact absurd hpieces (splitChars_ne_nil _ _)
    | cons p ps =>
      rw [hpieces] at h
      obtain ⟨hp, hps⟩ := List.forall_mem_cons.mp h
      refine ⟨p, mem_identifiers_iff.mpr hp, _, ⟨ps.map ('.' :: ·), ?_, ?_⟩, rfl⟩
      · rw [List.flatMap_def]
      · intro piece hpiece
        obtain ⟨q, hq, rfl⟩ := List.mem_map.mp hpiece
        exact ⟨['.'], rfl, q, mem_identifiers_iff.mpr (hps q hq), rfl⟩

/-! ### Mentions -/

/-- A name or a type as a test class mentions it. -/
inductive Mention where
  | declared (role : NameRole) (name : Name)
  | inNamespace (name : Name)
  /-- A name inside an expression: an identifier, or what stands behind a point. -/
  | used (name : Name)
  | type (use : TypeUse)

namespace Mention

/-- What the mention is written with. -/
def name : Mention → Name
  | declared _ n => n
  | inNamespace n => n
  | used n => n
  | type use => use.name

/-- What is mentioned may be written: names by their patterns, and types unless they are blank. -/
def Valid : Mention → Prop
  | declared _ n => n.text.toList ∈ Layout.identifiers
  | inNamespace n => n.text.toList ∈ Layout.dottedIdentifiers
  | used n => n.text.toList ∈ Layout.identifiers
  | type use => ∃ c ∈ use.name.text.toList, isBlank c = false

/-- Whether rendering looks at the mention: it does unless a name is only used. -/
def isChecked : Mention → Bool
  | used _ => false
  | _ => true

/-- What the mention is refused for. -/
def fault? : Mention → Option RenderError
  | declared role n =>
    if Layout.isIdentifier n.text.toList then none else some (.invalidName role n.text)
  | inNamespace n =>
    if (splitChars '.' n.text.toList).all Layout.isIdentifier then none
    else some (.invalidName .namespaceName n.text)
  | used _ => none
  | type use => if isBlankText use.name then some .emptyType else none

/-- Mentions are refused if they are checked and not valid. -/
theorem fault?_eq_none_iff {m : Mention} : m.fault? = none ↔ (m.isChecked = true → m.Valid) := by
  cases m with
  | declared role n => simp [fault?, isChecked, Valid, mem_identifiers_iff]
  | inNamespace n => simp [fault?, isChecked, Valid, mem_dottedIdentifiers_iff]
  | used n => simp [fault?, isChecked]
  | type use => simp [fault?, isChecked, Valid, isBlankText]

end Mention

mutual

/-- What an expression mentions, in the order of its text. -/
def Expr.mentions : Expr → List Mention
  | .identifier name => [.used name]
  | .literal _ => []
  | .default type => [.type type]
  | .member target name => target.mentions ++ [.used name]
  | .call callee arguments => callee.mentions ++ mentionsOfAll arguments
  | .create type arguments => .type type :: mentionsOfAll arguments
  | .await operand => operand.mentions
  | .assign target value => target.mentions ++ value.mentions

/-- What some expressions mention. -/
def Expr.mentionsOfAll : List Expr → List Mention
  | [] => []
  | e :: rest => e.mentions ++ mentionsOfAll rest

end

/-- What a statement mentions. -/
def Stmt.mentions : Stmt → List Mention
  | .declare type name initializer =>
    .declared .localName name :: .type type :: initializer.mentions
  | .evaluate expression => expression.mentions

/-- What a field mentions. -/
def Field.mentions (f : Field) : List Mention := [.declared .fieldName f.name, .type f.type]

/-- What the constructor mentions. -/
def Setup.mentions (s : Setup) : List Mention :=
  .declared .constructorName s.name :: s.body.flatMap Stmt.mentions

/-- What a test method mentions. -/
def Test.mentions (t : Test) : List Mention :=
  .declared .methodName t.name :: t.body.flatMap Stmt.mentions

/-- What a test class mentions: its name and its namespace, and whatever its members do. -/
def Fixture.mentions (x : Fixture) : List Mention :=
  .declared .className x.className :: .inNamespace x.namespaceName ::
    (x.fields.flatMap Field.mentions ++ x.setup.mentions ++ x.tests.flatMap Test.mentions)

/-! ### What rendering tells of mentions -/

namespace Layout

/-- The result is an error exactly if some of the mentions are refused, and then it is the error
of the first one. -/
def Tells {α : Type} (r : Except RenderError α) (ms : List Mention) : Prop :=
  ms.findSome? Mention.fault? = match r with
    | .ok _ => none
    | .error e => some e

namespace Tells

variable {α β : Type} {r : Except RenderError α} {ms ns : List Mention}

theorem ok (a : α) : Tells (.ok a) [] := rfl

/-- Steps tell of their mentions one after the other. -/
theorem bind {f : α → Except RenderError β} (h : Tells r ms) (hf : ∀ a, Tells (f a) ns) :
    Tells (r >>= f) (ms ++ ns) := by
  unfold Tells at h ⊢
  rw [List.findSome?_append, h]
  cases r with
  | error e => rfl
  | ok a => exact hf a

/-- A step that cannot fail tells nothing. -/
theorem map (h : Tells r ms) (g : α → β) : Tells (r >>= fun a => pure (g a)) ms := by
  have hbind := h.bind fun a => ok (g a)
  rwa [List.append_nil] at hbind

theorem mapM {f : α → Except RenderError β} {mentions : α → List Mention} {as : List α}
    (h : ∀ a ∈ as, Tells (f a) (mentions a)) : Tells (as.mapM f) (as.flatMap mentions) := by
  induction as with
  | nil => exact ok []
  | cons a as ih =>
    rw [List.mapM_cons, List.flatMap_cons]
    refine (h a List.mem_cons_self).bind fun b => ?_
    exact (ih fun a' ha' => h a' (List.mem_cons_of_mem _ ha')).map _

end Tells

theorem tells_checkName (role : NameRole) (n : Name) :
    Tells (checkName role n.text) [.declared role n] := by
  unfold Tells checkName
  cases h : isIdentifier n.text.toList <;> simp [Mention.fault?, h]

theorem tells_checkNamespace (n : Name) : Tells (checkNamespace n.text) [.inNamespace n] := by
  unfold Tells checkNamespace
  cases h : (splitChars '.' n.text.toList).all isIdentifier <;> simp [Mention.fault?, h]

theorem tells_typeText (t : TypeUse) : Tells (typeText t) [.type t] := by
  unfold Tells typeText
  cases h : isBlankText t.name <;> simp [Mention.fault?, h]

mutual

theorem tells_exprText : ∀ e : Expr, Tells (exprText e) e.mentions
  | .identifier _ => rfl
  | .literal _ => rfl
  | .default type => (tells_typeText type).map _
  | .member target _ => (tells_exprText target).bind fun _ => rfl
  | .call callee arguments =>
    (tells_exprText callee).bind fun _ => (tells_argumentTexts arguments).map _
  | .create type arguments =>
    (tells_typeText type).bind fun _ => (tells_argumentTexts arguments).map _
  | .await operand => (tells_exprText operand).map _
  | .assign target value => (tells_exprText target).bind fun _ => (tells_exprText value).map _

theorem tells_argumentTexts : ∀ es : List Expr, Tells (argumentTexts es) (Expr.mentionsOfAll es)
  | [] => rfl
  | [e] => by
    rw [Expr.mentionsOfAll, Expr.mentionsOfAll, List.append_nil]
    exact tells_exprText e
  | e :: d :: rest => (tells_exprText e).bind fun _ => (tells_argumentTexts (d :: rest)).map _

end

theorem tells_stmtText (s : Stmt) : Tells (stmtText s) s.mentions := by
  cases s with
  | declare type name initializer =>
    exact (tells_checkName .localName name).bind fun _ =>
      (tells_typeText type).bind fun _ => (tells_exprText initializer).map _
  | evaluate expression => exact (tells_exprText expression).map _

theorem tells_fieldLine (f : Field) : Tells (fieldLine f) f.mentions :=
  (tells_checkName .fieldName f.name).bind fun _ => (tells_typeText f.type).map _

theorem tells_setupLines (unit : String) (s : Setup) : Tells (setupLines unit s) s.mentions :=
  (tells_checkName .constructorName s.name).bind fun _ =>
    (Tells.mapM fun s _ => tells_stmtText s).map _

theorem tells_testLines (unit : String) (t : Test) : Tells (testLines unit t) t.mentions :=
  (tells_checkName .methodName t.name).bind fun _ =>
    (Tells.mapM fun s _ => tells_stmtText s).map _

theorem tells_classLines (unit : String) (x : Fixture) : Tells (classLines unit x)
    (x.fields.flatMap Field.mentions ++ x.setup.mentions ++ x.tests.flatMap Test.mentions) := by
  rw [List.append_assoc]
  exact (Tells.mapM fun f _ => tells_fieldLine f).bind fun fields =>
    (tells_setupLines unit x.setup).bind fun setup =>
      (Tells.mapM fun t _ => tells_testLines unit t).map _

/-- **Rendering is refused for the first mention that is.** -/
theorem tells_render (layout : Layout) (x : Fixture) : Tells (layout.render x) x.mentions := by
  have hlines : Tells (lines layout.indent x) x.mentions :=
    (tells_checkName .className x.className).bind fun _ =>
      (tells_checkNamespace x.namespaceName).bind fun _ => (tells_classLines layout.indent x).map _
  exact hlines.map _

/-- A test class has a text exactly if all that is checked in it is valid. -/
theorem exists_text_iff (layout : Layout) (x : Fixture) :
    (∃ text, layout.render x = .ok text) ↔ ∀ m ∈ x.mentions, m.isChecked = true → m.Valid := by
  have hnone : x.mentions.findSome? Mention.fault? = none ↔
      ∀ m ∈ x.mentions, m.isChecked = true → m.Valid := by
    rw [List.findSome?_eq_none_iff]
    exact forall₂_congr fun m _ => Mention.fault?_eq_none_iff
  rw [← hnone, tells_render layout x]
  cases layout.render x <;> simp

/-- An error is that of the first mention that is refused. -/
theorem render_eq_error_iff (layout : Layout) (x : Fixture) (e : RenderError) :
    layout.render x = .error e ↔ x.mentions.findSome? Mention.fault? = some e := by
  rw [tells_render layout x]
  cases layout.render x <;> simp

theorem exists_error_iff (layout : Layout) (x : Fixture) :
    (∃ e, layout.render x = .error e) ↔ ∃ m ∈ x.mentions, m.isChecked = true ∧ ¬ m.Valid := by
  have htext := exists_text_iff layout x
  cases hrender : layout.render x with
  | error e =>
    rw [hrender] at htext
    simpa using htext
  | ok text =>
    rw [hrender] at htext
    simpa using htext

/-- **Which test classes have no text.** A test class has a text exactly if the names that it
declares, its namespace and its types are valid; otherwise it is refused for the first of them that
is not. So whatever is malformed is refused, if the names inside expressions are identifiers or
something else is malformed as well, and only then. -/
theorem render_refuses_iff (layout : Layout) (x : Fixture) :
    ((∃ text, layout.render x = .ok text) ↔
        ∀ m ∈ x.mentions, m.isChecked = true → m.Valid) ∧
      (∀ e, layout.render x = .error e ↔ x.mentions.findSome? Mention.fault? = some e) ∧
      (((∃ e, layout.render x = .error e) ↔ ∃ m ∈ x.mentions, ¬ m.Valid) ↔
        (∀ n, .used n ∈ x.mentions → n.text.toList ∈ identifiers) ∨
          ∃ m ∈ x.mentions, m.isChecked = true ∧ ¬ m.Valid) := by
  refine ⟨exists_text_iff layout x, render_eq_error_iff layout x, ?_⟩
  rw [exists_error_iff]
  constructor
  · intro hclaim
    by_cases hused : ∀ n, .used n ∈ x.mentions → n.text.toList ∈ identifiers
    · exact .inl hused
    · simp only [not_forall] at hused
      obtain ⟨n, hn, hinvalid⟩ := hused
      exact .inr (hclaim.mpr ⟨.used n, hn, hinvalid⟩)
  · intro hcase
    refine ⟨fun ⟨m, hm, _, hinvalid⟩ => ⟨m, hm, hinvalid⟩, ?_⟩
    rintro ⟨m, hm, hinvalid⟩
    rcases hcase with hused | hrefused
    · cases m with
      | used n => exact absurd (hused n hm) hinvalid
      | declared role n => exact ⟨_, hm, rfl, hinvalid⟩
      | inNamespace n => exact ⟨_, hm, rfl, hinvalid⟩
      | type use => exact ⟨_, hm, rfl, hinvalid⟩
    · exact hrefused

end Layout

/-- A test class whose one test uses a name that is no identifier. -/
def strayUse : Fixture where
  namespaceName := ⟨"Tests", by decide⟩
  className := ⟨"FooTests", by decide⟩
  setup := { name := ⟨"FooTests", by decide⟩ }
  tests := [{ name := ⟨"ATest0", by decide⟩,
              body := [.evaluate (.identifier ⟨"1 x", by decide⟩)] }]
  distinct := by decide

/-- The name is not refused, and stands in the text as it is. -/
theorem Layout.render_strayUse :
    (∃ m ∈ strayUse.mentions, ¬ m.Valid) ∧
      ({} : Layout).render strayUse = .ok (joinWith "\n" [
        "namespace Tests",
        "\x7b",
        "    public class FooTests",
        "    \x7b",
        "        public FooTests()",
        "        \x7b",
        "        \x7d",
        "",
        "        [Fact]",
        "        public void ATest0()",
        "        \x7b",
        "            1 x;",
        "        \x7d",
        "    \x7d",
        "\x7d",
        ""]) := by
  refine ⟨⟨.used ⟨"1 x", by decide⟩, ?_, ?_⟩, by decide +kernel⟩
  · simp [strayUse, Fixture.mentions, Test.mentions, Stmt.mentions, Expr.mentions]
  · intro hvalid
    exact absurd (mem_identifiers_iff.mp hvalid) (by decide)

end TestScaffold
