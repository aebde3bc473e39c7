/-
  TestScaffold/Proofs/Fixture/Bodies.lean
  =======================================
  **The statements of generated code are rows.**

  Types come as text that is a type by itself.  Expressions are put together from
  names and types, and statements from these; each is written as the tokens of a
  row that is read as a statement.
-/
import TestScaffold.Fixture.TestBody
import TestScaffold.Proofs.Fixture.Rendering
import TestScaffold.Proofs.Text.Blanks

namespace TestScaffold

open TestScaffold.Text
open TestScaffold.CSharp

/-! ### Parts of code -/

/-- The text of a plain token is not blank. -/
theorem CSharp.Token.Plain.exists_not_isBlank {t : Token} (h : t.Plain) :
    ∃ c ∈ t.lexeme.chars, isBlank c = false := by
  have hword : ∀ {w : Word}, isPlainWord w.chars = true → ∃ c ∈ w.chars, isBlank c = false := by
    intro w hw
    obtain ⟨c, rest, hc, _, hcs | hcs⟩ := Lexer.exists_of_isPlainWord hw
    · exact ⟨c, by simp [hcs], not_isBlank_of_isIdentifierStart hc⟩
    · exact ⟨c, by simp [hcs], not_isBlank_of_isIdentifierStart hc⟩
  cases t with
  | mk gap lexeme role =>
    cases h.lexeme with
    | name plain => exact hword plain
    | keyword plain spelled => exact hword plain
    | @mark cs m listed =>
      have hcheck : (Lexer.plainMarks.all fun e => e.1.any fun c => !isBlank c) = true := by
        decide
      simpa [Lexeme.chars] using List.all_eq_true.mp hcheck _ listed
    | text nonempty plain => exact ⟨'"', by simp [Lexeme.chars], by decide⟩

/-- Code is not blank. -/
theorem not_isBlankText {c : Category} {s : String} {ts : List Token} (hc : c ≠ .compilationUnit)
    (h : Code c s.toList ts) : isBlankText s = false := by
  obtain ⟨t, rest, rfl⟩ := List.exists_cons_of_ne_nil (h.ne_nil hc)
  obtain ⟨d, hd, hblank⟩ := (h.spelt.plain t List.mem_cons_self).exists_not_isBlank
  refine Bool.eq_false_iff.mpr fun hall => ?_
  have hmem : d ∈ s.toList := by
    rw [← h.spelt.chars]
    simp [Token.chars, hd]
  rw [List.all_eq_true.mp hall d hmem] at hblank
  cases hblank

/-! ### Types -/

/-- The use of a type is written as these tokens. -/
structure TypeUse.Reads (c : Category) (t : TypeUse) (s : String) (ts : List Token) : Prop where
  text : Layout.typeText t = .ok s
  type : TypeText c s.toList ts

namespace TypeUse

theorem reads_plain {c : Category} (hc : c ≠ .compilationUnit) {n : Name} {ts : List Token}
    (h : TypeText c n.text.toList ts) : TypeUse.Reads c ⟨n, false⟩ n.text ts where
  text := by simp [Layout.typeText, not_isBlankText hc h.code]
  type := h

theorem reads_mock {n : Name} {ts : List Token} (h : TypeText .type n.text.toList ts) :
    TypeUse.Reads .plainType ⟨n, true⟩ ("Mock<" ++ n.text ++ ">")
      ([Token.name "Mock".toList, Token.mark .less] ++ ts ++ [Token.mark .greater]) where
  text := by simp [Layout.typeText, not_isBlankText (by decide) h.code]
  type := by simpa using h.mock

end TypeUse

/-! ### Roles -/

/-- Tokens as they stand in bodies. -/
def BodyTokens (ts : List Token) : Prop := ∀ t ∈ ts, isBodyRole t.role = true

namespace BodyTokens

variable {ts us : List Token} {t : Token}

theorem nil : BodyTokens [] := fun _ h => absurd h List.not_mem_nil

theorem cons (ht : isBodyRole t.role = true) (h : BodyTokens ts) : BodyTokens (t :: ts) :=
  List.forall_mem_cons.mpr ⟨ht, h⟩

theorem append (h : BodyTokens ts) (h' : BodyTokens us) : BodyTokens (ts ++ us) := by
  intro t ht
  rcases List.mem_append.mp ht with ht | ht
  · exact h t ht
  · exact h' t ht

theorem allBehind (h : BodyTokens ts) (blanks : List Char) :
    BodyTokens (Token.allBehind blanks ts) := by
  intro t ht
  obtain ⟨u, hu, hrole⟩ := Token.exists_of_mem_allBehind ht
  exact hrole ▸ h u hu

theorem of_type {c : Category} {cs : List Char} (h : TypeText c cs ts) : BodyTokens ts := by
  intro t ht
  have hrole := h.roles t ht
  generalize t.role = role at hrole
  cases role with
  | keyword k => exact decide_eq_true (Or.inl (of_decide_eq_true hrole))
  | mark m => exact decide_eq_true (Or.inl (of_decide_eq_true hrole))
  | identifier => rfl
  | _ => cases hrole

theorem role_name (cs : List Char) : isBodyRole (Token.name cs).role = true := by
  have hall : ∀ k ∈ Keyword.contextual, isBodyRole (.keyword k) = true := by decide
  unfold Token.name
  cases Keyword.ofChars? cs with
  | none => rfl
  | some k =>
    dsimp only
    split
    · rename_i hk
      exact hall k hk
    · rfl

theorem name (cs : List Char) : BodyTokens [Token.name cs] := .cons (role_name cs) .nil

end BodyTokens

/-! ### Expressions -/

/-- An expression is written as text that these tokens spell and a category is read from. -/
structure ExprCode (c : Category) (e : Expr) (s : String) (ts : List Token) : Prop where
  text : Layout.exprText e = .ok s
  code : Code c s.toList ts
  tokens : BodyTokens ts

namespace ExprCode

variable {c : Category} {e : Expr} {s : String} {ts : List Token}

theorem identifier {n : Name} (h : isPlainWord n.text.toList = true) :
    ExprCode .primary (.identifier n) n.text [Token.name n.text.toList] :=
  ⟨rfl, .primary_of_name h, .name _⟩

theorem widen (h : ExprCode .primary e s ts) : ExprCode .expression e s ts :=
  ⟨h.text, .expression_of_primary h.code, h.tokens⟩

theorem member {n : Name} {m : Name} (hn : isPlainWord n.text.toList = true)
    (hm : isPlainWord m.text.toList = true)
    (hnamed : (Token.name m.text.toList).Named (.mark .dot)) :
    ExprCode .primary (.member (.identifier n) m) (n.text ++ "." ++ m.text)
      [Token.name n.text.toList, Token.mark .dot, Token.name m.text.toList] where
  text := rfl
  code := by simpa using Code.primary_member hn hm hnamed
  tokens := .cons (BodyTokens.role_name _) (.cons (by decide) (.name _))

theorem default {t : TypeUse} (h : t.Reads .type s ts) :
    ExprCode .primary (.default t) ("default(" ++ s ++ ")")
      ([Token.keyword .default_, Token.mark .openParen] ++ ts ++ [Token.mark .closeParen]) where
  text := by
    simp only [Layout.exprText, h.text]
    rfl
  code := by simpa using Code.primary_default h.type
  tokens := (BodyTokens.append (.cons (by decide) (.cons (by decide) .nil)) (.of_type h.type)).append
    (.cons (by decide) .nil)

end ExprCode

/-! ### Arguments -/

/-- An argument in a list of arguments. -/
structure ArgumentCode (e : Expr) (a : List Char × List Token) : Prop where
  code : ∃ s, ExprCode .expression e s a.2 ∧ s.toList = a.1
  namedParen : ∀ t ∈ a.2.head?, t.Named (.mark .openParen)
  namedComma : ∀ t ∈ a.2.head?, t.Named (.mark .comma)

variable {es : List Expr} {as : List (List Char × List Token)}

theorem ArgumentCode.of_steady {e : Expr} {s : String} {ts : List Token}
    (h : ExprCode .expression e s ts) (hsteady : Steady ts) : ArgumentCode e (s.toList, ts) :=
  ⟨⟨s, h, rfl⟩, fun t ht => hsteady t ht _, fun t ht => hsteady t ht _⟩

theorem arguments_of (h : List.Forall₂ ArgumentCode es as) : Arguments as where
  each := forall_of_forall₂ h fun _ _ ha => by
    obtain ⟨s, hcode, hs⟩ := ha.code
    exact hs ▸ hcode.code
  namedParen := forall_of_forall₂ h fun _ _ ha => ha.namedParen
  namedComma := forall_of_forall₂ h fun _ _ ha => ha.namedComma

theorem argumentTexts_of (h : List.Forall₂ ArgumentCode es as) :
    ∃ s, Layout.argumentTexts es = .ok s ∧ s.toList = listChars as := by
  induction h with
  | nil => exact ⟨"", rfl, rfl⟩
  | @cons e a es as ha hrest ih =>
    obtain ⟨s, hcode, hs⟩ := ha.code
    cases hrest with
    | nil => exact ⟨s, by simpa [Layout.argumentTexts] using hcode.text, hs⟩
    | cons _ _ =>
      obtain ⟨rest, htext, hchars⟩ := ih
      refine ⟨s ++ ", " ++ rest, ?_, ?_⟩
      · simp only [Layout.argumentTexts, hcode.text, htext]
        rfl
      · simp [listChars, hs, hchars]

theorem BodyTokens.arguments (h : List.Forall₂ ArgumentCode es as) :
    BodyTokens (Arguments.tokens as) := by
  have hmore : ∀ {es : List Expr} {as : List (List Char × List Token)},
      List.Forall₂ ArgumentCode es as → BodyTokens (moreTokens as) := by
    intro es as h
    induction h with
    | nil => exact .nil
    | cons ha _ ih =>
      obtain ⟨s, hcode, _⟩ := ha.code
      exact .cons (by decide) ((hcode.tokens.allBehind _).append ih)
  refine BodyTokens.append (.append (.cons (by decide) .nil) ?_) (.cons (by decide) .nil)
  cases h with
  | nil => exact .nil
  | cons ha hrest =>
    obtain ⟨s, hcode, _⟩ := ha.code
    exact hcode.tokens.append (hmore hrest)

theorem ExprCode.call {e : Expr} {s : String} {ts : List Token} (h : ExprCode .primary e s ts)
    (has : List.Forall₂ ArgumentCode es as) :
    ∃ s', ExprCode .primary (.call e es) s' (ts ++ Arguments.tokens as) ∧
      s'.toList = s.toList ++ Arguments.chars as := by
  obtain ⟨list, hlist, hchars⟩ := argumentTexts_of has
  have htext : (s ++ "(" ++ list ++ ")").toList = s.toList ++ Arguments.chars as := by
    simp [Arguments.chars, hchars]
  refine ⟨s ++ "(" ++ list ++ ")", ⟨?_, ?_, h.tokens.append (.arguments has)⟩, htext⟩
  · simp only [Layout.exprText, h.text, hlist]
    rfl
  · exact htext ▸ Code.primary_call h.code (arguments_of has)

/-- A new object. -/
theorem ExprCode.create {t : TypeUse} {s : String} {ts : List Token} (h : t.Reads .plainType s ts)
    (has : List.Forall₂ ArgumentCode es as) :
    ∃ s', ExprCode .primary (.create t es) s'
      ([Token.keyword .new_] ++ Token.allBehind [' '] ts ++ Arguments.tokens as) := by
  obtain ⟨list, hlist, hchars⟩ := argumentTexts_of has
  refine ⟨"new " ++ s ++ "(" ++ list ++ ")", ?_, ?_, ?_⟩
  · simp only [Layout.exprText, h.text, hlist]
    rfl
  · have hcode := Code.primary_create h.type (arguments_of has)
    simpa [Arguments.chars, hchars] using hcode
  · exact (BodyTokens.append (.cons (by decide) .nil)
      ((BodyTokens.of_type h.type).allBehind _)).append (.arguments has)

/-- An awaited value. -/
theorem ExprCode.await {e : Expr} {s : String} {ts : List Token} (h : ExprCode .primary e s ts)
    (hsteady : Steady ts) :
    ExprCode .expression (.await e) ("await " ++ s)
      ([Token.keyword .await_] ++ Token.allBehind [' '] ts) where
  text := by
    simp only [Layout.exprText, h.text]
    rfl
  code := by
    have hunary : Code .unary s.toList ts := h.code.widen (by decide)
    simpa using Code.expression_of_unary (Code.unary_await hunary hsteady)
  tokens := .cons (by decide) (h.tokens.allBehind _)

/-! ### Statements -/

namespace StmtRow

variable {s : String} {ts : List Token}

/-- A statement with a semicolon behind tokens that may begin it. -/
theorem of_code {stmt : Stmt} (hcode : ∃ line, Layout.stmtText stmt = .ok line ∧
      Code .statement line.toList (ts ++ [Token.mark .semicolon])) (hne : ts ≠ [])
    (hnamed : ∀ t ∈ ts.head?, t.Named (.mark .openBrace) ∧ t.Named (.mark .semicolon))
    (htokens : BodyTokens ts) : StmtRow stmt (ts ++ [Token.mark .semicolon]) where
  code := hcode
  statement := ⟨⟨ts, rfl⟩, by rwa [List.head?_append_of_ne_nil _ hne]⟩
  roles := htokens.append (.cons (by decide) .nil)

/-- A call as a statement. -/
theorem call {e : Expr} (h : ExprCode .primary e s ts) (hsteady : Steady ts)
    (has : List.Forall₂ ArgumentCode es as) :
    StmtRow (.evaluate (.call e es)) (ts ++ Arguments.tokens as ++ [Token.mark .semicolon]) := by
  have hne := h.code.ne_nil (by decide)
  obtain ⟨s', hcall, hs'⟩ := h.call has
  refine of_code ⟨s' ++ ";", ?_, ?_⟩ (List.append_ne_nil_of_left_ne_nil hne _) ?_ hcall.tokens
  · simp only [Layout.stmtText, hcall.text]
    rfl
  · rw [String.toList_append, hs']
    exact Code.statement_call h.code (arguments_of has)
  · rw [List.head?_append_of_ne_nil _ hne]
    exact fun t ht => ⟨hsteady t ht _, hsteady t ht _⟩

/-- An awaited call as a statement. -/
theorem await {e : Expr} (h : ExprCode .primary e s ts) (hsteady : Steady ts) :
    StmtRow (.evaluate (.await e))
      ([Token.keyword .await_] ++ Token.allBehind [' '] ts ++ [Token.mark .semicolon]) := by
  have hunary : Code .unary s.toList ts := h.code.widen (by decide)
  refine of_code ⟨"await " ++ s ++ ";", ?_, ?_⟩ (List.cons_ne_nil _ _) ?_ ?_
  · simp only [Layout.stmtText, Layout.exprText, h.text]
    rfl
  · simpa using Code.statement_await hunary hsteady
  · intro t ht
    cases ht
    exact ⟨Token.steady_keyword _ _ rfl _, Token.steady_keyword _ _ rfl _⟩
  · exact .cons (by decide) (h.tokens.allBehind _)

/-- A value is assigned to a field. -/
theorem assign {n : Name} {e : Expr} (hn : IsName n.text.toList) (h : ExprCode .expression e s ts)
    (hsteady : Steady ts) :
    StmtRow (.evaluate (.assign (.identifier n) e))
      ([Token.name n.text.toList] ++ [(Token.mark .assign).behind [' ']] ++
        Token.allBehind [' '] ts ++ [Token.mark .semicolon]) := by
  refine of_code ⟨n.text ++ " = " ++ s ++ ";", ?_, ?_⟩ (List.cons_ne_nil _ _) ?_ ?_
  · simp only [Layout.stmtText, Layout.exprText, h.text]
    rfl
  · simpa using Code.statement_assign hn.plain h.code hsteady
  · intro t ht
    cases ht
    exact ⟨hn.steady _ rfl _, hn.steady _ rfl _⟩
  · exact .cons (BodyTokens.role_name _) (.cons (by decide) (h.tokens.allBehind _))

/-- A local with a value. -/
theorem declare {t : TypeUse} {type : String} {us : List Token} {n : Name} {e : Expr}
    (ht : t.Reads .type type us) (hidentifier : Layout.isIdentifier n.text.toList = true)
    (hplain : isPlainWord n.text.toList = true)
    (hnamed : ∀ a ∈ us.getLast?, (Token.name n.text.toList).Named a.role)
    (h : ExprCode .expression e s ts) (hsteady : Steady ts) :
    StmtRow (.declare t n e) (us ++ [(Token.name n.text.toList).behind [' ']] ++
      [(Token.mark .assign).behind [' ']] ++ Token.allBehind [' '] ts ++
        [Token.mark .semicolon]) := by
  have hne := ht.type.phrase.ne_nil (by decide)
  refine of_code ⟨type ++ " " ++ n.text ++ " = " ++ s ++ ";", ?_, ?_⟩ ?_ ?_ ?_
  · simp only [Layout.stmtText, Layout.checkName, hidentifier, ht.text, h.text]
    rfl
  · simpa using Code.statement_declare ht.type hplain hnamed h.code hsteady
  · simp
  · intro v hv
    have hhead : v ∈ us.head? := by
      rwa [List.append_assoc, List.append_assoc, List.head?_append_of_ne_nil _ hne] at hv
    exact ⟨ht.type.named v hhead _ (by decide), ht.type.named v hhead _ (by decide)⟩
  · have hname : BodyTokens [(Token.name n.text.toList).behind [' ']] :=
      .cons (BodyTokens.role_name _) .nil
    exact (((BodyTokens.of_type ht.type).append hname).append (.cons (by decide) .nil)).append
      (h.tokens.allBehind _)

end StmtRow

/-- A field. -/
theorem FieldRow.of_reads {f : Field} {type : String} {ts : List Token}
    (ht : f.type.Reads .type type ts) (hname : f.name.Legible) :
    FieldRow f ([Token.keyword .private_] ++ Token.allBehind [' '] ts ++
      [(Token.name f.name.text.toList).behind [' ']] ++ [Token.mark .semicolon]) where
  code := by
    have hcode := Code.field ht.type hname.name.plain hname.name.noKeyword
    refine ⟨"private " ++ type ++ " " ++ f.name.text ++ ";", ?_, by simpa using hcode⟩
    simp only [Layout.fieldLine, Layout.checkName, hname.identifier, ht.text]
    rfl
  steady := fun t ht a => by cases ht; exact Token.steady_keyword _ _ rfl a
  roles := by
    have htype := (BodyTokens.of_type ht.type).allBehind [' ']
    have hname : BodyTokens [(Token.name f.name.text.toList).behind [' ']] :=
      .cons (BodyTokens.role_name _) .nil
    exact ((BodyTokens.append (.cons (by decide) .nil) htype).append hname).append
      (.cons (by decide) .nil)
  ends := ⟨[Token.keyword .private_] ++ Token.allBehind [' '] ts, by simp⟩

end TestScaffold
