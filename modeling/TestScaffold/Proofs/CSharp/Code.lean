/-
  TestScaffold/Proofs/CSharp/Code.lean
  ====================================
  **The expressions and statements of generated code are read as such.**

  A piece of code is text that spells tokens which a category can be read from.
  Names and types come from outside; the lemmas of this file say what is put
  around them.
-/
import TestScaffold.Proofs.CSharp.Spelling

namespace TestScaffold.CSharp

open TestScaffold.Text
open Grammar

/-! ### Pieces of code -/

/-- The signs that may follow a piece of code. -/
def closingSigns : List Mark := [.openParen, .closeParen, .comma, .semicolon, .greater]

theorem Token.role_name (cs : List Char) :
    (Token.name cs).role = .identifier ∨ ∃ k, (Token.name cs).role = .keyword k := by
  unfold Token.name
  cases Keyword.ofChars? cs with
  | none => exact Or.inl rfl
  | some k =>
    dsimp only
    split
    · exact Or.inr ⟨k, rfl⟩
    · exact Or.inl rfl

/-- A name right behind a point. -/
theorem Spelt.point {cs q r : List Char} {t : List Token} (h : Spelt cs (t ++ [Token.name r]))
    (hq : isPlainWord q = true) (hnamed : (Token.name q).Named (.mark .dot)) :
    Spelt (cs ++ '.' :: q) (t ++ [Token.name r] ++ [Token.mark .dot, Token.name q]) := by
  have hdot := h.sign (m := .dot) (by simp) (by decide) fun a ha d hd => by
    rw [List.getLast?_concat] at ha
    cases ha
    cases hd
    rcases Token.role_name r with h | ⟨k, h⟩ <;> simp [Token.endsBefore, h] <;> decide
  have hname := hdot.join (by simp) (.name hq) (List.cons_ne_nil _ _) fun a ha b hb => by
    rw [List.getLast?_concat] at ha
    cases ha
    cases hb
    refine Token.before_of_mark rfl (Token.plain_mark (by decide)) (Token.plain_name hq) rfl ?_
      hnamed
    rcases Token.role_name q with h | ⟨k, h⟩ <;> simp [Token.isWordOrParen, h]
  simpa [show Mark.chars .dot = ['.'] by decide] using hname

/-- The last token ends where a closing sign follows. -/
def Ends (ts : List Token) : Prop :=
  ∀ a ∈ ts.getLast?, ∀ m ∈ closingSigns, ∀ d ∈ m.chars.head?, a.endsBefore d = true

/-- Text that can be read as the category, and that ends wherever a closing sign follows. -/
structure Code (c : Category) (cs : List Char) (ts : List Token) : Prop where
  spelt : Spelt cs ts
  phrase : Phrase c ts
  ends : Ends ts

/-- The first token is read in its role behind any token. -/
def Steady (ts : List Token) : Prop := ∀ t ∈ ts.head?, ∀ a, t.Named a

/-- A word ends before any sign. -/
theorem Token.endsBefore_of_word {t : Token} (h : t.role = .identifier ∨ ∃ k, t.role = .keyword k)
    {m : Mark} (hm : m ∈ closingSigns) : ∀ d ∈ m.chars.head?, t.endsBefore d = true := by
  have hall : ∀ m ∈ closingSigns, (m.chars.head?.all fun d =>
      !isIdentifierPart d && d != '\\') = true := by decide
  intro d hd
  have hone := hall m hm
  rw [Option.mem_def] at hd
  rw [hd] at hone
  rcases h with h | ⟨k, h⟩
  · simpa [Token.endsBefore, h] using hone
  · simpa [Token.endsBefore, h] using hone

/-- A mark that nothing makes longer ends before any sign. -/
theorem Token.endsBefore_of_mark {m' : Mark} (hm' : m' ∈ Token.shutMarks) {m : Mark}
    (hm : m ∈ closingSigns) : ∀ d ∈ m.chars.head?, (Token.mark m').endsBefore d = true := by
  have hall : ∀ m' ∈ Token.shutMarks, ∀ m ∈ closingSigns, (m.chars.head?.all fun d =>
      (Token.mark m').endsBefore d) = true := by decide
  intro d hd
  have hone := hall m' hm' m hm
  rw [Option.mem_def] at hd
  rwa [hd] at hone

namespace Ends

variable {ts us : List Token}

theorem append {t : List Token} (h : Ends us) (hne : us ≠ []) : Ends (t ++ us) := by
  intro a ha
  rw [List.getLast?_append_of_ne_nil _ hne] at ha
  exact h a ha

theorem allBehind (h : Ends ts) (blanks : List Char) : Ends (Token.allBehind blanks ts) := by
  intro a ha m hm d hd
  obtain ⟨u, hu, hlexeme, hrole⟩ := Spelt.mem_getLast?_allBehind ha
  have hends := h u hu m hm d hd
  rwa [Token.endsBefore, ← hlexeme, ← hrole] at hends

theorem word {t : Token} (h : t.role = .identifier ∨ ∃ k, t.role = .keyword k) : Ends [t] := by
  intro a ha m hm
  cases ha
  exact Token.endsBefore_of_word h hm

theorem shut {m : Mark} (hm : m ∈ Token.shutMarks) : Ends (ts ++ [Token.mark m]) := by
  intro a ha m' hm'
  rw [List.getLast?_concat] at ha
  cases ha
  exact Token.endsBefore_of_mark hm hm'

end Ends

namespace Code

variable {c d : Category} {cs ds : List Char} {ts us : List Token}

theorem ne_nil (h : Code c cs ts) (hc : c ≠ .compilationUnit) : ts ≠ [] := h.phrase.ne_nil hc

/-- A category that another one may stand for. -/
theorem widen (hrule : [Grammar.c d] ∈ rules c) (h : Code d cs ts) : Code c cs ts :=
  ⟨h.spelt, .of_category hrule h.phrase, h.ends⟩

theorem name (h : isPlainWord cs = true) : Code .identifier cs [Token.name cs] where
  spelt := .name h
  phrase := Token.phrase_name cs
  ends := .word (Token.role_name cs)

end Code

/-! ### Types -/

/-- The marks that types are written with. -/
def typeMarks : List Mark :=
  [.dot, .comma, .less, .greater, .question, .times, .openBracket, .closeBracket, .openParen,
    .closeParen, .doubleColon]

/-- The keywords that types are written with. -/
def typeKeywords : List Keyword :=
  [.bool_, .byte_, .char_, .decimal_, .double_, .float_, .int_, .long_, .object_, .sbyte_, .short_,
    .string_, .uint_, .ulong_, .ushort_, .nint_, .nuint_, .void_, .delegate_, .managed_, .ref_,
    .readonly_, .in_, .out_] ++ Keyword.contextual

/-- How the tokens of a type are read: as names, or as the marks and keywords of types. -/
def isTypeRole : Terminal → Bool
  | .identifier => true
  | .keyword k => k ∈ typeKeywords
  | .mark m => m ∈ typeMarks
  | _ => false

/-- What a type may stand behind in generated code. -/
def typeLeads : List Terminal :=
  [.keyword .private_, .keyword .new_, .mark .openParen, .mark .less, .mark .openBrace,
    .mark .semicolon]

/-- Text that is a type by itself, and stays one where generated code has a type. -/
structure TypeText (c : Category) (cs : List Char) (ts : List Token) : Prop where
  spelt : Spelt cs ts
  phrase : Phrase c ts
  roles : ∀ t ∈ ts, isTypeRole t.role = true
  named : ∀ t ∈ ts.head?, ∀ a ∈ typeLeads, t.Named a

namespace TypeText

variable {c : Category} {cs : List Char} {ts : List Token}

theorem code (h : TypeText c cs ts) : Code c cs ts where
  spelt := h.spelt
  phrase := h.phrase
  ends := by
    intro a ha m hm d hd
    have hplain := h.spelt.plain a (List.mem_of_getLast? ha)
    have hrole := h.roles a (List.mem_of_getLast? ha)
    cases a with
    | mk gap lexeme role =>
      cases hplain.lexeme with
      | name plain => exact Token.endsBefore_of_word (Or.inl rfl) hm d hd
      | keyword plain spelled => exact Token.endsBefore_of_word (Or.inr ⟨_, rfl⟩) hm d hd
      | @mark cs m' listed =>
        have hall : ∀ e ∈ Lexer.plainMarks, e.2 ∈ typeMarks → ∀ m ∈ closingSigns,
            (m.chars.head?.all fun d => !Lexer.extends_ e.1 d && !isAsciiDigit d) = true := by
          decide
        have hone := hall _ listed (of_decide_eq_true hrole) m hm
        rw [Option.mem_def] at hd
        rw [hd] at hone
        exact hone
      | text nonempty plain => cases hrole

/-- A name is a type. -/
theorem plainType_of_name (h : Phrase .name ts) : Phrase .plainType ts := by
  have hsimple : Phrase .simpleType ts := .of_category (d := .name) (by decide) h
  refine .of_rule List.mem_cons_self ?_
  have hparses := Parses.category hsimple (Parses.skip_many (s := .category .typeSuffix) Parses.nil)
  rwa [List.append_nil] at hparses

/-- A type begins with a word or with a parenthesis. -/
theorem isWordOrParen_head (h : Phrase .type ts) : ∀ t ∈ ts.head?, t.isWordOrParen = true := by
  intro t ht
  cases ts with
  | nil => cases ht
  | cons u us =>
    cases ht
    have hmem := h.role_mem (.mark .openParen :: .identifier :: typeKeywords.map .keyword)
      (by decide)
    unfold Token.isWordOrParen
    rcases List.mem_cons.mp hmem with hrole | hmem
    · rw [hrole]
    · rcases List.mem_cons.mp hmem with hrole | hmem
      · rw [hrole]
      · obtain ⟨k, _, hk⟩ := List.mem_map.mp hmem
        rw [← hk]

/-- The mock of a type is a type: `Mock` before the type in angle brackets. -/
theorem mock (h : TypeText .type cs ts) :
    TypeText .plainType ("Mock<".toList ++ cs ++ ['>'])
      ([Token.name "Mock".toList, Token.mark .less] ++ ts ++ [Token.mark .greater]) where
  spelt := by
    have hne := h.phrase.ne_nil (by decide)
    have hname : Spelt "Mock".toList [Token.name "Mock".toList] := .name (by decide)
    have hless := hname.sign_of_all (m := .less) (List.cons_ne_nil _ _) (by decide)
      (by decide)
    refine Spelt.sign (m := .greater) (hless.join (List.cons_ne_nil _ _) h.spelt hne ?_)
      (by simp) (by decide) ?_
    · intro a ha b hb
      cases ha
      exact Token.before_of_mark rfl (Token.plain_mark (by decide))
        (h.spelt.plain b (List.mem_of_mem_head? hb)) (h.spelt.flush b hb)
        (isWordOrParen_head h.phrase b hb) (h.named b hb _ (by decide))
    · intro a ha
      rw [List.getLast?_append_of_ne_nil _ hne] at ha
      exact h.code.ends a ha _ (by decide)
  phrase := by
    have harguments : Phrase .typeArguments ([Token.mark .less] ++ ts ++ [Token.mark .greater]) :=
      .of_rule (List.mem_cons_of_mem _ List.mem_cons_self) (Parses.token rfl (Parses.take_list
        (Parses.category h.phrase (Parses.skip_more (Parses.token rfl Parses.nil)))))
    have hsimple : Phrase .simpleName
        (Token.name "Mock".toList :: ([Token.mark .less] ++ ts ++ [Token.mark .greater])) :=
      .of_rule (List.mem_cons_of_mem _ List.mem_cons_self)
        (Parses.category (Token.phrase_name _) (Parses.last harguments))
    exact plainType_of_name (.of_category (d := .simpleName) (by decide) hsimple)
  roles := by
    intro t ht
    simp only [List.mem_append, List.mem_cons, List.not_mem_nil, or_false] at ht
    rcases ht with ((ht | ht) | ht) | ht
    · rw [ht]
      decide
    · rw [ht]
      decide
    · exact h.roles t ht
    · rw [ht]
      decide
  named := by
    intro t ht a _
    cases ht
    exact Token.named_name (by decide) fun k hk => by
      rw [show Keyword.ofChars? "Mock".toList = none by decide] at hk
      cases hk

theorem widen (h : TypeText .plainType cs ts) : TypeText .type cs ts :=
  ⟨h.spelt, .of_category (by decide) h.phrase, h.roles, h.named⟩

end TypeText

/-! ### Expressions -/

theorem Token.steady_of_role {t : Token} (h : t.role ≠ .identifier) : Steady [t] :=
  fun _ ht _ => by cases ht; exact Token.named_of_role h _

/-- A name that no keyword is spelled like is a name everywhere. -/
theorem Token.steady_name {cs : List Char} (hcs : isPlainWord cs = true)
    (h : Keyword.ofChars? cs = none) : Steady [Token.name cs] := by
  intro t ht a
  cases ht
  exact Token.named_name hcs fun k hk => by rw [h] at hk; cases hk

theorem Steady.append {ts u : List Token} (h : Steady ts) (hts : ts ≠ []) : Steady (ts ++ u) := by
  cases ts with
  | nil => exact absurd rfl hts
  | cons t ts => exact h

namespace Code

variable {c : Category} {cs ds : List Char} {ts us : List Token}

/-- The spelling of code with a sign right behind it. -/
theorem sign (h : Code c cs ts) (hc : c ≠ .compilationUnit) {m : Mark} (hm : m ∈ closingSigns) :
    Spelt (cs ++ m.chars) (ts ++ [Token.mark m]) := by
  have hodd : ∀ m ∈ closingSigns, m ∉ oddMarks := by decide
  exact h.spelt.sign (h.ne_nil hc) (hodd m hm) fun a ha => h.ends a ha m hm

theorem primary_of_name (h : isPlainWord cs = true) : Code .primary cs [Token.name cs] := by
  refine widen (d := .atom) (by decide) (widen (d := .simpleName) (by decide) ?_)
  exact (name h).widen (by decide)

theorem expression_of_unary (h : Code .unary cs ts) : Code .expression cs ts :=
  widen (d := .chain) (by decide) (widen (d := .operand) (by decide) (h.widen (by decide)))

theorem expression_of_primary (h : Code .primary cs ts) : Code .expression cs ts :=
  expression_of_unary (h.widen (by decide))

/-- A literal is a primary expression. -/
theorem primary_of_literal (h : Code .literal cs ts) : Code .primary cs ts :=
  widen (d := .atom) (by decide) (h.widen (by decide))

theorem literal_false : Code .literal "false".toList [Token.keyword .false_] where
  spelt := .keyword .false_
  phrase := .of_rule (r := [Grammar.k .false_]) (by decide) (Parses.token rfl .nil)
  ends := .word (Or.inr ⟨_, rfl⟩)

theorem literal_text {b : List Char} (hne : b ≠ [])
    (hbody : ∀ c ∈ b, Lexer.isPlainText c = true) :
    Code .literal ('"' :: b ++ ['"']) [Token.text b] where
  spelt := .single (Token.plain_text hne hbody) rfl (Token.text_chars b)
  phrase := .of_rule (r := [Grammar.t .stringLiteral]) (by decide) (Parses.token rfl .nil)
  ends := by
    intro a ha m hm d hd
    cases ha
    have hall : ∀ m ∈ closingSigns, (m.chars.head?.all fun d => d != 'u' && d != 'U') = true := by
      decide
    have hone := hall m hm
    rw [Option.mem_def] at hd
    rw [hd] at hone
    exact hone

/-- The default value of a type. -/
theorem primary_default (h : TypeText .type cs ts) :
    Code .primary ("default(".toList ++ cs ++ [')'])
      ([Token.keyword .default_, Token.mark .openParen] ++ ts ++ [Token.mark .closeParen]) := by
  have hne := h.phrase.ne_nil (by decide)
  have hopen : Spelt "default(".toList ([Token.keyword .default_] ++ [Token.mark .openParen]) :=
    (Spelt.keyword .default_).sign_of_all (m := .openParen) (List.cons_ne_nil _ _) (by decide)
      (by decide)
  refine widen (d := .atom) (by decide) (widen (d := .typeOperator) (by decide) ⟨?_, ?_, ?_⟩)
  · have hinner := hopen.after_shut (by decide) h.spelt hne fun b hb => h.named b hb _ (by decide)
    refine hinner.sign (m := .closeParen) (by simp) (by decide) ?_
    intro a ha
    rw [List.getLast?_append_of_ne_nil _ hne] at ha
    exact h.code.ends a ha _ (by decide)
  · refine .of_rule (r := Grammar.k .default_ :: Grammar.parens [Grammar.c .type]) (by decide) ?_
    exact Parses.token rfl (Parses.token rfl (Parses.category h.phrase (Parses.token rfl .nil)))
  · exact .shut (by decide)

/-- A member of a named object. -/
theorem primary_member (hcs : isPlainWord cs = true) (hds : isPlainWord ds = true)
    (hnamed : (Token.name ds).Named (.mark .dot)) :
    Code .primary (cs ++ '.' :: ds) [Token.name cs, Token.mark .dot, Token.name ds] where
  spelt := Spelt.point (t := []) (.name hcs) hds hnamed
  phrase := by
    have hsuffix : Phrase .primarySuffix [Token.mark .dot, Token.name ds] :=
      .of_rule (r := [Grammar.m .dot, Grammar.c .simpleName]) (by decide)
        (Parses.token rfl (Parses.last (.of_category (d := .identifier) (by decide)
          (Token.phrase_name ds))))
    exact .of_rule (r := [Grammar.c .primary, Grammar.c .primarySuffix]) (by decide)
      (Parses.category (primary_of_name hcs).phrase (Parses.last hsuffix))
  ends := Ends.append (t := [_, _]) (.word (Token.role_name ds)) (List.cons_ne_nil _ _)

end Code

/-! ### Arguments -/

/-- Texts with commas between them. -/
def listChars : List (List Char × List Token) → List Char
  | [] => []
  | [a] => a.1
  | a :: b :: rest => a.1 ++ ',' :: ' ' :: listChars (b :: rest)

/-- Further tokens of a list, each behind a comma. -/
def moreTokens : List (List Char × List Token) → List Token
  | [] => []
  | a :: rest => Token.mark .comma :: (Token.allBehind [' '] a.2 ++ moreTokens rest)

/-- The tokens of texts with commas between them. -/
def listTokens : List (List Char × List Token) → List Token
  | [] => []
  | a :: rest => a.2 ++ moreTokens rest

/-- Texts that may stand in parentheses with commas between them. -/
structure Arguments (as : List (List Char × List Token)) : Prop where
  each : ∀ a ∈ as, Code .expression a.1 a.2
  namedParen : ∀ a ∈ as, ∀ t ∈ a.2.head?, t.Named (.mark .openParen)
  namedComma : ∀ a ∈ as, ∀ t ∈ a.2.head?, t.Named (.mark .comma)

namespace Arguments

variable {a : List Char × List Token} {as : List (List Char × List Token)}

theorem tail (h : Arguments (a :: as)) : Arguments as where
  each := fun b hb => h.each b (List.mem_cons_of_mem _ hb)
  namedParen := fun b hb => h.namedParen b (List.mem_cons_of_mem _ hb)
  namedComma := fun b hb => h.namedComma b (List.mem_cons_of_mem _ hb)

theorem head_listTokens (h : Arguments (a :: as)) :
    (listTokens (a :: as)).head? = a.2.head? := by
  have hne := (h.each a List.mem_cons_self).ne_nil (by decide)
  exact List.head?_append_of_ne_nil _ hne

/-- The texts of a list, spelled with their commas. -/
theorem spelt (h : Arguments (a :: as)) :
    Spelt (listChars (a :: as)) (listTokens (a :: as)) ∧ Ends (listTokens (a :: as)) := by
  induction as generalizing a with
  | nil =>
    have hcode := h.each a List.mem_cons_self
    simp only [listChars, listTokens, moreTokens, List.append_nil]
    exact ⟨hcode.spelt, hcode.ends⟩
  | cons b bs ih =>
    have hcode := h.each a List.mem_cons_self
    have hne := hcode.ne_nil (by decide)
    have hb := (h.tail.each b List.mem_cons_self).ne_nil (by decide)
    obtain ⟨hrest, hends⟩ := ih h.tail
    have hrestne : listTokens (b :: bs) ≠ [] := List.append_ne_nil_of_left_ne_nil hb _
    have hcomma := hcode.sign (m := .comma) (by decide) (by decide)
    have hall := hcomma.blank (by simp) hrest hrestne ?_
    · have htokens : listTokens (a :: b :: bs) =
          a.2 ++ [Token.mark .comma] ++ Token.allBehind [' '] (listTokens (b :: bs)) := by
        cases hbs : b.2 with
        | nil => exact absurd hbs hb
        | cons t ts => simp [listTokens, moreTokens, Token.allBehind, hbs]
      have hchars : listChars (a :: b :: bs) =
          a.1 ++ Mark.chars .comma ++ ' ' :: listChars (b :: bs) := by
        simp [listChars, show Mark.chars .comma = [','] by decide]
      rw [htokens, hchars]
      exact ⟨hall, (hends.allBehind [' ']).append (Token.allBehind_ne_nil hrestne)⟩
    · intro x hx y hy
      rw [List.getLast?_concat] at hx
      cases hx
      rw [h.tail.head_listTokens] at hy
      exact h.tail.namedComma b List.mem_cons_self y hy

/-- The text of arguments in parentheses. -/
def chars (as : List (List Char × List Token)) : List Char := '(' :: listChars as ++ [')']

/-- The tokens of arguments in parentheses. -/
def tokens (as : List (List Char × List Token)) : List Token :=
  [Token.mark .openParen] ++ listTokens as ++ [Token.mark .closeParen]

theorem code (h : Arguments as) : Code .argumentList (chars as) (tokens as) where
  spelt := by
    have hopen : Spelt ['('] ([] ++ [Token.mark .openParen]) :=
      Spelt.mark (m := .openParen) (by decide)
    cases as with
    | nil => exact hopen.sign_of_all (m := .closeParen) (by simp) (by decide) (by decide)
    | cons a as =>
      have hne : listTokens (a :: as) ≠ [] :=
        List.append_ne_nil_of_left_ne_nil ((h.each a List.mem_cons_self).ne_nil (by decide)) _
      obtain ⟨hspelt, hends⟩ := h.spelt
      have hinner := hopen.after_shut (by decide) hspelt hne fun b hb => by
        rw [h.head_listTokens] at hb
        exact h.namedParen a List.mem_cons_self b hb
      exact hinner.sign (m := .closeParen) (by simp) (by decide) fun t ht =>
        hends.append hne t ht _ (by decide)
  phrase := by
    have hargument : ∀ a ∈ as, Phrase .argument a.2 := fun a ha =>
      .of_category (d := .argumentValue) (by decide)
        (.of_category (d := .expression) (by decide) (h.each a ha).phrase)
    have hmore : ∀ as : List (List Char × List Token), (∀ a ∈ as, Phrase .argument a.2) →
        Parses [.more (.category .argument), Grammar.m .closeParen]
          (moreTokens as ++ [Token.mark .closeParen]) := by
      intro as
      induction as with
      | nil => exact fun _ => Parses.skip_more (Parses.token rfl .nil)
      | cons a as ih =>
        intro hall
        rw [moreTokens, List.cons_append, List.append_assoc]
        exact Parses.take_more rfl (Parses.category ((hall a List.mem_cons_self).allBehind _)
          (ih fun b hb => hall b (List.mem_cons_of_mem _ hb)))
    refine .of_rule (r := Grammar.parens [Grammar.anyList .argument]) (by decide) ?_
    cases as with
    | nil => exact Parses.token rfl (Parses.skip_anyList (Parses.token rfl .nil))
    | cons a as =>
      change Parses _ (Token.mark .openParen ::
        ((a.2 ++ moreTokens as) ++ [Token.mark .closeParen]))
      rw [List.append_assoc]
      exact Parses.token rfl (Parses.take_anyList
        (Parses.category (hargument a List.mem_cons_self)
          (hmore as fun b hb => hargument b (List.mem_cons_of_mem _ hb))))
  ends := .shut (by decide)

end Arguments

namespace Code

variable {cs ds : List Char} {ts us : List Token} {as : List (List Char × List Token)}

/-- The spelling of a callee with its arguments. -/
theorem spelt_call {c : Category} (hc : c ≠ .compilationUnit) (h : Code c cs ts)
    (has : Arguments as) : Spelt (cs ++ Arguments.chars as) (ts ++ Arguments.tokens as) := by
  refine h.spelt.join (h.ne_nil hc) has.code.spelt (by simp [Arguments.tokens]) ?_
  intro a ha b hb
  cases hb
  refine ⟨?_, Token.named_of_role (fun e => by cases e) _⟩
  rw [Token.mark_chars]
  exact h.ends a ha _ (by decide)

theorem primary_call (h : Code .primary cs ts) (has : Arguments as) :
    Code .primary (cs ++ Arguments.chars as) (ts ++ Arguments.tokens as) where
  spelt := spelt_call (by decide) h has
  phrase := .of_rule (r := [Grammar.c .primary, Grammar.c .primarySuffix]) (by decide)
    (Parses.category h.phrase (Parses.last
      (.of_category (d := .argumentList) (by decide) has.code.phrase)))
  ends := has.code.ends.append (by simp [Arguments.tokens])

/-- A new object of a type. -/
theorem primary_create (h : TypeText .plainType cs ts) (has : Arguments as) :
    Code .primary ("new ".toList ++ cs ++ Arguments.chars as)
      ([Token.keyword .new_] ++ Token.allBehind [' '] ts ++ Arguments.tokens as) := by
  have hne := h.phrase.ne_nil (by decide)
  refine widen (d := .atom) (by decide) (widen (d := .objectCreation) (by decide) ⟨?_, ?_, ?_⟩)
  · have hnew := (Spelt.keyword .new_).blank (List.cons_ne_nil _ _) h.spelt hne fun a ha b hb => by
      cases ha
      exact h.named b hb _ (by decide)
    have hall := hnew.join (by simp) has.code.spelt (by simp [Arguments.tokens]) ?_
    · simpa [show Keyword.chars .new_ = "new".toList by decide] using hall
    · intro a ha b hb
      cases hb
      refine ⟨?_, Token.named_of_role (fun e => by cases e) _⟩
      rw [Token.mark_chars]
      exact (h.code.ends.allBehind [' ']).append (Token.allBehind_ne_nil hne) a ha _ (by decide)
  · refine .of_rule (r := [Grammar.k .new_, Grammar.c .plainType, Grammar.opt .argumentList,
      Grammar.opt .initializerExpression]) (by decide) ?_
    have harguments : Parses [Grammar.opt .argumentList, Grammar.opt .initializerExpression]
        (Arguments.tokens as) :=
      List.append_nil (Arguments.tokens as) ▸
        Parses.take_opt (Parses.category has.code.phrase (Parses.skip_opt .nil))
    exact Parses.token rfl (Parses.category (h.phrase.allBehind _) harguments)
  · exact has.code.ends.append (by simp [Arguments.tokens])

/-- An awaited call. -/
theorem unary_await (h : Code .unary cs ts) (hsteady : Steady ts) :
    Code .unary ("await ".toList ++ cs) ([Token.keyword .await_] ++ Token.allBehind [' '] ts) where
  spelt := by
    have hall := (Spelt.keyword .await_).blank (List.cons_ne_nil _ _) h.spelt
      (h.ne_nil (by decide)) fun a _ b hb => hsteady b hb _
    simpa [show Keyword.chars .await_ = "await".toList by decide] using hall
  phrase := .of_rule (r := [Grammar.k .await_, Grammar.c .unary]) (by decide)
    (Parses.token rfl (Parses.last (h.phrase.allBehind _)))
  ends := (h.ends.allBehind [' ']).append (Token.allBehind_ne_nil (h.ne_nil (by decide)))

/-! ### Statements -/

/-- A value behind a name and an equals sign, spelled. -/
theorem spelt_initialized (h : Spelt cs ts) (hts : ts ≠ []) (hv : Code .expression ds us)
    (hsteady : Steady us) :
    Spelt (cs ++ " = ".toList ++ ds)
      (ts ++ [(Token.mark .assign).behind [' ']] ++ Token.allBehind [' '] us) := by
  have hsign := h.blank hts (Spelt.mark (m := .assign) (by decide)) (List.cons_ne_nil _ _)
    fun a _ b hb => by cases hb; exact Token.named_of_role (fun e => by cases e) _
  have hall := hsign.blank (by simp) hv.spelt (hv.ne_nil (by decide)) fun a _ b hb => hsteady b hb _
  simpa [show Mark.chars .assign = ['='] by decide] using hall

/-- Text that a semicolon ends. -/
theorem of_expressionStatement (hspelt : Spelt cs ts) (hends : Ends ts)
    (hparses : Phrase .statementExpression ts) :
    Code .statement (cs ++ [';']) (ts ++ [Token.mark .semicolon]) := by
  have hne := hparses.ne_nil (by decide)
  refine widen (d := .expressionStatement) (by decide) ⟨?_, ?_, .shut (by decide)⟩
  · exact hspelt.sign (m := .semicolon) hne (by decide) fun a ha => hends a ha _ (by decide)
  · exact .of_rule List.mem_cons_self (Parses.category hparses (Parses.token rfl .nil))

/-- A value is assigned to a name. -/
theorem statement_assign (hcs : isPlainWord cs = true) (h : Code .expression ds us)
    (hsteady : Steady us) :
    Code .statement (cs ++ " = ".toList ++ ds ++ [';'])
      ([Token.name cs] ++ [(Token.mark .assign).behind [' ']] ++ Token.allBehind [' '] us ++
        [Token.mark .semicolon]) := by
  refine of_expressionStatement (spelt_initialized (.name hcs) (List.cons_ne_nil _ _) h hsteady)
    ((h.ends.allBehind _).append (Token.allBehind_ne_nil (h.ne_nil (by decide)))) ?_
  refine .of_category (d := .assignment) (by decide) (.of_rule List.mem_cons_self ?_)
  have hname : Phrase .assignable [Token.name cs] :=
    .of_category (d := .simpleName) (by decide)
      (.of_category (d := .identifier) (by decide) (Token.phrase_name cs))
  have hsign : Phrase .assignSign [(Token.mark .assign).behind [' ']] :=
    .of_rule (r := [Grammar.m .assign]) (by decide) (Parses.token rfl .nil)
  have hvalue : Phrase .assignedValue (Token.allBehind [' '] us) :=
    .of_category (d := .expression) (by decide) (h.phrase.allBehind _)
  rw [List.append_assoc]
  exact Parses.category hname (Parses.category hsign (Parses.last hvalue))

theorem statement_call (h : Code .primary cs ts) (has : Arguments as) :
    Code .statement (cs ++ Arguments.chars as ++ [';'])
      (ts ++ Arguments.tokens as ++ [Token.mark .semicolon]) := by
  refine of_expressionStatement (spelt_call (by decide) h has)
    (has.code.ends.append (by simp [Arguments.tokens])) ?_
  exact .of_rule (r := [Grammar.c .primary, Grammar.c .argumentList]) (by decide)
    (Parses.category h.phrase (Parses.last has.code.phrase))

theorem statement_await (h : Code .unary cs ts) (hsteady : Steady ts) :
    Code .statement ("await ".toList ++ cs ++ [';'])
      ([Token.keyword .await_] ++ Token.allBehind [' '] ts ++ [Token.mark .semicolon]) := by
  refine of_expressionStatement (unary_await h hsteady).spelt (unary_await h hsteady).ends ?_
  exact .of_rule (r := [Grammar.k .await_, Grammar.c .unary]) (by decide)
    (Parses.token rfl (Parses.last (h.phrase.allBehind _)))

/-- A local variable with a type and a value. -/
theorem statement_declare {type : List Char} (h : TypeText .type type ts)
    (hcs : isPlainWord cs = true) (hnamed : ∀ a ∈ ts.getLast?, (Token.name cs).Named a.role)
    (hv : Code .expression ds us) (hsteady : Steady us) :
    Code .statement (type ++ ' ' :: cs ++ " = ".toList ++ ds ++ [';'])
      (ts ++ [(Token.name cs).behind [' ']] ++ [(Token.mark .assign).behind [' ']] ++
        Token.allBehind [' '] us ++ [Token.mark .semicolon]) := by
  have hne := h.phrase.ne_nil (by decide)
  have hvne := Token.allBehind_ne_nil (g := [' ']) (hv.ne_nil (by decide))
  refine widen (d := .localDeclaration) (by decide) ⟨?_, ?_, .shut (by decide)⟩
  · have hname := h.spelt.blank hne (.name hcs) (List.cons_ne_nil _ _) fun a ha b hb => by
      cases hb
      exact hnamed a ha
    have hall := (spelt_initialized hname (by simp) hv hsteady).sign (m := .semicolon)
      (by simp) (by decide) fun a ha =>
        ((hv.ends.allBehind [' ']).append hvne) a ha _ (by decide)
    simpa [show Mark.chars .semicolon = [';'] by decide] using hall
  · have hinitializer : Phrase .initializer
        ([(Token.mark .assign).behind [' ']] ++ Token.allBehind [' '] us) :=
      .of_rule (r := [Grammar.m .assign, Grammar.c .assignedValue]) (by decide)
        (Parses.token rfl (Parses.last
          (.of_category (d := .expression) (by decide) (hv.phrase.allBehind _))))
    have hdeclarator : Phrase .declarator ([(Token.name cs).behind [' ']] ++
        ([(Token.mark .assign).behind [' ']] ++ Token.allBehind [' '] us)) :=
      .of_rule (r := [Grammar.c .identifier, Grammar.opt .bracketArguments,
          Grammar.opt .initializer]) (by decide)
        (Parses.category ((Token.phrase_name cs).allBehind [' '])
          (Parses.skip_opt (Parses.take_opt (Parses.last hinitializer))))
    have hdeclaration : Phrase .variableDeclaration (ts ++ ([(Token.name cs).behind [' ']] ++
        ([(Token.mark .assign).behind [' ']] ++ Token.allBehind [' '] us))) :=
      .of_rule (r := [Grammar.c .type, Grammar.list .declarator]) (by decide)
        (Parses.category h.phrase (Parses.take_list (List.append_nil
          ([(Token.name cs).behind [' ']] ++ ([(Token.mark .assign).behind [' ']] ++
            Token.allBehind [' '] us)) ▸ Parses.category hdeclarator (Parses.skip_more .nil))))
    refine .of_rule List.mem_cons_self ?_
    have hall := Parses.skip_opt (s := .token (.keyword .await_))
      (Parses.skip_opt (s := .token (.keyword .using_)) (Parses.skip_many (s := .category .modifier)
        (Parses.category hdeclaration (Parses.token (x := .mark .semicolon)
          (t := Token.mark .semicolon) rfl .nil))))
    simp only [List.append_assoc] at hall ⊢
    exact hall

/-- A private field. -/
theorem field {type : List Char} (h : TypeText .type type ts) (hcs : isPlainWord cs = true)
    (hnone : Keyword.ofChars? cs = none) :
    Code .fieldDeclaration ("private ".toList ++ type ++ ' ' :: cs ++ [';'])
      ([Token.keyword .private_] ++ Token.allBehind [' '] ts ++ [(Token.name cs).behind [' ']] ++
        [Token.mark .semicolon]) := by
  have hne := Token.allBehind_ne_nil (g := [' ']) (h.phrase.ne_nil (by decide))
  refine ⟨?_, ?_, .shut (by decide)⟩
  · have htype := (Spelt.keyword .private_).blank (List.cons_ne_nil _ _) h.spelt
      (h.phrase.ne_nil (by decide)) fun a ha b hb => by cases ha; exact h.named b hb _ (by decide)
    have hname := htype.blank (by simp) (.name hcs) (List.cons_ne_nil _ _) fun a _ b hb =>
      Token.steady_name hcs hnone b hb _
    have hall := hname.sign (m := .semicolon) (by simp) (by decide) fun a ha =>
      ((Ends.word (Token.role_name cs)).allBehind [' ']).append (by simp) a ha _ (by decide)
    simpa [show Mark.chars .semicolon = [';'] by decide,
      show Keyword.chars .private_ = "private".toList by decide] using hall
  · have hmodifier : Phrase .modifier [Token.keyword .private_] :=
      .of_rule (r := [Grammar.k .private_]) (by decide) (Parses.token rfl .nil)
    have hdeclarator : Phrase .declarator ([(Token.name cs).behind [' ']] ++ []) :=
      .of_rule (r := [Grammar.c .identifier, Grammar.opt .bracketArguments,
          Grammar.opt .initializer]) (by decide)
        (Parses.category ((Token.phrase_name cs).allBehind [' ']) (Parses.skip_opt
          (Parses.skip_opt .nil)))
    have hdeclaration : Phrase .variableDeclaration
        (Token.allBehind [' '] ts ++ ([(Token.name cs).behind [' ']] ++ [] ++ [])) :=
      .of_rule (r := [Grammar.c .type, Grammar.list .declarator]) (by decide)
        (Parses.category (h.phrase.allBehind _) (Parses.take_list
          (Parses.category hdeclarator (Parses.skip_more .nil))))
    have hall := Parses.take_many (Parses.category hmodifier (Parses.skip_many
      (Parses.category hdeclaration (Parses.token (x := .mark .semicolon)
        (t := Token.mark .semicolon) rfl .nil))))
    simp only [List.append_nil, List.append_assoc] at hall ⊢
    exact .of_rule List.mem_cons_self (Parses.skip_many hall)

end Code

end TestScaffold.CSharp
