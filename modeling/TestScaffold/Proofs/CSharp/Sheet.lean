/-
  TestScaffold/Proofs/CSharp/Sheet.lean
  =====================================
  **A test class laid out in rows of tokens is read as a file.**

  A sheet is a test class as the rows of its text: directives, fields and
  statements come as rows of tokens, and the rows around them are put down here.
-/
import TestScaffold.Proofs.CSharp.Code
import TestScaffold.Proofs.CSharp.Lines

namespace TestScaffold.CSharp

open Grammar

/-! ### Laid rows -/

namespace Laid

variable {rows more : List (List Token)} {ts : List Token}

theorem of_append (h : Laid (rows ++ more) ts) :
    ∃ us vs, ts = us ++ vs ∧ Laid rows us ∧ Laid more vs := by
  induction rows generalizing ts with
  | nil => exact ⟨[], ts, rfl, .nil, h⟩
  | cons row rows ih =>
    cases h with
    | empty rest =>
      obtain ⟨us, vs, rfl, hus, hvs⟩ := ih rest
      exact ⟨us, vs, rfl, .empty hus, hvs⟩
    | row blanks nonempty rest =>
      obtain ⟨us, vs, rfl, hus, hvs⟩ := ih rest
      exact ⟨_, vs, (List.append_assoc _ _ _).symm, .row blanks nonempty hus, hvs⟩

theorem of_cons {row : List Token} (hrow : row ≠ []) (h : Laid (row :: rows) ts) :
    ∃ blanks us, ts = Token.allBehind blanks row ++ us ∧ Laid rows us := by
  cases h with
  | empty rest => exact absurd rfl hrow
  | row blanks nonempty rest => exact ⟨blanks, _, rfl, rest⟩

theorem of_empty (h : Laid ([] :: rows) ts) : Laid rows ts := by
  cases h with
  | empty rest => exact rest
  | row blanks nonempty rest => exact absurd rfl nonempty

theorem of_nil (h : Laid [] ts) : ts = [] := by
  cases h
  rfl

/-- Rows that are phrases stay phrases. -/
theorem phrases {c : Category} (h : Laid rows ts)
    (hrows : ∀ row ∈ rows, row ≠ [] → Phrase c row) :
    ∃ ps : List (List Token), ts = ps.flatten ∧ ∀ p ∈ ps, Phrase c p := by
  induction h with
  | nil => exact ⟨[], rfl, fun p hp => absurd hp List.not_mem_nil⟩
  | empty rest ih => exact ih fun row hrow => hrows row (List.mem_cons_of_mem _ hrow)
  | @row row rows ts blanks nonempty rest ih =>
    obtain ⟨ps, rfl, hps⟩ := ih fun row hrow => hrows row (List.mem_cons_of_mem _ hrow)
    refine ⟨Token.allBehind blanks row :: ps, rfl, ?_⟩
    intro p hp
    rcases List.mem_cons.mp hp with rfl | hp
    · exact (hrows row List.mem_cons_self nonempty).allBehind blanks
    · exact hps p hp

/-- Rows in braces. -/
theorem of_braces (h : Laid ([Token.mark .openBrace] :: rows ++ [[Token.mark .closeBrace]]) ts) :
    ∃ g us g', ts = (Token.mark .openBrace).behind g :: us ++ [(Token.mark .closeBrace).behind g'] ∧
      Laid rows us := by
  rw [List.cons_append] at h
  obtain ⟨g, vs, rfl, hinner⟩ := h.of_cons (List.cons_ne_nil _ _)
  obtain ⟨us, ws, rfl, hus, hclose⟩ := hinner.of_append
  obtain ⟨g', xs, rfl, hnil⟩ := hclose.of_cons (List.cons_ne_nil _ _)
  rw [hnil.of_nil]
  exact ⟨g, us, g', by simp, hus⟩

end Laid

/-! ### Sheets -/

/-- A test method as rows: its name, whether it is asynchronous, and its statements. -/
structure TestSheet where
  name : List Char
  isAsync : Bool
  body : List (List Token)

/-- A test class as rows. -/
structure Sheet where
  usings : List (List Token)
  namespaceName : List (List Char)
  className : List Char
  fields : List (List Token)
  setup : List (List Token)
  tests : List TestSheet

/-- Names with points between them. -/
def dotted : List (List Char) → List Token
  | [] => []
  | p :: ps => Token.name p :: ps.flatMap fun q => [Token.mark .dot, Token.name q]

/-- Rows in braces. -/
def inBraces (rows : List (List Token)) : List (List Token) :=
  [Token.mark .openBrace] :: rows ++ [[Token.mark .closeBrace]]

/-- Members with an empty row between neighbours. -/
def spacedRows : List (List (List Token)) → List (List Token)
  | [] => []
  | [m] => m
  | m :: n :: rest => m ++ [] :: spacedRows (n :: rest)

/-- A token behind one blank. -/
abbrev Token.spaced (t : Token) : Token := t.behind [' ']

/-- The row of the attribute of a test. -/
def attributeRow : List Token :=
  [Token.mark .openBracket, Token.name "Fact".toList, Token.mark .closeBracket]

/-- The row of the head of a constructor. -/
def setupRow (name : List Char) : List Token :=
  [Token.keyword .public_, (Token.name name).spaced, Token.mark .openParen, Token.mark .closeParen]

/-- The row of the head of a test method. -/
def testRow (t : TestSheet) : List Token :=
  [Token.keyword .public_] ++
    (if t.isAsync then [(Token.keyword .async_).spaced, (Token.name "Task".toList).spaced]
      else [(Token.keyword .void_).spaced]) ++
    [(Token.name t.name).spaced, Token.mark .openParen, Token.mark .closeParen]

/-- The row of the head of a class. -/
def classRow (name : List Char) : List Token :=
  [Token.keyword .public_, (Token.keyword .class_).spaced, (Token.name name).spaced]

/-- The row of the head of a namespace. -/
def namespaceRow (name : List (List Char)) : List Token :=
  Token.keyword .namespace_ :: Token.allBehind [' '] (dotted name)

namespace TestSheet

/-- The rows of a test method. -/
def rows (t : TestSheet) : List (List Token) := attributeRow :: testRow t :: inBraces t.body

end TestSheet

namespace Sheet

/-- The rows of the members, member by member; the fields count as one. -/
def members (s : Sheet) : List (List (List Token)) :=
  (if s.fields.isEmpty then [] else [s.fields]) ++
    (setupRow s.className :: inBraces s.setup) :: s.tests.map TestSheet.rows

/-- The rows of the class. -/
def classRows (s : Sheet) : List (List Token) :=
  classRow s.className :: inBraces (spacedRows s.members)

/-- All rows. -/
def rows (s : Sheet) : List (List Token) :=
  s.usings ++ (if s.usings.isEmpty then [] else [[]]) ++
    namespaceRow s.namespaceName :: inBraces s.classRows

/-- The rows of a sheet are what they are put down as. -/
structure Good (s : Sheet) : Prop where
  usings : ∀ row ∈ s.usings, Phrase .usingDirective row
  namespaceName : s.namespaceName ≠ []
  fields : ∀ row ∈ s.fields, Phrase .fieldDeclaration row
  setup : ∀ row ∈ s.setup, Phrase .statement row
  tests : ∀ t ∈ s.tests, ∀ row ∈ t.body, Phrase .statement row

end Sheet

/-! ### Reading a sheet -/

namespace Phrase

theorem block {rows : List (List Token)} {ts : List Token} (h : Laid (inBraces rows) ts)
    (hrows : ∀ row ∈ rows, Phrase .statement row) : Phrase .block ts := by
  obtain ⟨g, us, g', rfl, hus⟩ := h.of_braces
  obtain ⟨ps, rfl, hps⟩ := hus.phrases fun row hrow _ => hrows row hrow
  exact .of_rule (r := Grammar.braces [Grammar.many .statement]) (by decide)
    (Parses.token rfl (Parses.take_all hps (Parses.token rfl .nil)))

theorem parameterList_empty :
    Phrase .parameterList [Token.mark .openParen, Token.mark .closeParen] :=
  .of_rule (r := Grammar.parens [Grammar.anyList .parameterItem]) (by decide)
    (Parses.token rfl (Parses.skip_anyList (Parses.token rfl .nil)))

theorem modifier {k : Keyword} (hk : [Grammar.k k] ∈ rules .modifier) (g : List Char) :
    Phrase .modifier [(Token.keyword k).behind g] :=
  .of_rule hk (Parses.token (by simp [Token.fits, Token.keyword]) .nil)

theorem dotted {p : List Char} {ps : List (List Char)} : Phrase .name (dotted (p :: ps)) := by
  have hsimple : ∀ q, Phrase .simpleName [Token.name q] := fun q =>
    .of_category (d := .identifier) (by decide) (Token.phrase_name q)
  have hmore : ∀ (ps : List (List Char)) (ts : List Token), Phrase .name ts →
      Phrase .name (ts ++ ps.flatMap fun q => [Token.mark .dot, Token.name q]) := by
    intro ps
    induction ps with
    | nil => exact fun ts h => by simpa using h
    | cons q ps ih =>
      intro ts h
      have hnext : Phrase .name (ts ++ [Token.mark .dot, Token.name q]) :=
        .of_rule (r := [Grammar.c .name, Grammar.m .dot, Grammar.c .simpleName]) (by decide)
          (Parses.category h (Parses.token rfl (Parses.last (hsimple q))))
      simpa using ih _ hnext
  exact hmore ps _ (.of_category (d := .simpleName) (by decide) (hsimple p))

theorem identifier (cs blanks : List Char) : Phrase .identifier [(Token.name cs).behind blanks] :=
  (Token.phrase_name cs).allBehind blanks

/-- The constructor of a test class. -/
theorem setup {name : List Char} {body : List (List Token)} {ts : List Token}
    (h : Laid (setupRow name :: inBraces body) ts) (hbody : ∀ row ∈ body, Phrase .statement row) :
    Phrase .constructorDeclaration ts := by
  obtain ⟨g, us, rfl, hblock⟩ := h.of_cons (by simp [setupRow])
  have hbody' : Phrase .functionBody us := .of_category (d := .block) (by decide)
    (block hblock hbody)
  have hall := Parses.take_many (Parses.category (modifier (k := .public_) (by decide) g)
    (Parses.skip_many (Parses.category (identifier name [' ']) (Parses.category parameterList_empty
      (Parses.skip_opt (s := .category .constructorInitializer) (Parses.last hbody'))))))
  exact .of_rule List.mem_cons_self (Parses.skip_many hall)

/-- The attribute of a test. -/
theorem factAttribute (g : List Char) : Phrase .attributeItem (Token.allBehind g attributeRow) := by
  have hname : Phrase .name [Token.name "Fact".toList] :=
    .of_category (d := .simpleName) (by decide)
      (.of_category (d := .identifier) (by decide) (Token.phrase_name _))
  have hentry : Phrase .attributeEntry ([Token.name "Fact".toList] ++ []) :=
    .of_rule List.mem_cons_self (Parses.category hname (Parses.skip_opt .nil))
  refine .of_category (d := .attributeList) (by decide) (.of_rule List.mem_cons_self ?_)
  exact Parses.token rfl (Parses.skip_opt (Parses.take_list (Parses.category hentry
    (Parses.skip_more (Parses.skip_opt (Parses.token rfl .nil))))))

/-- A test method. -/
theorem test {t : TestSheet} {ts : List Token} (h : Laid t.rows ts)
    (hbody : ∀ row ∈ t.body, Phrase .statement row) : Phrase .methodDeclaration ts := by
  obtain ⟨g, us, rfl, hrest⟩ := h.of_cons (by simp [attributeRow])
  obtain ⟨g', vs, rfl, hblock⟩ := hrest.of_cons (by simp [testRow])
  have hbody' : Phrase .functionBody vs := .of_category (d := .block) (by decide)
    (block hblock hbody)
  have hname : Phrase .type [(Token.name "Task".toList).spaced] :=
    .of_category (d := .plainType) (by decide) (TypeText.plainType_of_name
      (.of_category (d := .simpleName) (by decide)
        (.of_category (d := .identifier) (by decide) (identifier _ _))))
  have hvoid : Phrase .type [(Token.keyword .void_).spaced] := by
    have hsimple : Phrase .simpleType [(Token.keyword .void_).spaced] :=
      .of_category (d := .predefinedType) (by decide)
        (.of_rule (r := [Grammar.k .void_]) (by decide) (Parses.token rfl .nil))
    refine .of_category (d := .plainType) (by decide) (.of_rule List.mem_cons_self ?_)
    exact Parses.category hsimple (Parses.skip_many .nil)
  -- the part behind the type is the same in both kinds of tests
  have htail : Parses [Grammar.opt .explicitInterface, Grammar.c .identifier,
      Grammar.opt .typeParameters, Grammar.c .parameterList, Grammar.many .constraintClause,
      Grammar.c .functionBody]
      ([(Token.name t.name).spaced] ++ ([Token.mark .openParen, Token.mark .closeParen] ++ vs)) :=
    Parses.skip_opt (Parses.category (identifier t.name _) (Parses.skip_opt
      (Parses.category parameterList_empty (Parses.skip_many (Parses.last hbody')))))
  refine .of_rule List.mem_cons_self ?_
  refine Parses.take_many (Parses.category (factAttribute g) (Parses.skip_many ?_))
  cases hasync : t.isAsync with
  | false =>
    have hall := Parses.take_many (Parses.category (modifier (k := .public_) (by decide) g')
      (Parses.skip_many (Parses.category
        (.of_category (c := .returnType) (d := .type) (by decide) hvoid) htail)))
    simp only [testRow, hasync] at hall ⊢
    exact hall
  | true =>
    have hall := Parses.take_many (Parses.category (modifier (k := .public_) (by decide) g')
      (Parses.take_many (Parses.category (modifier (k := .async_) (by decide) [' '])
        (Parses.skip_many (Parses.category
          (.of_category (c := .returnType) (d := .type) (by decide) hname) htail)))))
    simp only [testRow, hasync] at hall ⊢
    exact hall

/-- A member of a class, as an item of its body. -/
theorem memberItem {c : Category} {ts : List Token} (hc : [Grammar.c c] ∈ rules .memberDeclaration)
    (h : Phrase c ts) : Phrase .memberItem ts :=
  .of_category (d := .memberDeclaration) (by decide) (.of_category hc h)

end Phrase

/-- Members with empty rows between them are read one by one. -/
theorem Laid.members {members : List (List (List Token))} {ts : List Token}
    (h : Laid (spacedRows members) ts)
    (hmembers : ∀ m ∈ members, ∀ us, Laid m us →
      ∃ ps : List (List Token), us = ps.flatten ∧ ∀ p ∈ ps, Phrase .memberItem p) :
    ∃ ps : List (List Token), ts = ps.flatten ∧ ∀ p ∈ ps, Phrase .memberItem p := by
  induction members generalizing ts with
  | nil => exact ⟨[], h.of_nil, fun p hp => absurd hp List.not_mem_nil⟩
  | cons m rest ih =>
    cases rest with
    | nil => exact hmembers m List.mem_cons_self ts h
    | cons n rest =>
      obtain ⟨us, vs, rfl, hm, hrest⟩ := Laid.of_append h
      obtain ⟨ps, rfl, hps⟩ := hmembers m List.mem_cons_self us hm
      obtain ⟨qs, rfl, hqs⟩ := ih hrest.of_empty fun k hk =>
        hmembers k (List.mem_cons_of_mem _ hk)
      refine ⟨ps ++ qs, List.flatten_append.symm, ?_⟩
      intro p hp
      rcases List.mem_append.mp hp with hp | hp
      · exact hps p hp
      · exact hqs p hp

namespace Sheet

variable {s : Sheet} {ts : List Token}

theorem Good.members (h : s.Good) : ∀ m ∈ s.members, ∀ us, Laid m us →
    ∃ ps : List (List Token), us = ps.flatten ∧ ∀ p ∈ ps, Phrase .memberItem p := by
  intro m hm us hus
  unfold Sheet.members at hm
  rcases List.mem_append.mp hm with hm | hm
  · split at hm
    · cases hm
    · rw [List.mem_singleton.mp hm] at hus
      exact hus.phrases fun row hrow _ => .memberItem (by decide) (h.fields row hrow)
  · rcases List.mem_cons.mp hm with rfl | hm
    · refine ⟨[us], by simp, ?_⟩
      simpa using Phrase.memberItem (by decide) (Phrase.setup hus h.setup)
    · obtain ⟨t, ht, rfl⟩ := List.mem_map.mp hm
      refine ⟨[us], by simp, ?_⟩
      simpa using Phrase.memberItem (by decide) (Phrase.test hus (h.tests t ht))

/-- The class of a sheet. -/
theorem Good.classDeclaration (h : s.Good) (hts : Laid s.classRows ts) :
    Phrase .classDeclaration ts := by
  obtain ⟨g, us, rfl, hbody⟩ := hts.of_cons (by simp [classRow])
  obtain ⟨g₁, vs, g₂, rfl, hvs⟩ := hbody.of_braces
  obtain ⟨ps, rfl, hps⟩ := hvs.members h.members
  have hlist : Phrase .declarationList ((Token.mark .openBrace).behind g₁ :: ps.flatten ++
      [(Token.mark .closeBrace).behind g₂]) :=
    .of_rule (r := Grammar.braces [Grammar.many .memberItem]) (by decide)
      (Parses.token rfl (Parses.take_all hps (Parses.token rfl .nil)))
  have htype : Phrase .typeBody (((Token.mark .openBrace).behind g₁ :: ps.flatten ++
      [(Token.mark .closeBrace).behind g₂]) ++ []) :=
    .of_rule List.mem_cons_self (Parses.category hlist (Parses.skip_opt .nil))
  have hall := Parses.take_many (Parses.category (.modifier (k := .public_) (by decide) g)
    (Parses.skip_many (Parses.token (x := .keyword .class_)
      (t := (Token.keyword .class_).spaced) rfl
      (Parses.category (.identifier s.className [' '])
        (Parses.skip_opt (s := .category .typeParameters)
          (Parses.skip_opt (s := .category .parameterList)
            (Parses.skip_opt (s := .category .baseList)
              (Parses.skip_many (s := .category .constraintClause) (Parses.last htype)))))))))
  rw [List.append_nil] at hall
  exact .of_rule List.mem_cons_self (Parses.skip_many hall)

/-- The namespace of a sheet. -/
theorem Good.namespaceDeclaration (h : s.Good)
    (hts : Laid (namespaceRow s.namespaceName :: inBraces s.classRows) ts) :
    Phrase .namespaceDeclaration ts := by
  obtain ⟨g, us, rfl, hbody⟩ := hts.of_cons (by simp [namespaceRow])
  obtain ⟨g₁, vs, g₂, rfl, hvs⟩ := hbody.of_braces
  have hclass : Phrase .memberItem vs := .memberItem (c := .typeDeclaration) (by decide)
    (.of_category (d := .classDeclaration) (by decide) (h.classDeclaration hvs))
  have hlist : Phrase .declarationList ((Token.mark .openBrace).behind g₁ :: vs ++
      [(Token.mark .closeBrace).behind g₂]) :=
    .of_rule (r := Grammar.braces [Grammar.many .memberItem]) (by decide)
      (Parses.token rfl (Parses.take_many (Parses.category hclass
        (Parses.skip_many (Parses.token rfl .nil)))))
  have hname : Phrase .name (dotted s.namespaceName) := by
    cases hpieces : s.namespaceName with
    | nil => exact absurd hpieces h.namespaceName
    | cons p ps => exact .dotted
  have hall := Parses.token (x := .keyword .namespace_) (t := (Token.keyword .namespace_).behind g)
    rfl (Parses.category (hname.allBehind [' ']) (Parses.category hlist
      (Parses.skip_opt (s := .token (.joined .semicolon)) .nil)))
  rw [List.append_nil] at hall
  exact .of_rule List.mem_cons_self hall

/-- **A laid out sheet is read as a file.** -/
theorem Good.compilationUnit (h : s.Good) (hts : Laid s.rows ts) : Phrase .compilationUnit ts := by
  unfold Sheet.rows at hts
  obtain ⟨us, vs, rfl, hus, hvs⟩ := hts.of_append
  obtain ⟨us, ws, rfl, hus, hws⟩ := hus.of_append
  obtain ⟨ps, rfl, hps⟩ := hus.phrases (c := .topLevelItem) fun row hrow _ =>
    .of_category (d := .usingDirective) (by decide) (h.usings row hrow)
  have hnone : ws = [] := by
    split at hws
    · exact hws.of_nil
    · exact hws.of_empty.of_nil
  have hnamespace : Phrase .topLevelItem vs :=
    .of_category (d := .namespaceDeclaration) (by decide) (h.namespaceDeclaration hvs)
  have hitems : ∀ p ∈ ps ++ [vs], Phrase .topLevelItem p := by
    intro p hp
    rcases List.mem_append.mp hp with hp | hp
    · exact hps p hp
    · exact List.mem_singleton.mp hp ▸ hnamespace
  have hall := Parses.take_all hitems .nil
  rw [List.append_nil, List.flatten_append, List.flatten_singleton] at hall
  rw [hnone, List.append_nil]
  exact .of_rule List.mem_cons_self (Parses.skip_opt hall)

end Sheet

/-! ### Roles in rows -/

/-- Rows all tokens of which are read as `p` allows. -/
def RowsOf (p : Terminal → Bool) (rows : List (List Token)) : Prop :=
  ∀ row ∈ rows, ∀ t ∈ row, p t.role = true

/-- A name is read as a name, or as a word that is a keyword in some places. -/
theorem Token.holds_name {p : Terminal → Bool} (hidentifier : p .identifier = true)
    (hcontextual : ∀ k ∈ Keyword.contextual, p (.keyword k) = true) (cs : List Char) :
    p (Token.name cs).role = true := by
  unfold Token.name
  cases Keyword.ofChars? cs with
  | none => exact hidentifier
  | some k =>
    dsimp only
    split
    · rename_i hk
      exact hcontextual k hk
    · exact hidentifier

namespace RowsOf

variable {p q : Terminal → Bool} {rows more : List (List Token)} {row : List Token}

theorem nil : RowsOf p [] := fun _ h => absurd h List.not_mem_nil

theorem cons (hrow : ∀ t ∈ row, p t.role = true) (h : RowsOf p rows) : RowsOf p (row :: rows) :=
  List.forall_mem_cons.mpr ⟨hrow, h⟩

theorem append (h : RowsOf p rows) (h' : RowsOf p more) : RowsOf p (rows ++ more) := by
  intro row hrow
  rcases List.mem_append.mp hrow with hrow | hrow
  · exact h row hrow
  · exact h' row hrow

theorem mono (h : RowsOf p rows) (hpq : ∀ role, p role = true → q role = true) : RowsOf q rows :=
  fun row hrow t ht => hpq _ (h row hrow t ht)

theorem inBraces (hopen : p (.mark .openBrace) = true) (hclose : p (.mark .closeBrace) = true)
    (h : RowsOf p rows) : RowsOf p (inBraces rows) := by
  refine .cons (fun t ht => ?_) (h.append (.cons (fun t ht => ?_) .nil))
  · rw [List.mem_singleton.mp ht]
    exact hopen
  · rw [List.mem_singleton.mp ht]
    exact hclose

theorem spacedRows {members : List (List (List Token))} (h : ∀ m ∈ members, RowsOf p m) :
    RowsOf p (spacedRows members) := by
  induction members with
  | nil => exact .nil
  | cons m rest ih =>
    obtain ⟨hm, hrest⟩ := List.forall_mem_cons.mp h
    cases rest with
    | nil => exact hm
    | cons n rest =>
      exact hm.append (.cons (fun t ht => absurd ht List.not_mem_nil) (ih hrest))

theorem of_laid {ts : List Token} (h : RowsOf p rows) (hts : Laid rows ts) :
    ∀ t ∈ ts, p t.role = true := by
  induction hts with
  | nil => exact fun t ht => absurd ht List.not_mem_nil
  | empty rest ih => exact ih fun row hrow => h row (List.mem_cons_of_mem _ hrow)
  | @row row rows ts blanks nonempty rest ih =>
    obtain ⟨hrow, hrows⟩ := List.forall_mem_cons.mp h
    intro t ht
    rcases List.mem_append.mp ht with ht | ht
    · obtain ⟨u, hu, hrole⟩ := Token.exists_of_mem_allBehind ht
      exact hrole ▸ hrow u hu
    · exact ih hrows t ht

end RowsOf

theorem holds_dotted {p : Terminal → Bool} (hname : ∀ cs, p (Token.name cs).role = true)
    (hdot : p (.mark .dot) = true) (ps : List (List Char)) :
    ∀ t ∈ dotted ps, p t.role = true := by
  intro t ht
  cases ps with
  | nil => cases ht
  | cons n ns =>
    rcases List.mem_cons.mp ht with rfl | ht
    · exact hname n
    · obtain ⟨q, _, hq⟩ := List.mem_flatMap.mp ht
      simp only [List.mem_cons, List.not_mem_nil, or_false] at hq
      rcases hq with rfl | rfl
      · exact hdot
      · exact hname q

end TestScaffold.CSharp
