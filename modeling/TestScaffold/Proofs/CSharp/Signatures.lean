/-
  TestScaffold/Proofs/CSharp/Signatures.lean
  ==========================================
  **What the heads of constructors and methods are read as.**

  A constructor has its name right behind its modifiers, and a method has a type
  before its name.  So for the heads of generated members there is just one
  reading, and the parts of the declaration can be told from it.
-/
import TestScaffold.Proofs.CSharp.Heads
import TestScaffold.Proofs.CSharp.Members

namespace TestScaffold.CSharp

open Grammar

namespace Reads

variable {parts : List Part} (rest : List Part) {ts : List Token} {us : List Tree} {t : Token}

/-- A modifier that can be nothing else. -/
theorem of_modifier {x : Terminal} (h : Reads parts (t :: ts) us) (ht : t.role = x)
    (hways : Begins.ways x parts = [c .modifier :: many .modifier :: rest]) :
    ∃ us', us = .node .modifier [.leaf t] :: us' ∧ Reads (many .modifier :: rest) ts us' := by
  obtain ⟨t', ts', us', heq, rfl, _, hrest⟩ := (h.of_ways ht hways).of_cons_word (by decide)
  cases heq
  exact ⟨us', rfl, hrest⟩

/-- A list of attributes. -/
theorem of_attributes {inner : List Token} {o e : Token}
    (h : Reads parts (o :: (inner ++ e :: ts)) us) (ho : o.role = .mark .openBracket)
    (he : e.role = .mark .closeBracket) (hinner : Nest.brackets.Balanced inner)
    (hways : Begins.ways (.mark .openBracket) parts =
      [c .attributeItem :: many .attributeItem :: rest]) :
    ∃ as us', us = .node .attributeList as :: us' ∧ Reads (many .attributeItem :: rest) ts us' := by
  obtain ⟨rhs, hrule, ts₁, us₁, ts₂, us₂, hts, rfl, hhead, hrest⟩ :=
    (h.of_ways ho hways).of_cons_category
  have hgroup : Nest.brackets.Group o inner e :=
    ⟨ho ▸ by decide, he ▸ by decide, he ▸ by decide, hinner⟩
  simp only [rules, oneOf, List.map_cons, List.map_nil, List.mem_cons, List.not_mem_nil, or_false]
    at hrule
  rcases hrule with rfl | rfl
  · obtain ⟨rhs, hrule, ts₃, as, ts₄, us₄, rfl, rfl, hlist, hnil⟩ := hhead.of_cons_category
    obtain ⟨rfl, rfl⟩ := hnil.of_nil
    rw [List.mem_singleton.mp hrule] at hlist
    have hlist' : Reads (m .openBracket :: [opt .attributeTarget, list .attributeEntry,
        optM .comma] ++ [m .closeBracket]) ts₃ as := hlist
    rw [List.append_nil] at hts
    obtain ⟨_, _, rfl, _, _⟩ := hlist'.of_group Nest.fits_brackets (by decide) hgroup hts.symm
    exact ⟨as, us₂, rfl, hrest⟩
  · cases ts₁ with
    | nil => exact absurd rfl (hhead.phrase.ne_nil (by decide))
    | cons t ts₁ =>
      obtain ⟨rfl, _⟩ := List.cons.inj hts
      exact (hhead.false_of_ways ho (by decide)).elim

/-- An empty list of parameters. -/
theorem of_noParameters {rest : List Part} {o e : Token}
    (h : Reads (c .parameterList :: rest) [o, e] us)
    (ho : o.role = .mark .openParen) (he : e.role = .mark .closeParen) (hrest : Inner rest) :
    us = [.node .parameterList [.leaf o, .leaf e]] := by
  obtain ⟨rhs, hrule, ts₁, us₁, ts₂, us₂, hts, rfl, hhead, hmore⟩ := h.of_cons_category
  have hlist : Reads (parens [anyList .parameterItem]) ts₁ us₁ := List.mem_singleton.mp hrule ▸ hhead
  have hgroup : Nest.brackets.Group o [] e :=
    ⟨ho ▸ by decide, he ▸ by decide, he ▸ by decide, .nil⟩
  obtain ⟨us', _, rfl, rfl, hinner⟩ := hlist.of_group Nest.fits_brackets (by decide) hgroup hts.symm
  rw [hinner.trees_eq_nil (by decide), hmore.trees_eq_nil hrest]
  rfl

end Reads

/-! ### Signatures -/

/-- What a method has between its attributes and its body. -/
def methodSignature : List Part :=
  [many .modifier, c .returnType, opt .explicitInterface, c .identifier, opt .typeParameters,
    c .parameterList, many .constraintClause]

/-- What a constructor has between its attributes and its body. -/
def constructorSignature : List Part :=
  [many .modifier, c .identifier, c .parameterList, opt .constructorInitializer]

theorem front_method : frontOf .methodDeclaration = many .attributeItem :: methodSignature := rfl

theorem front_constructor :
    frontOf .constructorDeclaration = many .attributeItem :: constructorSignature := rfl

/-- How the types that tests return are read. -/
def testReturns : List Terminal := [.keyword .void_, .identifier]

namespace Reads

variable {r n o e : Token} {ts : List Token} {us : List Tree}

/-- A constructor has no type. -/
theorem false_of_constructorSignature (h : Reads constructorSignature (r :: n :: ts) us)
    (hr : r.role ∈ testReturns) (hn : n.role = .identifier) : False := by
  simp only [testReturns, List.mem_cons, List.not_mem_nil, or_false] at hr
  rcases hr with hr | hr
  · exact h.false_of_ways hr (by decide)
  · have hway : Reads constructorSignature.tail (r :: n :: ts) us := h.of_ways hr (by decide)
    obtain ⟨r', ts', us', heq, _, hrest⟩ := hway.of_cons_identifier
    obtain ⟨rfl, rfl⟩ := List.cons.inj heq
    exact hrest.false_of_ways hn (by decide)

/-- The type of a method is the first token behind its modifiers, where a name follows or the
parameters do. -/
theorem of_returnType (h : Reads methodSignature (r :: ts) us) (hr : r.role ∈ testReturns)
    (hts : ts = [n, o, e] ∨ ts = [o, e]) (ho : o.role = .mark .openParen)
    (he : e.role = .mark .closeParen) :
    ∃ rs us', us = .node .returnType rs :: us' ∧ Reads [c .type] [r] rs ∧
      Reads (methodSignature.drop 2) ts us' := by
  have hway : Reads (methodSignature.drop 1) (r :: ts) us := by
    simp only [testReturns, List.mem_cons, List.not_mem_nil, or_false] at hr
    rcases hr with hr | hr
    · exact h.of_ways hr (by decide)
    · exact h.of_ways hr (by decide)
  obtain ⟨rhs, hrule, ts₁, rs, ts₂, us', heq, rfl, htype, hrest⟩ := hway.of_cons_category
  rw [List.mem_singleton.mp hrule] at htype
  -- the rest can neither be empty nor begin with a parenthesis
  have hopen : ts₂ ≠ [o, e] := by
    rintro rfl
    exact hrest.false_of_ways ho (by decide)
  have hclose : ts₂ ≠ [e] := by
    rintro rfl
    exact hrest.false_of_ways he (by decide)
  have hneeded : ts₂ ≠ [] := by
    rintro rfl
    exact absurd (hrest.any_isNeeded (by decide)) (by decide)
  have hsuffix : ∀ {vs : List Token}, [o, e] ≠ vs ++ ts₂ := by
    intro vs hvs
    match vs, hvs with
    | [], hvs => exact hopen hvs.symm
    | [_], hvs => exact hclose (List.cons.inj hvs).2.symm
    | _ :: _ :: vs, hvs =>
      have htail := (List.cons.inj (List.cons.inj hvs).2).2
      exact hneeded (List.append_eq_nil_iff.mp htail.symm).2
  cases ts₁ with
  | nil => exact absurd (htype.any_isNeeded (by decide)) (by decide)
  | cons r' ts₁ =>
    obtain ⟨rfl, rfl⟩ := List.cons.inj heq
    cases ts₁ with
    | nil => exact ⟨rs, us', rfl, htype, hrest⟩
    | cons u ts₁ =>
      rcases hts with hts | hts
      · exact absurd (List.cons.inj hts).2.symm hsuffix
      · exact absurd hts.symm (@hsuffix (u :: ts₁))

/-- The name of a method is the token behind its type. -/
theorem of_methodSignature (h : Reads methodSignature [r, n, o, e] us) (hr : r.role ∈ testReturns)
    (hn : n.role = .identifier) (ho : o.role = .mark .openParen)
    (he : e.role = .mark .closeParen) :
    ∃ rs, us = [.node .returnType rs, .node .identifier [.leaf n],
      .node .parameterList [.leaf o, .leaf e]] ∧ Reads [c .type] [r] rs := by
  obtain ⟨rs, us', rfl, htype, hrest⟩ := h.of_returnType hr (Or.inl rfl) ho he
  have hname : Reads (methodSignature.drop 3) [n, o, e] us' := by
    refine hrest.of_cons_opt.resolve_right fun hexplicit => ?_
    -- the name of an interface has a point behind it
    obtain ⟨rhs, hrule, ts₁, us₁, ts₂, us₂, hts, _, hhead, _⟩ := hexplicit.of_cons_category
    rw [List.mem_singleton.mp hrule] at hhead
    have hdot : ∀ t ∈ [n, o, e], t.role ∉ [Terminal.mark .dot] := by simp [hn, ho, he]
    exact hhead.false_of_missing (by decide) (fun t ht => hdot t (hts ▸ List.mem_append_left _ ht))
      (by simp)
  obtain ⟨n', ts', us'', heq, rfl, hmore⟩ := hname.of_cons_identifier
  cases heq
  have hlist : Reads (methodSignature.drop 5) [o, e] us'' := hmore.of_ways ho (by decide)
  rw [hlist.of_noParameters ho he (by decide)]
  exact ⟨rs, rfl, htype⟩

/-- A method has a name besides its type. -/
theorem false_of_methodSignature (h : Reads methodSignature [r, o, e] us)
    (hr : r.role ∈ testReturns) (ho : o.role = .mark .openParen)
    (he : e.role = .mark .closeParen) : False := by
  obtain ⟨_, _, _, _, hrest⟩ := h.of_returnType (n := r) hr (Or.inr rfl) ho he
  exact hrest.false_of_ways ho (by decide)

/-- The name of a constructor is the token behind its modifiers. -/
theorem of_constructorSignature (h : Reads constructorSignature [n, o, e] us)
    (hn : n.role = .identifier) (ho : o.role = .mark .openParen)
    (he : e.role = .mark .closeParen) :
    us = [.node .identifier [.leaf n], .node .parameterList [.leaf o, .leaf e]] := by
  have hway : Reads constructorSignature.tail [n, o, e] us := h.of_ways hn (by decide)
  obtain ⟨n', ts', us', heq, rfl, hmore⟩ := hway.of_cons_identifier
  cases heq
  rw [hmore.of_noParameters ho he (by decide)]

end Reads

/-! ### Heads of members -/

/-- A modifier as a tree. -/
def Tree.modifier (t : Token) : Tree := .node .modifier [.leaf t]

/-- The modifiers of tests behind the first one. -/
def testModifiers : List Terminal := [.keyword .async_]

namespace Reads

variable {b f d p r n o e : Token} {as : List Token} {us : List Tree}

/-- Modifiers one behind the other. -/
theorem of_modifiers {rest : List Part} {ts : List Token}
    (h : Reads (many .modifier :: rest) (as ++ ts) us) (has : ∀ t ∈ as, t.role ∈ testModifiers)
    (hways : ∀ x ∈ testModifiers, Begins.ways x (many .modifier :: rest) =
      [c .modifier :: many .modifier :: rest]) :
    ∃ us', us = as.map Tree.modifier ++ us' ∧ Reads (many .modifier :: rest) ts us' := by
  induction as generalizing us with
  | nil => exact ⟨us, rfl, h⟩
  | cons a as ih =>
    obtain ⟨ha, has⟩ := List.forall_mem_cons.mp has
    obtain ⟨us', rfl, hrest⟩ := h.of_modifier rest rfl (hways _ ha)
    obtain ⟨us'', rfl, hmore⟩ := ih hrest has
    exact ⟨us'', rfl, hmore⟩

/-- The head of the constructor of a test class is read as one. -/
theorem of_setup (h : Reads (frontOf .constructorDeclaration) [p, n, o, e] us)
    (hp : p.role = .keyword .public_) (hn : n.role = .identifier) (ho : o.role = .mark .openParen)
    (he : e.role = .mark .closeParen) :
    us = [.modifier p, .node .identifier [.leaf n], .node .parameterList [.leaf o, .leaf e]] := by
  rw [front_constructor] at h
  obtain ⟨us', rfl, hrest⟩ := h.of_modifier constructorSignature.tail hp (by decide)
  rw [of_constructorSignature hrest hn ho he]
  rfl

/-- It is not read as the head of a method. -/
theorem false_of_setup (h : Reads (frontOf .methodDeclaration) [p, n, o, e] us)
    (hp : p.role = .keyword .public_) (hn : n.role = .identifier) (ho : o.role = .mark .openParen)
    (he : e.role = .mark .closeParen) : False := by
  rw [front_method] at h
  obtain ⟨us', rfl, hrest⟩ := h.of_modifier methodSignature.tail hp (by decide)
  exact false_of_methodSignature hrest (hn ▸ by decide) ho he

/-- The head of a test is read as that of a method. -/
theorem of_test (h : Reads (frontOf .methodDeclaration) (b :: ([f] ++ d :: p :: (as ++ [r, n, o, e]))) us)
    (hb : b.role = .mark .openBracket) (hf : f.role = .identifier)
    (hd : d.role = .mark .closeBracket) (hp : p.role = .keyword .public_)
    (has : ∀ t ∈ as, t.role ∈ testModifiers) (hr : r.role ∈ testReturns)
    (hn : n.role = .identifier) (ho : o.role = .mark .openParen)
    (he : e.role = .mark .closeParen) :
    ∃ bs rs, us = .node .attributeList bs :: (p :: as).map Tree.modifier ++
      [.node .returnType rs, .node .identifier [.leaf n], .node .parameterList [.leaf o, .leaf e]] ∧
        Reads [c .type] [r] rs := by
  have hinner : Nest.brackets.Balanced [f] := by simp [Nest.Balanced, hf]; rfl
  rw [front_method] at h
  obtain ⟨bs, us₁, rfl, hmarked⟩ := h.of_attributes methodSignature hb hd hinner (by decide)
  obtain ⟨us₂, rfl, hmodifiers⟩ := hmarked.of_modifier methodSignature.tail hp (by decide)
  obtain ⟨us₃, rfl, hrest⟩ := hmodifiers.of_modifiers has (by decide)
  obtain ⟨rs, rfl, htype⟩ := of_methodSignature hrest hr hn ho he
  exact ⟨bs, rs, by simp [Tree.modifier], htype⟩

/-- It is not read as the head of a constructor. -/
theorem false_of_test
    (h : Reads (frontOf .constructorDeclaration) (b :: ([f] ++ d :: p :: (as ++ [r, n, o, e]))) us)
    (hb : b.role = .mark .openBracket) (hf : f.role = .identifier)
    (hd : d.role = .mark .closeBracket) (hp : p.role = .keyword .public_)
    (has : ∀ t ∈ as, t.role ∈ testModifiers) (hr : r.role ∈ testReturns)
    (hn : n.role = .identifier) : False := by
  have hinner : Nest.brackets.Balanced [f] := by simp [Nest.Balanced, hf]; rfl
  rw [front_constructor] at h
  obtain ⟨bs, us₁, rfl, hmarked⟩ := h.of_attributes constructorSignature hb hd hinner (by decide)
  obtain ⟨us₂, rfl, hmodifiers⟩ := hmarked.of_modifier constructorSignature.tail hp (by decide)
  obtain ⟨us₃, rfl, hrest⟩ := hmodifiers.of_modifiers has (by decide)
  exact false_of_constructorSignature hrest hr hn

end Reads

/-! ### What the heads say -/

namespace Tree

open Source (Constructor Method ReturnType)

theorem text_modifier (t : Token) : (modifier t).text = String.ofList t.lexeme.chars := by
  simp [modifier, text, chars, tokens, tokensBefore, tokensOfAll, charsOfTokens]

variable {p r n o e : Token} {as : List Token} {bs cs rs : List Tree}

/-- A public constructor without parameters. -/
theorem constructor_setup (hp : p.lexeme.chars = "public".toList) :
    (Tree.node .constructorDeclaration ([.modifier p, .node .identifier [.leaf n],
      .node .parameterList [.leaf o, .leaf e]] ++ [.node .block bs])).constructor =
        .ok { access := .publicAccess } := by
  have hwords : (Tree.node .constructorDeclaration ([.modifier p, .node .identifier [.leaf n],
      .node .parameterList [.leaf o, .leaf e]] ++ [.node .block bs])).modifierWords = ["public"] := by
    have htext := text_modifier p
    rw [hp] at htext
    simpa [modifierWords, childrenOf, children, isOf, modifier] using htext
  rw [constructor, hwords]
  rfl

/-- What is looked for behind the attributes and modifiers of a member. -/
theorem find?_behind_modifiers {c : Category} (hc : c ≠ .attributeList ∧ c ≠ .modifier)
    (ms : List Token) (ts : List Tree) :
    (.node .attributeList cs :: ms.map modifier ++ ts).find? (isOf c) = ts.find? (isOf c) := by
  rw [List.cons_append, List.find?_cons_of_neg (by simpa [isOf] using hc.1.symm),
    List.find?_append, List.find?_eq_none.mpr, Option.none_or]
  intro u hu
  obtain ⟨t, _, rfl⟩ := List.mem_map.mp hu
  simpa [modifier, isOf] using hc.2.symm

/-- A method without parameters. -/
theorem method_test {w : Word} (hn : n.lexeme = .word w) (hr : Reads [c .type] [r] rs) :
    (Tree.node .methodDeclaration (.node .attributeList cs :: as.map modifier ++
      [.node .returnType rs, .node .identifier [.leaf n], .node .parameterList [.leaf o, .leaf e],
        .node .block bs])).method =
      .ok {
        name := w.name
        returnType := ReturnType.ofText (String.ofList r.lexeme.chars)
        isAsync := "async" ∈ as.map fun t => String.ofList t.lexeme.chars
        access := access (as.map fun t => String.ofList t.lexeme.chars)
        isStatic := "static" ∈ as.map fun t => String.ofList t.lexeme.chars } := by
  generalize hmethod : Tree.node .methodDeclaration (.node .attributeList cs :: as.map modifier ++
    [.node .returnType rs, .node .identifier [.leaf n], .node .parameterList [.leaf o, .leaf e],
      .node .block bs]) = t
  have hchild : ∀ c, c ≠ .attributeList ∧ c ≠ .modifier → t.child? c =
      [.node .returnType rs, .node .identifier [.leaf n], .node .parameterList [.leaf o, .leaf e],
        .node .block bs].find? (isOf c) := by
    intro c hc
    rw [← hmethod]
    exact find?_behind_modifiers hc as _
  have hname : t.declaredName? = some w.name := by
    rw [declaredName?, hchild _ (by decide)]
    obtain ⟨gap, lexeme, role⟩ := n
    cases hn
    rfl
  have hreturns : t.child? .returnType = some (.node .returnType rs) := hchild _ (by decide)
  have htext : (Tree.node .returnType rs).text = String.ofList r.lexeme.chars := by
    rw [text, hr.chars_node]
    simp [charsOfTokens]
  have hparameters : t.parameters = .ok [] := by
    rw [parameters, hchild _ (by decide)]
    rfl
  have hwords : t.modifierWords = as.map fun t => String.ofList t.lexeme.chars := by
    have hall : (as.map modifier).filter (isOf .modifier) = as.map modifier :=
      List.filter_eq_self.mpr fun u hu => by
        obtain ⟨t, _, rfl⟩ := List.mem_map.mp hu
        rfl
    rw [← hmethod, modifierWords, childrenOf, children, List.cons_append, List.filter_cons_of_neg
      (by simp [isOf]), List.filter_append, hall]
    simp [isOf, Function.comp_def, text_modifier]
  rw [method, hname]
  simp only [hreturns, hparameters, hwords, htext]
  rfl

end Tree

/-! ### The heads of a sheet -/

open Source (Method ReturnType)

theorem chars_keyword (k : Keyword) : (Token.keyword k).lexeme.chars = k.chars :=
  wordOf_chars k.isPlainWord_chars

namespace TestSheet

/-- The method that a test is. -/
def method (t : TestSheet) : Method where
  name := (wordOf t.name).name
  returnType := if t.isAsync then ⟨.task, "Task", none⟩ else ⟨.void, "void", none⟩
  isAsync := t.isAsync
  access := .publicAccess

/-- The modifiers of a test behind the first one. -/
def modifiers (t : TestSheet) : List Token :=
  if t.isAsync then [(Token.keyword .async_).spaced] else []

/-- The return type of a test. -/
def returns (t : TestSheet) : Token :=
  if t.isAsync then (Token.name "Task".toList).spaced else (Token.keyword .void_).spaced

/-- The head of a test. -/
theorem head_eq (t : TestSheet) (g g' : List Char) :
    Token.allBehind g attributeRow ++ Token.allBehind g' (testRow t) =
      (Token.mark .openBracket).behind g :: ([Token.name "Fact".toList] ++ Token.mark .closeBracket ::
        (Token.keyword .public_).behind g' :: (t.modifiers ++
          [t.returns, (Token.name t.name).spaced, Token.mark .openParen, Token.mark .closeParen])) := by
  cases hasync : t.isAsync <;> simp [attributeRow, testRow, modifiers, returns, hasync]

theorem role_modifiers (t : TestSheet) : ∀ u ∈ t.modifiers, u.role ∈ testModifiers := by
  unfold modifiers
  split
  · exact List.forall_mem_cons.mpr ⟨by decide, fun _ h => absurd h List.not_mem_nil⟩
  · exact fun _ h => absurd h List.not_mem_nil

theorem role_returns (t : TestSheet) : t.returns.role ∈ testReturns := by
  unfold returns
  split <;> decide

/-- The words of the modifiers. -/
theorem words_modifiers (t : TestSheet) (g : List Char) :
    (((Token.keyword .public_).behind g :: t.modifiers).map fun u => String.ofList u.lexeme.chars) =
      if t.isAsync then ["public", "async"] else ["public"] := by
  have hpublic : Keyword.public_.chars = "public".toList := by decide
  have hasync : Keyword.async_.chars = "async".toList := by decide
  unfold modifiers
  split <;> simp [chars_keyword, hpublic, hasync]

/-- The type that a test returns, as it is told from its text. -/
theorem ofText_returns (t : TestSheet) : ReturnType.ofText (String.ofList t.returns.lexeme.chars) =
    if t.isAsync then ⟨.task, "Task", none⟩ else ⟨.void, "void", none⟩ := by
  have htask : (Token.name "Task".toList).spaced.lexeme.chars = "Task".toList :=
    wordOf_chars (by decide)
  have hvoid : (Token.keyword .void_).spaced.lexeme.chars = "void".toList :=
    (chars_keyword _).trans (by decide)
  unfold returns
  split
  · rw [htask]
    decide
  · rw [hvoid]
    decide

end TestSheet

namespace Reads

variable {g g' : List Char} {us : List Tree}

theorem role_name {cs : List Char} (h : IsName cs) : (Token.name cs).role = .identifier := by
  simp [Token.name, h.noKeyword]

/-- **The head of a constructor says that it is public and has no parameters.** -/
theorem constructor_setupRow {name : List Char} (hname : IsName name)
    (h : Reads (frontOf .constructorDeclaration) (Token.allBehind g (setupRow name)) us)
    (bs : List Tree) :
    (Tree.node .constructorDeclaration (us ++ [.node .block bs])).constructor =
      .ok { access := .publicAccess } := by
  rw [of_setup h rfl (role_name hname) rfl rfl]
  exact Tree.constructor_setup ((chars_keyword _).trans (by decide))

theorem false_setupRow {name : List Char} (hname : IsName name)
    (h : Reads (frontOf .methodDeclaration) (Token.allBehind g (setupRow name)) us) : False :=
  false_of_setup h rfl (role_name hname) rfl rfl

/-- **The head of a test says what its method is.** -/
theorem method_testRow {t : TestSheet} (hname : IsName t.name)
    (h : Reads (frontOf .methodDeclaration)
      (Token.allBehind g attributeRow ++ Token.allBehind g' (testRow t)) us) (bs : List Tree) :
    (Tree.node .methodDeclaration (us ++ [.node .block bs])).method = .ok t.method := by
  rw [t.head_eq] at h
  obtain ⟨cs, rs, rfl, htype⟩ := of_test h rfl (by decide) rfl rfl t.role_modifiers
    t.role_returns (role_name hname) rfl rfl
  rw [List.append_assoc]
  refine (Tree.method_test rfl htype).trans ?_
  rw [t.words_modifiers, t.ofText_returns]
  cases hasync : t.isAsync <;> simp [TestSheet.method, Tree.access, hasync]

theorem false_testRow {t : TestSheet} (hname : IsName t.name)
    (h : Reads (frontOf .constructorDeclaration)
      (Token.allBehind g attributeRow ++ Token.allBehind g' (testRow t)) us) : False := by
  rw [t.head_eq] at h
  exact false_of_test h rfl (by decide) rfl rfl t.role_modifiers t.role_returns
    (role_name hname)

end Reads

end TestScaffold.CSharp
