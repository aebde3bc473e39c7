/-
  TestScaffold/Proofs/CSharp/Members.lean
  =======================================
  **Where a member of a class ends.**

  A member ends with its first semicolon or its first block outside of all
  brackets.  So a field and a method that stand at the beginning of the members
  are read as members of their own, whatever follows them.
-/
import TestScaffold.Proofs.CSharp.Steps

namespace TestScaffold.CSharp

open Grammar

/-! ### Choices -/

/-- The categories that a category stands for. -/
def chosen (c : Category) : List Category :=
  (rules c).filterMap fun
    | [.one (.category d)] => some d
    | _ => none

/-- Whether a category is a choice that leaves no node. -/
def isChoice (c : Category) : Bool :=
  isTransparent c && decide (rules c = oneOf (chosen c))

namespace Reads

variable {rest : List Part} {ts : List Token} {us : List Tree}

/-- A choice is read as what was chosen. -/
theorem of_choice {c : Category} (h : Reads (.one (.category c) :: rest) ts us)
    (hc : isChoice c = true) : ∃ d ∈ chosen c, Reads (.one (.category d) :: rest) ts us := by
  rw [isChoice, Bool.and_eq_true, decide_eq_true_eq] at hc
  obtain ⟨rhs, hrule, ts₁, us₁, ts₂, us₂, rfl, rfl, hhead, hrest⟩ := h.of_cons_category
  rw [hc.2] at hrule
  obtain ⟨d, hd, rfl⟩ := List.mem_map.mp hrule
  obtain ⟨rhs', hrule', ts₃, us₃, ts₄, us₄, rfl, rfl, hinner, hnil⟩ := hhead.of_cons_category
  obtain ⟨rfl, rfl⟩ := hnil.of_nil
  refine ⟨d, hd, ?_⟩
  simp only [Tree.ofCategory, hc.1, if_true, List.append_nil]
  exact .category (List.mem_singleton.mpr rfl) hrule' hinner hrest

/-- What is repeated is there where a token is left. -/
theorem of_many_cons {s : Symbol} {t : Token} (h : Reads [.many s] (t :: ts) us) :
    Reads [.one s, .many s] (t :: ts) us := by
  obtain ⟨way, hway, hreads⟩ := h.exists_unfold
  rcases List.mem_cons.mp hway with rfl | hway
  · exact hreads
  · rw [List.mem_singleton.mp hway] at hreads
    cases hreads.of_nil.1

/-- A terminal that is named just once is missing from no reading. -/
theorem false_of_missing {parts : List Part} {strangers : List Terminal} (h : Reads parts ts us)
    (hparts : (strangers.any fun x => decide (.one (.token x) ∈ parts)) = true)
    (hts : ∀ t ∈ ts, t.role ∉ strangers) (hjoined : ∀ m, .joined m ∉ strangers) : False := by
  obtain ⟨x, hx, hmem⟩ := List.any_eq_true.mp hparts
  obtain ⟨t, ht, hfits⟩ := h.exists_of_one (of_decide_eq_true hmem)
  refine hts t ht ?_
  rw [Token.fits_of_role (fun m e => hjoined m (e ▸ hx))] at hfits
  rwa [beq_iff_eq.mp hfits]

end Reads

/-! ### Kinds of members -/

/-- The declarations that a member can be. -/
def declarations : List Category :=
  [.classDeclaration, .structDeclaration, .interfaceDeclaration, .recordDeclaration,
    .enumDeclaration, .delegateDeclaration, .methodDeclaration, .constructorDeclaration,
    .fieldDeclaration, .propertyDeclaration, .indexerDeclaration, .eventDeclaration,
    .destructorDeclaration, .operatorDeclaration, .conversionDeclaration, .namespaceDeclaration,
    .usingDirective]

/-- **The first member is a declaration**, unless it is a conditional section. -/
theorem Reads.exists_declaration {t : Token} {ts : List Token} {us : List Tree}
    (h : Reads [.many (.category .memberItem)] (t :: ts) us) (ht : t.role ≠ .directiveIf) :
    ∃ d ∈ declarations, ∃ rhs ∈ rules d, ∃ p cs q us', t :: ts = p ++ q ∧
      us = .node d cs :: us' ∧ Reads rhs p cs ∧ Reads [.many (.category .memberItem)] q us' := by
  have hsure : ∀ d ∈ declarations, Reads [.one (.category d), .many (.category .memberItem)]
      (t :: ts) us → ∃ d ∈ declarations, ∃ rhs ∈ rules d, ∃ p cs q us', t :: ts = p ++ q ∧
        us = .node d cs :: us' ∧ Reads rhs p cs ∧ Reads [.many (.category .memberItem)] q us' := by
    intro d hd hreads
    obtain ⟨rhs, hrule, p, cs, q, us', hts, hus, hhead, hrest⟩ := hreads.of_cons_category
    have hnode : ∀ d ∈ declarations, isTransparent d = false := by decide
    simp only [Tree.ofCategory, hnode d hd, Bool.false_eq_true, if_false,
      List.singleton_append] at hus
    exact ⟨d, hd, rhs, hrule, p, cs, q, us', hts, hus, hhead, hrest⟩
  have hitem : ∀ d ∈ chosen .memberItem, d = .memberDeclaration ∨ d = .memberSection := by decide
  have hmember : ∀ d ∈ chosen .memberDeclaration, d = .typeDeclaration ∨ d ∈ declarations := by
    decide
  have htype : ∀ d ∈ chosen .typeDeclaration, d ∈ declarations := by decide
  obtain ⟨d, hd, hreads⟩ := h.of_many_cons.of_choice (by decide)
  rcases hitem d hd with rfl | rfl
  · obtain ⟨d, hd, hreads⟩ := hreads.of_choice (by decide)
    rcases hmember d hd with rfl | hd
    · obtain ⟨d, hd, hreads⟩ := hreads.of_choice (by decide)
      exact hsure d (htype d hd) hreads
    · exact hsure d hd hreads
  · -- a conditional section begins with its directive
    obtain ⟨rhs, hrule, ts₁, us₁, ts₂, us₂, hts, _, hhead, _⟩ := hreads.of_cons_category
    rw [List.mem_singleton.mp hrule] at hhead
    obtain ⟨u, ts', us', rfl, _, hfits, _⟩ := hhead.of_cons_token
    cases hts
    exact absurd (beq_iff_eq.mp hfits) ht

/-- The declarations that a member can be where the words of the others are missing. -/
def plainDeclarations : List Category :=
  [.delegateDeclaration, .fieldDeclaration, .methodDeclaration, .constructorDeclaration,
    .propertyDeclaration]

/-- The words and marks of the other declarations but classes and of conditional sections, and the
arrow of expressions that stand for a body. -/
def classStrangers : List Terminal :=
  [.keyword .struct_, .keyword .interface_, .keyword .record_, .keyword .enum_,
    .keyword .this_, .keyword .event_, .keyword .operator_, .keyword .namespace_, .keyword .using_,
    .mark .tilde, .mark .colon, .mark .arrow, .directiveIf]

/-- All of these, and the word of classes. -/
def memberStrangers : List Terminal := .keyword .class_ :: classStrangers

theorem missing_of_declaration : ∀ d ∈ declarations, d ∈ plainDeclarations ∨
    (d = .classDeclaration ∧
      ∀ rhs ∈ rules d, (memberStrangers.any fun x => decide (.one (.token x) ∈ rhs)) = true) ∨
    ∀ rhs ∈ rules d, (classStrangers.any fun x => decide (.one (.token x) ∈ rhs)) = true := by
  decide

/-- What a plain declaration has before its end. -/
def frontOf (d : Category) : List Part := ((rules d).headD []).dropLast

/-- What a plain declaration ends with. -/
def backOf : Category → Part
  | .methodDeclaration | .constructorDeclaration => .one (.category .functionBody)
  | .propertyDeclaration => .one (.category .propertyBody)
  | _ => .one (.token (.mark .semicolon))

theorem eq_front_back : ∀ d ∈ plainDeclarations, rules d = [frontOf d ++ [backOf d]] := by
  decide

/-- The plain declarations that may have a block. -/
def blockDeclarations : List Category :=
  [.methodDeclaration, .constructorDeclaration, .propertyDeclaration]

/-- The end of a member: a semicolon, or what begins with a brace. -/
def IsEnd (d : Category) (x : Token) (tail : List Token) : Prop :=
  (x.role = .mark .semicolon ∧ tail = []) ∨
    (x.role = .mark .openBrace ∧ d ∈ blockDeclarations)

/-- Whatever an end begins with. -/
theorem IsEnd.role {d : Category} {x : Token} {tail : List Token} (h : IsEnd d x tail) :
    x.role = .mark .semicolon ∨ x.role = .mark .openBrace :=
  h.imp And.left And.left

/-- The body of a function is a block or a semicolon, where there is no arrow. -/
theorem Reads.isEnd_functionBody {ts : List Token} {us : List Tree} {d : Category}
    (h : Reads [.one (.category .functionBody)] ts us) (hts : ∀ t ∈ ts, t.role ≠ .mark .arrow)
    (hd : d ∈ blockDeclarations) : ∃ x tail, ts = x :: tail ∧ IsEnd d x tail := by
  obtain ⟨rhs, hrule, ts₁, us₁, ts₂, us₂, rfl, rfl, hhead, hnil⟩ := h.of_cons_category
  obtain ⟨rfl, rfl⟩ := hnil.of_nil
  rw [List.append_nil] at hts ⊢
  simp only [rules, List.mem_cons, List.not_mem_nil, or_false] at hrule
  rcases hrule with rfl | rfl | rfl
  · obtain ⟨rhs, hrule, ts₃, us₃, ts₄, us₄, rfl, rfl, hblock, hnil⟩ := hhead.of_cons_category
    rw [List.mem_singleton.mp hrule] at hblock
    obtain ⟨x, tail, us', rfl, rfl, hfits, _⟩ := hblock.of_cons_token
    exact ⟨x, _, rfl, Or.inr ⟨beq_iff_eq.mp hfits, hd⟩⟩
  · obtain ⟨rhs, hrule, ts₃, us₃, ts₄, us₄, rfl, rfl, harrow, _⟩ := hhead.of_cons_category
    rw [List.mem_singleton.mp hrule] at harrow
    obtain ⟨x, tail, us', rfl, rfl, hfits, _⟩ := harrow.of_cons_token
    exact absurd (beq_iff_eq.mp hfits) (hts x List.mem_cons_self)
  · obtain ⟨x, tail, us', rfl, rfl, hfits, hnil⟩ := hhead.of_cons_token
    exact ⟨x, _, rfl, Or.inl ⟨beq_iff_eq.mp hfits, hnil.of_nil.1⟩⟩

/-- The body of a function that begins with a brace is a block. -/
theorem Reads.of_functionBody {t : Token} {ts : List Token} {us : List Tree}
    (h : Reads [.one (.category .functionBody)] (t :: ts) us) (ht : t.role = .mark .openBrace) :
    ∃ bs, us = [.node .block bs] ∧ Reads (braces [many .statement]) (t :: ts) bs := by
  obtain ⟨rhs, hrule, ts₁, us₁, ts₂, us₂, hts, rfl, hhead, hnil⟩ := h.of_cons_category
  obtain ⟨rfl, rfl⟩ := hnil.of_nil
  rw [List.append_nil] at hts
  subst hts
  simp only [rules, List.mem_cons, List.not_mem_nil, or_false] at hrule
  rcases hrule with rfl | rfl | rfl
  · obtain ⟨rhs, hrule, ts₁, bs, ts₂, us₂, hts, rfl, hblock, hnil⟩ := hhead.of_cons_category
    obtain ⟨rfl, rfl⟩ := hnil.of_nil
    rw [List.append_nil] at hts
    subst hts
    exact ⟨bs, rfl, List.mem_singleton.mp hrule ▸ hblock⟩
  · exact (hhead.false_of_ways ht (by decide)).elim
  · exact (hhead.false_of_ways ht (by decide)).elim

/-- The body of a property begins with a brace, where there is no arrow. -/
theorem Reads.isEnd_propertyBody {ts : List Token} {us : List Tree}
    (h : Reads [.one (.category .propertyBody)] ts us) (hts : ∀ t ∈ ts, t.role ≠ .mark .arrow) :
    ∃ x tail, ts = x :: tail ∧ IsEnd .propertyDeclaration x tail := by
  have hphrase : Phrase .propertyBody ts := h.phrase
  obtain ⟨x, tail, rfl⟩ := List.exists_cons_of_ne_nil (hphrase.ne_nil (by decide))
  have hmem := hphrase.role_mem [.mark .openBrace, .mark .arrow] (by decide)
  simp only [List.mem_cons, List.not_mem_nil, or_false] at hmem
  exact ⟨x, tail, rfl, Or.inr ⟨hmem.resolve_right (hts x List.mem_cons_self), by decide⟩⟩

/-- **A plain declaration is cut before its end.** -/
theorem Reads.exists_cut {d : Category} (hd : d ∈ plainDeclarations) {rhs : List Part}
    (hrule : rhs ∈ rules d) {p : List Token} {cs : List Tree} (h : Reads rhs p cs)
    (hp : ∀ t ∈ p, t.role ≠ .mark .arrow) :
    ∃ pre x tail us₁ us₂, p = pre ++ x :: tail ∧ cs = us₁ ++ us₂ ∧ Reads (frontOf d) pre us₁ ∧
      Reads [backOf d] (x :: tail) us₂ ∧ IsEnd d x tail := by
  rw [eq_front_back d hd, List.mem_singleton] at hrule
  subst hrule
  obtain ⟨pre, us₁, back, us₂, rfl, rfl, hfront, hback⟩ := h.of_append
  have hend : ∃ x tail, back = x :: tail ∧ IsEnd d x tail := by
    have hback' : ∀ t ∈ back, t.role ≠ .mark .arrow := fun t ht =>
      hp t (List.mem_append_right _ ht)
    have hsemicolon : Reads [.one (.token (.mark .semicolon))] back us₂ →
        ∃ x tail, back = x :: tail ∧ IsEnd d x tail := by
      intro hreads
      obtain ⟨x, tail, us', rfl, _, hfits, hnil⟩ := hreads.of_cons_token
      exact ⟨x, tail, rfl, Or.inl ⟨beq_iff_eq.mp hfits, hnil.of_nil.1⟩⟩
    simp only [plainDeclarations, List.mem_cons, List.not_mem_nil, or_false] at hd
    rcases hd with rfl | rfl | rfl | rfl | rfl
    · exact hsemicolon hback
    · exact hsemicolon hback
    · exact Reads.isEnd_functionBody hback hback' (by decide)
    · exact Reads.isEnd_functionBody hback hback' (by decide)
    · exact Reads.isEnd_propertyBody hback hback'
  obtain ⟨x, tail, rfl, hend⟩ := hend
  exact ⟨pre, x, tail, us₁, us₂, rfl, rfl, hfront, hback, hend⟩

/-! ### Where members end -/

/-- Outside of all brackets there is no semicolon before the end of a plain declaration. -/
theorem Reads.front_semicolon {d : Category} (hd : d ∈ plainDeclarations) {pre : List Token}
    {us : List Tree} (h : Reads (frontOf d) pre us) :
    Nest.brackets.Balanced pre ∧ ∀ t ∈ Nest.brackets.outer 0 pre, t.role ≠ .mark .semicolon := by
  have hall : ∀ d ∈ plainDeclarations, Nest.brackets.only (fun _ => true)
      (· != .mark .semicolon) (frontOf d) = true := by decide +kernel
  obtain ⟨hbalanced, houter⟩ := h.outer_only Nest.fits_brackets (hall d hd) fun _ _ => rfl
  exact ⟨hbalanced, fun t ht => bne_iff_ne.mp (houter t ht)⟩

/-- Nor is there a brace before the block of a declaration. -/
theorem Reads.front_brace {d : Category} (hd : d ∈ blockDeclarations) {pre : List Token}
    {us : List Tree} (h : Reads (frontOf d) pre us) :
    ∀ t ∈ Nest.brackets.outer 0 pre, t.role ≠ .mark .openBrace := by
  have hall : ∀ d ∈ blockDeclarations, Nest.brackets.only (fun _ => true)
      (· != .mark .openBrace) (frontOf d) = true := by decide
  intro t ht
  exact bne_iff_ne.mp ((h.outer_only Nest.fits_brackets (hall d hd) fun _ _ => rfl).2 t ht)

theorem Nest.Balanced.mem_outer {n : Nest} {ts us : List Token} {t : Token} (h : n.Balanced ts) :
    t ∈ n.outer 0 (ts ++ t :: us) := by
  rw [h.outer_append, List.mem_append]
  exact Or.inr (by simp [Nest.outer])

/-- Balanced tokens end where the first token of a kind that they lack stands. -/
theorem Nest.Balanced.eq_of_append {n : Nest} {pre head tail rest : List Token} {x o : Token}
    (hpre : n.Balanced pre) (hhead : n.Balanced head)
    (ho : ∀ t ∈ n.outer 0 pre, t.role ≠ o.role) (hx : ∀ t ∈ n.outer 0 head, t.role ≠ x.role)
    (h : pre ++ x :: tail = head ++ o :: rest) : pre = head := by
  rcases List.append_eq_append_iff.mp h with ⟨m, hm, hrest⟩ | ⟨m, hm, hrest⟩
  · cases m with
    | nil => simpa using hm.symm
    | cons t m =>
      obtain ⟨rfl, _⟩ := List.cons.inj hrest
      subst hm
      exact absurd rfl (hx x hpre.mem_outer)
  · cases m with
    | nil => simpa using hm
    | cons t m =>
      obtain ⟨rfl, _⟩ := List.cons.inj hrest
      subst hm
      exact absurd rfl (ho o hhead.mem_outer)

/-- What needs a terminal that is missing is not there. -/
theorem Reads.eq_nil_of_missing {c : Category} {part : Part} {strangers : List Terminal}
    {ts : List Token} {us : List Tree} (h : Reads [part] ts us)
    (hpart : part = .many (.category c) ∨ part = .opt (.category c))
    (hc : ((rules c).all fun rhs => strangers.any fun x => decide (.one (.token x) ∈ rhs)) = true)
    (hts : ∀ t ∈ ts, t.role ∉ strangers) (hjoined : ∀ m, .joined m ∉ strangers) : ts = [] := by
  have hnone : ∀ {rest : List Part}, ¬ Reads (.one (.category c) :: rest) ts us := by
    intro rest hreads
    obtain ⟨rhs, hrule, ts₁, us₁, ts₂, us₂, rfl, _, hhead, _⟩ := hreads.of_cons_category
    exact hhead.false_of_missing (List.all_eq_true.mp hc rhs hrule)
      (fun t ht => hts t (List.mem_append_left _ ht)) hjoined
  obtain ⟨way, hway, hreads⟩ := h.exists_unfold
  rcases hpart with rfl | rfl
  · rcases List.mem_cons.mp hway with rfl | hway
    · exact absurd hreads hnone
    · exact (List.mem_singleton.mp hway ▸ hreads).of_nil.1
  · rcases List.mem_cons.mp hway with rfl | hway
    · exact absurd hreads hnone
    · exact (List.mem_singleton.mp hway ▸ hreads).of_nil.1

/-- **Before the end of a function its parameters are closed**, where there is no colon. -/
theorem Reads.last_front {d : Category}
    (hd : d ∈ [Category.delegateDeclaration, .methodDeclaration, .constructorDeclaration])
    {pre : List Token} {us : List Tree} (h : Reads (frontOf d) pre us)
    (hpre : ∀ t ∈ pre, t.role ∉ [Terminal.mark .colon]) :
    ∀ t ∈ pre.getLast?, t.role = .mark .closeParen := by
  have hall : ∀ d ∈ [Category.delegateDeclaration, .methodDeclaration, .constructorDeclaration],
      (∃ c ∈ [Category.constraintClause, .constructorInitializer],
        (frontOf d = (frontOf d).dropLast ++ [.many (.category c)] ∨
          frontOf d = (frontOf d).dropLast ++ [.opt (.category c)])) ∧
      endsOnly (· == .mark .closeParen) (frontOf d).dropLast = true ∧
      ((frontOf d).dropLast.all fun part => part.symbol != .category .compilationUnit) = true := by
    decide
  have hcolon : ∀ c ∈ [Category.constraintClause, .constructorInitializer],
      ((rules c).all fun rhs => [Terminal.mark .colon].any fun x =>
        decide (.one (.token x) ∈ rhs)) = true := by decide
  obtain ⟨⟨c, hc, heq⟩, hends, hinner⟩ := hall d hd
  have hlast : ∀ {part : Part}, part = .many (.category c) ∨ part = .opt (.category c) →
      Reads ((frontOf d).dropLast ++ [part]) pre us →
        ∀ t ∈ pre.getLast?, t.role = .mark .closeParen := by
    intro part hpart hreads
    obtain ⟨ts₁, us₁, ts₂, us₂, rfl, _, hfirst, hrest⟩ := hreads.of_append
    rw [hrest.eq_nil_of_missing hpart (hcolon c hc)
      (fun t ht => hpre t (List.mem_append_right _ ht)) (by simp), List.append_nil]
    intro t ht
    refine beq_iff_eq.mp (hfirst.last_only (fun part hmem => ?_) hends t ht)
    exact bne_iff_ne.mp (List.all_eq_true.mp hinner part hmem)
  rcases heq with heq | heq
  · exact hlast (Or.inl rfl) (heq ▸ h)
  · exact hlast (Or.inr rfl) (heq ▸ h)

/-! ### The first member -/

/-- **The first member is cut before its end.** -/
theorem Reads.exists_first {ts : List Token} {us : List Tree} (hne : ts ≠ [])
    (h : Reads [.many (.category .memberItem)] ts us) (hts : ∀ t ∈ ts, t.role ∉ memberStrangers) :
    ∃ d ∈ plainDeclarations, ∃ pre x tail q us₁ us₂ us', ts = pre ++ x :: (tail ++ q) ∧
      us = .node d (us₁ ++ us₂) :: us' ∧ Reads (frontOf d) pre us₁ ∧
      Reads [backOf d] (x :: tail) us₂ ∧ IsEnd d x tail ∧
      Reads [.many (.category .memberItem)] q us' := by
  obtain ⟨t, ts, rfl⟩ := List.exists_cons_of_ne_nil hne
  have ht : t.role ≠ .directiveIf := fun e => hts t List.mem_cons_self (e ▸ by decide)
  obtain ⟨d, hd, rhs, hrule, p, cs, q, us', heq, rfl, hreads, hrest⟩ := h.exists_declaration ht
  rw [heq] at hts ⊢
  have hp : ∀ t ∈ p, t.role ∉ memberStrangers := fun t ht => hts t (List.mem_append_left _ ht)
  have hplain : d ∈ plainDeclarations := by
    rcases missing_of_declaration d hd with hplain | ⟨_, hmissing⟩ | hmissing
    · exact hplain
    · exact (hreads.false_of_missing (hmissing rhs hrule) hp (by simp [memberStrangers, classStrangers])).elim
    · refine (hreads.false_of_missing (hmissing rhs hrule) (fun t ht hmem => ?_)
        (by simp [classStrangers])).elim
      exact hp t ht (List.mem_cons_of_mem _ hmem)
  obtain ⟨pre, x, tail, us₁, us₂, rfl, rfl, hfront, hback, hend⟩ :=
    hreads.exists_cut hplain hrule fun t ht e => hp t ht (e ▸ by decide)
  exact ⟨d, hplain, pre, x, tail, q, us₁, us₂, us', by simp, rfl, hfront, hback, hend, hrest⟩

/-- The tokens of a field: what stands before the semicolon, and the semicolon. -/
structure FieldTokens (head : List Token) (o : Token) : Prop where
  nonempty : head ≠ []
  balanced : Nest.brackets.Balanced head
  outer : ∀ t ∈ Nest.brackets.outer 0 head, t.role ≠ .mark .semicolon ∧ t.role ≠ .mark .openBrace
  last : ∀ t ∈ head.getLast?, t.role ≠ .mark .closeParen
  semicolon : o.role = .mark .semicolon

/-- **A field that stands first is the first member**, whatever follows it. -/
theorem FieldTokens.first {head rest : List Token} {o : Token} {us : List Tree}
    (hfield : FieldTokens head o)
    (h : Reads [.many (.category .memberItem)] (head ++ o :: rest) us)
    (hts : ∀ t ∈ head ++ o :: rest, t.role ∉ memberStrangers) :
    ∃ cs us', us = .node .fieldDeclaration cs :: us' ∧
      Reads [.many (.category .memberItem)] rest us' := by
  obtain ⟨d, hd, pre, x, tail, q, us₁, us₂, us', heq, rfl, hfront, hback, hend, hrest⟩ :=
    h.exists_first (List.append_ne_nil_of_left_ne_nil hfield.nonempty _) hts
  obtain ⟨hpre, hsemicolon⟩ := hfront.front_semicolon hd
  obtain rfl : pre = head := by
    refine hpre.eq_of_append hfield.balanced (hfield.semicolon ▸ hsemicolon) (fun t ht => ?_)
      heq.symm
    rcases hend.role with hx | hx
    · exact hx ▸ (hfield.outer t ht).1
    · exact hx ▸ (hfield.outer t ht).2
  obtain ⟨rfl, hq⟩ := List.cons.inj (List.append_cancel_left heq)
  have htail : tail = [] := by
    rcases hend with ⟨_, htail⟩ | ⟨hbrace, _⟩
    · exact htail
    · rw [hfield.semicolon] at hbrace
      cases hbrace
  subst htail
  have hcolon : ∀ t ∈ pre, t.role ∉ [Terminal.mark .colon] := by
    intro t ht hmem
    exact hts t (List.mem_append_left _ ht) (List.mem_singleton.mp hmem ▸ by decide)
  have hmem := List.getLast?_eq_some_getLast hfield.nonempty
  have hfunction : d ∉ [Category.delegateDeclaration, .methodDeclaration,
      .constructorDeclaration] := fun hd =>
    hfield.last _ hmem (hfront.last_front hd hcolon _ hmem)
  have hproperty : d ≠ .propertyDeclaration := by
    rintro rfl
    exact hback.false_of_ways hfield.semicolon (by decide)
  have hfield : d = .fieldDeclaration := by
    simp only [plainDeclarations, List.mem_cons, List.not_mem_nil, or_false] at hd hfunction
    tauto
  subst hfield
  rw [List.nil_append] at hq
  exact ⟨_, us', rfl, hq ▸ hrest⟩

/-- The tokens of a function: its head, and its block. -/
structure FunctionTokens (head : List Token) (o : Token) (inner : List Token) (c : Token) :
    Prop where
  nonempty : head ≠ []
  balanced : Nest.brackets.Balanced head
  outer : ∀ t ∈ Nest.brackets.outer 0 head, t.role ≠ .mark .semicolon ∧ t.role ≠ .mark .openBrace
  last : ∀ t ∈ head.getLast?, t.role = .mark .closeParen
  opens : o.role = .mark .openBrace
  closes : c.role = .mark .closeBrace
  inner : Nest.brackets.Balanced inner

namespace FunctionTokens

variable {head inner rest : List Token} {o c : Token} {us : List Tree}

theorem group (h : FunctionTokens head o inner c) : Nest.brackets.Group o inner c :=
  ⟨h.opens ▸ by decide, h.closes ▸ by decide, h.closes ▸ by decide, h.inner⟩

/-- No semicolon stands outside of all brackets, unless one follows. -/
theorem outer_semicolon (h : FunctionTokens head o inner c)
    (hrest : ∀ t ∈ Nest.brackets.outer 0 rest, t.role ≠ .mark .semicolon) :
    ∀ t ∈ Nest.brackets.outer 0 (head ++ o :: (inner ++ c :: rest)),
      t.role ≠ .mark .semicolon := by
  rw [h.balanced.outer_append, h.group.outer]
  intro t ht
  rcases List.mem_append.mp ht with ht | ht
  · exact (h.outer t ht).1
  · rcases List.mem_cons.mp ht with rfl | ht
    · simp [h.opens]
    · exact hrest t ht

/-- **A function with a block that stands first is the first member**, whatever follows it, if
nothing that follows ends with a semicolon. -/
theorem first (hfunction : FunctionTokens head o inner c)
    (h : Reads [.many (.category .memberItem)] (head ++ o :: (inner ++ c :: rest)) us)
    (hts : ∀ t ∈ head ++ o :: (inner ++ c :: rest), t.role ∉ memberStrangers)
    (hrest : ∀ t ∈ Nest.brackets.outer 0 rest, t.role ≠ .mark .semicolon) :
    ∃ d ∈ [Category.methodDeclaration, .constructorDeclaration], ∃ us₁ bs us',
      us = .node d (us₁ ++ [.node .block bs]) :: us' ∧ Reads (frontOf d) head us₁ ∧
        Reads [.many (.category .memberItem)] rest us' := by
  obtain ⟨d, hd, pre, x, tail, q, us₁, us₂, us', heq, rfl, hfront, hback, hend, hmore⟩ :=
    h.exists_first (List.append_ne_nil_of_left_ne_nil hfunction.nonempty _) hts
  obtain ⟨hpre, hsemicolon⟩ := hfront.front_semicolon hd
  -- no semicolon stands outside of all brackets, so the end is a block
  obtain ⟨hx, hblock⟩ : x.role = .mark .openBrace ∧ d ∈ blockDeclarations :=
    hend.resolve_left fun hx =>
      hfunction.outer_semicolon hrest x (heq ▸ hpre.mem_outer) hx.1
  obtain rfl : pre = head := by
    refine hpre.eq_of_append hfunction.balanced (hfunction.opens ▸ hfront.front_brace hblock)
      (fun t ht => ?_) heq.symm
    exact hx ▸ (hfunction.outer t ht).2
  have hd' : d ∈ [Category.methodDeclaration, .constructorDeclaration] := by
    have hproperty : d ≠ .propertyDeclaration := by
      rintro rfl
      have hends := hfront.last_only (by decide)
        (show endsOnly (· != .mark .closeParen) (frontOf .propertyDeclaration) = true by
          decide)
      have hmem := List.getLast?_eq_some_getLast hfunction.nonempty
      exact bne_iff_ne.mp (hends _ hmem) (hfunction.last _ hmem)
    simp only [blockDeclarations, List.mem_cons, List.not_mem_nil, or_false] at hblock ⊢
    tauto
  obtain ⟨rfl, hq⟩ := List.cons.inj (List.append_cancel_left heq)
  have hback' : Reads [.one (.category .functionBody)] (o :: tail) us₂ := by
    simp only [List.mem_cons, List.not_mem_nil, or_false] at hd'
    rcases hd' with rfl | rfl <;> exact hback
  obtain ⟨bs, rfl, hreads⟩ := hback'.of_functionBody hfunction.opens
  obtain ⟨_, _, rfl, _, _⟩ := hreads.of_group Nest.fits_brackets (by decide) hfunction.group
    (q := q) (by rw [List.cons_append, hq])
  exact ⟨d, hd', us₁, bs, us', rfl, hfront, hmore⟩

end FunctionTokens

end TestScaffold.CSharp
