/-
  TestScaffold/Proofs/CSharp/Items.lean
  =====================================
  **A directive at the beginning of a file is read as one**, whatever follows it.

  What begins like a directive may be a declaration of a local that is disposed
  of, too.  But such a declaration has a type and a name behind it before an equals
  sign, and it has no point before its last name.
-/
import TestScaffold.Proofs.CSharp.Members

namespace TestScaffold.CSharp

open Grammar

/-! ### Declarations of locals -/

/-- The tokens that the last name of a directive stands behind. -/
def directiveLeads : List Terminal :=
  [.keyword .static_, .keyword .unsafe_, .mark .dot, .mark .doubleColon]

namespace Reads

variable {ts : List Token} {us : List Tree}

/-- The last item of a list, and what stands before it. -/
theorem exists_last {c : Category}
    (h : Reads [.one (.category c), .more (.category c)] ts us) :
    ∃ xs last rhs us', ts = xs ++ last ∧ (∀ t ∈ xs.getLast?, t.role = .mark .comma) ∧
      Nest.brackets.Balanced xs ∧ rhs ∈ rules c ∧ Reads rhs last us' := by
  induction hn : ts.length using Nat.strongRecOn generalizing ts us with
  | ind n ih =>
    subst hn
    obtain ⟨rhs, hrule, ts₁, us₁, ts₂, us₂, rfl, rfl, hhead, hrest⟩ := h.of_cons_category
    obtain ⟨way, hway, hreads⟩ := hrest.exists_unfold
    rcases List.mem_cons.mp hway with rfl | hway
    · obtain ⟨comma, ts₃, us₃, rfl, rfl, hcomma, hmore⟩ := hreads.of_cons_token
      obtain ⟨xs, last, rhs', us', rfl, hlast, hbalanced, hrule', hreads'⟩ :=
        ih ts₃.length (by rw [List.length_append, List.length_cons]; omega) hmore rfl
      have hrole : comma.role = .mark .comma := beq_iff_eq.mp hcomma
      refine ⟨ts₁ ++ comma :: xs, last, rhs', us', by simp, ?_, ?_, hrule', hreads'⟩
      · intro t ht
        rw [List.getLast?_append_of_ne_nil _ (List.cons_ne_nil _ _)] at ht
        cases xs with
        | nil =>
          cases ht
          exact hrole
        | cons x xs => exact hlast t (by simpa using ht)
      · have hone : Nest.brackets.Balanced [comma] := by simp [Nest.Balanced, hrole]; rfl
        exact (hhead.balanced Nest.fits_brackets hrule).append (hone.append hbalanced)
    · rw [List.mem_singleton.mp hway] at hreads
      obtain ⟨rfl, rfl⟩ := hreads.of_nil
      exact ⟨[], ts₁, rhs, us₁, by simp, by simp, .nil, hrule, hhead⟩

/-- The parts of a declaration of locals: the type with what stands before it, and the rest. -/
theorem exists_type (h : Reads [many .modifier, c .variableDeclaration] ts us) :
    ∃ type names us', ts = type ++ names ∧ type ≠ [] ∧ Nest.brackets.Balanced type ∧
      (∀ t ∈ Nest.brackets.outer 0 type, t.role ≠ .mark .assign) ∧
      (∀ t ∈ type.getLast?, t.role ∉ directiveLeads) ∧
      Reads [c .declarator, .more (.category .declarator)] names us' := by
  have hparts : Reads ([many .modifier] ++ [c .variableDeclaration]) ts us := h
  obtain ⟨modifiers, us₁, ts₂, us₂, rfl, rfl, hmodifiers, hvariables⟩ := hparts.of_append
  obtain ⟨rhs, hrule, ts₃, us₃, ts₄, us₄, rfl, rfl, hdeclaration, hnil⟩ := hvariables.of_cons_category
  obtain ⟨rfl, rfl⟩ := hnil.of_nil
  rw [List.mem_singleton.mp hrule] at hdeclaration
  have hboth : Reads ([c .type] ++ [list .declarator]) ts₃ us₃ := hdeclaration
  obtain ⟨type, us₄, names, us₅, rfl, rfl, htype, hnames⟩ := hboth.of_append
  have hnames' : Reads [c .declarator, .more (.category .declarator)] names us₅ := by
    obtain ⟨way, hway, hreads⟩ := hnames.exists_unfold
    exact List.mem_singleton.mp hway ▸ hreads
  have hne : type ≠ [] := htype.phrase.ne_nil (by decide)
  have hwanted : ∀ parts ∈ [[many .modifier], [c .type]],
      Nest.brackets.only (fun _ => true) (· != .mark .assign) parts = true := by decide
  obtain ⟨hbalanced, houter⟩ := hmodifiers.outer_only Nest.fits_brackets
    (hwanted _ List.mem_cons_self) fun _ _ => rfl
  obtain ⟨hbalanced', houter'⟩ := htype.outer_only Nest.fits_brackets
    (hwanted _ (List.mem_cons_of_mem _ List.mem_cons_self)) fun _ _ => rfl
  refine ⟨modifiers ++ type, names, us₅, by simp, by simp [hne], hbalanced.append hbalanced',
    fun t ht => ?_, fun t ht => ?_, hnames'⟩
  · rw [hbalanced.outer_append, List.mem_append] at ht
    rcases ht with ht | ht
    · exact bne_iff_ne.mp (houter t ht)
    · exact bne_iff_ne.mp (houter' t ht)
  · rw [List.getLast?_append_of_ne_nil _ hne] at ht
    have hends : endsOnly (fun x => decide (x ∉ directiveLeads)) [c .type] = true := by
      decide
    exact of_decide_eq_true (htype.last_only (by decide) hends t ht)

/-- A name with what stands before it in a directive: the last simple name, and the rest. -/
theorem exists_simpleName (h : Reads [optK .static_, optK .unsafe_, c .name] ts us) :
    ∃ lead last us', ts = lead ++ last ∧ (∀ t ∈ lead.getLast?, t.role ∈ directiveLeads) ∧
      Reads [c .simpleName] last us' := by
  have hparts : Reads ([optK .static_, optK .unsafe_] ++ [c .name]) ts us := h
  obtain ⟨marks, us₁, ts₂, us₂, rfl, rfl, hmarks, hname⟩ := hparts.of_append
  obtain ⟨rhs, hrule, name, us₃, ts₄, us₄, rfl, rfl, hreads, hnil⟩ := hname.of_cons_category
  obtain ⟨rfl, rfl⟩ := hnil.of_nil
  -- the last simple name stands behind all of a name but the last part
  have hsplit : ∀ rhs ∈ rules .name, rhs = rhs.dropLast ++ [c .simpleName] ∧
      Inner rhs.dropLast ∧ endsOnly (· ∈ directiveLeads) rhs.dropLast = true := by decide
  obtain ⟨hrhs, hinner, hends⟩ := hsplit rhs hrule
  rw [hrhs] at hreads
  obtain ⟨lead, us₅, last, us₆, rfl, rfl, hlead, hlast⟩ := hreads.of_append
  refine ⟨marks ++ lead, last, us₆, by simp, fun t ht => ?_, hlast⟩
  cases hcase : lead with
  | nil =>
    have hmarksEnds : endsOnly (· ∈ directiveLeads) [optK .static_, optK .unsafe_] = true := by
      decide
    rw [hcase, List.append_nil] at ht
    exact of_decide_eq_true (hmarks.last_only (by decide) hmarksEnds t ht)
  | cons u us =>
    rw [List.getLast?_append_of_ne_nil _ (by simp [hcase])] at ht
    exact of_decide_eq_true (hlead.last_only hinner hends t ht)

/-- A declarator without a value is a single name, unless it ends with a bracket. -/
theorem of_declarator {rhs : List Part} (h : Reads rhs ts us) (hrule : rhs ∈ rules .declarator)
    (hassign : ∀ t ∈ Nest.brackets.outer 0 ts, t.role ≠ .mark .assign)
    (hlast : ∀ t ∈ ts.getLast?, t.role ∉ [Terminal.mark .closeBracket, .mark .closeParen]) :
    ∃ t, ts = [t] ∧ t.role ≠ .mark .greater := by
  have hsplit : ∀ rhs ∈ rules .declarator, rhs = rhs.dropLast ++ [opt .initializer] ∧
      Nest.brackets.only (fun _ => true) (fun _ => true) rhs.dropLast = true := by decide
  obtain ⟨hrhs, honly⟩ := hsplit rhs hrule
  rw [hrhs] at h
  obtain ⟨front, us₁, value, us₂, rfl, rfl, hfront, hvalue⟩ := h.of_append
  obtain ⟨hbalanced, _⟩ := hfront.outer_only Nest.fits_brackets honly fun _ _ => rfl
  have hnone : value = [] := by
    rcases hvalue.of_cons_opt with hnil | hone
    · exact hnil.of_nil.1
    · obtain ⟨rhs', hrule', ts₁, us₃, ts₂, us₄, rfl, _, hhead, _⟩ := hone.of_cons_category
      rw [List.mem_singleton.mp hrule'] at hhead
      obtain ⟨sign, ts₃, us₅, rfl, _, hsign, _⟩ := hhead.of_cons_token
      exact absurd (beq_iff_eq.mp hsign) (hassign sign hbalanced.mem_outer)
  subst hnone
  rw [List.append_nil] at hlast ⊢
  -- what ends with a bracket is ruled out, so that the name is all that is left
  have hends : ∀ {part : Part} {ts₁ us₁}, Reads [part] ts₁ us₁ → ts₁ <:+ front →
      endsOnly (· ∈ [Terminal.mark .closeBracket, .mark .closeParen]) [part] = true →
      part.symbol ≠ .category .compilationUnit → ts₁ = [] := by
    intro part ts₁ us₁ hreads ⟨pre, hpre⟩ hends hinner
    by_contra hne
    have hmem := List.getLast?_eq_some_getLast hne
    have hrole := hreads.last_only (List.forall_mem_singleton.mpr hinner) hends _ hmem
    refine hlast _ ?_ (of_decide_eq_true hrole)
    rw [← hpre, List.getLast?_append_of_ne_nil _ hne]
    exact hmem
  simp only [rules, List.mem_cons, List.not_mem_nil, or_false] at hrule
  rcases hrule with rfl | rfl
  · have hparts : Reads ([c .identifier] ++ [opt .bracketArguments]) front us₁ := hfront
    obtain ⟨name, us₃, brackets, us₄, rfl, rfl, hname, hbrackets⟩ := hparts.of_append
    have hnil := hends hbrackets (List.suffix_append _ _) (by decide) (by decide)
    obtain ⟨t, ts', us', rfl, rfl, hrest⟩ := hname.of_cons_identifier
    obtain ⟨rfl, rfl⟩ := hrest.of_nil
    have hgreater : endsOnly (· != .mark .greater) [c .identifier] = true := by decide
    exact ⟨t, by rw [hnil]; rfl, bne_iff_ne.mp (hname.last_only (by decide) hgreater t rfl)⟩
  · have hnil := hends hfront (List.suffix_refl _) (by decide) (by decide)
    exact absurd hnil (hfront.phrase.ne_nil (by decide))

/-- A simple name is a single token, unless it has type arguments. -/
theorem of_simpleName (h : Reads [c .simpleName] ts us)
    (hlast : ∀ t ∈ ts.getLast?, t.role ≠ .mark .greater) : ∃ t, ts = [t] := by
  obtain ⟨rhs, hrule, ts₁, us₁, ts₂, us₂, rfl, rfl, hhead, hnil⟩ := h.of_cons_category
  obtain ⟨rfl, rfl⟩ := hnil.of_nil
  rw [List.append_nil] at hlast ⊢
  simp only [rules, List.mem_cons, List.not_mem_nil, or_false] at hrule
  rcases hrule with rfl | rfl
  · obtain ⟨t, ts', us', rfl, rfl, hrest⟩ := hhead.of_cons_identifier
    exact ⟨t, by rw [hrest.of_nil.1]⟩
  · have hparts : Reads ([c .identifier] ++ [c .typeArguments]) ts₁ us₁ := hhead
    obtain ⟨name, us₃, arguments, us₄, rfl, rfl, _, harguments⟩ := hparts.of_append
    have hne : arguments ≠ [] := harguments.phrase.ne_nil (by decide)
    have hends : endsOnly (· == .mark .greater) [c .typeArguments] = true := by decide
    have hmem := List.getLast?_eq_some_getLast hne
    refine absurd (beq_iff_eq.mp (harguments.last_only (by decide) hends _ hmem)) (hlast _ ?_)
    rwa [List.getLast?_append_of_ne_nil _ hne]

/-- **A name is no declaration of a local.** -/
theorem false_of_declaration_name (h : Reads [optK .static_, optK .unsafe_, c .name] ts us)
    {us' : List Tree} (h' : Reads [many .modifier, c .variableDeclaration] ts us') : False := by
  have honly : Nest.brackets.only (fun _ => true) (· != .mark .assign)
      [optK .static_, optK .unsafe_, c .name] = true := by decide
  have hends : endsOnly (fun x => decide (x ∉ [Terminal.mark .closeBracket, .mark .closeParen]))
      [optK .static_, optK .unsafe_, c .name] = true := by decide
  have houter := (h.outer_only Nest.fits_brackets honly fun _ _ => rfl).2
  have hlasts := h.last_only (by decide) hends
  obtain ⟨lead, simple, us₁, hts, hlead, hsimple⟩ := h.exists_simpleName
  obtain ⟨type, names, us₂, rfl, hne, hbalanced, _, htype, hnames⟩ := h'.exists_type
  obtain ⟨xs, last, rhs, us₃, rfl, hxs, hbalanced', hrule, hlast⟩ := hnames.exists_last
  have hlastne : last ≠ [] := Phrase.ne_nil (by decide) ⟨rhs, hrule, us₃, hlast⟩
  rw [hbalanced.outer_append, hbalanced'.outer_append] at houter
  rw [List.getLast?_append_of_ne_nil _ (by simp [hlastne]),
    List.getLast?_append_of_ne_nil _ hlastne] at hlasts
  obtain ⟨t, rfl, ht⟩ := hlast.of_declarator hrule
    (fun t ht => bne_iff_ne.mp (houter t (List.mem_append_right _ (List.mem_append_right _ ht))))
    fun t ht => of_decide_eq_true (hlasts t ht)
  have hsimplene : simple ≠ [] := hsimple.phrase.ne_nil (by decide)
  obtain ⟨t', rfl⟩ := hsimple.of_simpleName fun u hu => by
    have heq := congrArg List.getLast? hts
    rw [List.getLast?_append_of_ne_nil _ hsimplene, ← List.append_assoc, List.getLast?_concat] at heq
    rw [← heq] at hu
    cases hu
    exact ht
  rw [← List.append_assoc] at hts
  obtain ⟨rfl, _⟩ := List.append_inj' hts rfl
  -- behind a type or a comma there is no part of a directive
  cases hcase : xs with
  | nil =>
    rw [hcase, List.append_nil] at hlead
    have hmem := List.getLast?_eq_some_getLast hne
    exact htype _ hmem (hlead _ hmem)
  | cons u us =>
    have hxsne : xs ≠ [] := by simp [hcase]
    have hmem := List.getLast?_eq_some_getLast hxsne
    rw [List.getLast?_append_of_ne_nil _ hxsne] at hlead
    have hcomma := hlead _ hmem
    rw [hxs _ hmem] at hcomma
    exact absurd hcomma (by decide)

/-- **An alias with its type is no declaration of a local.** -/
theorem false_of_declaration_alias
    (h : Reads [optK .unsafe_, c .identifier, m .assign, c .type] ts us)
    {us' : List Tree} (h' : Reads [many .modifier, c .variableDeclaration] ts us') : False := by
  have hparts : Reads ([optK .unsafe_, c .identifier] ++ [m .assign, c .type]) ts us := h
  obtain ⟨front, us₁, ts₂, us₂, rfl, rfl, hfront, hrest⟩ := hparts.of_append
  obtain ⟨sign, value, us₃, rfl, rfl, hsign, _⟩ := hrest.of_cons_token
  have honly : Nest.brackets.only (fun _ => true) (fun _ => true)
      [optK .unsafe_, c .identifier] = true := by decide
  obtain ⟨hbalanced, _⟩ := hfront.outer_only Nest.fits_brackets honly fun _ _ => rfl
  obtain ⟨type, names, us₄, hts, hne, hbalanced', houter, hlast, hnames⟩ := h'.exists_type
  have hassign : sign.role = .mark .assign := beq_iff_eq.mp hsign
  rcases List.append_eq_append_iff.mp hts with ⟨more, rfl, hmore⟩ | ⟨more, rfl, hmore⟩
  · cases more with
    | nil =>
      rw [List.nil_append] at hmore
      subst hmore
      exact hnames.false_of_ways hassign (by decide)
    | cons u more =>
      obtain ⟨rfl, _⟩ := List.cons.inj hmore
      exact houter sign hbalanced.mem_outer hassign
  · cases more with
    | nil =>
      rw [List.nil_append] at hmore
      subst hmore
      exact hnames.false_of_ways hassign (by decide)
    | cons u more =>
      obtain ⟨t, type', rfl⟩ := List.exists_cons_of_ne_nil hne
      rcases hfront.of_cons_opt with hname | hunsafe
      · obtain ⟨a, ts', us', heq, _, hnil⟩ := hname.of_cons_identifier
        have htail := (List.cons.inj heq).2
        rw [hnil.of_nil.1] at htail
        simp at htail
      · obtain ⟨mark, ts', us', heq, _, hmark, hname⟩ := hunsafe.of_cons_token
        obtain ⟨a, ts'', us'', rfl, _, hnil⟩ := hname.of_cons_identifier
        obtain ⟨rfl, htail⟩ := List.cons.inj heq
        rw [hnil.of_nil.1] at htail
        cases type' with
        | nil => exact hlast t rfl (beq_iff_eq.mp hmark ▸ by decide)
        | cons v vs => simp at htail

end Reads

/-! ### Directives -/

/-- The tokens of a directive: what stands before the semicolon, and the semicolon. -/
structure DirectiveTokens (head : List Token) (o : Token) : Prop where
  read : ∃ rhs ∈ rules .usingDirective, ∃ us, Reads rhs.dropLast head us
  semicolon : o.role = .mark .semicolon

theorem directive_eq : ∀ rhs ∈ rules .usingDirective, rhs = rhs.dropLast ++ [m .semicolon] := by
  decide

/-- A directive ends with its semicolon. -/
theorem Phrase.exists_directive {ts : List Token} (h : Phrase .usingDirective ts) :
    ∃ head o, ts = head ++ [o] ∧ DirectiveTokens head o := by
  obtain ⟨rhs, hrule, us, hreads⟩ := h
  rw [directive_eq rhs hrule] at hreads
  obtain ⟨head, us₁, ts₂, us₂, rfl, rfl, hhead, hlast⟩ := hreads.of_append
  obtain ⟨o, ts₃, us₃, rfl, rfl, ho, hnil⟩ := hlast.of_cons_token
  obtain ⟨rfl, rfl⟩ := hnil.of_nil
  exact ⟨head, o, rfl, ⟨rhs, hrule, us₁, hhead⟩, beq_iff_eq.mp ho⟩

namespace DirectiveTokens

variable {head rest : List Token} {o : Token} {us : List Tree}

theorem outer (h : DirectiveTokens head o) : Nest.brackets.Balanced head ∧
    ∀ t ∈ Nest.brackets.outer 0 head, t.role ≠ .mark .semicolon := by
  have hall : ∀ rhs ∈ rules .usingDirective, Nest.brackets.only (fun _ => true)
      (· != .mark .semicolon) rhs.dropLast = true := by decide
  obtain ⟨rhs, hrule, us, hreads⟩ := h.read
  obtain ⟨hbalanced, houter⟩ := hreads.outer_only Nest.fits_brackets (hall rhs hrule) fun _ _ => rfl
  exact ⟨hbalanced, fun t ht => bne_iff_ne.mp (houter t ht)⟩

/-- Some tokens are what stands behind the word of a directive. -/
def Read (ts : List Token) : Prop :=
  (∃ us, Reads [optK .unsafe_, c .identifier, m .assign, c .type] ts us) ∨
    ∃ us, Reads [optK .static_, optK .unsafe_, c .name] ts us

theorem outer_of_read {ts : List Token} (h : Read ts) : Nest.brackets.Balanced ts ∧
    ∀ t ∈ Nest.brackets.outer 0 ts, t.role ≠ .mark .semicolon := by
  have hall : ∀ parts ∈ [[optK .unsafe_, c .identifier, m .assign, c .type],
      [optK .static_, optK .unsafe_, c .name]],
      Nest.brackets.only (fun _ => true) (· != .mark .semicolon) parts = true := by decide
  have houter : ∀ {parts : List Part} {us : List Tree}, Reads parts ts us →
      Nest.brackets.only (fun _ => true) (· != .mark .semicolon) parts = true →
      Nest.brackets.Balanced ts ∧
        ∀ t ∈ Nest.brackets.outer 0 ts, t.role ≠ .mark .semicolon := by
    intro parts us hreads honly
    obtain ⟨hbalanced, houter⟩ := hreads.outer_only Nest.fits_brackets honly fun _ _ => rfl
    exact ⟨hbalanced, fun t ht => bne_iff_ne.mp (houter t ht)⟩
  rcases h with ⟨us, h⟩ | ⟨us, h⟩
  · exact houter h (hall _ List.mem_cons_self)
  · exact houter h (hall _ (List.mem_cons_of_mem _ List.mem_cons_self))

/-- A directive begins with its word, or with the word before it. -/
theorem exists_cons (h : DirectiveTokens head o) : ∃ t ts, head = t :: ts ∧
    ((t.role = .keyword .using_ ∧ Read ts) ∨
      (t.role = .keyword .global_ ∧ ∃ u us, ts = u :: us ∧ u.role = .keyword .using_)) := by
  obtain ⟨rhs, hrule, us, hreads⟩ := h.read
  have hglobal : ∀ {rest : List Part},
      Reads (optK .global_ :: k .using_ :: rest) head us → ∃ t ts, head = t :: ts ∧
        ((t.role = .keyword .using_ ∧ ∃ us', Reads rest ts us') ∨
          (t.role = .keyword .global_ ∧ ∃ u us, ts = u :: us ∧ u.role = .keyword .using_)) := by
    intro rest hreads
    rcases hreads.of_cons_opt with hplain | hmarked
    · obtain ⟨t, ts, us', rfl, _, ht, hrest⟩ := hplain.of_cons_token
      exact ⟨t, ts, rfl, Or.inl ⟨beq_iff_eq.mp ht, us', hrest⟩⟩
    · obtain ⟨t, ts, us', rfl, _, ht, hmore⟩ := hmarked.of_cons_token
      obtain ⟨u, us'', _, rfl, _, hu, _⟩ := hmore.of_cons_token
      exact ⟨t, _, rfl, Or.inr ⟨beq_iff_eq.mp ht, u, us'', rfl, beq_iff_eq.mp hu⟩⟩
  simp only [rules, List.mem_cons, List.not_mem_nil, or_false] at hrule
  rcases hrule with rfl | rfl
  · obtain ⟨t, ts, rfl, ⟨ht, hread⟩ | hmarked⟩ := hglobal hreads
    · exact ⟨t, ts, rfl, Or.inl ⟨ht, Or.inl hread⟩⟩
    · exact ⟨t, ts, rfl, Or.inr hmarked⟩
  · obtain ⟨t, ts, rfl, ⟨ht, hread⟩ | hmarked⟩ := hglobal hreads
    · exact ⟨t, ts, rfl, Or.inl ⟨ht, Or.inr hread⟩⟩
    · exact ⟨t, ts, rfl, Or.inr hmarked⟩

end DirectiveTokens

/-! ### Statements -/

/-- A statement that begins with a word is of one of the kinds that may begin with it. -/
theorem Reads.exists_statement {t : Token} {ts : List Token} {us : List Tree} {rest : List Part}
    (h : Reads (c .statement :: rest) (t :: ts) us) (ht : t.role ≠ .mark .semicolon) :
    ∃ d ∈ chosen .statement, Begins.never t.role d = false ∧ ∃ rhs ∈ rules d,
      ∃ p cs q, ts = p ++ q ∧ Reads rhs (t :: p) cs := by
  obtain ⟨rhs, hrule, ts₁, us₁, q, us₂, heq, rfl, hstatement, _⟩ := h.of_cons_category
  have hkind : ∀ rhs ∈ rules .statement, rhs = [m .semicolon] ∨
      ∃ d ∈ chosen .statement, d ≠ .compilationUnit ∧ rhs = [c d] := by decide
  rcases hkind rhs hrule with rfl | ⟨d, hd, hinner, rfl⟩
  · obtain ⟨t', ts', us', rfl, _, ht', _⟩ := hstatement.of_cons_token
    obtain ⟨rfl, _⟩ := List.cons.inj heq
    exact absurd (beq_iff_eq.mp ht') ht
  · cases ts₁ with
    | nil => exact absurd rfl (hstatement.phrase.ne_nil hinner)
    | cons t' p =>
      obtain ⟨rfl, rfl⟩ := List.cons.inj heq
      obtain ⟨rhs, hrule, cs, hreads⟩ := hstatement.phrase
      exact ⟨d, hd, hstatement.never_eq_false hinner, rhs, hrule, p, cs, q, rfl, hreads⟩

namespace DirectiveTokens

variable {head rest : List Token} {o : Token} {us : List Tree} {parts : List Part}

/-- No statement has the word of directives behind the one that may stand before it. -/
theorem false_of_global {t u : Token} {ts : List Token}
    (h : Reads (c .statement :: parts) (t :: u :: ts) us) (ht : t.role = .keyword .global_)
    (hu : u.role = .keyword .using_) : False := by
  obtain ⟨d, hd, hnever, rhs, hrule, p, cs, q, hts, hreads⟩ := h.exists_statement (by simp [ht])
  rw [ht] at hnever
  have hkind : ∀ d ∈ chosen .statement, Begins.never (.keyword .global_) d = false →
      (d = .labeledStatement ∧ rules d = [[c .identifier, m .colon, c .statement]]) ∨
        ∀ rhs ∈ rules d, ∀ way ∈ Begins.ways (.keyword .global_) rhs,
          Nest.brackets.only (fun _ => true) (· != .keyword .using_) way = true ∧
            way.tail.any Part.isNeeded = true ∧ Inner way := by decide +kernel
  rcases hkind d hd hnever with ⟨rfl, hlabeled⟩ | hways
  · -- a label has a colon behind it
    rw [hlabeled, List.mem_singleton] at hrule
    subst hrule
    obtain ⟨t', ts', us', heq, _, hcolon⟩ := hreads.of_cons_identifier
    obtain ⟨v, p', us'', rfl, _, hv, _⟩ := hcolon.of_cons_token
    obtain ⟨_, rfl⟩ := List.cons.inj heq
    obtain ⟨rfl, _⟩ := List.cons.inj hts
    rw [beq_iff_eq.mp hv] at hu
    cases hu
  · -- in the other kinds it stands inside of brackets only
    obtain ⟨way, hway, hreads⟩ := hreads.exists_way
    obtain ⟨s, rest, rfl⟩ : ∃ s rest, way = .one s :: rest :=
      (eq_of_mem_unfold (List.mem_filter.mp hway).1).resolve_left fun e => by
        subst e
        cases hreads.of_nil.1
    rw [ht] at hway
    obtain ⟨honly, hneeded, hinner⟩ := hways rhs hrule _ hway
    obtain ⟨p', rfl⟩ : ∃ p', p = u :: p' := by
      cases p with
      | nil =>
        rw [List.tail_cons, hreads.any_isNeeded_of_singleton hinner] at hneeded
        cases hneeded
      | cons v p' =>
        obtain ⟨rfl, _⟩ := List.cons.inj hts
        exact ⟨p', rfl⟩
    have hone : Nest.brackets.Balanced [t] := by simp [Nest.Balanced, ht]; rfl
    have houter := (hreads.outer_only Nest.fits_brackets honly fun _ _ => rfl).2
    exact bne_iff_ne.mp (houter u hone.mem_outer) hu

/-- **A directive is no statement.** -/
theorem false_of_statement (hd : DirectiveTokens head o)
    (h : Reads (c .statement :: parts) (head ++ o :: rest) us) : False := by
  obtain ⟨t, ts, rfl, ⟨ht, hread⟩ | ⟨ht, u, us, rfl, hu⟩⟩ := hd.exists_cons
  · obtain ⟨hbalanced, houter⟩ := outer_of_read hread
    obtain ⟨d, hd', hnever, rhs, hrule, p, cs, q, hts, hreads⟩ := h.exists_statement (by simp [ht])
    rw [ht] at hnever
    have hkind : ∀ d ∈ chosen .statement, Begins.never (.keyword .using_) d = false →
        d = .localDeclaration ∨ d = .usingStatement := by decide
    rcases hkind d hd' hnever with rfl | rfl
    · rw [List.mem_singleton.mp hrule] at hreads
      have hway : Reads (k .using_ :: ([many .modifier, c .variableDeclaration] ++ [m .semicolon]))
          (t :: p) cs := hreads.of_ways ht (by decide)
      obtain ⟨t', ts', cs', heq, _, _, hmore⟩ := hway.of_cons_token
      obtain ⟨rfl, rfl⟩ := List.cons.inj heq
      obtain ⟨names, cs₁, ts₂, cs₂, rfl, rfl, hnames, hlast⟩ := hmore.of_append
      obtain ⟨x, ts₃, cs₃, rfl, rfl, hx, _⟩ := hlast.of_cons_token
      have honly : Nest.brackets.only (fun _ => true) (· != .mark .semicolon)
          [many .modifier, c .variableDeclaration] = true := by decide +kernel
      obtain ⟨hbalanced', houter'⟩ := hnames.outer_only Nest.fits_brackets honly fun _ _ => rfl
      have hsame : names = ts := by
        refine hbalanced'.eq_of_append hbalanced (fun v hv => ?_) (fun v hv => ?_)
          (x := x) (o := o) (by simpa using hts.symm)
        · exact hd.semicolon ▸ bne_iff_ne.mp (houter' v hv)
        · exact (beq_iff_eq.mp hx : x.role = _) ▸ houter v hv
      subst hsame
      rcases hread with ⟨us', hread⟩ | ⟨us', hread⟩
      · exact hread.false_of_declaration_alias hnames
      · exact hread.false_of_declaration_name hnames
    · rw [List.mem_singleton.mp hrule] at hreads
      have hway : Reads (k .using_ :: parens [c .resource] ++ [c .statement]) (t :: p) cs :=
        hreads.of_ways ht (by decide)
      obtain ⟨t', ts', cs', heq, _, _, hmore⟩ := hway.of_cons_token
      obtain ⟨rfl, rfl⟩ := List.cons.inj heq
      obtain ⟨x, ts₃, cs₃, rfl, rfl, hx, _⟩ := hmore.of_cons_token
      cases ts with
      | nil =>
        rcases hread with ⟨us', hread⟩ | ⟨us', hread⟩
        · exact absurd (hread.any_isNeeded (by decide)) (by decide)
        · exact absurd (hread.any_isNeeded (by decide)) (by decide)
      | cons y ts =>
        obtain ⟨rfl, _⟩ := List.cons.inj hts
        rcases hread with ⟨us', hread⟩ | ⟨us', hread⟩
        · exact hread.false_of_ways (beq_iff_eq.mp hx) (by decide)
        · exact hread.false_of_ways (beq_iff_eq.mp hx) (by decide)
  · exact false_of_global h ht hu

/-- **A directive that stands first is the first item of a file**, whatever follows it. -/
theorem first (hd : DirectiveTokens head o)
    (h : Reads [many .topLevelItem] (head ++ o :: rest) us) :
    ∃ rhs ∈ rules .usingDirective, ∃ cs us', us = .node .usingDirective cs :: us' ∧
      Reads rhs (head ++ [o]) cs ∧ Reads [many .topLevelItem] rest us' := by
  obtain ⟨hbalanced, houter⟩ := hd.outer
  obtain ⟨t, ts, hcons, hwords⟩ := hd.exists_cons
  have hrole : t.role = .keyword .using_ ∨ t.role = .keyword .global_ :=
    hwords.imp And.left And.left
  have hreads : Reads [many .topLevelItem] (t :: (ts ++ o :: rest)) us := by
    rwa [hcons, List.cons_append] at h
  obtain ⟨d, hd', hitem⟩ := hreads.of_many_cons.of_choice (by decide)
  have hkind : ∀ x ∈ [Terminal.keyword .using_, .keyword .global_], ∀ d ∈ chosen .topLevelItem,
      d ≠ .compilationUnit ∧
        (Begins.never x d = false → d = .usingDirective ∨ d = .statement) := by decide
  obtain ⟨hinner, hkind⟩ := hkind t.role (by simp [hrole]) d hd'
  rw [← List.cons_append, ← hcons] at hitem
  rcases hkind (Reads.never_eq_false (by rwa [hcons] at hitem) hinner) with rfl | rfl
  · obtain ⟨rhs, hrule, p, cs, q, us', hts, rfl, hdirective, hrest⟩ := hitem.of_cons_category
    have hparts := directive_eq rhs hrule ▸ hdirective
    obtain ⟨front, us₁, ts₂, us₂, rfl, rfl, hfront, hlast⟩ := hparts.of_append
    obtain ⟨x, ts₃, us₃, rfl, rfl, hx, hnil⟩ := hlast.of_cons_token
    obtain ⟨rfl, rfl⟩ := hnil.of_nil
    obtain ⟨hbalanced', houter'⟩ := outer (o := x) ⟨⟨rhs, hrule, us₁, hfront⟩, beq_iff_eq.mp hx⟩
    rw [List.append_assoc, List.singleton_append] at hts
    obtain rfl : front = head :=
      hbalanced'.eq_of_append hbalanced (hd.semicolon ▸ houter')
        ((beq_iff_eq.mp hx : x.role = _) ▸ houter) hts.symm
    obtain ⟨rfl, rfl⟩ := List.cons.inj (List.append_cancel_left hts)
    exact ⟨rhs, hrule, _, us', rfl, hdirective, hrest⟩
  · exact (hd.false_of_statement hitem).elim

end DirectiveTokens

/-! ### Namespaces -/

/-- A name ends where a block begins, or a semicolon stands. -/
theorem Reads.eq_of_name {pre tail name rest : List Token} {us : List Tree} {x o : Token}
    (h : Reads [c .name] pre us) (hbalanced : Nest.brackets.Balanced name)
    (hname : ∀ v ∈ name, v.role ≠ .mark .semicolon ∧ v.role ≠ .mark .openBrace)
    (hx : x.role = .mark .semicolon ∨ x.role = .mark .openBrace) (ho : o.role = .mark .openBrace)
    (heq : pre ++ x :: tail = name ++ o :: rest) : pre = name := by
  have honly : Nest.brackets.only (fun _ => true) (· != .mark .openBrace) [c .name] = true := by
    decide
  obtain ⟨hbalanced', houter⟩ := h.outer_only Nest.fits_brackets honly fun _ _ => rfl
  refine hbalanced'.eq_of_append hbalanced (fun v hv => ?_) (fun v hv => ?_) heq
  · exact ho ▸ bne_iff_ne.mp (houter v hv)
  · have hv' := hname v (Nest.mem_outer hv)
    exact hx.elim (fun hx => hx ▸ hv'.1) fun hx => hx ▸ hv'.2

/-- **A namespace with a block is read as one.** -/
theorem Reads.of_namespace {t o e : Token} {name inner : List Token} {us : List Tree}
    (h : Reads [many .topLevelItem] (t :: (name ++ o :: (inner ++ [e]))) us)
    (ht : t.role = .keyword .namespace_) (hbalanced : Nest.brackets.Balanced name)
    (hname : ∀ v ∈ name, v.role ≠ .mark .semicolon ∧ v.role ≠ .mark .openBrace)
    (ho : o.role = .mark .openBrace) (he : e.role = .mark .closeBrace)
    (hinner : Nest.brackets.Balanced inner) :
    ∃ rhs ns ms, us = [.node .namespaceDeclaration [.leaf t, .node .name ns,
        .node .declarationList (.leaf o :: ms ++ [.leaf e])]] ∧ Reads rhs name ns ∧
      Reads [many .memberItem] inner ms := by
  have hgroup : Nest.brackets.Group o inner e :=
    ⟨ho ▸ by decide, he ▸ by decide, he ▸ by decide, hinner⟩
  obtain ⟨d, hd, hitem⟩ := h.of_many_cons.of_choice (by decide)
  have hkind : ∀ d ∈ chosen .topLevelItem, d ≠ .compilationUnit ∧
      (Begins.never (.keyword .namespace_) d = false →
        d = .namespaceDeclaration ∨ d = .fileScopedNamespace) := by decide
  obtain ⟨hinner', hkind⟩ := hkind d hd
  have hnever := hitem.never_eq_false hinner'
  rw [ht] at hnever
  obtain ⟨rhs, hrule, p, cs, q, us', hts, rfl, hreads, hrest⟩ := hitem.of_cons_category
  rcases hkind hnever with rfl | rfl
  · rw [List.mem_singleton.mp hrule] at hreads
    obtain ⟨t', p', cs', rfl, rfl, _, hparts⟩ := hreads.of_cons_token
    obtain ⟨rfl, htail⟩ := List.cons.inj hts
    have hparts' : Reads ([c .name] ++ [c .declarationList, endMark]) p' cs' := hparts
    obtain ⟨pre, cs₁, ts₂, cs₂, rfl, rfl, hpre, hbody⟩ := hparts'.of_append
    obtain ⟨rhs', hrule', block, cs₃, more, cs₄, rfl, rfl, hlist, hsemicolon⟩ :=
      hbody.of_cons_category
    have hlist' : Reads (braces [many .memberItem]) block cs₃ := List.mem_singleton.mp hrule' ▸ hlist
    obtain ⟨x, block', cs₅, rfl, _, hx, _⟩ := Reads.of_cons_token hlist'
    have heq : pre ++ x :: (block' ++ more ++ q) = name ++ o :: (inner ++ [e]) := by
      simpa using htail.symm
    obtain rfl := hpre.eq_of_name hbalanced hname (Or.inr (beq_iff_eq.mp hx)) ho heq
    obtain ⟨ms, hblock, hnone, rfl, hmembers⟩ := hlist'.of_group Nest.fits_brackets (by decide)
      hgroup (q := more ++ q) (by simpa using htail.symm)
    obtain ⟨rfl, rfl⟩ := List.append_eq_nil_iff.mp hnone
    obtain ⟨rhs, hrule, name', ns, ts₃, cs₅, rfl, rfl, hname', hnil⟩ := hpre.of_cons_category
    obtain ⟨rfl, rfl⟩ := hnil.of_nil
    rw [hsemicolon.trees_eq_nil (by decide), hrest.trees_eq_nil (by decide)]
    exact ⟨rhs, ns, ms, rfl, by simpa using hname', hmembers⟩
  · rw [List.mem_singleton.mp hrule] at hreads
    obtain ⟨t', p', cs', rfl, rfl, _, hparts⟩ := hreads.of_cons_token
    obtain ⟨rfl, htail⟩ := List.cons.inj hts
    have hparts' : Reads ([c .name] ++ [m .semicolon]) p' cs' := hparts
    obtain ⟨pre, cs₁, ts₂, cs₂, rfl, rfl, hpre, hlast⟩ := hparts'.of_append
    obtain ⟨x, ts₃, cs₃, rfl, rfl, hx, _⟩ := hlast.of_cons_token
    have hx' : x.role = .mark .semicolon := beq_iff_eq.mp hx
    have heq : pre ++ x :: (ts₃ ++ q) = name ++ o :: (inner ++ [e]) := by simpa using htail.symm
    obtain rfl := hpre.eq_of_name hbalanced hname (Or.inl hx') ho heq
    obtain ⟨rfl, _⟩ := List.cons.inj (List.append_cancel_left heq)
    rw [ho] at hx'
    cases hx'

/-! ### Classes -/

/-- What a class has behind its name. -/
def classRest : List Part :=
  [opt .typeParameters, opt .parameterList, opt .baseList, many .constraintClause, c .typeBody]

/-- A block right behind the name of a class is its body. -/
theorem Reads.of_classRest {ts q inner : List Token} {o e : Token} {us : List Tree}
    (h : Reads classRest ts us) (ho : o.role = .mark .openBrace)
    (hgroup : Nest.brackets.Group o inner e) (hts : ts ++ q = o :: (inner ++ [e])) :
    ∃ ms, q = [] ∧ us = [.node .declarationList (.leaf o :: ms ++ [.leaf e])] ∧
      Reads [many .memberItem] inner ms := by
  cases ts with
  | nil => exact absurd (h.any_isNeeded (by decide)) (by decide)
  | cons o' ts =>
    obtain ⟨rfl, htail⟩ := List.cons.inj hts
    have hbody : Reads [c .typeBody] (o' :: ts) us := h.of_ways ho (by decide)
    obtain ⟨rhs, hrule, ts₁, us₁, ts₂, us₂, heq, rfl, hreads, hnil⟩ := hbody.of_cons_category
    obtain ⟨rfl, rfl⟩ := hnil.of_nil
    rw [List.append_nil] at heq
    subst heq
    simp only [rules, List.mem_cons, List.not_mem_nil, or_false] at hrule
    rcases hrule with rfl | rfl
    · obtain ⟨rhs, hrule, block, ms, more, us₄, heq, rfl, hlist, hsemicolon⟩ :=
        hreads.of_cons_category
      have hlist' : Reads (braces [many .memberItem]) block ms := List.mem_singleton.mp hrule ▸ hlist
      obtain ⟨ms, rfl, hnone, rfl, hmembers⟩ := hlist'.of_group Nest.fits_brackets (by decide)
        hgroup (q := more ++ q) (by rw [← List.append_assoc, ← heq, hts])
      obtain ⟨rfl, rfl⟩ := List.append_eq_nil_iff.mp hnone
      rw [hsemicolon.trees_eq_nil (by decide)]
      exact ⟨ms, rfl, rfl, hmembers⟩
    · exact (hreads.false_of_ways ho (by decide)).elim

/-- Of the declarations that are not told by a word of their own, only a class has the word of
classes behind its modifier. -/
theorem Reads.of_publicClass {d : Category} {rhs : List Part} {p w : Token}
    {ts q rest : List Token} {cs : List Tree} (h : Reads rhs (p :: ts) cs)
    (hd : d ∈ .classDeclaration :: plainDeclarations) (hrule : rhs ∈ rules d)
    (hp : p.role = .keyword .public_) (hw : w.role = .keyword .class_)
    (hts : ts ++ q = w :: rest) :
    d = .classDeclaration ∧ ∃ ts' cs', ts = w :: ts' ∧
      cs = .node .modifier [.leaf p] :: .leaf w :: cs' ∧
      Reads (c .identifier :: classRest) ts' cs' := by
  have hway : ∀ d ∈ .classDeclaration :: plainDeclarations, ∀ rhs ∈ rules d,
      ∀ way ∈ Begins.ways (.keyword .public_) rhs, way = c .modifier :: way.tail ∧
        Inner way.tail ∧ way.tail.any Part.isNeeded = true ∧
          ((d = .classDeclaration ∧
              way.tail = many .modifier :: k .class_ :: c .identifier :: classRest) ∨
            Begins.ways (.keyword .class_) way.tail = []) := by
    decide
  obtain ⟨way, hmem, hreads⟩ := h.exists_way
  rw [hp] at hmem
  obtain ⟨heq, hinner, hneeded, hclass⟩ := hway d hd rhs hrule way hmem
  rw [heq] at hreads
  obtain ⟨p', ts', cs', hcons, rfl, _, hmore⟩ := hreads.of_cons_word (by decide)
  obtain ⟨rfl, rfl⟩ := List.cons.inj hcons
  cases ts with
  | nil =>
    rw [hmore.any_isNeeded hinner] at hneeded
    cases hneeded
  | cons w' ts =>
    obtain ⟨rfl, _⟩ := List.cons.inj hts
    obtain ⟨hd', htail⟩ := hclass.resolve_right fun hnone => hmore.false_of_ways hw hnone
    rw [htail] at hmore
    have hword : Reads (k .class_ :: c .identifier :: classRest) (w' :: ts) cs' :=
      hmore.of_ways hw (by decide)
    obtain ⟨w, ts', cs'', hcons, rfl, _, hname⟩ := hword.of_cons_token
    obtain ⟨rfl, rfl⟩ := List.cons.inj hcons
    exact ⟨hd', ts, cs'', rfl, rfl, hname⟩

/-- **A public class without bases is read as one**, where the words of other declarations are
missing. -/
theorem Reads.of_class {p w n o e : Token} {inner : List Token} {us : List Tree}
    (h : Reads [many .memberItem] (p :: w :: n :: o :: (inner ++ [e])) us)
    (hp : p.role = .keyword .public_) (hw : w.role = .keyword .class_)
    (ho : o.role = .mark .openBrace) (he : e.role = .mark .closeBrace)
    (hinner : Nest.brackets.Balanced inner)
    (hstrangers : ∀ t ∈ p :: w :: n :: o :: (inner ++ [e]), t.role ∉ classStrangers) :
    ∃ ms, us = [.node .classDeclaration [.node .modifier [.leaf p], .leaf w,
        .node .identifier [.leaf n], .node .declarationList (.leaf o :: ms ++ [.leaf e])]] ∧
      Reads [many .memberItem] inner ms := by
  have hgroup : Nest.brackets.Group o inner e :=
    ⟨ho ▸ by decide, he ▸ by decide, he ▸ by decide, hinner⟩
  obtain ⟨d, hd, rhs, hrule, ts, cs, q, us', hts, rfl, hreads, hrest⟩ :=
    h.exists_declaration (by simp [hp])
  have hkind : d ∈ .classDeclaration :: plainDeclarations := by
    rcases missing_of_declaration d hd with hplain | ⟨hclass, _⟩ | hmissing
    · exact List.mem_cons_of_mem _ hplain
    · exact hclass ▸ List.mem_cons_self
    · exact (hreads.false_of_missing (hmissing rhs hrule)
        (fun t ht => hstrangers t (hts ▸ List.mem_append_left _ ht))
        (by simp [classStrangers])).elim
  cases ts with
  | nil =>
    have hne : d ≠ .compilationUnit := by
      rintro rfl
      exact absurd hkind (by decide)
    exact absurd rfl (Phrase.ne_nil hne ⟨rhs, hrule, cs, hreads⟩)
  | cons p' ts =>
    obtain ⟨rfl, htail⟩ := List.cons.inj hts
    obtain ⟨rfl, ts', cs', rfl, rfl, hname⟩ := hreads.of_publicClass hkind hrule hp hw htail.symm
    obtain ⟨_, hclassTail⟩ := List.cons.inj htail
    obtain ⟨n', ts'', cs'', rfl, rfl, hbody⟩ := hname.of_cons_identifier
    obtain ⟨rfl, hnameTail⟩ := List.cons.inj hclassTail
    obtain ⟨ms, rfl, rfl, hmembers⟩ := hbody.of_classRest ho hgroup hnameTail.symm
    rw [hrest.trees_eq_nil (by decide)]
    exact ⟨ms, rfl, hmembers⟩

end TestScaffold.CSharp
