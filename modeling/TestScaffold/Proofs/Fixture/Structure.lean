/-
  TestScaffold/Proofs/Fixture/Structure.lean
  ==========================================
  **A tree of a rendered test class has its directives, and one namespace with one class.**

  Each directive is read as one, in their order.  Behind them only a namespace can
  begin, and in its braces only a class, the members of which are known.
-/
import TestScaffold.Proofs.CSharp.Items
import TestScaffold.Proofs.Fixture.Contents
import TestScaffold.Proofs.Fixture.Parts

namespace TestScaffold

open TestScaffold.Text
open TestScaffold.CSharp
open Grammar (many)

/-! ### Items of a file -/

namespace CSharp

/-- A phrase is balanced. -/
theorem Phrase.balanced {c : Category} {ts : List Token} (h : Phrase c ts) :
    Nest.brackets.Balanced ts := by
  obtain ⟨rhs, hrule, us, hreads⟩ := h
  exact hreads.balanced Nest.fits_brackets hrule

/-- A category whose word is missing has no node. -/
theorem Reads.isOf_of_missing {c : Category} {k : Keyword} {parts : List Part} {ts : List Token}
    {us : List Tree} (h : Reads parts ts us)
    (hc : ∀ rhs ∈ Grammar.rules c, Grammar.k k ∈ rhs) (hts : ∀ t ∈ ts, t.role ≠ .keyword k) :
    ∀ u ∈ Tree.preorderOfAll us, u.isOf c = false := by
  intro u hu
  cases u with
  | leaf t => rfl
  | node d cs =>
    refine Bool.eq_false_iff.mpr fun heq => ?_
    cases beq_iff_eq.mp heq
    obtain ⟨rhs, hrule, ts', hreads, hpart⟩ := h.exists_of_node hu
    obtain ⟨t, ht, hfits⟩ := hreads.exists_of_one (hc rhs hrule)
    exact hts t (hpart.subset ht) (Token.role_of_fits hfits)

/-- The tree of a directive that is written as a row. -/
def DirectiveTree (row : List Token) (u : Tree) : Prop :=
  ∃ g, ∃ rhs ∈ Grammar.rules .usingDirective, ∃ cs, u = .node .usingDirective cs ∧
    Reads rhs (Token.allBehind g row) cs

/-- Directives that stand first are read as directives, one by one. -/
theorem Laid.read_directives {rows : List (List Token)} {ts rest : List Token} {us : List Tree}
    (h : Laid rows ts) (hrows : ∀ row ∈ rows, Phrase .usingDirective row)
    (hreads : Reads [many .topLevelItem] (ts ++ rest) us) :
    ∃ ds us', us = ds ++ us' ∧ List.Forall₂ DirectiveTree rows ds ∧
      Reads [many .topLevelItem] rest us' := by
  induction h generalizing us with
  | nil => exact ⟨[], us, rfl, .nil, hreads⟩
  | empty rest ih => exact absurd rfl ((hrows _ List.mem_cons_self).ne_nil (by decide))
  | @row row rows ts blanks _ _ ih =>
    obtain ⟨hrow, hmore⟩ := List.forall_mem_cons.mp hrows
    obtain ⟨head, o, htokens, hdirective⟩ := (hrow.allBehind blanks).exists_directive
    rw [htokens] at hreads
    simp only [List.append_assoc, List.singleton_append] at hreads
    obtain ⟨rhs, hrule, cs, us', rfl, hfirst, hrest⟩ := hdirective.first hreads
    obtain ⟨ds, us'', rfl, hds, hrest'⟩ := ih hmore hrest
    exact ⟨_ :: ds, us'', rfl, .cons ⟨blanks, rhs, hrule, cs, rfl, htokens ▸ hfirst⟩ hds, hrest'⟩

theorem Tree.isOf_of_ne {u : Tree} {c d : Category} (h : u.isOf c = true) (hcd : c ≠ d) :
    u.isOf d = false := by
  cases u with
  | leaf t => rfl
  | node c' cs =>
    rw [isOf, beq_iff_eq] at h
    rw [isOf, h]
    exact beq_eq_false_iff_ne.mpr hcd

/-- Blanks before tokens are no part of their text. -/
theorem Spelt.charsOfTokens {cs : List Char} {ts : List Token} (h : Spelt cs ts) (g : List Char) :
    Tree.charsOfTokens (Token.allBehind g ts) = cs := by
  rw [← h.chars]
  cases ts with
  | nil => rfl
  | cons t ts =>
    have hflush := h.flush t rfl
    simp [Tree.charsOfTokens, Token.chars, Token.gapChars, hflush]

/-- Behind its word, a directive has no other directive. -/
theorem Reads.isOf_usingDirective {rhs : List Part} {ts : List Token} {us : List Tree}
    (h : Reads rhs ts us) (hrule : rhs ∈ Grammar.rules .usingDirective)
    (hts : ∀ t ∈ ts, isUsingRole t.role = true) :
    ∀ u ∈ Tree.preorderOfAll us, u.isOf .usingDirective = false := by
  have honly : ∀ rhs ∈ Grammar.rules .usingDirective,
      rhs = Grammar.optK .global_ :: Grammar.k .using_ :: rhs.drop 2 ∧
        Nest.flat.only isUsingRole (· != .keyword .using_) (rhs.drop 2) = true := by decide +kernel
  obtain ⟨heq, honly⟩ := honly rhs hrule
  have hbehind : ∀ {ts : List Token} {us : List Tree}, (∀ t ∈ ts, isUsingRole t.role = true) →
      Reads (Grammar.k .using_ :: rhs.drop 2) ts us →
        ∀ u ∈ Tree.preorderOfAll us, u.isOf .usingDirective = false := by
    intro ts us hts hreads
    obtain ⟨t, ts', us', rfl, rfl, _, hrest⟩ := hreads.of_cons_token
    have hroles := (hrest.outer_only Nest.fits_flat honly fun u hu =>
      hts u (List.mem_cons_of_mem _ (Nest.mem_outer hu))).2
    rw [Nest.outer_flat] at hroles
    rw [Tree.preorderOfAll, Tree.preorder, List.cons_append, List.nil_append]
    exact List.forall_mem_cons.mpr ⟨rfl, hrest.isOf_of_missing (k := .using_) (by decide)
      fun u hu => bne_iff_ne.mp (hroles u hu)⟩
  rw [heq] at h
  rcases h.of_cons_opt with hplain | hglobal
  · exact hbehind hts hplain
  · obtain ⟨t, ts', us', rfl, rfl, _, hrest⟩ := hglobal.of_cons_token
    rw [Tree.preorderOfAll, Tree.preorder, List.cons_append, List.nil_append]
    exact List.forall_mem_cons.mpr ⟨rfl, hbehind (fun u hu => hts u (List.mem_cons_of_mem _ hu)) hrest⟩

end CSharp

/-- The categories that are looked for in the tree of a file. -/
def soughtCategories : List Category :=
  [.usingDirective, .namespaceDeclaration, .fileScopedNamespace, .classDeclaration]

/-- The tree of a directive as it is looked at: the text is the line of the directive, and nothing
below is looked for. -/
structure Source.Using.Stands (u : Source.Using) (t : CSharp.Tree) : Prop where
  node : ∃ cs, t = .node .usingDirective cs ∧
    ∀ v ∈ CSharp.Tree.preorderOfAll cs, ∀ c ∈ soughtCategories, v.isOf c = false
  text : t.text = Layout.usingLine u

theorem UsingRow.stands {u : Source.Using} {row : List Token} {t : CSharp.Tree} (h : UsingRow u row)
    (ht : DirectiveTree row t) : u.Stands t := by
  obtain ⟨g, rhs, hrule, cs, rfl, hreads⟩ := ht
  have hroles : ∀ t ∈ Token.allBehind g row, isUsingRole t.role = true := by
    intro t ht
    obtain ⟨v, hv, hrole⟩ := Token.exists_of_mem_allBehind ht
    exact hrole ▸ h.roles v hv
  have hmissing : ∀ k, isUsingRole (.keyword k) = false →
      ∀ t ∈ Token.allBehind g row, t.role ≠ .keyword k := by
    intro k hk t ht heq
    rw [← heq, hroles t ht] at hk
    cases hk
  refine ⟨⟨cs, rfl, fun v hv c hc => ?_⟩, ?_⟩
  · simp only [soughtCategories, List.mem_cons, List.not_mem_nil, or_false] at hc
    rcases hc with rfl | rfl | rfl | rfl
    · exact hreads.isOf_usingDirective hrule hroles v hv
    · exact hreads.isOf_of_missing (by decide) (hmissing .namespace_ rfl) v hv
    · exact hreads.isOf_of_missing (by decide) (hmissing .namespace_ rfl) v hv
    · exact hreads.isOf_of_missing (by decide) (hmissing .class_ rfl) v hv
  · rw [CSharp.Tree.text, hreads.chars_node, h.code.spelt.charsOfTokens, String.ofList_toList]

/-- Nothing but directives is found in the trees of directives. -/
theorem Source.Using.Stands.isOf_of_mem {us : List Source.Using} {ds : List CSharp.Tree}
    (h : List.Forall₂ Stands us ds) {c : Category} (hc : c ∈ soughtCategories)
    (hne : c ≠ .usingDirective) : ∀ v ∈ CSharp.Tree.preorderOfAll ds, v.isOf c = false := by
  induction h with
  | nil => exact fun v hv => absurd hv List.not_mem_nil
  | cons hd _ ih =>
    obtain ⟨⟨cs, rfl, hcs⟩, _⟩ := hd
    rw [CSharp.Tree.preorderOfAll, CSharp.Tree.preorder, List.cons_append]
    exact List.forall_mem_cons.mpr ⟨Tree.isOf_of_ne (beq_iff_eq.mpr rfl) hne.symm,
      List.forall_mem_append.mpr ⟨fun v hv => hcs v hv c hc, ih⟩⟩

/-! ### Trees of test classes -/

/-- How the tokens of names are read. -/
def isNameRole : Terminal → Bool
  | .keyword k => k ∈ Keyword.contextual
  | role => role == .identifier || role == .mark .dot

/-- How the tokens of a class are read. -/
def isClassRole (role : Terminal) : Bool := isMemberRole role || role == .keyword .class_

/-- How the tokens of a namespace are read. -/
def isNamespaceRole (role : Terminal) : Bool :=
  isClassRole role || isNameRole role || role == .keyword .namespace_

theorem CSharp.role_allBehind_dotted (blanks : List Char) (ps : List (List Char)) :
    ∀ t ∈ Token.allBehind blanks (dotted ps), isNameRole t.role = true := by
  intro t ht
  obtain ⟨u, hu, hrole⟩ := Token.exists_of_mem_allBehind ht
  rw [hrole]
  exact holds_dotted (Token.holds_name (by decide) (by decide)) (by decide) _ u hu

/-- The tree of the class of a sheet. -/
def CSharp.Sheet.ClassTree (s : Sheet) (u : CSharp.Tree) : Prop :=
  ∃ p w o e ms, u = .node .classDeclaration [.node .modifier [.leaf p], .leaf w,
      .node .identifier [.leaf (Token.name s.className).spaced],
      .node .declarationList (.leaf o :: ms ++ [.leaf e])] ∧ s.Members ms

/-- The class of a sheet is a declaration of its name. -/
theorem CSharp.Sheet.ClassTree.exists_node {s : Sheet} {u : CSharp.Tree} (h : s.ClassTree u) :
    ∃ cs, u = .node .classDeclaration cs ∧ u.declaredName? = some (wordOf s.className).name := by
  obtain ⟨p, w, o, e, ms, rfl, _⟩ := h
  exact ⟨_, rfl, rfl⟩

/-- The tree of the namespace of a sheet, with the class in it. -/
def CSharp.Sheet.NamespaceTree (s : Sheet) (u : CSharp.Tree) : Prop :=
  ∃ t ns o c e, u = .node .namespaceDeclaration [.leaf t, .node .name ns,
      .node .declarationList [.leaf o, c, .leaf e]] ∧
    (CSharp.Tree.node .name ns).chars =
      CSharp.Tree.charsOfTokens (Token.allBehind [' '] (dotted s.namespaceName)) ∧
    (∀ v ∈ CSharp.Tree.preorderOfAll ns, v.isOf .classDeclaration = false) ∧ s.ClassTree c

namespace Fixture.Written

variable {x : Fixture} {s : Sheet} {ts : List Token} {us : List CSharp.Tree}

/-- The rows of a test class are read as those of classes are. -/
theorem rows_class (h : x.Written s) : RowsOf isClassRole s.classRows := by
  have hmember : ∀ role, isMemberRole role = true → isClassRole role = true := fun role hrole => by
    rw [isClassRole, hrole, Bool.true_or]
  have hmembers : RowsOf isClassRole (spacedRows s.members) :=
    (RowsOf.spacedRows h.rows_members).mono hmember
  refine .cons ?_ (hmembers.inBraces (by decide) (by decide))
  have hname := hmember _ (isMemberRole_name s.className)
  simp [classRow, hname]
  decide

/-- **A rendered test class is read as one class**, which has the members. -/
theorem read_class (h : x.Written s) (hlegible : x.Legible) (hts : Laid s.classRows ts)
    (hreads : Reads memberParts ts us) : ∃ c, us = [c] ∧ s.ClassTree c := by
  have hstrangers : ∀ t ∈ ts, t.role ∉ classStrangers := by
    have hall : ∀ r ∈ classStrangers, isClassRole r = false := by decide
    intro t ht hmem
    have hrole := h.rows_class.of_laid hts t ht
    rw [hall _ hmem] at hrole
    cases hrole
  obtain ⟨g, block, rfl, hblock⟩ := hts.of_cons (by simp [classRow])
  obtain ⟨g₁, inner, g₂, rfl, hinner⟩ := hblock.of_braces
  obtain ⟨ps, hps, hphrases⟩ := hinner.members h.good.members
  have hbalanced : Nest.brackets.Balanced inner := hps ▸ Nest.Balanced.flatten fun p hp =>
    (hphrases p hp).balanced
  obtain ⟨ms, rfl, hms⟩ := Reads.of_class hreads rfl rfl rfl rfl hbalanced hstrangers
  exact ⟨_, rfl, _, _, _, _, ms, rfl, h.read_members hlegible hinner hms⟩

/-- The rows of the namespace are read as those of namespaces are. -/
theorem rows_namespace (h : x.Written s) :
    RowsOf isNamespaceRole (namespaceRow s.namespaceName :: inBraces s.classRows) := by
  refine .cons (List.forall_mem_cons.mpr ⟨by decide, fun t ht => ?_⟩)
    ((h.rows_class.mono fun role hrole => ?_).inBraces (by decide) (by decide))
  · simp [isNamespaceRole, role_allBehind_dotted _ _ t ht]
  · simp [isNamespaceRole, hrole]

/-- The namespace of a rendered test class is read as one. -/
theorem read_namespace (h : x.Written s) (hlegible : x.Legible)
    (hts : Laid (namespaceRow s.namespaceName :: inBraces s.classRows) ts)
    (hreads : Reads [many .topLevelItem] ts us) : ∃ u, us = [u] ∧ s.NamespaceTree u := by
  obtain ⟨g, block, rfl, hblock⟩ := hts.of_cons (by simp [namespaceRow])
  obtain ⟨g₁, inner, g₂, rfl, hinner⟩ := hblock.of_braces
  obtain ⟨p, ps, hpieces⟩ := List.exists_cons_of_ne_nil h.good.namespaceName
  have hname : Phrase .name (Token.allBehind [' '] (dotted s.namespaceName)) :=
    hpieces ▸ Phrase.dotted.allBehind [' ']
  have hmarks : ∀ t ∈ Token.allBehind [' '] (dotted s.namespaceName),
      t.role ≠ .mark .semicolon ∧ t.role ≠ .mark .openBrace := by
    intro t ht
    have hrole := role_allBehind_dotted _ _ t ht
    constructor
    · exact fun heq => absurd (heq ▸ hrole) (by decide)
    · exact fun heq => absurd (heq ▸ hrole) (by decide)
  obtain ⟨rhs, ns, ms, rfl, hns, hms⟩ := Reads.of_namespace hreads rfl hname.balanced hmarks rfl rfl
    (h.good.classDeclaration hinner).balanced
  obtain ⟨c, rfl, hc⟩ := h.read_class hlegible hinner hms
  have hclass : ∀ t ∈ Token.allBehind [' '] (dotted s.namespaceName), t.role ≠ .keyword .class_ :=
    fun t ht heq => absurd (heq ▸ role_allBehind_dotted _ _ t ht) (by decide)
  exact ⟨_, rfl, _, ns, _, c, _, rfl, hns.chars_node .name,
    hns.isOf_of_missing (by decide) hclass, hc⟩

/-- **A rendered test class is read as its directives and one namespace with the class.** -/
theorem read_file (h : x.Written s) (hlegible : x.Legible) {rhs : List Part}
    (hts : Laid s.rows ts) (hrule : rhs ∈ Grammar.rules .compilationUnit)
    (hreads : Reads rhs ts us) :
    ∃ ds u, us = ds ++ [u] ∧ List.Forall₂ Source.Using.Stands x.sortedUsings ds ∧
      s.NamespaceTree u ∧
      ∀ v ∈ CSharp.Tree.preorderOfAll [u], v.isOf .usingDirective = false := by
  unfold Sheet.rows at hts
  obtain ⟨first, vs, rfl, hfirst, hvs⟩ := hts.of_append
  obtain ⟨rows, ws, rfl, hrows, hws⟩ := hfirst.of_append
  obtain rfl : ws = [] := by
    split at hws
    · exact hws.of_nil
    · exact hws.of_empty.of_nil
  rw [List.append_nil] at hreads
  rw [List.mem_singleton.mp hrule] at hreads
  have hitems : Reads [many .topLevelItem] (rows ++ vs) us := by
    rcases hreads.of_cons_opt with hitems | hshebang
    · exact hitems
    · -- the first token begins neither a directive nor a namespace
      obtain ⟨t, ts', us', hcons, _, hfits, _⟩ := hshebang.of_cons_token
      have ht : t ∈ rows ++ vs := hcons ▸ List.mem_cons_self
      have hrole : t.role = .shebang := beq_iff_eq.mp hfits
      rcases List.mem_append.mp ht with ht | ht
      · have husing : RowsOf isUsingRole s.usings :=
          forall_of_forall₂ h.usings fun _ _ hu => hu.roles
        have hone := husing.of_laid hrows t ht
        rw [hrole] at hone
        cases hone
      · have hone := h.rows_namespace.of_laid hvs t ht
        rw [hrole] at hone
        cases hone
  obtain ⟨ds, us', rfl, hds, hrest⟩ := hrows.read_directives h.good.usings hitems
  obtain ⟨u, rfl, hu⟩ := h.read_namespace hlegible hvs hrest
  have hstands : List.Forall₂ Source.Using.Stands x.sortedUsings ds :=
    forall₂_trans h.usings hds fun _ _ _ hrow htree => hrow.stands htree
  refine ⟨ds, u, rfl, hstands, hu,
    hrest.isOf_of_missing (k := .using_) (by decide) fun t ht hrole => ?_⟩
  have hone := h.rows_namespace.of_laid hvs t ht
  rw [hrole] at hone
  cases hone

/-- **The first class of a tree that reads a test class is the test class.** -/
theorem firstClass (h : x.Written s) (hlegible : x.Legible) {rhs : List Part} (hts : Laid s.rows ts)
    (hrule : rhs ∈ Grammar.rules .compilationUnit) (hreads : Reads rhs ts us) :
    (CSharp.Tree.node .compilationUnit us).walk.findSome? (fun t =>
      if t.isOf .classDeclaration then t.declaredName? else none) =
        some (wordOf s.className).name := by
  obtain ⟨ds, u, rfl, hds, ⟨t, ns, o, c, e, rfl, _, hns, hc⟩, _⟩ :=
    h.read_file hlegible hts hrule hreads
  obtain ⟨cs, rfl, hname⟩ := hc.exists_node
  have hskip : ∀ vs : List CSharp.Tree, (∀ v ∈ vs, v.isOf .classDeclaration = false) →
      vs.findSome? (fun t => if t.isOf .classDeclaration then t.declaredName? else none) = none :=
    fun vs hvs => List.findSome?_eq_none_iff.mpr fun v hv => by simp [hvs v hv]
  have hleaf : ∀ t : Token, (CSharp.Tree.leaf t).isOf .classDeclaration = false := fun _ => rfl
  have hnode : ∀ (d : Category) (cs : List CSharp.Tree),
      (CSharp.Tree.node d cs).isOf .classDeclaration = (d == .classDeclaration) := fun _ _ => rfl
  rw [CSharp.Tree.walk_eq, CSharp.Tree.preorder, CSharp.Tree.preorderOfAll_append,
    List.findSome?_append, hskip _ (Source.Using.Stands.isOf_of_mem hds (by decide) (by decide))]
  -- behind the directives stand the namespace, its name and the brace before the class
  simp [CSharp.Tree.preorderOfAll, CSharp.Tree.preorder, List.findSome?_append, hskip _ hns, hleaf,
    hnode, hname]

end Fixture.Written

end TestScaffold
