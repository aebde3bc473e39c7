/-
  TestScaffold/Proofs/CSharp/Namespaces.lean
  ==========================================
  **The namespace of each class of a source file.**

  The namespace of a class has the names of the namespaces that govern the place
  of its declaration, from the outermost to the innermost.  Each of them has a
  name, since the grammar gives it one, so a class has no namespace just if none
  governs it.

  What governs a class in the body of another class governs that one too, since
  no namespace without a block stands in a node that the outline enters.
-/
import Mathlib.Data.List.Sort
import TestScaffold.Proofs.CSharp.Places

namespace TestScaffold.CSharp

open Grammar
open TestScaffold.Text

namespace Tree

/-! ### Names of namespaces -/

/-- The declaration has a name, which is this one without its blanks. -/
def Names (t : Tree) (name : String) : Prop :=
  ∃ n, t.child? .name = some n ∧ name = withoutBlanks n.text

theorem Names.eq {t : Tree} {name : String} (h : t.Names name) : t.namespaceName = name := by
  obtain ⟨n, hn, rfl⟩ := h
  rw [namespaceName, hn]

end Tree

/-- Names begin with a word, so that they are not blank. -/
theorem Reads.withoutBlanks_ne_empty {rhs : List Part} {ts : List Token} {us : List Tree}
    (h : Reads rhs ts us) (hrule : rhs ∈ rules .name) (hlexed : ∀ t ∈ ts, t.Lexed) :
    withoutBlanks (Tree.node .name us).text ≠ "" := by
  cases ts with
  | nil => exact absurd rfl (Phrase.ne_nil (by decide) ⟨rhs, hrule, us, h⟩)
  | cons t ts =>
    have hrole : t.role ∈ .identifier :: Keyword.contextual.map .keyword :=
      Phrase.role_mem ⟨rhs, hrule, us, h⟩ _ (by decide)
    obtain ⟨w, hw⟩ := (hlexed t List.mem_cons_self).exists_word hrole
    obtain ⟨c, cs, hc⟩ := List.exists_cons_of_ne_nil w.nonempty
    have hblank : isBlank c = false :=
      not_isBlank_of_isWordChar (w.allWord c (hc ▸ List.mem_cons_self))
    intro hnone
    have hchars := congrArg String.toList hnone
    rw [withoutBlanks, String.toList_ofList, Tree.text, String.toList_ofList, h.chars_node,
      Tree.charsOfTokens, hw, Lexeme.chars, hc, List.cons_append,
      List.filter_cons_of_pos (by simp [hblank])] at hchars
    cases hchars

/-- The categories of namespace declarations. -/
def Category.namespaces : List Category := [.namespaceDeclaration, .fileScopedNamespace]

/-- **A namespace declaration has a name, and that is not blank.** -/
theorem Reads.exists_names {parts : List Part} {ts : List Token} {us cs : List Tree} {c : Category}
    (h : Reads parts ts us) (hlexed : ∀ t ∈ ts, t.Lexed)
    (hnode : .node c cs ∈ Tree.preorderOfAll us) (hc : c ∈ Category.namespaces) :
    ∃ name, (Tree.node c cs).Names name ∧ name ≠ "" := by
  obtain ⟨rhs, hrule, ts', hreads, hwithin⟩ := h.exists_of_node hnode
  obtain ⟨back, hback⟩ : ∃ back, rhs = [k .namespace_] ++ Grammar.c .name :: back := by
    simp only [Category.namespaces, List.mem_cons, List.not_mem_nil, or_false] at hc
    rcases hc with rfl | rfl
    · exact ⟨_, List.mem_singleton.mp hrule⟩
    · exact ⟨_, List.mem_singleton.mp hrule⟩
  rw [hback] at hreads
  obtain ⟨rhs', hrule', ts'', ns, hchild, hname, hinner⟩ :=
    hreads.child?_eq [.token (.keyword .namespace_)] (by decide) (by decide) (by decide) rfl c
  exact ⟨_, ⟨_, hchild, rfl⟩, hname.withoutBlanks_ne_empty hrule' fun t ht =>
    hlexed t (hwithin.subset (hinner.subset ht))⟩

/-- What may stand right below a node that an outline enters. -/
def symbolsInOpen : List Symbol :=
  [.token (.keyword .namespace_), .token (.keyword .class_), .token (.mark .openBrace),
    .token (.mark .closeBrace), .token (.mark .semicolon), .token (.joined .semicolon)] ++
  [Category.name, .attributeItem, .attributeList, .attributeSection, .modifier, .identifier,
    .typeParameters, .parameterList, .baseList, .constraintClause, .typeBody, .declarationList,
    .memberItem, .memberSection, .memberDeclaration, .typeDeclaration, .classDeclaration,
    .structDeclaration, .interfaceDeclaration, .recordDeclaration, .enumDeclaration,
    .delegateDeclaration, .methodDeclaration, .constructorDeclaration, .fieldDeclaration,
    .propertyDeclaration, .indexerDeclaration, .eventDeclaration, .destructorDeclaration,
    .operatorDeclaration, .conversionDeclaration, .namespaceDeclaration, .usingDirective].map
    .category

theorem covers_symbolsInOpen {c : Category} (hopen : c.isOpen = true) :
    ∀ rhs ∈ rules c, covers symbolsInOpen rhs = true := by
  have h := Category.of_all (p := fun c => !c.isOpen || (rules c).all (covers symbolsInOpen))
    (by decide) c
  rwa [hopen, Bool.not_true, Bool.false_or, List.all_eq_true] at h

/-- No namespace without a block stands in a node that an outline enters. -/
theorem Reads.isOf_fileScopedNamespace {parts : List Part} {ts : List Token} {us cs : List Tree}
    {c : Category} (h : Reads parts ts us) (hnode : .node c cs ∈ Tree.preorderOfAll us)
    (hopen : c.isOpen = true) : ∀ u ∈ cs, u.isOf .fileScopedNamespace = false := by
  obtain ⟨rhs, hrule, ts', hreads, _⟩ := h.exists_of_node hnode
  exact hreads.isOf_eq_false symbolsInOpen (by decide) (covers_symbolsInOpen hopen rhs hrule)
    (by decide)

/-! ### Namespaces of a host -/

namespace Tree

variable {t : Tree} {p p' q : List Nat}

/-- A place that is above another one is above what that one is below, or below it itself. -/
theorem cases_of_append {q rest p' s : List Nat} {i : Nat} (h : q ++ i :: rest = p' ++ s) :
    (∃ rest', p' = q ++ i :: rest' ∧ rest = rest' ++ s) ∨ ∃ between, q = p' ++ between := by
  rcases List.append_eq_append_iff.mp h with ⟨as, hp, hs⟩ | ⟨bs, hq, _⟩
  · cases as with
    | nil => exact Or.inr ⟨[], by simpa using hp.symm⟩
    | cons j rest' =>
      obtain ⟨rfl, rfl⟩ := List.cons.inj hs
      exact Or.inl ⟨rest', hp, rfl⟩
  · exact Or.inr ⟨bs, hq⟩

instance : Std.Asymm Before := List.Lex.asymm _

/-- **What governs a place is what governs a place above it**, if no namespace stands between. -/
theorem governs_iff_of_prefix {s : List Nat}
    (hblock : ∀ between i rest, s = between ++ i :: rest →
      ¬ t.HasAt .namespaceDeclaration (p' ++ between))
    (hline : ∀ between i rest, s = between ++ i :: rest →
      ∀ k, ¬ t.HasAt .fileScopedNamespace (p' ++ between ++ [k])) :
    t.Governs q (p' ++ s) ↔ t.Governs q p' := by
  constructor
  · intro h
    generalize hp : p' ++ s = place at h
    cases h with
    | @block q rest i encloses =>
      rcases cases_of_append hp.symm with ⟨rest', rfl, _⟩ | ⟨between, rfl⟩
      · exact .block encloses
      · rw [List.append_assoc, List.append_cancel_left_eq] at hp
        exact absurd encloses (hblock between i rest hp)
    | @fileScoped r rest i j line behind upTo =>
      rcases cases_of_append hp.symm with ⟨rest', rfl, _⟩ | ⟨between, rfl⟩
      · exact .fileScoped line behind upTo
      · rw [List.append_assoc, List.append_cancel_left_eq] at hp
        exact absurd line (hline between j rest hp i)
  · intro h
    cases h with
    | block encloses =>
      rw [List.append_assoc]
      exact .block encloses
    | fileScoped line behind upTo =>
      rw [List.append_assoc]
      exact .fileScoped line behind upTo

theorem Governs.exists_hasAt (h : t.Governs q p) : ∃ c ∈ Category.namespaces, t.HasAt c q := by
  cases h with
  | block encloses => exact ⟨_, by decide, encloses⟩
  | fileScoped line behind upTo => exact ⟨_, by decide, line⟩

theorem at?_append (t : Tree) (p q : List Nat) : t.at? (p ++ q) = (t.at? p).bind (·.at? q) := by
  induction p generalizing t with
  | nil => rfl
  | cons i p ih =>
    rw [List.cons_append, at?, at?]
    cases t.children[i]? with
    | none => rfl
    | some u => exact ih u

/-! ### Namespaces of a text -/

variable {text : String} {c : Category}

/-- A node below the root of a text was read from some of its tokens. -/
theorem exists_reads_of_hasAt (htree : ofText? text = some t) (hc : c ≠ .compilationUnit)
    (hat : t.HasAt c p) : ∃ parts ts us cs, Reads parts ts us ∧ (∀ x ∈ ts, x.Lexed) ∧
      t.at? p = some (node c cs) ∧ node c cs ∈ preorderOfAll us := by
  obtain ⟨rhs, _, ts, us, rfl, hreads, hlexed⟩ := exists_of_ofText? htree
  obtain ⟨cs, hat⟩ := hat
  cases p with
  | nil =>
    cases hat
    exact absurd rfl hc
  | cons i p => exact ⟨rhs, ts, us, cs, hreads, hlexed, hat, mem_walk_of_at? hat⟩

theorem exists_names_of_hasAt (htree : ofText? text = some t) (hc : c ∈ Category.namespaces)
    (hat : t.HasAt c p) : ∃ d name, t.at? p = some d ∧ d.Names name ∧ name ≠ "" := by
  have hunit : c ≠ .compilationUnit := by
    rintro rfl
    exact absurd hc (by decide)
  obtain ⟨parts, ts, us, cs, hreads, hlexed, hat, hmem⟩ := exists_reads_of_hasAt htree hunit hat
  obtain ⟨name, hname, hne⟩ := hreads.exists_names hlexed hmem hc
  exact ⟨_, name, hat, hname, hne⟩

theorem not_hasAt_line (htree : ofText? text = some t) (hopen : c.isOpen = true)
    (hat : t.HasAt c p) (k : Nat) : ¬ t.HasAt .fileScopedNamespace (p ++ [k]) := by
  have hunit : c ≠ .compilationUnit := by
    rintro rfl
    cases hopen
  obtain ⟨parts, ts, us, cs, hreads, _, hat, hmem⟩ := exists_reads_of_hasAt htree hunit hat
  rintro ⟨ds, hline⟩
  rw [at?_append, hat, Option.bind_some, at?] at hline
  obtain ⟨u, hu, hline⟩ := Option.bind_eq_some_iff.mp hline
  cases hline
  have hnone := hreads.isOf_fileScopedNamespace hmem hopen _ (List.mem_of_getElem? hu)
  rw [isOf, beq_self_eq_true] at hnone
  cases hnone

end Tree

end TestScaffold.CSharp

namespace TestScaffold

open TestScaffold.CSharp (Tree Category)
open TestScaffold.Text

/-! ### Namespaces of classes -/

theorem Text.joinWith_ne_empty {sep first : String} (hfirst : first ≠ "") (rest : List String) :
    joinWith sep (first :: rest) ≠ "" := by
  cases rest with
  | nil => exact hfirst
  | cons s rest => simp [joinWith, hfirst]

/-- The names of namespaces, one inside the other. -/
theorem CSharp.Tree.foldl_qualify {names : List String} (h : ∀ name ∈ names, name ≠ "") :
    names.foldl Tree.qualify none = if names = [] then none else some (joinWith "." names) := by
  induction names using List.reverseRecOn with
  | nil => rfl
  | append_singleton names name ih =>
    obtain ⟨hne, hname⟩ := List.forall_mem_append.mp h
    rw [List.foldl_append, ih hne, List.foldl_cons, List.foldl_nil, joinWith_concat,
      if_neg (by simp : names ++ [name] ≠ [])]
    cases names with
    | nil => simp [Tree.qualify, hname name (List.mem_singleton.mpr rfl)]
    | cons first rest =>
      have houter : joinWith "." (first :: rest) ≠ "" :=
        joinWith_ne_empty (hne first List.mem_cons_self) rest
      simp [Tree.qualify, hname name (List.mem_singleton.mpr rfl), houter]

/-- A class of a file is declared at a place, and has the names of the namespaces that govern it,
the outermost first. -/
structure Source.Class.StandsAt (tree : Tree) (p : List Nat) (c : Source.Class) : Prop where
  declared : ∃ d, tree.at? p = some d ∧ d.isOf .classDeclaration = true ∧ c.DeclaredBy d
  governed : ∃ qs names, qs.Pairwise Tree.Before ∧ (∀ q, q ∈ qs ↔ tree.Governs q p) ∧
    List.Forall₂ (fun q name => ∃ d, tree.at? q = some d ∧ d.Names name) qs names ∧
    c.inNamespace? = if names = [] then none else some (joinWith "." names)
  none_iff : c.inNamespace? = none ↔ ∀ q, ¬ tree.Governs q p

/-- A declaration stands in another one, and no namespace with a block between them. -/
def CSharp.Tree.Hosts (t : Tree) (p' p : List Nat) : Prop :=
  p' <+: p ∧ ∀ q, p' <+: q → q <+: p → ¬ t.HasAt .namespaceDeclaration q

namespace CSharp.Tree

variable {text : String} {tree : Tree} {p p' : List Nat} {entry entry' : Option String × Tree}

/-- What governs a place in a text stands below the root. -/
theorem GovernedBy.mem_iff_governs (htree : ofText? text = some tree) {qs : List (List Nat)}
    (h : tree.GovernedBy p qs) (q : List Nat) : q ∈ qs ↔ tree.Governs q p := by
  rw [h.mem_iff, and_iff_right_iff_imp]
  rintro hgoverns rfl
  obtain ⟨_, _, _, us, rfl, _⟩ := exists_of_ofText? htree
  obtain ⟨c, hc, cs, hat⟩ := hgoverns.exists_hasAt
  cases hat
  exact absurd hc (by decide)

theorem Entered.standsAt (htree : ofText? text = some tree) (h : tree.Entered none p entry)
    {c : Source.Class} (hc : entry.2.sourceClass entry.1 = .ok c) : c.StandsAt tree p := by
  obtain ⟨qs, hqs, hname⟩ := h.governed
  have hmem := hqs.mem_iff_governs htree
  -- the grammar gives each namespace a name
  have hnamed : ∀ q ∈ qs, (∃ d, tree.at? q = some d ∧ d.Names (tree.nameAt q)) ∧
      tree.nameAt q ≠ "" := by
    intro q hq
    obtain ⟨k, hk, hat⟩ := ((hmem q).mp hq).exists_hasAt
    obtain ⟨d, name, hd, hnames, hne⟩ := exists_names_of_hasAt htree hk hat
    have heq : tree.nameAt q = name := by rw [nameAt, hd, Option.elim_some, hnames.eq]
    rw [heq]
    exact ⟨⟨d, hd, hnames⟩, hne⟩
  have hspace : c.inNamespace? = if qs.map tree.nameAt = [] then none
      else some (joinWith "." (qs.map tree.nameAt)) := by
    rw [(Source.Class.of_sourceClass hc).2.1, hname,
      foldl_qualify (List.forall_mem_map.mpr fun q hq => (hnamed q hq).2)]
  refine ⟨⟨entry.2, h.declaration, h.isClass, entry.1, hc⟩, ⟨qs, qs.map tree.nameAt, hqs.sorted,
    hmem, ?_, hspace⟩, ?_⟩
  · rw [List.forall₂_map_right_iff, List.forall₂_same]
    exact fun q hq => (hnamed q hq).1
  · rw [hspace]
    constructor
    · intro hnone q hq
      split at hnone
      · rename_i hnil
        rw [List.map_eq_nil_iff.mp hnil] at hmem
        exact List.not_mem_nil ((hmem q).mpr hq)
      · cases hnone
    · intro hfree
      have hnil : qs = [] := List.eq_nil_iff_forall_not_mem.mpr fun q hq => hfree q ((hmem q).mp hq)
      rw [hnil]
      rfl

/-- What governs a class governs the class that hosts it. -/
theorem Entered.eq_of_hosts (htree : ofText? text = some tree) (h : tree.Entered none p entry)
    (h' : tree.Entered none p' entry') (hhosts : tree.Hosts p' p) : entry.1 = entry'.1 := by
  obtain ⟨⟨s, rfl⟩, hblock⟩ := hhosts
  have hp' : p' ≠ [] := by
    rintro rfl
    obtain ⟨_, _, _, us, rfl, _⟩ := exists_of_ofText? htree
    have hroot := h'.isClass
    rw [← Option.some.inj h'.declaration] at hroot
    cases hroot
  have hiff : ∀ q, tree.Governs q (p' ++ s) ↔ tree.Governs q p' := by
    intro q
    refine governs_iff_of_prefix (fun between i rest hs => ?_) fun between i rest hs k => ?_
    · refine hblock _ (List.prefix_append _ _) ?_
      rw [hs, ← List.append_assoc]
      exact List.prefix_append _ _
    · obtain ⟨c, hopen, hat⟩ := h.way (p' ++ between) i rest (by simp [hs]) (by simp [hp'])
      exact not_hasAt_line htree hopen hat k
  obtain ⟨qs, hqs, hname⟩ := h.governed
  obtain ⟨qs', hqs', hname'⟩ := h'.governed
  have hsame : qs = qs' := hqs.sorted.eq_of_mem_iff hqs'.sorted fun q => by
    rw [hqs.mem_iff_governs htree, hqs'.mem_iff_governs htree, hiff]
  rw [hname, hname', hsame]

end CSharp.Tree

/-- **The classes of a source file stand at places of its tree, in the order of the text, and each
is in the namespaces that govern its place.** A class in another one is in the namespace of its
host. -/
theorem Source.File.namespaces_ofText {text : String} {file : Source.File}
    (h : Source.File.ofText text = .ok file) :
    ∃ tree, Tree.ofText? text = some tree ∧ ∃ places, places.Pairwise Tree.Before ∧
      List.Forall₂ (fun p c => Source.Class.StandsAt tree p c) places file.classes ∧
      ∀ host ∈ places.zip file.classes, ∀ inner ∈ places.zip file.classes,
        tree.Hosts host.1 inner.1 → inner.2.inNamespace? = host.2.inNamespace? := by
  obtain ⟨tree, htree, hclasses⟩ := Source.File.forall₂_of_ofText h
  obtain ⟨places, hplaces⟩ := @Tree.exists_entries tree.children tree [] none none rfl fun k =>
    ⟨nofun, fun h => absurd h (Tree.not_isLast_zero tree k)⟩
  have hboth : List.Forall₂ (fun p c => ∃ entry, tree.Entered none p entry ∧
      Tree.sourceClass entry.1 entry.2 = .ok c) places file.classes :=
    forall₂_trans hplaces.entered hclasses fun p entry c hp hc => ⟨entry, hp, hc⟩
  refine ⟨tree, htree, places, hplaces.sorted, hboth.imp ?_, ?_⟩
  · rintro p c ⟨entry, hentry, hc⟩
    exact hentry.standsAt htree hc
  · rintro ⟨p', c'⟩ hhost ⟨p, c⟩ hinner hhosts
    obtain ⟨entry', hentry', hc'⟩ := (List.forall₂_iff_zip.mp hboth).2 hhost
    obtain ⟨entry, hentry, hc⟩ := (List.forall₂_iff_zip.mp hboth).2 hinner
    rw [(Source.Class.of_sourceClass hc).2.1, (Source.Class.of_sourceClass hc').2.1]
    exact hentry.eq_of_hosts htree hentry' hhosts

/-- Two namespaces without a block, and one with a block in the first of them. -/
theorem namespaces_ofText_mixed :
    ∃ file, Source.File.ofText
        "namespace A;namespace B{class C{class D{}}}namespace E . F;class G{}" = .ok file ∧
      file.classes.map (fun c => (c.name.text, c.inNamespace?)) =
        [("C", some "A.B"), ("D", some "A.B"), ("G", some "E.F")] ∧
      ∃ tree places, List.Forall₂ (fun p c => Source.Class.StandsAt tree p c) places
        file.classes := by
  have hfile : Source.File.ofText
      "namespace A;namespace B{class C{class D{}}}namespace E . F;class G{}" = .ok {
        inNamespace? := some "A"
        classes := [{ name := ⟨"C", by decide⟩, inNamespace? := some "A.B" },
          { name := ⟨"D", by decide⟩, inNamespace? := some "A.B" },
          { name := ⟨"G", by decide⟩, inNamespace? := some "E.F" }] } := by decide +kernel
  obtain ⟨tree, _, places, _, hstands, _⟩ := Source.File.namespaces_ofText hfile
  exact ⟨_, hfile, rfl, tree, places, hstands⟩

end TestScaffold
