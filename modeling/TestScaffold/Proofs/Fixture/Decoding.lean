/-
  TestScaffold/Proofs/Fixture/Decoding.lean
  =========================================
  **The text of a legible test class is read back as what it was rendered from.**

  Its tree has the directives in their order, and then one namespace with one class
  in it.  So the outline of the text is the test class again, seen as a source file.
-/
import TestScaffold.Proofs.Fixture.Acceptance
import TestScaffold.Proofs.Fixture.UsingText

namespace TestScaffold

open TestScaffold.Text
open TestScaffold.CSharp

/-! ### Outlines -/

namespace CSharp.Tree

variable {us : List Source.Using} {ds : List Tree} {u : Tree}

/-- The directives are found in their order, and no others. -/
theorem usings_of_stands (h : List.Forall₂ Source.Using.Stands us ds)
    (hu : ∀ v ∈ preorderOfAll [u], v.isOf .usingDirective = false)
    (hread : ∀ d ∈ us, usingOfText? (Layout.usingLine d) = some d) :
    (node .compilationUnit (ds ++ [u])).usings = .ok us := by
  have hfilter : (preorderOfAll ds).filter (isOf .usingDirective) = ds := by
    clear hread
    induction h with
    | nil => rfl
    | cons hd _ ih =>
      obtain ⟨⟨cs, rfl, hcs⟩, _⟩ := hd
      rw [preorderOfAll, preorder, List.cons_append, List.filter_cons_of_pos rfl, List.filter_append,
        ih, List.filter_eq_nil_iff.mpr fun v hv => by simp [hcs v hv .usingDirective (by decide)], List.nil_append]
  have hnone : (preorderOfAll [u]).filter (isOf .usingDirective) = [] :=
    List.filter_eq_nil_iff.mpr fun v hv => by simp [hu v hv]
  rw [usings, walk_eq, preorder, preorderOfAll_append, List.filter_append, hfilter, hnone,
    List.append_nil]
  refine mapM_eq_of_forall₂ (List.Forall₂.flip ?_)
  clear hfilter
  induction h with
  | nil => exact .nil
  | cons hd _ ih =>
    obtain ⟨hone, hmore⟩ := List.forall_mem_cons.mp hread
    refine .cons ?_ (ih hmore)
    rw [Function.flip_def]
    simp only [hd.text, hone]

/-- The namespace behind the directives is the first one. -/
theorem firstNamespace?_of_stands (h : List.Forall₂ Source.Using.Stands us ds) (cs : List Tree) :
    (node .compilationUnit (ds ++ [node .namespaceDeclaration cs])).firstNamespace? =
      some (namespaceName (node .namespaceDeclaration cs)) := by
  have hnone : ∀ v ∈ preorderOfAll ds,
      (v.isOf .namespaceDeclaration || v.isOf .fileScopedNamespace) = false := fun v hv => by
    rw [Source.Using.Stands.isOf_of_mem h (by decide) (by decide) v hv,
      Source.Using.Stands.isOf_of_mem h (by decide) (by decide) v hv, Bool.or_false]
  rw [firstNamespace?, walk_eq, preorder, preorderOfAll_append, List.find?_append,
    List.find?_eq_none.mpr fun v hv => by simp [hnone v hv], Option.none_or]
  rfl

/-- Trees of one category are all found, or none of them is. -/
theorem filter_isOf {c : Category} {ts : List Tree} (h : ∀ t ∈ ts, t.isOf c = true) (d : Category) :
    ts.filter (isOf d) = if c = d then ts else [] := by
  split
  · rename_i hcd
    exact List.filter_eq_self.mpr (hcd ▸ h)
  · rename_i hcd
    exact List.filter_eq_nil_iff.mpr fun t ht => by simp [isOf_of_ne (h t ht) hcd]

/-- The categories in which classes are looked for. -/
def classPlaces : List Category :=
  [.namespaceDeclaration, .classDeclaration, .declarationList, .fileScopedNamespace]

/-- In other trees there are no classes. -/
theorem classTreesFrom_append (outer? current? : Option String) {ts : List Tree} (us : List Tree)
    (h : ∀ t ∈ ts, ∀ c ∈ classPlaces, t.isOf c = false) :
    classTreesFrom outer? current? (ts ++ us) = classTreesFrom outer? current? us := by
  induction ts with
  | nil => rfl
  | cons t ts ih =>
    obtain ⟨ht, hts⟩ := List.forall_mem_cons.mp h
    cases t with
    | leaf t => simpa [classTreesFrom, classTrees] using ih hts
    | node c cs =>
      have hc : c ∉ classPlaces := fun hmem => by
        have hself := ht c hmem
        simp [isOf] at hself
      have hnone : classTrees current? (node c cs) = [] := by
        unfold classTrees
        split
        · exact absurd (by decide) hc
        · exact absurd (by decide) hc
        · exact absurd (by decide) hc
        · rfl
      rw [List.cons_append, classTreesFrom, hnone, List.nil_append, ih hts]
      rintro cs' heq
      cases heq
      exact hc (by decide)

end CSharp.Tree

/-- The characters of a namespace: those of identifiers, and points. -/
theorem Name.LegibleNamespace.mem_text {n : Name} (h : n.LegibleNamespace) {d : Char}
    (hd : d ∈ n.text.toList) : d = '.' ∨ d = '@' ∨ isIdentifierPart d = true := by
  have hpiece : ∀ p ∈ splitChars '.' n.text.toList, d ∈ p → d = '@' ∨ isIdentifierPart d = true := by
    intro p hp hd
    obtain ⟨c, rest, _, hrest, rfl | rfl⟩ := isPlainWord_iff.mp (h.identifiers p hp).2
    · exact Or.inr (hrest d hd)
    · exact (List.mem_cons.mp hd).imp id fun hd => hrest d hd
  rw [← dottedChars_splitChars n.text.toList] at hd
  cases hpieces : splitChars '.' n.text.toList with
  | nil => exact absurd hpieces (splitChars_ne_nil _ _)
  | cons p ps =>
    rw [hpieces] at hd hpiece
    rw [dottedChars, List.mem_append, List.mem_flatMap] at hd
    rcases hd with hd | ⟨q, hq, hd⟩
    · exact Or.inr (hpiece p List.mem_cons_self hd)
    · exact (List.mem_cons.mp hd).imp id fun hd => hpiece q (List.mem_cons_of_mem _ hq) hd

theorem Name.LegibleNamespace.withoutBlanks_text {n : Name} (h : n.LegibleNamespace) :
    withoutBlanks n.text = n.text := by
  have hall : n.text.toList.filter (fun c => !isBlank c) = n.text.toList := by
    refine List.filter_eq_self.mpr fun c hc => ?_
    rcases h.mem_text hc with rfl | rfl | hpart
    · decide
    · decide
    · simp [not_isBlank_of_isIdentifierPart hpart]
  rw [withoutBlanks, hall, String.ofList_toList]

namespace CSharp.Sheet

variable {s : Sheet}

theorem Members.isOf {ms : List CSharp.Tree} (h : s.Members ms) : ∀ u ∈ ms,
    ∃ c ∈ [Category.fieldDeclaration, .constructorDeclaration, .methodDeclaration],
      u.isOf c = true := by
  obtain ⟨fields, c, tests, rfl, hfields, hsetup, htests⟩ := h
  intro u hu
  rcases List.mem_append.mp hu with hu | hu
  · exact ⟨_, by simp, hfields u hu⟩
  · rcases List.mem_cons.mp hu with rfl | hu
    · exact ⟨_, by simp, hsetup.1⟩
    · exact ⟨.methodDeclaration, by simp, forall_of_forall₂ htests (fun _ _ ht => ht.1) u hu⟩

/-- The members of a class have no classes in them. -/
theorem Members.classTreesFrom {ms : List CSharp.Tree} (h : s.Members ms)
    (outer? current? : Option String) (us : List CSharp.Tree) :
    CSharp.Tree.classTreesFrom outer? current? (ms ++ us) =
      CSharp.Tree.classTreesFrom outer? current? us := by
  have hapart : ∀ d ∈ [Category.fieldDeclaration, .constructorDeclaration, .methodDeclaration],
      ∀ c ∈ CSharp.Tree.classPlaces, d ≠ c := by decide
  refine CSharp.Tree.classTreesFrom_append outer? current? us fun t ht c hc => ?_
  obtain ⟨d, hd, ht⟩ := h.isOf t ht
  exact CSharp.Tree.isOf_of_ne ht (hapart d hd c hc)

/-- In the class of a sheet there is no other class. -/
theorem ClassTree.classTrees {c : CSharp.Tree} (h : s.ClassTree c) (inNamespace? : Option String) :
    CSharp.Tree.classTrees inNamespace? c = [(inNamespace?, c)] := by
  obtain ⟨p, w, o, e, ms, rfl, hms⟩ := h
  have hend := hms.classTreesFrom inNamespace? inNamespace? [.leaf e]
  simp [CSharp.Tree.classTrees, CSharp.Tree.classTreesFrom, hend]

/-- **The class of a sheet is read back.** -/
theorem ClassTree.sourceClass {c : CSharp.Tree} (h : s.ClassTree c)
    (inNamespace? : Option String) : c.sourceClass inNamespace? = .ok {
      name := (wordOf s.className).name
      inNamespace?
      constructors := [{ access := .publicAccess }]
      methods := s.tests.map TestSheet.method } := by
  obtain ⟨p, w, o, e, ms, rfl, fields, k, tests, rfl, hfields, ⟨hsetup, hk⟩, htests⟩ := h
  have hmethods : ∀ t ∈ tests, t.isOf .methodDeclaration = true :=
    forall_of_forall₂ htests fun _ _ ht => ht.1
  have hfound : ∀ d, (CSharp.Tree.leaf o :: (fields ++ k :: tests) ++ [CSharp.Tree.leaf e]).filter
      (CSharp.Tree.isOf d) = (if .fieldDeclaration = d then fields else []) ++
        (if .constructorDeclaration = d then [k] else []) ++
          if .methodDeclaration = d then tests else [] := by
    intro d
    have hleaf : ∀ t : Token, (CSharp.Tree.leaf t).isOf d = false := fun _ => rfl
    rw [← CSharp.Tree.filter_isOf hfields, ← CSharp.Tree.filter_isOf hmethods,
      ← CSharp.Tree.filter_isOf (List.forall_mem_singleton.mpr hsetup)]
    cases hcase : k.isOf d
    all_goals simp [hleaf, hcase]
  have hname : (CSharp.Tree.node .classDeclaration [.node .modifier [.leaf p], .leaf w,
      .node .identifier [.leaf (Token.name s.className).spaced], .node .declarationList
        (.leaf o :: (fields ++ k :: tests) ++ [.leaf e])]).declaredName? =
          some (wordOf s.className).name := rfl
  have hmembers : (CSharp.Tree.node .classDeclaration [.node .modifier [.leaf p], .leaf w,
      .node .identifier [.leaf (Token.name s.className).spaced], .node .declarationList
        (.leaf o :: (fields ++ k :: tests) ++ [.leaf e])]).members =
          .leaf o :: (fields ++ k :: tests) ++ [.leaf e] := rfl
  have hmethod : tests.mapM CSharp.Tree.method = .ok (s.tests.map TestSheet.method) := by
    refine mapM_eq_of_forall₂ (List.forall₂_map_right_iff.mpr (List.Forall₂.flip ?_))
    exact htests.imp fun _ _ ht => ht.2
  have hconstructor : [k].mapM CSharp.Tree.constructor = .ok [{ access := .publicAccess }] :=
    mapM_eq_of_forall₂ (.cons hk .nil)
  rw [CSharp.Tree.sourceClass, hname, hmembers]
  simp only [hfound, if_pos, reduceCtorEq, if_false, List.nil_append, List.append_nil, hmethod,
    hconstructor]
  rfl

/-- The name of the namespace of a sheet. -/
theorem NamespaceTree.namespaceName {u : CSharp.Tree} (h : s.NamespaceTree u) {n : Name}
    (hname : s.namespaceName = splitChars '.' n.text.toList) (hlegible : n.LegibleNamespace) :
    CSharp.Tree.namespaceName u = n.text := by
  obtain ⟨t, ns, o, c, e, rfl, hchars, _, _⟩ := h
  have hchild : (CSharp.Tree.node .namespaceDeclaration [.leaf t, .node .name ns,
      .node .declarationList [.leaf o, c, .leaf e]]).child? .name = some (.node .name ns) := rfl
  rw [hname, hlegible.spelt.charsOfTokens] at hchars
  rw [CSharp.Tree.namespaceName, hchild]
  dsimp only
  rw [CSharp.Tree.text, hchars, String.ofList_toList, hlegible.withoutBlanks_text]

/-- The namespace of a sheet has its class, and no other one. -/
theorem NamespaceTree.classTrees {u : CSharp.Tree} (h : s.NamespaceTree u) {n : Name}
    (hname : CSharp.Tree.namespaceName u = n.text) :
    ∃ c, s.ClassTree c ∧ CSharp.Tree.classTreesFrom none none [u] = [(some n.text, c)] := by
  obtain ⟨t, ns, o, c, e, rfl, _, _, hc⟩ := h
  have hclass := hc.classTrees (some n.text)
  obtain ⟨cs, rfl, _⟩ := hc.exists_node
  have hqualify : CSharp.Tree.qualify none n.text = some n.text := by
    rw [CSharp.Tree.qualify, if_neg n.nonempty]
  refine ⟨_, hc, ?_⟩
  -- the class is met as the middle one of the trees in braces
  simp only [CSharp.Tree.classTreesFrom, CSharp.Tree.classTrees, hname, hqualify,
    List.nil_append, List.append_nil] at hclass ⊢
  exact hclass

end CSharp.Sheet

/-! ### The test class as a source file -/

/-- A test as a method of a source file. -/
def Test.decoded (t : Test) : Source.Method where
  name := t.name
  returnType := if t.isAsync then ⟨.task, "Task", none⟩ else ⟨.void, "void", none⟩
  isAsync := t.isAsync
  access := .publicAccess

/-- A test class as a source file. -/
def Fixture.decoded (x : Fixture) : Source.File where
  inNamespace? := some x.namespaceName.text
  usings := x.sortedUsings
  classes := [{
    name := x.className
    inNamespace? := some x.namespaceName.text
    constructors := [{ access := .publicAccess }]
    methods := x.tests.map Test.decoded }]

/-- A name that is written as a word is read as the word. -/
theorem CSharp.IsName.name_wordOf {n : Name} (h : IsName n.text.toList) :
    (wordOf n.text.toList).name = n := by
  apply Name.text_injective
  change String.ofList (wordOf n.text.toList).chars = n.text
  rw [wordOf_chars h.plain, String.ofList_toList]

theorem Test.Written.method {t : Test} {s : TestSheet} (h : t.Written s) (hname : t.name.Legible) :
    s.method = t.decoded := by
  unfold TestSheet.method Test.decoded
  rw [h.name, h.isAsync, hname.name.name_wordOf]

/-- The tests of a rendered test class are read as methods, in their order. -/
theorem Fixture.Written.methods {x : Fixture} {s : Sheet} (h : x.Written s) (hlegible : x.Legible) :
    s.tests.map TestSheet.method = x.tests.map Test.decoded := by
  have hmember : List.Forall₂ (fun t u => t ∈ x.tests ∧ Test.Written t u) x.tests s.tests :=
    (List.forall₂_and_left _ _).mpr ⟨fun _ ht => ht, h.tests⟩
  refine (map_eq_of_forall₂ hmember fun t u ht => ?_).symm
  exact (ht.2.method (hlegible.tests t ht.1).name).symm

/-- **The text of a legible test class is read back as what it was rendered from**, if its
directives are stated by their lines. -/
theorem Fixture.Legible.ofText {x : Fixture} (h : x.Legible)
    (husings : ∀ u ∈ x.usings, usingOfText? (Layout.usingLine u) = some u) (layout : Layout)
    (hindent : ∀ c ∈ layout.indent.toList, isPlainBlank c = true) :
    ∃ out, layout.render x = .ok out ∧ Source.File.ofText out = .ok x.decoded := by
  obtain ⟨s, ts, us, out, hwritten, hlaid, hrender, htree, rhs, hrule, hreads⟩ :=
    h.exists_tree layout hindent
  refine ⟨out, hrender, ?_⟩
  obtain ⟨ds, u, rfl, hstands, hu, hnone⟩ := hwritten.read_file h hlaid hrule hreads
  have hread : ∀ d ∈ x.sortedUsings, usingOfText? (Layout.usingLine d) = some d := by
    intro d hd
    rcases List.mem_append.mp hd with hd | hd
    · exact husings d (List.mem_filter.mp hd).1
    · exact husings d (List.mem_filter.mp hd).1
  have hname := hu.namespaceName hwritten.namespaceName h.namespaceName
  obtain ⟨c, hc, hclasses⟩ := hu.classTrees hname
  obtain ⟨cs, rfl⟩ : ∃ cs, u = .node .namespaceDeclaration cs := by
    obtain ⟨t, ns, o, c, e, rfl, _⟩ := hu
    exact ⟨_, rfl⟩
  have hdirectives : ∀ t ∈ ds, ∀ c ∈ CSharp.Tree.classPlaces, t.isOf c = false := by
    have hapart : ∀ c ∈ CSharp.Tree.classPlaces, (Category.usingDirective == c) = false := by decide
    refine forall_of_forall₂ hstands fun d t hd c hc => ?_
    obtain ⟨⟨cs, rfl, _⟩, _⟩ := hd
    exact hapart c hc
  have hdecoded : c.sourceClass (some x.namespaceName.text) = .ok {
      name := x.className
      inNamespace? := some x.namespaceName.text
      constructors := [{ access := .publicAccess }]
      methods := x.tests.map Test.decoded } := by
    rw [hc.sourceClass, hwritten.className, h.className.name.name_wordOf, hwritten.methods h]
  rw [Source.File.ofText, htree]
  dsimp only
  rw [CSharp.Tree.outline, CSharp.Tree.usings_of_stands hstands hnone hread,
    CSharp.Tree.firstNamespace?_of_stands hstands, hname, CSharp.Tree.children,
    CSharp.Tree.classTreesFrom_append none none _ hdirectives, hclasses]
  simp only [List.mapM_cons, List.mapM_nil, hdecoded]
  rfl

/-! ### Directives of the test class -/

namespace Source.Using

/-- The directive of a plain name is read back from its line. -/
theorem usingOfText?_plain {n : Name}
    (h : ∀ d ∈ n.text.toList, d = '.' ∨ d = '@' ∨ isIdentifierPart d = true) :
    usingOfText? (Layout.usingLine (.plain n)) = some (.plain n) := by
  have hsigns : isIdentifierPart '=' = false ∧ isIdentifierPart ';' = false := by decide
  have hassign : '=' ∉ n.text.toList := fun hmem => by
    have hone := h _ hmem
    rw [hsigns.1] at hone
    simp at hone
  have hblank : ∀ d ∈ n.text.toList, isBlank d = false := by
    intro d hd
    rcases h d hd with rfl | rfl | hpart
    · decide
    · decide
    · exact not_isBlank_of_isIdentifierPart hpart
  have htidy : (plain n).Tidy := by
    refine ⟨.word hblank, fun a ha => (by cases ha), fun _ => hassign, fun _ hpre => ?_⟩
    have hspace := hblank ' ' (hpre.subset (by simp))
    cases hspace
  refine htidy.usingOfText?_usingLine ⟨fun a ha => (by cases ha), fun hlast => ?_⟩
  have hone := h _ (List.mem_of_mem_getLast? hlast)
  rw [hsigns.2] at hone
  simp at hone

theorem usingOfText?_default {n : Name} (h : n ∈ defaultUsings) :
    usingOfText? (Layout.usingLine (.plain n)) = some (.plain n) := by
  have hall : (defaultUsings.all fun n => n.text.toList.all fun d =>
      d == '.' || isIdentifierPart d) = true := by decide +kernel
  refine usingOfText?_plain fun d hd => ?_
  have hone := List.all_eq_true.mp (List.all_eq_true.mp hall n h) d hd
  rw [Bool.or_eq_true, beq_iff_eq] at hone
  exact hone.imp id Or.inr

end Source.Using

/-- The directives of a source file are cut from a text. -/
theorem Source.File.tidy_of_ofText {text : String} {f : Source.File}
    (h : Source.File.ofText text = .ok f) : ∀ u ∈ f.usings, u.Tidy := by
  unfold Source.File.ofText at h
  split at h
  · obtain ⟨usings, husings, h⟩ := exists_of_bind_eq_ok h
    obtain ⟨classes, _, h⟩ := exists_of_bind_eq_ok h
    cases h
    have hall := forall₂_of_mapM_eq_ok husings
    refine forall_of_forall₂ hall fun t u hu => ?_
    split at hu
    · rename_i d hd
      cases hu
      exact Source.Using.tidy_of_usingOfText? hd
    · cases hu
  · cases h

/-- A governing namespace has the characters of the namespace of the tests. -/
theorem Naming.toList_subset_testNamespace {s? : Option String} {n : Name}
    (h : s?.bind Name.ofString? = some n) :
    n.text.toList ⊆ (Naming.testNamespace s?).text.toList := by
  obtain ⟨s, rfl, hn⟩ := Option.bind_eq_some_iff.mp h
  have hs := Name.text_of_ofString? hn
  subst hs
  rw [Naming.testNamespace, if_neg n.nonempty]
  simp only [String.toList_append, List.append_assoc]
  exact List.subset_append_left _ _

theorem Fixture.usings_of_ofClass {f : Source.File} {c : Source.Class} {suffix : String}
    {x : Fixture} (h : Fixture.ofClass f c suffix = .ok x) :
    x.usings = mergeUsings (Fixture.governing c f) f.usings := by
  unfold Fixture.ofClass at h
  obtain ⟨w, _, h⟩ := exists_of_bind_eq_ok h
  obtain ⟨tests, _, h⟩ := exists_of_bind_eq_ok h
  unfold checked at h
  split at h
  · cases h
    rfl
  · cases h

/-- The directives of the test class for a legible class are read back from their lines. -/
theorem Source.Class.Legible.usingOfText? {f : Source.File} {c : Source.Class} (h : c.Legible f)
    (htidy : ∀ u ∈ f.usings, u.Tidy) (hclear : ∀ u ∈ f.usings, u.Clear) :
    ∀ u ∈ mergeUsings (Fixture.governing c f) f.usings,
      CSharp.usingOfText? (Layout.usingLine u) = some u := by
  intro u hu
  rcases mem_addAll hu with hu | hu
  · cases hu
  rcases List.mem_append.mp hu with hu | hu
  · rcases List.mem_append.mp hu with hu | hu
    · obtain ⟨n, hn, rfl⟩ := List.mem_map.mp hu
      exact Source.Using.usingOfText?_plain fun d hd => h.namespaceName.mem_text
        (Naming.toList_subset_testNamespace (Option.mem_toList.mp hn) hd)
    · obtain ⟨n, hn, rfl⟩ := List.mem_map.mp hu
      exact Source.Using.usingOfText?_default hn
  · exact (htidy u hu).usingOfText?_usingLine (hclear u hu)

/-- **Decoding undoes encoding**: the test class for a legible class of a source file is put
together and rendered, and its text is read as the test class, with the global directives first. -/
theorem Source.Class.Legible.decodes {text : String} {f : Source.File} {c : Source.Class}
    (hfile : Source.File.ofText text = .ok f) (h : c.Legible f)
    (hclear : ∀ u ∈ f.usings, u.Clear) (layout : Layout)
    (hindent : ∀ d ∈ layout.indent.toList, isPlainBlank d = true) :
    ∃ x out, Fixture.ofClass f c = .ok x ∧ layout.render x = .ok out ∧
      Source.File.ofText out = .ok x.decoded := by
  obtain ⟨x, hx, hlegible, _⟩ := h.exists_fixture
  have husings := h.usingOfText? (Source.File.tidy_of_ofText hfile) hclear
  rw [← Fixture.usings_of_ofClass hx] at husings
  obtain ⟨out, hrender, hout⟩ := hlegible.ofText husings layout hindent
  exact ⟨x, out, hx, hrender, hout⟩

/-- A file with a directive and the class of an archive. -/
def archiveFile : Source.File where
  usings := [.plain ⟨"Acme", by decide⟩]
  classes := [archiveClass]

theorem legible_archiveFile : archiveClass.Legible archiveFile :=
  { legible_archiveClass with
    usings := by
      intro u hu
      rw [List.mem_singleton.mp hu]
      refine exists_usingRow fun q hq => ?_
      have hpieces : splitChars '.' "Acme".toList = ["Acme".toList] := by decide +kernel
      obtain rfl : q = "Acme".toList := List.mem_singleton.mp (hpieces ▸ hq)
      exact ⟨by decide +kernel, by decide +kernel⟩ }

theorem decodes_archiveFile :
    ∃ x out, Fixture.ofClass archiveFile archiveClass = .ok x ∧ ({} : Layout).render x = .ok out ∧
      Source.File.ofText out = .ok x.decoded := by
  have hfile : Source.File.ofText ("using Acme;class Archive\x7bArchive(IIndex index)\x7b\x7d" ++
      "public async Task<Uri> Find(Key key);\x7d") = .ok archiveFile := by decide +kernel
  refine legible_archiveFile.decodes hfile (fun u hu => ?_) {} (List.all_eq_true.mp (by decide))
  rw [List.mem_singleton.mp hu]
  exact ⟨fun a ha => (by cases ha), by decide⟩

/-- A comment between the words of a directive may leave a part of itself in the name. The line of
such a directive states another one. -/
example : ∃ f g, Source.File.ofText "global //old X;//\nusing Y;" = .ok f ∧
    Source.File.ofText (joinWith "\n" (f.usings.map Layout.usingLine)) = .ok g ∧
      f.usings.map (·.name.text) = ["X;// using Y"] ∧ g.usings.map (·.name.text) = ["X"] :=
  ⟨{ usings := [⟨⟨"X;// using Y", by decide⟩, none, false, true⟩] },
    { usings := [⟨⟨"X", by decide⟩, none, false, true⟩] },
    by decide +kernel, by decide +kernel, rfl, rfl⟩

end TestScaffold
