/-
  TestScaffold/Proofs/CSharp/Parameters.lean
  ==========================================
  **Which parameters an outline has of a constructor or a method.**

  Between the parentheses of a declaration stand formal parameters and commas.  An
  outline has what is shown of these parameters, in their order.  So it has all of
  them as they are declared if none is an array, no type has `scoped` in it and no
  note stands before the name of a parameter without a type, and only then.
-/
import TestScaffold.Proofs.CSharp.Formals

namespace TestScaffold.CSharp

open Grammar
open Source (Parameter)

/-- The parentheses and commas of a list of parameters. -/
def Tree.isSign : Tree → Bool
  | leaf t => [Terminal.mark .openParen, .mark .comma, .mark .closeParen].contains t.role
  | node _ _ => false

/-- These are the formal parameters of a declaration: what its list of parameters has besides
parentheses and commas. -/
def Tree.Takes (d : Tree) (formals : List Formal) : Prop :=
  ∃ list, d.child? .parameterList = some list ∧
    list.children.filter (!isSign ·) = formals.map Formal.tree

/-- What is known of a formal parameter that is read. -/
structure Formal.Read (f : Formal) : Prop where
  category : f.tree.isOf .parameter = f.shown?.isSome
  parameter : ∀ p, f.shown? = some p → f.tree.parameter = .ok p
  kept : f.shown? = some f.declared ↔ f.IsKept

namespace Reads

variable {parts rhs : List Part} {ts : List Token} {us : List Tree}

theorem exists_read {c : Category} (h : Reads rhs ts us) (hrule : rhs ∈ rules c)
    (hc : c = .parameter ∨ c = .parameterArray) (hlexed : ∀ t ∈ ts, t.Lexed) :
    ∃ f : Formal, f.tree = .node c us ∧ f.Read := by
  obtain ⟨f, htree, htypes⟩ := h.exists_formal hrule hc hlexed
  have hnotes := h.isNote_notes hlexed htree
  refine ⟨f, htree, ?_, fun p => Formal.parameter_tree hnotes,
    Formal.shown?_eq_declared_iff hnotes htypes⟩
  unfold Formal.tree Formal.shown?
  cases f.front <;> rfl

/-- The trees of a list of parameters are its signs and its formal parameters. -/
theorem exists_formals (h : Reads rhs ts us) (hrule : rhs ∈ rules .parameterList)
    (hlexed : ∀ t ∈ ts, t.Lexed) :
    ∃ formals : List Formal, us.filter (!Tree.isSign ·) = formals.map Formal.tree ∧
      ∀ f ∈ formals, f.Read := by
  have hall : ∀ u ∈ us, u.isSign = true ∨ (u.isSign = false ∧ ∃ f : Formal, f.tree = u ∧ f.Read) := by
    intro u hu
    rw [List.mem_singleton.mp hrule] at h
    obtain ⟨s, hs, hu'⟩ := h.exists_symbol [.token (.mark .openParen),
      .category .parameterItem, .token (.mark .comma), .category .parameter,
      .category .parameterArray, .token (.mark .closeParen)] (by decide) (by decide) u hu
    cases hu' with
    | leaf fits =>
      refine Or.inl ?_
      rw [Tree.isSign, Token.role_of_fits fits]
      simp only [List.mem_cons, List.not_mem_nil, or_false, Symbol.token.injEq, reduceCtorEq,
        false_or] at hs
      rcases hs with rfl | rfl | rfl <;> rfl
    | @node c cs shown =>
      have hc : c = .parameter ∨ c = .parameterArray := by
        simp only [List.mem_cons, List.not_mem_nil, or_false, Symbol.category.injEq, reduceCtorEq,
          false_or] at hs
        rcases hs with rfl | hs
        · cases shown
        · exact hs
      obtain ⟨rhs', hrule', ts', hreads, hwithin⟩ := h.exists_of_node (Tree.mem_preorderOfAll hu)
      exact Or.inr ⟨rfl, hreads.exists_read hrule' hc fun t ht => hlexed t (hwithin.subset ht)⟩
  clear h
  induction us with
  | nil => exact ⟨[], rfl, fun f hf => absurd hf List.not_mem_nil⟩
  | cons u us ih =>
    obtain ⟨hfirst, hrest⟩ := List.forall_mem_cons.mp hall
    obtain ⟨formals, hformals, hread⟩ := ih hrest
    rcases hfirst with hsign | ⟨hsign, f, rfl, hf⟩
    · exact ⟨formals, by simp [hsign, hformals], hread⟩
    · exact ⟨f :: formals, by simp [hsign, hformals], List.forall_mem_cons.mpr ⟨hf, hread⟩⟩

end Reads

namespace Formal

/-- Formal parameters are read one by one, and arrays are passed over. -/
theorem mapM_parameter {formals : List Formal} (h : ∀ f ∈ formals, f.Read) :
    ((formals.map tree).filter (Tree.isOf .parameter)).mapM Tree.parameter =
      .ok (formals.filterMap shown?) := by
  induction formals with
  | nil => rfl
  | cons f formals ih =>
    obtain ⟨hf, hrest⟩ := List.forall_mem_cons.mp h
    rw [List.map_cons]
    cases hshown : f.shown? with
    | none =>
      have hcategory : ¬ f.tree.isOf .parameter = true := by
        rw [hf.category, hshown]
        decide
      rw [List.filter_cons_of_neg hcategory, List.filterMap_cons_none hshown, ih hrest]
    | some p =>
      have hcategory : f.tree.isOf .parameter = true := by
        rw [hf.category, hshown]
        rfl
      rw [List.filter_cons_of_pos hcategory, List.filterMap_cons_some hshown, List.mapM_cons,
        hf.parameter p hshown, ih hrest]
      rfl

/-- What is shown is what is declared just if it is so of each formal parameter. -/
theorem filterMap_eq_map_iff {formals : List Formal} (h : ∀ f ∈ formals, f.Read) :
    formals.filterMap shown? = formals.map declared ↔ ∀ f ∈ formals, f.IsKept := by
  rw [List.filterMap_eq_map_iff_forall_eq_some]
  exact forall₂_congr fun f hf => (h f hf).kept

end Formal

/-! ### Declarations with parameters -/

/-- The categories of the declarations whose parameters an outline has. -/
def Category.takers : List Category := [.constructorDeclaration, .methodDeclaration]

/-- What may stand before the list of parameters. -/
def beforeParameters : List Symbol :=
  [.category .attributeItem, .category .attributeList, .category .attributeSection,
    .category .modifier, .category .returnType, .category .explicitInterface,
    .category .identifier, .category .typeParameters]

/-- A constructor and a method have a list of parameters. -/
theorem Reads.child?_parameterList {d : Category} (hd : d ∈ Category.takers) {rhs : List Part}
    {ts : List Token} {us : List Tree} (h : Reads rhs ts us) (hrule : rhs ∈ rules d) :
    ∃ rhs' ∈ rules .parameterList, ∃ ts' cs,
      (Tree.node d us).child? .parameterList = some (.node .parameterList cs) ∧
        Reads rhs' ts' cs ∧ ts' <:+: ts := by
  simp only [Category.takers, List.mem_cons, List.not_mem_nil, or_false] at hd
  rcases hd with rfl | rfl
  · rw [List.mem_singleton.mp hrule] at h
    have hparts : Reads ([many .attributeItem, many .modifier, c .identifier] ++
        c .parameterList :: [opt .constructorInitializer, c .functionBody]) ts us := h
    exact hparts.child?_eq beforeParameters (by decide) (by decide) (by decide) rfl _
  · rw [List.mem_singleton.mp hrule] at h
    have hparts : Reads ([many .attributeItem, many .modifier, c .returnType,
        opt .explicitInterface, c .identifier, opt .typeParameters] ++
          c .parameterList :: [many .constraintClause, c .functionBody]) ts us := h
    exact hparts.child?_eq beforeParameters (by decide) (by decide) (by decide) rfl _

/-- **The parameters of a declaration are what is shown of its formal parameters.** -/
theorem Reads.exists_takes {parts : List Part} {ts : List Token} {us : List Tree} {d : Tree}
    (h : Reads parts ts us) (hlexed : ∀ t ∈ ts, t.Lexed) (hd : d ∈ Tree.preorderOfAll us)
    (hkind : ∃ c ∈ Category.takers, d.isOf c = true) :
    ∃ formals, d.Takes formals ∧ d.parameters = .ok (formals.filterMap Formal.shown?) ∧
      (formals.filterMap Formal.shown? = formals.map Formal.declared ↔
        ∀ f ∈ formals, f.IsKept) := by
  obtain ⟨c, hc, hof⟩ := hkind
  cases d with
  | leaf t => cases hof
  | node e cs =>
    rw [Tree.isOf, beq_iff_eq] at hof
    subst hof
    obtain ⟨rhs, hrule, ts₁, hreads, hwithin⟩ := h.exists_of_node hd
    obtain ⟨rhs', hrule', ts₂, list, hchild, hlist, hwithin'⟩ := hreads.child?_parameterList hc hrule
    obtain ⟨formals, hformals, hread⟩ := hlist.exists_formals hrule' fun t ht =>
      hlexed t (hwithin.subset (hwithin'.subset ht))
    refine ⟨formals, ⟨_, hchild, hformals⟩, ?_, Formal.filterMap_eq_map_iff hread⟩
    -- a formal parameter is no sign
    have hfilter : list.filter (Tree.isOf .parameter) =
        (formals.map Formal.tree).filter (Tree.isOf .parameter) := by
      rw [← hformals, List.filter_filter]
      refine List.filter_congr fun u _ => ?_
      cases u <;> simp [Tree.isOf, Tree.isSign]
    rw [Tree.parameters, hchild]
    exact (congrArg (List.mapM Tree.parameter) hfilter).trans (Formal.mapM_parameter hread)

end TestScaffold.CSharp

namespace TestScaffold

open TestScaffold.CSharp (Tree Formal)

/-! ### Parameters of a source file -/

/-- The parameters are what is shown of the formal parameters of a declaration; and they are all of
them as they are declared just if nothing keeps one of them from being so. -/
def CSharp.Tree.Shows (d : Tree) (parameters : List Source.Parameter) : Prop :=
  ∃ formals, d.Takes formals ∧ parameters = formals.filterMap Formal.shown? ∧
    (parameters = formals.map Formal.declared ↔ ∀ f ∈ formals, f.IsKept)

/-- The declarations in a class show the parameters of its constructors and methods. -/
def CSharp.Tree.ShowsMembers (t : Tree) (c : Source.Class) : Prop :=
  List.Forall₂ (fun d (k : Source.Constructor) => d.Shows k.parameters)
      (t.members.filter (Tree.isOf .constructorDeclaration)) c.constructors ∧
    List.Forall₂ (fun d (m : Source.Method) => d.Shows m.parameters)
      (t.members.filter (Tree.isOf .methodDeclaration)) c.methods

theorem CSharp.Tree.parameters_of_constructor {d : Tree} {k : Source.Constructor}
    (h : d.constructor = .ok k) : d.parameters = .ok k.parameters := by
  obtain ⟨parameters, hparameters, h⟩ := exists_of_bind_eq_ok h
  cases h
  exact hparameters

theorem CSharp.Tree.parameters_of_method {d : Tree} {m : Source.Method}
    (h : d.method = .ok m) : d.parameters = .ok m.parameters := by
  unfold Tree.method at h
  split at h
  · dsimp only at h
    split at h
    · obtain ⟨parameters, hparameters, h⟩ := exists_of_bind_eq_ok h
      cases h
      exact hparameters
    · cases h
  · cases h

/-- What is right in the body of an outlined class stands in the tree of the file. -/
theorem CSharp.Tree.mem_of_mem_members {us : List Tree} {t d : Tree}
    (ht : t ∈ (CSharp.Tree.node .compilationUnit us).outlined) (hd : d ∈ t.members) :
    d ∈ Tree.preorderOfAll us := by
  have hclass : t ∈ Tree.preorderOfAll us :=
    (List.mem_filter.mp ((Tree.classTreesFrom_sublist us none none).subset ht)).1
  unfold Tree.members at hd
  split at hd
  · rename_i body hbody
    exact Tree.mem_preorderOfAll_of_child hd
      (Tree.mem_preorderOfAll_of_child (List.mem_of_find?_eq_some hbody) hclass)
  · cases hd

/-- **The constructors and methods of a source file have one parameter for each formal parameter
of their declaration, in the order of the text, with its name and the text of its type**, if no
formal parameter is an array, no type has `scoped` in it and no note stands before the name of a
parameter without a type. Otherwise they have what is shown of the formal parameters. -/
theorem Source.File.parameters_ofText {text : String} {file : Source.File}
    (h : Source.File.ofText text = .ok file) :
    ∃ tree, Tree.ofText? text = some tree ∧
      List.Forall₂ Tree.ShowsMembers tree.outlined file.classes := by
  obtain ⟨tree, htree, hentries⟩ := Source.File.exists_of_ofText h
  obtain ⟨rhs, hrule, ts, us, rfl, hreads, hlexed⟩ := Tree.exists_of_ofText? htree
  refine ⟨_, htree, ?_⟩
  have hshows : ∀ {t d : Tree} {parameters : List Source.Parameter},
      t ∈ (CSharp.Tree.node .compilationUnit us).outlined → d ∈ t.members →
      (∃ c ∈ CSharp.Category.takers, d.isOf c = true) → d.parameters = .ok parameters →
        d.Shows parameters := by
    intro t d parameters ht hd hkind hparameters
    obtain ⟨formals, htakes, hshown, hkept⟩ :=
      hreads.exists_takes hlexed (Tree.mem_of_mem_members ht hd) hkind
    rw [hparameters] at hshown
    cases hshown
    exact ⟨formals, htakes, rfl, hkept⟩
  have hclasses := (List.forall₂_and_left _ _).mpr ⟨fun t ht => ht, hentries⟩
  refine hclasses.imp fun t c hpair => ?_
  obtain ⟨ht, hc⟩ := hpair
  obtain ⟨hconstructors, hmethods⟩ := hc.forall₂_members
  constructor
  · refine ((List.forall₂_and_left _ _).mpr ⟨fun d hd => hd, hconstructors⟩).imp fun d k hpair => ?_
    obtain ⟨hd, hof⟩ := List.mem_filter.mp hpair.1
    exact hshows ht hd ⟨_, List.mem_cons_self, hof⟩ (Tree.parameters_of_constructor hpair.2)
  · refine ((List.forall₂_and_left _ _).mpr ⟨fun d hd => hd, hmethods⟩).imp fun d m hpair => ?_
    obtain ⟨hd, hof⟩ := List.mem_filter.mp hpair.1
    exact hshows ht hd ⟨_, List.mem_cons_of_mem _ List.mem_cons_self, hof⟩
      (Tree.parameters_of_method hpair.2)

/-- A parameter behind an attribute and a word is there with its type. -/
theorem parameters_ofText_ref :
    ∃ tree, Tree.ofText? "class C{C([X]ref A x){}}" = some tree ∧
      List.Forall₂ Tree.ShowsMembers tree.outlined [{
        name := ⟨"C", by decide⟩
        constructors := [{ parameters := [⟨⟨"x", by decide⟩, "A"⟩] }] }] := by
  have hfile : Source.File.ofText "class C{C([X]ref A x){}}" = .ok {
      classes := [{
        name := ⟨"C", by decide⟩
        constructors := [{ parameters := [⟨⟨"x", by decide⟩, "A"⟩] }] }] } := by decide +kernel
  exact Source.File.parameters_ofText hfile

/-- A constructor that declares an array of arguments has no parameter. -/
theorem parameters_ofText_params :
    ∃ tree, Tree.ofText? "class C{C(params A[]x){}}" = some tree ∧
      (tree.walk.filter (Tree.isOf .parameterArray)).map
          (fun p => (p.declaredName?, (p.child? .collectingType).map Tree.text)) =
        [(some ⟨"x", by decide⟩, some "A[]")] ∧
      Source.File.ofText "class C{C(params A[]x){}}" =
        .ok { classes := [{ name := ⟨"C", by decide⟩, constructors := [{ parameters := [] }] }] } := by
  have hread : (Tree.ofText? "class C{C(params A[]x){}}").any (fun t =>
      decide ((t.walk.filter (Tree.isOf .parameterArray)).map
          (fun p => (p.declaredName?, (p.child? .collectingType).map Tree.text)) =
        [(some ⟨"x", by decide⟩, some "A[]")]) &&
      decide (t.outline = .ok {
        classes := [{ name := ⟨"C", by decide⟩, constructors := [{ parameters := [] }] }] })) =
      true := by decide +kernel
  obtain ⟨tree, htree, hboth⟩ := (Option.any_eq_true ..).mp hread
  obtain ⟨hdeclared, hshown⟩ := Bool.and_eq_true_iff.mp hboth
  refine ⟨tree, htree, of_decide_eq_true hdeclared, ?_⟩
  rw [Source.File.ofText, htree]
  exact of_decide_eq_true hshown

end TestScaffold
