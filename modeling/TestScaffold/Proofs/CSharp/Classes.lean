/-
  TestScaffold/Proofs/CSharp/Classes.lean
  =======================================
  **Which class declarations the outline of a file has.**

  There are two ways to the classes of a tree.  A walk visits every node.  The
  outline enters namespaces, classes and their bodies, and no other node.  So the
  outline has what the walk meets, in the same order, less the classes below a node
  that it does not enter.

  In the tree of a text such a node is a struct, an interface, a record or a
  conditional section.  If no class stands in one of these, the two ways agree,
  and only then.
-/
import TestScaffold.Proofs.CSharp.Lexemes
import TestScaffold.Proofs.CSharp.Nodes
import TestScaffold.Proofs.Fixture.Parts

namespace TestScaffold.CSharp

open Grammar

/-! ### Forests -/

/-- What holds of a list of trees follows from what it is made of. -/
theorem Tree.forest_induction {P : List Tree → Prop} (nil : P [])
    (leaf : ∀ t ts, P ts → P (.leaf t :: ts))
    (node : ∀ c cs ts, P cs → P ts → P (.node c cs :: ts)) (ts : List Tree) : P ts := by
  induction hn : sizeOfAll ts using Nat.strongRecOn generalizing ts with
  | ind n ih =>
    subst hn
    cases ts with
    | nil => exact nil
    | cons t ts =>
      have hts : sizeOfAll ts < sizeOfAll (t :: ts) := by
        cases t <;> simp [sizeOfAll, size]
      cases t with
      | leaf t => exact leaf t ts (ih _ hts ts rfl)
      | node c cs =>
        have hcs : sizeOfAll cs < sizeOfAll (.node c cs :: ts) := by
          simp only [sizeOfAll, size]
          omega
        exact node c cs ts (ih _ hcs cs rfl) (ih _ hts ts rfl)

/-- Lists that are cut out of others, one behind the other, are the whole if each is. -/
theorem append_eq_append_iff_of_sublist {α : Type} {xs xs' ys ys' : List α}
    (hxs : xs.Sublist xs') (hys : ys.Sublist ys') :
    xs ++ ys = xs' ++ ys' ↔ xs = xs' ∧ ys = ys' := by
  constructor
  · intro h
    have hlength := congrArg List.length h
    simp only [List.length_append] at hlength
    have hx := hxs.length_le
    have hy := hys.length_le
    exact List.append_inj h (by omega)
  · rintro ⟨rfl, rfl⟩
    rfl

namespace Tree

/-! ### Classes below trees -/

/-- The class declarations in some trees, each before those in it. -/
def classesIn (ts : List Tree) : List Tree := (preorderOfAll ts).filter (isOf .classDeclaration)

/-- The class declarations of a file, in the order of the text. -/
def classes (t : Tree) : List Tree := t.walk.filter (isOf .classDeclaration)

theorem classes_eq (t : Tree) : t.classes = classesIn t.children := by
  rw [classes, walk, visit_eq, classesIn]

theorem classesIn_leaf (t : Token) (ts : List Tree) : classesIn (leaf t :: ts) = classesIn ts := by
  rw [classesIn, preorderOfAll, preorder, List.cons_append, List.nil_append, List.filter_cons_of_neg]
  · rfl
  · simp [isOf]

theorem classesIn_node (c : Category) (cs ts : List Tree) :
    classesIn (node c cs :: ts) = (if c = .classDeclaration then [node c cs] else []) ++
      classesIn cs ++ classesIn ts := by
  simp only [classesIn, preorderOfAll, preorder, List.cons_append, List.filter_cons,
    List.filter_append, isOf, beq_iff_eq]
  split <;> rfl

theorem classesIn_append (ts us : List Tree) :
    classesIn (ts ++ us) = classesIn ts ++ classesIn us := by
  rw [classesIn, preorderOfAll_append, List.filter_append, classesIn, classesIn]

/-- No class stands in a node of these categories. -/
def Free (p : Category → Bool) (ts : List Tree) : Prop :=
  ∀ c cs, node c cs ∈ preorderOfAll ts → p c = true → classesIn cs = []

theorem free_leaf {p : Category → Bool} {t : Token} {ts : List Tree} :
    Free p (leaf t :: ts) ↔ Free p ts := by
  simp [Free, preorderOfAll, preorder]

theorem free_node {p : Category → Bool} {c : Category} {cs ts : List Tree} :
    Free p (node c cs :: ts) ↔ (p c = true → classesIn cs = []) ∧ Free p cs ∧ Free p ts := by
  simp only [Free, preorderOfAll, preorder, List.cons_append, List.mem_cons, List.mem_append,
    node.injEq]
  constructor
  · intro h
    exact ⟨h c cs (Or.inl ⟨rfl, rfl⟩), fun d ds hd => h d ds (Or.inr (Or.inl hd)),
      fun d ds hd => h d ds (Or.inr (Or.inr hd))⟩
  · rintro ⟨hhere, hcs, hts⟩ d ds (⟨rfl, rfl⟩ | hd | hd)
    · exact hhere
    · exact hcs d ds hd
    · exact hts d ds hd

theorem free_append {p : Category → Bool} {ts us : List Tree} :
    Free p (ts ++ us) ↔ Free p ts ∧ Free p us := by
  simp only [Free, preorderOfAll_append, List.mem_append]
  constructor
  · intro h
    exact ⟨fun c cs hc => h c cs (Or.inl hc), fun c cs hc => h c cs (Or.inr hc)⟩
  · rintro ⟨hts, hus⟩ c cs (hc | hc)
    · exact hts c cs hc
    · exact hus c cs hc

/-- Where there are no classes at all, none stands in any node. -/
theorem free_of_classesIn_eq_nil (p : Category → Bool) {ts : List Tree}
    (h : classesIn ts = []) : Free p ts := by
  induction ts using forest_induction with
  | nil => exact fun c cs hc => absurd hc (by simp [preorderOfAll])
  | leaf t ts ih => exact free_leaf.mpr (ih (by rwa [classesIn_leaf] at h))
  | node c cs ts ihcs ihts =>
    rw [classesIn_node, List.append_eq_nil_iff, List.append_eq_nil_iff] at h
    exact free_node.mpr ⟨fun _ => h.1.2, ihcs h.1.2, ihts h.2⟩

end Tree

/-! ### Classes of an outline -/

/-- The categories in whose nodes an outline looks for classes. -/
def Category.isOpen (c : Category) : Bool :=
  c == .namespaceDeclaration || c == .classDeclaration || c == .declarationList

namespace Tree

/-- One tree contributes itself if it is a class, and what is in it if it is entered. -/
theorem exists_classTreesFrom_node (outer? current? : Option String) (c : Category)
    (cs ts : List Tree) :
    ∃ inner? next?, (classTreesFrom outer? current? (node c cs :: ts)).map (·.2) =
      (if c = .classDeclaration then [node c cs] else []) ++
        (if c.isOpen then (classTreesFrom inner? inner? cs).map (·.2) else []) ++
          (classTreesFrom outer? next? ts).map (·.2) := by
  by_cases hfile : c = .fileScopedNamespace
  · subst hfile
    exact ⟨none, _, rfl⟩
  · have hstep : classTreesFrom outer? current? (node c cs :: ts) =
        classTrees current? (node c cs) ++ classTreesFrom outer? current? ts := by
      rw [classTreesFrom]
      rintro cs' heq
      cases heq
      exact hfile rfl
    rw [hstep, List.map_append]
    by_cases hnamespace : c = .namespaceDeclaration
    · subst hnamespace
      exact ⟨_, current?, rfl⟩
    · by_cases hclass : c = .classDeclaration
      · subst hclass
        exact ⟨_, current?, rfl⟩
      · by_cases hlist : c = .declarationList
        · subst hlist
          exact ⟨_, current?, rfl⟩
        · refine ⟨none, current?, ?_⟩
          have hnone : classTrees current? (node c cs) = [] := by
            unfold classTrees
            split <;> first | contradiction | rfl
          simp [hnone, hclass, hnamespace, hlist, Category.isOpen]

/-- **An outline has classes that a walk meets, in the same order.** -/
theorem classTreesFrom_sublist (ts : List Tree) : ∀ outer? current?,
    ((classTreesFrom outer? current? ts).map (·.2)).Sublist (classesIn ts) := by
  induction ts using forest_induction with
  | nil => exact fun _ _ => .slnil
  | leaf t ts ih =>
    intro outer? current?
    rw [classesIn_leaf]
    exact ih outer? current?
  | node c cs ts ihcs ihts =>
    intro outer? current?
    obtain ⟨inner?, next?, heq⟩ := exists_classTreesFrom_node outer? current? c cs ts
    rw [heq, classesIn_node]
    refine .append (.append (List.Sublist.refl _) ?_) (ihts outer? next?)
    split
    · exact ihcs inner? inner?
    · exact List.nil_sublist _

/-- **An outline has all classes that a walk meets just if none of them stands in a node that the
    outline does not enter.** -/
theorem classTreesFrom_eq_iff (ts : List Tree) : ∀ outer? current?,
    (classTreesFrom outer? current? ts).map (·.2) = classesIn ts ↔ Free (!·.isOpen) ts := by
  induction ts using forest_induction with
  | nil =>
    intro outer? current?
    exact iff_of_true rfl (free_of_classesIn_eq_nil _ rfl)
  | leaf t ts ih =>
    intro outer? current?
    rw [classesIn_leaf, free_leaf]
    exact ih outer? current?
  | node c cs ts ihcs ihts =>
    intro outer? current?
    obtain ⟨inner?, next?, heq⟩ := exists_classTreesFrom_node outer? current? c cs ts
    have hmore := classTreesFrom_sublist ts outer? next?
    rw [heq, classesIn_node, List.append_assoc, List.append_assoc, List.append_cancel_left_eq,
      free_node, ← ihts outer? next?]
    cases hopen : c.isOpen with
    | true =>
      rw [if_pos rfl, append_eq_append_iff_of_sublist (classTreesFrom_sublist cs inner? inner?) hmore,
        ihcs inner? inner?]
      simp
    | false =>
      rw [if_neg (by decide), append_eq_append_iff_of_sublist (List.nil_sublist _) hmore]
      constructor
      · rintro ⟨hnone, hts⟩
        exact ⟨fun _ => hnone.symm, free_of_classesIn_eq_nil _ hnone.symm, hts⟩
      · rintro ⟨hnone, _, hts⟩
        exact ⟨(hnone rfl).symm, hts⟩

end Tree

/-! ### Classes of an accepted text -/

/-- The categories that may hold classes and are not entered by an outline. -/
def Category.hiding : List Category :=
  [.structDeclaration, .interfaceDeclaration, .recordDeclaration, .topSection, .topAlternative,
    .memberSection, .memberAlternative]

/-- The categories that lead to a class without one of the hiding ones between. -/
def Category.leading : List Category :=
  [.compilationUnit, .topLevelItem, .typeDeclaration, .typeBody, .declarationList, .memberItem,
    .memberDeclaration, .namespaceDeclaration, .classDeclaration]

/-- Parts that do not lead to a class. -/
def Leaves (parts : List Part) : Prop :=
  ∀ part ∈ parts, ∀ c ∈ Category.leading, part.symbol ≠ .category c

/-- Only leading and hiding categories name a leading one. -/
theorem leaves_of_rule {c : Category} (hlead : c ∉ Category.leading)
    (hhide : c ∉ Category.hiding) {rhs : List Part} (hrule : rhs ∈ rules c) : Leaves rhs := by
  have h := Category.of_all (p := fun c => Category.leading.contains c ||
    Category.hiding.contains c || (rules c).all fun rhs => rhs.all fun part =>
      Category.leading.all fun d => part.symbol != .category d) (by decide +kernel) c
  simp only [Bool.or_eq_true, List.contains_iff_mem, List.all_eq_true, bne_iff_ne] at h
  rcases h with (h | h) | h
  · exact absurd h hlead
  · exact absurd h hhide
  · exact h rhs hrule

theorem Leaves.of_mem_unfold {parts way : List Part} (h : Leaves parts) (hway : way ∈ unfold parts) :
    Leaves way :=
  symbol_of_mem_unfold (P := fun s => ∀ c ∈ Category.leading, s ≠ .category c)
    (fun _ _ e => by cases e) h hway

namespace Reads

variable {parts : List Part} {ts : List Token} {us : List Tree}

/-- What does not lead to a class has none, if none is hidden. -/
theorem classesIn_eq_nil (h : Reads parts ts us) (hparts : Leaves parts)
    (hfree : Tree.Free (Category.hiding.contains ·) us) : Tree.classesIn us = [] := by
  induction h with
  | done way => rfl
  | token way fits tail ih =>
    rw [Tree.classesIn_leaf]
    exact ih (List.forall_mem_cons.mp (hparts.of_mem_unfold way)).2 (Tree.free_leaf.mp hfree)
  | @category _ _ rhs c _ _ us us' way rule head tail ihHead ihTail =>
    obtain ⟨hlead, hrest⟩ := List.forall_mem_cons.mp (hparts.of_mem_unfold way)
    have hc : c ∉ Category.leading := fun hmem => hlead c hmem rfl
    rw [Tree.free_append] at hfree
    rw [Tree.classesIn_append, ihTail hrest hfree.2, List.append_nil]
    have hclass : c ≠ .classDeclaration := fun e => hc (by rw [e]; decide)
    unfold Tree.ofCategory at hfree ⊢
    split at hfree
    · -- a transparent category is not among the hiding ones
      rename_i htransparent
      have hhide : c ∉ Category.hiding := fun hmem => by
        have hall : ∀ d ∈ Category.hiding, isTransparent d = false := by decide
        rw [hall c hmem] at htransparent
        cases htransparent
      rw [if_pos htransparent]
      exact ihHead (leaves_of_rule hc hhide rule) hfree.1
    · rename_i hnode
      obtain ⟨hhere, hus, _⟩ := Tree.free_node.mp hfree.1
      rw [if_neg hnode, Tree.classesIn_node, if_neg hclass]
      have hnone : Tree.classesIn us = [] := by
        by_cases hhide : c ∈ Category.hiding
        · exact hhere (List.contains_iff_mem.mpr hhide)
        · exact ihHead (leaves_of_rule hc hhide rule) hus
      rw [hnone]
      rfl

/-- If no class is hidden, none stands in a node that an outline does not enter. -/
theorem free_of_hiding (h : Reads parts ts us) (hinner : Inner parts)
    (hfree : Tree.Free (Category.hiding.contains ·) us) : Tree.Free (!·.isOpen) us := by
  induction h with
  | done way => exact Tree.free_of_classesIn_eq_nil _ rfl
  | token way fits tail ih =>
    exact Tree.free_leaf.mpr (ih (hinner.of_mem_unfold way).tail (Tree.free_leaf.mp hfree))
  | @category _ _ rhs c _ _ us us' way rule head tail ihHead ihTail =>
    have hway := hinner.of_mem_unfold way
    have hunit : c ≠ .compilationUnit := fun e => hway _ List.mem_cons_self (by rw [e]; rfl)
    have hrhs : Inner rhs := fun part hpart => symbol_ne_compilationUnit rule hpart
    rw [Tree.free_append] at hfree
    refine Tree.free_append.mpr ⟨?_, ihTail hway.tail hfree.2⟩
    unfold Tree.ofCategory at hfree ⊢
    split at hfree
    · rename_i htransparent
      rw [if_pos htransparent]
      exact ihHead hrhs hfree.1
    · rename_i hnode
      obtain ⟨hhere, hus, _⟩ := Tree.free_node.mp hfree.1
      rw [if_neg hnode]
      refine Tree.free_node.mpr ⟨fun hclosed => ?_, ihHead hrhs hus,
        Tree.free_of_classesIn_eq_nil _ rfl⟩
      by_cases hhide : c ∈ Category.hiding
      · exact hhere (List.contains_iff_mem.mpr hhide)
      · -- a leading category that leaves a node is entered
        have hc : c ∉ Category.leading := fun hmem => by
          have hall : ∀ d ∈ Category.leading, d = .compilationUnit ∨ isTransparent d = true ∨
              d.isOpen = true := by decide
          rcases hall c hmem with heq | htransparent | hopen
          · exact hunit heq
          · exact hnode htransparent
          · rw [hopen] at hclosed
            cases hclosed
        exact head.classesIn_eq_nil (leaves_of_rule hc hhide rule) hus

end Reads

/-- No class declaration stands in a struct, an interface, a record or a conditional section. -/
def Tree.ClassesShown (t : Tree) : Prop :=
  ∀ s ∈ t.walk, (∃ c ∈ Category.hiding, s.isOf c = true) → s.classes = []

/-- The class declarations that an outline has. -/
def Tree.outlined (t : Tree) : List Tree := (classTreesFrom none none t.children).map (·.2)

theorem Tree.classesShown_iff {c : Category} {us : List Tree} :
    (node c us).ClassesShown ↔ Free (Category.hiding.contains ·) us := by
  have hwalk : (node c us).walk = preorderOfAll us := by rw [walk, visit_eq, children]
  rw [ClassesShown, hwalk]
  constructor
  · intro h d ds hmem hd
    have hnone := h _ hmem ⟨d, List.contains_iff_mem.mp hd, by rw [isOf, beq_self_eq_true]⟩
    rwa [classes_eq] at hnone
  · rintro h s hs ⟨d, hd, hsd⟩
    cases s with
    | leaf t => cases hsd
    | node e es =>
      rw [isOf, beq_iff_eq] at hsd
      rw [classes_eq]
      exact h e es hs (List.contains_iff_mem.mpr (hsd ▸ hd))

/-- **The outline of a text has all its classes just if none of them is hidden.** -/
theorem Tree.outlined_eq_iff {text : String} {tree : Tree} (h : ofText? text = some tree) :
    tree.outlined = tree.classes ↔ tree.ClassesShown := by
  obtain ⟨rhs, hrule, ts, us, rfl, hreads, _⟩ := exists_of_ofText? h
  rw [classes_eq, outlined, classTreesFrom_eq_iff, classesShown_iff, children]
  constructor
  · intro hfree d ds hmem hd
    refine hfree d ds hmem ?_
    have hall : ∀ e ∈ Category.hiding, (!e.isOpen) = true := by decide
    exact hall d (List.contains_iff_mem.mp hd)
  · exact hreads.free_of_hiding fun part hpart => symbol_ne_compilationUnit hrule hpart

end TestScaffold.CSharp

namespace TestScaffold

open TestScaffold.CSharp (Tree)

/-! ### Classes of a source file -/

/-- The class is what an outline makes of the declaration, in some namespace. -/
def Source.Class.DeclaredBy (declaration : Tree) (c : Source.Class) : Prop :=
  ∃ inNamespace?, declaration.sourceClass inNamespace? = .ok c

/-- The parts of a class come from the parts of its declaration. -/
theorem Source.Class.of_sourceClass {t : Tree} {inNamespace? : Option String} {c : Source.Class}
    (h : t.sourceClass inNamespace? = .ok c) :
    t.declaredName? = some c.name ∧ c.inNamespace? = inNamespace? ∧
      (t.members.filter (Tree.isOf .constructorDeclaration)).mapM Tree.constructor =
        .ok c.constructors ∧
      (t.members.filter (Tree.isOf .methodDeclaration)).mapM Tree.method = .ok c.methods := by
  unfold Tree.sourceClass at h
  cases hname : t.declaredName? with
  | none =>
    rw [hname] at h
    cases h
  | some name =>
    rw [hname] at h
    obtain ⟨constructors, hconstructors, h⟩ := exists_of_bind_eq_ok h
    obtain ⟨methods, hmethods, h⟩ := exists_of_bind_eq_ok h
    cases h
    exact ⟨rfl, rfl, hconstructors, hmethods⟩

theorem Source.Class.DeclaredBy.declaredName? {t : Tree} {c : Source.Class}
    (h : c.DeclaredBy t) : t.declaredName? = some c.name := by
  obtain ⟨inNamespace?, h⟩ := h
  exact (of_sourceClass h).1

/-- The constructors and methods of a class are read from the declarations in its body. -/
theorem Source.Class.DeclaredBy.forall₂_members {t : Tree} {c : Source.Class}
    (h : c.DeclaredBy t) :
    List.Forall₂ (fun d k => d.constructor = .ok k)
        (t.members.filter (Tree.isOf .constructorDeclaration)) c.constructors ∧
      List.Forall₂ (fun d m => d.method = .ok m)
        (t.members.filter (Tree.isOf .methodDeclaration)) c.methods := by
  obtain ⟨inNamespace?, h⟩ := h
  obtain ⟨_, _, hconstructors, hmethods⟩ := of_sourceClass h
  exact ⟨forall₂_of_mapM_eq_ok hconstructors, forall₂_of_mapM_eq_ok hmethods⟩

/-- The first class of a text is the first declaration with a name. -/
theorem CSharp.Tree.findSome?_walk (t : Tree) :
    t.walk.findSome? (fun s => if s.isOf .classDeclaration then s.declaredName? else none) =
      t.classes.findSome? Tree.declaredName? := by
  unfold Tree.classes
  induction t.walk with
  | nil => rfl
  | cons s rest ih =>
    cases hs : s.isOf .classDeclaration <;> simp [hs, ih, List.findSome?_cons]

/-- The first class of a text from its characters. A literal text gives them without being decoded
    (`String.toList_ofList`). -/
theorem Source.firstClassName_of_chars {text : String} {cs : List Char} {name : Name}
    (hchars : text.toList = cs)
    (hname : ((Tree.ofChars? cs).bind fun t => t.classes.findSome? Tree.declaredName?) =
      some name) : Source.firstClassName text = .ok name := by
  obtain ⟨tree, htree, hfound⟩ := Option.bind_eq_some_iff.mp hname
  have hread : Tree.ofText? text = some tree := by rw [Tree.ofText?, hchars, htree]
  simp only [Source.firstClassName, hread, CSharp.Tree.findSome?_walk, hfound]

/-- A source file has a class for each entry of an outline, in the namespace of the entry. -/
theorem Source.File.forall₂_of_ofText {text : String} {file : Source.File}
    (h : Source.File.ofText text = .ok file) :
    ∃ tree, Tree.ofText? text = some tree ∧
      List.Forall₂ (fun entry c => entry.2.sourceClass entry.1 = .ok c)
        (Tree.classTreesFrom none none tree.children) file.classes := by
  unfold Source.File.ofText at h
  split at h
  · rename_i tree htree
    obtain ⟨usings, _, h⟩ := exists_of_bind_eq_ok h
    obtain ⟨classes, hclasses, h⟩ := exists_of_bind_eq_ok h
    cases h
    exact ⟨tree, htree, forall₂_of_mapM_eq_ok hclasses⟩
  · cases h

/-- A source file has a class for each class declaration of an outline. -/
theorem Source.File.exists_of_ofText {text : String} {file : Source.File}
    (h : Source.File.ofText text = .ok file) :
    ∃ tree, Tree.ofText? text = some tree ∧
      List.Forall₂ (fun t c => Source.Class.DeclaredBy t c) tree.outlined file.classes := by
  obtain ⟨tree, htree, hentries⟩ := Source.File.forall₂_of_ofText h
  refine ⟨tree, htree, ?_⟩
  unfold Tree.outlined
  rw [List.forall₂_map_left_iff]
  exact hentries.imp fun entry c hc => ⟨entry.1, hc⟩

/-- **The classes of a source file are class declarations of its text, one for one and in their
order.** They are all of them just if none stands in a struct, an interface, a record or a
conditional section; and then the first class of the text is the first class of the file. -/
theorem Source.File.classes_ofText {text : String} {file : Source.File}
    (h : Source.File.ofText text = .ok file) :
    ∃ tree, Tree.ofText? text = some tree ∧
      tree.outlined.Sublist tree.classes ∧
      List.Forall₂ (fun t c => Source.Class.DeclaredBy t c) tree.outlined file.classes ∧
      (List.Forall₂ (fun t c => Source.Class.DeclaredBy t c) tree.classes file.classes ↔
        tree.ClassesShown) ∧
      (tree.ClassesShown → Source.firstClassName text =
        match file.classes with
        | [] => .error .noClass
        | c :: _ => .ok c.name) := by
  obtain ⟨tree, htree, hentries⟩ := Source.File.exists_of_ofText h
  have hsublist : tree.outlined.Sublist tree.classes := by
    rw [Tree.classes_eq]
    exact Tree.classTreesFrom_sublist _ none none
  refine ⟨tree, htree, hsublist, hentries, ?_, ?_⟩
  · constructor
    · intro hall
      refine (Tree.outlined_eq_iff htree).mp (hsublist.eq_of_length ?_)
      rw [hentries.length_eq, hall.length_eq]
    · intro hshown
      rwa [(Tree.outlined_eq_iff htree).mpr hshown] at hentries
  · intro hshown
    rw [(Tree.outlined_eq_iff htree).mpr hshown] at hentries
    simp only [Source.firstClassName, htree, CSharp.Tree.findSome?_walk]
    generalize tree.classes = declarations at hentries
    generalize file.classes = classes at hentries
    cases hentries with
    | nil => rfl
    | cons hfirst hrest => rw [List.findSome?_cons, hfirst.declaredName?]

/-- A class in a class of a namespace has an entry of its own. -/
theorem classes_ofText_nested :
    ∃ tree, Tree.ofText? "namespace N{class A{class B{}}}" = some tree ∧
      List.Forall₂ (fun t c => Source.Class.DeclaredBy t c) tree.outlined
        [{ name := ⟨"A", by decide⟩, inNamespace? := some "N" },
          { name := ⟨"B", by decide⟩, inNamespace? := some "N" }] := by
  have hfile : Source.File.ofText "namespace N{class A{class B{}}}" = .ok {
      inNamespace? := some "N"
      classes := [{ name := ⟨"A", by decide⟩, inNamespace? := some "N" },
        { name := ⟨"B", by decide⟩, inNamespace? := some "N" }] } := by decide +kernel
  obtain ⟨tree, htree, _, hentries, _⟩ := Source.File.classes_ofText hfile
  exact ⟨tree, htree, hentries⟩

/-- A class in a struct has no entry, though it is the first class of its text. -/
theorem classes_ofText_struct :
    ∃ tree, Tree.ofText? "struct S{class A{}}" = some tree ∧ tree.classes.length = 1 ∧
      Source.File.ofText "struct S{class A{}}" = .ok {} ∧
      Source.firstClassName "struct S{class A{}}" = .ok ⟨"A", by decide⟩ := by
  refine ⟨(Tree.ofText? "struct S{class A{}}").get (by decide +kernel), by simp, ?_,
    by decide +kernel, by decide +kernel⟩
  decide +kernel

end TestScaffold
