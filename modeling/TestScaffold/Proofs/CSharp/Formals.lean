/-
  TestScaffold/Proofs/CSharp/Formals.lean
  =======================================
  **Formal parameters: what is declared, and what is seen of it.**

  The grammar has three forms of a formal parameter: one with a type behind its
  modifiers, one with nothing before its name but attributes, and an array behind
  the word `params`.  `Formal` is such a parameter taken apart.  It declares a name
  and the text of a type (`Formal.declared`), without the words `scoped` and `ref`
  in front of the type.

  What an outline has of it (`Formal.shown?`) is the same in most cases.  But it has
  nothing of an array, it takes a `scoped` that the grammar puts into the type for
  a part of the type, and where there is no type at all it takes the notes before
  the name for one.
-/
import TestScaffold.Proofs.CSharp.Children
import TestScaffold.Proofs.Text.Words

namespace TestScaffold.CSharp

open Grammar TestScaffold.Text
open Source (Parameter)

/-! ### Formal parameters -/

/-- The type that stands behind the words `scoped` and `ref`. -/
def Tree.plainType? (t : Tree) : Option Tree := t.walk.find? (isOf .plainType)

namespace Formal

/-- What stands between the attributes and the name of a formal parameter. -/
inductive Front where
  /-- Modifiers and a type. -/
  | typed (modifiers : List Tree) (type : Tree)
      (modifiers_isOf : ∀ t ∈ modifiers, t.isOf .parameterModifier = true)
      (type_isOf : type.isOf .parameterType = true)
  /-- Nothing. -/
  | bare
  /-- The word `params` and the type of an array. -/
  | array (word : Token) (type : Tree) (word_role : word.role = .keyword .params_)
      (type_isOf : type.isOf .collectingType = true)

namespace Front

def trees : Front → List Tree
  | typed modifiers type _ _ => modifiers ++ [type]
  | bare => []
  | array word type _ _ => [.leaf word, type]

/-- The category of a parameter with such a front. -/
def category : Front → Category
  | array .. => .parameterArray
  | _ => .parameter

/-- The text of the declared type; empty if there is none. -/
def typeText : Front → String
  | typed _ type _ _ => match type.plainType? with
    | some plain => squeeze plain.text
    | none => ""
  | bare => ""
  | array _ type _ _ => squeeze type.text

end Front

end Formal

/-- A formal parameter. -/
structure Formal where
  attributes : List Tree
  front : Formal.Front
  name : Token
  word : Word
  defaults : List Tree
  attributes_isOf : ∀ t ∈ attributes, t.isOf .attributeList = true ∨ t.isOf .attributeSection = true
  name_lexeme : name.lexeme = .word word
  defaults_isOf : ∀ t ∈ defaults, t.isOf .defaultValue = true

namespace Formal

/-- The tree of the name. -/
def nameTree (f : Formal) : Tree := .node .identifier [.leaf f.name]

/-- The parameter in the tree of its text. -/
def tree (f : Formal) : Tree :=
  .node f.front.category (f.attributes ++ f.front.trees ++ f.nameTree :: f.defaults)

/-- **What is declared.** -/
def declared (f : Formal) : Parameter := ⟨f.word.name, f.front.typeText⟩

/-- Comments, directives and conditional sections between the beginning of a parameter without a
type and its name. -/
def notes (f : Formal) : List (List Char) := Tree.beforeName true (f.attributes ++ [f.nameTree])

/-- **What an outline has of the parameter.** -/
def shown? (f : Formal) : Option Parameter :=
  match f.front with
  | .typed _ type _ _ => some ⟨f.word.name, squeeze type.text⟩
  | .bare => some ⟨f.word.name, squeeze (String.ofList (joinWords f.notes))⟩
  | .array .. => none

/-- An outline has the parameter as it is declared: it is no array, no `scoped` stands in its type,
and if it has no type, no note stands before its name. -/
def IsKept (f : Formal) : Prop :=
  match f.front with
  | .typed _ type _ _ => type.child? .scopedType = none
  | .bare => f.notes = []
  | .array .. => False

/-! ### Parts of a formal parameter -/

variable {f : Formal}

/-- Attributes are none of what is looked for. -/
theorem find?_attributes {c : Category} (hc : c ≠ .attributeList ∧ c ≠ .attributeSection) :
    f.attributes.find? (Tree.isOf c) = none := by
  refine List.find?_eq_none.mpr fun t ht => ?_
  have h := f.attributes_isOf t ht
  cases t with
  | leaf t => simp [Tree.isOf]
  | node d cs =>
    simp only [Tree.isOf, beq_iff_eq] at h ⊢
    rintro rfl
    exact h.elim hc.1 hc.2

theorem find?_modifiers {modifiers : List Tree}
    (h : ∀ t ∈ modifiers, t.isOf .parameterModifier = true) {c : Category}
    (hc : c ≠ .parameterModifier) : modifiers.find? (Tree.isOf c) = none := by
  refine List.find?_eq_none.mpr fun t ht => ?_
  have h := h t ht
  cases t with
  | leaf t => simp [Tree.isOf]
  | node d cs =>
    simp only [Tree.isOf, beq_iff_eq] at h ⊢
    rintro rfl
    exact hc h

/-- The first child of some kind behind the attributes. -/
theorem child?_tree {c : Category} (hc : c ≠ .attributeList ∧ c ≠ .attributeSection) :
    f.tree.child? c = (f.front.trees ++ f.nameTree :: f.defaults).find? (Tree.isOf c) := by
  rw [tree, Tree.child?, Tree.children, List.append_assoc, List.find?_append,
    find?_attributes hc, Option.none_or]

/-- The name of a formal parameter is its declared name. -/
theorem declaredName?_tree : f.tree.declaredName? = some f.word.name := by
  have hfront : f.front.trees.find? (Tree.isOf .identifier) = none := by
    cases f.front with
    | typed modifiers type hmodifiers htype =>
      rw [Front.trees, List.find?_append, find?_modifiers hmodifiers (by decide), Option.none_or]
      cases type with
      | leaf t => cases htype
      | node d cs =>
        rw [Tree.isOf, beq_iff_eq] at htype
        subst htype
        rfl
    | bare => rfl
    | array word type _ htype =>
      cases type with
      | leaf t => cases htype
      | node d cs =>
        rw [Tree.isOf, beq_iff_eq] at htype
        subst htype
        rfl
  rw [Tree.declaredName?, child?_tree (by decide), List.find?_append, hfront, Option.none_or]
  have hword : f.nameTree.word? = some f.word := by
    have hlexeme := f.name_lexeme
    cases hname : f.name with
    | mk gap lexeme role =>
      rw [hname] at hlexeme
      cases hlexeme
      rw [nameTree, hname]
      rfl
  rw [List.find?_cons_of_pos (by rfl), Option.bind_some, hword]
  rfl

end Formal

/-! ### Notes before a name -/

namespace Tree

theorem isNote_of_mem_leadingNotes {t : Tree} (h : ∀ x ∈ t.tokens, x.Lexed) :
    ∀ n ∈ t.leadingNotes, IsNote n := by
  intro n hn
  unfold leadingNotes at hn
  split at hn
  · rename_i first rest htokens
    have hgap := (h first (htokens ▸ List.mem_cons_self)).gap
    obtain ⟨s, hs, hsn⟩ := List.mem_filterMap.mp hn
    cases s with
    | blank cs => cases hsn
    | comment cs => exact hgap _ hs n (Or.inl (congrArg _ (Option.some.inj hsn)))
    | directive cs => exact hgap _ hs n (Or.inr (congrArg _ (Option.some.inj hsn)))
  · cases hn

/-- What stands before a name ends with it. -/
theorem beforeName_append {name : Tree} (hname : name.isOf .identifier = true) (rest : List Tree)
    (ts : List Tree) : ∀ isFirst,
      beforeName isFirst (ts ++ name :: rest) = beforeName isFirst (ts ++ [name]) := by
  induction ts with
  | nil =>
    intro isFirst
    simp [beforeName, hname]
  | cons t ts ih =>
    intro isFirst
    simp only [List.cons_append, beforeName, ih]

/-- Before a name stand notes, and what is no attribute list. -/
theorem isNote_of_mem_beforeName {ts : List Tree} (hlexed : ∀ t ∈ ts, ∀ x ∈ t.tokens, x.Lexed)
    (hts : ∀ t ∈ ts, t.isOf .identifier = true ∨ t.isOf .attributeList = true ∨ IsNote t.chars) :
    ∀ isFirst, ∀ n ∈ beforeName isFirst ts, IsNote n := by
  induction ts with
  | nil => exact fun _ n hn => absurd hn List.not_mem_nil
  | cons t ts ih =>
    intro isFirst n hn
    have hnotes : ∀ n ∈ (if isFirst then [] else t.leadingNotes), IsNote n := by
      split
      · exact fun n hn => absurd hn List.not_mem_nil
      · exact isNote_of_mem_leadingNotes (hlexed t List.mem_cons_self)
    rw [beforeName] at hn
    split at hn
    · exact hnotes n hn
    · rename_i hidentifier
      rcases List.mem_append.mp hn with hn | hn
      · rcases List.mem_append.mp hn with hn | hn
        · exact hnotes n hn
        · split at hn
          · cases hn
          · rename_i hlist
            rw [List.mem_singleton.mp hn]
            exact ((hts t List.mem_cons_self).resolve_left hidentifier).resolve_left hlist
      · exact ih (fun t ht => hlexed t (List.mem_cons_of_mem _ ht))
          (fun t ht => hts t (List.mem_cons_of_mem _ ht)) false n hn

end Tree

/-- Notes do not begin with a blank. -/
theorem IsNote.exists_cons {n : List Char} (h : IsNote n) :
    ∃ c cs, n = c :: cs ∧ isBlank c = false ∧
      ∀ v, String.ofList (c :: v) ∉ Tree.parameterWords := by
  have hhead : ∀ d ∈ ['/', '#'], isBlank d = false ∧
      ∀ word ∈ Tree.parameterWords, word.toList.head? ≠ some d :=
    List.forall_mem_cons.mpr ⟨by decide, List.forall_mem_cons.mpr ⟨by decide, List.forall_mem_nil _⟩⟩
  cases n with
  | nil => rcases h with h | h <;> cases h
  | cons c cs =>
    have hc : c ∈ ['/', '#'] := by
      rcases h with h | h <;> simp_all
    refine ⟨c, cs, rfl, (hhead c hc).1, fun v hv => ?_⟩
    exact (hhead c hc).2 _ hv (by rw [String.toList_ofList]; rfl)

/-- Notes are shown as they stand, with single blanks. -/
theorem dropWhile_notes {notes : List (List Char)} (h : ∀ n ∈ notes, IsNote n) :
    joinWith " " (((wordsOfChars (joinWords notes)).map String.ofList).dropWhile
        (· ∈ Tree.parameterWords)) = squeeze (String.ofList (joinWords notes)) ∧
      (squeeze (String.ofList (joinWords notes)) = "" ↔ notes = []) := by
  cases notes with
  | nil => exact ⟨by decide, iff_of_true (by decide) rfl⟩
  | cons n rest =>
    obtain ⟨c, cs, rfl, hblank, hwords⟩ := (h _ List.mem_cons_self).exists_cons
    obtain ⟨more, hmore⟩ : ∃ more, joinWords ((c :: cs) :: rest) = c :: more := by
      cases rest with
      | nil => exact ⟨cs, rfl⟩
      | cons v vs => exact ⟨_, rfl⟩
    obtain ⟨v, ws, heq⟩ := exists_wordsOfChars hblank more
    rw [squeeze, String.toList_ofList, hmore, heq, List.map_cons,
      List.dropWhile_cons_of_neg (by simpa using hwords v), ← List.map_cons, joinWith_ofList]
    refine ⟨rfl, iff_of_false ?_ (List.cons_ne_nil _ _)⟩
    intro hempty
    have := congrArg String.toList hempty
    rw [String.toList_ofList] at this
    cases ws <;> cases this

namespace Formal

variable {f : Formal}

theorem find?_defaults {c : Category} (hc : c ≠ .defaultValue) :
    f.defaults.find? (Tree.isOf c) = none := by
  refine List.find?_eq_none.mpr fun t ht => ?_
  have h := f.defaults_isOf t ht
  cases t with
  | leaf t => cases h
  | node d cs =>
    simp only [Tree.isOf, beq_iff_eq] at h ⊢
    rintro rfl
    exact hc h

theorem parameterTypeText_of_typed {modifiers : List Tree} {type : Tree}
    {hmodifiers : ∀ t ∈ modifiers, t.isOf .parameterModifier = true}
    {htype : type.isOf .parameterType = true}
    (hfront : f.front = .typed modifiers type hmodifiers htype) :
    f.tree.parameterTypeText = squeeze type.text := by
  have hchild : f.tree.child? .parameterType = some type := by
    rw [child?_tree (by decide), hfront, Front.trees, List.append_assoc, List.find?_append,
      find?_modifiers hmodifiers (by decide), Option.none_or, List.singleton_append,
      List.find?_cons_of_pos htype]
  rw [Tree.parameterTypeText, hchild]

theorem parameterTypeText_of_bare (hfront : f.front = .bare) (hnotes : ∀ n ∈ f.notes, IsNote n) :
    f.tree.parameterTypeText = squeeze (String.ofList (joinWords f.notes)) := by
  have hchild : f.tree.child? .parameterType = none := by
    rw [child?_tree (by decide), hfront, Front.trees, List.nil_append,
      List.find?_cons_of_neg (by simp [nameTree, Tree.isOf]), find?_defaults (by decide)]
  have hbefore : Tree.beforeName true f.tree.children = f.notes := by
    rw [notes, tree, Tree.children, hfront, Front.trees, List.append_nil,
      Tree.beforeName_append rfl]
  rw [Tree.parameterTypeText, hchild, hbefore]
  exact (dropWhile_notes hnotes).1

/-- **A formal parameter is read as it is shown.** -/
theorem parameter_tree (hnotes : ∀ n ∈ f.notes, IsNote n) {p : Parameter}
    (h : f.shown? = some p) : f.tree.parameter = .ok p := by
  have htype : (⟨f.word.name, f.tree.parameterTypeText⟩ : Parameter) = p := by
    unfold shown? at h
    split at h
    · rename_i hfront
      rw [parameterTypeText_of_typed hfront, Option.some.inj h]
    · rename_i hfront
      rw [parameterTypeText_of_bare hfront hnotes, Option.some.inj h]
    · cases h
  rw [Tree.parameter, declaredName?_tree, ← htype]

/-- The type of a formal parameter has a proper type in it, which is all of it unless it begins
with `scoped`. -/
def Proper (type : Tree) : Prop :=
  ∃ plain, type.plainType? = some plain ∧
    ((type.child? .scopedType = none ∧ type.chars = plain.chars) ∨
      (type.child? .scopedType ≠ none ∧
        ∃ front, type.chars = front ++ plain.chars ∧ front.all isBlank = false))

/-- **A formal parameter is shown as declared just if nothing keeps it from being so.** -/
theorem shown?_eq_declared_iff (hnotes : ∀ n ∈ f.notes, IsNote n)
    (htypes : ∀ t ∈ f.front.trees, t.isOf .parameterType = true → Proper t) :
    f.shown? = some f.declared ↔ f.IsKept := by
  unfold shown? declared IsKept
  split
  · rename_i modifiers type hmodifiers htype hfront
    obtain ⟨plain, hplain, hcases⟩ := htypes type (by simp [hfront, Front.trees]) htype
    simp only [hfront, Front.typeText, hplain, Option.some.injEq, Parameter.mk.injEq, true_and,
      Tree.text]
    rcases hcases with ⟨hnone, heq⟩ | ⟨hsome, front, heq, hfront⟩
    · exact iff_of_true (by rw [heq]) hnone
    · refine iff_of_false (fun hsame => ?_) hsome
      rw [heq] at hsame
      rw [all_isBlank_of_squeeze_append hsame] at hfront
      cases hfront
  · rename_i hfront
    simp only [hfront, Front.typeText, Option.some.injEq, Parameter.mk.injEq, true_and]
    exact (dropWhile_notes hnotes).2
  · rename_i hfront
    simp

end Formal

/-! ### Readings of types -/

/-- Where a plain type is read in the end, behind words. -/
def typeWays : List (List Part) :=
  [[c .plainType], [c .type], [c .refType], [c .scopedType], [k .scoped_, c .type],
    [k .ref_, optK .readonly_, c .type], [optK .readonly_, c .type], [k .readonly_, c .type]]

/-- Whether parts begin with a word and go on with such a way, or are a category that does. -/
def leadsOn : List Part → Bool
  | [.one (.category d)] => d == .plainType || (!isTransparent d && (rules d).all typeWays.contains)
  | .one (.token _) :: rest => typeWays.contains rest
  | _ => false

theorem leadsOn_of_typeWays : ∀ parts ∈ typeWays, ∀ way ∈ unfold parts, leadsOn way = true := by
  decide

theorem Tree.charsOfTokens_append (t : Token) (before rest : List Token) :
    ∃ between, charsOfTokens (t :: before ++ rest) =
      t.lexeme.chars ++ between ++ charsOfTokens rest := by
  cases rest with
  | nil => exact ⟨before.flatMap Token.chars, by simp [charsOfTokens]⟩
  | cons u rest =>
    refine ⟨before.flatMap Token.chars ++ u.gapChars, ?_⟩
    simp [charsOfTokens, Token.chars]

/-- A keyword is not blank. -/
theorem Keyword.all_isBlank {cs : List Char} {x : Keyword} (h : ofChars? cs = some x) :
    cs.all isBlank = false := by
  have htable : ∀ entry ∈ Keyword.table, entry.1.all isBlank = false := by decide +kernel
  obtain ⟨entry, hentry, _⟩ := Option.map_eq_some_iff.mp h
  have hchars := List.find?_some hentry
  rw [decide_eq_true_eq] at hchars
  exact hchars ▸ htable entry (List.mem_of_find?_eq_some hentry)

namespace Reads

variable {parts rhs : List Part} {ts : List Token} {us : List Tree}

/-- The first plain type in a type is what it ends with. -/
theorem exists_plainType (h : Reads parts ts us) (hparts : parts ∈ typeWays) :
    ∃ plain before rest, (Tree.preorderOfAll us).find? (Tree.isOf .plainType) = some plain ∧
      ts = before ++ rest ∧ plain.chars = Tree.charsOfTokens rest := by
  induction h with
  | done way => cases leadsOn_of_typeWays _ hparts _ way
  | @token _ _ _ t ts us way fits tail ih =>
    have hway := leadsOn_of_typeWays _ hparts _ way
    obtain ⟨plain, before, rest, hfind, rfl, hchars⟩ := ih (by simpa [leadsOn] using hway)
    exact ⟨plain, t :: before, rest, hfind, rfl, hchars⟩
  | @category _ more rhs d ts ts' us us' way rule head tail ihHead ihTail =>
    have hway := leadsOn_of_typeWays _ hparts _ way
    cases more with
    | cons part more => cases hway
    | nil =>
      obtain ⟨rfl, rfl⟩ := tail.of_nil
      simp only [leadsOn, Bool.or_eq_true, beq_iff_eq, Bool.and_eq_true, Bool.not_eq_true',
        List.all_eq_true, List.contains_iff_mem] at hway
      rw [List.append_nil, List.append_nil]
      by_cases hd : d = .plainType
      · subst hd
        exact ⟨.node .plainType us, [], ts, rfl, rfl, head.chars_node _⟩
      · obtain ⟨hshown, hrules⟩ := hway.resolve_left hd
        obtain ⟨plain, before, rest, hfind, rfl, hchars⟩ := ihHead (hrules rhs rule)
        refine ⟨plain, before, rest, ?_, rfl, hchars⟩
        rw [Tree.ofCategory, if_neg (by rw [hshown]; decide), Tree.preorderOfAll, Tree.preorder,
          Tree.preorderOfAll, List.append_nil, List.find?_cons_of_neg (by simpa [Tree.isOf] using hd),
          hfind]

/-- **The type of a parameter is a plain type, or one behind the word `scoped`.** -/
theorem proper (h : Reads rhs ts us) (hrule : rhs ∈ rules .parameterType)
    (hlexed : ∀ t ∈ ts, t.Lexed) : Formal.Proper (.node .parameterType us) := by
  have hchars := h.chars_node .parameterType
  rcases List.mem_cons.mp hrule with rfl | hrule
  · obtain ⟨rhs', hrule', ts₁, us₁, ts₂, us₂, rfl, rfl, hplain, hnil⟩ := h.of_cons_category
    obtain ⟨rfl, rfl⟩ := hnil.of_nil
    refine ⟨.node .plainType us₁, ?_, Or.inl ⟨rfl, ?_⟩⟩
    · rw [Tree.plainType?, Tree.walk_eq]
      rfl
    · rw [hchars, hplain.chars_node, List.append_nil]
  · rw [List.mem_singleton.mp hrule] at h
    obtain ⟨rhs', hrule', ts₁, us₁, ts₂, us₂, rfl, rfl, hscoped, hnil⟩ := h.of_cons_category
    obtain ⟨rfl, rfl⟩ := hnil.of_nil
    rw [List.mem_singleton.mp hrule'] at hscoped
    obtain ⟨t, ts₂, us₂, rfl, rfl, hfits, htype⟩ := hscoped.of_cons_token
    obtain ⟨plain, before, rest, hfind, rfl, hplain⟩ := htype.exists_plainType (by decide)
    obtain ⟨between, hsplit⟩ := Tree.charsOfTokens_append t before rest
    refine ⟨plain, ?_, Or.inr ⟨?_, t.lexeme.chars ++ between, ?_, ?_⟩⟩
    · have hbelow : (Tree.node .parameterType [.node .scopedType (.leaf t :: us₂)]).preorder =
          .node .scopedType (.leaf t :: us₂) :: .leaf t :: Tree.preorderOfAll us₂ := by
        simp [Tree.preorder, Tree.preorderOfAll]
      rw [Tree.plainType?, Tree.walk_eq, ← hfind]
      exact (congrArg (List.find? _) hbelow).trans rfl
    · exact fun h => by cases h
    · rw [hchars, hplain, List.append_nil, ← hsplit]
      rfl
    · have hrole : t.role = .keyword .scoped_ := Token.role_of_fits hfits
      obtain ⟨w, hw, hspelled⟩ := (hlexed t (by simp)).keyword _ hrole
      rw [hw, List.all_append, Lexeme.chars, Keyword.all_isBlank hspelled, Bool.false_and]

/-! ### Readings of formal parameters -/

/-- A word stands where an identifier is read. -/
theorem exists_word (h : Reads (.one (.category .identifier) :: parts) ts us)
    (hlexed : ∀ t ∈ ts, t.Lexed) :
    ∃ t w ts' us', t.lexeme = .word w ∧ ts = t :: ts' ∧ us = .node .identifier [.leaf t] :: us' ∧
      Reads parts ts' us' := by
  obtain ⟨rhs, hrule, ts₁, us₁, ts₂, us₂, rfl, rfl, hname, hrest⟩ := h.of_cons_category
  obtain ⟨t, rfl, rfl⟩ := hname.of_identifier hrule
  have hrole : t.role ∈ .identifier :: Keyword.contextual.map .keyword :=
    Phrase.role_mem ⟨rhs, hrule, _, hname⟩ _ (by decide)
  obtain ⟨w, hw⟩ := (hlexed t List.mem_cons_self).exists_word hrole
  exact ⟨t, w, ts₂, us₂, hw, rfl, rfl, hrest⟩

/-- Attributes in front of other parts. -/
theorem of_attributeItems (h : Reads (many .attributeItem :: parts) ts us) :
    ∃ ts₁ as ts₂ us₂, ts = ts₁ ++ ts₂ ∧ us = as ++ us₂ ∧ Reads parts ts₂ us₂ ∧
      ∀ t ∈ as, t.isOf .attributeList = true ∨ t.isOf .attributeSection = true := by
  have hparts : Reads ([many .attributeItem] ++ parts) ts us := h
  obtain ⟨ts₁, as, ts₂, us₂, rfl, rfl, has, hrest⟩ := hparts.of_append
  refine ⟨ts₁, as, ts₂, us₂, rfl, rfl, hrest, fun t ht => ?_⟩
  obtain ⟨d, hd, hshown, hof⟩ := has.exists_isOf
    [.attributeItem, .attributeList, .attributeSection] (by decide) (by decide) t ht
  simp only [List.mem_cons, List.not_mem_nil, or_false] at hd
  rcases hd with rfl | rfl | rfl
  · cases hshown
  · exact Or.inl hof
  · exact Or.inr hof

/-- A conditional section of attributes begins with a number sign. -/
theorem isNote_attributeSection {t : Tree} (h : Reads parts ts us) (hlexed : ∀ t ∈ ts, t.Lexed)
    (ht : t ∈ us) (hof : t.isOf .attributeSection = true) : IsNote t.chars := by
  cases t with
  | leaf t => cases hof
  | node d cs =>
    rw [Tree.isOf, beq_iff_eq] at hof
    subst hof
    obtain ⟨rhs, hrule, ts', hreads, hwithin⟩ := h.exists_of_node (Tree.mem_preorderOfAll ht)
    have hchars := hreads.chars_node .attributeSection
    rw [List.mem_singleton.mp hrule] at hreads
    obtain ⟨t, ts', us', rfl, rfl, hfits, _⟩ := hreads.of_cons_token
    have hnote := (hlexed t (hwithin.subset List.mem_cons_self)).conditional
      (Token.role_of_fits hfits)
    rw [hchars, Tree.charsOfTokens, IsNote, List.head?_append]
    rcases hnote with hhead | hhead
    · exact Or.inl (by rw [hhead, Option.some_or])
    · exact Or.inr (by rw [hhead, Option.some_or])

/-- **The notes of a formal parameter begin as notes do.** -/
theorem isNote_notes {f : Formal} {d : Category} (h : Reads parts ts us)
    (hlexed : ∀ t ∈ ts, t.Lexed) (htree : f.tree = .node d us) : ∀ n ∈ f.notes, IsNote n := by
  have hus : f.attributes ++ f.front.trees ++ f.nameTree :: f.defaults = us :=
    (Tree.node.inj htree).2
  have hmem : ∀ t ∈ f.attributes ++ [f.nameTree], t ∈ us := by
    intro t ht
    rw [← hus]
    simp only [List.mem_append, List.mem_cons, List.not_mem_nil, or_false] at ht ⊢
    tauto
  refine Tree.isNote_of_mem_beforeName (fun t ht x hx => ?_) (fun t ht => ?_) true
  · refine hlexed x ?_
    have htokens := Tree.tokens_subset (hmem t ht) hx
    rwa [h.tokensOfAll_eq, List.append_nil] at htokens
  · rcases List.mem_append.mp ht with hattribute | hname
    · refine Or.inr ((f.attributes_isOf t hattribute).imp_right fun hof => ?_)
      exact h.isNote_attributeSection hlexed (hmem t ht) hof
    · rw [List.mem_singleton.mp hname]
      exact Or.inl rfl

/-- **What is read as a formal parameter is one.** -/
theorem exists_formal {d : Category} (h : Reads rhs ts us) (hrule : rhs ∈ rules d)
    (hd : d = .parameter ∨ d = .parameterArray) (hlexed : ∀ t ∈ ts, t.Lexed) :
    ∃ f : Formal, f.tree = .node d us ∧
      ∀ t ∈ f.front.trees, t.isOf .parameterType = true → Formal.Proper t := by
  rcases hd with rfl | rfl
  · have hdefault : ∀ {ts : List Token} {us : List Tree}, Reads [opt .defaultValue] ts us →
        ∀ t ∈ us, t.isOf .defaultValue = true := by
      intro ts us h t ht
      obtain ⟨d, hd, _, hof⟩ := h.exists_isOf [.defaultValue] (by decide) (by decide) t ht
      rwa [List.mem_singleton.mp hd] at hof
    rcases List.mem_cons.mp hrule with rfl | hrule
    · obtain ⟨ts₁, as, ts₂, us₂, rfl, rfl, hrest, has⟩ := h.of_attributeItems
      have hparts : Reads ([many .parameterModifier] ++ [c .parameterType, c .identifier,
          opt .defaultValue]) ts₂ us₂ := hrest
      obtain ⟨ts₃, ms, ts₄, us₄, rfl, rfl, hms, hrest⟩ := hparts.of_append
      obtain ⟨rhs, hrule, ts₅, type, ts₆, us₆, rfl, rfl, htype, hrest⟩ := hrest.of_cons_category
      obtain ⟨n, w, ts₇, us₇, hw, rfl, rfl, hend⟩ := hrest.exists_word
        fun t ht => hlexed t (by simp [ht])
      have hmodifiers : ∀ t ∈ ms, t.isOf .parameterModifier = true := by
        intro t ht
        obtain ⟨d, hd, _, hof⟩ :=
          hms.exists_isOf [.parameterModifier] (by decide) (by decide) t ht
        rwa [List.mem_singleton.mp hd] at hof
      refine ⟨⟨as, .typed ms (.node .parameterType type) hmodifiers rfl, n, w, us₇, has, hw,
        hdefault hend⟩, ?_, ?_⟩
      · simp [Formal.tree, Formal.Front.trees, Formal.Front.category, Formal.nameTree,
          Tree.ofCategory, isTransparent]
      · intro t ht hof
        rcases List.mem_append.mp ht with hmodifier | htype'
        · have hmodifier := hmodifiers t hmodifier
          cases t with
          | leaf t => cases hof
          | node d cs =>
            rw [Tree.isOf, beq_iff_eq] at hof hmodifier
            rw [hof] at hmodifier
            cases hmodifier
        · rw [List.mem_singleton.mp htype']
          exact htype.proper hrule fun t ht => hlexed t (by simp [ht])
    · rw [List.mem_singleton.mp hrule] at h
      obtain ⟨ts₁, as, ts₂, us₂, rfl, rfl, hrest, has⟩ := h.of_attributeItems
      obtain ⟨n, w, ts₃, us₃, hw, rfl, rfl, hend⟩ := hrest.exists_word
        fun t ht => hlexed t (List.mem_append_right _ ht)
      refine ⟨⟨as, .bare, n, w, us₃, has, hw, hdefault hend⟩, ?_, ?_⟩
      · simp [Formal.tree, Formal.Front.trees, Formal.Front.category, Formal.nameTree]
      · exact fun t ht => absurd ht List.not_mem_nil
  · rw [List.mem_singleton.mp hrule] at h
    obtain ⟨ts₁, as, ts₂, us₂, rfl, rfl, hrest, has⟩ := h.of_attributeItems
    obtain ⟨x, ts₃, us₃, rfl, rfl, hfits, hrest⟩ := hrest.of_cons_token
    obtain ⟨rhs, _, ts₄, type, ts₅, us₅, rfl, rfl, _, hrest⟩ := hrest.of_cons_category
    obtain ⟨n, w, ts₆, us₆, hw, rfl, rfl, hnil⟩ := hrest.exists_word
      fun t ht => hlexed t (by simp [ht])
    obtain ⟨rfl, rfl⟩ := hnil.of_nil
    refine ⟨⟨as, .array x (.node .collectingType type) (Token.role_of_fits hfits) rfl, n, w, [],
      has, hw, fun t ht => absurd ht List.not_mem_nil⟩, ?_, ?_⟩
    · simp [Formal.tree, Formal.Front.trees, Formal.Front.category, Formal.nameTree,
        Tree.ofCategory, isTransparent]
    · intro t ht hof
      simp only [Formal.Front.trees, List.mem_cons, List.not_mem_nil, or_false] at ht
      rcases ht with rfl | rfl <;> cases hof

end Reads

end TestScaffold.CSharp
