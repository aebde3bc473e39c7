/-
  TestScaffold/Proofs/CSharp/Children.lean
  ========================================
  **What stands right below a node.**

  The children of a node are tokens and nodes that a right-hand side of its
  category names.  A category that leaves no node is looked through, so a set of
  symbols that holds what such a category may be holds all children.

  A category that a right-hand side names once, and that nothing in front of it
  may be, is the first child of its kind.
-/
import TestScaffold.Proofs.CSharp.Classes
import TestScaffold.Proofs.CSharp.Steps

namespace TestScaffold.CSharp

open Grammar

/-! ### Symbols of parts -/

namespace Grammar

/-- A way to begin names what the parts name. -/
theorem symbols_subset_of_mem_unfold {parts way : List Part} (hway : way ∈ unfold parts) :
    way.flatMap Part.symbols ⊆ parts.flatMap Part.symbols := by
  have hneutral : ∀ s, Nest.flat.isNeutralSymbol s = true := by
    rintro (x | c)
    · rw [Nest.isNeutralSymbol]
      cases x.role <;> rfl
    · rfl
  have hloose : ∀ part, Nest.flat.isLoose part = true := by
    intro part
    rw [Nest.isLoose, List.all_eq_true.mpr fun s _ => hneutral s, Bool.or_true]
  have hsymbols : ∀ parts, Nest.flat.symbols 0 parts = parts.flatMap Part.symbols := by
    intro parts
    induction parts with
    | nil => rfl
    | cons part rest ih =>
      have hflat : Nest.flat.after 0 part.fixed.toList = some 0 := by
        cases part.fixed with
        | none => rfl
        | some x => cases x <;> rfl
      rw [Nest.symbols, Nest.outside, if_pos rfl, hflat, List.flatMap_cons, ← ih]
      rfl
  have hsubset := (Nest.Covers.of_mem_unfold (fun part _ => hloose part) hway).symbols 0
  rwa [hsymbols, hsymbols] at hsubset

/-- Whether some symbols are all that parts name. -/
def covers (set : List Symbol) (parts : List Part) : Bool :=
  (parts.flatMap Part.symbols).all set.contains

/-- Whether symbols hold what each of them may be, where it leaves no node. -/
def isClosed (set : List Symbol) : Bool :=
  set.all fun
    | .token _ => true
    | .category c => !isTransparent c || (rules c).all (covers set)

theorem covers_iff {set : List Symbol} {parts : List Part} :
    covers set parts = true ↔ parts.flatMap Part.symbols ⊆ set := by
  rw [covers, List.all_eq_true]
  simp only [List.contains_iff_mem]
  exact Iff.rfl

end Grammar

/-! ### Trees in a row -/

/-- A tree is what a symbol stands for. -/
inductive Tree.Is : Tree → Symbol → Prop where
  | leaf {t : Token} {x : Terminal} (fits : t.fits x = true) : Is (.leaf t) (.token x)
  | node {c : Category} (cs : List Tree) (shown : isTransparent c = false) :
      Is (.node c cs) (.category c)

namespace Reads

variable {parts front back : List Part} {ts : List Token} {us : List Tree}

/-- **Each tree of a reading is what some symbol of the parts stands for.** -/
theorem exists_symbol (set : List Symbol) (hset : isClosed set = true) (h : Reads parts ts us)
    (hparts : covers set parts = true) : ∀ u ∈ us, ∃ s ∈ set, u.Is s := by
  induction h with
  | done way => exact fun u hu => absurd hu List.not_mem_nil
  | token way fits tail ih =>
    obtain ⟨hhere, hrest⟩ := List.append_subset.mp
      (List.Subset.trans (symbols_subset_of_mem_unfold way) (covers_iff.mp hparts))
    intro u hu
    rcases List.mem_cons.mp hu with rfl | hu
    · exact ⟨_, hhere List.mem_cons_self, .leaf fits⟩
    · exact ih (covers_iff.mpr hrest) u hu
  | @category _ _ rhs c _ _ us us' way rule head tail ihHead ihTail =>
    obtain ⟨hhere, hrest⟩ := List.append_subset.mp
      (List.Subset.trans (symbols_subset_of_mem_unfold way) (covers_iff.mp hparts))
    have hc : .category c ∈ set := hhere List.mem_cons_self
    intro u hu
    rcases List.mem_append.mp hu with hu | hu
    · unfold Tree.ofCategory at hu
      split at hu
      · rename_i htransparent
        have hinside := List.all_eq_true.mp hset _ hc
        simp only [htransparent, Bool.not_true, Bool.false_or, List.all_eq_true] at hinside
        exact ihHead (hinside rhs rule) u hu
      · rename_i hshown
        rw [List.mem_singleton.mp hu]
        exact ⟨_, hc, .node us (by simpa using hshown)⟩
    · exact ihTail (covers_iff.mpr hrest) u hu

/-- No node of a category stands where no symbol of the parts may be it. -/
theorem isOf_eq_false (set : List Symbol) (hset : isClosed set = true) (h : Reads parts ts us)
    (hparts : covers set parts = true) {c : Category} (hc : .category c ∉ set) :
    ∀ u ∈ us, u.isOf c = false := by
  intro u hu
  obtain ⟨s, hs, hu⟩ := h.exists_symbol _ hset hparts u hu
  cases hu with
  | leaf fits => rfl
  | @node d cs shown =>
    rw [Tree.isOf, beq_eq_false_iff_ne]
    rintro rfl
    exact hc hs

/-- Where the parts are categories, the trees are nodes. -/
theorem exists_isOf (cs : List Category) (hset : isClosed (cs.map .category) = true)
    (h : Reads parts ts us) (hparts : covers (cs.map .category) parts = true) :
    ∀ u ∈ us, ∃ c ∈ cs, isTransparent c = false ∧ u.isOf c = true := by
  intro u hu
  obtain ⟨s, hs, hu⟩ := h.exists_symbol _ hset hparts u hu
  obtain ⟨c, hc, rfl⟩ := List.mem_map.mp hs
  cases hu with
  | node cs shown => exact ⟨c, hc, shown, by rw [Tree.isOf, beq_self_eq_true]⟩

/-- **The only part of its kind is the first child of its kind.** -/
theorem child?_eq {c : Category} (h : Reads (front ++ .one (.category c) :: back) ts us)
    (set : List Symbol) (hset : isClosed set = true) (hfront : covers set front = true)
    (hc : .category c ∉ set) (hshown : isTransparent c = false) (d : Category) :
    ∃ rhs ∈ rules c, ∃ ts' cs, (Tree.node d us).child? c = some (.node c cs) ∧
      Reads rhs ts' cs ∧ ts' <:+: ts := by
  obtain ⟨ts₁, us₁, ts₂, us₂, rfl, rfl, hbefore, hrest⟩ := h.of_append
  obtain ⟨rhs, hrule, ts₃, cs, ts₄, us₄, rfl, rfl, hreads, _⟩ := hrest.of_cons_category
  refine ⟨rhs, hrule, ts₃, cs, ?_, hreads, ⟨ts₁, ts₄, by simp⟩⟩
  have hnone : us₁.find? (Tree.isOf c) = none := by
    refine List.find?_eq_none.mpr fun u hu => ?_
    rw [hbefore.isOf_eq_false set hset hfront hc u hu]
    decide
  rw [Tree.child?, Tree.children, List.find?_append, hnone, Option.none_or, Tree.ofCategory,
    if_neg (by rw [hshown]; decide), List.singleton_append, List.find?_cons_of_pos (by
      rw [Tree.isOf, beq_self_eq_true])]

end Reads

/-! ### Trees inside of trees -/

namespace Tree

theorem mem_preorderOfAll {ts : List Tree} {t : Tree} (ht : t ∈ ts) : t ∈ preorderOfAll ts := by
  obtain ⟨before, after, rfl⟩ := List.append_of_mem ht
  simp [preorderOfAll_append, preorderOfAll]

/-- What is right below a tree stands where the tree stands. -/
theorem mem_preorderOfAll_of_child {ts : List Tree} {s u : Tree} (hu : u ∈ s.children)
    (hs : s ∈ preorderOfAll ts) : u ∈ preorderOfAll ts := by
  induction ts using forest_induction with
  | nil => cases hs
  | leaf t ts ih =>
    rcases List.mem_cons.mp hs with rfl | hs
    · cases hu
    · exact List.mem_cons_of_mem _ (ih hs)
  | node c cs ts ihcs ihts =>
    rw [preorderOfAll, preorder, List.mem_append, List.mem_cons] at hs ⊢
    rcases hs with (rfl | hs) | hs
    · exact Or.inl (Or.inr (mem_preorderOfAll hu))
    · exact Or.inl (Or.inr (ihcs hs))
    · exact Or.inr (ihts hs)

theorem tokensOfAll_eq_append (ts : List Tree) :
    ∀ after, tokensOfAll after ts = tokensOfAll [] ts ++ after := by
  induction ts using forest_induction with
  | nil => exact fun _ => rfl
  | leaf t ts ih =>
    intro after
    simp only [tokensOfAll, tokensBefore, ih after, List.cons_append]
  | node c cs ts ihcs ihts =>
    intro after
    simp only [tokensOfAll, tokensBefore]
    rw [ihcs, ihcs (tokensOfAll [] ts), ihts after, List.append_assoc]

/-- The tokens of a tree are among those of its neighbours. -/
theorem tokens_subset {ts : List Tree} {t : Tree} (ht : t ∈ ts) : t.tokens ⊆ tokensOfAll [] ts := by
  obtain ⟨before, after, rfl⟩ := List.append_of_mem ht
  have hhere : tokensOfAll [] (t :: after) = t.tokens ++ tokensOfAll [] after :=
    tokensOfAll_eq_append [t] (tokensOfAll [] after)
  rw [tokensOfAll_append, tokensOfAll_eq_append before, hhere]
  exact List.subset_append_of_subset_right _ (List.subset_append_left _ _)

end Tree

end TestScaffold.CSharp
