/-
  TestScaffold/Proofs/CSharp/Derivation.lean
  ==========================================
  **What the grammar derives.**

  `Derives` relates a right-hand side to the terminals that it can stand for.
  `Reads` does the same for tokens, and keeps the subtrees that a reading leaves.
  Both take a right-hand side apart as the chart does: a way in which it can
  begin, then the rest.

  Every category but the whole file derives at least one terminal, so a category
  that ends in a column of the chart was begun in an earlier one.
-/
import Mathlib.Data.List.Forall2
import TestScaffold.CSharp.Chart

namespace TestScaffold.CSharp

open Grammar

/-! ### All categories -/

namespace Category

/-- All categories. -/
def all : List Category := (List.range 195).map ofNat

theorem mem_all (c : Category) : c ∈ all := by
  have hlt : c.ctorIdx < 195 := by cases c <;> decide
  exact List.mem_map.mpr ⟨c.ctorIdx, List.mem_range.mpr hlt, ofNat_ctorIdx c⟩

/-- What is checked for all categories holds of each. -/
theorem of_all {p : Category → Bool} (h : all.all p = true) (c : Category) : p c = true :=
  List.all_eq_true.mp h c (mem_all c)

end Category

/-! ### Ways to begin -/

namespace Part

/-- The symbol that a part is made of. -/
def symbol : Part → Symbol
  | one s | opt s | many s | list s | anyList s | more s => s

/-- Whether a part stands for something wherever it is. -/
def isNeeded : Part → Bool
  | one _ | list _ => true
  | _ => false

end Part

/-- A way to begin is empty or begins with a single symbol. -/
theorem eq_of_mem_unfold {parts way : List Part} (h : way ∈ unfold parts) :
    way = [] ∨ ∃ s rest, way = .one s :: rest := by
  induction parts with
  | nil => exact Or.inl (List.mem_singleton.mp h)
  | cons part rest ih =>
    cases part with
    | one s =>
      rw [unfold, List.mem_singleton] at h
      exact Or.inr ⟨_, _, h⟩
    | opt s =>
      rw [unfold, List.mem_cons] at h
      exact h.elim (fun e => Or.inr ⟨_, _, e⟩) ih
    | many s =>
      rw [unfold, List.mem_cons] at h
      exact h.elim (fun e => Or.inr ⟨_, _, e⟩) ih
    | list s =>
      rw [unfold, List.mem_singleton] at h
      exact Or.inr ⟨_, _, h⟩
    | anyList s =>
      rw [unfold, List.mem_cons] at h
      exact h.elim (fun e => Or.inr ⟨_, _, e⟩) ih
    | more s =>
      rw [unfold, List.mem_cons] at h
      exact h.elim (fun e => Or.inr ⟨_, _, e⟩) ih

/-- A way to begin has itself as its only way to begin. -/
theorem unfold_of_mem_unfold {parts way : List Part} (h : way ∈ unfold parts) :
    unfold way = [way] := by
  rcases eq_of_mem_unfold h with rfl | ⟨s, rest, rfl⟩ <;> rfl

/-- What may be left where an item of a list is read, or the comma before it. -/
def reachItem (s : Symbol) (rest : List Part) : List (List Part) :=
  [.one s :: .more s :: rest, .one (.token (.mark .comma)) :: .one s :: .more s :: rest]

/-- All that may be left of parts while they are being read. -/
def reach : List Part → List (List Part)
  | [] => [[]]
  | .one s :: rest => (.one s :: rest) :: reach rest
  | .opt s :: rest => (.one s :: rest) :: reach rest
  | .many s :: rest => (.one s :: .many s :: rest) :: reach rest
  | .list s :: rest => reachItem s rest ++ reach rest
  | .anyList s :: rest => reachItem s rest ++ reach rest
  | .more s :: rest => reachItem s rest ++ reach rest

theorem unfold_subset_reach (parts : List Part) : unfold parts ⊆ reach parts := by
  induction parts with
  | nil => exact fun way h => h
  | cons part rest ih =>
    intro way h
    cases part with
    | one s =>
      rw [List.mem_singleton.mp h]
      exact List.mem_cons_self
    | list s =>
      rw [List.mem_singleton.mp h]
      exact List.mem_cons_self
    | opt s =>
      rcases List.mem_cons.mp h with rfl | h
      · exact List.mem_cons_self
      · exact List.mem_cons_of_mem _ (ih h)
    | many s =>
      rcases List.mem_cons.mp h with rfl | h
      · exact List.mem_cons_self
      · exact List.mem_cons_of_mem _ (ih h)
    | anyList s =>
      rcases List.mem_cons.mp h with rfl | h
      · exact List.mem_cons_self
      · exact List.mem_append_right _ (ih h)
    | more s =>
      rcases List.mem_cons.mp h with rfl | h
      · exact List.mem_append_left _ (List.mem_cons_of_mem _ List.mem_cons_self)
      · exact List.mem_append_right _ (ih h)

theorem unfold_subset_of_mem_reachItem {s s' : Symbol} {rest more : List Part}
    {all : List (List Part)} (h : .one s :: rest ∈ reachItem s' more)
    (hitems : reachItem s' more ⊆ all) (hmore : unfold more ⊆ all) : unfold rest ⊆ all := by
  intro way hway
  rcases List.mem_cons.mp h with heq | h
  · cases heq
    rcases List.mem_cons.mp hway with rfl | hway
    · exact hitems (List.mem_cons_of_mem _ List.mem_cons_self)
    · exact hmore hway
  · cases List.mem_singleton.mp h
    rw [List.mem_singleton.mp hway]
    exact hitems List.mem_cons_self

/-- What may be left behind one symbol is among what may be left. -/
theorem unfold_subset_reach_of_mem {parts rest : List Part} {s : Symbol}
    (h : .one s :: rest ∈ reach parts) : unfold rest ⊆ reach parts := by
  induction parts with
  | nil => exact absurd (List.mem_singleton.mp h) (List.cons_ne_nil _ _)
  | cons part more ih =>
    have hmore := unfold_subset_reach more
    have hlist : ∀ s', .one s :: rest ∈ reachItem s' more ++ reach more →
        unfold rest ⊆ reachItem s' more ++ reach more := by
      intro s' h
      rcases List.mem_append.mp h with h | h
      · exact unfold_subset_of_mem_reachItem h (List.subset_append_left _ _)
          (List.Subset.trans hmore (List.subset_append_right _ _))
      · exact List.Subset.trans (ih h) (List.subset_append_right _ _)
    cases part with
    | one s' =>
      rcases List.mem_cons.mp h with heq | h
      · cases heq
        exact List.Subset.trans hmore (List.subset_cons_self _ _)
      · exact List.Subset.trans (ih h) (List.subset_cons_self _ _)
    | opt s' =>
      rcases List.mem_cons.mp h with heq | h
      · cases heq
        exact List.Subset.trans hmore (List.subset_cons_self _ _)
      · exact List.Subset.trans (ih h) (List.subset_cons_self _ _)
    | many s' =>
      rcases List.mem_cons.mp h with heq | h
      · cases heq
        intro way hway
        rcases List.mem_cons.mp hway with rfl | hway
        · exact List.mem_cons_self
        · exact List.mem_cons_of_mem _ (hmore hway)
      · exact List.Subset.trans (ih h) (List.subset_cons_self _ _)
    | list s' => exact hlist s' h
    | anyList s' => exact hlist s' h
    | more s' => exact hlist s' h

/-! ### Derivations -/

/-- The terminals that a right-hand side can stand for. -/
inductive Derives : List Part → List Terminal → Prop where
  | done {parts : List Part} (way : [] ∈ unfold parts) : Derives parts []
  | token {parts rest : List Part} {x : Terminal} {xs : List Terminal}
      (way : .one (.token x) :: rest ∈ unfold parts) (tail : Derives rest xs) :
      Derives parts (x :: xs)
  | category {parts rest rhs : List Part} {c : Category} {xs ys : List Terminal}
      (way : .one (.category c) :: rest ∈ unfold parts) (rule : rhs ∈ rules c)
      (head : Derives rhs xs) (tail : Derives rest ys) : Derives parts (xs ++ ys)

/-! ### Empty texts -/

/-- Which categories have a part that is needed in each right-hand side, and name only such. -/
theorem rules_needed (c : Category) : c = .compilationUnit ∨
    ∀ rhs ∈ rules c, rhs.any Part.isNeeded = true := by
  have h := Category.of_all (p := fun c => c == .compilationUnit ||
    (rules c).all fun rhs => rhs.any Part.isNeeded) (by decide) c
  simpa only [Bool.or_eq_true, beq_iff_eq, List.all_eq_true] using h

/-- No right-hand side names the whole file. -/
theorem symbol_ne_compilationUnit {c : Category} {rhs : List Part} (hrule : rhs ∈ rules c)
    {part : Part} (hpart : part ∈ rhs) : part.symbol ≠ .category .compilationUnit := by
  have h := Category.of_all (p := fun c => (rules c).all fun rhs => rhs.all fun part =>
    part.symbol != .category .compilationUnit) (by decide) c
  simp only [List.all_eq_true, bne_iff_ne] at h
  exact h rhs hrule part hpart

/-- Parts that do not name the whole file. -/
def Inner (parts : List Part) : Prop :=
  ∀ part ∈ parts, part.symbol ≠ .category .compilationUnit

theorem Inner.tail {part : Part} {rest : List Part} (h : Inner (part :: rest)) : Inner rest :=
  fun p hp => h p (List.mem_cons_of_mem _ hp)

/-- A way to begin names what the parts name, and commas. -/
theorem symbol_of_mem_unfold {P : Symbol → Prop} (hcomma : P (.token (.mark .comma)))
    {parts way : List Part} (h : ∀ part ∈ parts, P part.symbol) (hway : way ∈ unfold parts) :
    ∀ part ∈ way, P part.symbol := by
  induction parts with
  | nil => exact List.mem_singleton.mp hway ▸ h
  | cons part rest ih =>
    obtain ⟨hpart, hrest⟩ := List.forall_mem_cons.mp h
    have htwo : ∀ {s : Symbol} {p : Part}, P s → P p.symbol →
        ∀ q ∈ Part.one s :: p :: rest, P q.symbol := fun hs hp =>
      List.forall_mem_cons.mpr ⟨hs, List.forall_mem_cons.mpr ⟨hp, hrest⟩⟩
    cases part with
    | one s => exact List.mem_singleton.mp hway ▸ h
    | list s => exact List.mem_singleton.mp hway ▸ htwo hpart hpart
    | opt s =>
      rcases List.mem_cons.mp hway with rfl | hway
      · exact List.forall_mem_cons.mpr ⟨hpart, hrest⟩
      · exact ih hrest hway
    | many s | anyList s =>
      rcases List.mem_cons.mp hway with rfl | hway
      · exact htwo hpart hpart
      · exact ih hrest hway
    | more s =>
      rcases List.mem_cons.mp hway with rfl | hway
      · exact List.forall_mem_cons.mpr ⟨hcomma, htwo hpart hpart⟩
      · exact ih hrest hway

theorem Inner.of_mem_unfold {parts way : List Part} (h : Inner parts)
    (hway : way ∈ unfold parts) : Inner way :=
  symbol_of_mem_unfold (P := (· ≠ .category .compilationUnit)) (fun e => by cases e) h hway

/-- Parts that can begin with nothing need nothing. -/
theorem any_isNeeded_of_nil_mem_unfold {parts : List Part} (h : [] ∈ unfold parts) :
    parts.any Part.isNeeded = false := by
  induction parts with
  | nil => rfl
  | cons part rest ih =>
    cases part with
    | one s => simp [unfold] at h
    | list s => simp [unfold] at h
    | opt s => exact ih (by simpa [unfold] using h)
    | many s => exact ih (by simpa [unfold] using h)
    | anyList s => exact ih (by simpa [unfold] using h)
    | more s => exact ih (by simpa [unfold] using h)

/-- **Parts of which one is needed derive no empty text.** -/
theorem Derives.ne_nil {parts : List Part} {xs : List Terminal} (h : Derives parts xs)
    (hinner : Inner parts) (hneeded : parts.any Part.isNeeded = true) : xs ≠ [] := by
  induction h with
  | done way =>
    rw [any_isNeeded_of_nil_mem_unfold way] at hneeded
    cases hneeded
  | token way tail _ => exact List.cons_ne_nil _ _
  | category way rule head tail ihHead ihTail =>
    rename_i c _ _
    have hc : c ≠ .compilationUnit := fun e =>
      hinner.of_mem_unfold way _ List.mem_cons_self (by rw [e]; rfl)
    have hrules := (rules_needed c).resolve_left hc
    refine List.append_ne_nil_of_left_ne_nil (ihHead ?_ (hrules _ rule)) _
    exact fun part hpart => symbol_ne_compilationUnit rule hpart

/-! ### Readings -/

/-- The subtrees that a category leaves, given those of its right-hand side. -/
def Tree.ofCategory (c : Category) (us : List Tree) : List Tree :=
  if isTransparent c then us else [.node c us]

/-- The tokens that a right-hand side can stand for, and the subtrees that are left. -/
inductive Reads : List Part → List Token → List Tree → Prop where
  | done {parts : List Part} (way : [] ∈ unfold parts) : Reads parts [] []
  | token {parts rest : List Part} {x : Terminal} {t : Token} {ts : List Token} {us : List Tree}
      (way : .one (.token x) :: rest ∈ unfold parts) (fits : t.fits x = true)
      (tail : Reads rest ts us) : Reads parts (t :: ts) (.leaf t :: us)
  | category {parts rest rhs : List Part} {c : Category} {ts ts' : List Token}
      {us us' : List Tree} (way : .one (.category c) :: rest ∈ unfold parts)
      (rule : rhs ∈ rules c) (head : Reads rhs ts us) (tail : Reads rest ts' us') :
      Reads parts (ts ++ ts') (Tree.ofCategory c us ++ us')

namespace Reads

theorem nil : Reads [] [] [] := .done (List.mem_singleton.mpr rfl)

theorem of_unfold {parts way : List Part} {ts : List Token} {us : List Tree}
    (hway : way ∈ unfold parts) (h : Reads way ts us) : Reads parts ts us := by
  cases h with
  | done way' =>
    rw [unfold_of_mem_unfold hway, List.mem_singleton] at way'
    exact .done (way' ▸ hway)
  | token way' fits tail =>
    rw [unfold_of_mem_unfold hway, List.mem_singleton] at way'
    exact .token (way' ▸ hway) fits tail
  | category way' rule head tail =>
    rw [unfold_of_mem_unfold hway, List.mem_singleton] at way'
    exact .category (way' ▸ hway) rule head tail

/-! A reading is taken apart part by part. -/

theorem of_nil {ts : List Token} {us : List Tree} (h : Reads [] ts us) : ts = [] ∧ us = [] := by
  cases h with
  | done way => exact ⟨rfl, rfl⟩
  | token way fits tail => simp [unfold] at way
  | category way rule head tail => simp [unfold] at way

theorem of_cons_token {x : Terminal} {rest : List Part} {ts : List Token} {us : List Tree}
    (h : Reads (.one (.token x) :: rest) ts us) :
    ∃ t ts' us', ts = t :: ts' ∧ us = .leaf t :: us' ∧ t.fits x = true ∧ Reads rest ts' us' := by
  cases h with
  | done way => simp [unfold] at way
  | token way fits tail =>
    simp only [unfold, List.mem_singleton, List.cons.injEq, Part.one.injEq,
      Symbol.token.injEq] at way
    obtain ⟨rfl, rfl⟩ := way
    exact ⟨_, _, _, rfl, rfl, fits, tail⟩
  | category way rule head tail => simp [unfold] at way

theorem of_cons_category {c : Category} {rest : List Part} {ts : List Token} {us : List Tree}
    (h : Reads (.one (.category c) :: rest) ts us) :
    ∃ rhs ∈ rules c, ∃ ts₁ us₁ ts₂ us₂, ts = ts₁ ++ ts₂ ∧ us = Tree.ofCategory c us₁ ++ us₂ ∧
      Reads rhs ts₁ us₁ ∧ Reads rest ts₂ us₂ := by
  cases h with
  | done way => simp [unfold] at way
  | token way fits tail => simp [unfold] at way
  | category way rule head tail =>
    simp only [unfold, List.mem_singleton, List.cons.injEq, Part.one.injEq,
      Symbol.category.injEq] at way
    obtain ⟨rfl, rfl⟩ := way
    exact ⟨_, rule, _, _, _, _, rfl, rfl, head, tail⟩

/-- The terminals that the tokens are read as are derived. -/
theorem derives {parts : List Part} {ts : List Token} {us : List Tree} (h : Reads parts ts us) :
    ∃ xs, Derives parts xs ∧ List.Forall₂ (fun t x => t.fits x = true) ts xs := by
  induction h with
  | done way => exact ⟨[], .done way, .nil⟩
  | token way fits tail ih =>
    obtain ⟨xs, hder, hfits⟩ := ih
    exact ⟨_ :: xs, .token way hder, .cons fits hfits⟩
  | category way rule head tail ihHead ihTail =>
    obtain ⟨xs, hder, hfits⟩ := ihHead
    obtain ⟨ys, hder', hfits'⟩ := ihTail
    exact ⟨xs ++ ys, .category way rule hder hder', List.rel_append hfits hfits'⟩

end Reads

end TestScaffold.CSharp
