/-
  TestScaffold/Proofs/CSharp/Nodes.lean
  =====================================
  **What stands at the nodes of a tree that reads some tokens.**

  Each node of such a tree reads neighbouring tokens by a rule of its category, and
  has the characters of its tokens.
-/
import TestScaffold.CSharp.Outline
import TestScaffold.Proofs.CSharp.Phrase

namespace TestScaffold.CSharp

open Grammar

/-! ### Walking -/

namespace Tree

theorem preorderOfAll_append (ts us : List Tree) :
    preorderOfAll (ts ++ us) = preorderOfAll ts ++ preorderOfAll us := by
  induction ts with
  | nil => simp [preorderOfAll]
  | cons t ts ih => simp [preorderOfAll, ih]

/-- The stack is visited tree by tree. -/
theorem visit_eq (stack : List Tree) : visit stack = preorderOfAll stack := by
  induction stack using visit.induct with
  | case1 => rw [visit, preorderOfAll]
  | case2 t stack ih =>
    rw [visit, ih, preorderOfAll_append]
    cases t with
    | leaf token => simp [children, preorderOfAll, preorder]
    | node c cs => simp [children, preorderOfAll, preorder]

theorem walk_eq (t : Tree) : t.walk = t.preorder := by
  rw [walk, visit_eq]
  cases t with
  | leaf token => simp [children, preorderOfAll, preorder]
  | node c cs => simp [children, preorder]

theorem tokensOfAll_append (after : List Token) (ts us : List Tree) :
    tokensOfAll after (ts ++ us) = tokensOfAll (tokensOfAll after us) ts := by
  induction ts with
  | nil => simp [tokensOfAll]
  | cons t ts ih => simp [tokensOfAll, ih]

end Tree

/-! ### Nodes -/

namespace Reads

variable {parts rest : List Part} {ts : List Token} {us : List Tree}

/-- The trees give back the tokens that they were read from. -/
theorem tokensOfAll_eq (h : Reads parts ts us) (after : List Token) :
    Tree.tokensOfAll after us = ts ++ after := by
  induction h generalizing after with
  | done way => simp [Tree.tokensOfAll]
  | token way fits tail ih => simp [Tree.tokensOfAll, Tree.tokensBefore, ih]
  | @category _ _ _ c _ _ us us' way rule head tail ihHead ihTail =>
    have hhead : Tree.tokensOfAll (Tree.tokensOfAll after us') (Tree.ofCategory c us) =
        Tree.tokensOfAll (Tree.tokensOfAll after us') us := by
      unfold Tree.ofCategory
      split <;> simp [Tree.tokensOfAll, Tree.tokensBefore]
    rw [Tree.tokensOfAll_append, hhead, ihHead, ihTail, List.append_assoc]

/-- The characters of a node are those of the tokens that it was read from. -/
theorem chars_node (h : Reads parts ts us) (c : Category) :
    (Tree.node c us).chars = Tree.charsOfTokens ts := by
  rw [Tree.chars, Tree.tokens, Tree.tokensBefore, h.tokensOfAll_eq, List.append_nil]

/-- **Each node reads neighbouring tokens** by a rule of its category. -/
theorem exists_of_node {c : Category} {cs : List Tree} (h : Reads parts ts us)
    (hnode : .node c cs ∈ Tree.preorderOfAll us) :
    ∃ rhs ∈ rules c, ∃ ts', Reads rhs ts' cs ∧ ts' <:+: ts := by
  induction h with
  | done way => cases hnode
  | @token _ _ _ t ts us way fits tail ih =>
    rw [Tree.preorderOfAll, Tree.preorder, List.cons_append, List.nil_append] at hnode
    rcases List.mem_cons.mp hnode with heq | hnode
    · cases heq
    · obtain ⟨rhs, hrule, ts', hreads, hwithin⟩ := ih hnode
      exact ⟨rhs, hrule, ts', hreads, hwithin.trans (List.suffix_cons t ts).isInfix⟩
  | @category _ _ rhs d ts ts' us us' way rule head tail ihHead ihTail =>
    rw [Tree.preorderOfAll_append, List.mem_append] at hnode
    rcases hnode with hnode | hnode
    · have hinner : .node c cs = Tree.node d us ∨ .node c cs ∈ Tree.preorderOfAll us := by
        unfold Tree.ofCategory at hnode
        split at hnode
        · exact Or.inr hnode
        · simpa [Tree.preorderOfAll, Tree.preorder] using hnode
      rcases hinner with heq | hinner
      · cases heq
        exact ⟨rhs, rule, ts, head, (List.prefix_append ts ts').isInfix⟩
      · obtain ⟨rhs', hrule, ts'', hreads, hwithin⟩ := ihHead hinner
        exact ⟨rhs', hrule, ts'', hreads, hwithin.trans (List.prefix_append ts ts').isInfix⟩
    · obtain ⟨rhs', hrule, ts'', hreads, hwithin⟩ := ihTail hnode
      exact ⟨rhs', hrule, ts'', hreads, hwithin.trans (List.suffix_append ts ts').isInfix⟩

/-- A terminal that parts name just once has its token. -/
theorem exists_of_one {x : Terminal} (h : Reads parts ts us) (hx : .one (.token x) ∈ parts) :
    ∃ t ∈ ts, t.fits x = true := by
  have hway : ∀ {parts way : List Part}, .one (.token x) ∈ parts → way ∈ unfold parts →
      .one (.token x) ∈ way := by
    intro parts
    induction parts with
    | nil => exact fun hx => absurd hx List.not_mem_nil
    | cons part rest ih =>
      intro way hx hway
      cases part with
      | one s => exact List.mem_singleton.mp hway ▸ hx
      | list s =>
        have hrest : .one (.token x) ∈ rest := by simpa using hx
        rw [List.mem_singleton.mp hway]
        simp [hrest]
      | opt s | many s | anyList s | more s =>
        have hrest : .one (.token x) ∈ rest := by simpa using hx
        rw [unfold, List.mem_cons] at hway
        rcases hway with rfl | hway
        · simp [hrest]
        · exact ih hrest hway
  induction h with
  | done way => cases hway hx way
  | @token _ _ y t _ _ way fits tail ih =>
    rcases List.mem_cons.mp (hway hx way) with heq | hx
    · cases heq
      exact ⟨t, List.mem_cons_self, fits⟩
    · obtain ⟨u, hu, hfits⟩ := ih hx
      exact ⟨u, List.mem_cons_of_mem _ hu, hfits⟩
  | category way rule head tail _ ihTail =>
    rcases List.mem_cons.mp (hway hx way) with heq | hx
    · cases heq
    · obtain ⟨u, hu, hfits⟩ := ihTail hx
      exact ⟨u, List.mem_append_right _ hu, hfits⟩

theorem exists_unfold (h : Reads parts ts us) : ∃ way ∈ unfold parts, Reads way ts us := by
  cases h with
  | done way => exact ⟨[], way, .done (List.mem_singleton.mpr rfl)⟩
  | token way fits tail => exact ⟨_, way, .token (List.mem_singleton.mpr rfl) fits tail⟩
  | category way rule head tail =>
    exact ⟨_, way, .category (List.mem_singleton.mpr rfl) rule head tail⟩

/-- An optional part is there or not. -/
theorem of_cons_opt {s : Symbol} (h : Reads (.opt s :: rest) ts us) :
    Reads rest ts us ∨ Reads (.one s :: rest) ts us := by
  obtain ⟨way, hway, hreads⟩ := h.exists_unfold
  rcases List.mem_cons.mp hway with rfl | hway
  · exact Or.inr hreads
  · exact Or.inl (hreads.of_unfold hway)

end Reads

/-- An identifier is a single token. -/
theorem Reads.of_identifier {rhs : List Part} {ts : List Token} {us : List Tree}
    (h : Reads rhs ts us) (hrule : rhs ∈ rules .identifier) : ∃ t, ts = [t] ∧ us = [.leaf t] := by
  have hone : ∀ {x : Terminal} {ts : List Token} {us : List Tree},
      Reads [.one (.token x)] ts us → ∃ t, ts = [t] ∧ us = [.leaf t] := by
    intro x ts us h
    obtain ⟨t, ts', us', rfl, rfl, _, hnil⟩ := h.of_cons_token
    obtain ⟨rfl, rfl⟩ := hnil.of_nil
    exact ⟨t, rfl, rfl⟩
  rcases List.mem_cons.mp hrule with rfl | hrule
  · exact hone h
  · rw [List.mem_singleton.mp hrule] at h
    obtain ⟨rhs', hrule', ts₁, us₁, ts₂, us₂, rfl, rfl, hword, hnil⟩ := h.of_cons_category
    obtain ⟨rfl, rfl⟩ := hnil.of_nil
    obtain ⟨k, _, rfl⟩ := List.mem_map.mp hrule'
    obtain ⟨t, rfl, rfl⟩ := hone hword
    exact ⟨t, rfl, rfl⟩

end TestScaffold.CSharp
