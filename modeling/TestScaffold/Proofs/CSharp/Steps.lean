/-
  TestScaffold/Proofs/CSharp/Steps.lean
  =====================================
  **How a reading begins and how it ends.**

  The next token leaves few of the ways in which parts can begin, often a single
  one; the others are ruled out by what the grammar begins with.  In the same
  manner the grammar bounds what a reading ends with.
-/
import TestScaffold.Proofs.CSharp.Nesting

namespace TestScaffold.CSharp

open Grammar

/-! ### Parts in a row -/

/-- Parts in a row begin as the first of them do, or, where these begin with nothing, as the
rest. -/
theorem mem_unfold_append {ps qs way : List Part} (h : way ∈ unfold (ps ++ qs)) :
    (∃ s rest, .one s :: rest ∈ unfold ps ∧ way = .one s :: (rest ++ qs)) ∨
      ([] ∈ unfold ps ∧ way ∈ unfold qs) := by
  induction ps with
  | nil => exact Or.inr ⟨List.mem_singleton.mpr rfl, h⟩
  | cons part ps ih =>
    have hskip : way ∈ unfold (ps ++ qs) → unfold ps ⊆ unfold (part :: ps) →
        (∃ s rest, .one s :: rest ∈ unfold (part :: ps) ∧ way = .one s :: (rest ++ qs)) ∨
          ([] ∈ unfold (part :: ps) ∧ way ∈ unfold qs) := by
      intro hway hsub
      rcases ih hway with ⟨s, rest, hs, rfl⟩ | ⟨hnil, hway⟩
      · exact Or.inl ⟨s, rest, hsub hs, rfl⟩
      · exact Or.inr ⟨hsub hnil, hway⟩
    cases part with
    | one s => exact Or.inl ⟨s, ps, List.mem_singleton.mpr rfl, List.mem_singleton.mp h⟩
    | list s =>
      exact Or.inl ⟨s, .more s :: ps, List.mem_singleton.mpr rfl, List.mem_singleton.mp h⟩
    | opt s =>
      rcases List.mem_cons.mp h with rfl | h
      · exact Or.inl ⟨s, ps, List.mem_cons_self, rfl⟩
      · exact hskip h (List.subset_cons_self _ _)
    | many s =>
      rcases List.mem_cons.mp h with rfl | h
      · exact Or.inl ⟨s, .many s :: ps, List.mem_cons_self, rfl⟩
      · exact hskip h (List.subset_cons_self _ _)
    | anyList s =>
      rcases List.mem_cons.mp h with rfl | h
      · exact Or.inl ⟨s, .more s :: ps, List.mem_cons_self, rfl⟩
      · exact hskip h (List.subset_cons_self _ _)
    | more s =>
      rcases List.mem_cons.mp h with rfl | h
      · exact Or.inl ⟨_, .one s :: .more s :: ps, List.mem_cons_self, rfl⟩
      · exact hskip h (List.subset_cons_self _ _)

/-- A reading of parts in a row is one of the first of them and one of the rest. -/
theorem Reads.of_append {ps qs : List Part} {ts : List Token} {us : List Tree}
    (h : Reads (ps ++ qs) ts us) :
    ∃ ts₁ us₁ ts₂ us₂, ts = ts₁ ++ ts₂ ∧ us = us₁ ++ us₂ ∧ Reads ps ts₁ us₁ ∧ Reads qs ts₂ us₂ := by
  generalize hparts : ps ++ qs = parts at h
  induction h generalizing ps with
  | done way =>
    subst hparts
    rcases mem_unfold_append way with ⟨_, _, _, heq⟩ | ⟨hps, hqs⟩
    · cases heq
    · exact ⟨[], [], [], [], rfl, rfl, .done hps, .done hqs⟩
  | token way fits tail ih =>
    subst hparts
    rcases mem_unfold_append way with ⟨s, rest, hs, heq⟩ | ⟨hps, hqs⟩
    · cases heq
      obtain ⟨ts₁, us₁, ts₂, us₂, rfl, rfl, hfirst, hrest⟩ := ih rfl
      exact ⟨_, _, ts₂, us₂, rfl, rfl, .token hs fits hfirst, hrest⟩
    · exact ⟨[], [], _, _, rfl, rfl, .done hps, .token hqs fits tail⟩
  | category way rule head tail _ ih =>
    subst hparts
    rcases mem_unfold_append way with ⟨s, rest, hs, heq⟩ | ⟨hps, hqs⟩
    · cases heq
      obtain ⟨ts₁, us₁, ts₂, us₂, rfl, rfl, hfirst, hrest⟩ := ih rfl
      exact ⟨_, _, ts₂, us₂, (List.append_assoc _ _ _).symm, (List.append_assoc _ _ _).symm,
        .category hs rule head hfirst, hrest⟩
    · exact ⟨[], [], _, _, rfl, rfl, .done hps, .category hqs rule head tail⟩

/-- Whether parts may stand before a mark that closes their group. -/
def Nest.encloses (n : Nest) (parts : List Part) (b : Mark) : Bool :=
  parts.all n.isLoose && n.afterParts 0 parts == some 0 && n.closes (.mark b) &&
    !n.opens (.mark b)

/-- **What is read between two marks ends at the mark that closes the group.** -/
theorem Reads.of_group {n : Nest} {a b : Mark} {parts : List Part} {p q inner rest : List Token}
    {o c : Token} {us : List Tree}
    (h : Reads (.one (.token (.mark a)) :: parts ++ [.one (.token (.mark b))]) p us) (hn : n.Fits)
    (hparts : n.encloses parts b = true) (hgroup : n.Group o inner c)
    (heq : p ++ q = o :: (inner ++ c :: rest)) :
    ∃ us', p = o :: (inner ++ [c]) ∧ q = rest ∧ us = .leaf o :: us' ++ [.leaf c] ∧
      Reads parts inner us' := by
  simp only [Nest.encloses, Bool.and_eq_true, List.all_eq_true, beq_iff_eq, Bool.not_eq_true']
    at hparts
  obtain ⟨⟨⟨hloose, hafter⟩, hcloses⟩, hopens⟩ := hparts
  obtain ⟨o', p', us₁, rfl, rfl, _, hrest⟩ := h.of_cons_token
  obtain ⟨inner', us', p₂, us₂, rfl, rfl, hinner, hlast⟩ := hrest.of_append
  obtain ⟨c', p₃, us₃, rfl, rfl, hc, hnil⟩ := hlast.of_cons_token
  obtain ⟨rfl, rfl⟩ := hnil.of_nil
  have hc' : c'.role = .mark b := beq_iff_eq.mp hc
  rw [List.cons_append, List.append_assoc, List.singleton_append] at heq
  obtain ⟨rfl, htail⟩ := List.cons.inj heq
  obtain rfl : inner' = inner :=
    Nest.Balanced.eq_of_append_cons (hinner.after hn hloose hafter) hgroup.inner (hc' ▸ hcloses)
      hgroup.closes (hc' ▸ hopens) hgroup.opensNot htail
  obtain ⟨rfl, rfl⟩ := List.cons.inj (List.append_cancel_left htail)
  exact ⟨us', rfl, rfl, by simp, hinner⟩

/-! ### First tokens -/

namespace Begins

/-- Whether a category begins with no token read as `x`. -/
def never (x : Terminal) (c : Category) : Bool :=
  let set := Category.spread corners 1000 [c] []
  decide (c ∈ set) && set.all fun d => (corners d).all (· ∈ set) && (heads d).all (· != x)

theorem not_of_never {x : Terminal} {c : Category} (h : never x c = true) : ¬ Begins x c := by
  intro hbegins
  simp only [never, Bool.and_eq_true, decide_eq_true_eq, List.all_eq_true, bne_iff_ne] at h
  obtain ⟨hc, hset⟩ := h
  generalize Category.spread corners 1000 [c] [] = set at hc hset
  induction hbegins with
  | @token c rhs rest rule way =>
    refine (hset c hc).2 x (List.mem_flatMap.mpr ⟨rhs, rule, ?_⟩) rfl
    exact List.mem_filterMap.mpr ⟨_, way, rfl⟩
  | @category c d rhs rest rule way inner ih =>
    refine ih ((hset c hc).1 d (List.mem_flatMap.mpr ⟨rhs, rule, ?_⟩))
    exact List.mem_filterMap.mpr ⟨_, way, rfl⟩

/-- Whether a way to begin may go on with a token read as `x`. -/
def isOpenTo (x : Terminal) : List Part → Bool
  | .one (.token y) :: _ => y.role == x
  | .one (.category c) :: _ => c == .compilationUnit || !never x c
  | _ => false

/-- The ways in which parts can begin with a token read as `x`. -/
def ways (x : Terminal) (parts : List Part) : List (List Part) :=
  (unfold parts).filter (isOpenTo x)

end Begins

/-- **The first token leaves some of the ways to begin.** -/
theorem Reads.exists_way {parts : List Part} {t : Token} {ts : List Token} {us : List Tree}
    (h : Reads parts (t :: ts) us) : ∃ way ∈ Begins.ways t.role parts, Reads way (t :: ts) us := by
  generalize hall : t :: ts = all at h
  cases h with
  | done way => cases hall
  | @token _ rest x u us trees way fits tail =>
    cases hall
    refine ⟨_, List.mem_filter.mpr ⟨way, ?_⟩, .token (List.mem_singleton.mpr rfl) fits tail⟩
    simp [Begins.isOpenTo, Token.role_of_fits fits]
  | @category _ rest rhs c us us' trees trees' way rule head tail =>
    have hreads : Reads (.one (.category c) :: rest) _ _ :=
      .category (List.mem_singleton.mpr rfl) rule head tail
    rw [← hall] at hreads ⊢
    refine ⟨_, List.mem_filter.mpr ⟨way, ?_⟩, hreads⟩
    by_cases hc : c = .compilationUnit
    · simp [Begins.isOpenTo, hc]
    · cases us with
      | nil => exact absurd rfl (Phrase.ne_nil hc ⟨rhs, rule, _, head⟩)
      | cons u us =>
        cases hall
        obtain ⟨x, hbegins, hrole⟩ := head.begins rule rfl
        have hnever : Begins.never t.role c = false := by
          refine Bool.eq_false_iff.mpr fun hnever => ?_
          exact Begins.not_of_never hnever (hrole ▸ hbegins)
        simp [Begins.isOpenTo, hnever]

/-- A single way to begin is the one that is read. -/
theorem Reads.of_ways {parts way : List Part} {t : Token} {ts : List Token} {us : List Tree}
    {x : Terminal} (h : Reads parts (t :: ts) us) (ht : t.role = x)
    (hways : Begins.ways x parts = [way]) : Reads way (t :: ts) us := by
  obtain ⟨way', hway, hreads⟩ := h.exists_way
  rw [ht, hways, List.mem_singleton] at hway
  exact hway ▸ hreads

/-- Parts that cannot begin with a token are not read from it. -/
theorem Reads.false_of_ways {parts : List Part} {t : Token} {ts : List Token} {us : List Tree}
    {x : Terminal} (h : Reads parts (t :: ts) us) (ht : t.role = x)
    (hways : Begins.ways x parts = []) : False := by
  obtain ⟨way, hway, _⟩ := h.exists_way
  rw [ht, hways] at hway
  cases hway

/-- What is read from a token may begin with it. -/
theorem Reads.never_eq_false {c : Category} {rest : List Part} {t : Token} {ts : List Token}
    {us : List Tree} (h : Reads (.one (.category c) :: rest) (t :: ts) us)
    (hc : c ≠ .compilationUnit) : Begins.never t.role c = false := by
  obtain ⟨way, hway, _⟩ := h.exists_way
  obtain ⟨hmem, hopen⟩ := List.mem_filter.mp hway
  rw [List.mem_singleton.mp hmem] at hopen
  simpa [Begins.isOpenTo, hc] using hopen

/-! ### Last tokens -/

/-- The symbols that may be read last. -/
def closers : List Part → List Symbol
  | [] => []
  | part :: rest => (if rest.any Part.isNeeded then [] else [part.symbol]) ++ closers rest

theorem closers_subset_of_mem_unfold {parts way : List Part} (h : way ∈ unfold parts) :
    closers way ⊆ closers parts := by
  induction parts with
  | nil =>
    rw [List.mem_singleton.mp h]
    exact List.Subset.refl _
  | cons part rest ih =>
    have hrest : closers rest ⊆ closers (part :: rest) := List.subset_append_right _ _
    cases part with
    | one s =>
      rw [List.mem_singleton.mp h]
      exact List.Subset.refl _
    | list s =>
      rw [List.mem_singleton.mp h]
      intro x hx
      simpa [closers, Part.symbol, Part.isNeeded] using hx
    | opt s =>
      rcases List.mem_cons.mp h with rfl | h
      · exact List.Subset.refl _
      · exact List.Subset.trans (ih h) hrest
    | many s | anyList s | more s =>
      rcases List.mem_cons.mp h with rfl | h
      · intro x hx
        simpa [closers, Part.symbol, Part.isNeeded] using hx
      · exact List.Subset.trans (ih h) hrest

/-- Parts that are read from nothing are not needed. -/
theorem Reads.any_isNeeded {parts : List Part} {us : List Tree} (h : Reads parts [] us)
    (hinner : Inner parts) : parts.any Part.isNeeded = false := by
  obtain ⟨xs, hder, hfits⟩ := h.derives
  rw [List.forall₂_nil_left_iff.mp hfits] at hder
  exact Bool.eq_false_iff.mpr fun hneeded => hder.ne_nil hinner hneeded rfl

instance (parts : List Part) : Decidable (Inner parts) :=
  inferInstanceAs (Decidable (∀ part ∈ parts, part.symbol ≠ .category .compilationUnit))

/-- Nothing is left of what is read from nothing. -/
theorem Reads.trees_eq_nil {parts : List Part} {us : List Tree} (h : Reads parts [] us)
    (hinner : Inner parts) : us = [] := by
  generalize hts : ([] : List Token) = ts at h
  cases h with
  | done way => rfl
  | token way fits tail => cases hts
  | category way rule head tail =>
    have hc := hinner.of_mem_unfold way _ List.mem_cons_self
    refine absurd (List.append_eq_nil_iff.mp hts.symm).1 (Phrase.ne_nil (fun e => ?_) ⟨_, rule, _, head⟩)
    exact hc (by rw [e]; rfl)

/-- Behind the first part of what is read from a single token, nothing is needed. -/
theorem Reads.any_isNeeded_of_singleton {s : Symbol} {rest : List Part} {t : Token} {us : List Tree}
    (h : Reads (.one s :: rest) [t] us) (hinner : Inner (.one s :: rest)) :
    rest.any Part.isNeeded = false := by
  cases s with
  | token x =>
    obtain ⟨t', ts', us', heq, _, _, hrest⟩ := h.of_cons_token
    cases heq
    exact hrest.any_isNeeded hinner.tail
  | category c =>
    obtain ⟨rhs, hrule, ts₁, us₁, ts₂, us₂, heq, _, hhead, hrest⟩ := h.of_cons_category
    cases ts₁ with
    | nil =>
      refine absurd rfl (Phrase.ne_nil (fun e => ?_) ⟨rhs, hrule, us₁, hhead⟩)
      exact hinner _ List.mem_cons_self (by rw [e]; rfl)
    | cons t' ts₁ =>
      obtain ⟨_, hnil⟩ := List.cons.inj heq
      rw [(List.append_eq_nil_iff.mp hnil.symm).2] at hrest
      exact hrest.any_isNeeded hinner.tail

/-- Whether parts end with what is wanted only. -/
def endsOnly (wanted : Terminal → Bool) (parts : List Part) : Bool :=
  let admits := Nest.admits (fun _ => true) wanted
  let next (c : Category) := (rules c).flatMap fun rhs => Nest.categories (closers rhs)
  let set := Category.spread next 4000 (Nest.categories (closers parts)) []
  (closers parts).all (admits set) && set.all fun c => (rules c).all fun rhs =>
    (closers rhs).all (admits set)

theorem Reads.last_of_set {wanted : Terminal → Bool} {set : List Category} {parts : List Part}
    {ts : List Token} {us : List Tree} (h : Reads parts ts us) (hinner : Inner parts)
    (hset : ∀ c ∈ set, ∀ rhs ∈ rules c, ∀ s ∈ closers rhs,
      Nest.admits (fun _ => true) wanted set s = true)
    (hparts : ∀ s ∈ closers parts, Nest.admits (fun _ => true) wanted set s = true) :
    ∀ t ∈ ts.getLast?, wanted t.role = true := by
  induction h with
  | done way => exact fun t ht => by cases ht
  | @token parts rest x t ts us way fits tail ih =>
    have hrest := (hinner.of_mem_unfold way).tail
    have hway := fun s hs => hparts s (closers_subset_of_mem_unfold way hs)
    cases ts with
    | nil =>
      intro u hu
      obtain rfl : t = u := by simpa using hu
      have hadmits := hway (.token x) (by simp [closers, tail.any_isNeeded hrest, Part.symbol])
      rw [Token.role_of_fits fits]
      simpa [Nest.admits] using hadmits
    | cons u ts =>
      rw [List.getLast?_cons_cons]
      exact ih hrest fun s hs => hway s (List.mem_append_right _ hs)
  | @category parts rest rhs c ts ts' us us' way rule head tail ihHead ihTail =>
    have hrest := (hinner.of_mem_unfold way).tail
    have hway := fun s hs => hparts s (closers_subset_of_mem_unfold way hs)
    cases ts' with
    | nil =>
      rw [List.append_nil]
      have hc : c ∈ set := of_decide_eq_true (hway (.category c)
        (by simp [closers, tail.any_isNeeded hrest, Part.symbol]))
      exact ihHead (fun part hpart => symbol_ne_compilationUnit rule hpart) (hset c hc rhs rule)
    | cons u ts' =>
      rw [List.getLast?_append_of_ne_nil _ (List.cons_ne_nil _ _)]
      exact ihTail hrest fun s hs => hway s (List.mem_append_right _ hs)

/-- **A reading ends with what is wanted**, as computed from the grammar. -/
theorem Reads.last_only {wanted : Terminal → Bool} {parts : List Part} {ts : List Token}
    {us : List Tree} (h : Reads parts ts us) (hinner : Inner parts)
    (hends : endsOnly wanted parts = true) : ∀ t ∈ ts.getLast?, wanted t.role = true := by
  simp only [endsOnly, Bool.and_eq_true, List.all_eq_true] at hends
  exact h.last_of_set hinner hends.2 hends.1

/-! ### Single tokens -/

/-- Whether a category is a choice of terminals. -/
def isWordChoice (c : Category) : Bool :=
  (rules c).all fun
    | [.one (.token _)] => true
    | _ => false

namespace Reads

variable {rest : List Part} {ts : List Token} {us : List Tree}

/-- A choice of terminals is a single token. -/
theorem of_cons_word {c : Category} (h : Reads (.one (.category c) :: rest) ts us)
    (hc : isWordChoice c = true) :
    ∃ t ts' us', ts = t :: ts' ∧ us = Tree.ofCategory c [.leaf t] ++ us' ∧
      (∃ x, [.one (.token x)] ∈ rules c ∧ t.role = x.role) ∧ Reads rest ts' us' := by
  obtain ⟨rhs, hrule, ts₁, us₁, ts₂, us₂, rfl, rfl, hhead, hrest⟩ := h.of_cons_category
  have hone := List.all_eq_true.mp hc rhs hrule
  split at hone
  · rename_i x
    obtain ⟨t, ts', us', rfl, rfl, hfits, hnil⟩ := hhead.of_cons_token
    obtain ⟨rfl, rfl⟩ := hnil.of_nil
    exact ⟨t, ts₂, us₂, rfl, rfl, ⟨x, hrule, Token.role_of_fits hfits⟩, hrest⟩
  · cases hone

/-- What is read as a single category is a phrase of it. -/
theorem phrase {c : Category} (h : Reads [.one (.category c)] ts us) : Phrase c ts := by
  obtain ⟨rhs, hrule, ts₁, us₁, ts₂, us₂, rfl, rfl, hhead, hnil⟩ := h.of_cons_category
  rw [hnil.of_nil.1, List.append_nil]
  exact ⟨rhs, hrule, us₁, hhead⟩

/-- An identifier is a single token. -/
theorem of_cons_identifier (h : Reads (.one (.category .identifier) :: rest) ts us) :
    ∃ t ts' us', ts = t :: ts' ∧ us = .node .identifier [.leaf t] :: us' ∧ Reads rest ts' us' := by
  obtain ⟨rhs, hrule, ts₁, us₁, ts₂, us₂, rfl, rfl, hhead, hrest⟩ := h.of_cons_category
  obtain ⟨t, rfl, rfl⟩ := hhead.of_identifier hrule
  exact ⟨t, ts₂, us₂, rfl, rfl, hrest⟩

end Reads

end TestScaffold.CSharp
