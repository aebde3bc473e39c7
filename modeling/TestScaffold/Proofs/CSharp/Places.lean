/-
  TestScaffold/Proofs/CSharp/Places.lean
  ======================================
  **Places in a tree, and the namespaces that govern them.**

  A declaration stands at a place: the numbers of the children on the way to it.
  The same declaration may stand at two places of a text, in different
  namespaces, so what governs it is said of its place.

  A namespace with a block governs what stands in the block.  A namespace without
  one governs its neighbours behind it, up to the next of its kind.  The outline
  passes two namespaces on, the one around some neighbours and the one that
  holds for the next of them; the second is the first with the last namespace
  without a block (`Tree.IsLast`).
-/
import TestScaffold.Proofs.CSharp.Children

namespace TestScaffold.CSharp

open Grammar
open TestScaffold.Text

namespace Tree

/-! ### Places -/

/-- What stands at a place. -/
def at? (t : Tree) : List Nat → Option Tree
  | [] => some t
  | i :: p => t.children[i]?.bind fun u => u.at? p

/-- A node of a category stands at a place. -/
def HasAt (t : Tree) (c : Category) (p : List Nat) : Prop := ∃ cs, t.at? p = some (node c cs)

/-- A place comes before those below it and before those to the right. -/
def Before : List Nat → List Nat → Prop := List.Lex (· < ·)

theorem at?_cons {t u : Tree} {i : Nat} (hu : t.children[i]? = some u) (p : List Nat) :
    t.at? (i :: p) = u.at? p := by
  rw [at?, hu, Option.bind_some]

theorem hasAt_nil {t : Tree} {c : Category} : t.HasAt c [] ↔ t.isOf c = true := by
  cases t <;> simp [HasAt, at?, isOf]

theorem hasAt_cons {t u : Tree} {i : Nat} (hu : t.children[i]? = some u) (c : Category)
    (p : List Nat) : t.HasAt c (i :: p) ↔ u.HasAt c p := by
  rw [HasAt, HasAt, at?_cons hu]

theorem hasAt_singleton {t u : Tree} {i : Nat} (hu : t.children[i]? = some u) (c : Category) :
    t.HasAt c [i] ↔ u.isOf c = true := by
  rw [hasAt_cons hu, hasAt_nil]

/-- What stands below the root is met on a walk. -/
theorem mem_walk_of_at? {p : List Nat} : ∀ {t d : Tree} {i : Nat}, t.at? (i :: p) = some d →
    d ∈ preorderOfAll t.children := by
  induction p with
  | nil =>
    intro t d i h
    obtain ⟨u, hu, hd⟩ := Option.bind_eq_some_iff.mp h
    cases hd
    exact mem_preorderOfAll (List.mem_of_getElem? hu)
  | cons j p ih =>
    intro t d i h
    obtain ⟨u, hu, hd⟩ := Option.bind_eq_some_iff.mp h
    obtain ⟨before, after, hchildren⟩ := List.append_of_mem (List.mem_of_getElem? hu)
    have hmem := ih hd
    rw [hchildren, preorderOfAll_append, preorderOfAll]
    cases u with
    | leaf token => cases hmem
    | node c cs =>
      rw [children] at hmem
      simp [preorder, hmem]

/-! ### Namespaces that govern a place -/

/-- The namespace declaration at the first place governs the second one. -/
inductive Governs (t : Tree) : List Nat → List Nat → Prop where
  /-- A namespace with a block governs what it encloses. -/
  | block {q rest : List Nat} {i : Nat} (encloses : t.HasAt .namespaceDeclaration q) :
      t.Governs q (q ++ i :: rest)
  /-- A namespace without one governs the neighbours behind it, up to the next of its kind. -/
  | fileScoped {r rest : List Nat} {i j : Nat} (line : t.HasAt .fileScopedNamespace (r ++ [i]))
      (behind : i < j)
      (upTo : ∀ k, i < k → k ≤ j → ¬ t.HasAt .fileScopedNamespace (r ++ [k])) :
      t.Governs (r ++ [i]) (r ++ j :: rest)

theorem governs_nil_left {t : Tree} {p : List Nat} (hp : p ≠ []) :
    t.Governs [] p ↔ t.isOf .namespaceDeclaration = true := by
  rw [← hasAt_nil]
  constructor
  · intro h
    generalize hq : ([] : List Nat) = q at h
    cases h with
    | block encloses => exact hq ▸ encloses
    | fileScoped line behind upTo => simp at hq
  · intro h
    obtain ⟨i, rest, rfl⟩ := List.exists_cons_of_ne_nil hp
    exact .block (q := []) h

theorem not_governs_nil_right {t : Tree} {q : List Nat} : ¬ t.Governs q [] := by
  intro h
  generalize hp : ([] : List Nat) = place at h
  cases h <;> simp at hp

/-- The child `k` is the last namespace without a block before the child `i`. -/
structure IsLast (t : Tree) (k i : Nat) : Prop where
  line : t.HasAt .fileScopedNamespace [k]
  behind : k < i
  upTo : ∀ l, k < l → l < i → ¬ t.HasAt .fileScopedNamespace [l]

theorem not_isLast_zero (t : Tree) (k : Nat) : ¬ t.IsLast k 0 :=
  fun h => absurd h.behind (Nat.not_lt_zero k)

/-- Behind a namespace without a block that one is the last; other children change nothing. -/
theorem isLast_succ {t u : Tree} {i : Nat} (hu : t.children[i]? = some u) (k : Nat) :
    t.IsLast k (i + 1) ↔ if u.isOf .fileScopedNamespace then k = i else t.IsLast k i := by
  split
  · rename_i hline
    rw [← hasAt_singleton hu] at hline
    constructor
    · intro h
      by_contra hne
      have hk := h.behind
      exact h.upTo i (by omega) (by omega) hline
    · rintro rfl
      exact ⟨hline, by omega, fun l _ _ => by omega⟩
  · rename_i hline
    rw [← hasAt_singleton hu] at hline
    constructor
    · intro h
      have hne : k ≠ i := fun e => hline (e ▸ h.line)
      have hk := h.behind
      exact ⟨h.line, by omega, fun l hl hli => h.upTo l hl (by omega)⟩
    · intro h
      have hk := h.behind
      refine ⟨h.line, by omega, fun l hl hli hlast => ?_⟩
      rcases Nat.lt_succ_iff_lt_or_eq.mp hli with hli | rfl
      · exact h.upTo l hl hli hlast
      · exact hline hlast

/-- **What governs a place below a child** is the tree itself, the last namespace without a block
before the child, or stands in the child. -/
theorem governs_cons {t u : Tree} {i : Nat} (hu : t.children[i]? = some u)
    (hline : u.isOf .fileScopedNamespace = false) {q p : List Nat} :
    t.Governs q (i :: p) ↔ (q = [] ∧ t.isOf .namespaceDeclaration = true) ∨
      (∃ k, t.IsLast k i ∧ q = [k]) ∨ ∃ q', u.Governs q' p ∧ q = i :: q' := by
  have hhere : ¬ t.HasAt .fileScopedNamespace [i] := by
    rw [hasAt_singleton hu, hline]
    decide
  constructor
  · intro h
    generalize hp : i :: p = place at h
    cases h with
    | @block q rest j encloses =>
      cases q with
      | nil => exact Or.inl ⟨rfl, hasAt_nil.mp encloses⟩
      | cons i' q =>
        obtain ⟨rfl, rfl⟩ := List.cons.inj hp
        exact Or.inr (Or.inr ⟨q, .block ((hasAt_cons hu _ _).mp encloses), rfl⟩)
    | @fileScoped r rest k j line behind upTo =>
      cases r with
      | nil =>
        obtain ⟨rfl, rfl⟩ := List.cons.inj hp
        exact Or.inr (Or.inl ⟨k, ⟨line, behind, fun l hl hli => upTo l hl (Nat.le_of_lt hli)⟩, rfl⟩)
      | cons i' r =>
        obtain ⟨rfl, rfl⟩ := List.cons.inj hp
        refine Or.inr (Or.inr ⟨r ++ [k], .fileScoped ((hasAt_cons hu _ _).mp line) behind ?_, rfl⟩)
        exact fun l hl hlj h => upTo l hl hlj ((hasAt_cons hu _ _).mpr h)
  · rintro (⟨rfl, h⟩ | ⟨k, h, rfl⟩ | ⟨q', h, rfl⟩)
    · exact .block (q := []) (hasAt_nil.mpr h)
    · refine .fileScoped (r := []) h.line h.behind fun l hl hli hlast => ?_
      rcases Nat.lt_or_eq_of_le hli with hli | rfl
      · exact h.upTo l hl hli hlast
      · exact hhere hlast
    · cases h with
      | @block q rest j encloses => exact .block (q := i :: q') ((hasAt_cons hu _ _).mpr encloses)
      | @fileScoped r rest k j line behind upTo =>
        refine .fileScoped (r := i :: r) ((hasAt_cons hu _ _).mpr line) behind ?_
        exact fun l hl hlj h => upTo l hl hlj ((hasAt_cons hu _ _).mp h)

/-- The places below the root whose namespaces govern a place, the outermost first. -/
structure GovernedBy (t : Tree) (p : List Nat) (qs : List (List Nat)) : Prop where
  sorted : qs.Pairwise Before
  mem_iff : ∀ q, q ∈ qs ↔ q ≠ [] ∧ t.Governs q p

section

variable {t u : Tree} {i : Nat} {line? : Option Nat}

/-- A child is governed by the last namespace without a block before it. -/
theorem governedBy_singleton (hu : t.children[i]? = some u)
    (hchild : u.isOf .fileScopedNamespace = false) (hline : ∀ k, line? = some k ↔ t.IsLast k i) :
    t.GovernedBy [i] (line?.toList.map ([·])) where
  sorted := by cases line? <;> simp
  mem_iff := by
    intro q
    rw [governs_cons hu hchild]
    constructor
    · intro hq
      obtain ⟨k, hk, rfl⟩ := List.mem_map.mp hq
      exact ⟨List.cons_ne_nil _ _,
        Or.inr (Or.inl ⟨k, (hline k).mp (Option.mem_toList.mp hk), rfl⟩)⟩
    · rintro ⟨hq, ⟨rfl, _⟩ | ⟨k, hk, rfl⟩ | ⟨q', hq', rfl⟩⟩
      · exact absurd rfl hq
      · exact List.mem_map_of_mem (Option.mem_toList.mpr ((hline k).mpr hk))
      · exact absurd hq' not_governs_nil_right

/-- A place in a child is governed by the last namespace without a block before the child, then by
the child, if that is a namespace, then by what governs the place in the child. -/
theorem GovernedBy.below {p : List Nat} {qs : List (List Nat)} (h : u.GovernedBy p qs)
    (hp : p ≠ []) (hu : t.children[i]? = some u) (hchild : u.isOf .fileScopedNamespace = false)
    (hline : ∀ k, line? = some k ↔ t.IsLast k i) :
    t.GovernedBy (i :: p) (line?.toList.map ([·]) ++
      ((if u.isOf .namespaceDeclaration then [[i]] else []) ++ qs.map (i :: ·))) where
  sorted := by
    have hbefore : ∀ k, line? = some k → ∀ q, Before [k] (i :: q) :=
      fun k hk q => .rel ((hline k).mp hk).behind
    have hinside : (qs.map (i :: ·)).Pairwise Before :=
      List.pairwise_map.mpr (h.sorted.imp List.Lex.cons)
    have hne : ∀ q ∈ qs, Before [i] (i :: q) := by
      intro q hq
      cases q with
      | nil => exact absurd rfl ((h.mem_iff []).mp hq).1
      | cons j q => exact .cons .nil
    refine List.pairwise_append.mpr ⟨by cases line? <;> simp, ?_, ?_⟩
    · split
      · simpa [hinside] using hne
      · exact hinside
    · intro a ha b hb
      obtain ⟨k, hk, rfl⟩ := List.mem_map.mp ha
      have hb' : ∃ q, b = i :: q := by
        rcases List.mem_append.mp hb with hb | hb
        · split at hb
          · exact ⟨[], List.mem_singleton.mp hb⟩
          · cases hb
        · obtain ⟨q, _, rfl⟩ := List.mem_map.mp hb
          exact ⟨q, rfl⟩
      obtain ⟨q, rfl⟩ := hb'
      exact hbefore k (Option.mem_toList.mp hk) q
  mem_iff := by
    intro q
    rw [governs_cons hu hchild, List.mem_append, List.mem_append]
    constructor
    · rintro (hq | hq | hq)
      · obtain ⟨k, hk, rfl⟩ := List.mem_map.mp hq
        exact ⟨List.cons_ne_nil _ _,
          Or.inr (Or.inl ⟨k, (hline k).mp (Option.mem_toList.mp hk), rfl⟩)⟩
      · split at hq
        · rename_i hnamespace
          rw [List.mem_singleton.mp hq]
          exact ⟨List.cons_ne_nil _ _,
            Or.inr (Or.inr ⟨[], (governs_nil_left hp).mpr hnamespace, rfl⟩)⟩
        · cases hq
      · obtain ⟨q', hq', rfl⟩ := List.mem_map.mp hq
        exact ⟨List.cons_ne_nil _ _, Or.inr (Or.inr ⟨q', ((h.mem_iff q').mp hq').2, rfl⟩)⟩
    · rintro ⟨hq, ⟨rfl, _⟩ | ⟨k, hk, rfl⟩ | ⟨q', hq', rfl⟩⟩
      · exact absurd rfl hq
      · exact Or.inl (List.mem_map_of_mem (Option.mem_toList.mpr ((hline k).mpr hk)))
      · cases q' with
        | nil =>
          rw [if_pos ((governs_nil_left hp).mp hq')]
          exact Or.inr (Or.inl (List.mem_singleton.mpr rfl))
        | cons j q' =>
          have hmem := (h.mem_iff _).mpr ⟨List.cons_ne_nil _ _, hq'⟩
          exact Or.inr (Or.inr (List.mem_map_of_mem hmem))

end

/-! ### Namespaces on the way of an outline -/

/-- The name of the namespace at a place. -/
def nameAt (t : Tree) (p : List Nat) : String := (t.at? p).elim "" namespaceName

theorem nameAt_cons {t u : Tree} {i : Nat} (hu : t.children[i]? = some u) (p : List Nat) :
    t.nameAt (i :: p) = u.nameAt p := by
  rw [nameAt, nameAt, at?_cons hu]

/-- The namespace that holds behind the last namespace without a block. -/
def namespaceBehind (t : Tree) (outer? : Option String) (line? : Option Nat) : Option String :=
  (line?.toList.map fun k => t.nameAt [k]).foldl qualify outer?

/-- The namespace that holds in a child. -/
def namespaceIn (current? : Option String) (u : Tree) : Option String :=
  if u.isOf .namespaceDeclaration then qualify current? u.namespaceName else current?

/-- A class declaration at a place, with the namespace around the tree and those in the tree that
govern the place. -/
structure Entered (t : Tree) (outer? : Option String) (p : List Nat)
    (entry : Option String × Tree) : Prop where
  declaration : t.at? p = some entry.2
  isClass : entry.2.isOf .classDeclaration = true
  way : ∀ q i rest, p = q ++ i :: rest → q ≠ [] → ∃ c, c.isOpen = true ∧ t.HasAt c q
  governed : ∃ qs, t.GovernedBy p qs ∧ entry.1 = (qs.map t.nameAt).foldl qualify outer?

section

variable {t : Tree} {i : Nat} {outer? : Option String} {line? : Option Nat}

/-- A class among the children. -/
theorem entered_singleton {cs : List Tree} (hu : t.children[i]? = some (node .classDeclaration cs))
    (hline : ∀ k, line? = some k ↔ t.IsLast k i) :
    t.Entered outer? [i] (t.namespaceBehind outer? line?, node .classDeclaration cs) where
  declaration := at?_cons hu []
  isClass := rfl
  way := by
    intro q j rest hp hq
    cases q with
    | nil => exact absurd rfl hq
    | cons k q => simp at hp
  governed := ⟨_, governedBy_singleton hu rfl hline, by simp [namespaceBehind, Function.comp_def]⟩

/-- A class in a child. -/
theorem Entered.below {c : Category} {cs : List Tree} {p : List Nat}
    {entry : Option String × Tree} (hu : t.children[i]? = some (node c cs))
    (hopen : c.isOpen = true) (hline : ∀ k, line? = some k ↔ t.IsLast k i) (hp : p ≠ [])
    (h : (node c cs).Entered (namespaceIn (t.namespaceBehind outer? line?) (node c cs)) p entry) :
    t.Entered outer? (i :: p) entry where
  declaration := (at?_cons hu p).trans h.declaration
  isClass := h.isClass
  way := by
    intro q j rest hp hq
    cases q with
    | nil => exact absurd rfl hq
    | cons k q =>
      obtain ⟨rfl, rfl⟩ := List.cons.inj hp
      cases q with
      | nil => exact ⟨c, hopen, (hasAt_singleton hu c).mpr (beq_self_eq_true c)⟩
      | cons k q =>
        obtain ⟨d, hd, hat⟩ := h.way (k :: q) j rest rfl (List.cons_ne_nil _ _)
        exact ⟨d, hd, (hasAt_cons hu _ _).mpr hat⟩
  governed := by
    obtain ⟨qs, hqs, hname⟩ := h.governed
    have hchild : (node c cs).isOf .fileScopedNamespace = false := by
      rw [isOf, beq_eq_false_iff_ne]
      rintro rfl
      cases hopen
    refine ⟨_, hqs.below hp hu hchild hline, ?_⟩
    have hinside : (qs.map (i :: ·)).map t.nameAt = qs.map (node c cs).nameAt := by
      rw [List.map_map]
      exact List.map_congr_left fun q _ => nameAt_cons hu q
    have hhere : t.nameAt [i] = (node c cs).namespaceName := nameAt_cons hu []
    rw [hname, List.map_append, List.map_append, List.foldl_append, List.foldl_append, hinside,
      namespaceIn, namespaceBehind, List.map_map]
    split <;> simp [hhere, Function.comp_def]

end

/-- What one child adds to an outline: itself, if it is a class, and what is in it, if it is
entered. -/
theorem classTrees_node (current? : Option String) (c : Category) (cs : List Tree) :
    classTrees current? (node c cs) =
      (if c = .classDeclaration then [(current?, node c cs)] else []) ++
        if c.isOpen then classTreesFrom (namespaceIn current? (node c cs))
          (namespaceIn current? (node c cs)) cs else [] := by
  by_cases hopen : c.isOpen = true
  · simp only [Category.isOpen, Bool.or_eq_true, beq_iff_eq] at hopen
    rcases hopen with (rfl | rfl) | rfl <;> rfl
  · have hclass : c ≠ .classDeclaration := by
      rintro rfl
      exact hopen rfl
    rw [if_neg hclass, if_neg hopen, List.append_nil]
    unfold classTrees
    split <;> first | exact absurd rfl hopen | rfl

/-- Classes one behind the other at places from the child `i` on. -/
structure Entries (t : Tree) (outer? : Option String) (i : Nat) (places : List (List Nat))
    (entries : List (Option String × Tree)) : Prop where
  sorted : places.Pairwise Before
  behind : ∀ p ∈ places, ∃ j rest, p = j :: rest ∧ i ≤ j
  entered : List.Forall₂ (t.Entered outer?) places entries

section

variable {t : Tree} {i : Nat} {outer? : Option String} {line? : Option Nat}

theorem Entries.nil : t.Entries outer? i [] [] :=
  ⟨.nil, fun _ hp => absurd hp List.not_mem_nil, .nil⟩

theorem Entries.of_succ {places : List (List Nat)} {entries : List (Option String × Tree)}
    (h : t.Entries outer? (i + 1) places entries) : t.Entries outer? i places entries where
  sorted := h.sorted
  behind := by
    intro p hp
    obtain ⟨j, rest, rfl, hj⟩ := h.behind p hp
    exact ⟨j, rest, rfl, by omega⟩
  entered := h.entered

theorem Entries.before {places : List (List Nat)} {entries : List (Option String × Tree)}
    (h : t.Entries outer? (i + 1) places entries) (rest : List Nat) :
    ∀ p ∈ places, Before (i :: rest) p := by
  intro p hp
  obtain ⟨j, rest', rfl, hj⟩ := h.behind p hp
  exact .rel hj

/-- The classes in a child stand before those of the children behind it. -/
theorem Entries.inside {c : Category} {cs : List Tree} {inside places : List (List Nat)}
    {entries entries' : List (Option String × Tree)} (hu : t.children[i]? = some (node c cs))
    (hopen : c.isOpen = true) (hline : ∀ k, line? = some k ↔ t.IsLast k i)
    (hinside : (node c cs).Entries (namespaceIn (t.namespaceBehind outer? line?) (node c cs)) 0
      inside entries') (h : t.Entries outer? (i + 1) places entries) :
    t.Entries outer? i (inside.map (i :: ·) ++ places) (entries' ++ entries) where
  sorted := by
    refine List.pairwise_append.mpr
      ⟨List.pairwise_map.mpr (hinside.sorted.imp List.Lex.cons), h.sorted, fun p hp q hq => ?_⟩
    obtain ⟨p', _, rfl⟩ := List.mem_map.mp hp
    exact h.before p' q hq
  behind := by
    intro p hp
    rcases List.mem_append.mp hp with hp | hp
    · obtain ⟨p', _, rfl⟩ := List.mem_map.mp hp
      exact ⟨i, p', rfl, Nat.le_refl i⟩
    · exact h.of_succ.behind p hp
  entered := by
    refine List.rel_append ?_ h.entered
    rw [List.forall₂_map_left_iff]
    refine List.forall₂_iff_zip.mpr ⟨hinside.entered.length_eq, fun {p entry} hmem => ?_⟩
    obtain ⟨j, rest, hp, _⟩ := hinside.behind p (List.of_mem_zip hmem).1
    exact (List.forall₂_iff_zip.mp hinside.entered).2 hmem |>.below hu hopen hline (by simp [hp])

/-- A class stands before those in it and those behind it. -/
theorem Entries.here {cs : List Tree} {places : List (List Nat)}
    {entries : List (Option String × Tree)}
    (hu : t.children[i]? = some (node .classDeclaration cs))
    (hline : ∀ k, line? = some k ↔ t.IsLast k i) (hplaces : ∀ p ∈ places, Before [i] p)
    (h : t.Entries outer? i places entries) : t.Entries outer? i ([i] :: places)
      ((t.namespaceBehind outer? line?, node .classDeclaration cs) :: entries) where
  sorted := List.pairwise_cons.mpr ⟨hplaces, h.sorted⟩
  behind := List.forall_mem_cons.mpr ⟨⟨i, [], rfl, Nat.le_refl i⟩, h.behind⟩
  entered := .cons (entered_singleton hu hline) h.entered

end

/-- **An outline has the classes of its neighbours in the namespaces that govern their places.** -/
theorem exists_entries (ts : List Tree) : ∀ {t : Tree} {before : List Tree}
    {outer? : Option String} {line? : Option Nat}, t.children = before ++ ts →
      (∀ k, line? = some k ↔ t.IsLast k before.length) →
      ∃ places, t.Entries outer? before.length places
        (classTreesFrom outer? (t.namespaceBehind outer? line?) ts) := by
  induction ts using forest_induction with
  | nil =>
    intro t before outer? line? _ _
    exact ⟨[], .nil⟩
  | leaf x ts ih =>
    intro t before outer? line? hchildren hline
    have hu : t.children[before.length]? = some (leaf x) := by simp [hchildren]
    obtain ⟨places, h⟩ := @ih t (before ++ [leaf x]) outer? line? (by simp [hchildren]) fun k => by
      rw [hline, List.length_append, List.length_singleton, isLast_succ hu]
      rfl
    rw [List.length_append, List.length_singleton] at h
    exact ⟨places, h.of_succ⟩
  | node c cs ts ihcs ihts =>
    intro t before outer? line? hchildren hline
    have hu : t.children[before.length]? = some (node c cs) := by simp [hchildren]
    have hlength : (before ++ [node c cs]).length = before.length + 1 := by simp
    have hchildren' : t.children = (before ++ [node c cs]) ++ ts := by simp [hchildren]
    by_cases hfile : c = .fileScopedNamespace
    · -- from here on another namespace without a block is the last
      subst hfile
      obtain ⟨places, h⟩ := @ihts t _ outer? (some before.length) hchildren' fun k => by
        simp [hlength, isLast_succ hu, isOf, eq_comm]
      have hname : t.nameAt [before.length] = namespaceName (node .fileScopedNamespace cs) :=
        nameAt_cons hu []
      rw [hlength, namespaceBehind, Option.toList_some, List.map_cons, hname] at h
      exact ⟨places, h.of_succ⟩
    · have hchild : (node c cs).isOf .fileScopedNamespace = false := by
        rwa [isOf, beq_eq_false_iff_ne]
      obtain ⟨places, h⟩ := @ihts t _ outer? line? hchildren' fun k => by
        rw [hline, hlength, isLast_succ hu, hchild]
        rfl
      rw [hlength] at h
      have hstep : classTreesFrom outer? (t.namespaceBehind outer? line?) (node c cs :: ts) =
          classTrees (t.namespaceBehind outer? line?) (node c cs) ++
            classTreesFrom outer? (t.namespaceBehind outer? line?) ts := by
        rw [classTreesFrom]
        rintro cs' heq
        cases heq
        exact hfile rfl
      rw [hstep, classTrees_node]
      by_cases hopen : c.isOpen = true
      · obtain ⟨inside, hinside⟩ := @ihcs (node c cs) []
          (namespaceIn (t.namespaceBehind outer? line?) (node c cs)) none rfl fun k =>
            ⟨fun h => absurd h (by simp), fun h => absurd h (not_isLast_zero _ k)⟩
        have hall := Entries.inside hu hopen hline hinside h
        rw [if_pos hopen]
        by_cases hclass : c = .classDeclaration
        · subst hclass
          refine ⟨_, hall.here hu hline fun p hp => ?_⟩
          rcases List.mem_append.mp hp with hp | hp
          · obtain ⟨p', hp', rfl⟩ := List.mem_map.mp hp
            obtain ⟨j, rest, rfl, _⟩ := hinside.behind p' hp'
            exact .cons .nil
          · exact h.before [] p hp
        · rw [if_neg hclass]
          exact ⟨_, hall⟩
      · have hclass : c ≠ .classDeclaration := by
          rintro rfl
          exact hopen rfl
        rw [if_neg hclass, if_neg hopen]
        exact ⟨places, h.of_succ⟩

end Tree

end TestScaffold.CSharp
