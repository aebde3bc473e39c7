/-
  TestScaffold/Proofs/CSharp/Walking.lean
  =======================================
  **A walk with a stack goes through a tree in the order of the text.**

  One stack serves all levels of the tree.  A turn takes the tree on top, visits it,
  and pushes its children, the last of them first (`Tour.turn?`).  What the stack
  leads to is always the rest of the walk: the trees seen so far, followed by what is
  visited from the stack, make up one list that no turn changes, and each turn moves
  one tree from the second part to the first (`Tour.turns_of_le`).  Hence as many
  turns are taken as there are trees below the root, and whoever stops early has seen
  a front part of the same list.

  Equal trees may stand at several places, so that each is visited once is said of
  places.  The places of a walk are those below the root, each once, and in the order
  in which a place comes before those below it and before those to the right
  (`Tree.Before`).
-/
import TestScaffold.Proofs.CSharp.Places

namespace TestScaffold.CSharp

/-! ### Turns of a walk -/

/-- A walk under way: the trees visited so far, and the stack of trees still to come, its top
first. -/
structure Tour where
  seen : List Tree := []
  stack : List Tree

namespace Tour

/-- One turn: the tree on top is visited, and its children are pushed on what was below it, the
last of them first. With nothing on the stack there is no further turn. -/
def turn? : Tour → Option Tour
  | ⟨_, []⟩ => none
  | ⟨seen, t :: below⟩ => some ⟨seen ++ [t], t.children.foldr (fun u stack => u :: stack) below⟩

/-- A number of turns, if there are as many. -/
def turns : Nat → Tour → Option Tour
  | 0, tour => some tour
  | k + 1, tour => tour.turn?.bind (turns k)

theorem turn?_cons (seen : List Tree) (t : Tree) (below : List Tree) :
    turn? ⟨seen, t :: below⟩ = some ⟨seen ++ [t], t.children ++ below⟩ := by
  rw [turn?, List.foldr_cons_eq_append']

/-- **Turns move trees from what is left of the walk to what has been seen**, one at a time. -/
theorem turns_of_le (seen : List Tree) {stack : List Tree} {k : Nat}
    (h : k ≤ (Tree.visit stack).length) : ∃ rest,
      turns k ⟨seen, stack⟩ = some ⟨seen ++ (Tree.visit stack).take k, rest⟩ ∧
      Tree.visit rest = (Tree.visit stack).drop k := by
  induction k generalizing seen stack with
  | zero => exact ⟨stack, by rw [turns, List.take_zero, List.append_nil], rfl⟩
  | succ k ih =>
    cases stack with
    | nil =>
      rw [Tree.visit] at h
      exact absurd h (Nat.not_succ_le_zero k)
    | cons t below =>
      rw [Tree.visit, List.length_cons, Nat.add_le_add_iff_right] at h
      obtain ⟨rest, hturns, hrest⟩ := ih (seen ++ [t]) h
      refine ⟨rest, ?_, ?_⟩
      · rw [turns, turn?_cons, Option.bind_some, hturns, Tree.visit, List.take_succ_cons,
          List.append_assoc, List.singleton_append]
      · rw [hrest, Tree.visit, List.drop_succ_cons]

/-- There are no more turns than there are trees left. -/
theorem turns_of_lt {k : Nat} {seen stack : List Tree} (h : (Tree.visit stack).length < k) :
    turns k ⟨seen, stack⟩ = none := by
  induction k generalizing seen stack with
  | zero => exact absurd h (Nat.not_lt_zero _)
  | succ k ih =>
    cases stack with
    | nil => rfl
    | cons t below =>
      rw [Tree.visit, List.length_cons, Nat.add_lt_add_iff_right] at h
      rw [turns, turn?_cons, Option.bind_some, ih h]

end Tour

/-! ### Places of a walk -/

namespace Tree

/-- What holds of a list of trees follows from the children of the first one and from the rest. -/
theorem children_induction {P : List Tree → Prop} (nil : P [])
    (cons : ∀ t ts, P t.children → P ts → P (t :: ts)) (ts : List Tree) : P ts :=
  forest_induction nil (fun t ts ih => cons (.leaf t) ts nil ih)
    (fun c cs ts ihcs ihts => cons (.node c cs) ts ihcs ihts) ts

theorem preorderOfAll_cons (t : Tree) (ts : List Tree) :
    preorderOfAll (t :: ts) = t :: (preorderOfAll t.children ++ preorderOfAll ts) := by
  cases t <;> rfl

theorem visit_eq_nil_iff {stack : List Tree} : visit stack = [] ↔ stack = [] := by
  cases stack <;> simp [visit]

theorem length_preorderOfAll (ts : List Tree) : (preorderOfAll ts).length = sizeOfAll ts := by
  induction ts using children_induction with
  | nil => rfl
  | cons t ts ihcs ihts =>
    rw [preorderOfAll_cons, List.length_cons, List.length_append, ihcs, ihts, sizeOfAll,
      ← sizeOfAll_children]
    omega

mutual

/-- The trees properly below, each with its place. -/
def placed : Tree → List (List Nat × Tree)
  | leaf _ => []
  | node _ cs => placedFrom 0 cs

/-- Neighbours and the trees below them, each with its place, where the first of the neighbours
is the child with this number. -/
def placedFrom (i : Nat) : List Tree → List (List Nat × Tree)
  | [] => []
  | t :: ts => ([i], t) :: ((placed t).map fun (p, d) => (i :: p, d)) ++ placedFrom (i + 1) ts

end

theorem placedFrom_cons (i : Nat) (t : Tree) (ts : List Tree) :
    placedFrom i (t :: ts) = ([i], t) ::
      ((placedFrom 0 t.children).map (fun (p, d) => (i :: p, d)) ++ placedFrom (i + 1) ts) := by
  cases t <;> rfl

theorem map_snd_placedFrom (i : Nat) (ts : List Tree) :
    (placedFrom i ts).map Prod.snd = preorderOfAll ts := by
  induction ts using children_induction generalizing i with
  | nil => rfl
  | cons t ts ihcs ihts =>
    rw [placedFrom_cons, preorderOfAll_cons, List.map_cons, List.map_append, List.map_map, ← ihcs 0,
      ← ihts (i + 1)]
    rfl

/-- What stands below the children stands below the tree. -/
theorem exists_child_iff {t d : Tree} {p : List Nat} :
    (∃ j q u, p = (0 + j) :: q ∧ t.children[j]? = some u ∧ u.at? q = some d) ↔
      p ≠ [] ∧ t.at? p = some d := by
  simp only [Nat.zero_add]
  constructor
  · rintro ⟨j, q, u, rfl, hu, hd⟩
    exact ⟨List.cons_ne_nil j q, by rw [at?_cons hu, hd]⟩
  · rintro ⟨hp, hd⟩
    obtain ⟨j, q, rfl⟩ := List.exists_cons_of_ne_nil hp
    obtain ⟨u, hu, hd⟩ := Option.bind_eq_some_iff.mp hd
    exact ⟨j, q, u, rfl, hu, hd⟩

/-- **The trees with their places** are what stands at the places below the neighbours. -/
theorem mem_placedFrom_iff {i : Nat} {ts : List Tree} {p : List Nat} {d : Tree} :
    (p, d) ∈ placedFrom i ts ↔
      ∃ j q u, p = (i + j) :: q ∧ ts[j]? = some u ∧ u.at? q = some d := by
  induction ts using children_induction generalizing i p d with
  | nil => simp [placedFrom]
  | cons t ts ihcs ihts =>
    have hbelow : ∀ {q}, (q, d) ∈ placedFrom 0 t.children ↔ q ≠ [] ∧ t.at? q = some d :=
      ihcs.trans exists_child_iff
    rw [placedFrom_cons, List.mem_cons, List.mem_append, ihts]
    constructor
    · rintro (heq | hinside | ⟨j, q, u, rfl, hu, hd⟩)
      · obtain ⟨rfl, rfl⟩ := Prod.mk.inj heq
        exact ⟨0, [], d, rfl, rfl, rfl⟩
      · obtain ⟨⟨q, d'⟩, hmem, heq⟩ := List.mem_map.mp hinside
        obtain ⟨rfl, rfl⟩ := Prod.mk.inj heq
        exact ⟨0, q, t, rfl, rfl, (hbelow.mp hmem).2⟩
      · exact ⟨j + 1, q, u, by rw [Nat.add_right_comm, Nat.add_assoc], hu, hd⟩
    · rintro ⟨j, q, u, rfl, hu, hd⟩
      rcases j with _ | j
      · -- the first of the neighbours, or a tree below it
        cases hu
        by_cases hq : q = []
        · subst hq
          cases hd
          exact Or.inl rfl
        · exact Or.inr (Or.inl (List.mem_map.mpr ⟨(q, d), hbelow.mpr ⟨hq, hd⟩, rfl⟩))
      · exact Or.inr (Or.inr ⟨j, q, u, by rw [Nat.add_right_comm, Nat.add_assoc], hu, hd⟩)

/-- **The places come in their order.** -/
theorem pairwise_placedFrom (i : Nat) (ts : List Tree) :
    (placedFrom i ts).Pairwise fun v w => Before v.1 w.1 := by
  induction ts using children_induction generalizing i with
  | nil => exact List.Pairwise.nil
  | cons t ts ihcs ihts =>
    rw [placedFrom_cons, List.pairwise_cons, List.pairwise_append, List.pairwise_map]
    have hright : ∀ p, ∀ w ∈ placedFrom (i + 1) ts, Before (i :: p) w.1 := by
      rintro p ⟨p', d⟩ hw
      obtain ⟨j, q, u, rfl, _⟩ := mem_placedFrom_iff.mp hw
      exact .rel (by omega)
    refine ⟨?_, (ihcs 0).imp .cons, ihts (i + 1), ?_⟩
    · intro w hw
      rcases List.mem_append.mp hw with hw | hw
      · obtain ⟨⟨p, d⟩, hmem, rfl⟩ := List.mem_map.mp hw
        obtain ⟨j, q, u, rfl, _⟩ := mem_placedFrom_iff.mp hmem
        exact .cons .nil
      · exact hright [] w hw
    · intro v hv w hw
      obtain ⟨⟨p, d⟩, _, rfl⟩ := List.mem_map.mp hv
      exact hright p w hw

theorem before_irrefl (p : List Nat) : ¬ Before p p :=
  List.lex_irrefl (fun i => Nat.lt_irrefl i) p

/-! ### Walks -/

/-- **A walk with a stack comes to the recursion**, which has each tree in front of its children and
these from left to right. The walk ends after as many turns as there are trees below the root, and
after fewer turns it has seen as many trees, the first ones of the recursion. It is at every place
below the root, at each just once, and in the order of the places. On this walk the using
directives, the first namespace and the first class of a file are looked for. -/
theorem walk_traverses (t : Tree) :
    t.walk = t.preorder ∧ t.walk.length + 1 = t.size ∧
      (∀ k ≤ t.walk.length, ∃ stack,
        Tour.turns k ⟨[], t.children⟩ = some ⟨t.preorder.take k, stack⟩ ∧
          (stack = [] ↔ k = t.walk.length)) ∧
      (∀ k > t.walk.length, Tour.turns k ⟨[], t.children⟩ = none) ∧
      ∃ visits : List (List Nat × Tree), visits.map Prod.snd = t.walk ∧
        (visits.map Prod.fst).Pairwise Before ∧ (visits.map Prod.fst).Nodup ∧
        ∀ p d, (p, d) ∈ visits ↔ p ≠ [] ∧ t.at? p = some d := by
  have hsize : t.walk.length + 1 = t.size := by
    rw [walk, visit_eq, length_preorderOfAll, sizeOfAll_children]
  have hsorted : ((placedFrom 0 t.children).map Prod.fst).Pairwise Before :=
    List.pairwise_map.mpr (pairwise_placedFrom 0 t.children)
  refine ⟨walk_eq t, hsize, ?_, ?_, placedFrom 0 t.children, ?_, hsorted, ?_, ?_⟩
  · intro k hk
    obtain ⟨stack, hturns, hstack⟩ := Tour.turns_of_le [] hk
    refine ⟨stack, ?_, ?_⟩
    · rw [hturns, List.nil_append, ← walk_eq, walk]
    · rw [← visit_eq_nil_iff, hstack, List.drop_eq_nil_iff]
      exact ⟨fun hle => Nat.le_antisymm hk hle, fun heq => Nat.le_of_eq heq.symm⟩
  · intro k hk
    exact Tour.turns_of_lt hk
  · rw [map_snd_placedFrom, walk, visit_eq]
  · apply hsorted.imp
    rintro p q hbefore rfl
    exact before_irrefl p hbefore
  · intro p d
    exact mem_placedFrom_iff.trans exists_child_iff

end Tree

end TestScaffold.CSharp
