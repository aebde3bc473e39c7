/-
  TestScaffold/Proofs/CSharp/Neighbours.lean
  ==========================================
  **Which terminals may stand side by side.**

  `Behind a c rest` says that a category `c` may wait with `rest` right behind a
  token that is read as `a`.  The relation forgets everything else that has been
  read, so it allows more than any one text does; what it does not allow, no text
  has.

  A word that is spelled like a keyword is read as the keyword wherever the
  grammar could go on with it.  Where the keyword may not follow the token
  before, the word is a name.
-/
import TestScaffold.Proofs.CSharp.Derivation

namespace TestScaffold.CSharp

open Grammar

/-- A category, and what may be left of it while it is read. -/
def states : List (Category × List Part) :=
  Category.all.flatMap fun c => (rules c).flatMap fun rhs => (reach rhs).map (c, ·)

theorem mem_states {c : Category} {rhs rest : List Part} (hrule : rhs ∈ rules c)
    (hreach : rest ∈ reach rhs) : (c, rest) ∈ states :=
  List.mem_flatMap.mpr ⟨c, Category.mem_all c,
    List.mem_flatMap.mpr ⟨rhs, hrule, List.mem_map.mpr ⟨rest, hreach, rfl⟩⟩⟩

/-- How a token is read that a terminal asks for. -/
def Terminal.role : Terminal → Terminal
  | .joined m => .mark m
  | x => x

theorem Token.role_of_fits {t : Token} {x : Terminal} (h : t.fits x = true) : t.role = x.role := by
  cases x with
  | joined m =>
    simp only [Token.fits, Bool.and_eq_true, beq_iff_eq] at h
    exact h.1
  | _ =>
    simp only [Token.fits, beq_iff_eq] at h
    exact h

/-- A category may wait with some parts right behind a token read as `a`. -/
inductive Behind (a : Terminal) : Category → List Part → Prop where
  | token {c : Category} {x : Terminal} {rest way : List Part}
      (state : (c, .one (.token x) :: rest) ∈ states) (role : x.role = a)
      (go : way ∈ unfold rest) : Behind a c way
  | predict {c d : Category} {rest rhs way : List Part}
      (outer : Behind a c (.one (.category d) :: rest)) (rule : rhs ∈ rules d)
      (go : way ∈ unfold rhs) : Behind a d way
  | complete {c d : Category} {rest way : List Part} (inner : Behind a d [])
      (state : (c, .one (.category d) :: rest) ∈ states) (go : way ∈ unfold rest) : Behind a c way

/-- A token read as `x` may stand right behind one read as `a`, as far as the grammar knows from
    `a` alone. -/
def MayFollow (a x : Terminal) : Prop := ∃ c rest, Behind a c (.one (.token x) :: rest)

namespace Behind

/-! ### Deciding what may follow -/

/-- The states that a token read as `a` leads to at once. -/
def seeds (a : Terminal) : List (Category × List Part) :=
  states.flatMap fun (c, parts) =>
    match parts with
    | .one (.token x) :: rest => if x.role = a then (unfold rest).map (c, ·) else []
    | _ => []

/-- The states that a state leads to without another token. -/
def successors : Category × List Part → List (Category × List Part)
  | (_, .one (.category d) :: _) => (rules d).flatMap fun rhs => (unfold rhs).map (d, ·)
  | (d, []) => states.flatMap fun (c, parts) =>
      match parts with
      | .one (.category e) :: rest => if e = d then (unfold rest).map (c, ·) else []
      | _ => []
  | _ => []

/-- The states that some states lead to; `fuel` bounds how many are looked at. -/
def spread : Nat → List (Category × List Part) → List (Category × List Part) →
    List (Category × List Part)
  | 0, _, seen => seen
  | _ + 1, [], seen => seen
  | fuel + 1, s :: agenda, seen =>
    if s ∈ seen then spread fuel agenda seen
    else spread fuel (successors s ++ agenda) (s :: seen)

/-- Whether a set of states has all that a token read as `a` leads to. -/
def holds (a : Terminal) (set : List (Category × List Part)) : Bool :=
  (seeds a).all (· ∈ set) && set.all fun s => (successors s).all (· ∈ set)

theorem mem_of_holds {a : Terminal} {set : List (Category × List Part)}
    (hset : holds a set = true) {c : Category} {rest : List Part} (h : Behind a c rest) :
    (c, rest) ∈ set := by
  simp only [holds, Bool.and_eq_true, List.all_eq_true, decide_eq_true_eq] at hset
  obtain ⟨hseeds, hsuccessors⟩ := hset
  induction h with
  | @token c x rest way state role go =>
    refine hseeds _ (List.mem_flatMap.mpr ⟨_, state, ?_⟩)
    simp only [role, if_true]
    exact List.mem_map.mpr ⟨way, go, rfl⟩
  | @predict c d rest rhs way outer rule go ih =>
    refine hsuccessors _ ih _ (List.mem_flatMap.mpr ⟨rhs, rule, ?_⟩)
    exact List.mem_map.mpr ⟨way, go, rfl⟩
  | @complete c d rest way inner state go ih =>
    refine hsuccessors _ ih _ (List.mem_flatMap.mpr ⟨_, state, ?_⟩)
    simp only [if_true]
    exact List.mem_map.mpr ⟨way, go, rfl⟩

/-- The keywords that some states wait for. -/
def keywords (set : List (Category × List Part)) : List Keyword :=
  set.filterMap fun
    | (_, .one (.token (.keyword k)) :: _) => some k
    | _ => none

end Behind

/-- The keywords that may follow a token lie in any list that has those of the states that the
    token leads to. -/
theorem MayFollow.mem_of_holds {a : Terminal} {ks : List Keyword} {k : Keyword}
    (hset : (let set := Behind.spread 1000 (Behind.seeds a) []
      Behind.holds a set && (Behind.keywords set).all (· ∈ ks)) = true)
    (h : MayFollow a (.keyword k)) : k ∈ ks := by
  obtain ⟨c, rest, hbehind⟩ := h
  rw [Bool.and_eq_true, List.all_eq_true] at hset
  have hmem := Behind.mem_of_holds hset.1 hbehind
  refine of_decide_eq_true (hset.2 k (List.mem_filterMap.mpr ⟨_, hmem, rfl⟩))

/-- Words that are names as well wherever a name may stand. -/
def Keyword.contextual : List Keyword :=
  [.alias_, .ascending_, .by_, .descending_, .equals_, .file_, .from_, .global_, .group_, .into_,
    .join_, .let_, .notnull_, .on_, .orderby_, .scoped_, .select_, .unmanaged_, .var_, .when_,
    .where_, .yield_]

/-- Behind a point, only the two words that an explicit interface may go on with are read as
    keywords that are no names. -/
theorem mem_of_mayFollow_dot {k : Keyword} (h : MayFollow (.mark .dot) (.keyword k)) :
    k ∈ .this_ :: .operator_ :: Keyword.contextual :=
  h.mem_of_holds (by decide +kernel)

/-- The word before the name of a namespace leaves room for a name only. -/
theorem mem_of_mayFollow_namespace {k : Keyword}
    (h : MayFollow (.keyword .namespace_) (.keyword k)) : k ∈ Keyword.contextual :=
  h.mem_of_holds (by decide +kernel)

end TestScaffold.CSharp
