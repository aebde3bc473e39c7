/-
  TestScaffold/Proofs/CSharp/Phrase.lean
  ======================================
  **Phrases: lists of tokens that a category can be read from.**

  A phrase is put together part by part along a right-hand side.  Blanks before
  the first token of a phrase do not matter, since no right-hand side begins with
  a mark that has to stand right behind the token before.
-/
import TestScaffold.Proofs.CSharp.Soundness

namespace TestScaffold.CSharp

open Grammar

/-- The tokens can be read as the parts. -/
def Parses (parts : List Part) (ts : List Token) : Prop := ∃ us, Reads parts ts us

/-- The tokens can be read as the category. -/
def Phrase (c : Category) (ts : List Token) : Prop := ∃ rhs ∈ rules c, Parses rhs ts

/-! ### Putting readings together -/

namespace Parses

variable {rest way : List Part} {s : Symbol} {ts us : List Token}

theorem nil : Parses [] [] := ⟨[], .nil⟩

theorem of_unfold {parts : List Part} (hway : way ∈ unfold parts) (h : Parses way ts) :
    Parses parts ts := by
  obtain ⟨trees, hreads⟩ := h
  exact ⟨trees, hreads.of_unfold hway⟩

theorem exists_unfold {parts : List Part} (h : Parses parts ts) :
    ∃ way ∈ unfold parts, Parses way ts := by
  obtain ⟨trees, hreads⟩ := h
  cases hreads with
  | done way => exact ⟨[], way, _, .done (List.mem_singleton.mpr rfl)⟩
  | token way fits tail => exact ⟨_, way, _, .token (List.mem_singleton.mpr rfl) fits tail⟩
  | category way rule head tail =>
    exact ⟨_, way, _, .category (List.mem_singleton.mpr rfl) rule head tail⟩

theorem token {x : Terminal} {t : Token} (hfits : t.fits x = true) (h : Parses rest ts) :
    Parses (.one (.token x) :: rest) (t :: ts) := by
  obtain ⟨trees, hreads⟩ := h
  exact ⟨_, .token (List.mem_singleton.mpr rfl) hfits hreads⟩

theorem category {c : Category} (hhead : Phrase c us) (h : Parses rest ts) :
    Parses (.one (.category c) :: rest) (us ++ ts) := by
  obtain ⟨rhs, hrule, trees, hhead⟩ := hhead
  obtain ⟨trees', hreads⟩ := h
  exact ⟨_, .category (List.mem_singleton.mpr rfl) hrule hhead hreads⟩

theorem last {c : Category} (h : Phrase c ts) : Parses [.one (.category c)] ts :=
  List.append_nil ts ▸ category h nil

theorem skip_opt (h : Parses rest ts) : Parses (.opt s :: rest) ts := by
  obtain ⟨way, hway, hreads⟩ := h.exists_unfold
  exact hreads.of_unfold (List.mem_cons_of_mem _ hway)

theorem take_opt (h : Parses (.one s :: rest) ts) : Parses (.opt s :: rest) ts :=
  h.of_unfold List.mem_cons_self

theorem skip_many (h : Parses rest ts) : Parses (.many s :: rest) ts := by
  obtain ⟨way, hway, hreads⟩ := h.exists_unfold
  exact hreads.of_unfold (List.mem_cons_of_mem _ hway)

theorem take_many (h : Parses (.one s :: .many s :: rest) ts) : Parses (.many s :: rest) ts :=
  h.of_unfold List.mem_cons_self

theorem skip_anyList (h : Parses rest ts) : Parses (.anyList s :: rest) ts := by
  obtain ⟨way, hway, hreads⟩ := h.exists_unfold
  exact hreads.of_unfold (List.mem_cons_of_mem _ hway)

theorem take_anyList (h : Parses (.one s :: .more s :: rest) ts) :
    Parses (.anyList s :: rest) ts :=
  h.of_unfold List.mem_cons_self

theorem take_list (h : Parses (.one s :: .more s :: rest) ts) : Parses (.list s :: rest) ts :=
  h.of_unfold (List.mem_singleton.mpr rfl)

theorem skip_more (h : Parses rest ts) : Parses (.more s :: rest) ts := by
  obtain ⟨way, hway, hreads⟩ := h.exists_unfold
  exact hreads.of_unfold (List.mem_cons_of_mem _ hway)

theorem take_more {t : Token} (hcomma : t.fits (.mark .comma) = true)
    (h : Parses (.one s :: .more s :: rest) ts) : Parses (.more s :: rest) (t :: ts) :=
  (token hcomma h).of_unfold List.mem_cons_self

/-- Phrases one behind the other. -/
theorem take_all {c : Category} {phrases : List (List Token)} (hphrases : ∀ p ∈ phrases, Phrase c p)
    (h : Parses rest ts) : Parses (.many (.category c) :: rest) (phrases.flatten ++ ts) := by
  induction phrases with
  | nil => exact skip_many h
  | cons p phrases ih =>
    rw [List.flatten_cons, List.append_assoc]
    exact take_many (category (hphrases p List.mem_cons_self)
      (ih fun q hq => hphrases q (List.mem_cons_of_mem _ hq)))

end Parses

namespace Phrase

theorem of_rule {c : Category} {r : List Part} {ts : List Token} (hrule : r ∈ rules c)
    (h : Parses r ts) : Phrase c ts := ⟨r, hrule, h⟩

/-- A category that another one may stand for. -/
theorem of_category {c d : Category} {ts : List Token} (hrule : [Grammar.c d] ∈ rules c)
    (h : Phrase d ts) : Phrase c ts :=
  ⟨_, hrule, .last h⟩

end Phrase

/-! ### Blanks before a phrase -/

namespace Token

/-- The token behind some blanks. -/
def behind (blanks : List Char) (t : Token) : Token :=
  { t with gap := if blanks = [] then [] else [.blank blanks] }

@[simp] theorem behind_lexeme (blanks : List Char) (t : Token) :
    (t.behind blanks).lexeme = t.lexeme := rfl

@[simp] theorem behind_role (blanks : List Char) (t : Token) : (t.behind blanks).role = t.role := rfl

/-- Tokens behind some blanks. -/
def allBehind (blanks : List Char) : List Token → List Token
  | [] => []
  | t :: ts => t.behind blanks :: ts

@[simp] theorem allBehind_cons (blanks : List Char) (t : Token) (ts : List Token) :
    allBehind blanks (t :: ts) = t.behind blanks :: ts := rfl

/-- Blanks before tokens leave their roles as they are. -/
theorem exists_of_mem_allBehind {blanks : List Char} {ts : List Token} {t : Token}
    (ht : t ∈ allBehind blanks ts) : ∃ u ∈ ts, t.role = u.role := by
  cases ts with
  | nil => cases ht
  | cons u us =>
    rcases List.mem_cons.mp ht with rfl | ht
    · exact ⟨u, List.mem_cons_self, rfl⟩
    · exact ⟨t, List.mem_cons_of_mem _ ht, rfl⟩

theorem allBehind_ne_nil {g : List Char} {ts : List Token} (h : ts ≠ []) :
    allBehind g ts ≠ [] := by
  cases ts with
  | nil => exact absurd rfl h
  | cons t ts => exact List.cons_ne_nil _ _

theorem fits_of_role {t : Token} {x : Terminal} (hx : ∀ m, x ≠ .joined m) :
    t.fits x = (t.role == x) := by
  cases x with
  | joined m => exact absurd rfl (hx m)
  | _ => rfl

end Token

/-- Whether parts begin with a mark right behind the token before. -/
def beginsJoined : List Part → Bool
  | .one (.token (.joined _)) :: _ => true
  | _ => false

/-- No right-hand side begins with a mark right behind the token before. -/
theorem not_joined_of_mem_unfold {c : Category} {rhs rest : List Part} {x : Terminal}
    (hrule : rhs ∈ rules c) (hway : .one (.token x) :: rest ∈ unfold rhs) (m : Mark) :
    x ≠ .joined m := by
  have h := Category.of_all (p := fun c => (rules c).all fun rhs => (unfold rhs).all fun way =>
    !beginsJoined way) (by decide) c
  rintro rfl
  have hfalse := List.all_eq_true.mp (List.all_eq_true.mp h rhs hrule) _ hway
  cases hfalse

/-- A category reads at least one token. -/
theorem Phrase.ne_nil {c : Category} {ts : List Token} (hc : c ≠ .compilationUnit)
    (h : Phrase c ts) : ts ≠ [] := by
  obtain ⟨rhs, hrule, us, hreads⟩ := h
  obtain ⟨xs, hder, hfits⟩ := hreads.derives
  have hne := hder.ne_nil (fun part hpart => symbol_ne_compilationUnit hrule hpart)
    ((rules_needed c).resolve_left hc rhs hrule)
  rintro rfl
  exact hne (List.forall₂_nil_left_iff.mp hfits)

/-- Another gap before the first token leaves a reading a reading. -/
theorem Reads.regap {t : Token} (t' : Token) (hrole : t'.role = t.role) {rhs : List Part}
    {all : List Token} {us : List Tree} (h : Reads rhs all us) :
    ∀ {c : Category} {ts : List Token}, rhs ∈ rules c → all = t :: ts →
      Parses rhs (t' :: ts) := by
  induction h with
  | done way =>
    intro c ts _ hall
    cases hall
  | @token parts rest x u us trees way fits tail ih =>
    intro c ts hrule hall
    cases hall
    have hx := not_joined_of_mem_unfold hrule way
    refine Parses.of_unfold way (Parses.token ?_ ⟨_, tail⟩)
    rw [Token.fits_of_role hx] at fits ⊢
    rwa [hrole]
  | @category parts rest rhs d us us' trees trees' way rule head tail ihHead ihTail =>
    intro c ts hrule hall
    have hinner : Inner parts := fun part hpart => symbol_ne_compilationUnit hrule hpart
    have hd : d ≠ .compilationUnit := fun e =>
      hinner.of_mem_unfold way _ List.mem_cons_self (by rw [e]; rfl)
    cases us with
    | nil => exact absurd rfl (Phrase.ne_nil hd ⟨rhs, rule, _, head⟩)
    | cons u us =>
      cases hall
      have hphrase : Phrase d (t' :: us) := ⟨rhs, rule, ihHead rule rfl⟩
      exact Parses.of_unfold way (Parses.category hphrase ⟨_, tail⟩)

/-- Blanks before a phrase leave it a phrase. -/
theorem Phrase.allBehind {c : Category} {ts : List Token} (h : Phrase c ts)
    (blanks : List Char) : Phrase c (Token.allBehind blanks ts) := by
  cases ts with
  | nil => exact h
  | cons t ts =>
    obtain ⟨rhs, hrule, us, hreads⟩ := h
    exact ⟨rhs, hrule, hreads.regap (t := t) (t.behind blanks) rfl hrule rfl⟩

/-! ### First tokens -/

/-- A category may begin with a terminal. -/
inductive Begins (x : Terminal) : Category → Prop where
  | token {c : Category} {rhs rest : List Part} (rule : rhs ∈ rules c)
      (way : .one (.token x) :: rest ∈ unfold rhs) : Begins x c
  | category {c d : Category} {rhs rest : List Part} (rule : rhs ∈ rules c)
      (way : .one (.category d) :: rest ∈ unfold rhs) (inner : Begins x d) : Begins x c

theorem Reads.begins {rhs : List Part} {all : List Token} {us : List Tree}
    (h : Reads rhs all us) : ∀ {c : Category} {t : Token} {ts : List Token}, rhs ∈ rules c →
      all = t :: ts → ∃ x, Begins x c ∧ t.role = x := by
  induction h with
  | done way =>
    intro c t ts _ hall
    cases hall
  | @token parts rest x u us trees way fits tail ih =>
    intro c t ts hrule hall
    cases hall
    refine ⟨x, .token hrule way, ?_⟩
    rw [Token.fits_of_role (not_joined_of_mem_unfold hrule way)] at fits
    exact beq_iff_eq.mp fits
  | @category parts rest rhs d us us' trees trees' way rule head tail ihHead ihTail =>
    intro c t ts hrule hall
    have hinner : Inner parts := fun part hpart => symbol_ne_compilationUnit hrule hpart
    have hd : d ≠ .compilationUnit := fun e =>
      hinner.of_mem_unfold way _ List.mem_cons_self (by rw [e]; rfl)
    cases us with
    | nil => exact absurd rfl (Phrase.ne_nil hd ⟨rhs, rule, _, head⟩)
    | cons u us =>
      cases hall
      obtain ⟨x, hbegins, hrole⟩ := ihHead rule rfl
      exact ⟨x, .category hrule way hbegins, hrole⟩

namespace Begins

/-- The categories that a category may begin with at once. -/
def corners (c : Category) : List Category :=
  (rules c).flatMap fun rhs => (unfold rhs).filterMap fun
    | .one (.category d) :: _ => some d
    | _ => none

/-- The terminals that a category may begin with at once. -/
def heads (c : Category) : List Terminal :=
  (rules c).flatMap fun rhs => (unfold rhs).filterMap fun
    | .one (.token x) :: _ => some x
    | _ => none

/-- The categories that some categories may begin with; `fuel` bounds how many are looked at. -/
def spread : Nat → List Category → List Category → List Category
  | 0, _, seen => seen
  | _ + 1, [], seen => seen
  | fuel + 1, c :: agenda, seen =>
    if c ∈ seen then spread fuel agenda seen else spread fuel (corners c ++ agenda) (c :: seen)

/-- Whether a category begins with some terminals only. -/
def only (c : Category) (xs : List Terminal) : Bool :=
  let set := spread 1000 [c] []
  decide (c ∈ set) && set.all fun d =>
    (corners d).all (· ∈ set) && (heads d).all (· ∈ xs)

theorem mem_of_only {c : Category} {x : Terminal} {xs : List Terminal} (h : Begins x c)
    (honly : only c xs = true) : x ∈ xs := by
  simp only [only, Bool.and_eq_true, decide_eq_true_eq, List.all_eq_true] at honly
  obtain ⟨hc, hset⟩ := honly
  generalize spread 1000 [c] [] = set at hc hset
  induction h with
  | @token c rhs rest rule way =>
    refine (hset c hc).2 x (List.mem_flatMap.mpr ⟨rhs, rule, ?_⟩)
    exact List.mem_filterMap.mpr ⟨_, way, rfl⟩
  | @category c d rhs rest rule way inner ih =>
    refine ih ((hset c hc).1 d (List.mem_flatMap.mpr ⟨rhs, rule, ?_⟩))
    exact List.mem_filterMap.mpr ⟨_, way, rfl⟩

end Begins

/-- A phrase begins with a token that its category may begin with. -/
theorem Phrase.role_mem {c : Category} {t : Token} {ts : List Token} (h : Phrase c (t :: ts))
    (xs : List Terminal) (honly : Begins.only c xs = true) : t.role ∈ xs := by
  obtain ⟨rhs, hrule, us, hreads⟩ := h
  obtain ⟨x, hbegins, rfl⟩ := hreads.begins hrule rfl
  exact hbegins.mem_of_only honly

end TestScaffold.CSharp
