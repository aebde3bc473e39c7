/-
  TestScaffold/Proofs/CSharp/Nesting.lean
  =======================================
  **What stands outside of all brackets.**

  Whatever the grammar derives is balanced: the marks that open and those that
  close are paired inside of each right-hand side.  So the tokens of a phrase that
  stand outside of all its brackets come from the symbols of its rules that do.
  Which roles these tokens may have is computed from the grammar, given the roles
  that occur at all.
-/
import TestScaffold.Proofs.CSharp.Nodes

namespace TestScaffold.CSharp

open Grammar

/-- The marks that open a group, and those that close one. -/
structure Nest where
  opening : List Mark
  closing : List Mark

namespace Nest

/-- Brackets of all kinds but angle brackets, which are also signs. -/
def brackets : Nest :=
  ⟨[.openParen, .openBracket, .openBrace], [.closeParen, .closeBracket, .closeBrace]⟩

/-- No groups at all. -/
def flat : Nest := ⟨[], []⟩

def opens (n : Nest) : Terminal → Bool
  | .mark m => m ∈ n.opening
  | _ => false

def closes (n : Nest) : Terminal → Bool
  | .mark m => m ∈ n.closing
  | _ => false

/-- The number of open groups behind some tokens, given those open before them; none if more are
closed than are open. -/
def after (n : Nest) : Nat → List Terminal → Option Nat
  | d, [] => some d
  | d, x :: xs =>
    if n.opens x then n.after (d + 1) xs
    else if n.closes x then
      match d with
      | 0 => none
      | d + 1 => n.after d xs
    else n.after d xs

variable {n : Nest}

theorem after_append (d : Nat) (xs ys : List Terminal) :
    n.after d (xs ++ ys) = (n.after d xs).bind fun e => n.after e ys := by
  induction xs generalizing d with
  | nil => rfl
  | cons x xs ih =>
    simp only [List.cons_append, after]
    split
    · exact ih _
    · split
      · cases d with
        | zero => rfl
        | succ d => exact ih d
      · exact ih d

/-- More groups may be open around the tokens. -/
theorem after_add {d e : Nat} {xs : List Terminal} (h : n.after d xs = some e) (k : Nat) :
    n.after (d + k) xs = some (e + k) := by
  induction xs generalizing d with
  | nil =>
    cases h
    rfl
  | cons x xs ih =>
    simp only [after] at h ⊢
    split
    · rename_i hopen
      rw [if_pos hopen] at h
      rw [Nat.add_right_comm]
      exact ih h
    · rename_i hopen
      rw [if_neg hopen] at h
      split
      · rename_i hclose
        rw [if_pos hclose] at h
        cases d with
        | zero => cases h
        | succ d =>
          rw [Nat.add_right_comm]
          exact ih h
      · rename_i hclose
        rw [if_neg hclose] at h
        exact ih h

/-- The groups of the tokens are closed again. -/
def Balanced (n : Nest) (ts : List Token) : Prop := n.after 0 (ts.map Token.role) = some 0

namespace Balanced

variable {ts us : List Token}

theorem nil : n.Balanced [] := rfl

theorem append (h : n.Balanced ts) (h' : n.Balanced us) : n.Balanced (ts ++ us) := by
  unfold Balanced
  rw [List.map_append, after_append, h]
  exact h'

theorem flatten {tss : List (List Token)} (h : ∀ ts ∈ tss, n.Balanced ts) :
    n.Balanced tss.flatten := by
  induction tss with
  | nil => exact nil
  | cons ts tss ih =>
    obtain ⟨hts, htss⟩ := List.forall_mem_cons.mp h
    exact hts.append (ih htss)

/-- The group that a mark opens is closed by the first mark behind balanced tokens. -/
theorem eq_of_append_cons {ts' rest rest' : List Token} {t t' : Token} (h : n.Balanced ts)
    (h' : n.Balanced ts') (ht : n.closes t.role = true) (ht' : n.closes t'.role = true)
    (hopen : n.opens t.role = false) (hopen' : n.opens t'.role = false)
    (heq : ts ++ t :: rest = ts' ++ t' :: rest') : ts = ts' := by
  have hlonger : ∀ {ts ts' m : List Token} {t : Token}, n.Balanced ts → n.Balanced ts' →
      n.closes t.role = true → n.opens t.role = false → ts' ≠ ts ++ t :: m := by
    rintro ts ts' m t h h' ht hopen rfl
    unfold Balanced at h'
    rw [List.map_append, after_append, h] at h'
    simp [after, ht, hopen] at h'
  rcases List.append_eq_append_iff.mp heq with ⟨m, hm, hrest⟩ | ⟨m, hm, hrest⟩
  · cases m with
    | nil => simpa using hm.symm
    | cons u m =>
      obtain ⟨rfl, _⟩ := List.cons.inj hrest
      exact absurd hm (hlonger h h' ht hopen)
  · cases m with
    | nil => simpa using hm
    | cons u m =>
      obtain ⟨rfl, _⟩ := List.cons.inj hrest
      exact absurd hm (hlonger h' h ht' hopen')

end Balanced

/-- The tokens outside of all groups, given how many are open before them. The mark that opens a
group stands outside of it; the one that closes it does not. -/
def outer (n : Nest) : Nat → List Token → List Token
  | _, [] => []
  | d, t :: ts =>
    (if d = 0 then [t] else []) ++
      (match n.after d [t.role] with
        | some e => n.outer e ts
        | none => [])

theorem outer_append {d e : Nat} {ts : List Token} (us : List Token)
    (h : n.after d (ts.map Token.role) = some e) :
    n.outer d (ts ++ us) = n.outer d ts ++ n.outer e us := by
  induction ts generalizing d with
  | nil =>
    cases h
    rfl
  | cons t ts ih =>
    have hsplit : n.after d (t.role :: ts.map Token.role) =
        (n.after d [t.role]).bind fun e => n.after e (ts.map Token.role) :=
      after_append d [t.role] _
    rw [List.map_cons, hsplit] at h
    obtain ⟨f, hf, h⟩ := Option.bind_eq_some_iff.mp h
    simp only [List.cons_append, outer, hf, List.append_assoc]
    rw [ih h]

theorem Balanced.outer_append {ts : List Token} (h : n.Balanced ts) (us : List Token) :
    n.outer 0 (ts ++ us) = n.outer 0 ts ++ n.outer 0 us := Nest.outer_append us h

/-- Inside of a group, nothing of what is balanced stands outside. -/
theorem outer_succ {d e : Nat} {ts : List Token} (h : n.after d (ts.map Token.role) = some e) :
    n.outer (d + 1) ts = [] := by
  induction ts generalizing d with
  | nil => rfl
  | cons t ts ih =>
    have hsplit : n.after d (t.role :: ts.map Token.role) =
        (n.after d [t.role]).bind fun e => n.after e (ts.map Token.role) :=
      after_append d [t.role] _
    rw [List.map_cons, hsplit] at h
    obtain ⟨f, hf, h⟩ := Option.bind_eq_some_iff.mp h
    simp only [outer, after_add hf 1, ih h, if_neg (Nat.succ_ne_zero d), List.append_nil]

theorem outer_flat (ts : List Token) : flat.outer 0 ts = ts := by
  induction ts with
  | nil => rfl
  | cons t ts ih =>
    have hafter : flat.after 0 [t.role] = some 0 := by
      cases t.role <;> rfl
    simp only [outer, hafter, ih, if_true, List.singleton_append]

theorem mem_outer {ts : List Token} {t : Token} (h : t ∈ n.outer 0 ts) : t ∈ ts := by
  have hany : ∀ d, t ∈ n.outer d ts → t ∈ ts := by
    clear h
    induction ts with
    | nil => exact fun _ h => h
    | cons u ts ih =>
      intro d h
      rw [outer, List.mem_append] at h
      rcases h with h | h
      · split at h
        · exact List.mem_singleton.mp h ▸ List.mem_cons_self
        · cases h
      · split at h
        · exact List.mem_cons_of_mem _ (ih _ h)
        · cases h
  exact hany 0 h

/-- The group that a mark opens and another one closes again. -/
structure Group (n : Nest) (o : Token) (inner : List Token) (c : Token) : Prop where
  opens : n.opens o.role = true
  closes : n.closes c.role = true
  opensNot : n.opens c.role = false
  inner : n.Balanced inner

/-- Of a group just the mark that opens it stands outside. -/
theorem Group.outer {o c : Token} {inner : List Token} (h : n.Group o inner c)
    (rest : List Token) : n.outer 0 (o :: (inner ++ c :: rest)) = o :: n.outer 0 rest := by
  have hopen : n.after 0 [o.role] = some 1 := by simp [after, h.opens]
  have hinner : n.after 1 (inner.map Token.role) = some 1 := after_add h.inner 1
  have hclose : n.after 1 [c.role] = some 0 := by simp [after, h.closes, h.opensNot]
  simp only [Nest.outer, hopen, if_true, List.singleton_append]
  rw [outer_append _ hinner, outer_succ h.inner]
  simp [Nest.outer, hclose]

end Nest

/-! ### Right-hand sides -/

/-- The categories that lead on from some categories; `fuel` bounds how many are looked at. -/
def Category.spread (next : Category → List Category) :
    Nat → List Category → List Category → List Category
  | 0, _, seen => seen
  | _ + 1, [], seen => seen
  | fuel + 1, c :: agenda, seen =>
    if c ∈ seen then spread next fuel agenda seen
    else spread next fuel (next c ++ agenda) (c :: seen)

namespace Part

/-- The role of the token that a part stands for wherever it is. -/
def fixed : Part → Option Terminal
  | one (.token x) => some x.role
  | _ => none

/-- The symbols that a part is read as. -/
def symbols : Part → List Symbol
  | one s | opt s | many s => [s]
  | list s | anyList s | more s => [s, .token (.mark .comma)]

end Part

namespace Nest

variable {n : Nest}

/-- Whether a terminal neither opens nor closes a group. -/
def isNeutral (n : Nest) (x : Terminal) : Bool := !n.opens x && !n.closes x

/-- Whether a symbol stands for no mark that opens or closes a group. -/
def isNeutralSymbol (n : Nest) : Symbol → Bool
  | .token x => n.isNeutral x.role
  | .category _ => true

/-- A part that may be left out or repeated stands for no mark that opens or closes a group. -/
def isLoose (n : Nest) (part : Part) : Bool :=
  part.fixed.isSome || part.symbols.all n.isNeutralSymbol

/-- The number of open groups behind some parts. -/
def afterParts (n : Nest) (d : Nat) (parts : List Part) : Option Nat :=
  n.after d (parts.filterMap Part.fixed)

/-- What parts outside of all groups give. -/
def outside {α : Type} (n : Nest) (f : Part → List α) : Nat → List Part → List α
  | _, [] => []
  | d, part :: rest =>
    (if d = 0 then f part else []) ++
      (match n.after d part.fixed.toList with
        | some e => n.outside f e rest
        | none => [])

/-- The roles of the tokens that must stand outside of all groups. -/
def needs (n : Nest) (d : Nat) (parts : List Part) : List Terminal :=
  n.outside (fun part => part.fixed.toList) d parts

/-- The symbols outside of all groups. -/
def symbols (n : Nest) (d : Nat) (parts : List Part) : List Symbol :=
  n.outside Part.symbols d parts

theorem afterParts_cons (d : Nat) (part : Part) (rest : List Part) :
    n.afterParts d (part :: rest) =
      (n.after d part.fixed.toList).bind fun e => n.afterParts e rest := by
  unfold afterParts
  rw [← after_append, List.filterMap_cons]
  cases part.fixed <;> rfl

/-- Parts that leave the depth as it is. -/
def Flat (n : Nest) (part : Part) : Prop := ∀ d, n.after d part.fixed.toList = some d

theorem flat_of_fixed {part : Part} (h : part.fixed = none) : n.Flat part := by
  intro d
  rw [h]
  rfl

theorem flat_one {s : Symbol} (h : n.isNeutralSymbol s = true) : n.Flat (.one s) := by
  intro d
  cases s with
  | category c => rfl
  | token x =>
    simp only [isNeutralSymbol, isNeutral, Bool.and_eq_true, Bool.not_eq_true'] at h
    simp [Part.fixed, after, h.1, h.2]

theorem Flat.afterParts {part : Part} (h : n.Flat part) (d : Nat) (rest : List Part) :
    n.afterParts d (part :: rest) = n.afterParts d rest := by
  rw [afterParts_cons, h d]
  rfl

theorem Flat.outside {α : Type} {f : Part → List α} {part : Part} (h : n.Flat part) (d : Nat)
    (rest : List Part) :
    n.outside f d (part :: rest) = (if d = 0 then f part else []) ++ n.outside f d rest := by
  rw [Nest.outside, h d]

/-- One list of parts has all that another one has outside of all groups. -/
structure Covers (n : Nest) (parts way : List Part) : Prop where
  loose : ∀ part ∈ way, n.isLoose part = true
  after : ∀ d, n.afterParts d way = n.afterParts d parts
  symbols : ∀ d, n.symbols d way ⊆ n.symbols d parts
  needs : ∀ d, n.needs d parts ⊆ n.needs d way

namespace Covers

variable {part : Part} {rest way parts : List Part} {s : Symbol}

theorem refl (h : ∀ part ∈ parts, n.isLoose part = true) : n.Covers parts parts :=
  ⟨h, fun _ => rfl, fun _ => List.Subset.refl _, fun _ => List.Subset.refl _⟩

/-- A part that need not be there is left out. -/
theorem skip (h : n.Covers rest way) (hfixed : part.fixed = none) :
    n.Covers (part :: rest) way where
  loose := h.loose
  after d := by rw [h.after d, (flat_of_fixed hfixed).afterParts]
  symbols d := by
    refine List.Subset.trans (h.symbols d) ?_
    rw [Nest.symbols, Nest.symbols, (flat_of_fixed hfixed).outside]
    exact List.subset_append_right _ _
  needs d := by
    refine List.Subset.trans ?_ (h.needs d)
    rw [Nest.needs, Nest.needs, (flat_of_fixed hfixed).outside, hfixed]
    simp

/-- What may be read where a part stands. -/
structure Standing (n : Nest) (part p : Part) : Prop where
  loose : n.isLoose p = true
  flat : n.Flat p
  symbols : p.symbols ⊆ part.symbols

/-- Something is read where a part stands, before the rest. -/
theorem take (first : List Part) (hfixed : part.fixed = none)
    (hfirst : ∀ p ∈ first, Standing n part p) (hrest : ∀ p ∈ rest, n.isLoose p = true) :
    n.Covers (part :: rest) (first ++ rest) := by
  induction first with
  | nil => exact (refl hrest).skip hfixed
  | cons p first ih =>
    obtain ⟨hp, hfirst⟩ := List.forall_mem_cons.mp hfirst
    have hmore := ih hfirst
    refine ⟨List.forall_mem_cons.mpr ⟨hp.loose, hmore.loose⟩, fun d => ?_, fun d => ?_, fun d => ?_⟩
    · rw [List.cons_append, hp.flat.afterParts, hmore.after]
    · rw [Nest.symbols, List.cons_append, hp.flat.outside]
      refine List.append_subset.mpr ⟨?_, hmore.symbols d⟩
      rw [Nest.symbols, (flat_of_fixed hfixed).outside]
      split
      · exact List.Subset.trans hp.symbols (List.subset_append_left _ _)
      · exact List.nil_subset _
    · refine List.Subset.trans (hmore.needs d) ?_
      rw [Nest.needs, Nest.needs, List.cons_append, hp.flat.outside]
      exact List.subset_append_right _ _

/-- **A way to begin has nothing outside of groups that the parts have not.** -/
theorem of_mem_unfold (hloose : ∀ part ∈ parts, n.isLoose part = true)
    (hway : way ∈ unfold parts) : n.Covers parts way := by
  induction parts with
  | nil =>
    rw [List.mem_singleton.mp hway]
    exact refl hloose
  | cons part rest ih =>
    obtain ⟨hpart, hrest⟩ := List.forall_mem_cons.mp hloose
    have hone : ∀ {s : Symbol}, part.fixed = none → s ∈ part.symbols →
        Standing n part (.one s) := by
      intro s hfixed hs
      have hsymbols : part.symbols.all n.isNeutralSymbol = true := by
        simpa [isLoose, hfixed] using hpart
      have hneutral := List.all_eq_true.mp hsymbols s hs
      refine ⟨by simp [isLoose, Part.symbols, hneutral], flat_one hneutral, ?_⟩
      simpa [Part.symbols] using hs
    have hmore : ∀ {s : Symbol}, part.fixed = none → n.isLoose (.more s) = true →
        (Part.more s).symbols ⊆ part.symbols → Standing n part (.more s) :=
      fun _ hloose hsymbols => ⟨hloose, flat_of_fixed rfl, hsymbols⟩
    cases part with
    | one s =>
      rw [List.mem_singleton.mp hway]
      exact refl hloose
    | opt s =>
      rcases List.mem_cons.mp hway with rfl | hway
      · exact take [.one s] rfl (by simpa using hone rfl (by simp [Part.symbols])) hrest
      · exact (ih hrest hway).skip rfl
    | many s =>
      have hself : Standing n (.many s) (.many s) :=
        ⟨hpart, flat_of_fixed rfl, List.Subset.refl _⟩
      rcases List.mem_cons.mp hway with rfl | hway
      · exact take [.one s, .many s] rfl
          (by simpa using ⟨hone rfl (by simp [Part.symbols]), hself⟩) hrest
      · exact (ih hrest hway).skip rfl
    | list s =>
      rw [List.mem_singleton.mp hway]
      exact take [.one s, .more s] rfl
        (by simpa using ⟨hone rfl (by simp [Part.symbols]), hmore rfl hpart (List.Subset.refl _)⟩)
        hrest
    | anyList s =>
      rcases List.mem_cons.mp hway with rfl | hway
      · exact take [.one s, .more s] rfl
          (by simpa using ⟨hone rfl (by simp [Part.symbols]), hmore rfl hpart (List.Subset.refl _)⟩)
          hrest
      · exact (ih hrest hway).skip rfl
    | more s =>
      rcases List.mem_cons.mp hway with rfl | hway
      · exact take [.one (.token (.mark .comma)), .one s, .more s] rfl
          (by simpa using ⟨hone rfl (by simp [Part.symbols]), hone rfl (by simp [Part.symbols]),
            hmore rfl hpart (List.Subset.refl _)⟩) hrest
      · exact (ih hrest hway).skip rfl

end Covers

/-- The grammar pairs the marks of groups inside of each right-hand side. -/
def Fits (n : Nest) : Prop :=
  ∀ c, ∀ rhs ∈ rules c,
    (∀ part ∈ rhs, n.isLoose part = true) ∧ n.afterParts 0 rhs = some 0

theorem fits_of_all
    (h : (Category.all.all fun c => (rules c).all fun rhs =>
      rhs.all n.isLoose && n.afterParts 0 rhs == some 0) = true) : n.Fits := by
  intro c rhs hrule
  have hone := List.all_eq_true.mp (Category.of_all h c) rhs hrule
  rw [Bool.and_eq_true, beq_iff_eq, List.all_eq_true] at hone
  exact hone

theorem fits_brackets : brackets.Fits := fits_of_all (by decide)

theorem fits_flat : flat.Fits := fits_of_all (by decide)

end Nest

/-! ### Readings -/

namespace Reads

variable {n : Nest} {parts : List Part} {ts : List Token} {us : List Tree}

/-- **What is read leaves as many groups open as the parts do.** -/
theorem after (h : Reads parts ts us) (hn : n.Fits) (hloose : ∀ part ∈ parts, n.isLoose part = true)
    {d e : Nat} (hparts : n.afterParts d parts = some e) :
    n.after d (ts.map Token.role) = some e := by
  induction h generalizing d e with
  | done way =>
    rw [← (Nest.Covers.of_mem_unfold hloose way).after] at hparts
    exact hparts
  | token way fits tail ih =>
    have hcovers := Nest.Covers.of_mem_unfold hloose way
    rw [← hcovers.after, Nest.afterParts_cons] at hparts
    obtain ⟨f, hf, hrest⟩ := Option.bind_eq_some_iff.mp hparts
    have hmore := ih (fun p hp => hcovers.loose p (List.mem_cons_of_mem _ hp)) hrest
    rw [List.map_cons, Token.role_of_fits fits, ← List.singleton_append, Nest.after_append,
      show n.after d [_] = some f from hf]
    exact hmore
  | category way rule head tail ihHead ihTail =>
    have hcovers := Nest.Covers.of_mem_unfold hloose way
    obtain ⟨hlooseRule, hrule⟩ := hn _ _ rule
    rw [← hcovers.after, (Nest.flat_of_fixed rfl).afterParts] at hparts
    have hhead := Nest.after_add (ihHead hlooseRule hrule) d
    rw [Nat.zero_add] at hhead
    rw [List.map_append, Nest.after_append, hhead]
    exact ihTail (fun p hp => hcovers.loose p (List.mem_cons_of_mem _ hp)) hparts

/-- **What a category is read from is balanced.** -/
theorem balanced {c : Category} (h : Reads parts ts us) (hn : n.Fits) (hrule : parts ∈ rules c) :
    n.Balanced ts :=
  h.after hn (hn c parts hrule).1 (hn c parts hrule).2

/-- What must stand outside of all groups does. -/
theorem exists_outer (h : Reads parts ts us) (hn : n.Fits)
    (hloose : ∀ part ∈ parts, n.isLoose part = true) {d e : Nat}
    (hparts : n.afterParts d parts = some e) {x : Terminal} (hx : x ∈ n.needs d parts) :
    ∃ t ∈ n.outer d ts, t.role = x := by
  induction h generalizing d e with
  | done way =>
    have hmem := (Nest.Covers.of_mem_unfold hloose way).needs d hx
    cases hmem
  | @token parts rest y t ts us way fits tail ih =>
    have hcovers := Nest.Covers.of_mem_unfold hloose way
    rw [← hcovers.after, Nest.afterParts_cons] at hparts
    obtain ⟨f, hf, hrest⟩ := Option.bind_eq_some_iff.mp hparts
    have hmem := hcovers.needs d hx
    have hrole : n.after d [t.role] = some f := Token.role_of_fits fits ▸ hf
    simp only [Nest.needs, Nest.outside, hf, List.mem_append] at hmem
    simp only [Nest.outer, hrole, List.mem_append]
    rcases hmem with hmem | hmem
    · split at hmem
      · rename_i hd
        simp only [Part.fixed, Option.toList_some, List.mem_singleton] at hmem
        exact ⟨t, Or.inl (by simp [hd]), hmem ▸ Token.role_of_fits fits⟩
      · cases hmem
    · obtain ⟨u, hu, hrole⟩ := ih (fun p hp => hcovers.loose p (List.mem_cons_of_mem _ hp)) hrest hmem
      exact ⟨u, Or.inr hu, hrole⟩
  | @category parts rest rhs c ts ts' us us' way rule head tail _ ihTail =>
    have hcovers := Nest.Covers.of_mem_unfold hloose way
    rw [← hcovers.after, (Nest.flat_of_fixed rfl).afterParts] at hparts
    have hmem := hcovers.needs d hx
    rw [Nest.needs, (Nest.flat_of_fixed rfl).outside, List.mem_append] at hmem
    have hhead := Nest.after_add (head.balanced hn rule) d
    rw [Nat.zero_add] at hhead
    rw [Nest.outer_append ts' hhead]
    rcases hmem with hmem | hmem
    · simp [Part.fixed] at hmem
    · obtain ⟨u, hu, hrole⟩ := ihTail (fun p hp => hcovers.loose p (List.mem_cons_of_mem _ hp))
        hparts hmem
      exact ⟨u, List.mem_append_right _ hu, hrole⟩

end Reads

namespace Nest

/-- Whether a symbol stands for nothing outside of all groups but what is wanted, if each
terminal there is allowed and the categories are `set`. -/
def admits (allowed wanted : Terminal → Bool) (set : List Category) : Symbol → Bool
  | .token x => !allowed x.role || wanted x.role
  | .category c => c ∈ set

/-- Whether a right-hand side needs what is not allowed. -/
def isBarred (n : Nest) (allowed : Terminal → Bool) (rhs : List Part) : Bool :=
  (n.needs 0 rhs).any fun x => !allowed x

/-- The categories of some symbols. -/
def categories (symbols : List Symbol) : List Category :=
  symbols.filterMap fun
    | .category c => some c
    | .token _ => none

/-- The categories that a category names outside of all groups, in right-hand sides that are not
barred. -/
def next (n : Nest) (allowed : Terminal → Bool) (c : Category) : List Category :=
  (rules c).flatMap fun rhs => if n.isBarred allowed rhs then [] else categories (n.symbols 0 rhs)

/-- Whether parts have nothing outside of all groups but what is wanted, if each terminal there is
allowed. -/
def only (n : Nest) (allowed wanted : Terminal → Bool) (parts : List Part) : Bool :=
  let set := Category.spread (n.next allowed) 4000 (categories (n.symbols 0 parts)) []
  parts.all n.isLoose && n.afterParts 0 parts == some 0 &&
    (n.symbols 0 parts).all (admits allowed wanted set) && set.all fun c => (rules c).all fun rhs =>
      n.isBarred allowed rhs || (n.symbols 0 rhs).all (admits allowed wanted set)

end Nest

namespace Reads

variable {n : Nest} {parts : List Part} {ts : List Token} {us : List Tree}
  {allowed wanted : Terminal → Bool}

theorem outer_of_set {set : List Category} (h : Reads parts ts us) (hn : n.Fits)
    (hset : ∀ c ∈ set, ∀ rhs ∈ rules c, n.isBarred allowed rhs = true ∨
      ∀ s ∈ n.symbols 0 rhs, Nest.admits allowed wanted set s = true)
    (hloose : ∀ part ∈ parts, n.isLoose part = true) {d e : Nat}
    (hparts : n.afterParts d parts = some e)
    (hsymbols : ∀ s ∈ n.symbols d parts, Nest.admits allowed wanted set s = true)
    (hallowed : ∀ t ∈ n.outer d ts, allowed t.role = true) :
    ∀ t ∈ n.outer d ts, wanted t.role = true := by
  induction h generalizing d e with
  | done way => exact fun t ht => absurd ht List.not_mem_nil
  | @token parts rest y t ts us way fits tail ih =>
    have hcovers := Nest.Covers.of_mem_unfold hloose way
    rw [← hcovers.after, Nest.afterParts_cons] at hparts
    obtain ⟨f, hf, hrest⟩ := Option.bind_eq_some_iff.mp hparts
    have hrole : n.after d [t.role] = some f := Token.role_of_fits fits ▸ hf
    have hway : ∀ s ∈ n.symbols d (.one (.token y) :: rest),
        Nest.admits allowed wanted set s = true := fun s hs => hsymbols s (hcovers.symbols d hs)
    simp only [Nest.symbols, Nest.outside, hf, List.mem_append] at hway
    simp only [Nest.outer, hrole, List.mem_append] at hallowed ⊢
    rintro u (hu | hu)
    · split at hu
      · rename_i hd
        rw [List.mem_singleton.mp hu]
        have hadmits := hway (.token y) (Or.inl (by simp [hd, Part.symbols]))
        have hallows := hallowed t (Or.inl (by simp [hd]))
        rw [Token.role_of_fits fits] at hallows ⊢
        simpa [Nest.admits, hallows] using hadmits
      · cases hu
    · exact ih (fun p hp => hcovers.loose p (List.mem_cons_of_mem _ hp)) hrest
        (fun s hs => hway s (Or.inr hs)) (fun v hv => hallowed v (Or.inr hv)) u hu
  | @category parts rest rhs c ts ts' us us' way rule head tail ihHead ihTail =>
    have hcovers := Nest.Covers.of_mem_unfold hloose way
    obtain ⟨hlooseRule, hrule⟩ := hn _ _ rule
    have hhead := Nest.after_add (head.balanced hn rule) d
    rw [Nat.zero_add] at hhead
    rw [← hcovers.after, (Nest.flat_of_fixed rfl).afterParts] at hparts
    have hway : ∀ s ∈ n.symbols d (.one (.category c) :: rest),
        Nest.admits allowed wanted set s = true := fun s hs => hsymbols s (hcovers.symbols d hs)
    rw [Nest.symbols, (Nest.flat_of_fixed rfl).outside] at hway
    rw [Nest.outer_append ts' hhead] at hallowed ⊢
    intro t ht
    rcases List.mem_append.mp ht with ht | ht
    · cases d with
      | succ d =>
        -- inside of a group, nothing of the category stands outside
        have hinside := Nest.outer_succ (Nest.after_add (head.balanced hn rule) d)
        rw [Nat.zero_add] at hinside
        rw [hinside] at ht
        cases ht
      | zero =>
        have hc : c ∈ set := of_decide_eq_true (hway (.category c)
          (List.mem_append_left _ (by simp [Part.symbols])))
        have hsub : ∀ u ∈ n.outer 0 ts, allowed u.role = true := fun u hu =>
          hallowed u (List.mem_append_left _ hu)
        rcases hset c hc rhs rule with hbarred | hadmits
        · obtain ⟨x, hx, hfalse⟩ := List.any_eq_true.mp hbarred
          obtain ⟨u, hu, rfl⟩ := head.exists_outer hn hlooseRule hrule hx
          rw [hsub u hu] at hfalse
          cases hfalse
        · exact ihHead hlooseRule hrule hadmits hsub t ht
    · exact ihTail (fun p hp => hcovers.loose p (List.mem_cons_of_mem _ hp)) hparts
        (fun s hs => hway s (List.mem_append_right _ hs))
        (fun u hu => hallowed u (List.mem_append_right _ hu)) t ht

/-- **What is read has nothing outside of all groups but what is wanted**, as computed from the
grammar and the terminals that are allowed there. -/
theorem outer_only (h : Reads parts ts us) (hn : n.Fits)
    (honly : n.only allowed wanted parts = true)
    (hallowed : ∀ t ∈ n.outer 0 ts, allowed t.role = true) :
    n.Balanced ts ∧ ∀ t ∈ n.outer 0 ts, wanted t.role = true := by
  simp only [Nest.only, Bool.and_eq_true, List.all_eq_true, beq_iff_eq, Bool.or_eq_true] at honly
  obtain ⟨⟨⟨hloose, hparts⟩, hsymbols⟩, hset⟩ := honly
  exact ⟨h.after hn hloose hparts, h.outer_of_set hn hset hloose hparts hsymbols hallowed⟩

end Reads

end TestScaffold.CSharp
