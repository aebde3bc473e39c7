/-
  TestScaffold/Proofs/Text/Blanks.lean
  ====================================
  **Blanks in texts.**

  There are finitely many blanks, so that a class of characters is checked to have
  none of them.

  A text may have other blanks than single spaces between its words.  Squeezing
  replaces these (`neat_squeeze`) and leaves a text alone that has none of them
  (`Neat.squeeze`).
-/
import Mathlib.Data.List.Chain
import Mathlib.Data.List.TakeWhile
import TestScaffold.Proofs.Text.Pieces

namespace TestScaffold.Text

/-! ### Characters -/

/-- The numbers in runs, one by one. -/
def runCodes : List Nat → List Nat
  | a :: b :: rest => List.range' a (b - a) ++ runCodes rest
  | _ => []

theorem mem_runCodes {runs : List Nat} {n : Nat} (h : inRuns runs n = true) : n ∈ runCodes runs := by
  induction runs using runCodes.induct with
  | case1 a b rest ih =>
    rw [inRuns] at h
    rw [runCodes, List.mem_append, List.mem_range'_1]
    split at h
    · cases h
    · split at h
      · exact Or.inl (by omega)
      · exact Or.inr (ih h)
  | case2 runs hshort =>
    rw [inRuns] at h
    · cases h
    · exact hshort

/-- The blanks of a text, one by one. -/
def blankCodes : List Nat := List.range' 9 5 ++ List.range' 28 5 ++ runCodes blankRuns

theorem mem_blankCodes {c : Char} (h : isBlank c = true) : c.toNat ∈ blankCodes := by
  simp only [isBlank] at h
  rw [blankCodes, List.mem_append, List.mem_append, List.mem_range'_1, List.mem_range'_1]
  split at h
  · simp only [Bool.or_eq_true, Bool.and_eq_true, decide_eq_true_eq] at h
    omega
  · exact Or.inr (mem_runCodes h)

/-- What holds of no blank holds of other characters only. -/
theorem not_isBlank_of {p : Char → Bool} (hp : ∀ n ∈ blankCodes, p (Char.ofNat n) = false) {c : Char}
    (h : p c = true) : isBlank c = false := by
  cases hblank : isBlank c with
  | false => rfl
  | true =>
    have hc := hp _ (mem_blankCodes hblank)
    rw [Char.ofNat_toNat, h] at hc
    cases hc

theorem not_isBlank_of_isIdentifierStart {c : Char} (h : isIdentifierStart c = true) :
    isBlank c = false :=
  not_isBlank_of (by decide +kernel) h

theorem not_isBlank_of_isIdentifierPart {c : Char} (h : isIdentifierPart c = true) :
    isBlank c = false :=
  not_isBlank_of (by decide +kernel) h

/-! ### Single spaces -/

/-- Characters whose blanks are single spaces. -/
structure Sparse (cs : List Char) : Prop where
  space : ∀ c ∈ cs, isBlank c = true → c = ' '
  chain : cs.IsChain fun a b => isBlank a = false ∨ isBlank b = false

/-- Characters whose blanks are single spaces between others. -/
structure Neat (cs : List Char) : Prop extends Sparse cs where
  head : ∀ c ∈ cs.head?, isBlank c = false
  last : ∀ c ∈ cs.getLast?, isBlank c = false

theorem not_isBlank_of_all {cs : List Char} (h : cs.all (fun c => !isBlank c) = true) :
    ∀ c ∈ cs, isBlank c = false := by
  simpa using h

theorem Sparse.of_infix {cs ds : List Char} (h : Sparse cs) (hds : ds <:+: cs) : Sparse ds :=
  ⟨fun c hc => h.space c (hds.subset hc), h.chain.infix hds⟩

namespace Neat

variable {cs ds : List Char}

theorem nil : Neat [] := ⟨⟨by simp, .nil⟩, by simp, by simp⟩

/-- A word without blanks. -/
theorem word (h : ∀ c ∈ cs, isBlank c = false) : Neat cs where
  space c hc hblank := by rw [h c hc] at hblank; cases hblank
  chain := by
    induction cs with
    | nil => exact .nil
    | cons c cs ih =>
      refine List.isChain_cons.mpr ⟨fun d _ => Or.inl (h c List.mem_cons_self), ?_⟩
      exact ih fun d hd => h d (List.mem_cons_of_mem _ hd)
  head c hc := h c (List.mem_of_mem_head? hc)
  last c hc := h c (List.mem_of_mem_getLast? hc)

/-- Characters that are neat stay so side by side. -/
theorem append (h : Neat cs) (h' : Neat ds) : Neat (cs ++ ds) where
  space c hc := (List.mem_append.mp hc).elim (h.space c) (h'.space c)
  chain := List.isChain_append.mpr ⟨h.chain, h'.chain, fun a ha _ _ => Or.inl (h.last a ha)⟩
  head c hc := by
    rw [List.head?_append] at hc
    cases hhead : cs.head? with
    | none => exact h'.head c (by simpa [hhead] using hc)
    | some d => exact h.head c (by simpa [hhead] using hc)
  last c hc := by
    rw [List.getLast?_append] at hc
    cases hlast : ds.getLast? with
    | none => exact h.last c (by simpa [hlast] using hc)
    | some d => exact h'.last c (by simpa [hlast] using hc)

/-- A space may stand between them. -/
theorem append_space (h : Neat cs) (h' : Neat ds) (hcs : cs ≠ []) (hds : ds ≠ []) :
    Neat (cs ++ ' ' :: ds) where
  space c hc hblank := by
    rcases List.mem_append.mp hc with hc | hc
    · exact h.space c hc hblank
    · exact (List.mem_cons.mp hc).elim id fun hc => h'.space c hc hblank
  chain := by
    refine List.isChain_append.mpr ⟨h.chain, List.isChain_cons.mpr ⟨fun d hd => ?_, h'.chain⟩, ?_⟩
    · exact Or.inr (h'.head d hd)
    · exact fun a ha _ _ => Or.inl (h.last a ha)
  head c hc := by
    rw [List.head?_append_of_ne_nil _ hcs] at hc
    exact h.head c hc
  last c hc := by
    rw [List.getLast?_append_of_ne_nil _ (List.cons_ne_nil _ _)] at hc
    obtain ⟨d, ds, rfl⟩ := List.exists_cons_of_ne_nil hds
    exact h'.last c (by simpa using hc)

end Neat

/-! ### Trimming -/

theorem head_dropWhile (cs : List Char) :
    ∀ c ∈ (cs.dropWhile isBlank).head?, isBlank c = false := by
  intro c hc
  have h := List.head?_dropWhile_not isBlank cs
  rw [Option.mem_def.mp hc] at h
  exact h

theorem trimChars_isPrefix (cs : List Char) : trimChars cs <+: cs.dropWhile isBlank := by
  have h := List.reverse_prefix.mpr
    (List.dropWhile_suffix isBlank (l := (cs.dropWhile isBlank).reverse))
  rwa [List.reverse_reverse] at h

theorem trimChars_isInfix (cs : List Char) : trimChars cs <:+: cs :=
  (trimChars_isPrefix cs).isInfix.trans (List.dropWhile_suffix _).isInfix

theorem dropWhile_blanks {bs : List Char} (h : ∀ c ∈ bs, isBlank c = true) (cs : List Char) :
    (bs ++ cs).dropWhile isBlank = cs.dropWhile isBlank := by
  rw [List.dropWhile_append, List.dropWhile_eq_nil_iff.mpr h]
  rfl

/-- Nothing is left of blanks alone. -/
theorem trimChars_eq_nil_iff {cs : List Char} : trimChars cs = [] ↔ ∀ c ∈ cs, isBlank c = true := by
  rw [trimChars, List.reverse_eq_nil_iff, List.dropWhile_eq_nil_iff]
  constructor
  · intro h
    rw [← List.takeWhile_append_dropWhile (p := isBlank) (l := cs)]
    refine List.forall_mem_append.mpr ⟨fun c hc => List.mem_takeWhile_imp hc, fun c hc => ?_⟩
    exact h c (List.mem_reverse.mpr hc)
  · intro h c hc
    exact h c ((List.dropWhile_suffix isBlank).subset (List.mem_reverse.mp hc))

/-- Blanks at the ends are gone when the rest is trimmed. -/
theorem trimChars_pad {bs bs' : List Char} (h : ∀ c ∈ bs, isBlank c = true)
    (h' : ∀ c ∈ bs', isBlank c = true) (cs : List Char) :
    trimChars (bs ++ cs ++ bs') = trimChars cs := by
  rw [trimChars, List.append_assoc, dropWhile_blanks h, List.dropWhile_append]
  split
  · rename_i hblank
    rw [List.dropWhile_eq_nil_iff.mpr h', trimChars, List.isEmpty_iff.mp hblank]
  · rw [List.reverse_append, dropWhile_blanks (by simpa using h'), trimChars]

/-- Trimmed characters are neat where those that were there are sparse. -/
theorem Sparse.trim {cs : List Char} (h : Sparse cs) : Neat (trimChars cs) where
  toSparse := h.of_infix (trimChars_isInfix cs)
  head c hc := by
    obtain ⟨rest, hrest⟩ := trimChars_isPrefix cs
    refine head_dropWhile cs c ?_
    rw [← hrest, List.head?_append, Option.mem_def.mp hc]
    rfl
  last c hc := by
    rw [trimChars, List.getLast?_reverse] at hc
    exact head_dropWhile _ c hc

namespace Neat

variable {cs : List Char}

theorem trim (h : Neat cs) : trimChars cs = cs := trimChars_of_ends h.head h.last

theorem trim_space_cons (h : Neat cs) : trimChars (' ' :: cs) = cs := h.trim

theorem trim_append_space (h : Neat cs) : trimChars (cs ++ [' ']) = cs := by
  by_cases hcs : cs = []
  · subst hcs
    decide
  · have hhead : ∀ c ∈ (cs ++ [' ']).head?, isBlank c = false := by
      rw [List.head?_append_of_ne_nil _ hcs]
      exact h.head
    have hlast : ∀ c ∈ cs.reverse.head?, isBlank c = false := by
      rw [List.head?_reverse]
      exact h.last
    rw [trimChars, dropWhile_of_head hhead, List.reverse_append, List.reverse_singleton,
      List.singleton_append, List.dropWhile_cons_of_pos (by decide), dropWhile_of_head hlast,
      List.reverse_reverse]

end Neat

/-! ### Squeezing -/

theorem joinWords_cons {w : List Char} {ws : List (List Char)} (h : ws ≠ []) :
    joinWords (w :: ws) = w ++ ' ' :: joinWords ws := by
  cases ws with
  | nil => exact absurd rfl h
  | cons v ws => rfl

/-- Words have characters, and no blanks. -/
theorem mem_runsFrom {w cs : List Char} (hw : ∀ c ∈ w, isBlank c = false) :
    ∀ v ∈ runsFrom isBlank w cs, v ≠ [] ∧ ∀ c ∈ v, isBlank c = false := by
  induction cs generalizing w with
  | nil =>
    intro v hv
    unfold runsFrom at hv
    split at hv
    · cases hv
    · rename_i hne
      rw [List.mem_singleton.mp hv]
      exact ⟨by simpa using hne, by simpa using hw⟩
  | cons c cs ih =>
    intro v hv
    unfold runsFrom at hv
    split at hv
    · split at hv
      · exact ih (fun c hc => absurd hc List.not_mem_nil) v hv
      · rename_i hne
        rcases List.mem_cons.mp hv with rfl | hv
        · exact ⟨by simpa using hne, by simpa using hw⟩
        · exact ih (fun c hc => absurd hc List.not_mem_nil) v hv
    · rename_i hblank
      exact ih (List.forall_mem_cons.mpr ⟨by simpa using hblank, hw⟩) v hv

theorem neat_joinWords {ws : List (List Char)}
    (h : ∀ w ∈ ws, w ≠ [] ∧ ∀ c ∈ w, isBlank c = false) :
    Neat (joinWords ws) ∧ (ws ≠ [] → joinWords ws ≠ []) := by
  induction ws with
  | nil => exact ⟨.nil, fun hne => absurd rfl hne⟩
  | cons w ws ih =>
    obtain ⟨⟨hne, hw⟩, hws⟩ := List.forall_mem_cons.mp h
    obtain ⟨hneat, hmore⟩ := ih hws
    cases hcase : ws with
    | nil => exact ⟨.word hw, fun _ => hne⟩
    | cons v vs =>
      have hwsne : ws ≠ [] := by simp [hcase]
      rw [← hcase, joinWords_cons hwsne]
      exact ⟨(Neat.word hw).append_space hneat hne (hmore hwsne), fun _ => by simp⟩

/-- A squeezed text has no blanks but single spaces between others. -/
theorem neat_squeeze (s : String) : Neat (squeeze s).toList := by
  rw [squeeze, String.toList_ofList]
  exact (neat_joinWords (mem_runsFrom fun c hc => absurd hc List.not_mem_nil)).1

theorem joinWords_runsFrom {w cs : List Char} (h : Sparse cs)
    (hhead : w = [] → ∀ c ∈ cs.head?, isBlank c = false)
    (hlast : ∀ c ∈ cs.getLast?, isBlank c = false) :
    joinWords (runsFrom isBlank w cs) = w.reverse ++ cs ∧
      (w ≠ [] ∨ cs ≠ [] → runsFrom isBlank w cs ≠ []) := by
  induction cs generalizing w with
  | nil =>
    cases w with
    | nil => exact ⟨rfl, by simp⟩
    | cons c w => exact ⟨by simp [runsFrom, joinWords], by simp [runsFrom]⟩
  | cons c cs ih =>
    have hrest : Sparse cs := h.of_infix (List.suffix_cons c cs).isInfix
    have hlast' : ∀ d ∈ cs.getLast?, isBlank d = false := fun d hd => hlast d (by
      cases cs with
      | nil => cases hd
      | cons e cs => simpa using hd)
    cases hblank : isBlank c with
    | true =>
      -- a blank stands behind a word and before another one
      have hw : w ≠ [] := fun hw => by
        have := hhead hw c rfl
        rw [hblank] at this
        cases this
      have hcs : cs ≠ [] := by
        rintro rfl
        have := hlast c rfl
        rw [hblank] at this
        cases this
      obtain ⟨hjoin, hne⟩ := ih (w := []) hrest (fun _ d hd => by
        simpa [hblank] using (List.isChain_cons.mp h.chain).1 d hd) hlast'
      have hruns : runsFrom isBlank w (c :: cs) = w.reverse :: runsFrom isBlank [] cs := by
        simp [runsFrom, hblank, hw]
      rw [hruns, joinWords_cons (hne (Or.inr hcs)), hjoin,
        h.space c List.mem_cons_self hblank]
      exact ⟨rfl, fun _ => List.cons_ne_nil _ _⟩
    | false =>
      have hruns : runsFrom isBlank w (c :: cs) = runsFrom isBlank (c :: w) cs := by
        simp [runsFrom, hblank]
      obtain ⟨hjoin, hne⟩ := ih (w := c :: w) hrest (fun hw => absurd hw (List.cons_ne_nil _ _))
        hlast'
      rw [hruns, hjoin]
      exact ⟨by simp, fun _ => hne (Or.inl (List.cons_ne_nil _ _))⟩

/-- Squeezing leaves a neat text as it is. -/
theorem Neat.squeeze {s : String} (h : Neat s.toList) : squeeze s = s := by
  rw [Text.squeeze, wordsOfChars, (joinWords_runsFrom h.toSparse (fun _ => h.head) h.last).1]
  exact String.ofList_toList

theorem neat_iff_squeeze {s : String} : Neat s.toList ↔ squeeze s = s :=
  ⟨Neat.squeeze, fun h => h ▸ neat_squeeze s⟩

theorem squeeze_squeeze (s : String) : squeeze (squeeze s) = squeeze s := (neat_squeeze s).squeeze

/-! ### Runs of blanks -/

/-- What is left of a run of blanks between others. -/
def gap (bs : List Char) : List Char := if bs = [] then [] else [' ']

theorem isBlank_of_mem_gap {bs : List Char} : ∀ c ∈ gap bs, isBlank c = true := by
  intro c hc
  unfold gap at hc
  split at hc
  · cases hc
  · rw [List.mem_singleton.mp hc]
    decide

/-- Blanks that are single spaces are at most one. -/
theorem Sparse.eq_gap {bs : List Char} (h : Sparse bs) (hbs : ∀ c ∈ bs, isBlank c = true) :
    bs = gap bs := by
  cases bs with
  | nil => rfl
  | cons b bs =>
    obtain ⟨hb, hrest⟩ := List.forall_mem_cons.mp hbs
    cases bs with
    | nil => rw [gap, if_neg (List.cons_ne_nil _ _), h.space b List.mem_cons_self hb]
    | cons c bs =>
      have hpair := (List.isChain_cons_cons.mp h.chain).1
      rw [hb, hrest c List.mem_cons_self] at hpair
      exact absurd hpair (by decide)

/-- Neat characters with what is left of a run of blanks between them. -/
theorem Neat.append_gap {cs ds : List Char} (h : Neat cs) (h' : Neat ds) (hcs : cs ≠ [])
    (hds : ds ≠ []) (bs : List Char) : Neat (cs ++ gap bs ++ ds) := by
  unfold gap
  split
  · rw [List.append_nil]
    exact h.append h'
  · rw [List.append_assoc]
    exact h.append_space h' hcs hds

/-- Characters with the same words, also behind others. -/
def SameWords (cs ds : List Char) : Prop := ∀ w, runsFrom isBlank w cs = runsFrom isBlank w ds

namespace SameWords

variable {cs ds bs : List Char}

theorem cons (c : Char) (h : SameWords cs ds) : SameWords (c :: cs) (c :: ds) := by
  intro w
  simp only [runsFrom, h []]
  rw [h (c :: w)]

theorem append (as : List Char) (h : SameWords cs ds) : SameWords (as ++ cs) (as ++ ds) := by
  induction as with
  | nil => exact h
  | cons a as ih => exact ih.cons a

/-- A run of blanks ends a word. -/
theorem runsFrom_blanks (hbs : ∀ c ∈ bs, isBlank c = true) (hne : bs ≠ []) (w : List Char) :
    runsFrom isBlank w (bs ++ cs) =
      (if w.isEmpty then [] else [w.reverse]) ++ runsFrom isBlank [] cs := by
  induction bs generalizing w with
  | nil => exact absurd rfl hne
  | cons b bs ih =>
    obtain ⟨hb, hbs⟩ := List.forall_mem_cons.mp hbs
    have hrest : runsFrom isBlank [] (bs ++ cs) = runsFrom isBlank [] cs := by
      cases bs with
      | nil => rfl
      | cons b' bs => exact ih hbs (List.cons_ne_nil _ _) []
    rw [List.cons_append, runsFrom, if_pos hb, hrest]
    split <;> rfl

/-- One run of blanks is as good as another. -/
theorem runs {bs' : List Char} (hbs : ∀ c ∈ bs, isBlank c = true) (hne : bs ≠ [])
    (hbs' : ∀ c ∈ bs', isBlank c = true) (hne' : bs' ≠ []) (h : SameWords cs ds) :
    SameWords (bs ++ cs) (bs' ++ ds) := by
  intro w
  rw [runsFrom_blanks hbs hne, runsFrom_blanks hbs' hne', h []]

/-- One space is as good as any run of blanks. -/
theorem blanks (hbs : ∀ c ∈ bs, isBlank c = true) (h : SameWords cs ds) :
    SameWords (bs ++ cs) (gap bs ++ ds) := by
  intro w
  unfold gap
  split
  · rename_i hnil
    rw [hnil]
    exact h w
  · rename_i hne
    have hspace : ∀ c ∈ [' '], isBlank c = true := List.all_eq_true.mp (by decide)
    exact h.runs hbs hne hspace (List.cons_ne_nil _ _) w

/-- Blanks at the end make no words. -/
theorem trail (hbs : ∀ c ∈ bs, isBlank c = true) : SameWords bs [] := by
  intro w
  cases bs with
  | nil => rfl
  | cons b bs =>
    rw [← List.append_nil (b :: bs), runsFrom_blanks hbs (List.cons_ne_nil b bs)]
    simp [runsFrom]

end SameWords

/-- **A text is squeezed to the neat characters that have its words.** -/
theorem squeeze_of_sameWords {bs cs ds : List Char} (hbs : ∀ c ∈ bs, isBlank c = true)
    (h : SameWords cs ds) (hneat : Neat ds) :
    squeeze (String.ofList (bs ++ cs)) = String.ofList ds := by
  have hwords : wordsOfChars (bs ++ cs) = wordsOfChars ds := by
    cases bs with
    | nil => exact h []
    | cons b bs =>
      rw [wordsOfChars, SameWords.runsFrom_blanks hbs (List.cons_ne_nil _ _)]
      exact h []
  have hsqueeze : squeeze (String.ofList ds) = String.ofList ds :=
    Neat.squeeze (by rwa [String.toList_ofList])
  rw [squeeze, String.toList_ofList, hwords, ← hsqueeze, squeeze, String.toList_ofList]

end TestScaffold.Text
