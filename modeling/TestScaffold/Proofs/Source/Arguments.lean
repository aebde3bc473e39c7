/-
  TestScaffold/Proofs/Source/Arguments.lean
  =========================================
  **Lists of type arguments.**

  A list of arguments is cut at its commas at depth zero.  Characters without such
  a comma go into the current piece as a whole, whatever the depth that they begin
  at, and change the depth by their own.  So the first comma at depth zero ends the
  first piece, and the rest is cut as if it stood alone (`splitArguments_comma`).

  Arguments that are closed and have no comma at depth zero are found again
  between the commas that join them, with any blanks around them.
-/
import TestScaffold.Proofs.Text.Blanks
import TestScaffold.Source.ReturnType

namespace TestScaffold

open TestScaffold.Text

namespace Source

/-! ### Depth -/

/-- How some characters change the bracket depth. -/
def depth : List Char → Int
  | [] => 0
  | c :: rest => depthStep c + depth rest

theorem depth_append (cs ds : List Char) : depth (cs ++ ds) = depth cs + depth ds := by
  induction cs with
  | nil => simp [depth]
  | cons c cs ih =>
    simp only [List.cons_append, depth, ih]
    omega

theorem depth_of_blank {cs : List Char} (h : ∀ c ∈ cs, isBlank c = true) : depth cs = 0 := by
  induction cs with
  | nil => rfl
  | cons c cs ih =>
    obtain ⟨hc, hcs⟩ := List.forall_mem_cons.mp h
    have hstep : depthStep c = 0 := by
      unfold depthStep
      split
      · rename_i hopen
        rcases hopen with rfl | rfl | rfl <;> exact absurd hc (by decide)
      · split
        · rename_i hclose
          rcases hclose with rfl | rfl | rfl <;> exact absurd hc (by decide)
        · rfl
    rw [depth, hstep, ih hcs, Int.add_zero]

/-- No comma stands at depth zero, if the characters begin at depth `d`. -/
def WholeFrom (d : Int) (cs : List Char) : Prop :=
  ∀ before after, cs = before ++ ',' :: after → d + depth before ≠ 0

namespace WholeFrom

variable {d : Int} {c : Char} {cs ds : List Char}

theorem nil : WholeFrom d [] := fun before after h => by simp at h

theorem cons_iff : WholeFrom d (c :: cs) ↔ (c = ',' → d ≠ 0) ∧ WholeFrom (d + depthStep c) cs := by
  constructor
  · intro h
    refine ⟨fun hc => ?_, fun before after heq => ?_⟩
    · have := h [] cs (by rw [hc]; rfl)
      simpa [depth] using this
    · have := h (c :: before) after (by rw [heq]; rfl)
      rwa [depth, ← Int.add_assoc] at this
  · rintro ⟨hc, hcs⟩ before after heq
    cases before with
    | nil =>
      obtain ⟨rfl, _⟩ := List.cons.inj heq
      simpa [depth] using hc rfl
    | cons b before =>
      obtain ⟨rfl, htail⟩ := List.cons.inj heq
      have := hcs before after htail
      rwa [depth, ← Int.add_assoc]

theorem of_blank (h : ∀ c ∈ cs, isBlank c = true) : WholeFrom d cs := by
  intro before after heq
  have hcomma := h ',' (by rw [heq]; simp)
  exact absurd hcomma (by decide)

theorem append (h : WholeFrom d cs) (h' : WholeFrom (d + depth cs) ds) :
    WholeFrom d (cs ++ ds) := by
  induction cs generalizing d with
  | nil => simpa [depth] using h'
  | cons c cs ih =>
    obtain ⟨hc, hcs⟩ := cons_iff.mp h
    exact cons_iff.mpr ⟨hc, ih hcs (by rwa [depth, ← Int.add_assoc] at h')⟩

end WholeFrom

instance decidableWholeFrom : ∀ d cs, Decidable (WholeFrom d cs)
  | _, [] => isTrue .nil
  | d, c :: cs =>
    have := decidableWholeFrom (d + depthStep c) cs
    decidable_of_iff _ WholeFrom.cons_iff.symm

/-- The characters have no comma at depth zero, or a first one. -/
theorem wholeFrom_or_exists (d : Int) (cs : List Char) : WholeFrom d cs ∨
    ∃ before after, cs = before ++ ',' :: after ∧ WholeFrom d before ∧ d + depth before = 0 := by
  induction cs generalizing d with
  | nil => exact Or.inl .nil
  | cons c cs ih =>
    by_cases hc : c = ',' ∧ d = 0
    · obtain ⟨rfl, rfl⟩ := hc
      exact Or.inr ⟨[], cs, rfl, .nil, rfl⟩
    · have hhere : c = ',' → d ≠ 0 := fun hcomma hd => hc ⟨hcomma, hd⟩
      rcases ih (d + depthStep c) with h | ⟨before, after, rfl, hbefore, hdepth⟩
      · exact Or.inl (WholeFrom.cons_iff.mpr ⟨hhere, h⟩)
      · refine Or.inr ⟨c :: before, after, rfl, WholeFrom.cons_iff.mpr ⟨hhere, hbefore⟩, ?_⟩
        rwa [depth, ← Int.add_assoc]

/-! ### Cutting -/

theorem depthStep_comma : depthStep ',' = 0 := by decide

/-- Characters without a comma at depth zero go into the current piece. -/
theorem splitArgumentsFrom_append {d : Int} {cs : List Char} (h : WholeFrom d cs)
    (piece rest : List Char) : splitArgumentsFrom d piece (cs ++ rest) =
      splitArgumentsFrom (d + depth cs) (cs.reverse ++ piece) rest := by
  induction cs generalizing d piece with
  | nil => simp [depth]
  | cons c cs ih =>
    obtain ⟨hc, hcs⟩ := WholeFrom.cons_iff.mp h
    have hgoes : ¬ (c = ',' ∧ d + depthStep c = 0) := by
      rintro ⟨rfl, hzero⟩
      exact hc rfl (by rwa [depthStep_comma, Int.add_zero] at hzero)
    rw [List.cons_append, splitArgumentsFrom]
    simp only [if_neg hgoes]
    rw [ih hcs, depth, ← Int.add_assoc]
    simp

/-- **The first comma at depth zero ends the first piece.** -/
theorem splitArgumentsFrom_comma {cs : List Char} (h : WholeFrom 0 cs) (hdepth : depth cs = 0)
    (rest : List Char) : splitArgumentsFrom 0 [] (cs ++ ',' :: rest) =
      trimChars cs :: splitArgumentsFrom 0 [] rest := by
  rw [splitArgumentsFrom_append h, hdepth, splitArgumentsFrom]
  simp [depthStep_comma]

/-- Without a comma at depth zero there is one piece, or none if there are only blanks. -/
theorem splitArgumentsFrom_whole {cs : List Char} (h : WholeFrom 0 cs) :
    splitArgumentsFrom 0 [] cs = if trimChars cs = [] then [] else [trimChars cs] := by
  have happend := splitArgumentsFrom_append h [] []
  rw [List.append_nil, List.append_nil, splitArgumentsFrom, List.reverse_reverse] at happend
  simpa using happend

/-- Blanks alone have no piece. -/
theorem splitArgumentsFrom_eq_nil_iff {cs : List Char} :
    splitArgumentsFrom 0 [] cs = [] ↔ ∀ c ∈ cs, isBlank c = true := by
  rw [← trimChars_eq_nil_iff]
  rcases wholeFrom_or_exists 0 cs with h | ⟨before, after, rfl, hbefore, hdepth⟩
  · rw [splitArgumentsFrom_whole h]
    split <;> simp_all
  · rw [splitArgumentsFrom_comma hbefore (by simpa using hdepth), trimChars_eq_nil_iff]
    refine iff_of_false (List.cons_ne_nil _ _) fun h => ?_
    exact absurd (h ',' (by simp)) (by decide)

/-- **The only piece is empty just if there is one comma, and nothing else but blanks.** -/
theorem splitArgumentsFrom_eq_empty_iff {cs : List Char} :
    splitArgumentsFrom 0 [] cs = [[]] ↔ ∃ before after, (∀ c ∈ before, isBlank c = true) ∧
      (∀ c ∈ after, isBlank c = true) ∧ cs = before ++ ',' :: after := by
  constructor
  · intro h
    rcases wholeFrom_or_exists 0 cs with hwhole | ⟨before, after, rfl, hbefore, hdepth⟩
    · rw [splitArgumentsFrom_whole hwhole] at h
      split at h
      · cases h
      · rename_i hne
        exact absurd (List.singleton_inj.mp h) hne
    · rw [splitArgumentsFrom_comma hbefore (by simpa using hdepth)] at h
      obtain ⟨hfirst, hrest⟩ := List.cons.inj h
      exact ⟨before, after, trimChars_eq_nil_iff.mp hfirst,
        splitArgumentsFrom_eq_nil_iff.mp hrest, rfl⟩
  · rintro ⟨before, after, hbefore, hafter, rfl⟩
    rw [splitArgumentsFrom_comma (.of_blank hbefore) (depth_of_blank hbefore),
      trimChars_eq_nil_iff.mpr hbefore, splitArgumentsFrom_eq_nil_iff.mpr hafter]

/-! ### Joined arguments -/

/-- Characters that are one argument: not blank at either end, with closed brackets, and without a
comma outside of brackets. -/
structure IsArgument (cs : List Char) : Prop where
  nonempty : cs ≠ []
  trimmed : trimChars cs = cs
  closed : depth cs = 0
  whole : WholeFrom 0 cs

/-- Some characters with blanks around them. -/
def Padded (cs piece : List Char) : Prop :=
  ∃ before after, (∀ c ∈ before, isBlank c = true) ∧ (∀ c ∈ after, isBlank c = true) ∧
    piece = before ++ cs ++ after

theorem Padded.trimChars {cs piece : List Char} (h : Padded cs piece) :
    trimChars piece = trimChars cs := by
  obtain ⟨before, after, hbefore, hafter, rfl⟩ := h
  exact trimChars_pad hbefore hafter cs

/-- Blanks around an argument change nothing between commas. -/
theorem IsArgument.padded {cs piece : List Char} (h : IsArgument cs) (hpiece : Padded cs piece) :
    WholeFrom 0 piece ∧ depth piece = 0 := by
  obtain ⟨before, after, hbefore, hafter, rfl⟩ := hpiece
  have hdepth : depth (before ++ cs) = 0 := by
    rw [depth_append, depth_of_blank hbefore, h.closed, Int.add_zero]
  refine ⟨((WholeFrom.of_blank hbefore).append ?_).append (.of_blank hafter), ?_⟩
  · rw [depth_of_blank hbefore]
    exact h.whole
  · rw [depth_append, hdepth, depth_of_blank hafter, Int.add_zero]

/-- **Arguments are found again between the commas that join them.** -/
theorem splitArgumentsFrom_join {args pieces : List (List Char)} (hne : args ≠ [])
    (hargs : ∀ a ∈ args, IsArgument a) (hpieces : List.Forall₂ Padded args pieces) :
    splitArgumentsFrom 0 [] (List.intercalate [','] pieces) = args := by
  induction hpieces with
  | nil => exact absurd rfl hne
  | @cons a piece args pieces hpiece hrest ih =>
    obtain ⟨ha, hargs⟩ := List.forall_mem_cons.mp hargs
    obtain ⟨hwhole, hdepth⟩ := ha.padded hpiece
    have htrim : trimChars piece = a := hpiece.trimChars.trans ha.trimmed
    cases hrest with
    | nil =>
      rw [List.intercalate_singleton, splitArgumentsFrom_whole hwhole, htrim, if_neg ha.nonempty]
    | @cons a' piece' args pieces hpiece' hrest =>
      rw [List.intercalate_cons_cons, List.append_assoc, List.singleton_append,
        splitArgumentsFrom_comma hwhole hdepth, htrim, ih (List.cons_ne_nil _ _) hargs]

end Source

end TestScaffold
