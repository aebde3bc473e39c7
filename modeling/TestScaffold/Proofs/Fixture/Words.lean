/-
  TestScaffold/Proofs/Fixture/Words.lean
  ======================================
  **The names that generated code is given are legible.**

  A clear name is an identifier that is written without escapes.  More letters or
  digits behind it leave it clear, and so does an underscore in its front; and no
  keyword is spelled like a name with a digit or with the suffix of a test class.
-/
import TestScaffold.Proofs.Fixture.Naming
import TestScaffold.Proofs.Fixture.Rendering

namespace TestScaffold

open TestScaffold.Text
open TestScaffold.CSharp

/-- A name that passes the check of declared names and is written without escapes. -/
structure Name.Clear (n : Name) : Prop where
  identifier : Layout.isIdentifier n.text.toList = true
  plain : isPlainWord n.text.toList = true

/-! ### Words -/

theorem isWord_of_isDigit {c : Char} (h : c.isDigit = true) :
    isWord c = true ∧ isIdentifierPart c = true := by
  simp only [Char.isDigit, Bool.and_eq_true, decide_eq_true_eq] at h
  have hdigit : isAsciiDigit c = true := by
    simpa [isAsciiDigit, Char.le_def] using h
  have hlt : c.toNat < 128 := by
    have hle : c.toNat ≤ '9'.toNat := h.2
    exact Nat.lt_of_le_of_lt hle (by decide)
  simp [isWord, isIdentifierPart, hlt, hdigit]

/-- What an identifier is made of. -/
theorem isIdentifier_iff {cs : List Char} : Layout.isIdentifier cs = true ↔
    ∃ c rest, isWord c = true ∧ isDecimal c = false ∧ (∀ d ∈ rest, isWord d = true) ∧
      (cs = c :: rest ∨ cs = '@' :: c :: rest) := by
  have hat : isWord '@' = false := by decide
  constructor
  · intro h
    unfold Layout.isIdentifier at h
    split at h
    · rename_i rest
      cases rest with
      | nil => cases h
      | cons c rest =>
        simp only [Bool.and_eq_true, Bool.not_eq_true', List.all_eq_true] at h
        exact ⟨c, rest, h.1.1, h.1.2, h.2, Or.inr rfl⟩
    · cases cs with
      | nil => cases h
      | cons c rest =>
        simp only [Bool.and_eq_true, Bool.not_eq_true', List.all_eq_true] at h
        exact ⟨c, rest, h.1.1, h.1.2, h.2, Or.inl rfl⟩
  · rintro ⟨c, rest, hc, hdecimal, hrest, rfl | rfl⟩
    · unfold Layout.isIdentifier
      split
      · rename_i heq
        cases heq
        rw [hat] at hc
        cases hc
      · simpa [hc, hdecimal] using hrest
    · simpa [Layout.isIdentifier, hc, hdecimal] using hrest

theorem isPlainWord_iff {cs : List Char} : isPlainWord cs = true ↔
    ∃ c rest, isIdentifierStart c = true ∧ (∀ d ∈ c :: rest, isIdentifierPart d = true) ∧
      (cs = c :: rest ∨ cs = '@' :: c :: rest) := by
  have hat : isIdentifierStart '@' = false := by decide
  refine ⟨Lexer.exists_of_isPlainWord, ?_⟩
  rintro ⟨c, rest, hc, hrest, rfl | rfl⟩
  · unfold isPlainWord
    split
    · rename_i heq
      cases heq
      rw [hat] at hc
      cases hc
    · rw [Bool.and_eq_true]
      exact ⟨hc, List.all_eq_true.mpr hrest⟩
  · exact Bool.and_eq_true_iff.mpr ⟨hc, List.all_eq_true.mpr hrest⟩

theorem isIdentifier_append {cs ds : List Char} (h : Layout.isIdentifier cs = true)
    (hds : ∀ c ∈ ds, isWord c = true) : Layout.isIdentifier (cs ++ ds) = true := by
  obtain ⟨c, rest, hc, hdecimal, hrest, hcs⟩ := isIdentifier_iff.mp h
  refine isIdentifier_iff.mpr ⟨c, rest ++ ds, hc, hdecimal, ?_, ?_⟩
  · exact List.forall_mem_append.mpr ⟨hrest, hds⟩
  · rcases hcs with rfl | rfl
    · exact Or.inl rfl
    · exact Or.inr rfl

theorem isPlainWord_append {cs ds : List Char} (h : isPlainWord cs = true)
    (hds : ∀ c ∈ ds, isIdentifierPart c = true) : isPlainWord (cs ++ ds) = true := by
  obtain ⟨c, rest, hc, hrest, hcs⟩ := isPlainWord_iff.mp h
  refine isPlainWord_iff.mpr ⟨c, rest ++ ds, hc, ?_, ?_⟩
  · intro d hd
    rcases List.mem_append.mp (List.cons_append ▸ hd : d ∈ (c :: rest) ++ ds) with hd | hd
    · exact hrest d hd
    · exact hds d hd
  · rcases hcs with rfl | rfl
    · exact Or.inl rfl
    · exact Or.inr rfl

/-- No keyword is spelled like characters of a kind that none of the keywords is of. -/
theorem ofChars?_eq_none {p : List Char → Bool} (hp : (Keyword.table.all fun e => !p e.1) = true)
    {cs : List Char} (hcs : p cs = true) : Keyword.ofChars? cs = none := by
  unfold Keyword.ofChars?
  rw [List.find?_eq_none.mpr, Option.map_none]
  intro e he heq
  have hone := List.all_eq_true.mp hp e he
  rw [of_decide_eq_true heq, hcs] at hone
  cases hone

/-! ### Names of declarations -/

namespace Name

theorem Clear.append {n : Name} (h : n.Clear) {d : List Char}
    (hcs : ∀ c ∈ d, isWord c = true ∧ isIdentifierPart c = true) :
    Layout.isIdentifier (n.text.toList ++ d) = true ∧ isPlainWord (n.text.toList ++ d) = true :=
  ⟨isIdentifier_append h.identifier fun c hc => (hcs c hc).1,
    isPlainWord_append h.plain fun c hc => (hcs c hc).2⟩

/-- The name of a test class. -/
theorem Clear.legible_testClassName {n : Name} (h : n.Clear) :
    (Naming.testClassName n).Legible := by
  have htext : (Naming.testClassName n).text.toList = n.text.toList ++ "Tests".toList :=
    String.toList_append
  have htests : ("Tests".toList.all fun c => isWord c && isIdentifierPart c) = true := by
    decide
  obtain ⟨hidentifier, hplain⟩ := h.append (d := "Tests".toList) fun c hc =>
    Bool.and_eq_true_iff.mp (List.all_eq_true.mp htests c hc)
  refine ⟨htext ▸ hidentifier, htext ▸ hplain, ?_⟩
  refine ofChars?_eq_none (p := fun cs => "Tests".toList.isSuffixOf cs) (by decide) ?_
  rw [htext, List.isSuffixOf_iff_suffix]
  exact List.suffix_append _ _

/-- The name of a test. -/
theorem Clear.legible_candidate {n : Name} (h : n.Clear) (k : Nat) :
    (Naming.candidate n.text k).Legible := by
  have htext := Naming.toList_candidate n.text k
  have hdigits : ∀ c ∈ Nat.toDigits 10 k, c.isDigit = true := fun c hc =>
    Nat.isDigit_of_mem_toDigits (by decide) (by decide) hc
  rw [List.append_assoc] at htext
  obtain ⟨hidentifier, hplain⟩ := h.append (d := "Test".toList ++ Nat.toDigits 10 k) (by
    intro c hc
    rcases List.mem_append.mp hc with hc | hc
    · have htest : ("Test".toList.all fun c => isWord c && isIdentifierPart c) = true := by
        decide
      exact Bool.and_eq_true_iff.mp (List.all_eq_true.mp htest c hc)
    · exact isWord_of_isDigit (hdigits c hc))
  refine ⟨htext ▸ hidentifier, htext ▸ hplain, ?_⟩
  refine ofChars?_eq_none (p := fun cs => cs.any Char.isDigit) (by decide) ?_
  obtain ⟨d, rest, hd⟩ := List.exists_cons_of_ne_nil (Nat.toDigits_ne_nil (n := k) (b := 10))
  rw [htext, List.any_eq_true]
  exact ⟨d, by simp [hd], hdigits d (hd ▸ List.mem_cons_self)⟩

theorem isPart_of_mem_bare {start part : Char → Bool} (hat : start '@' = false) {c : Char}
    {rest cs : List Char} (hc : start c = true) (hrest : ∀ d ∈ c :: rest, part d = true)
    (hcs : cs = c :: rest ∨ cs = '@' :: c :: rest) :
    ∀ d ∈ cs.dropWhile (· == '@'), part d = true := by
  have hne : (c == '@') = false := by
    refine beq_eq_false_iff_ne.mpr ?_
    rintro rfl
    rw [hat] at hc
    cases hc
  rcases hcs with rfl | rfl
  · rwa [List.dropWhile_cons_of_neg (by simp [hne])]
  · rwa [List.dropWhile_cons_of_pos (by simp), List.dropWhile_cons_of_neg (by simp [hne])]

/-- An underscore before a name without its at sign. -/
theorem Clear.fieldName {n : Name} (h : n.Clear) : (Naming.fieldName n.text).Clear := by
  have htext : (Naming.fieldName n.text).text.toList =
      '_' :: n.text.toList.dropWhile (· == '@') := by
    simp [Naming.fieldName, Naming.bare]
  constructor
  · obtain ⟨c, rest, hc, hdecimal, hrest, hcs⟩ := isIdentifier_iff.mp h.identifier
    refine isIdentifier_iff.mpr ⟨'_', _, by decide, by decide, ?_, Or.inl htext⟩
    exact isPart_of_mem_bare (by decide) hc (List.forall_mem_cons.mpr ⟨hc, hrest⟩) hcs
  · obtain ⟨c, rest, hc, hrest, hcs⟩ := isPlainWord_iff.mp h.plain
    refine isPlainWord_iff.mpr ⟨'_', _, by decide, ?_, Or.inl htext⟩
    exact List.forall_mem_cons.mpr ⟨by decide,
      isPart_of_mem_bare (by decide) hc hrest hcs⟩

end Name

end TestScaffold
