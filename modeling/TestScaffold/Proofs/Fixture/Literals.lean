/-
  TestScaffold/Proofs/Fixture/Literals.lean
  =========================================
  **What a string literal is written as can be read back.**

  Between the quotes stand the characters of the text, six of them as a backslash
  and a letter.  A reader who takes each backslash with the character behind it
  gets the text again (`unescape?_escape`), so no two texts have one literal.  The
  same reader never takes a quote of the text for the closing one: before such a
  quote the backslashes are odd in number.
-/
import Mathlib.Algebra.Ring.Parity
import TestScaffold.Fixture.Layout

namespace TestScaffold.Layout

/-! ### Reading escapes -/

/-- The character that is written as a backslash and this one. -/
def escaped? : Char → Option Char
  | '\\' => some '\\'
  | '"' => some '"'
  | 'n' => some '\n'
  | 'r' => some '\r'
  | 't' => some '\t'
  | '0' => some '\x00'
  | _ => none

/-- The text that characters between quotes stand for, read from the left. Every backslash must
begin an escape. -/
def unescape? : List Char → Option (List Char)
  | [] => some []
  | ['\\'] => none
  | '\\' :: d :: rest => do return (← escaped? d) :: (← unescape? rest)
  | c :: rest => (unescape? rest).map (c :: ·)

/-- A character is written as an escape of it, or as itself. -/
theorem escape_cases (c : Char) :
    (∃ d, escape c = ['\\', d] ∧ escaped? d = some c) ∨
      (escape c = [c] ∧ c ≠ '\\' ∧ c ≠ '"' ∧ c ≠ '\n' ∧ c ≠ '\r') := by
  unfold escape
  split
  case h_7 hbackslash hquote hfeed hreturn _ _ =>
    exact .inr ⟨rfl, hbackslash, hquote, hfeed, hreturn⟩
  all_goals exact .inl ⟨_, rfl, rfl⟩

/-- No escape has a line end in it. -/
theorem ne_lineEnd_of_escaped? {d c : Char} (h : escaped? d = some c) : d ≠ '\n' ∧ d ≠ '\r' := by
  constructor
  all_goals
    rintro rfl
    cases h

/-- The text of one character is read before what stands behind it. -/
theorem unescape?_escape_append (c : Char) (rest : List Char) :
    unescape? (escape c ++ rest) = (unescape? rest).map (c :: ·) := by
  obtain ⟨d, hescape, hd⟩ | ⟨hescape, hbackslash, -⟩ := escape_cases c
  · rw [hescape, List.cons_append, List.singleton_append, unescape?, hd]
    cases unescape? rest <;> rfl
  · rw [hescape, List.singleton_append, unescape?]
    · rintro rfl -
      exact hbackslash rfl
    · rintro d ds rfl -
      exact hbackslash rfl

/-- **Reading undoes writing.** -/
theorem unescape?_escape (cs : List Char) : unescape? (cs.flatMap escape) = some cs := by
  induction cs with
  | nil => rfl
  | cons c cs ih => rw [List.flatMap_cons, unescape?_escape_append, ih, Option.map_some]

theorem notMem_lineEnd_escape (cs : List Char) :
    '\n' ∉ cs.flatMap escape ∧ '\r' ∉ cs.flatMap escape := by
  have hall : ∀ c ∈ cs.flatMap escape, c ≠ '\n' ∧ c ≠ '\r' := by
    intro c hc
    obtain ⟨a, -, hc⟩ := List.mem_flatMap.mp hc
    obtain ⟨d, hescape, hd⟩ | ⟨hescape, -, -, hfeed, hreturn⟩ := escape_cases a
    · rw [hescape, List.mem_cons, List.mem_singleton] at hc
      rcases hc with rfl | rfl
      · decide
      · exact ne_lineEnd_of_escaped? hd
    · rw [hescape] at hc
      rw [List.mem_singleton.mp hc]
      exact ⟨hfeed, hreturn⟩
  exact ⟨fun h => (hall _ h).1 rfl, fun h => (hall _ h).2 rfl⟩

/-! ### Quotes inside a literal -/

/-- How many backslashes stand at the end. -/
def backslashes (cs : List Char) : Nat := (cs.reverse.takeWhile (· = '\\')).length

theorem backslashes_concat (cs : List Char) (c : Char) :
    backslashes (cs ++ [c]) = if c = '\\' then backslashes cs + 1 else 0 := by
  unfold backslashes
  rw [List.reverse_append, List.reverse_singleton, List.singleton_append, List.takeWhile_cons]
  by_cases hc : c = '\\'
  · simp [hc]
  · simp [hc]

/-- Behind the text of a character the reader is where it was before: all backslashes have their
escapes. -/
theorem even_backslashes_escape {before : List Char} (h : Even (backslashes before)) (c : Char) :
    Even (backslashes (before ++ escape c)) := by
  obtain ⟨d, hescape, -⟩ | ⟨hescape, hbackslash, -⟩ := escape_cases c
  · rw [hescape, ← List.singleton_append, ← List.append_assoc, backslashes_concat,
      backslashes_concat, if_pos rfl]
    split
    · exact h.add (by decide : Even 2)
    · exact Even.zero
  · rw [hescape, backslashes_concat, if_neg hbackslash]
    exact Even.zero

/-- The induction is on the text that is left; `before` is what has been read, up to the end of an
escape. -/
theorem odd_backslashes_of_quote (before : List Char) {cs inner behind : List Char}
    (heven : Even (backslashes before)) (h : cs.flatMap escape = inner ++ '"' :: behind) :
    Odd (backslashes (before ++ inner)) := by
  induction cs generalizing before inner with
  | nil => simp at h
  | cons c cs ih =>
    rw [List.flatMap_cons] at h
    rcases List.append_eq_append_iff.mp h with ⟨more, rfl, hmore⟩ | ⟨more, hescape, hmore⟩
    · -- the quote belongs to a later character
      rw [← List.append_assoc]
      exact ih _ (even_backslashes_escape heven c) hmore
    · cases more with
      | nil =>
        rw [List.append_nil] at hescape
        rw [← hescape, ← List.append_nil (before ++ escape c)]
        exact ih _ (even_backslashes_escape heven c) (by simpa using hmore.symm)
      | cons quote more =>
        obtain ⟨rfl, -⟩ := List.cons.inj hmore
        obtain ⟨d, hc, -⟩ | ⟨hc, -, hquote, -⟩ := escape_cases c
        · -- of the two characters of an escape the quote is the second
          have hinner : inner = ['\\'] := by
            rw [hc] at hescape
            cases inner with
            | nil => cases hescape
            | cons a inner =>
              cases inner with
              | nil =>
                cases hescape
                rfl
              | cons b inner =>
                have hlength := congrArg List.length hescape
                simp at hlength
          rw [hinner, backslashes_concat, if_pos rfl]
          exact heven.add_one
        · rw [hc] at hescape
          have hlength := congrArg List.length hescape
          cases inner with
          | nil => exact absurd (List.cons.inj hescape).1 hquote
          | cons a inner => simp at hlength

/-! ### String literals -/

/-- The characters of a string literal. -/
theorem toList_literalText (s : String) :
    (literalText (.text s)).toList = '"' :: (s.toList.flatMap escape ++ ['"']) := by
  simp [literalText]

/-- **A string literal is its text, escaped between quotes.** Between the quotes there is no line
end, and no quote without an odd number of backslashes before it; and what stands there is read as
the text, so that no other text has this literal. -/
theorem literalText_escapes (s : String) :
    ∃ inner, (literalText (.text s)).toList = '"' :: (inner ++ ['"']) ∧
      ('\n' ∉ inner ∧ '\r' ∉ inner) ∧
      (∀ before behind, inner = before ++ '"' :: behind → Odd (backslashes before)) ∧
      unescape? inner = some s.toList ∧
      ∀ t, literalText (.text t) = literalText (.text s) → t = s := by
  refine ⟨s.toList.flatMap escape, toList_literalText s, notMem_lineEnd_escape _, ?_,
    unescape?_escape _, ?_⟩
  · intro before behind h
    exact odd_backslashes_of_quote [] Even.zero h
  · intro t h
    have hinner : t.toList.flatMap escape = s.toList.flatMap escape := by
      have hchars := congrArg String.toList h
      rw [toList_literalText, toList_literalText] at hchars
      exact List.append_cancel_right (List.cons.inj hchars).2
    have htext := congrArg unescape? hinner
    rw [unescape?_escape, unescape?_escape, Option.some.injEq] at htext
    exact String.toList_inj.mp htext

end TestScaffold.Layout
