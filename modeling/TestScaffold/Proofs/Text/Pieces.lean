/-
  TestScaffold/Proofs/Text/Pieces.lean
  ====================================
  **Texts in pieces.**

  Splitting at a separator is undone by joining, and joining by splitting where
  the separator is in none of the pieces (`splitOn_joinWith`).  What follows a lead
  is the rest of the text.  Trimming leaves a text alone that has no blank at its
  ends.
-/
import Mathlib.Data.List.Basic
import TestScaffold.Text.Words

namespace TestScaffold.Text

/-! ### Splitting -/

theorem splitChars_eq_splitOn (sep : Char) (cs : List Char) : splitChars sep cs = cs.splitOn sep := by
  induction cs with
  | nil => rfl
  | cons c rest ih =>
    rw [List.splitOn, List.splitOnP_cons_eq_if_modifyHead, ← List.splitOn]
    by_cases hc : c = sep
    · simp [splitChars, hc, ih]
    · obtain ⟨piece, pieces, hpieces⟩ := List.exists_cons_of_ne_nil (List.splitOn_ne_nil sep rest)
      simp [splitChars, hc, ih, hpieces]

theorem splitChars_ne_nil (sep : Char) (cs : List Char) : splitChars sep cs ≠ [] := by
  rw [splitChars_eq_splitOn]
  exact List.splitOn_ne_nil sep cs

theorem splitChars_of_not_mem {sep : Char} {cs : List Char} (h : sep ∉ cs) :
    splitChars sep cs = [cs] := by
  induction cs with
  | nil => rfl
  | cons c rest ih =>
    rw [List.mem_cons, not_or] at h
    have hc : ¬ c = sep := fun e => h.1 e.symm
    simp only [splitChars, if_neg hc, ih h.2]

theorem notMem_of_mem_splitChars {sep : Char} {piece : List Char} {cs : List Char}
    (h : piece ∈ splitChars sep cs) : sep ∉ piece := by
  induction cs generalizing piece with
  | nil =>
    cases List.mem_singleton.mp h
    exact List.not_mem_nil
  | cons c rest ih =>
    by_cases hc : c = sep
    · simp only [splitChars, if_pos hc, List.mem_cons] at h
      rcases h with rfl | h
      · exact List.not_mem_nil
      · exact ih h
    · simp only [splitChars, if_neg hc] at h
      cases hpieces : splitChars sep rest with
      | nil => exact absurd hpieces (splitChars_ne_nil sep rest)
      | cons first more =>
        rw [hpieces] at h ih
        rcases List.mem_cons.mp h with rfl | h
        · rw [List.mem_cons, not_or]
          exact ⟨Ne.symm hc, ih List.mem_cons_self⟩
        · exact ih (List.mem_cons_of_mem _ h)

/-- No separator is left between the separators. -/
theorem notMem_of_mem_splitOn {sep : Char} {piece s : String} (h : piece ∈ splitOn sep s) :
    sep ∉ piece.toList := by
  obtain ⟨cs, hcs, rfl⟩ := List.mem_map.mp h
  rw [String.toList_ofList]
  exact notMem_of_mem_splitChars hcs

/-! ### Joining -/

theorem toList_joinWith (sep : String) (pieces : List String) :
    (joinWith sep pieces).toList = List.intercalate sep.toList (pieces.map String.toList) := by
  induction pieces with
  | nil => rfl
  | cons s rest ih =>
    cases rest with
    | nil => simp [joinWith]
    | cons t rest =>
      simp only [joinWith, String.toList_append, ih]
      simp [List.intercalate]

/-- Pieces with one more behind them. -/
theorem joinWith_concat (sep a : String) (pieces : List String) :
    joinWith sep (pieces ++ [a]) =
      (if pieces = [] then "" else joinWith sep pieces ++ sep) ++ a := by
  induction pieces with
  | nil => simp [joinWith]
  | cons s rest ih =>
    cases rest with
    | nil => simp [joinWith]
    | cons t rest =>
      simp only [List.cons_append, joinWith] at ih ⊢
      rw [ih]
      simp [String.append_assoc]

/-- **Texts without the separator are found again between the separators.** -/
theorem splitOn_joinWith {sep : Char} {pieces : List String} (hne : pieces ≠ [])
    (h : ∀ piece ∈ pieces, sep ∉ piece.toList) :
    splitOn sep (joinWith (String.singleton sep) pieces) = pieces := by
  have hpieces : ∀ cs ∈ pieces.map String.toList, sep ∉ cs := by simpa using h
  rw [splitOn, toList_joinWith, splitChars_eq_splitOn, String.toList_singleton,
    List.splitOn_intercalate sep hpieces (by simpa using hne)]
  simp

/-! ### Leads -/

theorem afterLead?_eq_some {lead cs rest : List Char} :
    afterLead? lead cs = some rest ↔ cs = lead ++ rest := by
  induction lead generalizing cs with
  | nil => simp [afterLead?]
  | cons p ps ih =>
    cases cs with
    | nil => simp [afterLead?]
    | cons c cs =>
      rw [afterLead?]
      split
      · rename_i hpc
        simp [hpc, ih]
      · rename_i hpc
        simp [Ne.symm hpc]

/-! ### Trimming -/

theorem dropWhile_of_head {cs : List Char} (h : ∀ c ∈ cs.head?, isBlank c = false) :
    cs.dropWhile isBlank = cs := by
  cases cs with
  | nil => rfl
  | cons c cs => exact List.dropWhile_cons_of_neg (by simp [h c rfl])

/-- Without a blank at either end there is nothing to trim. -/
theorem trimChars_of_ends {cs : List Char} (hhead : ∀ c ∈ cs.head?, isBlank c = false)
    (hlast : ∀ c ∈ cs.getLast?, isBlank c = false) : trimChars cs = cs := by
  rw [← List.head?_reverse] at hlast
  rw [trimChars, dropWhile_of_head hhead, dropWhile_of_head hlast, List.reverse_reverse]

end TestScaffold.Text
