/-
  TestScaffold/Proofs/Files/PathText.lean
  =======================================
  **A path is read back from its text.**

  The text of a path tells where it starts by the slashes in front, and its names by
  the slashes between them.  A name without a slash that is neither empty nor a single
  point is found again (`Readable`); a path that was read from a text has only such names.
-/
import TestScaffold.Files.Path
import TestScaffold.Proofs.Text.Pieces

namespace TestScaffold

open TestScaffold.Text

namespace Path

/-- A name that is found again between slashes: it has none in it, and is neither empty nor a single
point. -/
def Readable (name : String) : Prop := '/' ∉ name.toList ∧ isName name = true

instance : DecidablePred Readable := fun _ => inferInstanceAs (Decidable (_ ∧ _))

/-- The slashes at the start of a path that goes on with a name tell where it starts. -/
theorem anchorOf_text (a : Anchor) {c : Char} (hc : c ≠ '/') (cs : List Char) :
    anchorOf ((Anchor.text a).toList ++ c :: cs) = a := by
  cases a <;> simp [anchorOf, Anchor.text, hc]

theorem filter_splitOn_text (a : Anchor) {names : List String} (hne : names ≠ [])
    (h : ∀ n ∈ names, Readable n) :
    (splitOn '/' (Anchor.text a ++ joinWith "/" names)).filter isName = names := by
  have hnames : (splitOn '/' (joinWith "/" names)).filter isName = names := by
    rw [show ("/" : String) = String.singleton '/' from rfl,
      splitOn_joinWith hne fun n hn => (h n hn).1]
    exact List.filter_eq_self.mpr fun n hn => (h n hn).2
  have hblank : isName (String.ofList []) = false := by decide
  cases a with
  | here => simpa [Anchor.text] using hnames
  | root => simpa [Anchor.text, splitOn, splitChars, hblank] using hnames
  | doubleRoot => simpa [Anchor.text, splitOn, splitChars, hblank] using hnames

/-- A path is read back from its text, where its names can be. -/
theorem ofString_text {p : Path} (h : ∀ n ∈ p.names, Readable n) : ofString p.text = p := by
  obtain ⟨a, names⟩ := p
  cases names with
  | nil => cases a <;> decide
  | cons n rest =>
    obtain ⟨c, cs, hchars⟩ : ∃ c cs, n.toList = c :: cs := by
      have hn := (h n List.mem_cons_self).2
      cases hchars : n.toList with
      | nil =>
        obtain rfl : n = "" := by simpa using congrArg String.ofList hchars
        cases hn
      | cons c cs => exact ⟨c, cs, rfl⟩
    have hc : c ≠ '/' := by
      rintro rfl
      exact (h n List.mem_cons_self).1 (by rw [hchars]; exact List.mem_cons_self)
    obtain ⟨more, hmore⟩ : ∃ more, (joinWith "/" (n :: rest)).toList = c :: more := by
      cases rest with
      | nil => exact ⟨cs, hchars⟩
      | cons m rest =>
        rw [joinWith, String.toList_append, String.toList_append, hchars]
        exact ⟨_, rfl⟩
    have htext : text ⟨a, n :: rest⟩ = Anchor.text a ++ joinWith "/" (n :: rest) := by simp [text]
    rw [htext]
    unfold ofString
    rw [filter_splitOn_text a (by simp) h, String.toList_append, hmore,
      anchorOf_text a hc]

/-- The names of a path that was read from a text can be read from it. -/
theorem names_ofString (s : String) : ∀ n ∈ (ofString s).names, Readable n := fun _ hn =>
  ⟨notMem_of_mem_splitOn (List.mem_filter.mp hn).1, (List.mem_filter.mp hn).2⟩

/-- **A path is read back from its text.** -/
theorem ofString_text_ofString (s : String) : ofString (ofString s).text = ofString s :=
  ofString_text (names_ofString s)

example : ofString (ofString "a//b/./c/").text = ofString "a/b/c" := by decide +kernel

end Path

end TestScaffold
