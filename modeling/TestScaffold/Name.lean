/-
  TestScaffold/Name.lean
  ======================
  Texts that are never empty: the names of declarations and types.
-/

namespace TestScaffold

/-- A text of at least one character. -/
structure Name where
  text : String
  nonempty : text ≠ ""
deriving DecidableEq

namespace Name

/-- The name with this text, if there is any text. -/
def ofString? (s : String) : Option Name :=
  if h : s = "" then none else some ⟨s, h⟩

instance : Inhabited Name := ⟨⟨"_", by decide⟩⟩

instance : Coe Name String := ⟨Name.text⟩

instance : Repr Name := ⟨fun n _ => repr n.text⟩

theorem append_ne_empty {s t : String} (h : s ≠ "") : s ++ t ≠ "" := by
  intro e
  apply h
  have e' := congrArg String.toList e
  have : s.toList = [] := by simp at e'; simp [e'.1]
  simpa using congrArg String.ofList this

/-- A name with more text behind it. -/
def append (n : Name) (s : String) : Name := ⟨n.text ++ s, append_ne_empty n.nonempty⟩

theorem ne_empty_of_append {s t : String} (h : t ≠ "") : s ++ t ≠ "" := by
  intro e
  apply h
  have e' := congrArg String.toList e
  have : t.toList = [] := by simp at e'; simp [e'.2]
  simpa using congrArg String.ofList this

/-- A text with a name behind it. -/
def under (s : String) (n : Name) : Name := ⟨s ++ n.text, ne_empty_of_append n.nonempty⟩

end Name

end TestScaffold
