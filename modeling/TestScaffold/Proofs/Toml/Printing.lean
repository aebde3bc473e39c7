/-
  TestScaffold/Proofs/Toml/Printing.lean
  ======================================
  **What a printed TOML document looks like.**

  Keys and texts are printed character by character, and a table is one section, its
  title with a line for each entry, as long as there is no table in it.  So the
  characters of a printed document can be told from the characters of its texts, and
  a document can be read (`Toml.document_of_chars`) without its text in between.
-/
import TestScaffold.Proofs.Text.Pieces
import TestScaffold.Toml.Printer

namespace TestScaffold.Toml

open TestScaffold.Text

/-! ### Characters -/

/-- The characters of a text in double quotes. -/
def quotedChars (cs : List Char) : List Char := '"' :: cs.flatMap escapedChar ++ ['"']

/-- The characters of a key, in quotes if it has to be. -/
def keyChars (cs : List Char) : List Char :=
  if cs ≠ [] ∧ cs.all isKeyChar = true then cs else quotedChars cs

theorem toList_quotedText (s : String) : (quotedText s).toList = quotedChars s.toList := by
  simp [quotedText, quotedChars]

theorem toList_keyText (k : String) : (keyText k).toList = keyChars k.toList := by
  have hempty : k ≠ "" ↔ k.toList ≠ [] := by simp
  simp only [keyText, keyChars, hempty]
  split
  · rfl
  · exact toList_quotedText k

/-- A document is read from its characters, whatever text they come from. A literal text gives
them without being decoded (`String.toList_ofList`). -/
theorem document_of_chars {text : String} {cs : List Char} {es : Entries}
    (hchars : text.toList = cs)
    (hlines : (Draft.lines {} ((plainLineEnds cs).length + 1) (plainLineEnds cs)).map (·.root) =
      .ok es) : document text = .ok es := by
  rw [document, hchars, hlines]

/-! ### Sections -/

/-- One entry on a line of its own. -/
def entryLine (e : String × Datum) : String := keyText e.1 ++ " = " ++ valueText 0 e.2 ++ "\n"

theorem entrySections_eq_flatMap (header : List String) (es : Entries) :
    entrySections header es = es.flatMap fun e => tableSections (header ++ [keyText e.1]) e.2 := by
  induction es with
  | nil => rw [entrySections, List.flatMap_nil]
  | cons e rest ih => rw [entrySections, ih, List.flatMap_cons]

/-- Only a table has sections. -/
theorem tableSections_of_not_isTable {header : List String} {d : Datum} (h : isTable d = false) :
    tableSections header d = [] := by
  cases d with
  | dict es => cases h
  | _ => simp [tableSections]

/-- Tables outside of any table are sections of their own. -/
theorem tableSections_of_tables {es : Entries} (h : ∀ e ∈ es, isTable e.2 = true) :
    tableSections [] (.dict es) = entrySections [] es := by
  have hlines : (es.filterMap fun e => if isTable e.2 then none
      else some (keyText e.1 ++ " = " ++ valueText 0 e.2 ++ "\n")) = [] := by
    rw [List.filterMap_eq_nil_iff]
    exact fun e he => by rw [if_pos (h e he)]
  rw [tableSections]
  simp [hlines, String.join]

/-- **A table without tables in it is one section.** -/
theorem tableSections_of_values {header : List String} (hheader : header ≠ []) {es : Entries}
    (h : ∀ e ∈ es, isTable e.2 = false) : tableSections header (.dict es) =
      ["[" ++ joinWith "." header ++ "]\n" ++ String.join (es.map entryLine)] := by
  have hlines : (es.filterMap fun e => if isTable e.2 then none
      else some (keyText e.1 ++ " = " ++ valueText 0 e.2 ++ "\n")) = es.map entryLine := by
    rw [← List.filterMap_eq_map]
    exact List.filterMap_congr fun e he => by simp [h e he, entryLine]
  have hinner : entrySections header es = [] := by
    rw [entrySections_eq_flatMap, List.flatMap_eq_nil_iff]
    exact fun e he => tableSections_of_not_isTable (h e he)
  have htitle : header.isEmpty = false := by simpa using hheader
  rw [tableSections]
  simp only [hlines, hinner, htitle, Bool.false_eq_true, if_false, List.singleton_append,
    String.join_cons, List.append_nil]
  rw [if_neg (by simp [String.append_eq_empty_iff])]

/-- A table under a title. -/
def asTable (s : String × Entries) : String × Datum := (s.1, .dict s.2)

/-- The characters of a table under its title. -/
def tableChars (s : String × Entries) : List Char :=
  '[' :: keyChars s.1.toList ++ ']' :: '\n' :: s.2.flatMap fun e => (entryLine e).toList

/-- Tables of values are one section each. -/
theorem entrySections_of_tables {tables : List (String × Entries)}
    (h : ∀ s ∈ tables, ∀ e ∈ s.2, isTable e.2 = false) :
    entrySections [] (tables.map asTable) = tables.map fun s =>
      "[" ++ keyText s.1 ++ "]\n" ++ String.join (s.2.map entryLine) := by
  induction tables with
  | nil => rfl
  | cons s rest ih =>
    have hsection := tableSections_of_values (List.cons_ne_nil (keyText s.1) [])
      (h s List.mem_cons_self)
    rw [List.map_cons, asTable, entrySections, List.nil_append, hsection,
      ih fun t ht => h t (List.mem_cons_of_mem _ ht)]
    rfl

/-- **Tables of values are printed one after another, with an empty line in between.** -/
theorem toList_render {tables : List (String × Entries)}
    (h : ∀ s ∈ tables, ∀ e ∈ s.2, isTable e.2 = false) :
    (render (tables.map asTable)).toList = List.intercalate ['\n'] (tables.map tableChars) := by
  have htables : ∀ e ∈ tables.map asTable, isTable e.2 = true := by
    intro e he
    obtain ⟨s, -, rfl⟩ := List.mem_map.mp he
    rfl
  rw [render, tableSections_of_tables htables, entrySections_of_tables h, toList_joinWith,
    List.map_map]
  congr 1
  refine List.map_congr_left fun s _ => ?_
  simp [tableChars, toList_keyText, List.flatMap_map]

end TestScaffold.Toml
