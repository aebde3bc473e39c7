/-
  TestScaffold/Proofs/Run/OutputPath.lean
  =======================================
  **Where generated files stand.**

  The name of a class is a word, and no word holds a slash.  With an extension
  that the settings accept, the file of a class is therefore one name below the
  output directory, and classes of different names have different files: the
  texts of their paths differ, and so do their seats.
-/
import TestScaffold.Proofs.Files.Writing
import TestScaffold.Proofs.Text.Pieces
import TestScaffold.Run.Writing
import TestScaffold.Schema.Settings

namespace TestScaffold

open TestScaffold.Text

/-! ### Class names -/

namespace CSharp

/-- The name that a declaration states is a word. -/
theorem Tree.isWordChar_of_declaredName? {t : Tree} {name : Name}
    (h : t.declaredName? = some name) : ∀ c ∈ name.text.toList, isWordChar c = true := by
  unfold Tree.declaredName? at h
  obtain ⟨w, _, rfl⟩ := Option.map_eq_some_iff.mp h
  intro c hc
  refine w.allWord c ?_
  simpa [Word.name] using hc

end CSharp

/-- The name of a class that was read from a text is a word. -/
theorem Source.isWordChar_of_firstClassName {text : String} {name : Name}
    (h : Source.firstClassName text = .ok name) :
    ∀ c ∈ name.text.toList, CSharp.isWordChar c = true := by
  unfold Source.firstClassName at h
  split at h
  · split at h
    · rename_i found hfound
      cases h
      obtain ⟨t, _, ht⟩ := List.exists_of_findSome?_eq_some hfound
      split at ht
      · exact CSharp.Tree.isWordChar_of_declaredName? ht
      · cases ht
    · cases h
  · cases h

/-- No slash in the name of a class that was read from a text. -/
theorem Source.slash_notMem_firstClassName {text : String} {name : Name}
    (h : Source.firstClassName text = .ok name) : '/' ∉ name.text.toList := by
  intro hmem
  have hword := isWordChar_of_firstClassName h '/' hmem
  revert hword
  decide

/-! ### Paths of generated files -/

/-- An extension begins with a point and has no slash. -/
theorem Schema.of_extensionRule {s : String} (h : Schema.extensionRule s = none) :
    (∃ rest, s.toList = '.' :: rest) ∧ '/' ∉ s.toList := by
  unfold Schema.extensionRule at h
  split at h
  · rename_i hrule
    simp only [Bool.and_eq_true, Bool.not_eq_true', hasChar, List.contains_eq_mem,
      decide_eq_false_iff_not] at hrule
    refine ⟨?_, hrule.1.2⟩
    have hlead : (afterLead? ['.'] s.toList).isSome = true := hrule.1.1
    cases hs : s.toList with
    | nil => rw [hs] at hlead; cases hlead
    | cons c rest =>
      rw [hs] at hlead
      by_cases hc : '.' = c
      · exact ⟨rest, by rw [← hc]⟩
      · simp [afterLead?, hc] at hlead
  · cases h

theorem Path.ofString_eq_of_slash_notMem {s : String} (hslash : '/' ∉ s.toList)
    (hname : Path.isName s = true) : Path.ofString s = ⟨.here, [s]⟩ := by
  have hanchor : Path.anchorOf s.toList = .here := by
    unfold Path.anchorOf
    cases hs : s.toList with
    | nil => rfl
    | cons c rest =>
      rw [hs, List.mem_cons, not_or] at hslash
      have hc : (c == '/') = false := by
        rw [beq_eq_false_iff_ne]
        exact fun e => hslash.1 e.symm
      simp only [List.takeWhile_cons, hc]
      rfl
  have hsplit : splitOn '/' s = [s] := by
    simp only [splitOn, splitChars_of_not_mem hslash, List.map_cons, List.map_nil,
      String.ofList_toList]
  simp only [Path.ofString, hanchor, hsplit, List.filter_cons, hname, if_true, List.filter_nil]

namespace Plan

variable {plan : Plan}

/-- The path of a generated file is the output directory and one more name. -/
theorem outputPath_eq (hext : Schema.extensionRule plan.extension = none) {name : Name}
    (hslash : '/' ∉ name.text.toList) :
    plan.outputPath name =
      ⟨(Path.ofString plan.savePath).anchor,
        (Path.ofString plan.savePath).names ++ [name.text ++ plan.extension]⟩ := by
  obtain ⟨⟨rest, hrest⟩, hextSlash⟩ := Schema.of_extensionRule hext
  obtain ⟨c, more, hcs⟩ : ∃ c more, name.text.toList = c :: more := by
    cases hcs : name.text.toList with
    | nil =>
      refine absurd ?_ name.nonempty
      simpa using congrArg String.ofList hcs
    | cons c more => exact ⟨c, more, rfl⟩
  have hchars : (name.text ++ plan.extension).toList = c :: (more ++ '.' :: rest) := by
    rw [String.toList_append, hcs, hrest, List.cons_append]
  have hname : Path.isName (name.text ++ plan.extension) = true := by
    have hne : name.text ++ plan.extension ≠ "" := fun e => by
      rw [e] at hchars
      cases hchars
    have hdot : name.text ++ plan.extension ≠ "." := fun e => by
      rw [e] at hchars
      have hlength := congrArg List.length hchars
      simp at hlength
    simp [Path.isName, hne, hdot]
  have hnone : '/' ∉ (name.text ++ plan.extension).toList := by
    rw [String.toList_append, List.mem_append, not_or]
    exact ⟨hslash, hextSlash⟩
  unfold outputPath
  rw [Path.ofString_eq_of_slash_notMem hnone hname]
  rfl

/-- Classes of different names have paths of different texts. -/
theorem outputPath_text_injective (hext : Schema.extensionRule plan.extension = none)
    {name name' : Name} (hslash : '/' ∉ name.text.toList) (hslash' : '/' ∉ name'.text.toList)
    (h : (plan.outputPath name).text = (plan.outputPath name').text) : name = name' := by
  rw [outputPath_eq hext hslash, outputPath_eq hext hslash'] at h
  simp only [Path.text, List.append_eq_nil_iff, List.cons_ne_self, and_false, if_false,
    joinWith_concat, String.append_right_inj, String.append_left_inj] at h
  cases name
  cases name'
  simpa using h

/-- A list of paths, each once, with one more behind it that is new. -/
theorem listed_concat (hext : Schema.extensionRule plan.extension = none) {names : List Name}
    (hslash : ∀ name ∈ names, '/' ∉ name.text.toList) {name : Name}
    (hslash' : '/' ∉ name.text.toList) :
    (if (names.eraseDups.map fun (name : Name) => (plan.outputPath name).text).contains
        (plan.outputPath name).text
      then names.eraseDups.map fun (name : Name) => (plan.outputPath name).text
      else (names.eraseDups.map fun (name : Name) => (plan.outputPath name).text) ++
        [(plan.outputPath name).text]) =
      (names ++ [name]).eraseDups.map fun (name : Name) => (plan.outputPath name).text := by
  rw [List.eraseDups_append, List.map_append]
  by_cases hmem : name ∈ names
  · -- the name is listed, and its path with it
    rw [if_pos (List.contains_iff_mem.mpr (List.mem_map_of_mem (List.mem_eraseDups.mpr hmem)))]
    simp [List.removeAll, hmem]
  · -- a new name has a new path
    have hnew : ¬ (names.eraseDups.map fun (name : Name) => (plan.outputPath name).text).contains
        (plan.outputPath name).text = true := by
      rw [List.contains_iff_mem]
      intro hpath
      obtain ⟨other, hother, hsame⟩ := List.mem_map.mp hpath
      rw [List.mem_eraseDups] at hother
      exact hmem (outputPath_text_injective hext (hslash other hother) hslash' hsame ▸ hother)
    rw [if_neg hnew]
    simp [List.removeAll, hmem, List.eraseDups_cons]

/-- The seats of generated files share their directory and have the name of the class. -/
theorem seat_outputPath (hext : Schema.extensionRule plan.extension = none) {d : Disk}
    {name name' : Name} (hslash : '/' ∉ name.text.toList) (hslash' : '/' ∉ name'.text.toList)
    {parent parent' : Place} {last last' : String} (s : d.Seat (plan.outputPath name) parent last)
    (s' : d.Seat (plan.outputPath name') parent' last') :
    parent = parent' ∧ last = name.text ++ plan.extension ∧
      last' = name'.text ++ plan.extension := by
  have hleads := s.leads
  have hleads' := s'.leads
  have hlast := s.last
  have hlast' := s'.last
  rw [outputPath_eq hext hslash] at hleads hlast
  rw [outputPath_eq hext hslash'] at hleads' hlast'
  simp only [List.dropLast_concat, List.getLast?_concat, Option.some.injEq]
    at hleads hleads' hlast hlast'
  refine ⟨?_, hlast.symm, hlast'.symm⟩
  have hsame := hleads.symm.trans hleads'
  cases hsame
  rfl

/-- Generated files on one seat are of one class name. -/
theorem eq_of_seat_outputPath (hext : Schema.extensionRule plan.extension = none) {d : Disk}
    {name name' : Name} (hslash : '/' ∉ name.text.toList) (hslash' : '/' ∉ name'.text.toList)
    {parent parent' : Place} {last last' : String} (s : d.Seat (plan.outputPath name) parent last)
    (s' : d.Seat (plan.outputPath name') parent' last')
    (h : last :: parent = last' :: parent') : name = name' := by
  obtain ⟨_, hlast, hlast'⟩ := seat_outputPath hext hslash hslash' s s'
  have hsame : name.text ++ plan.extension = name'.text ++ plan.extension := by
    rw [← hlast, ← hlast']
    exact (List.cons.inj h).1
  rw [String.append_left_inj] at hsame
  cases name
  cases name'
  simpa using hsame

end Plan

end TestScaffold
