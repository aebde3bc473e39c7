/-
  TestScaffold/Proofs/Run/Drafts.lean
  ===================================
  **The name that a draft goes by.**

  The file of a draft is named after the first class that its text declares, and
  for that the text is read back.  The draft of a legible class declares the test
  class for it (`Draft.declares_of_legible`), so nothing has to be read to know
  the name.
-/
import TestScaffold.Proofs.Fixture.Acceptance
import TestScaffold.Run.Reading

namespace TestScaffold

open TestScaffold.CSharp

/-- The first class that the text of the draft declares has this name. -/
def Draft.Declares (draft : Draft) (name : Name) : Prop :=
  Source.firstClassName draft.text = .ok name

/-- The draft of a legible class declares its test class. -/
theorem Draft.declares_of_legible {layout : Layout}
    (hindent : ∀ ch ∈ layout.indent.toList, isPlainBlank ch = true) {input : String}
    {file : Source.File} {c : Source.Class} {draft : Draft} (hlegible : c.Legible file)
    (hdraft : Draft.ofClass layout input file c = .ok draft) :
    draft.Declares (Naming.testClassName c.name) := by
  obtain ⟨x, hx, hxlegible, hclass⟩ := hlegible.exists_fixture
  obtain ⟨out, hrender, _, hfirst⟩ := hxlegible.firstClassName layout hindent
  simp only [Draft.ofClass, hx, hrender] at hdraft
  cases hdraft
  rw [Draft.Declares, hfirst, hclass]

/-- A source with one class, which has a legible name and no members, yields one draft, which
    declares the test class for it. -/
theorem Draft.exists_of_bare (made : Disk) (input source : String) {n : Name}
    (hread : made.readText (.ofString input) = .ok source)
    (hparse : Source.File.ofText source = .ok { classes := [{ name := n }] })
    (hname : n.Legible) (hreceiver : (Naming.receiverName n.text).Legible) :
    ∃ draft : Draft, Draft.ofClass {} input { classes := [{ name := n }] } { name := n } =
        .ok draft ∧ draft.Declares (Naming.testClassName n) ∧
      Yield.ofInput {} made input = { drafts := [draft] } := by
  have hindent := List.all_eq_true.mp (by decide : ({} : Layout).indent.toList.all isPlainBlank)
  have hlegible : ({ name := n } : Source.Class).Legible { classes := [{ name := n }] } :=
    Source.Class.legible_bare hname hreceiver rfl rfl
  obtain ⟨x, hx, hxlegible, _⟩ := hlegible.exists_fixture
  obtain ⟨out, hrender, _⟩ := hxlegible.firstClassName {} hindent
  have hdraft : Draft.ofClass {} input { classes := [{ name := n }] } { name := n } =
      .ok ⟨input, out⟩ := by
    simp only [Draft.ofClass, hx, hrender]
  refine ⟨_, hdraft, Draft.declares_of_legible hindent hlegible hdraft, ?_⟩
  simp only [Yield.ofInput, hread, Draft.ofSource, hparse, Draft.ofClasses, hdraft, Option.map_none]

/-! ### Files of classes -/

/-- The file of a class of a source file: the name that its text goes by, and the text. -/
structure Source.Class.FiledAs (layout : Layout) (input : String) (file : Source.File)
    (c : Source.Class) (name : Name) (text : String) : Prop where
  drafted : Draft.ofClass layout input file c = .ok ⟨input, text⟩
  named : Source.firstClassName text = .ok name

theorem Source.Class.FiledAs.name_eq {layout : Layout} {input : String} {file : Source.File}
    {c : Source.Class} {name : Name} {text : String} (h : c.FiledAs layout input file name text)
    (hindent : ∀ ch ∈ layout.indent.toList, isPlainBlank ch = true) (hlegible : c.Legible file) :
    name = Naming.testClassName c.name :=
  Except.ok.inj (h.named.symm.trans (Draft.declares_of_legible hindent hlegible h.drafted))

theorem Draft.exists_class_of_mem {layout : Layout} {origin : String} {file : Source.File}
    {classes : List Source.Class} {draft : Draft}
    (h : draft ∈ (ofClasses layout origin file classes).1) :
    ∃ c ∈ classes, ofClass layout origin file c = .ok draft := by
  induction classes with
  | nil => cases h
  | cons c rest ih =>
    cases hc : ofClass layout origin file c with
    | error cause => simp [ofClasses, hc] at h
    | ok first =>
      simp only [ofClasses, hc, List.mem_cons] at h
      rcases h with rfl | h
      · exact ⟨c, List.mem_cons_self, hc⟩
      · obtain ⟨c', hmem, hdraft⟩ := ih h
        exact ⟨c', List.mem_cons_of_mem _ hmem, hdraft⟩

theorem Draft.origin_of_ofClass {layout : Layout} {input : String} {file : Source.File}
    {c : Source.Class} {draft : Draft} (h : ofClass layout input file c = .ok draft) :
    draft.origin = input := by
  unfold ofClass at h
  split at h
  · cases h
  · split at h
    · cases h
    · cases h
      rfl

/-- A draft is that of a class, with the input as its origin. -/
theorem Draft.exists_filedAs {layout : Layout} {input source : String} {draft : Draft}
    (h : draft ∈ (ofSource layout input source).1) :
    ∃ file c, Source.File.ofText source = .ok file ∧ c ∈ file.classes ∧
      ∀ name, Source.firstClassName draft.text = .ok name →
        c.FiledAs layout input file name draft.text := by
  unfold ofSource at h
  cases hparse : Source.File.ofText source with
  | error cause => rw [hparse] at h; cases h
  | ok file =>
    rw [hparse] at h
    obtain ⟨c, hc, hdraft⟩ := exists_class_of_mem h
    refine ⟨file, c, rfl, hc, fun name hname => ⟨?_, hname⟩⟩
    rw [hdraft, ← origin_of_ofClass hdraft]

end TestScaffold
