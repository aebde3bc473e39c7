/-
  TestScaffold/Proofs/Run/Confinement.lean
  ========================================
  **A run stays inside its output directory.**

  Whatever a run does to a disk, it does by making directories on the way of the
  output directory, or by putting the file of a draft right below it.  So nothing
  else is new or changed afterwards, with or without a report, and nothing is gone
  (`Plan.confined`).  The workers of a run may interleave as they like, and an
  input may be read after files have been written: a move of a run is to read an
  input or to take one of the waiting drafts further, and what is said holds after
  any moves.

  The file of a draft has the name of the first class that the text of the draft
  declares.  For a legible class this is the name of its test class.  For others
  it may be a name that no class under test has given (`Plan.stray_file`).
-/
import Mathlib.Logic.Relation
import TestScaffold.Proofs.CSharp.Classes
import TestScaffold.Proofs.Run.Outlets

namespace TestScaffold

open TestScaffold.CSharp

/-! ### Files of classes -/

/-- A text that was read holds a class that goes by this name, with this file. -/
def Generated (layout : Layout) (read : List (String × String)) (name : Name) (text : String) :
    Prop :=
  ∃ input source file c, (input, source) ∈ read ∧ Source.File.ofText source = .ok file ∧
    c ∈ file.classes ∧ c.FiledAs layout input file name text ∧
    ((∀ ch ∈ layout.indent.toList, isPlainBlank ch = true) → c.Legible file →
      name = Naming.testClassName c.name)

theorem Generated.mono {layout : Layout} {read read' : List (String × String)} {name : Name}
    {text : String} (h : Generated layout read name text) (hread : read ⊆ read') :
    Generated layout read' name text := by
  obtain ⟨input, source, file, c, hmem, hrest⟩ := h
  exact ⟨input, source, file, c, hread hmem, hrest⟩

/-! ### Moves of a run -/

/-- A run under way: the texts read so far, the drafts that wait, and what has come of the drafts
taken further. -/
structure Underway where
  read : List (String × String) := []
  waiting : List Draft := []
  progress : Progress

namespace Plan

/-- A run whose output directory has been taken care of. -/
def start (plan : Plan) (d : Disk) : Underway :=
  { progress := { outlet := plan.outlet (plan.inputDisk d) } }

/-- A move of a run: an input is read from the disk as it is now and its drafts wait, or one of
the waiting drafts is taken further. -/
inductive Move (plan : Plan) (layout : Layout) : Underway → Underway → Prop where
  | read (u : Underway) (input source : String) (asked : input ∈ plan.inputs)
      (found : u.progress.outlet.disk.readText (.ofString input) = .ok source) :
      Move plan layout u { u with
        read := u.read ++ [(input, source)]
        waiting := u.waiting ++ (Draft.ofSource layout input source).1 }
  | write (u : Underway) (before after : List Draft) (draft : Draft)
      (waits : u.waiting = before ++ draft :: after) :
      Move plan layout u { u with
        waiting := before ++ after
        progress := u.progress.step plan draft }

/-- One run after any moves. -/
abbrev Moves (plan : Plan) (layout : Layout) : Underway → Underway → Prop :=
  Relation.ReflTransGen (plan.Move layout)

end Plan

/-! ### What a run may change -/

/-- The disk with files of classes right below the output directory, and otherwise as it was. -/
structure Filled (plan : Plan) (layout : Layout) (read : List (String × String)) (made d : Disk) :
    Prop where
  grows : made.Grows d
  changed : ∀ q, d.find? q = made.find? q ∨ ∃ place name text,
    made.locate (.ofString plan.savePath) = .ok place ∧
      q = (name.text ++ plan.extension) :: place ∧ d.find? q = some (.file text.toUTF8) ∧
      Generated layout read name text

/-- What a run may do to a disk. An entry that is new or changed is a directory on the way of the
output directory, which was nothing before, or a file right below it, with the name of a class that
was generated and its extension. -/
structure Confined (plan : Plan) (layout : Layout) (read : List (String × String)) (d d' : Disk) :
    Prop where
  /-- No entry is gone, and no directory has become a file. -/
  grows : d.Grows d'
  changed : ∀ q, d'.find? q ≠ d.find? q →
    (d.find? q = none ∧ d'.find? q = some .directory ∧ ∃ k,
        d'.walk (d'.start (.ofString plan.savePath))
          ((Path.ofString plan.savePath).names.take k) = .ok q) ∨
      ∃ place name text, d'.locate (.ofString plan.savePath) = .ok place ∧
        q = (name.text ++ plan.extension) :: place ∧ d'.find? q = some (.file text.toUTF8) ∧
        Generated layout read name text

variable {plan : Plan} {layout : Layout} {read : List (String × String)}

theorem Filled.refl (made : Disk) : Filled plan layout read made made :=
  ⟨Disk.Grows.refl made, fun _ => Or.inl rfl⟩

theorem Filled.mono {read' : List (String × String)} {made d : Disk}
    (h : Filled plan layout read made d) (hread : read ⊆ read') :
    Filled plan layout read' made d := by
  refine ⟨h.grows, fun q => ?_⟩
  rcases h.changed q with hsame | ⟨place, name, text, hplace, hq, hfile, hgenerated⟩
  · exact Or.inl hsame
  · exact Or.inr ⟨place, name, text, hplace, hq, hfile, hgenerated.mono hread⟩

/-- The seat of a generated file is right below the output directory. -/
theorem Disk.Seat.below_savePath (hext : Schema.extensionRule plan.extension = none) {d : Disk}
    {name : Name} (hslash : '/' ∉ name.text.toList) {parent : Place} {last : String}
    (s : d.Seat (plan.outputPath name) parent last) :
    d.walk (d.start (.ofString plan.savePath)) (Path.ofString plan.savePath).names = .ok parent ∧
      last = name.text ++ plan.extension := by
  have hleads := s.leads
  have hlast := s.last
  rw [Plan.outputPath_eq hext hslash] at hleads hlast
  rw [List.dropLast_concat] at hleads
  rw [List.getLast?_concat] at hlast
  exact ⟨hleads, (Option.some.inj hlast).symm⟩

example : (Plan.sequentially ["A.cs"]).outputPath (Naming.testClassName "A") =
    ⟨.here, ["out", "ATests.cs"]⟩ := by
  decide +kernel

/-- A generated file fills the output directory further. -/
theorem Filled.writeText (hext : Schema.extensionRule plan.extension = none) {made d d' : Disk}
    (hthere : made.hasDirectory (.ofString plan.savePath) = .ok true)
    (h : Filled plan layout read made d) {name : Name} {text : String}
    (hslash : '/' ∉ name.text.toList) (hgenerated : Generated layout read name text)
    (hwrite : d.writeText (plan.outputPath name) text = .ok d') :
    Filled plan layout read made d' := by
  obtain ⟨parent, last, hseat, hfiled⟩ := Disk.writeText_ok hwrite
  obtain ⟨hparent, rfl⟩ := hseat.below_savePath hext hslash
  obtain ⟨place, hplace⟩ : ∃ place, made.locate (.ofString plan.savePath) = .ok place := by
    obtain ⟨place, hfits, hwalk, _⟩ := Disk.exists_locate_of_hasDirectory hthere
    exact ⟨place, by simp only [Disk.locate, hfits, hwalk]⟩
  -- writing has not moved the output directory: its place was fixed when it was made
  have hsame : parent = place :=
    Except.ok.inj (hparent.symm.trans (Disk.walk_of_locate (h.grows.locate hplace)))
  subst hsame
  refine ⟨h.grows.trans hfiled.grows, fun q => ?_⟩
  rw [hfiled.found]
  by_cases hq : q = (name.text ++ plan.extension) :: parent
  · exact Or.inr ⟨parent, name, text, hplace, hq, if_pos hq, hgenerated⟩
  · rw [if_neg hq]
    exact h.changed q

/-! ### What moves preserve -/

/-- A run under way from a disk with the output directory: its disk has been filled, and every
draft that waits is that of a class that was read. -/
structure Kept (plan : Plan) (layout : Layout) (made : Disk) (u : Underway) : Prop where
  outlet : u.progress.outlet.isDryRun = plan.isDryRun
  filled : Filled plan layout u.read made u.progress.outlet.disk
  waiting : ∀ draft ∈ u.waiting, ∀ name, Source.firstClassName draft.text = .ok name →
    Generated layout u.read name draft.text

theorem Kept.start (plan : Plan) (layout : Layout) (d : Disk) :
    Kept plan layout (plan.inputDisk d) (plan.start d) where
  outlet := rfl
  filled := Filled.refl _
  waiting := fun _ h => by cases h

/-- An input that is read changes nothing, and its drafts are those of its classes. -/
theorem Kept.of_read {made : Disk} {u : Underway} (h : Kept plan layout made u)
    (input source : String) : Kept plan layout made { u with
      read := u.read ++ [(input, source)]
      waiting := u.waiting ++ (Draft.ofSource layout input source).1 } := by
  have hread : u.read ⊆ u.read ++ [(input, source)] := List.subset_append_left _ _
  refine ⟨h.outlet, h.filled.mono hread, fun draft hdraft name hname => ?_⟩
  rcases List.mem_append.mp hdraft with hdraft | hdraft
  · exact (h.waiting draft hdraft name hname).mono hread
  · obtain ⟨file, c, hparse, hc, hfiled⟩ := Draft.exists_filedAs hdraft
    exact ⟨input, source, file, c, List.mem_concat_self, hparse, hc, hfiled name hname,
      (hfiled name hname).name_eq⟩

/-- A draft that is taken further leaves the disk alone or fills it. -/
theorem Kept.of_write (hext : Schema.extensionRule plan.extension = none) {made : Disk}
    (hthere : plan.isDryRun = false → made.hasDirectory (.ofString plan.savePath) = .ok true)
    {u : Underway} (h : Kept plan layout made u) {before after : List Draft} {draft : Draft}
    (hwaits : u.waiting = before ++ draft :: after) : Kept plan layout made { u with
      waiting := before ++ after
      progress := u.progress.step plan draft } := by
  have hdraft : draft ∈ u.waiting := hwaits ▸ List.mem_append_cons_self
  have hothers : before ++ after ⊆ u.waiting :=
    hwaits ▸ ((List.sublist_cons_self draft after).append_left before).subset
  have hwaiting : ∀ other ∈ before ++ after, ∀ name,
      Source.firstClassName other.text = .ok name → Generated layout u.read name other.text :=
    fun other hother => h.waiting other (hothers hother)
  rcases Progress.outlet_step plan u.progress draft with hsame | ⟨name, hname, hwrite⟩
  · exact ⟨by rw [hsame]; exact h.outlet, by rw [hsame]; exact h.filled, hwaiting⟩
  · by_cases hdry : plan.isDryRun = true
    · rw [Outlet.writeText_dry (h.outlet.trans hdry)] at hwrite
      have hsame := Except.ok.inj hwrite
      exact ⟨by rw [← hsame]; exact h.outlet, by rw [← hsame]; exact h.filled, hwaiting⟩
    · have hwet : plan.isDryRun = false := Bool.not_eq_true _ ▸ hdry
      obtain ⟨hwet', hput⟩ := Outlet.writeText_ok (h.outlet.trans hwet) hwrite
      exact ⟨hwet'.trans hwet.symm, h.filled.writeText hext (hthere hwet)
        (Source.slash_notMem_firstClassName hname) (h.waiting draft hdraft name hname) hput,
        hwaiting⟩

/-- **What holds of a run under way holds after any moves.** -/
theorem Kept.moves (hext : Schema.extensionRule plan.extension = none) {made : Disk}
    (hthere : plan.isDryRun = false → made.hasDirectory (.ofString plan.savePath) = .ok true)
    {u u' : Underway} (hmoves : plan.Moves layout u u') (h : Kept plan layout made u) :
    Kept plan layout made u' := by
  induction hmoves with
  | refl => exact h
  | tail _ hmove ih =>
    cases hmove with
    | read input source => exact ih.of_read input source
    | write before after draft waits => exact ih.of_write hext hthere waits

/-! ### A run as its moves -/

namespace Yield

theorem started_prefix (readers : Nat) (ys : List Yield) :
    ∀ left?, started readers left? ys <+: ys := by
  induction ys with
  | nil => exact fun _ => List.prefix_refl _
  | cons y ys ih =>
    intro left?
    unfold started
    split
    · exact List.nil_prefix
    · exact List.prefix_cons_inj y |>.mpr (ih _)

end Yield

namespace Plan

/-- Inputs that are read one after the other, before anything is written. -/
theorem moves_read (layout : Layout) {inputs : List String} (hinputs : inputs ⊆ plan.inputs)
    (u : Underway) : ∃ read, (∀ r ∈ read, r.1 ∈ plan.inputs ∧
        u.progress.outlet.disk.readText (.ofString r.1) = .ok r.2) ∧
      plan.Moves layout u { u with
        read := u.read ++ read
        waiting := u.waiting ++ (inputs.map
          (Yield.ofInput layout u.progress.outlet.disk)).flatMap (·.drafts) } := by
  induction inputs generalizing u with
  | nil =>
    refine ⟨[], fun r hr => absurd hr List.not_mem_nil, ?_⟩
    simp only [List.append_nil, List.map_nil, List.flatMap_nil]
    exact .refl
  | cons input rest ih =>
    obtain ⟨hinput, hrest⟩ := List.cons_subset.mp hinputs
    cases hread : u.progress.outlet.disk.readText (.ofString input) with
    | error cause =>
      -- an input that is not read yields no drafts, and the run does not move
      obtain ⟨read, hfound, hmoves⟩ := ih hrest u
      refine ⟨read, hfound, ?_⟩
      simpa [Yield.ofInput_unread hread] using hmoves
    | ok source =>
      have hmove : plan.Move layout u _ := .read u input source hinput hread
      obtain ⟨read, hfound, hmoves⟩ := ih hrest { u with
        read := u.read ++ [(input, source)]
        waiting := u.waiting ++ (Draft.ofSource layout input source).1 }
      refine ⟨(input, source) :: read, List.forall_mem_cons.mpr ⟨⟨hinput, hread⟩, hfound⟩, ?_⟩
      refine .head hmove ?_
      simpa [Yield.ofInput, hread] using hmoves

theorem moves_write (plan : Plan) (layout : Layout) {drafts : List Draft} :
    ∀ u : Underway, u.waiting = drafts → plan.Moves layout u { u with
      waiting := []
      progress := u.progress.steps plan drafts } := by
  induction drafts with
  | nil =>
    rintro ⟨read, waiting, progress⟩ rfl
    exact Relation.ReflTransGen.refl
  | cons draft rest ih =>
    intro u hwaits
    exact .head (.write u [] rest draft hwaits) (ih _ rfl)

/-- **A run is one way to move**: it reads the inputs that are taken up, then it writes their
drafts. -/
theorem exists_moves_progress (plan : Plan) (layout : Layout) (d : Disk) :
    ∃ u, plan.Moves layout (plan.start d) u ∧ u.progress = plan.progress layout d ∧
      ∀ r ∈ u.read, r.1 ∈ plan.inputs ∧
        (plan.inputDisk d).readText (.ofString r.1) = .ok r.2 := by
  obtain ⟨inputs, hinputs, hyields⟩ : ∃ inputs, inputs ⊆ plan.inputs ∧
      plan.yields layout d = inputs.map (Yield.ofInput layout (plan.inputDisk d)) := by
    obtain ⟨more, hmore⟩ := Yield.started_prefix plan.limits.reading
      (plan.inputs.map (Yield.ofInput layout (plan.inputDisk d))) none
    obtain ⟨inputs, rest, hsplit, hinputs, _⟩ := List.map_eq_append_iff.mp hmore.symm
    refine ⟨inputs, ?_, hinputs.symm⟩
    rw [hsplit]
    exact List.subset_append_left _ _
  obtain ⟨read, hread, hmoves⟩ := moves_read layout hinputs (plan.start d)
  refine ⟨_, hmoves.trans (moves_write plan layout _ rfl), ?_, ?_⟩
  · simp only [progress, after, drafts, hyields]
    rfl
  · exact hread

/-! ### The frame of a run -/

variable {d : Disk}

/-- A filled disk is confined, seen from the disk before the output directory was made. -/
theorem confined_of_filled {made d' : Disk} (hpaved : d.Paved made (.ofString plan.savePath))
    (hfilled : Filled plan layout read made d') : Confined plan layout read d d' := by
  refine ⟨hpaved.grows.trans hfilled.grows, fun q hne => ?_⟩
  rcases hfilled.changed q with hsame | ⟨place, name, text, hplace, hfile⟩
  · rcases hpaved.onTheWay q with hsame' | ⟨hnone, hmade, k, hk⟩
    · exact absurd (hsame.trans hsame') hne
    · refine Or.inl ⟨hnone, hsame.trans hmade, k, ?_⟩
      rw [hfilled.grows.start]
      exact hfilled.grows.walk hk
  · exact Or.inr ⟨place, name, text, hfilled.grows.locate hplace, hfile⟩

/-- Making the output directory, or trying to, adds directories on its way only. -/
theorem paved_start (plan : Plan) (d : Disk) :
    d.Paved (plan.inputDisk d) (.ofString plan.savePath) := by
  by_cases hdry : plan.isDryRun = true
  · rw [inputDisk_dry hdry]
    exact Disk.Paved.refl _ _
  · rw [inputDisk_wet (Bool.not_eq_true _ ▸ hdry)]
    exact Disk.paved_ensureDirectory d _

theorem disk_run_of_not_ensured {cause : WriteError}
    (h : ((plan.outlet d).ensureDirectory (.ofString plan.savePath)).2 = .error cause) :
    (plan.run layout d).disk = plan.inputDisk d := by
  have hmade : (plan.outlet d).ensureDirectory (.ofString plan.savePath) =
      (plan.outlet (plan.inputDisk d), .error cause) := Prod.ext ensureDirectory_outlet h
  simp only [outlet] at hmade
  simp only [run, hmade]
  unfold Outcome.withoutDirectory
  split <;> rfl

theorem confined_of_moves (hext : Schema.extensionRule plan.extension = none)
    (hensured : ((plan.outlet d).ensureDirectory (.ofString plan.savePath)).2 = .ok ())
    {u : Underway} (hmoves : plan.Moves layout (plan.start d) u) :
    Confined plan layout u.read d u.progress.outlet.disk := by
  have hkept := (Kept.start plan layout d).moves hext
    (fun hwet => (paved_inputDisk hwet hensured).2) hmoves
  exact confined_of_filled (paved_start plan d) hkept.filled

/-- **A run stays inside its output directory**, with or without a report, and so does a run under
way, in whatever order its inputs are read and its drafts written. -/
theorem confined (hext : Schema.extensionRule plan.extension = none) (layout : Layout) (d : Disk) :
    (∃ read, (∀ r ∈ read, r.1 ∈ plan.inputs ∧
        (plan.inputDisk d).readText (.ofString r.1) = .ok r.2) ∧
      Confined plan layout read d (plan.run layout d).disk) ∧
    (((plan.outlet d).ensureDirectory (.ofString plan.savePath)).2 = .ok () →
      ∀ u, plan.Moves layout (plan.start d) u →
        Confined plan layout u.read d u.progress.outlet.disk) := by
  refine ⟨?_, fun hensured u hmoves => confined_of_moves hext hensured hmoves⟩
  cases hensured : ((plan.outlet d).ensureDirectory (.ofString plan.savePath)).2 with
  | error cause =>
    refine ⟨[], fun r hr => absurd hr List.not_mem_nil, ?_⟩
    rw [disk_run_of_not_ensured hensured]
    exact confined_of_filled (paved_start plan d) (Filled.refl _)
  | ok =>
    obtain ⟨u, hmoves, hprogress, hread⟩ := exists_moves_progress plan layout d
    refine ⟨u.read, hread, ?_⟩
    rw [run_eq_ofProgress layout hensured, Outcome.ofProgress_disk, ← hprogress]
    exact confined_of_moves hext hensured hmoves

theorem confined_sourceDisk :
    Schema.extensionRule (sequentially ["A.cs"]).extension = none ∧
      (∃ read, (∀ r ∈ read, r.1 ∈ ["A.cs"] ∧
          ((sequentially ["A.cs"]).inputDisk sourceDisk).readText (.ofString r.1) = .ok r.2) ∧
        Confined (sequentially ["A.cs"]) {} read sourceDisk
          ((sequentially ["A.cs"]).run {} sourceDisk).disk) ∧
      ∃ u, (sequentially ["A.cs"]).Moves {} ((sequentially ["A.cs"]).start sourceDisk) u ∧
        u.progress = (sequentially ["A.cs"]).progress {} sourceDisk ∧
        Confined (sequentially ["A.cs"]) {} u.read sourceDisk u.progress.outlet.disk := by
  have hext : Schema.extensionRule (sequentially ["A.cs"]).extension = none :=
    (sequential_sequentially _).extension
  obtain ⟨hrun, hmoving⟩ := confined hext {} sourceDisk
  obtain ⟨hensured, _⟩ := whole_of_run_ok report_sourceDisk
  obtain ⟨u, hmoves, hprogress, _⟩ := exists_moves_progress (sequentially ["A.cs"]) {} sourceDisk
  exact ⟨hext, hrun, u, hmoves, hprogress, hmoving hensured u hmoves⟩

/-! ### A file under another name -/

/-- A source with one class. Of its first directive the five characters behind `global` are dropped
as if they were the word `using`, and what is left of the comment declares a class. -/
def strayText : String :=
  "global /*###X;class BTests{}/*/using Y;\nusing W/**/;\nclass A{}"

theorem classes_strayText :
    (Source.File.ofText strayText).map (·.classes.map (·.name.text)) = .ok ["A"] := by
  decide +kernel

/-- A disk with this source and a plain one. -/
def strayDisk : Disk :=
  (Disk.empty.put "A.cs" [] (.file strayText.toUTF8) Disk.empty.here_isDirectory (by decide)).put
    "B.cs" [] (.file "class B{}".toUTF8) (by decide) (by decide)

/-- The disk with the output directory. -/
def strayMade : Disk := (strayDisk.ensureDirectory (.ofString "out")).1

/-- The name of the test class for the class `B`. -/
def strayName : Name := Naming.testClassName "B"

/-- The draft of the class `A`, in which the comment begins behind another class. -/
def strayDraft : Draft where
  origin := "A.cs"
  text :=
    "global using X;class BTests{}/*/using Y;\nusing System;\nusing System.Collections;\n" ++
    "using System.Collections.Generic;\nusing Xunit;\nusing Moq;\nusing W/**/;\n\n" ++
    "namespace Tests\n\x7b\n    public class ATests\n    \x7b\n        private A _a;\n\n        " ++
    "public ATests()\n        \x7b\n            _a = new A();\n        \x7d\n    \x7d\n\x7d\n"

set_option maxRecDepth 20000 in
theorem declares_strayDraft : strayDraft.Declares strayName := by
  unfold Draft.Declares
  apply Source.firstClassName_of_chars
  · rw [strayDraft, String.toList_append, String.toList_append, String.toList_append,
      String.toList_ofList, String.toList_ofList, String.toList_ofList, String.toList_ofList]
  · decide +kernel

theorem ofInput_strayMade : Yield.ofInput {} strayMade "A.cs" = { drafts := [strayDraft] } := by
  decide +kernel

/-- The draft of the class `A` goes by the name of the test class for `B`. -/
theorem exists_strayDraft : ∃ draft : Draft, draft.Declares strayName ∧
    draft.text.toList.head? = some 'g' ∧
      Yield.ofInput {} strayMade "A.cs" = { drafts := [draft] } := by
  refine ⟨strayDraft, declares_strayDraft, ?_, ofInput_strayMade⟩
  simp only [strayDraft, String.toList_append, List.head?_append]
  rw [String.toList_ofList]
  rfl

/-- Over inputs whose drafts all go by that name, the last draft stands. -/
theorem run_strayDisk (inputs : List String) (earlier : List Draft) (draft : Draft)
    (hwhole : ∀ input ∈ inputs, (Yield.ofInput {} strayMade input).error? = none)
    (hdrafts : (inputs.map (Yield.ofInput {} strayMade)).flatMap (·.drafts) = earlier ++ [draft])
    (hnames : ∀ other ∈ earlier ++ [draft], other.Declares strayName) :
    (∃ report, ((sequentially inputs).run {} strayDisk).result = .ok report) ∧
      ((sequentially inputs).run {} strayDisk).disk.find? ["BTests.cs", "out"] =
        some (.file draft.text.toUTF8) := by
  have hmade : strayDisk.ensureDirectory (.ofString "out") = (strayMade, .ok ()) :=
    Prod.ext rfl (by decide +kernel)
  have hpath : (sequentially inputs).outputPath strayName = ⟨.here, ["out", "BTests.cs"]⟩ :=
    (by decide : Path.ofString "out" ++ Path.ofString "BTests.cs" = ⟨.here, ["out", "BTests.cs"]⟩)
  have hseat : strayMade.Seat ⟨.here, ["out", "BTests.cs"]⟩ ["out"] "BTests.cs" :=
    ⟨by decide +kernel, by decide +kernel, by decide +kernel, by decide, by decide, by decide⟩
  exact run_of_one_name (sequential_sequentially inputs).extension rfl rfl hmade hwhole hdrafts
    hnames hpath hseat (by decide +kernel) (by decide +kernel)

/-- A run may leave a file behind that has not the name of the test class for any class of its
inputs: the unit of the class `A` is written to `out/BTests.cs`. -/
theorem stray_file : Schema.extensionRule (sequentially ["A.cs"]).extension = none ∧
    ¬ ∀ q bytes, ((sequentially ["A.cs"]).run {} strayDisk).disk.find? q = some (.file bytes) →
      strayDisk.find? q = none →
        ∃ input ∈ ["A.cs"], ∃ source file c, strayDisk.readText (.ofString input) = .ok source ∧
          Source.File.ofText source = .ok file ∧ c ∈ file.classes ∧ ∃ place,
            q = ((Naming.testClassName c.name).text ++ (sequentially ["A.cs"]).extension) ::
              place := by
  refine ⟨(sequential_sequentially _).extension, ?_⟩
  intro h
  have hread : strayDisk.readText (.ofString "A.cs") = .ok strayText := by decide +kernel
  have hclasses := classes_strayText
  obtain ⟨draft, hname, _, hyield⟩ := exists_strayDraft
  have hfile := (run_strayDisk ["A.cs"] [] draft
    (by simp [hyield]) (by simp [hyield]) (by simpa using hname)).2
  obtain ⟨input, hinput, source, file, c, hsource, hparse, hc, place, hq⟩ :=
    h _ _ hfile (by decide)
  rw [List.mem_singleton.mp hinput, hread] at hsource
  cases hsource
  rw [hparse] at hclasses
  have hclass : c.name.text ∈ ["A"] :=
    Except.ok.inj hclasses ▸ List.mem_map_of_mem (f := fun c => c.name.text) hc
  have htext := (List.cons.inj hq).1
  simp only [Naming.testClassName, List.mem_singleton.mp hclass] at htext
  exact absurd htext (by decide)

end Plan

end TestScaffold
