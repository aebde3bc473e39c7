/-
  TestScaffold/Proofs/Run/Repetition.lean
  =======================================
  **A run can be repeated.**

  A run with a report leaves the output directory and the generated files behind.
  A second run meets a disk with the same directories, so every write that was
  accepted is accepted again.  Where its inputs read as they did, it has the same
  drafts (`Plan.run_again_of_readText`), and so it is if none of the generated
  files is an input (`Plan.readText_of_sparesInputs`).  After each of its writes a
  place holds what the first run had there after the same write, or already what
  the first run left in the end (`Ahead`); at the end the two are one.
-/
import TestScaffold.Proofs.Files.SameDirectories
import TestScaffold.Proofs.Run.Steps

namespace TestScaffold

/-- No file that a run generates stands where an input of the run is read. -/
def Plan.SparesInputs (plan : Plan) (layout : Layout) (d : Disk) : Prop :=
  ∀ draft ∈ plan.drafts layout d, ∀ name,
    Source.firstClassName draft.text = .ok name → ∀ input ∈ plan.inputs, ∀ q,
      (plan.inputDisk d).locate (.ofString input) = .ok q →
        (plan.inputDisk d).locate (plan.outputPath name) ≠ .ok q

/-- An outlet of the same directories, whose places hold what those of the first outlet hold or
    already what they hold in the end. -/
structure Ahead (final : Disk) (o o' : Outlet) : Prop where
  wet : o.isDryRun = false
  wet' : o'.isDryRun = false
  directories : o.disk.SameDirectories o'.disk
  found : ∀ q, o'.disk.find? q = o.disk.find? q ∨ o'.disk.find? q = final.find? q

/-- Both outlets take the text on one seat, and are ahead as before. -/
theorem Ahead.writeText {final : Disk} {o o₁ o' : Outlet} (path : Path) (text : String)
    (h : Ahead final o o') (hwrite : o.writeText path text = .ok o₁) :
    ∃ o₁', o'.writeText path text = .ok o₁' ∧ Ahead final o₁ o₁' := by
  obtain ⟨hwet, hput⟩ := Outlet.writeText_ok h.wet hwrite
  obtain ⟨e', parent, last, hput', hseat, hfiled, hfiled'⟩ := h.directories.writeText hput
  refine ⟨{ o' with disk := e' }, ?_, hwet, h.wet', ?_, fun q => ?_⟩
  · rw [Outlet.writeText_wet h.wet', hput']
    rfl
  · exact hfiled.sameDirectories.symm.trans (h.directories.trans hfiled'.sameDirectories)
  · by_cases hq : q = last :: parent
    · exact Or.inl (by rw [hfiled.found, hfiled'.found, if_pos hq, if_pos hq])
    · rw [hfiled.found, hfiled'.found, if_neg hq, if_neg hq]
      exact h.found q

/-! ### What the first run leaves behind -/

/-- A disk that has grown out of the one the inputs were read from, without new directories and
    without a change where an input is read. -/
structure Spared (inputs : List String) (made d : Disk) : Prop where
  grows : made.Grows d
  directories : made.SameDirectories d
  found : ∀ input ∈ inputs, ∀ q, made.locate (.ofString input) = .ok q → d.find? q = made.find? q

/-- A text that is not written where an input is read leaves the inputs as they were. -/
theorem Spared.writeText {inputs : List String} {made d d' : Disk} {path : Path} {text : String}
    (h : Spared inputs made d) (hwrite : d.writeText path text = .ok d')
    (hspares : ∀ input ∈ inputs, ∀ q, made.locate (.ofString input) = .ok q →
      made.locate path ≠ .ok q) : Spared inputs made d' := by
  obtain ⟨parent, last, hseat, hfiled⟩ := Disk.writeText_ok hwrite
  refine ⟨h.grows.trans hfiled.grows, h.directories.trans hfiled.sameDirectories, ?_⟩
  intro input hinput q hq
  have hother : q ≠ last :: parent := by
    rintro rfl
    -- the seat would have been taken from the start, so the path would have led to the input
    have hplace : (made.find? (last :: parent)).isSome = true :=
      Disk.find?_isSome_of_locate hq
    exact hspares input hinput _ hq ((h.directories.symm.seat hseat).locate hplace)
  rw [hfiled.found, if_neg hother]
  exact h.found input hinput q hq

/-- An input that was read is read again. -/
theorem Spared.readText {inputs : List String} {made d : Disk} (h : Spared inputs made d)
    {input : String} (hinput : input ∈ inputs) {text : String}
    (hread : made.readText (.ofString input) = .ok text) :
    d.readText (.ofString input) = made.readText (.ofString input) := by
  obtain ⟨q, _, hlocate, _⟩ := Disk.exists_file_of_readText hread
  exact h.grows.readText_eq hlocate (h.found input hinput q hlocate)

namespace Plan

variable {plan : Plan} {layout : Layout} {d : Disk}

theorem spared_progress (hwet : plan.isDryRun = false) (hspares : plan.SparesInputs layout d) :
    Spared plan.inputs (plan.inputDisk d) (plan.progress layout d).outlet.disk := by
  have hkept : (plan.progress layout d).outlet.isDryRun = false ∧
      Spared plan.inputs (plan.inputDisk d) (plan.progress layout d).outlet.disk := by
    refine Progress.steps_outlet (P := fun o => o.isDryRun = false ∧
      Spared plan.inputs (plan.inputDisk d) o.disk) ?_ ⟨hwet, ?_⟩
    · rintro draft hdraft name hname o o' ⟨ho, hspared⟩ hwrite
      obtain ⟨ho', hput⟩ := Outlet.writeText_ok ho hwrite
      exact ⟨ho', hspared.writeText hput (hspares draft hdraft name hname)⟩
    · exact ⟨Disk.Grows.refl _, Disk.SameDirectories.refl _, fun _ _ _ _ => rfl⟩
  exact hkept.2

/-- A run that writes adds no directory to those it began with, and nothing of it is gone. -/
theorem grows_progress (hwet : plan.isDryRun = false) :
    (plan.inputDisk d).Grows (plan.progress layout d).outlet.disk ∧
      (plan.inputDisk d).SameDirectories (plan.progress layout d).outlet.disk := by
  have hkept : (plan.progress layout d).outlet.isDryRun = false ∧
      (plan.inputDisk d).Grows (plan.progress layout d).outlet.disk ∧
      (plan.inputDisk d).SameDirectories (plan.progress layout d).outlet.disk := by
    refine Progress.steps_outlet (P := fun o => o.isDryRun = false ∧
      (plan.inputDisk d).Grows o.disk ∧ (plan.inputDisk d).SameDirectories o.disk) ?_
      ⟨hwet, Disk.Grows.refl _, Disk.SameDirectories.refl _⟩
    rintro draft _ name _ o o' ⟨ho, hgrows, hsame⟩ hwrite
    obtain ⟨ho', hput⟩ := Outlet.writeText_ok ho hwrite
    obtain ⟨parent, last, _, hfiled⟩ := Disk.writeText_ok hput
    exact ⟨ho', hgrows.trans hfiled.grows, hsame.trans hfiled.sameDirectories⟩
  exact hkept.2

/-- On a disk with the same directories and the same inputs, the output directory and the inputs are
found as before. -/
theorem yields_again {made : Disk} (hwet : plan.isDryRun = false)
    (hensured : ((plan.outlet d).ensureDirectory (.ofString plan.savePath)).2 = .ok ())
    (hsame : (plan.inputDisk d).SameDirectories made)
    (hread : ∀ input ∈ plan.inputs,
      made.readText (.ofString input) = (plan.inputDisk d).readText (.ofString input)) :
    made.ensureDirectory (.ofString plan.savePath) = (made, .ok ()) ∧
      plan.inputDisk made = made ∧ plan.yields layout made = plan.yields layout d := by
  have hthere : made.ensureDirectory (.ofString plan.savePath) = (made, .ok ()) :=
    Disk.ensureDirectory_of_hasDirectory (hsame.hasDirectory (paved_inputDisk hwet hensured).2)
  have hinput : plan.inputDisk made = made := by rw [inputDisk_wet hwet, hthere]
  refine ⟨hthere, hinput, Yield.ofPlan_congr layout rfl rfl fun input hmem => ?_⟩
  rw [hinput]
  exact hread input hmem

/-- With the same inputs the same steps are taken, ahead of the first ones. -/
theorem progress_again {final : Disk} (hwet : plan.isDryRun = false)
    (hsame : (plan.inputDisk d).SameDirectories final)
    (hinput : plan.inputDisk final = final)
    (hyields : plan.yields layout final = plan.yields layout d)
    (herrors : (plan.progress layout d).errors = []) :
    ∃ o, plan.progress layout final = (plan.progress layout d).on o ∧
      Ahead final (plan.progress layout d).outlet o := by
  have hstart : Ahead final ({ outlet := plan.outlet (plan.inputDisk d) } : Progress).outlet
      (plan.outlet final) := ⟨hwet, hwet, hsame, fun _ => Or.inr rfl⟩
  obtain ⟨o, hsteps, hahead⟩ := Progress.steps_on plan Ahead.writeText
    (plan.drafts layout d) hstart herrors
  refine ⟨o, ?_, hahead⟩
  rw [progress, after, drafts, hyields, hinput]
  exact hsteps

/-- **A run with a report can be repeated where its inputs read as they did**: with the same report
    and the same overwritings, and every place holds what it held. -/
theorem run_again_of_readText {report : Report} (hok : (plan.run layout d).result = .ok report)
    (hread : ∀ input ∈ plan.inputs, (plan.run layout d).disk.readText (.ofString input) =
      (plan.inputDisk d).readText (.ofString input)) :
    (plan.run layout (plan.run layout d).disk).result = .ok report ∧
      (plan.run layout (plan.run layout d).disk).overwritings =
        (plan.run layout d).overwritings ∧
      (plan.run layout (plan.run layout d).disk).disk.here = (plan.run layout d).disk.here ∧
      ∀ q, (plan.run layout (plan.run layout d).disk).disk.find? q =
        (plan.run layout d).disk.find? q := by
  by_cases hdry : plan.isDryRun = true
  · rw [disk_run_dry hdry]
    exact ⟨hok, rfl, by rw [disk_run_dry hdry], fun q => by rw [disk_run_dry hdry]⟩
  · have hwet : plan.isDryRun = false := Bool.not_eq_true _ ▸ hdry
    obtain ⟨hensured, _, herrors⟩ := whole_of_run_ok hok
    have hsame : (plan.inputDisk d).SameDirectories (plan.progress layout d).outlet.disk :=
      (grows_progress hwet).2
    have hfirst := run_eq_ofProgress layout hensured
    rw [hfirst] at hok hread ⊢
    simp only [Outcome.ofProgress_disk] at hread ⊢
    generalize hfinal : (plan.progress layout d).outlet.disk = final at hsame hread ⊢
    obtain ⟨hthere, hinput, hyields⟩ :
        _ ∧ _ ∧ plan.yields layout final = plan.yields layout d :=
      yields_again hwet hensured hsame hread
    obtain ⟨o, hprogress, hahead⟩ := progress_again hwet hsame hinput hyields herrors
    have hensured' :
        ((plan.outlet final).ensureDirectory (.ofString plan.savePath)).2 = .ok () := by
      rw [Outlet.ensureDirectory_wet hwet]
      exact congrArg Prod.snd hthere
    rw [run_eq_ofProgress layout hensured', hyields, hprogress]
    refine ⟨hok, rfl, ?_, fun q => ?_⟩
    · rw [← hfinal]
      exact hahead.directories.here
    · rcases hahead.found q with hsofar | hend
      · rw [← hfinal]
        exact hsofar
      · exact hend

/-- Inputs that are spared read as they did. -/
theorem readText_of_sparesInputs {report : Report}
    (hok : (plan.run layout d).result = .ok report) (hspares : plan.SparesInputs layout d)
    {input : String} (hinput : input ∈ plan.inputs) :
    (plan.run layout d).disk.readText (.ofString input) =
      (plan.inputDisk d).readText (.ofString input) := by
  by_cases hdry : plan.isDryRun = true
  · rw [disk_run_dry hdry, inputDisk_dry hdry]
  · have hwet : plan.isDryRun = false := Bool.not_eq_true _ ▸ hdry
    obtain ⟨hensured, hwhole, _⟩ := whole_of_run_ok hok
    obtain ⟨text, htext⟩ := Yield.readText_of_ofPlan hwhole hinput
    rw [run_eq_ofProgress layout hensured, Outcome.ofProgress_disk]
    exact (spared_progress hwet hspares).readText hinput htext

/-- **A run with a report that spares its inputs can be repeated**: with the same report and the
    same overwritings, and every place holds what it held. -/
theorem run_again {report : Report} (hok : (plan.run layout d).result = .ok report)
    (hspares : plan.SparesInputs layout d) :
    (plan.run layout (plan.run layout d).disk).result = .ok report ∧
      (plan.run layout (plan.run layout d).disk).overwritings =
        (plan.run layout d).overwritings ∧
      (plan.run layout (plan.run layout d).disk).disk.here = (plan.run layout d).disk.here ∧
      ∀ q, (plan.run layout (plan.run layout d).disk).disk.find? q =
        (plan.run layout d).disk.find? q :=
  run_again_of_readText hok fun _ hinput => readText_of_sparesInputs hok hspares hinput

end Plan

/-- The generated files stand in a directory of their own, and the input does not. -/
theorem sparesInputs_sourceDisk : (Plan.sequentially ["A.cs"]).SparesInputs {} sourceDisk := by
  intro draft _ name hname input hinput q hinputPlace houtputPlace
  cases List.mem_singleton.mp hinput
  have hinputPlace' : ((Plan.sequentially ["A.cs"]).inputDisk sourceDisk).locate
      (.ofString "A.cs") = .ok ["A.cs"] := by decide +kernel
  obtain rfl : ["A.cs"] = q := Except.ok.inj (hinputPlace'.symm.trans hinputPlace)
  rw [Plan.outputPath_eq (Plan.sequential_sequentially _).extension
    (Source.slash_notMem_firstClassName hname)] at houtputPlace
  obtain ⟨directory, hdirectory, hlast⟩ :=
    Disk.exists_walk_of_append (Disk.walk_of_locate houtputPlace)
  have hout : ((Plan.sequentially ["A.cs"]).inputDisk sourceDisk).walk [] ["out"] =
      .ok ["out"] := by
    decide +kernel
  obtain rfl : ["out"] = directory := Except.ok.inj (hout.symm.trans hdirectory)
  obtain ⟨_, hup | ⟨_, _, _, hbelow⟩⟩ := Disk.step_eq_ok_iff.mp (Disk.step_of_walk hlast)
  · cases hup.2
  · cases (List.cons.inj hbelow).2

theorem run_again_sourceDisk :
    (Plan.run (.sequentially ["A.cs"]) {} sourceDisk).result =
        .ok { filesRead := 1, unitsGenerated := 1, writtenFiles := ["out/ATests.cs"] } ∧
      (Plan.sequentially ["A.cs"]).SparesInputs {} sourceDisk ∧
      (Plan.run (.sequentially ["A.cs"]) {}
        (Plan.run (.sequentially ["A.cs"]) {} sourceDisk).disk).result =
          .ok { filesRead := 1, unitsGenerated := 1, writtenFiles := ["out/ATests.cs"] } :=
  ⟨report_sourceDisk, sparesInputs_sourceDisk,
    (Plan.run_again report_sourceDisk sparesInputs_sourceDisk).1⟩

end TestScaffold
