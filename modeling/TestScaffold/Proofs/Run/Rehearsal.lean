/-
  TestScaffold/Proofs/Run/Rehearsal.lean
  ======================================
  **What a dry run tells of the run itself.**

  A dry run changes nothing, with or without a report.  It does not even make the
  output directory, and that is all it can miss: an input may be given by a path
  that leads through the output directory, and such a path leads nowhere before
  the directory is there.  If every input path leads somewhere already, a dry run
  reads what the run reads and takes the same steps on an outlet that accepts
  everything.
-/
import TestScaffold.Proofs.Run.Repetition

namespace TestScaffold

/-- The plan of a dry run. -/
def Plan.rehearsal (plan : Plan) : Plan := { plan with isDryRun := true }

namespace Plan

variable {plan : Plan} {layout : Layout} {d : Disk}

/-- Every input path leads to an entry. -/
def Grounded (plan : Plan) (d : Disk) : Prop :=
  ∀ input ∈ plan.inputs, ∃ q, d.locate (.ofString input) = .ok q

/-- A run with a report reads the same inputs in a dry run if their paths lead somewhere without
    the output directory. -/
theorem yields_rehearsal (layout : Layout) (hwet : plan.isDryRun = false)
    (hensured : ((plan.outlet d).ensureDirectory (.ofString plan.savePath)).2 = .ok ())
    (hgrounded : plan.Grounded d) : plan.rehearsal.yields layout d = plan.yields layout d := by
  have hpaved := (paved_inputDisk hwet hensured).1
  rw [yields, inputDisk_dry rfl]
  refine Yield.ofPlan_congr layout rfl rfl fun input hmem => ?_
  obtain ⟨q, hlocate⟩ := hgrounded input hmem
  exact (hpaved.readText_eq hlocate).symm

/-- A dry run has the progress of the run, but for the disk. -/
theorem progress_rehearsal (hyields : plan.rehearsal.yields layout d = plan.yields layout d)
    (herrors : (plan.progress layout d).errors = []) :
    plan.rehearsal.progress layout d =
      (plan.progress layout d).on (plan.rehearsal.outlet d) := by
  obtain ⟨o, hsteps, ho⟩ := Progress.steps_on plan
    (R := fun _ o => o = plan.rehearsal.outlet d)
    (fun path text ho _ => ⟨_, Outlet.writeText_dry (by rw [ho]; rfl) path text, ho⟩)
    (plan.drafts layout d) (p := { outlet := plan.outlet (plan.inputDisk d) }) rfl herrors
  subst ho
  rw [progress, after, drafts, hyields, inputDisk_dry rfl]
  exact hsteps

/-- The report of a run is that of its dry run, which is marked as such. -/
theorem run_rehearsal_of_grounded (hwet : plan.isDryRun = false) {report : Report}
    (hok : (plan.run layout d).result = .ok report) (hgrounded : plan.Grounded d) :
    (plan.rehearsal.run layout d).result = .ok { report with isDryRun := true } ∧
      (plan.rehearsal.run layout d).overwritings = (plan.run layout d).overwritings := by
  obtain ⟨hensured, hwhole, herrors⟩ := whole_of_run_ok hok
  have hyields := yields_rehearsal layout hwet hensured hgrounded
  have hdry : ((plan.rehearsal.outlet d).ensureDirectory
      (.ofString plan.rehearsal.savePath)).2 = .ok () := by
    rw [Outlet.ensureDirectory_dry rfl]
  rw [run_eq_ofProgress layout hensured, Outcome.ofProgress_of_whole hwhole herrors,
    Except.ok.injEq] at hok
  rw [run_eq_ofProgress layout hensured, run_eq_ofProgress layout hdry, hyields,
    progress_rehearsal hyields herrors,
    Outcome.ofProgress_of_whole hwhole (by rw [Progress.on_errors, herrors]), ← hok]
  exact ⟨rfl, rfl⟩

/-- A run with a report has read an entry for every input. -/
theorem grounded_of_run_ok {report : Report} (hok : (plan.run layout d).result = .ok report) :
    plan.Grounded (plan.inputDisk d) := by
  intro input hmem
  obtain ⟨_, hwhole, _⟩ := whole_of_run_ok hok
  obtain ⟨text, htext⟩ := Yield.readText_of_ofPlan hwhole hmem
  obtain ⟨q, _, hlocate, _⟩ := Disk.exists_file_of_readText htext
  exact ⟨q, hlocate⟩

end Plan

end TestScaffold
