/-
  TestScaffold/Run/Outcome.lean
  =============================
  A whole run: the output directory, the input files, the drafts, the report.

  Errors do not stop what is under way.  A run has a report if it met none;
  otherwise it tells all of them.
-/
import TestScaffold.Run.Reading
import TestScaffold.Run.Writing

namespace TestScaffold

/-- What a run leaves behind. -/
structure Outcome where
  disk : Disk
  overwritings : List Collision := []
  result : Except RunFailure Report

namespace Outcome

/-- The outcome of a run without an output directory. -/
def withoutDirectory (d : Disk) : WriteError → Outcome
  | .noDirectory _ .nulInPath => { disk := d, result := .error (.impossibleDirectory .nulInPath) }
  | e => { disk := d, result := .error (.errors [.write e]) }

/-- The outcome once all drafts are done. -/
def ofProgress (plan : Plan) (yields : List Yield) (p : Progress) : Outcome :=
  let errors := yields.filterMap (·.error?) ++ p.errors
  { disk := p.outlet.disk
    overwritings := p.overwritings
    result :=
      if errors.isEmpty then
        .ok { filesRead := yields.length
              unitsGenerated := (yields.flatMap (·.drafts)).length
              writtenFiles := p.written
              isDryRun := plan.isDryRun }
      else .error (.errors errors) }

end Outcome

/-- Runs a plan on a disk. -/
def Plan.run (plan : Plan) (layout : Layout) (d : Disk) : Outcome :=
  let outlet : Outlet := { disk := d, isDryRun := plan.isDryRun }
  match outlet.ensureDirectory (.ofString plan.savePath) with
  | (outlet, .error e) => .withoutDirectory outlet.disk e
  | (outlet, .ok ()) =>
    let yields := Yield.ofPlan plan layout outlet.disk
    let drafts := yields.flatMap (·.drafts)
    .ofProgress plan yields (({ outlet } : Progress).steps plan drafts)

/-- Runs a plan several times on what the runs before left behind. -/
def Plan.runTimes (plan : Plan) (layout : Layout) : Nat → Disk → List Outcome
  | 0, _ => []
  | n + 1, d =>
    let outcome := plan.run layout d
    outcome :: runTimes plan layout n outcome.disk

end TestScaffold
