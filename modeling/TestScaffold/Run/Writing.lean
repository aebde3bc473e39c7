/-
  TestScaffold/Run/Writing.lean
  =============================
  Drafts on their way to the disk.

  The file of a draft is named after the first class that its text declares.
  What a second draft of one name does is up to the plan.  A draft that fails
  costs only itself.
-/
import TestScaffold.Run.Failure
import TestScaffold.Settings.Basic

namespace TestScaffold

/-- The path of the file for a test class. -/
def Plan.outputPath (plan : Plan) (className : String) : Path :=
  Path.ofString plan.savePath ++ Path.ofString (className ++ plan.extension)

/-- What has come of the drafts so far. -/
structure Progress where
  outlet : Outlet
  /-- The source of the latest draft of each class name. -/
  origins : List (Name × String) := []
  /-- The paths written, each once. -/
  written : List String := []
  overwritings : List Collision := []
  errors : List RunError := []

namespace Progress

/-- The source of the latest draft of a class name. -/
def origin? (p : Progress) (name : Name) : Option String :=
  (p.origins.find? (·.1 = name)).map (·.2)

/-- The progress with one more error. -/
def fail (p : Progress) (e : RunError) : Progress := { p with errors := p.errors ++ [e] }

/-- Hands a draft to the outlet under its name. -/
def put (plan : Plan) (p : Progress) (name : Name) (draft : Draft) : Progress :=
  let path := plan.outputPath name
  let p := { p with origins := (name, draft.origin) :: p.origins }
  match p.outlet.writeText path draft.text with
  | .error e => p.fail (.write e)
  | .ok outlet =>
    { p with
      outlet
      written := if p.written.contains path.text then p.written else p.written ++ [path.text] }

/-- Takes one draft further. -/
def step (plan : Plan) (p : Progress) (draft : Draft) : Progress :=
  match Source.firstClassName draft.text with
  | .error e => p.fail (.unreadable e)
  | .ok name =>
    match p.origin? name with
    | none => p.put plan name draft
    | some first =>
      let collision : Collision := ⟨plan.outputPath name, first, draft.origin⟩
      match plan.onCollision with
      | .error => p.fail (.write (.collision collision))
      | .overwrite =>
        ({ p with overwritings := p.overwritings ++ [collision] } : Progress).put plan name draft

/-- Takes drafts further, one after the other. -/
def steps (plan : Plan) (p : Progress) (drafts : List Draft) : Progress :=
  drafts.foldl (step plan) p

end Progress

end TestScaffold
