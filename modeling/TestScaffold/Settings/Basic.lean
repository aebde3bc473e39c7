/-
  TestScaffold/Settings/Basic.lean
  ================================
  The settings of the program, with their defaults, and the plan of one run
  that is made of settings and inputs.
-/
import TestScaffold.Fixture.Layout
import TestScaffold.Name

namespace TestScaffold

/-- What happens when two classes lead to one generated file. -/
inductive CollisionPolicy where
  | overwrite
  | error
deriving DecidableEq, Repr

namespace CollisionPolicy

/-- The policies by name. -/
def names : List (String × CollisionPolicy) := [("overwrite", overwrite), ("error", error)]

/-- The name of a policy. -/
def label : CollisionPolicy → String
  | overwrite => "overwrite"
  | error => "error"

end CollisionPolicy

/-- How many workers each stage of a run may have. -/
structure Limits where
  reading : Nat := 3
  generating : Nat := 3
  writing : Nat := 6
deriving DecidableEq, Repr

/-- Where and how generated files are written. -/
structure OutputSettings where
  savePath : String := "./tests"
  extension : String := ".cs"
  onCollision : CollisionPolicy := .overwrite
  newline : Newline := .lf
deriving DecidableEq, Repr

/-- How a directory is searched for source files. -/
structure DiscoverySettings where
  patterns : List String := ["**/*.cs"]
  excluded : List String := ["bin", "obj", ".git", ".vs", "node_modules"]
deriving DecidableEq, Repr

/-- Which modules are kept from logging details. -/
structure LoggingSettings where
  suppressed : List String := ["asyncio"]
deriving DecidableEq, Repr

/-- All settings. -/
structure Settings where
  limits : Limits := {}
  output : OutputSettings := {}
  discovery : DiscoverySettings := {}
  logging : LoggingSettings := {}
deriving DecidableEq, Repr

/-- The plan of one run. -/
structure Plan where
  limits : Limits
  inputs : List String := []
  savePath : Name
  extension : String := ".cs"
  onCollision : CollisionPolicy := .overwrite
  isDryRun : Bool := false
deriving DecidableEq, Repr

/-- What a successful run reports. -/
structure Report where
  filesRead : Nat := 0
  unitsGenerated : Nat := 0
  writtenFiles : List String := []
  isDryRun : Bool := false
deriving DecidableEq, Repr

end TestScaffold
