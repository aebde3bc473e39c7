/-
  TestScaffold/Run/Reading.lean
  =============================
  What the input files of a run yield, and how many of them are started.

  Several readers work side by side, so with `n` readers the `n - 1` files
  behind a file are started before its failure is known.  A file that was read
  and then turns out to have no drafts fails one step later, so one more file is
  started.  No other file is.
-/
import TestScaffold.Run.Failure
import TestScaffold.Settings.Basic

namespace TestScaffold

/-- What one input file yields: drafts, and an error that ended them. -/
structure Yield where
  drafts : List Draft := []
  error? : Option RunError := none
deriving DecidableEq, Repr

namespace Yield

/-- What a file yields on a disk. -/
def ofInput (layout : Layout) (d : Disk) (input : String) : Yield :=
  match d.readText (.ofString input) with
  | .error e => { error? := some (.read e) }
  | .ok text =>
    let (drafts, error?) := Draft.ofSource layout input text
    { drafts, error? := error?.map .draft }

/-- How many files behind this one are started although it failed; nothing if it did not. -/
def slack? (readers : Nat) (y : Yield) : Option Nat :=
  match y.error? with
  | none => none
  | some (.read _) => some (readers - 1)
  | some _ => some readers

/-- The smaller of two bounds, where nothing is no bound. -/
def tighter : Option Nat → Option Nat → Option Nat
  | none, bound? => bound?
  | bound?, none => bound?
  | some m, some n => some (min m n)

/-- The yields of the files that are started, where at most `left?` more may be. -/
def started (readers : Nat) (left? : Option Nat) : List Yield → List Yield
  | [] => []
  | y :: rest =>
    if left? = some 0 then []
    else y :: started readers (tighter (left?.map (· - 1)) (y.slack? readers)) rest

/-- The yields of a plan's input files. -/
def ofPlan (plan : Plan) (layout : Layout) (d : Disk) : List Yield :=
  started plan.limits.reading none (plan.inputs.map (ofInput layout d))

end Yield

end TestScaffold
