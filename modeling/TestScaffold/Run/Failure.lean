/-
  TestScaffold/Run/Failure.lean
  =============================
  What can go wrong in a run, and how it is told.

  Every error is shown by its kind and its words, so a list of errors has one
  form wherever it appears.
-/
import TestScaffold.Files.Store
import TestScaffold.Run.Draft
import TestScaffold.Schema.Fixture

namespace TestScaffold

open TestScaffold.Text

/-- An error as it is shown. -/
structure ErrorLine where
  kind : String
  message : String
deriving DecidableEq, Repr

/-- Errors in one line. -/
def ErrorLine.summary (errors : List ErrorLine) : String :=
  toString errors.length ++ " error(s) during generation: " ++
    joinWith "; " (errors.map fun e => e.kind ++ ": " ++ e.message)

/-- What can go wrong with one file or one draft of a run. -/
inductive RunError where
  | read (cause : ReadError)
  | draft (cause : DraftError)
  /-- A rendered text cannot be read back. -/
  | unreadable (cause : SourceError)
  | write (cause : WriteError)
deriving DecidableEq, Repr

/-- Why a run ends without a report. -/
inductive RunFailure where
  | errors (causes : List RunError)
  /-- The output directory has a path that no disk can follow. -/
  | impossibleDirectory (fault : DiskFault)
deriving DecidableEq, Repr

/-- An error with the fields that tell it from others: what a caller may want to know beyond its
words. -/
inductive ErrorDetail where
  | located (kind message : String) (path? : Option String)
  | plain (kind message : String)
  | rejection (cause : Schema.Rejection)
deriving DecidableEq, Repr

namespace ErrorDetail

/-- The error as it is shown. -/
def line : ErrorDetail → ErrorLine
  | located kind message _ => ⟨kind, message⟩
  | plain kind message => ⟨kind, message⟩
  | rejection cause => ⟨"ValidationError", cause.text⟩

end ErrorDetail

/-- The detail of a source that has no outline. A class is missed in a text as such, not in a
file. -/
def SourceError.detail (path? : Option String) : SourceError → ErrorDetail
  | unnamedUsing => .rejection ⟨"UsingDirective", [⟨[.key "name"], .textEmpty⟩]⟩
  | noClass => .located "ParseError" (message path? noClass) none
  | e => .located "ParseError" (message path? e) path?

/-- The detail of a failed disk request: some faults lie in the path and not on the disk. -/
def DiskFault.detail (kind message : String) (p : Path) : DiskFault → ErrorDetail
  | nulInPath => .plain "ValueError" nulInPath.message
  | _ => .located kind message (some p.text)

/-- The detail of a failed reading. -/
def ReadError.detail : ReadError → ErrorDetail
  | refused p fault => fault.detail "FileReadError" (message (refused p fault)) p
  | e => .located "FileReadError" e.message (some e.path.text)

/-- The detail of a failed writing. -/
def WriteError.detail : WriteError → ErrorDetail
  | noDirectory p fault => fault.detail "WriteError" (message (noDirectory p fault)) p
  | refused p fault => fault.detail "WriteError" (message (refused p fault)) p
  | collision cause => .located "WriteError" (message (collision cause)) (some cause.path.text)

/-- The detail of a test class that has no text. -/
def RenderError.detail (e : RenderError) : ErrorDetail := .plain "RenderError" e.message

/-- The detail of a source without further drafts. -/
def DraftError.detail : DraftError → ErrorDetail
  | source origin cause => cause.detail (some origin)
  | fixture cause => .rejection cause.rejection
  | render cause => cause.detail

/-- The detail of an error in a run. -/
def RunError.detail : RunError → ErrorDetail
  | read cause => cause.detail
  | draft cause => cause.detail
  | unreadable cause => cause.detail none
  | write cause => cause.detail

end TestScaffold
