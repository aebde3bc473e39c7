/-
  TestScaffold/Run/Draft.lean
  ===========================
  Drafts: rendered test classes that wait to be written, and why a source text
  may not yield all of its drafts.

  The classes of a source are taken one after the other, so a class that cannot
  be put together or rendered costs itself and those after it; the drafts of the
  classes before it stand.
-/
import TestScaffold.CSharp.Outline
import TestScaffold.Fixture.Assembly
import TestScaffold.Fixture.Layout

namespace TestScaffold

/-- A rendered test class, with the path of its source as it was given. -/
structure Draft where
  origin : String
  text : String
deriving DecidableEq, Repr

/-- Why a source yields no more drafts. -/
inductive DraftError where
  | source (origin : String) (cause : SourceError)
  | fixture (cause : FixtureError)
  | render (cause : RenderError)
deriving DecidableEq, Repr

namespace Draft

/-- The draft of one class of a file. -/
def ofClass (layout : Layout) (origin : String) (file : Source.File) (c : Source.Class) :
    Except DraftError Draft :=
  match Fixture.ofClass file c with
  | .error e => .error (.fixture e)
  | .ok fixture =>
    match layout.render fixture with
    | .error e => .error (.render e)
    | .ok text => .ok ⟨origin, text⟩

/-- The drafts of classes up to the first one that has none, and why it has none. -/
def ofClasses (layout : Layout) (origin : String) (file : Source.File) :
    List Source.Class → List Draft × Option DraftError
  | [] => ([], none)
  | c :: rest =>
    match ofClass layout origin file c with
    | .error e => ([], some e)
    | .ok draft =>
      let (drafts, error?) := ofClasses layout origin file rest
      (draft :: drafts, error?)

/-- The drafts of a source text. -/
def ofSource (layout : Layout) (origin text : String) : List Draft × Option DraftError :=
  match Source.File.ofText text with
  | .error e => ([], some (.source origin e))
  | .ok file => ofClasses layout origin file file.classes

end Draft

end TestScaffold
