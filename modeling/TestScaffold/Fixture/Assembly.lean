/-
  TestScaffold/Fixture/Assembly.lean
  ==================================
  The test class for a class of a source file: merged directives, wiring of
  the object under test, and one test for every testable method.
-/
import TestScaffold.Fixture.Setup
import TestScaffold.Fixture.TestBody
import TestScaffold.Fixture.Usings

namespace TestScaffold.Fixture

open Source (File Method)

/-- A fixture of parts whose test names have been checked. -/
def checked (namespaceName className : Name) (usings : List Source.Using) (fields : List Field)
    (setup : Setup) (tests : List Test) : Except FixtureError Fixture :=
  if h : (tests.map fun t => t.name.text).Nodup then
    .ok { namespaceName, usings, className, fields, setup, tests, distinct := h }
  else .error .repeatedTestNames

/-- Tests for methods, numbered within the class. -/
def testsOf (receiver : Name) (methods : List Method) : Except FixtureError (List Test) :=
  let testable := methods.filter (·.isTestable)
  let names := Naming.resolveAll [] (testable.map (·.name.text))
  (testable.zip names).mapM fun (m, name) => Test.ofMethod receiver m name

/-- The namespace that governs a class: its own, or else that of the file. -/
def governing (c : Source.Class) (f : File) : Option String :=
  match c.inNamespace? with
  | some ns => if ns = "" then f.inNamespace? else some ns
  | none => f.inNamespace?

/-- The test class for one class; its constructor gets the class name with `suffix` behind it. -/
def ofClass (f : File) (c : Source.Class) (suffix : String := Naming.testsSuffix) :
    Except FixtureError Fixture := do
  let ns := governing c f
  let wiring ← Wiring.ofClass c suffix
  let tests ← testsOf wiring.receiver c.methods
  checked (Naming.testNamespace ns) (Naming.testClassName c.name) (mergeUsings ns f.usings)
    wiring.fields wiring.setup tests

/-- The test classes for all classes of a file, in order. -/
def ofFile (f : File) : Except FixtureError (List Fixture) := f.classes.mapM fun c => ofClass f c

end TestScaffold.Fixture
