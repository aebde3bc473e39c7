/-
  TestScaffold/Fixture/TestBody.lean
  ==================================
  The body of a test: a default value for every parameter, one call, and an
  assertion.

  A method without a result gets an assertion that fails, so that the test
  stays red until somebody writes a real one.
-/
import TestScaffold.Fixture.Basic

namespace TestScaffold

open Source (Method)

/-- How a test treats the result of a method. -/
structure MethodShape where
  isAsync : Bool
  hasResult : Bool
  resultType : Option String
  isAwaited : Bool := false
deriving DecidableEq, Repr

/-- A void method has no result, nor has an async one that returns a bare task; an async one that
returns a task of `T` has the result `T`; every other has its declared type. All async methods
but void ones are awaited. -/
def Source.Method.shape (m : Method) : MethodShape :=
  match m.returnType.kind, m.isAsync with
  | .void, a => ⟨a, false, none, false⟩
  | .task, true => ⟨true, false, none, true⟩
  | .taskOf, true => ⟨true, true, m.returnType.wrapped, true⟩
  | _, a => ⟨a, true, some m.returnType.typeName, a⟩

namespace TestBody

/-- The local that holds the result of the call. -/
def actual : Name := ⟨"actual", by decide⟩

/-- The local that holds the result wanted. -/
def expected : Name := ⟨"expected", by decide⟩

/-- What a failing assertion says. -/
def placeholder : String := "error"

/-- The attribute of a test method. -/
def attributeText : String := "Fact"

/-- A call of the assertion `member`. -/
def assertion (member : Name) (arguments : List Expr) : Expr :=
  .call (.member (.identifier ⟨"Assert", by decide⟩) member) arguments

/-- One local per parameter, with the default of its type. -/
def arrange (m : Method) : Except FixtureError (List Stmt) :=
  m.parameters.mapM fun p => do
    let type ← TypeUse.plain? p.typeName
    return .declare type p.name (.default type)

/-- The type of the result. -/
def resultUse (shape : MethodShape) : Except FixtureError TypeUse :=
  match shape.resultType with
  | some typeName => TypeUse.plain? typeName
  | none => .error .absentType

/-- The call of the method under test. -/
def act (receiver : String) (m : Method) : Except FixtureError Stmt := do
  let shape := m.shape
  let some receiver := Name.ofString? receiver | throw .emptyReceiver
  let call := Expr.call (.member (.identifier receiver) m.name)
    (m.parameters.map fun p => .identifier p.name)
  let call := if shape.isAwaited then Expr.await call else call
  if shape.hasResult then
    return .declare (← resultUse shape) actual call
  else
    return .evaluate call

/-- The assertion on the result, or the one that fails. -/
def assertResult (m : Method) : Except FixtureError (List Stmt) := do
  let shape := m.shape
  if shape.hasResult then
    let type ← resultUse shape
    return [
      .declare type expected (.default type),
      .evaluate (assertion ⟨"Equal", by decide⟩ [.identifier expected, .identifier actual])]
  else
    return [.evaluate (assertion ⟨"True", by decide⟩
      [.literal (.bool false), .literal (.text placeholder)])]

end TestBody

/-- The test of a method on the object in the field `receiver`. -/
def Test.ofMethod (receiver : String) (m : Method) (testName : String) :
    Except FixtureError Test := do
  let arranged ← TestBody.arrange m
  let call ← TestBody.act receiver m
  let asserted ← TestBody.assertResult m
  let some name := Name.ofString? testName | throw .emptyTestName
  return { name, isAsync := m.isAsync, attributeText := TestBody.attributeText,
           body := arranged ++ call :: asserted }

end TestScaffold
