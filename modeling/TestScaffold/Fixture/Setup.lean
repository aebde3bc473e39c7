/-
  TestScaffold/Fixture/Setup.lean
  ===============================
  Wiring of the object under test: one field per constructor parameter, one
  field for the object itself, and the constructor that fills them.
-/
import TestScaffold.Fixture.Basic
import TestScaffold.Fixture.Naming

namespace TestScaffold

open Source (Constructor Parameter)

/-- The constructor with the most parameters, the first of several. -/
def Source.Constructor.largest? : List Constructor → Option Constructor
  | [] => none
  | c :: rest => some <| rest.foldl
      (fun best c => if best.parameters.length < c.parameters.length then c else best) c

/-- Fields, constructor and the name of the field under test. -/
structure Wiring where
  fields : List Field
  setup : Setup
  receiver : Name

namespace Wiring

/-- The member of a mock that holds the mocked object. -/
def mockObject : Name := ⟨"Object", by decide⟩

/-- A dependency of the object under test. -/
structure Dependency where
  field : Field

/-- The dependency for a parameter. -/
def dependency (p : Parameter) : Except FixtureError Dependency := do
  let type ← if Naming.isMockable p.typeName then TypeUse.mock? p.typeName
    else TypeUse.plain? p.typeName
  return ⟨⟨Naming.fieldName p.name, type⟩⟩

/-- The value that the dependency hands to the constructor under test. -/
def Dependency.argument (d : Dependency) : Expr :=
  if d.field.type.isMock then .member (.identifier d.field.name) mockObject
  else .identifier d.field.name

/-- The statement that creates a field's object. -/
def fill (f : Field) (arguments : List Expr) : Stmt :=
  .evaluate (.assign (.identifier f.name) (.create f.type arguments))

/-- The wiring for a class; its constructor gets the class name with `suffix` behind it. -/
def ofClass (c : Source.Class) (suffix : String := Naming.testsSuffix) : Except FixtureError Wiring := do
  let parameters := (Constructor.largest? c.constructors).elim [] (·.parameters)
  let dependencies ← parameters.mapM dependency
  let receiver : Field := ⟨Naming.receiverName c.name, ⟨c.name, false⟩⟩
  return {
    fields := dependencies.map (·.field) ++ [receiver]
    setup := {
      name := c.name.append suffix
      body := dependencies.map (fun d => fill d.field []) ++
        [fill receiver (dependencies.map Dependency.argument)] }
    receiver := receiver.name }

end Wiring

end TestScaffold
