/-
  TestScaffold/Fixture/Basic.lean
  ===============================
  The generated test class as data: fields, a setup constructor and one test
  method per tested method, with just the statements and expressions that
  generated tests use.

  A fixture carries the proof that its test methods have different names.
-/
import TestScaffold.Source.Basic

namespace TestScaffold

/-- A type as generated code uses it: as it is, or as a mock of it. -/
structure TypeUse where
  name : Name
  isMock : Bool := false
deriving DecidableEq, Repr

/-- A literal value. -/
inductive Literal where
  | bool (value : Bool)
  | text (value : String)
deriving DecidableEq, Repr

/-- An expression of generated code. -/
inductive Expr where
  | identifier (name : Name)
  | literal (value : Literal)
  | default (type : TypeUse)
  | member (target : Expr) (name : Name)
  | call (callee : Expr) (arguments : List Expr)
  | create (type : TypeUse) (arguments : List Expr)
  | await (operand : Expr)
  | assign (target value : Expr)
deriving Inhabited

/-- A statement of generated code. -/
inductive Stmt where
  | declare (type : TypeUse) (name : Name) (initializer : Expr)
  | evaluate (expression : Expr)

/-- A private field. -/
structure Field where
  name : Name
  type : TypeUse
deriving DecidableEq, Repr

/-- The public constructor without parameters. -/
structure Setup where
  name : Name
  body : List Stmt := []

/-- A test method. -/
structure Test where
  name : Name
  isAsync : Bool := false
  attributeText : String := "Fact"
  body : List Stmt := []

/-- A generated test class. -/
structure Fixture where
  namespaceName : Name
  usings : List Source.Using := []
  className : Name
  fields : List Field := []
  setup : Setup
  tests : List Test := []
  distinct : (tests.map fun t => t.name.text).Nodup

/-- Why a test class cannot be put together. -/
inductive FixtureError where
  /-- A type is needed where the source has an empty one. -/
  | emptyType
  /-- A task of a result has no result type. -/
  | absentType
  /-- The field under test has no name. -/
  | emptyReceiver
  /-- The test method has no name. -/
  | emptyTestName
  /-- Two test methods have one name. -/
  | repeatedTestNames
deriving DecidableEq, Repr

/-- The plain use of a type, if its text is not empty. -/
def TypeUse.plain? (typeName : String) : Except FixtureError TypeUse :=
  match Name.ofString? typeName with
  | some name => .ok ⟨name, false⟩
  | none => .error .emptyType

/-- The mocked use of a type, if its text is not empty. -/
def TypeUse.mock? (typeName : String) : Except FixtureError TypeUse :=
  match Name.ofString? typeName with
  | some name => .ok ⟨name, true⟩
  | none => .error .emptyType

end TestScaffold
