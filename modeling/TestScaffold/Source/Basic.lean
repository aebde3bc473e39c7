/-
  TestScaffold/Source/Basic.lean
  ==============================
  What is known about a source file once it has been read: its namespace, its
  using directives and its classes with their constructors and methods.

  Type names are kept as written.  Only the parts that a generated test needs
  are here; bodies, fields and attributes are not.
-/
import TestScaffold.Name

namespace TestScaffold.Source

/-- Declared accessibility of a member, widest first. -/
inductive Access where
  | publicAccess
  | protectedAccess
  | internalAccess
  | privateAccess
deriving DecidableEq, Repr

/-- How a declared return type delivers its result. -/
inductive ReturnKind where
  | void
  | task
  | taskOf
  | value
deriving DecidableEq, Repr

/-- A declared return type. `wrapped` is the result type of a task with one type argument. -/
structure ReturnType where
  kind : ReturnKind
  typeName : String
  wrapped : Option String := none
deriving DecidableEq, Repr

/-- A parameter of a constructor or method. -/
structure Parameter where
  name : Name
  typeName : String
deriving DecidableEq, Repr

/-- A constructor declaration. -/
structure Constructor where
  parameters : List Parameter := []
  access : Access := .privateAccess
deriving DecidableEq, Repr

/-- A method declaration. -/
structure Method where
  name : Name
  parameters : List Parameter := []
  returnType : ReturnType
  isAsync : Bool := false
  access : Access := .privateAccess
  isStatic : Bool := false
deriving DecidableEq, Repr

/-- Public instance methods are the ones that get a test. -/
def Method.isTestable (m : Method) : Bool := m.access == .publicAccess && !m.isStatic

/-- A using directive. `name` is the qualified name by which directives are told apart. -/
structure Using where
  name : Name
  alias? : Option String := none
  isStatic : Bool := false
  isGlobal : Bool := false
deriving DecidableEq, Repr

/-- A class declaration. -/
structure Class where
  name : Name
  inNamespace? : Option String := none
  constructors : List Constructor := []
  methods : List Method := []
deriving DecidableEq, Repr

/-- A source file: its first namespace, all using directives and all classes in document order. -/
structure File where
  inNamespace? : Option String := none
  usings : List Using := []
  classes : List Class := []
deriving DecidableEq, Repr

end TestScaffold.Source
