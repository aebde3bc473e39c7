/-
  TestScaffold/Fixture/Naming.lean
  ================================
  The names that generated code gives to its declarations.

  Test methods are numbered: the first free number after the method's name and
  `Test` is taken.
-/
import TestScaffold.Name
import TestScaffold.Text.Words

namespace TestScaffold.Naming

open TestScaffold.Text

/-- Whether a type is replaced by a mock: its name starts with `I` and an ASCII capital. -/
def isMockable (typeName : String) : Bool :=
  match typeName.toList with
  | 'I' :: c :: _ => isAsciiUpper c
  | _ => false

/-- The text without the at signs in front. -/
def bare (identifier : String) : String :=
  String.ofList (identifier.toList.dropWhile (· == '@'))

/-- The field that holds a dependency. -/
def fieldName (parameter : String) : Name := ⟨"_" ++ bare parameter, Name.append_ne_empty (by decide)⟩

/-- The field that holds the object under test: the class name with a small first letter. -/
def receiverName (className : String) : Name :=
  let small : List Char := match (bare className).toList with
    | c :: rest => lowerFrom [] [c] ++ rest
    | [] => []
  ⟨"_" ++ String.ofList small, Name.append_ne_empty (by decide)⟩

/-- What follows the name of a class under test, and the last part of a test namespace. -/
def testsSuffix : String := "Tests"

/-- The namespace of the generated class. -/
def testNamespace (inNamespace? : Option String) : Name :=
  match inNamespace? with
  | some ns => if ns = "" then ⟨testsSuffix, by decide⟩
    else ⟨ns ++ "." ++ testsSuffix, Name.ne_empty_of_append (by decide)⟩
  | none => ⟨testsSuffix, by decide⟩

/-- The name of the generated class. -/
def testClassName (className : String) : Name :=
  ⟨className ++ testsSuffix, Name.ne_empty_of_append (by decide)⟩

/-- The candidate with number `n` for the test of a method. -/
def candidate (base : String) (n : Nat) : Name :=
  ⟨base ++ "Test" ++ toString n, by
    rw [String.append_assoc]
    exact Name.ne_empty_of_append (Name.append_ne_empty (by decide))⟩

/-- The first candidate from number `n` on that is not in use; `tries` bounds the search. -/
def firstFree (used : List Name) (base : String) : Nat → Nat → Name
  | 0, n => candidate base n
  | tries + 1, n =>
    if candidate base n ∈ used then firstFree used base tries (n + 1) else candidate base n

/-- A name for the next test, given the names in use. One more try than there are used names is
always enough. -/
def resolve (used : List Name) (base : String) : Name :=
  firstFree used base (used.length + 1) 0

/-- The names of tests for methods in order, each new with respect to the ones before and to
`used`. -/
def resolveAll (used : List Name) : List String → List Name
  | [] => []
  | base :: rest =>
    let name := resolve used base
    name :: resolveAll (used ++ [name]) rest

end TestScaffold.Naming
