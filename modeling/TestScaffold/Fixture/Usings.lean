/-
  TestScaffold/Fixture/Usings.lean
  ================================
  Directives without repeated names, in the order they were first added, and
  the directives that a generated file needs.
-/
import TestScaffold.Datum
import TestScaffold.Source.Basic

namespace TestScaffold

open Source (Using)

/-- Directives in order of insertion, told apart by name. The first with a name stays. -/
structure UsingSet where
  directives : List Using := []

namespace UsingSet

/-- Whether a directive with this name is in the set. -/
def contains (s : UsingSet) (name : String) : Bool :=
  s.directives.any fun d => d.name.text == name

/-- Adds a directive unless its name is taken, and says whether it was added. -/
def add (s : UsingSet) (d : Using) : UsingSet × Bool :=
  if s.contains d.name.text then (s, false) else (⟨s.directives ++ [d]⟩, true)

/-- Adds directives in order. -/
def addAll (s : UsingSet) (ds : List Using) : UsingSet :=
  ds.foldl (fun s d => (s.add d).1) s

/-- Whether a value of any kind names a directive of the set; a list or a mapping cannot be
looked up at all. -/
def holds? (s : UsingSet) : Datum → Option Bool
  | .str name => some (s.contains name)
  | .list _ => none
  | .dict _ => none
  | _ => some false

/-- A request to a set of directives. -/
inductive Step where
  | add (d : Using)
  | contains (key : Datum)
  | size
  | list

/-- What a set of directives answers. -/
inductive Reply where
  | flag (holds : Bool)
  | count (n : Nat)
  | listed (ds : List Using)
  /-- The key cannot be looked up. -/
  | refusal
deriving DecidableEq, Repr

/-- Takes one step. -/
def step (s : UsingSet) : Step → UsingSet × Reply
  | .add d => ((s.add d).1, .flag (s.add d).2)
  | .contains key => (s, (s.holds? key).elim .refusal .flag)
  | .size => (s, .count s.directives.length)
  | .list => (s, .listed s.directives)

/-- Takes steps in order, and notes each of them with its reply. -/
def record (s : UsingSet) : List Step → List (Step × Reply)
  | [] => []
  | step :: rest => (step, (s.step step).2) :: (s.step step).1.record rest

end UsingSet

/-- A directive that imports a namespace. -/
def Source.Using.plain (name : Name) : Using := ⟨name, none, false, false⟩

/-- The namespaces that every generated file imports. -/
def defaultUsings : List Name :=
  [⟨"System", by decide⟩, ⟨"System.Collections", by decide⟩,
   ⟨"System.Collections.Generic", by decide⟩, ⟨"Xunit", by decide⟩, ⟨"Moq", by decide⟩]

/-- The directives of a generated file: the namespace under test, the defaults, and what the
source file had, without repeated names. -/
def mergeUsings (inNamespace? : Option String) (fromSource : List Using) : List Using :=
  let own := (inNamespace?.bind Name.ofString?).toList.map Source.Using.plain
  ((UsingSet.mk []).addAll (own ++ defaultUsings.map Source.Using.plain ++ fromSource)).directives

end TestScaffold
