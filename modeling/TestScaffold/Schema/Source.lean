/-
  TestScaffold/Schema/Source.lean
  ===============================
  Source files as untyped data: checking data for them, and describing them.
-/
import TestScaffold.Schema.Check
import TestScaffold.Source.Basic

namespace TestScaffold.Schema

open TestScaffold.Source

/-- A text or nothing as a datum. -/
def describeText? : Option String → Datum
  | some s => .str s
  | none => .null

/-- The accessibilities by name. -/
def accessNames : List (String × Access) :=
  [("public", .publicAccess), ("protected", .protectedAccess), ("internal", .internalAccess),
   ("private", .privateAccess)]

/-- The name of an accessibility. -/
def accessName : Access → String
  | .publicAccess => "public"
  | .protectedAccess => "protected"
  | .internalAccess => "internal"
  | .privateAccess => "private"

/-- The kinds of return type by name. -/
def returnKindNames : List (String × ReturnKind) :=
  [("void", .void), ("task", .task), ("task_of", .taskOf), ("value", .value)]

/-- The name of a kind of return type. -/
def returnKindName : ReturnKind → String
  | .void => "void"
  | .task => "task"
  | .taskOf => "task_of"
  | .value => "value"

def access : Datum → Checked Access := oneOf .notAMember accessNames

def returnType : Datum → Checked ReturnType :=
  record "ReturnType" fun es =>
    ReturnType.mk <$> need es "kind" (oneOf .notAMember returnKindNames)
      <*> need es "type_name" text <*> maybe es "wrapped" none optionalText

def parameter : Datum → Checked Parameter :=
  record "Parameter" fun es =>
    Parameter.mk <$> need es "name" name <*> need es "type_name" text

def constructor : Datum → Checked Constructor :=
  record "Constructor" fun es =>
    Constructor.mk <$> maybe es "parameters" [] (list parameter)
      <*> maybe es "visibility" .privateAccess access

def method : Datum → Checked Method :=
  record "Method" fun es =>
    Method.mk <$> need es "name" name <*> maybe es "parameters" [] (list parameter)
      <*> need es "return_type" returnType <*> maybe es "is_async" false bool
      <*> maybe es "visibility" .privateAccess access <*> maybe es "is_static" false bool

def usingDirective : Datum → Checked Using :=
  record "UsingDirective" fun es =>
    Using.mk <$> need es "name" name <*> maybe es "alias" none optionalText
      <*> maybe es "is_static" false bool <*> maybe es "is_global" false bool

def sourceClass : Datum → Checked Source.Class :=
  record "SourceClass" fun es =>
    Source.Class.mk <$> need es "name" name <*> maybe es "namespace" none optionalText
      <*> maybe es "constructors" [] (list constructor) <*> maybe es "methods" [] (list method)

def sourceFile : Datum → Checked File :=
  record "SourceFile" fun es =>
    File.mk <$> maybe es "namespace" none optionalText
      <*> maybe es "usings" [] (list usingDirective) <*> maybe es "classes" [] (list sourceClass)

def describeReturnType (r : ReturnType) : Datum :=
  .dict [("kind", .str (returnKindName r.kind)), ("type_name", .str r.typeName),
    ("wrapped", describeText? r.wrapped)]

def describeParameter (p : Parameter) : Datum :=
  .dict [("name", .str p.name), ("type_name", .str p.typeName)]

def describeConstructor (c : Constructor) : Datum :=
  .dict [("parameters", .list (c.parameters.map describeParameter)),
    ("visibility", .str (accessName c.access))]

def describeMethod (m : Method) : Datum :=
  .dict [("name", .str m.name), ("parameters", .list (m.parameters.map describeParameter)),
    ("return_type", describeReturnType m.returnType), ("is_async", .bool m.isAsync),
    ("visibility", .str (accessName m.access)), ("is_static", .bool m.isStatic)]

def describeUsing (u : Using) : Datum :=
  .dict [("name", .str u.name), ("alias", describeText? u.alias?), ("is_static", .bool u.isStatic),
    ("is_global", .bool u.isGlobal)]

def describeClass (c : Source.Class) : Datum :=
  .dict [("name", .str c.name), ("namespace", describeText? c.inNamespace?),
    ("constructors", .list (c.constructors.map describeConstructor)),
    ("methods", .list (c.methods.map describeMethod))]

def describeFile (f : File) : Datum :=
  .dict [("namespace", describeText? f.inNamespace?), ("usings", .list (f.usings.map describeUsing)),
    ("classes", .list (f.classes.map describeClass))]

end TestScaffold.Schema
