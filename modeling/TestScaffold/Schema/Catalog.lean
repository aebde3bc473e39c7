/-
  TestScaffold/Schema/Catalog.lean
  ================================
  All record types by label, so that a caller can have data checked against a
  type it names.

  Records of the source and fixture families cannot be changed once checked;
  settings can, and a value put into a field is then taken as it is.
-/
import TestScaffold.Schema.Fixture
import TestScaffold.Schema.Settings

namespace TestScaffold.Schema

/-- A record type: whether its records are fixed, and the check that returns a full description
of the record. -/
structure RecordType where
  label : String
  isFrozen : Bool
  check : Datum → Checked Datum

/-- The record type of a check and a description. -/
def RecordType.of {α : Type} (label : String) (isFrozen : Bool) (check : Datum → Checked α)
    (describe : α → Datum) : RecordType :=
  ⟨label, isFrozen, fun d => describe <$> check d⟩

/-- The record type of an expression form. -/
def RecordType.ofExpr (label kind : String) (form : ExprForm) : RecordType :=
  .of label true (ofForm label kind fun es => exprParts form es fun d _ => expr d) describeExpr

/-- The record type of a statement form. -/
def RecordType.ofStmt (label kind : String) (form : StmtForm) : RecordType :=
  .of label true (ofForm label kind (stmtParts form)) describeStmt

/-- All record types. -/
def recordTypes : List RecordType :=
  [.of "ReturnType" true returnType describeReturnType,
   .of "Parameter" true parameter describeParameter,
   .of "Constructor" true constructor describeConstructor,
   .of "Method" true method describeMethod,
   .of "UsingDirective" true usingDirective describeUsing,
   .of "SourceClass" true sourceClass describeClass,
   .of "SourceFile" true sourceFile describeFile,
   .of "TypeRef" true typeUse describeTypeUse,
   .ofExpr "IdentifierName" "identifier" .identifier,
   .ofExpr "LiteralExpression" "literal" .literal,
   .ofExpr "DefaultExpression" "default" .default,
   .ofExpr "MemberAccess" "member_access" .member,
   .ofExpr "Invocation" "invocation" .call,
   .ofExpr "ObjectCreation" "object_creation" .create,
   .ofExpr "AwaitExpression" "await" .await,
   .ofExpr "Assignment" "assignment" .assign,
   .ofStmt "LocalDeclaration" "local_declaration" .declare,
   .ofStmt "ExpressionStatement" "expression_statement" .evaluate,
   .of "FieldDeclaration" true field describeField,
   .of "UnitConstructor" true setup describeSetup,
   .of "UnitMethod" true test describeTest,
   .of "SynthesizedUnit" true fixture describeFixture,
   .of "GenerationReport" true report describeReport,
   .of "ConcurrencyConfig" false limits describeLimits,
   .of "OutputConfig" false outputSettings describeOutput,
   .of "DiscoveryConfig" false discoverySettings describeDiscovery,
   .of "LoggingConfig" false loggingSettings describeLogging,
   .of "SharpScaffoldConfig" false settings describeSettings,
   .of "PipelineConfig" true plan describePlan]

/-- Why a record cannot be had. -/
inductive RecordError where
  | unknownLabel
  | rejected (rejection : Rejection)
  /-- A field is set that records of the type do not have. -/
  | unknownField (label key : String)

/-- What is said of a field that does not exist. -/
def unknownFieldMessage (label key : String) : String :=
  "\"" ++ label ++ "\" object has no field \"" ++ key ++ "\""

/-- A checked record with one field changed. -/
def RecordType.assign (t : RecordType) (key : String) (value : Datum) :
    Datum → Except RecordError Datum
  | .dict es =>
    if t.isFrozen then .error (.rejected ⟨t.label, [⟨[.key key], .frozen⟩]⟩)
    else if (Datum.lookup? key es).isSome then .ok (.dict (Datum.insert key value es))
    else .error (.unknownField t.label key)
  | d => .ok d

/-- The record of the labelled type that data stand for, with one field changed on request. -/
def recordOf (label : String) (d : Datum) (change? : Option (String × Datum)) :
    Except RecordError Datum :=
  match recordTypes.find? (·.label = label) with
  | none => .error .unknownLabel
  | some t =>
    match t.check d with
    | .bad faults => .error (.rejected ⟨t.label, faults⟩)
    | .ok full => match change? with
      | none => .ok full
      | some (key, value) => t.assign key value full

end TestScaffold.Schema
