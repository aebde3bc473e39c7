/-
  TestScaffold/Schema/Fixture.lean
  ================================
  Generated test classes as untyped data: checking data for them, and
  describing them.

  A statement or an expression is a mapping whose entry `kind` says which form
  it has; the form is part of the place of a fault inside it.
-/
import TestScaffold.Datum.Display
import TestScaffold.Fixture.Basic
import TestScaffold.Schema.Source

namespace TestScaffold.Schema

/-- An entry is smaller than the entries it stands in. -/
theorem sizeOf_lookup? {key : String} {es : Entries} {d : Datum}
    (h : Datum.lookup? key es = some d) : sizeOf d < sizeOf es := by
  induction es with
  | nil => simp [Datum.lookup?] at h
  | cons e rest ih =>
    obtain ⟨k, v⟩ := e
    simp only [Datum.lookup?] at h
    split at h
    · cases h; simp; omega
    · have := ih h; simp; omega

/-- A field that has to be there, with the knowledge that it is smaller than the record. -/
def needWithin {α : Type} (es : Entries) (key : String)
    (check : (d : Datum) → sizeOf d < sizeOf es → Checked α) : Checked α :=
  match h : Datum.lookup? key es with
  | some d => (check d (sizeOf_lookup? h)).under (.key key)
  | none => (Checked.fail .missing).under (.key key)

/-- Items with the knowledge that each is smaller than the list. -/
def itemsWithin {α : Type} (position : Nat) : (ds : List Datum) →
    ((d : Datum) → sizeOf d < sizeOf ds → Checked α) → Checked (List α)
  | [], _ => .ok []
  | d :: rest, check =>
    List.cons <$> (check d (by simp; omega)).under (.index position)
      <*> itemsWithin (position + 1) rest fun e h => check e (by simp; omega)

/-- An optional list field, empty by default, whose items are smaller than the record. -/
def maybeListWithin {α : Type} (es : Entries) (key : String)
    (check : (d : Datum) → sizeOf d < sizeOf es → Checked α) : Checked (List α) :=
  match h : Datum.lookup? key es with
  | some (.list ds) =>
    (itemsWithin 0 ds fun d hd => check d (by
      have := sizeOf_lookup? h
      simp at this
      omega)).under (.key key)
  | some _ => (Checked.fail .listExpected).under (.key key)
  | none => .ok []

def typeUse : Datum → Checked TypeUse :=
  record "TypeRef" fun es => TypeUse.mk <$> need es "name" name <*> maybe es "is_mock" false bool

/-- A literal is a boolean or a text as it is, or else whatever stands for a boolean. -/
def literalValue (d : Datum) : Checked Literal :=
  match d with
  | .bool b => .ok (.bool b)
  | .str s => .ok (.text s)
  | d => match bool d with
    | .ok b => .ok (.bool b)
    | .bad faults => match text d with
      | .ok s => .ok (.text s)
      | .bad more => .bad (
          (faults.map fun f => { f with place := .key "bool" :: f.place }) ++
          (more.map fun f => { f with place := .key "str" :: f.place }))

/-- The forms of an expression. -/
inductive ExprForm where
  | identifier
  | literal
  | default
  | member
  | call
  | create
  | await
  | assign
deriving DecidableEq, Repr

/-- The forms of an expression by name. -/
def exprForms : List (String × ExprForm) :=
  [("identifier", .identifier), ("literal", .literal), ("default", .default),
   ("member_access", .member), ("invocation", .call), ("object_creation", .create),
   ("await", .await), ("assignment", .assign)]

/-- The entries of an expression of a known form; `sub` checks the expressions inside. -/
def exprParts (form : ExprForm) (es : Entries)
    (sub : (d : Datum) → sizeOf d < sizeOf es → Checked Expr) : Checked Expr :=
  match form with
  | .identifier => Expr.identifier <$> need es "name" name
  | .literal => Expr.literal <$> need es "value" literalValue
  | .default => Expr.default <$> need es "type" typeUse
  | .member => Expr.member <$> needWithin es "target" sub <*> need es "member" name
  | .call => Expr.call <$> needWithin es "callee" sub <*> maybeListWithin es "arguments" sub
  | .create => Expr.create <$> need es "type" typeUse <*> maybeListWithin es "arguments" sub
  | .await => Expr.await <$> needWithin es "operand" sub
  | .assign => Expr.assign <$> needWithin es "target" sub <*> needWithin es "value" sub

/-- An expression. -/
def expr (d : Datum) : Checked Expr :=
  match d with
  | .dict es =>
    match Datum.lookup? "kind" es with
    | none => .fail .tagMissing
    | some tag =>
      match exprForms.find? fun f => tag matches .str _ && f.1 == tag.display with
      | some (label, form) =>
        (exprParts form es fun e _h => expr e).under (.key label)
      | none => .fail (.tagUnknown tag.display (exprForms.map (·.1)))
  | _ => .fail .variantExpected
termination_by sizeOf d
decreasing_by simp; omega

/-- The forms of a statement. -/
inductive StmtForm where
  | declare
  | evaluate
deriving DecidableEq, Repr

/-- The forms of a statement by name. -/
def stmtForms : List (String × StmtForm) :=
  [("local_declaration", .declare), ("expression_statement", .evaluate)]

/-- The entries of a statement of a known form. -/
def stmtParts (form : StmtForm) (es : Entries) : Checked Stmt :=
  match form with
  | .declare =>
    Stmt.declare <$> need es "type" typeUse <*> need es "name" name
      <*> need es "initializer" expr
  | .evaluate => Stmt.evaluate <$> need es "expression" expr

/-- A statement. -/
def stmt : Datum → Checked Stmt
  | .dict es =>
    match Datum.lookup? "kind" es with
    | none => .fail .tagMissing
    | some tag =>
      match stmtForms.find? fun f => tag matches .str _ && f.1 == tag.display with
      | some (label, form) => (stmtParts form es).under (.key label)
      | none => .fail (.tagUnknown tag.display (stmtForms.map (·.1)))
  | _ => .fail .variantExpected

/-- A record that may say its own form, and nothing else for it. -/
def ofForm {α : Type} (label kind : String) (parts : Entries → Checked α) : Datum → Checked α :=
  record label fun es =>
    (fun _ a => a) <$> maybe es "kind" () (oneOf .notALiteral [(kind, ())]) <*> parts es

def field : Datum → Checked Field :=
  record "FieldDeclaration" fun es =>
    Field.mk <$> need es "name" name <*> need es "type" typeUse

def setup : Datum → Checked Setup :=
  record "UnitConstructor" fun es =>
    Setup.mk <$> need es "name" name <*> maybe es "body" [] (list stmt)

def test : Datum → Checked Test :=
  record "UnitMethod" fun es =>
    Test.mk <$> need es "name" name <*> maybe es "is_async" false bool
      <*> maybe es "attribute" "Fact" text <*> maybe es "body" [] (list stmt)

/-- What is said of test methods that share a name. -/
def repeatedNames : String := "Test method names must be unique within a unit"

/-- Tests without a repeated name. -/
def distinctTests (d : Datum) : Checked { ts : List Test // (ts.map fun t => t.name.text).Nodup } :=
  (list test d).andThen fun ts =>
    if h : (ts.map fun t => t.name.text).Nodup then .ok ⟨ts, h⟩ else .fail (.rule repeatedNames)

def fixture : Datum → Checked Fixture :=
  record "SynthesizedUnit" fun es =>
    (fun ns usings className fields setup tests =>
      { namespaceName := ns, usings, className, fields, setup, tests := tests.1,
        distinct := tests.2 : Fixture })
      <$> need es "namespace" name <*> maybe es "usings" [] (list usingDirective)
      <*> need es "class_name" name <*> maybe es "fields" [] (list field)
      <*> need es "constructor" setup <*> maybe es "methods" ⟨[], by simp⟩ distinctTests

def describeTypeUse (t : TypeUse) : Datum :=
  .dict [("name", .str t.name), ("is_mock", .bool t.isMock)]

def describeLiteral : Literal → Datum
  | .bool b => .bool b
  | .text s => .str s

mutual

def describeExpr : Expr → Datum
  | .identifier n => .dict [("kind", .str "identifier"), ("name", .str n)]
  | .literal v => .dict [("kind", .str "literal"), ("value", describeLiteral v)]
  | .default t => .dict [("kind", .str "default"), ("type", describeTypeUse t)]
  | .member e n =>
    .dict [("kind", .str "member_access"), ("target", describeExpr e), ("member", .str n)]
  | .call e es =>
    .dict [("kind", .str "invocation"), ("callee", describeExpr e),
      ("arguments", .list (describeExprs es))]
  | .create t es =>
    .dict [("kind", .str "object_creation"), ("type", describeTypeUse t),
      ("arguments", .list (describeExprs es))]
  | .await e => .dict [("kind", .str "await"), ("operand", describeExpr e)]
  | .assign e v =>
    .dict [("kind", .str "assignment"), ("target", describeExpr e), ("value", describeExpr v)]

def describeExprs : List Expr → List Datum
  | [] => []
  | e :: es => describeExpr e :: describeExprs es

end

def describeStmt : Stmt → Datum
  | .declare t n e =>
    .dict [("kind", .str "local_declaration"), ("type", describeTypeUse t), ("name", .str n),
      ("initializer", describeExpr e)]
  | .evaluate e => .dict [("kind", .str "expression_statement"), ("expression", describeExpr e)]

def describeField (f : Field) : Datum :=
  .dict [("name", .str f.name), ("type", describeTypeUse f.type)]

def describeSetup (s : Setup) : Datum :=
  .dict [("name", .str s.name), ("body", .list (s.body.map describeStmt))]

def describeTest (t : Test) : Datum :=
  .dict [("name", .str t.name), ("is_async", .bool t.isAsync), ("attribute", .str t.attributeText),
    ("body", .list (t.body.map describeStmt))]

def describeFixture (f : Fixture) : Datum :=
  .dict [("namespace", .str f.namespaceName), ("usings", .list (f.usings.map describeUsing)),
    ("class_name", .str f.className), ("fields", .list (f.fields.map describeField)),
    ("constructor", describeSetup f.setup), ("methods", .list (f.tests.map describeTest))]

end TestScaffold.Schema

namespace TestScaffold

open Schema

/-- The rejection that a test class meets when it is put together. -/
def FixtureError.rejection : FixtureError → Rejection
  | emptyType => ⟨"TypeRef", [⟨[.key "name"], .textEmpty⟩]⟩
  | absentType => ⟨"TypeRef", [⟨[.key "name"], .textExpected⟩]⟩
  | emptyReceiver => ⟨"IdentifierName", [⟨[.key "name"], .textEmpty⟩]⟩
  | emptyTestName => ⟨"UnitMethod", [⟨[.key "name"], .textEmpty⟩]⟩
  | repeatedTestNames => ⟨"SynthesizedUnit", [⟨[.key "methods"], .rule repeatedNames⟩]⟩

end TestScaffold
