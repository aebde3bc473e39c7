/-
  TestScaffold/Fixture/Layout.lean
  ================================
  The text of a generated test class.

  Directives come first, the global ones before the others; then one block per
  namespace, class and member, braces on lines of their own, one blank line
  after the directives and between members.  A block indents its lines by one
  unit; blank lines are never indented.

  Names of declarations and the namespace are checked on the way, and so is
  that no type is blank.
-/
import TestScaffold.Fixture.Basic
import TestScaffold.Text.Quoted
import TestScaffold.Text.Words

namespace TestScaffold

open TestScaffold.Text

/-- What a checked name belongs to. -/
inductive NameRole where
  | className
  | namespaceName
  | fieldName
  | constructorName
  | methodName
  | localName
deriving DecidableEq, Repr

/-- The role in words. -/
def NameRole.text : NameRole → String
  | className => "class name"
  | namespaceName => "namespace"
  | fieldName => "field name"
  | constructorName => "constructor name"
  | methodName => "method name"
  | localName => "local name"

/-- Why a test class has no text. -/
inductive RenderError where
  | invalidName (role : NameRole) (name : String)
  | emptyType
deriving DecidableEq, Repr

/-- The error in words. -/
def RenderError.message : RenderError → String
  | invalidName role name => "Invalid " ++ role.text ++ ": " ++ quoted name
  | emptyType => "Empty type name"

/-- How lines end. -/
inductive Newline where
  | lf
  | crlf
deriving DecidableEq, Repr

namespace Newline

/-- The line end itself. -/
def text : Newline → String
  | lf => "\n"
  | crlf => "\r\n"

/-- The name of the style. -/
def label : Newline → String
  | lf => "lf"
  | crlf => "crlf"

/-- The style with a name. -/
def ofString? : String → Option Newline
  | "lf" => some lf
  | "crlf" => some crlf
  | _ => none

/-- What is said of a name that no style has. -/
def unknownMessage (name : String) : String := "Unknown newline style: " ++ name

end Newline

/-- How generated text is laid out. -/
structure Layout where
  indent : String := "    "
  newline : Newline := .lf

namespace Layout

/-- Whether the characters are an identifier: an optional at sign, a letter or underscore, and
word characters. -/
def isIdentifier (cs : List Char) : Bool :=
  let body := match cs with
    | '@' :: rest => rest
    | _ => cs
  match body with
  | c :: rest => isWord c && !isDecimal c && rest.all isWord
  | [] => false

/-- Refuses a name that is no identifier. -/
def checkName (role : NameRole) (name : String) : Except RenderError Unit :=
  if isIdentifier name.toList then .ok () else .error (.invalidName role name)

/-- Refuses a name that is not identifiers joined by points. -/
def checkNamespace (name : String) : Except RenderError Unit :=
  if (splitChars '.' name.toList).all isIdentifier then .ok ()
  else .error (.invalidName .namespaceName name)

/-- The line of a using directive. -/
def usingLine (u : Source.Using) : String :=
  let aliasWords : List String := match u.alias? with
    | some name => if name = "" then [] else [name ++ " ="]
    | none => []
  joinWith " " ((if u.isGlobal then ["global"] else []) ++ ["using"] ++
    (if u.isStatic then ["static"] else []) ++ aliasWords ++ [u.name.text]) ++ ";"

/-- A type as written. -/
def typeText (t : TypeUse) : Except RenderError String :=
  if isBlankText t.name then .error .emptyType
  else .ok (if t.isMock then "Mock<" ++ t.name.text ++ ">" else t.name.text)

/-- One character inside a string literal. -/
def escape : Char → List Char
  | '\\' => ['\\', '\\']
  | '"' => ['\\', '"']
  | '\n' => ['\\', 'n']
  | '\r' => ['\\', 'r']
  | '\t' => ['\\', 't']
  | '\x00' => ['\\', '0']
  | c => [c]

/-- A literal as written. -/
def literalText : Literal → String
  | .bool value => if value then "true" else "false"
  | .text value => "\"" ++ String.ofList (value.toList.flatMap escape) ++ "\""

mutual

/-- An expression as written. -/
def exprText : Expr → Except RenderError String
  | .identifier name => .ok name.text
  | .literal value => .ok (literalText value)
  | .default type => return "default(" ++ (← typeText type) ++ ")"
  | .member target name => return (← exprText target) ++ "." ++ name.text
  | .call callee arguments => do
    let head ← exprText callee
    return head ++ "(" ++ (← argumentTexts arguments) ++ ")"
  | .create type arguments => do
    let head ← typeText type
    return "new " ++ head ++ "(" ++ (← argumentTexts arguments) ++ ")"
  | .await operand => return "await " ++ (← exprText operand)
  | .assign target value => do
    let left ← exprText target
    return left ++ " = " ++ (← exprText value)

/-- Arguments as written, with commas between them. -/
def argumentTexts : List Expr → Except RenderError String
  | [] => .ok ""
  | [e] => exprText e
  | e :: d :: rest => do
    let head ← exprText e
    return head ++ ", " ++ (← argumentTexts (d :: rest))

end

/-- A statement as written. -/
def stmtText : Stmt → Except RenderError String
  | .declare type name initializer => do
    checkName .localName name
    let head ← typeText type
    return head ++ " " ++ name.text ++ " = " ++ (← exprText initializer) ++ ";"
  | .evaluate expression => return (← exprText expression) ++ ";"

/-- Lines one level further in. -/
def indented (unit : String) (lines : List String) : List String :=
  lines.map fun line => if line = "" then "" else unit ++ line

/-- Lines in braces. -/
def block (unit : String) (lines : List String) : List String :=
  "\x7b" :: indented unit lines ++ ["\x7d"]

/-- The line of a field. -/
def fieldLine (f : Field) : Except RenderError String := do
  checkName .fieldName f.name
  return "private " ++ (← typeText f.type) ++ " " ++ f.name.text ++ ";"

/-- The lines of the constructor. -/
def setupLines (unit : String) (s : Setup) : Except RenderError (List String) := do
  checkName .constructorName s.name
  return ("public " ++ s.name.text ++ "()") :: block unit (← s.body.mapM stmtText)

/-- The lines of a test method. -/
def testLines (unit : String) (t : Test) : Except RenderError (List String) := do
  checkName .methodName t.name
  let signature := if t.isAsync then "public async Task " else "public void "
  return ("[" ++ t.attributeText ++ "]") :: (signature ++ t.name.text ++ "()") ::
    block unit (← t.body.mapM stmtText)

/-- Members with a blank line between neighbours. -/
def spaced : List (List String) → List String
  | [] => []
  | [m] => m
  | m :: n :: rest => m ++ "" :: spaced (n :: rest)

/-- The lines of the class. -/
def classLines (unit : String) (f : Fixture) : Except RenderError (List String) := do
  let fields ← f.fields.mapM fieldLine
  let setup ← setupLines unit f.setup
  let tests ← f.tests.mapM (testLines unit)
  let members := (if fields.isEmpty then [] else [fields]) ++ setup :: tests
  return ("public class " ++ f.className.text) :: block unit (spaced members)

/-- All lines. -/
def lines (unit : String) (f : Fixture) : Except RenderError (List String) := do
  checkName .className f.className
  checkNamespace f.namespaceName
  let usings := (f.usings.filter (·.isGlobal) ++ f.usings.filter (!·.isGlobal)).map usingLine
  let body ← classLines unit f
  return usings ++ (if usings.isEmpty then [] else [""]) ++
    ("namespace " ++ f.namespaceName.text) :: block unit body

/-- The text of a test class. -/
def render (layout : Layout) (f : Fixture) : Except RenderError String := do
  let ls ← lines layout.indent f
  return joinWith layout.newline.text ls ++ layout.newline.text

end Layout

end TestScaffold
