/-
  TestScaffold/CSharp/Outline.lean
  ================================
  The outline of a source file: what a syntax tree says about usings,
  namespaces, classes, constructors and methods.

  Classes are looked for in namespaces and in classes only; the bodies of
  structs, interfaces, records and members are not entered.  A namespace
  without a block governs the declarations that follow it.
-/
import TestScaffold.CSharp.Chart
import TestScaffold.Source.ReturnType

namespace TestScaffold

open TestScaffold.Text
open Source (Access Constructor Method Parameter ReturnType Using File)

/-- Why a source text has no outline. -/
inductive SourceError where
  /-- The text is not in the language. -/
  | invalidSyntax
  /-- A using directive names nothing. -/
  | unnamedUsing
  /-- A declaration lacks a part that the grammar gives to each. -/
  | incompleteDeclaration
  /-- No class is declared. -/
  | noClass
deriving DecidableEq, Repr

/-- The error in words, for a text from `path?`. -/
def SourceError.message (path? : Option String) : SourceError → String
  | invalidSyntax =>
    "Invalid C# syntax in " ++ (match path? with
      | some path => if path = "" then "<text>" else path
      | none => "<text>")
  | unnamedUsing => "Using directive without a name"
  | incompleteDeclaration => "Incomplete declaration"
  | noClass => "No class declaration found in generated unit"

namespace CSharp

/-- The name that a word is. -/
def Word.name (w : Word) : Name :=
  ⟨String.ofList w.chars, fun h => w.nonempty (by
    have := congrArg String.toList h
    simpa using this)⟩

/-! ### Using directives -/

/-- The text without the semicolons at its end. -/
def withoutSemicolons (cs : List Char) : List Char :=
  (cs.reverse.dropWhile (· == ';')).reverse

/-- The trimmed rest behind a leading word and one space. -/
def afterWord? (word : String) (cs : List Char) : Option (List Char) :=
  (afterLead? (word.toList ++ [' ']) cs).map trimChars

/-- The directive that a text states: `global` and `static` in front, then an alias before an
equals sign, then the name. -/
def usingOfText? (text : String) : Option Using :=
  let cs := trimChars (withoutSemicolons (squeeze text).toList)
  let (isGlobal, cs) := match afterWord? "global" cs with
    | some rest => (true, rest)
    | none => (false, cs)
  let cs := trimChars (cs.drop "using".length)
  let (isStatic, cs) := match afterWord? "static" cs with
    | some rest => (true, rest)
    | none => (false, cs)
  let (alias?, name) : Option String × List Char :=
    match cs.dropWhile (· != '=') with
    | _ :: rest => (some (String.ofList (trimChars (cs.takeWhile (· != '=')))), trimChars rest)
    | [] => (none, cs)
  (Name.ofString? (String.ofList name)).map fun name => { name, alias?, isStatic, isGlobal }

/-! ### Declarations -/

namespace Tree

/-- The name of a declaration: the first identifier right below it. -/
def declaredName? (t : Tree) : Option Name :=
  ((t.child? .identifier).bind word?).map Word.name

/-- The words of the modifiers. -/
def modifierWords (t : Tree) : List String := (t.childrenOf .modifier).map text

/-- The accessibility that modifiers state; several count as the widest. -/
def access (modifiers : List String) : Access :=
  if "public" ∈ modifiers then .publicAccess
  else if "protected" ∈ modifiers then .protectedAccess
  else if "internal" ∈ modifiers then .internalAccess
  else .privateAccess

/-- The words that may stand before the type of a parameter. -/
def parameterWords : List String :=
  ["this", "ref", "out", "in", "params", "scoped", "readonly"]

/-- What is written before the name of a parameter that has no type: comments and conditional
sections, but no attributes. -/
def beforeName (isFirst : Bool) : List Tree → List (List Char)
  | [] => []
  | t :: rest =>
    let notes := if isFirst then [] else t.leadingNotes
    if t.isOf .identifier then notes
    else notes ++ (if t.isOf .attributeList then [] else [t.chars]) ++ beforeName false rest

/-- The type text of a parameter. -/
def parameterTypeText (t : Tree) : String :=
  match t.child? .parameterType with
  | some type => squeeze type.text
  | none =>
    let words := wordsOfChars (joinWords (beforeName true t.children))
    joinWith " " ((words.map String.ofList).dropWhile (· ∈ parameterWords))

/-- A parameter. -/
def parameter (t : Tree) : Except SourceError Parameter :=
  match t.declaredName? with
  | some name => .ok { name, typeName := t.parameterTypeText }
  | none => .error .incompleteDeclaration

/-- The parameters of a declaration. -/
def parameters (t : Tree) : Except SourceError (List Parameter) :=
  match t.child? .parameterList with
  | some list => (list.childrenOf .parameter).mapM parameter
  | none => .ok []

/-- A constructor. -/
def constructor (t : Tree) : Except SourceError Constructor := do
  return { parameters := ← t.parameters, access := access t.modifierWords }

/-- A method. -/
def method (t : Tree) : Except SourceError Method := do
  let some name := t.declaredName? | throw .incompleteDeclaration
  let some returns := t.child? .returnType | throw .incompleteDeclaration
  let modifiers := t.modifierWords
  return {
    name
    parameters := ← t.parameters
    returnType := ReturnType.ofText returns.text
    isAsync := "async" ∈ modifiers
    access := access modifiers
    isStatic := "static" ∈ modifiers }

/-- The declarations right in the body of a class. -/
def members (t : Tree) : List Tree :=
  match t.child? .declarationList with
  | some body => body.children
  | none => []

/-- A class in a namespace. -/
def sourceClass (inNamespace? : Option String) (t : Tree) : Except SourceError Source.Class := do
  let some name := t.declaredName? | throw .incompleteDeclaration
  return {
    name
    inNamespace?
    constructors := ← (t.members.filter (isOf .constructorDeclaration)).mapM constructor
    methods := ← (t.members.filter (isOf .methodDeclaration)).mapM method }

/-! ### Namespaces and classes -/

/-- The name of a namespace, without blanks. -/
def namespaceName (t : Tree) : String :=
  match t.child? .name with
  | some name => withoutBlanks name.text
  | none => ""

/-- A namespace inside another one. -/
def qualify (outer? : Option String) (inner : String) : Option String :=
  if inner = "" then outer?
  else match outer? with
    | some outer => if outer = "" then some inner else some (outer ++ "." ++ inner)
    | none => some inner

mutual

/-- The classes in a tree, each with the namespace that governs it. -/
def classTrees (inNamespace? : Option String) : Tree → List (Option String × Tree)
  | leaf _ => []
  | node c cs =>
    match c with
    | .namespaceDeclaration =>
      let inner? := qualify inNamespace? (namespaceName (node c cs))
      classTreesFrom inner? inner? cs
    | .classDeclaration =>
      (inNamespace?, node c cs) :: classTreesFrom inNamespace? inNamespace? cs
    | .declarationList => classTreesFrom inNamespace? inNamespace? cs
    | _ => []

/-- The classes in neighbouring trees inside the namespace `outer?`. A namespace without a block
replaces the one before it for the trees that follow; `current?` governs the next tree. -/
def classTreesFrom (outer? current? : Option String) : List Tree → List (Option String × Tree)
  | [] => []
  | t :: ts =>
    match t with
    | node .fileScopedNamespace cs =>
      classTreesFrom outer? (qualify outer? (namespaceName (node .fileScopedNamespace cs))) ts
    | t => classTrees current? t ++ classTreesFrom outer? current? ts

end

/-- The using directives of a file, wherever they stand. -/
def usings (t : Tree) : Except SourceError (List Using) :=
  (t.walk.filter (isOf .usingDirective)).mapM fun u => match usingOfText? u.text with
    | some d => .ok d
    | none => .error .unnamedUsing

/-- The first namespace of a file. -/
def firstNamespace? (t : Tree) : Option String :=
  (t.walk.find? fun n => n.isOf .namespaceDeclaration || n.isOf .fileScopedNamespace).map
    namespaceName

/-- The outline of a file. -/
def outline (t : Tree) : Except SourceError File := do
  let usings ← t.usings
  let classes ← (classTreesFrom none none t.children).mapM fun (ns, c) => c.sourceClass ns
  return { inNamespace? := t.firstNamespace?, usings, classes }

end Tree

end CSharp

/-- The outline of a source text. -/
def Source.File.ofText (text : String) : Except SourceError File :=
  match CSharp.Tree.ofText? text with
  | some tree => tree.outline
  | none => .error .invalidSyntax

/-- The name of the first class of a source text, wherever it stands. -/
def Source.firstClassName (text : String) : Except SourceError Name :=
  match CSharp.Tree.ofText? text with
  | some tree =>
    match tree.walk.findSome? fun t =>
        if t.isOf .classDeclaration then t.declaredName? else none with
    | some name => .ok name
    | none => .error .noClass
  | none => .error .invalidSyntax

end TestScaffold
