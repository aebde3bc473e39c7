/-
  TestScaffold/Source/ReturnType.lean
  ===================================
  Telling from its text what a method returns: nothing, a bare task, a task of
  one result, or a plain value.

  A task of one result is one of the task names before a bracketed list that
  `splitArguments` cuts into exactly one piece.
-/
import TestScaffold.Source.Basic
import TestScaffold.Text.Words

namespace TestScaffold.Source

open TestScaffold.Text

/-- How a character changes the bracket depth. -/
def depthStep (c : Char) : Int :=
  if c = '<' ∨ c = '(' ∨ c = '[' then 1
  else if c = '>' ∨ c = ')' ∨ c = ']' then -1
  else 0

/-- The pieces between commas at depth zero, each without blanks at its ends. `piece` holds the
characters of the current piece, last first. The last piece counts only if it is not blank. -/
def splitArgumentsFrom (depth : Int) (piece : List Char) : List Char → List (List Char)
  | [] =>
    let last := trimChars piece.reverse
    if last.isEmpty then [] else [last]
  | c :: rest =>
    let depth := depth + depthStep c
    if c = ',' ∧ depth = 0 then trimChars piece.reverse :: splitArgumentsFrom depth [] rest
    else splitArgumentsFrom depth (c :: piece) rest

/-- The pieces of a type argument list. -/
def splitArguments (text : String) : List String :=
  (splitArgumentsFrom 0 [] text.toList).map String.ofList

/-- The types that stand for a task. -/
def taskNames : List String :=
  ["Task", "ValueTask", "System.Threading.Tasks.Task", "System.Threading.Tasks.ValueTask"]

/-- A dotted head and the text between the angle brackets that follow it up to the end. -/
def headAndArguments? (cs : List Char) : Option (List Char × List Char) :=
  let dotted (c : Char) : Bool := isWord c || c == '.'
  match (cs.dropWhile dotted).dropWhile isBlank with
  | '<' :: inner =>
    match inner.reverse with
    | '>' :: body =>
      if body.isEmpty || (cs.takeWhile dotted).isEmpty then none
      else some (cs.takeWhile dotted, body.reverse)
    | _ => none
  | _ => none

/-- Classifies a return type by its text. -/
def ReturnType.ofText (typeName : String) : ReturnType :=
  let text := squeeze typeName
  if text = "void" then ⟨.void, text, none⟩
  else if text ∈ taskNames then ⟨.task, text, none⟩
  else match headAndArguments? text.toList with
    | some (head, body) =>
      if String.ofList head ∈ taskNames then
        match splitArgumentsFrom 0 [] body with
        | [only] => ⟨.taskOf, text, some (String.ofList only)⟩
        | _ => ⟨.value, text, none⟩
      else ⟨.value, text, none⟩
    | none => ⟨.value, text, none⟩

end TestScaffold.Source
