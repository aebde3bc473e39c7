/-
  TestScaffold/Schema/Fault.lean
  ==============================
  What can be wrong with untyped data, where, and in which words.
-/
import TestScaffold.Text.Quoted
import TestScaffold.Text.Words

namespace TestScaffold.Schema

open TestScaffold.Text

/-- One step from a datum to a part of it. -/
inductive Step where
  | key (name : String)
  | index (position : Nat)
deriving DecidableEq, Repr

/-- A cause for refusing a datum. -/
inductive Issue where
  | textExpected
  | textEmpty
  | textNotUnicode
  | boolExpected
  | boolUnreadable
  | intExpected
  | intUnreadable
  | intTooLong
  | intFraction
  | intNotFinite
  | belowMinimum (bound : Int)
  | aboveMaximum (bound : Int)
  | listExpected
  | tupleExpected
  /-- A mapping for the named record type is expected. -/
  | recordExpected (label : String)
  /-- A mapping for one of several record types is expected. -/
  | variantExpected
  | notAMember (choices : List String)
  | notALiteral (choices : List String)
  | missing
  | tagUnknown (tag : String) (choices : List String)
  | tagMissing
  /-- A rule of the domain is broken. -/
  | rule (text : String)
  | frozen
deriving DecidableEq, Repr

/-- Choices as a list in words: `a`, `b or c`, `d, e or f`. -/
def orList : List String → String
  | [] => ""
  | [s] => s
  | [s, t] => s ++ " or " ++ t
  | s :: t :: rest => s ++ ", " ++ orList (t :: rest)

namespace Issue

/-- The short name of a cause. -/
def code : Issue → String
  | textExpected => "string_type"
  | textEmpty => "string_too_short"
  | textNotUnicode => "string_unicode"
  | boolExpected => "bool_type"
  | boolUnreadable => "bool_parsing"
  | intExpected => "int_type"
  | intUnreadable => "int_parsing"
  | intTooLong => "int_parsing_size"
  | intFraction => "int_from_float"
  | intNotFinite => "finite_number"
  | belowMinimum _ => "greater_than_equal"
  | aboveMaximum _ => "less_than_equal"
  | listExpected => "list_type"
  | tupleExpected => "tuple_type"
  | recordExpected _ => "model_type"
  | variantExpected => "model_attributes_type"
  | notAMember _ => "enum"
  | notALiteral _ => "literal_error"
  | missing => "missing"
  | tagUnknown _ _ => "union_tag_invalid"
  | tagMissing => "union_tag_not_found"
  | rule _ => "value_error"
  | frozen => "frozen_instance"

/-- A cause in words. -/
def message : Issue → String
  | textExpected => "Input should be a valid string"
  | textEmpty => "String should have at least 1 character"
  | textNotUnicode => "Input should be a valid string, unable to parse raw data as a unicode string"
  | boolExpected => "Input should be a valid boolean"
  | boolUnreadable => "Input should be a valid boolean, unable to interpret input"
  | intExpected => "Input should be a valid integer"
  | intUnreadable => "Input should be a valid integer, unable to parse string as an integer"
  | intTooLong => "Unable to parse input string as an integer, exceeded maximum size"
  | intFraction => "Input should be a valid integer, got a number with a fractional part"
  | intNotFinite => "Input should be a finite number"
  | belowMinimum bound => "Input should be greater than or equal to " ++ toString bound
  | aboveMaximum bound => "Input should be less than or equal to " ++ toString bound
  | listExpected => "Input should be a valid list"
  | tupleExpected => "Input should be a valid tuple"
  | recordExpected label => "Input should be a valid dictionary or instance of " ++ label
  | variantExpected => "Input should be a valid dictionary or object to extract fields from"
  | notAMember choices => "Input should be " ++ orList (choices.map quoted)
  | notALiteral choices => "Input should be " ++ orList (choices.map quoted)
  | missing => "Field required"
  | tagUnknown tag choices =>
    "Input tag '" ++ tag ++ "' found using 'kind' does not match any of the expected tags: " ++
      joinWith ", " (choices.map quoted)
  | tagMissing => "Unable to extract tag using discriminator 'kind'"
  | rule text => "Value error, " ++ text
  | frozen => "Instance is frozen"

end Issue

/-- A cause with the place of the datum that it concerns. -/
structure Fault where
  place : List Step
  issue : Issue
deriving DecidableEq, Repr

/-- The faults found in a datum for the named record type, in the order of its fields. -/
structure Rejection where
  label : String
  faults : List Fault
deriving DecidableEq, Repr

/-- One step in words. -/
def Step.text : Step → String
  | key name => name
  | index position => toString position

/-- A fault in lines: its place, unless that is the whole datum, and its cause. -/
def Fault.lines (f : Fault) : List String :=
  (if f.place.isEmpty then [] else [joinWith "." (f.place.map Step.text)]) ++
    ["  " ++ f.issue.message]

/-- A rejection in lines: how many faults there are, then each of them. -/
def Rejection.text (r : Rejection) : String :=
  let count := r.faults.length
  let head := toString count ++ " validation error" ++ (if count = 1 then "" else "s") ++
    " for " ++ r.label
  joinWith "\n" (head :: r.faults.flatMap Fault.lines)

/-- Either a value, or everything that is wrong with a datum. -/
inductive Checked (α : Type) where
  | ok (value : α)
  | bad (faults : List Fault)

namespace Checked

/-- One fault at the datum itself. -/
def fail {α : Type} (issue : Issue) : Checked α := .bad [⟨[], issue⟩]

def map {α β : Type} (f : α → β) : Checked α → Checked β
  | ok a => ok (f a)
  | bad faults => bad faults

/-- Applies a checked function to a checked value; the faults of both are kept. -/
def seq {α β : Type} (f : Checked (α → β)) (x : Unit → Checked α) : Checked β :=
  match f, x () with
  | ok f, ok a => ok (f a)
  | ok _, bad faults => bad faults
  | bad faults, ok _ => bad faults
  | bad faults, bad more => bad (faults ++ more)

instance : Applicative Checked where
  pure := ok
  map := map
  seq := seq

/-- Goes on with a value, if there is one. -/
def andThen {α β : Type} (x : Checked α) (f : α → Checked β) : Checked β :=
  match x with
  | ok a => f a
  | bad faults => bad faults

/-- The faults seen from a datum that holds the checked one. -/
def under {α : Type} (step : Step) : Checked α → Checked α
  | ok a => ok a
  | bad faults => bad (faults.map fun f => { f with place := step :: f.place })

/-- The outcome for a record type. -/
def toExcept {α : Type} (label : String) : Checked α → Except Rejection α
  | ok a => .ok a
  | bad faults => .error ⟨label, faults⟩

end Checked

end TestScaffold.Schema
