/-
  TestScaffold/Command/Usage.lean
  ===============================
  Words of a command line: which of them are options, which values the options
  take, and what is said of words that make no sense.

  An option with two dashes may carry its value behind an equals sign.  Options
  of one letter may share a dash, and the value of the last may follow without a
  blank.  Two dashes alone end the options.
-/
import TestScaffold.Text.Likeness
import TestScaffold.Text.Quoted
import TestScaffold.Text.Words

namespace TestScaffold.Command

open TestScaffold.Text

/-- An option: its names, the first one the name it goes by, and whether it takes a value. -/
structure OptionForm where
  names : List String
  takesValue : Bool := false
deriving DecidableEq, Repr

namespace OptionForm

/-- The name that an option goes by. -/
def name (o : OptionForm) : String := o.names.headD ""

/-- The names of an option as they are shown. -/
def hint (o : OptionForm) : String := joinWith " / " (o.names.map fun n => "'" ++ n ++ "'")

end OptionForm

/-- What is wrong with a value. -/
inductive ValueFault where
  | notAChoice (value : String) (choices : List String)
  | notAnInteger (value : String)
  | belowOne (value : Int)
  | fileMissing (value : String)
  | isAFile (value : String)
  | isADirectory (value : String)
deriving DecidableEq, Repr

/-- A fault of a value in words. -/
def ValueFault.message : ValueFault → String
  | notAChoice value choices =>
    quoted value ++ " is not one of " ++ joinWith ", " (choices.map quoted) ++ "."
  | notAnInteger value => quoted value ++ " is not a valid integer range."
  | belowOne value => toString value ++ " is not in the range x>=1."
  | fileMissing value => "File " ++ quoted value ++ " does not exist."
  | isAFile value => "Directory " ++ quoted value ++ " is a file."
  | isADirectory value => "File " ++ quoted value ++ " is a directory."

/-- Why a command line makes no sense. -/
inductive UsageError where
  /-- There are no words at all. -/
  | empty
  | unknownOption (name : String) (likely : List String)
  | unknownCommand (name : String) (likely : List String)
  | valueMissing (name : String)
  | valueUnwanted (name : String)
  | commandMissing
  | argumentMissing (hint : String)
  | argumentsLeft (arguments : List String)
  | valueInvalid (hint : String) (fault : ValueFault)
deriving DecidableEq, Repr

namespace UsageError

/-- What the user may have meant, in words. -/
def suggestion (what : String) : List String → String
  | [] => ""
  | [name] => " Did you mean " ++ quoted name ++ "?"
  | names =>
    let sorted := names.mergeSort fun a b => decide (a ≤ b)
    " (Possible " ++ what ++ ": " ++ joinWith ", " (sorted.map quoted) ++ ")"

/-- An error in words. -/
def message : UsageError → String
  | empty => ""
  | unknownOption name likely =>
    "No such option " ++ quoted name ++ "." ++ suggestion "options" likely
  | unknownCommand name likely =>
    "No such command " ++ quoted name ++ "." ++ suggestion "commands" likely
  | valueMissing name => "Option " ++ quoted name ++ " requires an argument."
  | valueUnwanted name => "Option " ++ quoted name ++ " does not take a value."
  | commandMissing => "Missing command."
  | argumentMissing hint => "Missing argument " ++ hint ++ "."
  | argumentsLeft arguments =>
    "Got unexpected extra argument" ++ (if arguments.length = 1 then "" else "s") ++ " (" ++
      joinWith " " arguments ++ ")"
  | valueInvalid hint fault => "Invalid value for " ++ hint ++ ": " ++ fault.message

end UsageError

/-- The options given, by name and in order, and the words that are none. -/
structure Words where
  given : List (String × String) := []
  plain : List String := []
deriving DecidableEq, Repr

namespace Words

/-- The words with an option in front. -/
def give (w : Words) (name value : String) : Words :=
  { w with given := (name, value) :: w.given }

/-- Whether an option is given. -/
def has (w : Words) (name : String) : Bool := w.given.any (·.1 == name)

/-- Each option given, at the place of its first appearance and with its last value. -/
def settled : List (String × String) → List (String × String)
  | [] => []
  | (name, value) :: rest =>
    let last := (rest.filter (·.1 == name)).getLast?
    (name, (last.map (·.2)).getD value) :: (settled rest).filter (·.1 != name)

end Words

/-- What one word of the form of an option holds: options with their values, and perhaps an
option that takes the next word, with the name it was given by. -/
structure OptionWord where
  given : List (String × String) := []
  open? : Option (String × String) := none

/-- The option of a name. -/
def form? (forms : List OptionForm) (name : String) : Option OptionForm :=
  forms.find? (·.names.contains name)

/-- Whether a name has two dashes. -/
def isLong (name : String) : Bool := startsWith "--" name

/-- Options of one letter behind a shared dash. -/
def readLetters (forms : List OptionForm) : List Char → Except UsageError OptionWord
  | [] => .ok {}
  | c :: rest =>
    let spelled := "-" ++ String.singleton c
    match form? forms spelled with
    | none => .error (.unknownOption spelled [])
    | some o =>
      if o.takesValue then
        if rest.isEmpty then .ok { open? := some (o.name, spelled) }
        else .ok { given := [(o.name, String.ofList rest)] }
      else
        (readLetters forms rest).map fun w => { w with given := (o.name, "") :: w.given }

/-- The name and the value of a word: what stands before and behind the first equals sign. -/
def cutValue (word : List Char) : List Char × Option String :=
  match word.dropWhile (· != '=') with
  | [] => (word, none)
  | _ :: value => (word.takeWhile (· != '='), some (String.ofList value))

/-- The options that one word holds. -/
def readOption (forms : List OptionForm) (word : String) : Except UsageError OptionWord :=
  let (name, value?) := cutValue word.toList
  let spelled := String.ofList name
  let long := forms.filter (·.names.any isLong)
  match if isLong spelled then form? long spelled else none with
  | some o =>
    match o.takesValue, value? with
    | true, some value => .ok { given := [(o.name, value)] }
    | true, none => .ok { open? := some (o.name, spelled) }
    | false, some _ => .error (.valueUnwanted spelled)
    | false, none => .ok { given := [(o.name, "")] }
  | none =>
    if isLong word then
      .error (.unknownOption spelled
        (likest spelled ((long.flatMap (·.names)).filter isLong)))
    else readLetters forms (word.toList.drop 1)

/-- Whether a word has the form of an option. -/
def isOption (word : String) : Bool := startsWith "-" word && word != "-"

/-- Sorts words into options and others. Without `mixed`, the first other word ends the
options. -/
def readWords (forms : List OptionForm) (mixed : Bool) : List String → Except UsageError Words
  | [] => .ok {}
  | word :: rest =>
    if word = "--" then .ok { plain := rest }
    else if isOption word then
      match readOption forms word with
      | .error e => .error e
      | .ok w =>
        let add (more : Words) : Words := { more with given := w.given ++ more.given }
        match w.open?, rest with
        | none, rest => (readWords forms mixed rest).map add
        | some (name, _), value :: rest =>
          (readWords forms mixed rest).map fun more => add (more.give name value)
        | some (_, spelled), [] => .error (.valueMissing spelled)
    else if mixed then
      (readWords forms mixed rest).map fun w => { w with plain := word :: w.plain }
    else .ok { plain := word :: rest }

end TestScaffold.Command
