/-
  TestScaffold/Command/Form.lean
  ==============================
  The commands and their options, and how the values of options are checked.

  The values are checked in the order in which the options first appear, each
  option with its last value; missing and superfluous arguments are noticed
  after that.
-/
import TestScaffold.Command.Screen
import TestScaffold.Command.Usage
import TestScaffold.Files.Discovery
import TestScaffold.Logging
import TestScaffold.Number.Numeral
import TestScaffold.Settings.Load

namespace TestScaffold.Command

open TestScaffold.Text

/-- Why a command breaks off without an answer to the user. -/
inductive Breakdown where
  | load (fault : LoadFault)
  | discovery (cause : DiscoveryError)
  | markup (cause : Markup.MarkupError)
  | disk (fault : DiskFault)
deriving DecidableEq, Repr

/-- A breakdown in words. -/
def Breakdown.message : Breakdown → String
  | load .notText => "The configuration file is not a text"
  | load (.value _) => "The configuration file has a value that cannot be read"
  | load (.nesting _) => "A variable is both a value and a section"
  | load .keyNotText => "The configuration file has a key that is not a text"
  | load (.disk fault) => fault.message
  | discovery cause => cause.message
  | markup cause => "Closing tag without an open one: " ++ cause.tag
  | disk fault => fault.message

/-- How a command ends. -/
inductive Ending where
  | done
  | failed
  | help
  | version
  | usage (error : UsageError)
  | broken (breakdown : Breakdown)
deriving DecidableEq, Repr

/-! ### Values -/

/-- What stands at a path as it was typed. A path that ends in a slash or a point leads to a
directory or nowhere. -/
def entryAt? (d : Disk) (typed : String) : Except Ending (Option Entry) :=
  if typed = "" then .ok none
  else
    match d.locate (.ofString typed) with
    | .error .nulInPath => .error (.broken (.disk .nulInPath))
    | .error _ => .ok none
    | .ok place =>
      let isForDirectory := !Path.isName ((splitOn '/' typed).getLastD "")
      .ok (if isForDirectory && !d.isDirectoryAt place then none else d.find? place)

/-- Refuses a value. -/
def refuse {α : Type} (hint : String) (fault : ValueFault) : Except Ending α :=
  .error (.usage (.valueInvalid hint fault))

/-- The path of a file that has to be there. -/
def existingFile (d : Disk) (hint typed : String) : Except Ending Path :=
  match entryAt? d typed with
  | .error e => .error e
  | .ok none => refuse hint (.fileMissing typed)
  | .ok (some .directory) => refuse hint (.isADirectory typed)
  | .ok (some (.file _)) => .ok (.ofString typed)

/-- The path of a file that may be there. -/
def possibleFile (d : Disk) (hint typed : String) : Except Ending Path :=
  match entryAt? d typed with
  | .error e => .error e
  | .ok (some .directory) => refuse hint (.isADirectory typed)
  | .ok _ => .ok (.ofString typed)

/-- The path of a directory that may be there. -/
def possibleDirectory (d : Disk) (hint typed : String) : Except Ending Path :=
  match entryAt? d typed with
  | .error e => .error e
  | .ok (some (.file _)) => refuse hint (.isAFile typed)
  | .ok _ => .ok (.ofString typed)

/-- Any path. -/
def anyPath (d : Disk) (typed : String) : Except Ending Path :=
  (entryAt? d typed).map fun _ => .ofString typed

/-- A number of workers. -/
def workers (hint typed : String) : Except Ending Int :=
  match Numeral.integer? typed with
  | none => refuse hint (.notAnInteger typed)
  | some n => if n < 1 then refuse hint (.belowOne n) else .ok n

/-- What is to happen to files of one name, in letters of any case. -/
def collisionPolicy (hint typed : String) : Except Ending CollisionPolicy :=
  match CollisionPolicy.names.find? (·.1 == lower typed) with
  | some (_, policy) => .ok policy
  | none => refuse hint (.notAChoice typed (CollisionPolicy.names.map (·.1)))

/-! ### Options -/

/-- The option that asks for help. -/
def helpForm : OptionForm := { names := ["--help"] }

/-- The options before the name of a command. -/
def globalForms : List OptionForm :=
  [{ names := ["--config", "-c"], takesValue := true }, { names := ["--verbose", "-v"] },
   { names := ["--quiet", "-q"] }, { names := ["--dry-run", "--dry"] },
   { names := ["--version"] }, helpForm]

/-- What the options before the name of a command ask for. -/
structure Globals where
  config? : Option Path := none
  verbosity : Logging.Verbosity := {}
  isDryRun : Bool := false
deriving DecidableEq, Repr

/-- The options of the command that generates tests. -/
def generateForms : List OptionForm :=
  [{ names := ["--output", "-o"], takesValue := true },
   { names := ["--read-workers"], takesValue := true },
   { names := ["--generate-workers"], takesValue := true },
   { names := ["--write-workers"], takesValue := true },
   { names := ["--on-collision"], takesValue := true }, helpForm]

/-- What the command that generates tests is asked for. -/
structure GenerateRequest where
  paths : List Path := []
  output? : Option Path := none
  reading? : Option Int := none
  generating? : Option Int := none
  writing? : Option Int := none
  onCollision? : Option CollisionPolicy := none
deriving DecidableEq, Repr

/-- The options of the command that writes a settings file. -/
def initForms : List OptionForm := [{ names := ["--force", "-f"] }, helpForm]

/-- What the command that writes a settings file is asked for. -/
structure InitRequest where
  path : Path
  isForced : Bool := false
deriving DecidableEq, Repr

/-- The hint at an option in messages. -/
def hintAt (forms : List OptionForm) (name : String) : String :=
  ((form? forms name).map (·.hint)).getD name

/-- Takes the value of an option before the name of a command. -/
def Globals.set (d : Disk) (g : Globals) : String × String → Except Ending Globals
  | ("--config", typed) =>
    (existingFile d (hintAt globalForms "--config") typed).map fun p => { g with config? := some p }
  | ("--verbose", _) => .ok { g with verbosity.isVerbose := true }
  | ("--quiet", _) => .ok { g with verbosity.isQuiet := true }
  | ("--dry-run", _) => .ok { g with isDryRun := true }
  | _ => .ok g

/-- Takes the value of an option of the command that generates tests. -/
def GenerateRequest.set (d : Disk) (r : GenerateRequest) :
    String × String → Except Ending GenerateRequest
  | (name, typed) =>
    let hint := hintAt generateForms name
    match name with
    | "--output" => (possibleDirectory d hint typed).map fun p => { r with output? := some p }
    | "--read-workers" => (workers hint typed).map fun n => { r with reading? := some n }
    | "--generate-workers" => (workers hint typed).map fun n => { r with generating? := some n }
    | "--write-workers" => (workers hint typed).map fun n => { r with writing? := some n }
    | "--on-collision" =>
      (collisionPolicy hint typed).map fun p => { r with onCollision? := some p }
    | _ => .ok r

/-- The options before the name of a command. -/
def Globals.ofWords (d : Disk) (w : Words) : Except Ending Globals :=
  (Words.settled w.given).foldlM (Globals.set d) {}

/-- The request to generate tests. At least one path is needed. -/
def GenerateRequest.ofWords (d : Disk) (w : Words) : Except Ending GenerateRequest :=
  match (Words.settled w.given).foldlM (GenerateRequest.set d) {} with
  | .error e => .error e
  | .ok r =>
    if w.plain.isEmpty then .error (.usage (.argumentMissing "'PATHS...'"))
    else (w.plain.mapM (anyPath d)).map fun paths => { r with paths }

/-- The request to write a settings file. One path may be given. -/
def InitRequest.ofWords (d : Disk) (usual : String) (w : Words) : Except Ending InitRequest :=
  match possibleFile d "'[PATH]'" (w.plain.headD usual) with
  | .error e => .error e
  | .ok path =>
    let left := w.plain.drop 1
    if left.isEmpty then .ok { path, isForced := w.has "--force" }
    else .error (.usage (.argumentsLeft left))

end TestScaffold.Command
