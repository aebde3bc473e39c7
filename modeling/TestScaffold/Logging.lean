/-
  TestScaffold/Logging.lean
  =========================
  Which log records are shown: levels of the root and of modules, and the
  handlers that show records on the console.

  The program brings one handler of its own, which takes the place of all
  others that write to the console.  A change of level never adds a handler.
-/
import TestScaffold.Settings.Environment

namespace TestScaffold.Logging

open TestScaffold.Text

/-- The levels that the program sets. -/
inductive Level where
  | debug
  | info
  | warning
deriving DecidableEq, Repr

/-- The number of a level; greater numbers show less. -/
def Level.number : Level → Int
  | debug => 10
  | info => 20
  | warning => 30

/-- How much the user wants to see. -/
structure Verbosity where
  isVerbose : Bool := false
  isQuiet : Bool := false
deriving DecidableEq, Repr

/-- The level of the root: being quiet wins over being verbose. -/
def Verbosity.level (v : Verbosity) : Level :=
  if v.isQuiet then .warning else if v.isVerbose then .debug else .info

/-- The level of modules that are kept from logging details: only verbosity counts. -/
def Verbosity.moduleLevel (v : Verbosity) : Level := if v.isVerbose then .debug else .warning

/-- Whether the environment asks for quiet. -/
def isQuietIn (env : Environment) : Bool :=
  ["1", "true", "yes"].contains
    (lower ((env.get? (Environment.lead ++ Environment.quietKey)).getD ""))

/-- What is set up for logging. -/
structure State where
  rootLevel : Int := Level.warning.number
  /-- Whether the handler of the program is installed. -/
  hasOwn : Bool := false
  /-- How many other handlers write to the console. -/
  others : Nat := 0
  /-- The levels that modules were given, latest first. -/
  given : List (String × Int) := []
  /-- The modules that were ever kept from logging details, in order. -/
  kept : List String := []
deriving DecidableEq, Repr

namespace State

/-- How many handlers write to the console. -/
def handlers (s : State) : Nat := (if s.hasOwn then 1 else 0) + s.others

/-- Whether a module name stands for the root. -/
def isRoot (name : String) : Bool := name == "" || name == "root"

/-- The level of a module; zero if it was given none. -/
def levelOf (s : State) (name : String) : Int :=
  if isRoot name then s.rootLevel
  else ((s.given.find? (·.1 = name)).map (·.2)).getD 0

/-- Gives a module a level. -/
def give (s : State) (name : String) (level : Int) : State :=
  if isRoot name then { s with rootLevel := level }
  else { s with given := (name, level) :: s.given }

/-- Installs the handler of the program, unless it is installed, and sets the level of the root. -/
def setUp (s : State) (level : Int) : State :=
  if s.hasOwn then { s with rootLevel := level }
  else { s with rootLevel := level, hasOwn := true, others := 0 }

/-- Keeps a module from logging more than a level. -/
def keep (level : Level) (s : State) (name : String) : State :=
  let s := s.give name level.number
  { s with kept := if s.kept.contains name then s.kept else s.kept ++ [name] }

/-- Sets the levels of the root and of modules. -/
def setLevel (s : State) (v : Verbosity) (modules : List String) : State :=
  modules.foldl (keep v.moduleLevel) { s with rootLevel := v.level.number }

/-- Adds a handler that is not the program's own. -/
def addOther (s : State) : State := { s with others := s.others + 1 }

/-- Removes the handler of the program. -/
def reset (s : State) : State := { s with hasOwn := false }

end State

/-- The name of the program's logger. -/
def loggerName : String := "sharpscaffold"

/-- The name of the logger for an operation. -/
def operationLogger (operation : String) : String := loggerName ++ "." ++ operation

/-- A request that concerns logging. -/
inductive Step where
  | setUp (level : Int)
  | setLevel (verbosity : Verbosity) (modules : List String)
  | addHandler
  | operationLogger (operation : String)
  | reset
deriving DecidableEq, Repr

/-- What a step answers. -/
inductive Reply where
  | nothing
  | logger (name : String)
  | level (level : Level)
deriving DecidableEq, Repr

/-- Takes one step. The environment may ask for quiet on its own. -/
def State.step (env : Environment) (s : State) : Step → State × Reply
  | .setUp level => (s.setUp level, .logger loggerName)
  | .setLevel verbosity modules =>
    let verbosity := { verbosity with isQuiet := verbosity.isQuiet || isQuietIn env }
    (s.setLevel verbosity modules, .level verbosity.level)
  | .addHandler => (s.addOther, .nothing)
  | .operationLogger operation => (s, .logger (Logging.operationLogger operation))
  | .reset => (s.reset, .nothing)

/-- The states and replies after each of some steps. -/
def State.steps (env : Environment) (s : State) : List Step → List (State × Reply)
  | [] => []
  | step :: rest =>
    let (s, reply) := s.step env step
    (s, reply) :: steps env s rest

end TestScaffold.Logging
