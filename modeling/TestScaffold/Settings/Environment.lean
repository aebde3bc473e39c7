/-
  TestScaffold/Settings/Environment.lean
  ======================================
  Settings in environment variables.

  A variable counts if its name begins with `SHARPSCAFFOLD_`.  The rest of the
  name, in small letters and cut at double underscores, is the way to a setting
  through nested sections; the value is read as plain text.
-/
import TestScaffold.Datum.Plain

namespace TestScaffold

open TestScaffold.Text

/-- Environment variables: names and values, each name once. -/
abbrev Environment := List (String × String)

namespace Environment

/-- The variables after setting one: in place if it is there, else at the end. -/
def assign (name value : String) : Environment → Environment
  | [] => [(name, value)]
  | (n, v) :: rest =>
    if n = name then (name, value) :: rest else (n, v) :: assign name value rest

/-- The variables after setting pairs in order. -/
def ofPairs (pairs : List (String × String)) : Environment :=
  pairs.foldl (fun env p => assign p.1 p.2 env) []

/-- The value of a variable. -/
def get? (name : String) : Environment → Option String
  | [] => none
  | (n, v) :: rest => if n = name then some v else get? name rest

/-- How the names of all variables of the program begin. -/
def lead : String := "SHARPSCAFFOLD_"

/-- The variable that hushes the program and is no setting. -/
def quietKey : String := "QUIET"

/-- Why variables do not nest. -/
inductive NestingError where
  /-- A variable goes on below a value. -/
  | sectionIsValue
  /-- A variable names an entry of a value. -/
  | holderIsValue
deriving DecidableEq, Repr

/-- A mapping with a value set at the end of a way through its sections. -/
def plant (value : Datum) (leaf : String) : List String → Datum → Except NestingError Datum
  | [], .dict es => .ok (.dict (Datum.insert leaf value es))
  | [], _ => .error .holderIsValue
  | name :: rest, .dict es =>
    match plant value leaf rest ((Datum.lookup? name es).getD (.dict [])) with
    | .ok inner => .ok (.dict (Datum.insert name inner es))
    | .error e => .error e
  | _ :: _, _ => .error .sectionIsValue

/-- The way to the setting that a variable names: its sections and its own name. -/
def wayOf? (name : String) : Option (List String × String) :=
  match afterLead? lead.toList name.toList with
  | some key =>
    if String.ofList key = quietKey then none
    else
      let pieces := (splitDoubled '_' (lower (String.ofList key)).toList).map String.ofList
      some (pieces.dropLast, pieces.getLastD "")
  | none => none

/-- A mapping with the setting of one variable added. -/
def addVariable (values : Datum) (variable_ : String × String) : Except NestingError Datum :=
  match wayOf? variable_.1 with
  | some (sections, leaf) => plant (.ofPlain variable_.2) leaf sections values
  | none => .ok values

/-- The settings in the variables, nested by section. -/
def settings (env : Environment) : Except NestingError Entries :=
  (env.foldlM addVariable (.dict [])).map fun
    | .dict es => es
    | _ => []

end Environment

end TestScaffold
