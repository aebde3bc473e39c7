/-
  TestScaffold/Settings/Load.lean
  ===============================
  The settings of a run, put together from a settings file, the environment and
  the command line.

  Later layers win, key by key.  A null on the command line stands for an
  option that was not given.  Only what is left after merging is checked, so a
  bad value below a good one does no harm.
-/
import TestScaffold.Datum.Merge
import TestScaffold.Files.Store
import TestScaffold.Schema.Settings
import TestScaffold.Settings.Environment
import TestScaffold.Toml.Document
import TestScaffold.Yaml.Document

namespace TestScaffold

open TestScaffold.Text

/-- The formats of settings files. -/
inductive FileFormat where
  | toml
  | yaml
deriving DecidableEq, Repr

namespace FileFormat

/-- The name of a format in messages. -/
def label : FileFormat → String
  | toml => "TOML"
  | yaml => "YAML"

/-- The format of a file by the extension of its name. -/
def ofPath? (p : Path) : Option FileFormat :=
  let extension := lower p.extension
  if extension = ".toml" then some toml
  else if extension = ".yml" ∨ extension = ".yaml" then some yaml
  else none

end FileFormat

/-- Why there are no settings, as far as their user is to blame. -/
inductive SettingsError where
  | fileMissing (path : Path)
  | formatUnknown (path : Path)
  | unreadable (path : Path) (fault : DiskFault)
  | malformed (format : FileFormat) (path : Path)
  | notAMapping (path : Path)
  | invalid (rejection : Schema.Rejection)
  | unwritable (path : Path) (fault : DiskFault)
deriving DecidableEq, Repr

/-- Why there are no settings for reasons that are reported as they are. -/
inductive LoadFault where
  /-- The file is no text in the common encoding. -/
  | notText
  /-- A value of the file cannot be what it is meant to be. -/
  | value (cause : FormatError)
  | nesting (cause : Environment.NestingError)
  /-- A key of the outermost mapping is no text. -/
  | keyNotText
  /-- The disk cannot tell whether the file is there. -/
  | disk (fault : DiskFault)
deriving DecidableEq, Repr

/-- Why there are no settings. -/
inductive LoadError where
  | settings (cause : SettingsError)
  | fault (cause : LoadFault)
deriving DecidableEq, Repr

namespace SettingsError

/-- A failure in words; `details` tells the faults of invalid settings. -/
def message (details : Schema.Rejection → String) : SettingsError → String
  | fileMissing p => "Configuration file not found: " ++ p.text
  | formatUnknown p => "Unknown configuration file type: " ++ p.text
  | unreadable p fault => "Failed to read " ++ p.text ++ ": " ++ fault.message
  | malformed format p => "Invalid " ++ format.label ++ " in " ++ p.text
  | notAMapping p => "Configuration file " ++ p.text ++ " must contain a mapping"
  | invalid rejection => "Configuration validation failed" ++ details rejection
  | unwritable p fault => "Failed to write " ++ p.text ++ ": " ++ fault.message

end SettingsError

namespace Settings

/-- Where a settings file is looked for, in this order. -/
def searchPaths : List String :=
  [".sharpscaffold.toml", ".sharpscaffold.yml", ".sharpscaffold.yaml", "sharpscaffold.toml",
   "sharpscaffold.yml", "sharpscaffold.yaml"]

/-- Whether something stands at a path. -/
def stands (d : Disk) (p : Path) : Except LoadError Bool :=
  (d.hasEntry p).mapError fun fault => .fault (.disk fault)

/-- The first of some paths at which something stands. -/
def firstStanding? (d : Disk) : List String → Except LoadError (Option Path)
  | [] => .ok none
  | s :: rest =>
    match stands d (.ofString s) with
    | .ok true => .ok (some (.ofString s))
    | .ok false => firstStanding? d rest
    | .error e => .error e

/-- The settings file: the one that is asked for, which has to be there, or the first one found.
An empty request asks for nothing. -/
def file? (d : Disk) (request? : Option String) : Except LoadError (Option Path) :=
  match request?.filter (· ≠ "") with
  | none => firstStanding? d searchPaths
  | some s =>
    match stands d (.ofString s) with
    | .ok true => .ok (some (.ofString s))
    | .ok false => .error (.settings (.fileMissing (.ofString s)))
    | .error e => .error e

/-- The data of a text in a format. -/
def parse (format : FileFormat) (text : String) : Except FormatError Yaml.Document :=
  match format with
  | .toml => (Toml.document text).map fun es => { value := .dict es }
  | .yaml => Yaml.document text

/-- Whether a file with this data counts as empty. -/
def isVoid (doc : Yaml.Document) : Bool :=
  match doc.value with
  | .null => true
  | .bool b => !b
  | .int n => n == 0
  | .float x => x.toInt? == some 0
  | .str s => s == ""
  | .instant _ => false
  | .binary bytes => bytes.isEmpty
  | .list items => items.isEmpty
  | .dict es => es.isEmpty && !doc.hasOtherKeys

/-- The entries of a settings file, and whether it has keys that are no texts. -/
def readFile (d : Disk) (p : Path) : Except LoadError (Entries × Bool) :=
  match FileFormat.ofPath? p with
  | none => .error (.settings (.formatUnknown p))
  | some format =>
    match d.read p with
    | .error .nulInPath => .error (.fault (.disk .nulInPath))
    | .error fault => .error (.settings (.unreadable p fault))
    | .ok bytes =>
      match String.fromUTF8? bytes with
      | none => .error (.fault .notText)
      | some text =>
        match parse format text with
        | .error .malformed => .error (.settings (.malformed format p))
        | .error cause => .error (.fault (.value cause))
        | .ok doc =>
          if isVoid doc then .ok ([], false)
          else match doc.value with
            | .dict es => .ok (es, doc.hasOtherKeys)
            | _ => .error (.settings (.notAMapping p))

/-- The layer of the settings file. -/
def fileLayer (d : Disk) (request? : Option String) : Except LoadError (Entries × Bool) :=
  match file? d request? with
  | .ok none => .ok ([], false)
  | .ok (some p) => readFile d p
  | .error e => .error e

/-- The layer of the environment. -/
def environmentLayer (env : Environment) : Except LoadError Entries :=
  env.settings.mapError fun cause => .fault (.nesting cause)

/-- The settings that entries describe. -/
def ofEntries (es : Entries) : Except LoadError Settings :=
  ((Schema.settings (.dict es)).toExcept "SharpScaffoldConfig").mapError fun r =>
    .settings (.invalid r)

/-- The settings from all layers, lowest first. -/
def ofLayers (file environment overrides : Entries) : Except LoadError Settings :=
  ofEntries (Datum.merge (Datum.merge file environment) (Datum.withoutNulls overrides))

/-- The settings of a run. -/
def load (d : Disk) (env : Environment) (request? : Option String) (overrides : Entries) :
    Except LoadError Settings :=
  match fileLayer d request? with
  | .error e => .error e
  | .ok (file, hasOtherKeys) =>
    match environmentLayer env with
    | .error e => .error e
    | .ok environment =>
      if hasOtherKeys then .error (.fault .keyNotText)
      else ofLayers file environment overrides

end Settings

end TestScaffold
