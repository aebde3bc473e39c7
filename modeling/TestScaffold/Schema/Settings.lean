/-
  TestScaffold/Schema/Settings.lean
  =================================
  Settings, plans and reports as untyped data.
-/
import TestScaffold.Schema.Source
import TestScaffold.Settings.Basic

namespace TestScaffold.Schema

open TestScaffold.Text

/-- The newline styles by name. -/
def newlineNames : List (String × Newline) := [("lf", .lf), ("crlf", .crlf)]

/-- The greatest number of workers that settings may ask for. -/
def maxWorkers : Int := 256

/-- A number of workers in settings. -/
def settingWorkers (d : Datum) : Checked Nat := Int.toNat <$> intWithin 1 (some maxWorkers) d

/-- A number of workers in a plan. -/
def planWorkers (d : Datum) : Checked Nat := Int.toNat <$> intWithin 1 none d

/-- A count in a report. -/
def count (d : Datum) : Checked Nat := Int.toNat <$> intWithin 0 none d

def limits : Datum → Checked Limits :=
  record "ConcurrencyConfig" fun es =>
    Limits.mk <$> maybe es "max_files_reading_parallel" 3 settingWorkers
      <*> maybe es "max_test_classes_generating_parallel" 3 settingWorkers
      <*> maybe es "max_files_writing_parallel" 6 settingWorkers

/-- An extension starts with a point and holds no path separator. -/
def extensionRule (s : String) : Option String :=
  if startsWith "." s && !hasChar '/' s && !hasChar '\\' s then none
  else some "file_extension must look like '.cs'"

def outputSettings : Datum → Checked OutputSettings :=
  record "OutputConfig" fun es =>
    let d : OutputSettings := {}
    OutputSettings.mk <$> maybe es "save_path" d.savePath text
      <*> maybe es "file_extension" d.extension (fun v => obeying extensionRule (text v))
      <*> maybe es "collision_policy" d.onCollision (oneOf .notALiteral CollisionPolicy.names)
      <*> maybe es "newline" d.newline (oneOf .notALiteral newlineNames)

def discoverySettings : Datum → Checked DiscoverySettings :=
  record "DiscoveryConfig" fun es =>
    let d : DiscoverySettings := {}
    DiscoverySettings.mk <$> maybe es "patterns" d.patterns (list text)
      <*> maybe es "exclude_dirs" d.excluded (list text)

def loggingSettings : Datum → Checked LoggingSettings :=
  record "LoggingConfig" fun es =>
    let d : LoggingSettings := {}
    LoggingSettings.mk <$> maybe es "suppress_modules" d.suppressed (list text)

def settings : Datum → Checked Settings :=
  record "SharpScaffoldConfig" fun es =>
    Settings.mk <$> maybe es "pipeline" {} limits <*> maybe es "output" {} outputSettings
      <*> maybe es "discovery" {} discoverySettings <*> maybe es "logging" {} loggingSettings

def plan : Datum → Checked Plan :=
  record "PipelineConfig" fun es =>
    (fun reading writing generating inputs savePath extension onCollision isDryRun =>
      { limits := { reading, generating, writing }, inputs, savePath, extension, onCollision,
        isDryRun : Plan })
      <$> need es "max_files_reading_parallel" planWorkers
      <*> need es "max_files_writing_parallel" planWorkers
      <*> need es "max_test_classes_generating_parallel" planWorkers
      <*> maybe es "files_paths" [] (tuple text) <*> need es "save_path" name
      <*> maybe es "file_extension" ".cs" text
      <*> maybe es "collision_policy" .overwrite (oneOf .notALiteral CollisionPolicy.names)
      <*> maybe es "dry_run" false bool

def report : Datum → Checked Report :=
  record "GenerationReport" fun es =>
    Report.mk <$> maybe es "files_read" 0 count <*> maybe es "units_generated" 0 count
      <*> maybe es "written_files" [] (list text) <*> maybe es "dry_run" false bool

/-- Texts as a datum. -/
def describeTexts (ss : List String) : Datum := .list (ss.map .str)

def describeLimits (l : Limits) : Datum :=
  .dict [("max_files_reading_parallel", .int l.reading),
    ("max_test_classes_generating_parallel", .int l.generating),
    ("max_files_writing_parallel", .int l.writing)]

def describeOutput (o : OutputSettings) : Datum :=
  .dict [("save_path", .str o.savePath), ("file_extension", .str o.extension),
    ("collision_policy", .str o.onCollision.label), ("newline", .str o.newline.label)]

def describeDiscovery (d : DiscoverySettings) : Datum :=
  .dict [("patterns", describeTexts d.patterns), ("exclude_dirs", describeTexts d.excluded)]

def describeLogging (l : LoggingSettings) : Datum :=
  .dict [("suppress_modules", describeTexts l.suppressed)]

/-- The sections of the settings, by name. -/
def describeSections (s : Settings) : Entries :=
  [("pipeline", describeLimits s.limits), ("output", describeOutput s.output),
   ("discovery", describeDiscovery s.discovery), ("logging", describeLogging s.logging)]

def describeSettings (s : Settings) : Datum := .dict (describeSections s)

def describePlan (p : Plan) : Datum :=
  .dict [("max_files_reading_parallel", .int p.limits.reading),
    ("max_files_writing_parallel", .int p.limits.writing),
    ("max_test_classes_generating_parallel", .int p.limits.generating),
    ("files_paths", describeTexts p.inputs), ("save_path", .str p.savePath),
    ("file_extension", .str p.extension), ("collision_policy", .str p.onCollision.label),
    ("dry_run", .bool p.isDryRun)]

def describeReport (r : Report) : Datum :=
  .dict [("files_read", .int r.filesRead), ("units_generated", .int r.unitsGenerated),
    ("written_files", describeTexts r.writtenFiles), ("dry_run", .bool r.isDryRun)]

end TestScaffold.Schema

namespace TestScaffold

open Schema

/-- The plan for running settings on inputs, checked like any other plan. An empty save path
stands for the one in the settings. -/
def Settings.plan? (s : Settings) (inputs : Datum) (savePath? : Option String := none)
    (isDryRun : Bool := false) : Except Rejection Plan :=
  let savePath := match savePath? with
    | some p => if p = "" then s.output.savePath else p
    | none => s.output.savePath
  (plan (.dict [("max_files_reading_parallel", .int s.limits.reading),
    ("max_files_writing_parallel", .int s.limits.writing),
    ("max_test_classes_generating_parallel", .int s.limits.generating),
    ("files_paths", inputs), ("save_path", .str savePath),
    ("file_extension", .str s.output.extension),
    ("collision_policy", .str s.output.onCollision.label),
    ("dry_run", .bool isDryRun)])).toExcept "PipelineConfig"

end TestScaffold
