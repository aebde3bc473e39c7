/-
  TestScaffold/Command/Session.lean
  =================================
  One call of the program: what its words ask for, what it shows and what it
  leaves on the disk.
-/
import TestScaffold.Command.Form
import TestScaffold.Run.Outcome
import TestScaffold.Settings.Sample

namespace TestScaffold.Command

open TestScaffold.Text
open TestScaffold.Command.Markup (MarkupError escape)

/-- The name and the version of the program. -/
def versionLine : String := "sharpscaffold, version 0.1.0"

/-- What a call of the program leaves behind. -/
structure Session where
  disk : Disk
  /-- The lines shown on the console. -/
  lines : List String := []
  ending : Ending := .done

namespace Session

/-- A session that shows nothing. -/
def silent (d : Disk) (ending : Ending) : Session := { disk := d, ending }

/-- The session with more to show behind, unless it has broken off. -/
def showing (s : Session) (more : Except MarkupError (List String)) : Session :=
  match s.ending, more with
  | .broken _, _ => s
  | _, .ok lines => { s with lines := s.lines ++ lines }
  | _, .error e => { s with ending := .broken (.markup e) }

/-- The session with lines in front. -/
def after (before : Session) (s : Session) : Session :=
  match before.ending with
  | .broken _ => { s with disk := before.disk, lines := before.lines, ending := before.ending }
  | _ => { s with lines := before.lines ++ s.lines }

end Session

/-- A panel with a failure. -/
def failurePanel (title message : String) : Except MarkupError (List String) :=
  Screen.panel title ("[error]" ++ escape message ++ "[/]")

/-- A panel with a notice. -/
def noticePanel (title message : String) : Except MarkupError (List String) :=
  Screen.panel title (escape message)

/-- A panel with a success, whose message may hold markup. -/
def successPanel (title message : String) : Except MarkupError (List String) :=
  Screen.panel title ("[success]" ++ message ++ "[/]")

/-- The table of the errors of a run. -/
def errorTable (errors : List RunError) : Except MarkupError (List String) :=
  Screen.Table.lines
    { title? := some "Generation failed"
      isFirstFixed := true
      heads := ("Error", "Details")
      rows := errors.map fun e =>
        let line := e.detail.line
        (line.kind, escape line.message) }

/-- The summary of a report. -/
def summary (r : Report) : String :=
  "Read " ++ toString r.filesRead ++ " file(s), generated " ++ toString r.unitsGenerated ++
    " test class(es). " ++ (if r.isDryRun then "Would write " else "Wrote ") ++
    toString r.writtenFiles.length ++ " file(s)."

/-- The table of the written files. -/
def fileTable (files : List String) : Except MarkupError (List String) :=
  if files.isEmpty then .ok []
  else Screen.Table.lines
    { heads := ("Test class", "Path")
      rows := files.map fun f => ((Path.ofString f).stem, (Path.ofString f).text) }

/-- What a request overrides in the settings; a null overrides nothing. -/
def GenerateRequest.overrides (r : GenerateRequest) : Entries :=
  let number : Option Int → Datum := fun n? => (n?.map Datum.int).getD .null
  let text : Option String → Datum := fun s? => (s?.map Datum.str).getD .null
  [("pipeline", .dict [("max_files_reading_parallel", number r.reading?),
      ("max_test_classes_generating_parallel", number r.generating?),
      ("max_files_writing_parallel", number r.writing?)]),
   ("output", .dict [("save_path", text (r.output?.map (·.text))),
      ("collision_policy", text (r.onCollision?.map (·.label)))])]

/-- The session after a run. -/
def afterRun (o : Outcome) : Session :=
  match o.result with
  | .ok report =>
    ((Session.silent o.disk .done).showing (successPanel "Generation complete" (summary report))).showing
      (fileTable report.writtenFiles)
  | .error (.errors causes) => (Session.silent o.disk .failed).showing (errorTable causes)
  | .error (.impossibleDirectory fault) => .silent o.disk (.broken (.disk fault))

/-- Generates tests. -/
def generate (env : Environment) (d : Disk) (g : Globals) (r : GenerateRequest) : Session :=
  let failing (title message : String) : Session :=
    (Session.silent d .failed).showing (failurePanel title message)
  match Settings.load d env (g.config?.map (·.text)) r.overrides with
  | .error (.fault fault) => .silent d (.broken (.load fault))
  | .error (.settings cause) =>
    failing "Configuration Failed"
      ("Configuration error: " ++ cause.message fun rejection => ": " ++ rejection.text)
  | .ok settings =>
    match d.discover settings.discovery r.paths with
    | .error (.unscannable p fault) =>
      failing "Discovery Failed" (DiscoveryError.unscannable p fault).message
    | .error cause => .silent d (.broken (.discovery cause))
    | .ok [] => failing "Nothing to do" "No C# source files found"
    | .ok files =>
      match settings.plan? (Schema.describeTexts files) none g.isDryRun with
      | .error rejection =>
        failing "Configuration Failed" ("Configuration error: " ++ rejection.text)
      | .ok plan =>
        let notice := if g.isDryRun then
            (Session.silent d .done).showing
              (noticePanel "Dry Run Mode" "DRY RUN: no files will be written")
          else .silent d .done
        notice.after (afterRun (plan.run { newline := settings.output.newline } d))

/-- Writes a settings file. -/
def init (d : Disk) (r : InitRequest) : Session :=
  let failing (message : String) : Session :=
    (Session.silent d .failed).showing (failurePanel "Init Failed" message)
  let write : Session :=
    match Settings.writeSample d r.path with
    | .ok disk =>
      (Session.silent disk .done).showing
        (successPanel "Init Complete" ("Configuration written to " ++ r.path.text))
    | .error .nulInPath => .silent d (.broken (.disk .nulInPath))
    | .error fault =>
      failing ((SettingsError.unwritable r.path fault).message fun rejection => rejection.text)
  match d.hasEntry r.path with
  | .error fault => .silent d (.broken (.disk fault))
  | .ok true =>
    if r.isForced then write
    else failing (r.path.text ++ " already exists (use --force to overwrite)")
  | .ok false => write

/-- The first of the options that are answered at once, if one is given. -/
def immediate? (w : Words) : Option Ending :=
  w.given.findSome? fun (name, _) =>
    if name = "--help" then some .help else if name = "--version" then some .version else none

/-- Goes on with words unless an option among them is answered at once. -/
def answering (d : Disk) (w : Words) (go : Except Ending Session) : Session :=
  match immediate? w, go with
  | some .version, _ => { disk := d, lines := [versionLine], ending := .version }
  | some ending, _ => .silent d ending
  | none, .ok s => s
  | none, .error ending => .silent d ending

/-- The names of the commands. -/
def commandNames : List String := ["generate", "init-config"]

/-- Carries out a command with its words. A name in the form of an option is first read as one. -/
def command (env : Environment) (d : Disk) (g : Globals) (name : String) (words : List String) :
    Session :=
  let withWords (forms : List OptionForm) (go : Words → Except Ending Session) : Session :=
    match readWords forms true words with
    | .error e => .silent d (.usage e)
    | .ok w => answering d w (go w)
  match name with
  | "generate" =>
    withWords generateForms fun w => (GenerateRequest.ofWords d w).map (generate env d g)
  | "init-config" =>
    withWords initForms fun w => (InitRequest.ofWords d Settings.usualSamplePath w).map (init d)
  | _ =>
    match if isOption name then readWords globalForms false (name :: words) else .ok {} with
    | .error e => .silent d (.usage e)
    | .ok w =>
      answering d w ((Globals.ofWords d w).bind fun _ =>
        .error (.usage (.unknownCommand name (likest name commandNames))))

/-- Calls the program with words. -/
def call (env : Environment) (d : Disk) (words : List String) : Session :=
  if words.isEmpty then .silent d (.usage .empty)
  else
    match readWords globalForms false words with
    | .error e => .silent d (.usage e)
    | .ok w =>
      answering d w ((Globals.ofWords d w).map fun g =>
        match w.plain with
        | [] => .silent d (.usage .commandMissing)
        | name :: rest => command env d g name rest)

end TestScaffold.Command
