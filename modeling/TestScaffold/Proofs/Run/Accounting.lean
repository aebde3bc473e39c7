/-
  TestScaffold/Proofs/Run/Accounting.lean
  =======================================
  **Nothing is lost in a run.**

  A run by one worker per stage takes up a front part of its inputs, and every
  draft of every input taken up has one fate.  Two accounts follow.  A run with a
  report read all inputs, wrote the drafts of all classes, and changed nothing but
  the files of those classes.  A run that failed tells the error of every input
  and of every draft that failed, and no other.
-/
import TestScaffold.Proofs.Files.Directories
import TestScaffold.Proofs.Files.SameDirectories
import TestScaffold.Proofs.Run.Drafts
import TestScaffold.Proofs.Run.Inputs
import TestScaffold.Proofs.Run.Kinds
import TestScaffold.Proofs.Run.Log
import TestScaffold.Run.Outcome

namespace TestScaffold

open TestScaffold.Text

/-- A plan for one worker per stage that writes files, with an extension that the settings
    accept. -/
structure Plan.Sequential (plan : Plan) : Prop where
  limits : plan.limits = { reading := 1, generating := 1, writing := 1 }
  wet : plan.isDryRun = false
  extension : Schema.extensionRule plan.extension = none

/-- The plan for one worker per stage that writes the drafts of these inputs to one directory. -/
def Plan.sequentially (inputs : List String) : Plan where
  limits := { reading := 1, generating := 1, writing := 1 }
  inputs
  savePath := ⟨"out", by decide⟩

theorem Plan.sequential_sequentially (inputs : List String) :
    (sequentially inputs).Sequential where
  limits := rfl
  wet := rfl
  extension := (by decide : Schema.extensionRule ".cs" = none)

/-! ### Every input and every draft -/

/-- What one input taken up has yielded. -/
def Took (layout : Layout) (made : Disk) (input : String) (y : Yield) : Prop :=
  Yields layout made input y.drafts y.error?

/-- The errors of a run: those of the inputs taken up, then those of the drafts. -/
def causes (yields : List Yield) (log : Log) : List RunError :=
  yields.filterMap (·.error?) ++ log.errors

/-- The account of a run on the disk with its output directory: the inputs taken up and those
    left out, what the former have yielded, and the fates of all their drafts. -/
structure Accounted (plan : Plan) (layout : Layout) (made : Disk) (attempted skipped : List String)
    (yields : List Yield) (log : Log) (outcome : Outcome) : Prop where
  inputs : plan.inputs = attempted ++ skipped
  /-- An input is left out only after a failure. -/
  stopped : skipped ≠ [] → ∃ y ∈ yields, y.error?.isSome = true
  /-- No input is taken up after one that could not be read. -/
  lastUnread : ∀ front y back, yields = front ++ y :: back → y.isUnread → back = []
  yielded : List.Forall₂ (Took layout made) attempted yields
  /-- Every draft goes on, in order. -/
  forwarded : log.map (·.1) = yields.flatMap (·.drafts)
  explained : ∀ before draft fate after, log = before ++ (draft, fate) :: after →
    fate.Explained plan made before draft
  raised : causes yields log ≠ [] → outcome.result = .error (.errors (causes yields log))
  reported : causes yields log = [] → outcome.result = .ok
    { filesRead := yields.length
      unitsGenerated := log.length
      writtenFiles := (log.written.map (·.1)).eraseDups.map fun (name : Name) =>
        (plan.outputPath name).text
      isDryRun := false }
  overwritten : outcome.overwritings = overwritings plan log.handed
  /-- The file of a class holds the text of the last draft of that name that was written. -/
  latest : ∀ before entry after, log.written = before ++ entry :: after →
    (∀ later ∈ after, later.1 ≠ entry.1) →
      outcome.disk.read (plan.outputPath entry.1) = .ok entry.2.text.toUTF8
  /-- Nothing else is touched. -/
  kept : ∀ q, (∀ entry ∈ log.written, outcome.disk.locate (plan.outputPath entry.1) ≠ .ok q) →
    outcome.disk.find? q = made.find? q

theorem Plan.run_eq {plan : Plan} {layout : Layout} {d : Disk} (hwet : plan.isDryRun = false)
    (hensured : (d.ensureDirectory (.ofString plan.savePath)).2 = .ok ()) :
    plan.run layout d =
      let made := (d.ensureDirectory (.ofString plan.savePath)).1
      let yields := Yield.ofPlan plan layout made
      .ofProgress plan yields
        (({ outlet := { disk := made } } : Progress).steps plan (yields.flatMap (·.drafts))) := by
  obtain ⟨made, hmade⟩ : ∃ made, d.ensureDirectory (.ofString plan.savePath) = (made, .ok ()) :=
    ⟨_, Prod.ext rfl hensured⟩
  simp only [Plan.run, Outlet.ensureDirectory, hwet, hmade, Bool.false_eq_true, if_false]

theorem Logged.reads_latest {plan : Plan} {made : Disk} {log : Log} {p : Progress}
    (h : Logged plan made log p) {before : List (Name × Draft)} {entry : Name × Draft}
    {after : List (Name × Draft)} (hsplit : log.written = before ++ entry :: after)
    (hlast : ∀ later ∈ after, later.1 ≠ entry.1) :
    p.outlet.disk.read (plan.outputPath entry.1) = .ok entry.2.text.toUTF8 := by
  obtain ⟨parent, last, hseat, hfile⟩ := h.latest before entry after hsplit hlast
  exact hseat.read hfile

/-- Every name that was written has its last draft. -/
theorem exists_last_of_mem {entries : List (Name × Draft)} {name : Name}
    (h : name ∈ entries.map (·.1)) :
    ∃ before draft after, entries = before ++ (name, draft) :: after ∧
      ∀ later ∈ after, later.1 ≠ name := by
  induction entries with
  | nil => cases h
  | cons entry rest ih =>
    by_cases hrest : name ∈ rest.map (·.1)
    · obtain ⟨before, draft, after, hsplit, hlast⟩ := ih hrest
      exact ⟨entry :: before, draft, after, by rw [hsplit, List.cons_append], hlast⟩
    · have hentry : entry.1 = name := by
        rw [List.map_cons, List.mem_cons] at h
        rcases h with h | h
        · exact h.symm
        · exact absurd h hrest
      refine ⟨[], entry.2, rest, by rw [← hentry, List.nil_append], fun later hlater hname => ?_⟩
      exact hrest (hname ▸ List.mem_map_of_mem hlater)

theorem Logged.kept_elsewhere {plan : Plan} {made : Disk} {log : Log} {p : Progress}
    (h : Logged plan made log p) (q : Place)
    (hq : ∀ entry ∈ log.written, p.outlet.disk.locate (plan.outputPath entry.1) ≠ .ok q) :
    p.outlet.disk.find? q = made.find? q := by
  refine h.kept q fun entry hentry parent last hseat hqseat => ?_
  obtain ⟨before, draft, after, hsplit, hlast⟩ :=
    exists_last_of_mem (List.mem_map_of_mem (f := (·.1)) hentry)
  obtain ⟨parent', last', hseat', hfile⟩ := h.latest before (entry.1, draft) after hsplit hlast
  have hplace := hseat'.locate (by rw [hfile]; rfl)
  obtain ⟨hparent, hname⟩ := hseat.unique hseat'
  subst hparent hname
  exact hq entry hentry (hqseat ▸ hplace)

/-- **Every run by one worker per stage has an account.** -/
theorem Plan.Sequential.accounted {plan : Plan} (h : plan.Sequential) (layout : Layout) {d : Disk}
    (hensured : (d.ensureDirectory (.ofString plan.savePath)).2 = .ok ()) :
    ∃ attempted skipped yields log, Accounted plan layout
      (d.ensureDirectory (.ofString plan.savePath)).1 attempted skipped yields log
      (plan.run layout d) := by
  rw [Plan.run_eq h.wet hensured]
  generalize (d.ensureDirectory (.ofString plan.savePath)).1 = made
  have hplan : Yield.ofPlan plan layout made =
      Yield.started 1 none (plan.inputs.map (Yield.ofInput layout made)) := by
    rw [Yield.ofPlan, h.limits]
  obtain ⟨rest, hsplit, hstopped, hlast⟩ :=
    Yield.started_split (plan.inputs.map (Yield.ofInput layout made))
  rw [← hplan] at hsplit hstopped hlast
  obtain ⟨attempted, skipped, hinputs, hattempted, hskipped⟩ := List.map_eq_append_iff.mp hsplit
  obtain ⟨log, hlog, hlogged⟩ := logged_steps h.extension
    ((Yield.ofPlan plan layout made).flatMap (·.drafts)) (Logged.start plan made)
  rw [List.nil_append] at hlogged
  generalize hp : ({ outlet := { disk := made } } : Progress).steps plan
    ((Yield.ofPlan plan layout made).flatMap (·.drafts)) = p at hlogged
  refine ⟨attempted, skipped, Yield.ofPlan plan layout made, log, ?_⟩
  have hlength : ((Yield.ofPlan plan layout made).flatMap (·.drafts)).length = log.length := by
    rw [← hlog, List.length_map]
  have hcauses : (Yield.ofPlan plan layout made).filterMap (·.error?) ++ p.errors =
      causes (Yield.ofPlan plan layout made) log := by rw [causes, hlogged.errors]
  exact {
    inputs := hinputs
    stopped := fun hne => hstopped fun hrest => hne (by
      rw [hrest] at hskipped
      exact List.map_eq_nil_iff.mp hskipped)
    lastUnread := hlast
    yielded := by
      rw [← hattempted, List.forall₂_map_right_iff, List.forall₂_same]
      exact fun input _ => Yield.yields_ofInput layout made input
    forwarded := hlog
    explained := hlogged.explained
    raised := fun hne => by
      simp only [Outcome.ofProgress, hp, hcauses]
      rw [if_neg (by rwa [List.isEmpty_iff])]
    reported := fun heq => by
      simp only [Outcome.ofProgress, hp, hcauses, heq, List.isEmpty_nil, if_true, h.wet,
        hlogged.paths, hlength]
    overwritten := by
      simp only [Outcome.ofProgress, hp]
      exact hlogged.overwritten
    latest := fun before entry after hwritten hlater => by
      simp only [Outcome.ofProgress, hp]
      exact hlogged.reads_latest hwritten hlater
    kept := fun q hq => by
      simp only [Outcome.ofProgress, hp] at hq ⊢
      exact hlogged.kept_elsewhere q hq }

/-! ### A run with a report -/

/-- A log without errors has written every draft. -/
theorem Log.written_of_errors_eq_nil {log : Log} (h : log.errors = []) :
    log.written.map (·.2) = log.map (·.1) ∧ log.handed = log.written := by
  induction log with
  | nil => exact ⟨rfl, rfl⟩
  | cons entry rest ih =>
    obtain ⟨draft, fate⟩ := entry
    cases fate with
    | unreadable cause => cases h
    | collided cause => cases h
    | refused name cause => cases h
    | written name =>
      obtain ⟨hwritten, hhanded⟩ := ih h
      exact ⟨congrArg (draft :: ·) hwritten, congrArg ((name, draft) :: ·) hhanded⟩

/-- The account of a run with a report: the drafts of every input, class by class, the names of
    the test classes that the drafts declare, and what was done with them. -/
structure Delivered (plan : Plan) (layout : Layout) (d made : Disk) (drafts : List (List Draft))
    (names : List Name) (outcome : Outcome) (report : Report) : Prop where
  /-- Only directories on the way of the output directory are made, and it is there. -/
  paved : d.Paved made (.ofString plan.savePath)
  ensured : made.hasDirectory (.ofString plan.savePath) = .ok true
  /-- Every input was read and outlined, and every class of it has its draft. -/
  rendered : List.Forall₂ (fun input ds => ∃ text file,
    made.readText (.ofString input) = .ok text ∧ Source.File.ofText text = .ok file ∧
      Drafted layout input file file.classes ds) plan.inputs drafts
  named : List.Forall₂ (fun (draft : Draft) name => Source.firstClassName draft.text = .ok name)
    drafts.flatten names
  filesRead : report.filesRead = plan.inputs.length
  unitsGenerated : report.unitsGenerated = drafts.flatten.length
  writtenFiles : report.writtenFiles =
    names.eraseDups.map fun (name : Name) => (plan.outputPath name).text
  latest : ∀ before (name : Name) (draft : Draft) after,
    names.zip drafts.flatten = before ++ (name, draft) :: after →
      (∀ later ∈ after, later.1 ≠ name) →
        outcome.disk.read (plan.outputPath name) = .ok draft.text.toUTF8
  overwritten : outcome.overwritings = overwritings plan (names.zip drafts.flatten)
  kept : ∀ q, (∀ name ∈ names, outcome.disk.locate (plan.outputPath name) ≠ .ok q) →
    outcome.disk.find? q = made.find? q

theorem Plan.ensured_of_run_ok {plan : Plan} {layout : Layout} {d : Disk} {report : Report}
    (hwet : plan.isDryRun = false) (hok : (plan.run layout d).result = .ok report) :
    (d.ensureDirectory (.ofString plan.savePath)).2 = .ok () := by
  cases hmade : d.ensureDirectory (.ofString plan.savePath) with
  | mk made result =>
    cases result with
    | ok u => rfl
    | error cause =>
      simp only [Plan.run, Outlet.ensureDirectory, hwet, hmade, Bool.false_eq_true,
        if_false] at hok
      unfold Outcome.withoutDirectory at hok
      split at hok <;> cases hok

/-- **A run with a report did just what it reports.** -/
theorem Plan.Sequential.delivered {plan : Plan} (h : plan.Sequential) {layout : Layout} {d : Disk}
    {report : Report} (hok : (plan.run layout d).result = .ok report) :
    ∃ made drafts names,
      Delivered plan layout d made drafts names (plan.run layout d) report := by
  have hensured := Plan.ensured_of_run_ok h.wet hok
  obtain ⟨attempted, skipped, yields, log, acc⟩ := h.accounted layout hensured
  obtain ⟨made, hmade⟩ : ∃ made, d.ensureDirectory (.ofString plan.savePath) = (made, .ok ()) :=
    ⟨_, Prod.ext rfl hensured⟩
  obtain ⟨hpaved, hthere⟩ := Disk.ensureDirectory_ok hmade
  rw [hmade] at acc
  have hcauses : causes yields log = [] := by
    by_contra hne
    rw [acc.raised hne] at hok
    cases hok
  obtain ⟨hyields, hlog⟩ := List.append_eq_nil_iff.mp hcauses
  have hwhole : ∀ y ∈ yields, y.error? = none := List.filterMap_eq_nil_iff.mp hyields
  have hskipped : skipped = [] := by
    by_contra hne
    obtain ⟨y, hy, herror⟩ := acc.stopped hne
    rw [hwhole y hy] at herror
    cases herror
  have hinputs : plan.inputs = attempted := by rw [acc.inputs, hskipped, List.append_nil]
  obtain ⟨hdrafts, hhanded⟩ := Log.written_of_errors_eq_nil hlog
  have hflatten : (yields.map (·.drafts)).flatten = log.map (·.1) := by
    rw [acc.forwarded, List.flatMap_def]
  have hzip : (log.written.map (·.1)).zip (log.map (·.1)) = log.written :=
    (List.zip_of_prod rfl hdrafts).symm
  have hreport := acc.reported hcauses
  rw [hok, Except.ok.injEq] at hreport
  refine ⟨made, yields.map (·.drafts), log.written.map (·.1), ?_⟩
  exact {
    paved := hpaved
    ensured := hthere
    rendered := by
      rw [hinputs, List.forall₂_map_right_iff, List.forall₂_iff_zip]
      refine ⟨acc.yielded.length_eq, fun hmem => ?_⟩
      have htook := List.forall₂_zip acc.yielded hmem
      rw [Took, hwhole _ (List.of_mem_zip hmem).2] at htook
      generalize Yield.drafts _ = ds at htook ⊢
      cases htook with
      | whole text file drafts read parsed drafted => exact ⟨text, file, read, parsed, drafted⟩
    named := by
      rw [hflatten, ← hdrafts, List.forall₂_map_left_iff, List.forall₂_map_right_iff,
        List.forall₂_same]
      intro entry hentry
      obtain ⟨⟨draft, fate⟩, hmem, heq⟩ := List.mem_filterMap.mp hentry
      cases fate with
      | unreadable cause => cases heq
      | collided cause => cases heq
      | refused name cause => cases heq
      | written name =>
        cases heq
        obtain ⟨before, after, hsplit⟩ := List.append_of_mem hmem
        exact (acc.explained before draft (.written name) after hsplit).1
    filesRead := by rw [hreport, hinputs, acc.yielded.length_eq]
    unitsGenerated := by rw [hreport, hflatten, List.length_map]
    writtenFiles := by rw [hreport]
    latest := by
      rw [hflatten, hzip]
      exact fun before name draft after => acc.latest before (name, draft) after
    overwritten := by rw [hflatten, hzip, acc.overwritten, hhanded]
    kept := fun q hq =>
      acc.kept q fun entry hentry => hq entry.1 (List.mem_map_of_mem hentry) }

/-- A run over one input with one draft that can be written has a report of that draft. -/
theorem Plan.report_of_one {plan : Plan} {layout : Layout} {d made : Disk} {input : String}
    {draft : Draft} {name : Name} (hwet : plan.isDryRun = false)
    (hmade : d.ensureDirectory (.ofString plan.savePath) = (made, .ok ()))
    (hinputs : plan.inputs = [input])
    (hyield : Yield.ofInput layout made input = { drafts := [draft] })
    (hname : draft.Declares name)
    (hwrite : ∃ d', made.writeText (plan.outputPath name) draft.text = .ok d') :
    (plan.run layout d).result =
      .ok { filesRead := 1, unitsGenerated := 1
            writtenFiles := [(plan.outputPath name).text] } := by
  obtain ⟨d', hput⟩ := hwrite
  have hyields : Yield.ofPlan plan layout made = [{ drafts := [draft] }] := by
    simp only [Yield.ofPlan, hinputs, List.map_cons, List.map_nil, hyield]
    rfl
  have hfirst : Source.firstClassName draft.text = .ok name := hname
  have houtlet : ({ disk := made } : Outlet).writeText (plan.outputPath name) draft.text =
      .ok { disk := d' } := by
    simp only [Outlet.writeText, hput]
    rfl
  rw [Plan.run_eq hwet (congrArg Prod.snd hmade), hmade]
  simp [hyields, Outcome.ofProgress, Progress.steps, Progress.step, hfirst, Progress.origin?,
    Progress.put, houtlet, hwet]

/-- A disk with one source file. -/
def sourceDisk : Disk :=
  Disk.empty.put "A.cs" [] (.file "class A{}".toUTF8) (by decide) (by decide)

/-- The disk with the output directory. -/
def Plan.outDisk : Disk := (sourceDisk.ensureDirectory (.ofString "out")).1

/-- A run over the source file has a report of its class wherever the file of the class has a free
    seat in the output directory. -/
theorem Plan.report_of_sourceDisk {plan : Plan} (hwet : plan.isDryRun = false)
    (hinputs : plan.inputs = ["A.cs"]) (hsavePath : plan.savePath.text = "out") {last : String}
    (hpath : plan.outputPath (Naming.testClassName "A") = ⟨.here, ["out", last]⟩)
    (hseat : Plan.outDisk.Seat ⟨.here, ["out", last]⟩ ["out"] last)
    (hfree : Plan.outDisk.isDirectoryAt [last, "out"] = false)
    (hfresh : Plan.outDisk.freshFault? ⟨.here, ["out", last]⟩ = none) :
    (plan.run {} sourceDisk).result = .ok
      { filesRead := 1, unitsGenerated := 1
        writtenFiles := [(plan.outputPath (Naming.testClassName "A")).text] } := by
  have hmade : sourceDisk.ensureDirectory (.ofString plan.savePath) = (Plan.outDisk, .ok ()) := by
    rw [hsavePath]
    exact Prod.ext rfl (by decide)
  have hlegible : Name.Legible ⟨"A", by decide⟩ :=
    ⟨by decide +kernel, by decide +kernel, by decide +kernel⟩
  have hreceiver : (Naming.receiverName "A").Legible :=
    ⟨by decide +kernel, by decide +kernel, by decide +kernel⟩
  obtain ⟨draft, _, hname, hyield⟩ := Draft.exists_of_bare Plan.outDisk "A.cs" "class A{}"
    (by decide +kernel) (by decide +kernel) hlegible hreceiver
  refine Plan.report_of_one hwet hmade hinputs hyield hname ?_
  rw [hpath]
  exact hseat.writeText draft.text hfree hfresh

theorem report_sourceDisk :
    (Plan.run (.sequentially ["A.cs"]) {} sourceDisk).result =
      .ok { filesRead := 1, unitsGenerated := 1, writtenFiles := ["out/ATests.cs"] } := by
  have hpath : (Plan.sequentially ["A.cs"]).outputPath (Naming.testClassName "A") =
      ⟨.here, ["out", "ATests.cs"]⟩ :=
    (by decide : Path.ofString "out" ++ Path.ofString "ATests.cs" = ⟨.here, ["out", "ATests.cs"]⟩)
  have hseat : Plan.outDisk.Seat ⟨.here, ["out", "ATests.cs"]⟩ ["out"] "ATests.cs" :=
    ⟨by decide +kernel, by decide +kernel, by decide +kernel, by decide, by decide, by decide⟩
  have hreport := Plan.report_of_sourceDisk rfl rfl rfl hpath hseat (by decide +kernel)
    (by decide +kernel)
  rw [hpath] at hreport
  exact hreport

theorem delivered_sourceDisk :
    ∃ made drafts names,
      Delivered (.sequentially ["A.cs"]) {} sourceDisk made drafts names
        (Plan.run (.sequentially ["A.cs"]) {} sourceDisk)
        { filesRead := 1, unitsGenerated := 1, writtenFiles := ["out/ATests.cs"] } :=
  (Plan.sequential_sequentially _).delivered report_sourceDisk

/-! ### A run with errors -/

/-- How the errors of a run are told: by the kind of their stage, with the path that they are
    about. A path with the character NUL is the exception. -/
structure Told (plan : Plan) (attempted : List String) (yields : List Yield) (log : Log) :
    Prop where
  unread : ∀ input y cause, (input, y) ∈ attempted.zip yields → y.error? = some (.read cause) →
    (RunError.read cause).detail =
      if (Path.ofString input).hasNul then .plain "ValueError" DiskFault.nulInPath.message
      else .located "FileReadError" cause.message (some (Path.ofString input).text)
  unreadable : ∀ draft cause, (draft, Fate.unreadable cause) ∈ log →
    (RunError.unreadable cause).detail = .located "ParseError" (cause.message none) none
  collided : ∀ draft cause, (draft, Fate.collided cause) ∈ log →
    (RunError.write (.collision cause)).detail =
      .located "WriteError" ("Output collision: " ++ cause.text) (some cause.path.text)
  refused : ∀ draft (name : Name) cause, (draft, Fate.refused name cause) ∈ log →
    (RunError.write cause).detail =
      if (plan.outputPath name).hasNul then .plain "ValueError" DiskFault.nulInPath.message
      else .located "WriteError" cause.message (some (plan.outputPath name).text)

theorem Accounted.told {plan : Plan} {layout : Layout} {made : Disk}
    {attempted skipped : List String} {yields : List Yield} {log : Log} {outcome : Outcome}
    (h : Accounted plan layout made attempted skipped yields log outcome) :
    Told plan attempted yields log := by
  have hexplained : ∀ draft fate, (draft, fate) ∈ log →
      ∃ before, Fate.Explained plan made before draft fate := by
    intro draft fate hmem
    obtain ⟨before, after, hsplit⟩ := List.append_of_mem hmem
    exact ⟨before, h.explained before draft fate after hsplit⟩
  refine ⟨?_, ?_, fun draft cause _ => rfl, ?_⟩
  · intro input y cause hmem herror
    have htook := List.forall₂_zip h.yielded hmem
    rw [Took, herror] at htook
    generalize y.drafts = drafts at htook
    cases htook with
    | unread cause unreadable => exact ReadError.detail_eq unreadable
  · intro draft cause hmem
    obtain ⟨before, hcause⟩ := hexplained draft _ hmem
    exact SourceError.detail_eq hcause
  · intro draft name cause hmem
    obtain ⟨before, _, d, _, hcause⟩ := hexplained draft _ hmem
    exact WriteError.detail_eq hcause

end TestScaffold
