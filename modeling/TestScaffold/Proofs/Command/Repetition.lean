/-
  TestScaffold/Proofs/Command/Repetition.lean
  ===========================================
  **A call that generates tests can be repeated.**

  A call ends well where each of its stages does: the settings load, files are
  found, a plan can be made of them, the run has a report, and the report can be
  shown (`Stages`).  After it the same words are accepted again, for the output
  directory is there and every file still is one.  Where the settings and the
  files that are read have not changed (`Unchanged`), the plan is the same, and
  its run is the repetition of a run (`call_again`).

  What a call writes may change what the next one reads.  A directory that is
  made, or a file that is written, below a directory that is searched may be found
  by the next search; a file may be written over an input or over the settings.
-/
import TestScaffold.Proofs.Command.Acceptance

namespace TestScaffold

/-! ### Searches on another disk -/

namespace Disk

variable {d d' : Disk} {settings : DiscoverySettings} {paths : List Path}

/-- A search finds the same where each path stands for the same files. -/
theorem discover_congr (h : ∀ p ∈ paths, d'.expand settings p = d.expand settings p) :
    d'.discover settings paths = d.discover settings paths := by
  have hfrom : ∀ seen, d'.discoverFrom settings seen paths =
      d.discoverFrom settings seen paths := by
    induction paths with
    | nil => exact fun _ => rfl
    | cons p rest ih =>
      intro seen
      obtain ⟨hp, hrest⟩ := List.forall_mem_cons.mp h
      simp only [discoverFrom, hp, ih hrest]
  exact hfrom []

/-- A path that leads to no directory is among the files that are found. -/
theorem text_mem_of_discover {texts : List String} (hfound : d.discover settings paths = .ok texts)
    {p : Path} (hp : p ∈ paths) (hplain : d.hasDirectory p = .ok false) : p.text ∈ texts := by
  obtain ⟨files, hexpand, htexts⟩ := exists_files_of_discover hfound hp
  cases (expand_of_noDirectory hplain settings).symm.trans hexpand
  exact htexts p (List.mem_singleton_self p)

end Disk

namespace Command

open TestScaffold.Command.Markup (MarkupError)

variable {env : Environment} {d d' : Disk} {words : List String} {g : Globals}
  {r : GenerateRequest}

/-! ### Sessions -/

theorem showing_withDisk (session : Session) (d : Disk) (more : Except MarkupError (List String)) :
    ({ session with disk := d } : Session).showing more =
      { session.showing more with disk := d } := by
  obtain ⟨_, lines, ending⟩ := session
  cases ending <;> cases more <;> rfl

/-- What a session after a run tells depends on the result of the run only. -/
theorem afterRun_congr {o o' : Outcome} (h : o'.result = o.result) :
    afterRun o' = { afterRun o with disk := o'.disk } := by
  have hsilent : ∀ ending, Session.silent o'.disk ending =
      { Session.silent o.disk ending with disk := o'.disk } := fun _ => rfl
  unfold afterRun
  rw [h]
  cases o.result with
  | ok report => simp only [hsilent, showing_withDisk]
  | error failure =>
    cases failure with
    | errors causes => simp only [hsilent, showing_withDisk]
    | impossibleDirectory fault => rfl

theorem disk_afterRun (o : Outcome) : (afterRun o).disk = o.disk :=
  congrArg Session.disk (afterRun_congr (rfl : o.result = o.result))

/-- A session after a run ends well only if the run has a report that can be shown. -/
theorem report_of_done {o : Outcome} (h : (afterRun o).ending = .done) :
    ∃ report, o.result = .ok report ∧ ∃ lines, fileTable report.writtenFiles = .ok lines := by
  rcases ending_afterRun o with
    ⟨report, hresult, hending⟩ | ⟨_, _, hending⟩ | ⟨_, _, hending⟩
  · refine ⟨report, hresult, ?_⟩
    cases htable : fileTable report.writtenFiles with
    | ok lines => exact ⟨lines, rfl⟩
    | error e =>
      rw [htable] at hending
      cases hending.symm.trans h
  · cases hending.symm.trans h
  · cases hending.symm.trans h

/-- What is told in front of a run. -/
def notice (d : Disk) (isDryRun : Bool) : Session :=
  if isDryRun then (Session.silent d .done).showing
    (noticePanel "Dry Run Mode" "DRY RUN: no files will be written")
  else .silent d .done

theorem ending_notice (d : Disk) (isDryRun : Bool) : (notice d isDryRun).ending = .done := by
  unfold notice
  split
  · exact showing_of_isOk (noticePanel_isOk ..)
  · rfl

theorem notice_after (d : Disk) (isDryRun : Bool) (session : Session) :
    (notice d isDryRun).after session =
      { session with lines := (notice Disk.empty isDryRun).lines ++ session.lines } := by
  have hlines : (notice d isDryRun).lines = (notice Disk.empty isDryRun).lines := by
    have hsilent : Session.silent d .done =
        { Session.silent Disk.empty .done with disk := d } := rfl
    unfold notice
    rw [hsilent, showing_withDisk]
    split <;> rfl
  simp only [Session.after, ending_notice, hlines]

/-! ### Stages -/

/-- The stages of a call that ends well, and what each of them has come to. -/
structure Stages (env : Environment) (d : Disk) (g : Globals) (r : GenerateRequest)
    (s : Settings) (plan : Plan) (report : Report) : Prop where
  loaded : Settings.load d env (g.config?.map (·.text)) r.overrides = .ok s
  found : d.discover s.discovery r.paths = .ok plan.inputs
  some : plan.inputs ≠ []
  planned : s.plan? (Schema.describeTexts plan.inputs) none g.isDryRun = .ok plan
  done : (plan.run { newline := s.output.newline } d).result = .ok report
  shown : ∃ lines, fileTable report.writtenFiles = .ok lines

/-- A request is carried out by running the plan. -/
theorem generate_of_plan {s : Settings} {plan : Plan}
    (loaded : Settings.load d env (g.config?.map (·.text)) r.overrides = .ok s)
    {files : List String} (found : d.discover s.discovery r.paths = .ok files) (some : files ≠ [])
    (planned : s.plan? (Schema.describeTexts files) none g.isDryRun = .ok plan) :
    generate env d g r =
      (notice d g.isDryRun).after (afterRun (plan.run { newline := s.output.newline } d)) := by
  obtain ⟨file, more, rfl⟩ := List.exists_cons_of_ne_nil some
  unfold generate
  simp only [loaded, found, planned]
  rfl

/-- A call ends well only if all of its stages do. -/
theorem exists_stages_of_done (h : (generate env d g r).ending = .done) :
    ∃ s plan report, Stages env d g r s plan report := by
  have hfailing : ∀ title message,
      ((Session.silent d .failed).showing (failurePanel title message)).ending ≠ .done := by
    intro title message hdone
    cases (ending_failing d title message).symm.trans hdone
  cases hload : Settings.load d env (g.config?.map (·.text)) r.overrides with
  | error e =>
    unfold generate at h
    rw [hload] at h
    cases e with
    | fault fault => cases h
    | settings cause => exact (hfailing _ _ h).elim
  | ok s =>
    cases hdiscover : d.discover s.discovery r.paths with
    | error cause =>
      unfold generate at h
      simp only [hload, hdiscover] at h
      cases cause with
      | unscannable p fault => exact (hfailing _ _ h).elim
      | _ => cases h
    | ok files =>
      by_cases hnone : files = []
      · unfold generate at h
        simp only [hload, hdiscover, hnone] at h
        exact (hfailing _ _ h).elim
      · have hbounds := Settings.inBounds_of_load hload
        by_cases hpath : s.output.savePath = ""
        · obtain ⟨file, more, rfl⟩ := List.exists_cons_of_ne_nil hnone
          unfold generate at h
          simp only [hload, hdiscover, Settings.plan?_eq_error hbounds hpath] at h
          exact (hfailing _ _ h).elim
        · obtain ⟨plan, rfl, hplan⟩ : ∃ plan : Plan, plan.inputs = files ∧
              s.plan? (Schema.describeTexts files) none g.isDryRun = .ok plan :=
            ⟨_, rfl, Settings.plan?_eq_ok hbounds hpath files g.isDryRun⟩
          rw [generate_of_plan hload hdiscover hnone hplan, ending_after (ending_notice ..)] at h
          obtain ⟨report, hresult, hlines⟩ := report_of_done h
          exact ⟨s, plan, report, hload, hdiscover, hnone, hplan, hresult, hlines⟩

namespace Stages

variable {s : Settings} {plan : Plan} {report : Report}

theorem generate_eq (h : Stages env d g r s plan report) : generate env d g r =
    (notice d g.isDryRun).after (afterRun (plan.run { newline := s.output.newline } d)) :=
  generate_of_plan h.loaded h.found h.some h.planned

/-- A call ends well if all of its stages do. -/
theorem done_generate (h : Stages env d g r s plan report) :
    (generate env d g r).ending = .done := by
  obtain ⟨lines, hlines⟩ := h.shown
  rw [h.generate_eq, ending_after (ending_notice ..)]
  rcases ending_afterRun (plan.run { newline := s.output.newline } d) with
    ⟨report', hresult, hending⟩ | ⟨_, hresult, _⟩ | ⟨_, hresult, _⟩
  · cases Except.ok.inj (h.done.symm.trans hresult)
    rw [hending, hlines]
  · cases h.done.symm.trans hresult
  · cases h.done.symm.trans hresult

theorem disk_generate (h : Stages env d g r s plan report) :
    (generate env d g r).disk = (plan.run { newline := s.output.newline } d).disk := by
  rw [h.generate_eq, notice_after]
  exact disk_afterRun _

/-- With the same stages a call tells the same, whatever disk it leaves behind. -/
theorem generate_congr (h : Stages env d g r s plan report)
    (h' : Stages env d' g r s plan report) : generate env d' g r =
      { generate env d g r with disk := (plan.run { newline := s.output.newline } d').disk } := by
  rw [h.generate_eq, h'.generate_eq, notice_after, notice_after,
    afterRun_congr (h'.done.trans h.done.symm)]

/-- The plan is for what was found, and else it is what the settings say. -/
theorem exists_plan_eq (h : Stages env d g r s plan report) :
    ∃ hpath : s.output.savePath ≠ "", plan =
      { limits := s.limits, inputs := plan.inputs, savePath := ⟨s.output.savePath, hpath⟩,
        extension := s.output.extension, onCollision := s.output.onCollision,
        isDryRun := g.isDryRun } := by
  have hbounds := Settings.inBounds_of_load h.loaded
  by_cases hpath : s.output.savePath = ""
  · cases (Settings.plan?_eq_error hbounds hpath plan.inputs g.isDryRun).symm.trans h.planned
  · have hplan := Settings.plan?_eq_ok hbounds hpath plan.inputs g.isDryRun
    exact ⟨hpath, (Except.ok.inj (hplan.symm.trans h.planned)).symm⟩

theorem plan_eq (h : Stages env d g r s plan report) :
    plan.savePath.text = s.output.savePath ∧ plan.isDryRun = g.isDryRun := by
  obtain ⟨hpath, heq⟩ := h.exists_plan_eq
  rw [heq]
  exact ⟨rfl, rfl⟩

/-- The settings that load have an extension that is one, and so has the plan. -/
theorem extensionRule_plan (h : Stages env d g r s plan report) :
    Schema.extensionRule plan.extension = none := by
  obtain ⟨hpath, heq⟩ := h.exists_plan_eq
  rw [heq]
  exact (Settings.inBounds_of_load h.loaded).extension

/-- The stages of a call come to one thing each. -/
theorem unique {s' : Settings} {plan' : Plan} {report' : Report}
    (h : Stages env d g r s plan report) (h' : Stages env d g r s' plan' report') :
    s' = s ∧ plan' = plan ∧ report' = report := by
  cases Except.ok.inj (h.loaded.symm.trans h'.loaded)
  have hinputs := Except.ok.inj (h.found.symm.trans h'.found)
  have hplanned := h'.planned
  rw [← hinputs] at hplanned
  cases Except.ok.inj (h.planned.symm.trans hplanned)
  exact ⟨rfl, rfl, Except.ok.inj (h'.done.symm.trans h.done)⟩

/-- After a call that ended well its words are accepted again. -/
theorem asks_again (h : Stages env d g r s plan report) (asked : Asks d words g r) :
    Asks (plan.run { newline := s.output.newline } d).disk words g r := by
  obtain ⟨hsavePath, hdryRun⟩ := h.plan_eq
  by_cases hdry : plan.isDryRun = true
  · rw [Plan.disk_run_dry hdry]
    exact asked
  · refine asked.again (Plan.keeps_run h.done) fun typed htyped => ?_
    have hpath : Path.ofString plan.savePath = .ofString typed := by
      rw [hsavePath, savePath_of_load h.loaded htyped, Path.ofString_text_ofString]
    rw [← hpath]
    exact (Plan.keeps_inputDisk h.done).2 (Bool.not_eq_true _ ▸ hdry)

end Stages

/-! ### What a call leaves alone -/

/-- What a call that generates tests reads is on the second disk as the call found it on the first:
the settings, the files that are found, and their texts. -/
structure Unchanged (env : Environment) (d d' : Disk) (g : Globals) (r : GenerateRequest) :
    Prop where
  settings : Settings.load d' env (g.config?.map (·.text)) r.overrides =
    Settings.load d env (g.config?.map (·.text)) r.overrides
  files : ∀ s, Settings.load d env (g.config?.map (·.text)) r.overrides = .ok s →
    d'.discover s.discovery r.paths = d.discover s.discovery r.paths
  texts : ∀ s plan, Settings.load d env (g.config?.map (·.text)) r.overrides = .ok s →
    d.discover s.discovery r.paths = .ok plan.inputs →
    s.plan? (Schema.describeTexts plan.inputs) none g.isDryRun = .ok plan →
    ∀ input ∈ plan.inputs,
      d'.readText (.ofString input) = (plan.inputDisk d).readText (.ofString input)

namespace Stages

variable {s : Settings} {plan : Plan} {report : Report}

/-- A path that leads to no directory still leads to none after a call that has read it. -/
theorem hasDirectory_again (h : Stages env d g r s plan report) (asked : Asks d words g r)
    {p : Path} (hp : p ∈ r.paths) (hplain : d.hasDirectory p = .ok false) :
    (plan.run { newline := s.output.newline } d).disk.hasDirectory p = .ok false := by
  obtain ⟨_, hwhole, _⟩ := Plan.whole_of_run_ok h.done
  obtain ⟨text, htext⟩ := Yield.readText_of_ofPlan hwhole
    (Disk.text_mem_of_discover h.found hp hplain)
  rw [asked.ofString_text hp] at htext
  obtain ⟨q, bytes, hlocate, hfile⟩ := Disk.exists_file_of_readText htext
  obtain ⟨hkeeps, _⟩ := Plan.keeps_inputDisk h.done
  obtain ⟨bytes', hfile'⟩ := hkeeps.files hfile
  simp only [Disk.hasDirectory, Disk.entryAt?, hkeeps.grows.locate hlocate, hfile']
  rfl

/-- **Nothing that a call reads has changed after it** where no directory is searched, no input is
written over, and the settings file is where it was. -/
theorem unchanged (h : Stages env d g r s plan report) (asked : Asks d words g r)
    (hplain : ∀ p ∈ r.paths, d.hasDirectory p = .ok false)
    (hspares : plan.SparesInputs { newline := s.output.newline } d)
    (hentry : ∀ text ∈ Settings.lookedAt (g.config?.map (·.text)),
      (generate env d g r).disk.hasEntry (.ofString text) = d.hasEntry (.ofString text))
    (hread : ∀ text ∈ Settings.lookedAt (g.config?.map (·.text)),
      (generate env d g r).disk.read (.ofString text) = d.read (.ofString text)) :
    Unchanged env d (generate env d g r).disk g r := by
  refine ⟨Settings.load_congr hentry hread, fun s' _ => ?_, fun s' plan' hload hfound hplan => ?_⟩
  · refine Disk.discover_congr fun p hp => ?_
    rw [h.disk_generate]
    simp only [Disk.expand, hplain p hp, h.hasDirectory_again asked hp (hplain p hp)]
  · cases Except.ok.inj (h.loaded.symm.trans hload)
    have hinputs := Except.ok.inj (h.found.symm.trans hfound)
    rw [← hinputs] at hplan
    cases Except.ok.inj (h.planned.symm.trans hplan)
    intro input hinput
    rw [h.disk_generate]
    exact Plan.readText_of_sparesInputs h.done hspares hinput

end Stages

/-! ### A source and its test class -/

/-- A call for one source, with one worker for each stage. -/
def sourceWords : List String :=
  ["generate", "A.cs", "-o", "out", "--read-workers", "1", "--generate-workers", "1",
    "--write-workers", "1"]

def sourceRequest : GenerateRequest where
  paths := [{ names := ["A.cs"] }]
  output? := some { names := ["out"] }
  reading? := some 1
  generating? := some 1
  writing? := some 1

theorem asks_sourceDisk : Asks sourceDisk sourceWords {} sourceRequest := by
  refine ⟨{ plain := sourceWords }, { given := [("--output", "out"), ("--read-workers", "1"),
    ("--generate-workers", "1"), ("--write-workers", "1")], plain := ["A.cs"] },
    sourceWords.tail, ?_⟩
  decide +kernel

theorem stages_sourceDisk : Stages [] sourceDisk {} sourceRequest
    { limits := { reading := 1, generating := 1, writing := 1 }, output := { savePath := "out" } }
    (.sequentially ["A.cs"])
    { filesRead := 1, unitsGenerated := 1, writtenFiles := ["out/ATests.cs"] } where
  loaded := by decide +kernel
  found := by decide +kernel
  some := by decide
  planned := by decide +kernel
  done := report_sourceDisk
  shown := ⟨_, rfl⟩

/-- At the root a run below `out` changes nothing but the directory of this name. -/
theorem find?_root {inputs : List String} {read : List (String × String)} {after : Disk}
    (h : Confined (.sequentially inputs) {} read sourceDisk after) {name : String}
    (hname : name ≠ "out") : after.find? [name] = sourceDisk.find? [name] := by
  have hpath : Path.ofString (Plan.sequentially inputs).savePath = ⟨.here, ["out"]⟩ :=
    (by decide : Path.ofString "out" = ⟨.here, ["out"]⟩)
  have hstart : after.start ⟨.here, ["out"]⟩ = [] := h.grows.start _
  have hout : ∀ q, after.walk [] ["out"] = .ok q → q = ["out"] := by
    intro q hwalk
    obtain ⟨_, ⟨hup, _⟩ | ⟨_, _, _, hq⟩⟩ := Disk.step_eq_ok_iff.mp (Disk.step_of_walk hwalk)
    · exact absurd hup (by decide)
    · exact hq
  by_contra hne
  have hchanged := h.changed _ hne
  rw [hpath, hstart] at hchanged
  rcases hchanged with ⟨_, _, k, hwalk⟩ | ⟨place, _, _, hlocate, hplace, _⟩
  · cases k with
    | zero => cases hwalk
    | succ k =>
      simp only [List.take_succ_cons, List.take_nil] at hwalk
      exact hname (List.cons.inj (hout _ hwalk)).1
  · have hwalk := Disk.walk_of_locate hlocate
    rw [hstart] at hwalk
    rw [hout _ hwalk] at hplace
    cases hplace

/-- There is no settings file at the root, and none comes of the run. -/
theorem searchPaths_absent {inputs : List String} {read : List (String × String)} {after : Disk}
    (h : Confined (.sequentially inputs) {} read sourceDisk after) :
    ∀ text ∈ Settings.searchPaths, after.locate (.ofString text) = .error .notFound := by
  intro text htext
  have hroot : ∀ text ∈ Settings.searchPaths, Path.ofString text = ⟨.here, [text]⟩ ∧
      Disk.unfit? ⟨.here, [text]⟩ = none ∧ text ≠ ".." ∧ text ≠ "out" ∧
        text.utf8ByteSize ≤ Disk.maxName ∧ (sourceDisk.find? [text]).isSome = false := by
    decide +kernel
  obtain ⟨hpath, hfit, hup, hout, hshort, habsent⟩ := hroot text htext
  have hstart : after.start ⟨.here, [text]⟩ = [] := h.grows.start _
  have hdirectory : after.isDirectoryAt [] = true := rfl
  rw [← find?_root h hout] at habsent
  simp [hpath, Disk.locate, hfit, hstart, Disk.walk, Disk.step, hdirectory, hup,
    Nat.not_lt.mpr hshort, habsent]

/-! ### The second call -/

/-- **A call that ended well can be repeated where what it reads has not changed**: it is accepted
again, ends as well and tells the same, and every place holds what it held. -/
theorem call_again (asked : Asks d words g r) (done : (call env d words).ending = .done)
    (unchanged : Unchanged env d (call env d words).disk g r) :
    (call env (call env d words).disk words).ending = .done ∧
      (call env (call env d words).disk words).lines = (call env d words).lines ∧
      (call env (call env d words).disk words).disk.here = (call env d words).disk.here ∧
      ∀ q, (call env (call env d words).disk words).disk.find? q =
        (call env d words).disk.find? q := by
  rw [asked.call_eq] at done unchanged ⊢
  obtain ⟨s, plan, report, hstages⟩ := exists_stages_of_done done
  rw [hstages.disk_generate] at unchanged ⊢
  obtain ⟨hresult, _, hhere, hfound⟩ := Plan.run_again_of_readText hstages.done
    (unchanged.texts s plan hstages.loaded hstages.found hstages.planned)
  have hstages' : Stages env (plan.run { newline := s.output.newline } d).disk g r s plan report :=
    { loaded := unchanged.settings.trans hstages.loaded
      found := (unchanged.files s hstages.loaded).trans hstages.found
      some := hstages.some
      planned := hstages.planned
      done := hresult
      shown := hstages.shown }
  rw [(hstages.asks_again asked).call_eq, hstages.generate_congr hstages']
  exact ⟨done, rfl, hhere, hfound⟩

/-- The call makes a file of its own, and so it can be repeated. -/
theorem call_again_sourceDisk :
    Asks sourceDisk sourceWords {} sourceRequest ∧
      (call [] sourceDisk sourceWords).ending = .done ∧
      Unchanged [] sourceDisk (call [] sourceDisk sourceWords).disk {} sourceRequest ∧
      (call [] (call [] sourceDisk sourceWords).disk sourceWords).ending = .done := by
  have hcall := asks_sourceDisk.call_eq []
  have hdone := stages_sourceDisk.done_generate
  have hunchanged : Unchanged [] sourceDisk (generate [] sourceDisk {} sourceRequest).disk {}
      sourceRequest := by
    obtain ⟨hensured, _⟩ := Plan.whole_of_run_ok report_sourceDisk
    obtain ⟨u, hmoves, hprogress, _⟩ :=
      Plan.exists_moves_progress (.sequentially ["A.cs"]) {} sourceDisk
    have hconfined := Plan.confined_of_moves (Plan.sequential_sequentially _).extension hensured
      hmoves
    have habsent : ∀ text ∈ Settings.searchPaths,
        sourceDisk.locate (.ofString text) = .error .notFound := by decide +kernel
    have habsent' : ∀ text ∈ Settings.searchPaths,
        (generate [] sourceDisk {} sourceRequest).disk.locate (.ofString text) =
          .error .notFound := by
      rw [stages_sourceDisk.disk_generate, Plan.run_eq_ofProgress _ hensured,
        Outcome.ofProgress_disk, ← hprogress]
      exact searchPaths_absent hconfined
    refine stages_sourceDisk.unchanged asks_sourceDisk (by decide +kernel)
      sparesInputs_sourceDisk (fun text htext => ?_) (fun text htext => ?_)
    · simp only [Disk.hasEntry, Disk.entryAt?, habsent text htext, habsent' text htext]
    · simp only [Disk.read, habsent text htext, habsent' text htext]
  rw [← hcall] at hdone hunchanged
  exact ⟨asks_sourceDisk, hdone, hunchanged, (call_again asks_sourceDisk hdone hunchanged).1⟩

/-- Patterns for a source in a directory and for one beside it. -/
def besideVariables : Environment := [("SHARPSCAFFOLD_DISCOVERY__PATTERNS", "*/B.cs,*/../B.cs")]

/-- An empty source, and beside it a text that is none. -/
def brokenDisk : Disk :=
  (Disk.empty.put "E.cs" [] (.file "".toUTF8) Disk.empty.here_isDirectory (by decide)).put "B.cs" []
    (.file "\x7b".toUTF8) (by decide) (by decide)

/-- The output directory that the first call makes leads the second one to a text that it fails
for. -/
theorem call_brokenDisk :
    (call besideVariables brokenDisk ["generate", "E.cs", ".", "-o", "out"]).ending = .done ∧
      (call besideVariables
        (call besideVariables brokenDisk ["generate", "E.cs", ".", "-o", "out"]).disk
        ["generate", "E.cs", ".", "-o", "out"]).ending = .failed := by
  decide +kernel

end Command

end TestScaffold
