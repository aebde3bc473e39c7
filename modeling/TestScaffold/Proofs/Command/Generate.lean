/-
  TestScaffold/Proofs/Command/Generate.lean
  =========================================
  **How a call that generates tests ends.**

  A call whose words are accepted and whose settings load ends well or with a
  failure that is told, with four exceptions (`Crash`): the search for files
  comes to a path that is too long or to a text that is no pattern, the output
  directory has a path with the character NUL, or the run is done and the path of
  a written file cannot be shown.  Everything else that can go wrong is told
  (`call_ending_iff`).
-/
import TestScaffold.Proofs.Command.Screens
import TestScaffold.Proofs.Run.Steps
import TestScaffold.Proofs.Settings.Plans

namespace TestScaffold

/-! ### Output directories that no disk can make -/

theorem Outcome.withoutDirectory_eq_impossible_iff {d : Disk} {e : WriteError} {fault : DiskFault} :
    (withoutDirectory d e).result = .error (.impossibleDirectory fault) ↔
      (∃ p, e = .noDirectory p .nulInPath) ∧ fault = .nulInPath := by
  unfold withoutDirectory
  split
  · simp [eq_comm]
  · rename_i hother
    refine iff_of_false (by simp) ?_
    rintro ⟨⟨p, rfl⟩, _⟩
    exact hother p rfl

/-- A run has no output directory to speak of where the path of it holds the character NUL, and
something is to be written. -/
theorem Plan.run_eq_impossible_iff {plan : Plan} {layout : Layout} {d : Disk} {fault : DiskFault} :
    (plan.run layout d).result = .error (.impossibleDirectory fault) ↔
      (plan.isDryRun = false ∧ (Path.ofString plan.savePath).hasNul = true) ∧
        fault = .nulInPath := by
  have hprogress : ∀ yields p, (Outcome.ofProgress plan yields p).result ≠
      .error (.impossibleDirectory fault) := by
    intro yields p h
    unfold Outcome.ofProgress at h
    dsimp only at h
    split at h <;> cases h
  unfold run
  dsimp only
  by_cases hdry : plan.isDryRun = true
  · rw [Outlet.ensureDirectory_dry (o := ⟨d, plan.isDryRun⟩) hdry]
    exact iff_of_false (hprogress _ _) (by simp [hdry])
  · have hwet : plan.isDryRun = false := by simpa using hdry
    have hnul := fun q => @Disk.ensureDirectory_eq_nulInPath_iff d (.ofString plan.savePath) q
    rw [Outlet.ensureDirectory_wet (o := ⟨d, plan.isDryRun⟩) hwet]
    cases hmade : (d.ensureDirectory (.ofString plan.savePath)).2 with
    | ok u =>
      simp only [hmade, reduceCtorEq, false_iff, not_and] at hnul ⊢
      exact iff_of_false (hprogress _ _) fun h => hnul _ h.1.2 rfl
    | error e =>
      simp only [hmade, Except.error.injEq] at hnul ⊢
      rw [Outcome.withoutDirectory_eq_impossible_iff]
      simp [hnul, hwet]

namespace Command

open TestScaffold.Command.Markup (MarkupError)

/-! ### Calls that are accepted -/

/-- The words of a call are accepted as a request to generate tests. -/
def Asks (d : Disk) (words : List String) (g : Globals) (r : GenerateRequest) : Prop :=
  ∃ outer inner rest, readWords globalForms false words = .ok outer ∧ immediate? outer = none ∧
    Globals.ofWords d outer = .ok g ∧ outer.plain = "generate" :: rest ∧
    readWords generateForms true rest = .ok inner ∧ immediate? inner = none ∧
    GenerateRequest.ofWords d inner = .ok r

variable {env : Environment} {d : Disk} {words : List String} {g : Globals} {r : GenerateRequest}
  {s : Settings}

/-- A call that is accepted generates tests as it is asked to. -/
theorem Asks.call_eq (h : Asks d words g r) (env : Environment) :
    call env d words = generate env d g r := by
  obtain ⟨outer, inner, rest, houter, hnow, hglobals, hplain, hinner, hnow', hrequest⟩ := h
  have hwords : words ≠ [] := by
    rintro rfl
    cases houter
    cases hplain
  unfold call
  rw [if_neg (by simpa using hwords)]
  simp only [houter, answering, hnow, hglobals, Except.map, hplain, command, hinner, hnow',
    hrequest]

/-! ### Sessions -/

theorem showing_of_isOk {session : Session} {more : Except MarkupError (List String)}
    (h : ∃ lines, more = .ok lines) : (session.showing more).ending = session.ending := by
  obtain ⟨lines, rfl⟩ := h
  unfold Session.showing
  split <;> simp_all

theorem showing_error {session : Session} (h : session.ending = .done) (e : MarkupError) :
    (session.showing (.error e)).ending = .broken (.markup e) := by
  simp only [Session.showing, h]

/-- A failure is always told. -/
theorem ending_failing (d : Disk) (title message : String) :
    ((Session.silent d .failed).showing (failurePanel title message)).ending = .failed :=
  showing_of_isOk (failurePanel_isOk title message)

/-- How the session after a run ends. -/
theorem ending_afterRun (o : Outcome) :
    (∃ report, o.result = .ok report ∧ (afterRun o).ending =
      match fileTable report.writtenFiles with
      | .ok _ => .done
      | .error e => .broken (.markup e)) ∨
    (∃ causes, o.result = .error (.errors causes) ∧ (afterRun o).ending = .failed) ∨
    ∃ fault, o.result = .error (.impossibleDirectory fault) ∧
      (afterRun o).ending = .broken (.disk fault) := by
  unfold afterRun
  cases hresult : o.result with
  | ok report =>
    refine Or.inl ⟨report, rfl, ?_⟩
    have hsummary : ((Session.silent o.disk .done).showing
        (successPanel "Generation complete" (summary report))).ending = .done :=
      showing_of_isOk (summaryPanel_isOk "Generation complete" report)
    dsimp only
    cases hfiles : fileTable report.writtenFiles with
    | ok lines => exact (showing_of_isOk ⟨lines, rfl⟩).trans hsummary
    | error e => exact showing_error hsummary e
  | error failure =>
    cases failure with
    | errors causes => exact Or.inr (Or.inl ⟨causes, rfl, showing_of_isOk (errorTable_isOk causes)⟩)
    | impossibleDirectory fault => exact Or.inr (Or.inr ⟨fault, rfl, rfl⟩)

/-- A notice in front changes nothing about how a session ends. -/
theorem ending_after {notice : Session} (h : notice.ending = .done) (session : Session) :
    (notice.after session).ending = session.ending := by
  simp only [Session.after, h]

/-! ### Breakdowns -/

/-- What a call breaks off for, once its words are accepted and its settings are loaded. -/
inductive Crash (d : Disk) (s : Settings) (isDryRun : Bool) (paths : List Path) :
    Breakdown → Prop where
  /-- The search comes to a path that is too long. -/
  | longPath {p : Path} (reached : Reached (d.expand s.discovery) paths p)
      (tooLong : d.locate p = .error .nameTooLong) :
      Crash d s isDryRun paths (.discovery (.disk .nameTooLong))
  /-- The search comes, in a directory, to a text that is no pattern. -/
  | pattern {p : Path} {text : String} {cause : PatternError}
      (reached : Reached (d.expand s.discovery) paths p) (directory : d.hasDirectory p = .ok true)
      (tried : Reached (fun text => d.filesMatching s.discovery.excluded p [text])
        s.discovery.patterns text)
      (unacceptable : Pattern.ofString text = .error cause) :
      Crash d s isDryRun paths (.discovery (.pattern cause))
  /-- Files are found, and the path of the output directory holds the character NUL. -/
  | nulInPath {files : List String} (found : d.discover s.discovery paths = .ok files)
      (some : files ≠ []) (wet : isDryRun = false)
      (nul : (Path.ofString s.output.savePath).hasNul = true) :
      Crash d s isDryRun paths (.disk .nulInPath)
  /-- The run is done, and a written file cannot be shown. -/
  | markup {files : List String} {plan : Plan} {report : Report} {written : String}
      {e : MarkupError} (found : d.discover s.discovery paths = .ok files) (some : files ≠ [])
      (planned : s.plan? (Schema.describeTexts files) none isDryRun = .ok plan)
      (done : (plan.run { newline := s.output.newline } d).result = .ok report)
      (reached : Reached fileRow report.writtenFiles written)
      (unshown : fileRow written = .error e) : Crash d s isDryRun paths (.markup e)

/-- A search that fails breaks the call off, unless it fails for a directory that cannot be
scanned. -/
theorem crash_iff_of_discover_error {cause : DiscoveryError} {paths : List Path}
    (hdiscover : d.discover s.discovery paths = .error cause) (isDryRun : Bool) (b : Breakdown) :
    Crash d s isDryRun paths b ↔
      (∀ p fault, cause ≠ .unscannable p fault) ∧ b = .discovery cause := by
  have hcause : ∀ {p cause'}, Reached (d.expand s.discovery) paths p →
      d.expand s.discovery p = .error cause' → cause' = cause := fun hreached hexpand =>
    Except.error.inj ((Disk.discoverFrom_eq_error_iff.mpr ⟨_, hreached, hexpand⟩).symm.trans
      hdiscover)
  constructor
  · intro h
    cases h with
    | longPath reached tooLong =>
      cases hcause reached (Disk.expand_eq_disk_iff.mpr ⟨tooLong, rfl⟩)
      exact ⟨by simp, rfl⟩
    | pattern reached directory tried unacceptable =>
      cases hcause reached (Disk.expand_eq_pattern_iff.mpr ⟨directory, _, tried, unacceptable⟩)
      exact ⟨by simp, rfl⟩
    | nulInPath found => cases found.symm.trans hdiscover
    | markup found => cases found.symm.trans hdiscover
  · rintro ⟨hscannable, rfl⟩
    obtain ⟨p, hreached, hexpand⟩ := Disk.discoverFrom_eq_error_iff.mp hdiscover
    cases cause with
    | unscannable q fault => exact absurd rfl (hscannable q fault)
    | pattern cause =>
      obtain ⟨hdirectory, text, htried, htext⟩ := Disk.expand_eq_pattern_iff.mp hexpand
      exact .pattern hreached hdirectory htried htext
    | disk fault =>
      obtain ⟨htooLong, rfl⟩ := Disk.expand_eq_disk_iff.mp hexpand
      exact .longPath hreached htooLong

/-- Once files are found, a call breaks off for the output directory or for a written file. -/
theorem crash_iff_of_discover_ok {paths : List Path} {files : List String}
    (hdiscover : d.discover s.discovery paths = .ok files) (isDryRun : Bool) (b : Breakdown) :
    Crash d s isDryRun paths b ↔ files ≠ [] ∧
      ((isDryRun = false ∧ (Path.ofString s.output.savePath).hasNul = true ∧
          b = .disk .nulInPath) ∨
        ∃ plan report e, s.plan? (Schema.describeTexts files) none isDryRun = .ok plan ∧
          (plan.run { newline := s.output.newline } d).result = .ok report ∧
          fileTable report.writtenFiles = .error e ∧ b = .markup e) := by
  have hsearch : ∀ {p cause}, Reached (d.expand s.discovery) paths p →
      d.expand s.discovery p ≠ .error cause := by
    intro p cause hreached hexpand
    have herror : d.discover s.discovery paths = .error cause :=
      Disk.discoverFrom_eq_error_iff.mpr ⟨p, hreached, hexpand⟩
    cases herror.symm.trans hdiscover
  constructor
  · intro h
    cases h with
    | longPath reached tooLong =>
      exact absurd (Disk.expand_eq_disk_iff.mpr ⟨tooLong, rfl⟩) (hsearch reached)
    | pattern reached directory tried unacceptable =>
      exact absurd (Disk.expand_eq_pattern_iff.mpr ⟨directory, _, tried, unacceptable⟩)
        (hsearch reached)
    | nulInPath found some wet nul =>
      cases found.symm.trans hdiscover
      exact ⟨some, Or.inl ⟨wet, nul, rfl⟩⟩
    | markup found some planned done reached unshown =>
      cases found.symm.trans hdiscover
      have htable := fileTable_eq_error_iff.mpr ⟨_, reached, unshown⟩
      exact ⟨some, Or.inr ⟨_, _, _, planned, done, htable, rfl⟩⟩
  · rintro ⟨some, ⟨wet, nul, rfl⟩ | ⟨plan, report, e, planned, done, htable, rfl⟩⟩
    · exact .nulInPath hdiscover some wet nul
    · obtain ⟨written, reached, unshown⟩ := fileTable_eq_error_iff.mp htable
      exact .markup hdiscover some planned done reached unshown

/-- A session breaks off for a reason if and only if there is one, and otherwise it is done or it
has failed. -/
structure EndsBy (crash : Breakdown → Prop) (ending : Ending) : Prop where
  broken : ∀ b, ending = .broken b ↔ crash b
  told : (∀ b, ¬ crash b) → ending = .done ∨ ending = .failed

theorem EndsBy.of_told {crash : Breakdown → Prop} {ending : Ending}
    (h : ending = .done ∨ ending = .failed) (hnone : ∀ b, ¬ crash b) : EndsBy crash ending where
  broken b := by
    refine iff_of_false ?_ (hnone b)
    rcases h with rfl | rfl <;> simp
  told _ := h

theorem EndsBy.of_broken {crash : Breakdown → Prop} {ending : Ending}
    (h : ending = .broken b) (hcrash : ∀ b', crash b' ↔ b' = b) : EndsBy crash ending where
  broken b' := by
    rw [h, hcrash]
    simp [eq_comm]
  told hnone := absurd ((hcrash b).mpr rfl) (hnone b)

/-- Once a run is planned, the session breaks off for what the run says of its directory, and for
the table of the files that it wrote. -/
theorem endsBy_afterRun {files : List String} {isDryRun : Bool} {paths : List Path} {plan : Plan}
    (hdiscover : d.discover s.discovery paths = .ok files) (hsome : files ≠ [])
    (hplan : s.plan? (Schema.describeTexts files) none isDryRun = .ok plan)
    (hsavePath : plan.savePath.text = s.output.savePath) (hdry : plan.isDryRun = isDryRun) :
    EndsBy (Crash d s isDryRun paths)
      (afterRun (plan.run { newline := s.output.newline } d)).ending := by
  have hcrash : ∀ b, Crash d s isDryRun paths b ↔
      (∃ fault, (plan.run { newline := s.output.newline } d).result =
          .error (.impossibleDirectory fault) ∧ b = .disk fault) ∨
        ∃ report e, (plan.run { newline := s.output.newline } d).result = .ok report ∧
          fileTable report.writtenFiles = .error e ∧ b = .markup e := by
    intro b
    rw [crash_iff_of_discover_ok hdiscover]
    simp [hsome, hplan, Plan.run_eq_impossible_iff, hsavePath, hdry, and_assoc]
  rcases ending_afterRun (plan.run { newline := s.output.newline } d) with
    ⟨report, hresult, hending⟩ | ⟨causes, hresult, hending⟩ | ⟨fault, hresult, hending⟩
  · cases htable : fileTable report.writtenFiles with
    | ok lines =>
      rw [htable] at hending
      exact .of_told (Or.inl hending) fun b => by simp [hcrash, hresult, htable]
    | error e =>
      rw [htable] at hending
      exact .of_broken hending fun b => by simp [hcrash, hresult, htable]
  · exact .of_told (Or.inr hending) fun b => by simp [hcrash, hresult]
  · exact .of_broken hending fun b => by simp [hcrash, hresult]

end Command

end TestScaffold
