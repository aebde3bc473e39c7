/-
  TestScaffold/Proofs/Run/Cut.lean
  ================================
  **An input that cannot be read cuts a run short.**

  Two runs are compared: one over some inputs, which has a report, and one over
  the same inputs with more behind them, of which the first cannot be read.  The
  second run goes as the first one, and then tells one error.  What stands behind
  the input that cannot be read makes no difference.
-/
import TestScaffold.Proofs.Run.Accounting

namespace TestScaffold

/-- The plan with other inputs. -/
def Plan.reading (plan : Plan) (inputs : List String) : Plan := { plan with inputs }

/-- The disk that the inputs are read from: the output directory has been made, unless the run is
    dry. -/
def Plan.inputDisk (plan : Plan) (d : Disk) : Disk :=
  (({ disk := d, isDryRun := plan.isDryRun } : Outlet).ensureDirectory
    (.ofString plan.savePath)).1.disk

/-! ### Yields -/

/-- An input that cannot be read has no drafts. -/
theorem Yield.ofInput_unread {layout : Layout} {d : Disk} {input : String} {cause : ReadError}
    (h : d.readText (.ofString input) = .error cause) :
    ofInput layout d input = { error? := some (.read cause) } := by
  simp only [ofInput, h]

section

variable {plan : Plan} {layout : Layout} {d : Disk}

theorem Yield.ofPlan_reading_append (hreading : plan.limits.reading = 1) {pre : List String}
    (h : ∀ y ∈ ofPlan (plan.reading pre) layout d, y.error? = none) (more : List String) :
    ofPlan (plan.reading (pre ++ more)) layout d =
      ofPlan (plan.reading pre) layout d ++ ofPlan (plan.reading more) layout d := by
  simp only [ofPlan, Plan.reading, hreading, List.map_append] at h ⊢
  -- without a failure no input was left out
  have hall : pre.map (ofInput layout d) = started 1 none (pre.map (ofInput layout d)) := by
    obtain ⟨rest, hsplit, hstopped, _⟩ := started_split (pre.map (ofInput layout d))
    have hrest : rest = [] := by
      by_contra hne
      obtain ⟨y, hy, herror⟩ := hstopped hne
      rw [h y hy] at herror
      cases herror
    rwa [hrest, List.append_nil] at hsplit
  rw [← hall] at h ⊢
  exact started_append h _

theorem Yield.ofPlan_reading_unread (hreading : plan.limits.reading = 1) {bad : String}
    {cause : ReadError} (h : d.readText (.ofString bad) = .error cause) (post : List String) :
    ofPlan (plan.reading (bad :: post)) layout d = [{ error? := some (.read cause) }] := by
  simp only [ofPlan, Plan.reading, hreading, List.map_cons, ofInput_unread h]
  exact started_cons_unread _ ⟨cause, rfl⟩

end

/-! ### Two runs -/

/-- An outcome with a report had no errors. -/
theorem Outcome.of_ofProgress_ok {plan : Plan} {yields : List Yield} {p : Progress}
    {report : Report} (h : (ofProgress plan yields p).result = .ok report) :
    (∀ y ∈ yields, y.error? = none) ∧ p.errors = [] := by
  unfold ofProgress at h
  dsimp only at h
  split at h
  · rename_i hempty
    obtain ⟨hyields, herrors⟩ := List.append_eq_nil_iff.mp (List.isEmpty_iff.mp hempty)
    exact ⟨List.filterMap_eq_nil_iff.mp hyields, herrors⟩
  · cases h

/-- **A run with an input that cannot be read is the run over the inputs before it, and tells one
    error**, whatever inputs stand behind. -/
theorem Plan.run_reading_unread {plan : Plan}
    (hlimits : plan.limits = { reading := 1, generating := 1, writing := 1 }) {layout : Layout}
    {d : Disk} {pre : List String} {report : Report}
    (hpre : ((plan.reading pre).run layout d).result = .ok report) {bad : String}
    {cause : ReadError} (hbad : (plan.inputDisk d).readText (.ofString bad) = .error cause)
    (post : List String) :
    (plan.reading (pre ++ bad :: post)).run layout d =
        { (plan.reading pre).run layout d with result := .error (.errors [.read cause]) } ∧
      (RunError.read cause).detail =
        if (Path.ofString bad).hasNul then .plain "ValueError" DiskFault.nulInPath.message
        else .located "FileReadError" cause.message (some (Path.ofString bad).text) := by
  refine ⟨?_, ReadError.detail_eq hbad⟩
  cases hmade : ({ disk := d, isDryRun := plan.isDryRun } : Outlet).ensureDirectory
      (.ofString plan.savePath) with
  | mk outlet result =>
    cases result with
    | error e =>
      -- without an output directory there is no report
      simp only [run, reading, hmade] at hpre
      unfold Outcome.withoutDirectory at hpre
      split at hpre <;> cases hpre
    | ok u =>
      have hbad' : outlet.disk.readText (.ofString bad) = .error cause := by
        rwa [inputDisk, hmade] at hbad
      -- only the inputs tell the two plans apart, and neither drafts nor reports depend on them
      have hrun : ∀ inputs, (plan.reading inputs).run layout d =
          .ofProgress plan (Yield.ofPlan (plan.reading inputs) layout outlet.disk)
            (({ outlet } : Progress).steps plan
              ((Yield.ofPlan (plan.reading inputs) layout outlet.disk).flatMap (·.drafts))) := by
        intro inputs
        simp only [run, reading, hmade]
        rfl
      rw [hrun] at hpre
      obtain ⟨hwhole, herrors⟩ := Outcome.of_ofProgress_ok hpre
      have hreading : plan.limits.reading = 1 := by rw [hlimits]
      have hyields := Yield.ofPlan_reading_append hreading hwhole (bad :: post)
      rw [Yield.ofPlan_reading_unread hreading hbad' post] at hyields
      rw [hrun, hrun, hyields]
      have hdrafts (ys : List Yield) : (ys ++ [({ error? := some (.read cause) } : Yield)]).flatMap
          (·.drafts) = ys.flatMap (·.drafts) := by
        simp
      rw [hdrafts]
      simp [Outcome.ofProgress, herrors, List.filterMap_eq_nil_iff.mpr hwhole]

theorem run_reading_unread_sourceDisk :
    ∃ cause, ((Plan.sequentially []).inputDisk sourceDisk).readText (.ofString "B.cs") =
        .error cause ∧
      ((Plan.sequentially []).reading (["A.cs"] ++ "B.cs" :: ["A.cs"])).run {} sourceDisk =
        { ((Plan.sequentially []).reading ["A.cs"]).run {} sourceDisk with
          result := .error (.errors [.read cause]) } := by
  refine ⟨.missing (.ofString "B.cs"), by decide +kernel, ?_⟩
  have hreport : (((Plan.sequentially []).reading ["A.cs"]).run {} sourceDisk).result =
      .ok { filesRead := 1, unitsGenerated := 1, writtenFiles := ["out/ATests.cs"] } :=
    report_sourceDisk
  exact (Plan.run_reading_unread rfl hreport (by decide +kernel) ["A.cs"]).1

/-- A disk with an empty source file beside another one. -/
def blankDisk : Disk := sourceDisk.put "E.cs" [] (.file "".toUTF8) (by decide) (by decide)

/-- Behind an input that was read, one whose path holds the character NUL cannot be read; what it
    leaves is not an error of reading. -/
theorem run_reading_nul_blankDisk :
    ∃ cause, ((Plan.sequentially []).inputDisk blankDisk).readText (.ofString "a\x00b") =
        .error cause ∧
      (((Plan.sequentially []).reading ["E.cs"]).run {} blankDisk).result = .ok { filesRead := 1 } ∧
      (((Plan.sequentially []).reading (["E.cs"] ++ "a\x00b" :: [])).run {} blankDisk).result =
        .error (.errors [.read cause]) ∧
      ∀ message path?, (RunError.read cause).detail ≠ .located "FileReadError" message path? := by
  refine ⟨.refused (.ofString "a\x00b") .nulInPath, by decide +kernel, by decide +kernel,
    by decide +kernel, ?_⟩
  intro message path? h
  cases h

end TestScaffold
