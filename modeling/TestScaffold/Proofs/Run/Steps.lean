/-
  TestScaffold/Proofs/Run/Steps.lean
  ==================================
  **The same steps on another outlet.**

  A step asks its outlet for one thing only: whether a text can be written.  A
  step that left no error is therefore the same on every outlet that accepts the
  text (`Progress.step_on`), and so are steps one after the other, as long as the
  two outlets stay related in a way that makes the second accept what the first
  accepts (`Progress.steps_on`).  This is how two runs of one plan are compared.

  A run is its steps on the disk with the output directory, over the drafts of
  the inputs read from there (`Plan.run_eq_ofProgress`).
-/
import TestScaffold.Proofs.Run.Cut

namespace TestScaffold

/-! ### Outlets -/

namespace Outlet

theorem ensureDirectory_wet {o : Outlet} (hwet : o.isDryRun = false) (p : Path) :
    o.ensureDirectory p =
      ({ o with disk := (o.disk.ensureDirectory p).1 }, (o.disk.ensureDirectory p).2) := by
  simp [ensureDirectory, hwet]

theorem ensureDirectory_dry {o : Outlet} (hdry : o.isDryRun = true) (p : Path) :
    o.ensureDirectory p = (o, .ok ()) := by
  simp [ensureDirectory, hdry]

theorem writeText_dry {o : Outlet} (hdry : o.isDryRun = true) (p : Path) (text : String) :
    o.writeText p text = .ok o := by
  simp [writeText, hdry]

theorem writeText_wet {o : Outlet} (hwet : o.isDryRun = false) (p : Path) (text : String) :
    o.writeText p text = (o.disk.writeText p text).map fun disk => { o with disk } := by
  simp [writeText, hwet]

/-- A wet outlet accepts a text by writing it to its disk. -/
theorem writeText_ok {o o' : Outlet} (hwet : o.isDryRun = false) {p : Path} {text : String}
    (h : o.writeText p text = .ok o') :
    o'.isDryRun = false ∧ o.disk.writeText p text = .ok o'.disk := by
  rw [writeText_wet hwet] at h
  cases hwrite : o.disk.writeText p text with
  | error cause => rw [hwrite] at h; cases h
  | ok d' =>
    rw [hwrite] at h
    cases h
    exact ⟨hwet, rfl⟩

end Outlet

/-! ### Steps -/

namespace Progress

/-- The progress on another outlet. -/
def on (p : Progress) (outlet : Outlet) : Progress := { p with outlet }

@[simp] theorem on_outlet (p : Progress) (o : Outlet) : (p.on o).outlet = o := rfl

@[simp] theorem on_origin? (p : Progress) (o : Outlet) (name : Name) :
    (p.on o).origin? name = p.origin? name := rfl

@[simp] theorem on_errors (p : Progress) (o : Outlet) : (p.on o).errors = p.errors := rfl

variable {plan : Plan}

/-! ### One draft -/

/-- A draft that the outlet refuses leaves its error. -/
theorem put_of_refused {p : Progress} {name : Name} {draft : Draft} {cause : WriteError}
    (h : p.outlet.writeText (plan.outputPath name) draft.text = .error cause) :
    (p.put plan name draft).outlet = p.outlet ∧
      (p.put plan name draft).errors = p.errors ++ [.write cause] := by
  simp [put, h, fail]

/-- A draft that the outlet accepts leaves no error. -/
theorem put_of_written {p : Progress} {name : Name} {draft : Draft} {o : Outlet}
    (h : p.outlet.writeText (plan.outputPath name) draft.text = .ok o) :
    (p.put plan name draft).outlet = o ∧ (p.put plan name draft).errors = p.errors := by
  simp [put, h]

/-- A draft that is handed over is refused or written. -/
theorem put_cases (plan : Plan) (p : Progress) (name : Name) (draft : Draft) :
    (∃ cause, p.outlet.writeText (plan.outputPath name) draft.text = .error cause ∧
        (p.put plan name draft).outlet = p.outlet ∧
        (p.put plan name draft).errors = p.errors ++ [.write cause]) ∨
      (p.outlet.writeText (plan.outputPath name) draft.text =
          .ok (p.put plan name draft).outlet ∧
        (p.put plan name draft).errors = p.errors) := by
  cases hwrite : p.outlet.writeText (plan.outputPath name) draft.text with
  | error cause => exact Or.inl ⟨cause, rfl, put_of_refused hwrite⟩
  | ok o =>
    obtain ⟨houtlet, herrors⟩ := put_of_written hwrite
    exact Or.inr ⟨by rw [houtlet], herrors⟩

theorem put_on {p : Progress} {name : Name} {draft : Draft} {o₁ o o' : Outlet}
    (hwrite : p.outlet.writeText (plan.outputPath name) draft.text = .ok o₁)
    (hwrite' : o.writeText (plan.outputPath name) draft.text = .ok o') :
    (p.on o).put plan name draft = (p.put plan name draft).on o' := by
  simp only [put, on, hwrite, hwrite']
  rfl

/-- What a step can do: leave an error, or hand a draft over under the name that its text
    declares, with or without an overwriting. -/
theorem step_cases (plan : Plan) (p : Progress) (draft : Draft) :
    (∃ e, p.step plan draft = p.fail e) ∨
      ∃ (name : Name) (more : List Collision), Source.firstClassName draft.text = .ok name ∧
        ∀ o, (p.on o).step plan draft =
          (({ p with overwritings := p.overwritings ++ more } : Progress).on o).put plan name
            draft := by
  cases hname : Source.firstClassName draft.text with
  | error cause => exact Or.inl ⟨.unreadable cause, by simp only [step, hname]⟩
  | ok name =>
    cases horigin : p.origin? name with
    | none =>
      refine Or.inr ⟨name, [], rfl, fun o => ?_⟩
      simp only [step, hname, on_origin?, horigin, List.append_nil]
    | some first =>
      cases hpolicy : plan.onCollision with
      | error =>
        exact Or.inl ⟨.write (.collision ⟨plan.outputPath name, first, draft.origin⟩), by
          simp only [step, hname, horigin, hpolicy]⟩
      | overwrite =>
        refine Or.inr ⟨name, [⟨plan.outputPath name, first, draft.origin⟩], rfl, fun o => ?_⟩
        simp only [step, hname, on_origin?, horigin, hpolicy]
        rfl

/-- Errors are added and never taken away. -/
theorem exists_errors_step (plan : Plan) (p : Progress) (draft : Draft) :
    ∃ more, (p.step plan draft).errors = p.errors ++ more := by
  rcases step_cases plan p draft with ⟨e, he⟩ | ⟨name, more, _, hput⟩
  · exact ⟨[e], by rw [he]; rfl⟩
  · rw [show p.step plan draft = _ from hput p.outlet]
    rcases put_cases plan ((({ p with overwritings := p.overwritings ++ more } :
      Progress)).on p.outlet) name draft with ⟨cause, _, _, herrors⟩ | ⟨_, herrors⟩
    · exact ⟨[.write cause], herrors⟩
    · exact ⟨[], herrors.trans (List.append_nil _).symm⟩

/-- The outlet changes only by writing a draft under the name that its text declares. -/
theorem outlet_step (plan : Plan) (p : Progress) (draft : Draft) :
    (p.step plan draft).outlet = p.outlet ∨
      ∃ name, Source.firstClassName draft.text = .ok name ∧
        p.outlet.writeText (plan.outputPath name) draft.text =
          .ok (p.step plan draft).outlet := by
  rcases step_cases plan p draft with ⟨e, he⟩ | ⟨name, more, hname, hput⟩
  · exact Or.inl (by rw [he]; rfl)
  · rw [show p.step plan draft = _ from hput p.outlet]
    rcases put_cases plan ((({ p with overwritings := p.overwritings ++ more } :
      Progress)).on p.outlet) name draft with ⟨_, _, houtlet, _⟩ | ⟨hwrite, _⟩
    · exact Or.inl houtlet
    · exact Or.inr ⟨name, hname, hwrite⟩

/-- **A step without an error has written its draft, and is the same on every outlet that accepts
    the text.** -/
theorem step_on {p : Progress} {draft : Draft}
    (hclean : (p.step plan draft).errors = p.errors) :
    ∃ name, Source.firstClassName draft.text = .ok name ∧
      p.outlet.writeText (plan.outputPath name) draft.text = .ok (p.step plan draft).outlet ∧
      ∀ o o', o.writeText (plan.outputPath name) draft.text = .ok o' →
        (p.on o).step plan draft = (p.step plan draft).on o' := by
  rcases step_cases plan p draft with ⟨e, he⟩ | ⟨name, more, hname, hput⟩
  · rw [he] at hclean
    simp [fail] at hclean
  · have hstep : p.step plan draft = _ := hput p.outlet
    rw [hstep] at hclean ⊢
    rcases put_cases plan ((({ p with overwritings := p.overwritings ++ more } :
      Progress)).on p.outlet) name draft with ⟨cause, _, _, herrors⟩ | ⟨hwrite, _⟩
    · rw [herrors] at hclean
      simp at hclean
    · refine ⟨name, hname, hwrite, fun o o' hwrite' => ?_⟩
      rw [hput o]
      exact put_on hwrite hwrite'

/-! ### Draft after draft -/

theorem exists_errors_steps (plan : Plan) (drafts : List Draft) :
    ∀ p : Progress, ∃ more, (p.steps plan drafts).errors = p.errors ++ more := by
  induction drafts with
  | nil => exact fun p => ⟨[], (List.append_nil _).symm⟩
  | cons draft rest ih =>
    intro p
    obtain ⟨more, hmore⟩ := exists_errors_step plan p draft
    obtain ⟨others, hothers⟩ := ih (p.step plan draft)
    refine ⟨more ++ others, ?_⟩
    rw [← List.append_assoc, ← hmore]
    exact hothers

/-- No error at the end means no error at any step. -/
theorem errors_of_clean_steps {p : Progress} {draft : Draft} {rest : List Draft}
    (h : (p.steps plan (draft :: rest)).errors = p.errors) :
    (p.step plan draft).errors = p.errors ∧
      ((p.step plan draft).steps plan rest).errors = (p.step plan draft).errors := by
  obtain ⟨more, hmore⟩ := exists_errors_step plan p draft
  obtain ⟨others, hothers⟩ := exists_errors_steps plan rest (p.step plan draft)
  have hnone : more ++ others = [] := by
    have htotal : p.errors ++ (more ++ others) = p.errors := by
      rw [← List.append_assoc, ← hmore, ← hothers]
      exact h
    exact List.append_right_eq_self.mp htotal
  obtain ⟨rfl, rfl⟩ := List.append_eq_nil_iff.mp hnone
  rw [List.append_nil] at hmore hothers
  exact ⟨hmore, hothers⟩

/-- What no write of a draft can break holds of the outlet at the end. -/
theorem steps_outlet {P : Outlet → Prop} {drafts : List Draft}
    (hwrite : ∀ draft ∈ drafts, ∀ name, Source.firstClassName draft.text = .ok name →
      ∀ o o', P o → o.writeText (plan.outputPath name) draft.text = .ok o' → P o') :
    ∀ {p : Progress}, P p.outlet → P (p.steps plan drafts).outlet := by
  induction drafts with
  | nil => exact fun hp => hp
  | cons draft rest ih =>
    intro p hp
    have hrest : P (p.step plan draft).outlet → P ((p.step plan draft).steps plan rest).outlet :=
      ih fun other hother => hwrite other (List.mem_cons_of_mem _ hother)
    refine hrest ?_
    rcases outlet_step plan p draft with hsame | ⟨name, hname, hwritten⟩
    · rw [hsame]
      exact hp
    · exact hwrite draft List.mem_cons_self name hname _ _ hp hwritten

/-- **Steps without an error are the same on every related outlet**, if a related outlet accepts
    what the first one accepts and stays related. The induction is on the drafts. -/
theorem steps_on (plan : Plan) {R : Outlet → Outlet → Prop}
    (hrelated : ∀ {o o₁ o'} path text, R o o' → o.writeText path text = .ok o₁ →
      ∃ o₁', o'.writeText path text = .ok o₁' ∧ R o₁ o₁') (drafts : List Draft) :
    ∀ {p : Progress} {o' : Outlet}, R p.outlet o' → (p.steps plan drafts).errors = p.errors →
      ∃ o₁', (p.on o').steps plan drafts = (p.steps plan drafts).on o₁' ∧
        R (p.steps plan drafts).outlet o₁' := by
  induction drafts with
  | nil => exact fun hR _ => ⟨_, rfl, hR⟩
  | cons draft rest ih =>
    intro p o' hR hclean
    obtain ⟨hstep, hrest⟩ := errors_of_clean_steps hclean
    obtain ⟨name, _, hwritten, hsame⟩ := step_on hstep
    obtain ⟨o₁', hwritten', hR₁⟩ := hrelated _ _ hR hwritten
    obtain ⟨o₂', hsteps, hR₂⟩ := ih hR₁ hrest
    refine ⟨o₂', ?_, hR₂⟩
    calc (p.on o').steps plan (draft :: rest)
        = ((p.on o').step plan draft).steps plan rest := rfl
      _ = ((p.step plan draft).on o₁').steps plan rest := by rw [hsame o' o₁' hwritten']
      _ = (p.steps plan (draft :: rest)).on o₂' := hsteps

end Progress

/-! ### A run as its steps -/

namespace Yield

/-- Without a failure among the inputs taken up, all are taken up. -/
theorem started_eq_self {readers : Nat} {ys : List Yield}
    (h : ∀ y ∈ started readers none ys, y.error? = none) : started readers none ys = ys := by
  induction ys with
  | nil => rfl
  | cons y ys ih =>
    have hstarted : started readers none (y :: ys) =
        y :: started readers (y.slack? readers) ys := rfl
    have hslack : y.slack? readers = none := by
      have hy : y.error? = none := h y (by rw [hstarted]; exact List.mem_cons_self)
      simp only [slack?, hy]
    rw [hstarted, hslack] at h ⊢
    rw [ih fun z hz => h z (List.mem_cons_of_mem y hz)]

/-- A run without failures has read every input. -/
theorem readText_of_ofPlan {plan : Plan} {layout : Layout} {d : Disk}
    (h : ∀ y ∈ ofPlan plan layout d, y.error? = none) {input : String}
    (hinput : input ∈ plan.inputs) : ∃ text, d.readText (.ofString input) = .ok text := by
  have hmem : ofInput layout d input ∈ ofPlan plan layout d := by
    rw [ofPlan] at h ⊢
    rw [started_eq_self h]
    exact List.mem_map_of_mem hinput
  cases hread : d.readText (.ofString input) with
  | ok text => exact ⟨text, rfl⟩
  | error cause =>
    have hnone := h _ hmem
    rw [ofInput_unread hread] at hnone
    cases hnone

/-- What is read from two disks is the same where each input has the same text on both. -/
theorem ofPlan_congr {plan plan' : Plan} (layout : Layout) {d e : Disk}
    (hlimits : plan'.limits = plan.limits) (hinputs : plan'.inputs = plan.inputs)
    (h : ∀ input ∈ plan.inputs, e.readText (.ofString input) = d.readText (.ofString input)) :
    ofPlan plan' layout e = ofPlan plan layout d := by
  have hmap : plan.inputs.map (ofInput layout e) = plan.inputs.map (ofInput layout d) :=
    List.map_congr_left fun input hinput => by simp only [ofInput, h input hinput]
  rw [ofPlan, ofPlan, hlimits, hinputs, hmap]

end Yield

@[simp] theorem Outcome.ofProgress_disk (plan : Plan) (yields : List Yield) (p : Progress) :
    (ofProgress plan yields p).disk = p.outlet.disk := rfl

theorem Outcome.ofProgress_of_whole {plan : Plan} {yields : List Yield} {p : Progress}
    (hyields : ∀ y ∈ yields, y.error? = none) (herrors : p.errors = []) :
    (ofProgress plan yields p).result = .ok
      { filesRead := yields.length
        unitsGenerated := (yields.flatMap (·.drafts)).length
        writtenFiles := p.written
        isDryRun := plan.isDryRun } := by
  simp [ofProgress, List.filterMap_eq_nil_iff.mpr hyields, herrors]

namespace Plan

variable {plan : Plan} {layout : Layout} {d : Disk}

/-- The outlet of a run before its output directory is made. -/
def outlet (plan : Plan) (d : Disk) : Outlet := { disk := d, isDryRun := plan.isDryRun }

/-- What the inputs of a run yield. -/
def yields (plan : Plan) (layout : Layout) (d : Disk) : List Yield :=
  Yield.ofPlan plan layout (plan.inputDisk d)

/-- The drafts of a run, in the order in which they are written. -/
def drafts (plan : Plan) (layout : Layout) (d : Disk) : List Draft :=
  (plan.yields layout d).flatMap (·.drafts)

/-- What has come of drafts that were written to a disk one after the other. -/
def after (plan : Plan) (made : Disk) (drafts : List Draft) : Progress :=
  ({ outlet := plan.outlet made } : Progress).steps plan drafts

/-- What comes of the drafts of a run. -/
def progress (plan : Plan) (layout : Layout) (d : Disk) : Progress :=
  plan.after (plan.inputDisk d) (plan.drafts layout d)

theorem inputDisk_wet (hwet : plan.isDryRun = false) :
    plan.inputDisk d = (d.ensureDirectory (.ofString plan.savePath)).1 := by
  simp [inputDisk, Outlet.ensureDirectory, hwet]

theorem inputDisk_dry (hdry : plan.isDryRun = true) : plan.inputDisk d = d := by
  simp [inputDisk, Outlet.ensureDirectory, hdry]

/-- The output directory is made or not; either way the outlet is that of the disk then. -/
theorem ensureDirectory_outlet :
    ((plan.outlet d).ensureDirectory (.ofString plan.savePath)).1 =
      plan.outlet (plan.inputDisk d) := by
  by_cases hdry : plan.isDryRun = true
  · rw [Outlet.ensureDirectory_dry hdry, inputDisk_dry hdry]
  · have hwet : plan.isDryRun = false := by simpa using hdry
    rw [Outlet.ensureDirectory_wet hwet, inputDisk_wet hwet]
    rfl

/-- **A run with an output directory is its steps.** -/
theorem run_eq_ofProgress (layout : Layout)
    (hensured : ((plan.outlet d).ensureDirectory (.ofString plan.savePath)).2 = .ok ()) :
    plan.run layout d = .ofProgress plan (plan.yields layout d) (plan.progress layout d) := by
  have hmade : (plan.outlet d).ensureDirectory (.ofString plan.savePath) =
      (plan.outlet (plan.inputDisk d), .ok ()) := Prod.ext ensureDirectory_outlet hensured
  simp only [outlet] at hmade
  simp only [run, hmade]
  rfl

/-- A run with a report had an output directory, and no errors. -/
theorem whole_of_run_ok {report : Report} (hok : (plan.run layout d).result = .ok report) :
    ((plan.outlet d).ensureDirectory (.ofString plan.savePath)).2 = .ok () ∧
      (∀ y ∈ plan.yields layout d, y.error? = none) ∧ (plan.progress layout d).errors = [] := by
  have hensured : ((plan.outlet d).ensureDirectory (.ofString plan.savePath)).2 = .ok () := by
    cases hmade : (plan.outlet d).ensureDirectory (.ofString plan.savePath) with
    | mk made result =>
      cases result with
      | ok u => rfl
      | error cause =>
        simp only [outlet] at hmade
        simp only [run, hmade] at hok
        unfold Outcome.withoutDirectory at hok
        split at hok <;> cases hok
  rw [run_eq_ofProgress layout hensured] at hok
  exact ⟨hensured, Outcome.of_ofProgress_ok hok⟩

/-- A disk with the output directory of a run that writes. -/
theorem paved_inputDisk (hwet : plan.isDryRun = false)
    (hensured : ((plan.outlet d).ensureDirectory (.ofString plan.savePath)).2 = .ok ()) :
    d.Paved (plan.inputDisk d) (.ofString plan.savePath) ∧
      (plan.inputDisk d).hasDirectory (.ofString plan.savePath) = .ok true := by
  rw [Outlet.ensureDirectory_wet hwet] at hensured
  rw [inputDisk_wet hwet]
  exact Disk.ensureDirectory_ok (Prod.ext rfl hensured)

/-- A dry run takes its steps on the disk as it is. -/
theorem outlet_progress_dry (hdry : plan.isDryRun = true) :
    (plan.progress layout d).outlet = plan.outlet d := by
  refine Progress.steps_outlet (P := fun o => o = plan.outlet d) ?_ ?_
  · rintro draft _ name _ o o' rfl hwrite
    rw [Outlet.writeText_dry hdry] at hwrite
    cases hwrite
    rfl
  · rw [inputDisk_dry hdry]

/-- **A dry run leaves the disk as it was**, whether or not it has a report. -/
theorem disk_run_dry (hdry : plan.isDryRun = true) : (plan.run layout d).disk = d := by
  rw [run_eq_ofProgress layout (by rw [Outlet.ensureDirectory_dry hdry]), Outcome.ofProgress_disk,
    outlet_progress_dry hdry]
  rfl

end Plan

end TestScaffold
