/-
  TestScaffold/Proofs/Run/Outlets.lean
  ====================================
  **Whether a draft can be written does not depend on the drafts before it.**

  A text that has been written changes no directory, and an outlet accepts a text
  for the sake of its directories (`Outlet.Alike`).  So drafts that were written
  without an error were each accepted by the outlet from the start
  (`Progress.accepts_of_clean`), and drafts that are accepted from the start are
  written without an error, unless names collide that may not
  (`Progress.clean_of_accepts`).  Neither says anything about their order.

  Drafts that are written without an error have a log in which all are written, so
  at the end the file of a name holds the text of the last draft that declares it
  (`Plan.find?_after_last`).
-/
import TestScaffold.Proofs.Files.SameDirectories
import TestScaffold.Proofs.Lists
import TestScaffold.Proofs.Run.Collisions

namespace TestScaffold

namespace Outlet

/-- Outlets that both write or both do not, to disks with the same directories. -/
structure Alike (o o' : Outlet) : Prop where
  isDryRun : o'.isDryRun = o.isDryRun
  directories : o.disk.SameDirectories o'.disk

theorem Alike.refl (o : Outlet) : Alike o o := ⟨rfl, Disk.SameDirectories.refl _⟩

theorem Alike.symm {o o' : Outlet} (h : Alike o o') : Alike o' o :=
  ⟨h.isDryRun.symm, h.directories.symm⟩

theorem Alike.trans {o o' o'' : Outlet} (h : Alike o o') (h' : Alike o' o'') : Alike o o'' :=
  ⟨h'.isDryRun.trans h.isDryRun, h.directories.trans h'.directories⟩

/-- Outlets that are alike accept the same texts. -/
theorem Alike.writeText {o o' o₁ : Outlet} (h : Alike o o') {path : Path} {text : String}
    (hwrite : o.writeText path text = .ok o₁) : ∃ o₁', o'.writeText path text = .ok o₁' := by
  by_cases hdry : o.isDryRun = true
  · exact ⟨o', writeText_dry (h.isDryRun.trans hdry) path text⟩
  · have hwet : o.isDryRun = false := Bool.not_eq_true _ ▸ hdry
    obtain ⟨e', _, _, hput, _⟩ := h.directories.writeText (writeText_ok hwet hwrite).2
    exact ⟨{ o' with disk := e' }, by rw [writeText_wet (h.isDryRun.trans hwet), hput]; rfl⟩

theorem alike_of_writeText {o o' : Outlet} {path : Path} {text : String}
    (hwrite : o.writeText path text = .ok o') : Alike o o' := by
  by_cases hdry : o.isDryRun = true
  · rw [writeText_dry hdry] at hwrite
    cases hwrite
    exact Alike.refl _
  · have hwet : o.isDryRun = false := Bool.not_eq_true _ ▸ hdry
    obtain ⟨hwet', hput⟩ := writeText_ok hwet hwrite
    obtain ⟨_, _, _, hfiled⟩ := Disk.writeText_ok hput
    exact ⟨hwet'.trans hwet.symm, hfiled.sameDirectories⟩

/-- The outlet takes the draft under this name. -/
structure Accepts (plan : Plan) (o : Outlet) (draft : Draft) (name : Name) : Prop where
  declares : draft.Declares name
  writable : ∃ o', o.writeText (plan.outputPath name) draft.text = .ok o'

/-- A draft is accepted wherever its file has a free or filed seat, whatever its text is. -/
theorem accepts_of_seat {plan : Plan} {o : Outlet} (hwet : o.isDryRun = false) {draft : Draft}
    {name : Name} (hname : draft.Declares name) {path : Path} (hpath : plan.outputPath name = path)
    {parent : Place} {last : String} (hseat : o.disk.Seat path parent last)
    (hfree : o.disk.isDirectoryAt (last :: parent) = false)
    (hfresh : o.disk.freshFault? path = none) : Accepts plan o draft name := by
  subst hpath
  obtain ⟨d', hput⟩ := hseat.writeText draft.text hfree hfresh
  refine ⟨hname, { o with disk := d' }, ?_⟩
  rw [writeText_wet hwet, hput]
  rfl

theorem Accepts.of_alike {plan : Plan} {o o' : Outlet} {draft : Draft} {name : Name}
    (h : Accepts plan o draft name) (halike : Alike o o') : Accepts plan o' draft name := by
  obtain ⟨o₁, hwrite⟩ := h.writable
  exact ⟨h.declares, halike.writeText hwrite⟩

end Outlet

namespace Progress

open Outlet

variable {plan : Plan}

/-! ### One draft -/

theorem accepts_of_clean_step {p : Progress} {draft : Draft}
    (hclean : (p.step plan draft).errors = p.errors) :
    ∃ name, Accepts plan p.outlet draft name ∧ Alike p.outlet (p.step plan draft).outlet := by
  obtain ⟨name, hname, hwrite, _⟩ := step_on hclean
  exact ⟨name, ⟨hname, _, hwrite⟩, alike_of_writeText hwrite⟩

theorem put_of_accepts {p : Progress} {draft : Draft} {name : Name}
    (h : Accepts plan p.outlet draft name) :
    (p.put plan name draft).errors = p.errors ∧
      Alike p.outlet (p.put plan name draft).outlet := by
  obtain ⟨o, hwrite⟩ := h.writable
  obtain ⟨houtlet, herrors⟩ := put_of_written hwrite
  exact ⟨herrors, by rw [houtlet]; exact alike_of_writeText hwrite⟩

/-- A draft that is accepted leaves no error if its name is free or may be taken twice. -/
theorem clean_step_of_accepts {p : Progress} {draft : Draft} {name : Name}
    (h : Accepts plan p.outlet draft name)
    (hfree : plan.onCollision = .overwrite ∨ p.origin? name = none) :
    (p.step plan draft).errors = p.errors ∧ Alike p.outlet (p.step plan draft).outlet := by
  cases horigin : p.origin? name with
  | none =>
    rw [step_of_free h.declares horigin]
    exact put_of_accepts h
  | some first =>
    have hpolicy : plan.onCollision = .overwrite := by
      rcases hfree with hpolicy | hnone
      · exact hpolicy
      · rw [horigin] at hnone
        cases hnone
    -- the overwriting is noted, which does not matter to what follows
    have hstep : p.step plan draft = ({ p with
        overwritings := p.overwritings ++ [⟨plan.outputPath name, first, draft.origin⟩] } :
          Progress).put plan name draft := by
      simp only [step, show Source.firstClassName draft.text = .ok name from h.declares, horigin,
        hpolicy]
    rw [hstep]
    exact put_of_accepts (p := { p with overwritings := _ }) h

/-- The path of a draft that leaves no error is listed, if it is not listed yet. -/
theorem written_of_clean_step {p : Progress} {draft : Draft} {name : Name}
    (hname : draft.Declares name) (hclean : (p.step plan draft).errors = p.errors) :
    (p.step plan draft).written =
      if p.written.contains (plan.outputPath name).text then p.written
      else p.written ++ [(plan.outputPath name).text] := by
  rcases step_cases plan p draft with ⟨e, he⟩ | ⟨declared, more, hdeclared, hput⟩
  · rw [he] at hclean
    simp [fail] at hclean
  · obtain rfl : declared = name := Except.ok.inj (hdeclared.symm.trans hname)
    obtain ⟨_, hsame, hwrite, _⟩ := step_on hclean
    obtain rfl := Except.ok.inj (hsame.symm.trans hname)
    rw [show p.step plan draft = _ from hput p.outlet]
    simp only [put, on, hwrite]
    rfl

/-! ### Draft after draft -/

/-- **Drafts that leave no error were each accepted from the start.** The induction is on the
    drafts; what the outlet after the first one accepts, the outlet before it accepts as well. -/
theorem accepts_of_clean {drafts : List Draft} : ∀ {p : Progress},
    (p.steps plan drafts).errors = p.errors →
      ∃ names, List.Forall₂ (Accepts plan p.outlet) drafts names ∧
        Alike p.outlet (p.steps plan drafts).outlet := by
  induction drafts with
  | nil => exact fun _ => ⟨[], .nil, Alike.refl _⟩
  | cons draft rest ih =>
    intro p hclean
    obtain ⟨hstep, hrest⟩ := errors_of_clean_steps hclean
    obtain ⟨name, hname, halike⟩ := accepts_of_clean_step hstep
    obtain ⟨names, hnames, halike'⟩ := ih hrest
    exact ⟨name :: names, .cons hname (hnames.imp fun _ _ h => h.of_alike halike.symm),
      halike.trans halike'⟩

/-- The names of the drafts to come may all be taken. -/
def Open (plan : Plan) (names : List Name) (p : Progress) : Prop :=
  plan.onCollision = .overwrite ∨ names.Nodup ∧ ∀ name ∈ names, p.origin? name = none

theorem Open.step {p : Progress} {draft : Draft} {name : Name} {names : List Name}
    (h : Open plan (name :: names) p) (hname : draft.Declares name) :
    Open plan names (p.step plan draft) := by
  refine h.imp_right fun ⟨hnodup, hfree⟩ => ⟨hnodup.of_cons, fun other hother => ?_⟩
  have hne : ¬ draft.Declares other := fun hsame =>
    (List.nodup_cons.mp hnodup).1 (Except.ok.inj (hname.symm.trans hsame) ▸ hother)
  rw [origin?_step_of_not_declares p hne]
  exact hfree other (List.mem_cons_of_mem _ hother)

/-- **Drafts that are each accepted from the start leave no error**, unless their names collide
    and may not. -/
theorem clean_of_accepts {o : Outlet} {drafts : List Draft} {names : List Name}
    (h : List.Forall₂ (Accepts plan o) drafts names) : ∀ {p : Progress}, Alike o p.outlet →
      Open plan names p → (p.steps plan drafts).errors = p.errors := by
  induction h with
  | nil => exact fun _ _ => rfl
  | cons haccepts _ ih =>
    intro p halike hopen
    have hfree := hopen.imp_right fun hnames => hnames.2 _ List.mem_cons_self
    obtain ⟨hstep, halike'⟩ := clean_step_of_accepts (haccepts.of_alike halike) hfree
    exact (ih (halike.trans halike') (hopen.step haccepts.declares)).trans hstep

/-- **Drafts that leave no error list the paths of their names, each once and in order.** The
    induction is on the drafts, with the names of those before. -/
theorem written_of_clean (hext : Schema.extensionRule plan.extension = none)
    {drafts : List Draft} {names : List Name} (hnames : List.Forall₂ Draft.Declares drafts names) :
    ∀ {p : Progress} {earlier : List Name}, (∀ name ∈ earlier, '/' ∉ name.text.toList) →
      p.written = earlier.eraseDups.map (fun (name : Name) => (plan.outputPath name).text) →
      (p.steps plan drafts).errors = p.errors → (p.steps plan drafts).written =
        (earlier ++ names).eraseDups.map fun (name : Name) => (plan.outputPath name).text := by
  induction hnames with
  | nil =>
    intro p earlier _ hlisted _
    rw [List.append_nil]
    exact hlisted
  | @cons draft name drafts names hname _ ih =>
    intro p earlier hslash hlisted hclean
    obtain ⟨hstep, hsteps⟩ := errors_of_clean_steps hclean
    have hslash' := Source.slash_notMem_firstClassName hname
    have hlisted' := written_of_clean_step hname hstep
    rw [hlisted, Plan.listed_concat hext hslash hslash'] at hlisted'
    have hall : ∀ other ∈ earlier ++ [name], '/' ∉ other.text.toList := by
      intro other hother
      rcases List.mem_append.mp hother with hother | hother
      · exact hslash other hother
      · rw [List.mem_singleton.mp hother]
        exact hslash'
    have hrest := ih hall hlisted' hsteps
    rw [List.append_assoc] at hrest
    exact hrest

end Progress

/-! ### Inputs that do not fail -/

theorem Yield.started_of_whole (readers : Nat) {ys : List Yield}
    (h : ∀ y ∈ ys, y.error? = none) : started readers none ys = ys := by
  induction ys with
  | nil => rfl
  | cons y ys ih =>
    have hslack : y.slack? readers = none := by
      simp only [slack?, h y List.mem_cons_self]
    have hstarted : started readers none (y :: ys) =
        y :: started readers (y.slack? readers) ys := rfl
    rw [hstarted, hslack, ih fun z hz => h z (List.mem_cons_of_mem y hz)]

namespace Plan

variable {plan : Plan} {layout : Layout} {d : Disk}

theorem yields_of_whole
    (h : ∀ input ∈ plan.inputs, (Yield.ofInput layout (plan.inputDisk d) input).error? = none) :
    plan.yields layout d = plan.inputs.map (Yield.ofInput layout (plan.inputDisk d)) :=
  Yield.started_of_whole _ fun _ hy => by
    obtain ⟨input, hinput, rfl⟩ := List.mem_map.mp hy
    exact h input hinput

/-- **A run has a report if no input fails and every draft is accepted from the start**, unless
    names collide that may not. -/
theorem run_ok_of_accepts (hensured : ((plan.outlet d).ensureDirectory (.ofString plan.savePath)).2 =
    .ok ()) (hwhole : ∀ y ∈ plan.yields layout d, y.error? = none) {names : List Name}
    (haccepts : List.Forall₂ (Outlet.Accepts plan (plan.outlet (plan.inputDisk d)))
      (plan.drafts layout d) names)
    (hopen : plan.onCollision = .overwrite ∨ names.Nodup) :
    (plan.progress layout d).errors = [] ∧ (plan.run layout d).result = .ok
      { filesRead := (plan.yields layout d).length
        unitsGenerated := (plan.drafts layout d).length
        writtenFiles := (plan.progress layout d).written
        isDryRun := plan.isDryRun } := by
  have hclean : (plan.progress layout d).errors = [] :=
    Progress.clean_of_accepts haccepts (p := { outlet := plan.outlet (plan.inputDisk d) })
      (Outlet.Alike.refl _) (hopen.imp_right fun hnodup => ⟨hnodup, fun _ _ => rfl⟩)
  refine ⟨hclean, ?_⟩
  rw [run_eq_ofProgress layout hensured, Outcome.ofProgress_of_whole hwhole hclean]
  rfl

/-! ### Files at the end -/

/-- Drafts that leave no error on a disk were each accepted by it, and left its directories as they
    were. -/
theorem accepts_of_clean_after {made : Disk} {drafts : List Draft}
    (hclean : (plan.after made drafts).errors = []) :
    ∃ names, List.Forall₂ (Outlet.Accepts plan (plan.outlet made)) drafts names ∧
      Outlet.Alike (plan.outlet made) (plan.after made drafts).outlet :=
  Progress.accepts_of_clean (p := { outlet := plan.outlet made }) hclean

/-- Drafts written without an error have a log in which all are written. -/
theorem exists_log_of_clean (hext : Schema.extensionRule plan.extension = none)
    (hwet : plan.isDryRun = false) {made : Disk} {drafts : List Draft}
    (hclean : (plan.after made drafts).errors = []) :
    ∃ log : Log, Logged plan made log (plan.after made drafts) ∧
      log.written.map (·.2) = drafts ∧ ∀ entry ∈ log.written, entry.2.Declares entry.1 := by
  have hstart : plan.after made drafts = ({ outlet := { disk := made } } : Progress).steps plan
      drafts := by
    rw [after, outlet, hwet]
  obtain ⟨log, hdrafts, hlogged⟩ := logged_steps hext drafts (Logged.start plan made)
  rw [List.nil_append, ← hstart] at hlogged
  have hwritten := Log.written_of_errors_eq_nil (hlogged.errors.symm.trans hclean)
  exact ⟨log, hlogged, hwritten.1.trans hdrafts,
    fun entry hentry => hlogged.named entry (Log.mem_handed_of_mem_written hentry)⟩

/-- **The last draft of a name stands**: at the end its file holds its text. -/
theorem find?_after_last (hext : Schema.extensionRule plan.extension = none)
    (hwet : plan.isDryRun = false) {made : Disk} {earlier later : List Draft} {draft : Draft}
    (hclean : (plan.after made (earlier ++ draft :: later)).errors = []) {name : Name}
    (hname : draft.Declares name) (hlast : ∀ other ∈ later, ¬ other.Declares name)
    {parent : Place} {last : String} (hseat : made.Seat (plan.outputPath name) parent last) :
    (plan.after made (earlier ++ draft :: later)).outlet.disk.find? (last :: parent) =
      some (.file draft.text.toUTF8) := by
  obtain ⟨log, hlogged, hdrafts, hnames⟩ := exists_log_of_clean hext hwet hclean
  -- the log splits where the drafts do
  obtain ⟨before, rest, hsplit, _, hrest⟩ := List.map_eq_append_iff.mp hdrafts
  obtain ⟨entry, after, rfl, hentry, hafter⟩ := List.map_eq_cons_iff.mp hrest
  have hmem : ∀ other ∈ entry :: after, other.2.Declares other.1 := by
    intro other hother
    refine hnames other ?_
    rw [hsplit]
    exact List.mem_append_right _ hother
  have hdeclared := hmem entry List.mem_cons_self
  rw [hentry] at hdeclared
  have hsame : entry.1 = name := Except.ok.inj (hdeclared.symm.trans hname)
  have hnone : ∀ other ∈ after, other.1 ≠ entry.1 := by
    intro other hother heq
    refine hlast other.2 (hafter ▸ List.mem_map_of_mem hother) ?_
    rw [← hsame, ← heq]
    exact hmem other (List.mem_cons_of_mem _ hother)
  obtain ⟨parent', last', hseat', hfile⟩ := hlogged.latest before entry after hsplit hnone
  rw [hsame] at hseat'
  obtain ⟨rfl, rfl⟩ := (hlogged.grows.seat hseat).unique hseat'
  rw [hfile, hentry]

/-- Where files may be overwritten, a run whose drafts all go by one name has a report, and the last
    draft stands. -/
theorem run_of_one_name (hext : Schema.extensionRule plan.extension = none)
    (hwet : plan.isDryRun = false) (hpolicy : plan.onCollision = .overwrite) {made : Disk}
    (hmade : d.ensureDirectory (.ofString plan.savePath) = (made, .ok ()))
    (hwhole : ∀ input ∈ plan.inputs, (Yield.ofInput layout made input).error? = none)
    {earlier : List Draft} {draft : Draft}
    (hdrafts : (plan.inputs.map (Yield.ofInput layout made)).flatMap (·.drafts) =
      earlier ++ [draft])
    {name : Name} (hnames : ∀ other ∈ earlier ++ [draft], other.Declares name) {path : Path}
    (hpath : plan.outputPath name = path) {parent : Place} {last : String}
    (hseat : made.Seat path parent last) (hfree : made.isDirectoryAt (last :: parent) = false)
    (hfresh : made.freshFault? path = none) :
    (∃ report, (plan.run layout d).result = .ok report) ∧
      (plan.run layout d).disk.find? (last :: parent) = some (.file draft.text.toUTF8) := by
  have hensured : ((plan.outlet d).ensureDirectory (.ofString plan.savePath)).2 = .ok () := by
    rw [Outlet.ensureDirectory_wet hwet]
    exact congrArg Prod.snd hmade
  obtain rfl : plan.inputDisk d = made := (inputDisk_wet hwet).trans (congrArg Prod.fst hmade)
  have hyields := yields_of_whole hwhole
  have hall : plan.drafts layout d = earlier ++ [draft] := by
    rw [drafts, hyields]
    exact hdrafts
  have haccepts : List.Forall₂ (Outlet.Accepts plan (plan.outlet (plan.inputDisk d)))
      (plan.drafts layout d) ((plan.drafts layout d).map fun _ => name) := by
    rw [List.forall₂_map_right_iff, List.forall₂_same, hall]
    exact fun other hother =>
      Outlet.accepts_of_seat hwet (hnames other hother) hpath hseat hfree hfresh
  have hclear : ∀ y ∈ plan.yields layout d, y.error? = none := by
    rw [hyields]
    intro y hy
    obtain ⟨input, hinput, rfl⟩ := List.mem_map.mp hy
    exact hwhole input hinput
  obtain ⟨hclean, hreport⟩ := run_ok_of_accepts hensured hclear haccepts (.inl hpolicy)
  refine ⟨⟨_, hreport⟩, ?_⟩
  rw [run_eq_ofProgress layout hensured, Outcome.ofProgress_disk]
  rw [progress, hall] at hclean ⊢
  exact find?_after_last hext hwet hclean (hnames draft List.mem_concat_self)
    (fun _ h => by cases h) (hpath ▸ hseat)

end Plan

end TestScaffold
