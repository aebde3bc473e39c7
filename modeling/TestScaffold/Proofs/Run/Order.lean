/-
  TestScaffold/Proofs/Run/Order.lean
  ==================================
  **The order of the inputs does not matter where no names clash.**

  A run with a report has read all its inputs, and the outlet took every draft
  from the start.  So over the inputs in another order it has the same drafts in
  another order, and takes them as well.  If the drafts declare different classes,
  each has a seat of its own, and at the end a seat holds the text of its draft,
  whatever the order was (`Plan.find?_after`).

  The names that count are those that the drafts declare.  For legible classes
  they are the names of the test classes; where they are not, two drafts may go by
  one name although their classes have different ones, and the later one stands
  (`Plan.order_of_strays`).
-/
import Mathlib.Data.List.Nodup
import Mathlib.Data.List.Perm.Basic
import TestScaffold.Proofs.Lists
import TestScaffold.Proofs.Run.Confinement

namespace TestScaffold

open TestScaffold.CSharp

/-- The drafts of a run declare different classes. -/
def Plan.Unclashing (plan : Plan) (layout : Layout) (d : Disk) : Prop :=
  ((plan.drafts layout d).map fun draft => Source.firstClassName draft.text).Nodup

/-! ### Inputs in another order -/

namespace Plan

variable {plan : Plan} {layout : Layout} {d : Disk}

theorem yields_reading_perm {inputs : List String} (hperm : inputs.Perm plan.inputs)
    (h : ∀ y ∈ plan.yields layout d, y.error? = none) :
    ((plan.reading inputs).yields layout d).Perm (plan.yields layout d) := by
  have hone : plan.yields layout d = plan.inputs.map (Yield.ofInput layout (plan.inputDisk d)) :=
    Yield.started_eq_self h
  have hmap := hperm.map (Yield.ofInput layout (plan.inputDisk d))
  rw [← hone] at hmap
  have hall : (plan.reading inputs).yields layout d =
      inputs.map (Yield.ofInput layout (plan.inputDisk d)) :=
    Yield.started_of_whole _ fun y hy => h y (hmap.subset hy)
  rw [hall]
  exact hmap

/-- Over other inputs other drafts are written, in the same way and on the same disk. -/
theorem progress_reading (plan : Plan) (inputs : List String) (layout : Layout) (d : Disk) :
    (plan.reading inputs).progress layout d =
      plan.after (plan.inputDisk d) ((plan.reading inputs).drafts layout d) := rfl

/-! ### What is written -/

/-- **Where no names clash, a place holds the text of the one draft whose seat it is**, and what it
    held if it is no seat. -/
theorem find?_after (hext : Schema.extensionRule plan.extension = none)
    (hwet : plan.isDryRun = false) {made : Disk} {drafts : List Draft}
    (hclean : (plan.after made drafts).errors = [])
    (hnodup : (drafts.map fun draft => Source.firstClassName draft.text).Nodup) (q : Place) :
    (∃ draft ∈ drafts, ∃ name parent last, draft.Declares name ∧
        made.Seat (plan.outputPath name) parent last ∧ q = last :: parent ∧
        (plan.after made drafts).outlet.disk.find? q = some (.file draft.text.toUTF8)) ∨
      (∀ draft ∈ drafts, ∀ name parent last, draft.Declares name →
        made.Seat (plan.outputPath name) parent last → q ≠ last :: parent) ∧
        (plan.after made drafts).outlet.disk.find? q = made.find? q := by
  obtain ⟨log, hlogged, hdrafts, hnames⟩ := exists_log_of_clean hext hwet hclean
  obtain ⟨_, _, halike⟩ := accepts_of_clean_after hclean
  by_cases hseated : ∃ entry ∈ log.written, ∃ parent last,
      made.Seat (plan.outputPath entry.1) parent last ∧ q = last :: parent
  · obtain ⟨entry, hentry, parent, last, hseat, hq⟩ := hseated
    have hmem : entry.2 ∈ drafts := hdrafts ▸ List.mem_map_of_mem hentry
    refine Or.inl ⟨entry.2, hmem, entry.1, parent, last, hnames entry hentry, hseat, hq, ?_⟩
    obtain ⟨before, after, hsplit⟩ := List.append_of_mem hentry
    -- a later draft declares another class
    have hlater : ∀ later ∈ after, later.1 ≠ entry.1 := by
      intro later hlater hsame
      rw [← hdrafts, hsplit, List.map_map, List.map_append, List.map_cons] at hnodup
      have hother := (List.nodup_cons.mp (List.nodup_append.mp hnodup).2.1).1
      have hlaterMem : later ∈ log.written := by
        rw [hsplit]
        exact List.mem_append_right _ (List.mem_cons_of_mem _ hlater)
      refine hother (List.mem_map.mpr ⟨later, hlater, ?_⟩)
      change Source.firstClassName later.2.text = Source.firstClassName entry.2.text
      rw [hnames later hlaterMem, hnames entry hentry, hsame]
    obtain ⟨parent', last', hseat', hfile⟩ := hlogged.latest before entry after hsplit hlater
    obtain ⟨rfl, rfl⟩ := (hlogged.grows.seat hseat).unique hseat'
    rw [hq, hfile]
  · have hentries : ∀ entry ∈ log.written, ∀ parent last,
        made.Seat (plan.outputPath entry.1) parent last → q ≠ last :: parent :=
      fun entry hentry parent last hseat hq =>
        hseated ⟨entry, hentry, parent, last, hseat, hq⟩
    refine Or.inr ⟨fun draft hdraft name parent last hname hseat => ?_, ?_⟩
    · rw [← hdrafts] at hdraft
      obtain ⟨entry, hentry, rfl⟩ := List.mem_map.mp hdraft
      rw [← Except.ok.inj ((hnames entry hentry).symm.trans hname)] at hseat
      exact hentries entry hentry parent last hseat
    · exact hlogged.kept q fun entry hentry parent last hseat =>
        hentries entry hentry parent last (halike.directories.symm.seat hseat)

/-- The same drafts in another order leave the same entries behind. -/
theorem find?_after_perm (hext : Schema.extensionRule plan.extension = none)
    (hwet : plan.isDryRun = false) {made : Disk} {drafts drafts' : List Draft}
    (hperm : drafts'.Perm drafts) (hclean : (plan.after made drafts).errors = [])
    (hclean' : (plan.after made drafts').errors = [])
    (hnodup : (drafts.map fun draft => Source.firstClassName draft.text).Nodup) (q : Place) :
    (plan.after made drafts').outlet.disk.find? q =
      (plan.after made drafts).outlet.disk.find? q := by
  have hnodup' : (drafts'.map fun draft => Source.firstClassName draft.text).Nodup :=
    (hperm.map _).nodup_iff.mpr hnodup
  rcases find?_after hext hwet hclean hnodup q with
      ⟨draft, hdraft, name, parent, last, hname, hseat, hq, hfile⟩ | ⟨hnone, hsame⟩ <;>
    rcases find?_after hext hwet hclean' hnodup' q with
      ⟨draft', hdraft', name', parent', last', hname', hseat', hq', hfile'⟩ | ⟨hnone', hsame'⟩
  · have hnames := eq_of_seat_outputPath hext (Source.slash_notMem_firstClassName hname)
      (Source.slash_notMem_firstClassName hname') hseat hseat' (hq.symm.trans hq')
    have hdrafts : draft = draft' := List.inj_on_of_nodup_map hnodup hdraft (hperm.subset hdraft')
      (hname.trans (hnames ▸ hname'.symm))
    rw [hfile, hfile', hdrafts]
  · exact absurd hq (hnone' draft (hperm.symm.subset hdraft) name parent last hname hseat)
  · exact absurd hq' (hnone draft' (hperm.subset hdraft') name' parent' last' hname' hseat')
  · rw [hsame, hsame']

/-- Drafts that are written without an error, in two orders: each has a name under which it is
    accepted, and the names are in two orders as well. -/
theorem exists_names_of_clean {made : Disk} {drafts drafts' : List Draft}
    (hclean : (plan.after made drafts).errors = [])
    (hnodup : (drafts.map fun draft => Source.firstClassName draft.text).Nodup)
    (hperm : drafts'.Perm drafts) :
    ∃ names names', List.Forall₂ (Outlet.Accepts plan (plan.outlet made)) drafts names ∧
      List.Forall₂ (Outlet.Accepts plan (plan.outlet made)) drafts' names' ∧
      names'.Perm names ∧ names.Nodup := by
  obtain ⟨names, haccepts, _⟩ := accepts_of_clean_after hclean
  obtain ⟨names', haccepts', hnames⟩ := List.perm_comp_forall₂ hperm haccepts
  have hdeclared : drafts.map (fun draft => Source.firstClassName draft.text) =
      names.map Except.ok :=
    map_eq_of_forall₂ haccepts fun _ _ h => h.declares
  rw [hdeclared] at hnodup
  exact ⟨names, names', haccepts, haccepts', hnames, hnodup.of_map⟩

theorem written_after_of_clean (hext : Schema.extensionRule plan.extension = none) {made : Disk}
    {drafts : List Draft} {names : List Name}
    (haccepts : List.Forall₂ (Outlet.Accepts plan (plan.outlet made)) drafts names)
    (hnodup : names.Nodup) (hclean : (plan.after made drafts).errors = []) :
    (plan.after made drafts).written =
      names.map fun (name : Name) => (plan.outputPath name).text := by
  have hwritten := @Progress.written_of_clean plan hext drafts names
    (haccepts.imp fun _ _ h => h.declares) { outlet := plan.outlet made } []
    (fun _ h => by cases h) rfl hclean
  rw [List.nil_append, eraseDups_of_nodup hnodup] at hwritten
  exact hwritten

/-! ### Two runs -/

/-- **The order of the inputs does not matter where no names clash.** A run with a report whose
    drafts declare different classes has a report over the inputs in any order: it counts the same,
    lists the same files in another order, and leaves the same entries behind. -/
theorem run_perm (hext : Schema.extensionRule plan.extension = none) {report : Report}
    (hok : (plan.run layout d).result = .ok report) (hunclashing : plan.Unclashing layout d)
    {inputs : List String} (hperm : inputs.Perm plan.inputs) :
    ∃ report', ((plan.reading inputs).run layout d).result = .ok report' ∧
      report'.filesRead = report.filesRead ∧ report'.unitsGenerated = report.unitsGenerated ∧
      report'.writtenFiles.Perm report.writtenFiles ∧ report'.isDryRun = report.isDryRun ∧
      ((plan.reading inputs).run layout d).disk.here = (plan.run layout d).disk.here ∧
      ∀ q, ((plan.reading inputs).run layout d).disk.find? q = (plan.run layout d).disk.find? q := by
  obtain ⟨hensured, hwhole, hclean⟩ := whole_of_run_ok hok
  have hyields := yields_reading_perm hperm hwhole
  have hwhole' : ∀ y ∈ (plan.reading inputs).yields layout d, y.error? = none :=
    fun y hy => hwhole y (hyields.subset hy)
  have hdrafts : ((plan.reading inputs).drafts layout d).Perm (plan.drafts layout d) :=
    hyields.flatMap_right _
  obtain ⟨names, names', haccepts, haccepts', hnames, hnodup⟩ :=
    exists_names_of_clean hclean hunclashing hdrafts
  -- the drafts of the first run were accepted from the start, so they are in any order
  have hclean' : ((plan.reading inputs).progress layout d).errors = [] :=
    Progress.clean_of_accepts haccepts' (p := { outlet := plan.outlet (plan.inputDisk d) })
      (Outlet.Alike.refl _) (Or.inr ⟨hnames.nodup_iff.mpr hnodup, fun _ _ => rfl⟩)
  have hwritten := written_after_of_clean hext haccepts hnodup hclean
  have hwritten' := written_after_of_clean hext haccepts' (hnames.nodup_iff.mpr hnodup) hclean'
  have hrun := run_eq_ofProgress layout hensured
  have hrun' : (plan.reading inputs).run layout d = _ := run_eq_ofProgress layout hensured
  rw [hrun, Outcome.ofProgress_of_whole hwhole hclean, Except.ok.injEq] at hok
  rw [hrun, hrun', Outcome.ofProgress_of_whole hwhole' hclean', ← hok]
  refine ⟨_, rfl, hyields.length_eq, hdrafts.length_eq, ?_, rfl, ?_, fun q => ?_⟩
  · dsimp only
    rw [progress_reading, progress, hwritten, hwritten']
    exact hnames.map _
  · obtain ⟨_, _, halike⟩ := accepts_of_clean_after hclean
    obtain ⟨_, _, halike'⟩ := accepts_of_clean_after hclean'
    exact halike'.directories.here.trans halike.directories.here.symm
  · rw [Outcome.ofProgress_disk, Outcome.ofProgress_disk]
    by_cases hdry : plan.isDryRun = true
    · have hdry' : (plan.reading inputs).isDryRun = true := hdry
      rw [outlet_progress_dry hdry, outlet_progress_dry hdry']
      rfl
    · exact find?_after_perm hext (Bool.not_eq_true _ ▸ hdry) hdrafts hclean hclean' hunclashing q

/-! ### Names of legible classes -/

/-- Drafts of legible classes of different names declare different classes. -/
theorem unclashing_of_legible (hindent : ∀ ch ∈ layout.indent.toList, isPlainBlank ch = true)
    (units : List (String × Source.File × Source.Class))
    (hunits : List.Forall₂ (fun u draft => Draft.ofClass layout u.1 u.2.1 u.2.2 = .ok draft)
      units (plan.drafts layout d))
    (hlegible : ∀ u ∈ units, u.2.2.Legible u.2.1)
    (hnames : (units.map fun u => u.2.2.name).Nodup) : plan.Unclashing layout d := by
  have hdeclared : units.map (fun u => (Except.ok (Naming.testClassName u.2.2.name) :
      Except SourceError Name)) =
        (plan.drafts layout d).map fun draft => Source.firstClassName draft.text := by
    generalize plan.drafts layout d = drafts at hunits
    induction hunits with
    | nil => rfl
    | @cons u draft units drafts hdraft _ ih =>
      have hname := Draft.declares_of_legible hindent (hlegible u List.mem_cons_self) hdraft
      rw [List.map_cons, List.map_cons,
        ih (fun v hv => hlegible v (List.mem_cons_of_mem _ hv)) hnames.of_cons,
        show Source.firstClassName draft.text = _ from hname]
  have hinjective : Function.Injective fun n : Name =>
      (Except.ok (Naming.testClassName n) : Except SourceError Name) := by
    intro n m h
    have htext : n.text ++ Naming.testsSuffix = m.text ++ Naming.testsSuffix :=
      congrArg Name.text (Except.ok.inj h)
    rw [String.append_left_inj] at htext
    exact Name.text_injective htext
  rw [Unclashing, ← hdeclared]
  have hmap := hnames.map hinjective
  rwa [List.map_map] at hmap

/-! ### Two inputs -/

/-- A disk with a second source beside the first one. -/
def pairDisk : Disk :=
  sourceDisk.put "B.cs" [] (.file "class B{}".toUTF8) sourceDisk.here_isDirectory (by decide)

/-- The disk with the output directory. -/
def pairMade : Disk := (pairDisk.ensureDirectory (.ofString "out")).1

theorem run_perm_pairDisk :
    Schema.extensionRule (sequentially ["A.cs", "B.cs"]).extension = none ∧
      (sequentially ["A.cs", "B.cs"]).Unclashing {} pairDisk ∧
      ["B.cs", "A.cs"].Perm (sequentially ["A.cs", "B.cs"]).inputs ∧
      ∃ report report', ((sequentially ["A.cs", "B.cs"]).run {} pairDisk).result = .ok report ∧
        ((sequentially ["B.cs", "A.cs"]).run {} pairDisk).result = .ok report' ∧
        report'.writtenFiles.Perm report.writtenFiles ∧
        ∀ q, ((sequentially ["B.cs", "A.cs"]).run {} pairDisk).disk.find? q =
          ((sequentially ["A.cs", "B.cs"]).run {} pairDisk).disk.find? q := by
  have hext := (sequential_sequentially ["A.cs", "B.cs"]).extension
  have hindent := List.all_eq_true.mp (by decide : ({} : Layout).indent.toList.all isPlainBlank)
  have hlegibleA : Name.Legible ⟨"A", by decide⟩ :=
    ⟨by decide +kernel, by decide +kernel, by decide +kernel⟩
  have hlegibleB : Name.Legible ⟨"B", by decide⟩ :=
    ⟨by decide +kernel, by decide +kernel, by decide +kernel⟩
  have hreceiverA : (Naming.receiverName "A").Legible :=
    ⟨by decide +kernel, by decide +kernel, by decide +kernel⟩
  have hreceiverB : (Naming.receiverName "B").Legible :=
    ⟨by decide +kernel, by decide +kernel, by decide +kernel⟩
  obtain ⟨a, ha, hdeclareA, hyieldA⟩ := Draft.exists_of_bare pairMade "A.cs" "class A{}"
    (by decide +kernel) (by decide +kernel) hlegibleA hreceiverA
  obtain ⟨b, hb, hdeclareB, hyieldB⟩ := Draft.exists_of_bare pairMade "B.cs" "class B{}"
    (by decide +kernel) (by decide +kernel) hlegibleB hreceiverB
  have hmade : pairDisk.ensureDirectory (.ofString "out") = (pairMade, .ok ()) :=
    Prod.ext rfl (by decide +kernel)
  have hinput : (sequentially ["A.cs", "B.cs"]).inputDisk pairDisk = pairMade := inputDisk_wet rfl
  have hyields : (sequentially ["A.cs", "B.cs"]).yields {} pairDisk =
      [{ drafts := [a] }, { drafts := [b] }] := by
    rw [yields_of_whole] <;> rw [hinput]
    · exact congrArg₂ (fun y z => [y, z]) hyieldA hyieldB
    · intro input hmem
      rcases List.mem_pair.mp hmem with rfl | rfl
      · rw [hyieldA]
      · rw [hyieldB]
  have hdrafts : (sequentially ["A.cs", "B.cs"]).drafts {} pairDisk = [a, b] := by
    rw [drafts, hyields]
    rfl
  have hpathA : (sequentially ["A.cs", "B.cs"]).outputPath (Naming.testClassName "A") =
      ⟨.here, ["out", "ATests.cs"]⟩ :=
    (by decide : Path.ofString "out" ++ Path.ofString "ATests.cs" = ⟨.here, ["out", "ATests.cs"]⟩)
  have hpathB : (sequentially ["A.cs", "B.cs"]).outputPath (Naming.testClassName "B") =
      ⟨.here, ["out", "BTests.cs"]⟩ :=
    (by decide : Path.ofString "out" ++ Path.ofString "BTests.cs" = ⟨.here, ["out", "BTests.cs"]⟩)
  have hseatA : pairMade.Seat ⟨.here, ["out", "ATests.cs"]⟩ ["out"] "ATests.cs" :=
    ⟨by decide +kernel, by decide +kernel, by decide +kernel, by decide, by decide, by decide⟩
  have hseatB : pairMade.Seat ⟨.here, ["out", "BTests.cs"]⟩ ["out"] "BTests.cs" :=
    ⟨by decide +kernel, by decide +kernel, by decide +kernel, by decide, by decide, by decide⟩
  have hacceptA : Outlet.Accepts (sequentially ["A.cs", "B.cs"])
      ((sequentially ["A.cs", "B.cs"]).outlet pairMade) a (Naming.testClassName "A") :=
    Outlet.accepts_of_seat rfl hdeclareA hpathA hseatA (by decide +kernel) (by decide +kernel)
  have hacceptB : Outlet.Accepts (sequentially ["A.cs", "B.cs"])
      ((sequentially ["A.cs", "B.cs"]).outlet pairMade) b (Naming.testClassName "B") :=
    Outlet.accepts_of_seat rfl hdeclareB hpathB hseatB (by decide +kernel) (by decide +kernel)
  have hensured : (((sequentially ["A.cs", "B.cs"]).outlet pairDisk).ensureDirectory
      (.ofString (sequentially ["A.cs", "B.cs"]).savePath)).2 = .ok () := by
    rw [Outlet.ensureDirectory_wet rfl]
    exact congrArg Prod.snd hmade
  have hwhole : ∀ y ∈ (sequentially ["A.cs", "B.cs"]).yields {} pairDisk, y.error? = none := by
    rw [hyields]
    intro y hy
    rcases List.mem_pair.mp hy with rfl | rfl <;> rfl
  have haccepts : List.Forall₂ (Outlet.Accepts (sequentially ["A.cs", "B.cs"])
      ((sequentially ["A.cs", "B.cs"]).outlet ((sequentially ["A.cs", "B.cs"]).inputDisk pairDisk)))
      ((sequentially ["A.cs", "B.cs"]).drafts {} pairDisk)
      [Naming.testClassName "A", Naming.testClassName "B"] := by
    rw [hdrafts, hinput]
    exact .cons hacceptA (.cons hacceptB .nil)
  have hok := (run_ok_of_accepts hensured hwhole haccepts (.inl rfl)).2
  have hunclashing : (sequentially ["A.cs", "B.cs"]).Unclashing {} pairDisk := by
    refine unclashing_of_legible hindent [("A.cs", _, _), ("B.cs", _, _)]
      (by rw [hdrafts]; exact .cons ha (.cons hb .nil)) ?_ (by decide)
    exact List.forall_mem_cons.mpr ⟨Source.Class.legible_bare hlegibleA hreceiverA rfl rfl,
      List.forall_mem_singleton.mpr (Source.Class.legible_bare hlegibleB hreceiverB rfl rfl)⟩
  have hperm : ["B.cs", "A.cs"].Perm (sequentially ["A.cs", "B.cs"]).inputs := .swap _ _ _
  obtain ⟨report', hok', _, _, hwritten, _, _, hfound⟩ := run_perm hext hok hunclashing hperm
  exact ⟨hext, hunclashing, hperm, _, report', hok, hok', hwritten, hfound⟩

/-! ### Two drafts under one name -/

/-- Two classes of different names may be written to one file. Then the order of the inputs tells
which of them stands. -/
theorem order_of_strays :
    (Source.File.ofText strayText).map (·.classes.map (·.name.text)) = .ok ["A"] ∧
      (Source.File.ofText "class B{}").map (·.classes.map (·.name.text)) = .ok ["B"] ∧
      (∃ report, ((sequentially ["A.cs", "B.cs"]).run {} strayDisk).result = .ok report) ∧
      ¬ ∀ q, ((sequentially ["B.cs", "A.cs"]).run {} strayDisk).disk.find? q =
        ((sequentially ["A.cs", "B.cs"]).run {} strayDisk).disk.find? q := by
  refine ⟨classes_strayText, by decide +kernel, ?_⟩
  obtain ⟨a, hdeclareA, hheadA, hyieldA⟩ := exists_strayDraft
  have hreceiverB : (Naming.receiverName "B").Legible :=
    ⟨by decide +kernel, by decide +kernel, by decide +kernel⟩
  have hlegibleB : Name.Legible ⟨"B", by decide⟩ :=
    ⟨by decide +kernel, by decide +kernel, by decide +kernel⟩
  obtain ⟨b, _, hdeclareB, hyieldB⟩ := Draft.exists_of_bare strayMade "B.cs" "class B{}"
    (by decide +kernel) (by decide +kernel) hlegibleB hreceiverB
  have hheadB : b.text.toList.head? = some 'u' := by
    have hheads : (Yield.ofInput {} strayMade "B.cs").drafts.map (·.text.toList.head?) =
        [some 'u'] := by decide +kernel
    rw [hyieldB] at hheads
    exact List.singleton_inj.mp hheads
  have hboth : ∀ other, other = a ∨ other = b → other.Declares strayName := by
    rintro other (rfl | rfl)
    · exact hdeclareA
    · exact hdeclareB
  obtain ⟨hok, hfound⟩ := run_strayDisk ["A.cs", "B.cs"] [a] b
    (by simp [hyieldA, hyieldB]) (by simp [hyieldA, hyieldB]) (by simpa using hboth)
  obtain ⟨_, hfound'⟩ := run_strayDisk ["B.cs", "A.cs"] [b] a
    (by simp [hyieldA, hyieldB]) (by simp [hyieldA, hyieldB])
    (by simpa using fun other h => hboth other (Or.comm.mp h))
  refine ⟨hok, fun hsame => ?_⟩
  have htext : a.text.toUTF8 = b.text.toUTF8 := by
    have hfile := (hfound'.symm.trans (hsame _)).trans hfound
    exact Entry.file.inj (Option.some.inj hfile)
  rw [String.toByteArray_inj.mp htext, hheadB] at hheadA
  cases hheadA

end Plan

end TestScaffold
