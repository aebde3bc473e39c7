/-
  TestScaffold/Proofs/Run/Collisions.lean
  =======================================
  **Where no file may be overwritten, the first draft of a name stands.**

  The first draft that declares a name enters it into the table of origins, and
  goes to the disk whatever became of the drafts before it.  From then on the name
  is taken, even if the disk refused the draft: a later draft of the name leaves
  its collision and nothing else.  As drafts of other names have other seats, the
  file of the first draft keeps its text to the end.
-/
import TestScaffold.Proofs.Run.Log
import TestScaffold.Proofs.Run.Steps

namespace TestScaffold

namespace Progress

variable {plan : Plan}

/-! ### The table of origins -/

/-- A draft is in the table from the moment it is handed over. -/
theorem origin?_put (p : Progress) (name other : Name) (draft : Draft) :
    (p.put plan name draft).origin? other =
      if name = other then some draft.origin else p.origin? other := by
  have horigins : (p.put plan name draft).origins = (name, draft.origin) :: p.origins := by
    cases hwrite : p.outlet.writeText (plan.outputPath name) draft.text with
    | error cause => simp [put, hwrite, fail]
    | ok outlet => simp [put, hwrite]
  rw [origin?, horigins, List.find?_cons]
  by_cases h : name = other
  · simp [h]
  · simp [origin?, h]

/-- A draft without this name leaves its row in the table alone. -/
theorem origin?_step_of_not_declares (p : Progress) {draft : Draft} {name : Name}
    (h : ¬ draft.Declares name) : (p.step plan draft).origin? name = p.origin? name := by
  rcases step_cases plan p draft with ⟨e, he⟩ | ⟨declared, more, hdeclared, hput⟩
  · rw [he]
    rfl
  · have hne : declared ≠ name := fun heq => h (heq ▸ hdeclared)
    rw [show p.step plan draft = _ from hput p.outlet, origin?_put, if_neg hne]
    rfl

theorem step_of_free {p : Progress} {draft : Draft} {name : Name} (hname : draft.Declares name)
    (hfree : p.origin? name = none) : p.step plan draft = p.put plan name draft := by
  simp only [step, show Source.firstClassName draft.text = .ok name from hname, hfree]

/-- A later draft of a name leaves its collision and nothing else. -/
theorem step_of_taken (hpolicy : plan.onCollision = .error) {p : Progress} {draft : Draft}
    {name : Name} {first : String} (hname : draft.Declares name)
    (htaken : p.origin? name = some first) :
    p.step plan draft =
      p.fail (.write (.collision ⟨plan.outputPath name, first, draft.origin⟩)) := by
  simp only [step, show Source.firstClassName draft.text = .ok name from hname, htaken, hpolicy]

theorem origin?_steps_of_not_declares {drafts : List Draft} {name : Name}
    (h : ∀ draft ∈ drafts, ¬ draft.Declares name) :
    ∀ p : Progress, (p.steps plan drafts).origin? name = p.origin? name := by
  induction drafts with
  | nil => exact fun _ => rfl
  | cons draft rest ih =>
    intro p
    have hrest := ih (fun other hother => h other (List.mem_cons_of_mem _ hother))
      (p.step plan draft)
    exact hrest.trans (origin?_step_of_not_declares p (h draft List.mem_cons_self))

/-- The first origin of a name stays in the table. -/
theorem origin?_step_of_taken (hpolicy : plan.onCollision = .error) {p : Progress} {name : Name}
    {first : String} (htaken : p.origin? name = some first) (draft : Draft) :
    (p.step plan draft).origin? name = some first := by
  by_cases hname : draft.Declares name
  · rw [step_of_taken hpolicy hname htaken]
    exact htaken
  · rw [origin?_step_of_not_declares p hname]
    exact htaken

theorem origin?_steps_of_taken (hpolicy : plan.onCollision = .error) {name : Name}
    {first : String} (drafts : List Draft) :
    ∀ {p : Progress}, p.origin? name = some first →
      (p.steps plan drafts).origin? name = some first := by
  induction drafts with
  | nil => exact fun htaken => htaken
  | cons draft rest ih => exact fun htaken => ih (origin?_step_of_taken hpolicy htaken draft)

/-! ### The file of the first draft -/

/-- The name is taken, and its file holds this text. -/
structure Holds (plan : Plan) (name : Name) (text : String) (p : Progress) : Prop where
  wet : p.outlet.isDryRun = false
  taken : ∃ first, p.origin? name = some first
  stored : ∃ parent last, p.outlet.disk.Seat (plan.outputPath name) parent last ∧
    p.outlet.disk.find? (last :: parent) = some (.file text.toUTF8)

/-- A draft of the same name is not written, and one of another name has another seat. -/
theorem Holds.step (hpolicy : plan.onCollision = .error)
    (hext : Schema.extensionRule plan.extension = none) {name : Name}
    (hslash : '/' ∉ name.text.toList) {text : String} {p : Progress}
    (h : Holds plan name text p) (draft : Draft) : Holds plan name text (p.step plan draft) := by
  obtain ⟨first, htaken⟩ := h.taken
  obtain ⟨parent, last, hseat, hfile⟩ := h.stored
  by_cases hname : draft.Declares name
  · rw [step_of_taken hpolicy hname htaken]
    exact ⟨h.wet, h.taken, h.stored⟩
  · have htaken' := origin?_step_of_taken hpolicy htaken draft
    rcases outlet_step plan p draft with hsame | ⟨other, hother, hwrite⟩
    · exact ⟨by rw [hsame]; exact h.wet, ⟨first, htaken'⟩, by rw [hsame]; exact h.stored⟩
    · obtain ⟨hwet, hput⟩ := Outlet.writeText_ok h.wet hwrite
      obtain ⟨parent', last', hseat', hfiled⟩ := Disk.writeText_ok hput
      have hplace : last :: parent ≠ last' :: parent' := by
        intro heq
        have hsame := Plan.eq_of_seat_outputPath hext hslash
          (Source.slash_notMem_firstClassName hother) hseat hseat' heq
        exact hname (hsame ▸ hother)
      exact ⟨hwet, ⟨first, htaken'⟩, parent, last, hfiled.grows.seat hseat, by
        rw [hfiled.found, if_neg hplace]
        exact hfile⟩

theorem Holds.steps (hpolicy : plan.onCollision = .error)
    (hext : Schema.extensionRule plan.extension = none) {name : Name}
    (hslash : '/' ∉ name.text.toList) {text : String} (drafts : List Draft) :
    ∀ {p : Progress}, Holds plan name text p → Holds plan name text (p.steps plan drafts) := by
  induction drafts with
  | nil => exact fun h => h
  | cons draft rest ih => exact fun h => ih (h.step hpolicy hext hslash draft)

/-- The name of a draft that is written holds its text. -/
theorem holds_put {p : Progress} {name : Name} {draft : Draft} {d : Disk}
    (hwet : p.outlet.isDryRun = false)
    (hwritten : p.outlet.disk.writeText (plan.outputPath name) draft.text = .ok d) :
    (p.put plan name draft).outlet.disk = d ∧ (p.put plan name draft).errors = p.errors ∧
      Holds plan name draft.text (p.put plan name draft) := by
  have hwrite : p.outlet.writeText (plan.outputPath name) draft.text =
      .ok { p.outlet with disk := d } := by
    rw [Outlet.writeText_wet hwet, hwritten]
    rfl
  obtain ⟨houtlet, herrors⟩ := put_of_written hwrite
  obtain ⟨parent, last, hseat, hfiled⟩ := Disk.writeText_ok hwritten
  refine ⟨by rw [houtlet], herrors, by rw [houtlet]; exact hwet, ⟨draft.origin, ?_⟩, parent, last,
    ?_, ?_⟩
  · rw [origin?_put, if_pos rfl]
  · rw [houtlet]
    exact hfiled.grows.seat hseat
  · rw [houtlet]
    exact (hfiled.found _).trans (if_pos rfl)

/-- The file that a name holds can be read. -/
theorem Holds.read {name : Name} {text : String} {p : Progress} (h : Holds plan name text p) :
    p.outlet.disk.read (plan.outputPath name) = .ok text.toUTF8 := by
  obtain ⟨parent, last, hseat, hfile⟩ := h.stored
  exact hseat.read hfile

end Progress

/-! ### Drafts one after the other -/

namespace Plan

variable {plan : Plan} {made : Disk}

theorem after_append (plan : Plan) (made : Disk) (before after : List Draft) :
    plan.after made (before ++ after) = (plan.after made before).steps plan after :=
  List.foldl_append ..

theorem after_wet (hwet : plan.isDryRun = false) (made : Disk) (drafts : List Draft) :
    (plan.after made drafts).outlet.isDryRun = false := by
  refine Progress.steps_outlet (P := fun o => o.isDryRun = false) ?_ hwet
  intro draft _ name _ o o' hwet hwrite
  exact (Outlet.writeText_ok hwet hwrite).1

/-- The table has the origin of the first draft of a name. -/
theorem origin?_after (hpolicy : plan.onCollision = .error) {name : Name}
    {earlier between : List Draft} {first : Draft} (hfirst : first.Declares name)
    (hearlier : ∀ other ∈ earlier, ¬ other.Declares name) :
    (plan.after made (earlier ++ first :: between)).origin? name = some first.origin := by
  have hfree : (plan.after made earlier).origin? name = none :=
    Progress.origin?_steps_of_not_declares hearlier _
  have htaken : ((plan.after made earlier).step plan first).origin? name = some first.origin := by
    rw [Progress.step_of_free hfirst hfree, Progress.origin?_put, if_pos rfl]
  rw [after_append]
  exact Progress.origin?_steps_of_taken hpolicy between htaken

/-- A name without a draft so far is free, so its first draft goes to the disk. -/
theorem after_concat_of_free (plan : Plan) (made : Disk) {name : Name} {before : List Draft} {draft : Draft}
    (hname : draft.Declares name) (hfree : ∀ other ∈ before, ¬ other.Declares name) :
    plan.after made (before ++ [draft]) = (plan.after made before).put plan name draft := by
  have hnone : (plan.after made before).origin? name = none :=
    Progress.origin?_steps_of_not_declares hfree _
  rw [after_append]
  exact Progress.step_of_free hname hnone

/-- **Where no file may be overwritten, only the first draft of a name goes to the disk.** A later
    one leaves its collision, which tells the path and both origins. The first one is written or
    refused, whatever became of the drafts before it; if it is written, its file keeps its text. -/
theorem first_draft_stands (hwet : plan.isDryRun = false)
    (hpolicy : plan.onCollision = .error)
    (hext : Schema.extensionRule plan.extension = none) (made : Disk) (before after : List Draft)
    {draft : Draft} {name : Name} (hname : draft.Declares name) :
    (∀ earlier first between, before = earlier ++ first :: between → first.Declares name →
      (∀ other ∈ earlier, ¬ other.Declares name) →
        ∃ collision : RunError,
          plan.after made (before ++ [draft]) = (plan.after made before).fail collision ∧
          collision.detail = .located "WriteError"
            ("Output collision: " ++ ((plan.outputPath name).text ++ " generated from both " ++
              first.origin ++ " and " ++ draft.origin))
            (some (plan.outputPath name).text)) ∧
      ((∀ other ∈ before, ¬ other.Declares name) →
        (∀ cause, (plan.after made before).outlet.disk.writeText (plan.outputPath name)
            draft.text = .error cause →
          (plan.after made (before ++ [draft])).outlet = (plan.after made before).outlet ∧
          (plan.after made (before ++ [draft])).errors =
            (plan.after made before).errors ++ [.write cause]) ∧
        ∀ disk, (plan.after made before).outlet.disk.writeText (plan.outputPath name)
            draft.text = .ok disk →
          (plan.after made (before ++ [draft])).outlet.disk = disk ∧
          (plan.after made (before ++ [draft])).errors = (plan.after made before).errors ∧
          (plan.after made (before ++ draft :: after)).outlet.disk.read (plan.outputPath name) =
            .ok draft.text.toUTF8) := by
  have hoffered := after_wet hwet made before
  refine ⟨?_, fun hfree => ⟨fun cause hrefused => ?_, fun disk hwritten => ?_⟩⟩
  · rintro earlier first between rfl hfirst hearlier
    refine ⟨.write (.collision ⟨plan.outputPath name, first.origin, draft.origin⟩), ?_, rfl⟩
    rw [after_append]
    exact Progress.step_of_taken hpolicy hname (origin?_after hpolicy hfirst hearlier)
  · have hwrite : (plan.after made before).outlet.writeText (plan.outputPath name) draft.text =
        .error cause := by
      rw [Outlet.writeText_wet hoffered, hrefused]
      rfl
    rw [after_concat_of_free plan made hname hfree]
    exact Progress.put_of_refused hwrite
  · have hdraft := after_concat_of_free plan made hname hfree
    obtain ⟨hdisk, herrors, hholds⟩ := Progress.holds_put hoffered hwritten
    refine ⟨by rw [hdraft, hdisk], by rw [hdraft, herrors], ?_⟩
    rw [List.append_cons, after_append, hdraft]
    exact (hholds.steps hpolicy hext (Source.slash_notMem_firstClassName hname) after).read

/-- A plan under which no file may be overwritten. -/
def strictly : Plan := { sequentially [] with onCollision := .error }

theorem first_draft_stands_outDisk :
    Draft.Declares ⟨"A.cs", "class A{}"⟩ ⟨"A", by decide⟩ ∧
      Draft.Declares ⟨"B.cs", "class A{ }"⟩ ⟨"A", by decide⟩ ∧
      (∃ collision : RunError,
        strictly.after outDisk ([⟨"A.cs", "class A{}"⟩] ++ [⟨"B.cs", "class A{ }"⟩]) =
          (strictly.after outDisk [⟨"A.cs", "class A{}"⟩]).fail collision ∧
        collision.detail = .located "WriteError"
          "Output collision: out/A.cs generated from both A.cs and B.cs" (some "out/A.cs")) ∧
      (strictly.after outDisk
          ([] ++ ⟨"A.cs", "class A{}"⟩ :: [⟨"B.cs", "class A{ }"⟩])).outlet.disk.read
        (.ofString "out/A.cs") = .ok "class A{}".toUTF8 := by
  have hfirst : Draft.Declares ⟨"A.cs", "class A{}"⟩ ⟨"A", by decide⟩ := by
    unfold Draft.Declares
    decide +kernel
  have hsecond : Draft.Declares ⟨"B.cs", "class A{ }"⟩ ⟨"A", by decide⟩ := by
    unfold Draft.Declares
    decide +kernel
  have hext : Schema.extensionRule strictly.extension = none :=
    (sequential_sequentially []).extension
  have haccepts : (outDisk.writeText (strictly.outputPath "A") "class A{}").toOption.isSome =
      true := by decide +kernel
  obtain ⟨disk, hwritten⟩ : ∃ disk, outDisk.writeText (strictly.outputPath "A") "class A{}" =
      .ok disk := by
    cases hwrite : outDisk.writeText (strictly.outputPath "A") "class A{}" with
    | ok disk => exact ⟨disk, rfl⟩
    | error cause => rw [hwrite] at haccepts; cases haccepts
  obtain ⟨collision, hstep, hdetail⟩ := (first_draft_stands rfl rfl hext outDisk
    [⟨"A.cs", "class A{}"⟩] [] hsecond).1 [] _ [] rfl hfirst (fun _ h => by cases h)
  obtain ⟨_, _, hread⟩ := ((first_draft_stands rfl rfl hext outDisk [] [⟨"B.cs", "class A{ }"⟩]
    hfirst).2 (fun _ h => by cases h)).2 disk hwritten
  exact ⟨hfirst, hsecond, ⟨collision, hstep, hdetail⟩, hread⟩

end Plan

end TestScaffold
