/-
  TestScaffold/Proofs/Run/Log.lean
  ================================
  **The log of a run: what becomes of every draft.**

  Every draft has one fate: its text cannot be read back, its name is taken, the
  disk refuses it, or it is written.  A log lists drafts with their fates, in
  order.  `Logged` says what a log tells of the progress made: the errors, the
  table of origins, the overwritings, the paths written, and the disk.

  A step adds one entry to the log (`logged_step`), so drafts that are taken
  further one after the other have a log with one entry each (`logged_steps`).
  Everything that is said of a run is read off its log.
-/
import Mathlib.Data.List.Basic
import TestScaffold.Proofs.Lists
import TestScaffold.Proofs.Run.OutputPath

namespace TestScaffold

/-! ### Fates -/

/-- What becomes of a draft. -/
inductive Fate where
  /-- The text of the draft cannot be read back. -/
  | unreadable (cause : SourceError)
  /-- The name of the draft is taken, and no file may be overwritten. -/
  | collided (cause : Collision)
  /-- The disk refuses the draft. -/
  | refused (name : Name) (cause : WriteError)
  | written (name : Name)

namespace Fate

/-- The error that a fate leaves. -/
def error? : Fate → Option RunError
  | unreadable cause => some (.unreadable cause)
  | collided cause => some (.write (.collision cause))
  | refused _ cause => some (.write cause)
  | written _ => none

/-- The name under which a draft was handed to the disk. -/
def handed? : Fate → Option Name
  | refused name _ => some name
  | written name => some name
  | _ => none

/-- The name under which a draft was written. -/
def written? : Fate → Option Name
  | written name => some name
  | _ => none

end Fate

/-- Drafts with their fates, in order. -/
abbrev Log := List (Draft × Fate)

namespace Log

/-- The drafts handed to the disk, with their names. -/
def handed (log : Log) : List (Name × Draft) :=
  log.filterMap fun entry => entry.2.handed?.map (·, entry.1)

/-- The drafts written, with their names. -/
def written (log : Log) : List (Name × Draft) :=
  log.filterMap fun entry => entry.2.written?.map (·, entry.1)

/-- The errors that a log leaves. -/
def errors (log : Log) : List RunError := log.filterMap (·.2.error?)

theorem handed_append (log more : Log) : (log ++ more).handed = log.handed ++ more.handed :=
  List.filterMap_append ..

theorem written_append (log more : Log) : (log ++ more).written = log.written ++ more.written :=
  List.filterMap_append ..

theorem errors_append (log more : Log) : (log ++ more).errors = log.errors ++ more.errors :=
  List.filterMap_append ..

theorem mem_handed_of_mem_written {log : Log} {entry : Name × Draft} (h : entry ∈ log.written) :
    entry ∈ log.handed := by
  simp only [written, handed, List.mem_filterMap] at h ⊢
  obtain ⟨⟨draft, fate⟩, hmem, heq⟩ := h
  refine ⟨(draft, fate), hmem, ?_⟩
  cases fate with
  | written name => exact heq
  | unreadable cause => cases heq
  | collided cause => cases heq
  | refused name cause => cases heq

end Log

/-- The draft may be handed to the disk under its name, given the log of the drafts before it:
    its text declares a class of that name, and the name is free or may be overwritten. -/
def Admits (plan : Plan) (before : Log) (draft : Draft) (name : Name) : Prop :=
  Source.firstClassName draft.text = .ok name ∧
    (plan.onCollision = .error → ∀ first, (name, first) ∉ before.handed)

/-- Why a draft has its fate, given the log of the drafts before it. A refusal comes from a disk
    that has grown out of the one with the output directory. -/
def Fate.Explained (plan : Plan) (made : Disk) (before : Log) (draft : Draft) : Fate → Prop
  | unreadable cause => Source.firstClassName draft.text = .error cause
  | collided cause => plan.onCollision = .error ∧ ∃ name first,
      Source.firstClassName draft.text = .ok name ∧ (name, first) ∈ before.handed ∧
        cause = ⟨plan.outputPath name, first.origin, draft.origin⟩
  | refused name cause => Admits plan before draft name ∧
      ∃ d, made.Grows d ∧ d.writeText (plan.outputPath name) draft.text = .error cause
  | written name => Admits plan before draft name

/-- The overwritings among drafts handed to the disk: one for every draft whose name was handed
    over before, with the nearest earlier draft of that name as the first of the two. -/
def overwritings (plan : Plan) (handed : List (Name × Draft)) : List Collision :=
  handed.zipIdx.filterMap fun (entry, i) =>
    ((handed.take i).reverse.find? (·.1 = entry.1)).map fun first =>
      ⟨plan.outputPath entry.1, first.2.origin, entry.2.origin⟩

theorem overwritings_concat (plan : Plan) (handed : List (Name × Draft)) (entry : Name × Draft) :
    overwritings plan (handed ++ [entry]) = overwritings plan handed ++
      ((handed.reverse.find? (·.1 = entry.1)).map fun first =>
        (⟨plan.outputPath entry.1, first.2.origin, entry.2.origin⟩ : Collision)).toList := by
  unfold overwritings
  rw [List.zipIdx_append, List.filterMap_append]
  congr 1
  · refine List.filterMap_congr ?_
    rintro ⟨e, i⟩ hmem
    have hi : i < handed.length := by
      have := List.snd_lt_of_mem_zipIdx hmem
      omega
    simp only [List.take_append_of_le_length (Nat.le_of_lt hi)]
  · simp only [Nat.zero_add, List.zipIdx_singleton, List.filterMap_cons, List.filterMap_nil,
      List.take_left]
    cases handed.reverse.find? (·.1 = entry.1) <;> rfl

/-! ### What a log tells of the progress -/

/-- A log of everything that happened since the output directory was there. -/
structure Logged (plan : Plan) (made : Disk) (log : Log) (p : Progress) : Prop where
  wet : p.outlet.isDryRun = false
  explained : ∀ before draft fate after, log = before ++ (draft, fate) :: after →
    fate.Explained plan made before draft
  named : ∀ entry ∈ log.handed, Source.firstClassName entry.2.text = .ok entry.1
  errors : p.errors = log.errors
  origins : p.origins = log.handed.reverse.map fun entry => (entry.1, entry.2.origin)
  overwritten : p.overwritings = overwritings plan log.handed
  paths : p.written =
    (log.written.map (·.1)).eraseDups.map fun (name : Name) => (plan.outputPath name).text
  grows : made.Grows p.outlet.disk
  seated : ∀ entry ∈ log.written, ∃ parent last,
    p.outlet.disk.Seat (plan.outputPath entry.1) parent last
  kept : ∀ q, (∀ entry ∈ log.written, ∀ parent last,
      p.outlet.disk.Seat (plan.outputPath entry.1) parent last → q ≠ last :: parent) →
    p.outlet.disk.find? q = made.find? q
  latest : ∀ before entry after, log.written = before ++ entry :: after →
    (∀ later ∈ after, later.1 ≠ entry.1) →
      ∃ parent last, p.outlet.disk.Seat (plan.outputPath entry.1) parent last ∧
        p.outlet.disk.find? (last :: parent) = some (.file entry.2.text.toUTF8)

theorem Logged.start (plan : Plan) (made : Disk) :
    Logged plan made [] { outlet := { disk := made } } where
  wet := rfl
  explained := by
    intro before draft fate after h
    exact absurd h (by simp)
  named := by
    intro entry h
    cases h
  errors := rfl
  origins := rfl
  overwritten := rfl
  paths := rfl
  grows := Disk.Grows.refl made
  seated := by
    intro entry h
    cases h
  kept := fun _ _ => rfl
  latest := by
    intro before entry after h
    exact absurd h (by simp [Log.written])

theorem explained_concat {plan : Plan} {made : Disk} {log : Log} {u : Draft} {f : Fate}
    (h : ∀ before draft fate after, log = before ++ (draft, fate) :: after →
      fate.Explained plan made before draft) (hf : f.Explained plan made log u) :
    ∀ before draft fate after, log ++ [(u, f)] = before ++ (draft, fate) :: after →
      fate.Explained plan made before draft := by
  intro before draft fate after hsplit
  rcases concat_eq_append_cons hsplit with ⟨_, rfl, heq⟩ | ⟨rest, _, hlog⟩
  · cases heq
    exact hf
  · exact h before draft fate rest hlog

/-! ### Steps -/

/-- The origin that the table gives for a name is that of the latest draft handed over. -/
theorem Logged.origin?_eq {plan : Plan} {made : Disk} {log : Log} {p : Progress}
    (h : Logged plan made log p) (name : Name) :
    p.origin? name = (log.handed.reverse.find? (·.1 = name)).map (·.2.origin) := by
  unfold Progress.origin?
  rw [h.origins, List.find?_map, Option.map_map]
  rfl

/-- A draft that is not handed to the disk leaves its error and nothing else. -/
theorem Logged.fail {plan : Plan} {made : Disk} {log : Log} {p : Progress} {draft : Draft}
    {fate : Fate} {e : RunError} (h : Logged plan made log p)
    (hexplained : fate.Explained plan made log draft) (herror : fate.error? = some e)
    (hhanded : fate.handed? = none) : Logged plan made (log ++ [(draft, fate)]) (p.fail e) := by
  have hwritten : fate.written? = none := by
    cases fate with
    | written name => cases hhanded
    | unreadable cause => rfl
    | collided cause => rfl
    | refused name cause => rfl
  have hsameHanded : (log ++ [(draft, fate)]).handed = log.handed := by
    rw [Log.handed_append]
    simp [Log.handed, hhanded]
  have hsameWritten : (log ++ [(draft, fate)]).written = log.written := by
    rw [Log.written_append]
    simp [Log.written, hwritten]
  exact {
    wet := h.wet
    explained := explained_concat h.explained hexplained
    named := by rw [hsameHanded]; exact h.named
    errors := by
      rw [Log.errors_append, ← h.errors]
      simp [Progress.fail, Log.errors, herror]
    origins := by rw [hsameHanded]; exact h.origins
    overwritten := by rw [hsameHanded]; exact h.overwritten
    paths := by rw [hsameWritten]; exact h.paths
    grows := h.grows
    seated := by rw [hsameWritten]; exact h.seated
    kept := by rw [hsameWritten]; exact h.kept
    latest := by rw [hsameWritten]; exact h.latest }

/-- A draft that the disk refuses is in the table of origins, and leaves its error. -/
theorem Logged.refuse {plan : Plan} {made : Disk} {log : Log} {p : Progress} {draft : Draft}
    {name : Name} {cause : WriteError} (h : Logged plan made log p)
    (hadmits : Admits plan log draft name)
    (hrefused : p.outlet.disk.writeText (plan.outputPath name) draft.text = .error cause) :
    Logged plan made (log ++ [(draft, .refused name cause)])
      { p with
        origins := (name, draft.origin) :: p.origins
        overwritings := overwritings plan (log.handed ++ [(name, draft)])
        errors := p.errors ++ [.write cause] } := by
  have hhanded : (log ++ [(draft, Fate.refused name cause)]).handed =
      log.handed ++ [(name, draft)] := by rw [Log.handed_append]; rfl
  have hsameWritten : (log ++ [(draft, Fate.refused name cause)]).written = log.written := by
    rw [Log.written_append]
    simp [Log.written, Fate.written?]
  exact {
    wet := h.wet
    explained := explained_concat h.explained ⟨hadmits, p.outlet.disk, h.grows, hrefused⟩
    named := by
      intro entry hentry
      rw [hhanded, List.mem_append, List.mem_singleton] at hentry
      rcases hentry with hentry | rfl
      · exact h.named entry hentry
      · exact hadmits.1
    errors := by rw [Log.errors_append, ← h.errors]; rfl
    origins := by rw [hhanded, List.reverse_concat, List.map_cons, ← h.origins]
    overwritten := by rw [hhanded]
    paths := by rw [hsameWritten]; exact h.paths
    grows := h.grows
    seated := by rw [hsameWritten]; exact h.seated
    kept := by rw [hsameWritten]; exact h.kept
    latest := by rw [hsameWritten]; exact h.latest }

/-- The names of drafts that were handed over have no slash. -/
theorem Logged.slash_notMem {plan : Plan} {made : Disk} {log : Log} {p : Progress}
    (h : Logged plan made log p) {entry : Name × Draft} (hentry : entry ∈ log.written) :
    '/' ∉ entry.1.text.toList :=
  Source.slash_notMem_firstClassName (h.named entry (Log.mem_handed_of_mem_written hentry))

/-- A path is listed once: with the first draft of its name that is written. -/
theorem Logged.paths_concat {plan : Plan} {made : Disk} {log : Log} {p : Progress} {name : Name}
    (hext : Schema.extensionRule plan.extension = none) (h : Logged plan made log p)
    (hslash : '/' ∉ name.text.toList) (draft : Draft) :
    (if p.written.contains (plan.outputPath name).text then p.written
      else p.written ++ [(plan.outputPath name).text]) =
        ((log.written ++ [(name, draft)]).map (·.1)).eraseDups.map
          fun (name : Name) => (plan.outputPath name).text := by
  rw [List.map_append, h.paths]
  refine Plan.listed_concat hext (fun other hother => ?_) hslash
  obtain ⟨entry, hentry, rfl⟩ := List.mem_map.mp hother
  exact h.slash_notMem hentry

/-- **A draft that is written** is in the table of origins, has its path among the written ones,
    and sets one seat of the disk. -/
theorem Logged.write {plan : Plan} {made d' : Disk} {log : Log} {p : Progress} {draft : Draft}
    {name : Name} (hext : Schema.extensionRule plan.extension = none)
    (h : Logged plan made log p) (hadmits : Admits plan log draft name)
    (hput : p.outlet.disk.writeText (plan.outputPath name) draft.text = .ok d') :
    Logged plan made (log ++ [(draft, .written name)])
      { p with
        outlet := { p.outlet with disk := d' }
        origins := (name, draft.origin) :: p.origins
        overwritings := overwritings plan (log.handed ++ [(name, draft)])
        written :=
          if p.written.contains (plan.outputPath name).text then p.written
          else p.written ++ [(plan.outputPath name).text] } := by
  have hhanded : (log ++ [(draft, Fate.written name)]).handed = log.handed ++ [(name, draft)] := by
    rw [Log.handed_append]; rfl
  have hwritten : (log ++ [(draft, Fate.written name)]).written =
      log.written ++ [(name, draft)] := by rw [Log.written_append]; rfl
  have hslash : '/' ∉ name.text.toList := Source.slash_notMem_firstClassName hadmits.1
  obtain ⟨parent, last, hseat, hfiled⟩ := Disk.writeText_ok hput
  have hseat' := hfiled.grows.seat hseat
  exact {
    wet := h.wet
    explained := explained_concat h.explained hadmits
    named := by
      intro entry hentry
      rw [hhanded, List.mem_append, List.mem_singleton] at hentry
      rcases hentry with hentry | rfl
      · exact h.named entry hentry
      · exact hadmits.1
    errors := by
      rw [Log.errors_append, ← h.errors]
      exact (List.append_nil _).symm
    origins := by rw [hhanded, List.reverse_concat, List.map_cons, ← h.origins]
    overwritten := by rw [hhanded]
    paths := by
      rw [hwritten]
      exact h.paths_concat hext hslash draft
    grows := h.grows.trans hfiled.grows
    seated := by
      intro entry hentry
      rw [hwritten, List.mem_append, List.mem_singleton] at hentry
      rcases hentry with hentry | rfl
      · obtain ⟨q, l, hq⟩ := h.seated entry hentry
        exact ⟨q, l, hfiled.grows.seat hq⟩
      · exact ⟨parent, last, hseat'⟩
    kept := by
      intro q hq
      have hnew : q ≠ last :: parent := by
        refine hq (name, draft) ?_ parent last hseat'
        rw [hwritten]
        exact List.mem_concat_self
      rw [hfiled.found, if_neg hnew]
      refine h.kept q fun entry hentry par l hs => ?_
      refine hq entry ?_ par l (hfiled.grows.seat hs)
      rw [hwritten]
      exact List.mem_append_left _ hentry
    latest := by
      intro before entry after hsplit hlater
      rw [hwritten] at hsplit
      rcases concat_eq_append_cons hsplit with ⟨_, _, rfl⟩ | ⟨rest, rfl, hrest⟩
      · exact ⟨parent, last, hseat', by rw [hfiled.found, if_pos rfl]⟩
      · obtain ⟨q, l, hs, hfile⟩ := h.latest before entry rest hrest
          fun later hmem => hlater later (List.mem_append_left _ hmem)
        refine ⟨q, l, hfiled.grows.seat hs, ?_⟩
        have hentry : entry ∈ log.written := by
          rw [hrest]
          exact List.mem_append_right _ List.mem_cons_self
        have hother : l :: q ≠ last :: parent := fun hsame =>
          hlater (name, draft) List.mem_concat_self
            (Plan.eq_of_seat_outputPath hext hslash (h.slash_notMem hentry) hseat hs hsame.symm)
        rw [hfiled.found, if_neg hother]
        exact hfile }

/-- A draft that is handed over is refused or written. -/
theorem Logged.put {plan : Plan} {made : Disk} {log : Log} {p : Progress} (draft : Draft)
    {name : Name} (hext : Schema.extensionRule plan.extension = none)
    (h : Logged plan made log p) (hadmits : Admits plan log draft name) :
    ∃ fate, Logged plan made (log ++ [(draft, fate)])
      (({ p with overwritings := overwritings plan (log.handed ++ [(name, draft)]) } :
        Progress).put plan name draft) := by
  have houtlet : p.outlet.writeText (plan.outputPath name) draft.text =
      (p.outlet.disk.writeText (plan.outputPath name) draft.text).map
        fun disk => { p.outlet with disk } := by
    unfold Outlet.writeText
    rw [if_neg (by rw [h.wet]; decide)]
  cases hput : p.outlet.disk.writeText (plan.outputPath name) draft.text with
  | error cause =>
    refine ⟨.refused name cause, ?_⟩
    simp only [Progress.put, houtlet, hput]
    exact h.refuse hadmits hput
  | ok d' =>
    refine ⟨.written name, ?_⟩
    simp only [Progress.put, houtlet, hput]
    exact h.write hext hadmits hput

/-- **A step adds one entry to the log.** -/
theorem logged_step {plan : Plan} {made : Disk} {log : Log} {p : Progress}
    (hext : Schema.extensionRule plan.extension = none) (h : Logged plan made log p)
    (draft : Draft) : ∃ fate, Logged plan made (log ++ [(draft, fate)]) (p.step plan draft) := by
  cases hname : Source.firstClassName draft.text with
  | error cause =>
    simp only [Progress.step, hname]
    exact ⟨.unreadable cause, h.fail hname rfl rfl⟩
  | ok name =>
    have horigin := h.origin?_eq name
    cases hfind : log.handed.reverse.find? (·.1 = name) with
    | none =>
      rw [hfind] at horigin
      have hfree : ∀ first, (name, first) ∉ log.handed := by
        intro first hmem
        have hnone := List.find?_eq_none.mp hfind (name, first) (List.mem_reverse.mpr hmem)
        simp at hnone
      have hover : p.overwritings = overwritings plan (log.handed ++ [(name, draft)]) := by
        rw [overwritings_concat, hfind, ← h.overwritten]
        exact (List.append_nil _).symm
      obtain ⟨fate, hfate⟩ := h.put draft hext ⟨hname, fun _ => hfree⟩
      refine ⟨fate, ?_⟩
      rw [← hover] at hfate
      simp only [Progress.step, hname, horigin, Option.map_none]
      exact hfate
    | some first =>
      rw [hfind] at horigin
      have hfirst : first.1 = name := by simpa using List.find?_some hfind
      have hmem : (name, first.2) ∈ log.handed := by
        rw [← hfirst]
        exact List.mem_reverse.mp (List.mem_of_find?_eq_some hfind)
      cases hpolicy : plan.onCollision with
      | error =>
        simp only [Progress.step, hname, horigin, Option.map_some, hpolicy]
        exact ⟨.collided _, h.fail ⟨hpolicy, name, first.2, hname, hmem, rfl⟩ rfl rfl⟩
      | overwrite =>
        have hover : p.overwritings ++ [⟨plan.outputPath name, first.2.origin, draft.origin⟩] =
            overwritings plan (log.handed ++ [(name, draft)]) := by
          rw [overwritings_concat, hfind, ← h.overwritten]
          rfl
        obtain ⟨fate, hfate⟩ := h.put draft hext
          ⟨hname, fun herror => by rw [hpolicy] at herror; cases herror⟩
        refine ⟨fate, ?_⟩
        rw [← hover] at hfate
        simp only [Progress.step, hname, horigin, Option.map_some, hpolicy]
        exact hfate

/-- **Drafts that are taken further have a log with one entry each.** -/
theorem logged_steps {plan : Plan} {made : Disk}
    (hext : Schema.extensionRule plan.extension = none) (drafts : List Draft) :
    ∀ {log : Log} {p : Progress}, Logged plan made log p →
      ∃ more : Log, more.map (·.1) = drafts ∧
        Logged plan made (log ++ more) (p.steps plan drafts) := by
  induction drafts with
  | nil =>
    intro log p h
    exact ⟨[], rfl, by rw [List.append_nil]; exact h⟩
  | cons draft rest ih =>
    intro log p h
    obtain ⟨fate, hstep⟩ := logged_step hext h draft
    obtain ⟨more, hmore, hsteps⟩ := ih hstep
    refine ⟨(draft, fate) :: more, by rw [List.map_cons, hmore], ?_⟩
    rw [List.append_assoc] at hsteps
    exact hsteps

end TestScaffold
