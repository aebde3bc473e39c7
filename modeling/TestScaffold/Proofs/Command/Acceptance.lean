/-
  TestScaffold/Proofs/Command/Acceptance.lean
  ===========================================
  **Words that are accepted on one disk and then on another.**

  Whether words are accepted depends on the disk in two places: a settings file
  that is asked for has to be a file, and no file may stand where the output
  directory is to be.  A disk that keeps the files of another one
  (`Disk.Keeps`) and has the output directory accepts the words that the other
  accepts, as the same request (`Asks.again`).

  An option counts with its last value, and once, so the output directory that
  is checked is the one of the request.
-/
import TestScaffold.Proofs.Command.Generate
import TestScaffold.Proofs.Files.PathText
import TestScaffold.Proofs.Run.Confinement
import TestScaffold.Proofs.Run.Kinds
import TestScaffold.Proofs.Run.Repetition

namespace TestScaffold

open TestScaffold.Text

/-! ### Disks that keep their files -/

namespace Disk

theorem isDirectoryAt_iff {d : Disk} {q : Place} :
    d.isDirectoryAt q = true ↔ d.find? q = some .directory := by
  rw [isDirectoryAt_eq_find?]
  cases d.find? q with
  | none => simp
  | some e => cases e <;> simp [Entry.isDirectory]

/-- What stands where no directory is, is a file. -/
theorem exists_file_iff {d : Disk} {q : Place} :
    (∃ bytes, d.find? q = some (.file bytes)) ↔
      (d.find? q).isSome = true ∧ d.isDirectoryAt q = false := by
  rw [isDirectoryAt_eq_find?]
  cases d.find? q with
  | none => simp
  | some e => cases e <;> simp [Entry.isDirectory]

/-- The second disk has all that the first one has, and where a file was there is a file. -/
structure Keeps (d d' : Disk) : Prop where
  grows : d.Grows d'
  files : ∀ {q bytes}, d.find? q = some (.file bytes) → ∃ bytes', d'.find? q = some (.file bytes')

theorem Keeps.refl (d : Disk) : Keeps d d := ⟨Grows.refl d, fun h => ⟨_, h⟩⟩

theorem Keeps.trans {d d' d'' : Disk} (h : Keeps d d') (h' : Keeps d' d'') : Keeps d d'' := by
  refine ⟨h.grows.trans h'.grows, fun hfile => ?_⟩
  obtain ⟨bytes, hkept⟩ := h.files hfile
  exact h'.files hkept

theorem Paved.keeps {d d' : Disk} {p : Path} (h : Paved d d' p) : Keeps d d' := by
  refine ⟨h.grows, fun {q bytes} hfile => ?_⟩
  rcases h.onTheWay q with hsame | ⟨hnone, _⟩
  · exact ⟨bytes, hsame.trans hfile⟩
  · cases hnone.symm.trans hfile

theorem SameDirectories.keeps {d d' : Disk} (h : SameDirectories d d') (hgrows : d.Grows d') :
    Keeps d d' := by
  refine ⟨hgrows, fun {q bytes} hfile => ?_⟩
  obtain ⟨htaken, hplain⟩ := exists_file_iff.mp ⟨bytes, hfile⟩
  exact exists_file_iff.mpr ⟨hgrows.taken q htaken, (h.directories q).trans hplain⟩

theorem locate_eq_nulInPath_iff {d : Disk} {p : Path} :
    d.locate p = .error .nulInPath ↔ p.hasNul = true := by
  rw [← unfit?_eq_nulInPath_iff]
  unfold locate
  cases hfit : unfit? p with
  | some fault => simp
  | none => simpa using d.walk_ne_nulInPath _ _

end Disk

namespace Plan

variable {plan : Plan} {layout : Layout} {d : Disk} {report : Report}

/-- A run with a report keeps every file of the disk that it reads from, and the output directory
is there then. -/
theorem keeps_inputDisk (hok : (plan.run layout d).result = .ok report) :
    (plan.inputDisk d).Keeps (plan.run layout d).disk ∧ (plan.isDryRun = false →
      (plan.run layout d).disk.hasDirectory (.ofString plan.savePath) = .ok true) := by
  by_cases hdry : plan.isDryRun = true
  · rw [disk_run_dry hdry, inputDisk_dry hdry]
    exact ⟨Disk.Keeps.refl d, fun hwet => by rw [hwet] at hdry; cases hdry⟩
  · have hwet : plan.isDryRun = false := Bool.not_eq_true _ ▸ hdry
    obtain ⟨hensured, _, _⟩ := whole_of_run_ok hok
    obtain ⟨hgrows, hsame⟩ : (plan.inputDisk d).Grows (plan.progress layout d).outlet.disk ∧
        (plan.inputDisk d).SameDirectories (plan.progress layout d).outlet.disk :=
      grows_progress hwet
    rw [run_eq_ofProgress layout hensured, Outcome.ofProgress_disk]
    exact ⟨hsame.keeps hgrows, fun _ => hsame.hasDirectory (paved_inputDisk hwet hensured).2⟩

theorem keeps_run (hok : (plan.run layout d).result = .ok report) :
    d.Keeps (plan.run layout d).disk :=
  (paved_start plan d).keeps.trans (keeps_inputDisk hok).1

end Plan

namespace Command

variable {d d' : Disk}

/-! ### Values -/

/-- Any path is accepted that has no character NUL. -/
theorem anyPath_eq (d : Disk) (typed : String) :
    anyPath d typed = if (Path.ofString typed).hasNul then .error (.broken (.disk .nulInPath))
      else .ok (.ofString typed) := by
  by_cases hblank : typed = ""
  · subst hblank
    rfl
  · unfold anyPath entryAt?
    rw [if_neg hblank]
    by_cases hnul : (Path.ofString typed).hasNul = true
    · rw [Disk.locate_eq_nulInPath_iff.mpr hnul, if_pos hnul]
      rfl
    · rw [if_neg hnul]
      cases hlocate : d.locate (.ofString typed) with
      | ok place => rfl
      | error fault =>
        cases fault with
        | nulInPath => exact absurd (Disk.locate_eq_nulInPath_iff.mp hlocate) hnul
        | _ => rfl

theorem entryAt?_eq_file_iff {typed : String} {bytes : ByteArray} :
    entryAt? d typed = .ok (some (.file bytes)) ↔ typed ≠ "" ∧
      Path.isName ((splitOn '/' typed).getLastD "") = true ∧
        ∃ q, d.locate (.ofString typed) = .ok q ∧ d.find? q = some (.file bytes) := by
  unfold entryAt?
  by_cases hblank : typed = ""
  · simp [hblank]
  · rw [if_neg hblank]
    generalize Path.isName ((splitOn '/' typed).getLastD "") = isName
    cases hlocate : d.locate (.ofString typed) with
    | error fault => cases fault <;> simp
    | ok q =>
      cases isName with
      | true => simp [hblank]
      | false =>
        have hfile : d.find? q = some (.file bytes) → d.isDirectoryAt q = false := fun h =>
          (Disk.exists_file_iff.mp ⟨bytes, h⟩).2
        cases hdirectory : d.isDirectoryAt q with
        | false => simp [hdirectory]
        | true =>
          rw [hdirectory] at hfile
          simpa [hdirectory] using hfile

theorem existingFile_eq_ok_iff {hint typed : String} {p : Path} :
    existingFile d hint typed = .ok p ↔
      (∃ bytes, entryAt? d typed = .ok (some (.file bytes))) ∧ p = .ofString typed := by
  unfold existingFile
  cases entryAt? d typed with
  | error e => simp
  | ok e? =>
    cases e? with
    | none => simp [refuse]
    | some e => cases e <;> simp [refuse, eq_comm]

/-- A file that is there is accepted as long as it is one. -/
theorem existingFile_again (h : d.Keeps d') {hint typed : String} {p : Path}
    (hfile : existingFile d hint typed = .ok p) : existingFile d' hint typed = .ok p := by
  obtain ⟨⟨bytes, hentry⟩, rfl⟩ := existingFile_eq_ok_iff.mp hfile
  obtain ⟨hne, hname, q, hlocate, hfound⟩ := entryAt?_eq_file_iff.mp hentry
  obtain ⟨bytes', hfound'⟩ := h.files hfound
  refine existingFile_eq_ok_iff.mpr ⟨⟨bytes', ?_⟩, rfl⟩
  exact entryAt?_eq_file_iff.mpr ⟨hne, hname, q, h.grows.locate hlocate, hfound'⟩

/-- A directory that is there is accepted. -/
theorem possibleDirectory_of_hasDirectory (hint : String) {typed : String}
    (h : d.hasDirectory (.ofString typed) = .ok true) :
    possibleDirectory d hint typed = .ok (.ofString typed) := by
  obtain ⟨q, hfit, hwalk, hdirectory⟩ := Disk.exists_locate_of_hasDirectory h
  have hlocate : d.locate (.ofString typed) = .ok q := by simp only [Disk.locate, hfit, hwalk]
  have hfound := Disk.isDirectoryAt_iff.mp hdirectory
  unfold possibleDirectory entryAt?
  by_cases hblank : typed = ""
  · rw [if_pos hblank]
  · simp [hblank, hlocate, hdirectory, hfound]

/-! ### Options -/

theorem foldlM_cons_eq_ok_iff {α β ε : Type} {f : β → α → Except ε β} {a : α} {rest : List α}
    {b c : β} :
    (a :: rest).foldlM f b = .ok c ↔ ∃ b', f b a = .ok b' ∧ rest.foldlM f b' = .ok c := by
  rw [List.foldlM_cons]
  cases f b a <;> simp [bind, Except.bind]

/-- Steps that all succeed in another way as well lead to the same end. -/
theorem foldlM_eq_ok_of_steps {α β ε : Type} {f f' : β → α → Except ε β} {as : List α}
    (h : ∀ a ∈ as, ∀ b b', f b a = .ok b' → f' b a = .ok b') :
    ∀ {b c}, as.foldlM f b = .ok c → as.foldlM f' b = .ok c := by
  induction as with
  | nil => exact fun hfold => hfold
  | cons a rest ih =>
    intro b c hfold
    obtain ⟨b', hstep, hrest⟩ := foldlM_cons_eq_ok_iff.mp hfold
    refine foldlM_cons_eq_ok_iff.mpr ⟨b', h a List.mem_cons_self b b' hstep, ?_⟩
    exact ih (fun x hx => h x (List.mem_cons_of_mem _ hx)) hrest

theorem settled_pairwise (given : List (String × String)) :
    (Words.settled given).Pairwise fun o o' => o.1 ≠ o'.1 := by
  induction given with
  | nil => exact List.Pairwise.nil
  | cons o rest ih =>
    obtain ⟨name, value⟩ := o
    refine List.Pairwise.cons (fun o' ho' => ?_) (ih.filter _)
    have hname : (o'.1 != name) = true := (List.mem_filter.mp ho').2
    exact fun e => by simp [← e] at hname

theorem Globals.set_again (h : d.Keeps d') {g g' : Globals} {o : String × String}
    (hset : Globals.set d g o = .ok g') : Globals.set d' g o = .ok g' := by
  unfold Globals.set at hset ⊢
  split at hset
  · obtain ⟨p, hfile, rfl⟩ := map_eq_ok_iff.mp hset
    exact map_eq_ok_iff.mpr ⟨p, existingFile_again h hfile, rfl⟩
  all_goals exact hset

/-- Of the options, one asks the disk, and it alone sets the output directory. -/
theorem GenerateRequest.set_cases {r r' : GenerateRequest} {name typed : String}
    (hset : GenerateRequest.set d r (name, typed) = .ok r') :
    (name = "--output" ∧ r' = { r with output? := some (.ofString typed) }) ∨
      (name ≠ "--output" ∧ r'.output? = r.output? ∧
        ∀ d', GenerateRequest.set d' r (name, typed) = .ok r') := by
  unfold GenerateRequest.set at hset ⊢
  dsimp only at hset ⊢
  split at hset
  case h_1 =>
    obtain ⟨p, hp, rfl⟩ := map_eq_ok_iff.mp hset
    unfold possibleDirectory at hp
    split at hp <;> cases hp
    exact Or.inl ⟨rfl, rfl⟩
  case h_6 hother _ _ _ _ =>
    cases hset
    exact Or.inr ⟨hother, rfl, fun _ => rfl⟩
  all_goals
    obtain ⟨_, _, rfl⟩ := map_eq_ok_iff.mp hset
    exact Or.inr ⟨by decide, rfl, fun _ => hset⟩

theorem GenerateRequest.output?_foldlM_of_absent {given : List (String × String)}
    (habsent : ∀ o ∈ given, o.1 ≠ "--output") :
    ∀ {r r'}, given.foldlM (GenerateRequest.set d) r = .ok r' → r'.output? = r.output? := by
  induction given with
  | nil =>
    intro r r' hfold
    cases hfold
    rfl
  | cons o rest ih =>
    intro r r' hfold
    obtain ⟨r₁, hset, hrest⟩ := foldlM_cons_eq_ok_iff.mp hfold
    rcases set_cases hset with ⟨hname, _⟩ | ⟨_, hsame, _⟩
    · exact absurd hname (habsent o List.mem_cons_self)
    · exact (ih (fun x hx => habsent x (List.mem_cons_of_mem _ hx)) hrest).trans hsame

/-- The output directory of a request is the one that was typed. -/
theorem GenerateRequest.output?_foldlM {typed : String} {given : List (String × String)}
    (hdistinct : given.Pairwise fun o o' => o.1 ≠ o'.1) (hgiven : ("--output", typed) ∈ given) :
    ∀ {r r'}, given.foldlM (GenerateRequest.set d) r = .ok r' →
      r'.output? = some (.ofString typed) := by
  induction given with
  | nil => cases hgiven
  | cons o rest ih =>
    intro r r' hfold
    obtain ⟨hothers, hdistinct'⟩ := List.pairwise_cons.mp hdistinct
    obtain ⟨r₁, hset, hrest⟩ := foldlM_cons_eq_ok_iff.mp hfold
    rcases List.mem_cons.mp hgiven with rfl | hmem
    · -- no other option goes by this name, so the directory stays as it is set here
      rw [output?_foldlM_of_absent (fun x hx => (hothers x hx).symm) hrest]
      rcases set_cases hset with ⟨_, rfl⟩ | ⟨hother, _⟩
      · rfl
      · exact absurd rfl hother
    · exact ih hdistinct' hmem hrest

theorem GenerateRequest.ofWords_eq_ok_iff {w : Words} {r : GenerateRequest} :
    GenerateRequest.ofWords d w = .ok r ↔
      ∃ r₀ paths, (Words.settled w.given).foldlM (GenerateRequest.set d) {} = .ok r₀ ∧
        w.plain ≠ [] ∧ w.plain.mapM (anyPath d) = .ok paths ∧ r = { r₀ with paths } := by
  unfold GenerateRequest.ofWords
  cases (Words.settled w.given).foldlM (GenerateRequest.set d) {} with
  | error e => simp
  | ok r₀ =>
    by_cases hplain : w.plain = []
    · simp [hplain]
    · simp only [List.isEmpty_iff, hplain, if_false, map_eq_ok_iff]
      constructor
      · rintro ⟨paths, hpaths, rfl⟩
        exact ⟨r₀, paths, rfl, hplain, hpaths, rfl⟩
      · rintro ⟨_, paths, ⟨⟩, _, hpaths, rfl⟩
        exact ⟨paths, hpaths, rfl⟩

/-! ### Calls -/

/-- A request is accepted where its output directory stands. -/
theorem GenerateRequest.ofWords_again {w : Words} {r : GenerateRequest}
    (hrequest : GenerateRequest.ofWords d w = .ok r)
    (houtput : ∀ typed, r.output? = some (.ofString typed) →
      d'.hasDirectory (.ofString typed) = .ok true) :
    GenerateRequest.ofWords d' w = .ok r := by
  obtain ⟨r₀, paths, hfold, hplain, hpaths, rfl⟩ := ofWords_eq_ok_iff.mp hrequest
  have hsame : anyPath d' = anyPath d := funext fun typed => by rw [anyPath_eq, anyPath_eq]
  refine ofWords_eq_ok_iff.mpr ⟨r₀, paths, ?_, hplain, hsame ▸ hpaths, rfl⟩
  refine foldlM_eq_ok_of_steps (fun o ho r₁ r₂ hset => ?_) hfold
  obtain ⟨name, typed⟩ := o
  rcases set_cases hset with ⟨rfl, rfl⟩ | ⟨_, _, hindependent⟩
  · have hchosen : r₀.output? = some (.ofString typed) :=
      output?_foldlM (settled_pairwise w.given) ho hfold
    have hthere := houtput typed hchosen
    simp only [set, possibleDirectory_of_hasDirectory _ hthere, Except.map]
  · exact hindependent d'

/-- **Words are accepted again where the files are kept and the output directory stands.** -/
theorem Asks.again {words : List String} {g : Globals} {r : GenerateRequest}
    (h : Asks d words g r) (keeps : d.Keeps d')
    (houtput : ∀ typed, r.output? = some (.ofString typed) →
      d'.hasDirectory (.ofString typed) = .ok true) :
    Asks d' words g r := by
  obtain ⟨outer, inner, rest, houter, hnow, hglobals, hplain, hinner, hnow', hrequest⟩ := h
  have hglobals' : Globals.ofWords d' outer = .ok g :=
    foldlM_eq_ok_of_steps (fun _ _ _ _ hset => Globals.set_again keeps hset) hglobals
  exact ⟨outer, inner, rest, houter, hnow, hglobals', hplain, hinner, hnow',
    GenerateRequest.ofWords_again hrequest houtput⟩

/-- The paths of a request are read back from their texts. -/
theorem Asks.ofString_text {words : List String} {g : Globals} {r : GenerateRequest}
    (h : Asks d words g r) {p : Path} (hp : p ∈ r.paths) : Path.ofString p.text = p := by
  obtain ⟨_, _, _, _, _, _, _, _, _, hrequest⟩ := h
  obtain ⟨_, paths, _, _, hpaths, rfl⟩ := GenerateRequest.ofWords_eq_ok_iff.mp hrequest
  obtain ⟨typed, _, htyped⟩ := exists_left_of_forall₂ (forall₂_of_mapM_eq_ok hpaths) hp
  rw [anyPath_eq] at htyped
  split at htyped <;> cases htyped
  exact Path.ofString_text_ofString typed

/-! ### The output directory in the settings -/

/-- A value that is no mapping stands as it is, whatever mapping or other value its own mapping is
laid over. -/
theorem lookup?_entriesOf_layered {updates : Entries} (h : Datum.areKeyed updates = true)
    {key : String} {value : Datum} (hvalue : Datum.lookup? key updates = some value)
    (hplain : value.isMapping = false) (below? : Option Datum) :
    Datum.lookup? key (Datum.entriesOf (some (Datum.layered below? (.dict updates)))) =
      some value := by
  by_cases hbelow : below?.all Datum.isMapping = true
  · rw [Datum.lookup?_layered h hbelow, hvalue]
    exact congrArg some (Datum.layered_of_not_isMapping hplain _)
  · have hover : Datum.layered below? (.dict updates) = .dict updates := by
      cases below? with
      | none => simp
      | some d =>
        cases d with
        | dict es => exact absurd rfl hbelow
        | _ => rfl
    rw [hover]
    exact hvalue

theorem areKeyed_overrides (r : GenerateRequest) : Datum.areKeyed r.overrides = true := by
  have hnumber : ∀ n? : Option Int, ((n?.map Datum.int).getD .null).isKeyed = true := fun n? => by
    cases n? <;> rfl
  have htext : ∀ s? : Option String, ((s?.map Datum.str).getD .null).isKeyed = true := fun s? => by
    cases s? <;> rfl
  refine Datum.areKeyed_cons.mpr ⟨rfl, ?_, Datum.areKeyed_cons.mpr ⟨rfl, ?_, rfl⟩⟩
  · exact Datum.areKeyed_cons.mpr ⟨rfl, hnumber _, Datum.areKeyed_cons.mpr
      ⟨rfl, hnumber _, Datum.areKeyed_cons.mpr ⟨rfl, hnumber _, rfl⟩⟩⟩
  · exact Datum.areKeyed_cons.mpr ⟨rfl, htext _, Datum.areKeyed_cons.mpr ⟨rfl, htext _, rfl⟩⟩

/-- The output directory that is asked for is the one of the settings. -/
theorem savePath_of_load {env : Environment} {request? : Option String} {r : GenerateRequest}
    {s : Settings} {p : Path} (h : Settings.load d env request? r.overrides = .ok s)
    (hasked : r.output? = some p) : s.output.savePath = p.text := by
  rw [Settings.load_eq_bind] at h
  cases hlower : Settings.lowerLayers d env request? with
  | error e => rw [hlower] at h; cases h
  | ok lower =>
    rw [hlower] at h
    have hkeyed := Datum.areKeyed_withoutNulls (areKeyed_overrides r)
    obtain ⟨updates, hupdates, hsavePath⟩ :
        ∃ updates, Datum.lookup? "output" (Datum.withoutNulls r.overrides) =
            some (.dict updates) ∧
          Datum.lookup? "save_path" updates = some (.str p.text) := by
      simp only [GenerateRequest.overrides, hasked]
      exact ⟨_, rfl, rfl⟩
    have hmerged := Datum.lookup?_merge hkeyed lower "output"
    simp only [hupdates] at hmerged
    have hvalue := lookup?_entriesOf_layered (Datum.isKeyed_of_lookup? hkeyed hupdates) hsavePath
      rfl (Datum.lookup? "output" lower)
    obtain ⟨es, hes⟩ := Datum.isMapping_iff.mp
      (Datum.isMapping_layered (Datum.lookup? "output" lower) (.dict updates))
    rw [hes] at hmerged hvalue
    simp only [Datum.entriesOf] at hvalue
    obtain ⟨_, houtput⟩ := Schema.of_settings_eq_ok (Settings.settings_of_ofEntries h)
    rw [Schema.maybe_of_lookup? Schema.outputSettings hmerged rfl,
      Schema.Checked.under_eq_ok_iff] at houtput
    obtain ⟨hfield, _⟩ := Schema.of_outputSettings_eq_ok houtput
    rw [Schema.maybe_of_lookup? Schema.text hvalue rfl] at hfield
    exact (Schema.Checked.ok.inj hfield).symm

end Command

end TestScaffold
