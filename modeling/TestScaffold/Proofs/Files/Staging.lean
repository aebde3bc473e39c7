/-
  TestScaffold/Proofs/Files/Staging.lean
  ======================================
  **A write changes its target, or nothing.**

  The fresh file of a write stands where nothing stood, so setting it and taking
  it away again gives back the very disk there was (`Free.removeFile_setFile`);
  whatever fails after the file was made, the disk is as it was before.  A file
  changes no directory, so the target has the same seat with the fresh file there
  and without it, and a move over the target comes to what writing the target at
  once comes to (`Free.moveFile_ok`).

  Two things fall out of this picture, and the main statement gives them their
  exact place.  A path with the character NUL meets a fault that is not told as
  one of writing.  A content with a surrogate leaves the empty fresh file behind.
-/
import TestScaffold.Files.Staging
import TestScaffold.Proofs.Files.SameDirectories
import TestScaffold.Proofs.Run.Kinds

namespace TestScaffold

open TestScaffold.Text

/-! ### Fresh names -/

theorem utf8Size_of_mem_tagChars {c : Char} (h : c ∈ tagChars) : c.utf8Size = 1 := by
  have hall : tagChars.all (fun c => c.utf8Size == 1) = true := by decide
  exact beq_iff_eq.mp (List.all_eq_true.mp hall c h)

theorem utf8ByteSize_of_tagChars {letters : List Char}
    (h : letters.all tagChars.contains = true) :
    (String.ofList letters).utf8ByteSize = letters.length := by
  induction letters with
  | nil => rfl
  | cons c rest ih =>
    rw [List.all_cons, Bool.and_eq_true] at h
    rw [String.ofList_cons, String.utf8ByteSize_append, String.utf8ByteSize_singleton,
      utf8Size_of_mem_tagChars (List.contains_iff_mem.mp h.1), ih h.2, List.length_cons, Nat.add_comm]

/-- A fresh name is longer than the name of its target by the excess that the disk counts with. -/
theorem utf8ByteSize_freshName (p : Path) (tag : FreshTag) :
    (freshName p tag).utf8ByteSize = p.name.utf8ByteSize + Disk.freshNameExcess := by
  have hpoint : ".".utf8ByteSize = 1 := rfl
  have hend : ".tmp".utf8ByteSize = 4 := rfl
  simp only [freshName, String.utf8ByteSize_append, utf8ByteSize_of_tagChars tag.plain, tag.eight,
    hpoint, hend, Disk.freshNameExcess]
  omega

theorem freshName_ne_name (p : Path) (tag : FreshTag) : freshName p tag ≠ p.name := by
  intro heq
  have hsize := utf8ByteSize_freshName p tag
  rw [heq, Disk.freshNameExcess] at hsize
  omega

/-! ### Entries -/

namespace Entry

theorem insert_insert (place : Place) (e f : Entry) (es : List (Place × Entry)) :
    insert place f (insert place e es) = insert place f es := by
  induction es with
  | nil => simp [insert]
  | cons head rest ih =>
    obtain ⟨q, g⟩ := head
    by_cases hq : q = place
    · simp [insert, hq]
    · simp [insert, hq, ih]

/-- An entry that is free is set at the end, from where it is taken away again. -/
theorem erase_insert (place : Place) (e : Entry) (es : List (Place × Entry))
    (hfree : find? place es = none) : erase place (insert place e es) = es := by
  induction es with
  | nil => simp [insert, erase]
  | cons head rest ih =>
    obtain ⟨q, g⟩ := head
    by_cases hq : q = place
    · simp [find?, hq] at hfree
    · have hrest : find? place rest = none := by simpa [find?, hq] using hfree
      have hkept := ih hrest
      unfold erase at hkept ⊢
      simp [insert, hq, hkept]

theorem erase_insert_comm {place q : Place} (hne : place ≠ q) (e : Entry)
    (es : List (Place × Entry)) : erase q (insert place e es) = insert place e (erase q es) := by
  induction es with
  | nil => simp [insert, erase, hne]
  | cons head rest ih =>
    obtain ⟨r, g⟩ := head
    unfold erase at ih ⊢
    by_cases hr : r = place
    · subst hr
      simp [insert, hne]
    · by_cases hrq : r = q
      · subst hrq
        simpa [insert, hr] using ih
      · simpa [insert, hr, hrq] using ih

end Entry

namespace Disk

variable {d d' e : Disk} {p : Path} {directory parent : Place} {fresh name : String}
  {bytes : ByteArray} {c : Circumstances}

theorem eq_of_entries (hentries : e.entries = d.entries) (hhere : e.here = d.here) : e = d := by
  cases d
  cases e
  cases hentries
  cases hhere
  rfl

theorem removeFile_entries {place : Place} (h : d.isDirectoryAt place = false) :
    (d.removeFile place).entries = Entry.erase place d.entries := by
  unfold removeFile
  rw [dif_pos h]

theorem removeFile_here (d : Disk) (place : Place) : (d.removeFile place).here = d.here := by
  unfold removeFile
  split <;> rfl

theorem setFile_eq_put (hinside : d.isDirectoryAt parent = true)
    (hfile : d.isDirectoryAt (name :: parent) = false) (bytes : ByteArray) :
    d.setFile (name :: parent) bytes = d.put name parent (.file bytes) hinside (.inr hfile) :=
  dif_pos ⟨hinside, hfile⟩

theorem setFile_entries (hinside : d.isDirectoryAt parent = true)
    (hfile : d.isDirectoryAt (name :: parent) = false) (bytes : ByteArray) :
    (d.setFile (name :: parent) bytes).entries =
      Entry.insert (name :: parent) (.file bytes) d.entries := by
  rw [setFile_eq_put hinside hfile]
  rfl

theorem filed_setFile (hinside : d.isDirectoryAt parent = true)
    (hfile : d.isDirectoryAt (name :: parent) = false) (bytes : ByteArray) :
    Filed d (d.setFile (name :: parent) bytes) parent name bytes := by
  rw [setFile_eq_put hinside hfile]
  exact ⟨grows_put .., fun q => find?_put .., hfile⟩

/-! ### Free places -/

/-- Nothing stands at a place of a directory. -/
structure Free (d : Disk) (directory : Place) (name : String) : Prop where
  inside : d.isDirectoryAt directory = true
  nothing : d.find? (name :: directory) = none

namespace Free

theorem noDirectory (h : Free d directory fresh) :
    d.isDirectoryAt (fresh :: directory) = false := by
  rw [isDirectoryAt_eq_find?, h.nothing]
  rfl

theorem filed (h : Free d directory fresh) (bytes : ByteArray) :
    Filed d (d.setFile (fresh :: directory) bytes) directory fresh bytes :=
  filed_setFile h.inside h.noDirectory bytes

theorem isDirectoryAt_setFile (h : Free d directory fresh) (bytes : ByteArray) (q : Place) :
    (d.setFile (fresh :: directory) bytes).isDirectoryAt q = d.isDirectoryAt q :=
  (h.filed bytes).sameDirectories.directories q

theorem setFile_setFile (h : Free d directory fresh) (bytes more : ByteArray) :
    (d.setFile (fresh :: directory) bytes).setFile (fresh :: directory) more =
      d.setFile (fresh :: directory) more := by
  have hinside := (h.isDirectoryAt_setFile bytes directory).trans h.inside
  have hfile := (h.isDirectoryAt_setFile bytes (fresh :: directory)).trans h.noDirectory
  refine eq_of_entries ?_ ?_
  · rw [setFile_entries hinside hfile, setFile_entries h.inside h.noDirectory,
      setFile_entries h.inside h.noDirectory, Entry.insert_insert]
  · rw [(filed_setFile hinside hfile more).grows.here, (h.filed bytes).grows.here,
      (h.filed more).grows.here]

/-- **What was set at a free place and is taken away leaves the disk there was.** -/
theorem removeFile_setFile (h : Free d directory fresh) (bytes : ByteArray) :
    (d.setFile (fresh :: directory) bytes).removeFile (fresh :: directory) = d := by
  have hfile := (h.isDirectoryAt_setFile bytes (fresh :: directory)).trans h.noDirectory
  refine eq_of_entries ?_ ?_
  · rw [removeFile_entries hfile, setFile_entries h.inside h.noDirectory,
      Entry.erase_insert _ _ _ h.nothing]
  · rw [removeFile_here, (h.filed bytes).grows.here]

/-- The fresh file leaves no trace either when another file was set while it was there. -/
theorem removeFile_setFile_setFile (h : Free d directory fresh)
    (hinside : d.isDirectoryAt parent = true) (hfile : d.isDirectoryAt (name :: parent) = false)
    (hapart : name :: parent ≠ fresh :: directory) (bytes more : ByteArray) :
    ((d.setFile (fresh :: directory) bytes).setFile (name :: parent) more).removeFile
      (fresh :: directory) = d.setFile (name :: parent) more := by
  have hinside' := (h.isDirectoryAt_setFile bytes parent).trans hinside
  have hfile' := (h.isDirectoryAt_setFile bytes (name :: parent)).trans hfile
  have hset := filed_setFile hinside' hfile' more
  have hfresh : ((d.setFile (fresh :: directory) bytes).setFile (name :: parent) more).isDirectoryAt
      (fresh :: directory) = false := by
    rw [hset.sameDirectories.directories, h.isDirectoryAt_setFile]
    exact h.noDirectory
  refine eq_of_entries ?_ ?_
  · rw [removeFile_entries hfresh, setFile_entries hinside' hfile', setFile_entries hinside hfile,
      setFile_entries h.inside h.noDirectory, Entry.erase_insert_comm hapart,
      Entry.erase_insert _ _ _ h.nothing]
  · rw [removeFile_here, hset.grows.here, (h.filed bytes).grows.here,
      (filed_setFile hinside hfile more).grows.here]

end Free

/-! ### Moving the fresh file over the target -/

theorem Seat.name_eq (s : Seat d p parent name) : p.name = name := by
  unfold Path.name
  rw [List.getLastD_eq_getLast?, s.last]
  rfl

theorem Seat.putFile_eq (s : Seat d p parent name) (nameless : DiskFault) (bytes : ByteArray)
    (hfree : d.isDirectoryAt (name :: parent) = false) :
    Disk.putFile nameless d p bytes = .ok (d.setFile (name :: parent) bytes) := by
  simp only [Disk.putFile, locateParent, s.fits, s.leads, s.inside, s.last, s.proper,
    Nat.not_lt.mpr s.short, hfree, if_true, if_false, dif_pos, setFile_eq_put s.inside hfree]

theorem Free.moveFile_eq_map (h : Free d directory fresh) (bytes : ByteArray) (p : Path) :
    (d.setFile (fresh :: directory) bytes).moveFile (fresh :: directory) p =
      ((d.setFile (fresh :: directory) bytes).replaceFile p bytes).map
        (·.removeFile (fresh :: directory)) := by
  unfold moveFile
  rw [(h.filed bytes).found, if_pos rfl]

/-- **A move that succeeds comes to what writing the target at once comes to.** -/
theorem Free.moveFile_ok (h : Free d directory fresh) (hother : fresh ≠ p.name)
    (hmove : (d.setFile (fresh :: directory) bytes).moveFile (fresh :: directory) p = .ok d') :
    d.replaceFile p bytes = .ok d' := by
  have hsame := (h.filed bytes).sameDirectories
  rw [h.moveFile_eq_map] at hmove
  cases hput : (d.setFile (fresh :: directory) bytes).replaceFile p bytes with
  | error fault => rw [hput] at hmove; cases hmove
  | ok moved =>
    -- the seat was found with the fresh file there; it is one without it as well
    obtain ⟨parent, name, hseat, hset⟩ := putFile_ok hput
    have hseat' : Seat d p parent name := hsame.symm.seat hseat
    have hfile : d.isDirectoryAt (name :: parent) = false := by
      rw [← hsame.directories]
      exact hset.noDirectory
    have hapart : name :: parent ≠ fresh :: directory := by
      intro heq
      exact hother ((List.cons.inj heq).1.symm.trans hseat.name_eq.symm)
    have hmoved := hseat.putFile_eq .busy bytes hset.noDirectory
    unfold replaceFile at hput hmove
    rw [hmoved] at hmove
    cases hmove
    unfold replaceFile
    rw [hseat'.putFile_eq .busy bytes hfile]
    exact congrArg _ (h.removeFile_setFile_setFile hseat'.inside hfile hapart bytes bytes).symm

/-! ### Faults with the fresh file there and without it -/

theorem Free.step_setFile (h : Free d directory fresh) (bytes : ByteArray) {name : String}
    (hne : name ≠ fresh) (place : Place) :
    (d.setFile (fresh :: directory) bytes).step place name = d.step place name := by
  have hfind : (d.setFile (fresh :: directory) bytes).find? (name :: place) =
      d.find? (name :: place) := by
    rw [(h.filed bytes).found, if_neg fun heq => hne (List.cons.inj heq).1]
  simp only [step, h.isDirectoryAt_setFile, hfind]

theorem Free.walk_setFile (h : Free d directory fresh) (bytes : ByteArray) {names : List String}
    (hnames : fresh ∉ names) : ∀ place : Place,
      (d.setFile (fresh :: directory) bytes).walk place names = d.walk place names := by
  induction names with
  | nil => exact fun _ => rfl
  | cons name rest ih =>
    intro place
    have hne : name ≠ fresh := fun heq => hnames (heq ▸ List.mem_cons_self)
    have hrest := ih fun hmem => hnames (List.mem_cons_of_mem _ hmem)
    simp only [walk, h.step_setFile bytes hne]
    cases d.step place name with
    | error fault => rfl
    | ok next => exact hrest next

theorem Free.locateParent_setFile (h : Free d directory fresh) (bytes : ByteArray)
    (hnames : fresh ∉ p.names) :
    (d.setFile (fresh :: directory) bytes).locateParent p = d.locateParent p := by
  have hstart := (h.filed bytes).sameDirectories.start p
  have hwalk := h.walk_setFile bytes (fun hmem => hnames (List.dropLast_subset _ hmem))
    (d.start p)
  simp only [locateParent, hstart, hwalk, h.isDirectoryAt_setFile]

/-- A target that is refused with the fresh file there is refused for the same fault without it. -/
theorem Free.putFile_error (h : Free d directory fresh) (hnames : fresh ∉ p.names)
    {nameless fault : DiskFault} {bytes more : ByteArray}
    (hput : putFile nameless (d.setFile (fresh :: directory) bytes) p more = .error fault) :
    putFile nameless d p more = .error fault := by
  unfold putFile at hput ⊢
  rw [h.locateParent_setFile bytes hnames] at hput
  cases hparent : d.locateParent p with
  | error f => simpa only [hparent] using hput
  | ok parent =>
    rw [hparent] at hput
    cases hlast : p.names.getLast? with
    | none => simpa only [hlast] using hput
    | some name =>
      -- each check of the last name asks for directories only, and these are the same
      have hdir := h.isDirectoryAt_setFile bytes (name :: parent)
      have hpar := h.isDirectoryAt_setFile bytes parent
      by_cases hup : name = ".."
      · simpa [hlast, hup] using hput
      · by_cases hlong : maxName < name.utf8ByteSize
        · simpa [hlast, hup, hlong] using hput
        · by_cases hfree : d.isDirectoryAt (name :: parent) = false
          · by_cases hinside : d.isDirectoryAt parent = true
            · simp [hlast, hup, hlong, hdir, hpar, hfree, hinside] at hput
            · simpa [hlast, hup, hlong, hdir, hpar, hfree, hinside] using hput
          · simpa [hlast, hup, hlong, hdir, hfree] using hput

/-- **A move comes to what writing the target at once comes to**, as long as the way to the target
does not lead over the fresh file. -/
theorem Free.moveFile_eq (h : Free d directory fresh) (bytes : ByteArray) (hother : fresh ≠ p.name)
    (hnames : fresh ∉ p.names) :
    (d.setFile (fresh :: directory) bytes).moveFile (fresh :: directory) p =
      d.replaceFile p bytes := by
  cases hmove : (d.setFile (fresh :: directory) bytes).moveFile (fresh :: directory) p with
  | ok d' => exact (h.moveFile_ok hother hmove).symm
  | error fault =>
    rw [h.moveFile_eq_map] at hmove
    cases hput : (d.setFile (fresh :: directory) bytes).replaceFile p bytes with
    | ok moved => rw [hput] at hmove; cases hmove
    | error f =>
      rw [hput] at hmove
      cases hmove
      exact (h.putFile_error hnames hput).symm

/-! ### Where the fresh file is made -/

/-- A fresh file has a directory as soon as the disk finds no fault with it. -/
theorem freshDirectory_of_freshFault? (hfault : d.freshFault? p = none) :
    ∃ directory, d.freshDirectory p = .ok directory ∧ d.isDirectoryAt directory = true := by
  unfold freshDirectory
  rw [hfault]
  unfold freshFault? at hfault
  split at hfault
  · cases hfault
  · split at hfault
    · cases hfault
    · rename_i directory hwalk
      split at hfault
      · cases hfault
      · rename_i hinside
        exact ⟨directory, hwalk, by simpa using hinside⟩

theorem freshFault?_of_freshDirectory (h : d.freshDirectory p = .ok directory) :
    d.freshFault? p = none := by
  unfold freshDirectory at h
  cases hfault : d.freshFault? p with
  | none => rfl
  | some fault => rw [hfault] at h; cases h

theorem freshDirectory_of_fault {fault : DiskFault} (hfault : d.freshFault? p = some fault) :
    d.freshDirectory p = .error fault := by
  unfold freshDirectory
  rw [hfault]

/-- The place of a fresh file is free. -/
theorem freshPlace_ok {place : Place} (h : d.freshPlace p c = .ok place) :
    ∃ tag directory, place = freshName p tag :: directory ∧ Free d directory (freshName p tag) ∧
      d.freshFault? p = none := by
  unfold freshPlace at h
  cases hdirectory : d.freshDirectory p with
  | error fault => rw [hdirectory] at h; cases h
  | ok directory =>
    have hfault := freshFault?_of_freshDirectory hdirectory
    obtain ⟨_, hdirectory', hinside⟩ := freshDirectory_of_freshFault? hfault
    cases hdirectory.symm.trans hdirectory'
    simp only [hdirectory] at h
    cases hmaking : c.making? with
    | some refusal => rw [hmaking] at h; cases h
    | none =>
      simp only [hmaking] at h
      cases htag : c.tags.find? fun tag => (d.find? (freshName p tag :: directory)).isNone with
      | none => rw [htag] at h; cases h
      | some tag =>
        rw [htag] at h
        cases h
        have hnothing := List.find?_some htag
        exact ⟨tag, directory, rfl, ⟨hinside, Option.isNone_iff_eq_none.mp hnothing⟩, hfault⟩

/-- The fault of a fresh file that is not made lies in the path if and only if the path holds the
character NUL. -/
theorem freshPlace_error {fault : DiskFault} (h : d.freshPlace p c = .error fault) :
    fault = .nulInPath ↔ p.hasNul = true := by
  rw [← freshFault?_eq_nulInPath_iff (d := d)]
  unfold freshPlace at h
  cases hfault : d.freshFault? p with
  | some f =>
    simp only [freshDirectory_of_fault hfault, Except.error.injEq] at h
    simp [h]
  | none =>
    obtain ⟨directory, hdirectory, -⟩ := freshDirectory_of_freshFault? hfault
    refine iff_of_false ?_ (by simp)
    simp only [hdirectory] at h
    cases hmaking : c.making? with
    | some refusal =>
      simp only [hmaking, Except.error.injEq] at h
      exact h ▸ refusal.isOfSystem
    | none =>
      simp only [hmaking] at h
      split at h
      · cases h
      · cases h
        exact DiskFault.noConfusion

/-! ### What a write comes to -/

/-- The text has taken its place: the disk is changed at the seat of the path only, and the text is
read there with its line ends made line feeds. -/
structure Placed (d d' : Disk) (p : Path) (text : String) : Prop where
  seated : ∃ parent name, Seat d p parent name ∧ Filed d d' parent name text.toUTF8
  reads : d'.readText p = .ok (String.ofList (unifyLineEnds text.toList))

theorem placed_of_writeText {text : String} (h : d.writeText p text = .ok d') :
    Placed d d' p text := by
  obtain ⟨parent, name, hseat, hfiled⟩ := writeText_ok h
  have hread : d'.read p = .ok text.toUTF8 :=
    (hfiled.grows.seat hseat).read (by rw [hfiled.found, if_pos rfl])
  refine ⟨⟨parent, name, hseat, hfiled⟩, ?_⟩
  simp only [readText, hread, textOfBytes?, fromUTF8?_toUTF8, Option.map_some]

/-- The fresh file is gone in the end: the target was written, or the disk is the one there was. -/
theorem Free.replaceFrom_ends (h : Free d directory fresh) (hother : fresh ≠ p.name)
    (hnul : ¬ p.hasNul = true) (text : String) (c : Circumstances) :
    (∃ d', (d.setFile (fresh :: directory) ByteArray.empty).replaceFrom (fresh :: directory) p
        text c = (d', .ok ()) ∧ d.replaceFile p text.toUTF8 = .ok d') ∨
      ∃ fault, (d.setFile (fresh :: directory) ByteArray.empty).replaceFrom (fresh :: directory) p
        text c = (d, .error fault) ∧ fault ≠ .nulInPath := by
  unfold replaceFrom
  simp only [h.setFile_setFile]
  cases c.filling? with
  | some filling =>
    refine Or.inr ⟨filling.2.fault, ?_, filling.2.isOfSystem⟩
    simp only [h.removeFile_setFile]
  | none =>
    cases c.moving? with
    | some refusal =>
      refine Or.inr ⟨refusal.fault, ?_, refusal.isOfSystem⟩
      simp only [h.removeFile_setFile]
    | none =>
      cases hmove : (d.setFile (fresh :: directory) text.toUTF8).moveFile
          (fresh :: directory) p with
      | ok d' => exact Or.inl ⟨d', rfl, h.moveFile_ok hother hmove⟩
      | error fault =>
        refine Or.inr ⟨fault, ?_, ?_⟩
        · simp only [h.removeFile_setFile]
        · intro heq
          rw [h.moveFile_eq_map] at hmove
          cases hput : (d.setFile (fresh :: directory) text.toUTF8).replaceFile p text.toUTF8 with
          | ok moved => rw [hput] at hmove; cases hmove
          | error f =>
            rw [hput] at hmove
            cases hmove
            exact putFile_ne_nulInPath hnul (heq ▸ hput)

theorem writeText_of_replaceFile {text : String} (hfault : d.freshFault? p = none)
    (hput : d.replaceFile p text.toUTF8 = .ok d') : d.writeText p text = .ok d' := by
  simp only [writeText, hfault, hput]
  rfl

/-- A refusal is told as an error of writing that names the path, unless it lies in the path. -/
theorem detail_refused {fault : DiskFault} (hfault : fault = .nulInPath ↔ p.hasNul = true) :
    (WriteError.refused p fault).detail =
      if p.hasNul then .plain "ValueError" DiskFault.nulInPath.message
      else .located "WriteError" (WriteError.refused p fault).message (some p.text) := by
  by_cases hnul : p.hasNul = true
  · rw [if_pos hnul, hfault.mpr hnul]
    rfl
  · rw [if_neg hnul]
    exact DiskFault.detail_eq _ _ _ fun heq => hnul (hfault.mp heq)

/-- Nothing but the disk has a say in a write: the system refuses nothing, a fresh name is free,
and none of those tried is a name on the way to the target. -/
structure Clear (d : Disk) (p : Path) (c : Circumstances) : Prop where
  making : c.making? = none
  filling : c.filling? = none
  moving : c.moving? = none
  free : ∀ directory, d.freshDirectory p = .ok directory →
    ∃ tag ∈ c.tags, d.find? (freshName p tag :: directory) = none
  apart : ∀ tag ∈ c.tags, freshName p tag ∉ p.names

/-- In clear circumstances a fresh file is made as soon as the disk finds no fault with it. -/
theorem Clear.freshPlace (h : Clear d p c) (hfault : d.freshFault? p = none) :
    ∃ tag directory, d.freshPlace p c = .ok (freshName p tag :: directory) ∧
      Free d directory (freshName p tag) ∧ freshName p tag ∉ p.names := by
  obtain ⟨directory, hdirectory, hinside⟩ := freshDirectory_of_freshFault? hfault
  obtain ⟨free, hmem, hfree⟩ := h.free directory hdirectory
  simp only [Disk.freshPlace, hdirectory, h.making]
  cases htag : c.tags.find? fun tag => (d.find? (freshName p tag :: directory)).isNone with
  | none =>
    have hnone := List.find?_eq_none.mp htag free hmem
    simp [hfree] at hnone
  | some tag =>
    have hnothing := List.find?_some htag
    exact ⟨tag, directory, rfl, ⟨hinside, Option.isNone_iff_eq_none.mp hnothing⟩,
      h.apart tag (List.mem_of_find?_eq_some htag)⟩

/-- **In clear circumstances the steps come to what `writeText` says.** -/
theorem Clear.stage_contentOf (h : Clear d p c) (text : String) :
    d.stage p (contentOf text) c =
      match d.writeText p text with
      | .ok d' => (d', .ok ())
      | .error cause => (d, .error (.refused cause)) := by
  cases hfault : d.freshFault? p with
  | some fault =>
    simp only [stage, Disk.freshPlace, freshDirectory_of_fault hfault, writeText, hfault]
  | none =>
    obtain ⟨tag, directory, hplace, hfree, hnames⟩ := h.freshPlace hfault
    have hmove := hfree.moveFile_eq text.toUTF8 (freshName_ne_name p tag) hnames
    simp only [stage, hplace, textOf?_contentOf, replaceFrom, h.filling, h.moving,
      hfree.setFile_setFile, hmove, hfree.removeFile_setFile, writeText, hfault]
    cases d.replaceFile p text.toUTF8 with
    | ok d' => rfl
    | error fault => rfl

/-- **A write changes its target, or nothing.** Whatever befalls it, the text of the content has
taken its place; or the disk is the one there was, and the fault is told as one of writing that
names the path, unless the path holds the character NUL; or the content is no text, and all that
is new is an empty fresh file. In clear circumstances a text has the fate that an outlet gives it,
and a content that is no text leaves a fresh file wherever one can be made. -/
theorem stage_all_or_nothing (d : Disk) (p : Path) (content : List ContentUnit)
    (c : Circumstances) :
    ((∃ text d', textOf? content = some text ∧ d.stage p content c = (d', .ok ()) ∧
        Placed d d' p text) ∨
      (∃ cause, d.stage p content c = (d, .error (.refused cause)) ∧
        cause.detail = if p.hasNul then .plain "ValueError" DiskFault.nulInPath.message
          else .located "WriteError" cause.message (some p.text)) ∨
      (textOf? content = none ∧ ∃ d' tag directory,
        d.stage p content c = (d', .error .unencodable) ∧ Free d directory (freshName p tag) ∧
        Filed d d' directory (freshName p tag) ByteArray.empty)) ∧
    (Clear d p c →
      (∀ text, d.stage p (contentOf text) c =
        match ({ disk := d } : Outlet).writeText p text with
        | .ok o => (o.disk, .ok ())
        | .error cause => (d, .error (.refused cause))) ∧
      (textOf? content = none → d.freshFault? p = none →
        (d.stage p content c).2 = .error .unencodable)) := by
  refine ⟨?_, fun hclear => ⟨fun text => ?_, fun htext hfault => ?_⟩⟩
  · cases hplace : d.freshPlace p c with
    | error fault =>
      -- nothing has been made yet
      refine Or.inr (Or.inl ⟨.refused p fault, ?_, detail_refused (freshPlace_error hplace)⟩)
      simp only [stage, hplace]
    | ok place =>
      -- behind this point no fault lies in the path, so each is told as one of writing
      obtain ⟨tag, directory, rfl, hfree, hfault⟩ := freshPlace_ok hplace
      have hnul : ¬ p.hasNul = true := by
        rw [← freshFault?_eq_nulInPath_iff (d := d), hfault]
        simp
      cases htext : textOf? content with
      | none =>
        refine Or.inr (Or.inr ⟨rfl, _, tag, directory, ?_, hfree, hfree.filed ByteArray.empty⟩)
        simp only [stage, hplace, htext]
      | some text =>
        rcases hfree.replaceFrom_ends (freshName_ne_name p tag) hnul text c with
          ⟨d', hreplace, hput⟩ | ⟨fault, hreplace, hother⟩
        · refine Or.inl ⟨text, d', rfl, ?_, ?_⟩
          · simp only [stage, hplace, htext, hreplace]
            rfl
          · exact placed_of_writeText (writeText_of_replaceFile hfault hput)
        · refine Or.inr (Or.inl ⟨.refused p fault, ?_, detail_refused (iff_of_false hother hnul)⟩)
          simp only [stage, hplace, htext, hreplace]
          rfl
  · rw [hclear.stage_contentOf]
    simp only [Outlet.writeText, Bool.false_eq_true, if_false]
    cases d.writeText p text with
    | ok d' => rfl
    | error cause => rfl
  · obtain ⟨tag, directory, hplace, -, -⟩ := hclear.freshPlace hfault
    simp only [stage, hplace, htext]

/-- A disk on which the first fresh name for the file `A` is taken. -/
def crowdedDisk : Disk :=
  (empty.put "A" [] (.file "old".toUTF8) empty.here_isDirectory (by decide)).put
    ".A.aaaaaaaa.tmp" [] (.file "mine".toUTF8) (by decide) (by decide)

/-- Two tags are tried one after the other. -/
def twoTags : Circumstances where
  tags := [⟨"aaaaaaaa".toList, by decide, by decide⟩, ⟨"b_0b_0b_".toList, by decide, by decide⟩]

theorem clear_crowdedDisk : Clear crowdedDisk { names := ["A"] } twoTags where
  making := rfl
  filling := rfl
  moving := rfl
  free := by
    intro directory hdirectory
    have hroot : crowdedDisk.freshDirectory { names := ["A"] } = .ok [] := by rfl
    cases hroot.symm.trans hdirectory
    exact ⟨_, List.mem_cons_of_mem _ List.mem_cons_self, by decide +kernel⟩
  apart := by decide +kernel

/-- A text takes the place of the old one past a fresh name that is taken. -/
theorem stage_crowdedDisk :
    Clear crowdedDisk { names := ["A"] } twoTags ∧
      ∃ d', crowdedDisk.stage { names := ["A"] } (contentOf "x\r\ny") twoTags = (d', .ok ()) ∧
        d'.readText { names := ["A"] } = .ok "x\ny" ∧
        d'.find? [".A.aaaaaaaa.tmp"] = some (.file "mine".toUTF8) := by
  refine ⟨clear_crowdedDisk, ?_⟩
  obtain ⟨hends, hclear⟩ := stage_all_or_nothing crowdedDisk { names := ["A"] }
    (contentOf "x\r\ny") twoTags
  have hwrite : ∃ o, ({ disk := crowdedDisk } : Outlet).writeText { names := ["A"] } "x\r\ny" =
      .ok o := ⟨_, rfl⟩
  obtain ⟨o, hwrite⟩ := hwrite
  have hstage := (hclear clear_crowdedDisk).1 "x\r\ny"
  rw [hwrite] at hstage
  rcases hends with ⟨text, d', htext, hplace, hplaced⟩ | ⟨cause, hrefused, -⟩ | ⟨htext, -⟩
  · rw [textOf?_contentOf] at htext
    cases htext
    obtain ⟨parent, name, hseat, hfiled⟩ := hplaced.seated
    have hname : name = "A" := hseat.name_eq.symm
    have hother : [".A.aaaaaaaa.tmp"] ≠ name :: parent := by
      rw [hname]
      exact fun heq => absurd (List.cons.inj heq).1 (by decide)
    refine ⟨d', hplace, hplaced.reads, ?_⟩
    rw [hfiled.found, if_neg hother]
    rfl
  · cases congrArg Prod.snd (hstage.symm.trans hrefused)
  · rw [textOf?_contentOf] at htext
    cases htext

/-- A path with the character NUL leaves an error that is not one of writing, and a content with a
surrogate leaves a fresh file. -/
theorem stage_nul_and_surrogate :
    (∃ cause, ({ disk := empty } : Outlet).writeText { names := ["a\x00b"] } "x" = .error cause ∧
      empty.stage { names := ["a\x00b"] } (contentOf "x") twoTags =
        (empty, .error (.refused cause)) ∧
      ∀ message path?, cause.detail ≠ .located "WriteError" message path?) ∧
    ∃ d', empty.stage { names := ["A"] } [.surrogate 0] twoTags = (d', .error .unencodable) ∧
      d'.find? [".A.aaaaaaaa.tmp"] = some (.file ByteArray.empty) := by
  refine ⟨⟨.refused { names := ["a\x00b"] } .nulInPath, rfl, rfl, ?_⟩, ⟨_, rfl, rfl⟩⟩
  intro message path? h
  cases h

end Disk

end TestScaffold
