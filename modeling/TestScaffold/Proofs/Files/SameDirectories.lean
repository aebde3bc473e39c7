/-
  TestScaffold/Proofs/Files/SameDirectories.lean
  ==============================================
  **Whether a text can be written depends on the directories of a disk only.**

  The way to a seat leads through directories, and a write is refused for the
  sake of directories that are missing or in its place.  Two disks with the same
  directories therefore accept the same writes, on the same seats
  (`SameDirectories.writeText`), whatever files they hold.  A write adds no
  directory, so this lasts for as many writes as there are.

  A directory that is there is not made again (`ensureDirectory_of_hasDirectory`).
-/
import TestScaffold.Proofs.Files.Reading

namespace TestScaffold.Disk

/-- The two disks have the same directories, and the same one to start from. -/
structure SameDirectories (d e : Disk) : Prop where
  here : e.here = d.here
  directories : ∀ q, e.isDirectoryAt q = d.isDirectoryAt q

namespace SameDirectories

variable {d e f : Disk}

theorem refl (d : Disk) : SameDirectories d d := ⟨rfl, fun _ => rfl⟩

theorem symm (h : SameDirectories d e) : SameDirectories e d :=
  ⟨h.here.symm, fun q => (h.directories q).symm⟩

theorem trans (h : SameDirectories d e) (h' : SameDirectories e f) : SameDirectories d f :=
  ⟨h'.here.trans h.here, fun q => (h'.directories q).trans (h.directories q)⟩

theorem start (h : SameDirectories d e) (p : Path) : e.start p = d.start p := by
  unfold Disk.start
  cases p.anchor with
  | here => exact h.here
  | root => rfl
  | doubleRoot => rfl

end SameDirectories

/-! ### Walks -/

/-- A walk that ends in a directory began in one. -/
theorem isDirectoryAt_of_walk {d : Disk} {place q : Place} {names : List String}
    (hwalk : d.walk place names = .ok q) (hq : d.isDirectoryAt q = true) :
    d.isDirectoryAt place = true := by
  cases names with
  | nil =>
    cases hwalk
    exact hq
  | cons name rest =>
    simp only [Disk.walk] at hwalk
    cases hstep : d.step place name with
    | error fault => rw [hstep] at hwalk; cases hwalk
    | ok next => exact (step_eq_ok_iff.mp hstep).1

/-- A walk to a directory passes directories only, so it is the same on both disks. -/
theorem SameDirectories.walk {d e : Disk} (h : SameDirectories d e) {names : List String} :
    ∀ {place q : Place}, d.walk place names = .ok q → d.isDirectoryAt q = true →
      e.walk place names = .ok q := by
  induction names with
  | nil => intro place q hwalk _; exact hwalk
  | cons name rest ih =>
    intro place q hwalk hq
    simp only [Disk.walk] at hwalk ⊢
    cases hstep : d.step place name with
    | error fault => rw [hstep] at hwalk; cases hwalk
    | ok next =>
      rw [hstep] at hwalk
      have hnext : e.isDirectoryAt next = true := by
        rw [h.directories]
        exact isDirectoryAt_of_walk hwalk hq
      have hstep' : e.step place name = .ok next := by
        rw [step_eq_ok_iff] at hstep ⊢
        obtain ⟨hplace, hup | ⟨hproper, hshort, _, rfl⟩⟩ := hstep
        · exact ⟨by rw [h.directories]; exact hplace, Or.inl hup⟩
        · exact ⟨by rw [h.directories]; exact hplace,
            Or.inr ⟨hproper, hshort, find?_isSome_of_isDirectoryAt hnext, rfl⟩⟩
      rw [hstep']
      exact ih hwalk hq

theorem SameDirectories.seat {d e : Disk} (h : SameDirectories d e) {p : Path} {parent : Place}
    {name : String} (s : Seat d p parent name) : Seat e p parent name where
  fits := s.fits
  leads := by rw [h.start]; exact h.walk s.leads s.inside
  inside := by rw [h.directories]; exact s.inside
  last := s.last
  proper := s.proper
  short := s.short

/-! ### Writing -/

/-- Setting a file changes no directory. -/
theorem Filed.sameDirectories {d d' : Disk} {parent : Place} {name : String} {bytes : ByteArray}
    (h : Filed d d' parent name bytes) : SameDirectories d d' := by
  refine ⟨h.grows.here, fun q => ?_⟩
  rw [isDirectoryAt_eq_find?, h.found]
  by_cases hq : q = name :: parent
  · subst hq
    rw [if_pos rfl, h.noDirectory]
    rfl
  · rw [if_neg hq, ← isDirectoryAt_eq_find?]

/-- A file can be put on every seat where no directory stands. -/
theorem Seat.putFile {d : Disk} {p : Path} {parent : Place} {name : String}
    (s : Seat d p parent name) (nameless : DiskFault) (bytes : ByteArray)
    (hfree : d.isDirectoryAt (name :: parent) = false) :
    ∃ d', Disk.putFile nameless d p bytes = .ok d' := by
  refine ⟨d.put name parent (.file bytes) s.inside (.inr hfree), ?_⟩
  simp only [Disk.putFile, locateParent, s.fits, s.leads, s.inside, s.last, s.proper,
    Nat.not_lt.mpr s.short, hfree, if_true, if_false, dif_pos]

theorem Seat.writeText {d : Disk} {p : Path} {parent : Place} {name : String}
    (s : Seat d p parent name) (text : String) (hfree : d.isDirectoryAt (name :: parent) = false)
    (hfresh : d.freshFault? p = none) : ∃ d', d.writeText p text = .ok d' := by
  obtain ⟨d', hput⟩ := s.putFile .busy text.toUTF8 hfree
  refine ⟨d', ?_⟩
  simp only [Disk.writeText, hfresh, Disk.replaceFile, hput]
  rfl

theorem SameDirectories.freshFault? {d e : Disk} (h : SameDirectories d e) {p : Path}
    (hfresh : d.freshFault? p = none) : e.freshFault? p = none := by
  unfold Disk.freshFault? at hfresh ⊢
  split at hfresh
  · cases hfresh
  · rename_i hnul
    rw [if_neg hnul, h.start]
    split at hfresh
    · cases hfresh
    · rename_i place hwalk
      split at hfresh
      · cases hfresh
      · rename_i hdirectory
        have hplace : d.isDirectoryAt place = true := by simpa using hdirectory
        have hplace' : e.isDirectoryAt place = true := by rw [h.directories]; exact hplace
        rw [h.walk hwalk hplace]
        simpa only [hplace', Bool.not_true, Bool.false_eq_true, if_false] using hfresh

theorem freshFault?_of_writeText {d d' : Disk} {p : Path} {text : String}
    (h : d.writeText p text = .ok d') : d.freshFault? p = none := by
  unfold writeText at h
  cases hfresh : d.freshFault? p with
  | none => rfl
  | some fault => rw [hfresh] at h; cases h

/-- **A text that one disk accepts is accepted by every disk with the same directories**, and set
    on the same seat. -/
theorem SameDirectories.writeText {d d' e : Disk} (h : SameDirectories d e) {p : Path}
    {text : String} (hwrite : d.writeText p text = .ok d') :
    ∃ e' parent name, e.writeText p text = .ok e' ∧ Seat d p parent name ∧
      Filed d d' parent name text.toUTF8 ∧ Filed e e' parent name text.toUTF8 := by
  obtain ⟨parent, name, hseat, hfiled⟩ := writeText_ok hwrite
  have hfree : e.isDirectoryAt (name :: parent) = false := by
    rw [h.directories]
    exact hfiled.noDirectory
  obtain ⟨e', hput⟩ := (h.seat hseat).putFile .busy text.toUTF8 hfree
  have hwrite' : e.writeText p text = .ok e' := by
    simp only [Disk.writeText, h.freshFault? (freshFault?_of_writeText hwrite), replaceFile, hput]
    rfl
  obtain ⟨parent', name', hseat', hfiled'⟩ := writeText_ok hwrite'
  obtain ⟨rfl, rfl⟩ := (h.seat hseat).unique hseat'
  exact ⟨e', parent, name, hwrite', hseat, hfiled, hfiled'⟩

/-! ### Directories that are there -/

theorem exists_walk_of_append {d : Disk} {names more : List String} :
    ∀ {place q : Place}, d.walk place (names ++ more) = .ok q →
      ∃ between, d.walk place names = .ok between ∧ d.walk between more = .ok q := by
  induction names with
  | nil => intro place q hwalk; exact ⟨place, rfl, hwalk⟩
  | cons name rest ih =>
    intro place q hwalk
    simp only [List.cons_append, Disk.walk] at hwalk ⊢
    cases hstep : d.step place name with
    | error fault => rw [hstep] at hwalk; cases hwalk
    | ok next =>
      rw [hstep] at hwalk
      exact ih hwalk

/-- A walk of one name is a step. -/
theorem step_of_walk {d : Disk} {place q : Place} {name : String}
    (h : d.walk place [name] = .ok q) : d.step place name = .ok q := by
  simp only [Disk.walk] at h
  cases hstep : d.step place name with
  | error fault => rw [hstep] at h; cases h
  | ok next => rw [hstep] at h; exact h

/-- The place of a directory that a path leads to. -/
theorem exists_locate_of_hasDirectory {d : Disk} {p : Path} (h : d.hasDirectory p = .ok true) :
    ∃ q, unfit? p = none ∧ d.walk (d.start p) p.names = .ok q ∧ d.isDirectoryAt q = true := by
  unfold hasDirectory entryAt? locate at h
  cases hfit : unfit? p with
  | some fault =>
    rw [hfit] at h
    cases fault <;> cases h
  | none =>
    rw [hfit] at h
    cases hwalk : d.walk (d.start p) p.names with
    | error fault =>
      rw [hwalk] at h
      cases fault <;> cases h
    | ok q =>
      rw [hwalk] at h
      refine ⟨q, rfl, rfl, ?_⟩
      rw [isDirectoryAt_eq_find?]
      simpa [Except.map] using h

/-- A path leads to a directory on both disks or on neither. -/
theorem SameDirectories.hasDirectory {d e : Disk} (h : SameDirectories d e) {p : Path}
    (hp : d.hasDirectory p = .ok true) : e.hasDirectory p = .ok true := by
  obtain ⟨q, hfit, hwalk, hq⟩ := exists_locate_of_hasDirectory hp
  have hq' : (e.find? q).any Entry.isDirectory = true := by
    rw [← isDirectoryAt_eq_find?, h.directories]
    exact hq
  have hlocate : e.locate p = .ok q := by
    simp only [locate, hfit, h.start, h.walk hwalk hq]
  simp only [Disk.hasDirectory, entryAt?, hlocate, Except.map, hq']

/-- A directory that is there cannot be made: its place is taken. -/
theorem makeDirectory_of_hasDirectory {d : Disk} {p : Path} (h : d.hasDirectory p = .ok true) :
    d.makeDirectory p = .error .occupied := by
  obtain ⟨q, hfit, hwalk, _⟩ := exists_locate_of_hasDirectory h
  rcases List.eq_nil_or_concat p.names with hnames | ⟨init, name, hnames⟩
  · simp [makeDirectory, locateParent, hfit, hnames, Disk.walk, start_isDirectory]
  · rw [List.concat_eq_append] at hnames
    rw [hnames] at hwalk
    obtain ⟨parent, hinit, hlast⟩ := exists_walk_of_append hwalk
    obtain ⟨hparent, ⟨hup, _⟩ | ⟨hproper, hshort, htaken, _⟩⟩ :=
      step_eq_ok_iff.mp (step_of_walk hlast)
    · simp [makeDirectory, locateParent, hfit, hnames, hinit, hparent, hup]
    · simp [makeDirectory, locateParent, hfit, hnames, hinit, hparent, hproper,
        Nat.not_lt.mpr hshort, htaken]

theorem makeAll_of_hasDirectory {d : Disk} {anchor : Anchor} {names : List String}
    (h : d.hasDirectory ⟨anchor, names.reverse⟩ = .ok true) :
    d.makeAll anchor names = (d, none) := by
  have hmake := makeDirectory_of_hasDirectory h
  cases names with
  | nil =>
    rw [List.reverse_nil] at h hmake
    simp only [makeAll, hmake, toleratedAt, h]
  | cons name rest => simp only [makeAll, hmake, toleratedAt, h]

/-- **A directory that is there is not made again.** -/
theorem ensureDirectory_of_hasDirectory {d : Disk} {p : Path} (h : d.hasDirectory p = .ok true) :
    d.ensureDirectory p = (d, .ok ()) := by
  have hall : d.makeAll p.anchor p.names.reverse = (d, none) :=
    makeAll_of_hasDirectory (by rw [List.reverse_reverse]; exact h)
  simp only [ensureDirectory, hall]

end TestScaffold.Disk
