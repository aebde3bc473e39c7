/-
  TestScaffold/Proofs/Files/Writing.lean
  ======================================
  **What writing a text does to a disk.**

  A write that succeeds sets one place and leaves every other place, every
  directory and the working directory as they were.  The place is the *seat* of
  the path: the directory that the names before the last one lead to, with the
  last name below it.  A seat depends on directories and on names that are taken,
  both of which only grow, so a path keeps its seat through any further writes;
  this is what makes a statement about the end of a run out of statements about
  its single writes.
-/
import TestScaffold.Files.Store

namespace TestScaffold

/-! ### Entries -/

namespace Disk

theorem find?_put (d : Disk) (name : String) (parent q : Place) (e : Entry)
    (inside : d.isDirectoryAt parent = true)
    (keeps : e.isDirectory = true ∨ d.isDirectoryAt (name :: parent) = false) :
    (d.put name parent e inside keeps).find? q =
      if q = name :: parent then some e else d.find? q := by
  cases q with
  | nil => simp [find?]
  | cons n p =>
    simp only [find?, put]
    exact Entry.find?_insert (name :: parent) (n :: p) e d.entries

/-- A directory stands where the entry found is one; the root is found as one. -/
theorem isDirectoryAt_eq_find? (d : Disk) (q : Place) :
    d.isDirectoryAt q = (d.find? q).any Entry.isDirectory := by
  cases q with
  | nil => rfl
  | cons n p => rfl

theorem find?_isSome_of_isDirectoryAt {d : Disk} {q : Place} (h : d.isDirectoryAt q = true) :
    (d.find? q).isSome = true := by
  rw [isDirectoryAt_eq_find?] at h
  cases hf : d.find? q with
  | none => rw [hf] at h; cases h
  | some e => rfl

/-! ### Disks that have grown -/

/-- The second disk is the first one with more entries: nothing is gone, and a directory is
    still a directory. -/
structure Grows (d d' : Disk) : Prop where
  here : d'.here = d.here
  directories : ∀ q, d.isDirectoryAt q = true → d'.isDirectoryAt q = true
  taken : ∀ q, (d.find? q).isSome = true → (d'.find? q).isSome = true

theorem Grows.refl (d : Disk) : Grows d d := ⟨rfl, fun _ h => h, fun _ h => h⟩

theorem Grows.trans {d d' d'' : Disk} (h : Grows d d') (h' : Grows d' d'') : Grows d d'' :=
  ⟨h'.here.trans h.here, fun q hq => h'.directories q (h.directories q hq),
    fun q hq => h'.taken q (h.taken q hq)⟩

theorem grows_put (d : Disk) (name : String) (parent : Place) (e : Entry)
    (inside : d.isDirectoryAt parent = true)
    (keeps : e.isDirectory = true ∨ d.isDirectoryAt (name :: parent) = false) :
    Grows d (d.put name parent e inside keeps) := by
  refine ⟨rfl, ?_, ?_⟩
  · intro q hq
    exact Entry.isDirectoryAt_insert _ _ _ _ keeps hq
  · intro q hq
    rw [find?_put]
    by_cases h : q = name :: parent
    · rw [if_pos h]; rfl
    · rw [if_neg h]; exact hq

theorem Grows.start {d d' : Disk} (h : Grows d d') (p : Path) : d'.start p = d.start p := by
  unfold Disk.start
  cases p.anchor with
  | here => exact h.here
  | root => rfl
  | doubleRoot => rfl

/-- A step of a walk needs a directory to stand in and a name that is taken. -/
theorem step_eq_ok_iff {d : Disk} {place q : Place} {name : String} :
    d.step place name = .ok q ↔
      d.isDirectoryAt place = true ∧
        ((name = ".." ∧ q = place.tail) ∨
          (name ≠ ".." ∧ name.utf8ByteSize ≤ maxName ∧ (d.find? (name :: place)).isSome = true ∧
            q = name :: place)) := by
  unfold step
  by_cases hdir : d.isDirectoryAt place = true
  · by_cases hup : name = ".."
    · subst hup
      simp only [hdir, Bool.not_true, Bool.false_eq_true, if_false, if_true, Except.ok.injEq,
        true_and, ne_eq, not_true_eq_false, false_and, or_false]
      exact ⟨Eq.symm, Eq.symm⟩
    · by_cases hlong : maxName < name.utf8ByteSize
      · simp [hdir, hup, hlong, Nat.not_le.mpr hlong]
      · have hshort : name.utf8ByteSize ≤ maxName := Nat.not_lt.mp hlong
        by_cases htaken : (d.find? (name :: place)).isSome = true
        · simp only [hdir, hup, hlong, hshort, htaken, Bool.not_true, Bool.false_eq_true, if_false,
            if_true, Except.ok.injEq, true_and, false_and, false_or, ne_eq, not_false_eq_true]
          exact ⟨Eq.symm, Eq.symm⟩
        · simp [hdir, hup, hlong, htaken]
  · simp [hdir]

theorem Grows.step {d d' : Disk} (h : Grows d d') {place q : Place} {name : String}
    (hs : d.step place name = .ok q) : d'.step place name = .ok q := by
  rw [step_eq_ok_iff] at hs ⊢
  obtain ⟨hdir, hup | ⟨hne, hshort, htaken, hq⟩⟩ := hs
  · exact ⟨h.directories _ hdir, Or.inl hup⟩
  · exact ⟨h.directories _ hdir, Or.inr ⟨hne, hshort, h.taken _ htaken, hq⟩⟩

/-- A walk that arrives still arrives when the disk has grown, and at the same place. -/
theorem Grows.walk {d d' : Disk} (h : Grows d d') {names : List String} :
    ∀ {place q : Place}, d.walk place names = .ok q → d'.walk place names = .ok q := by
  induction names with
  | nil => intro place q hw; exact hw
  | cons name rest ih =>
    intro place q hw
    simp only [Disk.walk] at hw ⊢
    cases hs : d.step place name with
    | error fault => rw [hs] at hw; cases hw
    | ok next =>
      rw [hs] at hw
      rw [h.step hs]
      exact ih hw

theorem walk_append {d : Disk} {names more : List String} :
    ∀ {place q : Place}, d.walk place names = .ok q →
      d.walk place (names ++ more) = d.walk q more := by
  induction names with
  | nil => intro place q hw; cases hw; rfl
  | cons name rest ih =>
    intro place q hw
    simp only [List.cons_append, Disk.walk] at hw ⊢
    cases hs : d.step place name with
    | error fault => rw [hs] at hw; cases hw
    | ok next => rw [hs] at hw; exact ih hw

/-! ### Seats -/

/-- The path ends with a name of its own, `name`, below the directory `parent`. -/
structure Seat (d : Disk) (p : Path) (parent : Place) (name : String) : Prop where
  fits : unfit? p = none
  leads : d.walk (d.start p) p.names.dropLast = .ok parent
  inside : d.isDirectoryAt parent = true
  last : p.names.getLast? = some name
  proper : name ≠ ".."
  short : name.utf8ByteSize ≤ maxName

theorem Grows.seat {d d' : Disk} (h : Grows d d') {p : Path} {parent : Place} {name : String}
    (s : Seat d p parent name) : Seat d' p parent name where
  fits := s.fits
  leads := by rw [h.start]; exact h.walk s.leads
  inside := h.directories _ s.inside
  last := s.last
  proper := s.proper
  short := s.short

/-- A path has at most one seat. -/
theorem Seat.unique {d : Disk} {p : Path} {parent parent' : Place} {name name' : String}
    (s : Seat d p parent name) (s' : Seat d p parent' name') : parent = parent' ∧ name = name' := by
  constructor
  · have h := s.leads.symm.trans s'.leads
    cases h
    rfl
  · have h := s.last.symm.trans s'.last
    cases h
    rfl

theorem Seat.names_eq {d : Disk} {p : Path} {parent : Place} {name : String}
    (s : Seat d p parent name) : p.names = p.names.dropLast ++ [name] := by
  obtain ⟨init, hinit⟩ := List.getLast?_eq_some_iff.mp s.last
  rw [hinit]
  simp

/-- The names of a path lead to its seat as soon as something stands there. -/
theorem Seat.walk {d : Disk} {p : Path} {parent : Place} {name : String}
    (s : Seat d p parent name) (htaken : (d.find? (name :: parent)).isSome = true) :
    d.walk (d.start p) p.names = .ok (name :: parent) := by
  rw [s.names_eq, walk_append s.leads]
  have hstep : d.step parent name = .ok (name :: parent) :=
    step_eq_ok_iff.mpr ⟨s.inside, Or.inr ⟨s.proper, s.short, htaken, rfl⟩⟩
  simp only [Disk.walk, hstep]

theorem Seat.locate {d : Disk} {p : Path} {parent : Place} {name : String}
    (s : Seat d p parent name) (htaken : (d.find? (name :: parent)).isSome = true) :
    d.locate p = .ok (name :: parent) := by
  unfold Disk.locate
  rw [s.fits]
  exact s.walk htaken

theorem Seat.read {d : Disk} {p : Path} {parent : Place} {name : String} {bytes : ByteArray}
    (s : Seat d p parent name) (h : d.find? (name :: parent) = some (.file bytes)) :
    d.read p = .ok bytes := by
  unfold Disk.read
  rw [s.locate (by rw [h]; rfl)]
  simp only [h]

/-! ### Writing -/

/-- The disk after a file has been set on a free or filed seat. -/
structure Filed (d d' : Disk) (parent : Place) (name : String) (bytes : ByteArray) : Prop where
  grows : Grows d d'
  found : ∀ q, d'.find? q = if q = name :: parent then some (.file bytes) else d.find? q
  noDirectory : d.isDirectoryAt (name :: parent) = false

/-- Putting a file succeeds only on a seat, and sets just that. -/
theorem putFile_ok {nameless : DiskFault} {d d' : Disk} {p : Path} {bytes : ByteArray}
    (h : putFile nameless d p bytes = .ok d') :
    ∃ parent name, Seat d p parent name ∧ Filed d d' parent name bytes := by
  unfold putFile locateParent at h
  cases hfit : unfit? p with
  | some fault => simp [hfit] at h
  | none =>
    cases hwalk : d.walk (d.start p) p.names.dropLast with
    | error fault => simp [hfit, hwalk] at h
    | ok parent =>
      by_cases hdir : d.isDirectoryAt parent = true
      · cases hlast : p.names.getLast? with
        | none => simp [hfit, hwalk, hdir, hlast] at h
        | some name =>
          by_cases hup : name = ".."
          · simp [hfit, hwalk, hdir, hlast, hup] at h
          · by_cases hlong : maxName < name.utf8ByteSize
            · simp [hfit, hwalk, hdir, hlast, hup, hlong] at h
            · by_cases hfree : d.isDirectoryAt (name :: parent) = false
              · simp only [hfit, hwalk, hdir, hlast, hup, hlong, hfree, if_true, if_false,
                  dif_pos, Except.ok.injEq] at h
                subst h
                refine ⟨parent, name, ⟨hfit, hwalk, hdir, hlast, hup, Nat.not_lt.mp hlong⟩, ?_⟩
                exact ⟨grows_put .., fun q => find?_put .., hfree⟩
              · simp [hfit, hwalk, hdir, hlast, hup, hlong, hfree] at h
      · simp [hfit, hwalk, hdir] at h

/-- The bytes that were just written are read. -/
theorem read_of_writeFile {d d' : Disk} {p : Path} {bytes : ByteArray}
    (h : d.writeFile p bytes = .ok d') : d'.read p = .ok bytes := by
  obtain ⟨parent, name, hseat, hfiled⟩ := putFile_ok h
  exact (hfiled.grows.seat hseat).read (by rw [hfiled.found, if_pos rfl])

/-- Nothing is written to a path without a name. -/
theorem names_ne_nil_of_writeFile {d d' : Disk} {p : Path} {bytes : ByteArray}
    (h : d.writeFile p bytes = .ok d') : p.names ≠ [] := by
  obtain ⟨parent, name, hseat, -⟩ := putFile_ok h
  rw [hseat.names_eq]
  exact List.append_ne_nil_of_right_ne_nil _ (by simp)

/-- **A text is written as a whole.** A write that succeeds has a seat, sets it to the bytes of
    the text, and touches nothing else. -/
theorem writeText_ok {d d' : Disk} {p : Path} {text : String} (h : d.writeText p text = .ok d') :
    ∃ parent name, Seat d p parent name ∧ Filed d d' parent name text.toUTF8 := by
  unfold writeText at h
  cases hfresh : d.freshFault? p with
  | some fault => rw [hfresh] at h; cases h
  | none =>
    rw [hfresh] at h
    unfold replaceFile at h
    cases hput : putFile .busy d p text.toUTF8 with
    | error fault => rw [hput] at h; cases h
    | ok d'' =>
      rw [hput] at h
      cases h
      exact putFile_ok hput

end Disk

end TestScaffold
