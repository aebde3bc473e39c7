/-
  TestScaffold/Proofs/Files/Reading.lean
  ======================================
  **What reading a text depends on.**

  A path that leads to an entry still leads there when the disk has grown, so the
  path has the same text as long as that entry is the same (`Grows.readText_eq`).
  Where a directory was made with its parents, every path that led to an entry
  before has the text it had (`Paved.readText_eq`); other paths may lead through
  the new directories and have a text only now.
-/
import TestScaffold.Proofs.Files.Directories

namespace TestScaffold.Disk

variable {d d' : Disk} {p : Path} {q : Place}

/-! ### Entries that paths lead to -/

/-- The directory of an entry is an entry. -/
theorem find?_isSome_tail (h : (d.find? q).isSome = true) : (d.find? q.tail).isSome = true := by
  cases q with
  | nil => rfl
  | cons n parent => exact find?_isSome_of_isDirectoryAt (d.closed n parent h)

/-- A walk from an entry ends at an entry. -/
theorem find?_isSome_of_walk {names : List String} :
    ∀ {place : Place}, (d.find? place).isSome = true → d.walk place names = .ok q →
      (d.find? q).isSome = true := by
  induction names with
  | nil =>
    intro place hplace hwalk
    cases hwalk
    exact hplace
  | cons name rest ih =>
    intro place hplace hwalk
    simp only [Disk.walk] at hwalk
    cases hstep : d.step place name with
    | error fault => rw [hstep] at hwalk; cases hwalk
    | ok next =>
      rw [hstep] at hwalk
      refine ih ?_ hwalk
      obtain ⟨_, ⟨_, rfl⟩ | ⟨_, _, htaken, rfl⟩⟩ := step_eq_ok_iff.mp hstep
      · exact find?_isSome_tail hplace
      · exact htaken

theorem start_isDirectory (d : Disk) (p : Path) : d.isDirectoryAt (d.start p) = true := by
  unfold Disk.start
  cases p.anchor with
  | here => exact d.here_isDirectory
  | root => rfl
  | doubleRoot => rfl

theorem walk_of_locate (h : d.locate p = .ok q) : d.walk (d.start p) p.names = .ok q := by
  unfold locate at h
  split at h
  · cases h
  · exact h

theorem find?_isSome_of_locate (h : d.locate p = .ok q) : (d.find? q).isSome = true :=
  find?_isSome_of_walk (find?_isSome_of_isDirectoryAt (start_isDirectory d p)) (walk_of_locate h)

/-- A path leads where it led before. -/
theorem Grows.locate (h : Grows d d') (hlocate : d.locate p = .ok q) : d'.locate p = .ok q := by
  unfold Disk.locate at hlocate ⊢
  split at hlocate
  · cases hlocate
  · rw [h.start]
    exact h.walk hlocate

/-- Where bytes are read there is an entry. -/
theorem hasEntry_of_read {bytes : ByteArray} (h : d.read p = .ok bytes) :
    d.hasEntry p = .ok true := by
  unfold Disk.read at h
  cases hlocate : d.locate p with
  | error fault => simp [hlocate] at h
  | ok q =>
    have htaken := find?_isSome_of_locate hlocate
    simp only [hasEntry, entryAt?, hlocate, Except.map, htaken]

/-! ### Texts -/

theorem fromUTF8?_toUTF8 (s : String) : String.fromUTF8? s.toUTF8 = some s :=
  dif_pos s.isValidUTF8

/-- A text is read from the file that the path leads to. -/
theorem exists_file_of_readText {text : String} (h : d.readText p = .ok text) :
    ∃ q bytes, d.locate p = .ok q ∧ d.find? q = some (.file bytes) := by
  unfold readText Disk.read at h
  cases hlocate : d.locate p with
  | error fault =>
    rw [hlocate] at h
    cases fault <;> cases h
  | ok q =>
    rw [hlocate] at h
    cases hfind : d.find? q with
    | none => simp [hfind] at h
    | some e =>
      cases e with
      | directory => simp [hfind] at h
      | file bytes => exact ⟨q, bytes, rfl, hfind⟩

/-- The text of a path stays as long as the entry does that it leads to. -/
theorem Grows.readText_eq (h : Grows d d') (hlocate : d.locate p = .ok q)
    (hfound : d'.find? q = d.find? q) : d'.readText p = d.readText p := by
  simp only [readText, Disk.read, hlocate, h.locate hlocate, hfound]

/-- **A path that led to an entry reads as it did before the directories were made.** -/
theorem Paved.readText_eq {way : Path} (h : Paved d d' way) (hlocate : d.locate p = .ok q) :
    d'.readText p = d.readText p := by
  refine h.grows.readText_eq hlocate ?_
  rcases h.onTheWay q with hsame | ⟨hnone, _⟩
  · exact hsame
  · have htaken := find?_isSome_of_locate hlocate
    rw [hnone] at htaken
    cases htaken

end TestScaffold.Disk
