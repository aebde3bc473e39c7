/-
  TestScaffold/Files/Staging.lean
  ===============================
  The steps in which a text takes its place.

  A content is written to a fresh file in the directory of its target, which is
  then moved over the target.  The file may not be made, may not take all of the
  content, or may not be moved, for the sake of the disk or of the system below
  it; what the system decides is given as `Circumstances`.  Such a fault takes the
  fresh file away again before it is told.

  A content may hold surrogates that stand alone.  They have no encoding, and that
  is no fault of the system: the write ends where it is, and the fresh file stays.

  `Disk.writeText` says what the steps come to for a text.
-/
import TestScaffold.Files.Store

namespace TestScaffold

/-! ### Contents -/

/-- A unit of a content: a character, or a surrogate that stands alone. -/
inductive ContentUnit where
  | char (c : Char)
  | surrogate (n : Fin 2048)
deriving DecidableEq, Repr

/-- The character that a unit is. -/
def ContentUnit.char? : ContentUnit → Option Char
  | char c => some c
  | surrogate _ => none

/-- The content that a text is. -/
def contentOf (text : String) : List ContentUnit := text.toList.map .char

/-- The text that a content is, unless it holds a surrogate. -/
def textOf? (content : List ContentUnit) : Option String :=
  (content.mapM ContentUnit.char?).map String.ofList

@[simp] theorem textOf?_contentOf (text : String) : textOf? (contentOf text) = some text := by
  have hmap : ∀ cs : List Char, (cs.map ContentUnit.char).mapM ContentUnit.char? = some cs := by
    intro cs
    induction cs with
    | nil => rfl
    | cons c rest ih => simp [List.mapM_cons, ContentUnit.char?, ih]
  simp [textOf?, contentOf, hmap]

/-! ### Setting files and taking them away -/

namespace Entry

/-- The entries without those of one place. -/
def erase (place : Place) (es : List (Place × Entry)) : List (Place × Entry) :=
  es.filter fun (q, _) => q != place

theorem find?_erase (place q : Place) (es : List (Place × Entry)) :
    find? q (erase place es) = if q = place then none else find? q es := by
  induction es with
  | nil => simp [erase, find?]
  | cons head rest ih =>
    obtain ⟨r, f⟩ := head
    unfold erase at ih ⊢
    by_cases hr : r = place
    · subst hr
      by_cases h : q = r
      · simpa [h] using ih
      · simpa [h, find?, Ne.symm h] using ih
    · by_cases h : r = q
      · subst h
        simp [hr, find?]
      · simp [hr, find?, h, ih]

/-- Where no directory stands, taking away changes no directory. -/
theorem isDirectoryAt_erase {place : Place} {es : List (Place × Entry)}
    (hfile : isDirectoryAt es place = false) (q : Place) :
    isDirectoryAt (erase place es) q = isDirectoryAt es q := by
  cases q with
  | nil => rfl
  | cons n parent =>
    simp only [isDirectoryAt, find?_erase]
    by_cases h : n :: parent = place
    · subst h
      simpa [isDirectoryAt] using hfile.symm
    · rw [if_neg h]

end Entry

namespace Disk

/-- The disk without the file at a place. A directory stays. -/
def removeFile (d : Disk) (place : Place) : Disk :=
  if h : d.isDirectoryAt place = false then
    { entries := Entry.erase place d.entries
      here := d.here
      closed := by
        intro n parent htaken
        rw [Entry.isDirectoryAt_erase h]
        rw [Entry.find?_erase] at htaken
        split at htaken
        · cases htaken
        · exact d.closed n parent htaken
      here_isDirectory := by
        rw [Entry.isDirectoryAt_erase h]
        exact d.here_isDirectory }
  else d

/-- The disk with a file set at a place in one of its directories. -/
def setFile (d : Disk) (place : Place) (bytes : ByteArray) : Disk :=
  match place with
  | [] => d
  | name :: parent =>
    if h : d.isDirectoryAt parent = true ∧ d.isDirectoryAt (name :: parent) = false then
      d.put name parent (.file bytes) h.1 (.inr h.2)
    else d

/-- Moves the file at a place over the one where a path ends. -/
def moveFile (d : Disk) (place : Place) (p : Path) : Except DiskFault Disk :=
  match d.find? place with
  | some (.file bytes) => (d.replaceFile p bytes).map (·.removeFile place)
  | _ => .error .notFound

end Disk

/-! ### Fresh files -/

/-- The characters that tags of fresh names are made of. -/
def tagChars : List Char := "abcdefghijklmnopqrstuvwxyz0123456789_".toList

/-- The letters that tell a fresh name from others. -/
structure FreshTag where
  letters : List Char
  eight : letters.length = 8
  plain : letters.all tagChars.contains = true

/-- The name of a fresh file next to a target. -/
def freshName (p : Path) (tag : FreshTag) : String :=
  "." ++ p.name ++ "." ++ String.ofList tag.letters ++ ".tmp"

/-- A fault that the system finds, whatever the path is. -/
structure Refusal where
  fault : DiskFault
  isOfSystem : fault ≠ .nulInPath

/-- What befalls a write beyond what its disk decides. -/
structure Circumstances where
  /-- The tags of fresh names, in the order in which they are tried. -/
  tags : List FreshTag
  making? : Option Refusal := none
  /-- How many bytes the fresh file takes before it takes no more. -/
  filling? : Option (Nat × Refusal) := none
  moving? : Option Refusal := none

/-- Why no content is written. -/
inductive StagingError where
  | refused (cause : WriteError)
  | unencodable
deriving DecidableEq, Repr

namespace Disk

/-- The directory that a fresh file next to a target is made in. -/
def freshDirectory (d : Disk) (p : Path) : Except DiskFault Place :=
  match d.freshFault? p with
  | some fault => .error fault
  | none => d.walk [] (lexicalPlace (d.start p) p.parent.names).reverse

/-- The place of a fresh file next to a target. -/
def freshPlace (d : Disk) (p : Path) (c : Circumstances) : Except DiskFault Place :=
  match d.freshDirectory p with
  | .error fault => .error fault
  | .ok directory =>
    match c.making? with
    | some refusal => .error refusal.fault
    | none =>
      match c.tags.find? fun tag => (d.find? (freshName p tag :: directory)).isNone with
      | some tag => .ok (freshName p tag :: directory)
      | none => .error .occupied

/-- Writes a text to the fresh file at a place and moves it over the target. -/
def replaceFrom (d : Disk) (fresh : Place) (p : Path) (text : String) (c : Circumstances) :
    Disk × Except DiskFault Unit :=
  match c.filling? with
  | some (n, refusal) =>
    ((d.setFile fresh (text.toUTF8.extract 0 n)).removeFile fresh, .error refusal.fault)
  | none =>
    let filled := d.setFile fresh text.toUTF8
    match c.moving? with
    | some refusal => (filled.removeFile fresh, .error refusal.fault)
    | none =>
      match filled.moveFile fresh p with
      | .ok d' => (d', .ok ())
      | .error fault => (filled.removeFile fresh, .error fault)

/-- Writes a content step by step: the disk that the write leaves, and what it comes to. -/
def stage (d : Disk) (p : Path) (content : List ContentUnit) (c : Circumstances) :
    Disk × Except StagingError Unit :=
  match d.freshPlace p c with
  | .error fault => (d, .error (.refused (.refused p fault)))
  | .ok fresh =>
    let made := d.setFile fresh ByteArray.empty
    match textOf? content with
    | none => (made, .error .unencodable)
    | some text =>
      let (d', result) := made.replaceFrom fresh p text c
      (d', result.mapError fun fault => .refused (.refused p fault))

end Disk

end TestScaffold
