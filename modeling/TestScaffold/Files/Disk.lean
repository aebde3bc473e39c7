/-
  TestScaffold/Files/Disk.lean
  ============================
  A disk: directories and files by place, and the directory that relative
  paths start from.

  A place is the list of names from an entry up to the root, nearest first, so
  the parent of a place is its tail.  Every entry stands in a directory; the
  disk carries this as a proof.  There are no links, so two points lead to the
  tail of a place.
-/
import TestScaffold.Files.Path

namespace TestScaffold

open TestScaffold.Text

/-- The names from an entry up to the root. -/
abbrev Place := List String

/-- What stands at a place. -/
inductive Entry where
  | file (bytes : ByteArray)
  | directory

/-- Why the disk refuses a request. -/
inductive DiskFault where
  | notFound
  | busy
  | occupied
  | notADirectory
  | isADirectory
  | nameTooLong
  /-- The path holds the character NUL, which no name may hold. -/
  | nulInPath
deriving DecidableEq, Repr

namespace DiskFault

/-- The number and the words of a fault. -/
def message : DiskFault → String
  | notFound => "[Errno 2] No such file or directory"
  | busy => "[Errno 16] Device or resource busy"
  | occupied => "[Errno 17] File exists"
  | notADirectory => "[Errno 20] Not a directory"
  | isADirectory => "[Errno 21] Is a directory"
  | nameTooLong => "[Errno 36] File name too long"
  | nulInPath => "embedded null byte"

end DiskFault

namespace Entry

/-- Whether the entry is a directory. -/
def isDirectory : Entry → Bool
  | directory => true
  | file _ => false

/-- The first entry listed for a place. -/
def find? (place : Place) : List (Place × Entry) → Option Entry
  | [] => none
  | (q, e) :: rest => if q = place then some e else find? place rest

/-- The entries with one place set: where it is listed, else at the end. -/
def insert (place : Place) (e : Entry) : List (Place × Entry) → List (Place × Entry)
  | [] => [(place, e)]
  | (q, f) :: rest => if q = place then (place, e) :: rest else (q, f) :: insert place e rest

theorem find?_insert (place q : Place) (e : Entry) (es : List (Place × Entry)) :
    find? q (insert place e es) = if q = place then some e else find? q es := by
  induction es with
  | nil =>
    by_cases h : q = place
    · simp [insert, find?, h]
    · simp [insert, find?, h, Ne.symm h]
  | cons head rest ih =>
    obtain ⟨r, f⟩ := head
    by_cases hr : r = place
    · subst hr
      by_cases h : q = r
      · simp [insert, find?, h]
      · simp [insert, find?, h, Ne.symm h]
    · by_cases h : r = q
      · subst h
        simp [insert, find?, hr]
      · simp [insert, find?, hr, h, ih]

/-- Whether a directory stands at a place; the root always is one. -/
def isDirectoryAt (es : List (Place × Entry)) : Place → Bool
  | [] => true
  | place => (find? place es).any isDirectory

theorem isDirectoryAt_insert (place q : Place) (e : Entry) (es : List (Place × Entry))
    (keeps : e.isDirectory = true ∨ isDirectoryAt es place = false)
    (h : isDirectoryAt es q = true) : isDirectoryAt (insert place e es) q = true := by
  cases q with
  | nil => rfl
  | cons n p =>
    simp only [isDirectoryAt, find?_insert]
    by_cases hq : n :: p = place
    · subst hq
      rcases keeps with he | he
      · simp [he]
      · rw [h] at he
        cases he
    · simpa [isDirectoryAt, hq] using h

end Entry

/-- Entries by place, and the place of the working directory. -/
structure Disk where
  entries : List (Place × Entry)
  here : Place
  closed : ∀ n p, (Entry.find? (n :: p) entries).isSome →
    Entry.isDirectoryAt entries p = true
  here_isDirectory : Entry.isDirectoryAt entries here = true

namespace Disk

/-- The longest name, counted in bytes. -/
def maxName : Nat := 255

/-- The length in bytes that the text of a path must stay below. -/
def maxPath : Nat := 4096

/-- The disk with nothing but its root. -/
def empty : Disk where
  entries := []
  here := []
  closed := by intro n p h; simp [Entry.find?] at h
  here_isDirectory := rfl

instance : Inhabited Disk := ⟨empty⟩

/-- What stands at a place. -/
def find? (d : Disk) : Place → Option Entry
  | [] => some .directory
  | place => Entry.find? place d.entries

/-- Whether a directory stands at a place. -/
def isDirectoryAt (d : Disk) (place : Place) : Bool := Entry.isDirectoryAt d.entries place

/-- The disk with an entry set in a directory. A directory may not become a file. -/
def put (d : Disk) (name : String) (parent : Place) (e : Entry)
    (inside : d.isDirectoryAt parent = true)
    (keeps : e.isDirectory = true ∨ d.isDirectoryAt (name :: parent) = false) : Disk where
  entries := Entry.insert (name :: parent) e d.entries
  here := d.here
  closed := by
    intro n p h
    refine Entry.isDirectoryAt_insert _ _ _ _ keeps ?_
    rw [Entry.find?_insert] at h
    by_cases hp : n :: p = name :: parent
    · cases hp
      exact inside
    · rw [if_neg hp] at h
      exact d.closed n p h
  here_isDirectory := Entry.isDirectoryAt_insert _ _ _ _ keeps d.here_isDirectory

/-- The disk seen from one of its directories. -/
def moveTo (d : Disk) (place : Place) (h : d.isDirectoryAt place = true) : Disk :=
  { d with here := place, here_isDirectory := h }

/-! ### Following paths -/

/-- The entry that one more name leads to. -/
def step (d : Disk) (place : Place) (name : String) : Except DiskFault Place :=
  if !d.isDirectoryAt place then .error .notADirectory
  else if name = ".." then .ok place.tail
  else if maxName < name.utf8ByteSize then .error .nameTooLong
  else if (d.find? (name :: place)).isSome then .ok (name :: place) else .error .notFound

/-- The entry that names lead to. -/
def walk (d : Disk) (place : Place) : List String → Except DiskFault Place
  | [] => .ok place
  | name :: rest =>
    match d.step place name with
    | .ok next => walk d next rest
    | .error fault => .error fault

/-- The place where a path starts. -/
def start (d : Disk) (p : Path) : Place :=
  match p.anchor with
  | .here => d.here
  | _ => []

/-- A path that no disk can follow. -/
def unfit? (p : Path) : Option DiskFault :=
  if p.names.any (hasChar (Char.ofNat 0)) then some .nulInPath
  else if maxPath ≤ p.text.utf8ByteSize then some .nameTooLong
  else none

/-- The place of the entry that a path leads to. -/
def locate (d : Disk) (p : Path) : Except DiskFault Place :=
  match unfit? p with
  | some fault => .error fault
  | none => d.walk (d.start p) p.names

/-- The directory that holds the end of a path, whether or not the end is there. -/
def locateParent (d : Disk) (p : Path) : Except DiskFault Place :=
  match unfit? p with
  | some fault => .error fault
  | none =>
    match d.walk (d.start p) p.names.dropLast with
    | .ok place => if d.isDirectoryAt place then .ok place else .error .notADirectory
    | .error fault => .error fault

/-- The entry that a path leads to, if there is one. -/
def entryAt? (d : Disk) (p : Path) : Except DiskFault (Option Entry) :=
  match d.locate p with
  | .ok place => .ok (d.find? place)
  | .error .nameTooLong => .error .nameTooLong
  | .error _ => .ok none

/-- Whether a path leads to an entry. -/
def hasEntry (d : Disk) (p : Path) : Except DiskFault Bool := (d.entryAt? p).map (·.isSome)

/-- Whether a path leads to a directory. -/
def hasDirectory (d : Disk) (p : Path) : Except DiskFault Bool :=
  (d.entryAt? p).map fun e? => e?.any (·.isDirectory)

/-- Whether a path leads to a file. -/
def hasFile (d : Disk) (p : Path) : Except DiskFault Bool :=
  (d.entryAt? p).map fun e? => e?.any (!·.isDirectory)

/-- The bytes of the file that a path leads to. -/
def read (d : Disk) (p : Path) : Except DiskFault ByteArray :=
  match d.locate p with
  | .error fault => .error fault
  | .ok place => match d.find? place with
    | some (.file bytes) => .ok bytes
    | some .directory => .error .isADirectory
    | none => .error .notFound

/-! ### Making and replacing entries -/

/-- Makes one directory where nothing is yet. -/
def makeDirectory (d : Disk) (p : Path) : Except DiskFault Disk :=
  match d.locateParent p with
  | .error fault => .error fault
  | .ok parent =>
    match p.names.getLast? with
    | none => .error .occupied
    | some name =>
      if name = ".." then .error .occupied
      else if maxName < name.utf8ByteSize then .error .nameTooLong
      else if (d.find? (name :: parent)).isSome then .error .occupied
      else if h : d.isDirectoryAt parent = true then
        .ok (d.put name parent .directory h (.inl rfl))
      else .error .notADirectory

/-- Puts a file where a path ends, in place of a file that stands there. A path that ends without
a name of its own leads to a directory, and meets the fault `nameless`. -/
def putFile (nameless : DiskFault) (d : Disk) (p : Path) (bytes : ByteArray) :
    Except DiskFault Disk :=
  match d.locateParent p with
  | .error fault => .error fault
  | .ok parent =>
    match p.names.getLast? with
    | none => .error nameless
    | some name =>
      if name = ".." then .error nameless
      else if maxName < name.utf8ByteSize then .error .nameTooLong
      else if h : d.isDirectoryAt (name :: parent) = false then
        if hp : d.isDirectoryAt parent = true then
          .ok (d.put name parent (.file bytes) hp (.inr h))
        else .error .notADirectory
      else .error .isADirectory

/-- Lets another file take the place of the one where a path ends. -/
def replaceFile (d : Disk) (p : Path) (bytes : ByteArray) : Except DiskFault Disk :=
  putFile .busy d p bytes

/-- Writes a file from its beginning. -/
def writeFile (d : Disk) (p : Path) (bytes : ByteArray) : Except DiskFault Disk :=
  putFile .isADirectory d p bytes

/-! ### Contents -/

/-- The names of the entries in a directory. -/
def namesIn (d : Disk) (place : Place) : List String :=
  d.entries.filterMap fun (q, _) => match q with
    | name :: parent => if parent = place then some name else none
    | [] => none

/-- The names on the way from a place down to one below it, or nothing if it is not below. -/
def namesBelow? (place : Place) : Place → Option (List String)
  | [] => if place = [] then some [] else none
  | name :: parent =>
    if place = name :: parent then some []
    else (namesBelow? place parent).map (· ++ [name])

/-- The entries below a place, each with the names on the way to it. -/
def below (d : Disk) (place : Place) : List (List String × Entry) :=
  d.entries.filterMap fun (q, e) => match namesBelow? place q with
    | some (name :: names) => some (name :: names, e)
    | _ => none

end Disk

end TestScaffold
