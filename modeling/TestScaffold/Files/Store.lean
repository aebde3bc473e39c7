/-
  TestScaffold/Files/Store.lean
  =============================
  Source text read from the disk, and generated text written to it.

  A text is written to a fresh file in the directory of its target, which then
  takes the place of the target in one step, so a failed write leaves the disk
  as it was.  Making a directory with its parents has no such step: parents
  that were made before a failure stay.
-/
import TestScaffold.Files.Disk
import TestScaffold.Text.Lines

namespace TestScaffold

open TestScaffold.Text

/-- Why no text can be read. -/
inductive ReadError where
  | missing (path : Path)
  | refused (path : Path) (fault : DiskFault)
  /-- The bytes of the file are not the encoding of a text. -/
  | notText (path : Path)
deriving DecidableEq, Repr

/-- Two sources that lead to one file. -/
structure Collision where
  path : Path
  first : String
  second : String
deriving DecidableEq, Repr

/-- A collision in words. -/
def Collision.text (c : Collision) : String :=
  c.path.text ++ " generated from both " ++ c.first ++ " and " ++ c.second

/-- What is said of a collision that is let happen. -/
def Collision.warning (c : Collision) : String := "Overwriting " ++ c.text

/-- Why nothing can be written. -/
inductive WriteError where
  | noDirectory (path : Path) (fault : DiskFault)
  | refused (path : Path) (fault : DiskFault)
  | collision (cause : Collision)
deriving DecidableEq, Repr

namespace ReadError

/-- The path of a failed reading. -/
def path : ReadError → Path
  | missing p => p
  | refused p _ => p
  | notText p => p

/-- A failed reading in words. -/
def message : ReadError → String
  | missing p => "File does not exist: " ++ p.text
  | refused p fault => "Failed to read " ++ p.text ++ ": " ++ fault.message
  | notText p => "Failed to read " ++ p.text ++ ": UnicodeDecodeError"

end ReadError

namespace WriteError

/-- The path of a failed writing. -/
def path : WriteError → Path
  | noDirectory p _ => p
  | refused p _ => p
  | collision cause => cause.path

/-- A failed writing in words. -/
def message : WriteError → String
  | noDirectory p fault =>
    "Failed to create output directory " ++ p.text ++ ": " ++ fault.message
  | refused p fault => "Failed to write " ++ p.text ++ ": " ++ fault.message
  | collision cause => "Output collision: " ++ cause.text

end WriteError

namespace Disk

/-- The text of a file. -/
def readText (d : Disk) (p : Path) : Except ReadError String :=
  match d.read p with
  | .ok bytes => match textOfBytes? bytes with
    | some text => .ok text
    | none => .error (.notText p)
  | .error .notFound => .error (.missing p)
  | .error fault => .error (.refused p fault)

/-- What is left of a fault of making a directory: nothing, if the directory is there. -/
def toleratedAt (d : Disk) (p : Path) (fault : DiskFault) : Option DiskFault :=
  match d.hasDirectory p with
  | .ok true => none
  | _ => some fault

/-- Makes the directory with these names, nearest first, and the parents that are missing. -/
def makeAll (d : Disk) (anchor : Anchor) : List String → Disk × Option DiskFault
  | [] =>
    match d.makeDirectory { anchor, names := [] } with
    | .ok d' => (d', none)
    | .error fault => (d, d.toleratedAt { anchor, names := [] } fault)
  | name :: rest =>
    let p : Path := { anchor, names := (name :: rest).reverse }
    match d.makeDirectory p with
    | .ok d' => (d', none)
    | .error .notFound =>
      match makeAll d anchor rest with
      | (d', some fault) => (d', some fault)
      | (d', none) =>
        match d'.makeDirectory p with
        | .ok d'' => (d'', none)
        | .error .notFound => (d', some .notFound)
        | .error fault => (d', d'.toleratedAt p fault)
    | .error fault => (d, d.toleratedAt p fault)

/-- Makes a directory and its parents, unless it is there. -/
def ensureDirectory (d : Disk) (p : Path) : Disk × Except WriteError Unit :=
  match d.makeAll p.anchor p.names.reverse with
  | (d', none) => (d', .ok ())
  | (d', some fault) => (d', .error (.noDirectory p fault))

/-- The place that names lead to if two points always cancel the name before them. -/
def lexicalPlace (place : Place) (names : List String) : Place :=
  names.foldl (fun place name => if name = ".." then place.tail else name :: place) place

/-- How much longer the name of the fresh file is than the name of its target. -/
def freshNameExcess : Nat := 14

/-- Why no fresh file can be made next to a target. -/
def freshFault? (d : Disk) (p : Path) : Option DiskFault :=
  if p.names.any (hasChar (Char.ofNat 0)) then some .nulInPath
  else
    match d.walk [] (lexicalPlace (d.start p) p.parent.names).reverse with
    | .error fault => some fault
    | .ok place =>
      if !d.isDirectoryAt place then some .notADirectory
      else if maxName < p.name.utf8ByteSize + freshNameExcess then some .nameTooLong
      else none

/-- Writes a text as a whole. -/
def writeText (d : Disk) (p : Path) (text : String) : Except WriteError Disk :=
  match d.freshFault? p with
  | some fault => .error (.refused p fault)
  | none => (d.replaceFile p text.toUTF8).mapError (.refused p)

end Disk

/-- Where generated text goes: a disk, or in a dry run a disk that is only looked at. -/
structure Outlet where
  disk : Disk
  isDryRun : Bool := false

namespace Outlet

/-- Makes a directory and its parents, unless it is there or the run is dry. -/
def ensureDirectory (o : Outlet) (p : Path) : Outlet × Except WriteError Unit :=
  if o.isDryRun then (o, .ok ())
  else
    let (disk, result) := o.disk.ensureDirectory p
    ({ o with disk }, result)

/-- Writes a text, unless the run is dry. -/
def writeText (o : Outlet) (p : Path) (text : String) : Except WriteError Outlet :=
  if o.isDryRun then .ok o
  else (o.disk.writeText p text).map fun disk => { o with disk }

end Outlet

end TestScaffold
