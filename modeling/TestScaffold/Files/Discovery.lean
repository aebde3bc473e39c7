/-
  TestScaffold/Files/Discovery.lean
  =================================
  Which source files a list of paths stands for.

  A path that leads to no directory stands for itself, whether or not anything
  is there.  A directory stands for the files below it that fit one of the
  patterns, in the order of their paths, without those inside an excluded
  directory.  A path that was listed before is not listed again.
-/
import TestScaffold.Files.Disk
import TestScaffold.Files.Pattern
import TestScaffold.Settings.Basic

namespace TestScaffold

/-- Why no files are found. -/
inductive DiscoveryError where
  | unscannable (directory : Path) (fault : DiskFault)
  | pattern (cause : PatternError)
  /-- The disk cannot tell what a path leads to. -/
  | disk (fault : DiskFault)
deriving DecidableEq, Repr

namespace DiscoveryError

/-- A cause in words. -/
def message : DiscoveryError → String
  | unscannable p fault => "Failed to scan " ++ p.text ++ ": " ++ fault.message
  | pattern cause => cause.message
  | disk fault => fault.message

end DiscoveryError

namespace Disk

/-- The results for each item, one after the other. -/
def gather {α β : Type} (f : α → Except DiskFault (List β)) :
    List α → Except DiskFault (List β)
  | [] => .ok []
  | a :: rest =>
    match f a, gather f rest with
    | .ok bs, .ok more => .ok (bs ++ more)
    | .error e, _ => .error e
    | _, .error e => .error e

/-- The names in the directory that a path leads to, with what they stand for. Two points stand for
the directory above it, not for an entry. -/
def listing (d : Disk) (p : Path) : Except DiskFault (List (String × Option Entry)) :=
  (d.locate p).map fun place =>
    ((d.namesIn place).filter (· != "..")).map fun name => (name, d.find? (name :: place))

/-- The directory at a place, to which a path leads, and all directories below it. -/
def directoriesBelow (d : Disk) (p : Path) (place : Place) : List Path :=
  p :: (d.below place).filterMap fun (names, _) =>
    if d.isDirectoryAt (names.reverse ++ place) && !names.contains ".." then
      some { p with names := p.names ++ names }
    else none

/-- The directory that a path leads to and all directories below it. Each of them is looked into,
so its path must be one that the disk can follow. -/
def directoriesFrom (d : Disk) (p : Path) : Except DiskFault (List Path) :=
  match d.locate p with
  | .error e => .error e
  | .ok place => gather (fun q => (d.locate q).map fun _ => [q]) (d.directoriesBelow p place)

/-- The paths from a directory on that fit the steps of a pattern. -/
def select (d : Disk) (isForDirectories : Bool) (p : Path) :
    List PatternStep → Except DiskFault (List Path)
  | [] => .ok [p]
  | .name name :: rest =>
    let q := p.child name
    let isThere := if rest.isEmpty && !isForDirectories then d.hasEntry q else d.hasDirectory q
    match isThere with
    | .ok true => select d isForDirectories q rest
    | .ok false => .ok []
    | .error e => .error e
  | .names wildcards :: rest =>
    let isNeeded (e? : Option Entry) : Bool :=
      (rest.isEmpty && !isForDirectories) || e?.any (·.isDirectory)
    match d.listing p with
    | .error e => .error e
    | .ok entries =>
      let fitting := entries.filter fun (name, e?) =>
        isNeeded e? && Wildcard.fitAll wildcards name.toList
      gather (fun (name, _) => select d isForDirectories (p.child name) rest) fitting
  | .anyDepth :: rest =>
    match d.directoriesFrom p with
    | .error e => .error e
    | .ok directories =>
      (gather (fun q => select d isForDirectories q rest) directories).map (·.eraseDups)

/-- Whether a path found below a directory goes through an excluded one. -/
def isExcluded (excluded : List String) (directory found : Path) : Bool :=
  ((found.names.drop directory.names.length).dropLast).any excluded.contains

/-- The files among paths, without the excluded ones. -/
def keepFiles (d : Disk) (excluded : List String) (directory : Path) (found : List Path) :
    Except DiskFault (List Path) :=
  gather (fun p => (d.hasFile p).map fun isFile =>
    if isFile && !isExcluded excluded directory p then [p] else []) found

/-- The files below a directory that fit some patterns, in no order. -/
def filesMatching (d : Disk) (excluded : List String) (directory : Path) :
    List String → Except DiscoveryError (List Path)
  | [] => .ok []
  | s :: rest =>
    match Pattern.ofString s with
    | .error cause => .error (.pattern cause)
    | .ok pattern =>
      match (d.select pattern.isForDirectories directory pattern.steps).bind
          (d.keepFiles excluded directory) with
      | .error fault => .error (.unscannable directory fault)
      | .ok found => (filesMatching d excluded directory rest).map (found ++ ·)

/-- The files that a directory stands for. -/
def scan (d : Disk) (settings : DiscoverySettings) (directory : Path) :
    Except DiscoveryError (List Path) :=
  (d.filesMatching settings.excluded directory settings.patterns).map fun found =>
    found.eraseDups.mergeSort Path.le

/-- The files that a path stands for. -/
def expand (d : Disk) (settings : DiscoverySettings) (p : Path) :
    Except DiscoveryError (List Path) :=
  match d.hasDirectory p with
  | .ok true => d.scan settings p
  | .ok false => .ok [p]
  | .error fault => .error (.disk fault)

/-- A list with further texts behind it, each of them once. -/
def addNew (seen : List String) : List String → List String
  | [] => seen
  | s :: rest => if seen.contains s then addNew seen rest else addNew (seen ++ [s]) rest

/-- The files that paths stand for, added to those found before. -/
def discoverFrom (d : Disk) (settings : DiscoverySettings) (seen : List String) :
    List Path → Except DiscoveryError (List String)
  | [] => .ok seen
  | p :: rest =>
    match d.expand settings p with
    | .ok found => discoverFrom d settings (addNew seen (found.map Path.text)) rest
    | .error e => .error e

/-- The files that paths stand for. -/
def discover (d : Disk) (settings : DiscoverySettings) (paths : List Path) :
    Except DiscoveryError (List String) :=
  d.discoverFrom settings [] paths

end Disk

end TestScaffold
