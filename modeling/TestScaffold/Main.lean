/-
  TestScaffold/Main.lean
  ======================
  The program on a real machine: it brings the files that a call may look at
  onto a disk value, makes the call, and saves what the call changed.
-/
import TestScaffold.Command.Session

namespace TestScaffold.Shell

/-- How deep directories are followed. -/
def maxDepth : Nat := 40

/-- The disk with what stands at a path of the machine, directories with their contents. What cannot
be read is left out. -/
def bring (d : Disk) (path : String) : Nat → IO Disk
  | 0 => return d
  | depth + 1 => do
    let real ← IO.FS.realPath path
    if ← real.isDir then
      let mut d := (d.ensureDirectory (.ofString path)).1
      for entry in ← real.readDir do
        d ← try bring d (path ++ "/" ++ entry.fileName) depth catch _ => pure d
      return d
    else
      let bytes ← IO.FS.readBinFile path
      let d := (d.ensureDirectory (Path.ofString path).parent).1
      return (d.writeFile (.ofString path) bytes).toOption.getD d

/-- The disk with what stands at each path that can be read. -/
def bringAll (d : Disk) (paths : List String) : IO Disk :=
  paths.foldlM (fun d path => try bring d path maxDepth catch _ => pure d) d

/-- The disk that a call with these words may look at. -/
def diskFor (words : List String) : IO Disk := do
  let here := (← IO.currentDir).toString
  let d := (Disk.empty.ensureDirectory (.ofString here)).1
  let place := (Path.ofString here).names.reverse
  let d := if h : d.isDirectoryAt place = true then d.moveTo place h else d
  bringAll d ("." :: words)

/-- Whether two entries are the same. -/
def sameEntry : Entry → Option Entry → Bool
  | .directory, some .directory => true
  | .file a, some (.file b) => a.data == b.data
  | _, _ => false

/-- Saves the entries that are new or changed. -/
def save (before after : Disk) : IO Unit :=
  for (place, entry) in after.entries do
    if !sameEntry entry (before.find? place) then
      let path := Path.text { anchor := .root, names := place.reverse }
      match entry with
      | .directory => IO.FS.createDirAll path
      | .file bytes => IO.FS.writeBinFile path bytes

/-- The names of the variables that settings may stand in. -/
def variableNames : List String :=
  let sections := (Schema.describeSections {}).flatMap fun (name, fields) =>
    name :: match fields with
      | .dict es => es.map fun (field, _) => name ++ "__" ++ field
      | _ => []
  (Environment.quietKey :: sections).map fun name => Environment.lead ++ name.toUpper

/-- The variables that settings stand in. -/
def environment : IO Environment := do
  let pairs ← variableNames.filterMapM fun name => return (← IO.getEnv name).map (name, ·)
  return .ofPairs pairs

/-- How the program is called. -/
def usageLines : List String :=
  ["Usage: sharpscaffold [OPTIONS] COMMAND [ARGS]...",
   "  generate PATHS...    Generate test scaffolds for source files and directories",
   "  init-config [PATH]   Write a sample configuration file"]

end TestScaffold.Shell

open TestScaffold in
def main (words : List String) : IO UInt32 := do
  let before ← Shell.diskFor words
  let session := Command.call (← Shell.environment) before words
  Shell.save before session.disk
  session.lines.forM IO.println
  match session.ending with
  | .done | .version => return 0
  | .help =>
    Shell.usageLines.forM IO.println
    return 0
  | .failed => return 1
  | .usage e =>
    if e = .empty then Shell.usageLines.forM IO.eprintln else IO.eprintln ("Error: " ++ e.message)
    return 2
  | .broken breakdown =>
    IO.eprintln ("Error: " ++ breakdown.message)
    return 1
