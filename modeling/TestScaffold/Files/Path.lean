/-
  TestScaffold/Files/Path.lean
  ============================
  Paths as written: where they start and the names on the way.

  Empty names and single points drop out when a path is read, a trailing slash
  with them; two points stay, because what they mean depends on the disk.
-/
import TestScaffold.Text.Words

namespace TestScaffold

open TestScaffold.Text

/-- Where a path starts. A path with exactly two leading slashes keeps both. -/
inductive Anchor where
  | here
  | root
  | doubleRoot
deriving DecidableEq, Repr

/-- A path: its start and its names. -/
structure Path where
  anchor : Anchor := .here
  names : List String
deriving DecidableEq, Repr

namespace Path

/-- The start that the leading slashes of a text stand for. -/
def anchorOf (cs : List Char) : Anchor :=
  match (cs.takeWhile (· == '/')).length with
  | 0 => .here
  | 2 => .doubleRoot
  | _ => .root

/-- Whether a piece between slashes is a name of the path. -/
def isName (piece : String) : Bool := piece != "" && piece != "."

/-- The path that a text writes. -/
def ofString (s : String) : Path :=
  { anchor := anchorOf s.toList, names := (splitOn '/' s).filter isName }

/-- The slashes at the start. -/
def Anchor.text : Anchor → String
  | .here => ""
  | .root => "/"
  | .doubleRoot => "//"

/-- The text of a path; the path without names is a point. -/
def text (p : Path) : String :=
  if p.anchor = .here ∧ p.names = [] then "."
  else Anchor.text p.anchor ++ joinWith "/" p.names

/-- The second path seen from the first one. -/
def append (p q : Path) : Path :=
  if q.anchor = .here then { p with names := p.names ++ q.names } else q

instance : Append Path := ⟨append⟩

/-- The path with one more name. -/
def child (p : Path) (name : String) : Path := { p with names := p.names ++ [name] }

/-- The path without its last name. -/
def parent (p : Path) : Path := { p with names := p.names.dropLast }

/-- The last name, or nothing. -/
def name (p : Path) : String := p.names.getLastD ""

/-- A name up to its last point and from there on. A point at either end of the name does not
count. -/
def splitName (name : String) : String × String :=
  let back := name.toList.reverse
  let tail := back.takeWhile (· != '.')
  match back.dropWhile (· != '.') with
  | [] => (name, "")
  | _ :: stem =>
    if tail.isEmpty || stem.isEmpty then (name, "")
    else (String.ofList stem.reverse, String.ofList ('.' :: tail.reverse))

/-- The last name without its extension. -/
def stem (p : Path) : String := (splitName p.name).1

/-- The extension of the last name, point included. -/
def extension (p : Path) : String := (splitName p.name).2

/-- Whether a list of names comes before another, name by name. -/
def namesLe : List String → List String → Bool
  | [], _ => true
  | _ :: _, [] => false
  | a :: as, b :: bs => if a = b then namesLe as bs else decide (a < b)

/-- Whether a path comes before another: relative ones first, then name by name. -/
def le (p q : Path) : Bool :=
  let rooted (p : Path) := if p.anchor = .here then p.names else Anchor.text p.anchor :: p.names
  namesLe (rooted p) (rooted q)

end Path

end TestScaffold
