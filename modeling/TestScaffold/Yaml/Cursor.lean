/-
  TestScaffold/Yaml/Cursor.lean
  =============================
  A place in a YAML stream: the characters from there on, and how far into the
  stream and into its line it is.

  Line ends are the line feed, the next-line character and the two Unicode
  separators.  A byte order mark takes no column.
-/
import TestScaffold.Text.Words

namespace TestScaffold.Yaml

/-- The byte order mark. -/
def byteOrderMark : Char := Char.ofNat 0xFEFF

/-- A character that ends a line. -/
def isBreak (c : Char) : Bool :=
  c == '\n' || c.toNat == 0x85 || c.toNat == 0x2028 || c.toNat == 0x2029

/-- A space, a tab or the end of a line. -/
def isGap (c : Char) : Bool := c == ' ' || c == '\t' || isBreak c

/-- Whether the stream ends, or goes on with a character of the class. -/
def endsOr (cls : Char → Bool) : List Char → Bool
  | [] => true
  | c :: _ => cls c

/-- A place in the stream. -/
structure Cursor where
  rest : List Char
  index : Nat := 0
  line : Nat := 0
  column : Nat := 0

namespace Cursor

/-- The next character. -/
def peek? (k : Cursor) : Option Char := k.rest.head?

/-- Whether the next character is this one. -/
def isAt (k : Cursor) (c : Char) : Bool := k.rest.head? == some c

/-- Whether the next character is of a class. -/
def isIn (k : Cursor) (cls : Char → Bool) : Bool := k.rest.head?.any cls

/-- Whether the stream ends here or the next character is of a class. -/
def endsOrIn (k : Cursor) (cls : Char → Bool) : Bool := endsOr cls k.rest

/-- The place behind the next character. -/
def next (k : Cursor) : Cursor :=
  match k.rest with
  | [] => k
  | c :: rest =>
    if isBreak c then { rest, index := k.index + 1, line := k.line + 1, column := 0 }
    else if c = byteOrderMark then { k with rest, index := k.index + 1 }
    else { k with rest, index := k.index + 1, column := k.column + 1 }

/-- The place some characters further on. -/
def skip (k : Cursor) : Nat → Cursor
  | 0 => k
  | n + 1 => skip k.next n

/-- The place behind all characters of a class. -/
def skipWhile (k : Cursor) (cls : Char → Bool) : Cursor :=
  k.skip (k.rest.takeWhile cls).length

/-- The place behind the line end that stands here, with the character that it counts as. -/
def lineEnd? (k : Cursor) : Option (Char × Cursor) :=
  match k.rest with
  | c :: _ =>
    if isBreak c then some (if c.toNat == 0x85 then '\n' else c, k.next) else none
  | [] => none

/-- Whether a mark of three characters stands here, with nothing joined to it. -/
def hasMark (k : Cursor) (c : Char) : Bool :=
  match k.rest with
  | a :: b :: d :: rest => a == c && b == c && d == c && endsOr isGap rest
  | _ => false

/-- Whether a line of this place begins or ends a document. -/
def isDocumentMark (k : Cursor) : Bool := k.hasMark '-' || k.hasMark '.'

/-- The place behind blanks and a comment, if only these are left on the line. -/
def restOfLine? (k : Cursor) : Option Cursor :=
  let k := k.skipWhile (· == ' ')
  let k := if k.isAt '#' then k.skipWhile (!isBreak ·) else k
  if k.endsOrIn isBreak then some k.next else none

end Cursor

end TestScaffold.Yaml
