/-
  TestScaffold/Text/CharClass.lean
  ================================
  Which characters count as blank, as digits, as letters of a name, and how a
  capital becomes small.

  Every class is decided by a comparison for ASCII and by a table of
  `Text/CharTable.lean` above it.
-/
import TestScaffold.Text.CharTable

namespace TestScaffold.Text

/-- A blank character of any script, the four separators from U+001C to U+001F included. -/
def isBlank (c : Char) : Bool :=
  let n := c.toNat
  if n < 128 then (9 ≤ n && n ≤ 13) || (28 ≤ n && n ≤ 32) else inRuns blankRuns n

/-- An ASCII capital letter. -/
def isAsciiUpper (c : Char) : Bool := 'A' ≤ c && c ≤ 'Z'

/-- An ASCII letter. -/
def isAsciiLetter (c : Char) : Bool := isAsciiUpper c || ('a' ≤ c && c ≤ 'z')

/-- An ASCII digit. -/
def isAsciiDigit (c : Char) : Bool := '0' ≤ c && c ≤ '9'

/-- The start of the alphabet of ten that holds `n`, in a list of digit runs. -/
def zeroBelow : List Nat → Nat → Option Nat
  | a :: b :: rest, n =>
    if n < a then none else if n < b then some (n - (n - a) % 10) else zeroBelow rest n
  | _, _ => none

/-- The value of a decimal digit of any script. -/
def digitValue? (c : Char) : Option Nat :=
  let n := c.toNat
  if n < 128 then if isAsciiDigit c then some (n - 48) else none
  else (zeroBelow decimalZeroRuns n).map (n - ·)

/-- A decimal digit of any script. -/
def isDecimal (c : Char) : Bool := (digitValue? c).isSome

/-- A letter or number of any script, or the underscore. -/
def isWord (c : Char) : Bool :=
  let n := c.toNat
  if n < 128 then isAsciiLetter c || isAsciiDigit c || c == '_' else inRuns wordRuns n

/-- A character that may begin an identifier of source text. -/
def isIdentifierStart (c : Char) : Bool :=
  let n := c.toNat
  if n < 128 then isAsciiLetter c || c == '_' else inRuns identifierStartRuns n

/-- A character that may go on with an identifier of source text. -/
def isIdentifierPart (c : Char) : Bool :=
  let n := c.toNat
  if n < 128 then isAsciiLetter c || isAsciiDigit c || c == '_' else inRuns identifierPartRuns n

/-- A character that is written as itself in a quoted message. -/
def isVisible (c : Char) : Bool :=
  let n := c.toNat
  if n < 128 then 32 ≤ n && n < 127 else !inRuns hiddenRuns n

/-- The small letter of `n` by a list of moves, or `n` itself. -/
def smallBy : List (Nat × Nat × Nat × Int) → Nat → Nat
  | (a, b, step, distance) :: rest, n =>
    if a ≤ n && n ≤ b && (n - a) % step == 0 then (n + distance).toNat else smallBy rest n
  | [], n => n

/-- The small form of one character. The dotted capital I alone has two characters. -/
def toSmall (c : Char) : List Char :=
  let n := c.toNat
  if n < 128 then [if isAsciiUpper c then Char.ofNat (n + 32) else c]
  else if n = 304 then ['i', Char.ofNat 775]
  else [Char.ofNat (smallBy smallLetterRuns n)]

/-- A character that has a case. -/
def isCased (c : Char) : Bool :=
  let n := c.toNat
  if n < 128 then isAsciiLetter c else inRuns casedRuns n

/-- A character that the test for the end of a cased word looks through. -/
def isCaseIgnorable (c : Char) : Bool :=
  let n := c.toNat
  if n < 128 then c == '\'' || c == '.' || c == ':' || c == '^' || c == '\x60'
  else inRuns caseIgnorableRuns n

/-- Whether the nearest character that is not looked through has a case. -/
def casedAhead (cs : List Char) : Bool :=
  match cs.dropWhile isCaseIgnorable with
  | c :: _ => isCased c
  | [] => false

/-- Small letters after `before` (nearest first). A capital sigma that ends a word takes the
final form. -/
def lowerFrom (before : List Char) : List Char → List Char
  | [] => []
  | c :: rest =>
    let small :=
      if c == 'Σ' && casedAhead before && !casedAhead rest then ['ς'] else toSmall c
    small ++ lowerFrom (c :: before) rest

/-- The text in small letters. -/
def lower (s : String) : String := String.ofList (lowerFrom [] s.toList)

end TestScaffold.Text
