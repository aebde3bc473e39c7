/-
  TestScaffold/Files/Pattern.lean
  ===============================
  Patterns of relative paths: names with wildcards, and two stars for any
  number of directories.

  A star stands for any characters of a name, a question mark for one, and
  brackets for one of a set.  A set holds characters and ranges; an exclamation
  mark in front turns it round; a range that ends before it begins holds
  nothing.
-/
import TestScaffold.Files.Path
import TestScaffold.Text.Quoted

namespace TestScaffold

open TestScaffold.Text

/-- What one part of a name may be. -/
inductive Wildcard where
  | anything
  | one
  | char (c : Char)
  | oneOf (isNegated : Bool) (chars : List Char) (ranges : List (Char × Char))
  | nothing
deriving DecidableEq, Repr

namespace Wildcard

/-- Whether one character fits. -/
def fits (c : Char) : Wildcard → Bool
  | anything => true
  | one => true
  | char d => c == d
  | oneOf isNegated chars ranges =>
    (chars.contains c || ranges.any fun r => r.1 ≤ c && c ≤ r.2) != isNegated
  | nothing => false

/-- Whether some end of a text, or all of it, has a property. -/
def anyEnd (p : List Char → Bool) : List Char → Bool
  | [] => p []
  | c :: rest => p (c :: rest) || anyEnd p rest

/-- Whether the characters of a name fit a list of wildcards. -/
def fitAll : List Wildcard → List Char → Bool
  | [], cs => cs.isEmpty
  | anything :: ws, cs => anyEnd (fitAll ws) cs
  | _ :: _, [] => false
  | w :: ws, c :: rest => w.fits c && fitAll ws rest

/-- The parts of a set between the lines that make ranges; a line among the first `skip`
characters of a part is a character. The first argument bounds the number of parts. -/
def rangeParts : Nat → Nat → List Char → List (List Char)
  | 0, _, cs => [cs]
  | fuel + 1, skip, cs =>
    let front := (cs.drop skip).takeWhile (· != '-')
    match (cs.drop skip).dropWhile (· != '-') with
    | [] => [cs]
    | _ :: rest =>
      match rangeParts fuel 2 rest with
      | [[]] => [cs.take skip ++ front ++ ['-']]
      | parts => (cs.take skip ++ front) :: parts

/-- The parts without the ranges that hold nothing. -/
def dropEmptyRanges : List (List Char) → List (List Char)
  | [] => []
  | part :: rest =>
    match dropEmptyRanges rest with
    | [] => [part]
    | next :: parts =>
      match part.getLast?, next.head? with
      | some a, some b =>
        if b < a then (part.dropLast ++ next.tail) :: parts else part :: next :: parts
      | _, _ => part :: next :: parts

/-- The ranges from the end of each part to the beginning of the next one. -/
def rangesOf : List (List Char) → List (Char × Char)
  | part :: next :: rest =>
    (match part.getLast?, next.head? with
      | some a, some b => [(a, b)]
      | _, _ => []) ++ rangesOf (next :: rest)
  | _ => []

/-- The wildcard that the text between two brackets stands for. -/
def ofSet (cs : List Char) : Wildcard :=
  let skip := if cs.head? == some '!' then 2 else 1
  let parts := if cs.contains '-' then dropEmptyRanges (rangeParts cs.length skip cs) else [cs]
  match parts with
  | [[]] => nothing
  | [['!']] => one
  | ('!' :: first) :: rest => oneOf true (first ++ rest.flatten) (rangesOf (first :: rest))
  | parts => oneOf false parts.flatten (rangesOf parts)

/-- The text of a set from behind its bracket, and what follows it, if it is closed. A closing
bracket right at its beginning belongs to it. -/
def setText? (cs : List Char) : Option (List Char × List Char) :=
  let mark := if cs.head? == some '!' then 1 else 0
  let lead := if (cs.drop mark).head? == some ']' then mark + 1 else mark
  let body := cs.take lead ++ (cs.drop lead).takeWhile (· != ']')
  match cs.drop body.length with
  | ']' :: rest => some (body, rest)
  | _ => none

/-- The wildcards that a pattern of a name writes. The first argument bounds their number. -/
def ofChars : Nat → List Char → List Wildcard
  | 0, _ => []
  | _ + 1, [] => []
  | fuel + 1, c :: rest =>
    if c == '*' then anything :: ofChars fuel rest
    else if c == '?' then one :: ofChars fuel rest
    else if c == '[' then
      match setText? rest with
      | some (set, rest) => ofSet set :: ofChars fuel rest
      | none => char '[' :: ofChars fuel rest
    else char c :: ofChars fuel rest

end Wildcard

/-- One step of a pattern. -/
inductive PatternStep where
  | name (name : String)
  | names (wildcards : List Wildcard)
  | anyDepth
deriving DecidableEq, Repr

/-- A pattern: its steps, and whether it leads to directories only. -/
structure Pattern where
  steps : List PatternStep
  isForDirectories : Bool := false
deriving DecidableEq, Repr

/-- Why a text is no pattern. -/
inductive PatternError where
  | empty
  | notRelative
  /-- Nothing but points. -/
  | noNames
  /-- Nothing but points, and a slash behind them. -/
  | noNamesButSlash
  /-- Two stars as a part of a name. -/
  | mixedDepth
deriving DecidableEq, Repr

namespace PatternError

/-- A cause in words, where it has any. -/
def message : PatternError → String
  | empty => "Unacceptable pattern: ''"
  | notRelative => "Non-relative patterns are unsupported"
  | noNames => "tuple index out of range"
  | noNamesButSlash => "no pattern in front of the slash"
  | mixedDepth => "Invalid pattern: '**' can only be an entire path component"

end PatternError

namespace Pattern

/-- Whether two stars stand side by side. -/
def hasTwoStars : List Char → Bool
  | '*' :: '*' :: _ => true
  | _ :: rest => hasTwoStars rest
  | [] => false

/-- Whether a name has wildcards. -/
def hasWildcards (cs : List Char) : Bool := cs.any fun c => c == '*' || c == '?' || c == '['

/-- The step that a name of a pattern stands for. -/
def stepOf (name : String) : Except PatternError PatternStep :=
  let cs := name.toList
  if name = "**" then .ok .anyDepth
  else if hasTwoStars cs then .error .mixedDepth
  else if hasWildcards cs then .ok (.names (Wildcard.ofChars cs.length cs))
  else .ok (.name name)

/-- The pattern that a text writes. -/
def ofString (s : String) : Except PatternError Pattern :=
  let path := Path.ofString s
  let isForDirectories := s.toList.getLast? == some '/'
  if s = "" then .error .empty
  else if path.anchor ≠ .here then .error .notRelative
  else if path.names = [] then
    .error (if isForDirectories then .noNamesButSlash else .noNames)
  else (path.names.mapM stepOf).map fun steps => { steps, isForDirectories }

end Pattern

end TestScaffold
