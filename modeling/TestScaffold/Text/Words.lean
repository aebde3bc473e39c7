/-
  TestScaffold/Text/Words.lean
  ============================
  Texts seen as words between blanks: trimming, splitting and joining.

  All functions have a form on `List Char`, which proofs use, and a form on
  `String`, which callers use.
-/
import TestScaffold.Text.CharClass

namespace TestScaffold.Text

/-- The characters without the blanks at both ends. -/
def trimChars (cs : List Char) : List Char :=
  ((cs.dropWhile isBlank).reverse.dropWhile isBlank).reverse

/-- The text without the blanks at both ends. -/
def trim (s : String) : String := String.ofList (trimChars s.toList)

/-- The maximal runs of characters that satisfy no `sep`, in order; `word` is the run being read,
last character first. -/
def runsFrom (sep : Char → Bool) (word : List Char) : List Char → List (List Char)
  | [] => if word.isEmpty then [] else [word.reverse]
  | c :: rest =>
    if sep c then
      if word.isEmpty then runsFrom sep [] rest else word.reverse :: runsFrom sep [] rest
    else runsFrom sep (c :: word) rest

/-- The words of a text. -/
def wordsOfChars (cs : List Char) : List (List Char) := runsFrom isBlank [] cs

/-- The words of a text. -/
def words (s : String) : List String := (wordsOfChars s.toList).map String.ofList

/-- Words joined by single spaces. -/
def joinWords : List (List Char) → List Char
  | [] => []
  | [w] => w
  | w :: v :: rest => w ++ ' ' :: joinWords (v :: rest)

/-- The text with every run of blanks made one space, and none at the ends. -/
def squeeze (s : String) : String := String.ofList (joinWords (wordsOfChars s.toList))

/-- The text without its blanks. -/
def withoutBlanks (s : String) : String := String.ofList (s.toList.filter fun c => !isBlank c)

/-- The pieces between occurrences of `sep`; always at least one. -/
def splitChars (sep : Char) : List Char → List (List Char)
  | [] => [[]]
  | c :: rest =>
    if c = sep then [] :: splitChars sep rest
    else match splitChars sep rest with
      | piece :: pieces => (c :: piece) :: pieces
      | [] => [[c]]

/-- The pieces between occurrences of `sep`; always at least one. -/
def splitOn (sep : Char) (s : String) : List String :=
  (splitChars sep s.toList).map String.ofList

/-- The texts with `sep` between neighbours. -/
def joinWith (sep : String) : List String → String
  | [] => ""
  | [s] => s
  | s :: t :: rest => s ++ sep ++ joinWith sep (t :: rest)

/-- What follows `lead`, if the characters begin with it. -/
def afterLead? : List Char → List Char → Option (List Char)
  | [], cs => some cs
  | p :: ps, c :: cs => if p = c then afterLead? ps cs else none
  | _ :: _, [] => none

/-- Whether the text begins with `lead`. -/
def startsWith (lead s : String) : Bool := (afterLead? lead.toList s.toList).isSome

/-- Whether `c` occurs in the text. -/
def hasChar (c : Char) (s : String) : Bool := s.toList.contains c

/-- Whether the text has nothing but blanks. -/
def isBlankText (s : String) : Bool := s.toList.all isBlank

/-- The pieces between occurrences of a two-character mark `m m`, read from the left. -/
def splitDoubled (m : Char) : List Char → List (List Char)
  | [] => [[]]
  | [c] => [[c]]
  | c :: d :: rest =>
    if c = m ∧ d = m then [] :: splitDoubled m rest
    else match splitDoubled m (d :: rest) with
      | piece :: pieces => (c :: piece) :: pieces
      | [] => [[c]]

end TestScaffold.Text
