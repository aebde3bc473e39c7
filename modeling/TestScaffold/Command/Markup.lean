/-
  TestScaffold/Command/Markup.lean
  ================================
  Console markup: tags in square brackets that style the text between them.

  A tag begins with a small letter or one of three signs.  A slash closes the
  tag it names, or the last open one.  A backslash before a tag makes it plain
  text, and two backslashes there stand for one; before any other opening
  bracket one backslash is dropped.  Only the text matters here, so styles drop
  out.
-/
import TestScaffold.Text.CharClass
import TestScaffold.Text.Words

namespace TestScaffold.Command.Markup

open TestScaffold.Text

/-- A closing tag that closes nothing. -/
structure MarkupError where
  tag : String
deriving DecidableEq, Repr

/-- Whether a tag may begin with a character. -/
def mayBegin (c : Char) : Bool :=
  ('a' ≤ c && c ≤ 'z') || c == '#' || c == '/' || c == '@'

/-- What stands inside a tag up to its closing bracket, and what follows the bracket. -/
def inside? : List Char → Option (List Char × List Char)
  | [] => none
  | c :: rest =>
    if c == ']' then some ([], rest)
    else if c == '[' then none
    else (inside? rest).map fun (tag, after) => (c :: tag, after)

/-- The tag that stands behind an opening bracket, and what follows it. -/
def tag? : List Char → Option (List Char × List Char)
  | c :: rest => if mayBegin c then inside? (c :: rest) else none
  | [] => none

/-- The parts of a text with markup. -/
inductive Part where
  | text (c : Char)
  | tag (body : List Char)
deriving DecidableEq, Repr

/-- The parts of a text. `slashes` counts the backslashes just read, and `skip` the characters that
the part before has used up. -/
def partsFrom (slashes skip : Nat) : List Char → List Part
  | [] => List.replicate slashes (.text '\\')
  | c :: rest =>
    match skip with
    | skip + 1 => partsFrom 0 skip rest
    | 0 =>
      if c == '\\' then partsFrom (slashes + 1) 0 rest
      else
        match if c == '[' then tag? rest else none with
        | none =>
          let shown := if c == '[' then slashes - 1 else slashes
          List.replicate shown (.text '\\') ++ .text c :: partsFrom 0 0 rest
        | some (body, _) =>
          let before := List.replicate (slashes / 2) (Part.text '\\')
          if slashes % 2 = 1 then
            before ++ (('[' :: body ++ [']']).map .text) ++ partsFrom 0 (body.length + 1) rest
          else before ++ .tag body :: partsFrom 0 (body.length + 1) rest

/-- The name of a tag, without its parameters. -/
def nameOf (body : List Char) : List Char := body.takeWhile (· != '=')

/-- Names of styles are compared trimmed and in small letters. -/
def normal (name : List Char) : List Char := trimChars (name.map Char.toLower)

/-- The open tags after closing the one with a name, or the last one if there is no name. -/
def close? (name : List Char) (opened : List (List Char)) : Option (List (List Char)) :=
  if name.isEmpty then
    match opened with
    | [] => none
    | _ :: rest => some rest
  else if opened.contains name then some (opened.erase name) else none

/-- The text of parts, where `opened` are the open tags, last first. -/
def textOf (opened : List (List Char)) : List Part → Except MarkupError (List Char)
  | [] => .ok []
  | .text c :: rest => (textOf opened rest).map (c :: ·)
  | .tag body :: rest =>
    match nameOf body with
    | '/' :: name =>
      match close? (normal name) opened with
      | some opened => textOf opened rest
      | none => .error ⟨String.ofList body⟩
    | name => textOf (normal name :: opened) rest

/-- The text that a text with markup shows. -/
def render (s : String) : Except MarkupError String :=
  (textOf [] (partsFrom 0 0 s.toList)).map String.ofList

/-- A text made safe: tags in it show as they are. A backslash at the end is doubled, so that it
leaves a tag behind it alone. -/
def escapeFrom (slashes skip : Nat) : List Char → List Char
  | [] => List.replicate slashes '\\'
  | c :: rest =>
    match skip with
    | skip + 1 => c :: escapeFrom 0 skip rest
    | 0 =>
      if c == '\\' then escapeFrom (slashes + 1) 0 rest
      else
        match if c == '[' then tag? rest else none with
        | none => List.replicate slashes '\\' ++ c :: escapeFrom 0 0 rest
        | some (body, _) =>
          List.replicate (2 * slashes + 1) '\\' ++ c :: escapeFrom 0 (body.length + 1) rest

/-- The text made safe as a whole. -/
def escape (s : String) : String :=
  let escaped := escapeFrom 0 0 s.toList
  match escaped.reverse with
  | ['\\'] => String.ofList (escaped ++ ['\\'])
  | '\\' :: c :: _ => if c == '\\' then String.ofList escaped else String.ofList (escaped ++ ['\\'])
  | _ => String.ofList escaped

end TestScaffold.Command.Markup
