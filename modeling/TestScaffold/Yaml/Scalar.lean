/-
  TestScaffold/Yaml/Scalar.lean
  =============================
  The texts of YAML scalars: plain, in single or double quotes, literal and
  folded.

  An escape may stand for a code point that is no character; such a place in a
  text is kept as `none`.
-/
import TestScaffold.Datum.FormatError
import TestScaffold.Text.Hex
import TestScaffold.Yaml.Cursor

namespace TestScaffold.Yaml

open TestScaffold.Text

/-- The places of a text. -/
abbrev Places := List (Option Char)

/-- The text with these places, if all of them are characters. -/
def Places.text? (ps : Places) : Option String := (ps.mapM id).map String.ofList

/-- What a reader of scalars finds: the text and where it ends. -/
abbrev Scan := Except FormatError (Places × Cursor)

/-! ### Quoted texts -/

/-- The characters that one letter behind a backslash stands for. -/
def escapedChar? (c : Char) : Option Char :=
  match c with
  | '0' => some (Char.ofNat 0)
  | 'a' => some (Char.ofNat 7)
  | 'b' => some (Char.ofNat 8)
  | 't' => some '\t'
  | '\t' => some '\t'
  | 'n' => some '\n'
  | 'v' => some (Char.ofNat 11)
  | 'f' => some (Char.ofNat 12)
  | 'r' => some (Char.ofNat 13)
  | 'e' => some (Char.ofNat 27)
  | ' ' => some ' '
  | '"' => some '"'
  | '\\' => some '\\'
  | '/' => some '/'
  | 'N' => some (Char.ofNat 0x85)
  | '_' => some (Char.ofNat 0xA0)
  | 'L' => some (Char.ofNat 0x2028)
  | 'P' => some (Char.ofNat 0x2029)
  | _ => none

/-- How many hexadecimal digits follow a letter behind a backslash. -/
def escapeWidth? (c : Char) : Option Nat :=
  match c with
  | 'x' => some 2
  | 'u' => some 4
  | 'U' => some 8
  | _ => none

/-- The place for a code point, which may lie between the characters but not above them. -/
def placeOf (n : Nat) : Except FormatError (Option Char) :=
  if h : n.isValidChar then .ok (some (Char.ofNatAux n h))
  else if n < 0x110000 then .ok none
  else .error (.noSuchValue "chr() arg not in range(0x110000)")

/-- The line ends of empty lines inside a quoted text. No line of it may begin or end a document.
The first argument bounds their number. -/
def quotedBreaks : Nat → Cursor → Except FormatError (List Char × Cursor)
  | 0, _ => .error .malformed
  | fuel + 1, k =>
    if k.isDocumentMark then .error .malformed
    else
      let k := k.skipWhile fun c => c == ' ' || c == '\t'
      match k.lineEnd? with
      | some (b, k) => (quotedBreaks fuel k).map fun (bs, k) => (b :: bs, k)
      | none => .ok ([], k)

/-- The text of a line end and of the empty lines behind it: one line end folds to a space. -/
def folded (b : Char) (breaks : List Char) : List Char :=
  if b ≠ '\n' then b :: breaks else if breaks.isEmpty then [' '] else breaks

/-- What a backslash in double quotes stands for. -/
def escapeAt (k : Cursor) : Scan :=
  match k.rest with
  | [] => .error .malformed
  | c :: digits =>
    match escapedChar? c, escapeWidth? c with
    | some e, _ => .ok ([some e], k.next)
    | none, some width =>
      if (digits.take width).length < width then .error .malformed
      else match hexNumber? (digits.take width) with
        | some n => (placeOf n).map fun p => ([p], k.skip (width + 1))
        | none => .error .malformed
    | none, none =>
      match k.lineEnd? with
      | some (_, k) =>
        (quotedBreaks (k.rest.length + 1) k).map fun (bs, k) => (bs.map some, k)
      | none => .error .malformed

/-- Blanks in a quoted text: kept within a line, folded at its end. -/
def quotedGap (k : Cursor) : Except FormatError (List Char × Cursor) :=
  let isBlank (c : Char) := c == ' ' || c == '\t'
  let blanks := k.rest.takeWhile isBlank
  let k := k.skipWhile isBlank
  match k.lineEnd? with
  | some (b, k) =>
    (quotedBreaks (k.rest.length + 1) k).map fun (bs, k) => (folded b bs, k)
  | none => if k.rest.isEmpty then .error .malformed else .ok (blanks, k)

/-- A quoted text from behind its first quote. The first argument bounds the number of steps. -/
def quotedFrom (isDouble : Bool) : Nat → Cursor → Scan
  | 0, _ => .error .malformed
  | fuel + 1, k =>
    let goOn (ps : Places) (k : Cursor) : Scan :=
      (quotedFrom isDouble fuel k).map fun (more, k) => (ps ++ more, k)
    match k.rest with
    | [] => .error .malformed
    | '\'' :: rest =>
      if isDouble then goOn [some '\''] k.next
      else match rest with
        | '\'' :: _ => goOn [some '\''] (k.skip 2)
        | _ => .ok ([], k.next)
    | '"' :: _ => if isDouble then .ok ([], k.next) else goOn [some '"'] k.next
    | '\\' :: _ =>
      if isDouble then
        match escapeAt k.next with
        | .ok (ps, k) => goOn ps k
        | .error e => .error e
      else goOn [some '\\'] k.next
    | c :: _ =>
      if isGap c then
        match quotedGap k with
        | .ok (cs, k) => goOn (cs.map some) k
        | .error e => .error e
      else goOn [some c] k.next

/-- A quoted text. -/
def quotedScalar (isDouble : Bool) (k : Cursor) : Scan :=
  quotedFrom isDouble (k.rest.length + 1) k.next

/-! ### Plain texts -/

/-- A character that a plain text inside brackets may not hold. -/
def isFlowMark (c : Char) : Bool := c == ',' || c == '[' || c == ']' || c == '\x7b' || c == '\x7d'

/-- Whether a plain text ends before `c`, with `rest` behind it. -/
def plainEnds (inFlow : Bool) (c : Char) (rest : List Char) : Bool :=
  isGap c || (c == ':' && endsOr (fun d => isGap d || (inFlow && isFlowMark d)) rest) ||
    (inFlow && (isFlowMark c || c == '?'))

/-- The part of a plain text up to the next gap or to its end. -/
def plainChunk (inFlow : Bool) : List Char → List Char
  | [] => []
  | c :: rest => if plainEnds inFlow c rest then [] else c :: plainChunk inFlow rest

/-- Line ends and spaces between the lines of a plain text, or nothing before a document mark. The
first argument bounds the number of steps. -/
def plainBreaks : Nat → Cursor → Option (List Char) × Cursor
  | 0, k => (none, k)
  | fuel + 1, k =>
    if k.isAt ' ' then plainBreaks fuel k.next
    else match k.lineEnd? with
      | some (b, k) =>
        if k.isDocumentMark then (none, k)
        else
          let (bs?, k) := plainBreaks fuel k
          (bs?.map (b :: ·), k)
      | none => (some [], k)

/-- The gap behind a part of a plain text: what it adds if the text goes on, and whether a line
ended in it. -/
def plainGap (k : Cursor) : List Char × Cursor × Bool :=
  let blanks := k.rest.takeWhile (· == ' ')
  let k := k.skipWhile (· == ' ')
  match k.lineEnd? with
  | some (b, k) =>
    if k.isDocumentMark then ([], k, true)
    else match plainBreaks (k.rest.length + 1) k with
      | (some bs, k) => (folded b bs, k, true)
      | (none, k) => ([], k, true)
  | none => (blanks, k, false)

/-- A plain text: its characters, where it ends, and whether it ends with a line. Lines that go
on with it are indented by `indent` at least. The first argument bounds the number of parts. -/
def plainFrom (inFlow : Bool) (indent : Int) : Nat → List Char → Cursor → Bool →
    List Char × Cursor × Bool
  | 0, _, k, endsLine => ([], k, endsLine)
  | fuel + 1, gap, k, endsLine =>
    let chunk := if k.isAt '#' then [] else plainChunk inFlow k.rest
    if chunk.isEmpty then ([], k, endsLine)
    else
      let (gap', k, endsLine) := plainGap (k.skip chunk.length)
      if gap'.isEmpty || k.isAt '#' || (!inFlow && (k.column : Int) < indent) then
        (gap ++ chunk, k, endsLine)
      else
        let (more, k, endsLine) := plainFrom inFlow indent fuel gap' k endsLine
        (gap ++ chunk ++ more, k, endsLine)

/-- A plain text. -/
def plainScalar (inFlow : Bool) (indent : Int) (k : Cursor) : List Char × Cursor × Bool :=
  plainFrom inFlow indent (k.rest.length + 1) [] k false

/-! ### Literal and folded texts -/

/-- What happens to the line ends at the end of a text. -/
inductive Chomping where
  | strip
  | clip
  | keep
deriving DecidableEq, Repr

/-- The chomping that a sign asks for. -/
def chompingOf? (c : Char) : Option Chomping :=
  if c == '+' then some .keep else if c == '-' then some .strip else none

/-- The indentation that a digit asks for; it may not be zero. -/
def indentOf? (c : Char) : Option Nat := if isAsciiDigit c then some (c.toNat - 48) else none

/-- The marks behind the sign of a literal or folded text, in either order. -/
def blockHeader (k : Cursor) : Except FormatError (Chomping × Option Nat × Cursor) :=
  let found : Chomping × Option Nat × Cursor :=
    match k.peek?.bind chompingOf? with
    | some chomping => match k.next.peek?.bind indentOf? with
      | some n => (chomping, some n, k.skip 2)
      | none => (chomping, none, k.next)
    | none => match k.peek?.bind indentOf? with
      | some n => match k.next.peek?.bind chompingOf? with
        | some chomping => (chomping, some n, k.skip 2)
        | none => (.clip, some n, k.next)
      | none => (.clip, none, k)
  let (chomping, indent?, k) := found
  if indent? == some 0 then .error .malformed
  else if !k.endsOrIn (fun c => c == ' ' || isBreak c) then .error .malformed
  else match k.restOfLine? with
    | some k => .ok (chomping, indent?, k)
    | none => .error .malformed

/-- The place behind at most `n` more spaces. -/
def skipSpaces (k : Cursor) : Nat → Cursor
  | 0 => k
  | n + 1 => if k.isAt ' ' then skipSpaces k.next n else k

/-- The empty lines in front of a text whose indentation is not known: their line ends, and the
widest indentation in them and in the line behind. The first argument bounds the steps. -/
def leadingLines : Nat → Nat → Cursor → List Char × Nat × Cursor
  | 0, widest, k => ([], widest, k)
  | fuel + 1, widest, k =>
    if k.isAt ' ' then leadingLines fuel (max widest k.next.column) k.next
    else match k.lineEnd? with
      | some (b, k) =>
        let (bs, widest, k) := leadingLines fuel widest k
        (b :: bs, widest, k)
      | none => ([], widest, k)

/-- The line ends of empty lines in a text of known indentation, and the place behind the
indentation of the next line. The first argument bounds the number of lines. -/
def emptyLines (indent : Nat) : Nat → Cursor → List Char × Cursor
  | 0, k => ([], k)
  | fuel + 1, k =>
    let k := skipSpaces k (indent - k.column)
    match k.lineEnd? with
    | some (b, k) =>
      let (bs, k) := emptyLines indent fuel k
      (b :: bs, k)
    | none => ([], k)

/-- The lines of a literal or folded text from the first one with characters; `breaks` are the
empty lines before it. Handed back are the text, its last line end and the empty lines behind
it. The first argument bounds the number of lines. -/
def blockLines (isFolded : Bool) (indent : Nat) : Nat → List Char → Cursor →
    List Char × List Char × List Char × Cursor
  | 0, breaks, k => ([], [], breaks, k)
  | fuel + 1, breaks, k =>
    if k.column = indent && !k.rest.isEmpty then
      let isText := !k.isIn fun c => c == ' ' || c == '\t'
      let line := k.rest.takeWhile (!isBreak ·)
      let k := k.skip line.length
      let (lineEnd, k) : List Char × Cursor := match k.lineEnd? with
        | some (b, k) => ([b], k)
        | none => ([], k)
      let (breaks', k) := emptyLines indent (k.rest.length + 1) k
      if k.column = indent && !k.rest.isEmpty then
        let joint :=
          if isFolded && lineEnd == ['\n'] && isText && !k.isIn (fun c => c == ' ' || c == '\t')
          then if breaks'.isEmpty then [' '] else []
          else lineEnd
        let (more, last, tail, k) := blockLines isFolded indent fuel breaks' k
        (breaks ++ line ++ joint ++ more, last, tail, k)
      else (breaks ++ line, lineEnd, breaks', k)
    else ([], [], breaks, k)

/-- A literal or folded text in a block of the given indentation. -/
def blockScalar (isFolded : Bool) (blockIndent : Int) (k : Cursor) : Scan := do
  let (chomping, indent?, k) ← blockHeader k.next
  let least := (max (blockIndent + 1) 1).toNat
  let (breaks, indent, k) : List Char × Nat × Cursor := match indent? with
    | some n =>
      let indent := least + n - 1
      let (breaks, k) := emptyLines indent (k.rest.length + 1) k
      (breaks, indent, k)
    | none =>
      let (breaks, widest, k) := leadingLines (k.rest.length + 1) 0 k
      (breaks, max least widest, k)
  let (text, last, tail, k) := blockLines isFolded indent (k.rest.length + 1) breaks k
  let ending := match chomping with
    | .strip => []
    | .clip => last
    | .keep => last ++ tail
  return ((text ++ ending).map some, k)

end TestScaffold.Yaml
