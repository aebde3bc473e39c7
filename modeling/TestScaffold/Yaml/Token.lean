/-
  TestScaffold/Yaml/Token.lean
  ============================
  The tokens of a YAML stream, and reading them.

  Blocks have no brackets of their own: they open and close with the column at
  which a line begins.  Whether a token begins a mapping is known only at the
  colon behind its first key, so places where a key may have begun are kept
  until the colon or the end of the line, and the tokens that open the mapping
  are put in there.  A key is on one line and at most 1024 characters long.
-/
import TestScaffold.Yaml.Scalar

namespace TestScaffold.Yaml

open TestScaffold.Text

/-- What a line with a percent sign declares for its document. -/
inductive Directive where
  | version (major : Nat)
  | handle (name lead : String)
  | reserved
deriving DecidableEq, Repr

/-- A token. -/
inductive Token where
  | directive (d : Directive)
  | documentStart
  | documentEnd
  | blockSequence
  | blockMapping
  | blockEnd
  | openBracket
  | closeBracket
  | openBrace
  | closeBrace
  | entry
  | comma
  | key
  | value
  | alias_ (name : String)
  | anchor (name : String)
  /-- A tag: a handle, if it has one, and the rest of it. -/
  | tag (handle? : Option String) (rest : String)
  /-- A text, unless an escape in it stands for no character. -/
  | scalar (text? : Option String) (isPlain : Bool)
deriving DecidableEq, Repr

/-- A place where a key may have begun. -/
structure KeyStart where
  /-- How many tokens stand before it. -/
  position : Nat
  /-- Whether nothing but a key can begin there. -/
  isNeeded : Bool
  index : Nat
  line : Nat
  column : Nat

/-- A stream that is being read. -/
structure Lexer where
  cursor : Cursor
  /-- The tokens so far, last first, and their number. -/
  tokens : List Token := []
  count : Nat := 0
  /-- How many brackets are open. -/
  depth : Nat := 0
  /-- The column of the block that is open, and of those around it. -/
  indent : Int := -1
  outer : List Int := []
  /-- Whether a key may begin here. -/
  allowsKey : Bool := true
  /-- Where keys may have begun, by the number of brackets around them. -/
  starts : List (Nat × KeyStart) := []

namespace Lexer

/-- The longest key. -/
def maxKeyLength : Nat := 1024

/-- Adds a token. -/
def push (x : Lexer) (t : Token) : Lexer :=
  { x with tokens := t :: x.tokens, count := x.count + 1 }

/-- Puts a token in behind the first `position` tokens. -/
def putIn (x : Lexer) (position : Nat) (t : Token) : Lexer :=
  let behind := x.count - position
  { x with
    tokens := x.tokens.take behind ++ t :: x.tokens.drop behind
    count := x.count + 1 }

/-- Whether blocks count here. -/
def inBlock (x : Lexer) : Bool := x.depth == 0

/-- Moves on by some characters. -/
def skip (x : Lexer) (n : Nat) : Lexer := { x with cursor := x.cursor.skip n }

/-- Closes the blocks that are indented further than a column. The first argument bounds their
number. -/
def closeFrom (column : Int) : Nat → Lexer → Lexer
  | 0, x => x
  | fuel + 1, x =>
    if column < x.indent then
      closeFrom column fuel
        (({ x with indent := x.outer.headD (-1), outer := x.outer.tail } : Lexer).push .blockEnd)
    else x

/-- Closes the blocks that are indented further than a column, unless brackets are open. -/
def unwind (x : Lexer) (column : Int) : Lexer :=
  if x.inBlock then closeFrom column (x.outer.length + 1) x else x

/-- Opens a block at a column that is further in than the open one. -/
def indentTo? (x : Lexer) (column : Nat) : Option Lexer :=
  if x.indent < column then some { x with indent := column, outer := x.indent :: x.outer }
  else none

/-- Opens a block where the cursor stands, if that is further in. -/
def openBlock (x : Lexer) (t : Token) : Lexer :=
  match x.indentTo? x.cursor.column with
  | some x => x.push t
  | none => x

/-- Forgets the places of keys that ended with their line or grew too long. -/
def dropStale (x : Lexer) : Except FormatError Lexer :=
  let isStale (s : Nat × KeyStart) : Bool :=
    s.2.line != x.cursor.line || maxKeyLength < x.cursor.index - s.2.index
  if x.starts.any fun s => isStale s && s.2.isNeeded then .error .malformed
  else .ok { x with starts := x.starts.filter (!isStale ·) }

/-- The place where a key may have begun between the same brackets. -/
def start? (x : Lexer) : Option KeyStart := (x.starts.find? (·.1 == x.depth)).map (·.2)

/-- Forgets the place of a key between the same brackets. -/
def dropStart (x : Lexer) : Except FormatError Lexer :=
  if x.start?.any (·.isNeeded) then .error .malformed
  else .ok { x with starts := x.starts.filter (·.1 != x.depth) }

/-- Keeps this place, where a key may begin. -/
def keepStart (x : Lexer) : Except FormatError Lexer :=
  if x.allowsKey then
    x.dropStart.map fun y =>
      let k := x.cursor
      let isNeeded := x.inBlock && x.indent == k.column
      { y with starts := (x.depth, ⟨x.count, isNeeded, k.index, k.line, k.column⟩) :: y.starts }
  else .ok x

/-! ### Gaps -/

/-- Moves on to the next token. The first argument bounds the number of lines. -/
def toToken : Nat → Lexer → Lexer
  | 0, x => x
  | fuel + 1, x =>
    let k := x.cursor.skipWhile (· == ' ')
    let k := if k.isAt '#' then k.skipWhile (!isBreak ·) else k
    match k.lineEnd? with
    | some (_, k) => toToken fuel { x with cursor := k, allowsKey := x.allowsKey || x.inBlock }
    | none => { x with cursor := k }

/-! ### Names, tags and directives -/

/-- A character of a name. -/
def isNameChar (c : Char) : Bool := isAsciiLetter c || isAsciiDigit c || c == '-' || c == '_'

/-- A name behind its mark, and the place behind the name. -/
def name? (k : Cursor) : Option (String × Cursor) :=
  let cs := k.rest.takeWhile isNameChar
  if cs.isEmpty then none else some (String.ofList cs, k.skip cs.length)

/-- A character of a tag that stands for itself. -/
def isTagChar (c : Char) : Bool :=
  isNameChar c || ";/?:@&=+$,.!~*'()[]".toList.contains c

/-- The bytes that percent signs with two digits stand for, and what follows them. -/
def percentBytes : List Char → Option (List UInt8 × List Char)
  | '%' :: a :: b :: rest => do
    let n ← hexNumber? [a, b]
    let (bytes, rest) ← percentBytes rest
    return (UInt8.ofNat n :: bytes, rest)
  | '%' :: _ => none
  | cs => some ([], cs)

/-- The text of a tag and the place behind it. The first argument bounds the number of steps. -/
def tagChars : Nat → Cursor → Option (List Char × Cursor)
  | 0, _ => none
  | fuel + 1, k =>
    match k.rest with
    | [] => some ([], k)
    | c :: _ =>
      if c == '%' then
        match percentBytes k.rest with
        | none => none
        | some (bytes, rest) =>
          match String.fromUTF8? ⟨bytes.toArray⟩ with
          | none => none
          | some s =>
            (tagChars fuel (k.skip (k.rest.length - rest.length))).map fun (cs, k) =>
              (s.toList ++ cs, k)
      else if isTagChar c then
        (tagChars fuel k.next).map fun (cs, k) => (c :: cs, k)
      else some ([], k)

/-- The text of a tag, which is not empty, and the place behind it. -/
def tagText? (k : Cursor) : Option (String × Cursor) :=
  match tagChars (k.rest.length + 1) k with
  | some (cs, k') =>
    if k'.index == k.index then none else some (String.ofList cs, k')
  | none => none

/-- A tag handle: one or two exclamation marks, with a name between the two. -/
def tagHandle? (k : Cursor) : Option (String × Cursor) :=
  match k.rest with
  | '!' :: rest =>
    let cs := rest.takeWhile isNameChar
    match rest.drop cs.length with
    | '!' :: _ => some (String.ofList ('!' :: cs ++ ['!']), k.skip (cs.length + 2))
    | ' ' :: _ => if cs.isEmpty then some ("!", k.next) else none
    | _ => none
  | _ => none

/-- Whether an exclamation mark comes before the next gap. -/
def hasHandleEnd : List Char → Bool
  | [] => false
  | c :: rest => if c == '!' then true else if c == ' ' || isBreak c then false else hasHandleEnd rest

/-- A tag from its exclamation mark on. -/
def tag? (k : Cursor) : Option (Token × Cursor) := do
  let (token, k) ← match k.next.rest with
    | '<' :: _ => do
      let (text, k) ← tagText? (k.skip 2)
      if k.isAt '>' then some (Token.tag none text, k.next) else none
    | rest =>
      if endsOr isGap rest then some (Token.tag none "!", k.next)
      else if hasHandleEnd rest then do
        let (handle, k) ← tagHandle? k
        let (text, k) ← tagText? k
        return (Token.tag (some handle) text, k)
      else do
        let (text, k) ← tagText? k.next
        return (Token.tag (some "!") text, k)
  if k.endsOrIn (fun c => c == ' ' || isBreak c) then return (token, k) else none

/-- A version number with a point in it: its first part and the place behind it. -/
def version? (k : Cursor) : Option (Nat × Cursor) :=
  let major := k.rest.takeWhile isAsciiDigit
  let k := k.skip major.length
  if major.isEmpty || !k.isAt '.' then none
  else
    let minor := k.next.rest.takeWhile isAsciiDigit
    if minor.isEmpty then none
    else some (major.foldl (fun n c => 10 * n + (c.toNat - 48)) 0, k.next.skip minor.length)

/-- A directive from its percent sign on, with its line. -/
def directive? (k : Cursor) : Option (Directive × Cursor) := do
  let isEnd (c : Char) : Bool := c == ' ' || isBreak c
  let blanks (k : Cursor) : Cursor := k.skipWhile (· == ' ')
  let (name, k) ← name? k.next
  if !k.endsOrIn isEnd then none
  let (d, k) ←
    if name = "YAML" then do
      let (major, k) ← version? (blanks k)
      if k.endsOrIn isEnd then some (Directive.version major, k) else none
    else if name = "TAG" then do
      let (handle, k) ← tagHandle? (blanks k)
      if !k.isAt ' ' then none
      let (lead, k) ← tagText? (blanks k)
      if k.endsOrIn isEnd then some (Directive.handle handle lead, k) else none
    else some (Directive.reserved, k.skipWhile (!isBreak ·))
  let k ← k.restOfLine?
  return (d, k)

/-- An alias or an anchor from its mark on. -/
def anchored? (make : String → Token) (k : Cursor) : Option (Token × Cursor) := do
  let (name, k) ← name? k.next
  if k.endsOrIn fun c => isGap c || "?:,]\x7d%@\x60".toList.contains c then return (make name, k)
  else none

/-! ### One token -/

/-- Adds a token that was read, if it could be. -/
def pushRead (x : Lexer) (read? : Option (Token × Cursor)) : Except FormatError Lexer :=
  match read? with
  | some (t, cursor) => .ok (({ x with cursor } : Lexer).push t)
  | none => .error .malformed

/-- Adds a scalar that was read. -/
def pushScalar (x : Lexer) (scan : Scan) (isPlain : Bool) : Except FormatError Lexer :=
  scan.map fun (ps, cursor) => ({ x with cursor } : Lexer).push (.scalar ps.text? isPlain)

/-- Adds the token at which a document begins or ends, all blocks closed before it. -/
def documentMark (x : Lexer) (t : Token) : Except FormatError Lexer :=
  (x.unwind (-1)).dropStart.map fun x => (({ x with allowsKey := false } : Lexer).skip 3).push t

/-- Adds a directive. -/
def directiveLine (x : Lexer) : Except FormatError Lexer := do
  let x ← (x.unwind (-1)).dropStart
  ({ x with allowsKey := false } : Lexer).pushRead
    ((directive? x.cursor).map fun (d, k) => (.directive d, k))

/-- Adds an opening bracket. -/
def opening (x : Lexer) (t : Token) : Except FormatError Lexer :=
  x.keepStart.map fun x =>
    (({ x with depth := x.depth + 1, allowsKey := true } : Lexer).skip 1).push t

/-- Adds a closing bracket. -/
def closing (x : Lexer) (t : Token) : Except FormatError Lexer :=
  x.dropStart.map fun x =>
    (({ x with depth := x.depth - 1, allowsKey := false } : Lexer).skip 1).push t

/-- Adds a comma between brackets. -/
def commaMark (x : Lexer) : Except FormatError Lexer :=
  x.dropStart.map fun x => (({ x with allowsKey := true } : Lexer).skip 1).push .comma

/-- Adds the mark of an entry of a sequence. -/
def entryMark (x : Lexer) : Except FormatError Lexer :=
  if x.inBlock && !x.allowsKey then .error .malformed
  else
    let x := if x.inBlock then x.openBlock .blockSequence else x
    ({ x with allowsKey := true } : Lexer).dropStart.map fun x => (x.skip 1).push .entry

/-- Adds the mark of a key. -/
def keyMark (x : Lexer) : Except FormatError Lexer :=
  if x.inBlock && !x.allowsKey then .error .malformed
  else
    let x := if x.inBlock then x.openBlock .blockMapping else x
    ({ x with allowsKey := x.inBlock } : Lexer).dropStart.map fun x => (x.skip 1).push .key

/-- Adds the mark of a value, and what the key before it was found to begin. -/
def valueMark (x : Lexer) : Except FormatError Lexer :=
  match x.start? with
  | some s =>
    let x := { x with starts := x.starts.filter (·.1 != x.depth), allowsKey := false }
    let x := x.putIn s.position .key
    let x := if x.inBlock then
        match x.indentTo? s.column with
        | some x => x.putIn s.position .blockMapping
        | none => x
      else x
    .ok ((x.skip 1).push .value)
  | none =>
    if x.inBlock && !x.allowsKey then .error .malformed
    else
      let x := if x.inBlock then x.openBlock .blockMapping else x
      ({ x with allowsKey := x.inBlock } : Lexer).dropStart.map fun x => (x.skip 1).push .value

/-- Adds a token that may be a key and stands for a node or one of its properties. -/
def property (x : Lexer) (read? : Cursor → Option (Token × Cursor)) : Except FormatError Lexer :=
  x.keepStart.bind fun x => ({ x with allowsKey := false } : Lexer).pushRead (read? x.cursor)

/-- Adds a literal or folded text. -/
def blockText (x : Lexer) (isFolded : Bool) : Except FormatError Lexer :=
  ({ x with allowsKey := true } : Lexer).dropStart.bind fun x =>
    x.pushScalar (blockScalar isFolded x.indent x.cursor) false

/-- Adds a quoted text. -/
def quotedText (x : Lexer) (isDouble : Bool) : Except FormatError Lexer :=
  x.keepStart.bind fun x =>
    ({ x with allowsKey := false } : Lexer).pushScalar (quotedScalar isDouble x.cursor) false

/-- Adds a plain text. -/
def plainText (x : Lexer) : Except FormatError Lexer :=
  x.keepStart.map fun x =>
    let (text, cursor, endsLine) := plainScalar (!x.inBlock) (x.indent + 1) x.cursor
    ({ x with cursor, allowsKey := endsLine } : Lexer).push (.scalar (some (String.ofList text)) true)

/-- Whether a plain text may begin with `c`, with `rest` behind it. -/
def beginsPlain (x : Lexer) (c : Char) (rest : List Char) : Bool :=
  (!isGap c && !"-?:,[]\x7b\x7d#&*!|>'\"%@\x60".toList.contains c) ||
    (!endsOr isGap rest && (c == '-' || (x.inBlock && (c == '?' || c == ':'))))

/-- Adds the tokens that begin at the cursor, where something stands. -/
def token (x : Lexer) (c : Char) (rest : List Char) : Except FormatError Lexer :=
  let k := x.cursor
  let isLoose := endsOr isGap rest
  if k.column == 0 && c == '%' then x.directiveLine
  else if k.column == 0 && k.hasMark '-' then x.documentMark .documentStart
  else if k.column == 0 && k.hasMark '.' then x.documentMark .documentEnd
  else if c == '[' then x.opening .openBracket
  else if c == '\x7b' then x.opening .openBrace
  else if c == ']' then x.closing .closeBracket
  else if c == '\x7d' then x.closing .closeBrace
  else if c == ',' then x.commaMark
  else if c == '-' && isLoose then x.entryMark
  else if c == '?' && (!x.inBlock || isLoose) then x.keyMark
  else if c == ':' && (!x.inBlock || isLoose) then x.valueMark
  else if c == '*' then x.property (anchored? .alias_)
  else if c == '&' then x.property (anchored? .anchor)
  else if c == '!' then x.property tag?
  else if c == '|' && x.inBlock then x.blockText false
  else if c == '>' && x.inBlock then x.blockText true
  else if c == '\'' then x.quotedText false
  else if c == '"' then x.quotedText true
  else if x.beginsPlain c rest then x.plainText
  else .error .malformed

/-- Reads the stream to its end. The first argument bounds the number of tokens. -/
def run : Nat → Lexer → Except FormatError (List Token)
  | 0, _ => .error .malformed
  | fuel + 1, x =>
    match (toToken (x.cursor.rest.length + 1) x).dropStale with
    | .error e => .error e
    | .ok x =>
      let x := x.unwind x.cursor.column
      match x.cursor.rest with
      | [] => (x.unwind (-1)).dropStart.map fun x => x.tokens.reverse
      | c :: rest =>
        match x.token c rest with
        | .ok x => run fuel x
        | .error e => .error e

end Lexer

/-- A character that a stream may hold. -/
def isPrintable (c : Char) : Bool :=
  let n := c.toNat
  n == 9 || n == 10 || n == 13 || (32 ≤ n && n ≤ 126) || n == 0x85 || (0xA0 ≤ n && n ≤ 0xD7FF) ||
    (0xE000 ≤ n && n ≤ 0xFFFD) || 0x10000 ≤ n

/-- The characters without a byte order mark in front. -/
def withoutMark : List Char → List Char
  | c :: rest => if c = byteOrderMark then rest else c :: rest
  | [] => []

/-- The tokens of a stream. -/
def tokens (text : List Char) : Except FormatError (List Token) :=
  if text.all isPrintable then
    let cs := withoutMark text
    Lexer.run (cs.length + 1) { cursor := { rest := cs } }
  else .error .malformed

end TestScaffold.Yaml
