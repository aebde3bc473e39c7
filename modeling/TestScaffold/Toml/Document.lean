/-
  TestScaffold/Toml/Document.lean
  ===============================
  TOML documents, version 1.0: tables of keys and values, under headers or
  inline, and arrays of them.

  A document is read statement by statement.  Besides the data read so far the
  reader keeps which tables were declared, so that none is declared twice, and
  which values are sealed: nothing can be added to an inline table or an array
  after its closing bracket.
-/
import TestScaffold.Toml.Scalar

namespace TestScaffold.Toml

open TestScaffold.Text

/-- A key with its parts, outermost first. -/
abbrev Key := List String

/-! ### Keys -/

/-- A character of a key without quotes. -/
def isKeyChar (c : Char) : Bool := isAsciiLetter c || isAsciiDigit c || c == '-' || c == '_'

/-- One part of a key. -/
def keyPart : List Char → Reading String
  | '"' :: rest => (basicLine rest).map fun (cs, rest) => (String.ofList cs, rest)
  | '\'' :: rest => (literalRest rest).map fun (cs, rest) => (String.ofList cs, rest)
  | cs =>
    if cs.head?.any isKeyChar then
      .ok (String.ofList (cs.takeWhile isKeyChar), cs.dropWhile isKeyChar)
    else .error .malformed

/-- A key: parts with points between them. The first argument bounds the number of parts. -/
def keyParts : Nat → List Char → Reading Key
  | 0, _ => .error .malformed
  | fuel + 1, cs =>
    match keyPart cs with
    | .error e => .error e
    | .ok (part, rest) =>
      match rest.dropWhile isBlankChar with
      | '.' :: rest =>
        (keyParts fuel (rest.dropWhile isBlankChar)).map fun (parts, rest) => (part :: parts, rest)
      | rest => .ok ([part], rest)

/-- A key and the blanks behind it. -/
def key (cs : List Char) : Reading Key := keyParts (cs.length + 1) cs

/-! ### Comments -/

/-- The characters behind a comment, if there is one in front. -/
def afterComment : List Char → Except FormatError (List Char)
  | '#' :: rest =>
    if (rest.takeWhile (· != '\n')).any isControl then .error .malformed
    else .ok (rest.dropWhile (· != '\n'))
  | cs => .ok cs

/-- The characters behind gaps and comments. The first argument bounds the number of comments. -/
def afterGaps : Nat → List Char → Except FormatError (List Char)
  | 0, _ => .error .malformed
  | fuel + 1, cs =>
    match cs.dropWhile isGapChar with
    | '#' :: rest => (afterComment ('#' :: rest)).bind (afterGaps fuel)
    | rest => .ok rest

/-- The characters behind all gaps and comments. -/
def pastGaps (cs : List Char) : Except FormatError (List Char) := afterGaps (cs.length + 1) cs

/-! ### Tables -/

/-- Changes the table at the end of a way through tables, each made if it is missing. Where the
way leads through an array of tables it goes on with the last one, if `entersArrays` allows. -/
def alter (entersArrays : Bool) (change : Entries → Option Entries) :
    Key → Entries → Option Entries
  | [], es => change es
  | part :: parts, es =>
    match Datum.lookup? part es with
    | none => (alter entersArrays change parts []).map fun t => Datum.insert part (.dict t) es
    | some (.dict t) =>
      (alter entersArrays change parts t).map fun t => Datum.insert part (.dict t) es
    | some (.list items) =>
      match entersArrays, items.getLast? with
      | true, some (.dict t) =>
        (alter entersArrays change parts t).map fun t =>
          Datum.insert part (.list (items.dropLast ++ [.dict t])) es
      | _, _ => none
    | some _ => none

/-- Adds an entry with a new key. -/
def addEntry (name : String) (value : Datum) (es : Entries) : Option Entries :=
  match Datum.lookup? name es with
  | some _ => none
  | none => some (es ++ [(name, value)])

/-- Adds a table to an array of tables, which is made if it is missing. -/
def addTable (name : String) (es : Entries) : Option Entries :=
  match Datum.lookup? name es with
  | some (.list items) => some (Datum.insert name (.list (items ++ [.dict []])) es)
  | some _ => none
  | none => some (es ++ [(name, .list [.dict []])])

/-- Sets the value of a key that has none yet. -/
def addAt (entersArrays : Bool) (k : Key) (value : Datum) (es : Entries) : Option Entries :=
  alter entersArrays (addEntry (k.getLastD "") value) k.dropLast es

/-- Whether the first key leads to the second one. -/
def leadsTo : Key → Key → Bool
  | [], _ => true
  | _ :: _, [] => false
  | a :: as, b :: bs => a == b && leadsTo as bs

/-- Whether a key lies at or below one of the sealed keys. -/
def isSealed (sealedKeys : List Key) (k : Key) : Bool := sealedKeys.any (leadsTo · k)

/-- Whether a value is sealed by its closing bracket. -/
def sealsItself : Datum → Bool
  | .list _ | .dict _ => true
  | _ => false

/-! ### Values -/

mutual

/-- A value of any kind. The first argument of this and the next two readers bounds the number
of steps. -/
def value : Nat → List Char → Reading Datum
  | 0, _ => .error .malformed
  | fuel + 1, '[' :: rest =>
    match pastGaps rest with
    | .error e => .error e
    | .ok (']' :: rest) => .ok (.list [], rest)
    | .ok rest => items fuel [] rest
  | fuel + 1, '\x7b' :: rest =>
    match rest.dropWhile isBlankChar with
    | '\x7d' :: rest => .ok (.dict [], rest)
    | rest => pairs fuel [] [] rest
  | _ + 1, cs => scalar cs

/-- The items of an array from one of them on; `done` holds those before it, last first. -/
def items : Nat → List Datum → List Char → Reading Datum
  | 0, _, _ => .error .malformed
  | fuel + 1, done, cs =>
    match value fuel cs with
    | .error e => .error e
    | .ok (item, rest) =>
      match pastGaps rest with
      | .error e => .error e
      | .ok (']' :: rest) => .ok (.list (item :: done).reverse, rest)
      | .ok (',' :: rest) =>
        match pastGaps rest with
        | .error e => .error e
        | .ok (']' :: rest) => .ok (.list (item :: done).reverse, rest)
        | .ok rest => items fuel (item :: done) rest
      | .ok _ => .error .malformed

/-- The entries of an inline table from one of them on; `sealedKeys` and `done` come from those
before it. -/
def pairs : Nat → List Key → Entries → List Char → Reading Datum
  | 0, _, _, _ => .error .malformed
  | fuel + 1, sealedKeys, done, cs =>
    match key cs with
    | .ok (k, '=' :: rest) =>
      match value fuel (rest.dropWhile isBlankChar) with
      | .error e => .error e
      | .ok (v, rest) =>
        if isSealed sealedKeys k then .error .malformed
        else match addAt false k v done with
          | none => .error .malformed
          | some done =>
            match rest.dropWhile isBlankChar with
            | '\x7d' :: rest => .ok (.dict done, rest)
            | ',' :: rest =>
              pairs fuel (if sealsItself v then k :: sealedKeys else sealedKeys) done
                (rest.dropWhile isBlankChar)
            | _ => .error .malformed
    | .ok _ => .error .malformed
    | .error e => .error e

end

/-! ### Statements -/

/-- A document that is being read. -/
structure Draft where
  root : Entries := []
  /-- The table that keys belong to. -/
  header : Key := []
  /-- The tables that no header may declare any more. -/
  declared : List Key := []
  /-- Tables opened by keys with points; they count as declared from the next header on. -/
  opened : List Key := []
  sealedKeys : List Key := []

/-- The document with a new root, if there is one. -/
def Draft.withRoot (d : Draft) (root? : Option Entries) : Except FormatError Draft :=
  match root? with
  | some root => .ok { d with root }
  | none => .error .malformed

/-- The ways that a key leads through before its end, seen from a header. -/
def waysWithin (header k : Key) : List Key :=
  (List.range (k.length - 1)).map fun i => header ++ k.take (i + 1)

/-- Adds a key and its value to the table under the last header. -/
def Draft.addPair (d : Draft) (k : Key) (v : Datum) : Except FormatError Draft :=
  let ways := waysWithin d.header k
  if ways.any d.declared.contains then .error .malformed
  else if isSealed d.sealedKeys (d.header ++ k.dropLast) then .error .malformed
  else
    { d with
      opened := ways ++ d.opened
      sealedKeys := if sealsItself v then (d.header ++ k) :: d.sealedKeys else d.sealedKeys
      : Draft }.withRoot (addAt true (d.header ++ k) v d.root)

/-- A header counts the tables opened before it as declared. -/
def Draft.settle (d : Draft) : Draft :=
  { d with declared := d.opened ++ d.declared, opened := [] }

/-- Goes on with the table that a header declares. -/
def Draft.openTable (d : Draft) (k : Key) : Except FormatError Draft :=
  if d.declared.contains k || isSealed d.sealedKeys k then .error .malformed
  else
    { d with header := k, declared := k :: d.declared : Draft }.withRoot (alter true some k d.root)

/-- Goes on with a new table of the array that a header names. What was declared below the table
before it may be declared again. -/
def Draft.openItem (d : Draft) (k : Key) : Except FormatError Draft :=
  if isSealed d.sealedKeys k then .error .malformed
  else
    { d with
      header := k
      declared := k :: d.declared.filter (!leadsTo k ·)
      sealedKeys := d.sealedKeys.filter (!leadsTo k ·)
      : Draft }.withRoot (alter true (addTable (k.getLastD "")) k.dropLast d.root)

/-- Reads a header from behind its first bracket. -/
def Draft.header? (d : Draft) : List Char → Reading Draft
  | '[' :: rest =>
    match key (rest.dropWhile isBlankChar) with
    | .error e => .error e
    | .ok (k, rest) =>
      match d.openItem k, afterLead? [']', ']'] rest with
      | .ok d, some rest => .ok (d, rest)
      | _, _ => .error .malformed
  | cs =>
    match key (cs.dropWhile isBlankChar) with
    | .error e => .error e
    | .ok (k, rest) =>
      match d.openTable k, expect? ']' rest with
      | .ok d, some rest => .ok (d, rest)
      | _, _ => .error .malformed

/-- Reads a key, an equals sign and a value. -/
def Draft.pair (d : Draft) (cs : List Char) : Reading Draft :=
  match key cs with
  | .ok (k, '=' :: rest) =>
    match value (2 * rest.length + 2) (rest.dropWhile isBlankChar) with
    | .error e => .error e
    | .ok (v, rest) => (d.addPair k v).map fun d => (d, rest)
  | .ok _ => .error .malformed
  | .error e => .error e

/-- Reads what stands on a line before its comment. -/
def Draft.statement (d : Draft) (cs : List Char) : Reading Draft :=
  match cs with
  | [] => .ok (d, cs)
  | '[' :: rest => d.settle.header? rest
  | c :: _ =>
    if c == '\n' || c == '#' then .ok (d, cs)
    else if isKeyChar c || c == '"' || c == '\'' then d.pair cs
    else .error .malformed

/-- Reads the lines of a document. The first argument bounds their number. -/
def Draft.lines (d : Draft) : Nat → List Char → Except FormatError Draft
  | 0, _ => .error .malformed
  | fuel + 1, cs =>
    match d.statement (cs.dropWhile isBlankChar) with
    | .error e => .error e
    | .ok (d, rest) =>
      match afterComment (rest.dropWhile isBlankChar) with
      | .error e => .error e
      | .ok [] => .ok d
      | .ok ('\n' :: rest) => Draft.lines d fuel rest
      | .ok _ => .error .malformed

/-- The characters with the line ends of two characters made line feeds. -/
def plainLineEnds : List Char → List Char
  | '\r' :: '\n' :: rest => '\n' :: plainLineEnds rest
  | c :: rest => c :: plainLineEnds rest
  | [] => []

/-- The entries of a TOML document. -/
def document (text : String) : Except FormatError Entries :=
  let cs := plainLineEnds text.toList
  (Draft.lines {} (cs.length + 1) cs).map (·.root)

end TestScaffold.Toml
