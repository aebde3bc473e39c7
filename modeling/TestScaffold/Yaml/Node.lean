/-
  TestScaffold/Yaml/Node.lean
  ===========================
  The nodes of a YAML document, and reading them from its tokens.

  A node is a text, a sequence or a mapping, each with its kind.  An anchor
  names a node, and an alias stands for a copy of the named one.
-/
import TestScaffold.Yaml.Tag
import TestScaffold.Yaml.Token

namespace TestScaffold.Yaml

/-- A node of a document. -/
inductive Node where
  /-- A text, unless an escape in it stands for no character. -/
  | scalar (tag : Tag) (text? : Option String)
  | sequence (tag : Tag) (items : List Node)
  | mapping (tag : Tag) (entries : List (Node × Node))

/-- The node of nothing. -/
def Node.empty : Node := .scalar .null (some "")

instance : Inhabited Node := ⟨Node.empty⟩

/-- The tokens that are left, and what their document has declared so far. -/
structure Composer where
  tokens : List Token
  anchors : List (String × Node) := []
  handles : List (String × String) := []

/-- A node with the tokens behind it, or why there is none. -/
abbrev Composed (α : Type) := Except FormatError (α × Composer)

namespace Composer

/-- The next token. -/
def peek? (x : Composer) : Option Token := x.tokens.head?

/-- Without the next token. -/
def next (x : Composer) : Composer := { x with tokens := x.tokens.tail }

/-- Whether the next token is one of these. -/
def isAt (x : Composer) (ts : List Token) : Bool := x.tokens.head?.any ts.contains

/-- The handles that need no declaration. -/
def standardHandles : List (String × String) := [("!", "!"), ("!!", Tag.standardLead)]

/-- The full name of a tag. -/
def fullTag (x : Composer) : Option String → String → Except FormatError String
  | none, rest => .ok rest
  | some handle, rest =>
    match x.handles.find? (·.1 == handle) with
    | some (_, lead) => .ok (lead ++ rest)
    | none => .error .malformed

/-- What stands in front of a node: an anchor and a tag, each at most once. -/
def properties (x : Composer) : Option String × Option (Option String × String) × Composer :=
  match x.tokens with
  | .anchor a :: .tag h r :: rest => (some a, some (h, r), { x with tokens := rest })
  | .tag h r :: .anchor a :: rest => (some a, some (h, r), { x with tokens := rest })
  | .anchor a :: rest => (some a, none, { x with tokens := rest })
  | .tag h r :: rest => (none, some (h, r), { x with tokens := rest })
  | _ => (none, none, x)

/-- The kind of a text: by its tag, or by its form if it is plain and has none. -/
def scalarTag (tag? : Option String) (isPlain : Bool) (text? : Option String) : Tag :=
  let byForm := (text?.map fun s => Tag.ofForm s.toList).getD .text
  match tag? with
  | none => if isPlain then byForm else .text
  | some "!" => byForm
  | some name => Tag.ofName name

/-- The kind of a sequence or mapping. -/
def collectionTag (tag? : Option String) (usual : Tag) : Tag :=
  match tag? with
  | none => usual
  | some "!" => usual
  | some name => Tag.ofName name

/-- Names a node, if an anchor stands in front of it. -/
def named (x : Composer) (anchor? : Option String) (n : Node) : Composer :=
  match anchor? with
  | some a => { x with anchors := (a, n) :: x.anchors }
  | none => x

/-- A node that is read, with its name. -/
def finish {α : Type} (anchor? : Option String) (make : α → Node) (found : Composed α) : Composed Node :=
  found.map fun (a, x) => (make a, x.named anchor? (make a))

mutual

/-- A node. Blocks may begin at it if `inBlock` holds, and entries without further indentation
if `isLoose` holds. The first argument of this and the readers below bounds the number of
steps. -/
def node (inBlock isLoose : Bool) : Nat → Composer → Composed Node
  | 0, _ => .error .malformed
  | fuel + 1, x =>
    match x.tokens with
    | .alias_ a :: _ =>
      match x.anchors.find? (·.1 == a) with
      | some (_, n) => .ok (n, x.next)
      | none => .error .malformed
    | _ =>
      let (anchor?, property?, y) := x.properties
      let tag := match property? with
        | some (h, r) => (x.fullTag h r).map some
        | none => .ok none
      match tag with
      | .error e => .error e
      | .ok tag? =>
        if (anchor?.bind fun a => x.anchors.find? (·.1 == a)).isSome then .error .malformed
        else
          let z := y.named anchor? .empty
          let asList := Node.sequence (collectionTag tag? .list)
          let asDict := Node.mapping (collectionTag tag? .dict)
          match y.tokens with
          | .scalar text? isPlain :: _ =>
            finish anchor? id (.ok (.scalar (scalarTag tag? isPlain text?) text?, y.next))
          | .openBracket :: _ => finish anchor? asList (bracketItems fuel true [] z.next)
          | .openBrace :: _ => finish anchor? asDict (braceEntries fuel true [] z.next)
          | t :: _ =>
            if isLoose && t == .entry then finish anchor? asList (looseItems fuel [] z)
            else if inBlock && t == .blockSequence then
              finish anchor? asList (blockItems fuel [] z.next)
            else if inBlock && t == .blockMapping then
              finish anchor? asDict (blockEntries fuel [] z.next)
            else if anchor?.isSome || tag?.isSome then
              finish anchor? id (.ok (.scalar (scalarTag tag? true (some "")) (some ""), y))
            else .error .malformed
          | [] =>
            if anchor?.isSome || tag?.isSome then
              finish anchor? id (.ok (.scalar (scalarTag tag? true (some "")) (some ""), y))
            else .error .malformed

/-- A node, or nothing if one of some tokens or the end comes next. -/
def nodeUnless (stops : List Token) (inBlock isLoose : Bool) : Nat → Composer → Composed Node
  | 0, _ => .error .malformed
  | fuel + 1, x => if x.isAt stops then .ok (.empty, x) else node inBlock isLoose fuel x

/-- The items of an indented sequence; `done` holds those before, last first. -/
def blockItems : Nat → List Node → Composer → Composed (List Node)
  | 0, _, _ => .error .malformed
  | fuel + 1, done, x =>
    match x.tokens with
    | .entry :: _ =>
      match nodeUnless [.entry, .blockEnd] true false fuel x.next with
      | .ok (n, x) => blockItems fuel (n :: done) x
      | .error e => .error e
    | .blockEnd :: _ => .ok (done.reverse, x.next)
    | _ => .error .malformed

/-- The items of a sequence that is not indented further than the mapping around it. -/
def looseItems : Nat → List Node → Composer → Composed (List Node)
  | 0, _, _ => .error .malformed
  | fuel + 1, done, x =>
    match x.tokens with
    | .entry :: _ =>
      match nodeUnless [.entry, .key, .value, .blockEnd] true false fuel x.next with
      | .ok (n, x) => looseItems fuel (n :: done) x
      | .error e => .error e
    | _ => .ok (done.reverse, x)

/-- The entries of an indented mapping. -/
def blockEntries : Nat → List (Node × Node) → Composer → Composed (List (Node × Node))
  | 0, _, _ => .error .malformed
  | fuel + 1, done, x =>
    let stops : List Token := [.key, .value, .blockEnd]
    match x.tokens with
    | .key :: _ =>
      match nodeUnless stops true true fuel x.next with
      | .error e => .error e
      | .ok (k, x) =>
        if x.isAt [.value] then
          match nodeUnless stops true true fuel x.next with
          | .ok (v, x) => blockEntries fuel ((k, v) :: done) x
          | .error e => .error e
        else blockEntries fuel ((k, .empty) :: done) x
    | .blockEnd :: _ => .ok (done.reverse, x.next)
    | _ => .error .malformed

/-- The items between brackets. -/
def bracketItems : Nat → Bool → List Node → Composer → Composed (List Node)
  | 0, _, _, _ => .error .malformed
  | fuel + 1, isFirst, done, x =>
    if x.isAt [.closeBracket] then .ok (done.reverse, x.next)
    else if !isFirst && !x.isAt [.comma] then .error .malformed
    else
      let x := if isFirst then x else x.next
      if x.isAt [.closeBracket] then .ok (done.reverse, x.next)
      else if x.isAt [.key] then
        match nodeUnless [.value, .comma, .closeBracket] false false fuel x.next with
        | .error e => .error e
        | .ok (k, x) =>
          match pairValue [.comma, .closeBracket] fuel x with
          | .ok (v, x) => bracketItems fuel false (.mapping .dict [(k, v)] :: done) x
          | .error e => .error e
      else
        match node false false fuel x with
        | .ok (n, x) => bracketItems fuel false (n :: done) x
        | .error e => .error e

/-- The value of a key between brackets, or nothing if there is no colon. -/
def pairValue (stops : List Token) : Nat → Composer → Composed Node
  | 0, _ => .error .malformed
  | fuel + 1, x =>
    if x.isAt [.value] then nodeUnless stops false false fuel x.next else .ok (.empty, x)

/-- The entries between braces. -/
def braceEntries : Nat → Bool → List (Node × Node) → Composer → Composed (List (Node × Node))
  | 0, _, _, _ => .error .malformed
  | fuel + 1, isFirst, done, x =>
    if x.isAt [.closeBrace] then .ok (done.reverse, x.next)
    else if !isFirst && !x.isAt [.comma] then .error .malformed
    else
      let x := if isFirst then x else x.next
      if x.isAt [.closeBrace] then .ok (done.reverse, x.next)
      else if x.isAt [.key] then
        match nodeUnless [.value, .comma, .closeBrace] false false fuel x.next with
        | .error e => .error e
        | .ok (k, x) =>
          match pairValue [.comma, .closeBrace] fuel x with
          | .ok (v, x) => braceEntries fuel false ((k, v) :: done) x
          | .error e => .error e
      else
        match node false false fuel x with
        | .ok (n, x) => braceEntries fuel false ((n, .empty) :: done) x
        | .error e => .error e

end

/-- Reads the declarations in front of a document; a version and a handle are declared once. -/
def declarations (hasVersion : Bool) (handles : List (String × String)) :
    List Token → Except FormatError (List (String × String) × List Token)
  | .directive (.version major) :: rest =>
    if hasVersion || major != 1 then .error .malformed else declarations true handles rest
  | .directive (.handle name lead) :: rest =>
    if handles.any (·.1 == name) then .error .malformed
    else declarations hasVersion ((name, lead) :: handles) rest
  | .directive .reserved :: rest => declarations hasVersion handles rest
  | rest => .ok (handles ++ standardHandles, rest)

/-- Whether a token stands between documents. -/
def isBoundary : Token → Bool
  | .directive _ | .documentStart | .documentEnd => true
  | _ => false

/-- The node of a document behind its declarations. -/
def content (x : Composer) : Composed Node :=
  if x.tokens.head?.all isBoundary then .ok (.empty, x)
  else node true false (4 * x.tokens.length + 4) x

/-- The only document of a stream, if there is one. -/
def document? (tokens : List Token) : Except FormatError (Option Node) := do
  if tokens.isEmpty then return none
  let isBare := !tokens.head?.any fun t => isBoundary t && t != .documentEnd
  let (n, x) ←
    if isBare then
      node true false (4 * tokens.length + 4) { tokens, handles := standardHandles }
    else do
      let (handles, rest) ← declarations false [] tokens
      match rest with
      | .documentStart :: rest => content { tokens := rest, handles }
      | _ => .error .malformed
  if x.tokens.all (· == .documentEnd) then return some n else .error .malformed

end Composer

end TestScaffold.Yaml
