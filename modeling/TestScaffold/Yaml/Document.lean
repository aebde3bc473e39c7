/-
  TestScaffold/Yaml/Document.lean
  ===============================
  The data of a YAML document.

  Only keys that are texts enter the data; whether a mapping had others is told
  apart, because nothing but a text can name a setting.  The mapping under a
  merge key is laid below the other entries of its mapping; of several, the
  first one lies on top.
-/
import TestScaffold.Text.Lines
import TestScaffold.Yaml.Node

namespace TestScaffold.Yaml

/-- The entries of a mapping with texts as keys, and whether it had other keys. -/
structure Mapping where
  merged : Entries := []
  own : Entries := []
  hasOtherKeys : Bool := false

namespace Mapping

/-- All entries, those of merged mappings below. -/
def entries (m : Mapping) : Entries :=
  (m.merged ++ m.own).foldl (fun es e => Datum.insert e.1 e.2 es) []

/-- The mapping with another one laid below its own entries but over those merged before. -/
def lay (m below : Mapping) : Mapping :=
  { m with merged := m.merged ++ below.entries, hasOtherKeys := m.hasOtherKeys || below.hasOtherKeys }

/-- The mapping with one more entry. -/
def add (m : Mapping) (key? : Option String) (value : Datum) : Mapping :=
  match key? with
  | some key => { m with own := m.own ++ [(key, value)] }
  | none => { m with hasOtherKeys := true }

end Mapping

namespace Node

/-- The bytes that stand for a text which is none: they encode no text. -/
def brokenText : List UInt8 := [0xED]

/-- The value of a text node. -/
def scalarValue (tag : Tag) (text? : Option String) : Except FormatError Datum :=
  match text? with
  | some s => tag.valueOf s.toList
  | none => if tag = .text then .ok (.binary brokenText) else .error .malformed

/-- The key that a node stands for: a text, or something else that can be a key. -/
def key? : Node → Except FormatError (Option String)
  | .scalar .default text? => .ok text?
  | .scalar .text text? => .ok (some (text?.getD ""))
  | .scalar tag text? => (scalarValue tag text?).map fun _ => none
  | _ => .error .malformed

mutual

/-- The data of a node. -/
def datum : Node → Except FormatError Datum
  | .scalar tag text? => scalarValue tag text?
  | .sequence tag items =>
    if tag = .list then (data items).map .list
    else if tag = .pairs then (pairData items).map .list
    else .error .malformed
  | .mapping tag entries =>
    if tag = .dict || tag = .set then
      (mappingOf {} entries).map fun m =>
        if tag = .set then .list (m.entries.map fun e => .str e.1) else .dict m.entries
    else .error .malformed

/-- The data of nodes. -/
def data : List Node → Except FormatError (List Datum)
  | [] => .ok []
  | n :: rest =>
    match datum n, data rest with
    | .ok d, .ok ds => .ok (d :: ds)
    | .error e, _ => .error e
    | _, .error e => .error e

/-- The data of nodes that are mappings with one entry each. -/
def pairData : List Node → Except FormatError (List Datum)
  | [] => .ok []
  | .mapping _ [(k, v)] :: rest =>
    match datum k, datum v, pairData rest with
    | .ok k, .ok v, .ok ds => .ok (.list [k, v] :: ds)
    | .error e, _, _ => .error e
    | _, .error e, _ => .error e
    | _, _, .error e => .error e
  | _ :: _ => .error .malformed

/-- A mapping with entries added in order. -/
def mappingOf (m : Mapping) : List (Node × Node) → Except FormatError Mapping
  | [] => .ok m
  | (.scalar .merge _, .mapping _ below) :: rest =>
    match mappingOf {} below with
    | .ok below => mappingOf (m.lay below) rest
    | .error e => .error e
  | (.scalar .merge _, .sequence _ several) :: rest =>
    match mappingsOf several with
    | .ok several => mappingOf (several.foldr (fun below m => m.lay below) m) rest
    | .error e => .error e
  | (.scalar .merge _, .scalar _ _) :: _ => .error .malformed
  | (k, v) :: rest =>
    match key? k, datum v with
    | .ok key?, .ok value => mappingOf (m.add key? value) rest
    | .error e, _ => .error e
    | _, .error e => .error e

/-- Mappings, one for each node. -/
def mappingsOf : List Node → Except FormatError (List Mapping)
  | [] => .ok []
  | .mapping _ entries :: rest =>
    match mappingOf {} entries, mappingsOf rest with
    | .ok m, .ok ms => .ok (m :: ms)
    | .error e, _ => .error e
    | _, .error e => .error e
  | _ :: _ => .error .malformed

end

end Node

/-- The data of a document, and whether its outermost mapping has keys that are no texts. -/
structure Document where
  value : Datum := .null
  hasOtherKeys : Bool := false

/-- The document of a stream, which has one at most. -/
def document (text : String) : Except FormatError Document := do
  match ← Composer.document? (← tokens (Text.unifyLineEnds text.toList)) with
  | none => return {}
  | some (.mapping .dict entries) =>
    let m ← Node.mappingOf {} entries
    return { value := .dict m.entries, hasOtherKeys := m.hasOtherKeys }
  | some n => return { value := ← n.datum }

end TestScaffold.Yaml
