/-
  TestScaffold/Schema/Check.lean
  ==============================
  Checks of untyped data, from single values up to records.

  Values of a neighbouring kind are accepted where nothing is lost: a number
  without a fraction for an integer, a word for a boolean.  A record reads its
  fields in order and reports the faults of all of them; entries that belong to
  no field are passed over.
-/
import TestScaffold.Datum
import TestScaffold.Name
import TestScaffold.Number.Numeral
import TestScaffold.Schema.Fault
import TestScaffold.Text.Words

namespace TestScaffold.Schema

open TestScaffold.Text

/-- The text that bytes encode. -/
def decodeBytes? (bytes : List UInt8) : Option String := String.fromUTF8? ⟨bytes.toArray⟩

/-- A text, or bytes that encode one. -/
def text : Datum → Checked String
  | .str s => .ok s
  | .binary bytes => match decodeBytes? bytes with
    | some s => .ok s
    | none => .fail .textNotUnicode
  | _ => .fail .textExpected

/-- A text of at least one character. -/
def name (d : Datum) : Checked Name :=
  (text d).andThen fun s => match Name.ofString? s with
    | some n => .ok n
    | none => .fail .textEmpty

/-- A text or nothing. -/
def optionalText : Datum → Checked (Option String)
  | .null => .ok none
  | d => (text d).map some

/-- The words for the two booleans, in small letters. -/
def boolOfWord? (word : String) : Option Bool :=
  let small := lower word
  if small ∈ ["1", "on", "t", "true", "y", "yes"] then some true
  else if small ∈ ["0", "off", "f", "false", "n", "no"] then some false
  else none

/-- The boolean that one of two numbers stands for. -/
def boolOfInt (n : Int) : Checked Bool :=
  if n = 0 then .ok false else if n = 1 then .ok true else .fail .boolUnreadable

/-- A boolean, a number that stands for one, or a word for one. -/
def bool : Datum → Checked Bool
  | .bool b => .ok b
  | .int n => boolOfInt n
  | .float x => match x.toInt? with
    | some n => boolOfInt n
    | none => .fail .boolExpected
  | .str s => match boolOfWord? s with
    | some b => .ok b
    | none => .fail .boolUnreadable
  | .binary bytes => match (decodeBytes? bytes).bind boolOfWord? with
    | some b => .ok b
    | none => .fail .boolUnreadable
  | _ => .fail .boolExpected

/-- A numeral without what may be left out of it: a point with nothing but zeros behind it. -/
def withoutZeroFraction (cs : List Char) : List Char :=
  match cs.dropWhile (· != '.') with
  | '.' :: zeros => if zeros.all (· == '0') then cs.takeWhile (· != '.') else cs
  | _ => cs

/-- An integer written as text. -/
def intOfText (s : String) : Checked Int :=
  if Numeral.maxDigits < s.utf8ByteSize then .fail .intTooLong
  else match Numeral.integer? (String.ofList (withoutZeroFraction (trimChars s.toList))) with
    | some n => .ok n
    | none => .fail .intUnreadable

/-- A number without a fraction counts as an integer below this magnitude. -/
def wholeLimit : Nat := 9223372036854775808

/-- An integer, a number without a fraction, or a text that writes an integer. -/
def int : Datum → Checked Int
  | .int n => .ok n
  | .bool b => .ok (if b then 1 else 0)
  | .float x => match x with
    | .finite _ _ _ => match x.toInt? with
      | some n => if n.natAbs < wholeLimit then .ok n else .fail .intTooLong
      | none => .fail .intFraction
    | _ => .fail .intNotFinite
  | .str s => intOfText s
  | .binary bytes => match decodeBytes? bytes with
    | some s => intOfText s
    | none => .fail .intUnreadable
  | _ => .fail .intExpected

/-- An integer between bounds. -/
def intWithin (least : Int) (greatest? : Option Int) (d : Datum) : Checked Int :=
  (int d).andThen fun n =>
    match greatest? with
    | some greatest =>
      if greatest < n then .fail (.aboveMaximum greatest)
      else if n < least then .fail (.belowMinimum least) else .ok n
    | none => if n < least then .fail (.belowMinimum least) else .ok n

/-- One of a list of texts, each standing for a value. -/
def oneOf {α : Type} (issue : List String → Issue) (choices : List (String × α)) (d : Datum) :
    Checked α :=
  match d with
  | .str s => match choices.find? (·.1 = s) with
    | some (_, a) => .ok a
    | none => .fail (issue (choices.map (·.1)))
  | _ => .fail (issue (choices.map (·.1)))

/-- Items checked one by one; each fault tells the position. -/
def itemsFrom {α : Type} (check : Datum → Checked α) (position : Nat) :
    List Datum → Checked (List α)
  | [] => .ok []
  | d :: rest =>
    List.cons <$> (check d).under (.index position) <*> itemsFrom check (position + 1) rest

/-- A list of checked items. -/
def list {α : Type} (check : Datum → Checked α) : Datum → Checked (List α)
  | .list items => itemsFrom check 0 items
  | _ => .fail .listExpected

/-- A list of checked items where a tuple is expected. -/
def tuple {α : Type} (check : Datum → Checked α) : Datum → Checked (List α)
  | .list items => itemsFrom check 0 items
  | _ => .fail .tupleExpected

/-- A field that has to be there. -/
def need {α : Type} (es : Entries) (key : String) (check : Datum → Checked α) : Checked α :=
  match Datum.lookup? key es with
  | some d => (check d).under (.key key)
  | none => (Checked.fail .missing).under (.key key)

/-- A field with a default. -/
def maybe {α : Type} (es : Entries) (key : String) (default : α) (check : Datum → Checked α) :
    Checked α :=
  match Datum.lookup? key es with
  | some d => (check d).under (.key key)
  | none => .ok default

/-- A record of the type with this label. -/
def record {α : Type} (label : String) (read : Entries → Checked α) : Datum → Checked α
  | .dict es => read es
  | _ => .fail (.recordExpected label)

/-- Refuses values that break a rule of the domain. -/
def obeying {α : Type} (rule : α → Option String) (x : Checked α) : Checked α :=
  x.andThen fun a => match rule a with
    | some broken => .fail (.rule broken)
    | none => .ok a

end TestScaffold.Schema
