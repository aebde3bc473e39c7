/-
  TestScaffold/Yaml/Tag.lean
  ==========================
  What kind of value a YAML text is, by its tag or by its form, and the value
  itself.

  The forms are those of version 1.1: several words for the booleans, numbers
  in base two, eight, ten, sixteen and sixty, dates and times.
-/
import TestScaffold.Datum
import TestScaffold.Number.Calendar
import TestScaffold.Number.Numeral
import TestScaffold.Text.Quoted
import TestScaffold.Yaml.Scalar

namespace TestScaffold.Yaml

open TestScaffold.Text

/-- A kind of node. -/
inductive Tag where
  | null
  | bool
  | int
  | float
  | instant
  | binary
  | text
  | list
  | dict
  | set
  | pairs
  /-- The key whose value is laid under the other entries of its mapping. -/
  | merge
  /-- The key that stands for the mapping itself; nothing but a text as a key. -/
  | default
  | unknown
deriving DecidableEq, Repr

namespace Tag

/-- How the standard tags begin. -/
def standardLead : String := "tag:yaml.org,2002:"

/-- The kinds by the names of the standard tags. -/
def standard : List (String × Tag) :=
  [("null", null), ("bool", bool), ("int", int), ("float", float), ("timestamp", instant),
   ("binary", binary), ("str", text), ("seq", list), ("map", dict), ("set", set),
   ("omap", pairs), ("pairs", pairs), ("merge", merge), ("value", default)]

/-- The kind that a full tag names. -/
def ofName (name : String) : Tag :=
  match afterLead? standardLead.toList name.toList with
  | some rest => ((standard.find? (·.1 == String.ofList rest)).map (·.2)).getD unknown
  | none => unknown

/-! ### Forms -/

/-- The words for the booleans, in small letters. -/
def switches : List (String × Bool) :=
  [("yes", true), ("no", false), ("true", true), ("false", false), ("on", true), ("off", false)]

/-- Whether a text is a word in small letters, in capitals, or with a capital in front. -/
def isWordForm (word : String) (cs : List Char) : Bool :=
  let small := word.toList
  let up (c : Char) : Char := if 'a' ≤ c && c ≤ 'z' then Char.ofNat (c.toNat - 32) else c
  cs == small || cs == small.map up ||
    cs == (match small with | c :: rest => up c :: rest | [] => [])

/-- A decimal digit or an underscore. -/
def isDigitOrLine (c : Char) : Bool := isAsciiDigit c || c == '_'

/-- The characters without one sign in front. -/
def withoutSign : List Char → List Char
  | '+' :: rest => rest
  | '-' :: rest => rest
  | cs => cs

/-- Whether characters are one or more groups of a colon and a number below sixty. -/
def areSixtieths : List Char → Bool
  | [':', a] => isAsciiDigit a
  | ':' :: a :: ':' :: rest => isAsciiDigit a && areSixtieths (':' :: rest)
  | ':' :: a :: b :: rest =>
    '0' ≤ a && a ≤ '5' && isAsciiDigit b && (rest.isEmpty || areSixtieths rest)
  | _ => false

/-- Whether characters are an integer. -/
def isIntForm (cs : List Char) : Bool :=
  match withoutSign cs with
  | '0' :: 'b' :: c :: rest => (c :: rest).all fun c => c == '0' || c == '1' || c == '_'
  | '0' :: 'x' :: c :: rest => (c :: rest).all fun c => (hexValue? c).isSome || c == '_'
  | ['0'] => true
  | '0' :: rest => rest.all fun c => ('0' ≤ c && c ≤ '7') || c == '_'
  | c :: rest =>
    isAsciiDigit c &&
      (let rest := rest.dropWhile isDigitOrLine
       rest.isEmpty || areSixtieths rest)
  | [] => false

/-- Whether characters are nothing or an exponent with a sign. -/
def isExponentForm : List Char → Bool
  | [] => true
  | e :: sign :: digits =>
    (e == 'e' || e == 'E') && (sign == '+' || sign == '-') && !digits.isEmpty &&
      digits.all isAsciiDigit
  | _ => false

/-- Whether characters are a number with a point in it. -/
def isFloatForm (cs : List Char) : Bool :=
  let body := withoutSign cs
  match body with
  | '.' :: rest =>
    isWordForm "inf" rest ||
      (cs == '.' :: rest && (rest == "nan".toList || rest == "NaN".toList || rest == "NAN".toList ||
        (rest.head?.any isAsciiDigit && isExponentForm (rest.dropWhile isDigitOrLine))))
  | c :: rest =>
    isAsciiDigit c &&
      (match rest.dropWhile isDigitOrLine with
       | '.' :: rest => isExponentForm (rest.dropWhile isDigitOrLine)
       | ':' :: rest =>
         let sixtieths := rest.takeWhile (· != '.')
         (match rest.drop sixtieths.length with
          | '.' :: rest => areSixtieths (':' :: sixtieths) && rest.all isDigitOrLine
          | _ => false)
       | _ => false)
  | [] => false

/-- One or two digits: their number and what follows. -/
def fewDigits? : List Char → Option (Nat × List Char)
  | a :: b :: rest =>
    if isAsciiDigit a && isAsciiDigit b then some (Numeral.valueOf [a, b], rest)
    else if isAsciiDigit a then some (Numeral.valueOf [a], b :: rest)
    else none
  | [a] => if isAsciiDigit a then some (Numeral.valueOf [a], []) else none
  | [] => none

/-- Two digits: their number and what follows. -/
def pairOfDigits? : List Char → Option (Nat × List Char)
  | a :: b :: rest =>
    if isAsciiDigit a && isAsciiDigit b then some (Numeral.valueOf [a, b], rest) else none
  | _ => none

/-- What follows a character that has to come first. -/
def behind? (c : Char) : List Char → Option (List Char)
  | d :: rest => if c == d then some rest else none
  | [] => none

/-- The numbers of a date and time. -/
structure Moment where
  year : Nat
  month : Nat
  day : Nat
  hour : Nat := 0
  minute : Nat := 0
  second : Nat := 0

/-- A distance from universal time, blanks in front of it; what follows. -/
def offsetForm (cs : List Char) : List Char :=
  match cs.dropWhile fun c => c == ' ' || c == '\t' with
  | 'Z' :: rest => rest
  | c :: rest =>
    if c == '+' || c == '-' then
      match fewDigits? rest with
      | some (_, rest) => ((behind? ':' rest).bind pairOfDigits?).elim rest (·.2)
      | none => cs
    else cs
  | [] => cs

/-- A time of day behind a date, up to the end. -/
def timeForm? (m : Moment) (cs : List Char) : Option Moment := do
  let isBlank (c : Char) : Bool := c == ' ' || c == '\t'
  let rest ← match cs with
    | c :: rest =>
      if c == 'T' || c == 't' then some rest
      else if isBlank c then some (rest.dropWhile isBlank) else none
    | [] => none
  let (hour, rest) ← fewDigits? rest
  let (minute, rest) ← pairOfDigits? (← behind? ':' rest)
  let (second, rest) ← pairOfDigits? (← behind? ':' rest)
  let rest := match rest with
    | '.' :: rest => rest.dropWhile isAsciiDigit
    | rest => rest
  if (offsetForm rest).isEmpty then some { m with hour, minute, second } else none

/-- The date, with a time or without, that characters write. -/
def momentForm? (cs : List Char) : Option Moment := do
  let digits := cs.take 4
  if digits.length = 4 && digits.all isAsciiDigit then
    let year := Numeral.valueOf digits
    let rest ← behind? '-' (cs.drop 4)
    let plain? : Option Moment := do
      let (month, rest) ← pairOfDigits? rest
      let (day, rest) ← pairOfDigits? (← behind? '-' rest)
      if rest.isEmpty then some { year, month, day } else none
    match plain? with
    | some m => some m
    | none =>
      let (month, rest) ← fewDigits? rest
      let (day, rest) ← fewDigits? (← behind? '-' rest)
      timeForm? { year, month, day } rest
  else none

/-- The kind of a text by its form. -/
def ofForm (cs : List Char) : Tag :=
  if switches.any fun s => isWordForm s.1 cs then bool
  else if isFloatForm cs then float
  else if isIntForm cs then int
  else if cs == ['<', '<'] then merge
  else if cs.isEmpty || cs == ['~'] || isWordForm "null" cs then null
  else if (momentForm? cs).isSome then instant
  else if cs == ['='] then default
  else text

/-! ### Values -/

/-- What is wrong with a date and time. -/
def Moment.fault? (m : Moment) : Option String :=
  if m.year = 0 then some "year 0 is out of range"
  else if m.month = 0 ∨ 12 < m.month then some "month must be in 1..12"
  else if m.day = 0 ∨ Calendar.daysIn m.year m.month < m.day then some "day is out of range for month"
  else if 23 < m.hour then some "hour must be in 0..23"
  else if 59 < m.minute then some "minute must be in 0..59"
  else if 59 < m.second then some "second must be in 0..59"
  else none

/-- The pieces of characters between colons. -/
def colonPieces (cs : List Char) : List (List Char) := splitChars ':' cs

/-- The number of digits in a base, none of them missing. -/
def inBase? (base : Nat) (cs : List Char) : Option Nat :=
  if cs.isEmpty then none
  else cs.foldl (fun n? c => do
    let v ← hexValue? c
    if v < base then return base * (← n?) + v else none) (some 0)

/-- An integer in a base, or why there is none. -/
def integerIn (base : Nat) (cs : List Char) : Except FormatError Int :=
  match inBase? base cs with
  | some n => .ok n
  | none => .error (.noSuchValue ("invalid literal for int() with base " ++ toString base ++ ": " ++
      quoted (String.ofList cs)))

/-- An integer in base ten, or why there is none. -/
def decimalInteger (cs : List Char) : Except FormatError Int :=
  let text := String.ofList cs
  match Numeral.integer? text with
  | some n => .ok n
  | none =>
    if !cs.isEmpty && cs.all isAsciiDigit then .error (.longInteger cs.length)
    else .error (.noSuchValue ("invalid literal for int() with base 10: " ++ quoted text))

/-- The value of an integer. -/
def integerOf (cs : List Char) : Except FormatError Int :=
  let cs := cs.filter (· != '_')
  let negate (x : Except FormatError Int) : Except FormatError Int :=
    if cs.head? == some '-' then x.map (- ·) else x
  match withoutSign cs with
  | [] => .error .emptyNumber
  | ['0'] => .ok 0
  | '0' :: 'b' :: digits => negate (integerIn 2 digits)
  | '0' :: 'x' :: digits => negate (integerIn 16 digits)
  | '0' :: digits => negate (integerIn 8 ('0' :: digits))
  | digits =>
    if digits.contains ':' then
      negate ((colonPieces digits).foldlM (fun n piece => (60 * n + ·) <$> decimalInteger piece) 0)
    else negate (decimalInteger digits)

/-- The value of a decimal between colons: a number of digits and of places behind the point. -/
def sixtieths (pieces : List (List Char)) : Decimal :=
  let places := ((pieces.getLastD []).dropWhile (· != '.')).length - 1
  let value (piece : List Char) : Nat := Numeral.valueOf (piece.filter isAsciiDigit)
  let whole := pieces.dropLast.foldl (fun n piece => 60 * n + value piece) 0
  ⟨60 * whole * Nat.pow 10 places + value (pieces.getLastD []), -(places : Int)⟩

/-- The value of a number with a point. -/
def floatOf (cs : List Char) : Except FormatError Binary64 :=
  let cs := (lower (String.ofList (cs.filter (· != '_')))).toList
  let isNegative := cs.head? == some '-'
  let body := withoutSign cs
  if cs.isEmpty then .error .emptyNumber
  else if body == ".inf".toList then .ok (.infinite isNegative)
  else if body == ".nan".toList then .ok .nan
  else if body.contains ':' then .ok (.ofDecimal isNegative (sixtieths (colonPieces body)))
  else match Numeral.decimal? (String.ofList body) with
    | some x => .ok (if isNegative then x.negated else x)
    | none => .error (.noSuchValue ("could not convert string to float: " ++
        quoted (String.ofList body)))

/-- The value of a date or time. -/
def instantOf (cs : List Char) : Except FormatError Datum :=
  match momentForm? cs with
  | none => .error .unlikeTag
  | some m => match m.fault? with
    | some reason => .error (.noSuchValue reason)
    | none => .ok (.instant (String.ofList cs))

/-- The six bits that a character of base sixty-four stands for. -/
def sixBits? (c : Char) : Option Nat :=
  if isAsciiUpper c then some (c.toNat - 65)
  else if 'a' ≤ c && c ≤ 'z' then some (c.toNat - 71)
  else if isAsciiDigit c then some (c.toNat + 4)
  else if c == '+' then some 62
  else if c == '/' then some 63
  else none

/-- Bytes in base sixty-four. Characters of no value are passed over; the text ends with enough
equals signs to fill a group of four. `group` is the number of characters in the open group,
`left` what they leave over, `signs` the number of equals signs just before. -/
def sixtyFour (group left signs : Nat) : List Char → Option (List UInt8)
  | [] => if group = 0 then some [] else none
  | c :: rest =>
    if c == '=' then
      if 2 ≤ group then
        if 4 ≤ group + signs + 1 then some [] else sixtyFour group left (signs + 1) rest
      else sixtyFour group left signs rest
    else match sixBits? c with
      | none => sixtyFour group left signs rest
      | some v =>
        match group with
        | 0 => sixtyFour 1 v 0 rest
        | 1 => (sixtyFour 2 (v % 16) 0 rest).map (UInt8.ofNat (4 * left + v / 16) :: ·)
        | 2 => (sixtyFour 3 (v % 4) 0 rest).map (UInt8.ofNat (16 * left + v / 4) :: ·)
        | _ => (sixtyFour 0 0 0 rest).map (UInt8.ofNat (64 * left + v) :: ·)

/-- The bytes that a text writes. -/
def bytesOf (cs : List Char) : Except FormatError (List UInt8) :=
  if cs.all fun c => c.toNat < 128 then
    match sixtyFour 0 0 0 cs with
    | some bytes => .ok bytes
    | none => .error .malformed
  else .error .malformed

/-- The value of a text of the given kind. -/
def valueOf (tag : Tag) (cs : List Char) : Except FormatError Datum :=
  match tag with
  | null => .ok .null
  | bool =>
    match switches.find? (·.1 == lower (String.ofList cs)) with
    | some (_, b) => .ok (.bool b)
    | none => .error .unknownWord
  | int => (integerOf cs).map .int
  | float => (floatOf cs).map .float
  | instant => instantOf cs
  | binary => (bytesOf cs).map .binary
  | text => .ok (.str (String.ofList cs))
  | _ => .error .malformed

end Tag

end TestScaffold.Yaml
