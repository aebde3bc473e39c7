/-
  TestScaffold/Toml/Scalar.lean
  =============================
  The values of a TOML document that hold no others: texts, numbers, booleans,
  dates and times.

  Every reader takes the characters from the value on, and hands back what
  follows it.
-/
import TestScaffold.Datum
import TestScaffold.Datum.FormatError
import TestScaffold.Number.Calendar
import TestScaffold.Number.Numeral
import TestScaffold.Text.Hex
import TestScaffold.Text.Words

namespace TestScaffold.Toml

open TestScaffold.Text

/-- A reading: a value with the characters behind it, or why there is none. -/
abbrev Reading (α : Type) := Except FormatError (α × List Char)

/-- A space or a tab. -/
def isBlankChar (c : Char) : Bool := c == ' ' || c == '\t'

/-- A space, a tab or the end of a line. -/
def isGapChar (c : Char) : Bool := isBlankChar c || c == '\n'

/-- A control character, which no text may hold as it is; a tab is allowed. -/
def isControl (c : Char) : Bool := (c.toNat < 32 && c != '\t') || c.toNat == 127

/-- Whether the characters begin with a mark of two or three equal characters. -/
def beginsWith (mark cs : List Char) : Bool := (afterLead? mark cs).isSome

/-! ### Texts -/

/-- The character with a code point of `width` hexadecimal digits. -/
def codePoint (width : Nat) (cs : List Char) : Reading Char :=
  if (cs.take width).length = width then
    match hexNumber? (cs.take width) with
    | some n => if h : n.isValidChar then .ok (Char.ofNatAux n h, cs.drop width)
      else .error .malformed
    | none => .error .malformed
  else .error .malformed

/-- What follows a backslash: a character, or nothing where the backslash joins lines. -/
def escape (isMultiline : Bool) : List Char → Reading (List Char)
  | 'u' :: rest => (codePoint 4 rest).map fun (c, rest) => ([c], rest)
  | 'U' :: rest => (codePoint 8 rest).map fun (c, rest) => ([c], rest)
  | 'b' :: rest => .ok ([Char.ofNat 8], rest)
  | 't' :: rest => .ok (['\t'], rest)
  | 'n' :: rest => .ok (['\n'], rest)
  | 'f' :: rest => .ok ([Char.ofNat 12], rest)
  | 'r' :: rest => .ok (['\r'], rest)
  | '"' :: rest => .ok (['"'], rest)
  | '\\' :: rest => .ok (['\\'], rest)
  | cs =>
    if isMultiline && cs.head?.any isGapChar then
      match cs.dropWhile isBlankChar with
      | [] => .ok ([], [])
      | '\n' :: rest => .ok ([], rest.dropWhile isGapChar)
      | _ => .error .malformed
    else .error .malformed

/-- The rest of a text in double quotes, up to and with the closing mark. The first argument
bounds the number of steps. -/
def basicRest (isMultiline : Bool) : Nat → List Char → Reading (List Char)
  | 0, _ => .error .malformed
  | _ + 1, [] => .error .malformed
  | fuel + 1, '"' :: rest =>
    if !isMultiline then .ok ([], rest)
    else match rest with
      | '"' :: '"' :: rest => .ok ([], rest)
      | _ => (basicRest isMultiline fuel rest).map fun (cs, rest) => ('"' :: cs, rest)
  | fuel + 1, '\\' :: rest =>
    match escape isMultiline rest with
    | .ok (escaped, rest) =>
      (basicRest isMultiline fuel rest).map fun (cs, rest) => (escaped ++ cs, rest)
    | .error e => .error e
  | fuel + 1, c :: rest =>
    if isControl c && !(isMultiline && c == '\n') then .error .malformed
    else (basicRest isMultiline fuel rest).map fun (cs, rest) => (c :: cs, rest)

/-- The rest of a text in single quotes on one line. -/
def literalRest : List Char → Reading (List Char)
  | [] => .error .malformed
  | '\'' :: rest => .ok ([], rest)
  | c :: rest =>
    if isControl c then .error .malformed
    else (literalRest rest).map fun (cs, rest) => (c :: cs, rest)

/-- The rest of a text in three single quotes. -/
def literalLines : List Char → Reading (List Char)
  | [] => .error .malformed
  | '\'' :: '\'' :: '\'' :: rest => .ok ([], rest)
  | c :: rest =>
    if isControl c && c != '\n' then .error .malformed
    else (literalLines rest).map fun (cs, rest) => (c :: cs, rest)

/-- The characters without one line end in front. -/
def afterLineEnd : List Char → List Char
  | '\n' :: rest => rest
  | cs => cs

/-- Up to two more quotes behind a closing mark of three belong to the text. -/
def extraQuotes (quote : Char) (reading : Reading (List Char)) : Reading (List Char) :=
  reading.map fun (cs, rest) =>
    let extra := (rest.take 2).takeWhile (· == quote)
    (cs ++ extra, rest.drop extra.length)

/-- A text in double quotes, from behind its first one. -/
def basicLine (cs : List Char) : Reading (List Char) := basicRest false (cs.length + 1) cs

/-- A text in quotes of any kind. -/
def quotedText? : List Char → Option (Reading (List Char))
  | '"' :: '"' :: '"' :: rest =>
    some (extraQuotes '"' (basicRest true (rest.length + 1) (afterLineEnd rest)))
  | '"' :: rest => some (basicLine rest)
  | '\'' :: '\'' :: '\'' :: rest => some (extraQuotes '\'' (literalLines (afterLineEnd rest)))
  | '\'' :: rest => some (literalRest rest)
  | _ => none

/-! ### Numbers -/

/-- The longest run of digits with single underscores between them. -/
def digitRun (isDigit : Char → Bool) : List Char → List Char × List Char
  | '_' :: c :: rest =>
    if isDigit c then
      let (digits, rest) := digitRun isDigit rest
      ('_' :: c :: digits, rest)
    else ([], '_' :: c :: rest)
  | c :: rest =>
    if isDigit c then
      let (digits, rest) := digitRun isDigit rest
      (c :: digits, rest)
    else ([], c :: rest)
  | [] => ([], [])

/-- A run of digits that begins with a digit. -/
def digits? (isDigit : Char → Bool) (cs : List Char) : Option (List Char × List Char) :=
  if cs.head?.any isDigit then some (digitRun isDigit cs) else none

/-- The number that digits of a base write; underscores do not count. -/
def inBase (base : Nat) (digits : List Char) : Nat :=
  (digits.filterMap hexValue?).foldl (fun n v => base * n + v) 0

/-- An integer in base sixteen, two or eight, with its mark in front. -/
def markedInteger? : List Char → Option (Datum × List Char)
  | '0' :: 'x' :: rest =>
    (digits? (fun c => (hexValue? c).isSome) rest).map fun (ds, rest) => (.int (inBase 16 ds), rest)
  | '0' :: 'b' :: rest =>
    (digits? (fun c => c == '0' || c == '1') rest).map fun (ds, rest) => (.int (inBase 2 ds), rest)
  | '0' :: 'o' :: rest =>
    (digits? (fun c => '0' ≤ c && c ≤ '7') rest).map fun (ds, rest) => (.int (inBase 8 ds), rest)
  | _ => none

/-- A sign, if there is one. -/
def signPart : List Char → List Char × List Char
  | '+' :: rest => (['+'], rest)
  | '-' :: rest => (['-'], rest)
  | cs => ([], cs)

/-- The whole part of a decimal number: a zero alone, or digits that begin with another one. -/
def wholePart? : List Char → Option (List Char × List Char)
  | '0' :: rest => some (['0'], rest)
  | cs => digits? isAsciiDigit cs

/-- A point with digits behind it, if there is one. -/
def fractionPart : List Char → List Char × List Char
  | '.' :: rest => match digits? isAsciiDigit rest with
    | some (ds, rest) => ('.' :: ds, rest)
    | none => ([], '.' :: rest)
  | cs => ([], cs)

/-- An exponent, if there is one. -/
def exponentPart : List Char → List Char × List Char
  | c :: rest =>
    if c == 'e' || c == 'E' then
      let (sign, digits) := signPart rest
      match digits? isAsciiDigit digits with
      | some (ds, rest) => (c :: sign ++ ds, rest)
      | none => ([], c :: rest)
    else ([], c :: rest)
  | [] => ([], [])

/-- An integer in base ten or a number with a point or an exponent. -/
def decimalNumber? (cs : List Char) : Option (Reading Datum) := do
  let (sign, rest) := signPart cs
  let (whole, rest) ← wholePart? rest
  let (fraction, rest) := fractionPart rest
  let (exponent, rest) := exponentPart rest
  let text := String.ofList (sign ++ whole ++ fraction ++ exponent)
  if fraction.isEmpty && exponent.isEmpty then
    let count := (whole.filter isAsciiDigit).length
    if Numeral.maxDigits < count then return .error (.longInteger count)
    return .ok (.int ((Numeral.integer? text).getD 0), rest)
  else return .ok (.float ((Numeral.decimal? text).getD .nan), rest)

/-- An infinite number or none at all. -/
def specialNumber? (cs : List Char) : Option (Datum × List Char) :=
  let (sign, rest) := signPart cs
  match afterLead? ['i', 'n', 'f'] rest with
  | some rest => some (.float (.infinite (sign == ['-'])), rest)
  | none => (afterLead? ['n', 'a', 'n'] rest).map fun rest => (.float .nan, rest)

/-! ### Dates and times -/

/-- The number written by the given digits. -/
def numberOf (digits : List Char) : Nat := Numeral.valueOf digits

/-- Two digits with a value between bounds, and the rest. -/
def twoDigits? (least greatest : Nat) : List Char → Option (Nat × List Char)
  | a :: b :: rest =>
    let n := numberOf [a, b]
    if isAsciiDigit a && isAsciiDigit b && least ≤ n && n ≤ greatest then some (n, rest) else none
  | _ => none

/-- A character that has to come next. -/
def expect? (c : Char) : List Char → Option (List Char)
  | d :: rest => if c = d then some rest else none
  | [] => none

/-- A time of day; what follows it. -/
def time? (cs : List Char) : Option (List Char) := do
  let (_, cs) ← twoDigits? 0 23 cs
  let (_, cs) ← twoDigits? 0 59 (← expect? ':' cs)
  let (_, cs) ← twoDigits? 0 59 (← expect? ':' cs)
  match cs with
  | '.' :: c :: rest => if isAsciiDigit c then return rest.dropWhile isAsciiDigit else return cs
  | _ => return cs

/-- A distance from universal time, if there is one; what follows it. -/
def offset (cs : List Char) : List Char :=
  match cs with
  | c :: rest =>
    if c == 'Z' || c == 'z' then rest
    else if c == '+' || c == '-' then
      (do
        let (_, rest) ← twoDigits? 0 23 rest
        let (_, rest) ← twoDigits? 0 59 (← expect? ':' rest)
        return rest).getD cs
    else cs
  | [] => []

/-- A time of day behind a date, if there is one; what follows it. -/
def dayTime (cs : List Char) : List Char :=
  match cs with
  | c :: rest =>
    if c == 'T' || c == 't' || c == ' ' then ((time? rest).map offset).getD cs else cs
  | [] => []

/-- A year, a month and a day with lines between them, and the rest. -/
def date? (cs : List Char) : Option ((Nat × Nat × Nat) × List Char) := do
  let digits := cs.take 4
  if digits.length = 4 && digits.all isAsciiDigit then
    let (month, rest) ← twoDigits? 1 12 (← expect? '-' (cs.drop 4))
    let (day, rest) ← twoDigits? 1 31 (← expect? '-' rest)
    return ((numberOf digits, month, day), rest)
  else none

/-- The characters in front of a rest of them. -/
def upTo (cs rest : List Char) : String := String.ofList (cs.take (cs.length - rest.length))

/-- A date, a time or both. -/
def instant? (cs : List Char) : Option (Reading Datum) :=
  match date? cs with
  | some ((year, month, day), rest) =>
    if year = 0 ∨ Calendar.daysIn year month < day then some (.error .malformed)
    else
      let rest := dayTime rest
      some (.ok (.instant (upTo cs rest), rest))
  | none => (time? cs).map fun rest => .ok (.instant (upTo cs rest), rest)

/-! ### Any of them -/

/-- A boolean. -/
def boolean? (cs : List Char) : Option (Datum × List Char) :=
  match afterLead? "true".toList cs with
  | some rest => some (.bool true, rest)
  | none => (afterLead? "false".toList cs).map fun rest => (.bool false, rest)

/-- A value that holds no other. -/
def scalar (cs : List Char) : Reading Datum :=
  match quotedText? cs with
  | some reading => reading.map fun (text, rest) => (.str (String.ofList text), rest)
  | none =>
    match boolean? cs with
    | some found => .ok found
    | none =>
      match instant? cs with
      | some reading => reading
      | none =>
        match markedInteger? cs with
        | some found => .ok found
        | none =>
          match decimalNumber? cs with
          | some reading => reading
          | none =>
            match specialNumber? cs with
            | some found => .ok found
            | none => .error .malformed

end TestScaffold.Toml
