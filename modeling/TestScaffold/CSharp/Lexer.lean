/-
  TestScaffold/CSharp/Lexer.lean
  ==============================
  Reading the next token of C# source text.

  What a character sequence means depends on what the grammar can go on with:
  a keyword counts as one only where one is possible, and inside an
  interpolated string characters are text unless they end it or open a hole.
  The reader is therefore given the question `wants`, which the chart of
  `CSharp/Chart.lean` answers, and the strings that are open around.

  Every reading function takes characters from the front and returns what it
  took together with the rest.
-/
import TestScaffold.CSharp.Token

namespace TestScaffold.CSharp

open TestScaffold.Text

namespace Lexer

/-- Characters taken from the front, and the rest. -/
abbrev Cut := List Char × List Char

/-- Puts characters before those that were taken. -/
def Cut.after (front : List Char) (cut : Cut) : Cut := (front ++ cut.1, cut.2)

/-! ### Gaps -/

/-- A blank of source text. -/
def isGapBlank (c : Char) : Bool :=
  let n := c.toNat
  n == 32 || (9 ≤ n && n ≤ 13) || n == 0xA0 || n == 0xFEFF || n == 0x3000

/-- A block comment from behind its opening on; nothing if it never closes. -/
def blockComment? : List Char → Option Cut
  | '*' :: '/' :: rest => some (['*', '/'], rest)
  | c :: rest => (blockComment? rest).map (Cut.after [c])
  | [] => none

/-- The rest of the line, without its end. -/
def lineCut (cs : List Char) : Cut :=
  (cs.takeWhile (fun c => c != '\n' && c != '\r'), cs.dropWhile fun c => c != '\n' && c != '\r')

/-- A blank within a line. -/
def isLineBlank (c : Char) : Bool := c == ' ' || c == '\t'

/-- A line up to and with its line feed. -/
def wholeLine? (cs : List Char) : Option Cut :=
  match cs.dropWhile (· != '\n') with
  | '\n' :: rest => some (cs.takeWhile (· != '\n') ++ ['\n'], rest)
  | _ => none

/-- A line without a comment at its end. -/
def withoutComment : List Char → List Char
  | '/' :: '/' :: _ => []
  | c :: rest => c :: withoutComment rest
  | [] => []

/-- The words of a line, by blanks. -/
def lineWords : List Char → List (List Char)
  | [] => [[]]
  | c :: rest =>
    if isGapBlank c then [] :: lineWords rest
    else match lineWords rest with
      | w :: ws => (c :: w) :: ws
      | [] => [[c]]

/-- Whether a line is well formed for a directive that separates tokens. -/
def goodDirective (name line : List Char) : Bool :=
  let args := ((lineWords (withoutComment line)).filter (· != [])).map String.ofList
  match String.ofList name with
  | "region" | "endregion" | "define" | "undef" => true
  | "error" | "warning" => true
  | "nullable" =>
    match args with
    | [state] => state ∈ ["enable", "disable", "restore"]
    | [state, target] =>
      state ∈ ["enable", "disable", "restore"] && target ∈ ["annotations", "warnings"]
    | _ => false
  | "pragma" =>
    match args with
    | "warning" :: state :: _ => state ∈ ["disable", "restore"]
    | ["checksum", _, _, _] => true
    | _ => false
  | "line" => match args with
    | [] => false
    | _ => true
  | _ => false

/-- The name of a directive, from behind the number sign on, with the blanks before it. -/
def directiveName (cs : List Char) : List Char × Cut :=
  let name := (cs.dropWhile isLineBlank).takeWhile isAsciiLetter
  (name, (cs.takeWhile isLineBlank ++ name, (cs.dropWhile isLineBlank).dropWhile isAsciiLetter))

/-- A directive line that separates tokens. -/
def directive? (cs : List Char) : Option Cut :=
  match cs with
  | '#' :: rest =>
    let (name, head, rest) := directiveName rest
    match wholeLine? rest with
    | some (line, rest) =>
      if goodDirective name line then some ('#' :: head ++ line, rest) else none
    | none => none
  | _ => none

/-- One separator at the front. -/
def separator? (cs : List Char) : Option (Separator × List Char) :=
  match cs with
  | '/' :: '/' :: rest =>
    let (text, rest) := lineCut rest
    some (.comment ('/' :: '/' :: text), rest)
  | '/' :: '*' :: rest =>
    (blockComment? rest).map fun (text, rest) => (.comment ('/' :: '*' :: text), rest)
  | '#' :: _ => (directive? cs).map fun (text, rest) => (.directive text, rest)
  | c :: _ =>
    if isGapBlank c then some (.blank (cs.takeWhile isGapBlank), cs.dropWhile isGapBlank)
    else none
  | [] => none

/-- All separators at the front. `fuel` bounds their number. -/
def gap : Nat → List Char → List Separator × List Char
  | 0, cs => ([], cs)
  | fuel + 1, cs =>
    match separator? cs with
    | some (s, rest) =>
      let (more, rest) := gap fuel rest
      (s :: more, rest)
    | none => ([], cs)

/-! ### Words and numbers -/

/-- A hexadecimal digit. -/
def isHex (c : Char) : Bool :=
  isAsciiDigit c || ('a' ≤ c && c ≤ 'f') || ('A' ≤ c && c ≤ 'F')

/-- `count` hexadecimal digits at the front. -/
def hexCut? : Nat → List Char → Option Cut
  | 0, cs => some ([], cs)
  | n + 1, c :: rest => if isHex c then (hexCut? n rest).map (Cut.after [c]) else none
  | _ + 1, [] => none

/-- A Unicode escape at the front. -/
def unicodeEscape? : List Char → Option Cut
  | '\\' :: 'u' :: rest => (hexCut? 4 rest).map (Cut.after ['\\', 'u'])
  | '\\' :: 'U' :: rest => (hexCut? 8 rest).map (Cut.after ['\\', 'U'])
  | _ => none

/-- Characters that go on with an identifier. `fuel` bounds their number. -/
def wordRest : Nat → List Char → Cut
  | 0, cs => ([], cs)
  | fuel + 1, cs =>
    match cs with
    | c :: rest =>
      if isIdentifierPart c then Cut.after [c] (wordRest fuel rest)
      else match unicodeEscape? cs with
        | some (esc, rest) => Cut.after esc (wordRest fuel rest)
        | none => ([], cs)
    | [] => ([], [])

/-- An identifier or keyword without an at sign. -/
def bareWord? (cs : List Char) : Option Cut :=
  match cs with
  | c :: rest =>
    if isIdentifierStart c then some (Cut.after [c] (wordRest rest.length rest))
    else (unicodeEscape? cs).map fun (esc, rest) => Cut.after esc (wordRest rest.length rest)
  | [] => none

/-- A word at the front. -/
def wordCut? : List Char → Option Cut
  | '@' :: rest => (bareWord? rest).map (Cut.after ['@'])
  | cs => bareWord? cs

/-- A word with the knowledge of its characters. -/
def Word.ofChars? (cs : List Char) : Option Word :=
  if h : cs ≠ [] ∧ cs.all isWordChar = true then some ⟨cs, h.1, List.all_eq_true.1 h.2⟩
  else none

/-- Digits with underscores between them; underscores at the end are given back. -/
def digitCut (isDigit : Char → Bool) (cs : List Char) : Cut :=
  let run := cs.takeWhile fun c => isDigit c || c == '_'
  let kept := (run.reverse.dropWhile (· == '_')).reverse
  (kept, cs.drop kept.length)

/-- The suffix of an integer. -/
def integerSuffix (cs : List Char) : Cut :=
  match cs with
  | c :: d :: rest =>
    let isU (c : Char) : Bool := c == 'u' || c == 'U'
    let isL (c : Char) : Bool := c == 'l' || c == 'L'
    if (isU c && isL d) || (isL c && isU d) then ([c, d], rest)
    else if isU c || isL c then ([c], d :: rest) else ([], cs)
  | [c] => if c == 'u' || c == 'U' || c == 'l' || c == 'L' then ([c], []) else ([], cs)
  | [] => ([], [])

/-- The suffix of a real number. -/
def realSuffix (cs : List Char) : Cut :=
  match cs with
  | c :: rest => if c ∈ ['f', 'F', 'd', 'D', 'm', 'M'] then ([c], rest) else ([], cs)
  | [] => ([], [])

/-- The exponent of a real number; empty if there is none. -/
def exponent (cs : List Char) : Cut :=
  match cs with
  | e :: rest =>
    if e == 'e' || e == 'E' then
      let (sign, digits) : Cut := match rest with
        | s :: more => if s == '+' || s == '-' then ([s], more) else ([], rest)
        | [] => ([], [])
      match digits with
      | d :: _ =>
        if isAsciiDigit d then
          let isPart (c : Char) : Bool := isAsciiDigit c || c == '_'
          (e :: sign ++ digits.takeWhile isPart, digits.dropWhile isPart)
        else ([], cs)
      | [] => ([], cs)
    else ([], cs)
  | [] => ([], [])

/-- One cut behind another. -/
def andThen (first : Cut) (next : List Char → Cut) : Cut :=
  Cut.after first.1 (next first.2)

/-- A fraction: a point with digits behind it. -/
def fraction? : List Char → Option Cut
  | '.' :: d :: rest =>
    if isAsciiDigit d then some (Cut.after ['.'] (digitCut isAsciiDigit (d :: rest))) else none
  | _ => none

/-- A number at the front. -/
def numberCut? (cs : List Char) : Option Cut :=
  let decimal : Option Cut :=
    match cs with
    | d :: _ =>
      if isAsciiDigit d then
        let whole := digitCut isAsciiDigit cs
        match fraction? whole.2 with
        | some part => some (andThen (andThen (Cut.after whole.1 part) exponent) realSuffix)
        | none =>
          let scaled := andThen whole exponent
          let real := andThen scaled realSuffix
          if whole.1.length < real.1.length then some real else some (andThen whole integerSuffix)
      else (fraction? cs).map fun part => andThen (andThen part exponent) realSuffix
    | [] => none
  match cs with
  | '0' :: x :: rest =>
    let based : Option Cut :=
      if x == 'x' || x == 'X' then some (digitCut isHex rest)
      else if x == 'b' || x == 'B' then some (digitCut (fun c => c == '0' || c == '1') rest)
      else none
    match based with
    | some digits =>
      if digits.1.isEmpty then decimal
      else some (andThen (Cut.after ['0', x] digits) integerSuffix)
    | none => decimal
  | _ => decimal

/-! ### Characters and strings -/

/-- An escape inside a character literal. -/
def charEscape? : List Char → Option Cut
  | '\\' :: 'x' :: rest =>
    match hexCut? 1 rest with
    | some _ =>
      let digits := (rest.take 4).takeWhile isHex
      some ('\\' :: 'x' :: digits, rest.drop digits.length)
    | none => none
  | '\\' :: c :: rest =>
    if c == 'u' || c == 'U' then unicodeEscape? ('\\' :: c :: rest)
    else if c ∈ ['a', 'b', 'e', 'f', 'n', 'r', 't', 'v', '\'', '"', '\\', '?', '0'] then
      some (['\\', c], rest)
    else none
  | _ => none

/-- A character literal at the front. -/
def charCut? : List Char → Option Cut
  | '\'' :: c :: rest =>
    let inside : Option Cut :=
      if c == '\\' then charEscape? (c :: rest)
      else if c == '\'' then none else some ([c], rest)
    match inside with
    | some (text, '\'' :: rest) => some ('\'' :: text ++ ['\''], rest)
    | _ => none
  | _ => none

/-- The mark of a string of bytes. -/
def byteSuffix : List Char → Cut
  | 'u' :: '8' :: rest => (['u', '8'], rest)
  | 'U' :: '8' :: rest => (['U', '8'], rest)
  | cs => ([], cs)

/-- A string from behind its opening quote on. -/
def stringRest? : List Char → Option Cut
  | '"' :: rest => some (Cut.after ['"'] (byteSuffix rest))
  | '\\' :: c :: rest => (stringRest? rest).map (Cut.after ['\\', c])
  | '\n' :: _ => none
  | c :: rest => (stringRest? rest).map (Cut.after [c])
  | [] => none

/-- A verbatim string from behind its opening quote on. -/
def verbatimRest? : List Char → Option Cut
  | '"' :: '"' :: rest => (verbatimRest? rest).map (Cut.after ['"', '"'])
  | '"' :: rest => some (Cut.after ['"'] (byteSuffix rest))
  | c :: rest => (verbatimRest? rest).map (Cut.after [c])
  | [] => none

/-- How many times `c` stands at the front. -/
def runLength (c : Char) (cs : List Char) : Nat := (cs.takeWhile (· == c)).length

/-- A raw string from behind its opening quotes on, closed by `quotes` quotes. -/
def rawRest? (quotes : Nat) : List Char → Option Cut
  | [] => none
  | c :: rest =>
    if quotes ≤ runLength '"' (c :: rest) then
      some (Cut.after ((c :: rest).take quotes) (byteSuffix ((c :: rest).drop quotes)))
    else (rawRest? quotes rest).map (Cut.after [c])

/-- A string at the front, of any kind without holes. -/
def stringCut? : List Char → Option Cut
  | '@' :: '"' :: rest => (verbatimRest? rest).map (Cut.after ['@', '"'])
  | '"' :: rest =>
    let quotes := runLength '"' ('"' :: rest)
    if 3 ≤ quotes then
      (rawRest? quotes (rest.drop (quotes - 1))).map (Cut.after (List.replicate quotes '"'))
    else (stringRest? rest).map (Cut.after ['"'])
  | _ => none

/-- How an interpolated string is quoted. -/
inductive Quoting where
  | regular
  | verbatim
  | raw (quotes dollars : Nat)
deriving DecidableEq, Repr

/-- The opening of an interpolated string at the front. -/
def textStart? (cs : List Char) : Option (Quoting × Cut) :=
  match cs with
  | '@' :: '$' :: '"' :: rest => some (.verbatim, ['@', '$', '"'], rest)
  | '$' :: '@' :: '"' :: rest => some (.verbatim, ['$', '@', '"'], rest)
  | '$' :: _ =>
    let dollars := runLength '$' cs
    let quotes := runLength '"' (cs.drop dollars)
    if 3 ≤ quotes then
      some (.raw quotes dollars, cs.take (dollars + quotes), cs.drop (dollars + quotes))
    else if dollars = 1 ∧ 1 ≤ quotes then some (.regular, cs.take 2, cs.drop 2)
    else none
  | _ => none

/-- How many characters at the front belong to the text of an interpolated string: none at its
end and at a hole, two for an escape. -/
def textWidth (q : Quoting) (cs : List Char) : Nat :=
  let doubled (x : Char) : Bool := 2 ≤ runLength x cs
  match q, cs with
  | _, [] => 0
  | .regular, c :: _ =>
    if c == '"' || c == '\n' then 0
    else if c == '\\' then 2
    else if c == '\x7b' then if doubled c then 2 else 0
    else 1
  | .verbatim, c :: _ =>
    if c == '"' || c == '\x7b' then if doubled c then 2 else 0 else 1
  | .raw quotes dollars, _ :: _ =>
    if quotes ≤ runLength '"' cs || runLength '\x7b' cs = dollars then 0 else 1

/-- Characters of an interpolated string up to its end or a hole. -/
def textPart (q : Quoting) : List Char → Cut
  | [] => ([], [])
  | c :: rest =>
    match textWidth q (c :: rest), rest with
    | 0, _ => ([], c :: rest)
    | 2, d :: rest => Cut.after [c, d] (textPart q rest)
    | _, rest => Cut.after [c] (textPart q rest)

/-- The characters that close an interpolated string. -/
def Quoting.close : Quoting → List Char
  | raw quotes _ => List.replicate quotes '"'
  | _ => ['"']

/-- The characters that open a hole. -/
def Quoting.hole : Quoting → List Char
  | raw _ dollars => List.replicate dollars '\x7b'
  | _ => ['\x7b']

/-- The characters that close a hole. -/
def Quoting.unhole : Quoting → List Char
  | raw _ dollars => List.replicate dollars '\x7d'
  | _ => ['\x7d']

/-- The rest behind expected characters. -/
def strip? : List Char → List Char → Option (List Char)
  | [], cs => some cs
  | p :: ps, c :: cs => if p = c then strip? ps cs else none
  | _ :: _, [] => none

/-! ### Conditional directives -/

/-- The tokens of a condition: names and numbers, and signs by their characters. -/
def conditionTokens : Nat → List Char → Option (List (List Char))
  | 0, _ => some []
  | fuel + 1, cs =>
    match cs with
    | [] => some []
    | '&' :: '&' :: rest => (conditionTokens fuel rest).map (['&', '&'] :: ·)
    | '|' :: '|' :: rest => (conditionTokens fuel rest).map (['|', '|'] :: ·)
    | '=' :: '=' :: rest => (conditionTokens fuel rest).map (['=', '='] :: ·)
    | '!' :: '=' :: rest => (conditionTokens fuel rest).map (['!', '='] :: ·)
    | '!' :: rest => (conditionTokens fuel rest).map (['!'] :: ·)
    | '(' :: rest => (conditionTokens fuel rest).map (['('] :: ·)
    | ')' :: rest => (conditionTokens fuel rest).map ([')'] :: ·)
    | c :: rest =>
      if isGapBlank c then conditionTokens fuel rest
      else match wordCut? cs with
        | some (w, rest) => (conditionTokens fuel rest).map (w :: ·)
        | none => match numberCut? cs with
          | some (n, rest) => (conditionTokens fuel rest).map (n :: ·)
          | none => none

/-- Reads tokens of a condition. `needsOperand` says whether an operand comes next, `depth` how
many parentheses are open. -/
def goodCondition (needsOperand : Bool) (depth : Nat) : List (List Char) → Bool
  | [] => !needsOperand && depth == 0
  | t :: rest =>
    if needsOperand then
      if t = ['!'] then goodCondition true depth rest
      else if t = ['('] then goodCondition true (depth + 1) rest
      else match t with
        | c :: _ => (isIdentifierStart c || isAsciiDigit c || c == '@') &&
            goodCondition false depth rest
        | [] => false
    else if t = [')'] then depth != 0 && goodCondition false (depth - 1) rest
    else t ∈ [['&', '&'], ['|', '|'], ['=', '='], ['!', '=']] && goodCondition true depth rest

/-- A conditional directive or an interpreter line at the front. -/
def conditional? (cs : List Char) : Option (Terminal × Cut) :=
  match cs with
  | '#' :: '!' :: rest => some (.shebang, Cut.after ['#', '!'] (lineCut rest))
  | '#' :: rest =>
    let (name, head, rest) := directiveName rest
    let withCondition (t : Terminal) : Option (Terminal × Cut) :=
      match wholeLine? rest with
      | some (line, rest) =>
        let condition := withoutComment line
        match conditionTokens condition.length condition with
        | some ts =>
          if goodCondition true 0 ts then some (t, '#' :: head ++ line, rest) else none
        | none => none
      | none => none
    match String.ofList name with
    | "if" => withCondition .directiveIf
    | "elif" => withCondition .directiveElif
    | "else" => some (.directiveElse, '#' :: head, rest)
    | "endif" => some (.directiveEndif, '#' :: head, rest)
    | _ => none
  | _ => none

/-! ### Tokens -/

/-- Punctuation at the front. -/
def markCut? (cs : List Char) : Option (Mark × Cut) :=
  Mark.table.findSome? fun (text, m) => (strip? text cs).map fun rest => (m, text, rest)

/-- Where reading stands: the interpolated strings that are open, innermost first, and the
characters ahead. -/
structure State where
  texts : List Quoting
  ahead : List Char

/-- A token of an interpolated string outside its holes. -/
def textToken? (q : Quoting) (outer : List Quoting) (cs : List Char) : Option (Token × State) :=
  let (part, rest) := textPart q cs
  if !part.isEmpty then some (⟨[], .other part, .textPart⟩, ⟨q :: outer, rest⟩)
  else match strip? q.close cs with
    | some rest => some (⟨[], .other q.close, .textEnd⟩, ⟨outer, rest⟩)
    | none => (strip? q.hole cs).map fun rest =>
      (⟨[], .other q.hole, .holeStart⟩, ⟨q :: outer, rest⟩)

/-- The token at the front, behind a gap. -/
def plainToken? (wants : Terminal → Bool) (texts : List Quoting) (before : List Separator)
    (cs : List Char) : Option (Token × State) :=
  let other (role : Terminal) (cut : Cut) : Token × State :=
    (⟨before, .other cut.1, role⟩, ⟨texts, cut.2⟩)
  let closing : Option (List Char × List Char) :=
    match texts with
    | q :: _ => if wants .holeEnd then (strip? q.unhole cs).map (q.unhole, ·) else none
    | [] => none
  match closing with
  | some cut => some (other .holeEnd cut)
  | none =>
  match textStart? cs with
  | some (q, text, rest) => some (⟨before, .other text, .textStart⟩, ⟨q :: texts, rest⟩)
  | none =>
  match stringCut? cs with
  | some cut => some (other .stringLiteral cut)
  | none =>
  match wordCut? cs with
  | some (chars, rest) =>
    (Word.ofChars? chars).map fun w =>
      let role : Terminal := match Keyword.ofChars? chars with
        | some k => if wants (.keyword k) then .keyword k else .identifier
        | none => .identifier
      (⟨before, .word w, role⟩, ⟨texts, rest⟩)
  | none =>
  match numberCut? cs with
  | some cut => some (other .number cut)
  | none =>
  match charCut? cs with
  | some cut => some (other .charLiteral cut)
  | none =>
  match conditional? cs with
  | some (role, cut) => some (other role cut)
  | none => (markCut? cs).map fun (m, cut) => other (.mark m) cut

/-- What stands ahead. -/
inductive Next where
  /-- Nothing but a gap. -/
  | finished
  | token (t : Token) (rest : State)
  /-- Characters that no token begins with. -/
  | stuck

/-- The next token. -/
def next (wants : Terminal → Bool) (s : State) : Next :=
  let ofToken : Option (Token × State) → Next
    | some (t, rest) => .token t rest
    | none => .stuck
  let isFormat : Bool := match s.ahead with
    | c :: _ => wants .format && c != '\x7d' && c != '"'
    | [] => false
  if isFormat then
    let inFormat (c : Char) : Bool := c != '\x7d' && c != '"'
    .token ⟨[], .other (s.ahead.takeWhile inFormat), .format⟩
      ⟨s.texts, s.ahead.dropWhile inFormat⟩
  else
    match s.texts, wants .textEnd with
    | q :: outer, true => ofToken (textToken? q outer s.ahead)
    | _, _ =>
      let (before, rest) := gap s.ahead.length s.ahead
      if rest.isEmpty then .finished else ofToken (plainToken? wants s.texts before rest)

end Lexer

end TestScaffold.CSharp
