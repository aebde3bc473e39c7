/-
  TestScaffold/Number/Numeral.lean
  ================================
  How numbers are written: integers and decimals with an optional sign, single
  underscores between digits, decimal digits of any script, and blanks around.

  `integer?` and `decimal?` read a whole text or nothing.
-/
import TestScaffold.Number.Binary64
import TestScaffold.Text.CharClass

namespace TestScaffold.Numeral

open TestScaffold.Text

/-- The longest integer text that is read, counted in digits. -/
def maxDigits : Nat := 4300

/-- The blanks allowed around a number, after `plain`. -/
def isSpace (c : Char) : Bool := c == ' ' || (9 ≤ c.toNat && c.toNat ≤ 13)

/-- Digits of any script become ASCII digits, and blanks beyond ASCII become spaces. -/
def plain (c : Char) : Char :=
  if c.toNat < 128 then c
  else if isBlank c then ' '
  else match digitValue? c with
    | some v => Char.ofNat (48 + v)
    | none => c

/-- The characters of a number, without the blanks around them. -/
def bare (s : String) : List Char :=
  ((((s.toList.map plain).dropWhile isSpace).reverse).dropWhile isSpace).reverse

/-- A leading sign: whether it is a minus, and what follows. -/
def sign : List Char → Bool × List Char
  | '-' :: rest => (true, rest)
  | '+' :: rest => (false, rest)
  | cs => (false, cs)

/-- Whether every underscore stands between two digits; `previous` says if a digit came last. -/
def goodUnderscores (previous : Bool) : List Char → Bool
  | [] => true
  | '_' :: rest =>
    previous && (match rest with | c :: _ => isAsciiDigit c | [] => false) &&
      goodUnderscores false rest
  | c :: rest => goodUnderscores (isAsciiDigit c) rest

/-- The value of decimal digits. -/
def valueOf (digits : List Char) : Nat :=
  digits.foldl (fun n c => 10 * n + (c.toNat - 48)) 0

/-- The integer that a text writes. -/
def integer? (s : String) : Option Int :=
  let (negative, rest) := sign (bare s)
  let digits := rest.filter (· != '_')
  if !digits.isEmpty && digits.all isAsciiDigit && goodUnderscores false rest &&
      digits.length ≤ maxDigits then
    some (if negative then -(valueOf digits : Int) else valueOf digits)
  else none

/-- An exponent part: empty, or `e` with a signed number behind it. -/
def exponent? : List Char → Option Int
  | [] => some 0
  | c :: rest =>
    if c == 'e' || c == 'E' then
      let (negative, digits) := sign rest
      if !digits.isEmpty && digits.all isAsciiDigit then
        some (if negative then -(valueOf digits : Int) else valueOf digits)
      else none
    else none

/-- The number that a text with an optional point and exponent writes. -/
def decimal? (s : String) : Option Binary64 :=
  let cs := bare s
  if !goodUnderscores false cs then none
  else
    let (negative, rest) := sign (cs.filter (· != '_'))
    let whole := rest.takeWhile isAsciiDigit
    let rest := rest.dropWhile isAsciiDigit
    let (fraction, rest) : List Char × List Char :=
      match rest with
      | '.' :: rest => (rest.takeWhile isAsciiDigit, rest.dropWhile isAsciiDigit)
      | rest => ([], rest)
    if whole.isEmpty && fraction.isEmpty then none
    else (exponent? rest).map fun e =>
      .ofDecimal negative ⟨valueOf (whole ++ fraction), e - fraction.length⟩

end TestScaffold.Numeral
