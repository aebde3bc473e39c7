/-
  TestScaffold/Number/Binary64.lean
  =================================
  Binary numbers of 53 significant bits, as exact data.

  A finite number is `mantissa * 2 ^ exponent`, so that reading a decimal and
  printing the shortest decimal that reads back are computations on natural
  numbers, and can be reasoned about as such.

  Reading rounds to the nearest number, a tie to the even mantissa.  Printing
  takes, for growing digit counts, the two neighbours of the value on the
  decimal grid of that many digits: the first grid with a neighbour inside the
  interval of reals that round to the number wins.
-/

namespace TestScaffold

/-- A number of the double-precision binary format. Finite numbers hold `2 ^ 52 ≤ mantissa` or
the least exponent. -/
inductive Binary64 where
  | finite (negative : Bool) (mantissa : Nat) (exponent : Int)
  | infinite (negative : Bool)
  | nan
deriving DecidableEq, Repr

/-- A decimal `digits * 10 ^ exponent`. -/
structure Decimal where
  digits : Nat
  exponent : Int
deriving DecidableEq, Repr

/-- The quotient rounded to the nearest natural number, a tie to the even one. -/
def roundDiv (num den : Nat) : Nat :=
  let q := num / den
  let r := num % den
  if 2 * r < den then q else if den < 2 * r then q + 1 else if q % 2 = 0 then q else q + 1

/-- The number of decimal digits of a positive number. -/
def decimalLength (n : Nat) : Nat := (Nat.toDigits 10 n).length

namespace Binary64

/-- The exponent of the numbers nearest zero. -/
def leastExponent : Int := -1074

/-- The largest exponent. -/
def greatestExponent : Int := 971

/-- The ratio `num / (den * 2 ^ e)` as numerator and denominator. -/
def scaled (num den : Nat) (e : Int) : Nat × Nat :=
  if e < 0 then (num * Nat.pow 2 e.natAbs, den) else (num, den * Nat.pow 2 e.natAbs)

/-- The number nearest to `num / den`. -/
def ofRatio (negative : Bool) (num den : Nat) : Binary64 :=
  if num = 0 then .finite negative 0 leastExponent
  else
    let guess : Int := max ((num.log2 : Int) - den.log2 - 53) leastExponent
    let fit := scaled num den guess
    let e := if Nat.pow 2 53 ≤ fit.1 / fit.2 then guess + 1 else guess
    let parts := scaled num den e
    let m := roundDiv parts.1 parts.2
    let (m, e) := if m = Nat.pow 2 53 then (Nat.pow 2 52, e + 1) else (m, e)
    if greatestExponent < e then .infinite negative else .finite negative m e

/-- The number nearest to a decimal. Magnitudes far outside the range are decided by their digit
count alone. -/
def ofDecimal (negative : Bool) (d : Decimal) : Binary64 :=
  if d.digits = 0 then .finite negative 0 leastExponent
  else
    let magnitude := d.exponent + decimalLength d.digits
    if 400 < magnitude then .infinite negative
    else if magnitude < -400 then .finite negative 0 leastExponent
    else if d.exponent < 0 then ofRatio negative d.digits (Nat.pow 10 d.exponent.natAbs)
    else ofRatio negative (d.digits * Nat.pow 10 d.exponent.natAbs) 1

/-- The number with the other sign. -/
def negated : Binary64 → Binary64
  | finite negative m e => finite (!negative) m e
  | infinite negative => infinite (!negative)
  | nan => nan

/-- The integer with the value of the number, if there is one. -/
def toInt? : Binary64 → Option Int
  | finite negative m e =>
    let magnitude : Option Nat :=
      if 0 ≤ e then some (m * Nat.pow 2 e.natAbs)
      else if m % Nat.pow 2 e.natAbs = 0 then some (m / Nat.pow 2 e.natAbs) else none
    magnitude.map fun n => if negative then -(n : Int) else n
  | _ => none

/-- The greatest `p` with `10 ^ p ≤ num / den`, for positive `num` and `den`. -/
def decimalFloor (num den : Nat) : Int :=
  if den ≤ num then decimalLength (num / den) - 1
  else
    let inverse := den / num
    let n := decimalLength inverse
    if den % num = 0 ∧ inverse = Nat.pow 10 (n - 1) then -((n : Int) - 1) else -(n : Int)

/-- The decimal of `count` digits nearest to `4 v / 4` among the neighbours of `v` that lie
between `low` and `high`; the three are numerators over `den`. -/
def onGrid (low value high den : Nat) (closed : Bool) (top : Int) (count : Nat) :
    Option Decimal :=
  let place : Int := top - count + 1
  let up := Nat.pow 10 (max (-place) 0).natAbs
  let down := Nat.pow 10 (max place 0).natAbs
  let below := value * up / (den * down)
  let inside (n : Nat) : Bool :=
    let at' := n * den * down
    if closed then low * up ≤ at' && at' ≤ high * up else low * up < at' && at' < high * up
  let twice := 2 * value * up
  let middle := (2 * below + 1) * den * down
  let lowFirst := twice < middle || (twice = middle && below % 2 = 0)
  let near := if lowFirst then below else below + 1
  let far := if lowFirst then below + 1 else below
  if inside near then some ⟨near, place⟩ else if inside far then some ⟨far, place⟩ else none

/-- The first of the grids of `count`, `count + 1`, … digits that has a decimal inside. -/
def firstGrid (decimalAt? : Nat → Option Decimal) : Nat → Nat → Decimal
  | 0, _ => ⟨0, 0⟩
  | fuel + 1, count =>
    match decimalAt? count with
    | some d => d
    | none => firstGrid decimalAt? fuel (count + 1)

/-- The shortest decimal that reads back as `mantissa * 2 ^ exponent`. Seventeen digits always
suffice. -/
def shortest (m : Nat) (e : Int) : Decimal :=
  if m = 0 then ⟨0, 0⟩
  else
    let unit := scaled 1 4 (-e)
    let narrow : Nat := if m = Nat.pow 2 52 ∧ leastExponent < e then 1 else 2
    let value := 4 * m * unit.1
    firstGrid
      (onGrid ((4 * m - narrow) * unit.1) value ((4 * m + 2) * unit.1) unit.2 (m % 2 == 0)
        (decimalFloor value unit.2))
      17 1

/-- Decimal digits without the zeros at their end, and how many zeros there were. -/
def dropZeros (digits : List Char) : List Char × Nat :=
  let back := digits.reverse
  ((back.dropWhile (· == '0')).reverse, (back.takeWhile (· == '0')).length)

/-- A decimal in positional form from `10 ^ -4` up to below `10 ^ 16`, else with an exponent of
at least two digits. An integral value keeps one zero after the point. -/
def decimalText (d : Decimal) : String :=
  let (digits, zeros) := dropZeros (Nat.toDigits 10 d.digits)
  if digits.isEmpty then "0.0"
  else
    let point : Int := digits.length + zeros + d.exponent
    if -4 < point ∧ point ≤ 16 then
      if point ≤ 0 then
        "0." ++ String.ofList (List.replicate point.natAbs '0' ++ digits)
      else
        let whole := digits.take point.natAbs
        let whole := whole ++ List.replicate (point.natAbs - digits.length) '0'
        let fraction := digits.drop point.natAbs
        String.ofList whole ++ "." ++
          (if fraction.isEmpty then "0" else String.ofList fraction)
    else
      let power := point - 1
      let tail := digits.drop 1
      String.ofList (digits.take 1) ++
        (if tail.isEmpty then "" else "." ++ String.ofList tail) ++ "e" ++
        (if power < 0 then "-" else "+") ++
        (if power.natAbs < 10 then "0" else "") ++ String.ofList (Nat.toDigits 10 power.natAbs)

/-- The shortest text that reads back. -/
def text : Binary64 → String
  | finite negative m e => (if negative then "-" else "") ++ decimalText (shortest m e)
  | infinite negative => if negative then "-inf" else "inf"
  | nan => "nan"

end Binary64

end TestScaffold
