import VoltageCapture.Text.Numeral

/-!
# Decimal numbers with a fraction and an exponent

A floating point value is written as an optional sign followed by `inf`,
`infinity` or `nan` in any case, or by digits with an optional point among, ahead
of or behind them and an optional exponent.  At least one digit stands beside the
point, and at least one in the exponent.  The value is the double nearest to the
number written, ties going to the even one.

An exponent counts up to the digit with which it passes 65535, and what follows that
digit is left out: `1e700000` has the exponent 70000.
-/

namespace VoltageCapture.Text

/-- A decimal number without its sign: `significand` times ten to the `exponent`. -/
structure Decimal where
  significand : Nat
  exponent : Int
deriving DecidableEq, Repr

/-- The sign at the start of a text, true for a minus sign, and the text after it. -/
def splitSign : List Char → Bool × List Char
  | '-' :: rest => (true, rest)
  | '+' :: rest => (false, rest)
  | text => (false, text)

/-- The value of the digits of an exponent, up to the one that takes it past 65535. -/
def exponentValue (digits : List Char) : Nat :=
  digits.foldl (fun value digit =>
    if value < 0x10000 then 10 * value + digitValue digit else value) 0

/-- Reads the exponent that closes a number: nothing, or a letter `e`, an optional
sign and digits. -/
def exponent? : List Char → Option Int
  | [] => some 0
  | mark :: rest =>
    let (negative, digits) := splitSign rest
    if (mark = 'e' ∨ mark = 'E') ∧ digits ≠ [] ∧ digits.all isDecimalDigit then
      some (if negative then -exponentValue digits else exponentValue digits)
    else
      none

/-- The digits behind a point at the start of a text, and what follows them. -/
def splitFraction : List Char → List Char × List Char
  | '.' :: rest => (rest.takeWhile isDecimalDigit, rest.dropWhile isDecimalDigit)
  | text => ([], text)

/-- The number of significant digits that settle which double is nearest.  The points
halfway between two doubles have fewer, at most 768. -/
def decisiveDigits : Nat := 800

/-- The number with the given digits, times ten to `exponent`.  Behind the decisive digits
it only matters whether a digit other than zero follows, so a single one stands for them
all. -/
def Decimal.ofDigits (digits : List Char) (exponent : Int) : Decimal :=
  let significant := digits.dropWhile (· == '0')
  let leading := digitsValue (significant.take decisiveDigits)
  let rest := significant.drop decisiveDigits
  if rest.all (· == '0') then
    ⟨leading, exponent + rest.length⟩
  else
    ⟨10 * leading + 1, exponent + rest.length - 1⟩

/-- Reads a decimal number that has no sign, as far as it settles the nearest double. -/
def decimal? (text : List Char) : Option Decimal :=
  let whole := text.takeWhile isDecimalDigit
  let (fraction, rest) := splitFraction (text.dropWhile isDecimalDigit)
  if whole = [] ∧ fraction = [] then
    none
  else
    (exponent? rest).map fun exponent =>
      .ofDigits (whole ++ fraction) (exponent - fraction.length)

/-- The number of decimal digits of `n`, zero for zero. -/
def decimalDigits (n : Nat) : Nat :=
  if n = 0 then 0 else 1 + decimalDigits (n / 10)

/-- The double nearest to a decimal number.  Numbers far beyond the range of a
double, which lies between the powers of ten -324 and 309, are settled by their
magnitude alone. -/
def Decimal.toFloat (number : Decimal) : Float :=
  let magnitude := decimalDigits number.significand + number.exponent
  if number.significand = 0 ∨ magnitude < -400 then
    0.0
  else if 400 < magnitude then
    1.0 / 0.0
  else
    Float.ofScientific number.significand (number.exponent < 0) number.exponent.natAbs

/-- The value of an unsigned number, infinity or not-a-number. -/
def magnitude? (text : List Char) : Option Float :=
  let lower := text.map Char.toLower
  if lower = "inf".toList ∨ lower = "infinity".toList then
    some (1.0 / 0.0)
  else if lower = "nan".toList then
    some (0.0 / 0.0)
  else
    (decimal? text).map Decimal.toFloat

/-- Reads a floating point value. -/
def float? (text : String) : Option Float :=
  let (negative, rest) := splitSign text.toList
  (magnitude? rest).map fun value => if negative then -value else value

end VoltageCapture.Text
