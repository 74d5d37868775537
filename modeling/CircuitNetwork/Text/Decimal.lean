import CircuitNetwork.Text.Numeral

namespace CircuitNetwork.Text

/-!
# Decimal numbers

A decimal number has digits, a fraction and an exponent. It stands for the
nearest number with 53 significant bits, of two nearest ones for the even one,
and only the whole part of that number is asked for here.
-/

/-- A decimal number: a sign, digits, and the power of ten that they are multiplied by. -/
structure Decimal where
  negative : Bool
  digits : Nat
  exponent : Int
  deriving Repr, DecidableEq, Inhabited

/-- The number that decimal digits write. -/
def decimalDigits (digits : List Char) : Nat :=
  digits.foldl (fun value c => value * 10 + (c.toNat - 0x30)) 0

/-- The exponent behind the digits of a decimal number: none, or a mark, a sign and digits. -/
def exponent? : List Char → Option Int
  | [] => some 0
  | mark :: rest =>
      let (negative, digits) := splitSign rest
      if (mark = 'e' || mark = 'E') && !digits.isEmpty && digits.all Char.isDigit then
        let size : Int := decimalDigits digits
        some (if negative then -size else size)
      else
        none

/-- The decimal number that a text writes. There is a digit before the point or behind it. -/
def parseDecimal? (text : List Char) : Option Decimal := do
  let (negative, unsigned) := splitSign text
  let whole := unsigned.takeWhile Char.isDigit
  let rest := unsigned.dropWhile Char.isDigit
  let (fraction, rest) := match rest with
    | '.' :: rest => (rest.takeWhile Char.isDigit, rest.dropWhile Char.isDigit)
    | rest => ([], rest)
  if whole.isEmpty && fraction.isEmpty then none
  let exponent ← exponent? rest
  return {
    negative := negative
    digits := decimalDigits (whole ++ fraction)
    exponent := exponent - fraction.length }

/-- The nearest integer to a fraction, of two nearest ones the even one. -/
def roundDiv (numerator denominator : Nat) : Nat :=
  let quotient := numerator / denominator
  let doubled := 2 * (numerator % denominator)
  if denominator < doubled || (doubled = denominator && quotient % 2 = 1) then
    quotient + 1
  else
    quotient

/-- The whole part of the number with 53 significant bits that is nearest to a fraction. -/
def roundedWhole (numerator denominator : Nat) : Nat :=
  let quotient := numerator / denominator
  if quotient < 0x20000000000000 then
    let scale := 1 <<< (if quotient = 0 then 53 else 52 - quotient.log2)
    roundDiv (numerator * scale) denominator / scale
  else
    let scale := 1 <<< (quotient.log2 - 52)
    roundDiv numerator (denominator * scale) * scale

/-- The whole part of a decimal number without its sign, if the number is below two to the power
1024. The number of digits settles the extremes, so no great power of ten is computed for them. -/
def Decimal.whole? (decimal : Decimal) : Option Nat :=
  let order : Int := (Nat.toDigits 10 decimal.digits).length + decimal.exponent
  if decimal.digits = 0 || order < 0 then
    some 0
  else if 310 < order then
    none
  else
    let whole := roundedWhole
      (decimal.digits * Nat.pow 10 decimal.exponent.toNat) (Nat.pow 10 (-decimal.exponent).toNat)
    if whole < 1 <<< 1024 then some whole else none

end CircuitNetwork.Text
