namespace CircuitNetwork.Text

/-!
# Integer numerals

An integer is written with an optional sign, an optional mark of its base and
digits. The mark is `0b`, `0o` or `0x` with a digit behind it; a leading zero
alone means octal, and no mark means decimal. Underscores may divide digits, one
between two digits, where the mark counts as a digit.
-/

/-- Why a text is not an integer of 64 bits. -/
inductive NumeralError where
  | malformed
  | outOfRange
  deriving Repr, DecidableEq, Inhabited

/-- The value of a digit in the bases up to 36. -/
def digitValue? (c : Char) : Option Nat :=
  if '0' ≤ c && c ≤ '9' then some (c.toNat - 0x30)
  else if 'a' ≤ c && c ≤ 'z' then some (c.toNat - 0x61 + 10)
  else if 'A' ≤ c && c ≤ 'Z' then some (c.toNat - 0x41 + 10)
  else none

/-- Add digits to the value of the digits before them. The first digit that is wrong, or that takes
the value beyond 64 bits, ends the reading. Underscores are passed over. -/
def readDigits (base : Nat) : Nat → List Char → Except NumeralError Nat
  | value, [] => .ok value
  | value, c :: rest =>
      if c = '_' then
        readDigits base value rest
      else
        match digitValue? c with
        | none => .error .malformed
        | some digit =>
            if base ≤ digit then .error .malformed
            else if 0x10000000000000000 ≤ value * base + digit then .error .outOfRange
            else readDigits base (value * base + digit) rest

/-- The base that a letter after a leading zero stands for. -/
def baseOfMark? (c : Char) : Option Nat :=
  if c = 'b' || c = 'B' then some 2
  else if c = 'o' || c = 'O' then some 8
  else if c = 'x' || c = 'X' then some 16
  else none

/-- The base of an unsigned numeral and what stands behind its mark. -/
def splitBase : List Char → Nat × List Char
  | '0' :: mark :: digit :: rest =>
      match baseOfMark? mark with
      | some base => (base, digit :: rest)
      | none => (8, mark :: digit :: rest)
  | '0' :: rest => (8, rest)
  | digits => (10, digits)

/-- Whether every underscore stands between two digits, given whether a digit stands before. -/
def wellSeparated : Bool → List Char → Bool
  | afterDigit, [] => afterDigit
  | afterDigit, c :: rest =>
      if c = '_' then afterDigit && wellSeparated false rest else wellSeparated true rest

/-- The value of an unsigned numeral. -/
def parseMagnitude (numeral : List Char) : Except NumeralError Nat := do
  if numeral.isEmpty then
    .error .malformed
  let (base, digits) := splitBase numeral
  let value ← readDigits base 0 digits
  if wellSeparated (base ≠ 10) digits then
    .ok value
  else
    .error .malformed

/-- Whether a numeral has a minus sign, and the numeral without its sign. -/
def splitSign : List Char → Bool × List Char
  | '-' :: rest => (true, rest)
  | '+' :: rest => (false, rest)
  | numeral => (false, numeral)

/-- The value of a numeral of 64 bits. -/
def parseInteger (text : String) : Except NumeralError Int64 := do
  let (negative, numeral) := splitSign text.toList
  let magnitude ← parseMagnitude numeral
  let value : Int := if negative then -magnitude else magnitude
  if -0x8000000000000000 ≤ value ∧ value < 0x8000000000000000 then
    .ok (Int64.ofInt value)
  else
    .error .outOfRange

end CircuitNetwork.Text
