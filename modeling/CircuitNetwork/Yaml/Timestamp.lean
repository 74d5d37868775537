import CircuitNetwork.Text.Decimal

namespace CircuitNetwork.Yaml

/-!
# Timestamps

A timestamp is a day, or a day with a time. With a letter between the two, a time
zone follows; with spaces, none does.
-/

/-- The number of days of a month. -/
def daysOfMonth (year month : Nat) : Nat :=
  if month = 2 then
    if year % 4 = 0 && (year % 100 ≠ 0 || year % 400 = 0) then 29 else 28
  else if [4, 6, 9, 11].contains month then
    30
  else
    31

/-- A number of one or two digits in a range at the start of a text, and the rest. -/
def takeShort? (least greatest : Nat) (text : List Char) : Option (Nat × List Char) :=
  let digits := (text.take 2).takeWhile Char.isDigit
  let value := Text.decimalDigits digits
  if digits.isEmpty || value < least || greatest < value then none
  else some (value, text.drop digits.length)

/-- The text behind a sign. -/
def takeSign? (sign : Char) : List Char → Option (List Char)
  | [] => none
  | c :: rest => if c = sign then some rest else none

/-- The text behind a day: a year of four digits, a month and a day of that month. -/
def takeDay? (text : List Char) : Option (List Char) := do
  let year := text.takeWhile Char.isDigit
  if year.length ≠ 4 then none
  let rest ← takeSign? '-' (text.drop 4)
  let (month, rest) ← takeShort? 1 12 rest
  let rest ← takeSign? '-' rest
  let (_, rest) ← takeShort? 1 (daysOfMonth (Text.decimalDigits year) month) rest
  return rest

/-- The text behind the fraction of a second, if there is one. -/
def dropFraction (text : List Char) : List Char :=
  match text with
  | mark :: rest =>
      if (mark = '.' || mark = ',') && rest.head?.any Char.isDigit then rest.dropWhile Char.isDigit
      else text
  | [] => []

/-- The text behind a time of the day. -/
def takeTime? (text : List Char) : Option (List Char) := do
  let (_, rest) ← takeShort? 0 23 text
  let rest ← takeSign? ':' rest
  let (_, rest) ← takeShort? 0 59 rest
  let rest ← takeSign? ':' rest
  let (_, rest) ← takeShort? 0 59 rest
  return dropFraction rest

/-- Whether a text is a time zone: the letter for none, or a sign with hours and minutes. -/
def isZone : List Char → Bool
  | ['Z'] => true
  | [sign, h₁, h₀, ':', m₁, m₀] =>
      (sign = '+' || sign = '-') && [h₁, h₀, m₁, m₀].all Char.isDigit &&
        Text.decimalDigits [h₁, h₀] ≤ 24 && Text.decimalDigits [m₁, m₀] ≤ 60
  | _ => false

/-- Whether a text is a timestamp. -/
def isTimestamp (text : List Char) : Bool :=
  match takeDay? text with
  | none => false
  | some [] => true
  | some (divider :: rest) =>
      if divider = 'T' || divider = 't' then (takeTime? rest).any isZone
      else divider = ' ' && (takeTime? (rest.dropWhile (· = ' '))).any List.isEmpty

end CircuitNetwork.Yaml
