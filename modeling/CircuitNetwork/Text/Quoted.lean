import CircuitNetwork.Text.Graphic

namespace CircuitNetwork.Text

/-!
# Quoted text

Text inside messages is written between double quotes. Graphic characters stand
for themselves, the usual control characters have a letter after a backslash,
and everything else is written as the hexadecimal digits of its code point: two
for ASCII, four or eight beyond it.
-/

/-- The lower case hexadecimal digits of a number, padded with zeros to a width. -/
def hexDigits (width n : Nat) : String :=
  let digits := Nat.toDigits 16 n
  String.ofList (List.replicate (width - digits.length) '0' ++ digits)

/-- The letter that follows the backslash for a character with a short escape. -/
def shortEscape? (c : Char) : Option Char :=
  match c.toNat with
  | 0x07 => some 'a'
  | 0x08 => some 'b'
  | 0x09 => some 't'
  | 0x0a => some 'n'
  | 0x0b => some 'v'
  | 0x0c => some 'f'
  | 0x0d => some 'r'
  | 0x22 => some '\x22'
  | 0x5c => some '\\'
  | _ => none

/-- One character as it stands inside quoted text. -/
def quoteChar (c : Char) : String :=
  match shortEscape? c with
  | some letter => "\\" ++ String.singleton letter
  | none =>
      if isGraphic c then
        String.singleton c
      else if c.toNat < 0x80 then
        "\\x" ++ hexDigits 2 c.toNat
      else if c.toNat < 0x10000 then
        "\\u" ++ hexDigits 4 c.toNat
      else
        "\\U" ++ hexDigits 8 c.toNat

/-- A text between double quotes. -/
def quote (text : String) : String :=
  "\"" ++ String.join (text.toList.map quoteChar) ++ "\""

end CircuitNetwork.Text
