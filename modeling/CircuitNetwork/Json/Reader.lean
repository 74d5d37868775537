import CircuitNetwork.Json.Basic

namespace CircuitNetwork.Json

/-!
# Reading JSON

A recursive descent over the characters of a text. Every nested value takes at
least one character, so the length of the text bounds the depth of the descent.
-/

/-- The rest of a text after its leading blanks. -/
def skipBlanks (text : List Char) : List Char :=
  text.dropWhile fun c => c = ' ' || c = '\t' || c = '\n' || c = '\r'

/-- The value of a hexadecimal digit. -/
def hexValue? (c : Char) : Option Nat :=
  if '0' ≤ c && c ≤ '9' then some (c.toNat - 0x30)
  else if 'a' ≤ c && c ≤ 'f' then some (c.toNat - 0x61 + 10)
  else if 'A' ≤ c && c ≤ 'F' then some (c.toNat - 0x41 + 10)
  else none

/-- The number that four hexadecimal digits write. -/
def hexUnit? (a b c d : Char) : Option Nat := do
  let a ← hexValue? a
  let b ← hexValue? b
  let c ← hexValue? c
  let d ← hexValue? d
  return ((a * 16 + b) * 16 + c) * 16 + d

/-- The code point that a letter after a backslash stands for. -/
def escapedCode? (c : Char) : Option Nat :=
  match c with
  | 'b' => some 0x08
  | 't' => some 0x09
  | 'n' => some 0x0a
  | 'f' => some 0x0c
  | 'r' => some 0x0d
  | '/' => some 0x2f
  | '\\' => some 0x5c
  | '\x22' => some 0x22
  | _ => none

/-- The codes of a string up to its closing quote, and the text after the quote. -/
def readCodes : List Char → List Nat → Option (List Nat × List Char)
  | [], _ => none
  | '\x22' :: rest, codes => some (codes.reverse, rest)
  | '\\' :: 'u' :: a :: b :: c :: d :: rest, codes =>
      match hexUnit? a b c d with
      | some code => readCodes rest (code :: codes)
      | none => none
  | '\\' :: c :: rest, codes =>
      match escapedCode? c with
      | some code => readCodes rest (code :: codes)
      | none => none
  | c :: rest, codes => readCodes rest (c.toNat :: codes)

/-- A leading half of a surrogate pair. -/
def isLeading (code : Nat) : Bool := 0xd800 ≤ code && code < 0xdc00

/-- A trailing half of a surrogate pair. -/
def isTrailing (code : Nat) : Bool := 0xdc00 ≤ code && code < 0xe000

/-- Join the halves of surrogate pairs. A half that stands alone becomes the replacement character. -/
def joinCodes : List Nat → List Char
  | [] => []
  | [code] => [if isLeading code || isTrailing code then '�' else Char.ofNat code]
  | first :: second :: rest =>
      if isLeading first && isTrailing second then
        Char.ofNat (0x10000 + (first - 0xd800) * 0x400 + (second - 0xdc00)) :: joinCodes rest
      else if isLeading first || isTrailing first then
        '�' :: joinCodes (second :: rest)
      else
        Char.ofNat first :: joinCodes (second :: rest)

/-- A string after its opening quote. -/
def readText (text : List Char) : Option (String × List Char) :=
  (readCodes text []).map fun (codes, rest) => (String.ofList (joinCodes codes), rest)

/-- The value of a list of decimal digits. -/
def decimalValue (digits : List Char) : Nat :=
  digits.foldl (fun value c => value * 10 + (c.toNat - 0x30)) 0

/-- The fraction at the start of a text. -/
def readFraction : List Char → Option (List Char × List Char)
  | '.' :: rest =>
      let digits := rest.takeWhile Char.isDigit
      if digits.isEmpty then none
      else some ('.' :: digits, rest.dropWhile Char.isDigit)
  | rest => some ([], rest)

/-- The exponent at the start of a text. -/
def readExponent : List Char → Option (List Char × List Char)
  | mark :: rest =>
      if mark = 'e' || mark = 'E' then
        let sign := (rest.take 1).filter fun c => c = '+' || c = '-'
        let after := rest.drop sign.length
        let digits := after.takeWhile Char.isDigit
        if digits.isEmpty then none
        else some (mark :: sign ++ digits, after.dropWhile Char.isDigit)
      else
        some ([], mark :: rest)
  | [] => some ([], [])

/-- A number. One without fraction and exponent is an integer. -/
def readNumber (text : List Char) : Option (Json × List Char) := do
  let sign := (text.take 1).filter (· = '-')
  let unsigned := text.drop sign.length
  let whole := unsigned.takeWhile Char.isDigit
  if whole.isEmpty then none
  let (fraction, rest) ← readFraction (unsigned.dropWhile Char.isDigit)
  let (exponent, rest) ← readExponent rest
  if fraction.isEmpty && exponent.isEmpty then
    let size : Int := decimalValue whole
    return (int (if sign.isEmpty then size else -size), rest)
  else
    return (decimal (String.ofList (sign ++ whole ++ fraction ++ exponent)), rest)

mutual

/-- A value at the start of a text, and the text after it. -/
def readValue : Nat → List Char → Option (Json × List Char)
  | 0, _ => none
  | depth + 1, text =>
      match skipBlanks text with
      | 'n' :: 'u' :: 'l' :: 'l' :: rest => some (null, rest)
      | 't' :: 'r' :: 'u' :: 'e' :: rest => some (bool true, rest)
      | 'f' :: 'a' :: 'l' :: 's' :: 'e' :: rest => some (bool false, rest)
      | '\x22' :: rest => (readText rest).map fun (text, rest) => (str text, rest)
      | '[' :: rest =>
          match skipBlanks rest with
          | ']' :: rest => some (arr [], rest)
          | rest => readItems depth rest []
      | '\x7b' :: rest =>
          match skipBlanks rest with
          | '\x7d' :: rest => some (obj [], rest)
          | rest => readMembers depth rest []
      | rest => readNumber rest

/-- The items of an array after its opening bracket. -/
def readItems : Nat → List Char → List Json → Option (Json × List Char)
  | 0, _, _ => none
  | depth + 1, text, items =>
      match readValue depth text with
      | none => none
      | some (item, rest) =>
          match skipBlanks rest with
          | ',' :: rest => readItems depth rest (item :: items)
          | ']' :: rest => some (arr (item :: items).reverse, rest)
          | _ => none

/-- The members of an object after its opening brace. -/
def readMembers : Nat → List Char → List (String × Json) → Option (Json × List Char)
  | 0, _, _ => none
  | depth + 1, text, members =>
      match skipBlanks text with
      | '\x22' :: rest =>
          match readText rest with
          | none => none
          | some (name, rest) =>
              match skipBlanks rest with
              | ':' :: rest =>
                  match readValue depth rest with
                  | none => none
                  | some (value, rest) =>
                      match skipBlanks rest with
                      | ',' :: rest => readMembers depth rest ((name, value) :: members)
                      | '\x7d' :: rest => some (obj ((name, value) :: members).reverse, rest)
                      | _ => none
              | _ => none
      | _ => none

end

/-- The value that a whole text writes. -/
def parse? (text : String) : Option Json :=
  let characters := text.toList
  match readValue (characters.length + 1) characters with
  | some (value, rest) => if (skipBlanks rest).isEmpty then some value else none
  | none => none

end CircuitNetwork.Json
