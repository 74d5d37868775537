import CircuitNetwork.Json.Basic
import CircuitNetwork.Text.Quoted

namespace CircuitNetwork.Json

/-!
# Writing JSON

Two layouts: everything on one line, or one item a line, two spaces deeper than
the value that holds it. Angle brackets, ampersands and the two separators of
Unicode are always escaped, so a text can stand inside other markup.
-/

/-- One character inside a string. -/
def escapeChar (c : Char) : String :=
  match c.toNat with
  | 0x09 => "\\t"
  | 0x0a => "\\n"
  | 0x0d => "\\r"
  | 0x22 => "\\\""
  | 0x5c => "\\\\"
  | code =>
      if code < 0x20 || [0x26, 0x3c, 0x3e, 0x2028, 0x2029].contains code then
        "\\u" ++ Text.hexDigits 4 code
      else
        String.singleton c

/-- A string with its quotes. -/
def writeText (text : String) : String :=
  "\"" ++ String.join (text.toList.map escapeChar) ++ "\""

/-- A scalar on one line; nothing for arrays and objects, which the layouts write themselves. -/
def writeScalar : Json → String
  | null => "null"
  | bool true => "true"
  | bool false => "false"
  | int value => toString value
  | decimal text => text
  | str text => writeText text
  | arr _ | obj _ => ""

mutual

/-- A value on one line, without blanks. -/
def compact : Json → String
  | arr items => "[" ++ ",".intercalate (compactItems items) ++ "]"
  | obj members => "\x7b" ++ ",".intercalate (compactMembers members) ++ "\x7d"
  | scalar => writeScalar scalar

/-- The items of an array, each on one line. -/
def compactItems : List Json → List String
  | [] => []
  | item :: rest => compact item :: compactItems rest

/-- The members of an object, each on one line. -/
def compactMembers : List (String × Json) → List String
  | [] => []
  | (name, value) :: rest => (writeText name ++ ":" ++ compact value) :: compactMembers rest

end

/-- The start of a line at a given depth. -/
def lineStart (depth : Nat) : String :=
  "\n" ++ String.ofList (List.replicate (2 * depth) ' ')

/-- Items between brackets, one a line. Without items the brackets stand together. -/
def bracketed (opening closing : String) (depth : Nat) (lines : List String) : String :=
  if lines.isEmpty then
    opening ++ closing
  else
    opening ++ ",".intercalate (lines.map (lineStart (depth + 1) ++ ·)) ++
      lineStart depth ++ closing

mutual

/-- A value with one item a line, starting at a given depth. -/
def indentedAt (depth : Nat) : Json → String
  | arr items => bracketed "[" "]" depth (indentedItems (depth + 1) items)
  | obj members => bracketed "\x7b" "\x7d" depth (indentedMembers (depth + 1) members)
  | scalar => writeScalar scalar

/-- The items of an array at a given depth. -/
def indentedItems (depth : Nat) : List Json → List String
  | [] => []
  | item :: rest => indentedAt depth item :: indentedItems depth rest

/-- The members of an object at a given depth. -/
def indentedMembers (depth : Nat) : List (String × Json) → List String
  | [] => []
  | (name, value) :: rest =>
      (writeText name ++ ": " ++ indentedAt depth value) :: indentedMembers depth rest

end

/-- A value with one item a line. -/
def indented (value : Json) : String :=
  indentedAt 0 value

end CircuitNetwork.Json
