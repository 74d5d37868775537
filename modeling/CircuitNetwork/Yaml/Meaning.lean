import CircuitNetwork.Text.Base64
import CircuitNetwork.Yaml.Problem
import CircuitNetwork.Yaml.Timestamp

namespace CircuitNetwork.Yaml

/-!
# Meanings of scalars

What a plain scalar means follows from its text. A tag asks for a certain
meaning, which the text must then have.
-/

/-- What a scalar means. An integer has 64 bits with or without a sign. A real number is only known
by its whole part, which none stands for if it is too great for 64 bits or no number. Other meanings
are texts, each with its tag. -/
inductive Meaning where
  | null
  | truth
  | integer (value : Int)
  | real (whole : Option Int64)
  | timestamp
  | text (tag : String) (content : String)
  deriving Repr, DecidableEq, Inhabited

namespace Meaning

/-- The tag of texts. -/
def textTag : String := "!!str"

/-- The tag of the key that stands for the entries of other mappings. -/
def mergeTag : String := "!!merge"

/-- The tag of encoded bytes. -/
def binaryTag : String := "!!binary"

/-- The tag of a meaning. -/
def tag : Meaning → String
  | null => "!!null"
  | truth => "!!bool"
  | integer _ => "!!int"
  | real _ => "!!float"
  | timestamp => "!!timestamp"
  | text tag _ => tag

/-- A text that means itself. -/
def word (content : String) : Meaning := text textTag content

/-- The meaning of a text that is written in a fixed way. -/
def ofWord? (word : String) : Option Meaning :=
  if ["", "~", "null", "Null", "NULL"].contains word then some null
  else if ["true", "True", "TRUE", "false", "False", "FALSE"].contains word then some truth
  else if [".nan", ".NaN", ".NAN"].contains word then some (real none)
  else if [".inf", ".Inf", ".INF", "+.inf", "+.Inf", "+.INF"].contains word then some (real none)
  else if ["-.inf", "-.Inf", "-.INF"].contains word then some (real (some Int64.minValue))
  else none

/-- The whole part of a real number in 64 bits. The numbers below the range give the least integer,
and so does the first one above it. -/
def wholePart (negative : Bool) (size : Nat) : Option Int64 :=
  if negative then
    some (if size < 0x8000000000000000 then Int64.ofInt (-size) else Int64.minValue)
  else if size < 0x8000000000000000 then
    some (Int64.ofNat size)
  else if size = 0x8000000000000000 then
    some Int64.minValue
  else
    none

/-- The real number that a decimal number stands for. None stands for one beyond all of them. -/
def ofDecimal? (numeral : List Char) : Option Meaning := do
  let decimal ← Text.parseDecimal? numeral
  let size ← decimal.whole?
  return real (wholePart decimal.negative size)

/-- The integer that a text writes with a sign between the mark of its base and its digits. -/
def ofInnerSign? : List Char → Option Meaning
  | '0' :: mark :: sign :: first :: rest => do
      let base ← if mark = 'b' then some 2 else if mark = 'o' then some 8 else none
      let negative ← if sign = '-' then some true else if sign = '+' then some false else none
      let size ← (Text.readDigits base 0 (first :: rest)).toOption
      let value : Int := if negative then -size else size
      if -0x8000000000000000 ≤ value ∧ value < 0x8000000000000000 then return integer value else none
  | _ => none

/-- The number that a text with a digit or a sign at its start writes. Underscores are left out. -/
def ofNumber? (word : String) : Option Meaning :=
  let numeral := word.toList.filter (· ≠ '_')
  match Text.parseInteger (String.ofList numeral), Text.parseMagnitude numeral with
  | .ok value, _ => some (integer value.toInt)
  | .error _, .ok value => some (integer value)
  | .error _, .error _ => ofDecimal? numeral <|> ofInnerSign? numeral

/-- Whether each underscore in a text stands between two digits. -/
def dividesDigits : Option Char → List Char → Bool
  | _, [] => true
  | before, c :: rest =>
      (c ≠ '_' || (before.any Char.isDigit && rest.head?.any Char.isDigit)) &&
        dividesDigits (some c) rest

/-- The real number that a text with a point at its start writes. Underscores divide digits. -/
def ofFraction? (numeral : List Char) : Option Meaning :=
  if dividesDigits none numeral then ofDecimal? (numeral.filter (· ≠ '_')) else none

/-- The meaning of a text. Timestamps are taken as such if the caller says so. -/
def ofText (timestamps : Bool) (content : String) : Meaning :=
  match ofWord? content with
  | some meaning => meaning
  | none =>
      match content.toList with
      | [] => null
      | first :: rest =>
          if first.isDigit || first = '+' || first = '-' then
            if timestamps && isTimestamp (first :: rest) then timestamp
            else (ofNumber? content).getD (word content)
          else if first = '.' then
            (ofFraction? (first :: rest)).getD (word content)
          else
            word content

/-- The meaning of a plain scalar. -/
def ofPlain (content : String) : Meaning :=
  if content = "<<" then text mergeTag content else ofText true content

/-- The meaning that a tag asks for. An integer is a real number too, and bytes are decoded. Any
other tag makes a text a value of its own. -/
def ofTagged (tag content : String) : Except Malformed Meaning :=
  if ["!!bool", "!!int", "!!float", "!!null", "!!timestamp"].contains tag then
    let meaning := ofText (tag = "!!timestamp") content
    match meaning with
    | integer value =>
        if tag = "!!int" then
          .ok meaning
        else if tag = "!!float" && value < 0x8000000000000000 then
          .ok (real (wholePart (value < 0) (Text.roundedWhole value.natAbs 1)))
        else
          .error (.overall (.badTagged meaning.tag content tag))
    | _ =>
        if meaning.tag = tag then .ok meaning
        else .error (.overall (.badTagged meaning.tag content tag))
  else if tag = binaryTag then
    match Text.decodeBase64? content with
    | some decoded => .ok (text tag decoded)
    | none => .error (.overall .badBinary)
  else
    .ok (text tag content)

end Meaning

end CircuitNetwork.Yaml
