import CircuitNetwork.Failure
import CircuitNetwork.Text.Characters

namespace CircuitNetwork

/-!
# Cell parameters

A parameter is a string of binary digits, the most significant first. As a
number it is a 32 bit two's complement word; longer strings are read as long as
the digits beyond the last 32 are zeros. Length is counted in bytes, and a
number is read from any bytes.
-/

/-- A cell parameter. -/
structure Param where
  digits : String
  deriving Repr, DecidableEq, Inhabited

namespace Param

/-- The binary digits of a word, the most significant first. -/
def wordDigits (word : Nat) : List Char :=
  (List.range 32).map fun index => if word.testBit (31 - index) then '1' else '0'

/-- The 32 digits of an integer, reduced to 32 bits. -/
def ofInt (value : Int) : Param :=
  ⟨String.ofList (wordDigits (value % 0x100000000).toNat)⟩

/-- The bytes of a parameter. -/
def bytes (param : Param) : List UInt8 := param.digits.toUTF8.toList

/-- The number that a list of binary digits writes. -/
def binaryValue? (digits : List UInt8) : Option Nat :=
  digits.foldlM
    (fun value digit =>
      if digit = 0x30 then some (2 * value)
      else if digit = 0x31 then some (2 * value + 1)
      else none)
    0

/-- A 32 bit word as a signed number. -/
def signed (word : Nat) : Int :=
  if word < 0x80000000 then word else (word : Int) - 0x100000000

/-- Why bytes write no number. Only the bytes that are read can be invalid. -/
inductive Defect where
  | empty
  | outOfRange
  | invalid (digits : List UInt8)
  deriving Repr, DecidableEq, Inhabited

/-- The signed number that bytes write. They need not be well encoded. -/
def ofBytes (bytes : List UInt8) : Except Defect Int :=
  let surplus := bytes.length - 32
  if bytes.isEmpty then
    .error .empty
  else if (Text.characters (bytes.take surplus)).all (· = '0') then
    match binaryValue? (bytes.drop surplus) with
    | some word => .ok (signed word)
    | none => .error (.invalid (bytes.drop surplus))
  else
    .error .outOfRange

/-- The signed number that a parameter writes. -/
def toInt (param : Param) : Except Reason Int :=
  match ofBytes param.bytes with
  | .ok number => .ok number
  | .error .empty => .error .emptyParameter
  | .error .outOfRange => .error (.parameterOutOfRange param.digits)
  | .error (.invalid digits) =>
      .error (.invalidParameter (String.ofList (Text.characters digits)))

/-- Whether every byte of a parameter is the given one. -/
def allAre (param : Param) (byte : UInt8) : Bool :=
  param.bytes.all (· = byte)

/-- The parameter that repeats one digit. -/
def replicate (count : Nat) (digit : Char) : Param :=
  ⟨String.ofList (List.replicate count digit)⟩

end Param

end CircuitNetwork
