import CircuitNetwork.Json.Basic
import CircuitNetwork.Netlist.Cell

namespace CircuitNetwork

/-!
# Cells as JSON

A net is written as its number and a literal bit as a string. Parameters are
strings; a reader also takes plain integers. A cell is an object whose three keys
are recognised without regard to case, and other keys are passed over.

The first value in the order of the document that does not fit ends the reading.
-/

/-- Why a JSON value could not be read. -/
inductive CodecError where
  | shape
  | reason (reason : Reason)
  deriving Repr, DecidableEq, Inhabited

/-- The integers that fit in 64 bits. -/
def fits64 (value : Int) : Bool :=
  -0x8000000000000000 ≤ value && value < 0x8000000000000000

namespace Bit

/-- Read a bit. A missing value counts as an empty string. -/
def ofJson : Json → Except CodecError Bit
  | .str "0" => .ok zero
  | .str "1" => .ok one
  | .str "x" => .ok x
  | .str "z" => .ok z
  | .str text => .error (.reason (.invalidBit text))
  | .null => .error (.reason (.invalidBit ""))
  | .int number =>
      if !fits64 number then .error .shape
      else if number < 2 then .error (.reason (.invalidNet number))
      else .ok ⟨number⟩
  | _ => .error .shape

/-- Write a bit. -/
def toJson (bit : Bit) : Json :=
  if bit.isConst then .str bit.text else .int bit.code

/-- Read a bit vector. A missing value is told apart from an empty vector. -/
def vectorOfJson : Json → Except CodecError (Option (List Bit))
  | .null => .ok none
  | .arr items => (items.mapM ofJson).map some
  | _ => .error .shape

/-- Write a bit vector. -/
def vectorToJson (bits : List Bit) : Json :=
  .ofList toJson bits

end Bit

namespace Param

/-- Read a parameter. A missing value counts as an empty string. -/
def ofJson : Json → Except CodecError Param
  | .str text => .ok ⟨text⟩
  | .null => .ok ⟨""⟩
  | .int value => if fits64 value then .ok (ofInt value) else .error .shape
  | _ => .error .shape

/-- Write a parameter. -/
def toJson (param : Param) : Json :=
  .str param.digits

end Param

namespace Cell

/-- Lower case, for the letters that a key can hold: the long s and the kelvin sign are letters too. -/
def foldCase (c : Char) : Char :=
  if c = '\u017f' then 's'
  else if c = '\u212a' then 'k'
  else c.toLower

/-- Two keys that differ only in case. -/
def sameKey (first second : String) : Bool :=
  first.toList.map foldCase = second.toList.map foldCase

/-- Read one parameter into a cell. -/
def readParam (cell : Cell) (entry : String × Json) : Except CodecError Cell := do
  return cell.setParam entry.1 (← Param.ofJson entry.2)

/-- Read parameters into a cell. They join those that it has. -/
def readParams (cell : Cell) : Json → Except CodecError Cell
  | .null => .ok { cell with parameters := none }
  | .obj entries =>
      entries.foldlM readParam
        { cell with parameters := some (cell.parameters.getD Dict.empty) }
  | _ => .error .shape

/-- Read one connection into a cell. -/
def readConnection (cell : Cell) (entry : String × Json) : Except CodecError Cell := do
  return cell.setBits entry.1 (← Bit.vectorOfJson entry.2)

/-- Read connections into a cell. They join those that it has. -/
def readConnections (cell : Cell) : Json → Except CodecError Cell
  | .null => .ok { cell with connections := none }
  | .obj entries =>
      entries.foldlM readConnection
        { cell with connections := some (cell.connections.getD Dict.empty) }
  | _ => .error .shape

/-- Read the type into a cell. -/
def readType (cell : Cell) : Json → Except CodecError Cell
  | .null => .ok cell
  | .str text => .ok { cell with type := text }
  | _ => .error .shape

/-- Read one member of the object that writes a cell. -/
def readMember (cell : Cell) (member : String × Json) : Except CodecError Cell :=
  if sameKey member.1 "type" then cell.readType member.2
  else if sameKey member.1 "parameters" then cell.readParams member.2
  else if sameKey member.1 "connections" then cell.readConnections member.2
  else .ok cell

/-- Read a cell. A missing value is the empty cell. -/
def ofJson : Json → Except CodecError Cell
  | .null => .ok {}
  | .obj members => members.foldlM readMember {}
  | _ => .error .shape

/-- Write a dictionary as an object. -/
def dictToJson {α : Type} (encode : α → Json) (dict : Dict α) : Json :=
  .obj (dict.entries.map fun entry => (entry.1, encode entry.2))

/-- Write a cell. -/
def toJson (cell : Cell) : Json :=
  .obj [
    ("type", .str cell.type),
    ("parameters", .ofOption (dictToJson Param.toJson) cell.parameters),
    ("connections", .ofOption (dictToJson (.ofOption Bit.vectorToJson)) cell.connections)]

end Cell

end CircuitNetwork
