import CircuitNetwork.Netlist.Dict
import CircuitNetwork.Netlist.Param

namespace CircuitNetwork

/-!
# Netlist cells

A cell has a type, parameters and connections. A collection that was never given
is told apart from an empty one only when the cell is written out.
-/

/-- A netlist cell. -/
structure Cell where
  type : String := ""
  parameters : Option (Dict Param) := none
  connections : Option (Dict (Option (List Bit))) := none
  deriving Inhabited

namespace Cell

/-- A parameter by name. -/
def param? (cell : Cell) (name : String) : Option Param :=
  cell.parameters.bind (·.find? name)

/-- The bits of a connection by name. -/
def bits? (cell : Cell) (name : String) : Option (List Bit) :=
  (cell.connections.bind (·.find? name)).map (·.getD [])

/-- A parameter that must be there. -/
def param (cell : Cell) (name : String) : Except Failure Param :=
  match cell.param? name with
  | some param => .ok param
  | none => .error (.ofReason (.missingParameter cell.type name))

/-- The number that a parameter writes. -/
def int (cell : Cell) (name : String) : Except Failure Int := do
  let param ← cell.param name
  match param.toInt with
  | .ok value => .ok value
  | .error reason =>
      .error ((Failure.ofReason reason).within ("cell " ++ cell.type ++ ": parameter " ++ name))

/-- A connection that must be there. -/
def bits (cell : Cell) (name : String) : Except Failure (List Bit) :=
  match cell.bits? name with
  | some bits => .ok bits
  | none => .error (.ofReason (.missingConnection cell.type name))

/-- The same cell with another parameter. -/
def setParam (cell : Cell) (name : String) (param : Param) : Cell :=
  { cell with parameters := some ((cell.parameters.getD Dict.empty).set name param) }

/-- The same cell with another connection. -/
def setBits (cell : Cell) (name : String) (bits : Option (List Bit)) : Cell :=
  { cell with connections := some ((cell.connections.getD Dict.empty).set name bits) }

/-- The same cell without a parameter and without a connection of the given name. -/
def erase (cell : Cell) (name : String) : Cell :=
  { cell with
    parameters := cell.parameters.map (·.erase name)
    connections := cell.connections.map (·.erase name) }

end Cell

end CircuitNetwork
