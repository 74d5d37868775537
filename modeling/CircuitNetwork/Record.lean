import CircuitNetwork.Json.Basic
import CircuitNetwork.Wire.Board

namespace CircuitNetwork

/-!
# Blueprint records

The record of an entity: what it is, where it stands, and for each of its ports
and each color the endpoints that share a network with the port. An entity whose
ports are not all wired has no record.
-/

/-- An endpoint as a record lists it: the number of its entity and of its port. -/
structure Partner where
  entity : Nat
  port : Nat
  deriving Repr, DecidableEq, Inhabited

/-- The endpoints that share a network with a port, by color. -/
structure Links where
  red : List Partner
  green : List Partner
  deriving Repr, DecidableEq, Inhabited

/-- The record of an entity. -/
structure Record where
  number : Nat
  position : Position
  direction : Int
  body : Body
  links : List (Port × Links)
  deriving Repr, DecidableEq, Inhabited

namespace Board

/-- The endpoints that share a network with an endpoint, as a record lists them. -/
def partnerList (board : Board) (color : Color) (point : Endpoint) : List Partner :=
  (board.partners color point).map fun partner =>
    { entity := (board.entity partner.entity).number, port := partner.port.number }

/-- The links of an endpoint. -/
def links (board : Board) (point : Endpoint) : Links :=
  { red := board.partnerList .red point, green := board.partnerList .green point }

/-- The ports of an entity that must be wired, with the complaint about each that is not. -/
def requiredPorts : Body → List (Port × String)
  | .constant .. => [(.one, "no wire connected")]
  | .decider _ | .arithmetic _ =>
      [(.one, "input not connected"), (.two, "output not connected")]
  | .fixture _ => []

/-- The record of an entity. A fixture has none. -/
def record (board : Board) (id : Nat) : Except Failure (Option Record) :=
  let entity := board.entity id
  let ports := requiredPorts entity.body
  match ports.find? fun required => !board.isConnected ⟨id, required.1⟩ with
  | some (_, complaint) => .error (.ofFault ⟨.unconnected, entity.label, complaint⟩)
  | none =>
      if entity.body.isCombinator then
        .ok (some {
          number := entity.number
          position := entity.position
          direction := entity.direction
          body := entity.body
          links := ports.map fun required => (required.1, board.links ⟨id, required.1⟩) })
      else
        .ok none

end Board

/-- A length in half tiles, written in tiles. -/
def halfTiles (halves : Nat) : Json :=
  if halves % 2 = 0 then .nat (halves / 2) else .decimal (toString (halves / 2) ++ ".5")

/-- A position in tiles. -/
def Position.toJson (position : Position) : Json :=
  .obj [("x", halfTiles position.x), ("y", halfTiles position.y)]

/-- A signal as an object. -/
def Signal.toJson (signal : Signal) : Json :=
  .obj [("type", .str signal.type), ("name", .str signal.name)]

/-- The member of a condition that writes its second operand. -/
def Operand.member : Operand → String × Json
  | .signal read => ("second_signal", read.toJson)
  | .constant value => ("constant", .int value.toInt)

/-- What an entity does, as an object. -/
def Body.toJson : Body → Json
  | .constant isOn filters =>
      .obj [
        ("is_on", .bool isOn),
        ("filters", .ofList
          (fun filter => .obj [
            ("signal", filter.signal.toJson),
            ("count", .int filter.count.toInt),
            ("index", .int filter.index)])
          filters)]
  | .decider condition =>
      .obj [("decider_conditions", .obj [
        ("first_signal", condition.first.toJson),
        condition.second.member,
        ("comparator", .str condition.comparator.symbol),
        ("output_signal", condition.output.toJson),
        ("copy_count_from_input", .bool condition.copyCount)])]
  | .arithmetic condition =>
      .obj [("arithmetic_conditions", .obj [
        ("first_signal", condition.first.toJson),
        condition.second.member,
        ("operation", .str condition.operator.symbol),
        ("output_signal", condition.output.toJson)])]
  | .fixture _ => .null

/-- A listed endpoint as an object. -/
def Partner.toJson (partner : Partner) : Json :=
  .obj [("entity_id", .nat partner.entity), ("circuit_id", .nat partner.port)]

/-- The links of a port as an object. A color without links is left out. -/
def Links.toJson (links : Links) : Json :=
  .obj (([("red", links.red), ("green", links.green)].filter (!·.2.isEmpty)).map fun color =>
    (color.1, .ofList Partner.toJson color.2))

/-- A record as an object. A direction of zero is left out. -/
def Record.toJson (record : Record) : Json :=
  let direction := if record.direction = 0 then [] else [("direction", .int record.direction)]
  .obj ([
      ("entity_number", .nat record.number),
      ("name", .str record.body.name),
      ("position", record.position.toJson)] ++
    direction ++ [
      ("control_behavior", record.body.toJson),
      ("connections", .obj (record.links.map fun port =>
        (toString port.1.number, port.2.toJson)))])

end CircuitNetwork
