import CircuitNetwork.Entity
import CircuitNetwork.Wire.Color

namespace CircuitNetwork

/-!
# Boards

A board holds entities and the networks that wires of one color join their
endpoints into. A network lists its endpoints in the order in which they joined
it, and the signals that they carry onto it. An endpoint points to its network of
each color. When a network takes another one in, it lists the endpoints of the
other one too and they point to it; the other one stays on the board without
endpoints.
-/

/-- A port of an entity on a board. -/
structure Endpoint where
  entity : Nat
  port : Port
  deriving Repr, DecidableEq, Inhabited

/-- Endpoints joined by wires of one color. -/
structure Network where
  color : Color
  points : List Endpoint := []
  signals : SignalSet := SignalMap.empty
  deriving Repr, DecidableEq, Inhabited

/-- Networks, and the one that each endpoint points to in a color. -/
structure Wires where
  networks : Array Network := #[]
  pointers : List ((Color × Endpoint) × Nat) := []
  deriving Repr, DecidableEq, Inhabited

/-- Entities and the networks between them. -/
structure Board extends Wires where
  entities : Array Entity := #[]
  deriving Repr, DecidableEq, Inhabited

namespace Board

/-- The number of entities, which is the identity of the next one. -/
def size (board : Board) : Nat :=
  board.entities.size

/-- Add an entity. -/
def add (board : Board) (body : Body) : Board :=
  { board with entities := board.entities.push (.ofBody body) }

/-- An entity. -/
def entity (board : Board) (id : Nat) : Entity :=
  board.entities.getD id default

/-- Change an entity. -/
def modifyEntity (board : Board) (id : Nat) (change : Entity → Entity) : Board :=
  { board with entities := board.entities.modify id change }

/-- Change a network. -/
def modifyNetwork (board : Board) (id : Nat) (change : Network → Network) : Board :=
  { board with networks := board.networks.modify id change }

/-- The endpoint that an entity reads from. -/
def input (_ : Board) (id : Nat) : Endpoint :=
  ⟨id, .one⟩

/-- The endpoint that an entity puts its values out through. -/
def output (board : Board) (id : Nat) : Endpoint :=
  ⟨id, (board.entity id).body.outputPort⟩

/-- The signals that an endpoint knows. -/
def signals (board : Board) (point : Endpoint) : SignalSet :=
  (board.entity point.entity).signals point.port

/-- The network of a color that an endpoint points to. -/
def network? (board : Board) (color : Color) (point : Endpoint) : Option Nat :=
  board.pointers.lookup (color, point)

/-- Let an endpoint point to a network of a color. -/
def pointTo (board : Board) (color : Color) (point : Endpoint) (network : Nat) : Board :=
  let others := board.pointers.filter (·.1 ≠ (color, point))
  { board with pointers := ((color, point), network) :: others }

/-- The endpoints of a network, in the order in which they joined it. -/
def points (board : Board) (network : Nat) : List Endpoint :=
  (board.networks[network]?.map (·.points)).getD []

/-- Whether a wire of some color is attached to an endpoint. -/
def isConnected (board : Board) (point : Endpoint) : Bool :=
  Color.all.any fun color => (board.network? color point).isSome

/-- The other endpoints on the network of an endpoint. -/
def partners (board : Board) (color : Color) (point : Endpoint) : List Endpoint :=
  match board.network? color point with
  | some network => (board.points network).filter (· ≠ point)
  | none => []

/-- Attach an endpoint to a network: it points to the network, and the network lists it. -/
def attach (board : Board) (network : Nat) (point : Endpoint) : Board :=
  match board.networks[network]? with
  | none => board
  | some found =>
      (board.pointTo found.color point network).modifyNetwork network fun joined =>
        { joined with
          points := joined.points ++ [point]
          signals := joined.signals.union (board.signals point) }

/-- Move the endpoints and the signals of one network into another. -/
def absorb (board : Board) (network absorbed : Nat) : Board :=
  match board.networks[absorbed]? with
  | none => board
  | some old =>
      let board := old.points.foldl (·.attach network ·) board
      let board := board.modifyNetwork network fun joined =>
        { joined with signals := joined.signals.union old.signals }
      board.modifyNetwork absorbed fun stale => { stale with points := [] }

/-- Make an endpoint part of a network, together with the network that it is on. -/
def join (board : Board) (color : Color) (network : Nat) (point : Endpoint) : Board :=
  match board.network? color point with
  | some current => if current = network then board else board.absorb network current
  | none => board.attach network point

/-- Lay wires of one color. The first network found at one of the endpoints takes in the others. -/
def wire (board : Board) (color : Color) (points : List Endpoint) : Board :=
  match points.findSome? (board.network? color) with
  | some network => points.foldl (·.join color network ·) board
  | none =>
      let fresh := { board with networks := board.networks.push { color := color } }
      points.foldl (·.join color board.networks.size ·) fresh

/-- Connect endpoints with wires. At least two endpoints are needed, none of them missing, and the
color must stand for a wire. -/
def connect
    (board : Board)
    (color : ColorCode)
    (points : List (Option Endpoint)) :
    Except Misuse Board :=
  if points.length < 2 then
    .error .fewEndpoints
  else
    match points.mapM id with
    | none => .error .nullEndpoint
    | some points =>
        match color.wires? with
        | none => .error (.connectionColor color)
        | some colors => .ok (colors.foldl (·.wire · points) board)

end Board

end CircuitNetwork
