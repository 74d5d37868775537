import CircuitNetwork.Wire.Board

namespace CircuitNetwork

/-!
# Parts

A part is a handful of entities together with the wires between them. Its
endpoints count the entities from the first one of the part, and installing it
on a board moves them to where the part comes to stand.
-/

/-- Entities and the wires between them. -/
structure Part where
  bodies : List Body
  wires : List (Color × List Endpoint)
  deriving Repr, DecidableEq, Inhabited

/-- The same endpoint when everything stands further on. -/
def Endpoint.shift (point : Endpoint) (base : Nat) : Endpoint :=
  { point with entity := base + point.entity }

namespace Board

/-- Add entities in order. -/
def addAll (board : Board) (bodies : List Body) : Board :=
  bodies.foldl add board

/-- Add the entities of a part, then lay its wires. -/
def install (board : Board) (part : Part) : Board :=
  part.wires.foldl
    (fun wired (color, points) => wired.wire color (points.map (·.shift board.size)))
    (board.addAll part.bodies)

end Board

end CircuitNetwork
